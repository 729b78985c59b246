-- The settings of the balancing protocol and the share of votes that its
-- quorums compare. The share is an `f64` division: with no hubs it is not
-- a number or infinite, and with hubs it is taken as the exact quotient.
import Mathlib.Data.Rat.Defs
import Mathlib.Algebra.Order.Field.Rat
import Mathlib.Data.Finset.Card
import Mathlib.Tactic.Linarith

namespace EdgeGateway.Quorum

/-- `protocol.toml`, read without any check of its values. -/
structure ProtocolSettings where
  maxAttempts : UInt64
  frequencyPhase : UInt32
  frequencySafeMode : UInt32
  timeoutHandshake : UInt64
  timeoutPhase : UInt64
  timeoutSafeMode : UInt64
  timeBetweenHeartbeatsBalanceMode : UInt64
  timeBetweenHeartbeatsNormal : UInt64
  timeBetweenHeartbeatsSafeMode : UInt64
  deriving Repr, DecidableEq, Inhabited

/-- What the tasks read and never change: the id of the edge and the
protocol settings. The cache of networks is a part of the state instead. -/
structure AppContext where
  idEdge : String
  quorum : ProtocolSettings
  deriving Repr, DecidableEq, Inhabited

/-- The value of a quotient of two counts, times one hundred. -/
inductive Share where
  | notANumber
  | infinite
  | exact (q : ℚ)
  deriving Repr, DecidableEq

/-- `(votes as f64 / total as f64) * 100.0`. -/
def share (votes total : Nat) : Share :=
  if total = 0 then
    if votes = 0 then .notANumber else .infinite
  else .exact ((votes : ℚ) / total * 100)

/-- `>=` of `f64`: every comparison with a NaN is false. -/
def Share.ge : Share → ℚ → Bool
  | .notANumber, _ => false
  | .infinite, _ => true
  | .exact q, threshold => decide (threshold ≤ q)

theorem share_ge_iff (votes total : Nat) (threshold : ℚ) :
    (share votes total).ge threshold = true ↔
      (total = 0 ∧ votes ≠ 0) ∨ (total ≠ 0 ∧ threshold * total ≤ 100 * votes) := by
  unfold share
  by_cases ht : total = 0
  · by_cases hv : votes = 0 <;> simp [ht, hv, Share.ge]
  · have hpos : (0 : ℚ) < total := by exact_mod_cast Nat.pos_of_ne_zero ht
    have hq : threshold ≤ (votes : ℚ) / total * 100 ↔ threshold * total ≤ 100 * votes := by
      rw [div_mul_eq_mul_div, le_div_iff₀ hpos, mul_comm (votes : ℚ) 100]
    simp [ht, Share.ge, hq]

/-- Someone voted whenever the share reaches a positive threshold. -/
theorem votes_pos_of_ge {votes total : Nat} {threshold : ℚ} (ht : 0 < threshold)
    (h : (share votes total).ge threshold = true) : 0 < votes := by
  rcases (share_ge_iff votes total threshold).mp h with ⟨_, hv⟩ | ⟨hn, hle⟩
  · exact Nat.pos_of_ne_zero hv
  · have hpos : (0 : ℚ) < total := by exact_mod_cast Nat.pos_of_ne_zero hn
    have : (0 : ℚ) < 100 * votes := lt_of_lt_of_le (mul_pos ht hpos) hle
    have : (0 : ℚ) < votes := by linarith
    exact_mod_cast this

/-- A share reached by distinct members of `members` alone is reached among
the members, as long as the total counts all of them. -/
theorem reached_of_members {ι : Type} [DecidableEq ι] {members : Finset ι} {total : Nat}
    (htotal : members.card ≤ total) {votes voters : List ι} (hnodup : votes.Nodup)
    (hmembers : ∀ k ∈ votes, k ∈ members) (hvoters : ∀ k ∈ votes, k ∈ voters) {threshold : ℚ}
    (hpos : 0 < threshold) (h : (share votes.length total).ge threshold = true) :
    members.Nonempty ∧
      threshold * members.card ≤ 100 * (members.filter (fun k => k ∈ voters)).card := by
  have hvotes := votes_pos_of_ge hpos h
  obtain ⟨k, hk⟩ := List.exists_mem_of_length_pos hvotes
  have hne : members.Nonempty := ⟨k, hmembers k hk⟩
  refine ⟨hne, ?_⟩
  have hcard : votes.length ≤ (members.filter (fun k => k ∈ voters)).card := by
    rw [← List.toFinset_card_of_nodup hnodup]
    refine Finset.card_le_card fun x hx => ?_
    rw [List.mem_toFinset] at hx
    exact Finset.mem_filter.mpr ⟨hmembers x hx, hvoters x hx⟩
  rcases (share_ge_iff votes.length total threshold).mp h with ⟨h0, _⟩ | ⟨_, hle⟩
  · have := Finset.card_pos.mpr hne
    omega
  · have h1 : (members.card : ℚ) ≤ total := by exact_mod_cast htotal
    have h2 : (votes.length : ℚ) ≤ (members.filter (fun k => k ∈ voters)).card := by
      exact_mod_cast hcard
    calc threshold * members.card ≤ threshold * total := mul_le_mul_of_nonneg_left h1 hpos.le
      _ ≤ 100 * votes.length := hle
      _ ≤ 100 * (members.filter (fun k => k ∈ voters)).card := by linarith

end EdgeGateway.Quorum
