-- A filter that waits for two equal samples in a row. Its level follows a
-- sample only when the sample repeats the one before it.
import Mathlib.Data.List.Chain

namespace EdgeGateway.Lib

universe u

/-- What the filter keeps: the last sample and the level it announces. -/
structure Debounce (α : Type u) where
  last : α
  level : α

namespace Debounce

variable {α : Type u}

section

variable [DecidableEq α]

def sample (d : Debounce α) (a : α) : Debounce α :=
  { last := a, level := if d.last = a then a else d.level }

/-- The filter after the samples, the oldest first. -/
def after (d : Debounce α) (as : List α) : Debounce α := as.foldl sample d

/-- The levels it turns to on the way. -/
def turns (d : Debounce α) : List α → List α
  | [] => []
  | a :: as =>
    if (d.sample a).level = d.level then turns (d.sample a) as
    else (d.sample a).level :: turns (d.sample a) as

theorem after_snoc (d : Debounce α) (as : List α) (a : α) :
    d.after (as ++ [a]) = (d.after as).sample a := by
  unfold after
  rw [List.foldl_append]
  rfl

/-- A sample turns the level exactly when it repeats the last one and is not
the level already. -/
theorem turn_iff (d : Debounce α) (a b : α) :
    d.level ≠ b ∧ (d.sample a).level = b ↔ a = b ∧ d.level ≠ b ∧ d.last = b := by
  unfold sample
  constructor
  · rintro ⟨hne, hb⟩
    dsimp only at hb
    split at hb
    · rename_i hlast
      exact ⟨hb, hne, hlast.trans hb⟩
    · exact absurd hb hne
  · rintro ⟨rfl, hne, hlast⟩
    exact ⟨hne, if_pos hlast⟩

/-- Each turn leaves the level that the turn before it reached. -/
theorem turns_chain (d : Debounce α) (as : List α) :
    (d.level :: d.turns as).IsChain (· ≠ ·) := by
  induction as generalizing d with
  | nil => exact List.isChain_singleton _
  | cons a as ih =>
    unfold turns
    split
    · rename_i hsame
      exact hsame ▸ ih (d.sample a)
    · rename_i hturn
      exact List.isChain_cons_cons.mpr ⟨fun h => hturn h.symm, ih (d.sample a)⟩

end

/-! ## Two levels -/

/-- The list of length `n` that begins with `a` and goes to and fro. -/
def alternating (a b : α) : Nat → List α
  | 0 => []
  | n + 1 => a :: alternating b a n

/-- Where there are only two levels, the turns go to and fro between them. -/
theorem alternating_of_chain {a b : α} (two : ∀ c : α, c = a ∨ c = b) {l : List α}
    (h : (b :: l).IsChain (· ≠ ·)) : l = alternating a b l.length := by
  induction l generalizing a b with
  | nil => rfl
  | cons c l ih =>
    obtain ⟨hne, hrest⟩ := List.isChain_cons_cons.mp h
    have hc : c = a := (two c).resolve_right (fun h => hne h.symm)
    subst hc
    have := ih (fun x => (two x).symm) hrest
    rw [List.length_cons, alternating, ← this]

end Debounce

end EdgeGateway.Lib
