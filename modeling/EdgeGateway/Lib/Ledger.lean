-- A ledger of orders and answers. An answer carries the name of an order and not its
-- identity, so the law is that of a pairing: each order has one later answer with its
-- name, and each answer is the answer of one order.
import Mathlib.Data.List.Infix

namespace EdgeGateway.Lib

universe u

inductive Entry (κ : Type u) where
  | order (k : κ)
  | answer (k : κ)
  deriving Repr, DecidableEq

/-- The entries fall into pairs, an order and a later answer with its name. -/
inductive Matched {κ : Type u} : List (Entry κ) → Prop where
  | nil : Matched []
  | pair (a b c : List (Entry κ)) (k : κ) (h : Matched (a ++ b ++ c)) :
      Matched (a ++ .order k :: b ++ .answer k :: c)

variable {κ : Type u}

/-! ## What is due -/

/-- An order of a name in `S` is due, and its answer settles it. -/
def Entry.due (S : κ → Bool) : Entry κ → Int
  | order k => (S k).toNat
  | answer k => -(S k).toNat

/-- The orders with a name in `S` that have no answer. -/
def due (S : κ → Bool) : List (Entry κ) → Int
  | [] => 0
  | e :: l => e.due S + due S l

section Due

variable (S : κ → Bool) (l r : List (Entry κ)) (k : κ)

@[simp] theorem due_nil : due S [] = 0 := rfl

@[simp] theorem due_order : due S (.order k :: l) = (S k).toNat + due S l := rfl

@[simp] theorem due_answer : due S (.answer k :: l) = due S l - (S k).toNat := by
  change -((S k).toNat : Int) + due S l = due S l - (S k).toNat
  omega

@[simp] theorem due_append : due S (l ++ r) = due S l + due S r := by
  induction l with
  | nil => simp
  | cons e l ih =>
    rw [List.cons_append, due, due, ih]
    omega

end Due

/-! ## Matched ledgers -/

namespace Matched

variable {l p : List (Entry κ)}

/-- An order that is answered at once. -/
theorem answered (h : Matched l) (k : κ) : Matched (l ++ [.order k, .answer k]) := by
  have hpair := pair l [] [] k (by simpa using h)
  simpa using hpair

theorem due_eq (h : Matched l) (S : κ → Bool) : due S l = 0 := by
  induction h with
  | nil => rfl
  | pair a b c k _ ih =>
    simp only [due_append, due_order, due_answer] at ih ⊢
    omega

/-- A prefix ends in the first part or covers it. -/
theorem prefix_cases {α : Type u} {p q r : List α} (h : p <+: q ++ r) :
    p <+: q ∨ ∃ r', r' <+: r ∧ p = q ++ r' := by
  rcases List.prefix_or_prefix_of_prefix h (List.prefix_append q r) with hq | ⟨r', rfl⟩
  · exact Or.inl hq
  · exact Or.inr ⟨r', (List.prefix_append_right_inj q).mp h, rfl⟩

/-- No answer comes before its order. -/
theorem due_nonneg (h : Matched l) (hp : p <+: l) (S : κ → Bool) : 0 ≤ due S p := by
  induction h generalizing p with
  | nil =>
    rw [List.prefix_nil.mp hp]
    exact Int.le_refl 0
  | pair a b c k _ ih =>
    have hall : a <+: a ++ b ++ c := by
      rw [List.append_assoc]
      exact List.prefix_append a (b ++ c)
    rw [List.append_assoc] at hp
    rcases prefix_cases hp with hpa | ⟨r, hr, rfl⟩
    · exact ih (hpa.trans hall)
    · rcases List.prefix_cons_iff.mp hr with rfl | ⟨q, rfl, hq⟩
      · rw [List.append_nil]
        exact ih hall
      · rcases prefix_cases hq with ⟨b', rfl⟩ | ⟨d, hd, rfl⟩
        · -- the answer has not come: its order is due
          have hbefore := ih (p := a ++ q) ⟨b' ++ c, by simp⟩
          simp only [due_append, due_order] at hbefore ⊢
          omega
        · rcases List.prefix_cons_iff.mp hd with rfl | ⟨c', rfl, hc⟩
          · have hbefore := ih (p := a ++ b) (List.prefix_append _ _)
            simp only [due_append, due_order, List.append_nil] at hbefore ⊢
            omega
          · have hbefore := ih (p := a ++ b ++ c') ((List.prefix_append_right_inj _).mpr hc)
            simp only [due_append, due_order, due_answer] at hbefore ⊢
            omega

/-- An answer with another name than the only order that is due. -/
theorem not_of_foreign [DecidableEq κ] (h : Matched l) {j k : κ} (hjk : j ≠ k)
    (r : List (Entry κ)) : ¬ Matched (l ++ [.order j, .answer k] ++ r) := by
  intro hbad
  have hpos := hbad.due_nonneg (List.prefix_append _ r) (fun n => decide (n = k))
  have hzero := h.due_eq (fun n => decide (n = k))
  simp [hzero, hjk] at hpos

end Matched

end EdgeGateway.Lib
