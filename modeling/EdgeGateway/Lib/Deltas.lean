-- The differences between readings that follow each other, cut off at zero.
-- Of a counter that only grows they add up to its growth. Of amounts that
-- stand for themselves they add up to less, unless silence parts them.
import Mathlib.Algebra.Order.BigOperators.Group.List
import Mathlib.Algebra.Order.Sub.Basic

namespace EdgeGateway.Lib

universe u

/-- The differences of a list of readings, the first one to `last`. -/
def deltas {α : Type u} [Sub α] : α → List α → List α
  | _, [] => []
  | last, current :: rest => (current - last) :: deltas current rest

section Sums

variable {α : Type u} [AddCommMonoid α] [LinearOrder α] [IsOrderedCancelAddMonoid α]
  [CanonicallyOrderedAdd α] [Sub α] [OrderedSub α]

/-- A counter that only grows has grown by the sum of its differences. -/
theorem sum_deltas_of_grows {last : α} {l : List α} (h : (last :: l).IsChain (· ≤ ·)) :
    (deltas last l).sum + last = (last :: l).getLast (by simp) := by
  induction l generalizing last with
  | nil => simp [deltas]
  | cons current rest ih =>
    obtain ⟨hle, hrest⟩ := List.isChain_cons_cons.mp h
    rw [List.getLast_cons (by simp), ← ih hrest, deltas, List.sum_cons,
      add_comm (current - last), add_assoc, tsub_add_cancel_of_le hle]

/-- Only silence on one side leaves a difference whole. -/
theorem tsub_eq_self (a b : α) : b - a = b ↔ a = 0 ∨ b = 0 := by
  constructor
  · intro h
    rcases le_total a b with hle | hle
    · left
      have hsum := tsub_add_cancel_of_le hle
      rw [h] at hsum
      exact left_eq_add.mp hsum.symm
    · right
      rw [← h]
      exact tsub_eq_zero_of_le hle
  · rintro (rfl | rfl)
    · exact tsub_zero b
    · exact zero_tsub a

theorem sum_deltas_le (last : α) (l : List α) : (deltas last l).sum ≤ l.sum := by
  induction l generalizing last with
  | nil => exact le_rfl
  | cons current rest ih =>
    rw [deltas, List.sum_cons, List.sum_cons]
    exact add_le_add tsub_le_self (ih current)

/-- The differences add up to the readings exactly when no two readings that follow each other
are both of something. -/
theorem sum_deltas_eq_iff (last : α) (l : List α) :
    (deltas last l).sum = l.sum ↔ (last :: l).IsChain (fun a b => a = 0 ∨ b = 0) := by
  induction l generalizing last with
  | nil => simp [deltas]
  | cons current rest ih =>
    rw [deltas, List.sum_cons, List.sum_cons, List.isChain_cons_cons,
      add_eq_add_iff_eq_and_eq tsub_le_self (sum_deltas_le current rest), tsub_eq_self, ih]

end Sums

end EdgeGateway.Lib
