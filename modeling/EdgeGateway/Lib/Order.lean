-- What may follow what. A reader of events keeps what it knows of those before, and
-- an order says which event it allows next: of a list, each must be allowed by those
-- before it. So a prefix of an ordered list is ordered.
import Mathlib.Data.List.Basic

namespace EdgeGateway.Lib

/-- What the events so far let one know, and what may come next. -/
structure Order (ε κ : Type) where
  start : κ
  next : κ → ε → κ
  allows : κ → ε → Bool

namespace Order

variable {ε κ : Type} (o : Order ε κ)

/-- What is known after some events. -/
def after (events : List ε) : κ := events.foldl o.next o.start

/-- Each event is allowed by those before it. -/
def Holds (events : List ε) : Prop :=
  ∀ before e rest, events = before ++ e :: rest → o.allows (o.after before) e = true

@[simp] theorem after_snoc (events : List ε) (e : ε) :
    o.after (events ++ [e]) = o.next (o.after events) e := by
  simp [after]

theorem holds_nil : o.Holds [] := by
  intro before e rest h
  simp at h

theorem holds_snoc {events : List ε} {e : ε} :
    o.Holds (events ++ [e]) ↔ o.Holds events ∧ o.allows (o.after events) e = true := by
  constructor
  · intro h
    refine ⟨fun before e' rest heq => h before e' (rest ++ [e]) (by simp [heq]), ?_⟩
    exact h events e [] rfl
  · rintro ⟨h, he⟩ before e' rest heq
    rcases rest.eq_nil_or_concat with rfl | ⟨rest', last, rfl⟩
    · obtain ⟨rfl, hlast⟩ := List.append_inj' heq rfl
      obtain rfl := (List.singleton_inj.mp hlast)
      exact he
    · rw [List.concat_eq_append, ← List.cons_append, ← List.append_assoc] at heq
      exact h before e' rest' (List.append_inj' heq rfl).1

/-- Of ordered events the first ones are ordered. -/
theorem Holds.before {o : Order ε κ} {events later : List ε} (h : o.Holds (events ++ later)) :
    o.Holds events :=
  fun before e rest heq => h before e (rest ++ later) (by simp [heq])

end Order

end EdgeGateway.Lib
