-- A countdown whose commands are all still to be taken. A countdown is told apart by what it
-- was started with: `map` forgets it, and `outlook` says which one runs once the queue is
-- taken, as long as no start is lost on the way.
import EdgeGateway.Lib.Actors

namespace EdgeGateway.Lib

universe u v

variable {α : Type u} {β : Type v}

def Cmd.map (f : α → β) : Cmd α → Cmd β
  | .start a => .start (f a)
  | .stop => .stop
  | .other => .other

namespace Countdown

/-! ## What it was started with -/

def map (f : α → β) : Countdown α → Countdown β
  | .idle => .idle
  | .running a => .running (f a)
  | .deaf a => .deaf (f a)
  | .firing a => .firing (f a)

theorem receive_map (f : α → β) (c : Countdown α) (x : Cmd α) :
    (c.map f).receive (x.map f) = (c.receive x).map (map f) := by
  cases c <;> cases x <;> rfl

theorem expire_map (f : α → β) (c : Countdown α) (b : Bool) :
    (c.map f).expire b = (c.expire b).map (fun out => (out.1.map f, out.2.map f)) := by
  cases c <;> cases b <;> rfl

/-! ## Its outlook -/

/-- Whether the task listens, and which countdown runs. -/
def listening : Countdown α → Option (Option α)
  | .idle => some none
  | .running a => some (some a)
  | .deaf _ => none
  | .firing _ => none

/-- What the commands make of a task that listens; `none` if it stops listening. -/
def plan : Option α → List (Cmd α) → Option (Option α)
  | c, [] => some c
  | _, .stop :: q => plan none q
  | none, .start a :: q => plan (some a) q
  | none, .other :: q => plan none q
  | some _, .start _ :: _ => none
  | some _, .other :: _ => none

/-- The countdown that runs once the commands are taken and nothing has expired. -/
def outlook (c : Countdown α) (q : List (Cmd α)) : Option (Option α) :=
  c.listening.bind (plan · q)

theorem plan_append (c : Option α) (q r : List (Cmd α)) :
    plan c (q ++ r) = (plan c q).bind (plan · r) := by
  induction q generalizing c with
  | nil => rfl
  | cons x q ih => cases c <;> cases x <;> simp [plan, ih]

theorem outlook_append (c : Countdown α) (q r : List (Cmd α)) :
    c.outlook (q ++ r) = (c.outlook q).bind (plan · r) := by
  unfold outlook
  cases c.listening with
  | none => rfl
  | some running => exact plan_append running q r

/-- A command that is taken was planned. -/
theorem outlook_receive {c c' : Countdown α} {x : Cmd α} {q : List (Cmd α)} {e : Option α}
    (h : c.outlook (x :: q) = some e) (hr : c.receive x = some c') : c'.outlook q = some e := by
  cases c <;> cases x <;> simp [outlook, listening, plan, receive] at h hr <;> subst hr <;>
    simpa [outlook, listening] using h

/-- With an outlook, what expires is what runs, and the task waits again. -/
theorem outlook_expire {c c' : Countdown α} {q : List (Cmd α)} {e out : Option α} {b : Bool}
    (h : c.outlook q = some e) (hb : b = true) (hx : c.expire b = some (c', out)) :
    ∃ a, c = .running a ∧ c' = .idle ∧ out = some a := by
  subst hb
  cases c with
  | idle => cases hx
  | running a =>
    obtain ⟨rfl, rfl⟩ := Prod.mk.inj (Option.some.inj hx)
    exact ⟨a, rfl, rfl, rfl⟩
  | deaf a => cases h
  | firing a => cases h

end Countdown

end EdgeGateway.Lib
