-- What tasks that talk over channels share: the room of a channel, and the
-- countdown of a task that sleeps inside a `select!` beside its own command
-- channel. A command that the select does not match is consumed and lost,
-- and from then on the task no longer listens until its sleep ends.
import Mathlib.Data.List.Basic

namespace EdgeGateway.Lib

universe u

/-! ## Channels -/

/-- `room cap q`: a channel holding `q` takes one more element. `none` is
the capacity of an unbounded channel. -/
def room {α : Type u} (cap : Option Nat) (q : List α) : Bool :=
  match cap with
  | none => true
  | some n => q.length < n

@[simp] theorem room_none {α : Type u} (q : List α) : room none q = true := rfl

@[simp] theorem room_some {α : Type u} (n : Nat) (q : List α) :
    room (some n) q = decide (q.length < n) := rfl

/-! ## The countdown -/

/-- A command on the channel of a countdown. `other` is what the task was
not written for. -/
inductive Cmd (α : Type u) where
  | start (a : α)
  | stop
  | other
  deriving Repr, DecidableEq

/-- The command without what it carries. -/
def Cmd.kind {α : Type u} : Cmd α → Cmd Unit
  | .start _ => .start ()
  | .stop => .stop
  | .other => .other

/-- Where the task of a countdown is suspended: waiting for a command,
asleep and listening, asleep with its command branch disabled, or sending
what its expiry sends. -/
inductive Countdown (α : Type u) where
  | idle
  | running (a : α)
  | deaf (a : α)
  | firing (a : α)
  deriving Repr, DecidableEq

namespace Countdown

variable {α : Type u}

/-- The task takes a command; `none` where it does not listen. -/
def receive : Countdown α → Cmd α → Option (Countdown α)
  | .idle, .start a => some (.running a)
  | .idle, .stop => some .idle
  | .idle, .other => some .idle
  | .running _, .stop => some .idle
  | .running a, .start _ => some (.deaf a)
  | .running a, .other => some (.deaf a)
  | .deaf _, _ => none
  | .firing _, _ => none

/-- The sleep ends. With room the expiry is delivered at once, without it
the task stays suspended in its send. -/
def expire (hasRoom : Bool) : Countdown α → Option (Countdown α × Option α)
  | .idle => none
  | .running a => if hasRoom then some (.idle, some a) else some (.firing a, none)
  | .deaf a => if hasRoom then some (.idle, some a) else some (.firing a, none)
  | .firing a => if hasRoom then some (.idle, some a) else none

/-- The countdown has been started and its expiry is still to come. -/
def isRunning : Countdown α → Bool
  | .running _ => true
  | .deaf _ => true
  | _ => false

/-- What the commands make of a listening task that is (`b`) or is not
asleep, if it takes them all before an expiry. -/
def settle (b : Bool) : List (Cmd Unit) → Bool
  | [] => b
  | .start _ :: q => settle true q
  | .stop :: q => settle false q
  | .other :: q => settle b q

/-- Once the commands `q` are taken, an expiry is still to come. -/
def Armed (c : Countdown α) (q : List (Cmd Unit)) : Prop :=
  match c with
  | .idle => settle false q = true
  | .running _ => settle true q = true
  | .deaf _ => True
  | .firing _ => True

theorem settle_append (b : Bool) (q r : List (Cmd Unit)) :
    settle b (q ++ r) = settle (settle b q) r := by
  induction q generalizing b with
  | nil => rfl
  | cons c q ih => cases c <;> simp [settle, ih]

theorem settle_mono {q : List (Cmd Unit)} (h : settle false q = true) (b : Bool) :
    settle b q = true := by
  induction q generalizing b with
  | nil => simp [settle] at h
  | cons c q ih =>
    cases c with
    | start a => exact h
    | stop => exact h
    | other => exact ih h b

/-- A waiting task is put to sleep by a start alone. -/
theorem mem_of_settle {q : List (Cmd Unit)} (h : settle false q = true) : .start () ∈ q := by
  induction q with
  | nil => simp [settle] at h
  | cons c q ih =>
    cases c with
    | start a => exact List.mem_cons_self
    | stop => exact List.mem_cons_of_mem _ (ih h)
    | other => exact List.mem_cons_of_mem _ (ih h)

/-- Commands that put a waiting task to sleep arm every countdown, whatever
it takes before them. -/
theorem armed_of_settle {c : Countdown α} {q : List (Cmd Unit)} (p : List (Cmd Unit))
    (h : settle false q = true) : Armed c (p ++ q) := by
  cases c with
  | idle => simp only [Armed, settle_append, settle_mono h]
  | running a => simp only [Armed, settle_append, settle_mono h]
  | deaf a => trivial
  | firing a => trivial

/-- Taking the first command does not disarm the countdown. -/
theorem armed_receive {c c' : Countdown α} {x : Cmd α} {q : List (Cmd Unit)}
    (h : c.Armed (x.kind :: q)) (hr : c.receive x = some c') : c'.Armed q := by
  cases c with
  | idle =>
    cases x <;> simp only [receive, Option.some.injEq] at hr <;> subst hr <;>
      simpa [Armed, settle, Cmd.kind] using h
  | running a =>
    cases x with
    | stop =>
      simp only [receive, Option.some.injEq] at hr
      subst hr
      simpa [Armed, settle, Cmd.kind] using h
    | start b => simp only [receive, Option.some.injEq] at hr; subst hr; trivial
    | other => simp only [receive, Option.some.injEq] at hr; subst hr; trivial
  | deaf a => simp [receive] at hr
  | firing a => simp [receive] at hr

/-- An expiry that finds no room is still to be delivered. -/
theorem expire_none {c c' : Countdown α} {b : Bool} (h : c.expire b = some (c', none)) :
    b = false ∧ ∃ a, c' = .firing a := by
  cases c <;> cases b <;>
    simp only [expire, Bool.false_eq_true, if_true, if_false, Option.some.injEq, Prod.mk.injEq,
      reduceCtorEq, and_false, and_true] at h <;>
    exact ⟨rfl, _, h.symm⟩

/-- An expiry that is delivered leaves the countdown waiting. -/
theorem expire_some {c c' : Countdown α} {b : Bool} {a : α} (h : c.expire b = some (c', some a)) :
    b = true ∧ c' = .idle ∧ c ≠ .idle := by
  cases c <;> cases b <;>
    simp only [expire, Bool.false_eq_true, if_true, if_false, Option.some.injEq, Prod.mk.injEq,
      reduceCtorEq, and_false] at h <;>
    exact ⟨rfl, h.1.symm, by simp⟩

/-- Only an expiry without room leaves a countdown sending. -/
theorem receive_ne_firing {c c' : Countdown α} {x : Cmd α} (h : c.receive x = some c') (a : α) :
    c' ≠ .firing a := by
  cases c <;> cases x <;> simp only [receive, Option.some.injEq, reduceCtorEq] at h <;>
    subst h <;> simp

/-- A countdown with nothing left to take is armed only when its expiry is to come. -/
theorem ne_idle_of_armed_nil {c : Countdown α} (h : c.Armed []) : c ≠ .idle := by
  rintro rfl
  simp [Armed, settle] at h

/-- How many commands of the queue start a countdown. -/
def starts : List (Cmd Unit) → Nat
  | [] => 0
  | .start _ :: q => starts q + 1
  | .stop :: q => starts q
  | .other :: q => starts q

/-- How many expiries can still come: the one under way, and one for each
start in the queue. -/
def credit (c : Countdown α) (q : List (Cmd Unit)) : Nat :=
  match c with
  | .idle => starts q
  | _ => starts q + 1

theorem starts_append (q r : List (Cmd Unit)) : starts (q ++ r) = starts q + starts r := by
  induction q with
  | nil => simp [starts]
  | cons c q ih => cases c <;> simp [starts, ih]; omega

theorem credit_append (c : Countdown α) (q r : List (Cmd Unit)) :
    c.credit (q ++ r) = c.credit q + starts r := by
  cases c <;> simp [credit, starts_append] <;> omega

/-- Taking a command brings no expiry that the queue did not promise. -/
theorem credit_receive {c c' : Countdown α} {x : Cmd α} {q : List (Cmd Unit)}
    (h : c.receive x = some c') : c'.credit q ≤ c.credit (x.kind :: q) := by
  cases c <;> cases x <;> simp only [receive, Option.some.injEq, reduceCtorEq] at h <;>
    subst h <;> simp [credit, starts, Cmd.kind]

/-- An expiry that is delivered uses the one that was to come. -/
theorem credit_expire {c c' : Countdown α} {b : Bool} {out : Option α}
    (h : c.expire b = some (c', out)) (q : List (Cmd Unit)) :
    c'.credit q + out.toList.length = c.credit q := by
  cases c <;> cases b <;>
    simp only [expire, Bool.false_eq_true, if_true, if_false, Option.some.injEq, Prod.mk.injEq,
      reduceCtorEq] at h <;>
    obtain ⟨rfl, rfl⟩ := h <;> rfl

end Countdown

end EdgeGateway.Lib
