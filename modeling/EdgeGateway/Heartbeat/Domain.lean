-- The state machine of the heartbeat: four states, and a status that it
-- announces when it changes. The watchdog of the machine is left to its
-- environment: a `Timeout` may come at any moment.
import EdgeGateway.Message.Domain

namespace EdgeGateway.Heartbeat

open EdgeGateway.Message

/-! ## Types -/

inductive State where
  | startingWait
  | itsAlive
  | deadServer
  | notHeartbeatYet
  deriving Repr, DecidableEq

inductive Event where
  | heartbeat
  | timeout
  | initTimer
  | stopTimer
  deriving Repr, DecidableEq

inductive Action where
  | sendStatusConditional (old new : ServerStatus)
  | onEntry (state : State)
  | stopTimer
  deriving Repr, DecidableEq

/-- `Status` of the machine has the two values of `ServerStatus`. -/
structure FsmHeartbeat where
  state : State
  oldStatus : ServerStatus
  status : ServerStatus
  deriving Repr, DecidableEq

namespace FsmHeartbeat

def new : FsmHeartbeat :=
  { state := .startingWait, oldStatus := .disconnected, status := .disconnected }

/-! ## Transitions -/

/-- The machine after an event and the actions of the transition; `none` is
the invalid transition. -/
def stepInner (m : FsmHeartbeat) (e : Event) : Option (FsmHeartbeat × List Action) :=
  match m.state, e with
  | .startingWait, .heartbeat =>
    some ({ state := .itsAlive, oldStatus := .connected, status := .connected },
      [.sendStatusConditional m.oldStatus .connected, .stopTimer])
  | .startingWait, .timeout => some ({ m with state := .notHeartbeatYet }, [])
  | .itsAlive, .heartbeat => some ({ m with state := .startingWait }, [.stopTimer])
  | .itsAlive, .timeout => some ({ m with state := .notHeartbeatYet }, [])
  | .notHeartbeatYet, .heartbeat => some ({ m with state := .startingWait }, [.stopTimer])
  | .notHeartbeatYet, .timeout =>
    some ({ state := .deadServer, oldStatus := .disconnected, status := .disconnected },
      [.sendStatusConditional m.oldStatus .disconnected])
  | .deadServer, .heartbeat => some ({ m with state := .startingWait }, [])
  | _, _ => none

/-- `step` adds the entry action of a state that is new. -/
def step (m : FsmHeartbeat) (e : Event) : Option (FsmHeartbeat × List Action) :=
  (m.stepInner e).map (fun out =>
    (out.1, if m.state ≠ out.1.state then out.2 ++ [.onEntry out.1.state] else out.2))

end FsmHeartbeat

/-- What the task `heartbeat` reports to the core when it executes an action:
a status that has changed. -/
def Action.reports : Action → Option ServerStatus
  | .sendStatusConditional old new => if old ≠ new then some new else none
  | _ => none

/-! ## What the machine announces -/

namespace FsmHeartbeat

/-- The status that the machine compares with is its status. -/
def Settled (m : FsmHeartbeat) : Prop := m.oldStatus = m.status

theorem settled_new : Settled new := rfl

/-- A transition reports the status exactly when it changes it. -/
theorem step_reports {m m' : FsmHeartbeat} {e : Event} {l : List Action} (h : m.Settled)
    (hs : m.step e = some (m', l)) :
    m'.Settled ∧
      l.filterMap Action.reports = if m'.status = m.status then [] else [m'.status] := by
  obtain ⟨state, oldStatus, status⟩ := m
  unfold Settled at h
  simp only at h
  subst h
  cases state <;> cases e <;>
    simp only [step, stepInner, Option.map_some, Option.map_none, Option.some.injEq,
      Prod.mk.injEq, reduceCtorEq] at hs <;>
    obtain ⟨rfl, rfl⟩ := hs <;>
    cases oldStatus <;> exact ⟨rfl, by decide⟩

end FsmHeartbeat

end EdgeGateway.Heartbeat
