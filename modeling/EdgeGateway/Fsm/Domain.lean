-- The state machine of the balancing protocol, as `fsm/domain.rs` has it:
-- a hierarchical state, a pure `step` that answers an event with the next
-- state and the actions of the way, and the vote session of the runtime.
import EdgeGateway.Quorum
import Mathlib.Data.List.AList

namespace EdgeGateway.Fsm

/-! ## States, events and actions -/

inductive StateGlobal where
  | start
  | balanceMode (epoch : UInt32)
  | normal
  | safeMode
  deriving Repr, DecidableEq

inductive SubStateBalanceMode where
  | initBalanceMode
  | inHandshake
  | quorum
  | phase
  | outHandshake
  deriving Repr, DecidableEq

inductive SubStateQuorum where
  | checkQuorumIn
  | checkQuorumOut
  | repeatHandshakeIn
  | repeatHandshakeOut
  deriving Repr, DecidableEq

inductive SubStatePhase where
  | alert
  | data
  | monitor
  deriving Repr, DecidableEq

/-- The whole state. A substate is `none` while its parent is not active. -/
structure FsmState where
  globalState : StateGlobal
  balance : Option SubStateBalanceMode
  quorum : Option SubStateQuorum
  phase : Option SubStatePhase
  deriving Repr, DecidableEq

inductive Action where
  | sendHeartbeatMessagePhase
  | sendHeartbeatMessageSafeMode
  | sendHeartbeatMessageNormal
  | stopSendHeartbeatMessagePhase
  | stopSendHeartbeatMessageSafeMode
  | onEntryBalance (sub : SubStateBalanceMode)
  | onEntryQuorum (sub : SubStateQuorum)
  | onEntryPhase (sub : SubStatePhase)
  | onEntryNormal
  | onEntrySafeMode
  | stopTimer
  | calculateQuorum
  deriving Repr, DecidableEq

/-- Events of the machine; `initTimer` and `stopTimer` go to timers only.
A duration is in seconds. -/
inductive Event where
  | start
  | timeout
  | balanceEpochOk
  | balanceEpochNotOk
  | approveQuorum
  | quorumPhase
  | quorumSafeMode
  | notApproveQuorum
  | notApproveNotAttempts
  | initTimer (duration : UInt64)
  | stopTimer
  | newMessageHandshake
  deriving Repr, DecidableEq

structure TransitionValid where
  changeState : FsmState
  actions : List Action
  deriving Repr, DecidableEq

structure TransitionInvalid where
  invalid : String
  deriving Repr, DecidableEq

inductive Transition where
  | valid (t : TransitionValid)
  | invalid (t : TransitionInvalid)
  deriving Repr, DecidableEq

/-! ## The transitions -/

def FsmState.new : FsmState :=
  { globalState := .start, balance := none, quorum := none, phase := none }

def invalid : Transition := .invalid ⟨"Transición inválida"⟩

def stateInitBalanceModeEventBalanceEpoch (s : FsmState) : Transition :=
  .valid ⟨{ s with balance := some .inHandshake }, []⟩

def stateInitBalanceModeEventBalanceEpochNotOk (s : FsmState) : Transition :=
  .valid ⟨{ s with balance := none, globalState := .safeMode }, []⟩

def stateInHandshakeEventTimeout (s : FsmState) : Transition :=
  .valid ⟨{ s with balance := some .quorum, quorum := some .checkQuorumIn }, []⟩

def newMessageHandshake (s : FsmState) : Transition := .valid ⟨s, [.calculateQuorum]⟩

def stateRepeatInHandshakeEventApprove (s : FsmState) : Transition :=
  .valid ⟨{ s with balance := some .phase, phase := some .alert, quorum := none }, [.stopTimer]⟩

def stateRepeatOutHandshakeEventApprove (s : FsmState) : Transition :=
  .valid ⟨{ s with balance := none, quorum := none, globalState := .normal }, [.stopTimer]⟩

def stateInHandshakeEventApprove (s : FsmState) : Transition :=
  .valid ⟨{ s with balance := some .phase, phase := some .alert, quorum := none }, [.stopTimer]⟩

def stateCheckQuorumInEventNotApprove (s : FsmState) : Transition :=
  .valid ⟨{ s with quorum := some .repeatHandshakeIn }, []⟩

def stateCheckQuorumOutEventNotApprove (s : FsmState) : Transition :=
  .valid ⟨{ s with quorum := some .repeatHandshakeOut }, []⟩

def stateCheckQuorumInEventApproveQuorum (s : FsmState) : Transition :=
  .valid ⟨{ s with balance := some .phase, phase := some .alert, quorum := none }, [.stopTimer]⟩

def stateCheckQuorumOutEventApproveQuorum (s : FsmState) : Transition :=
  .valid ⟨{ s with balance := none, quorum := none, globalState := .normal }, [.stopTimer]⟩

def stateCheckQuorumEventNotAndNot (s : FsmState) : Transition :=
  .valid ⟨{ s with globalState := .safeMode, balance := none, quorum := none }, []⟩

def stateRepeatHandshakeIn (s : FsmState) : Transition :=
  .valid ⟨{ s with quorum := some .checkQuorumIn }, []⟩

def stateRepeatHandshakeOut (s : FsmState) : Transition :=
  .valid ⟨{ s with quorum := some .checkQuorumOut }, []⟩

def stateAlertEventTimeoutOrQuorum (s : FsmState) : Transition :=
  .valid ⟨{ s with phase := some .data }, [.stopTimer]⟩

def stateDataEventTimeoutOrQuorum (s : FsmState) : Transition :=
  .valid ⟨{ s with phase := some .monitor }, [.stopTimer]⟩

def stateMonitorEventTimeoutOrQuorum (s : FsmState) : Transition :=
  .valid ⟨{ s with balance := some .outHandshake, phase := none },
    [.stopSendHeartbeatMessagePhase, .stopTimer]⟩

def stateOutHandshakeEventTimeout (s : FsmState) : Transition :=
  .valid ⟨{ s with balance := some .quorum, quorum := some .checkQuorumOut }, []⟩

def stateOutHandshakeEventApprove (s : FsmState) : Transition :=
  .valid ⟨{ s with balance := none, quorum := none, globalState := .normal }, [.stopTimer]⟩

/-- The entry actions, found by comparing the old state with the new. -/
def computeOnEntry (old new : FsmState) : List Action :=
  (if old.balance ≠ new.balance then
    match new.balance with
    | some s => [.onEntryBalance s]
    | none => []
  else []) ++
  (if old.quorum ≠ new.quorum then
    match new.quorum with
    | some s => [.onEntryQuorum s]
    | none => []
  else []) ++
  (if old.globalState ≠ new.globalState ∧ new.globalState = .normal then
    [.onEntryNormal] else []) ++
  (if old.globalState ≠ new.globalState ∧ new.globalState = .safeMode then
    [.onEntrySafeMode] else []) ++
  (if old.phase ≠ new.phase then
    match new.phase with
    | some s => [.onEntryPhase s]
    | none => []
  else [])

namespace FsmState

def stepStart (s : FsmState) (event : Event) : Transition :=
  match s.globalState, event with
  | .start, .start =>
    .valid ⟨{ s with globalState := .balanceMode 0, balance := some .initBalanceMode }, []⟩
  | _, _ => .invalid ⟨"Invalid"⟩

def stepBalanceMode (s : FsmState) (event : Event) : Transition :=
  match s.balance, event with
  | some .initBalanceMode, .balanceEpochOk => stateInitBalanceModeEventBalanceEpoch s
  | some .initBalanceMode, .balanceEpochNotOk => stateInitBalanceModeEventBalanceEpochNotOk s
  | some .inHandshake, .timeout => stateInHandshakeEventTimeout s
  | some .inHandshake, .newMessageHandshake => Fsm.newMessageHandshake s
  | some .inHandshake, .approveQuorum => stateInHandshakeEventApprove s
  | some .inHandshake, .notApproveQuorum => .valid ⟨s, []⟩
  | some .quorum, _ =>
    match s.quorum, event with
    | some .checkQuorumIn, .notApproveQuorum => stateCheckQuorumInEventNotApprove s
    | some .checkQuorumIn, .approveQuorum => stateCheckQuorumInEventApproveQuorum s
    | some .checkQuorumIn, .notApproveNotAttempts => stateCheckQuorumEventNotAndNot s
    | some .checkQuorumOut, .notApproveQuorum => stateCheckQuorumOutEventNotApprove s
    | some .checkQuorumOut, .approveQuorum => stateCheckQuorumOutEventApproveQuorum s
    | some .checkQuorumOut, .notApproveNotAttempts => stateCheckQuorumEventNotAndNot s
    | some .repeatHandshakeIn, .timeout => stateRepeatHandshakeIn s
    | some .repeatHandshakeIn, .newMessageHandshake => Fsm.newMessageHandshake s
    | some .repeatHandshakeIn, .approveQuorum => stateRepeatInHandshakeEventApprove s
    | some .repeatHandshakeIn, .notApproveQuorum => .valid ⟨s, []⟩
    | some .repeatHandshakeOut, .timeout => stateRepeatHandshakeOut s
    | some .repeatHandshakeOut, .newMessageHandshake => Fsm.newMessageHandshake s
    | some .repeatHandshakeOut, .approveQuorum => stateRepeatOutHandshakeEventApprove s
    | some .repeatHandshakeOut, .notApproveQuorum => .valid ⟨s, []⟩
    | _, _ => Fsm.invalid
  | some .phase, _ =>
    match s.phase, event with
    | some .alert, .timeout => stateAlertEventTimeoutOrQuorum s
    | some .alert, .quorumPhase => stateAlertEventTimeoutOrQuorum s
    | some .data, .timeout => stateDataEventTimeoutOrQuorum s
    | some .data, .quorumPhase => stateDataEventTimeoutOrQuorum s
    | some .monitor, .timeout => stateMonitorEventTimeoutOrQuorum s
    | some .monitor, .quorumPhase => stateMonitorEventTimeoutOrQuorum s
    | _, _ => Fsm.invalid
  | some .outHandshake, .timeout => stateOutHandshakeEventTimeout s
  | some .outHandshake, .approveQuorum => stateOutHandshakeEventApprove s
  | some .outHandshake, .notApproveQuorum => .valid ⟨s, []⟩
  | some .outHandshake, .newMessageHandshake => Fsm.newMessageHandshake s
  | _, _ => Fsm.invalid

def stepSafeMode (s : FsmState) (event : Event) : Transition :=
  if event = .timeout ∨ event = .quorumSafeMode then
    .valid ⟨{ s with globalState := .normal }, [.stopSendHeartbeatMessageSafeMode]⟩
  else .invalid ⟨"Transición inválida"⟩

def stepInner (s : FsmState) (event : Event) : Transition :=
  match s.globalState with
  | .start => s.stepStart event
  | .balanceMode _ => s.stepBalanceMode event
  | .safeMode => s.stepSafeMode event
  | .normal => .invalid
      ⟨"No hay mas transiciones para ejecutar, una vez dentro de Normal, no se sale nunca"⟩

/-- The transition of an event, with the entry actions of the new state
after its own. -/
def step (s : FsmState) (event : Event) : Transition :=
  match s.stepInner event with
  | .valid t => .valid { t with actions := t.actions ++ computeOnEntry s t.changeState }
  | .invalid t => .invalid t

end FsmState

/-! ## The vote session -/

inductive StateOfSession where
  | none
  | inHandshake
  | quorum
  | repeatHandshake
  | outHandshake
  | phaseAlert
  | phaseData
  | phaseMonitor
  | safeMode
  deriving Repr, DecidableEq

/-- The two vote sets and the attempts. The attempts are an `f64` that is
only reset and incremented by one, so a natural number stands for them. -/
structure UpdateSession where
  emptyHash : AList (fun _ : String => Bool)
  handshakeHash : AList (fun _ : String => UInt32)
  state : StateOfSession
  totalAttempts : Nat

namespace UpdateSession

def new : UpdateSession :=
  { emptyHash := ∅, handshakeHash := ∅, state := .none, totalAttempts := 0 }

def resetTotalAttempts (u : UpdateSession) : UpdateSession := { u with totalAttempts := 0 }

def resetEmptyHash (u : UpdateSession) : UpdateSession := { u with emptyHash := ∅ }

def resetHandshakeHash (u : UpdateSession) : UpdateSession := { u with handshakeHash := ∅ }

def insertEmpty (u : UpdateSession) (key : String) (value : Bool) : UpdateSession :=
  if key ∈ u.emptyHash then u else { u with emptyHash := u.emptyHash.insert key value }

def insertHandshake (u : UpdateSession) (key : String) (value : UInt32) : UpdateSession :=
  if key ∈ u.handshakeHash then u
  else { u with handshakeHash := u.handshakeHash.insert key value }

def setState (u : UpdateSession) (s : StateOfSession) : UpdateSession := { u with state := s }

def incrementAttempts (u : UpdateSession) : UpdateSession :=
  { u with totalAttempts := u.totalAttempts + 1 }

def getTotalHandshake (u : UpdateSession) : Nat := u.handshakeHash.entries.length

def getTotalEmpty (u : UpdateSession) : Nat := u.emptyHash.entries.length

end UpdateSession

end EdgeGateway.Fsm
