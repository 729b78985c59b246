-- The runtime of the balancing protocol: the tasks `fsm`, `run_fsm` and
-- `fsm_watchdog_timer` with the channels between them. Each send of `fsm`
-- is a step of its own, so a run can stop `fsm` in the middle of a list.
import EdgeGateway.Lib.Machine
import EdgeGateway.Lib.Actors
import EdgeGateway.Network.Domain
import EdgeGateway.Fsm.Domain

namespace EdgeGateway.Fsm

open EdgeGateway.Lib EdgeGateway.Message EdgeGateway.Networks EdgeGateway.Quorum

/-! ## What `fsm` sends -/

inductive FsmServiceResponse where
  | newEpoch (epoch : UInt32)
  | getEpoch
  | toHub (msg : HubMessage)
  | edgeState (state : String)
  deriving Repr, DecidableEq

inductive FsmServiceCommand where
  | errorEpoch
  | epoch (epoch : UInt32)
  | fromHub (msg : HubMessage)
  | createRuntime
  | deleteRuntime
  deriving Repr, DecidableEq

/-- What is left of the code that `fsm` is executing: the actions of a list
still to be handled, and the sends of the one under way. -/
inductive Op where
  | act (action : Action)
  | toFsm (event : Event)
  | toTimer (event : Event)
  | toCore (response : FsmServiceResponse)
  | toHeartbeat (action : Action)
  | toEdgeState (state : StateGlobal)
  deriving Repr, DecidableEq

def buildMetadata (ctx : AppContext) (destination : String) (now : Int64) : Metadata :=
  { senderUserId := ctx.idEdge, destinationId := destination, timestamp := now }

def initTimer (duration : UInt64) : List Op := [.toTimer (.initTimer duration)]

def sendHandshake (metadata : Metadata) (epoch : UInt32) (state : SubStateBalanceMode) :
    List Op :=
  match state with
  | .inHandshake =>
    [.toCore (.toHub (.handshakeToHub { metadata, flag := "in", balanceEpoch := epoch }))]
  | .outHandshake =>
    [.toCore (.toHub (.handshakeToHub { metadata, flag := "out", balanceEpoch := epoch }))]
  | _ => []

def onEntryInHandshake (ctx : AppContext) (epoch : UInt32) (state : SubStateBalanceMode)
    (now : Int64) : List Op :=
  sendHandshake (buildMetadata ctx "all" now) epoch state ++ initTimer ctx.quorum.timeoutHandshake

def onEntryOutHandshake (ctx : AppContext) (epoch : UInt32) (state : SubStateBalanceMode)
    (now : Int64) : List Op :=
  sendHandshake (buildMetadata ctx "all" now) epoch state ++ initTimer ctx.quorum.timeoutHandshake

def onEntryRepeatHandshake (ctx : AppContext) (epoch : UInt32) (state : SubStateQuorum)
    (now : Int64) : List Op :=
  (match state with
    | .repeatHandshakeIn =>
      [.toCore (.toHub (.handshakeToHub
        { metadata := buildMetadata ctx "all" now, flag := "in", balanceEpoch := epoch }))]
    | .repeatHandshakeOut =>
      [.toCore (.toHub (.handshakeToHub
        { metadata := buildMetadata ctx "all" now, flag := "out", balanceEpoch := epoch }))]
    | _ => []) ++
  initTimer ctx.quorum.timeoutHandshake

def sendPhaseNotification (ctx : AppContext) (metadata : Metadata) (epoch : UInt32)
    (phase : String) (jitter : UInt32) : List Op :=
  [.toCore (.toHub (.phaseNotification
    { metadata, state := "balance_mode", epoch, phase,
      frequency := ctx.quorum.frequencyPhase, jitter }))]

/-- What the entry of a phase sends, for the phase named `phase`. -/
def onEntryPhase (ctx : AppContext) (epoch : UInt32) (phase : String) (now : Int64)
    (jitter : UInt32) : List Op :=
  initTimer ctx.quorum.timeoutPhase ++
    sendPhaseNotification ctx (buildMetadata ctx "all" now) epoch phase jitter

def onEntryAlert (ctx : AppContext) (epoch : UInt32) (now : Int64) (jitter : UInt32) : List Op :=
  onEntryPhase ctx epoch "alert" now jitter ++ [.toHeartbeat .sendHeartbeatMessagePhase]

def onEntryData (ctx : AppContext) (epoch : UInt32) (now : Int64) (jitter : UInt32) : List Op :=
  onEntryPhase ctx epoch "data" now jitter

def onEntryMonitor (ctx : AppContext) (epoch : UInt32) (now : Int64) (jitter : UInt32) :
    List Op :=
  onEntryPhase ctx epoch "monitor" now jitter

def onEntryNormal : List Op := [.toHeartbeat .sendHeartbeatMessageNormal]

def onEntrySafeMode (ctx : AppContext) : List Op :=
  initTimer ctx.quorum.timeoutSafeMode ++ [.toHeartbeat .sendHeartbeatMessageSafeMode]

/-! ## The quorums -/

/-- `PERCENTAGE - penalty`, five points less for each attempt after the first. -/
def threshold (totalAttempts : Nat) : ℚ := 80 - 5 * ((totalAttempts - 1 : Nat) : ℚ)

/-- The quorum over the answers to a handshake. -/
def quorumAlgorithm (ctx : AppContext) (manager : NetworkManager) (session : UpdateSession) :
    Event :=
  if session.totalAttempts > ctx.quorum.maxAttempts.toNat then .notApproveNotAttempts
  else if (share session.getTotalHandshake manager.getTotalHubs).ge
        (threshold session.totalAttempts) ∧ threshold session.totalAttempts > 10 then
    .approveQuorum
  else .notApproveQuorum

/-- The quorum over empty queues in a phase. -/
def quorumPhase (manager : NetworkManager) (session : UpdateSession) (msg : HubMessage) :
    UpdateSession × List Op :=
  match msg with
  | .emptyQueue empty =>
    if empty.queueEmpty then
      let session := session.insertEmpty empty.metadata.senderUserId empty.queueEmpty
      if (share session.getTotalEmpty manager.getTotalHubs).ge 80 then
        (session, [.toFsm .quorumPhase, .toTimer .stopTimer])
      else (session, [])
    else (session, [])
  | _ => (session, [])

/-- The quorum over empty queues in safe mode. -/
def quorumSafeMode (manager : NetworkManager) (session : UpdateSession) (msg : HubMessage) :
    UpdateSession × List Op :=
  match msg with
  | .emptyQueueSafe empty =>
    if empty.queueEmpty then
      let session := session.insertEmpty empty.metadata.senderUserId empty.queueEmpty
      if (share session.getTotalEmpty manager.getTotalHubs).ge 70 then
        (session, [.toFsm .quorumSafeMode, .toTimer .stopTimer])
      else (session, [])
    else (session, [])
  | _ => (session, [])

/-! ## The arms of `fsm` -/

/-- The body of the arm of `rx_command`: the new epoch, the new session and
the sends that follow. -/
def onCommand (manager : NetworkManager) (epoch : UInt32) (session : UpdateSession) :
    FsmServiceCommand → UInt32 × UpdateSession × List Op
  | .fromHub (.handshakeFromHub handshake) =>
    match session.state with
    | .inHandshake | .outHandshake | .repeatHandshake =>
      if handshake.balanceEpoch = epoch then
        (epoch, session.insertHandshake handshake.metadata.senderUserId handshake.balanceEpoch,
          [.toFsm .newMessageHandshake])
      else (epoch, session, [])
    | _ => (epoch, session, [])
  | .fromHub (.emptyQueue msg) =>
    match session.state with
    | .phaseAlert | .phaseData | .phaseMonitor =>
      (epoch, quorumPhase manager session (.emptyQueue msg))
    | _ => (epoch, session, [])
  | .fromHub (.emptyQueueSafe msg) =>
    match session.state with
    | .safeMode => (epoch, quorumSafeMode manager session (.emptyQueueSafe msg))
    | _ => (epoch, session, [])
  | .errorEpoch => (epoch, session, [.toFsm .balanceEpochNotOk])
  | .epoch e =>
    (e + 1, session,
      [.toFsm .balanceEpochOk, .toCore (.newEpoch (e + 1)), .toEdgeState (.balanceMode (e + 1))])
  | _ => (epoch, session, [])

/-- The new session and the sends of one action. -/
def handleAction (ctx : AppContext) (manager : NetworkManager) (epoch : UInt32)
    (session : UpdateSession) (now : Int64) (jitter : UInt32) :
    Action → UpdateSession × List Op
  | .onEntryBalance sub =>
    match sub with
    | .initBalanceMode => (session, [.toCore .getEpoch])
    | .inHandshake => (session.setState .inHandshake, onEntryInHandshake ctx epoch sub now)
    | .outHandshake => (session.setState .outHandshake, onEntryOutHandshake ctx epoch sub now)
    | _ => (session, [])
  | .onEntryQuorum sub =>
    match sub with
    | .checkQuorumIn | .checkQuorumOut =>
      let session := session.setState .quorum
      (session, [.toFsm (quorumAlgorithm ctx manager session)])
    | .repeatHandshakeIn | .repeatHandshakeOut =>
      let session := session.setState .repeatHandshake
      let session := session.incrementAttempts
      let session := session.resetHandshakeHash
      (session, onEntryRepeatHandshake ctx epoch sub now)
  | .calculateQuorum => (session, [.toFsm (quorumAlgorithm ctx manager session)])
  | .onEntryPhase sub =>
    let session := session.resetTotalAttempts
    let session := session.resetHandshakeHash
    let session := session.resetEmptyHash
    match sub with
    | .alert => (session.setState .phaseAlert, onEntryAlert ctx epoch now jitter)
    | .data => (session.setState .phaseData, onEntryData ctx epoch now jitter)
    | .monitor => (session.setState .phaseMonitor, onEntryMonitor ctx epoch now jitter)
  | .onEntryNormal => (session, onEntryNormal ++ [.toEdgeState .normal])
  | .onEntrySafeMode =>
    let session := session.resetEmptyHash
    (session.setState .safeMode, onEntrySafeMode ctx ++ [.toEdgeState .safeMode])
  | .stopTimer => (session, [.toTimer .stopTimer])
  | .stopSendHeartbeatMessagePhase => (session, [.toHeartbeat .stopSendHeartbeatMessagePhase])
  | .stopSendHeartbeatMessageSafeMode =>
    (session, [.toHeartbeat .stopSendHeartbeatMessageSafeMode])
  | _ => (session, [])

end EdgeGateway.Fsm
