-- A runtime as `FsmService` has spawned it: the tasks of the balancing protocol,
-- `edge_state` beside them, and the channel on which both answer.
import EdgeGateway.Fsm.Runtime

namespace EdgeGateway.Fsm

open EdgeGateway.Lib EdgeGateway.Message EdgeGateway.Networks EdgeGateway.Quorum

/-! ## `edge_state` -/

/-- What a tick of `edge_state` sends. Only the balance mode has an epoch. -/
def edgeTick (ctx : AppContext) (now : Int64) (jitter : Fin 6) :
    StateGlobal → List FsmServiceResponse
  | .start => []
  | .balanceMode epoch =>
    [.edgeState "Balance",
      .toHub (.stateToHub
        { metadata := buildMetadata ctx "all" now, state := "balance", balanceEpoch := epoch
          duration := 300, frequency := 0, jitter := 0 })]
  | .normal =>
    [.edgeState "Normal",
      .toHub (.stateToHub
        { metadata := buildMetadata ctx "all" now, state := "normal", balanceEpoch := 0
          duration := 0, frequency := 0, jitter := 0 })]
  | .safeMode =>
    [.edgeState "SafeMode",
      .toHub (.stateToHub
        { metadata := buildMetadata ctx "all" now, state := "safe", balanceEpoch := 0
          duration := 0, frequency := ctx.quorum.frequencySafeMode
          jitter := jitter.val.toUInt32 })]

/-- The state after a message of `fsm`. -/
def edgeState (state : StateGlobal) : StateGlobal → StateGlobal
  | .start => state
  | new => new

/-! ## A runtime with its channels -/

/-- The runtime, the commands that `FsmService` has passed on, what it has not taken
of the answers, and `edge_state` with its channel and the sends of its tick. A full
channel only delays its sender: here it has room. -/
structure Live where
  runtime : Runtime
  commands : List FsmServiceCommand
  responses : List FsmServiceResponse
  toEdge : List StateGlobal
  edge : StateGlobal
  edgeSends : List FsmServiceResponse

inductive Live.Label where
  | takeCommand
  | runtime (i : Fsm.Label)
  | edgeTake
  | edgeTick (now : Int64) (jitter : Fin 6)
  | edgeSend
  deriving Repr

namespace Runtime

/-- What a step of `fsm` puts into the channel to the core. -/
def toCore (r : Runtime) : Label → List FsmServiceResponse
  | .work _ _ =>
    match r.ops with
    | .toCore response :: _ => [response]
    | _ => []
  | _ => []

def toEdge (r : Runtime) : Label → List StateGlobal
  | .work _ _ =>
    match r.ops with
    | .toEdgeState state :: _ => [state]
    | _ => []
  | _ => []

end Runtime

namespace Live

def spawn (cap : Option Nat) (manager : NetworkManager) : Live where
  runtime := Runtime.start cap manager
  commands := []
  responses := []
  toEdge := []
  edge := .start
  edgeSends := []

/-- `fsm` takes the next command of the service. -/
def takeCommand (ctx : AppContext) (cap : Option Nat) (l : Live) : Option Live :=
  match l.commands with
  | [] => none
  | c :: rest =>
    ((machine ctx cap).step l.runtime (.command c)).map (fun runtime =>
      { l with runtime, commands := rest })

/-- Another step of the runtime, with what it sends. -/
def runtimeStep (ctx : AppContext) (cap : Option Nat) (l : Live) (i : Fsm.Label) :
    Option Live :=
  match i with
  | .command _ => none
  | i =>
    ((machine ctx cap).step l.runtime i).map (fun runtime =>
      { l with
        runtime
        responses := l.responses ++ l.runtime.toCore i
        toEdge := l.toEdge ++ l.runtime.toEdge i })

def step (ctx : AppContext) (cap : Option Nat) (l : Live) : Label → Option Live
  | .takeCommand => l.takeCommand ctx cap
  | .runtime i => l.runtimeStep ctx cap i
  | .edgeTake =>
    match l.edgeSends, l.toEdge with
    | [], state :: rest => some { l with toEdge := rest, edge := edgeState l.edge state }
    | _, _ => none
  | .edgeTick now jitter =>
    match l.edgeSends with
    | [] => some { l with edgeSends := Fsm.edgeTick ctx now jitter l.edge }
    | _ :: _ => none
  | .edgeSend =>
    match l.edgeSends with
    | [] => none
    | response :: rest =>
      some { l with responses := l.responses ++ [response], edgeSends := rest }

/-- What `FsmService::run` makes of a command, with or without a runtime. -/
def manage (cap : Option Nat) (manager : NetworkManager) :
    Option Live → FsmServiceCommand → Option Live
  | none, .createRuntime => some (spawn cap manager)
  | none, _ => none
  | some l, .createRuntime => some l
  | some _, .deleteRuntime => none
  | some l, command => some { l with commands := l.commands ++ [command] }

end Live

end EdgeGateway.Fsm
