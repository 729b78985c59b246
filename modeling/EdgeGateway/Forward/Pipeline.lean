-- The way of the telemetry: `msg_from_hub`, `msg_to_server`, the tasks of
-- the database and the events that tell them whether the server is there.
-- Core, `MessageService::run` and `DataService::run` only pass on: a channel
-- they read and the one they write are one queue here.
import EdgeGateway.Lib.Machine
import EdgeGateway.Database.Domain
import EdgeGateway.Heartbeat.Domain

namespace EdgeGateway.Forward

open EdgeGateway.Lib EdgeGateway.Message EdgeGateway.Database EdgeGateway.Heartbeat

/-! ## The configuration -/

/-- What reaches `msg_from_hub`: a message of an active network, or a
connectivity event. -/
inductive HubInput where
  | incoming (msg : Telemetry)
  | internal (status : ServerStatus)
  deriving Repr, DecidableEq

/-- What reaches `msg_to_server` as a command. -/
inductive ServerInput where
  | internal (status : ServerStatus)
  | batch (rows : TableDataVector)
  deriving Repr, DecidableEq

/-- Where `dba_get_task` is suspended: in its select, inside `pop_batch` with
the tables still to be popped and the rows popped so far, or in the sleep
between two batches. -/
inductive GetStage where
  | listening
  | popping (rest : List TableName) (got : TableDataVector)
  | sleeping
  deriving Repr, DecidableEq

/-- The tasks and the queues between them. `fromHub` and `toServer` are the
last connectivity events that the two tasks received, `flushing` the tables
that `dba_insert_task` has still to write. Nothing reads `decoded`. -/
structure Pipeline where
  grpcEvents : List ServerStatus
  heartbeat : FsmHeartbeat
  heartbeatActions : List (List Action)
  heartbeatEvents : List ServerStatus
  hubInputs : List HubInput
  fromHub : Option ServerStatus
  live : List Telemetry
  serverInputs : List ServerInput
  toServer : Option ServerStatus
  uploads : Multiset Telemetry
  toInsert : List Telemetry
  buffer : TableDataVector
  flushing : Option (List TableName)
  tables : TableDataVector
  getEvents : List ServerStatus
  getState : ServerStatus
  getOldState : ServerStatus
  get : GetStage
  batches : List TableDataVector
  decoded : Multiset Telemetry

/-- A step is a task that goes on, or an event from outside. -/
inductive Label where
  | incoming (msg : Telemetry)
  | grpc (status : ServerStatus)
  | coreGrpc
  | heartbeatFsm (e : Event)
  | heartbeatTask
  | coreHeartbeat
  | msgFromHub
  | msgToServerCommand
  | msgToServerHub
  | dbaInsert
  | tick
  | flush
  | dbaGet
  | pop
  | wake
  | coreBatch
  deriving Repr

/-- `LIMIT` of a pop. -/
def limit : Nat := 10

/-- Both tasks of the message service begin connected. -/
def believes (last : Option ServerStatus) : ServerStatus := last.getD .connected

namespace Pipeline

/-- The tasks before their first step, over what the tables hold. -/
def start (tables : TableDataVector) : Pipeline where
  grpcEvents := []
  heartbeat := FsmHeartbeat.new
  heartbeatActions := []
  heartbeatEvents := []
  hubInputs := []
  fromHub := none
  live := []
  serverInputs := []
  toServer := none
  uploads := 0
  toInsert := []
  buffer := TableDataVector.new
  flushing := none
  tables := tables
  getEvents := []
  getState := .disconnected
  getOldState := .disconnected
  get := .listening
  batches := []
  decoded := tables.messages

/-! ## The events -/

/-- The core passes an event to both tasks of the message service. -/
def toMessageService (p : Pipeline) (status : ServerStatus) : Pipeline :=
  { p with
    hubInputs := p.hubInputs ++ [.internal status]
    serverInputs := p.serverInputs ++ [.internal status] }

/-- An event of grpc reaches the message service only. -/
def coreGrpc (p : Pipeline) : Option Pipeline :=
  match p.grpcEvents with
  | [] => none
  | status :: rest => some ({ p with grpcEvents := rest }.toMessageService status)

def heartbeatFsm (p : Pipeline) (e : Event) : Option Pipeline :=
  match p.heartbeat.step e with
  | some (heartbeat, actions) =>
    some { p with heartbeat, heartbeatActions := p.heartbeatActions ++ [actions] }
  | none => some p

def heartbeatTask (p : Pipeline) : Option Pipeline :=
  match p.heartbeatActions with
  | [] => none
  | actions :: rest =>
    some { p with
      heartbeatActions := rest
      heartbeatEvents := p.heartbeatEvents ++ actions.filterMap Action.reports }

/-- An event of the heartbeat reaches the message service and the database. -/
def coreHeartbeat (p : Pipeline) : Option Pipeline :=
  match p.heartbeatEvents with
  | [] => none
  | status :: rest =>
    some ({ p with
      heartbeatEvents := rest, getEvents := p.getEvents ++ [status] }.toMessageService status)

/-! ## The message service -/

def msgFromHub (p : Pipeline) : Option Pipeline :=
  match p.hubInputs with
  | [] => none
  | .internal status :: rest => some { p with hubInputs := rest, fromHub := some status }
  | .incoming msg :: rest =>
    let p := { p with hubInputs := rest, decoded := p.decoded + {msg} }
    match believes p.fromHub with
    | .connected => some { p with live := p.live ++ [msg] }
    | .disconnected => some { p with toInsert := p.toInsert ++ [msg] }

/-- `process_batch` uploads the vectors that are not empty. -/
def msgToServerCommand (p : Pipeline) : Option Pipeline :=
  match p.serverInputs with
  | [] => none
  | .internal status :: rest => some { p with serverInputs := rest, toServer := some status }
  | .batch rows :: rest =>
    match believes p.toServer with
    | .connected => some { p with serverInputs := rest, uploads := p.uploads + rows.messages }
    | .disconnected => some { p with serverInputs := rest }

def msgToServerHub (p : Pipeline) : Option Pipeline :=
  match p.live with
  | [] => none
  | msg :: rest =>
    match believes p.toServer with
    | .connected => some { p with live := rest, uploads := p.uploads + {msg} }
    | .disconnected => some { p with live := rest }

/-! ## The database -/

/-- `dba_insert_task` buffers a message, and writes when a vector is full. -/
def dbaInsert (p : Pipeline) : Option Pipeline :=
  match p.flushing, p.toInsert with
  | none, msg :: rest =>
    let buffer := p.buffer.sortByVectors msg
    some { p with
      toInsert := rest, buffer
      flushing := if buffer.isSomeVectorFull then some TableName.all else none }
  | _, _ => none

/-- The flush timer of `dba_insert_task`. -/
def tick (p : Pipeline) : Option Pipeline :=
  match p.flushing with
  | none => some { p with flushing := if p.buffer.isEmpty then none else some TableName.all }
  | some _ => none

/-- `repo.insert` writes the vectors one by one, then the buffer is cleared. -/
def flush (p : Pipeline) : Option Pipeline :=
  match p.flushing with
  | none => none
  | some [] => some { p with flushing := none, buffer := TableDataVector.new }
  | some (k :: rest) =>
    some { p with flushing := some rest, tables := p.tables.append (p.buffer.only k) }

/-- `dba_get_task` takes an event; becoming connected starts a drain. -/
def dbaGet (p : Pipeline) : Option Pipeline :=
  match p.get, p.getEvents with
  | .listening, status :: rest =>
    let getState := status
    let getOldState := match status with
      | .disconnected => .disconnected
      | .connected => p.getOldState
    if getState = .connected ∧ getOldState = .disconnected then
      some { p with
        getEvents := rest, getState, getOldState := getState
        get := .popping TableName.all TableDataVector.new }
    else some { p with getEvents := rest, getState, getOldState }
  | _, _ => none

/-- `pop_batch` takes the oldest rows of one table after the other; an empty
batch ends the drain, any other is sent. -/
def pop (p : Pipeline) : Option Pipeline :=
  match p.get with
  | .popping (k :: rest) got =>
    some { p with
      get := .popping rest (got.append (p.tables.oldest limit k))
      tables := p.tables.skip limit k }
  | .popping [] got =>
    if got.isEmpty then some { p with get := .listening }
    else some { p with get := .sleeping, batches := p.batches ++ [got] }
  | _ => none

def wake (p : Pipeline) : Option Pipeline :=
  match p.get with
  | .sleeping => some { p with get := .popping TableName.all TableDataVector.new }
  | _ => none

def coreBatch (p : Pipeline) : Option Pipeline :=
  match p.batches with
  | [] => none
  | rows :: rest =>
    some { p with batches := rest, serverInputs := p.serverInputs ++ [.batch rows] }

def step (p : Pipeline) : Label → Option Pipeline
  | .incoming msg => some { p with hubInputs := p.hubInputs ++ [.incoming msg] }
  | .grpc status => some { p with grpcEvents := p.grpcEvents ++ [status] }
  | .coreGrpc => p.coreGrpc
  | .heartbeatFsm e => p.heartbeatFsm e
  | .heartbeatTask => p.heartbeatTask
  | .coreHeartbeat => p.coreHeartbeat
  | .msgFromHub => p.msgFromHub
  | .msgToServerCommand => p.msgToServerCommand
  | .msgToServerHub => p.msgToServerHub
  | .dbaInsert => p.dbaInsert
  | .tick => p.tick
  | .flush => p.flush
  | .dbaGet => p.dbaGet
  | .pop => p.pop
  | .wake => p.wake
  | .coreBatch => p.coreBatch

end Pipeline

/-- The pipeline, over tables that hold what an earlier run stored. -/
def machine : Machine Pipeline Label where
  init := fun p => ∃ tables, p = Pipeline.start tables
  step := Pipeline.step

theorem init_start (tables : TableDataVector) : machine.init (Pipeline.start tables) :=
  ⟨tables, rfl⟩

/-! ## What a step can do -/

/-- `Move p i p'`: the step `i` leads from `p` to `p'`. -/
inductive Move : Pipeline → Label → Pipeline → Prop where
  | incoming {p : Pipeline} {msg : Telemetry} :
      Move p (.incoming msg) { p with hubInputs := p.hubInputs ++ [.incoming msg] }
  | grpc {p : Pipeline} {status : ServerStatus} :
      Move p (.grpc status) { p with grpcEvents := p.grpcEvents ++ [status] }
  | coreGrpc {p : Pipeline} {status : ServerStatus} {rest : List ServerStatus}
      (hq : p.grpcEvents = status :: rest) :
      Move p .coreGrpc ({ p with grpcEvents := rest }.toMessageService status)
  | heartbeatFsm {p : Pipeline} {e : Event} {heartbeat : FsmHeartbeat} {actions : List Action}
      (hs : p.heartbeat.step e = some (heartbeat, actions)) :
      Move p (.heartbeatFsm e)
        { p with heartbeat, heartbeatActions := p.heartbeatActions ++ [actions] }
  | refused {p : Pipeline} {e : Event} (hs : p.heartbeat.step e = none) :
      Move p (.heartbeatFsm e) p
  | heartbeatTask {p : Pipeline} {actions : List Action} {rest : List (List Action)}
      (hq : p.heartbeatActions = actions :: rest) :
      Move p .heartbeatTask
        { p with
          heartbeatActions := rest
          heartbeatEvents := p.heartbeatEvents ++ actions.filterMap Action.reports }
  | coreHeartbeat {p : Pipeline} {status : ServerStatus} {rest : List ServerStatus}
      (hq : p.heartbeatEvents = status :: rest) :
      Move p .coreHeartbeat
        ({ p with
          heartbeatEvents := rest
          getEvents := p.getEvents ++ [status] }.toMessageService status)
  | hubEvent {p : Pipeline} {status : ServerStatus} {rest : List HubInput}
      (hq : p.hubInputs = .internal status :: rest) :
      Move p .msgFromHub { p with hubInputs := rest, fromHub := some status }
  | hubLive {p : Pipeline} {msg : Telemetry} {rest : List HubInput}
      (hq : p.hubInputs = .incoming msg :: rest) (hb : believes p.fromHub = .connected) :
      Move p .msgFromHub
        { p with hubInputs := rest, decoded := p.decoded + {msg}, live := p.live ++ [msg] }
  | hubStored {p : Pipeline} {msg : Telemetry} {rest : List HubInput}
      (hq : p.hubInputs = .incoming msg :: rest) (hb : believes p.fromHub = .disconnected) :
      Move p .msgFromHub
        { p with hubInputs := rest, decoded := p.decoded + {msg}, toInsert := p.toInsert ++ [msg] }
  | serverEvent {p : Pipeline} {status : ServerStatus} {rest : List ServerInput}
      (hq : p.serverInputs = .internal status :: rest) :
      Move p .msgToServerCommand { p with serverInputs := rest, toServer := some status }
  | uploadBatch {p : Pipeline} {rows : TableDataVector} {rest : List ServerInput}
      (hq : p.serverInputs = .batch rows :: rest) (hb : believes p.toServer = .connected) :
      Move p .msgToServerCommand
        { p with serverInputs := rest, uploads := p.uploads + rows.messages }
  | dropBatch {p : Pipeline} {rows : TableDataVector} {rest : List ServerInput}
      (hq : p.serverInputs = .batch rows :: rest) (hb : believes p.toServer = .disconnected) :
      Move p .msgToServerCommand { p with serverInputs := rest }
  | uploadLive {p : Pipeline} {msg : Telemetry} {rest : List Telemetry}
      (hq : p.live = msg :: rest) (hb : believes p.toServer = .connected) :
      Move p .msgToServerHub { p with live := rest, uploads := p.uploads + {msg} }
  | dropLive {p : Pipeline} {msg : Telemetry} {rest : List Telemetry}
      (hq : p.live = msg :: rest) (hb : believes p.toServer = .disconnected) :
      Move p .msgToServerHub { p with live := rest }
  | insert {p : Pipeline} {msg : Telemetry} {rest : List Telemetry} (hf : p.flushing = none)
      (hq : p.toInsert = msg :: rest) {flushing : Option (List TableName)}
      (hn : flushing = none ∨ flushing = some TableName.all) :
      Move p .dbaInsert
        { p with toInsert := rest, buffer := p.buffer.sortByVectors msg, flushing }
  | tick {p : Pipeline} (hf : p.flushing = none) {flushing : Option (List TableName)}
      (hn : flushing = none ∨ flushing = some TableName.all) : Move p .tick { p with flushing }
  | write {p : Pipeline} {k : TableName} {rest : List TableName}
      (hf : p.flushing = some (k :: rest)) :
      Move p .flush { p with flushing := some rest, tables := p.tables.append (p.buffer.only k) }
  | clear {p : Pipeline} (hf : p.flushing = some []) :
      Move p .flush { p with flushing := none, buffer := TableDataVector.new }
  | connected {p : Pipeline} {rest : List ServerStatus} (hg : p.get = .listening)
      (hq : p.getEvents = .connected :: rest) (ho : p.getOldState = .connected) :
      Move p .dbaGet
        { p with
          getEvents := rest, getState := .connected, getOldState := .connected
          get := .listening }
  | drain {p : Pipeline} {rest : List ServerStatus} (hg : p.get = .listening)
      (hq : p.getEvents = .connected :: rest) (ho : p.getOldState = .disconnected) :
      Move p .dbaGet
        { p with
          getEvents := rest, getState := .connected, getOldState := .connected
          get := .popping TableName.all TableDataVector.new }
  | disconnected {p : Pipeline} {rest : List ServerStatus} (hg : p.get = .listening)
      (hq : p.getEvents = .disconnected :: rest) :
      Move p .dbaGet
        { p with
          getEvents := rest, getState := .disconnected, getOldState := .disconnected
          get := .listening }
  | popTable {p : Pipeline} {k : TableName} {rest : List TableName} {got : TableDataVector}
      (hg : p.get = .popping (k :: rest) got) :
      Move p .pop
        { p with
          get := .popping rest (got.append (p.tables.oldest limit k))
          tables := p.tables.skip limit k }
  | drained {p : Pipeline} {got : TableDataVector} (hg : p.get = .popping [] got)
      (he : got = TableDataVector.new) : Move p .pop { p with get := .listening }
  | sendBatch {p : Pipeline} {got : TableDataVector} (hg : p.get = .popping [] got)
      (he : got ≠ TableDataVector.new) :
      Move p .pop { p with get := .sleeping, batches := p.batches ++ [got] }
  | wake {p : Pipeline} (hg : p.get = .sleeping) :
      Move p .wake { p with get := .popping TableName.all TableDataVector.new }
  | coreBatch {p : Pipeline} {rows : TableDataVector} {rest : List TableDataVector}
      (hq : p.batches = rows :: rest) :
      Move p .coreBatch { p with batches := rest, serverInputs := p.serverInputs ++ [.batch rows] }

section Inversion

variable {p p' : Pipeline}

theorem move_of_message {i : Label} (h : p.step i = some p')
    (hi : i = .msgFromHub ∨ i = .msgToServerCommand ∨ i = .msgToServerHub) : Move p i p' := by
  rcases hi with rfl | rfl | rfl
  · rcases hq : p.hubInputs with _ | ⟨msg | status, rest⟩ <;>
      simp only [Pipeline.step, Pipeline.msgFromHub, hq, Option.some.injEq, reduceCtorEq] at h
    · rcases hb : believes p.fromHub with _ | _ <;> simp only [hb, Option.some.injEq] at h
      · exact h ▸ .hubLive hq hb
      · exact h ▸ .hubStored hq hb
    · exact h ▸ .hubEvent hq
  · rcases hq : p.serverInputs with _ | ⟨status | rows, rest⟩ <;>
      simp only [Pipeline.step, Pipeline.msgToServerCommand, hq, Option.some.injEq,
        reduceCtorEq] at h
    · exact h ▸ .serverEvent hq
    · rcases hb : believes p.toServer with _ | _ <;> simp only [hb, Option.some.injEq] at h
      · exact h ▸ .uploadBatch hq hb
      · exact h ▸ .dropBatch hq hb
  · rcases hq : p.live with _ | ⟨msg, rest⟩ <;>
      simp only [Pipeline.step, Pipeline.msgToServerHub, hq, reduceCtorEq] at h
    rcases hb : believes p.toServer with _ | _ <;> simp only [hb, Option.some.injEq] at h
    · exact h ▸ .uploadLive hq hb
    · exact h ▸ .dropLive hq hb

theorem move_of_insert {i : Label} (h : p.step i = some p')
    (hi : i = .dbaInsert ∨ i = .tick ∨ i = .flush) : Move p i p' := by
  rcases hi with rfl | rfl | rfl
  · rcases hf : p.flushing with _ | l <;> rcases hq : p.toInsert with _ | ⟨msg, rest⟩ <;>
      simp only [Pipeline.step, Pipeline.dbaInsert, hf, hq, Option.some.injEq, reduceCtorEq] at h
    exact h ▸ .insert hf hq (by split <;> simp)
  · rcases hf : p.flushing with _ | l <;>
      simp only [Pipeline.step, Pipeline.tick, hf, Option.some.injEq, reduceCtorEq] at h
    exact h ▸ .tick hf (by split <;> simp)
  · rcases hf : p.flushing with _ | _ | ⟨k, rest⟩ <;>
      simp only [Pipeline.step, Pipeline.flush, hf, Option.some.injEq, reduceCtorEq] at h
    · exact h ▸ .clear hf
    · exact h ▸ .write hf

theorem move_of_get {i : Label} (h : p.step i = some p')
    (hi : i = .dbaGet ∨ i = .pop ∨ i = .wake) : Move p i p' := by
  rcases hi with rfl | rfl | rfl
  · rcases hg : p.get with _ | ⟨l, got⟩ | _ <;> rcases hq : p.getEvents with _ | ⟨_ | _, rest⟩ <;>
      simp only [Pipeline.step, Pipeline.dbaGet, hg, hq, reduceCtorEq] at h
    · rcases ho : p.getOldState with _ | _ <;>
        simp only [ho, true_and, reduceCtorEq, if_true, if_false, Option.some.injEq] at h
      · exact h ▸ .connected hg hq ho
      · exact h ▸ .drain hg hq ho
    · simp only [false_and, if_false, Option.some.injEq] at h
      exact h ▸ .disconnected hg hq
  · rcases hg : p.get with _ | ⟨_ | ⟨k, rest⟩, got⟩ | _ <;>
      simp only [Pipeline.step, Pipeline.pop, hg, Option.some.injEq, reduceCtorEq] at h
    · by_cases he : got.isEmpty = true
      · rw [if_pos he, Option.some.injEq] at h
        exact h ▸ .drained hg ((TableDataVector.isEmpty_iff got).mp he)
      · rw [if_neg he, Option.some.injEq] at h
        exact h ▸ .sendBatch hg (fun hn => he ((TableDataVector.isEmpty_iff got).mpr hn))
    · exact h ▸ .popTable hg
  · rcases hg : p.get with _ | ⟨l, got⟩ | _ <;>
      simp only [Pipeline.step, Pipeline.wake, hg, Option.some.injEq, reduceCtorEq] at h
    exact h ▸ .wake hg

/-- Every step of the pipeline is a move. -/
theorem move_of_step {i : Label} (h : machine.step p i = some p') : Move p i p' := by
  have h' : p.step i = some p' := h
  cases i with
  | incoming msg => exact (Option.some.inj h') ▸ .incoming
  | grpc status => exact (Option.some.inj h') ▸ .grpc
  | coreGrpc =>
    rcases hq : p.grpcEvents with _ | ⟨status, rest⟩ <;>
      simp only [Pipeline.step, Pipeline.coreGrpc, hq, Option.some.injEq, reduceCtorEq] at h'
    exact h' ▸ .coreGrpc hq
  | heartbeatFsm e =>
    rcases hs : p.heartbeat.step e with _ | ⟨heartbeat, actions⟩ <;>
      simp only [Pipeline.step, Pipeline.heartbeatFsm, hs, Option.some.injEq] at h'
    · exact h' ▸ .refused hs
    · exact h' ▸ .heartbeatFsm hs
  | heartbeatTask =>
    rcases hq : p.heartbeatActions with _ | ⟨actions, rest⟩ <;>
      simp only [Pipeline.step, Pipeline.heartbeatTask, hq, Option.some.injEq, reduceCtorEq] at h'
    exact h' ▸ .heartbeatTask hq
  | coreHeartbeat =>
    rcases hq : p.heartbeatEvents with _ | ⟨status, rest⟩ <;>
      simp only [Pipeline.step, Pipeline.coreHeartbeat, hq, Option.some.injEq, reduceCtorEq] at h'
    exact h' ▸ .coreHeartbeat hq
  | coreBatch =>
    rcases hq : p.batches with _ | ⟨rows, rest⟩ <;>
      simp only [Pipeline.step, Pipeline.coreBatch, hq, Option.some.injEq, reduceCtorEq] at h'
    exact h' ▸ .coreBatch hq
  | msgFromHub => exact move_of_message h' (by simp)
  | msgToServerCommand => exact move_of_message h' (by simp)
  | msgToServerHub => exact move_of_message h' (by simp)
  | dbaInsert => exact move_of_insert h' (by simp)
  | tick => exact move_of_insert h' (by simp)
  | flush => exact move_of_insert h' (by simp)
  | dbaGet => exact move_of_get h' (by simp)
  | pop => exact move_of_get h' (by simp)
  | wake => exact move_of_get h' (by simp)

end Inversion

end EdgeGateway.Forward
