-- The services around the topology as one system: what the network service and
-- the database answer goes through the core to the message service and to the
-- MQTT client, and from there to the hubs and to the server. The rows of the
-- start go straight from the database to the network service.
import EdgeGateway.Core.Domain
import EdgeGateway.Network.Agreement
import EdgeGateway.Network.Moves

namespace EdgeGateway.Core

open EdgeGateway.Lib EdgeGateway.Message EdgeGateway.Networks EdgeGateway.Database
  EdgeGateway.Mqtt

/-! ## The configuration -/

/-- The services and the queues between them. `toHub` and `toServer` are the
commands of the two tasks of the message service, `rxNet` and `rxMsg` those of
the MQTT client; `published` and `uploads` have left the gateway. `acking` has
the rows behind the `HubInserted` on their way; no task reads it. -/
structure Gateway where
  sync : Sync
  fromData : List DataServiceResponse
  fromNetwork : List NetworkServiceResponse
  toMessage : List MessageServiceCommand
  toHub : List MessageServiceCommand
  toServer : List MessageServiceCommand
  fromMessage : List MessageServiceResponse
  rxNet : List MqttServiceCommand
  rxMsg : List SerializedMessage
  localStatus : LocalStatus
  serverStatus : ServerStatus
  client : StateClient
  published : List SerializedMessage
  uploads : List FromEdge
  acking : List HubRow

/-- A step of the topology, a task that goes on, or something from outside: a
statement that fails, an outcome of the connection, a change of a status. -/
inductive Label where
  | sync (i : Sync.Label)
  | insertFails
  | removeFails
  | coreData
  | coreNetwork
  | coreMessage
  | messageService (now : Int64)
  | msgToHub
  | msgToServer (now : Int64)
  | mqttNet (calls : Calls)
  | mqttMsg
  | mqttConnect (certificates : Bool) (calls : Calls)
  | mqttLose
  | mqttRetry
  | localStatus (status : LocalStatus)
  | serverStatus (status : ServerStatus)

namespace Gateway

/-- The tasks before their first step, over what is stored. -/
def start (idEdge : String) (tables : Tables) : Gateway where
  sync := Sync.start idEdge tables
  fromData := []
  fromNetwork := []
  toMessage := [.generateHelloWorld]
  toHub := []
  toServer := []
  fromMessage := []
  rxNet := []
  rxMsg := []
  localStatus := .connected
  serverStatus := .connected
  client := .waiting
  published := []
  uploads := []
  acking := []

/-! ## Steps -/

/-- The answers reach the core, except the rows of the start. -/
def answer (g : Gateway) (responses : List DataServiceResponse) : Gateway :=
  { g with fromData := g.fromData ++ responses.filter (fun r => (batchOf r).isNone) }

/-- The topology has taken a step from `p`. -/
def afterSync (idEdge : String) (g : Gateway) (i : Sync.Label) (p' : Sync) : Gateway :=
  { g with
    sync := p'
    fromNetwork := g.fromNetwork ++ g.sync.toCore idEdge i
    acking := g.acking ++ (g.sync.stores i).toList }.answer (g.sync.responses i)

def syncStep (idEdge : String) (g : Gateway) (i : Sync.Label) : Option Gateway :=
  (g.sync.step idEdge i).map (fun p' => g.afterSync idEdge i p')

/-- A failed statement leaves the tables. -/
def insertFails (g : Gateway) : Option Gateway :=
  match g.sync.inserting, g.sync.inserts with
  | none, command :: rest =>
    some ({ g with sync := g.sync.skipInsert command rest }.answer (dbaInsertError command))
  | _, _ => none

def removeFails (g : Gateway) : Option Gateway :=
  match g.sync.deletes with
  | [] => none
  | command :: rest =>
    some ({ g with
      sync := g.sync.skipDelete command rest }.answer (dbaRemoveError g.sync.tables command))

/-- The core sends what an answer asks for. Services that are not here take
what they are sent. -/
def handle (g : Gateway) (input : Input) : Gateway :=
  { g with
    toMessage := g.toMessage ++ (run input).filterMap Output.messageCommand
    rxMsg := g.rxMsg ++ (run input).filterMap Output.mqttMessage
    rxNet := g.rxNet ++ (run input).filterMap Output.mqttNet
    uploads := g.uploads ++ (run input).filterMap Output.upload }

/-- The row of a `HubInserted` goes with it. -/
def acked (acking : List HubRow) : DataServiceResponse → List HubRow
  | .hubInserted _ => acking.tail
  | _ => acking

def coreData (g : Gateway) : Option Gateway :=
  match g.fromData with
  | [] => none
  | response :: rest =>
    some ({ g with
      fromData := rest, acking := acked g.acking response }.handle
        (.dataService (.registry response)))

def coreNetwork (g : Gateway) : Option Gateway :=
  match g.fromNetwork with
  | [] => none
  | response :: rest =>
    some ({ g with fromNetwork := rest }.handle (.networkService (.response response)))

def coreMessage (g : Gateway) : Option Gateway :=
  match g.fromMessage with
  | [] => none
  | response :: rest => some ({ g with fromMessage := rest }.handle (.messageService response))

/-- What comes in goes to the other two tasks, and to `network_admin` as a
step of the topology. -/
def messageService (idEdge : String) (now : Int64) (g : Gateway) : Option Gateway :=
  match g.toMessage with
  | [] => none
  | command :: rest =>
    some { g with
      toMessage := rest
      toHub := g.toHub ++ commandsFor .msgToHub (command.route idEdge now)
      toServer := g.toServer ++ commandsFor .msgToServer (command.route idEdge now) }

def msgToHub (g : Gateway) : Option Gateway :=
  match g.toHub with
  | [] => none
  | command :: rest =>
    let out := Message.msgToHub g.sync.manager g.localStatus command
    some { g with
      toHub := rest
      fromMessage := g.fromMessage ++ (out.map .serialized).toList }

/-- The responses among what a task sends. -/
def responseOf : TaskSend → Option MessageServiceResponse
  | .toCore response => some response
  | _ => none

def msgToServer (idEdge : String) (now : Int64) (g : Gateway) : Option Gateway :=
  match g.toServer with
  | [] => none
  | command :: rest =>
    let (serverStatus, sends) := Message.msgToServer idEdge now g.serverStatus command
    some { g with
      toServer := rest, serverStatus
      fromMessage := g.fromMessage ++ sends.filterMap responseOf }

def mqttNet (calls : Calls) (g : Gateway) : Option Gateway :=
  match g.rxNet with
  | [] => none
  | command :: rest =>
    (g.client.command g.sync.manager calls command).map (fun client =>
      { g with rxNet := rest, client })

/-- A client at work publishes what it is given. -/
def mqttMsg (g : Gateway) : Option Gateway :=
  match g.client, g.rxMsg with
  | .work _, msg :: rest => some { g with rxMsg := rest, published := g.published ++ [msg] }
  | _, _ => none

def step (idEdge : String) (g : Gateway) : Label → Option Gateway
  | .sync i => g.syncStep idEdge i
  | .insertFails => g.insertFails
  | .removeFails => g.removeFails
  | .coreData => g.coreData
  | .coreNetwork => g.coreNetwork
  | .coreMessage => g.coreMessage
  | .messageService now => g.messageService idEdge now
  | .msgToHub => g.msgToHub
  | .msgToServer now => g.msgToServer idEdge now
  | .mqttNet calls => g.mqttNet calls
  | .mqttMsg => g.mqttMsg
  | .mqttConnect certificates calls =>
    (g.client.connect g.sync.manager certificates calls).map (fun client => { g with client })
  | .mqttLose => g.client.lose.map (fun client => { g with client })
  | .mqttRetry => g.client.retry.map (fun client => { g with client })
  | .localStatus localStatus => some { g with localStatus }
  | .serverStatus serverStatus => some { g with serverStatus }

/-- No channel holds a message, and the database is idle. -/
def Resting (g : Gateway) : Prop :=
  g.sync.Quiet ∧ g.sync.Idle ∧ g.fromData = [] ∧ g.fromNetwork = [] ∧ g.toMessage = [] ∧
    g.toHub = [] ∧ g.toServer = [] ∧ g.fromMessage = [] ∧ g.rxNet = [] ∧ g.rxMsg = []

instance (g : Gateway) : Decidable g.Resting :=
  inferInstanceAs (Decidable (g.sync.Quiet ∧ g.sync.Idle ∧ g.fromData = [] ∧ g.fromNetwork = [] ∧
    g.toMessage = [] ∧ g.toHub = [] ∧ g.toServer = [] ∧ g.fromMessage = [] ∧ g.rxNet = [] ∧
    g.rxMsg = []))

/-- The gateway from its start, over any tables. -/
def machine (idEdge : String) : Machine Gateway Label where
  init := fun g => ∃ tables : Tables, g = start idEdge tables
  step := step idEdge

/-! ## Moves -/

/-- What a step takes and what it leaves, by its label. -/
inductive Move (idEdge : String) (g : Gateway) : Label → Gateway → Prop where
  | sync {i : Sync.Label} {p' : Sync} (h : g.sync.step idEdge i = some p') :
    Move idEdge g (.sync i) (g.afterSync idEdge i p')
  | insertFails {command : DataCommandInsert} {rest : List DataCommandInsert}
    (hi : g.sync.inserting = none) (h : g.sync.inserts = command :: rest) :
    Move idEdge g .insertFails
      ({ g with sync := g.sync.skipInsert command rest }.answer (dbaInsertError command))
  | removeFails {command : DataCommandDelete} {rest : List DataCommandDelete}
    (h : g.sync.deletes = command :: rest) :
    Move idEdge g .removeFails
      ({ g with
        sync := g.sync.skipDelete command rest }.answer (dbaRemoveError g.sync.tables command))
  | coreData {response : DataServiceResponse} {rest : List DataServiceResponse}
    (h : g.fromData = response :: rest) :
    Move idEdge g .coreData
      ({ g with
        fromData := rest
        acking := acked g.acking response }.handle (.dataService (.registry response)))
  | coreNetwork {response : NetworkServiceResponse} {rest : List NetworkServiceResponse}
    (h : g.fromNetwork = response :: rest) :
    Move idEdge g .coreNetwork
      ({ g with fromNetwork := rest }.handle (.networkService (.response response)))
  | coreMessage {response : MessageServiceResponse} {rest : List MessageServiceResponse}
    (h : g.fromMessage = response :: rest) :
    Move idEdge g .coreMessage ({ g with fromMessage := rest }.handle (.messageService response))
  | messageService {now : Int64} {command : MessageServiceCommand}
    {rest : List MessageServiceCommand} (h : g.toMessage = command :: rest) :
    Move idEdge g (.messageService now)
      { g with
        toMessage := rest
        toHub := g.toHub ++ commandsFor .msgToHub (command.route idEdge now)
        toServer := g.toServer ++ commandsFor .msgToServer (command.route idEdge now) }
  | msgToHub {command : MessageServiceCommand} {rest : List MessageServiceCommand}
    (h : g.toHub = command :: rest) :
    Move idEdge g .msgToHub
      { g with
        toHub := rest
        fromMessage := g.fromMessage ++
          ((Message.msgToHub g.sync.manager g.localStatus command).map .serialized).toList }
  | msgToServer {now : Int64} {command : MessageServiceCommand}
    {rest : List MessageServiceCommand} (h : g.toServer = command :: rest) :
    Move idEdge g (.msgToServer now)
      { g with
        toServer := rest
        serverStatus := (Message.msgToServer idEdge now g.serverStatus command).1
        fromMessage := g.fromMessage ++
          (Message.msgToServer idEdge now g.serverStatus command).2.filterMap responseOf }
  | mqttNet {calls : Calls} {command : MqttServiceCommand} {rest : List MqttServiceCommand}
    {client : StateClient} (h : g.rxNet = command :: rest)
    (hc : g.client.command g.sync.manager calls command = some client) :
    Move idEdge g (.mqttNet calls) { g with rxNet := rest, client }
  | mqttMsg {subs : Subs} {msg : SerializedMessage} {rest : List SerializedMessage}
    (hw : g.client = .work subs) (h : g.rxMsg = msg :: rest) :
    Move idEdge g .mqttMsg { g with rxMsg := rest, published := g.published ++ [msg] }
  | mqttConnect {certificates : Bool} {calls : Calls} {client : StateClient}
    (h : g.client.connect g.sync.manager certificates calls = some client) :
    Move idEdge g (.mqttConnect certificates calls) { g with client }
  | mqttLose {client : StateClient} (h : g.client.lose = some client) :
    Move idEdge g .mqttLose { g with client }
  | mqttRetry {client : StateClient} (h : g.client.retry = some client) :
    Move idEdge g .mqttRetry { g with client }
  | localStatus (status : LocalStatus) :
    Move idEdge g (.localStatus status) { g with localStatus := status }
  | serverStatus (status : ServerStatus) :
    Move idEdge g (.serverStatus status) { g with serverStatus := status }

section Inversion

variable {idEdge : String} {g g' : Gateway}

theorem move_insertFails (h : g.insertFails = some g') : Move idEdge g .insertFails g' := by
  unfold insertFails at h
  split at h
  · rename_i command rest hi hq
    exact Option.some.inj h ▸ .insertFails hi hq
  · cases h

theorem move_mqttNet {calls : Calls} (h : g.mqttNet calls = some g') :
    Move idEdge g (.mqttNet calls) g' := by
  unfold mqttNet at h
  rcases hq : g.rxNet with _ | ⟨c, rest⟩ <;>
    simp only [hq, Option.map_eq_some_iff, reduceCtorEq] at h
  obtain ⟨client, hc, rfl⟩ := h
  exact .mqttNet hq hc

theorem move_mqttMsg (h : g.mqttMsg = some g') : Move idEdge g .mqttMsg g' := by
  unfold mqttMsg at h
  split at h
  · rename_i subs msg rest hw hq
    exact Option.some.inj h ▸ .mqttMsg hw hq
  · cases h

/-- Every step is a move. -/
theorem move_of_step {i : Label} (h : (machine idEdge).step g i = some g') :
    Move idEdge g i g' := by
  replace h : g.step idEdge i = some g' := h
  cases i with
  | sync i =>
    obtain ⟨p', hp, rfl⟩ := Option.map_eq_some_iff.mp h
    exact .sync hp
  | insertFails => exact move_insertFails h
  | removeFails =>
    unfold step removeFails at h
    rcases hq : g.sync.deletes with _ | ⟨c, rest⟩ <;>
      simp only [hq, Option.some.injEq, reduceCtorEq] at h
    exact h ▸ .removeFails hq
  | coreData =>
    unfold step coreData at h
    rcases hq : g.fromData with _ | ⟨r, rest⟩ <;>
      simp only [hq, Option.some.injEq, reduceCtorEq] at h
    exact h ▸ .coreData hq
  | coreNetwork =>
    unfold step coreNetwork at h
    rcases hq : g.fromNetwork with _ | ⟨r, rest⟩ <;>
      simp only [hq, Option.some.injEq, reduceCtorEq] at h
    exact h ▸ .coreNetwork hq
  | coreMessage =>
    unfold step coreMessage at h
    rcases hq : g.fromMessage with _ | ⟨r, rest⟩ <;>
      simp only [hq, Option.some.injEq, reduceCtorEq] at h
    exact h ▸ .coreMessage hq
  | messageService now =>
    unfold step messageService at h
    rcases hq : g.toMessage with _ | ⟨c, rest⟩ <;>
      simp only [hq, Option.some.injEq, reduceCtorEq] at h
    exact h ▸ .messageService hq
  | msgToHub =>
    unfold step msgToHub at h
    rcases hq : g.toHub with _ | ⟨c, rest⟩ <;>
      simp only [hq, Option.some.injEq, reduceCtorEq] at h
    exact h ▸ .msgToHub hq
  | msgToServer now =>
    unfold step msgToServer at h
    rcases hq : g.toServer with _ | ⟨c, rest⟩ <;>
      simp only [hq, Option.some.injEq, reduceCtorEq] at h
    exact h ▸ .msgToServer hq
  | mqttNet calls => exact move_mqttNet h
  | mqttMsg => exact move_mqttMsg h
  | mqttConnect certificates calls =>
    obtain ⟨client, hc, rfl⟩ := Option.map_eq_some_iff.mp h
    exact .mqttConnect hc
  | mqttLose =>
    obtain ⟨client, hc, rfl⟩ := Option.map_eq_some_iff.mp h
    exact .mqttLose hc
  | mqttRetry =>
    obtain ⟨client, hc, rfl⟩ := Option.map_eq_some_iff.mp h
    exact .mqttRetry hc
  | localStatus status => exact Option.some.inj h ▸ .localStatus status
  | serverStatus status => exact Option.some.inj h ▸ .serverStatus status

end Inversion

end Gateway

end EdgeGateway.Core
