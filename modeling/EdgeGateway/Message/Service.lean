-- The message service. `MessageService::run` gives each command to one of its
-- four tasks, and each task turns what it takes into messages for the core or
-- for another task. A payload is the message that it holds: what MessagePack
-- or protobuf makes of its fields is not modelled.
import EdgeGateway.Network.Domain
import EdgeGateway.Database.Domain

namespace EdgeGateway.Message

open EdgeGateway.Networks EdgeGateway.Database

/-! ## Types -/

/-- What the server sends, as `to_edge::Payload` has it. -/
inductive ToEdge where
  | updateFirmware (msg : UpdateFirmware)
  | settings (msg : Settings)
  | deleteHub (msg : DeleteHub)
  | settingOk (msg : SettingOk)
  | network (msg : NetworkMsg)
  | heartbeat (msg : Heartbeat)
  | helloWorld (msg : HelloWorld)
  deriving Repr, DecidableEq

/-- What is sent to the server. -/
structure FromEdge where
  edgeId : String
  payload : ServerMessage
  deriving Repr, DecidableEq

/-- The events of the two connections. A message of a hub carries what its
topic and its bytes decode to. -/
inductive InternalEvent where
  | serverConnected
  | serverDisconnected
  | localConnected
  | localDisconnected
  | incomingMessage (decoded : Option HubMessage)
  | incomingGrpc (payload : Option ToEdge)
  deriving Repr, DecidableEq

/-- Whether the local broker is there. -/
inductive LocalStatus where
  | connected
  | disconnected
  deriving Repr, DecidableEq

/-- A message for the local broker. -/
structure SerializedMessage where
  topic : String
  payload : HubMessage
  qos : UInt8
  retain : Bool
  deriving Repr, DecidableEq

inductive MessageServiceResponse where
  | edgeUpload (upload : FromEdge)
  | serialized (msg : SerializedMessage)
  | fromHub (msg : HubMessage)
  | fromServer (msg : ServerMessage)
  deriving Repr, DecidableEq

inductive MessageServiceCommand where
  | generateHelloWorld
  | internal (event : InternalEvent)
  | batch (rows : TableDataVector)
  | toHub (msg : HubMessage)
  | toServer (msg : ServerMessage)
  | generateLinkageAck (hub : String)
  | generateEdgeState (state : String)
  | generateNetworkAck (id : String) (code : UInt32)
  deriving Repr, DecidableEq

/-- The tasks that `MessageService::run` spawns. -/
inductive MessageTask where
  | msgToHub
  | msgFromHub
  | msgToServer
  | msgFromServer
  deriving Repr, DecidableEq

/-! ## `MessageService::run` -/

/-- The messages that are passed on to `msg_to_hub`. -/
def passesToHub : HubMessage → Bool
  | .handshakeToHub _ => true
  | .stateToHub _ => true
  | .phaseNotification _ => true
  | .heartbeat _ => true
  | .updateFirmwareRequest _ => true
  | .fromServerSettings _ => true
  | .fromServerSettingsAck _ => true
  | .deleteHub _ => true
  | .activeHub _ => true
  | .linkageAck _ => true
  | _ => false

/-- The messages that are passed on to `msg_to_server`. -/
def passesToServer : ServerMessage → Bool
  | .fromHubSettings _ => true
  | .fromHubSettingsAck _ => true
  | .firmwareOutcome _ => true
  | .firmwareOutcomeError _ => true
  | .report _ => true
  | .monitor _ => true
  | .alertAir _ => true
  | .alertTem _ => true
  | .metrics _ => true
  | _ => false

/-- The acknowledgement of a hub that asked to join. -/
def linkageAck (idEdge : String) (now : Int64) (hub : String) : HubMessage :=
  .linkageAck
    { metadata := { senderUserId := idEdge, destinationId := hub, timestamp := now }
      linkageAck := true }

/-- The tasks that a command goes to, and what each of them gets. -/
def MessageServiceCommand.route (idEdge : String) (now : Int64) :
    MessageServiceCommand → List (MessageTask × MessageServiceCommand)
  | .internal event =>
    match event with
    | .localDisconnected => [(.msgFromHub, .internal event)]
    | .localConnected => [(.msgFromHub, .internal event)]
    | .serverConnected => [(.msgFromHub, .internal event), (.msgToServer, .internal event)]
    | .serverDisconnected => [(.msgFromHub, .internal event), (.msgToServer, .internal event)]
    | .incomingMessage _ => [(.msgFromHub, .internal event)]
    | .incomingGrpc _ => [(.msgFromServer, .internal event)]
  | .toHub msg => if passesToHub msg then [(.msgToHub, .toHub msg)] else []
  | .batch rows => [(.msgToServer, .batch rows)]
  | .toServer msg => if passesToServer msg then [(.msgToServer, .toServer msg)] else []
  | .generateHelloWorld => [(.msgToServer, .generateHelloWorld)]
  | .generateLinkageAck hub => [(.msgToHub, .toHub (linkageAck idEdge now hub))]
  | .generateEdgeState state => [(.msgToServer, .generateEdgeState state)]
  | .generateNetworkAck id code => [(.msgToServer, .generateNetworkAck id code)]

/-- What one task gets. -/
def commandsFor (task : MessageTask) (sends : List (MessageTask × MessageServiceCommand)) :
    List MessageServiceCommand :=
  (sends.filter (fun s => s.1 = task)).map Prod.snd

/-! ## `msg_to_hub` -/

/-- The topic, and whether the broker retains the message. -/
def resolveStaticTopic (m : NetworkManager) : HubMessage → Option (Topic × Bool)
  | .handshakeToHub _ => some (m.topicHandshake, false)
  | .stateToHub _ =>
    some ({ m.topicState with topic := s!"{m.topicState.topic}/edge_state" }, false)
  | .phaseNotification _ =>
    some ({ m.topicState with topic := s!"{m.topicState.topic}/phase" }, false)
  | .heartbeat _ => some (m.topicHeartbeat, false)
  | .linkageAck _ => some (m.topicLinkageAck, false)
  | .activeHub msg => (m.networks.lookup msg.network).map (fun n => (n.topicActiveHub, true))
  | _ => none

/-- The topic of a message for the hubs of a network, while it is in memory. -/
def getTopicToSendMsgToHub (m : NetworkManager) : HubMessage → Option Topic
  | .updateFirmwareRequest msg => (m.networks.lookup msg.network).map Network.topicNewFirmware
  | .fromServerSettings msg => (m.networks.lookup msg.network).map Network.topicNewSetting
  | .fromServerSettingsAck msg => (m.networks.lookup msg.network).map Network.topicSettingOk
  | .deleteHub msg => (m.networks.lookup msg.network).map Network.topicDeleteHub
  | .activeHub msg => (m.networks.lookup msg.network).map Network.topicActiveHub
  | _ => none

/-- What a command makes `msg_to_hub` send. -/
def msgToHub (m : NetworkManager) (state : LocalStatus) :
    MessageServiceCommand → Option SerializedMessage
  | .toHub msg =>
    match state with
    | .disconnected => none
    | .connected =>
      match resolveStaticTopic m msg with
      | some (t, retain) => some { topic := t.topic, payload := msg, qos := t.qos, retain }
      | none => (getTopicToSendMsgToHub m msg).map (fun t =>
          { topic := t.topic, payload := msg, qos := t.qos, retain := false })
  | _ => none

/-- What a message of `msg_from_server` makes it send. -/
def msgToHubServer (m : NetworkManager) (state : LocalStatus) :
    ServerMessage → Option SerializedMessage
  | .fromServerSettingsAck ack =>
    match state with
    | .disconnected => none
    | .connected =>
      (getTopicToSendMsgToHub m (.fromServerSettingsAck ack)).map (fun t =>
        { topic := t.topic, payload := .fromServerSettingsAck ack, qos := t.qos, retain := false })
  | _ => none

/-- The status that an event of `msg_from_hub` leaves. -/
def msgToHubInternal (state : LocalStatus) : InternalEvent → LocalStatus
  | .localConnected => .connected
  | .localDisconnected => .disconnected
  | _ => state

/-! ## `msg_from_hub` -/

/-- What a task of the service sends: to the core, or to another task. -/
inductive TaskSend where
  | toCore (response : MessageServiceResponse)
  | toMsgToServer (msg : ServerMessage)
  | internalToHub (event : InternalEvent)
  | serverToHub (msg : ServerMessage)
  deriving Repr, DecidableEq

/-- While the server is there, telemetry goes to it if its network is active. -/
def fromHubConnected (m : NetworkManager) : HubMessage → List TaskSend
  | .hubState msg => if m.isActive msg.network then [.toMsgToServer (.hubState msg)] else []
  | .report msg => if m.isActive msg.network then [.toMsgToServer (.report msg)] else []
  | .monitor msg => if m.isActive msg.network then [.toMsgToServer (.monitor msg)] else []
  | .alertAir msg => if m.isActive msg.network then [.toMsgToServer (.alertAir msg)] else []
  | .alertTem msg => if m.isActive msg.network then [.toMsgToServer (.alertTem msg)] else []
  | .handshakeFromHub msg => [.toCore (.fromHub (.handshakeFromHub msg))]
  | .firmwareOk msg => [.toCore (.fromHub (.firmwareOk msg))]
  | .fromHubSettings msg =>
    if m.isActive msg.network then [.toMsgToServer (.fromHubSettings msg)] else []
  | .fromHubSettingsAck msg => [.toMsgToServer (.fromHubSettingsAck msg)]
  | .emptyQueue msg => [.toCore (.fromHub (.emptyQueue msg))]
  | .emptyQueueSafe msg => [.toCore (.fromHub (.emptyQueueSafe msg))]
  | .linkageRequest msg => [.toCore (.fromHub (.linkageRequest msg))]
  | _ => []

/-- A command of `msg_from_hub`: the status after it, and what it sends. -/
def msgFromHub (m : NetworkManager) (state : ServerStatus) :
    MessageServiceCommand → ServerStatus × List TaskSend
  | .internal .localDisconnected => (state, [.internalToHub .localDisconnected])
  | .internal .localConnected => (state, [.internalToHub .localConnected])
  | .internal (.incomingMessage decoded) =>
    match decoded, state with
    | none, _ => (state, [])
    | some msg, .connected => (state, fromHubConnected m msg)
    | some msg, .disconnected => (state, [.toCore (.fromHub msg)])
  | .internal .serverConnected => (.connected, [])
  | .internal .serverDisconnected => (.disconnected, [])
  | _ => (state, [])

/-! ## `msg_to_server` -/

/-- `None` for a message that no payload of the protocol carries. -/
def convertToProtoUpload (idEdge : String) : ServerMessage → Option FromEdge
  | .updateFirmware _ => none
  | .deleteHub _ => none
  | .fromServerSettings _ => none
  | .fromServerSettingsAck _ => none
  | .network _ => none
  | .heartbeat _ => none
  | msg => some { edgeId := idEdge, payload := msg }

def uploadOf (idEdge : String) (msg : ServerMessage) : List TaskSend :=
  ((convertToProtoUpload idEdge msg).map (fun u => .toCore (.edgeUpload u))).toList

/-- The vectors that are not empty, in the order of the code. -/
def processBatch (idEdge : String) (rows : TableDataVector) : List TaskSend :=
  (if rows.measurement.isEmpty then [] else uploadOf idEdge (.reportBatch rows.measurement)) ++
    (if rows.monitor.isEmpty then [] else uploadOf idEdge (.monitorBatch rows.monitor)) ++
    (if rows.alertAir.isEmpty then [] else uploadOf idEdge (.alertAirBatch rows.alertAir)) ++
    (if rows.alertTh.isEmpty then [] else uploadOf idEdge (.alertTemBatch rows.alertTh))

/-- The metadata of what the edge tells the server. -/
def metadataToServer (idEdge : String) (now : Int64) : Metadata :=
  { senderUserId := idEdge, destinationId := "server0", timestamp := now }

/-- A message for the server is dropped while the server is away. -/
def msgToServerHub (idEdge : String) (state : ServerStatus) (msg : ServerMessage) :
    List TaskSend :=
  match state with
  | .disconnected => []
  | .connected => uploadOf idEdge msg

/-- A command of `msg_to_server`. What it generates itself it sends in any
state. -/
def msgToServer (idEdge : String) (now : Int64) (state : ServerStatus) :
    MessageServiceCommand → ServerStatus × List TaskSend
  | .internal .serverConnected => (.connected, [])
  | .internal .serverDisconnected => (.disconnected, [])
  | .batch rows =>
    match state with
    | .disconnected => (state, [])
    | .connected => (state, processBatch idEdge rows)
  | .toServer msg => (state, msgToServerHub idEdge state msg)
  | .generateHelloWorld =>
    (state, uploadOf idEdge (.helloWorld
      { metadata := metadataToServer idEdge now, hello := true }))
  | .generateEdgeState s =>
    (state, uploadOf idEdge (.edgePeriodic
      { metadata := metadataToServer idEdge now, state := s }))
  | .generateNetworkAck id code =>
    (state, uploadOf idEdge (.networkAck
      { metadata := metadataToServer idEdge now, idNetwork := id, codeOfAck := code }))
  | _ => (state, [])

/-! ## `msg_from_server` -/

/-- A beat of the server is a beat, whatever its payload says. -/
def handleGrpcMessage : Option ToEdge → List TaskSend
  | none => []
  | some (.updateFirmware msg) => [.toCore (.fromServer (.updateFirmware msg))]
  | some (.settings msg) => [.toCore (.fromServer (.fromServerSettings msg))]
  | some (.deleteHub msg) => [.toCore (.fromServer (.deleteHub msg))]
  | some (.settingOk msg) => [.serverToHub (.fromServerSettingsAck msg)]
  | some (.network msg) => [.toCore (.fromServer (.network msg))]
  | some (.heartbeat msg) => [.toCore (.fromServer (.heartbeat { msg with beat := true }))]
  | some (.helloWorld msg) => [.toCore (.fromServer (.helloWorld msg))]

def msgFromServer : MessageServiceCommand → List TaskSend
  | .internal (.incomingGrpc payload) => handleGrpcMessage payload
  | _ => []

/-! ## What is sent where -/

/-- A message has one topic: where both lookups know it, they agree. -/
theorem topic_of_resolveStaticTopic {m : NetworkManager} {msg : HubMessage} {t t' : Topic}
    {retain : Bool} (h : resolveStaticTopic m msg = some (t, retain))
    (h' : getTopicToSendMsgToHub m msg = some t') : t = t' := by
  cases msg <;> simp only [getTopicToSendMsgToHub, resolveStaticTopic, reduceCtorEq] at h h'
  rw [Option.map_eq_some_iff] at h h'
  obtain ⟨n, hn, heq⟩ := h
  obtain ⟨n', hn', rfl⟩ := h'
  rw [hn, Option.some.injEq] at hn'
  subst hn'
  exact (Prod.mk.inj heq).1.symm

/-- `msg_to_hub` publishes what it was given. -/
theorem payload_msgToHub {m : NetworkManager} {state : LocalStatus} {msg : HubMessage}
    {out : SerializedMessage} (h : msgToHub m state (.toHub msg) = some out) :
    out.payload = msg := by
  unfold msgToHub at h
  cases state with
  | disconnected => simp at h
  | connected =>
    rcases ht : resolveStaticTopic m msg with _ | ⟨t, retain⟩ <;> simp only [ht] at h
    · obtain ⟨t, -, rfl⟩ := Option.map_eq_some_iff.mp h
      rfl
    · cases h
      rfl

theorem mem_uploadOf {idEdge : String} {msg : ServerMessage} {s : TaskSend}
    (h : s ∈ uploadOf idEdge msg) : ∃ upload, s = .toCore (.edgeUpload upload) := by
  unfold uploadOf at h
  rw [Option.mem_toList, Option.map_eq_some_iff] at h
  obtain ⟨upload, -, rfl⟩ := h
  exact ⟨upload, rfl⟩

/-- `msg_to_server` sends uploads only. -/
theorem mem_msgToServer {idEdge : String} {now : Int64} {state : ServerStatus}
    {command : MessageServiceCommand} {s : TaskSend}
    (h : s ∈ (msgToServer idEdge now state command).2) :
    ∃ upload, s = .toCore (.edgeUpload upload) := by
  cases command with
  | internal event => cases event <;> simp [msgToServer] at h
  | batch rows =>
    cases state with
    | disconnected => simp [msgToServer] at h
    | connected =>
      simp only [msgToServer, processBatch, List.mem_append, List.mem_ite_nil_left] at h
      rcases h with ((⟨-, h⟩ | ⟨-, h⟩) | ⟨-, h⟩) | ⟨-, h⟩ <;> exact mem_uploadOf h
  | toServer msg =>
    cases state with
    | disconnected => simp [msgToServer, msgToServerHub] at h
    | connected =>
      simp only [msgToServer, msgToServerHub] at h
      exact mem_uploadOf h
  | generateHelloWorld =>
    simp only [msgToServer] at h
    exact mem_uploadOf h
  | generateEdgeState s =>
    simp only [msgToServer] at h
    exact mem_uploadOf h
  | generateNetworkAck id code =>
    simp only [msgToServer] at h
    exact mem_uploadOf h
  | toHub msg => simp [msgToServer] at h
  | generateLinkageAck hub => simp [msgToServer] at h

theorem mem_msgToServerHub {idEdge : String} {state : ServerStatus} {msg : ServerMessage}
    {s : TaskSend} (h : s ∈ msgToServerHub idEdge state msg) :
    ∃ upload, s = .toCore (.edgeUpload upload) := by
  cases state with
  | disconnected => cases h
  | connected => exact mem_uploadOf h

/-- `msg_from_server` sends to the core, and acknowledgements to `msg_to_hub`. -/
theorem mem_msgFromServer {command : MessageServiceCommand} {s : TaskSend}
    (h : s ∈ msgFromServer command) :
    (∃ msg, s = .toCore (.fromServer msg)) ∨ ∃ msg, s = .serverToHub msg := by
  cases command with
  | internal event =>
    cases event with
    | incomingGrpc payload =>
      rcases payload with _ | msg
      · simp [msgFromServer, handleGrpcMessage] at h
      · cases msg <;> simp [msgFromServer, handleGrpcMessage] at h <;> simp [h]
    | _ => simp [msgFromServer] at h
  | _ => simp [msgFromServer] at h

end EdgeGateway.Message
