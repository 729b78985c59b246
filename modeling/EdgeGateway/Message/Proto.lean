-- The messages of the server protocol, field by field as `iot.proto` declares
-- them, and the two translations between them and the messages of the
-- gateway. The law says which settings come back as they were sent.
import EdgeGateway.Message.Service

namespace EdgeGateway.Message

namespace Proto

/-! ## Messages -/

structure Metadata where
  senderUserId : String
  destinationId : String
  timestamp : Int64
  deriving Repr, DecidableEq, Inhabited

structure Measurement where
  metadata : Option Metadata
  network : String
  pulseCounter : F32
  temperature : F32
  humidity : F32
  airQuality : F32
  sample : UInt32
  deriving Repr, DecidableEq

structure AlertAir where
  metadata : Option Metadata
  network : String
  initialAirQuality : F32
  actualAirQuality : F32
  deriving Repr, DecidableEq

structure AlertTh where
  metadata : Option Metadata
  network : String
  initialTemp : F32
  actualTemp : F32
  deriving Repr, DecidableEq

structure Monitor where
  metadata : Option Metadata
  network : String
  heapFree : UInt32
  heapMinFree : UInt32
  heapLargestBlock : UInt32
  uptimeSec : UInt64
  deriving Repr, DecidableEq

structure HubState where
  metadata : Option Metadata
  network : String
  state : String
  deriving Repr, DecidableEq

structure Settings where
  metadata : Option Metadata
  messageId : UInt32
  network : String
  wifiSsid : String
  wifiPassword : String
  mqttUri : String
  deviceName : String
  sample : UInt32
  energyMode : UInt32
  deriving Repr, DecidableEq

structure SettingOk where
  metadata : Option Metadata
  messageId : UInt32
  network : String
  handshake : Bool
  deriving Repr, DecidableEq

structure Network where
  metadata : Option Metadata
  idNetwork : String
  nameNetwork : String
  active : Bool
  deleteNetwork : Bool
  deriving Repr, DecidableEq

structure NetworkAck where
  metadata : Option Metadata
  idNetwork : String
  codeOfAck : UInt32
  deriving Repr, DecidableEq

structure DeleteHub where
  metadata : Option Metadata
  network : String
  deriving Repr, DecidableEq

structure Heartbeat where
  metadata : Option Metadata
  beat : Bool
  deriving Repr, DecidableEq

structure UpdateFirmware where
  metadata : Option Metadata
  network : String
  deriving Repr, DecidableEq

structure FirmwareOutcome where
  metadata : Option Metadata
  network : String
  percentageOk : F32
  deriving Repr, DecidableEq

structure FirmwareOutcomeError where
  metadata : Option Metadata
  network : String
  error : String
  deriving Repr, DecidableEq

structure HelloWorld where
  metadata : Option Metadata
  hello : Bool
  deriving Repr, DecidableEq

structure SystemMetrics where
  metadata : Option Metadata
  uptimeSeconds : UInt64
  cpuUsagePercent : F32
  cpuTempCelsius : F32
  ramTotalMb : UInt64
  ramUsedByServiceMb : UInt64
  ramUsedMb : UInt64
  sdTotalGb : UInt64
  sdUsedGb : UInt64
  sdUsagePercent : F32
  networkRxBytes : UInt64
  networkTxBytes : UInt64
  wifiRssi : Int32
  wifiSignalDbm : Int32
  deriving Repr, DecidableEq

structure EdgeState where
  metadata : Option Metadata
  state : String
  deriving Repr, DecidableEq

/-- `from_edge::Payload` -/
inductive Upload where
  | measurement (msg : Measurement)
  | monitor (msg : Monitor)
  | alertAir (msg : AlertAir)
  | alertTh (msg : AlertTh)
  | metrics (msg : SystemMetrics)
  | settings (msg : Settings)
  | settingOk (msg : SettingOk)
  | firmwareOutcome (msg : FirmwareOutcome)
  | helloWorld (msg : HelloWorld)
  | measurementBatch (measurements : List Measurement)
  | monitorBatch (monitors : List Monitor)
  | alertAirBatch (alerts : List AlertAir)
  | alertThBatch (alerts : List AlertTh)
  | edgeState (msg : EdgeState)
  | networkAck (msg : NetworkAck)
  | hubState (msg : HubState)
  | outcomeError (msg : FirmwareOutcomeError)
  deriving Repr, DecidableEq

structure FromEdge where
  edgeId : String
  payload : Option Upload
  deriving Repr, DecidableEq

/-- `to_edge::Payload` -/
inductive Download where
  | settingOk (msg : SettingOk)
  | updateFirmware (msg : UpdateFirmware)
  | network (msg : Network)
  | deleteHub (msg : DeleteHub)
  | settings (msg : Settings)
  | heartbeat (msg : Heartbeat)
  | helloWorld (msg : HelloWorld)
  deriving Repr, DecidableEq

structure ToEdge where
  edgeId : String
  payload : Option Download
  deriving Repr, DecidableEq

/-! ## From the server -/

/-- Metadata that is missing is empty. -/
def extractMetadata (protoMeta : Option Metadata) : Message.Metadata :=
  let metadata := protoMeta.getD { senderUserId := "", destinationId := "", timestamp := 0 }
  { senderUserId := metadata.senderUserId
    destinationId := metadata.destinationId
    timestamp := metadata.timestamp }

def UpdateFirmware.toDomain (msg : UpdateFirmware) : Message.UpdateFirmware where
  metadata := extractMetadata msg.metadata
  network := msg.network

/-- The sample is cut to 16 bits. -/
def Settings.toDomain (msg : Settings) : Message.Settings where
  metadata := extractMetadata msg.metadata
  messageId := msg.messageId
  network := msg.network
  wifiSsid := msg.wifiSsid
  wifiPassword := msg.wifiPassword
  mqttUri := msg.mqttUri
  deviceName := msg.deviceName
  sample := msg.sample.toUInt16
  energyMode := msg.energyMode

def DeleteHub.toDomain (msg : DeleteHub) : Message.DeleteHub where
  metadata := extractMetadata msg.metadata
  network := msg.network

def SettingOk.toDomain (msg : SettingOk) : Message.SettingOk where
  metadata := extractMetadata msg.metadata
  messageId := msg.messageId
  network := msg.network
  handshake := msg.handshake

def Network.toDomain (msg : Network) : NetworkMsg where
  metadata := extractMetadata msg.metadata
  idNetwork := msg.idNetwork
  nameNetwork := msg.nameNetwork
  active := msg.active
  deleteNetwork := msg.deleteNetwork

/-- A beat, whatever its payload says. -/
def Heartbeat.toDomain (msg : Heartbeat) : Message.Heartbeat where
  metadata := extractMetadata msg.metadata
  beat := true

def HelloWorld.toDomain (msg : HelloWorld) : Message.HelloWorld where
  metadata := extractMetadata msg.metadata
  hello := msg.hello

def handleGrpcMessage (protoMsg : ToEdge) : List TaskSend :=
  match protoMsg.payload with
  | none => []
  | some (.updateFirmware msg) => [.toCore (.fromServer (.updateFirmware msg.toDomain))]
  | some (.settings msg) => [.toCore (.fromServer (.fromServerSettings msg.toDomain))]
  | some (.deleteHub msg) => [.toCore (.fromServer (.deleteHub msg.toDomain))]
  | some (.settingOk msg) => [.serverToHub (.fromServerSettingsAck msg.toDomain)]
  | some (.network msg) => [.toCore (.fromServer (.network msg.toDomain))]
  | some (.heartbeat msg) => [.toCore (.fromServer (.heartbeat msg.toDomain))]
  | some (.helloWorld msg) => [.toCore (.fromServer (.helloWorld msg.toDomain))]

/-- The payload that `msg_from_server` is taken to receive. -/
def Download.toDomain : Download → Message.ToEdge
  | .updateFirmware msg => .updateFirmware msg.toDomain
  | .settings msg => .settings msg.toDomain
  | .deleteHub msg => .deleteHub msg.toDomain
  | .settingOk msg => .settingOk msg.toDomain
  | .network msg => .network msg.toDomain
  | .heartbeat msg => .heartbeat msg.toDomain
  | .helloWorld msg => .helloWorld msg.toDomain

/-- The messages of the service are those of the protocol, translated. -/
theorem handleGrpcMessage_eq (protoMsg : ToEdge) :
    handleGrpcMessage protoMsg =
      Message.handleGrpcMessage (protoMsg.payload.map Download.toDomain) := by
  obtain ⟨edgeId, payload⟩ := protoMsg
  cases payload with
  | none => rfl
  | some payload => cases payload <;> rfl

end Proto

/-! ## To the server -/

def Metadata.toProto (metadata : Metadata) : Option Proto.Metadata :=
  some
    { senderUserId := metadata.senderUserId
      destinationId := metadata.destinationId
      timestamp := metadata.timestamp }

def HelloWorld.toProto (msg : HelloWorld) : Proto.HelloWorld where
  metadata := msg.metadata.toProto
  hello := msg.hello

def HubState.toProto (msg : HubState) : Proto.HubState where
  metadata := msg.metadata.toProto
  network := msg.network
  state := msg.state

def EdgeState.toProto (msg : EdgeState) : Proto.EdgeState where
  metadata := msg.metadata.toProto
  state := msg.state

def NetworkAck.toProto (msg : NetworkAck) : Proto.NetworkAck where
  metadata := msg.metadata.toProto
  idNetwork := msg.idNetwork
  codeOfAck := msg.codeOfAck

def Settings.toProto (msg : Settings) : Proto.Settings where
  metadata := msg.metadata.toProto
  messageId := msg.messageId
  network := msg.network
  wifiSsid := msg.wifiSsid
  wifiPassword := msg.wifiPassword
  mqttUri := msg.mqttUri
  deviceName := msg.deviceName
  sample := msg.sample.toUInt32
  energyMode := msg.energyMode

def SettingOk.toProto (msg : SettingOk) : Proto.SettingOk where
  metadata := msg.metadata.toProto
  messageId := msg.messageId
  network := msg.network
  handshake := msg.handshake

def FirmwareOutcome.toProto (msg : FirmwareOutcome) : Proto.FirmwareOutcome where
  metadata := msg.metadata.toProto
  network := msg.network
  percentageOk := msg.percentageOk

def FirmwareOutcomeError.toProto (msg : FirmwareOutcomeError) : Proto.FirmwareOutcomeError where
  metadata := msg.metadata.toProto
  network := msg.network
  error := msg.error

def Measurement.toProto (msg : Measurement) : Proto.Measurement where
  metadata := msg.metadata.toProto
  network := msg.network
  pulseCounter := msg.pulseCounter
  temperature := msg.temperature
  humidity := msg.humidity
  airQuality := msg.airQuality
  sample := msg.sample.toUInt32

def Monitor.toProto (msg : Monitor) : Proto.Monitor where
  metadata := msg.metadata.toProto
  network := msg.network
  heapFree := msg.heapFree
  heapMinFree := msg.heapMinFree
  heapLargestBlock := msg.heapLargestBlock
  uptimeSec := msg.uptimeSec.toUInt64

def AlertAir.toProto (msg : AlertAir) : Proto.AlertAir where
  metadata := msg.metadata.toProto
  network := msg.network
  initialAirQuality := msg.initialAirQuality
  actualAirQuality := msg.actualAirQuality

def AlertTh.toProto (msg : AlertTh) : Proto.AlertTh where
  metadata := msg.metadata.toProto
  network := msg.network
  initialTemp := msg.initialTemp
  actualTemp := msg.actualTemp

/-- A signal that was not found is sent as zero. -/
def SystemMetrics.toProto (msg : SystemMetrics) : Proto.SystemMetrics where
  metadata := msg.metadata.toProto
  uptimeSeconds := msg.uptimeSeconds
  cpuUsagePercent := msg.cpuUsagePercent
  cpuTempCelsius := msg.cpuTempCelsius
  ramTotalMb := msg.ramTotalMb
  ramUsedMb := msg.ramUsedMb
  ramUsedByServiceMb := msg.ramUsedByServiceMb
  sdTotalGb := msg.sdTotalGb
  sdUsedGb := msg.sdUsedGb
  sdUsagePercent := msg.sdUsagePercent
  networkRxBytes := msg.networkRxBytes
  networkTxBytes := msg.networkTxBytes
  wifiRssi := msg.wifiRssi.getD 0
  wifiSignalDbm := msg.wifiSignalDbm.getD 0

namespace Proto

def generateEdgeUpload (payload : Option Upload) (edgeId : String) : Option FromEdge :=
  payload.map (fun p => { edgeId, payload := some p })

def convertToProtoUpload (msg : ServerMessage) (edgeId : String) : Option FromEdge :=
  let payload : Option Upload :=
    match msg with
    | .helloWorld hello => some (.helloWorld hello.toProto)
    | .hubState hubState => some (.hubState hubState.toProto)
    | .edgePeriodic edgeState => some (.edgeState edgeState.toProto)
    | .networkAck networkAck => some (.networkAck networkAck.toProto)
    | .fromHubSettings hubSettings => some (.settings hubSettings.toProto)
    | .fromHubSettingsAck hubSettingsAck => some (.settingOk hubSettingsAck.toProto)
    | .firmwareOutcome outcome => some (.firmwareOutcome outcome.toProto)
    | .firmwareOutcomeError outcome => some (.outcomeError outcome.toProto)
    | .report report => some (.measurement report.toProto)
    | .monitor monitor => some (.monitor monitor.toProto)
    | .alertAir alertAir => some (.alertAir alertAir.toProto)
    | .alertTem alertTem => some (.alertTh alertTem.toProto)
    | .metrics metrics => some (.metrics metrics.toProto)
    | .reportBatch reports => some (.measurementBatch (reports.map Measurement.toProto))
    | .monitorBatch monitors => some (.monitorBatch (monitors.map Monitor.toProto))
    | .alertAirBatch alerts => some (.alertAirBatch (alerts.map AlertAir.toProto))
    | .alertTemBatch alerts => some (.alertThBatch (alerts.map AlertTh.toProto))
    | _ => none
  generateEdgeUpload payload edgeId

/-- A payload goes up exactly for the messages that the service takes as uploads. -/
theorem convertToProtoUpload_isSome (msg : ServerMessage) (edgeId : String) :
    (convertToProtoUpload msg edgeId).isSome =
      (Message.convertToProtoUpload edgeId msg).isSome := by
  cases msg <;> rfl

end Proto

/-! ## There and back -/

section RoundTrip

theorem toDomain_toProto_metadata (metadata : Metadata) :
    Proto.extractMetadata metadata.toProto = metadata := rfl

theorem toProto_toDomain_metadata (metadata : Proto.Metadata) :
    (Proto.extractMetadata (some metadata)).toProto = some metadata := rfl

theorem toDomain_toProto_settings (msg : Settings) : msg.toProto.toDomain = msg := by
  have hsample : msg.sample.toUInt32.toUInt16 = msg.sample := by simp
  unfold Settings.toProto Proto.Settings.toDomain
  rw [toDomain_toProto_metadata, hsample]

theorem toDomain_toProto_settingOk (msg : SettingOk) : msg.toProto.toDomain = msg := by
  unfold SettingOk.toProto Proto.SettingOk.toDomain
  rw [toDomain_toProto_metadata]

/-- What the cast to 16 bits leaves is the sample exactly when it fits. -/
theorem toUInt32_toUInt16 (sample : UInt32) :
    sample.toUInt16.toUInt32 = sample ↔ sample.toNat < 2 ^ 16 := by
  rw [← UInt32.toNat_inj, UInt16.toNat_toUInt32, UInt32.toNat_toUInt16]
  omega

theorem toProto_toDomain_settings {msg : Proto.Settings} {metadata : Proto.Metadata}
    (h : msg.metadata = some metadata) :
    msg.toDomain.toProto = msg ↔ msg.sample.toNat < 2 ^ 16 := by
  rw [← toUInt32_toUInt16]
  unfold Proto.Settings.toDomain Settings.toProto
  obtain ⟨_, messageId, network, wifiSsid, wifiPassword, mqttUri, deviceName, sample, energyMode⟩ :=
    msg
  subst h
  simp [toProto_toDomain_metadata]

theorem toProto_toDomain_settingOk {msg : Proto.SettingOk} {metadata : Proto.Metadata}
    (h : msg.metadata = some metadata) : msg.toDomain.toProto = msg := by
  obtain ⟨_, messageId, network, handshake⟩ := msg
  subst h
  rfl

end RoundTrip

/-- Settings of the server that a hub echoes come back as they were sent exactly when their sample
fits 16 bits; acknowledgements always do, and so does what a hub sends and the server returns. -/
theorem settings_survive_the_trip (edgeId idEdge : String) :
    (∀ (msg : Proto.Settings) (metadata : Proto.Metadata), msg.metadata = some metadata →
      ∃ settings, Proto.handleGrpcMessage ⟨edgeId, some (.settings msg)⟩ =
          [.toCore (.fromServer (.fromServerSettings settings))] ∧
        (Proto.convertToProtoUpload (.fromHubSettings settings) idEdge =
          some ⟨idEdge, some (.settings msg)⟩ ↔ msg.sample.toNat < 2 ^ 16)) ∧
    (∀ (msg : Proto.SettingOk) (metadata : Proto.Metadata), msg.metadata = some metadata →
      ∃ settingOk, Proto.handleGrpcMessage ⟨edgeId, some (.settingOk msg)⟩ =
          [.serverToHub (.fromServerSettingsAck settingOk)] ∧
        Proto.convertToProtoUpload (.fromHubSettingsAck settingOk) idEdge =
          some ⟨idEdge, some (.settingOk msg)⟩) ∧
    (∀ settings : Settings, ∃ msg,
      Proto.convertToProtoUpload (.fromHubSettings settings) idEdge =
          some ⟨idEdge, some (.settings msg)⟩ ∧
        Proto.handleGrpcMessage ⟨edgeId, some (.settings msg)⟩ =
          [.toCore (.fromServer (.fromServerSettings settings))]) ∧
    ∀ settingOk : SettingOk, ∃ msg,
      Proto.convertToProtoUpload (.fromHubSettingsAck settingOk) idEdge =
          some ⟨idEdge, some (.settingOk msg)⟩ ∧
        Proto.handleGrpcMessage ⟨edgeId, some (.settingOk msg)⟩ =
          [.serverToHub (.fromServerSettingsAck settingOk)] := by
  refine ⟨fun msg metadata h => ⟨msg.toDomain, rfl, ?_⟩,
    fun msg metadata h => ⟨msg.toDomain, rfl, ?_⟩, fun settings => ⟨settings.toProto, rfl, ?_⟩,
    fun settingOk => ⟨settingOk.toProto, rfl, ?_⟩⟩
  · rw [← toProto_toDomain_settings h]
    simp [Proto.convertToProtoUpload, Proto.generateEdgeUpload]
  · simp [Proto.convertToProtoUpload, Proto.generateEdgeUpload, toProto_toDomain_settingOk h]
  · simp [Proto.handleGrpcMessage, toDomain_toProto_settings]
  · simp [Proto.handleGrpcMessage, toDomain_toProto_settingOk]

/-- Settings with the given sample. -/
def sampling (sample : UInt32) : Proto.Settings where
  metadata := some ⟨"server0", "h", 1⟩
  messageId := 1
  network := "n"
  wifiSsid := "ssid"
  wifiPassword := "password"
  mqttUri := "mqtts://edge"
  deviceName := "device"
  sample
  energyMode := 0

theorem a_short_sample_comes_back :
    ∃ settings, Proto.handleGrpcMessage ⟨"edge", some (.settings (sampling 60))⟩ =
        [.toCore (.fromServer (.fromServerSettings settings))] ∧
      Proto.convertToProtoUpload (.fromHubSettings settings) "edge" =
        some ⟨"edge", some (.settings (sampling 60))⟩ := by
  obtain ⟨settings, hdown, hup⟩ := (settings_survive_the_trip "edge" "edge").1 (sampling 60) _ rfl
  exact ⟨settings, hdown, hup.mpr (by decide)⟩

/-- A sample of 65536 comes back as zero. -/
theorem a_long_sample_is_cut :
    ¬ ∀ (edgeId idEdge : String) (msg : Proto.Settings) (metadata : Proto.Metadata),
      msg.metadata = some metadata →
      ∃ settings, Proto.handleGrpcMessage ⟨edgeId, some (.settings msg)⟩ =
          [.toCore (.fromServer (.fromServerSettings settings))] ∧
        Proto.convertToProtoUpload (.fromHubSettings settings) idEdge =
          some ⟨idEdge, some (.settings msg)⟩ := by
  intro h
  obtain ⟨settings, hdown, hup⟩ := h "edge" "edge" (sampling 65536) _ rfl
  obtain rfl : (sampling 65536).toDomain = settings := by
    simpa [Proto.handleGrpcMessage] using hdown
  revert hup
  decide

end EdgeGateway.Message
