-- The messages that hubs, the edge and the server exchange. Field by field
-- they are the structs of `message/domain.rs`; a float is carried as its
-- bits, since no code of the gateway computes with one it received.

namespace EdgeGateway.Message

/-- The bits of an `f32`. -/
structure F32 where
  bits : UInt32
  deriving Repr, DecidableEq, Inhabited

/-- Standard metadata of every message. -/
structure Metadata where
  senderUserId : String
  destinationId : String
  timestamp : Int64
  deriving Repr, DecidableEq, Inhabited

/-! ## Telemetry -/

structure Measurement where
  metadata : Metadata
  network : String
  pulseCounter : F32
  temperature : F32
  humidity : F32
  airQuality : F32
  sample : UInt16
  deriving Repr, DecidableEq, Inhabited

structure AlertAir where
  metadata : Metadata
  network : String
  initialAirQuality : F32
  actualAirQuality : F32
  deriving Repr, DecidableEq, Inhabited

structure AlertTh where
  metadata : Metadata
  network : String
  initialTemp : F32
  actualTemp : F32
  deriving Repr, DecidableEq, Inhabited

structure Monitor where
  metadata : Metadata
  network : String
  heapFree : UInt32
  heapMinFree : UInt32
  heapLargestBlock : UInt32
  uptimeSec : Int64
  deriving Repr, DecidableEq, Inhabited

/-! ## Networks, settings and firmware -/

/-- `Network` of the message domain, which `network/logic.rs` imports as
`NetworkMsg`. -/
structure NetworkMsg where
  metadata : Metadata
  idNetwork : String
  nameNetwork : String
  active : Bool
  deleteNetwork : Bool
  deriving Repr, DecidableEq, Inhabited

structure NetworkAck where
  metadata : Metadata
  idNetwork : String
  codeOfAck : UInt32
  deriving Repr, DecidableEq, Inhabited

structure Settings where
  metadata : Metadata
  messageId : UInt32
  network : String
  wifiSsid : String
  wifiPassword : String
  mqttUri : String
  deviceName : String
  sample : UInt16
  energyMode : UInt32
  deriving Repr, DecidableEq, Inhabited

structure SettingOk where
  metadata : Metadata
  messageId : UInt32
  network : String
  handshake : Bool
  deriving Repr, DecidableEq, Inhabited

structure UpdateFirmware where
  metadata : Metadata
  network : String
  deriving Repr, DecidableEq, Inhabited

structure UpdateFirmwareRequestHub where
  metadata : Metadata
  network : String
  version : String
  deriving Repr, DecidableEq, Inhabited

structure FirmwareOk where
  metadata : Metadata
  isUpdated : Bool
  success : Bool
  deriving Repr, DecidableEq, Inhabited

structure FirmwareOutcome where
  metadata : Metadata
  network : String
  percentageOk : F32
  deriving Repr, DecidableEq, Inhabited

structure FirmwareOutcomeError where
  metadata : Metadata
  network : String
  error : String
  deriving Repr, DecidableEq, Inhabited

/-! ## The balancing protocol -/

structure HandshakeToHub where
  metadata : Metadata
  flag : String
  balanceEpoch : UInt32
  deriving Repr, DecidableEq, Inhabited

structure HandshakeFromHub where
  metadata : Metadata
  flag : String
  balanceEpoch : UInt32
  deriving Repr, DecidableEq, Inhabited

structure StateToHub where
  metadata : Metadata
  state : String
  balanceEpoch : UInt32
  duration : UInt32
  frequency : UInt32
  jitter : UInt32
  deriving Repr, DecidableEq, Inhabited

structure PhaseNotification where
  metadata : Metadata
  state : String
  epoch : UInt32
  phase : String
  frequency : UInt32
  jitter : UInt32
  deriving Repr, DecidableEq, Inhabited

structure Heartbeat where
  metadata : Metadata
  beat : Bool
  deriving Repr, DecidableEq, Inhabited

structure EmptyQueue where
  metadata : Metadata
  state : String
  phase : String
  queueEmpty : Bool
  deriving Repr, DecidableEq, Inhabited

structure EmptyQueueSafeMode where
  metadata : Metadata
  state : String
  queueEmpty : Bool
  deriving Repr, DecidableEq, Inhabited

/-! ## States, registration and metrics -/

structure HelloWorld where
  metadata : Metadata
  hello : Bool
  deriving Repr, DecidableEq, Inhabited

structure EdgeState where
  metadata : Metadata
  state : String
  deriving Repr, DecidableEq, Inhabited

structure HubState where
  metadata : Metadata
  network : String
  state : String
  deriving Repr, DecidableEq, Inhabited

/-- The `destinationId` is the hub to delete. -/
structure DeleteHub where
  metadata : Metadata
  network : String
  deriving Repr, DecidableEq, Inhabited

structure ActiveHub where
  metadata : Metadata
  network : String
  active : Bool
  deriving Repr, DecidableEq, Inhabited

structure LinkageRequest where
  metadata : Metadata
  deviceName : String
  network : String
  linkageRequest : Bool
  deriving Repr, DecidableEq, Inhabited

structure LinkageAck where
  metadata : Metadata
  linkageAck : Bool
  deriving Repr, DecidableEq, Inhabited

structure SystemMetrics where
  metadata : Metadata
  uptimeSeconds : UInt64
  cpuUsagePercent : F32
  cpuTempCelsius : F32
  ramTotalMb : UInt64
  ramUsedMb : UInt64
  ramUsedByServiceMb : UInt64
  sdTotalGb : UInt64
  sdUsedGb : UInt64
  sdUsagePercent : F32
  networkRxBytes : UInt64
  networkTxBytes : UInt64
  wifiRssi : Option Int32
  wifiSignalDbm : Option Int32
  deriving Repr, DecidableEq, Inhabited

/-! ## The two directions -/

/-- What hubs send (first twelve) and what is sent to hubs. -/
inductive HubMessage where
  | report (msg : Measurement)
  | monitor (msg : Monitor)
  | alertAir (msg : AlertAir)
  | alertTem (msg : AlertTh)
  | handshakeFromHub (msg : HandshakeFromHub)
  | firmwareOk (msg : FirmwareOk)
  | fromHubSettings (msg : Settings)
  | fromHubSettingsAck (msg : SettingOk)
  | emptyQueue (msg : EmptyQueue)
  | emptyQueueSafe (msg : EmptyQueueSafeMode)
  | linkageRequest (msg : LinkageRequest)
  | hubState (msg : HubState)
  | updateFirmwareRequest (msg : UpdateFirmwareRequestHub)
  | fromServerSettings (msg : Settings)
  | fromServerSettingsAck (msg : SettingOk)
  | deleteHub (msg : DeleteHub)
  | activeHub (msg : ActiveHub)
  | heartbeat (msg : Heartbeat)
  | handshakeToHub (msg : HandshakeToHub)
  | phaseNotification (msg : PhaseNotification)
  | stateToHub (msg : StateToHub)
  | linkageAck (msg : LinkageAck)
  deriving Repr, DecidableEq

/-- What the server sends (first six) and what is sent to the server. -/
inductive ServerMessage where
  | updateFirmware (msg : UpdateFirmware)
  | deleteHub (msg : DeleteHub)
  | fromServerSettings (msg : Settings)
  | fromServerSettingsAck (msg : SettingOk)
  | network (msg : NetworkMsg)
  | heartbeat (msg : Heartbeat)
  | firmwareOutcome (msg : FirmwareOutcome)
  | firmwareOutcomeError (msg : FirmwareOutcomeError)
  | helloWorld (msg : HelloWorld)
  | fromHubSettings (msg : Settings)
  | fromHubSettingsAck (msg : SettingOk)
  | report (msg : Measurement)
  | monitor (msg : Monitor)
  | alertAir (msg : AlertAir)
  | alertTem (msg : AlertTh)
  | metrics (msg : SystemMetrics)
  | reportBatch (msgs : List Measurement)
  | monitorBatch (msgs : List Monitor)
  | alertAirBatch (msgs : List AlertAir)
  | alertTemBatch (msgs : List AlertTh)
  | edgePeriodic (msg : EdgeState)
  | networkAck (msg : NetworkAck)
  | hubState (msg : HubState)
  deriving Repr, DecidableEq

/-- Whether the server is believed to be reachable. -/
inductive ServerStatus where
  | connected
  | disconnected
  deriving Repr, DecidableEq

end EdgeGateway.Message
