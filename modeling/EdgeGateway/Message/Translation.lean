-- What the two translations of the server protocol keep. A server can read each
-- message back from its upload, but for a signal that is missing or zero; and two of
-- its own messages are taken for one exactly where they differ in what the gateway
-- fills in, cuts or does not look at.
import EdgeGateway.Message.Proto

namespace EdgeGateway.Message

/-! ## To the server -/

namespace Proto

def HubState.read (msg : HubState) : Message.HubState where
  metadata := extractMetadata msg.metadata
  network := msg.network
  state := msg.state

def EdgeState.read (msg : EdgeState) : Message.EdgeState where
  metadata := extractMetadata msg.metadata
  state := msg.state

def NetworkAck.read (msg : NetworkAck) : Message.NetworkAck where
  metadata := extractMetadata msg.metadata
  idNetwork := msg.idNetwork
  codeOfAck := msg.codeOfAck

def FirmwareOutcome.read (msg : FirmwareOutcome) : Message.FirmwareOutcome where
  metadata := extractMetadata msg.metadata
  network := msg.network
  percentageOk := msg.percentageOk

def FirmwareOutcomeError.read (msg : FirmwareOutcomeError) : Message.FirmwareOutcomeError where
  metadata := extractMetadata msg.metadata
  network := msg.network
  error := msg.error

def Measurement.read (msg : Measurement) : Message.Measurement where
  metadata := extractMetadata msg.metadata
  network := msg.network
  pulseCounter := msg.pulseCounter
  temperature := msg.temperature
  humidity := msg.humidity
  airQuality := msg.airQuality
  sample := msg.sample.toUInt16

def Monitor.read (msg : Monitor) : Message.Monitor where
  metadata := extractMetadata msg.metadata
  network := msg.network
  heapFree := msg.heapFree
  heapMinFree := msg.heapMinFree
  heapLargestBlock := msg.heapLargestBlock
  uptimeSec := msg.uptimeSec.toInt64

def AlertAir.read (msg : AlertAir) : Message.AlertAir where
  metadata := extractMetadata msg.metadata
  network := msg.network
  initialAirQuality := msg.initialAirQuality
  actualAirQuality := msg.actualAirQuality

def AlertTh.read (msg : AlertTh) : Message.AlertTh where
  metadata := extractMetadata msg.metadata
  network := msg.network
  initialTemp := msg.initialTemp
  actualTemp := msg.actualTemp

/-- A signal of zero may be one that was not found. -/
def SystemMetrics.read (msg : SystemMetrics) : Message.SystemMetrics where
  metadata := extractMetadata msg.metadata
  uptimeSeconds := msg.uptimeSeconds
  cpuUsagePercent := msg.cpuUsagePercent
  cpuTempCelsius := msg.cpuTempCelsius
  ramTotalMb := msg.ramTotalMb
  ramUsedMb := msg.ramUsedMb
  ramUsedByServiceMb := msg.ramUsedByServiceMb
  sdTotalGb := msg.sdTotalGb
  sdUsedGb := msg.sdUsedGb
  sdUsagePercent := msg.sdUsagePercent
  networkRxBytes := msg.networkRxBytes
  networkTxBytes := msg.networkTxBytes
  wifiRssi := some msg.wifiRssi
  wifiSignalDbm := some msg.wifiSignalDbm

/-- The message that a server reads in a payload. -/
def Upload.read : Upload → ServerMessage
  | .measurement msg => .report msg.read
  | .monitor msg => .monitor msg.read
  | .alertAir msg => .alertAir msg.read
  | .alertTh msg => .alertTem msg.read
  | .metrics msg => .metrics msg.read
  | .settings msg => .fromHubSettings msg.toDomain
  | .settingOk msg => .fromHubSettingsAck msg.toDomain
  | .firmwareOutcome msg => .firmwareOutcome msg.read
  | .helloWorld msg => .helloWorld msg.toDomain
  | .measurementBatch measurements => .reportBatch (measurements.map Measurement.read)
  | .monitorBatch monitors => .monitorBatch (monitors.map Monitor.read)
  | .alertAirBatch alerts => .alertAirBatch (alerts.map AlertAir.read)
  | .alertThBatch alerts => .alertTemBatch (alerts.map AlertTh.read)
  | .edgeState msg => .edgePeriodic msg.read
  | .networkAck msg => .networkAck msg.read
  | .hubState msg => .hubState msg.read
  | .outcomeError msg => .firmwareOutcomeError msg.read

/-- The edge of an upload, and its message. -/
def FromEdge.read (upload : FromEdge) : String × Option ServerMessage :=
  (upload.edgeId, upload.payload.map Upload.read)

end Proto

/-- A signal that was not found is one of zero. -/
def SystemMetrics.sent (msg : SystemMetrics) : SystemMetrics :=
  { msg with
    wifiRssi := some (msg.wifiRssi.getD 0)
    wifiSignalDbm := some (msg.wifiSignalDbm.getD 0) }

/-- What the server can tell of a message. -/
def ServerMessage.sent : ServerMessage → ServerMessage
  | .metrics msg => .metrics msg.sent
  | msg => msg

theorem read_toProto_measurement (msg : Measurement) : msg.toProto.read = msg := by
  have hsample : msg.sample.toUInt32.toUInt16 = msg.sample := by simp
  unfold Measurement.toProto Proto.Measurement.read
  rw [toDomain_toProto_metadata, hsample]

theorem read_toProto_monitor (msg : Monitor) : msg.toProto.read = msg := by
  have huptime : msg.uptimeSec.toUInt64.toInt64 = msg.uptimeSec := by simp
  unfold Monitor.toProto Proto.Monitor.read
  rw [toDomain_toProto_metadata, huptime]

theorem map_read {α β : Type} {toProto : α → β} {read : β → α}
    (h : ∀ x, read (toProto x) = x) (l : List α) : (l.map toProto).map read = l := by
  rw [List.map_map]
  exact (List.map_congr_left fun x _ => h x).trans l.map_id

/-- The server reads what was sent. -/
theorem read_upload {msg : ServerMessage} {edgeId : String} {upload : Proto.FromEdge}
    (h : Proto.convertToProtoUpload msg edgeId = some upload) :
    upload.read = (edgeId, some msg.sent) := by
  cases msg with
  | report msg =>
    obtain rfl := Option.some.inj h
    exact congrArg (fun m => (edgeId, some (ServerMessage.report m))) (read_toProto_measurement msg)
  | monitor msg =>
    obtain rfl := Option.some.inj h
    exact congrArg (fun m => (edgeId, some (ServerMessage.monitor m))) (read_toProto_monitor msg)
  | fromHubSettings msg =>
    obtain rfl := Option.some.inj h
    exact congrArg (fun m => (edgeId, some (ServerMessage.fromHubSettings m)))
      (toDomain_toProto_settings msg)
  | reportBatch reports =>
    obtain rfl := Option.some.inj h
    exact congrArg (fun l => (edgeId, some (ServerMessage.reportBatch l)))
      (map_read read_toProto_measurement reports)
  | monitorBatch monitors =>
    obtain rfl := Option.some.inj h
    exact congrArg (fun l => (edgeId, some (ServerMessage.monitorBatch l)))
      (map_read read_toProto_monitor monitors)
  | alertAirBatch alerts =>
    obtain rfl := Option.some.inj h
    exact congrArg (fun l => (edgeId, some (ServerMessage.alertAirBatch l)))
      (map_read (fun _ => rfl) alerts)
  | alertTemBatch alerts =>
    obtain rfl := Option.some.inj h
    exact congrArg (fun l => (edgeId, some (ServerMessage.alertTemBatch l)))
      (map_read (fun _ => rfl) alerts)
  | _ => cases h <;> rfl

/-- A missing signal goes up as one of zero. -/
theorem convertToProtoUpload_sent (msg : ServerMessage) (edgeId : String) :
    Proto.convertToProtoUpload msg.sent edgeId = Proto.convertToProtoUpload msg edgeId := by
  cases msg <;> rfl

/-- Two messages become one upload only where they differ in a signal that is missing in one
and zero in the other, and an upload names its edge. -/
theorem uploads_tell_messages_apart (msg msg' : ServerMessage) (edgeId edgeId' : String)
    (h : (Proto.convertToProtoUpload msg edgeId).isSome) :
    Proto.convertToProtoUpload msg edgeId = Proto.convertToProtoUpload msg' edgeId' ↔
      edgeId = edgeId' ∧ msg.sent = msg'.sent := by
  constructor
  · intro heq
    obtain ⟨upload, hupload⟩ := Option.isSome_iff_exists.mp h
    have hread := read_upload hupload
    rw [heq] at hupload
    rw [read_upload hupload] at hread
    obtain ⟨hedge, hmsg⟩ := Prod.mk.inj hread
    exact ⟨hedge.symm, (Option.some.inj hmsg).symm⟩
  · rintro ⟨rfl, hmsg⟩
    rw [← convertToProtoUpload_sent msg, hmsg, convertToProtoUpload_sent]

/-- A machine without wireless sends what one with a signal of zero sends. -/
theorem a_missing_signal_reads_as_zero :
    let absent : SystemMetrics := default
    let zero : SystemMetrics := { absent with wifiRssi := some 0, wifiSignalDbm := some 0 }
    absent ≠ zero ∧
      Proto.convertToProtoUpload (.metrics absent) "edge" =
        Proto.convertToProtoUpload (.metrics zero) "edge" :=
  ⟨by decide, (uploads_tell_messages_apart _ _ _ _ rfl).mpr ⟨rfl, rfl⟩⟩

/-! ## From the server -/

namespace Proto

/-- Metadata that is missing is empty. -/
def filled (protoMeta : Option Metadata) : Option Metadata :=
  some (protoMeta.getD { senderUserId := "", destinationId := "", timestamp := 0 })

/-- What the gateway takes a payload for. -/
def Download.taken : Download → Download
  | .settingOk msg => .settingOk { msg with metadata := filled msg.metadata }
  | .updateFirmware msg => .updateFirmware { msg with metadata := filled msg.metadata }
  | .network msg => .network { msg with metadata := filled msg.metadata }
  | .deleteHub msg => .deleteHub { msg with metadata := filled msg.metadata }
  | .settings msg =>
    .settings { msg with metadata := filled msg.metadata, sample := msg.sample.toUInt16.toUInt32 }
  | .heartbeat msg => .heartbeat { metadata := filled msg.metadata, beat := true }
  | .helloWorld msg => .helloWorld { msg with metadata := filled msg.metadata }

/-- The payload that is read back from what the gateway makes of one. -/
def back : List TaskSend → Option Download
  | [.toCore (.fromServer (.updateFirmware msg))] =>
    some (.updateFirmware { metadata := msg.metadata.toProto, network := msg.network })
  | [.toCore (.fromServer (.fromServerSettings msg))] => some (.settings msg.toProto)
  | [.toCore (.fromServer (.deleteHub msg))] =>
    some (.deleteHub { metadata := msg.metadata.toProto, network := msg.network })
  | [.serverToHub (.fromServerSettingsAck msg)] => some (.settingOk msg.toProto)
  | [.toCore (.fromServer (.network msg))] =>
    some (.network
      { metadata := msg.metadata.toProto, idNetwork := msg.idNetwork
        nameNetwork := msg.nameNetwork, active := msg.active
        deleteNetwork := msg.deleteNetwork })
  | [.toCore (.fromServer (.heartbeat msg))] =>
    some (.heartbeat { metadata := msg.metadata.toProto, beat := msg.beat })
  | [.toCore (.fromServer (.helloWorld msg))] =>
    some (.helloWorld { metadata := msg.metadata.toProto, hello := msg.hello })
  | _ => none

theorem back_handleGrpcMessage (protoMsg : ToEdge) :
    back (handleGrpcMessage protoMsg) = protoMsg.payload.map Download.taken := by
  obtain ⟨edgeId, payload⟩ := protoMsg
  cases payload with
  | none => rfl
  | some payload => cases payload <;> rfl

theorem handleGrpcMessage_taken (protoMsg : ToEdge) (edgeId : String) :
    handleGrpcMessage { edgeId, payload := protoMsg.payload.map Download.taken } =
      handleGrpcMessage protoMsg := by
  obtain ⟨_, payload⟩ := protoMsg
  cases payload with
  | none => rfl
  | some payload =>
    cases payload with
    | settings msg =>
      have hsample : msg.sample.toUInt16.toUInt32.toUInt16 = msg.sample.toUInt16 :=
        UInt16.toUInt16_toUInt32 _
      simp only [handleGrpcMessage, Option.map_some, Download.taken, Settings.toDomain, hsample]
      rfl
    | _ => rfl

end Proto

/-- Two messages of the server make `msg_from_server` do the same exactly where their payloads
agree up to metadata that is missing, the upper half of a sample and what a beat says; the
edge that they name does not matter. -/
theorem downloads_are_taken_for_one (protoMsg protoMsg' : Proto.ToEdge) :
    Proto.handleGrpcMessage protoMsg = Proto.handleGrpcMessage protoMsg' ↔
      protoMsg.payload.map Proto.Download.taken = protoMsg'.payload.map Proto.Download.taken := by
  constructor
  · intro h
    rw [← Proto.back_handleGrpcMessage, h, Proto.back_handleGrpcMessage]
  · intro h
    rw [← Proto.handleGrpcMessage_taken protoMsg "", h, Proto.handleGrpcMessage_taken]

end EdgeGateway.Message
