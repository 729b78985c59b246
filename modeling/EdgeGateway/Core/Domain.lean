-- The core: it gives each answer of a service to the services it concerns, in
-- the order of its sends. The commands and answers about networks and hubs are
-- those of the registry; here stand the others beside them.
import EdgeGateway.Firmware.Domain
import EdgeGateway.Fsm.Logic
import EdgeGateway.Message.Service
import EdgeGateway.Mqtt.Subscriptions

namespace EdgeGateway.Core

open EdgeGateway.Message EdgeGateway.Networks EdgeGateway.Database

/-! ## What the core reads and sends -/

/-- What `DataService` answers. -/
inductive DataResponse where
  | batch (rows : TableDataVector)
  | epoch (epoch : UInt32)
  | errorEpoch
  | registry (response : DataServiceResponse)
  deriving Repr, DecidableEq

/-- What `DataService` is asked. -/
inductive DataCommand where
  | hub (msg : HubMessage)
  | internal (event : InternalEvent)
  | newEpoch (epoch : UInt32)
  | getEpoch
  | registry (command : DataServiceCommand)
  deriving Repr, DecidableEq

/-- What the network service answers: a response, or a command for the database. -/
inductive NetworkResponse where
  | response (response : NetworkServiceResponse)
  | dataCommand (command : DataServiceCommand)
  deriving Repr

inductive NetworkServiceCommand where
  | serverMessage (msg : ServerMessage)
  | hubMessage (msg : HubMessage)
  | batch (batch : Batch)
  deriving Repr, DecidableEq

/-- What the MQTT service takes: a message to publish, or a change of the topology. -/
inductive MqttCommand where
  | serialized (msg : SerializedMessage)
  | net (cmd : Mqtt.MqttServiceCommand)
  deriving Repr, DecidableEq

/-- An answer of a service. -/
inductive Input where
  | dataService (response : DataResponse)
  | firmwareService (response : Firmware.FirmwareServiceResponse)
  | fsmService (response : Fsm.FsmServiceResponse)
  | grpcService (event : InternalEvent)
  | heartbeatService (event : InternalEvent)
  | messageService (response : MessageServiceResponse)
  | metricsService (msg : ServerMessage)
  | mqttService (event : InternalEvent)
  | networkService (response : NetworkResponse)
  deriving Repr

/-- A command for a service. -/
inductive Output where
  | toDataService (command : DataCommand)
  | toFirmwareService (command : Firmware.FirmwareServiceCommand)
  | toFsmService (command : Fsm.FsmServiceCommand)
  | toGrpcService (upload : FromEdge)
  | toHeartbeatService (msg : ServerMessage)
  | toMessageService (command : MessageServiceCommand)
  | toMqttService (command : MqttCommand)
  | toNetworkService (command : NetworkServiceCommand)
  deriving Repr, DecidableEq

/-! ## `Core::run` -/

/-- What the core sends before its loop. -/
def start : List Output :=
  [.toDataService (.registry .getTotalOfNetworks), .toMessageService .generateHelloWorld]

def ofData : DataResponse → List Output
  | .batch rows => [.toMessageService (.batch rows)]
  | .epoch epoch => [.toFsmService (.epoch epoch)]
  | .errorEpoch => [.toFsmService .errorEpoch]
  | .registry .noNetworks => [.toFsmService .deleteRuntime, .toFirmwareService .deleteRuntime]
  | .registry .thereAreNetworks => [.toFsmService .createRuntime, .toFirmwareService .createRuntime]
  | .registry (.batchNetwork rows) => [.toNetworkService (.batch (.network rows))]
  | .registry (.batchHub rows) => [.toNetworkService (.batch (.hub rows))]
  | .registry (.networksUpdated id code) =>
    [.toMqttService (.net .networksUpdated), .toMessageService (.generateNetworkAck id code)]
  | .registry (.hubInserted hub) => [.toMessageService (.generateLinkageAck hub)]

def ofFirmware : Firmware.FirmwareServiceResponse → List Output
  | .serverAck msg => [.toMessageService (.toServer msg)]
  | .hubCommand msg => [.toMessageService (.toHub msg)]

def ofFsm : Fsm.FsmServiceResponse → List Output
  | .toHub msg => [.toMessageService (.toHub msg)]
  | .newEpoch epoch => [.toDataService (.newEpoch epoch)]
  | .getEpoch => [.toDataService .getEpoch]
  | .edgeState state => [.toMessageService (.generateEdgeState state)]

/-- A message of a hub goes to the service it is for. -/
def ofHub : HubMessage → List Output
  | .report msg => [.toDataService (.hub (.report msg))]
  | .monitor msg => [.toDataService (.hub (.monitor msg))]
  | .alertAir msg => [.toDataService (.hub (.alertAir msg))]
  | .alertTem msg => [.toDataService (.hub (.alertTem msg))]
  | .firmwareOk msg => [.toFirmwareService (.hubResponse msg)]
  | .handshakeFromHub msg => [.toFsmService (.fromHub (.handshakeFromHub msg))]
  | .emptyQueue msg => [.toFsmService (.fromHub (.emptyQueue msg))]
  | .emptyQueueSafe msg => [.toFsmService (.fromHub (.emptyQueueSafe msg))]
  | .linkageRequest msg => [.toNetworkService (.hubMessage (.linkageRequest msg))]
  | _ => []

/-- An acknowledgement of settings comes back as one of a hub. -/
def ofServer : ServerMessage → List Output
  | .updateFirmware msg => [.toFirmwareService (.update msg)]
  | .deleteHub msg => [.toNetworkService (.serverMessage (.deleteHub msg))]
  | .fromServerSettings msg => [.toNetworkService (.serverMessage (.fromServerSettings msg))]
  | .fromServerSettingsAck msg => [.toMessageService (.toHub (.fromHubSettingsAck msg))]
  | .network msg => [.toNetworkService (.serverMessage (.network msg))]
  | .heartbeat msg => [.toHeartbeatService (.heartbeat msg)]
  | _ => []

def ofMessage : MessageServiceResponse → List Output
  | .edgeUpload upload => [.toGrpcService upload]
  | .fromHub msg => ofHub msg
  | .fromServer msg => ofServer msg
  | .serialized msg => [.toMqttService (.serialized msg)]

/-- The network service may not ask for the total of networks. -/
def ofNetwork : NetworkResponse → List Output
  | .response (.hubMessage msg) => [.toMessageService (.toHub msg)]
  | .response .networksReady => [.toMqttService (.net .networksReady)]
  | .response (.generateLinkageAck id) => [.toMessageService (.generateLinkageAck id)]
  | .dataCommand .getTotalOfNetworks => []
  | .dataCommand command => [.toDataService (.registry command)]

/-- What the core sends for an answer, in its order. -/
def run : Input → List Output
  | .dataService response => ofData response
  | .firmwareService response => ofFirmware response
  | .fsmService response => ofFsm response
  | .grpcService event => [.toMessageService (.internal event)]
  | .heartbeatService event =>
    [.toMessageService (.internal event), .toDataService (.internal event)]
  | .messageService response => ofMessage response
  | .metricsService msg => [.toMessageService (.toServer msg)]
  | .mqttService event => [.toMessageService (.internal event)]
  | .networkService response => ofNetwork response

/-! ## The channel of a command -/

namespace Output

def messageCommand : Output → Option MessageServiceCommand
  | .toMessageService command => some command
  | _ => none

def mqttMessage : Output → Option SerializedMessage
  | .toMqttService (.serialized msg) => some msg
  | _ => none

def mqttNet : Output → Option Mqtt.MqttServiceCommand
  | .toMqttService (.net command) => some command
  | _ => none

def upload : Output → Option FromEdge
  | .toGrpcService upload => some upload
  | _ => none

end Output

end EdgeGateway.Core
