-- The two paths of a message of a hub. While the server is there, `msg_from_hub` decides on
-- each message; while it is not, the core and `sort_by_vectors` do. The core does not know
-- three of the messages, and only `msg_from_hub` asks whether a network is active.
import EdgeGateway.Core.Domain
import EdgeGateway.Database.Flush
import EdgeGateway.Message.Incoming

namespace EdgeGateway.Core

open EdgeGateway.Message EdgeGateway.Networks EdgeGateway.Database

/-! ## Where a message ends -/

/-- The messages that a topic of the hubs decodes to. -/
def decodes : HubMessage → Bool
  | .report _ => true
  | .hubState _ => true
  | .monitor _ => true
  | .alertAir _ => true
  | .alertTem _ => true
  | .handshakeFromHub _ => true
  | .firmwareOk _ => true
  | .fromHubSettingsAck _ => true
  | .fromHubSettings _ => true
  | .linkageRequest _ => true
  | .emptyQueueSafe _ => true
  | .emptyQueue _ => true
  | _ => false

/-- The tests of a topic lead to no other message. -/
theorem decodes_decodeTopic {slice : FromSlice} {topic : String} {payload : List UInt8}
    {msg : HubMessage} (h : decodeTopic slice topic payload = some msg) : decodes msg = true := by
  obtain ⟨kind, -, hdecode⟩ := Option.bind_eq_some_iff.mp h
  cases kind <;> obtain ⟨decoded, -, rfl⟩ := Option.map_eq_some_iff.mp hdecode <;> rfl

/-- A command that its service handles. Of the messages that the database is given,
`sort_by_vectors` keeps the telemetry. -/
def Output.handled : Output → Bool
  | .toDataService (.hub msg) => (Telemetry.ofHub msg).isSome
  | .toFirmwareService (.hubResponse _) => true
  | .toFsmService (.fromHub _) => true
  | .toNetworkService (.hubMessage _) => true
  | _ => false

/-- A send of `msg_from_hub` arrives at `msg_to_server`, or the core gives it to a service
that handles it. -/
def arrives : TaskSend → Bool
  | .toMsgToServer _ => true
  | .toCore response => (run (.messageService response)).any Output.handled
  | _ => false

/-- Whether a decoded message arrives anywhere. -/
def delivers (m : NetworkManager) (state : ServerStatus) (msg : HubMessage) : Bool :=
  (msgFromHub m state (.internal (.incomingMessage (some msg)))).2.any arrives

/-- What the database handles gets a row in the buffer of `dba_insert_task`. -/
theorem handled_hub_iff (msg : HubMessage) (s : Buffer) :
    (Output.toDataService (.hub msg)).handled = true ↔
      ∃ k, (s.sortByVectors msg).tdv.rows k ≠ s.tdv.rows k := by
  unfold Output.handled Buffer.sortByVectors
  cases h : Telemetry.ofHub msg with
  | none => simp [h]
  | some row =>
    refine iff_of_true (by simp [h]) ⟨row.table, ?_⟩
    rw [TableDataVector.rows_sortByVectors]
    simp

/-! ## The two paths -/

/-- The network that the connected path asks about. -/
def filteredBy : HubMessage → Option String
  | .hubState msg => some msg.network
  | .report msg => some msg.network
  | .monitor msg => some msg.network
  | .alertAir msg => some msg.network
  | .alertTem msg => some msg.network
  | .fromHubSettings msg => some msg.network
  | _ => none

/-- The messages that the core has no service for. -/
def unknownToCore : HubMessage → Bool
  | .hubState _ => true
  | .fromHubSettings _ => true
  | .fromHubSettingsAck _ => true
  | _ => false

theorem delivers_connected (m : NetworkManager) (msg : HubMessage) :
    delivers m .connected msg = (decodes msg && (filteredBy msg).all m.isActive) := by
  unfold delivers msgFromHub
  cases msg with
  | hubState msg | report msg | monitor msg | alertAir msg | alertTem msg | fromHubSettings msg =>
    cases h : m.isActive msg.network <;> simp [fromHubConnected, arrives, decodes, filteredBy, h]
  | _ => rfl

theorem delivers_disconnected (m : NetworkManager) (msg : HubMessage) :
    delivers m .disconnected msg = (decodes msg && !unknownToCore msg) := by
  unfold delivers msgFromHub
  cases msg <;> rfl

/-- Both paths treat the message alike: telemetry of an active network, settings and states
of one that is not, and what concerns neither the server nor a network. -/
def Alike (m : NetworkManager) : HubMessage → Prop
  | .report msg => m.isActive msg.network = true
  | .monitor msg => m.isActive msg.network = true
  | .alertAir msg => m.isActive msg.network = true
  | .alertTem msg => m.isActive msg.network = true
  | .hubState msg => m.isActive msg.network = false
  | .fromHubSettings msg => m.isActive msg.network = false
  | .fromHubSettingsAck _ => False
  | _ => True

/-- A message is forwarded while the server is there if and only if it is kept while it is
not, exactly when both paths treat it alike. -/
theorem forwarded_iff_kept (m : NetworkManager) (msg : HubMessage) :
    (delivers m .connected msg = true ↔ delivers m .disconnected msg = true) ↔ Alike m msg := by
  rw [delivers_connected, delivers_disconnected]
  cases msg <;> simp [decodes, filteredBy, unknownToCore, Alike]

/-- A report of a network that the server has deactivated. -/
theorem an_inactive_network_is_stored :
    ¬ ∀ (m : NetworkManager) (msg : HubMessage), decodes msg = true →
      (delivers m .connected msg = true ↔ delivers m .disconnected msg = true) := by
  intro h
  have hboth := h ((NetworkManager.newEmpty "edge").addNetwork (Network.new "n" false))
    (.report { (default : Measurement) with network := "n" }) rfl
  revert hboth
  decide +kernel

end EdgeGateway.Core
