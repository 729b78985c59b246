-- The topology cache. `NetworkManager` keeps the networks by their id and,
-- in a second map, the hubs of each network id; the two maps are changed
-- apart, and the hub count of every quorum reads the second one alone.
import EdgeGateway.Message.Domain
import Mathlib.Data.List.AList
import Mathlib.Data.Finset.Card
import Mathlib.Algebra.Order.BigOperators.Group.List
import Mathlib.Algebra.Order.Ring.Nat

namespace EdgeGateway.Networks

/-! ## Rows and topics -/

/-- A row of table `network`. -/
structure NetworkRow where
  idNetwork : String
  active : Bool
  deriving Repr, DecidableEq, Inhabited

/-- A row of table `hub`. -/
structure HubRow where
  id : String
  deviceName : String
  networkId : String
  deriving Repr, DecidableEq, Inhabited

/-- A hub of the cache. -/
structure Hub where
  id : String
  deviceName : String
  deriving Repr, DecidableEq, Inhabited

def HubRow.castToHub (r : HubRow) : Hub := { id := r.id, deviceName := r.deviceName }

def castToHubRow (l : Message.LinkageRequest) : HubRow :=
  { id := l.metadata.senderUserId, deviceName := l.deviceName, networkId := l.network }

/-- A topic and its quality of service. -/
structure Topic where
  topic : String
  qos : UInt8
  deriving Repr, DecidableEq, Inhabited

/-! ## A network -/

/-- A network with all the paths it subscribes and publishes to. -/
structure Network where
  idNetwork : String
  topicHubState : Topic
  topicData : Topic
  topicAlertAir : Topic
  topicAlertTemp : Topic
  topicMonitor : Topic
  topicHubSettingOk : Topic
  topicHubFirmwareOk : Topic
  topicBalanceModeHandshake : Topic
  topicSetting : Topic
  topicQueueEmpty : Topic
  topicQueueEmptySafe : Topic
  topicNewSetting : Topic
  topicNewFirmware : Topic
  topicSettingOk : Topic
  topicDeleteHub : Topic
  topicActiveHub : Topic
  active : Bool
  deriving Repr, DecidableEq, Inhabited

def Network.new (idNetwork : String) (active : Bool) : Network where
  idNetwork := idNetwork
  topicHubState := ⟨s!"iot/{idNetwork}/hub/+/hub_state", 0⟩
  topicData := ⟨s!"iot/{idNetwork}/hub/+/data", 0⟩
  topicAlertAir := ⟨s!"iot/{idNetwork}/hub/+/alert_air", 1⟩
  topicAlertTemp := ⟨s!"iot/{idNetwork}/hub/+/alert_temp", 1⟩
  topicMonitor := ⟨s!"iot/{idNetwork}/hub/+/monitor", 0⟩
  topicHubSettingOk := ⟨s!"iot/{idNetwork}/hub/+/hub_setting_ok", 0⟩
  topicHubFirmwareOk := ⟨s!"iot/{idNetwork}/hub/+/hub_firmware_ok", 2⟩
  topicBalanceModeHandshake := ⟨s!"iot/{idNetwork}/hub/+/balance_mode_handshake", 0⟩
  topicSetting := ⟨s!"iot/{idNetwork}/hub/+/setting", 0⟩
  topicQueueEmpty := ⟨s!"iot/{idNetwork}/hub/+/empty_queue", 1⟩
  topicQueueEmptySafe := ⟨s!"iot/{idNetwork}/hub/+/empty_queue_safe", 1⟩
  topicNewSetting := ⟨s!"iot/{idNetwork}/new_setting", 0⟩
  topicNewFirmware := ⟨s!"iot/{idNetwork}/new_firmware", 2⟩
  topicSettingOk := ⟨s!"iot/{idNetwork}/new_setting_ok", 0⟩
  topicDeleteHub := ⟨s!"iot/{idNetwork}/delete_hub", 0⟩
  topicActiveHub := ⟨s!"iot/{idNetwork}/active", 1⟩
  active := active

def NetworkRow.castToNetwork (r : NetworkRow) : Network := Network.new r.idNetwork r.active

@[simp] theorem Network.new_idNetwork (id : String) (a : Bool) :
    (Network.new id a).idNetwork = id := rfl

@[simp] theorem Network.new_active (id : String) (a : Bool) :
    (Network.new id a).active = a := rfl

/-! ## The cache -/

/-- The cache that all tasks share. A map never holds a key twice, and a
hub set never holds a hub twice. -/
structure NetworkManager where
  networks : AList (fun _ : String => Network)
  hubs : AList (fun _ : String => Finset Hub)
  topicHandshake : Topic
  topicState : Topic
  topicHeartbeat : Topic
  topicLinkageRequest : Topic
  topicLinkageAck : Topic

namespace NetworkManager

def newEmpty (idEdge : String) : NetworkManager where
  networks := ∅
  hubs := ∅
  topicHandshake := ⟨s!"iot/{idEdge}/handshake", 1⟩
  topicState := ⟨s!"iot/{idEdge}/state", 0⟩
  topicHeartbeat := ⟨s!"iot/{idEdge}/heartbeat", 0⟩
  topicLinkageRequest := ⟨s!"iot/{idEdge}/linkage_request", 1⟩
  topicLinkageAck := ⟨s!"iot/{idEdge}/linkage_ack", 1⟩

def addNetwork (m : NetworkManager) (network : Network) : NetworkManager :=
  { m with networks := m.networks.insert network.idNetwork network }

def changeActive (m : NetworkManager) (active : Bool) (id : String) : NetworkManager :=
  match m.networks.lookup id with
  | some network => { m with networks := m.networks.insert id { network with active := active } }
  | none => m

def isActive (m : NetworkManager) (id : String) : Bool :=
  match m.networks.lookup id with
  | some network => network.active
  | none => false

/-- The entry of `hubs` stays: only the network goes. -/
def removeNetwork (m : NetworkManager) (id : String) : NetworkManager :=
  { m with networks := m.networks.erase id }

def addHub (m : NetworkManager) (id : String) (hub : Hub) : NetworkManager :=
  { m with hubs := m.hubs.insert id (insert hub ((m.hubs.lookup id).getD ∅)) }

def removeHub (m : NetworkManager) (idNetwork idHub : String) : NetworkManager :=
  match m.hubs.lookup idNetwork with
  | some set => { m with hubs := m.hubs.insert idNetwork (set.filter (fun hub => hub.id ≠ idHub)) }
  | none => m

/-- For a network that does not exist the answer is `true`, so that the
caller ignores the hub. -/
def searchHub (m : NetworkManager) (idNet idHub : String) : Bool :=
  if idNet ∉ m.networks then true
  else match m.hubs.lookup idNet with
    | some set => decide (∃ hub ∈ set, hub.id = idHub)
    | none => false

/-- The sum of the sizes of all the hub sets. -/
def getTotalHubs (m : NetworkManager) : Nat :=
  (m.hubs.entries.map (fun e => e.2.card)).sum

/-- One change that a task makes to the cache under its write lock. -/
inductive Change where
  | addNetwork (network : Network)
  | changeActive (active : Bool) (id : String)
  | removeNetwork (id : String)
  | addHub (id : String) (hub : Hub)
  | removeHub (idNetwork idHub : String)
  deriving Repr, DecidableEq

def change (m : NetworkManager) : Change → NetworkManager
  | .addNetwork network => m.addNetwork network
  | .changeActive active id => m.changeActive active id
  | .removeNetwork id => m.removeNetwork id
  | .addHub id hub => m.addHub id hub
  | .removeHub idNetwork idHub => m.removeHub idNetwork idHub

/-! ## The hubs that are registered -/

/-- The ids of the hubs that some existing network holds. -/
def registered (m : NetworkManager) : Finset String :=
  ((m.hubs.entries.filter (fun e => e.1 ∈ m.networks)).map (fun e => e.2.image Hub.id)).foldr
    (· ∪ ·) ∅

theorem card_foldr_union_le {ι : Type} (l : List ι) (f : ι → Finset String) (g : ι → Nat)
    (h : ∀ e ∈ l, (f e).card ≤ g e) : ((l.map f).foldr (· ∪ ·) ∅).card ≤ (l.map g).sum := by
  induction l with
  | nil => simp
  | cons e l ih =>
    have hl := ih (fun e he => h e (by simp [he]))
    have he := h e (by simp)
    calc ((f e) ∪ (l.map f).foldr (· ∪ ·) ∅).card
        ≤ (f e).card + ((l.map f).foldr (· ∪ ·) ∅).card := Finset.card_union_le _ _
      _ ≤ g e + (l.map g).sum := Nat.add_le_add he hl
      _ = ((e :: l).map g).sum := by simp

/-- No hub is registered that the quorums do not count. -/
theorem card_registered_le (m : NetworkManager) : m.registered.card ≤ m.getTotalHubs := by
  have hsub : (m.hubs.entries.filter (fun e => e.1 ∈ m.networks)).Sublist m.hubs.entries :=
    List.filter_sublist
  calc m.registered.card
      ≤ ((m.hubs.entries.filter (fun e => e.1 ∈ m.networks)).map (fun e => e.2.card)).sum :=
        card_foldr_union_le _ _ _ (fun e _ => Finset.card_image_le)
    _ ≤ m.getTotalHubs := (hsub.map _).sum_le_sum (fun _ _ => Nat.zero_le _)

/-! ## The hubs that are counted -/

/-- The ids of the hubs that `getTotalHubs` counts. -/
def counted (m : NetworkManager) : Finset String :=
  (m.hubs.entries.map (fun e => e.2.image Hub.id)).foldr (· ∪ ·) ∅

/-- How many of the hubs that `getTotalHubs` counts have an id in `ids`. -/
def countedIn (m : NetworkManager) (ids : List String) : Nat :=
  (m.hubs.entries.map (fun e => (e.2.filter (fun hub => hub.id ∈ ids)).card)).sum

/-- The change reaches the map of hubs. -/
def Change.touchesHubs : Change → Bool
  | .addHub _ _ => true
  | .removeHub _ _ => true
  | _ => false

theorem mem_foldr_union {ι : Type} {l : List ι} {f : ι → Finset String} {x : String} :
    x ∈ (l.map f).foldr (· ∪ ·) ∅ ↔ ∃ e ∈ l, x ∈ f e := by
  induction l with
  | nil => simp
  | cons e l ih => simp [ih]

/-- Distinct ids of counted hubs are at most the counted hubs with these ids. -/
theorem length_le_countedIn {m : NetworkManager} {ids : List String} (hnodup : ids.Nodup)
    (h : ∀ k ∈ ids, k ∈ m.counted) : ids.length ≤ m.countedIn ids := by
  let named := fun e : (_ : String) × Finset Hub =>
    (e.2.filter (fun hub => hub.id ∈ ids)).image Hub.id
  have hsub : ids.toFinset ⊆ (m.hubs.entries.map named).foldr (· ∪ ·) ∅ := by
    intro k hk
    rw [List.mem_toFinset] at hk
    obtain ⟨e, he, hke⟩ := mem_foldr_union.mp (h k hk)
    obtain ⟨hub, hhub, rfl⟩ := Finset.mem_image.mp hke
    exact mem_foldr_union.mpr
      ⟨e, he, Finset.mem_image_of_mem _ (Finset.mem_filter.mpr ⟨hhub, hk⟩)⟩
  calc ids.length = ids.toFinset.card := (List.toFinset_card_of_nodup hnodup).symm
    _ ≤ ((m.hubs.entries.map named).foldr (· ∪ ·) ∅).card := Finset.card_le_card hsub
    _ ≤ m.countedIn ids := card_foldr_union_le _ _ _ (fun e _ => Finset.card_image_le)

theorem countedIn_mono (m : NetworkManager) {ids ids' : List String}
    (h : ∀ k ∈ ids, k ∈ ids') : m.countedIn ids ≤ m.countedIn ids' := by
  refine List.sum_le_sum fun e _ => Finset.card_le_card fun hub hhub => ?_
  rw [Finset.mem_filter] at hhub ⊢
  exact ⟨hhub.1, h _ hhub.2⟩

/-- Any other change leaves the map of hubs. -/
theorem hubs_change {m : NetworkManager} {c : Change} (h : c.touchesHubs = false) :
    (m.change c).hubs = m.hubs := by
  cases c with
  | changeActive active id =>
    simp only [change, changeActive]
    split <;> rfl
  | addHub id hub => simp [Change.touchesHubs] at h
  | removeHub idNetwork idHub => simp [Change.touchesHubs] at h
  | _ => rfl

end NetworkManager

end EdgeGateway.Networks
