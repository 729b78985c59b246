-- The two tasks of the network service. `network_admin` decides, changes the
-- cache and reports its decisions over two channels; `network_dba` turns them
-- into commands of the database.
import EdgeGateway.Lib.Replay
import EdgeGateway.Database.Registry

namespace EdgeGateway.Networks

open EdgeGateway.Lib EdgeGateway.Message EdgeGateway.Database

/-! ## Types -/

inductive NetworkAction where
  | delete
  | update
  | insert
  | ignore
  deriving Repr, DecidableEq

/-- A change of a network, for the database. -/
inductive NetworkChanged where
  | insert (row : NetworkRow)
  | update (row : NetworkRow)
  | delete (id : String)
  deriving Repr, DecidableEq

/-- A change of a hub, for the database. -/
inductive HubChanged where
  | insert (row : HubRow)
  | delete (id : String)
  deriving Repr, DecidableEq

/-- Rows of the database for the cache. -/
inductive Batch where
  | network (rows : List NetworkRow)
  | hub (rows : List HubRow)
  deriving Repr, DecidableEq

/-- What the network service tells the core. -/
inductive NetworkServiceResponse where
  | hubMessage (msg : HubMessage)
  | networksReady
  | generateLinkageAck (id : String)
  deriving Repr

/-- What one turn of `network_admin` leaves in the cache and sends. -/
structure Decision where
  manager : NetworkManager
  netChan : List NetworkChanged := []
  hubChan : List HubChanged := []
  toCore : List NetworkServiceResponse := []

/-! ## `network_admin` -/

def createMetadata (idEdge : String) (now : Int64) : Metadata :=
  { senderUserId := idEdge, destinationId := "all", timestamp := now }

/-- What a `Network` message asks for, by what the cache says. -/
def actionOf (m : NetworkManager) (network : NetworkMsg) : NetworkAction :=
  match m.networks.lookup network.idNetwork, network.deleteNetwork with
  | some _, true => .delete
  | some existing, false => if existing.active ≠ network.active then .update else .ignore
  | none, false => .insert
  | none, true => .ignore

/-- There is nothing to do for `ignore`. -/
def handleAction (m : NetworkManager) (network : NetworkMsg) :
    NetworkAction → Option (NetworkManager × NetworkChanged)
  | .delete => some (m.removeNetwork network.idNetwork, .delete network.idNetwork)
  | .update =>
    some (m.changeActive network.active network.idNetwork,
      .update { idNetwork := network.idNetwork, active := network.active })
  | .insert =>
    some (m.addNetwork (Network.new network.idNetwork network.active),
      .insert { idNetwork := network.idNetwork, active := network.active })
  | .ignore => none

/-- The hubs of the network are told, except about its creation. -/
def handleEvent (idEdge : String) (now : Int64) : NetworkChanged → List NetworkServiceResponse
  | .delete id =>
    [.hubMessage (.deleteHub { metadata := createMetadata idEdge now, network := id })]
  | .update row =>
    [.hubMessage (.activeHub
      { metadata := createMetadata idEdge now, network := row.idNetwork, active := row.active })]
  | .insert _ => []

/-- A message of the server. The deletion of a hub names its network. -/
def adminServer (idEdge : String) (now : Int64) (m : NetworkManager) : ServerMessage → Decision
  | .network network =>
    match handleAction m network (actionOf m network) with
    | some (manager, change) =>
      { manager, netChan := [change], toCore := handleEvent idEdge now change }
    | none => { manager := m }
  | .fromServerSettings settings =>
    { manager := m, toCore := [.hubMessage (.fromServerSettings settings)] }
  | .deleteHub hub =>
    { manager := m.removeHub hub.network hub.metadata.destinationId
      hubChan := [.delete hub.network]
      toCore := [.hubMessage (.deleteHub hub)] }
  | _ => { manager := m }

/-- A request of a hub to join a network. -/
def adminHub (m : NetworkManager) (request : LinkageRequest) : Decision :=
  if m.searchHub request.network request.metadata.senderUserId then
    { manager := m, toCore := [.generateLinkageAck request.metadata.senderUserId] }
  else
    { manager := m.addHub request.network (castToHubRow request).castToHub
      hubChan := [.insert (castToHubRow request)] }

/-- The rows that the database had at the start. -/
def adminBatch (m : NetworkManager) : Batch → Decision
  | .network rows =>
    { manager := rows.foldl (fun m row => m.addNetwork row.castToNetwork) m
      toCore := [.networksReady] }
  | .hub rows => { manager := rows.foldl (fun m row => m.addHub row.networkId row.castToHub) m }

/-! ## `network_dba` -/

/-- The deletion of a network takes its hubs along. -/
def NetworkChanged.commands : NetworkChanged → List DataServiceCommand
  | .delete id => [.deleteNetwork id, .deleteAllHubByNetwork id]
  | .update row => [.updateNetwork row]
  | .insert row => [.newNetwork row]

def HubChanged.commands : HubChanged → List DataServiceCommand
  | .insert row => [.newHub row]
  | .delete id => [.deleteHub id]

/-! ## What a decision does to the networks -/

def NetworkChanged.id : NetworkChanged → String
  | .insert row => row.idNetwork
  | .update row => row.idNetwork
  | .delete id => id

/-- What a change does to the row of its network. An insertion leaves a row
that is there. -/
def NetworkChanged.effect : NetworkChanged → Option Bool → Option Bool
  | .insert row, active => some (active.getD row.active)
  | .update row, _ => some row.active
  | .delete _, _ => none

/-- The changes of networks, by their id. -/
def networkChanges : Changes String Bool NetworkChanged where
  key := NetworkChanged.id
  effect := NetworkChanged.effect

@[simp] theorem apply_insert (row : NetworkRow) (id : String) (active : Option Bool) :
    networkChanges.apply id active (.insert row) =
      if row.idNetwork = id then some (active.getD row.active) else active := rfl

@[simp] theorem apply_update (row : NetworkRow) (id : String) (active : Option Bool) :
    networkChanges.apply id active (.update row) =
      if row.idNetwork = id then some row.active else active := rfl

@[simp] theorem apply_delete (id₀ id : String) (active : Option Bool) :
    networkChanges.apply id active (.delete id₀) = if id₀ = id then none else active := rfl

namespace NetworkManager

/-- What the cache says about a network: whether it is active. -/
def activeOf (m : NetworkManager) (id : String) : Option Bool :=
  (m.networks.lookup id).map Network.active

theorem activeOf_addNetwork (m : NetworkManager) (network : Network) (id : String) :
    (m.addNetwork network).activeOf id =
      if network.idNetwork = id then some network.active else m.activeOf id := by
  unfold activeOf addNetwork
  by_cases h : network.idNetwork = id
  · subst h
    simp
  · simp [h, AList.lookup_insert_ne (Ne.symm h)]

theorem activeOf_removeNetwork (m : NetworkManager) (id₀ id : String) :
    (m.removeNetwork id₀).activeOf id = if id₀ = id then none else m.activeOf id := by
  unfold activeOf removeNetwork
  by_cases h : id₀ = id
  · subst h
    simp
  · simp [h, AList.lookup_erase_ne (Ne.symm h)]

theorem activeOf_changeActive {m : NetworkManager} {id₀ : String}
    (h : m.networks.lookup id₀ ≠ none) (active : Bool) (id : String) :
    (m.changeActive active id₀).activeOf id =
      if id₀ = id then some active else m.activeOf id := by
  obtain ⟨network, hn⟩ := Option.ne_none_iff_exists'.mp h
  unfold activeOf changeActive
  by_cases hid : id₀ = id
  · subst hid
    simp [hn]
  · simp [hn, hid, AList.lookup_insert_ne (Ne.symm hid)]

theorem activeOf_congr {m m' : NetworkManager} (h : m'.networks = m.networks) (id : String) :
    m'.activeOf id = m.activeOf id := by
  simp [activeOf, h]

end NetworkManager

/-- A change that is decided has been made in the cache. -/
theorem activeOf_handleAction {m m' : NetworkManager} {network : NetworkMsg} {c : NetworkChanged}
    (h : handleAction m network (actionOf m network) = some (m', c)) (id : String) :
    m'.activeOf id = networkChanges.apply id (m.activeOf id) c := by
  rcases hl : m.networks.lookup network.idNetwork with _ | existing <;>
    rcases hd : network.deleteNetwork with _ | _ <;>
    simp only [actionOf, hl, hd] at h
  · obtain ⟨rfl, rfl⟩ := Prod.mk.inj (Option.some.inj h)
    rw [NetworkManager.activeOf_addNetwork, apply_insert]
    by_cases hid : network.idNetwork = id
    · subst hid
      simp [NetworkManager.activeOf, hl]
    · simp [hid]
  · cases h
  · by_cases ha : existing.active ≠ network.active
    · rw [if_pos ha] at h
      obtain ⟨rfl, rfl⟩ := Prod.mk.inj (Option.some.inj h)
      exact NetworkManager.activeOf_changeActive (by simp [hl]) _ _
    · rw [if_neg ha] at h
      cases h
  · obtain ⟨rfl, rfl⟩ := Prod.mk.inj (Option.some.inj h)
    exact NetworkManager.activeOf_removeNetwork _ _ _

/-- A decision that leaves the networks and reports no change of them. -/
def Decision.keepsNetworks (d : Decision) (m : NetworkManager) : Prop :=
  d.netChan = [] ∧ d.manager.networks = m.networks

/-- A decision that makes one change in the cache and reports it. -/
def Decision.makes (d : Decision) (m : NetworkManager) (c : NetworkChanged) : Prop :=
  d.netChan = [c] ∧ ∀ id, d.manager.activeOf id = networkChanges.apply id (m.activeOf id) c

theorem adminServer_spec (idEdge : String) (now : Int64) (m : NetworkManager)
    (msg : ServerMessage) :
    (adminServer idEdge now m msg).keepsNetworks m ∨
      ∃ c, (adminServer idEdge now m msg).makes m c := by
  cases msg with
  | network network =>
    rcases h : handleAction m network (actionOf m network) with _ | ⟨manager, c⟩
    · have hd : adminServer idEdge now m (.network network) = { manager := m } := by
        simp only [adminServer, h]
      exact .inl (hd ▸ ⟨rfl, rfl⟩)
    · have hd : adminServer idEdge now m (.network network) =
          { manager, netChan := [c], toCore := handleEvent idEdge now c } := by
        simp only [adminServer, h]
      exact .inr ⟨c, hd ▸ ⟨rfl, activeOf_handleAction h⟩⟩
  | deleteHub hub =>
    refine .inl ⟨rfl, ?_⟩
    show (m.removeHub hub.network hub.metadata.destinationId).networks = m.networks
    unfold NetworkManager.removeHub
    split <;> rfl
  | _ => exact .inl ⟨rfl, rfl⟩

theorem adminHub_spec (m : NetworkManager) (request : LinkageRequest) :
    (adminHub m request).keepsNetworks m := by
  unfold adminHub
  split <;> exact ⟨rfl, rfl⟩

/-- Loading networks writes their rows into the cache. -/
theorem activeOf_load (rows : List NetworkRow) (m : NetworkManager) (id : String) :
    (∃ row ∈ rows, row.idNetwork = id ∧
      (adminBatch m (.network rows)).manager.activeOf id = some row.active) ∨
    (∀ row ∈ rows, row.idNetwork ≠ id) ∧
      (adminBatch m (.network rows)).manager.activeOf id = m.activeOf id := by
  show (∃ row ∈ rows, row.idNetwork = id ∧ (rows.foldl
      (fun m row => m.addNetwork row.castToNetwork) m).activeOf id = some row.active) ∨
    (∀ row ∈ rows, row.idNetwork ≠ id) ∧ (rows.foldl
      (fun m row => m.addNetwork row.castToNetwork) m).activeOf id = m.activeOf id
  induction rows generalizing m with
  | nil => exact .inr ⟨by simp, rfl⟩
  | cons row rows ih =>
    rw [List.foldl_cons]
    rcases ih (m.addNetwork row.castToNetwork) with ⟨x, hx, hid, hm⟩ | ⟨hnot, hm⟩
    · exact .inl ⟨x, List.mem_cons_of_mem _ hx, hid, hm⟩
    · rw [hm, NetworkManager.activeOf_addNetwork]
      by_cases hid : row.idNetwork = id
      · exact .inl ⟨row, List.mem_cons_self, hid, if_pos hid⟩
      · refine .inr ⟨fun x hx => ?_, if_neg hid⟩
        rcases List.mem_cons.mp hx with rfl | hx
        · exact hid
        · exact hnot x hx

/-- Loading hubs leaves the networks. -/
theorem networks_load (rows : List HubRow) (m : NetworkManager) :
    (adminBatch m (.hub rows)).keepsNetworks m := by
  refine ⟨rfl, ?_⟩
  show (rows.foldl (fun m row => m.addHub row.networkId row.castToHub) m).networks = m.networks
  induction rows generalizing m with
  | nil => rfl
  | cons row rows ih => exact (ih _).trans rfl

end EdgeGateway.Networks
