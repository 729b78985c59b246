-- The laws of the topology cache alone: each hub is of a network that exists
-- and has one place, so that the total of the quorums counts hubs. A deletion
-- leaves the hubs of its network, and a hub may ask for two networks; a run
-- keeps the laws exactly when neither happens and the loads bring no such hub.
import EdgeGateway.Lib.Machine
import EdgeGateway.Network.Logic

namespace EdgeGateway.Networks

open EdgeGateway.Lib EdgeGateway.Message

namespace NetworkManager

/-! ## The hubs of the cache -/

/-- The hub is in the set of a network id. -/
def Holds (m : NetworkManager) (id : String) (hub : Hub) : Prop :=
  hub ∈ (m.hubs.lookup id).getD ∅

instance (m : NetworkManager) (id : String) (hub : Hub) : Decidable (m.Holds id hub) :=
  inferInstanceAs (Decidable (hub ∈ (m.hubs.lookup id).getD ∅))

variable {m m' : NetworkManager}

theorem holds_congr (h : m'.hubs = m.hubs) (id : String) (hub : Hub) :
    m'.Holds id hub ↔ m.Holds id hub := by
  unfold Holds
  rw [h]

theorem holds_addHub (m : NetworkManager) (id₀ : String) (hub₀ : Hub) (id : String) (hub : Hub) :
    (m.addHub id₀ hub₀).Holds id hub ↔ m.Holds id hub ∨ id₀ = id ∧ hub = hub₀ := by
  unfold Holds addHub
  by_cases h : id₀ = id
  · subst h
    simp [or_comm]
  · simp [h, AList.lookup_insert_ne (Ne.symm h)]

theorem holds_removeHub (m : NetworkManager) (id₀ idHub : String) (id : String) (hub : Hub) :
    (m.removeHub id₀ idHub).Holds id hub ↔ m.Holds id hub ∧ ¬ (id₀ = id ∧ hub.id = idHub) := by
  unfold Holds removeHub
  rcases hl : m.hubs.lookup id₀ with _ | set
  · by_cases h : id₀ = id
    · subst h
      simp [hl]
    · simp [h]
  · by_cases h : id₀ = id
    · subst h
      simp [hl]
    · simp [h, AList.lookup_insert_ne (Ne.symm h)]

/-- Only a hub of a network that exists can be missing. -/
theorem searchHub_eq_true {idNet idHub : String} :
    m.searchHub idNet idHub = true ↔
      idNet ∉ m.networks ∨ ∃ hub, m.Holds idNet hub ∧ hub.id = idHub := by
  unfold searchHub Holds
  by_cases hn : idNet ∈ m.networks
  · rcases hl : m.hubs.lookup idNet with _ | set <;> simp [hn]
  · simp [hn]

theorem mem_counted {idHub : String} :
    idHub ∈ m.counted ↔ ∃ id hub, m.Holds id hub ∧ hub.id = idHub := by
  unfold counted
  rw [mem_foldr_union]
  constructor
  · rintro ⟨e, he, hmem⟩
    obtain ⟨hub, hhub, rfl⟩ := Finset.mem_image.mp hmem
    have hl : m.hubs.lookup e.1 = some e.2 := AList.mem_lookup_iff.mpr he
    exact ⟨e.1, hub, by simpa [Holds, hl] using hhub, rfl⟩
  · rintro ⟨id, hub, hhub, rfl⟩
    rcases hl : m.hubs.lookup id with _ | set
    · simp [Holds, hl] at hhub
    · rw [Holds, hl] at hhub
      exact ⟨⟨id, set⟩, AList.mem_lookup_iff.mp hl, Finset.mem_image_of_mem _ hhub⟩

/-! ## The laws -/

/-- Hubs are of networks that exist. -/
def Known (m : NetworkManager) : Prop := ∀ id hub, m.Holds id hub → id ∈ m.networks

/-- A hub id has one place, and one device name there. -/
def Once (m : NetworkManager) : Prop :=
  ∀ id hub id' hub', m.Holds id hub → m.Holds id' hub' → hub.id = hub'.id → id = id' ∧ hub = hub'

/-- What every quorum takes for granted. -/
structure Represents (m : NetworkManager) : Prop where
  known : m.Known
  once : m.Once
  total : m.getTotalHubs = m.registered.card

theorem card_foldr_union_eq {ι : Type} {l : List ι} {f : ι → Finset String}
    (h : l.Pairwise (fun e e' => Disjoint (f e) (f e'))) :
    ((l.map f).foldr (· ∪ ·) ∅).card = (l.map (fun e => (f e).card)).sum := by
  induction l with
  | nil => rfl
  | cons e l ih =>
    rw [List.pairwise_cons] at h
    have hdisj : Disjoint (f e) ((l.map f).foldr (· ∪ ·) ∅) := by
      rw [Finset.disjoint_left]
      intro x hx hl
      obtain ⟨e', he', hx'⟩ := mem_foldr_union.mp hl
      exact Finset.disjoint_left.mp (h.1 e' he') hx hx'
    rw [List.map_cons, List.foldr_cons, Finset.card_union_of_disjoint hdisj, ih h.2, List.map_cons,
      List.sum_cons]

theorem registered_of_known (h : m.Known) : m.registered = m.counted := by
  ext idHub
  unfold registered counted
  rw [mem_foldr_union, mem_foldr_union]
  constructor
  · rintro ⟨e, he, hmem⟩
    exact ⟨e, List.mem_of_mem_filter he, hmem⟩
  · rintro ⟨e, he, hmem⟩
    refine ⟨e, List.mem_filter.mpr ⟨he, decide_eq_true ?_⟩, hmem⟩
    obtain ⟨hub, hhub, -⟩ := Finset.mem_image.mp hmem
    have hl : m.hubs.lookup e.1 = some e.2 := AList.mem_lookup_iff.mpr he
    exact h e.1 hub (by simpa [Holds, hl] using hhub)

/-- Where each hub has one place, the total counts their ids. -/
theorem card_counted (h : m.Once) : m.counted.card = m.getTotalHubs := by
  have hdisj : m.hubs.entries.Pairwise
      (fun e e' => Disjoint (e.2.image Hub.id) (e'.2.image Hub.id)) := by
    refine List.Pairwise.imp_of_mem ?_ m.hubs.nodupKeys.pairwise_ne
    intro e e' he he' hne
    have hl : m.hubs.lookup e.1 = some e.2 := AList.mem_lookup_iff.mpr he
    have hl' : m.hubs.lookup e'.1 = some e'.2 := AList.mem_lookup_iff.mpr he'
    rw [Finset.disjoint_left]
    intro x hx hx'
    obtain ⟨hub, hhub, hid⟩ := Finset.mem_image.mp hx
    obtain ⟨hub', hhub', hid'⟩ := Finset.mem_image.mp hx'
    exact hne (h e.1 hub e'.1 hub' (by simpa [Holds, hl] using hhub)
      (by simpa [Holds, hl'] using hhub') (hid.trans hid'.symm)).1
  have hcard : ∀ e ∈ m.hubs.entries, (e.2.image Hub.id).card = e.2.card := by
    intro e he
    have hl : m.hubs.lookup e.1 = some e.2 := AList.mem_lookup_iff.mpr he
    refine Finset.card_image_of_injOn fun hub hhub hub' hhub' hid => ?_
    exact (h e.1 hub e.1 hub' (by simpa [Holds, hl] using hhub)
      (by simpa [Holds, hl] using hhub') hid).2
  unfold counted getTotalHubs
  rw [card_foldr_union_eq hdisj]
  exact congrArg List.sum (List.map_congr_left hcard)

/-- The total follows from the places. -/
theorem represents_iff : m.Represents ↔ m.Known ∧ m.Once := by
  constructor
  · intro h
    exact ⟨h.known, h.once⟩
  · rintro ⟨hknown, honce⟩
    exact ⟨hknown, honce, by rw [registered_of_known hknown, card_counted honce]⟩

end NetworkManager

/-! ## The inputs of `network_admin` -/

/-- What `network_admin` takes: a message of the server, a request of a hub or
rows of the database. -/
inductive AdminInput where
  | server (now : Int64) (msg : ServerMessage)
  | linkage (request : LinkageRequest)
  | batch (batch : Batch)
  deriving Repr

/-- The rows have the primary keys of their table. -/
def Batch.respectsKeys : Batch → Bool
  | .network rows => (rows.map NetworkRow.idNetwork).Nodup
  | .hub rows => (rows.map HubRow.id).Nodup

def adminDecision (idEdge : String) (m : NetworkManager) : AdminInput → Option Decision
  | .server now msg => some (adminServer idEdge now m msg)
  | .linkage request => some (adminHub m request)
  | .batch batch => if batch.respectsKeys then some (adminBatch m batch) else none

/-- `network_admin` and the cache it keeps. -/
def adminMachine (idEdge : String) : Machine NetworkManager AdminInput where
  init := fun m => m = NetworkManager.newEmpty idEdge
  step := fun m i => (adminDecision idEdge m i).map Decision.manager

/-- The input leaves no hub without its network and gives no hub a second
place. -/
def keepsPlaces (m : NetworkManager) : AdminInput → Bool
  | .server _ (.network network) =>
    actionOf m network = .delete → (m.hubs.lookup network.idNetwork).getD ∅ = ∅
  | .server _ _ => true
  | .linkage request =>
    m.searchHub request.network request.metadata.senderUserId = true ∨
      request.metadata.senderUserId ∉ m.counted
  | .batch (.network _) => true
  | .batch (.hub rows) =>
    ∀ row ∈ rows, row.networkId ∈ m.networks ∧
      (row.id ∉ m.counted ∨ m.Holds row.networkId row.castToHub)

/-! ## One input -/

section Steps

open NetworkManager

variable {m m' : NetworkManager}

/-- A change of the networks keeps the laws while every hub has its network. -/
theorem represents_of_hubs (h : m.Represents) (hhubs : m'.hubs = m.hubs) :
    m'.Represents ↔ ∀ id hub, m.Holds id hub → id ∈ m'.networks := by
  rw [represents_iff]
  unfold Known Once
  simp only [holds_congr hhubs]
  exact ⟨fun hm => hm.1, fun hm => ⟨hm, h.once⟩⟩

theorem represents_of_frame (h : m.Represents) (hhubs : m'.hubs = m.hubs)
    (hnetworks : ∀ id ∈ m.networks, id ∈ m'.networks) : m'.Represents := by
  rw [represents_of_hubs h hhubs]
  intro id hub hhub
  exact hnetworks id (h.known id hub hhub)

theorem represents_newEmpty (idEdge : String) : (newEmpty idEdge).Represents := by
  rw [represents_iff]
  constructor
  · intro id hub hhub
    simp [Holds, newEmpty] at hhub
  · intro id hub id' hub' hhub
    simp [Holds, newEmpty] at hhub

theorem represents_removeNetwork (h : m.Represents) {id : String} (hid : id ∈ m.networks) :
    (m.removeNetwork id).Represents ↔ (m.hubs.lookup id).getD ∅ = ∅ := by
  have hhubs : (m.removeNetwork id).hubs = m.hubs := rfl
  rw [represents_of_hubs h hhubs, Finset.eq_empty_iff_forall_notMem]
  simp only [removeNetwork, AList.mem_erase]
  constructor
  · intro hall hub hhub
    exact (hall id hub hhub).1 rfl
  · intro hnone id' hub hhub
    refine ⟨?_, h.known id' hub hhub⟩
    rintro rfl
    exact hnone hub hhub

/-- A network that is added or changed stays in the map. -/
theorem represents_addNetwork (h : m.Represents) (network : Network) :
    (m.addNetwork network).Represents := by
  refine represents_of_frame h rfl fun id hid => ?_
  unfold addNetwork
  simp [hid]

theorem represents_changeActive (h : m.Represents) (active : Bool) (id : String) :
    (m.changeActive active id).Represents := by
  unfold changeActive
  split
  · refine represents_of_frame h rfl fun id' hid => ?_
    simp [hid]
  · exact h

theorem represents_removeHub (h : m.Represents) (idNetwork idHub : String) :
    (m.removeHub idNetwork idHub).Represents := by
  have hnetworks : (m.removeHub idNetwork idHub).networks = m.networks := by
    unfold removeHub
    split <;> rfl
  rw [represents_iff]
  constructor
  · intro id hub hhub
    rw [holds_removeHub] at hhub
    rw [hnetworks]
    exact h.known id hub hhub.1
  · intro id hub id' hub' hhub hhub' heq
    rw [holds_removeHub] at hhub hhub'
    exact h.once id hub id' hub' hhub.1 hhub'.1 heq

/-- Hubs that are added keep the laws exactly when each has its network and no
other place. -/
theorem represents_added (h : m.Represents) {new : List (String × Hub)}
    (hnodup : (new.map (fun x => x.2.id)).Nodup) (hnetworks : m'.networks = m.networks)
    (hholds : ∀ id hub, m'.Holds id hub ↔ m.Holds id hub ∨ (id, hub) ∈ new) :
    m'.Represents ↔ ∀ x ∈ new, x.1 ∈ m.networks ∧ (x.2.id ∉ m.counted ∨ m.Holds x.1 x.2) := by
  rw [represents_iff]
  constructor
  · rintro ⟨hknown, honce⟩ ⟨id, hub⟩ hx
    have hnew : m'.Holds id hub := (hholds id hub).mpr (.inr hx)
    refine ⟨hnetworks ▸ hknown id hub hnew, ?_⟩
    by_cases hc : hub.id ∈ m.counted
    · obtain ⟨id', hub', hhub', heq⟩ := mem_counted.mp hc
      obtain ⟨rfl, rfl⟩ := honce id' hub' id hub ((hholds _ _).mpr (.inl hhub')) hnew heq
      exact .inr hhub'
    · exact .inl hc
  · intro hall
    -- a new hub with the id of an old one is that hub, at its place
    have hmixed : ∀ id hub id' hub', m.Holds id hub → (id', hub') ∈ new → hub.id = hub'.id →
        id = id' ∧ hub = hub' := by
      intro id hub id' hub' hhub hx heq
      have hold := (hall _ hx).2.resolve_left
        (fun hc => hc (mem_counted.mpr ⟨id, hub, hhub, heq⟩))
      exact h.once id hub id' hub' hhub hold heq
    constructor
    · intro id hub hhub
      rw [hnetworks]
      rcases (hholds id hub).mp hhub with hold | hx
      · exact h.known id hub hold
      · exact (hall _ hx).1
    · intro id hub id' hub' hhub hhub' heq
      rcases (hholds id hub).mp hhub with hold | hx <;>
        rcases (hholds id' hub').mp hhub' with hold' | hx'
      · exact h.once id hub id' hub' hold hold' heq
      · exact hmixed id hub id' hub' hold hx' heq
      · obtain ⟨hid, hhub⟩ := hmixed id' hub' id hub hold' hx heq.symm
        exact ⟨hid.symm, hhub.symm⟩
      · have hpair : (id, hub) = (id', hub') := List.inj_on_of_nodup_map hnodup hx hx' heq
        exact Prod.mk.inj hpair

theorem holds_load (rows : List HubRow) (m : NetworkManager) (id : String) (hub : Hub) :
    (adminBatch m (.hub rows)).manager.Holds id hub ↔
      m.Holds id hub ∨ (id, hub) ∈ rows.map (fun row => (row.networkId, row.castToHub)) := by
  show (rows.foldl (fun m row => m.addHub row.networkId row.castToHub) m).Holds id hub ↔ _
  induction rows generalizing m with
  | nil => simp
  | cons row rows ih =>
    rw [List.foldl_cons, ih, holds_addHub, List.map_cons, List.mem_cons, Prod.mk.injEq, or_assoc,
      eq_comm (a := row.networkId)]

/-- A message of the server breaks the laws only by a deletion. -/
theorem represents_adminServer (h : m.Represents) (idEdge : String) (now : Int64)
    (msg : ServerMessage) :
    (adminServer idEdge now m msg).manager.Represents ↔ keepsPlaces m (.server now msg) = true := by
  cases msg with
  | network network =>
    unfold keepsPlaces
    rw [decide_eq_true_eq]
    rcases ha : actionOf m network <;> simp only [adminServer, ha, handleAction, reduceCtorEq,
      false_implies, iff_true, true_implies]
    · apply represents_removeNetwork h
      rcases hl : m.networks.lookup network.idNetwork with _ | existing
      · unfold actionOf at ha
        rw [hl] at ha
        split at ha <;> simp_all
      · exact AList.lookup_isSome.mp (by simp [hl])
    · exact represents_changeActive h _ _
    · exact represents_addNetwork h _
    · exact h
  | deleteHub hub => exact iff_of_true (represents_removeHub h _ _) rfl
  | _ => exact iff_of_true h rfl

/-- A hub that is new to its network must be new to all. -/
theorem represents_adminHub (h : m.Represents) (request : LinkageRequest) :
    (adminHub m request).manager.Represents ↔ keepsPlaces m (.linkage request) = true := by
  unfold keepsPlaces
  rw [decide_eq_true_eq]
  by_cases hs : m.searchHub request.network request.metadata.senderUserId = true
  · simp only [adminHub, hs, if_true, true_or, iff_true]
    exact h
  · have hsearch := hs
    rw [searchHub_eq_true, not_or, not_not] at hsearch
    obtain ⟨hnet, hfree⟩ := hsearch
    have hnot : ¬ m.Holds request.network (castToHubRow request).castToHub :=
      fun hhub => hfree ⟨_, hhub, rfl⟩
    have hholds : ∀ id hub,
        (m.addHub request.network (castToHubRow request).castToHub).Holds id hub ↔
          m.Holds id hub ∨ (id, hub) ∈ [(request.network, (castToHubRow request).castToHub)] := by
      intro id hub
      rw [holds_addHub]
      simp [eq_comm]
    have hnetworks : (m.addHub request.network (castToHubRow request).castToHub).networks =
        m.networks := rfl
    simp only [adminHub, hs, if_false, Bool.false_eq_true, false_or]
    have hnodup : ([(request.network, (castToHubRow request).castToHub)].map
        (fun x => x.2.id)).Nodup := List.nodup_singleton _
    rw [represents_added h hnodup hnetworks hholds]
    simp only [List.mem_singleton, forall_eq, hnet, true_and, hnot, or_false]
    rfl

theorem represents_adminBatch (h : m.Represents) {batch : Batch}
    (hkeys : batch.respectsKeys = true) :
    (adminBatch m batch).manager.Represents ↔ keepsPlaces m (.batch batch) = true := by
  cases batch with
  | network rows =>
    refine iff_of_true ?_ rfl
    show (rows.foldl (fun m row => m.addNetwork row.castToNetwork) m).Represents
    clear hkeys
    induction rows generalizing m with
    | nil => exact h
    | cons row rows ih => exact ih (represents_addNetwork h _)
  | hub rows =>
    have hnodup : ((rows.map (fun row => (row.networkId, row.castToHub))).map
        (fun x => x.2.id)).Nodup := by
      rw [List.map_map]
      exact of_decide_eq_true hkeys
    rw [represents_added h hnodup (networks_load rows m).2 (holds_load rows m), keepsPlaces,
      decide_eq_true_eq, List.forall_mem_map]
    rfl

theorem represents_step (idEdge : String) {i : AdminInput} (h : m.Represents)
    (hs : (adminMachine idEdge).step m i = some m') : m'.Represents ↔ keepsPlaces m i = true := by
  obtain ⟨d, hd, rfl⟩ := Option.map_eq_some_iff.mp hs
  cases i with
  | server now msg =>
    rw [← Option.some.inj hd]
    exact represents_adminServer h idEdge now msg
  | linkage request =>
    rw [← Option.some.inj hd]
    exact represents_adminHub h request
  | batch batch =>
    simp only [adminDecision, Option.ite_none_right_eq_some, Option.some.injEq] at hd
    rw [← hd.2]
    exact represents_adminBatch h hd.1

end Steps

/-! ## The networks in memory -/

/-- The message makes `network_admin` create the network. -/
def createsNetwork (m : NetworkManager) (msg : ServerMessage) (id : String) : Prop :=
  ∃ network, msg = .network network ∧ actionOf m network = .insert ∧ id = network.idNetwork

/-- The message makes `network_admin` delete the network. -/
def deletesNetwork (m : NetworkManager) (msg : ServerMessage) (id : String) : Prop :=
  ∃ network, msg = .network network ∧ actionOf m network = .delete ∧ id = network.idNetwork

section Members

open NetworkManager

variable {m : NetworkManager}

theorem mem_changeActive (active : Bool) (id₀ id : String) :
    id ∈ (m.changeActive active id₀).networks ↔ id ∈ m.networks := by
  unfold changeActive
  split
  · rename_i network hl
    rw [AList.mem_insert]
    constructor
    · rintro (rfl | hid)
      · exact AList.lookup_isSome.mp (by simp [hl])
      · exact hid
    · exact .inr
  · exact Iff.rfl

theorem mem_removeHub (idNetwork idHub id : String) :
    id ∈ (m.removeHub idNetwork idHub).networks ↔ id ∈ m.networks := by
  unfold removeHub
  split <;> exact Iff.rfl

/-- The networks in memory change by creations and deletions alone. -/
theorem mem_adminServer (idEdge : String) (now : Int64) (msg : ServerMessage) (id : String) :
    id ∈ (adminServer idEdge now m msg).manager.networks ↔
      id ∈ m.networks ∧ ¬ deletesNetwork m msg id ∨ createsNetwork m msg id := by
  cases msg with
  | network network =>
    simp only [createsNetwork, deletesNetwork, ServerMessage.network.injEq, exists_eq_left']
    rcases ha : actionOf m network <;> simp only [adminServer, ha, handleAction, reduceCtorEq,
      true_and, false_and, not_false_eq_true, and_true, or_false]
    · rw [removeNetwork, AList.mem_erase, and_comm]
    · exact mem_changeActive _ _ _
    · rw [addNetwork, AList.mem_insert, Network.new_idNetwork, or_comm]
  | deleteHub hub =>
    simp only [createsNetwork, deletesNetwork, reduceCtorEq, false_and, exists_false,
      not_false_eq_true, and_true, or_false]
    exact mem_removeHub _ _ _
  | _ =>
    simp only [createsNetwork, deletesNetwork, reduceCtorEq, false_and, exists_false,
      not_false_eq_true, and_true, or_false]
    exact Iff.rfl

/-- Only a network in memory is deleted. -/
theorem delete_of_actionOf {network : NetworkMsg} (h : actionOf m network = .delete) :
    network.idNetwork ∈ m.networks ∧ network.deleteNetwork = true := by
  unfold actionOf at h
  split at h
  · rename_i hl hd
    exact ⟨AList.lookup_isSome.mp (hl ▸ rfl), hd⟩
  · split at h <;> cases h
  · cases h
  · cases h

/-- Only a network in memory is changed. -/
theorem update_of_actionOf {network : NetworkMsg} (h : actionOf m network = .update) :
    network.idNetwork ∈ m.networks ∧ network.deleteNetwork = false := by
  unfold actionOf at h
  split at h
  · cases h
  · rename_i hl hd
    exact ⟨AList.lookup_isSome.mp (hl ▸ rfl), hd⟩
  · cases h
  · cases h

theorem mem_load (rows : List NetworkRow) (m : NetworkManager) (id : String) :
    id ∈ (adminBatch m (.network rows)).manager.networks ↔
      id ∈ m.networks ∨ id ∈ rows.map NetworkRow.idNetwork := by
  show id ∈ (rows.foldl (fun m row => m.addNetwork row.castToNetwork) m).networks ↔ _
  induction rows generalizing m with
  | nil => simp
  | cons row rows ih =>
    rw [List.foldl_cons, ih, addNetwork, AList.mem_insert, List.map_cons, List.mem_cons,
      NetworkRow.castToNetwork, Network.new_idNetwork, or_comm (a := id = row.idNetwork), or_assoc]

/-- The server takes hubs out of memory by their deletion alone. -/
theorem holds_adminServer (idEdge : String) (now : Int64) (msg : ServerMessage) (id : String)
    (hub : Hub) :
    (adminServer idEdge now m msg).manager.Holds id hub ↔ m.Holds id hub ∧
      ∀ deletion, msg = .deleteHub deletion →
        ¬ (deletion.network = id ∧ hub.id = deletion.metadata.destinationId) := by
  cases msg with
  | network network =>
    simp only [reduceCtorEq, false_implies, implies_true, and_true]
    apply holds_congr
    rcases ha : actionOf m network <;> simp only [adminServer, ha, handleAction]
    · rfl
    · exact hubs_change (c := .changeActive network.active network.idNetwork) rfl
    · rfl
  | deleteHub deletion =>
    simp only [ServerMessage.deleteHub.injEq, forall_eq']
    exact holds_removeHub _ _ _ _ _
  | _ =>
    simp only [reduceCtorEq, false_implies, implies_true, and_true]
    exact Iff.rfl

/-- Loading networks leaves the hubs. -/
theorem hubs_load (rows : List NetworkRow) (m : NetworkManager) :
    (adminBatch m (.network rows)).manager.hubs = m.hubs := by
  show (rows.foldl (fun m row => m.addNetwork row.castToNetwork) m).hubs = m.hubs
  induction rows generalizing m with
  | nil => rfl
  | cons row rows ih => exact (ih _).trans rfl

end Members

/-! ## The law -/

/-- A run keeps the laws of the cache in all its states exactly when every
input keeps the places. -/
theorem cache_counts_its_hubs (idEdge : String) (t : List (NetworkManager × AdminInput))
    (m : NetworkManager) (run : (adminMachine idEdge).Run t m) :
    (∀ x ∈ Machine.visited t m, x.Represents) ↔
      Machine.Meets (fun m i => keepsPlaces m i = true) t := by
  induction run with
  | start h =>
    rw [show _ = NetworkManager.newEmpty idEdge from h]
    refine iff_of_true (fun x hx => ?_) (Machine.meets_nil _)
    rw [List.mem_singleton.mp hx]
    exact represents_newEmpty idEdge
  | @move t m m' i r h ih =>
    rw [Machine.visited_snoc, Machine.meets_snoc, ← ih, List.forall_mem_append,
      List.forall_mem_singleton]
    refine and_congr_right fun hall => ?_
    exact represents_step idEdge (hall m (Machine.last_mem_visited t m)) h

/-! ## Concrete runs -/

/-- A command of the server about a network. -/
def commandFor (id : String) (active deleteNetwork : Bool) : ServerMessage :=
  .network
    { metadata := { senderUserId := "server0", destinationId := "edge", timestamp := default }
      idNetwork := id, nameNetwork := id, active, deleteNetwork }

/-- A hub asks to join a network. -/
def requestOf (hub network : String) : LinkageRequest :=
  { metadata := { senderUserId := hub, destinationId := "edge", timestamp := default }
    deviceName := "device", network, linkageRequest := true }

/-- A network is created and a hub joins it. -/
def linkedOnce : List AdminInput :=
  [.server default (commandFor "n" true false), .linkage (requestOf "h" "n")]

/-- The network is deleted, and the quorums go on to count its hub. -/
theorem a_deleted_network_leaves_its_hubs :
    ¬ ∀ (idEdge : String) (t : List (NetworkManager × AdminInput)) (m : NetworkManager),
      (adminMachine idEdge).Run t m → ∀ x ∈ Machine.visited t m, x.Represents := by
  intro h
  have hinit : (adminMachine "edge").init (NetworkManager.newEmpty "edge") := rfl
  have hrun := Machine.run_of_final
    (linkedOnce ++ [.server default (commandFor "n" true true)]) hinit (by decide +kernel)
  have hlast := h _ _ _ hrun _ (Machine.last_mem_visited _ _)
  exact absurd (hlast.known "n" ⟨"h", "device"⟩ (by decide +kernel)) (by decide +kernel)

theorem a_linked_hub_is_counted :
    let t := (adminMachine "edge").trace (NetworkManager.newEmpty "edge")
      (linkedOnce ++ [.linkage (requestOf "h" "n")])
    (∃ s ∈ t, s.1.getTotalHubs = 1) ∧ ∀ s ∈ t, s.1.Represents := by
  have hinit : (adminMachine "edge").init (NetworkManager.newEmpty "edge") := rfl
  have hall := (cache_counts_its_hubs "edge" _ _
    (Machine.run_of_final (linkedOnce ++ [.linkage (requestOf "h" "n")]) hinit
      (by decide +kernel))).mpr (by decide +kernel)
  exact ⟨by decide +kernel, fun s hs => hall s.1 (Machine.mem_visited hs _)⟩

end EdgeGateway.Networks
