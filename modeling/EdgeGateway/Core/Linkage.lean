-- Whether an acknowledged hub is stored. `network_admin` acknowledges a hub that it
-- knows, and any hub of a network that it does not know; the database has an
-- insertion acknowledged after it. A hub that memory knows is stored or on its way
-- as long as no row of such a hub is lost.
import EdgeGateway.Core.Gateway
import EdgeGateway.Network.Registration

namespace EdgeGateway.Core

open EdgeGateway.Lib EdgeGateway.Message EdgeGateway.Networks EdgeGateway.Database

/-! ## Hubs that are stored -/

/-- Table `hub` has the hub, with this network. -/
def StoredAt (t : Tables) (id network : String) : Prop :=
  ∃ row ∈ t.hub.rows, row.id = id ∧ row.networkId = network

instance (t : Tables) (id network : String) : Decidable (StoredAt t id network) :=
  inferInstanceAs (Decidable (∃ row ∈ t.hub.rows, row.id = id ∧ row.networkId = network))

/-- The hub is stored, or one of the rows on their way is its row. -/
def Kept (t : Tables) (joining : List HubRow) (id network : String) : Prop :=
  StoredAt t id network ∨ ∃ row ∈ joining, row.id = id ∧ row.networkId = network

instance (t : Tables) (joining : List HubRow) (id network : String) :
    Decidable (Kept t joining id network) :=
  inferInstanceAs (Decidable (_ ∨ ∃ row ∈ joining, row.id = id ∧ row.networkId = network))

/-- Memory has the network, and the hub in it. -/
def Registered (m : NetworkManager) (id network : String) : Prop :=
  network ∈ m.networks ∧ ∃ hub ∈ (m.hubs.lookup network).getD ∅, hub.id = id

instance (m : NetworkManager) (id network : String) : Decidable (Registered m id network) :=
  inferInstanceAs (Decidable
    (network ∈ m.networks ∧ ∃ hub ∈ (m.hubs.lookup network).getD ∅, hub.id = id))

/-- The hub of an answer that has it acknowledged. -/
def hubOfResponse : DataServiceResponse → Option String
  | .hubInserted id => some id
  | _ => none

namespace Gateway

/-! ## The law and its condition -/

/-- If the step sends `GenerateLinkageAck`, the network is in memory and the hub
is stored at it. -/
def AcksStored (g : Gateway) : Label → Prop
  | .sync .adminHub =>
    ∀ request rest, g.sync.fromHub = request :: rest →
      g.sync.manager.searchHub request.network request.metadata.senderUserId = true →
      request.network ∈ g.sync.manager.networks ∧
        StoredAt g.sync.tables request.metadata.senderUserId request.network
  | .coreData =>
    ∀ id rest, g.fromData = .hubInserted id :: rest → ∃ row, g.acking.head? = some row ∧
      row.id = id ∧ row.networkId ∈ g.sync.manager.networks ∧
        StoredAt g.sync.tables row.id row.networkId
  | _ => True

/-- The insertion that ends here without a row was not the last one of a hub
that memory knows. -/
def losesNothing (p : Sync) (row : HubRow) : Bool :=
  Registered p.manager row.id row.networkId →
    Kept p.tables p.joining.tail row.id row.networkId

/-- A request names a network in memory and waits for no insertion of its hub, no
row of a known hub is lost, and a network goes or comes only without hubs that
wait for an acknowledgement or that memory kept without a row. -/
def keepsLinkages (g : Gateway) : Label → Bool
  | .sync (.adminServer _) =>
    match g.sync.fromServer with
    | .network msg :: _ =>
      match actionOf g.sync.manager msg with
      | .delete => ∀ row ∈ g.acking, row.networkId ≠ msg.idNetwork
      | .insert =>
        ∀ hub ∈ (g.sync.manager.hubs.lookup msg.idNetwork).getD ∅,
          Kept g.sync.tables g.sync.joining hub.id msg.idNetwork
      | _ => true
    | _ => true
  | .sync .adminHub =>
    match g.sync.fromHub with
    | request :: _ =>
      g.sync.manager.searchHub request.network request.metadata.senderUserId = true →
        request.network ∈ g.sync.manager.networks ∧ ∀ row ∈ g.sync.joining,
          row.id = request.metadata.senderUserId → row.networkId = request.network →
            StoredAt g.sync.tables row.id row.networkId
    | [] => true
  | .sync .adminBatch =>
    match g.sync.batch with
    | .network rows :: _ =>
      ∀ row ∈ rows, ∀ hub ∈ (g.sync.manager.hubs.lookup row.idNetwork).getD ∅,
        Kept g.sync.tables g.sync.joining hub.id row.idNetwork
    | .hub rows :: _ =>
      ∀ row ∈ rows, row.networkId ∈ g.sync.manager.networks →
        Kept g.sync.tables g.sync.joining row.id row.networkId
    | [] => true
  | .sync .dbaInsert =>
    match g.sync.inserts with
    | .insertHub row :: _ => g.sync.tables.network.rows.length = 0 → losesNothing g.sync row
    | _ => true
  | .sync .dbaInsertHub =>
    match g.sync.inserting with
    | some row =>
      if (g.sync.tables.hub.insert row).isSome then row.networkId ∈ g.sync.manager.networks
      else losesNothing g.sync row
    | none => true
  | .sync .dbaRemove =>
    match g.sync.deletes with
    | .deleteAllHubByNetwork id :: _ =>
      (id ∈ g.sync.manager.networks → ∀ hub ∈ (g.sync.manager.hubs.lookup id).getD ∅,
          ∃ row ∈ g.sync.joining, row.id = hub.id ∧ row.networkId = id) ∧
        ∀ row ∈ g.acking, row.networkId ≠ id
    | _ => true
  | .insertFails =>
    match g.sync.inserts with
    | .insertHub row :: _ => losesNothing g.sync row
    | _ => true
  | _ => true

/-- Each hub that memory knows is stored or on its way, and each hub that is to be
acknowledged is stored at a network in memory. -/
structure Linked (g : Gateway) : Prop where
  kept : ∀ id network, Registered g.sync.manager id network →
    Kept g.sync.tables g.sync.joining id network
  acked : ∀ row ∈ g.acking,
    row.networkId ∈ g.sync.manager.networks ∧ StoredAt g.sync.tables row.id row.networkId
  aligned : g.fromData.filterMap hubOfResponse = g.acking.map HubRow.id

/-! ## One step of the topology -/

section Steps

open NetworkManager

variable {idEdge : String} {g : Gateway} {i : Sync.Label} {p' : Sync}

/-- A hub that ends its way without a row is kept by another row. -/
theorem kept_of_lost {row : HubRow} {joining : List HubRow} {id network : String}
    (hjoining : g.sync.joining = row :: joining) (hok : losesNothing g.sync row = true)
    (hreg : Registered g.sync.manager id network)
    (h : Kept g.sync.tables g.sync.joining id network) : Kept g.sync.tables joining id network := by
  rw [hjoining] at h
  rcases h with hstored | ⟨x, hx, rfl, rfl⟩
  · exact .inl hstored
  · rcases List.mem_cons.mp hx with rfl | hx
    · simp only [losesNothing, hjoining, List.tail_cons, decide_eq_true_eq] at hok
      exact hok hreg
    · exact .inr ⟨x, hx, rfl, rfl⟩

theorem kept_adminServer {now : Int64} {msg : ServerMessage} {rest : List ServerMessage}
    (h : g.Linked) (hok : g.keepsLinkages (.sync (.adminServer now)) = true)
    (hq : g.sync.fromServer = msg :: rest) {id network : String}
    (hreg : Registered (adminServer idEdge now g.sync.manager msg).manager id network) :
    Kept g.sync.tables g.sync.joining id network := by
  obtain ⟨hnet, hub, hhub, rfl⟩ := hreg
  have hold : g.sync.manager.Holds network hub := ((holds_adminServer _ _ _ _ _).mp hhub).1
  rcases (mem_adminServer _ _ _ _).mp hnet with ⟨hnet, -⟩ | ⟨network, rfl, ha, rfl⟩
  · exact h.kept _ _ ⟨hnet, hub, hold, rfl⟩
  · simp only [keepsLinkages, hq, ha, decide_eq_true_eq] at hok
    exact hok hub hold

theorem kept_adminHub {request : LinkageRequest} (rest : List LinkageRequest) (h : g.Linked)
    {id network : String}
    (hreg : Registered (adminHub g.sync.manager request).manager id network) :
    Kept g.sync.tables
      ({ g.sync with fromHub := rest }.enact (adminHub g.sync.manager request)).joining
      id network := by
  rw [joining_adminHub]
  unfold adminHub at hreg
  split at hreg
  · rename_i hs
    rw [if_pos hs, List.append_nil]
    exact h.kept _ _ hreg
  · rename_i hs
    rw [if_neg hs]
    obtain ⟨hnet, hub, hhub, rfl⟩ := hreg
    rcases (holds_addHub _ _ _ _ _).mp hhub with hold | ⟨rfl, rfl⟩
    · rcases h.kept _ _ ⟨hnet, hub, hold, rfl⟩ with hstored | ⟨row, hrow, heq⟩
      · exact .inl hstored
      · exact .inr ⟨row, List.mem_append_left _ hrow, heq⟩
    · exact .inr ⟨_, List.mem_append_right _ (List.mem_singleton_self _), rfl, rfl⟩

theorem kept_adminBatch {batch : Batch} {rest : List Batch} (h : g.Linked)
    (hok : g.keepsLinkages (.sync .adminBatch) = true) (hq : g.sync.batch = batch :: rest)
    {id network : String}
    (hreg : Registered (adminBatch g.sync.manager batch).manager id network) :
    Kept g.sync.tables g.sync.joining id network := by
  obtain ⟨hnet, hub, hhub, rfl⟩ := hreg
  cases batch with
  | network rows =>
    have hold : g.sync.manager.Holds network hub := by
      rw [← holds_congr (hubs_load rows g.sync.manager)]
      exact hhub
    rcases (mem_load _ _ _).mp hnet with hnet | hrow
    · exact h.kept _ _ ⟨hnet, hub, hold, rfl⟩
    · obtain ⟨row, hmem, rfl⟩ := List.mem_map.mp hrow
      simp only [keepsLinkages, hq, decide_eq_true_eq] at hok
      exact hok row hmem hub hold
  | hub rows =>
    rw [(networks_load rows g.sync.manager).2] at hnet
    rcases (holds_load _ _ _ _).mp hhub with hold | hrow
    · exact h.kept _ _ ⟨hnet, hub, hold, rfl⟩
    · obtain ⟨row, hmem, heq⟩ := List.mem_map.mp hrow
      obtain ⟨rfl, rfl⟩ := Prod.mk.inj heq
      simp only [keepsLinkages, hq, decide_eq_true_eq] at hok
      exact hok row hmem hnet

theorem kept_dbaInsertHub {row : HubRow} {joining : List HubRow} (h : g.Linked)
    (hok : g.keepsLinkages (.sync .dbaInsertHub) = true) (hi : g.sync.inserting = some row)
    (hjoining : g.sync.joining = row :: joining) {id network : String}
    (hreg : Registered g.sync.manager id network) :
    Kept (dbaInsertHub g.sync.tables row).1 joining id network := by
  simp only [keepsLinkages, hi] at hok
  have hkept := h.kept _ _ hreg
  unfold dbaInsertHub
  split
  · rename_i hub hins
    rw [hjoining] at hkept
    rcases hkept with ⟨x, hx, heq⟩ | ⟨x, hx, heq⟩
    · refine .inl ⟨x, ?_, heq⟩
      rw [Keyed.rows_insert hins]
      exact List.mem_append_left _ hx
    · rcases List.mem_cons.mp hx with rfl | hx
      · refine .inl ⟨x, ?_, heq⟩
        rw [Keyed.rows_insert hins]
        exact List.mem_append_right _ (List.mem_singleton_self _)
      · exact .inr ⟨x, hx, heq⟩
  · rename_i hins
    simp only [hins, Option.isSome_none, Bool.false_eq_true, if_false] at hok
    exact kept_of_lost hjoining hok hreg hkept

theorem kept_dbaRemove {command : DataCommandDelete} {rest : List DataCommandDelete}
    (h : g.Linked) (hok : g.keepsLinkages (.sync .dbaRemove) = true)
    (hq : g.sync.deletes = command :: rest) {id network : String}
    (hreg : Registered g.sync.manager id network) :
    Kept (dbaRemove g.sync.tables command).1 g.sync.joining id network := by
  rcases h.kept _ _ hreg with ⟨row, hrow, rfl, rfl⟩ | hjoining
  · cases command with
    | deleteAllHubByNetwork id =>
      by_cases hid : row.networkId = id
      · simp only [keepsLinkages, hq, Bool.decide_and, Bool.and_eq_true, decide_eq_true_eq] at hok
        obtain ⟨hnet, hub, hhub, heq⟩ := hreg
        obtain ⟨x, hx, hxid, hxnet⟩ := hok.1 (hid ▸ hnet) hub (hid ▸ hhub)
        exact .inr ⟨x, hx, hxid.trans heq, hxnet.trans hid.symm⟩
      · refine .inl ⟨row, ?_, rfl, rfl⟩
        rw [(dbaRemove_spec _ _).2]
        exact List.mem_filter.mpr ⟨hrow, decide_eq_true hid⟩
    | _ => exact .inl ⟨row, hrow, rfl, rfl⟩
  · exact .inr hjoining

/-- The hubs that memory knows stay stored or on their way. -/
theorem kept_sync (h : g.Linked) (hok : g.keepsLinkages (.sync i) = true)
    (hs : g.sync.step idEdge i = some p') {id network : String}
    (hreg : Registered p'.manager id network) : Kept p'.tables p'.joining id network := by
  have hsame := joining_step hs
  cases Sync.move_of_step hs with
  | @adminServer now msg rest hq =>
    rw [hsame (by simp) (by simp) (by simp)]
    exact kept_adminServer h hok hq hreg
  | adminHub hq => exact kept_adminHub _ h hreg
  | adminBatch hq =>
    rw [hsame (by simp) (by simp) (by simp)]
    exact kept_adminBatch h hok hq hreg
  | @dbaInsert command rest hi hq =>
    have hkept := h.kept _ _ hreg
    have htables : Kept (dbaInsert g.sync.tables command).1 = Kept g.sync.tables := by
      unfold Kept StoredAt
      rw [(dbaInsert_spec _ _).2]
    rw [htables]
    rcases joining_dbaInsert hi hq hs with heq | ⟨row, rfl, hnone, heq⟩
    · exact heq ▸ hkept
    · simp only [keepsLinkages, hq, hnone, true_implies, decide_eq_true_eq] at hok
      exact kept_of_lost heq hok hreg hkept
  | dbaInsertHub hi => exact kept_dbaInsertHub h hok hi (joining_dbaInsertHub hi hs) hreg
  | dbaRemove hq =>
    rw [hsame (by simp) (by simp) (by simp)]
    exact kept_dbaRemove h hok hq hreg
  | _ =>
    rw [hsame (by simp) (by simp) (by simp)]
    exact h.kept _ _ hreg

/-- A hub to be acknowledged stays stored while its network is in memory. -/
theorem acked_sync (h : g.Linked) (hok : g.keepsLinkages (.sync i) = true)
    (hs : g.sync.step idEdge i = some p') :
    ∀ row ∈ g.acking ++ (g.sync.stores i).toList,
      row.networkId ∈ p'.manager.networks ∧ StoredAt p'.tables row.id row.networkId := by
  cases Sync.move_of_step hs with
  | @adminServer now msg rest hq =>
    intro row hrow
    rw [show g.sync.stores (.adminServer now) = none from rfl, Option.toList_none,
      List.append_nil] at hrow
    obtain ⟨hnet, hstored⟩ := h.acked row hrow
    refine ⟨(mem_adminServer _ _ _ _).mpr (.inl ⟨hnet, ?_⟩), hstored⟩
    rintro ⟨network, rfl, ha, hid⟩
    simp only [keepsLinkages, hq, ha, decide_eq_true_eq] at hok
    exact hok row hrow hid
  | @adminHub request rest hq =>
    intro row hrow
    simp only [Sync.stores, Option.toList_none, List.append_nil] at hrow
    have hsame : (adminHub g.sync.manager request).manager.networks = g.sync.manager.networks :=
      (adminHub_spec g.sync.manager request).2
    obtain ⟨hnet, hstored⟩ := h.acked row hrow
    exact ⟨hsame ▸ hnet, hstored⟩
  | @adminBatch batch rest hq =>
    intro row hrow
    simp only [Sync.stores, Option.toList_none, List.append_nil] at hrow
    obtain ⟨hnet, hstored⟩ := h.acked row hrow
    refine ⟨?_, hstored⟩
    cases batch with
    | network rows => exact (mem_load _ _ _).mpr (.inl hnet)
    | hub rows => exact (networks_load rows g.sync.manager).2 ▸ hnet
  | @dbaInsert command rest hi hq =>
    intro row hrow
    simp only [Sync.stores, Option.toList_none, List.append_nil] at hrow
    obtain ⟨hnet, x, hx, heq⟩ := h.acked row hrow
    refine ⟨hnet, x, ?_, heq⟩
    rw [(dbaInsert_spec _ _).2]
    exact hx
  | @dbaInsertHub row hi =>
    intro x hx
    simp only [keepsLinkages, hi] at hok
    rcases hins : g.sync.tables.hub.insert row with _ | hub
    · simp only [Sync.stores, hi, Option.filter_some, hins, Option.isSome_none, Bool.false_eq_true,
        if_false, Option.toList_none, List.append_nil] at hx
      simp only [dbaInsertHub, hins]
      exact h.acked x hx
    · simp only [hins, Option.isSome_some, if_true, decide_eq_true_eq] at hok
      simp only [Sync.stores, hi, Option.filter_some, hins, Option.isSome_some, if_true,
        Option.toList_some, List.mem_append, List.mem_singleton] at hx
      simp only [dbaInsertHub, hins, StoredAt, Keyed.rows_insert hins, List.mem_append,
        List.mem_singleton]
      rcases hx with hx | rfl
      · obtain ⟨hnet, y, hy, heq⟩ := h.acked x hx
        exact ⟨hnet, y, .inl hy, heq⟩
      · exact ⟨hok, x, .inr rfl, rfl, rfl⟩
  | @dbaRemove command rest hq =>
    intro row hrow
    simp only [Sync.stores, Option.toList_none, List.append_nil] at hrow
    obtain ⟨hnet, x, hx, hid, hnetwork⟩ := h.acked row hrow
    refine ⟨hnet, x, ?_, hid, hnetwork⟩
    cases command with
    | deleteAllHubByNetwork id =>
      simp only [keepsLinkages, hq, Bool.decide_and, Bool.and_eq_true, decide_eq_true_eq] at hok
      rw [(dbaRemove_spec _ _).2]
      exact List.mem_filter.mpr ⟨hx, decide_eq_true (hnetwork ▸ hok.2 row hrow)⟩
    | _ => exact hx
  | _ =>
    intro row hrow
    simp only [Sync.stores, Option.toList_none, List.append_nil] at hrow
    exact h.acked row hrow

/-- The database has those hubs acknowledged that it stores. -/
theorem hubs_responses (p : Sync) (i : Sync.Label) :
    ((p.responses i).filter (fun r => (batchOf r).isNone)).filterMap hubOfResponse =
      (p.stores i).toList.map HubRow.id := by
  cases i with
  | dbaInsert =>
    unfold Sync.responses Sync.stores
    rcases p.inserts with _ | ⟨command, rest⟩
    · rfl
    · cases command with
      | insertNetwork row =>
        rcases h : p.tables.network.insert row <;>
          simp [dbaInsert, h, batchOf, hubOfResponse, List.filterMap_cons]
      | updateNetwork row => simp [dbaInsert, batchOf, hubOfResponse, List.filterMap_cons]
      | insertHub row => rfl
  | dbaInsertHub =>
    unfold Sync.responses Sync.stores
    rcases p.inserting with _ | row
    · rfl
    · rcases h : p.tables.hub.insert row <;>
        simp [dbaInsertHub, h, batchOf, hubOfResponse, List.filterMap_cons, Option.filter_some]
  | dbaRemove =>
    unfold Sync.responses Sync.stores
    rcases p.deletes with _ | ⟨command, rest⟩
    · rfl
    · cases command with
      | deleteNetwork id =>
        simp only [dbaRemove]
        split <;> simp [batchOf, hubOfResponse, List.filterMap_cons]
      | _ => rfl
  | dbaGetNext =>
    unfold Sync.responses Sync.stores
    rcases p.total with _ | _ | _ | _ <;> rfl
  | _ => rfl

theorem linked_sync (h : g.Linked) (hok : g.keepsLinkages (.sync i) = true)
    (hs : g.sync.step idEdge i = some p') : (g.afterSync idEdge i p').Linked where
  kept := fun _ _ hreg => kept_sync h hok hs hreg
  acked := acked_sync h hok hs
  aligned := by
    show (g.fromData ++ _).filterMap hubOfResponse = (g.acking ++ _).map HubRow.id
    rw [List.filterMap_append, List.map_append, hubs_responses, h.aligned]

end Steps

/-! ## The law -/

section Law

variable {idEdge : String} {g g' : Gateway} {i : Label}

/-- A step that leaves the topology, and the hubs to be acknowledged. -/
theorem linked_of_frame (h : g.Linked) (hsync : g'.sync = g.sync) (hacking : g'.acking = g.acking)
    (hdata : g'.fromData = g.fromData) : g'.Linked := by
  refine ⟨?_, ?_, ?_⟩
  · rw [hsync]
    exact h.kept
  · rw [hsync, hacking]
    exact h.acked
  · rw [hdata, hacking]
    exact h.aligned

/-- The core takes the acknowledgement of the row that is first in line. -/
theorem linked_coreData {response : DataServiceResponse} {rest : List DataServiceResponse}
    (h : g.Linked) (hq : g.fromData = response :: rest) :
    ({ g with
      fromData := rest
      acking := acked g.acking response }.handle (.dataService (.registry response))).Linked := by
  have hal := h.aligned
  rw [hq, List.filterMap_cons] at hal
  cases response with
  | hubInserted id =>
    simp only [hubOfResponse] at hal
    refine ⟨h.kept, fun x hx => h.acked x (List.mem_of_mem_tail hx), ?_⟩
    show rest.filterMap hubOfResponse = g.acking.tail.map HubRow.id
    rw [List.map_tail, ← hal, List.tail_cons]
  | _ => exact ⟨h.kept, h.acked, hal⟩

/-- An answer to a failed statement acknowledges no hub. -/
theorem hubs_dbaInsertError (command : DataCommandInsert) :
    ((dbaInsertError command).filter (fun r => (batchOf r).isNone)).filterMap hubOfResponse =
      [] := by
  cases command <;> rfl

theorem hubs_dbaRemoveError (t : Tables) (command : DataCommandDelete) :
    ((dbaRemoveError t command).filter (fun r => (batchOf r).isNone)).filterMap hubOfResponse =
      [] := by
  cases command with
  | deleteNetwork id =>
    simp only [dbaRemoveError]
    split <;> rfl
  | _ => rfl

/-- A hub whose insertion fails has ended its way. -/
theorem linked_insertFails {command : DataCommandInsert} {rest : List DataCommandInsert}
    (h : g.Linked) (hok : g.keepsLinkages .insertFails = true) (hi : g.sync.inserting = none)
    (hq : g.sync.inserts = command :: rest) :
    ({ g with
      sync := g.sync.skipInsert command rest }.answer (dbaInsertError command)).Linked := by
  refine ⟨fun id network hreg => ?_, h.acked, ?_⟩
  · have hkept := h.kept id network hreg
    show Kept g.sync.tables (g.sync.skipInsert command rest).joining id network
    cases command with
    | insertHub row =>
      have hjoining : g.sync.joining =
          row :: (g.sync.skipInsert (.insertHub row) rest).joining := by
        simp [Sync.joining, Sync.skipInsert, hi, hq, hubOfInsert]
      simp only [keepsLinkages, hq] at hok
      exact kept_of_lost hjoining hok hreg hkept
    | _ =>
      simpa [Sync.joining, Sync.skipInsert, hi, hq, hubOfInsert, List.filterMap_cons] using hkept
  · show (g.fromData ++ _).filterMap hubOfResponse = _
    rw [List.filterMap_append, hubs_dbaInsertError, List.append_nil, h.aligned]
    rfl

theorem linked_step (h : g.Linked) (hok : g.keepsLinkages i = true)
    (hs : (machine idEdge).step g i = some g') : g'.Linked := by
  cases move_of_step hs with
  | sync hp => exact linked_sync h hok hp
  | insertFails hi hq => exact linked_insertFails h hok hi hq
  | @removeFails command rest hq =>
    refine ⟨h.kept, h.acked, ?_⟩
    show (g.fromData ++ _).filterMap hubOfResponse = _
    rw [List.filterMap_append, hubs_dbaRemoveError, List.append_nil, h.aligned]
    rfl
  | coreData hq => exact linked_coreData h hq
  | _ => exact linked_of_frame h rfl rfl rfl

theorem linked_start (idEdge : String) (tables : Tables) : (start idEdge tables).Linked := by
  refine ⟨?_, ?_, rfl⟩
  · rintro id network ⟨hnet, -⟩
    simp [start, Sync.start, NetworkManager.newEmpty] at hnet
  · intro row hrow
    exact absurd hrow List.not_mem_nil

/-- A hub that memory knows and that waits for no insertion is stored. -/
theorem acks_adminHub (h : g.Linked) (hok : g.keepsLinkages (.sync .adminHub) = true) :
    g.AcksStored (.sync .adminHub) := by
  intro request rest hq hsearch
  simp only [keepsLinkages, hq, hsearch, true_implies, decide_eq_true_eq] at hok
  obtain ⟨hnet, hwaits⟩ := hok
  refine ⟨hnet, ?_⟩
  rcases NetworkManager.searchHub_eq_true.mp hsearch with hunknown | ⟨hub, hhub, hid⟩
  · exact absurd hnet hunknown
  · rcases h.kept _ _ ⟨hnet, hub, hhub, hid⟩ with hstored | ⟨row, hrow, hrowid, hrownet⟩
    · exact hstored
    · exact hrowid ▸ hrownet ▸ hwaits row hrow hrowid hrownet

theorem acks_coreData (h : g.Linked) : g.AcksStored .coreData := by
  intro id rest hq
  have hal := h.aligned
  rw [hq, List.filterMap_cons] at hal
  simp only [hubOfResponse] at hal
  rcases hack : g.acking with _ | ⟨row, acking⟩
  · rw [hack] at hal
    cases hal
  · rw [hack, List.map_cons] at hal
    have hrow : row ∈ g.acking := by
      rw [hack]
      exact List.mem_cons_self
    obtain ⟨hnet, hstored⟩ := h.acked row hrow
    exact ⟨row, rfl, (List.cons.inj hal).1.symm, hnet, hstored⟩

theorem acks_of_linked (h : g.Linked) (hok : g.keepsLinkages i = true) : g.AcksStored i := by
  cases i with
  | sync i =>
    cases i with
    | adminHub => exact acks_adminHub h hok
    | _ => trivial
  | coreData => exact acks_coreData h
  | _ => trivial

/-- A hub is acknowledged only when it is stored at a network in memory, in every
run in which a request names a network in memory and waits for no insertion of its
hub, no row of a known hub is lost, and no network goes under an acknowledgement
or comes back over hubs without rows. -/
theorem linkages_are_acknowledged_once_stored (idEdge : String) (t : List (Gateway × Label))
    (g : Gateway) (run : (machine idEdge).Run t g)
    (hok : Machine.Meets (fun g i => g.keepsLinkages i = true) t) :
    Machine.Meets AcksStored t := by
  refine run.meets Linked (fun g i => g.keepsLinkages i = true) AcksStored ?_ ?_ ?_ hok
  · rintro g ⟨tables, rfl⟩
    exact linked_start idEdge tables
  · intro g i g' h hi hs
    exact linked_step h hi hs
  · intro g i g' h hi hs
    exact acks_of_linked h hi

/-! ## Concrete runs -/

/-- Nothing is stored, and a hub asks for a network that nobody created. -/
def strayed : List Label := [.sync (.linkage (requestOf "h" "n")), .sync .adminHub]

theorem a_stray_hub_is_acknowledged :
    ¬ ∀ (idEdge : String) (t : List (Gateway × Label)) (g : Gateway), (machine idEdge).Run t g →
      Machine.Meets AcksStored t := by
  intro h
  have hinit : (machine "edge").init (start "edge" Tables.empty) := ⟨_, rfl⟩
  have hrun := Machine.run_of_final strayed hinit (by decide +kernel)
  have hall := h _ _ _ hrun
  have hlast := hall _ (List.mem_cons_of_mem _ List.mem_cons_self) (requestOf "h" "n") [] rfl
    (by decide +kernel)
  exact absurd hlast.1 (by decide +kernel)

/-- A hub joins a network that the server created, and asks again. -/
def joinedTwice : List Label :=
  [.sync (.server (commandFor "n" true false)), .sync (.adminServer default), .sync .dbaNetwork,
    .sync .dataService, .sync .dataService, .sync .dbaInsert,
    .sync (.linkage (requestOf "h" "n")), .sync .adminHub, .sync .dbaHub, .sync .dataService,
    .sync .dbaInsert, .sync .dbaInsertHub, .coreData, .coreData,
    .sync (.linkage (requestOf "h" "n")), .sync .adminHub]

theorem a_stored_hub_is_acknowledged_twice :
    let t := (machine "edge").trace (start "edge" Tables.empty) joinedTwice
    Machine.Meets (fun g i => g.keepsLinkages i = true) t ∧ Machine.Meets AcksStored t := by
  have hinit : (machine "edge").init (start "edge" Tables.empty) := ⟨_, rfl⟩
  have hok : Machine.Meets (fun g i => g.keepsLinkages i = true)
      ((machine "edge").trace (start "edge" Tables.empty) joinedTwice) := by decide +kernel
  exact ⟨hok, linkages_are_acknowledged_once_stored "edge" _ _
    (Machine.run_of_final joinedTwice hinit (by decide +kernel)) hok⟩

end Law

end Gateway

end EdgeGateway.Core
