-- When memory and database agree on the hubs. A hub that joins is in memory at
-- once and in its table later; nothing else writes both stores. A deletion of
-- a hub never reaches the table, a deletion of a network never reaches the hubs
-- in memory, and an insertion can be refused. Where none of these happens, each
-- hub in memory is stored or on its way.
import EdgeGateway.Network.Agreement
import EdgeGateway.Network.Cache
import EdgeGateway.Network.Moves

namespace EdgeGateway.Networks

open EdgeGateway.Lib EdgeGateway.Message EdgeGateway.Database

/-! ## Hubs on their way -/

def hubOfInsert : DataCommandInsert → Option HubRow
  | .insertHub row => some row
  | _ => none

def hubOfCommand : DataServiceCommand → Option HubRow
  | .newHub row => some row
  | _ => none

def HubChanged.row : HubChanged → Option HubRow
  | .insert row => some row
  | .delete _ => none

namespace Sync

/-- The hubs that `dba_insert_task` has still to store, the next one first. -/
def joining (p : Sync) : List HubRow :=
  p.inserting.toList ++ p.inserts.filterMap hubOfInsert ++
    (p.commands.filterMap hubOfCommand ++ p.hubChan.filterMap HubChanged.row)

/-- The rows of table `hub` are the hubs in memory, at their networks. -/
def HubsAgree (p : Sync) : Prop :=
  ∀ row, row ∈ p.tables.hub.rows ↔ p.manager.Holds row.networkId row.castToHub

/-- Nothing is loaded, and nothing will be. -/
structure Loaded (p : Sync) : Prop where
  batch : p.batch = []
  gets : p.gets = []
  total : p.total = .listening
  commands : DataServiceCommand.getTotalOfNetworks ∉ p.commands

/-- Each hub in memory is stored or on its way, and no other hub is. -/
structure Tracks (p : Sync) : Prop where
  loaded : p.Loaded
  hubs : ∀ row, p.manager.Holds row.networkId row.castToHub ↔
    row ∈ p.tables.hub.rows ∨ row ∈ p.joining

/-- The two stores at rest, however they came to agree. -/
def registration (idEdge : String) : Machine Sync Label where
  init := fun p => p.Quiet ∧ p.Idle ∧ p.HubsAgree
  step := step idEdge

/-! ## The condition -/

/-- No deletion finds a hub, and an insertion finds a network and a free id. -/
def keepsHubs (p : Sync) : Label → Bool
  | .adminServer _ =>
    match p.fromServer with
    | .deleteHub msg :: _ =>
      ∀ hub ∈ (p.manager.hubs.lookup msg.network).getD ∅, hub.id ≠ msg.metadata.destinationId
    | _ => true
  | .dbaInsert =>
    match p.inserts with
    | .insertHub _ :: _ => p.tables.network.rows.length > 0
    | _ => true
  | .dbaInsertHub =>
    match p.inserting with
    | some row => row.id ∉ p.tables.hub.rows.map HubRow.id
    | none => true
  | .dbaRemove =>
    match p.deletes with
    | .deleteAllHubByNetwork id :: _ => ∀ row ∈ p.tables.hub.rows, row.networkId ≠ id
    | _ => true
  | _ => true

end Sync

/-! ## One step -/

section Steps

open Sync NetworkManager

variable {idEdge : String} {p p' : Sync} {i : Sync.Label}

theorem getTotal_notMem_commands (change : NetworkChanged) :
    DataServiceCommand.getTotalOfNetworks ∉ change.commands := by
  cases change <;> simp [NetworkChanged.commands]

/-- No task asks again for what is stored. -/
theorem loaded_step (h : p.Loaded) (hs : p.step idEdge i = some p') : p'.Loaded := by
  obtain ⟨hbatch, hgets, htotal, hcommands⟩ := h
  cases move_of_step hs with
  | adminBatch hq => simp [hbatch] at hq
  | dbaGet ht hq => simp [hgets] at hq
  | getNetworks ht => simp [htotal] at ht
  | countHubs ht => simp [htotal] at ht
  | getHubs ht => simp [htotal] at ht
  | @dbaNetwork change rest hq =>
    exact ⟨hbatch, hgets, htotal, by simp [hcommands, getTotal_notMem_commands]⟩
  | @dbaHub change rest hq =>
    refine ⟨hbatch, hgets, htotal, ?_⟩
    cases change <;> simp [HubChanged.commands, hcommands]
  | @dataService command rest hq =>
    rw [hq, List.mem_cons, not_or] at hcommands
    refine ⟨hbatch, ?_, htotal, hcommands.2⟩
    cases command <;> simp_all [route, forGet]
  | _ => exact ⟨hbatch, hgets, htotal, hcommands⟩

/-- The server lets no hub join. -/
theorem joins_adminServer (now : Int64) (m : NetworkManager) (msg : ServerMessage) :
    (Networks.adminServer idEdge now m msg).hubChan.filterMap HubChanged.row = [] := by
  cases msg with
  | network network =>
    rcases h : handleAction m network (actionOf m network) <;> simp [Networks.adminServer, h]
  | _ => rfl

/-- A hub starts on its way when it joins, and is at its end when
`dba_insert_task` has taken it. -/
theorem joining_step (hs : p.step idEdge i = some p') (hadmin : i ≠ .adminHub)
    (hinsert : i ≠ .dbaInsert) (hhub : i ≠ .dbaInsertHub) : p'.joining = p.joining := by
  cases move_of_step hs with
  | @adminServer now msg rest hq => simp [enact, joining, joins_adminServer]
  | adminHub hq => exact absurd rfl hadmin
  | @adminBatch batch rest hq => cases batch <;> simp [enact, joining, Networks.adminBatch]
  | @dbaNetwork change rest hq =>
    cases change <;> simp [joining, NetworkChanged.commands, hubOfCommand]
  | @dbaHub change rest hq =>
    cases change <;> simp [joining, hq, HubChanged.commands, HubChanged.row, hubOfCommand,
      List.filterMap_cons]
  | @dataService command rest hq =>
    cases command <;> simp [joining, route, hq, forInsert, hubOfCommand, hubOfInsert,
      List.filterMap_cons]
  | dbaInsert hi hq => exact absurd rfl hinsert
  | dbaInsertHub hi => exact absurd rfl hhub
  | _ => rfl

/-- `dba_insert_task` takes a hub only after it has counted a network. -/
theorem joining_dbaInsert {command : DataCommandInsert} {rest : List DataCommandInsert}
    (hi : p.inserting = none) (hq : p.inserts = command :: rest)
    (hs : p.step idEdge .dbaInsert = some p') :
    p'.joining = p.joining ∨
      ∃ row, command = .insertHub row ∧ p.tables.network.rows.length = 0 ∧
        p.joining = row :: p'.joining := by
  cases move_of_step hs with
  | @dbaInsert command' rest' hi' hq' =>
    obtain ⟨rfl, rfl⟩ := List.cons.inj (hq.symm.trans hq')
    cases command with
    | insertNetwork row =>
      rcases hins : p.tables.network.insert row <;>
        simp [joining, hi, hq, Database.dbaInsert, hins, hubOfInsert, List.filterMap_cons]
    | updateNetwork row =>
      simp [joining, hi, hq, Database.dbaInsert, hubOfInsert, List.filterMap_cons]
    | insertHub row =>
      by_cases hsome : p.tables.network.rows.length > 0
      · simp [joining, hi, hq, Database.dbaInsert, hsome, hubOfInsert]
      · exact .inr ⟨row, rfl, by omega, by
          simp [joining, hi, hq, Database.dbaInsert, hsome, hubOfInsert]⟩

theorem joining_dbaInsertHub {row : HubRow} (hi : p.inserting = some row)
    (hs : p.step idEdge .dbaInsertHub = some p') : p.joining = row :: p'.joining := by
  cases move_of_step hs with
  | @dbaInsertHub row' hi' =>
    cases hi.symm.trans hi'
    simp [joining, hi]

/-- A step that leaves the hubs in memory, those stored and those on their
way. -/
theorem tracks_of_frame (h : p.Tracks) (hl : p'.Loaded) (hhubs : p'.manager.hubs = p.manager.hubs)
    (hrows : p'.tables.hub.rows = p.tables.hub.rows) (hjoining : p'.joining = p.joining) :
    p'.Tracks := by
  refine ⟨hl, fun row => ?_⟩
  rw [holds_congr hhubs, hrows, hjoining]
  exact h.hubs row

/-- The server changes networks, and deletes no hub that memory has. -/
theorem hubs_adminServer {now : Int64} {msg : ServerMessage} {rest : List ServerMessage}
    (hq : p.fromServer = msg :: rest) (hok : p.keepsHubs (.adminServer now) = true)
    (id : String) (hub : Hub) :
    (Networks.adminServer idEdge now p.manager msg).manager.Holds id hub ↔
      p.manager.Holds id hub := by
  rw [holds_adminServer, and_iff_left_iff_imp]
  rintro hhub deletion rfl ⟨rfl, hid⟩
  have hnone : ∀ hub, p.manager.Holds deletion.network hub →
      hub.id ≠ deletion.metadata.destinationId := by
    simpa [keepsHubs, hq, Holds] using hok
  exact hnone hub hhub hid

/-- A request that is not known adds its hub to those on their way. -/
theorem joining_adminHub (request : LinkageRequest) (rest : List LinkageRequest) :
    ({ p with fromHub := rest }.enact (Networks.adminHub p.manager request)).joining =
      p.joining ++ (if p.manager.searchHub request.network request.metadata.senderUserId then []
        else [castToHubRow request]) := by
  unfold Networks.adminHub
  split <;> simp [enact, joining, HubChanged.row]

/-- A request that is not known puts its hub in memory and on its way. -/
theorem tracks_adminHub {request : LinkageRequest} {rest : List LinkageRequest} (h : p.Tracks)
    (hl : ({ p with fromHub := rest }.enact (Networks.adminHub p.manager request)).Loaded) :
    ({ p with fromHub := rest }.enact (Networks.adminHub p.manager request)).Tracks := by
  refine ⟨hl, fun row => ?_⟩
  have hjoining := joining_adminHub (p := p) request rest
  unfold Networks.adminHub at hjoining ⊢
  split at hjoining
  · rename_i hsearch
    rw [if_pos hsearch, hjoining, List.append_nil]
    exact h.hubs row
  · rename_i hsearch
    rw [if_neg hsearch]
    have hnew : request.network = row.networkId ∧
        row.castToHub = (castToHubRow request).castToHub ↔ row = castToHubRow request := by
      rcases row with ⟨id, deviceName, networkId⟩
      simp only [castToHubRow, HubRow.castToHub, Hub.mk.injEq, HubRow.mk.injEq]
      constructor
      · rintro ⟨rfl, rfl, rfl⟩
        exact ⟨rfl, rfl, rfl⟩
      · rintro ⟨rfl, rfl, rfl⟩
        exact ⟨rfl, rfl, rfl⟩
    rw [hjoining]
    show (p.manager.addHub request.network _).Holds _ _ ↔ row ∈ p.tables.hub.rows ∨ _
    rw [holds_addHub, hnew, h.hubs, List.mem_append, List.mem_singleton, or_assoc]

/-- A hub whose id is free is stored. -/
theorem tracks_dbaInsertHub {row : HubRow} (h : p.Tracks) (hi : p.inserting = some row)
    (hok : p.keepsHubs .dbaInsertHub = true)
    (hl : { p with
      inserting := none
      tables := (Database.dbaInsertHub p.tables row).1 }.Loaded) :
    { p with
      inserting := none
      tables := (Database.dbaInsertHub p.tables row).1 }.Tracks := by
  have hfree : row.id ∉ p.tables.hub.rows.map HubRow.id := by
    simpa [keepsHubs, hi] using hok
  rcases hins : p.tables.hub.insert row with _ | hub
  · exact absurd (Keyed.mem_keys.mpr (Keyed.insert_eq_none.mp hins)) hfree
  · refine ⟨hl, fun x => ?_⟩
    have hrows : (Database.dbaInsertHub p.tables row).1.hub.rows = p.tables.hub.rows ++ [row] := by
      simp only [Database.dbaInsertHub, hins]
      exact Keyed.rows_insert hins
    have hjoining : p.joining = row :: { p with
        inserting := none
        tables := (Database.dbaInsertHub p.tables row).1 }.joining := by
      simp [joining, hi]
    rw [hrows, h.hubs, hjoining, List.mem_append, List.mem_singleton, List.mem_cons, or_assoc]

/-- A deletion that finds no row leaves the table. -/
theorem rows_dbaRemove {command : DataCommandDelete} {rest : List DataCommandDelete}
    (hq : p.deletes = command :: rest) (hok : p.keepsHubs .dbaRemove = true) :
    (Database.dbaRemove p.tables command).1.hub.rows = p.tables.hub.rows := by
  cases command with
  | deleteAllHubByNetwork id =>
    have hnone : ∀ row ∈ p.tables.hub.rows, row.networkId ≠ id := by
      simpa [keepsHubs, hq] using hok
    rw [(dbaRemove_spec _ _).2]
    exact List.filter_eq_self.mpr (fun row hrow => decide_eq_true (hnone row hrow))
  | _ => rfl

theorem tracks_step (h : p.Tracks) (hok : p.keepsHubs i = true) (hs : p.step idEdge i = some p') :
    p'.Tracks := by
  have hl := loaded_step h.loaded hs
  have hjoining := joining_step hs
  cases move_of_step hs with
  | @adminServer now msg rest hq =>
    refine ⟨hl, fun row => ?_⟩
    rw [hjoining (by simp) (by simp) (by simp)]
    exact (hubs_adminServer hq hok _ _).trans (h.hubs row)
  | adminHub hq => exact tracks_adminHub h hl
  | adminBatch hq => simp [h.loaded.batch] at hq
  | @dbaInsert command rest hi hq =>
    refine tracks_of_frame h hl rfl ?_ ?_
    · show (Database.dbaInsert p.tables command).1.hub.rows = _
      rw [(dbaInsert_spec _ _).2]
    · rcases joining_dbaInsert hi hq hs with heq | ⟨row, rfl, hnone, -⟩
      · exact heq
      · have hsome : p.tables.network.rows.length > 0 := by
          simpa [keepsHubs, hq] using hok
        omega
  | dbaInsertHub hi => exact tracks_dbaInsertHub h hi hok hl
  | dbaRemove hq => exact tracks_of_frame h hl rfl (rows_dbaRemove hq hok) rfl
  | dbaGet ht hq => simp [h.loaded.gets] at hq
  | getNetworks ht => simp [h.loaded.total] at ht
  | countHubs ht => simp [h.loaded.total] at ht
  | getHubs ht => simp [h.loaded.total] at ht
  | _ => exact tracks_of_frame h hl rfl rfl (hjoining (by simp) (by simp) (by simp))

end Steps

/-! ## The law -/

section Law

open Sync NetworkManager

theorem tracks_start {p : Sync} (hquiet : p.Quiet) (hidle : p.Idle) (hagree : p.HubsAgree) :
    p.Tracks := by
  obtain ⟨-, -, hbatch, -, hhubs, hcommands, hinserts, -, hgets⟩ := hquiet
  refine ⟨⟨hbatch, hgets, hidle.2, by simp [hcommands]⟩, fun row => ?_⟩
  have hnone : p.joining = [] := by
    simp [joining, hidle.1, hinserts, hcommands, hhubs]
  rw [← hagree row, hnone]
  simp

/-- With no hub on its way, the two stores hold the same hubs. -/
theorem agree_of_tracks {p : Sync} (h : p.Tracks) (hquiet : p.Quiet) (hidle : p.Idle) :
    p.HubsAgree := by
  obtain ⟨-, -, -, -, hhubs, hcommands, hinserts, -, -⟩ := hquiet
  intro row
  have hnone : p.joining = [] := by
    simp [joining, hidle.1, hinserts, hcommands, hhubs]
  rw [h.hubs, hnone]
  simp

/-- What a restart loads is what was in memory. -/
theorem holds_restart {p : Sync} (idEdge : String) (h : p.HubsAgree) (id : String) (hub : Hub) :
    (Networks.adminBatch (newEmpty idEdge) (.hub p.tables.hub.rows)).manager.Holds id hub ↔
      p.manager.Holds id hub := by
  have hempty : ¬ (newEmpty idEdge).Holds id hub := by simp [Holds, newEmpty]
  rw [holds_load, List.mem_map]
  constructor
  · rintro (hold | ⟨row, hrow, heq⟩)
    · exact absurd hold hempty
    · obtain ⟨rfl, rfl⟩ := Prod.mk.inj heq
      exact (h row).mp hrow
  · intro hhub
    exact .inr ⟨⟨hub.id, hub.deviceName, id⟩, (h _).mpr hhub, rfl⟩

/-- Memory and database agree on the hubs whenever the system is at rest, and a
restart brings back the same ones, in every run in which no deletion finds a
hub and no insertion is refused. -/
theorem a_restart_restores_the_hubs (idEdge : String) (t : List (Sync × Label)) (p : Sync)
    (run : (registration idEdge).Run t p)
    (hok : Machine.Meets (fun p i => p.keepsHubs i = true) t) :
    ∀ x ∈ Machine.visited t p, x.Quiet → x.Idle → x.HubsAgree ∧ ∀ id hub,
      (Networks.adminBatch (newEmpty idEdge) (.hub x.tables.hub.rows)).manager.Holds id hub ↔
        x.manager.Holds id hub := by
  have hlaw := run.invariant_visited Tracks (fun p i => p.keepsHubs i = true)
    (fun p hp => by
      obtain ⟨hquiet, hidle, hagree⟩ := hp
      exact tracks_start hquiet hidle hagree)
    (fun p i p' hp hi h => tracks_step hp hi h) hok
  intro x hx hquiet hidle
  have hagree := agree_of_tracks (hlaw x hx) hquiet hidle
  exact ⟨hagree, holds_restart idEdge hagree⟩

/-! ## Concrete runs -/

/-- Nothing is stored, and nothing is in memory. -/
def vacant : Sync := { start "edge" Tables.empty with commands := [] }

theorem vacant_init : (registration "edge").init vacant := by
  refine ⟨by decide, by decide, fun row => ?_⟩
  simp [vacant, start, Tables.empty, Keyed.empty, Holds, newEmpty]

/-- A network is created and a hub joins it. -/
def createdAndJoined : List Label :=
  [.server (commandFor "n" true false), .adminServer default, .dbaNetwork, .dataService,
    .dbaInsert, .linkage (requestOf "h" "n"), .adminHub, .dbaHub, .dataService, .dbaInsert,
    .dbaInsertHub]

/-- The server deletes the hub. -/
def deletedByServer : List Label :=
  [.server (.deleteHub
      { metadata := { senderUserId := "server0", destinationId := "h", timestamp := default }
        network := "n" }),
    .adminServer default, .dbaHub, .dataService, .dbaRemove]

/-- The statement of the deletion is refused, and the row stays. -/
theorem a_deleted_hub_comes_back :
    ¬ ∀ (idEdge : String) (t : List (Sync × Label)) (p : Sync), (registration idEdge).Run t p →
      ∀ x ∈ Machine.visited t p, x.Quiet → x.Idle → x.HubsAgree := by
  intro h
  have hrun := Machine.run_of_final (createdAndJoined ++ deletedByServer) vacant_init
    (by decide +kernel)
  have hagree := h _ _ _ hrun _ (Machine.last_mem_visited _ _) (by decide +kernel)
    (by decide +kernel)
  have hrow : { id := "h", deviceName := "device", networkId := "n" } ∈
      (((registration "edge").final vacant (createdAndJoined ++ deletedByServer)).get
        (by decide +kernel)).tables.hub.rows := by decide +kernel
  exact absurd ((hagree _).mp hrow) (by decide +kernel)

theorem a_joined_hub_is_restored :
    let t := (registration "edge").trace vacant
      (createdAndJoined ++ [.linkage (requestOf "h" "n")])
    (∃ s ∈ t, s.1.Quiet ∧ s.1.Idle ∧ s.1.tables.hub.rows.length = 1) ∧
      ∀ s ∈ t, s.1.Quiet → s.1.Idle → s.1.HubsAgree := by
  have hrun := Machine.run_of_final (createdAndJoined ++ [.linkage (requestOf "h" "n")])
    vacant_init (by decide +kernel)
  have hall := a_restart_restores_the_hubs "edge" _ _ hrun (by decide +kernel)
  exact ⟨by decide +kernel,
    fun s hs hquiet hidle => (hall s.1 (Machine.mem_visited hs _) hquiet hidle).1⟩

end Law

end EdgeGateway.Networks
