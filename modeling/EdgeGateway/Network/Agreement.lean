-- When memory and database agree on the networks. A change of a network is
-- decided once and made twice: at once in the cache, later in the table. Two
-- tasks make the changes of the table, so a deletion and a creation of one
-- network can change places, and the rows loaded at the start can be older
-- than what the cache has. Where neither happens, both end up the same.
import EdgeGateway.Lib.Replica
import EdgeGateway.Network.Moves

namespace EdgeGateway.Networks

open EdgeGateway.Lib EdgeGateway.Message EdgeGateway.Database

/-! ## What is under way -/

def changeOfCommand : DataServiceCommand → Option NetworkChanged
  | .newNetwork row => some (.insert row)
  | .updateNetwork row => some (.update row)
  | .deleteNetwork id => some (.delete id)
  | _ => none

/-- The network whose hubs a command deletes. -/
def hubsOfDelete : DataCommandDelete → Option String
  | .deleteAllHubByNetwork id => some id
  | _ => none

def hubsOfCommand : DataServiceCommand → Option String
  | .deleteAllHubByNetwork id => some id
  | _ => none

def NetworkChanged.hubsOf : NetworkChanged → Option String
  | .delete id => some id
  | _ => none

def Batch.networkRows : Batch → Option (List NetworkRow)
  | .network rows => some rows
  | .hub _ => none

namespace Sync

/-- The changes that no task of the database has received. -/
def ahead (p : Sync) : List NetworkChanged :=
  p.commands.filterMap changeOfCommand ++ p.netChan

/-- The changes that one of the two tasks has still to make. -/
def queue (p : Sync) (write : Bool) : List NetworkChanged :=
  (match write with
    | true => p.inserts.filterMap changeOfInsert
    | false => p.deletes.filterMap changeOfDelete) ++
    p.ahead.filter (fun c => c.isWrite = write)

/-- The networks whose hubs will be deleted. -/
def hubDeletions (p : Sync) : List String :=
  p.deletes.filterMap hubsOfDelete ++
    (p.commands.filterMap hubsOfCommand ++ p.netChan.filterMap NetworkChanged.hubsOf)

/-- The loads of networks that have still to read table `network`. -/
def unread (p : Sync) : Nat :=
  p.commands.count .getTotalOfNetworks + p.gets.length + if p.total = .networks then 1 else 0

/-- The rows of table `network` on their way to memory. -/
def loads (p : Sync) : List (List NetworkRow) := p.batch.filterMap Batch.networkRows

/-- What table `network` will say about a network when the changes under way
have been made in their order. -/
def upcoming (p : Sync) (id : String) : Option Bool :=
  networkChanges.replay id (p.tables.activeOf id) p.log

/-! ## The condition -/

/-- The change `c`, the next one of its task, is made before an older change of
the same network. -/
def overtakes (p : Sync) (write : Bool) (c : NetworkChanged) : Bool :=
  ∃ older ∈ before (fun x => decide (NetworkChanged.isWrite x = write)) p.log, older.id = c.id

/-- The two tasks make the changes of each network in their order; the networks
loaded are what the table will have; and a hub is stored while its network is
in memory or the deletion of the hubs of its network is under way. -/
def inOrder (p : Sync) : Label → Bool
  | .dbaInsert =>
    match p.inserts.head?.bind changeOfInsert with
    | some c => p.overtakes true c = false
    | none => true
  | .dbaRemove =>
    match p.deletes.head?.bind changeOfDelete with
    | some c => p.overtakes false c = false
    | none => true
  | .adminBatch =>
    match p.batch.head?.bind Batch.networkRows with
    | some rows => ∀ row ∈ rows, p.upcoming row.idNetwork = some row.active
    | none => true
  | .dbaInsertHub =>
    match p.inserting with
    | some row =>
      p.tables.hub.insert row = none ∨ p.manager.activeOf row.networkId ≠ none ∨
        row.networkId ∈ p.hubDeletions
    | none => true
  | _ => true

end Sync

/-! ## What the tasks of the database do -/

/-- The tables make a change of a network, or none. -/
def made (t t' : Tables) : Option NetworkChanged → Prop
  | some c => ∀ id, t'.activeOf id = networkChanges.apply id (t.activeOf id) c
  | none => ∀ id, t'.activeOf id = t.activeOf id

theorem dbaInsert_spec (t : Tables) (command : DataCommandInsert) :
    made t (Database.dbaInsert t command).1 (changeOfInsert command) ∧
      (Database.dbaInsert t command).1.hub = t.hub := by
  cases command with
  | insertNetwork row =>
    rcases h : t.network.insert row with _ | network
    · have hout : Database.dbaInsert t (.insertNetwork row) =
          (t, none, [.networksUpdated row.idNetwork 101]) := by simp only [Database.dbaInsert, h]
      rw [hout]
      refine ⟨fun id => ?_, rfl⟩
      obtain ⟨x, hx⟩ := Option.ne_none_iff_exists'.mp (Keyed.insert_eq_none.mp h)
      by_cases hid : row.idNetwork = id
      · subst hid
        simp [Tables.activeOf, hx]
      · simp [hid]
    · have hout : Database.dbaInsert t (.insertNetwork row) =
          ({ t with network }, none, [.networksUpdated row.idNetwork 100]) := by
        simp only [Database.dbaInsert, h]
      rw [hout]
      refine ⟨fun id => ?_, rfl⟩
      have hnone : t.network.get row.idNetwork = none := Keyed.get_of_insert h
      by_cases hid : row.idNetwork = id
      · subst hid
        simp [Tables.activeOf, Keyed.get_insert h, hnone]
      · simp [Tables.activeOf, Keyed.get_insert h, hid]
  | updateNetwork row =>
    refine ⟨fun id => ?_, rfl⟩
    by_cases hid : row.idNetwork = id <;>
      simp [Database.dbaInsert, Tables.activeOf, Keyed.get_upsert, hid]
  | insertHub row => exact ⟨fun id => rfl, rfl⟩

theorem dbaRemove_spec (t : Tables) (command : DataCommandDelete) :
    made t (Database.dbaRemove t command).1 (changeOfDelete command) ∧
      (Database.dbaRemove t command).1.hub.rows =
        (match hubsOfDelete command with
          | some id => t.hub.rows.filter (fun row => row.networkId ≠ id)
          | none => t.hub.rows) := by
  cases command with
  | deleteNetwork id₀ =>
    refine ⟨fun id => ?_, rfl⟩
    have hget := t.network.get_deleteWhere_key id₀ id
    by_cases hid : id₀ = id <;> simp_all [Database.dbaRemove, Tables.activeOf]
  | deleteAllHubByNetwork id =>
    exact ⟨fun _ => rfl, by simp [Database.dbaRemove, Keyed.deleteWhere, hubsOfDelete]⟩
  | deleteHub id => exact ⟨fun _ => rfl, rfl⟩

/-! ## The system as a replica -/

namespace Sync

/-- The networks in memory and in the database, with the hubs as dependents. -/
def replica (p : Sync) : Replica String Bool NetworkChanged where
  memory := p.manager.activeOf
  stored := p.tables.activeOf
  log := p.log
  queues := p.queue
  unread := p.unread
  loads := p.loads.map (fun rows => rows.map (fun row => (row.idNetwork, row.active)))
  dependents := p.tables.hub.rows.map HubRow.networkId
  cascades := p.hubDeletions

/-- A step of the replica. -/
abbrev Moves (r r' : Replica String Bool NetworkChanged) : Prop :=
  Replica.Step networkChanges NetworkChanged.isWrite r r'

end Sync

section Refinement

open Sync

variable {p p' : Sync}

theorem step_of_eq {r : Replica String Bool NetworkChanged} (h : Moves p.replica r)
    (he : p'.replica = r) : Moves p.replica p'.replica :=
  he ▸ h

/-- Passing a message on is no step of the replica. -/
theorem moves_of_eq (h : p'.replica = p.replica) : Moves p.replica p'.replica :=
  step_of_eq .pass h

/-- A turn of `network_admin` on a message of the server or of a hub. -/
theorem moves_enact {d : Decision}
    (hd : d.keepsNetworks p.manager ∨ ∃ c, d.makes p.manager c) :
    Moves p.replica (p.enact d).replica := by
  rcases hd with ⟨hnone, hsame⟩ | ⟨c, hone, hmade⟩
  · refine moves_of_eq (Replica.ext ?_ rfl ?_ ?_ rfl rfl rfl ?_)
    · exact funext fun id => NetworkManager.activeOf_congr hsame id
    · simp [replica, enact, hnone]
    · funext b
      simp [replica, enact, queue, ahead, hnone]
    · simp [replica, enact, hubDeletions, hnone]
  · have hmore : ∀ active, networkChanges.effect c active = none →
        networkChanges.key c ∈ c.hubsOf.toList := by
      cases c <;> simp [networkChanges, NetworkChanged.effect, NetworkChanged.hubsOf,
        NetworkChanged.id]
    refine step_of_eq (.decides c c.hubsOf.toList hmore)
      (Replica.ext (funext hmade) rfl ?_ (funext fun b => ?_) rfl rfl rfl ?_)
    · simp [replica, enact, hone]
    · simp [replica, enact, queue, ahead, hone, List.filter_append]
    · cases c <;> simp [replica, enact, hubDeletions, hone, NetworkChanged.hubsOf]

/-- `network_admin` loads a batch. -/
theorem moves_adminBatch {batch : Batch} {rest : List Batch} (hq : p.batch = batch :: rest)
    (hok : p.inOrder .adminBatch = true) :
    Moves p.replica
      ({ p with batch := rest }.enact (Networks.adminBatch p.manager batch)).replica := by
  cases batch with
  | network rows =>
    have hfresh : ∀ row ∈ rows, p.upcoming row.idNetwork = some row.active := by
      simpa [inOrder, hq, Batch.networkRows] using hok
    have hloads : p.replica.loads = rows.map (fun row => (row.idNetwork, row.active)) ::
        (rest.filterMap Batch.networkRows).map
          (fun rows => rows.map (fun row => (row.idNetwork, row.active))) := by
      simp [replica, loads, hq, Batch.networkRows]
    refine step_of_eq
      (.loads hloads (Networks.adminBatch p.manager (.network rows)).manager.activeOf
        (fun id => ?_) ?_) (Replica.ext rfl rfl ?_ (funext fun b => ?_) rfl rfl rfl ?_)
    · rcases activeOf_load rows p.manager id with ⟨row, hrow, hid, hm⟩ | ⟨hnot, hm⟩
      · exact .inl ⟨_, List.mem_map_of_mem hrow, hid, hm⟩
      · exact .inr ⟨by simpa using hnot, hm⟩
    · intro x hx
      obtain ⟨row, hrow, rfl⟩ := List.mem_map.mp hx
      exact hfresh row hrow
    · simp [replica, enact, Networks.adminBatch]
    · simp [replica, enact, queue, ahead, Networks.adminBatch]
    · simp [replica, enact, hubDeletions, Networks.adminBatch]
  | hub rows =>
    have hrest : ({ p with batch := rest } : Sync).replica = p.replica :=
      Replica.ext rfl rfl rfl rfl rfl
        (by simp [replica, loads, hq, Batch.networkRows, List.filterMap_cons]) rfl rfl
    exact hrest ▸ moves_enact (p := { p with batch := rest }) (.inl (networks_load rows _))

/-- `network_dba` turns changes into commands. -/
theorem moves_dbaNetwork {c : NetworkChanged} {rest : List NetworkChanged}
    (hq : p.netChan = c :: rest) :
    Moves p.replica
      { p with netChan := rest, commands := p.commands ++ c.commands }.replica := by
  refine moves_of_eq (Replica.ext rfl rfl rfl ?_ ?_ rfl rfl ?_)
  · funext b
    cases c <;>
      simp [replica, queue, ahead, hq, NetworkChanged.commands, changeOfCommand,
        List.filterMap_cons]
  · cases c <;> simp [replica, unread, NetworkChanged.commands]
  · cases c <;>
      simp [replica, hubDeletions, hq, NetworkChanged.commands, hubsOfCommand,
        NetworkChanged.hubsOf, List.filterMap_cons]

theorem moves_dbaHub (c : HubChanged) (rest : List HubChanged) :
    Moves p.replica
      { p with hubChan := rest, commands := p.commands ++ c.commands }.replica := by
  refine moves_of_eq (Replica.ext rfl rfl rfl ?_ ?_ rfl rfl ?_)
  · funext b
    cases c <;> simp [replica, queue, ahead, HubChanged.commands, changeOfCommand]
  · cases c <;> simp [replica, unread, HubChanged.commands]
  · cases c <;> simp [replica, hubDeletions, HubChanged.commands, hubsOfCommand]

/-- `DataService` gives a command to its task. -/
theorem moves_dataService {command : DataServiceCommand} {rest : List DataServiceCommand}
    (hq : p.commands = command :: rest) :
    Moves p.replica ({ p with commands := rest }.route command).replica := by
  refine moves_of_eq ?_
  cases command <;> refine Replica.ext rfl rfl rfl (funext fun b => ?_) ?_ rfl rfl ?_
  case getTotalOfNetworks.refine_2 =>
    simp only [replica, unread, route, forGet, hq, Option.toList_some, List.length_append,
      List.length_singleton, List.count_cons_self]
    have hsum : ∀ a b c : Nat, a + (b + 1) + c = a + 1 + b + c := by omega
    exact hsum _ _ _
  all_goals
    try rcases b with _ | _
  all_goals
    simp [replica, queue, ahead, unread, hubDeletions, hq, route, forInsert, forDelete, forGet,
      changeOfCommand, changeOfInsert, changeOfDelete, hubsOfCommand, hubsOfDelete,
      List.filterMap_cons, NetworkChanged.isWrite]

/-- The next change of a task that does not overtake has no older one of its
network before it. -/
theorem older_of_overtakes {write : Bool} {c : NetworkChanged} (h : p.overtakes write c = false) :
    ∀ older ∈ before (fun x => decide (NetworkChanged.isWrite x = write)) p.log,
      networkChanges.key older ≠ networkChanges.key c := by
  simp only [overtakes, decide_eq_false_iff_not, not_exists, not_and] at h
  exact h

theorem moves_dbaInsert {command : DataCommandInsert} {rest : List DataCommandInsert}
    (hq : p.inserts = command :: rest) (hok : p.inOrder .dbaInsert = true) :
    Moves p.replica
      { p with
        inserts := rest
        tables := (Database.dbaInsert p.tables command).1
        inserting := (Database.dbaInsert p.tables command).2.1
        log := p.settle true (changeOfInsert command) }.replica := by
  obtain ⟨hmade, hhub⟩ := dbaInsert_spec p.tables command
  rcases hc : changeOfInsert command with _ | c
  · rw [hc] at hmade
    refine moves_of_eq (Replica.ext rfl (funext hmade) ?_ (funext fun b => ?_) rfl rfl ?_ rfl)
    · simp [replica, settle]
    · rcases b with _ | _ <;> simp [replica, queue, ahead, hq, hc]
    · simp [replica, hhub]
  · rw [hc] at hmade
    have hqueue : p.replica.queues true = c ::
        (rest.filterMap changeOfInsert ++ p.ahead.filter (fun x => x.isWrite = true)) := by
      simp [replica, queue, hq, hc]
    have hold : p.overtakes true c = false := by
      simpa [inOrder, hq, hc] using hok
    refine step_of_eq (.takes hqueue (older_of_overtakes hold))
      (Replica.ext rfl (funext hmade) ?_ (funext fun b => ?_) rfl rfl ?_ rfl)
    · simp [replica, settle]
    · rcases b with _ | _ <;> simp [replica, queue, ahead]
    · simp [replica, hhub]

theorem moves_dbaInsertHub {row : HubRow} (hi : p.inserting = some row)
    (hok : p.inOrder .dbaInsertHub = true) :
    Moves p.replica
      { p with inserting := none, tables := (Database.dbaInsertHub p.tables row).1 }.replica := by
  rcases hins : p.tables.hub.insert row with _ | hub
  · have hout : (Database.dbaInsertHub p.tables row).1 = p.tables := by
      simp only [Database.dbaInsertHub, hins]
    rw [hout]
    exact moves_of_eq rfl
  · have hout : (Database.dbaInsertHub p.tables row).1 = { p.tables with hub } := by
      simp only [Database.dbaInsertHub, hins]
    rw [hout]
    have hplace : p.manager.activeOf row.networkId ≠ none ∨ row.networkId ∈ p.hubDeletions := by
      simpa [inOrder, hi, hins] using hok
    refine step_of_eq (.stores row.networkId hplace) (Replica.ext rfl rfl rfl rfl rfl rfl ?_ rfl)
    simp [replica, Keyed.rows_insert hins]

theorem moves_dbaRemove {command : DataCommandDelete} {rest : List DataCommandDelete}
    (hq : p.deletes = command :: rest) (hok : p.inOrder .dbaRemove = true) :
    Moves p.replica
      { p with
        deletes := rest
        tables := (Database.dbaRemove p.tables command).1
        log := p.settle false (changeOfDelete command) }.replica := by
  obtain ⟨hmade, hhub⟩ := dbaRemove_spec p.tables command
  cases command with
  | deleteNetwork id =>
    have hqueue : p.replica.queues false = .delete id ::
        (rest.filterMap changeOfDelete ++ p.ahead.filter (fun x => x.isWrite = false)) := by
      simp [replica, queue, hq, changeOfDelete]
    have hold : p.overtakes false (.delete id) = false := by
      simpa [inOrder, hq, changeOfDelete] using hok
    refine step_of_eq (.takes hqueue (older_of_overtakes hold))
      (Replica.ext rfl (funext hmade) ?_ (funext fun b => ?_) rfl rfl ?_ ?_)
    · simp [replica, settle, changeOfDelete]
    · rcases b with _ | _ <;> simp [replica, queue, ahead]
    · simp [replica, hhub, hubsOfDelete]
    · simp [replica, hubDeletions, hq, hubsOfDelete, List.filterMap_cons]
  | deleteAllHubByNetwork id =>
    have hcascades : p.replica.cascades = id :: (rest.filterMap hubsOfDelete ++
        (p.commands.filterMap hubsOfCommand ++ p.netChan.filterMap NetworkChanged.hubsOf)) := by
      simp [replica, hubDeletions, hq, hubsOfDelete]
    refine step_of_eq (.cascades hcascades)
      (Replica.ext rfl (funext hmade) ?_ (funext fun b => ?_) rfl rfl ?_ ?_)
    · simp [replica, settle, changeOfDelete]
    · rcases b with _ | _ <;> simp [replica, queue, ahead, hq, changeOfDelete, List.filterMap_cons]
    · simp [replica, hhub, hubsOfDelete, List.filter_map, Function.comp_def]
    · simp [replica, hubDeletions]
  | deleteHub id =>
    refine moves_of_eq (Replica.ext rfl (funext hmade) ?_ (funext fun b => ?_) rfl rfl ?_ ?_)
    · simp [replica, settle, changeOfDelete]
    · rcases b with _ | _ <;> simp [replica, queue, ahead, hq, changeOfDelete, List.filterMap_cons]
    · simp [replica, hhub, hubsOfDelete]
    · simp [replica, hubDeletions, hq, hubsOfDelete, List.filterMap_cons]

/-- `dba_get_task` counts the networks. -/
theorem moves_dbaGet {rest : List DataCommandGet} (ht : p.total = .listening)
    (hg : p.gets = .getTotalOfNetworks :: rest) :
    Moves p.replica { p with gets := rest, total := dbaGetTotal p.tables }.replica := by
  by_cases hrows : p.tables.network.rows.length > 0
  · refine moves_of_eq (Replica.ext rfl rfl rfl rfl ?_ rfl rfl rfl)
    simp [replica, unread, ht, hg, dbaGetTotal, hrows, Nat.add_assoc]
  · have hnil : p.tables.network.rows = [] := by simpa using hrows
    have hunread : p.replica.unread =
        p.commands.count .getTotalOfNetworks + rest.length + 1 := by
      simp [replica, unread, ht, hg, Nat.add_assoc]
    have hnone : ∀ id, p.replica.stored id = none := fun id => by
      simp [replica, Tables.activeOf, Keyed.get, hnil]
    refine step_of_eq (.skips hunread hnone) (Replica.ext rfl rfl rfl rfl ?_ rfl rfl rfl)
    simp [replica, unread, dbaGetTotal, hnil]

/-- Then it reads the networks that it counted. -/
theorem moves_getNetworks (ht : p.total = .networks) :
    Moves p.replica
      { p with
        total := .countHubs
        batch := p.batch ++ [Batch.network p.tables.network.rows] }.replica := by
  have hunread : p.replica.unread =
      p.commands.count .getTotalOfNetworks + p.gets.length + 1 := by
    simp [replica, unread, ht]
  refine step_of_eq (.reads hunread
    (p.tables.network.rows.map (fun row => (row.idNetwork, row.active))) (fun id hid => ?_))
    (Replica.ext rfl rfl rfl rfl ?_ ?_ rfl rfl)
  · have hget : p.tables.network.get id = none := Keyed.get_eq_none.mpr (by simpa using hid)
    simp [replica, Tables.activeOf, hget]
  · simp [replica, unread]
  · simp [replica, loads, Batch.networkRows]

/-- A step in order is a step of the replica. -/
theorem moves_of_step {idEdge : String} {i : Label} (h : (machine idEdge).step p i = some p')
    (hok : p.inOrder i = true) : Moves p.replica p'.replica := by
  cases move_of_step h with
  | server msg => exact moves_of_eq rfl
  | linkage request => exact moves_of_eq rfl
  | @adminServer now msg rest hq =>
    exact moves_enact (p := { p with fromServer := rest }) (adminServer_spec _ _ _ _)
  | @adminHub request rest hq =>
    exact moves_enact (p := { p with fromHub := rest }) (.inl (adminHub_spec _ _))
  | adminBatch hq => exact moves_adminBatch hq hok
  | dbaNetwork hq => exact moves_dbaNetwork hq
  | @dbaHub change rest hq => exact moves_dbaHub change rest
  | dataService hq => exact moves_dataService hq
  | dbaInsert hi hq => exact moves_dbaInsert hq hok
  | dbaInsertHub hi => exact moves_dbaInsertHub hi hok
  | dbaRemove hq => exact moves_dbaRemove hq hok
  | dbaGet ht hg => exact moves_dbaGet ht hg
  | getNetworks ht => exact moves_getNetworks ht
  | countHubs ht =>
    refine moves_of_eq (Replica.ext rfl rfl rfl rfl ?_ rfl rfl rfl)
    by_cases hrows : p.tables.hub.rows.length > 0 <;> simp [replica, unread, ht, hrows]
  | getHubs ht =>
    refine moves_of_eq (Replica.ext rfl rfl rfl rfl ?_ ?_ rfl rfl)
    · simp [replica, unread, ht]
    · simp [replica, loads, Batch.networkRows, List.filterMap_cons]

end Refinement

/-! ## The law -/

namespace Sync

/-- All channels are empty. -/
def Quiet (p : Sync) : Prop :=
  p.fromServer = [] ∧ p.fromHub = [] ∧ p.batch = [] ∧ p.netChan = [] ∧ p.hubChan = [] ∧
    p.commands = [] ∧ p.inserts = [] ∧ p.deletes = [] ∧ p.gets = []

instance (p : Sync) : Decidable p.Quiet :=
  inferInstanceAs (Decidable (_ ∧ _))

/-- No task of the database is between two statements of a command. -/
def Idle (p : Sync) : Prop := p.inserting = none ∧ p.total = .listening

instance (p : Sync) : Decidable p.Idle :=
  inferInstanceAs (Decidable (_ ∧ _))

/-- The rows of table `network` are the networks in memory, and each row of
table `hub` has its network. -/
def Agrees (p : Sync) : Prop :=
  (∀ id active, { idNetwork := id, active := active } ∈ p.tables.network.rows ↔
    ∃ network, p.manager.networks.lookup id = some network ∧ network.active = active) ∧
  ∀ hub ∈ p.tables.hub.rows, ∃ row ∈ p.tables.network.rows, row.idNetwork = hub.networkId

end Sync

section Law

open Sync

theorem changes_plain (c : NetworkChanged) : networkChanges.Keeps c ∨ networkChanges.Sets c := by
  cases c with
  | insert row => exact .inl (fun active => rfl)
  | update row => exact .inr (fun _ _ => rfl)
  | delete id => exact .inr (fun _ _ => rfl)

/-- At the start all that is stored has still to be loaded. -/
theorem coherent_start (idEdge : String) {tables : Tables}
    (h : ∀ row ∈ tables.hub.rows, tables.activeOf row.networkId ≠ none) :
    (start idEdge tables).replica.Coherent networkChanges NetworkChanged.isWrite where
  queued := fun b => by rcases b with _ | _ <;> rfl
  known := fun id => by
    by_cases hid : tables.activeOf id = none
    · exact .inl hid
    · exact .inr ⟨hid, by simp [replica, start]⟩
  loading := .inl ⟨rfl, rfl⟩
  cascading := by
    intro id hid
    obtain ⟨row, hrow, rfl⟩ := List.mem_map.mp hid
    exact .inl (h row hrow)

/-- What the tables say at rest is what the claim of agreement says. -/
theorem agrees_of_stored {p : Sync} (hnetworks : ∀ id, p.tables.activeOf id = p.manager.activeOf id)
    (hhubs : ∀ row ∈ p.tables.hub.rows, p.tables.activeOf row.networkId ≠ none) : p.Agrees := by
  constructor
  · intro id active
    rw [← Tables.activeOf_eq_some, hnetworks]
    simp [NetworkManager.activeOf]
  · intro hub hhub
    obtain ⟨active, hactive⟩ := Option.ne_none_iff_exists'.mp (hhubs hub hhub)
    exact ⟨_, Tables.activeOf_eq_some.mp hactive, rfl⟩

/-- Memory and database agree whenever the system is at rest, in every run
that makes the changes of each network in their order. -/
theorem memory_and_database_agree (idEdge : String) (t : List (Sync × Label)) (p : Sync)
    (run : (machine idEdge).Run t p) (hok : Machine.Meets (fun p i => p.inOrder i = true) t) :
    ∀ x ∈ Machine.visited t p, x.Quiet → x.Idle → x.Agrees := by
  have hlaw := run.invariant_visited
    (fun p => p.replica.Coherent networkChanges NetworkChanged.isWrite)
    (fun p i => p.inOrder i = true)
    (fun p hp => by
      obtain ⟨tables, hhubs, rfl⟩ := hp
      exact coherent_start idEdge hhubs)
    (fun p i p' hp hi h => Replica.coherent_step changes_plain hp (moves_of_step h hi))
    hok
  rintro x hx ⟨-, -, hbatch, hnet, -, hcommands, hinserts, hdeletes, hgets⟩ ⟨-, htotal⟩
  have hqueues : ∀ b, x.replica.queues b = [] := fun b => by
    rcases b with _ | _ <;> simp [replica, queue, ahead, hinserts, hdeletes, hcommands, hnet]
  obtain ⟨hnetworks, hhubs⟩ := Replica.agree_of_coherent (hlaw x hx) hqueues
    (by simp [replica, unread, hcommands, hgets, htotal])
    (by simp [replica, loads, hbatch])
    (by simp [replica, hubDeletions, hcommands, hdeletes, hnet])
  exact agrees_of_stored hnetworks
    (fun row hrow => hhubs row.networkId (List.mem_map_of_mem hrow))

/-- A message of the server about network `n`. -/
def networkMsg (deleteNetwork : Bool) : ServerMessage :=
  .network
    { metadata := { senderUserId := "server0", destinationId := "edge", timestamp := default }
      idNetwork := "n", nameNetwork := "n", active := true, deleteNetwork := deleteNetwork }

/-- The server creates a network and deletes it, and the task that removes is
faster than the one that inserts. -/
def removedFirst : List Label :=
  [.dataService, .dbaGet, .server (networkMsg false), .adminServer default,
    .server (networkMsg true), .adminServer default, .dbaNetwork, .dbaNetwork, .dataService,
    .dataService, .dataService, .dbaRemove, .dbaRemove, .dbaInsert]

theorem memory_and_database_can_disagree :
    ¬ ∀ (idEdge : String) (t : List (Sync × Label)) (p : Sync), (machine idEdge).Run t p →
      ∀ x ∈ Machine.visited t p, x.Quiet → x.Agrees := by
  intro h
  have hinit : (machine "edge").init (start "edge" Tables.empty) :=
    ⟨Tables.empty, by simp [Tables.empty, Keyed.empty], rfl⟩
  have hrun := Machine.run_of_final removedFirst hinit (by decide +kernel)
  have hagrees := h _ _ _ hrun _ (Machine.last_mem_visited _ _)
    (by decide +kernel)
  have hrow : { idNetwork := "n", active := true } ∈
      (((machine "edge").final (start "edge" Tables.empty) removedFirst).get
        (by decide +kernel)).tables.network.rows := by decide +kernel
  obtain ⟨network, hnetwork, -⟩ := (hagrees.1 "n" true).mp hrow
  have hmemory : ((((machine "edge").final (start "edge" Tables.empty) removedFirst).get
      (by decide +kernel)).manager.networks.lookup "n").isSome = false := by decide +kernel
  rw [hnetwork] at hmemory
  cases hmemory

/-- A network with its hub, from an earlier run. -/
def storedTables : Tables where
  network := ⟨[{ idNetwork := "m", active := true }], by decide⟩
  hub := ⟨[{ id := "h", deviceName := "d", networkId := "m" }], by decide⟩

/-- The load at the start, and a network that is created after it. -/
def loadedAndCreated : List Label :=
  [.dataService, .dbaGet, .dbaGetNext, .dbaGetNext, .dbaGetNext, .adminBatch, .adminBatch,
    .server (networkMsg false), .adminServer default, .dbaNetwork, .dataService, .dbaInsert,
    .server (networkMsg false)]

theorem memory_and_database_agree_after_the_load :
    let t := (machine "edge").trace (start "edge" storedTables) loadedAndCreated
    (∃ s ∈ t, s.1.Quiet ∧ s.1.Idle ∧ s.1.tables.network.rows.length = 2) ∧
      ∀ s ∈ t, s.1.Quiet → s.1.Idle → s.1.Agrees := by
  have hinit : (machine "edge").init (start "edge" storedTables) :=
    ⟨storedTables, by decide +kernel, rfl⟩
  have hrun := Machine.run_of_final loadedAndCreated hinit (by decide +kernel)
  have hall := memory_and_database_agree "edge" _ _ hrun (by decide +kernel)
  exact ⟨by decide +kernel,
    fun s hs => hall s.1 (Machine.mem_visited hs _)⟩

end Law

end EdgeGateway.Networks
