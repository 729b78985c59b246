-- Every step of the tasks between the server and the database, read backwards:
-- which message was taken, and what the state is without it. A law about runs
-- is then a case analysis over these moves, and unfolds no task again.
import EdgeGateway.Network.Sync

namespace EdgeGateway.Networks

open EdgeGateway.Lib EdgeGateway.Message EdgeGateway.Database

/-! ## The task that a command is for -/

def forInsert : DataServiceCommand → Option DataCommandInsert
  | .newHub row => some (.insertHub row)
  | .newNetwork row => some (.insertNetwork row)
  | .updateNetwork row => some (.updateNetwork row)
  | _ => none

def forDelete : DataServiceCommand → Option DataCommandDelete
  | .deleteHub id => some (.deleteHub id)
  | .deleteNetwork id => some (.deleteNetwork id)
  | .deleteAllHubByNetwork id => some (.deleteAllHubByNetwork id)
  | _ => none

def forGet : DataServiceCommand → Option DataCommandGet
  | .getTotalOfNetworks => some .getTotalOfNetworks
  | _ => none

namespace Sync

/-- The command goes to its task, and stays at the end of its queue. -/
def route (p : Sync) (command : DataServiceCommand) : Sync :=
  { p with
    inserts := p.inserts ++ (forInsert command).toList
    deletes := p.deletes ++ (forDelete command).toList
    gets := p.gets ++ (forGet command).toList }

/-! ## Moves -/

/-- What a step takes and what it leaves, by its label. -/
inductive Move (idEdge : String) (p : Sync) : Label → Sync → Prop where
  | server (msg : ServerMessage) :
    Move idEdge p (.server msg) { p with fromServer := p.fromServer ++ [msg] }
  | linkage (request : LinkageRequest) :
    Move idEdge p (.linkage request) { p with fromHub := p.fromHub ++ [request] }
  | adminServer {now : Int64} {msg : ServerMessage} {rest : List ServerMessage}
    (h : p.fromServer = msg :: rest) :
    Move idEdge p (.adminServer now)
      ({ p with fromServer := rest }.enact (Networks.adminServer idEdge now p.manager msg))
  | adminHub {request : LinkageRequest} {rest : List LinkageRequest}
    (h : p.fromHub = request :: rest) :
    Move idEdge p .adminHub
      ({ p with fromHub := rest }.enact (Networks.adminHub p.manager request))
  | adminBatch {batch : Batch} {rest : List Batch} (h : p.batch = batch :: rest) :
    Move idEdge p .adminBatch
      ({ p with batch := rest }.enact (Networks.adminBatch p.manager batch))
  | dbaNetwork {change : NetworkChanged} {rest : List NetworkChanged}
    (h : p.netChan = change :: rest) :
    Move idEdge p .dbaNetwork
      { p with netChan := rest, commands := p.commands ++ change.commands }
  | dbaHub {change : HubChanged} {rest : List HubChanged} (h : p.hubChan = change :: rest) :
    Move idEdge p .dbaHub { p with hubChan := rest, commands := p.commands ++ change.commands }
  | dataService {command : DataServiceCommand} {rest : List DataServiceCommand}
    (h : p.commands = command :: rest) :
    Move idEdge p .dataService ({ p with commands := rest }.route command)
  | dbaInsert {command : DataCommandInsert} {rest : List DataCommandInsert}
    (hi : p.inserting = none) (h : p.inserts = command :: rest) :
    Move idEdge p .dbaInsert
      { p with
        inserts := rest
        tables := (Database.dbaInsert p.tables command).1
        inserting := (Database.dbaInsert p.tables command).2.1
        log := p.settle true (changeOfInsert command) }
  | dbaInsertHub {row : HubRow} (h : p.inserting = some row) :
    Move idEdge p .dbaInsertHub
      { p with inserting := none, tables := (Database.dbaInsertHub p.tables row).1 }
  | dbaRemove {command : DataCommandDelete} {rest : List DataCommandDelete}
    (h : p.deletes = command :: rest) :
    Move idEdge p .dbaRemove
      { p with
        deletes := rest
        tables := (Database.dbaRemove p.tables command).1
        log := p.settle false (changeOfDelete command) }
  | dbaGet {rest : List DataCommandGet} (ht : p.total = .listening)
    (h : p.gets = .getTotalOfNetworks :: rest) :
    Move idEdge p .dbaGet { p with gets := rest, total := dbaGetTotal p.tables }
  | getNetworks (h : p.total = .networks) :
    Move idEdge p .dbaGetNext
      { p with total := .countHubs, batch := p.batch ++ [.network p.tables.network.rows] }
  | countHubs (h : p.total = .countHubs) :
    Move idEdge p .dbaGetNext
      { p with total := if p.tables.hub.rows.length > 0 then .hubs else .listening }
  | getHubs (h : p.total = .hubs) :
    Move idEdge p .dbaGetNext
      { p with total := .listening, batch := p.batch ++ [.hub p.tables.hub.rows] }

section Inversion

variable {idEdge : String} {p p' : Sync}

/-- Answers without a batch change nothing. -/
theorem answer_of_none {responses : List DataServiceResponse}
    (h : responses.filterMap batchOf = []) : p.answer responses = p := by
  unfold answer
  rw [h, List.append_nil]

theorem batch_dbaInsert (t : Tables) (command : DataCommandInsert) :
    (Database.dbaInsert t command).2.2.filterMap batchOf = [] := by
  cases command with
  | insertNetwork row => rcases h : t.network.insert row <;> simp [Database.dbaInsert, h, batchOf]
  | updateNetwork row => rfl
  | insertHub row => rfl

theorem batch_dbaInsertHub (t : Tables) (row : HubRow) :
    (Database.dbaInsertHub t row).2.filterMap batchOf = [] := by
  unfold Database.dbaInsertHub
  split <;> rfl

theorem batch_dbaRemove (t : Tables) (command : DataCommandDelete) :
    (Database.dbaRemove t command).2.filterMap batchOf = [] := by
  cases command with
  | deleteNetwork id =>
    simp only [Database.dbaRemove, List.filterMap_cons, batchOf]
    split <;> rfl
  | deleteAllHubByNetwork id => rfl
  | deleteHub id => rfl

theorem move_dataService (h : p.dataService = some p') : Move idEdge p .dataService p' := by
  unfold dataService at h
  rcases hq : p.commands with _ | ⟨command, rest⟩
  · simp [hq] at h
  · have hmove : Move idEdge p .dataService ({ p with commands := rest }.route command) :=
      .dataService hq
    rw [hq] at h
    cases command <;> simp only [Option.some.injEq] at h <;> subst h <;>
      simpa [route, forInsert, forDelete, forGet] using hmove

theorem move_dbaInsert (h : p.dbaInsert = some p') : Move idEdge p .dbaInsert p' := by
  unfold dbaInsert at h
  rcases hi : p.inserting with _ | row <;> rcases hq : p.inserts with _ | ⟨command, rest⟩ <;>
    simp only [hi, hq, Option.some.injEq, reduceCtorEq] at h
  rw [answer_of_none (batch_dbaInsert p.tables command)] at h
  exact h ▸ .dbaInsert hi hq

theorem move_dbaInsertHub (h : p.dbaInsertHub = some p') : Move idEdge p .dbaInsertHub p' := by
  unfold dbaInsertHub at h
  rcases hi : p.inserting with _ | row <;> simp only [hi, Option.some.injEq, reduceCtorEq] at h
  rw [answer_of_none (batch_dbaInsertHub p.tables row)] at h
  exact h ▸ .dbaInsertHub hi

theorem move_dbaRemove (h : p.dbaRemove = some p') : Move idEdge p .dbaRemove p' := by
  unfold dbaRemove at h
  rcases hq : p.deletes with _ | ⟨command, rest⟩ <;>
    simp only [hq, Option.some.injEq, reduceCtorEq] at h
  rw [answer_of_none (batch_dbaRemove p.tables command)] at h
  exact h ▸ .dbaRemove hq

theorem move_dbaGetNext (h : p.dbaGetNext = some p') : Move idEdge p .dbaGetNext p' := by
  unfold dbaGetNext at h
  rcases ht : p.total with _ | _ | _ | _ <;>
    simp only [ht, Database.dbaGetNext, Option.some.injEq, reduceCtorEq] at h
  · exact h ▸ .getNetworks ht
  · rw [answer_of_none rfl] at h
    exact h ▸ .countHubs ht
  · exact h ▸ .getHubs ht

/-- Every step is a move. -/
theorem move_of_step {i : Label} (h : p.step idEdge i = some p') : Move idEdge p i p' := by
  cases i with
  | server msg => exact Option.some.inj h ▸ .server msg
  | linkage request => exact Option.some.inj h ▸ .linkage request
  | adminServer now =>
    unfold step adminServer at h
    rcases hq : p.fromServer with _ | ⟨msg, rest⟩ <;>
      simp only [hq, Option.some.injEq, reduceCtorEq] at h
    exact h ▸ .adminServer hq
  | adminHub =>
    unfold step adminHub at h
    rcases hq : p.fromHub with _ | ⟨request, rest⟩ <;>
      simp only [hq, Option.some.injEq, reduceCtorEq] at h
    exact h ▸ .adminHub hq
  | adminBatch =>
    unfold step adminBatch at h
    rcases hq : p.batch with _ | ⟨batch, rest⟩ <;>
      simp only [hq, Option.some.injEq, reduceCtorEq] at h
    exact h ▸ .adminBatch hq
  | dbaNetwork =>
    unfold step dbaNetwork at h
    rcases hq : p.netChan with _ | ⟨change, rest⟩ <;>
      simp only [hq, Option.some.injEq, reduceCtorEq] at h
    exact h ▸ .dbaNetwork hq
  | dbaHub =>
    unfold step dbaHub at h
    rcases hq : p.hubChan with _ | ⟨change, rest⟩ <;>
      simp only [hq, Option.some.injEq, reduceCtorEq] at h
    exact h ▸ .dbaHub hq
  | dataService => exact move_dataService h
  | dbaInsert => exact move_dbaInsert h
  | dbaInsertHub => exact move_dbaInsertHub h
  | dbaRemove => exact move_dbaRemove h
  | dbaGet =>
    unfold step dbaGet at h
    rcases ht : p.total with _ | _ | _ | _ <;> rcases hg : p.gets with _ | ⟨⟨⟩, rest⟩ <;>
      simp only [ht, hg, Option.some.injEq, reduceCtorEq] at h
    exact h ▸ .dbaGet ht hg
  | dbaGetNext => exact move_dbaGetNext h

end Inversion

/-! ## What a step sends -/

/-- What `network_admin` tells the core. -/
def toCore (idEdge : String) (p : Sync) : Label → List NetworkServiceResponse
  | .adminServer now =>
    match p.fromServer with
    | msg :: _ => (Networks.adminServer idEdge now p.manager msg).toCore
    | [] => []
  | .adminHub =>
    match p.fromHub with
    | request :: _ => (Networks.adminHub p.manager request).toCore
    | [] => []
  | .adminBatch =>
    match p.batch with
    | batch :: _ => (Networks.adminBatch p.manager batch).toCore
    | [] => []
  | _ => []

/-- What the tasks of the database answer. -/
def responses (p : Sync) : Label → List DataServiceResponse
  | .dbaInsert =>
    match p.inserts with
    | command :: _ => (Database.dbaInsert p.tables command).2.2
    | [] => []
  | .dbaInsertHub =>
    match p.inserting with
    | some row => (Database.dbaInsertHub p.tables row).2
    | none => []
  | .dbaRemove =>
    match p.deletes with
    | command :: _ => (Database.dbaRemove p.tables command).2
    | [] => []
  | .dbaGetNext =>
    match Database.dbaGetNext p.tables p.total with
    | some (_, responses) => responses
    | none => []
  | _ => []

/-- A command whose statement has failed is done with. -/
def skipInsert (p : Sync) (command : DataCommandInsert) (rest : List DataCommandInsert) : Sync :=
  { p with inserts := rest, log := p.settle true (changeOfInsert command) }

def skipDelete (p : Sync) (command : DataCommandDelete) (rest : List DataCommandDelete) : Sync :=
  { p with deletes := rest, log := p.settle false (changeOfDelete command) }

/-- The hub whose row is stored. -/
def stores (p : Sync) : Label → Option HubRow
  | .dbaInsertHub => p.inserting.filter (fun row => (p.tables.hub.insert row).isSome)
  | _ => none

end Sync

end EdgeGateway.Networks
