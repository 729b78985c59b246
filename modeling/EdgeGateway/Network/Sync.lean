-- The way of a network from the server to memory and to the database: the two
-- tasks of the network service, `DataService`, the three tasks of the database
-- and the load at the start. Core and the services only pass on: a channel
-- they read and the one they write are one queue here.
import EdgeGateway.Lib.Machine
import EdgeGateway.Network.Logic

namespace EdgeGateway.Networks

open EdgeGateway.Lib EdgeGateway.Message EdgeGateway.Database

/-! ## The configuration -/

/-- The tasks and the queues between them. `inserting` is the hub that
`dba_insert_task` inserts next, `total` where `dba_get_task` is with its
command. `log` has the changes that are not in the database yet, the oldest
first; no task reads it. -/
structure Sync where
  fromServer : List ServerMessage
  fromHub : List LinkageRequest
  batch : List Batch
  manager : NetworkManager
  netChan : List NetworkChanged
  hubChan : List HubChanged
  commands : List DataServiceCommand
  inserts : List DataCommandInsert
  deletes : List DataCommandDelete
  gets : List DataCommandGet
  inserting : Option HubRow
  total : TotalStage
  tables : Tables
  log : List NetworkChanged

/-- A step is a message from outside, or a task that goes on. The clock goes
into the metadata of what `network_admin` sends. -/
inductive Sync.Label where
  | server (msg : ServerMessage)
  | linkage (request : LinkageRequest)
  | adminServer (now : Int64)
  | adminHub
  | adminBatch
  | dbaNetwork
  | dbaHub
  | dataService
  | dbaInsert
  | dbaInsertHub
  | dbaRemove
  | dbaGet
  | dbaGetNext
  deriving Repr

/-- The rows that the core sends back to the network service. -/
def batchOf : DataServiceResponse → Option Batch
  | .batchNetwork rows => some (.network rows)
  | .batchHub rows => some (.hub rows)
  | _ => none

/-! ## The changes of the networks -/

/-- The changes that `dba_insert_task` makes; `dba_remove_task` makes the
others. -/
def NetworkChanged.isWrite : NetworkChanged → Bool
  | .delete _ => false
  | _ => true

/-- The change of a network that a command makes. -/
def changeOfInsert : DataCommandInsert → Option NetworkChanged
  | .insertNetwork row => some (.insert row)
  | .updateNetwork row => some (.update row)
  | .insertHub _ => none

def changeOfDelete : DataCommandDelete → Option NetworkChanged
  | .deleteNetwork id => some (.delete id)
  | _ => none

namespace Sync

/-! ## Steps -/

/-- What is stored when the gateway starts; the core has asked for it. -/
def start (idEdge : String) (tables : Tables) : Sync where
  fromServer := []
  fromHub := []
  batch := []
  manager := NetworkManager.newEmpty idEdge
  netChan := []
  hubChan := []
  commands := [.getTotalOfNetworks]
  inserts := []
  deletes := []
  gets := []
  inserting := none
  total := .listening
  tables := tables
  log := []

/-- A turn of `network_admin`. -/
def enact (p : Sync) (d : Decision) : Sync :=
  { p with
    manager := d.manager
    netChan := p.netChan ++ d.netChan
    hubChan := p.hubChan ++ d.hubChan
    log := p.log ++ d.netChan }

def adminServer (idEdge : String) (now : Int64) (p : Sync) : Option Sync :=
  match p.fromServer with
  | [] => none
  | msg :: rest =>
    some ({ p with fromServer := rest }.enact (Networks.adminServer idEdge now p.manager msg))

def adminHub (p : Sync) : Option Sync :=
  match p.fromHub with
  | [] => none
  | request :: rest =>
    some ({ p with fromHub := rest }.enact (Networks.adminHub p.manager request))

def adminBatch (p : Sync) : Option Sync :=
  match p.batch with
  | [] => none
  | batch :: rest =>
    some ({ p with batch := rest }.enact (Networks.adminBatch p.manager batch))

def dbaNetwork (p : Sync) : Option Sync :=
  match p.netChan with
  | [] => none
  | change :: rest => some { p with netChan := rest, commands := p.commands ++ change.commands }

def dbaHub (p : Sync) : Option Sync :=
  match p.hubChan with
  | [] => none
  | change :: rest => some { p with hubChan := rest, commands := p.commands ++ change.commands }

/-- `DataService` gives each command to the task it is for. -/
def dataService (p : Sync) : Option Sync :=
  match p.commands with
  | [] => none
  | command :: rest =>
    let p := { p with commands := rest }
    match command with
    | .newHub row => some { p with inserts := p.inserts ++ [.insertHub row] }
    | .newNetwork row => some { p with inserts := p.inserts ++ [.insertNetwork row] }
    | .updateNetwork row => some { p with inserts := p.inserts ++ [.updateNetwork row] }
    | .deleteHub id => some { p with deletes := p.deletes ++ [.deleteHub id] }
    | .deleteNetwork id => some { p with deletes := p.deletes ++ [.deleteNetwork id] }
    | .deleteAllHubByNetwork id =>
      some { p with deletes := p.deletes ++ [.deleteAllHubByNetwork id] }
    | .getTotalOfNetworks => some { p with gets := p.gets ++ [.getTotalOfNetworks] }

/-- The answers of a task of the database; only the batches come back. -/
def answer (p : Sync) (responses : List DataServiceResponse) : Sync :=
  { p with batch := p.batch ++ responses.filterMap batchOf }

/-- A change that has been made leaves the log: it is the oldest one of its
task. -/
def settle (p : Sync) (write : Bool) : Option NetworkChanged → List NetworkChanged
  | some _ => p.log.eraseP (fun c => c.isWrite = write)
  | none => p.log

def dbaInsert (p : Sync) : Option Sync :=
  match p.inserting, p.inserts with
  | none, command :: rest =>
    let (tables, inserting, responses) := Database.dbaInsert p.tables command
    some ({ p with
      inserts := rest, tables, inserting
      log := p.settle true (changeOfInsert command) }.answer responses)
  | _, _ => none

def dbaInsertHub (p : Sync) : Option Sync :=
  match p.inserting with
  | none => none
  | some row =>
    let (tables, responses) := Database.dbaInsertHub p.tables row
    some ({ p with inserting := none, tables }.answer responses)

def dbaRemove (p : Sync) : Option Sync :=
  match p.deletes with
  | [] => none
  | command :: rest =>
    let (tables, responses) := Database.dbaRemove p.tables command
    some ({ p with
      deletes := rest, tables
      log := p.settle false (changeOfDelete command) }.answer responses)

def dbaGet (p : Sync) : Option Sync :=
  match p.total, p.gets with
  | .listening, .getTotalOfNetworks :: rest =>
    some { p with gets := rest, total := dbaGetTotal p.tables }
  | _, _ => none

def dbaGetNext (p : Sync) : Option Sync :=
  match Database.dbaGetNext p.tables p.total with
  | some (total, responses) => some ({ p with total }.answer responses)
  | none => none

def step (idEdge : String) (p : Sync) : Label → Option Sync
  | .server msg => some { p with fromServer := p.fromServer ++ [msg] }
  | .linkage request => some { p with fromHub := p.fromHub ++ [request] }
  | .adminServer now => p.adminServer idEdge now
  | .adminHub => p.adminHub
  | .adminBatch => p.adminBatch
  | .dbaNetwork => p.dbaNetwork
  | .dbaHub => p.dbaHub
  | .dataService => p.dataService
  | .dbaInsert => p.dbaInsert
  | .dbaInsertHub => p.dbaInsertHub
  | .dbaRemove => p.dbaRemove
  | .dbaGet => p.dbaGet
  | .dbaGetNext => p.dbaGetNext

/-- The gateway over tables whose hubs are of networks that exist. -/
def machine (idEdge : String) : Machine Sync Label where
  init := fun p => ∃ tables : Tables,
    (∀ row ∈ tables.hub.rows, tables.activeOf row.networkId ≠ none) ∧ p = start idEdge tables
  step := step idEdge

end Sync

end EdgeGateway.Networks
