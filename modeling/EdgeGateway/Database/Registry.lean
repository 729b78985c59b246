-- The networks and hubs in the database: the two tables, the commands that
-- `DataService` splits over three tasks, and what each task does with one.
-- SQLite is up: a statement fails for a taken key, or because the table does
-- not have a column that it names.
import EdgeGateway.Lib.Keyed
import EdgeGateway.Network.Domain

namespace EdgeGateway.Database

open EdgeGateway.Lib EdgeGateway.Networks

/-! ## Tables -/

/-- `network` with primary key `id_network`, `hub` with primary key `id`. -/
structure Tables where
  network : Keyed NetworkRow.idNetwork
  hub : Keyed HubRow.id

namespace Tables

def empty : Tables := ⟨Keyed.empty, Keyed.empty⟩

/-- What table `network` says about a network: its column `active`. -/
def activeOf (t : Tables) (id : String) : Option Bool := (t.network.get id).map NetworkRow.active

theorem activeOf_eq_some {t : Tables} {id : String} {active : Bool} :
    t.activeOf id = some active ↔
      { idNetwork := id, active := active } ∈ t.network.rows := by
  unfold activeOf
  rw [Option.map_eq_some_iff]
  constructor
  · rintro ⟨row, hget, rfl⟩
    obtain ⟨hrow, rfl⟩ := Keyed.get_eq_some.mp hget
    exact hrow
  · intro hrow
    exact ⟨_, Keyed.get_eq_some.mpr ⟨hrow, rfl⟩, rfl⟩

end Tables

/-! ## Commands -/

/-- The commands of `DataService` that are about networks and hubs. -/
inductive DataServiceCommand where
  | newHub (row : HubRow)
  | deleteHub (id : String)
  | newNetwork (row : NetworkRow)
  | deleteNetwork (id : String)
  | updateNetwork (row : NetworkRow)
  | deleteAllHubByNetwork (id : String)
  | getTotalOfNetworks
  deriving Repr, DecidableEq

inductive DataCommandInsert where
  | insertNetwork (row : NetworkRow)
  | updateNetwork (row : NetworkRow)
  | insertHub (row : HubRow)
  deriving Repr, DecidableEq

inductive DataCommandDelete where
  | deleteNetwork (id : String)
  | deleteAllHubByNetwork (id : String)
  | deleteHub (id : String)
  deriving Repr, DecidableEq

inductive DataCommandGet where
  | getTotalOfNetworks
  deriving Repr, DecidableEq

/-- What the tasks answer about networks and hubs. -/
inductive DataServiceResponse where
  | batchNetwork (rows : List NetworkRow)
  | batchHub (rows : List HubRow)
  | noNetworks
  | thereAreNetworks
  | networksUpdated (id : String) (code : UInt32)
  | hubInserted (id : String)
  deriving Repr, DecidableEq

/-! ## `dba_insert_task` -/

/-- A command of `dba_insert_task`: the tables after it, the hub that is to be
inserted next, and the answers. A hub is inserted by a second statement, once
the first has counted a network. -/
def dbaInsert (t : Tables) : DataCommandInsert → Tables × Option HubRow × List DataServiceResponse
  | .insertNetwork row =>
    match t.network.insert row with
    | some network => ({ t with network }, none, [.networksUpdated row.idNetwork 100])
    | none => (t, none, [.networksUpdated row.idNetwork 101])
  | .updateNetwork row =>
    ({ t with network := t.network.upsert row }, none,
      [.networksUpdated row.idNetwork (if row.active then 300 else 400)])
  | .insertHub row => (t, if t.network.rows.length > 0 then some row else none, [])

def dbaInsertHub (t : Tables) (row : HubRow) : Tables × List DataServiceResponse :=
  match t.hub.insert row with
  | some hub => ({ t with hub }, [.hubInserted row.id, .thereAreNetworks])
  | none => (t, [])

/-! ## `dba_remove_task` -/

/-- The statement of `DeleteHub` names the column `sender_user_id`, which table
`hub` does not have. -/
def dbaRemove (t : Tables) : DataCommandDelete → Tables × List DataServiceResponse
  | .deleteNetwork id =>
    let network := t.network.deleteWhere (fun row => row.idNetwork = id)
    ({ t with network },
      .networksUpdated id 200 :: if network.rows.length = 0 then [.noNetworks] else [])
  | .deleteAllHubByNetwork id =>
    ({ t with hub := t.hub.deleteWhere (fun row => row.networkId = id) }, [])
  | .deleteHub _ => (t, [])

/-! ## Statements that fail -/

/-- What `dba_insert_task` answers when SQLite refuses the statement. A hub
that cannot be inserted is only logged. -/
def dbaInsertError : DataCommandInsert → List DataServiceResponse
  | .insertNetwork row => [.networksUpdated row.idNetwork 101]
  | .updateNetwork row => [.networksUpdated row.idNetwork (if row.active then 301 else 401)]
  | .insertHub _ => []

/-- What `dba_remove_task` answers; the networks are counted after it all the
same. -/
def dbaRemoveError (t : Tables) : DataCommandDelete → List DataServiceResponse
  | .deleteNetwork id =>
    .networksUpdated id 201 :: if t.network.rows.length = 0 then [.noNetworks] else []
  | .deleteAllHubByNetwork _ => []
  | .deleteHub _ => []

/-! ## `dba_get_task` -/

/-- Where `dba_get_task` is with `GetTotalOfNetworks`: each statement is one
step, and other tasks may write between them. -/
inductive TotalStage where
  | listening
  | networks
  | countHubs
  | hubs
  deriving Repr, DecidableEq

/-- The first statement of `GetTotalOfNetworks` counts the networks. -/
def dbaGetTotal (t : Tables) : TotalStage :=
  if t.network.rows.length > 0 then .networks else .listening

/-- The statements after it. -/
def dbaGetNext (t : Tables) : TotalStage → Option (TotalStage × List DataServiceResponse)
  | .listening => none
  | .networks => some (.countHubs, [.batchNetwork t.network.rows])
  | .countHubs => some (if t.hub.rows.length > 0 then .hubs else .listening, [])
  | .hubs => some (.listening, [.batchHub t.hub.rows, .thereAreNetworks])

end EdgeGateway.Database
