-- The repository of the networks, the hubs and the epoch, as its SQL statements work on
-- the rows. For any sequence of calls it answers as the tables with their primary keys do,
-- with the epoch last stored beside them; deleting one hub fails each time.
import EdgeGateway.Database.Registry
import EdgeGateway.Database.Tables
import EdgeGateway.Lib.Statements

namespace EdgeGateway.Database

open EdgeGateway.Lib EdgeGateway.Lib.Sql EdgeGateway.Networks

/-! ## The tables -/

/-- A column of type BOOLEAN is an integer. -/
def Value.toBool : Value → Option Bool
  | .integer n => some (n ≠ 0)
  | _ => none

def Value.ofBool (b : Bool) : Value := .integer (if b then 1 else 0)

def networkTable : Table NetworkRow Value where
  columns := [{ name := "id_network", notNull := false }, notNull "active"]
  inserts := [("id_network", fun data => .text data.idNetwork),
    ("active", fun data => .ofBool data.active)]
  reads := ["id_network", "active"]
  build
    | [idNetwork, active] => do
      return { idNetwork := ← idNetwork.toString, active := ← active.toBool }
    | _ => none

def hubTable : Table HubRow Value where
  columns := ["id", "network_id", "device_name"].map notNull
  inserts := [("id", fun data => .text data.id), ("network_id", fun data => .text data.networkId),
    ("device_name", fun data => .text data.deviceName)]
  reads := ["id", "device_name", "network_id"]
  build
    | [id, deviceName, networkId] => do
      return { id := ← id.toString, deviceName := ← deviceName.toString
               networkId := ← networkId.toString }
    | _ => none

/-- The row with the largest id. -/
def getBalanceEpoch (s : Store UInt32) : UInt32 :=
  ((s.rows.insertionSort (fun a b => b.1 ≤ a.1)).head?.map Prod.snd).getD 0

/-! ## The repository -/

/-- A call of the repository about networks, hubs and the epoch. -/
inductive Call where
  | insertNetwork (data : NetworkRow)
  | deleteNetwork (id : String)
  | updateNetwork (net : NetworkRow)
  | getAllNetwork
  | getNumberOfNetworks
  | insertHub (data : HubRow)
  | deleteHubNetwork (id : String)
  | deleteHub (id : String)
  | getAllHubs
  | getNumberOfHubs
  | updateEpoch (epoch : UInt32)
  | getEpoch
  deriving Repr, DecidableEq

inductive Answer where
  | done
  | failed
  | networks (rows : List NetworkRow)
  | hubs (rows : List HubRow)
  | count (n : Nat)
  | epoch (epoch : UInt32)
  deriving Repr, DecidableEq

/-- The rows as SQLite holds them. -/
structure Repository where
  network : List (Record Value)
  hub : List (Record Value)
  balanceEpoch : Store UInt32

/-- The repository after `init_schema` in an empty file. -/
def Repository.new : Repository := { network := [], hub := [], balanceEpoch := Store.new }

/-- A statement that fails leaves its table. -/
def Repository.onNetwork (r : Repository) : Option (List (Record Value)) → Repository × Answer
  | some network => ({ r with network }, .done)
  | none => (r, .failed)

def Repository.onHub (r : Repository) : Option (List (Record Value)) → Repository × Answer
  | some hub => ({ r with hub }, .done)
  | none => (r, .failed)

/-- What a call does, and its answer. -/
def Repository.call (r : Repository) : Call → Repository × Answer
  | .insertNetwork data => r.onNetwork (networkTable.insertRow "id_network" r.network data)
  | .deleteNetwork id => r.onNetwork (networkTable.deleteRows "id_network" (.text id) r.network)
  | .updateNetwork net =>
    r.onNetwork (networkTable.upsertRow "id_network" ["active"] r.network net)
  | .getAllNetwork => (r, ((networkTable.selectRows r.network).map Answer.networks).getD .failed)
  | .getNumberOfNetworks => (r, .count r.network.length)
  | .insertHub data => r.onHub (hubTable.insertRow "id" r.hub data)
  | .deleteHubNetwork id => r.onHub (hubTable.deleteRows "network_id" (.text id) r.hub)
  -- the column of the statement is not one of the table
  | .deleteHub id => r.onHub (hubTable.deleteRows "sender_user_id" (.text id) r.hub)
  | .getAllHubs => (r, ((hubTable.selectRows r.hub).map Answer.hubs).getD .failed)
  | .getNumberOfHubs => (r, .count r.hub.length)
  | .updateEpoch epoch => ({ r with balanceEpoch := r.balanceEpoch.append [epoch] }, .done)
  | .getEpoch => (r, .epoch (getBalanceEpoch r.balanceEpoch))

/-- The calls one after the other, with their answers. -/
def Repository.calls (r : Repository) : List Call → List Answer
  | [] => []
  | c :: rest => (r.call c).2 :: (r.call c).1.calls rest

/-! ## What it is for -/

/-- Two tables with their keys, and the epoch that was stored last. -/
structure Records where
  tables : Tables
  epoch : UInt32

def Records.empty : Records := { tables := Tables.empty, epoch := 0 }

def Records.call (r : Records) : Call → Records × Answer
  | .insertNetwork data =>
    match r.tables.network.insert data with
    | some network => ({ r with tables := { r.tables with network } }, .done)
    | none => (r, .failed)
  | .deleteNetwork id =>
    ({ r with tables := { r.tables with
        network := r.tables.network.deleteWhere (fun row => row.idNetwork = id) } }, .done)
  | .updateNetwork net =>
    ({ r with tables := { r.tables with network := r.tables.network.upsert net } }, .done)
  | .getAllNetwork => (r, .networks r.tables.network.rows)
  | .getNumberOfNetworks => (r, .count r.tables.network.rows.length)
  | .insertHub data =>
    match r.tables.hub.insert data with
    | some hub => ({ r with tables := { r.tables with hub } }, .done)
    | none => (r, .failed)
  | .deleteHubNetwork id =>
    ({ r with tables := { r.tables with
        hub := r.tables.hub.deleteWhere (fun row => row.networkId = id) } }, .done)
  | .deleteHub _ => (r, .failed)
  | .getAllHubs => (r, .hubs r.tables.hub.rows)
  | .getNumberOfHubs => (r, .count r.tables.hub.rows.length)
  | .updateEpoch epoch => ({ r with epoch }, .done)
  | .getEpoch => (r, .epoch r.epoch)

def Records.calls (r : Records) : List Call → List Answer
  | [] => []
  | c :: rest => (r.call c).2 :: (r.call c).1.calls rest

/-! ## The simulation -/

theorem agrees_network : Agrees networkTable "id_network" NetworkRow.idNetwork where
  accepts := by decide
  decode x := by
    obtain ⟨id, active⟩ := x
    cases active <;> rfl
  present _ := rfl
  key x y := by
    show some (Value.text x.idNetwork) = some (Value.text y.idNetwork) ↔ _
    simp

theorem agrees_hub : Agrees hubTable "id" HubRow.id where
  accepts := by decide
  decode _ := rfl
  present _ := rfl
  key x y := by
    show some (Value.text x.id) = some (Value.text y.id) ↔ _
    simp

/-- The epoch read is the last one stored: its id is larger than all before. -/
theorem getBalanceEpoch_append (s : Store UInt32) (epoch : UInt32) :
    getBalanceEpoch (s.append [epoch]) = epoch := by
  unfold getBalanceEpoch
  have hrows : (s.append [epoch]).rows = s.rows ++ [(s.next, epoch)] := rfl
  rw [hrows]
  set sorted := (s.rows ++ [(s.next, epoch)]).insertionSort (fun a b => b.1 ≤ a.1) with hsorted
  have hperm : sorted.Perm (s.rows ++ [(s.next, epoch)]) := List.perm_insertionSort _ _
  have horder : sorted.Pairwise (fun a b => b.1 ≤ a.1) := by
    rw [hsorted]
    exact List.pairwise_insertionSort _ _
  have hlast : (s.next, epoch) ∈ sorted := hperm.mem_iff.mpr (by simp)
  rcases sorted with _ | ⟨first, rest⟩
  · cases hlast
  · have hfirst : first ∈ s.rows ++ [(s.next, epoch)] := hperm.mem_iff.mp (by simp)
    rcases List.mem_append.mp hfirst with hold | hnew
    · have hbelow := s.below first hold
      rcases List.mem_cons.mp hlast with heq | hrest
      · rw [← heq] at hbelow
        exact absurd hbelow (Nat.lt_irrefl _)
      · have habove := (List.pairwise_cons.mp horder).1 _ hrest
        exact absurd (Nat.lt_of_lt_of_le hbelow habove) (Nat.lt_irrefl _)
    · rw [List.mem_singleton.mp hnew]
      rfl

/-- The rows are those of the tables, and the largest id has the epoch. -/
structure Repository.Holds (r : Repository) (a : Records) : Prop where
  network : r.network = a.tables.network.rows.map networkTable.record
  hub : r.hub = a.tables.hub.rows.map hubTable.record
  epoch : getBalanceEpoch r.balanceEpoch = a.epoch

theorem holds_call {r : Repository} {a : Records} (h : r.Holds a) (c : Call) :
    (r.call c).1.Holds (a.call c).1 ∧ (r.call c).2 = (a.call c).2 := by
  cases c with
  | insertNetwork data =>
    have hinsert := insertRow_rows agrees_network a.tables.network data
    rw [← h.network] at hinsert
    simp only [Repository.call, Records.call, hinsert]
    cases a.tables.network.insert data with
    | none => exact ⟨h, rfl⟩
    | some network => exact ⟨⟨rfl, h.hub, h.epoch⟩, rfl⟩
  | deleteNetwork id =>
    have hdelete := deleteRows_rows (t := networkTable) "id_network" (by decide) (.text id)
      (fun row => decide (row.idNetwork = id))
      (fun x => by
        show some (Value.text x.idNetwork) = _ ↔ _
        simp) a.tables.network
    rw [← h.network] at hdelete
    simp only [Repository.call, hdelete]
    exact ⟨⟨rfl, h.hub, h.epoch⟩, rfl⟩
  | updateNetwork net =>
    have hupsert := upsertRow_rows agrees_network (by decide) ["active"] (by decide)
      (by decide) a.tables.network net
    rw [← h.network] at hupsert
    simp only [Repository.call, hupsert]
    exact ⟨⟨rfl, h.hub, h.epoch⟩, rfl⟩
  | getAllNetwork =>
    simp only [Repository.call, h.network, selectRows_rows agrees_network]
    exact ⟨h, rfl⟩
  | getNumberOfNetworks =>
    simp only [Repository.call, h.network, List.length_map]
    exact ⟨h, rfl⟩
  | insertHub data =>
    have hinsert := insertRow_rows agrees_hub a.tables.hub data
    rw [← h.hub] at hinsert
    simp only [Repository.call, Records.call, hinsert]
    cases a.tables.hub.insert data with
    | none => exact ⟨h, rfl⟩
    | some hub => exact ⟨⟨h.network, rfl, h.epoch⟩, rfl⟩
  | deleteHubNetwork id =>
    have hdelete := deleteRows_rows (t := hubTable) "network_id" (by decide) (.text id)
      (fun row => decide (row.networkId = id))
      (fun x => by
        show some (Value.text x.networkId) = _ ↔ _
        simp) a.tables.hub
    rw [← h.hub] at hdelete
    simp only [Repository.call, hdelete]
    exact ⟨⟨h.network, rfl, h.epoch⟩, rfl⟩
  | deleteHub id => exact ⟨h, rfl⟩
  | getAllHubs =>
    simp only [Repository.call, h.hub, selectRows_rows agrees_hub]
    exact ⟨h, rfl⟩
  | getNumberOfHubs =>
    simp only [Repository.call, h.hub, List.length_map]
    exact ⟨h, rfl⟩
  | updateEpoch epoch => exact ⟨⟨h.network, h.hub, getBalanceEpoch_append _ _⟩, rfl⟩
  | getEpoch =>
    refine ⟨h, ?_⟩
    show Answer.epoch _ = Answer.epoch _
    rw [h.epoch]

/-- Whatever is called, the SQL answers what the tables with their keys do. -/
theorem the_repository_answers_as_its_tables (calls : List Call) :
    Repository.new.calls calls = Records.empty.calls calls := by
  have hall : ∀ (r : Repository) (a : Records), r.Holds a → r.calls calls = a.calls calls := by
    induction calls with
    | nil => exact fun r a _ => rfl
    | cons c calls ih =>
      intro r a h
      obtain ⟨hholds, hanswer⟩ := holds_call h c
      show _ :: _ = _ :: _
      rw [hanswer, ih _ _ hholds]
  exact hall _ _ ⟨rfl, rfl, rfl⟩

end EdgeGateway.Database
