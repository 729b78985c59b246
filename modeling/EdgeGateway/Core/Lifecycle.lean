-- The runtimes of the two services over the tables. The tasks of the database count,
-- write and notify in steps of their own, and the services obey the notifications
-- whatever the tables have become since.
import EdgeGateway.Core.Epochs
import EdgeGateway.Network.Sync

namespace EdgeGateway.Core

open EdgeGateway.Lib EdgeGateway.Networks EdgeGateway.Database

/-! ## The tasks, statement by statement -/

/-- Where `dba_remove_task` is with `DeleteNetwork`: it answers, counts the networks,
and says when there are none. -/
inductive RemoveStage where
  | listening
  | reporting (id : String)
  | counting
  | announcing
  deriving Repr, DecidableEq

/-- The first statement of a command of `dba_remove_task`. -/
def dbaRemoveRows (t : Tables) : DataCommandDelete → Tables × RemoveStage
  | .deleteNetwork id =>
    ({ t with network := t.network.deleteWhere (fun row => row.idNetwork = id) }, .reporting id)
  | .deleteAllHubByNetwork id =>
    ({ t with hub := t.hub.deleteWhere (fun row => row.networkId = id) }, .listening)
  | .deleteHub _ => (t, .listening)

/-- What comes after it. -/
def dbaRemoveNext (t : Tables) : RemoveStage → Option (RemoveStage × List DataServiceResponse)
  | .listening => none
  | .reporting id => some (.counting, [.networksUpdated id 200])
  | .counting => some (if t.network.rows.length = 0 then .announcing else .listening, [])
  | .announcing => some (.listening, [.noNetworks])

/-- The stages that follow one after the other, and their answers. -/
def dbaRemoveRest (t : Tables) (stage : RemoveStage) : List DataServiceResponse :=
  match dbaRemoveNext t stage with
  | none => []
  | some (.counting, responses) =>
    responses ++ if t.network.rows.length = 0 then [.noNetworks] else []
  | some (_, responses) => responses

/-- Without another task between its statements, the task does what the registry
says of it. -/
theorem dbaRemove_eq (t : Tables) (c : DataCommandDelete) :
    dbaRemove t c = ((dbaRemoveRows t c).1,
      dbaRemoveRest (dbaRemoveRows t c).1 (dbaRemoveRows t c).2) := by
  cases c <;> rfl

/-! ## The services -/

/-- Whether `FsmService` has a runtime after a command. -/
def fsmManage : Bool → Fsm.FsmServiceCommand → Bool
  | false, .createRuntime => true
  | true, .deleteRuntime => false
  | runtime, _ => runtime

theorem fsmManage_eq (cap : Option Nat) (manager : NetworkManager) (l : Option Fsm.Live)
    (c : Fsm.FsmServiceCommand) :
    (Fsm.Live.manage cap manager l c).isSome = fsmManage l.isSome c := by
  cases l <;> cases c <;> rfl

/-- Whether `FirmwareService` has a runtime after a command. -/
def firmwareManage : Bool → Firmware.FirmwareServiceCommand → Bool
  | false, .createRuntime => true
  | true, .deleteRuntime => false
  | runtime, _ => runtime

def Output.firmwareCommand : Output → Option Firmware.FirmwareServiceCommand
  | .toFirmwareService command => some command
  | _ => none

/-! ## The configuration -/

/-- The tasks, the tables and the queues between them. `inserting` is the hub that
`dba_insert_task` inserts next, `inserted` and `got` are the answers that it and
`dba_get_task` have still to send; `fsm` and `firmware` say which runtimes there are. -/
structure Lifecycle where
  toData : List DataServiceCommand
  inserts : List DataCommandInsert
  deletes : List DataCommandDelete
  gets : List DataCommandGet
  inserting : Option HubRow
  inserted : List DataServiceResponse
  removing : RemoveStage
  total : TotalStage
  got : List DataServiceResponse
  tables : Tables
  fromData : List DataServiceResponse
  toFsm : List Fsm.FsmServiceCommand
  toFirmware : List Firmware.FirmwareServiceCommand
  fsm : Bool
  firmware : Bool

/-- A step is a command about networks and hubs that the core passes on, or a task
that goes on. -/
inductive Lifecycle.Label where
  | command (c : DataServiceCommand)
  | dataService
  | dbaInsert
  | dbaInsertHub
  | insertSend
  | dbaRemove
  | dbaRemoveNext
  | dbaGet
  | dbaGetNext
  | getSend
  | core
  | fsmService
  | firmwareService
  deriving Repr

namespace Lifecycle

/-- The gateway starts over what is stored, and asks for it. -/
def start (tables : Tables) : Lifecycle where
  toData := [.getTotalOfNetworks]
  inserts := []
  deletes := []
  gets := []
  inserting := none
  inserted := []
  removing := .listening
  total := .listening
  got := []
  tables := tables
  fromData := []
  toFsm := []
  toFirmware := []
  fsm := false
  firmware := false

/-! ## Steps -/

/-- `DataService` gives each command to the task it is for. -/
def dataService (s : Lifecycle) : Option Lifecycle :=
  match s.toData with
  | [] => none
  | command :: rest =>
    let s := { s with toData := rest }
    match command with
    | .newHub row => some { s with inserts := s.inserts ++ [.insertHub row] }
    | .newNetwork row => some { s with inserts := s.inserts ++ [.insertNetwork row] }
    | .updateNetwork row => some { s with inserts := s.inserts ++ [.updateNetwork row] }
    | .deleteHub id => some { s with deletes := s.deletes ++ [.deleteHub id] }
    | .deleteNetwork id => some { s with deletes := s.deletes ++ [.deleteNetwork id] }
    | .deleteAllHubByNetwork id =>
      some { s with deletes := s.deletes ++ [.deleteAllHubByNetwork id] }
    | .getTotalOfNetworks => some { s with gets := s.gets ++ [.getTotalOfNetworks] }

def dbaInsert (s : Lifecycle) : Option Lifecycle :=
  match s.inserting, s.inserted, s.inserts with
  | none, [], command :: rest =>
    let (tables, inserting, responses) := Database.dbaInsert s.tables command
    some { s with inserts := rest, tables, inserting, inserted := responses }
  | _, _, _ => none

def dbaInsertHub (s : Lifecycle) : Option Lifecycle :=
  match s.inserting with
  | none => none
  | some row =>
    let (tables, responses) := Database.dbaInsertHub s.tables row
    some { s with inserting := none, tables, inserted := s.inserted ++ responses }

def insertSend (s : Lifecycle) : Option Lifecycle :=
  match s.inserted with
  | [] => none
  | response :: rest => some { s with inserted := rest, fromData := s.fromData ++ [response] }

def dbaRemove (s : Lifecycle) : Option Lifecycle :=
  match s.removing, s.deletes with
  | .listening, command :: rest =>
    let (tables, removing) := dbaRemoveRows s.tables command
    some { s with deletes := rest, tables, removing }
  | _, _ => none

def dbaRemoveNext (s : Lifecycle) : Option Lifecycle :=
  (Core.dbaRemoveNext s.tables s.removing).map (fun out =>
    { s with removing := out.1, fromData := s.fromData ++ out.2 })

def dbaGet (s : Lifecycle) : Option Lifecycle :=
  match s.total, s.got, s.gets with
  | .listening, [], .getTotalOfNetworks :: rest =>
    some { s with gets := rest, total := dbaGetTotal s.tables }
  | _, _, _ => none

def dbaGetNext (s : Lifecycle) : Option Lifecycle :=
  match s.got with
  | [] =>
    (Database.dbaGetNext s.tables s.total).map (fun out =>
      { s with total := out.1, got := out.2 })
  | _ :: _ => none

def getSend (s : Lifecycle) : Option Lifecycle :=
  match s.got with
  | [] => none
  | response :: rest => some { s with got := rest, fromData := s.fromData ++ [response] }

/-- What the core makes of an answer for `FsmService`. -/
def fsmCommands (response : DataServiceResponse) : List Fsm.FsmServiceCommand :=
  (run (.dataService (.registry response))).filterMap Output.fsmCommand

def firmwareCommands (response : DataServiceResponse) : List Firmware.FirmwareServiceCommand :=
  (run (.dataService (.registry response))).filterMap Output.firmwareCommand

def core (s : Lifecycle) : Option Lifecycle :=
  match s.fromData with
  | [] => none
  | response :: rest =>
    some { s with
      fromData := rest
      toFsm := s.toFsm ++ fsmCommands response
      toFirmware := s.toFirmware ++ firmwareCommands response }

def fsmService (s : Lifecycle) : Option Lifecycle :=
  match s.toFsm with
  | [] => none
  | command :: rest => some { s with toFsm := rest, fsm := fsmManage s.fsm command }

def firmwareService (s : Lifecycle) : Option Lifecycle :=
  match s.toFirmware with
  | [] => none
  | command :: rest =>
    some { s with toFirmware := rest, firmware := firmwareManage s.firmware command }

def step (s : Lifecycle) : Label → Option Lifecycle
  | .command c => some { s with toData := s.toData ++ [c] }
  | .dataService => s.dataService
  | .dbaInsert => s.dbaInsert
  | .dbaInsertHub => s.dbaInsertHub
  | .insertSend => s.insertSend
  | .dbaRemove => s.dbaRemove
  | .dbaRemoveNext => s.dbaRemoveNext
  | .dbaGet => s.dbaGet
  | .dbaGetNext => s.dbaGetNext
  | .getSend => s.getSend
  | .core => s.core
  | .fsmService => s.fsmService
  | .firmwareService => s.firmwareService

/-- The gateway from its start, over any tables. -/
def machine : Machine Lifecycle Label where
  init := fun s => ∃ tables, s = start tables
  step := step

/-! ## The law -/

/-- No channel holds a message, and the tasks wait for one. -/
def Quiet (s : Lifecycle) : Prop :=
  (s.toData = [] ∧ s.inserts = [] ∧ s.deletes = [] ∧ s.gets = []) ∧
    (s.inserting = none ∧ s.inserted = [] ∧ s.removing = .listening ∧ s.total = .listening ∧
      s.got = []) ∧
    s.fromData = [] ∧ s.toFsm = [] ∧ s.toFirmware = []

instance (s : Lifecycle) : Decidable s.Quiet :=
  inferInstanceAs (Decidable ((s.toData = [] ∧ s.inserts = [] ∧ s.deletes = [] ∧ s.gets = []) ∧
    (s.inserting = none ∧ s.inserted = [] ∧ s.removing = .listening ∧ s.total = .listening ∧
      s.got = []) ∧
    s.fromData = [] ∧ s.toFsm = [] ∧ s.toFirmware = []))

/-- The runtimes are those that the tables ask for: none without networks, both with
networks and hubs. -/
def RuntimesFit (s : Lifecycle) : Prop :=
  (s.tables.network.rows = [] → s.fsm = false ∧ s.firmware = false) ∧
  (s.tables.network.rows ≠ [] → s.tables.hub.rows ≠ [] → s.fsm = true ∧ s.firmware = true)

instance (s : Lifecycle) : Decidable s.RuntimesFit :=
  inferInstanceAs (Decidable
    ((s.tables.network.rows = [] → s.fsm = false ∧ s.firmware = false) ∧
    (s.tables.network.rows ≠ [] → s.tables.hub.rows ≠ [] → s.fsm = true ∧ s.firmware = true)))

/-- Whether `FsmService` has a runtime when all that is sent has arrived. -/
def fsmWill (s : Lifecycle) : Bool :=
  (s.toFsm ++ s.fromData.flatMap fsmCommands).foldl fsmManage s.fsm

def firmwareWill (s : Lifecycle) : Bool :=
  (s.toFirmware ++ s.fromData.flatMap firmwareCommands).foldl firmwareManage s.firmware

/-- A `ThereAreNetworks` is still to be sent, or the start has still to be read. -/
def Owed (s : Lifecycle) : Prop :=
  .thereAreNetworks ∈ s.inserted ∨ .thereAreNetworks ∈ s.got ∨ .getTotalOfNetworks ∈ s.toData ∨
    s.gets ≠ [] ∨ s.total ≠ .listening

instance (s : Lifecycle) : Decidable s.Owed :=
  inferInstanceAs (Decidable (.thereAreNetworks ∈ s.inserted ∨ .thereAreNetworks ∈ s.got ∨
    .getTotalOfNetworks ∈ s.toData ∨ s.gets ≠ [] ∨ s.total ≠ .listening))

/-- The command writes table `network`. -/
def writesNetwork (c : DataCommandInsert) : Bool := (changeOfInsert c).isSome

/-- A task sends `ThereAreNetworks` only while there are networks, or while
`dba_remove_task` has still to report. It sends `NoNetworks` only while there are no
networks or no hubs, or while a `ThereAreNetworks` is still to come. Into an empty table
a network is inserted only while there are no hubs, or while `ThereAreNetworks` was the
last notification or is still to come. -/
def Timely (s : Lifecycle) : Label → Prop
  | .insertSend => s.inserted.head? = some .thereAreNetworks →
    s.tables.network.rows ≠ [] ∨ s.removing ≠ .listening
  | .getSend => s.got.head? = some .thereAreNetworks →
    s.tables.network.rows ≠ [] ∨ s.removing ≠ .listening
  | .dbaRemoveNext => s.removing = .announcing →
    s.tables.network.rows = [] ∨ s.tables.hub.rows = [] ∨ s.Owed
  | .dbaInsert => (s.inserts.head?.map writesNetwork) = some true →
    s.tables.network.rows ≠ [] ∨ s.tables.hub.rows = [] ∨
      (s.fsmWill = true ∧ s.firmwareWill = true) ∨ s.Owed
  | _ => True

instance (s : Lifecycle) : (i : Label) → Decidable (s.Timely i)
  | .insertSend => inferInstanceAs (Decidable (s.inserted.head? = some .thereAreNetworks →
      s.tables.network.rows ≠ [] ∨ s.removing ≠ .listening))
  | .getSend => inferInstanceAs (Decidable (s.got.head? = some .thereAreNetworks →
      s.tables.network.rows ≠ [] ∨ s.removing ≠ .listening))
  | .dbaRemoveNext => inferInstanceAs (Decidable (s.removing = .announcing →
      s.tables.network.rows = [] ∨ s.tables.hub.rows = [] ∨ s.Owed))
  | .dbaInsert => inferInstanceAs (Decidable (
      (s.inserts.head?.map writesNetwork) = some true →
        s.tables.network.rows ≠ [] ∨ s.tables.hub.rows = [] ∨
          (s.fsmWill = true ∧ s.firmwareWill = true) ∨ s.Owed))
  | .command _ | .dataService | .dbaInsertHub | .dbaRemove | .dbaGet | .dbaGetNext | .core
  | .fsmService | .firmwareService => inferInstanceAs (Decidable True)

/-! ### What is sent and what is announced -/

/-- Whether there will be a runtime after a response. -/
def told (will : Bool) : DataServiceResponse → Bool
  | .thereAreNetworks => true
  | .noNetworks => false
  | _ => will

theorem fsmCommands_told (will : Bool) (r : DataServiceResponse) :
    (fsmCommands r).foldl fsmManage will = told will r := by
  cases will <;> cases r <;> rfl

theorem firmwareCommands_told (will : Bool) (r : DataServiceResponse) :
    (firmwareCommands r).foldl firmwareManage will = told will r := by
  cases will <;> cases r <;> rfl

/-- Responses taken one after the other. -/
theorem foldl_commands {α : Type} {commands : DataServiceResponse → List α}
    {manage : Bool → α → Bool}
    (h : ∀ will r, (commands r).foldl manage will = told will r)
    (rs : List DataServiceResponse) (will : Bool) :
    (rs.flatMap commands).foldl manage will = rs.foldl told will := by
  induction rs generalizing will with
  | nil => rfl
  | cons r rs ih => rw [List.flatMap_cons, List.foldl_append, h, List.foldl_cons, ih]

section Sends

variable {s s' : Lifecycle} {rs : List DataServiceResponse}

theorem fsmWill_send (hrun : s'.fsm = s.fsm) (hto : s'.toFsm = s.toFsm)
    (hdata : s'.fromData = s.fromData ++ rs) : s'.fsmWill = rs.foldl told s.fsmWill := by
  unfold fsmWill
  rw [hrun, hto, hdata, List.flatMap_append, ← List.append_assoc, List.foldl_append,
    foldl_commands fsmCommands_told]

theorem firmwareWill_send (hrun : s'.firmware = s.firmware)
    (hto : s'.toFirmware = s.toFirmware) (hdata : s'.fromData = s.fromData ++ rs) :
    s'.firmwareWill = rs.foldl told s.firmwareWill := by
  unfold firmwareWill
  rw [hrun, hto, hdata, List.flatMap_append, ← List.append_assoc, List.foldl_append,
    foldl_commands firmwareCommands_told]

end Sends

/-! ### The invariant -/

/-- A runtime that there will be fits the tables, or a notification that makes it fit is
still owed. -/
structure Fits (s : Lifecycle) (will : Bool) : Prop where
  empty : s.tables.network.rows = [] → will = false ∨ s.removing ≠ .listening
  filled : s.tables.network.rows ≠ [] → s.tables.hub.rows ≠ [] → will = true ∨ s.Owed

structure Lawful (s : Lifecycle) : Prop where
  fsm : s.Fits s.fsmWill
  firmware : s.Fits s.firmwareWill
  inserted : .noNetworks ∉ s.inserted
  got : .noNetworks ∉ s.got

section Law

variable {s s' : Lifecycle} {q : List DataServiceResponse}

/-- A step of the database: the responses `q` are sent, and what fits goes on fitting. -/
theorem lawful_send (h : s.Lawful) (hrun : s'.fsm = s.fsm ∧ s'.firmware = s.firmware)
    (hto : s'.toFsm = s.toFsm ∧ s'.toFirmware = s.toFirmware)
    (hdata : s'.fromData = s.fromData ++ q) (hinserted : .noNetworks ∉ s'.inserted)
    (hgot : .noNetworks ∉ s'.got)
    (hfits : ∀ will, (s.fsmWill = true ∧ s.firmwareWill = true → will = true) → s.Fits will →
      s'.Fits (q.foldl told will)) : s'.Lawful where
  fsm := by
    rw [fsmWill_send hrun.1 hto.1 hdata]
    exact hfits _ And.left h.fsm
  firmware := by
    rw [firmwareWill_send hrun.2 hto.2 hdata]
    exact hfits _ And.right h.firmware
  inserted := hinserted
  got := hgot

/-- A step that sends nothing. -/
theorem lawful_silent (h : s.Lawful) (hrun : s'.fsm = s.fsm ∧ s'.firmware = s.firmware)
    (hto : s'.toFsm = s.toFsm ∧ s'.toFirmware = s.toFirmware)
    (hdata : s'.fromData = s.fromData) (hinserted : .noNetworks ∉ s'.inserted)
    (hgot : .noNetworks ∉ s'.got)
    (hfits : ∀ will, (s.fsmWill = true ∧ s.firmwareWill = true → will = true) → s.Fits will →
      s'.Fits will) : s'.Lawful := by
  refine lawful_send (q := []) h hrun hto ?_ hinserted hgot hfits
  rw [hdata, List.append_nil]

/-- A step that leaves the tables, sends nothing and forgets nothing that is owed. -/
theorem Fits.frame {will : Bool} (h : s.Fits will) (ht : s'.tables = s.tables)
    (hr : s'.removing = s.removing) (ho : s.Owed → s'.Owed) : s'.Fits will where
  empty := by
    rw [ht, hr]
    exact h.empty
  filled := by
    rw [ht]
    intro hn hh
    exact (h.filled hn hh).imp_right ho

theorem lawful_start (tables : Tables) : (start tables).Lawful := by
  have hfits : (start tables).Fits false :=
    ⟨fun _ => Or.inl rfl, fun _ _ => Or.inr (Or.inr (Or.inr (Or.inl (by simp [start]))))⟩
  exact ⟨hfits, hfits, by simp [start], by simp [start]⟩

theorem lawful_dataService (h : s.Lawful) (hs : s.dataService = some s') : s'.Lawful := by
  unfold dataService at hs
  rcases hq : s.toData with _ | ⟨c, rest⟩
  · simp [hq] at hs
  · rw [hq] at hs
    cases c <;> obtain rfl := Option.some.inj hs <;>
      refine lawful_silent h ⟨rfl, rfl⟩ ⟨rfl, rfl⟩ rfl h.inserted h.got
        (fun will _ hfits => hfits.frame rfl rfl ?_) <;>
      intro ho <;> simp [Owed, hq] at ho ⊢ <;> tauto

/-- What a write of `dba_insert_task` leaves. -/
theorem dbaInsert_rows (t : Tables) (c : DataCommandInsert) :
    (Database.dbaInsert t c).1.hub = t.hub ∧
      ((Database.dbaInsert t c).1.network.rows = [] → t.network.rows = []) ∧
      (writesNetwork c = false → (Database.dbaInsert t c).1 = t) ∧
      .noNetworks ∉ (Database.dbaInsert t c).2.2 := by
  cases c with
  | insertNetwork row =>
    unfold Database.dbaInsert
    rcases hi : t.network.insert row with _ | network
    · simp [hi]
    · have hrows := Keyed.rows_insert hi
      simp [hi, hrows, writesNetwork, changeOfInsert]
  | updateNetwork row =>
    refine ⟨rfl, ?_, by simp [writesNetwork, changeOfInsert], by simp [Database.dbaInsert]⟩
    intro hnil
    have hrow : row ∈ (t.network.upsert row).rows := Keyed.mem_upsert.mpr (Or.inl rfl)
    change (t.network.upsert row).rows = [] at hnil
    rw [hnil] at hrow
    cases hrow
  | insertHub row => simp [Database.dbaInsert]

theorem lawful_dbaInsert (h : s.Lawful) (htimely : s.Timely .dbaInsert)
    (hs : s.dbaInsert = some s') : s'.Lawful := by
  unfold dbaInsert at hs
  rcases hi : s.inserting with _ | row <;> rcases hd : s.inserted with _ | ⟨r, answers⟩ <;>
    rcases hq : s.inserts with _ | ⟨c, rest⟩ <;>
    simp only [hi, hd, hq, Option.some.injEq, reduceCtorEq] at hs
  subst hs
  obtain ⟨hhub, hnetwork, hsame, hquiet⟩ := dbaInsert_rows s.tables c
  refine lawful_silent h ⟨rfl, rfl⟩ ⟨rfl, rfl⟩ rfl hquiet h.got ?_
  intro will hwill hfits
  constructor
  · intro hnil
    exact hfits.empty (hnetwork hnil)
  · intro hsome hhubs
    have howed : s.Owed → Owed { s with
        inserts := rest
        tables := (Database.dbaInsert s.tables c).1
        inserting := (Database.dbaInsert s.tables c).2.1
        inserted := (Database.dbaInsert s.tables c).2.2 } := by
      intro ho
      unfold Owed at ho ⊢
      rw [hd] at ho
      rcases ho with ho | ho
      · cases ho
      · exact Or.inr ho
    rw [hhub] at hhubs
    by_cases hnow : s.tables.network.rows = []
    · -- the table was empty: the command has written its first network
      have hwrites : writesNetwork c = true := by
        by_contra hno
        rw [hsame (Bool.eq_false_iff.mpr hno)] at hsome
        exact hsome hnow
      rcases htimely (by rw [hq, List.head?_cons, Option.map_some, hwrites])
        with hne | hnil | hboth | ho
      · exact absurd hnow hne
      · exact absurd hnil hhubs
      · exact Or.inl (hwill hboth)
      · exact Or.inr (howed ho)
    · exact (hfits.filled hnow hhubs).imp_right howed

theorem lawful_dbaInsertHub (h : s.Lawful) (hs : s.dbaInsertHub = some s') : s'.Lawful := by
  unfold dbaInsertHub at hs
  rcases hi : s.inserting with _ | row
  · simp [hi] at hs
  · simp only [hi, Option.some.injEq] at hs
    subst hs
    have hquiet : .noNetworks ∉ s.inserted ++ (Database.dbaInsertHub s.tables row).2 := by
      rw [List.mem_append, not_or]
      refine ⟨h.inserted, ?_⟩
      unfold Database.dbaInsertHub
      cases s.tables.hub.insert row <;> simp
    refine lawful_silent h ⟨rfl, rfl⟩ ⟨rfl, rfl⟩ rfl hquiet h.got ?_
    intro will _ hfits
    unfold Database.dbaInsertHub
    rcases hh : s.tables.hub.insert row with _ | hub
    · refine hfits.frame rfl rfl ?_
      unfold Owed
      rw [List.append_nil]
      exact id
    · refine ⟨hfits.empty, fun _ _ => Or.inr (Or.inl ?_)⟩
      simp

/-- A response that is sent: what fits goes on fitting, a creation only while it is
in time. -/
theorem fits_send {will : Bool} {r : DataServiceResponse} (h : s.Fits will)
    (ht : s'.tables = s.tables) (hr : s'.removing = s.removing)
    (ho : r ≠ .thereAreNetworks → s.Owed → s'.Owed) (hno : r ≠ .noNetworks)
    (htimely : r = .thereAreNetworks → s.tables.network.rows ≠ [] ∨ s.removing ≠ .listening) :
    s'.Fits (told will r) := by
  by_cases hthere : r = .thereAreNetworks
  · subst hthere
    constructor
    · rw [ht, hr]
      intro hnil
      exact Or.inr ((htimely rfl).resolve_left (fun hne => hne hnil))
    · intro _ _
      exact Or.inl rfl
  · have hsame : told will r = will := by
      cases r <;> first | rfl | exact absurd rfl hthere | exact absurd rfl hno
    rw [hsame]
    exact h.frame ht hr (ho hthere)

theorem lawful_insertSend (h : s.Lawful) (htimely : s.Timely .insertSend)
    (hs : s.insertSend = some s') : s'.Lawful := by
  unfold insertSend at hs
  rcases hq : s.inserted with _ | ⟨r, rest⟩
  · simp [hq] at hs
  · simp only [hq, Option.some.injEq] at hs
    subst hs
    have hinserted := h.inserted
    rw [hq, List.mem_cons, not_or] at hinserted
    refine lawful_send (q := [r]) h ⟨rfl, rfl⟩ ⟨rfl, rfl⟩ rfl hinserted.2 h.got ?_
    intro will _ hfits
    refine fits_send hfits rfl rfl ?_ (fun hr => hinserted.1 hr.symm) ?_
    · intro hr ho
      unfold Owed at ho ⊢
      rw [hq, List.mem_cons] at ho
      exact ho.imp_left (fun ho => ho.resolve_left (fun he => hr he.symm))
    · rintro rfl
      exact htimely (by rw [hq, List.head?_cons])

theorem lawful_getSend (h : s.Lawful) (htimely : s.Timely .getSend)
    (hs : s.getSend = some s') : s'.Lawful := by
  unfold getSend at hs
  rcases hq : s.got with _ | ⟨r, rest⟩
  · simp [hq] at hs
  · simp only [hq, Option.some.injEq] at hs
    subst hs
    have hgot := h.got
    rw [hq, List.mem_cons, not_or] at hgot
    refine lawful_send (q := [r]) h ⟨rfl, rfl⟩ ⟨rfl, rfl⟩ rfl h.inserted hgot.2 ?_
    intro will _ hfits
    refine fits_send hfits rfl rfl ?_ (fun hr => hgot.1 hr.symm) ?_
    · intro hr ho
      unfold Owed at ho ⊢
      rw [hq, List.mem_cons] at ho
      exact ho.imp_right (Or.imp_left (fun ho => ho.resolve_left (fun he => hr he.symm)))
    · rintro rfl
      exact htimely (by rw [hq, List.head?_cons])

theorem lawful_dbaRemove (h : s.Lawful) (hs : s.dbaRemove = some s') : s'.Lawful := by
  unfold dbaRemove at hs
  rcases hr : s.removing with _ | id | _ | _ <;> rcases hq : s.deletes with _ | ⟨c, rest⟩ <;>
    simp only [hr, hq, Option.some.injEq, reduceCtorEq] at hs
  subst hs
  refine lawful_silent h ⟨rfl, rfl⟩ ⟨rfl, rfl⟩ rfl h.inserted h.got ?_
  intro will _ hfits
  have hleft : ∀ (p : NetworkRow → Bool), (s.tables.network.deleteWhere p).rows ≠ [] →
      s.tables.network.rows ≠ [] := by
    intro p hne hnil
    exact hne (by simp [Keyed.deleteWhere, hnil])
  have hhubs : ∀ (p : HubRow → Bool), (s.tables.hub.deleteWhere p).rows ≠ [] →
      s.tables.hub.rows ≠ [] := by
    intro p hne hnil
    exact hne (by simp [Keyed.deleteWhere, hnil])
  cases c with
  | deleteNetwork id =>
    exact ⟨fun _ => Or.inr (by simp [dbaRemoveRows]),
      fun hn hh => hfits.filled (hleft _ hn) hh⟩
  | deleteAllHubByNetwork id =>
    refine ⟨fun hnil => ?_, fun hn hh => hfits.filled hn (hhubs _ hh)⟩
    have := hfits.empty hnil
    rwa [hr] at this
  | deleteHub id =>
    refine ⟨fun hnil => ?_, hfits.filled⟩
    have := hfits.empty hnil
    rwa [hr] at this

theorem lawful_dbaRemoveNext (h : s.Lawful) (htimely : s.Timely .dbaRemoveNext)
    (hs : s.dbaRemoveNext = some s') : s'.Lawful := by
  unfold dbaRemoveNext at hs
  rcases hr : s.removing with _ | id | _ | _ <;>
    simp only [hr, Core.dbaRemoveNext, Option.map_none, Option.map_some, Option.some.injEq,
      reduceCtorEq] at hs <;>
    subst hs
  · refine lawful_send (q := [.networksUpdated id 200]) h ⟨rfl, rfl⟩ ⟨rfl, rfl⟩ rfl
      h.inserted h.got ?_
    intro will _ hfits
    exact ⟨fun _ => Or.inr (by simp), hfits.filled⟩
  · refine lawful_send (q := []) h ⟨rfl, rfl⟩ ⟨rfl, rfl⟩ rfl h.inserted h.got ?_
    intro will _ hfits
    refine ⟨fun hnil => Or.inr ?_, hfits.filled⟩
    change s.tables.network.rows = [] at hnil
    simp [hnil]
  · refine lawful_send (q := [.noNetworks]) h ⟨rfl, rfl⟩ ⟨rfl, rfl⟩ rfl h.inserted h.got ?_
    intro will _ hfits
    refine ⟨fun _ => Or.inl rfl, fun hn hh => Or.inr ?_⟩
    rcases htimely hr with hnil | hnil | ho
    · exact absurd hnil hn
    · exact absurd hnil hh
    · exact ho

theorem lawful_dbaGet (h : s.Lawful) (hs : s.dbaGet = some s') : s'.Lawful := by
  unfold dbaGet at hs
  split at hs
  · rename_i rest htotal hgot hq
    obtain rfl := Option.some.inj hs
    refine lawful_silent h ⟨rfl, rfl⟩ ⟨rfl, rfl⟩ rfl h.inserted h.got ?_
    intro will _ hfits
    refine ⟨hfits.empty, fun hn hh => Or.inr ?_⟩
    change s.tables.network.rows ≠ [] at hn
    have hpos : s.tables.network.rows.length > 0 := List.length_pos_iff.mpr hn
    simp [Owed, dbaGetTotal, hpos]
  · cases hs

theorem lawful_dbaGetNext (h : s.Lawful) (hs : s.dbaGetNext = some s') : s'.Lawful := by
  unfold dbaGetNext at hs
  rcases hq : s.got with _ | ⟨r, rest⟩
  · rw [hq] at hs
    rcases htotal : s.total with _ | _ | _ | _ <;>
      simp only [htotal, Database.dbaGetNext, Option.map_none, Option.map_some,
        Option.some.injEq, reduceCtorEq] at hs <;>
      subst hs
    · refine lawful_silent h ⟨rfl, rfl⟩ ⟨rfl, rfl⟩ rfl h.inserted (by simp) ?_
      intro will _ hfits
      exact ⟨hfits.empty, fun _ _ => Or.inr (by simp [Owed])⟩
    · refine lawful_silent h ⟨rfl, rfl⟩ ⟨rfl, rfl⟩ rfl h.inserted (by simp) ?_
      intro will _ hfits
      refine ⟨hfits.empty, fun _ hh => Or.inr ?_⟩
      change s.tables.hub.rows ≠ [] at hh
      have hpos : s.tables.hub.rows.length > 0 := List.length_pos_iff.mpr hh
      simp [Owed, hpos]
    · refine lawful_silent h ⟨rfl, rfl⟩ ⟨rfl, rfl⟩ rfl h.inserted (by simp) ?_
      intro will _ hfits
      exact ⟨hfits.empty, fun _ _ => Or.inr (by simp [Owed])⟩
  · simp [hq] at hs

/-- A command that arrives changes nothing of what will be. -/
theorem lawful_arrive (h : s.Lawful) (hfsm : s'.fsmWill = s.fsmWill)
    (hfirmware : s'.firmwareWill = s.firmwareWill) (ht : s'.tables = s.tables)
    (hr : s'.removing = s.removing) (hinserted : s'.inserted = s.inserted)
    (hgot : s'.got = s.got) (ho : s.Owed → s'.Owed) : s'.Lawful where
  fsm := hfsm ▸ h.fsm.frame ht hr ho
  firmware := hfirmware ▸ h.firmware.frame ht hr ho
  inserted := hinserted ▸ h.inserted
  got := hgot ▸ h.got

theorem lawful_core (h : s.Lawful) (hs : s.core = some s') : s'.Lawful := by
  unfold core at hs
  rcases hq : s.fromData with _ | ⟨r, rest⟩
  · simp [hq] at hs
  · simp only [hq, Option.some.injEq] at hs
    subst hs
    refine lawful_arrive h ?_ ?_ rfl rfl rfl rfl id
    · simp [fsmWill, hq]
    · simp [firmwareWill, hq]

theorem lawful_fsmService (h : s.Lawful) (hs : s.fsmService = some s') : s'.Lawful := by
  unfold fsmService at hs
  rcases hq : s.toFsm with _ | ⟨c, rest⟩
  · simp [hq] at hs
  · simp only [hq, Option.some.injEq] at hs
    subst hs
    refine lawful_arrive h ?_ rfl rfl rfl rfl rfl id
    unfold fsmWill
    rw [hq, List.cons_append, List.foldl_cons]

theorem lawful_firmwareService (h : s.Lawful) (hs : s.firmwareService = some s') :
    s'.Lawful := by
  unfold firmwareService at hs
  rcases hq : s.toFirmware with _ | ⟨c, rest⟩
  · simp [hq] at hs
  · simp only [hq, Option.some.injEq] at hs
    subst hs
    refine lawful_arrive h rfl ?_ rfl rfl rfl rfl id
    unfold firmwareWill
    rw [hq, List.cons_append, List.foldl_cons]

theorem lawful_step {i : Label} (h : s.Lawful) (htimely : s.Timely i)
    (hs : machine.step s i = some s') : s'.Lawful := by
  cases i with
  | command c =>
    obtain rfl := Option.some.inj hs
    refine lawful_arrive h rfl rfl rfl rfl rfl rfl ?_
    intro ho
    unfold Owed at ho ⊢
    rw [List.mem_append]
    exact ho.imp_right (Or.imp_right (Or.imp_left Or.inl))
  | dataService => exact lawful_dataService h hs
  | dbaInsert => exact lawful_dbaInsert h htimely hs
  | dbaInsertHub => exact lawful_dbaInsertHub h hs
  | insertSend => exact lawful_insertSend h htimely hs
  | dbaRemove => exact lawful_dbaRemove h hs
  | dbaRemoveNext => exact lawful_dbaRemoveNext h htimely hs
  | dbaGet => exact lawful_dbaGet h hs
  | dbaGetNext => exact lawful_dbaGetNext h hs
  | getSend => exact lawful_getSend h htimely hs
  | core => exact lawful_core h hs
  | fsmService => exact lawful_fsmService h hs
  | firmwareService => exact lawful_firmwareService h hs

/-- With nothing on its way, what there will be is what there is. -/
theorem fit_of_lawful (h : s.Lawful) (hq : s.Quiet) : s.RuntimesFit := by
  obtain ⟨⟨hdata, -, -, hgets⟩, ⟨-, hinserted, hremoving, htotal, hgot⟩, hfrom, hfsm, hfirmware⟩ :=
    hq
  have hwillFsm : s.fsmWill = s.fsm := by simp [fsmWill, hfrom, hfsm]
  have hwillFirmware : s.firmwareWill = s.firmware := by simp [firmwareWill, hfrom, hfirmware]
  have howed : ¬ s.Owed := by simp [Owed, hdata, hgets, hinserted, htotal, hgot]
  have hf := h.fsm
  have hw := h.firmware
  rw [hwillFsm] at hf
  rw [hwillFirmware] at hw
  constructor
  · intro hnil
    exact ⟨(hf.empty hnil).resolve_right (not_not.mpr hremoving),
      (hw.empty hnil).resolve_right (not_not.mpr hremoving)⟩
  · intro hn hh
    exact ⟨(hf.filled hn hh).resolve_right howed, (hw.filled hn hh).resolve_right howed⟩

end Law

/-- While the notifications are sent in time, the runtimes are those that the tables ask
for whenever nothing is on its way. -/
theorem the_runtimes_fit_the_tables {t : List (Lifecycle × Label)} {s : Lifecycle}
    (r : machine.Run t s) (htimely : Machine.Meets Timely t) :
    ∀ x ∈ Machine.visited t s, x.Quiet → x.RuntimesFit := by
  intro x hx hq
  refine fit_of_lawful (r.invariant_visited Lawful Timely ?_ ?_ htimely x hx) hq
  · rintro s ⟨tables, rfl⟩
    exact lawful_start tables
  · intro s i s' h ht hs
    exact lawful_step h ht hs

/-! ### A network that comes and goes -/

/-- A network and its hub are stored, announced and obeyed. -/
def stores (id hub : String) : List Label :=
  [.command (.newNetwork ⟨id, true⟩), .dataService, .dbaInsert, .insertSend, .core,
    .command (.newHub ⟨hub, "h", id⟩), .dataService, .dbaInsert, .dbaInsertHub, .insertSend,
    .insertSend, .core, .core, .fsmService, .firmwareService]

/-- A network is deleted and the networks are counted; its hubs are to follow. -/
def removal (id : String) : List Label :=
  [.command (.deleteNetwork id), .command (.deleteAllHubByNetwork id), .dataService,
    .dataService, .dbaRemove, .dbaRemoveNext, .dbaRemoveNext, .core]

/-- What was counted is announced, and the hubs follow. -/
def announces : List Label := [.dbaRemoveNext, .dbaRemove, .core, .fsmService, .firmwareService]

def comesAndGoes : List Label :=
  [.dataService, .dbaGet] ++ stores "a" "h" ++ removal "a" ++ announces

def gone : Lifecycle := (machine.final (start .empty) comesAndGoes).get (by decide +kernel)

theorem a_network_comes_and_goes :
    (∀ x ∈ Machine.visited (machine.trace (start .empty) comesAndGoes) gone,
      x.Quiet → x.RuntimesFit) ∧ gone.Quiet ∧ gone.fsm = false :=
  ⟨the_runtimes_fit_the_tables
    (Machine.run_of_final (m := machine) comesAndGoes ⟨_, rfl⟩ (by decide +kernel))
    (by decide +kernel), by decide +kernel, by decide +kernel⟩

/-- The second network is stored after the networks are counted and before the count is
announced. -/
def overtaken : List Label :=
  [.dataService, .dbaGet] ++ stores "a" "h" ++ removal "a" ++ stores "b" "k" ++ announces

def deserted : Lifecycle := (machine.final (start .empty) overtaken).get (by decide +kernel)

/-- The second network and its hub are left without runtimes. -/
theorem an_old_count_removes_the_runtimes :
    ¬ ∀ (t : List (Lifecycle × Label)) (s : Lifecycle), machine.Run t s →
      ∀ x ∈ Machine.visited t s, x.Quiet → x.RuntimesFit := by
  intro h
  have hrun := Machine.run_of_final (m := machine) overtaken ⟨.empty, rfl⟩ (by decide +kernel)
  have hfit : deserted.RuntimesFit :=
    h _ _ hrun deserted (Machine.last_mem_visited _ _) (by decide +kernel)
  have hno : deserted.fsm = false := by decide +kernel
  have hyes := hfit.2 (by decide +kernel) (by decide +kernel)
  rw [hno] at hyes
  cases hyes.1

end Lifecycle

end EdgeGateway.Core
