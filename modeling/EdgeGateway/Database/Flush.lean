-- The buffer of `dba_insert_task` over its flushes. `Repository::insert` writes the vectors
-- one after the other and stops at the first write that fails; the task drops the error and
-- clears all four, so what it has not written is gone.
import EdgeGateway.Database.Domain
import EdgeGateway.Lib.Machine
import Mathlib.Data.Fintype.Basic

namespace EdgeGateway.Database

open EdgeGateway.Lib EdgeGateway.Message

/-! ## Messages by their tables -/

instance : Fintype TableName := ⟨⟨TableName.all, by decide⟩, by intro k; cases k <;> decide⟩

/-- The messages of a hub that are telemetry. -/
def Telemetry.ofHub : HubMessage → Option Telemetry
  | .report msg => some (.report msg)
  | .monitor msg => some (.monitor msg)
  | .alertAir msg => some (.alertAir msg)
  | .alertTem msg => some (.alertTem msg)
  | _ => none

/-- The table of a message. -/
def Telemetry.table : Telemetry → TableName
  | .report _ => .measurement
  | .monitor _ => .monitor
  | .alertAir _ => .alertAir
  | .alertTem _ => .alertTh

namespace TableDataVector

variable {v w : TableDataVector} {k j : TableName}

/-- The rows of one table, oldest first. -/
def rows (v : TableDataVector) : TableName → List Telemetry
  | .measurement => v.measurement.map .report
  | .monitor => v.monitor.map .monitor
  | .alertTh => v.alertTh.map .alertTem
  | .alertAir => v.alertAir.map .alertAir

def clear (_ : TableDataVector) : TableDataVector := new

@[simp] theorem rows_new (k : TableName) : new.rows k = [] := by
  cases k <;> rfl

@[simp] theorem rows_clear (v : TableDataVector) (k : TableName) : v.clear.rows k = [] :=
  rows_new k

@[simp] theorem rows_append (v w : TableDataVector) (k : TableName) :
    (v.append w).rows k = v.rows k ++ w.rows k := by
  cases k <;> simp [rows, append]

theorem rows_only (v : TableDataVector) (k j : TableName) :
    (v.only k).rows j = if j = k then v.rows k else [] := by
  cases k <;> cases j <;> simp [rows, only, new]

/-- A message goes to the end of the rows of its table, and to no others. -/
theorem rows_sortByVectors (v : TableDataVector) (m : Telemetry) (k : TableName) :
    (v.sortByVectors m).rows k = v.rows k ++ [m].filter (fun m => m.table = k) := by
  cases m <;> cases k <;> simp [rows, sortByVectors, Telemetry.table]

theorem isEmpty_only (v : TableDataVector) (k : TableName) :
    (v.only k).isEmpty = true ↔ v.rows k = [] := by
  cases k <;> simp [isEmpty, only, rows, new]

theorem rows_of_isEmpty (h : v.isEmpty = true) (k : TableName) : v.rows k = [] := by
  rw [(isEmpty_iff v).mp h, rows_new]

end TableDataVector

/-! ## `Repository::insert` -/

/-- The vectors that are not empty are written one after the other, and the first error
ends it. `accepts` says of each table whether its insert succeeds; the result is what is
stored, and whether all was written. -/
def insertTables (accepts : TableName → Bool) (v stored : TableDataVector) :
    List TableName → TableDataVector × Bool
  | [] => (stored, true)
  | k :: rest =>
    if (v.only k).isEmpty then insertTables accepts v stored rest
    else if accepts k then insertTables accepts v (stored.append (v.only k)) rest
    else (stored, false)

def Repository.insert (accepts : TableName → Bool) (v stored : TableDataVector) :
    TableDataVector × Bool :=
  insertTables accepts v stored TableName.all

section Insert

variable {accepts : TableName → Bool} {v : TableDataVector} {ks : List TableName}
  {k : TableName}

/-- Where every write succeeds, each table gets its rows. -/
theorem rows_insertTables (stored : TableDataVector) (hks : ks.Nodup)
    (h : ∀ j ∈ ks, v.rows j ≠ [] → accepts j = true) :
    (insertTables accepts v stored ks).1.rows k =
      stored.rows k ++ if k ∈ ks then v.rows k else [] := by
  induction ks generalizing stored with
  | nil => simp [insertTables]
  | cons j rest ih =>
    obtain ⟨hj, hrest⟩ := List.nodup_cons.mp hks
    have hlater : ∀ i ∈ rest, v.rows i ≠ [] → accepts i = true :=
      fun i hi => h i (List.mem_cons_of_mem j hi)
    unfold insertTables
    by_cases hempty : (v.only j).isEmpty = true
    · rw [if_pos hempty, ih stored hrest hlater]
      have hnone := (TableDataVector.isEmpty_only v j).mp hempty
      by_cases hk : k = j
      · simp [hk, hj, hnone]
      · simp [hk]
    · have hne : v.rows j ≠ [] := fun hnone => hempty ((TableDataVector.isEmpty_only v j).mpr hnone)
      rw [if_neg hempty, if_pos (h j List.mem_cons_self hne), ih _ hrest hlater,
        TableDataVector.rows_append, TableDataVector.rows_only]
      by_cases hk : k = j
      · simp [hk, hj]
      · simp [hk]

/-- Where a write fails, its table gets nothing. -/
theorem rows_insertTables_refused (stored : TableDataVector) (hk : k ∈ ks)
    (hne : v.rows k ≠ []) (h : accepts k = false) :
    (insertTables accepts v stored ks).1.rows k = stored.rows k := by
  induction ks generalizing stored with
  | nil => cases hk
  | cons j rest ih =>
    unfold insertTables
    by_cases hkj : k = j
    · subst hkj
      have hempty : ¬ (v.only k).isEmpty = true :=
        fun hnone => hne ((TableDataVector.isEmpty_only v k).mp hnone)
      rw [if_neg hempty, if_neg (by simp [h])]
    · have hrest : k ∈ rest := (List.mem_cons.mp hk).resolve_left hkj
      split
      · exact ih stored hrest
      · split
        · rw [ih _ hrest, TableDataVector.rows_append, TableDataVector.rows_only, if_neg hkj,
            List.append_nil]
        · rfl

end Insert

/-! ## The task -/

/-- `tdv`, the rows that the task has stored, and the telemetry that it has received. -/
structure Buffer where
  tdv : TableDataVector
  stored : TableDataVector
  received : List Telemetry
  deriving Repr, DecidableEq

/-- What the task takes from its select. `accepts` says which inserts succeed if it comes
to a flush. -/
inductive Buffer.Label where
  | insertHubMessage (msg : HubMessage) (accepts : TableName → Bool)
  | tick (accepts : TableName → Bool)

namespace Buffer

def start : Buffer := ⟨TableDataVector.new, TableDataVector.new, []⟩

/-- `repo.insert(&tdv).await.ok(); tdv.clear()`. -/
def flush (accepts : TableName → Bool) (s : Buffer) : Buffer :=
  { s with
    tdv := s.tdv.clear
    stored := (Repository.insert accepts s.tdv s.stored).1 }

/-- `sort_by_vectors`: a message that is no telemetry is dropped. -/
def sortByVectors (s : Buffer) (msg : HubMessage) : Buffer :=
  match Telemetry.ofHub msg with
  | some m => { s with tdv := s.tdv.sortByVectors m, received := s.received ++ [m] }
  | none => s

def step (s : Buffer) : Label → Option Buffer
  | .insertHubMessage msg accepts =>
    let s := s.sortByVectors msg
    some (if s.tdv.isSomeVectorFull then s.flush accepts else s)
  | .tick accepts => some (if s.tdv.isEmpty then s else s.flush accepts)

def machine : Machine Buffer Label where
  init := fun s => s = start
  step := step

/-! ## The law -/

/-- Each table has its rows, stored or buffered, in order and once. -/
def Kept (s : Buffer) : Prop :=
  ∀ k, s.stored.rows k ++ s.tdv.rows k = s.received.filter (fun m => m.table = k)

instance (s : Buffer) : Decidable s.Kept :=
  inferInstanceAs (Decidable (∀ k, s.stored.rows k ++ s.tdv.rows k =
    s.received.filter (fun m => m.table = k)))

/-- Each insert of a flush succeeds. -/
def Accepted (v : TableDataVector) (accepts : TableName → Bool) : Prop :=
  ∀ k, v.rows k ≠ [] → accepts k = true

instance (v : TableDataVector) (accepts : TableName → Bool) : Decidable (Accepted v accepts) :=
  inferInstanceAs (Decidable (∀ k, v.rows k ≠ [] → accepts k = true))

/-- If the step flushes, each table that has rows is written. -/
def Written (s : Buffer) : Label → Prop
  | .insertHubMessage msg accepts =>
    (s.sortByVectors msg).tdv.isSomeVectorFull = true →
      Accepted (s.sortByVectors msg).tdv accepts
  | .tick accepts => Accepted s.tdv accepts

instance (s : Buffer) : (i : Label) → Decidable (s.Written i)
  | .insertHubMessage msg accepts => inferInstanceAs (Decidable
      ((s.sortByVectors msg).tdv.isSomeVectorFull = true →
        Accepted (s.sortByVectors msg).tdv accepts))
  | .tick accepts => inferInstanceAs (Decidable (Accepted s.tdv accepts))

variable {s s' : Buffer} {i : Label} {accepts : TableName → Bool}

theorem kept_start : start.Kept := by
  intro k
  simp [start]

theorem kept_sortByVectors (h : s.Kept) (msg : HubMessage) : (s.sortByVectors msg).Kept := by
  unfold sortByVectors
  cases Telemetry.ofHub msg with
  | none => exact h
  | some m =>
    intro k
    change s.stored.rows k ++ (s.tdv.sortByVectors m).rows k = _
    rw [TableDataVector.rows_sortByVectors, ← List.append_assoc, h k, List.filter_append]

/-- A flush keeps the rows exactly when each of its inserts succeeds. -/
theorem kept_flush (h : s.Kept) : (s.flush accepts).Kept ↔ Accepted s.tdv accepts := by
  constructor
  · intro hkept k hne
    by_contra hno
    rw [Bool.not_eq_true] at hno
    have hnow := hkept k
    change (Repository.insert accepts s.tdv s.stored).1.rows k ++ s.tdv.clear.rows k =
      s.received.filter _ at hnow
    rw [Repository.insert, rows_insertTables_refused s.stored (by cases k <;> decide) hne hno,
      TableDataVector.rows_clear, List.append_nil, ← h k] at hnow
    exact hne (List.self_eq_append_right.mp hnow)
  · intro haccepted k
    change (Repository.insert accepts s.tdv s.stored).1.rows k ++ s.tdv.clear.rows k = _
    rw [Repository.insert, rows_insertTables s.stored (by decide) (fun j _ => haccepted j),
      if_pos (by cases k <;> decide), TableDataVector.rows_clear, List.append_nil]
    exact h k

theorem kept_step (h : s.Kept) (hs : machine.step s i = some s') : s'.Kept ↔ s.Written i := by
  cases i with
  | insertHubMessage msg accepts =>
    obtain rfl := Option.some.inj hs
    have hsorted := kept_sortByVectors h msg
    unfold Written
    split
    · rename_i hfull
      rw [kept_flush hsorted]
      exact ⟨fun haccepted _ => haccepted, fun haccepted => haccepted hfull⟩
    · rename_i hroom
      exact iff_of_true hsorted (fun hfull => absurd hfull hroom)
  | tick accepts =>
    obtain rfl := Option.some.inj hs
    unfold Written
    split
    · rename_i hempty
      exact iff_of_true h (fun k hne => absurd (TableDataVector.rows_of_isEmpty hempty k) hne)
    · exact kept_flush h

/-- The telemetry is stored or buffered at every point exactly in the runs in which each
insert of each flush succeeds. -/
theorem the_buffer_survives_its_flushes {t : List (Buffer × Label)} {s : Buffer}
    (r : machine.Run t s) :
    (∀ x ∈ Machine.visited t s, x.Kept) ↔ Machine.Meets Written t := by
  have hiff := r.avoids_iff (fun _ => True) (fun s => ¬ s.Kept) (fun s i => ¬ s.Written i)
    (by
      rintro s rfl
      exact ⟨trivial, not_not.mpr kept_start⟩)
    (fun _ _ _ _ _ => trivial)
    (fun s i s' _ h hs => not_congr (kept_step (not_not.mp h) hs))
  simpa only [not_not] using hiff

/-- A report and an alert, and a tick at which one insert may fail. -/
def ticks (accepts : TableName → Bool) : List Label :=
  [.insertHubMessage (.report default) (fun _ => true), .insertHubMessage (.heartbeat default)
    (fun _ => true), .insertHubMessage (.alertAir default) (fun _ => true), .tick accepts]

def flushed : Buffer := (machine.final start (ticks (fun _ => true))).get (by decide +kernel)

theorem a_flush_without_errors_keeps_all :
    flushed.Kept ∧ flushed.tdv = .new ∧ flushed.received.length = 2 := by
  have hrun := Machine.run_of_final (m := machine) (ticks (fun _ => true)) rfl (by decide +kernel)
  have hkept := (the_buffer_survives_its_flushes hrun).mpr (by decide +kernel)
  exact ⟨hkept flushed (Machine.last_mem_visited _ _), by decide +kernel, by decide +kernel⟩

/-- The first insert fails: the report is dropped, and the alert is not even tried. -/
theorem a_failed_flush_loses_the_buffer :
    ¬ ∀ (t : List (Buffer × Label)) (s : Buffer), machine.Run t s →
      ∀ x ∈ Machine.visited t s, x.Kept := by
  intro h
  have hrun := Machine.run_of_final (m := machine) (ticks (fun k => k ≠ .measurement)) rfl
    (by decide +kernel)
  have hlast := h _ _ hrun _ (Machine.last_mem_visited _ _)
  revert hlast
  decide +kernel

end Buffer

end EdgeGateway.Database
