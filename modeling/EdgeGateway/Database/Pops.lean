-- The drain of `get_all_tables` over its pops. `Repository::pop_batch` empties the four tables
-- one after the other and stops at the first pop that fails; what it has taken by then is in
-- no table and in no batch.
import EdgeGateway.Database.Flush
import EdgeGateway.Database.Tables
import Mathlib.Algebra.Order.Floor.Div
import Mathlib.Data.Fintype.Lattice
import Mathlib.Data.List.TakeWhile
import Mathlib.Order.Lattice.Nat

namespace EdgeGateway.Database

open EdgeGateway.Lib EdgeGateway.Lib.Sql EdgeGateway.Message

/-! ## The tables -/

/-- The rows of a table, as its struct has them. -/
abbrev TableName.Row : TableName → Type
  | .measurement => Measurement
  | .monitor => Monitor
  | .alertTh => AlertTh
  | .alertAir => AlertAir

abbrev Stores : Type := (k : TableName) → Store k.Row

namespace TableDataVector

/-- The vector of a table. -/
def column (v : TableDataVector) : (k : TableName) → List k.Row
  | .measurement => v.measurement
  | .monitor => v.monitor
  | .alertTh => v.alertTh
  | .alertAir => v.alertAir

def newPop (rows : (k : TableName) → List k.Row) : TableDataVector :=
  ⟨rows .measurement, rows .alertAir, rows .alertTh, rows .monitor⟩

@[simp] theorem column_newPop (rows : (k : TableName) → List k.Row) (k : TableName) :
    (newPop rows).column k = rows k := by
  cases k <;> rfl

theorem isEmpty_newPop (rows : (k : TableName) → List k.Row) :
    (newPop rows).isEmpty = true ↔ ∀ k, rows k = [] := by
  constructor
  · intro h k
    simp only [isEmpty, newPop, Bool.and_eq_true, List.isEmpty_iff] at h
    cases k <;> tauto
  · intro h
    simp [isEmpty, newPop, h]

end TableDataVector

/-! ## `Repository::pop_batch` -/

/-- `DELETE ... RETURNING *` promises no order for the rows that it returns. -/
structure Returning where
  order : {ρ : Type} → List (Nat × ρ) → List (Nat × ρ)
  perm : ∀ {ρ : Type} (rows : List (Nat × ρ)), (order rows).Perm rows

/-- The order in which the rows are stored. -/
def Returning.stored : Returning := ⟨fun rows => rows, fun rows => List.Perm.refl rows⟩

/-- The rows with the smallest ids go, and are returned. -/
def popBatchGeneric {ρ : Type} (o : Returning) (s : Store ρ) : List ρ × Store ρ :=
  ((o.order (s.rows.filter (fun r => r.1 ∈ s.oldest limit))).map Prod.snd, (s.pop limit).2)

/-- The tables are popped one after the other, and the first error ends it. `accepts` says of
each table whether its pop succeeds; one that fails leaves its table. -/
def popTables (o : Returning) (accepts : TableName → Bool) :
    List TableName → ((k : TableName) → List k.Row) → Stores →
      Option ((k : TableName) → List k.Row) × Stores
  | [], got, t => (some got, t)
  | k :: rest, got, t =>
    if accepts k then
      popTables o accepts rest (Function.update got k (popBatchGeneric o (t k)).1)
        (Function.update t k (popBatchGeneric o (t k)).2)
    else (none, t)

def Repository.popBatch (o : Returning) (accepts : TableName → Bool) (t : Stores) :
    Option TableDataVector × Stores :=
  let out := popTables o accepts TableName.all (fun _ => []) t
  (out.1.map TableDataVector.newPop, out.2)

section Pop

variable {ρ : Type} {o : Returning} {accepts : TableName → Bool} {t : Stores}

theorem popBatchGeneric_perm (o : Returning) (s : Store ρ) :
    (popBatchGeneric o s).1.Perm (s.records.take limit) := by
  have hpop : (s.rows.filter (fun r => r.1 ∈ s.oldest limit)).map Prod.snd =
      s.records.take limit := (s.pop_eq limit).1
  rw [← hpop]
  exact (o.perm _).map Prod.snd

theorem popBatchGeneric_records (o : Returning) (s : Store ρ) :
    (popBatchGeneric o s).2.records = s.records.drop limit := (s.pop_eq limit).2

theorem popBatchGeneric_eq_nil (o : Returning) (s : Store ρ) :
    (popBatchGeneric o s).1 = [] ↔ s.records = [] := by
  have hperm := popBatchGeneric_perm o s
  constructor
  · intro h
    rw [h] at hperm
    have htake := List.nil_perm.mp hperm
    rcases hr : s.records with _ | ⟨r, rest⟩
    · rfl
    · simp [hr, limit] at htake
  · intro h
    rw [h] at hperm
    exact List.perm_nil.mp hperm

/-- A pop leaves its table as it was exactly when it finds it empty. -/
theorem popBatchGeneric_same (o : Returning) (s : Store ρ) :
    (popBatchGeneric o s).2.rows = s.rows ↔ s.records = [] := by
  constructor
  · intro h
    have hrecords := popBatchGeneric_records o s
    rw [Store.records, h, ← Store.records] at hrecords
    have hlength := congrArg List.length hrecords
    rw [List.length_drop] at hlength
    have hlimit : 0 < limit := by decide
    exact List.length_eq_zero_iff.mp (by omega)
  · intro h
    have hrows : s.rows = [] := List.map_eq_nil_iff.mp h
    simp [popBatchGeneric, Store.pop, hrows]

/-- The tables before the first pop that fails are popped. -/
theorem popTables_eq (o : Returning) (accepts : TableName → Bool) {ks : List TableName}
    (hks : ks.Nodup) (got : (k : TableName) → List k.Row) (t : Stores) :
    popTables o accepts ks got t =
      (if ks.all accepts then
        some (fun k => if k ∈ ks then (popBatchGeneric o (t k)).1 else got k) else none,
        fun k => if k ∈ ks.takeWhile accepts then (popBatchGeneric o (t k)).2 else t k) := by
  induction ks generalizing got t with
  | nil => simp [popTables]
  | cons j rest ih =>
    obtain ⟨hj, hrest⟩ := List.nodup_cons.mp hks
    unfold popTables
    by_cases haccepts : accepts j = true
    · have hnot : j ∉ rest.takeWhile accepts := 
        fun h => hj ((List.takeWhile_prefix accepts).subset h)
      rw [if_pos haccepts, ih hrest]
      refine Prod.ext ?_ ?_
      · simp only [List.all_cons, haccepts, Bool.true_and]
        split
        · congr 1
          funext k
          by_cases hk : k = j
          · subst hk
            simp [hj]
          · simp [hk]
        · rfl
      · funext k
        by_cases hk : k = j
        · subst hk
          simp [haccepts, hnot]
        · simp [haccepts, hk]
    · rw [if_neg haccepts]
      simp [haccepts]

/-- A pop of all tables takes a block of each. -/
theorem popBatch_accepted (o : Returning) (h : ∀ k, accepts k = true) (t : Stores) :
    Repository.popBatch o accepts t =
      (some (.newPop (fun k => (popBatchGeneric o (t k)).1)),
        fun k => (popBatchGeneric o (t k)).2) := by
  have hall : ∀ k, k ∈ TableName.all := by decide
  have hevery : TableName.all.all accepts = true := List.all_eq_true.mpr (fun k _ => h k)
  have hwhole : TableName.all.takeWhile accepts = TableName.all :=
    List.takeWhile_eq_self_iff.mpr (fun k _ => h k)
  simp [Repository.popBatch, popTables_eq o accepts (by decide : TableName.all.Nodup), hevery,
    hwhole, hall]

/-- The tables before the first one whose pop fails. -/
def poppedBefore (accepts : TableName → Bool) : List TableName :=
  TableName.all.takeWhile accepts

theorem popBatch_refused (o : Returning) {k : TableName} (h : accepts k = false) (t : Stores) :
    Repository.popBatch o accepts t =
      (none, fun k => if k ∈ poppedBefore accepts then (popBatchGeneric o (t k)).2 else t k) := by
  have hall : k ∈ TableName.all := by cases k <;> decide
  have hsome : ¬ TableName.all.all accepts = true := by
    intro hevery
    simp [List.all_eq_true.mp hevery k hall] at h
  unfold Repository.popBatch
  rw [popTables_eq o accepts (by decide)]
  simp only [if_neg hsome, Option.map_none]
  rfl

end Pop

/-! ## `get_all_tables` -/

/-- The tables, whether `get_all_tables` is in its loop, and what it has sent. `stored` is all
that the tables have ever held; nothing reads it. -/
structure Drain where
  tables : Stores
  running : Bool
  sent : List TableDataVector
  stored : (k : TableName) → List k.Row

/-- A turn of the loop pops a batch and sends it; `delivered` says whether the channel is open.
`dba_insert_task` may write rows between two turns. -/
inductive Drain.Label where
  | insert (k : TableName) (rows : List k.Row)
  | getAllTables
  | popBatch (accepts : TableName → Bool) (delivered : Bool)

namespace Drain

def start (t : Stores) : Drain := ⟨t, false, [], fun k => (t k).records⟩

/-- What the loop does with a batch, or with the error. -/
def afterPop (s : Drain) (delivered : Bool) : Option TableDataVector × Stores → Drain
  | (some tdv, t) =>
    if tdv.isEmpty then { s with tables := t, running := false }
    else if delivered then { s with tables := t, sent := s.sent ++ [tdv] }
    else { s with tables := t, running := false }
  | (none, t) => { s with tables := t, running := false }

def step (o : Returning) (s : Drain) : Label → Option Drain
  | .insert k rows => some { s with
      tables := Function.update s.tables k ((s.tables k).append rows)
      stored := Function.update s.stored k (s.stored k ++ rows) }
  | .getAllTables => if s.running then none else some { s with running := true }
  | .popBatch accepts delivered =>
    if s.running then some (s.afterPop delivered (Repository.popBatch o accepts s.tables))
    else none

def machine (o : Returning) : Machine Drain Label where
  init := fun s => ∃ t, s = start t
  step := step o

/-! ## What a turn loses -/

/-- What the batches have of a table, in their order. -/
def forwarded (s : Drain) (k : TableName) : List k.Row := s.sent.flatMap (fun v => v.column k)

/-- Each row that was ever stored is in its table or in a batch that was sent, and once. -/
def Accounted (s : Drain) : Prop :=
  ∀ k, (s.forwarded k ++ (s.tables k).records).Perm (s.stored k)

end Drain

/-- A pop of all tables that fails leaves them as they were. -/
def KeepsTables (o : Returning) (accepts : TableName → Bool) (t : Stores) : Prop :=
  (Repository.popBatch o accepts t).1 = none →
    ∀ k, ((Repository.popBatch o accepts t).2 k).rows = (t k).rows

/-- No pop fails, or those before the first one that does find their tables empty. -/
def Untouched (accepts : TableName → Bool) (t : Stores) : Prop :=
  (∀ k, accepts k = true) ∨ ∀ k ∈ poppedBefore accepts, (t k).records = []

instance (accepts : TableName → Bool) (t : Stores) : Decidable (Untouched accepts t) :=
  inferInstanceAs (Decidable (_ ∨ _))

/-- The turn loses nothing: the pops that succeed before one that fails find their tables empty,
and so do all of them if the channel is closed. -/
def Drain.Lossless (s : Drain) : Drain.Label → Prop
  | .popBatch accepts delivered =>
    Untouched accepts s.tables ∧
      ((∀ k, accepts k = true) → delivered = true ∨ ∀ k, (s.tables k).records = [])
  | _ => True

theorem keepsTables_iff (o : Returning) (accepts : TableName → Bool) (t : Stores) :
    KeepsTables o accepts t ↔ Untouched accepts t := by
  unfold KeepsTables Untouched
  by_cases hall : ∀ k, accepts k = true
  · rw [popBatch_accepted o hall]
    simp [hall]
  · obtain ⟨j, hj⟩ := not_forall.mp hall
    rw [popBatch_refused o (Bool.not_eq_true _ ▸ hj)]
    simp only [hall, false_or, forall_const]
    constructor
    · intro h k hk
      have hrows := h k
      rw [if_pos hk] at hrows
      exact (popBatchGeneric_same o (t k)).mp hrows
    · intro h k
      split
      · rename_i hk
        exact (popBatchGeneric_same o (t k)).mpr (h k hk)
      · rfl

namespace Drain

variable {o : Returning} {s s' : Drain} {i : Label}

theorem accounted_start (t : Stores) : (start t).Accounted := by
  intro k
  simp [start, forwarded]

/-- Where the tables `P` are popped and nothing is sent, no row is lost exactly when these
tables are empty. -/
theorem accounted_unsent (h : s.Accounted) (o : Returning) {P : TableName → Prop}
    [DecidablePred P] {t : Stores} {running : Bool}
    (ht : t = fun k => if P k then (popBatchGeneric o (s.tables k)).2 else s.tables k) :
    ({ s with tables := t, running } : Drain).Accounted ↔
      ∀ k, P k → (s.tables k).records = [] := by
  subst ht
  constructor
  · intro hnow k hk
    have hlost := (hnow k).trans (h k).symm
    simp only [if_pos hk, popBatchGeneric_records] at hlost
    have hlength := hlost.length_eq
    simp only [List.length_append, List.length_drop, forwarded] at hlength
    have hlimit : 0 < limit := by decide
    exact List.length_eq_zero_iff.mp (by omega)
  · intro hempty k
    show (s.forwarded k ++ Store.records (if P k then _ else _)).Perm (s.stored k)
    split
    · rename_i hk
      have hsame : (popBatchGeneric o (s.tables k)).2.records = (s.tables k).records := by
        rw [popBatchGeneric_records, hempty k hk, List.drop_nil]
      rw [hsame]
      exact h k
    · exact h k

/-- A batch that is sent has what is gone from the tables. -/
theorem accounted_sent (h : s.Accounted) (o : Returning) {tdv : TableDataVector} {t : Stores}
    (hv : tdv = .newPop (fun k => (popBatchGeneric o (s.tables k)).1))
    (ht : t = fun k => (popBatchGeneric o (s.tables k)).2) :
    ({ s with tables := t, sent := s.sent ++ [tdv] } : Drain).Accounted := by
  subst hv ht
  intro k
  have hblock := popBatchGeneric_perm o (s.tables k)
  have hwhole : (s.forwarded k ++ ((popBatchGeneric o (s.tables k)).1 ++
      (popBatchGeneric o (s.tables k)).2.records)).Perm
      (s.forwarded k ++ (s.tables k).records) := by
    refine List.Perm.append_left _ ?_
    rw [popBatchGeneric_records]
    simpa using hblock.append_right ((s.tables k).records.drop limit)
  rw [← List.append_assoc] at hwhole
  simpa [forwarded] using hwhole.trans (h k)

/-- A turn keeps the rows exactly when it loses none. -/
theorem accounted_popBatch (h : s.Accounted) (accepts : TableName → Bool) (delivered : Bool) :
    (s.afterPop delivered (Repository.popBatch o accepts s.tables)).Accounted ↔
      s.Lossless (.popBatch accepts delivered) := by
  unfold Lossless Untouched
  by_cases hall : ∀ k, accepts k = true
  · rw [popBatch_accepted o hall]
    have hunsent : ({ s with
        tables := fun k => (popBatchGeneric o (s.tables k)).2, running := false } :
        Drain).Accounted ↔ ∀ k, (s.tables k).records = [] := by
      have hempty : ({ s with
          tables := fun k => (popBatchGeneric o (s.tables k)).2, running := false } :
          Drain).Accounted ↔ ∀ k, True → (s.tables k).records = [] :=
        accounted_unsent h o (by simp)
      simpa using hempty
    simp only [hall, implies_true, true_or, true_and, forall_const]
    unfold afterPop
    simp only
    split
    · rename_i hempty
      have hnone : ∀ k, (s.tables k).records = [] := fun k =>
        (popBatchGeneric_eq_nil o _).mp ((TableDataVector.isEmpty_newPop _).mp hempty k)
      exact iff_of_true (hunsent.mpr hnone) (Or.inr hnone)
    · rename_i hne
      split
      · rename_i hdelivered
        exact iff_of_true (accounted_sent h o rfl rfl) (Or.inl hdelivered)
      · rename_i hclosed
        rw [hunsent]
        simp [hclosed]
  · obtain ⟨j, hj⟩ := not_forall.mp hall
    rw [popBatch_refused o (Bool.not_eq_true _ ▸ hj)]
    simp only [hall, false_or, false_implies, and_true]
    exact accounted_unsent h o rfl

theorem accounted_step (h : s.Accounted) (hs : (machine o).step s i = some s') :
    s'.Accounted ↔ s.Lossless i := by
  cases i with
  | insert k rows =>
    obtain rfl := Option.some.inj hs
    refine iff_of_true (fun j => ?_) trivial
    by_cases hj : j = k
    · subst hj
      simpa [forwarded] using (h j).append_right rows
    · simpa [forwarded, hj] using h j
  | getAllTables =>
    simp only [machine, step, Option.ite_none_left_eq_some, Option.some.injEq] at hs
    obtain ⟨-, rfl⟩ := hs
    exact iff_of_true h trivial
  | popBatch accepts delivered =>
    simp only [machine, step, Option.ite_none_right_eq_some, Option.some.injEq] at hs
    obtain ⟨-, rfl⟩ := hs
    exact accounted_popBatch h accepts delivered

end Drain

/-- A pop of all tables that fails leaves them exactly when the pops before the one that failed
found nothing; and over any calls of `get_all_tables`, each row that left its table was sent
exactly when each turn is such or sends what it popped. -/
theorem a_failed_pop_loses_nothing (o : Returning) :
    (∀ (accepts : TableName → Bool) (t : Stores),
      KeepsTables o accepts t ↔ Untouched accepts t) ∧
    ∀ (t : List (Drain × Drain.Label)) (s : Drain), (Drain.machine o).Run t s →
      ((∀ x ∈ Machine.visited t s, x.Accounted) ↔ Machine.Meets Drain.Lossless t) := by
  refine ⟨keepsTables_iff o, fun t s r => ?_⟩
  have hiff := r.avoids_iff (fun _ => True) (fun s => ¬ s.Accounted) (fun s i => ¬ s.Lossless i)
    (by
      rintro s ⟨t, rfl⟩
      exact ⟨trivial, not_not.mpr (Drain.accounted_start t)⟩)
    (fun _ _ _ _ _ => trivial)
    (fun s i s' _ h hs => not_congr (Drain.accounted_step (not_not.mp h) hs))
  simpa only [not_not] using hiff

/-- One row in the table of the readings. -/
def oneReading : Stores
  | .measurement => Store.new.append [default]
  | _ => Store.new

/-- The second pop fails: the reading is popped and in no batch. -/
theorem a_failed_pop_loses_the_block :
    ¬ ∀ (accepts : TableName → Bool) (t : Stores), KeepsTables .stored accepts t := by
  intro h
  have hkeeps := h (fun k => k = .measurement) oneReading
  rw [keepsTables_iff] at hkeeps
  revert hkeeps
  decide +kernel

/-! ## A drain without errors -/

/-- The turns that find a row, in a loop over all the tables. -/
def rounds (t : Stores) : Nat :=
  Finset.univ.sup (fun k => (t k).records.length ⌈/⌉ limit)

theorem rounds_le_iff (t : Stores) (m : Nat) :
    rounds t ≤ m ↔ ∀ k, (t k).records.length ≤ limit * m := by
  have hlimit : 0 < limit := by decide
  unfold rounds
  rw [Finset.sup_le_iff]
  constructor
  · intro h k
    exact (ceilDiv_le_iff_le_mul hlimit).mp (h k (Finset.mem_univ k))
  · intro h k _
    exact (ceilDiv_le_iff_le_mul hlimit).mpr (h k)

theorem rounds_eq_zero (t : Stores) : rounds t = 0 ↔ ∀ k, (t k).records = [] := by
  rw [← Nat.le_zero, rounds_le_iff]
  simp

/-- The tables after a pop. -/
def popped (o : Returning) (t : Stores) : Stores := fun k => (popBatchGeneric o (t k)).2

/-- A pop makes the loop one turn shorter. -/
theorem rounds_popped (o : Returning) {t : Stores} {m : Nat} (h : rounds t = m + 1) :
    rounds (popped o t) = m := by
  have hshorter : ∀ j, rounds (popped o t) ≤ j ↔ rounds t ≤ j + 1 := by
    intro j
    rw [rounds_le_iff, rounds_le_iff]
    refine forall_congr' fun k => ?_
    rw [popped, popBatchGeneric_records, List.length_drop, Nat.mul_succ]
    omega
  refine Nat.le_antisymm ((hshorter m).mpr (Nat.le_of_eq h)) ?_
  have hlonger := (hshorter _).mp (Nat.le_refl (rounds (popped o t)))
  omega

namespace Drain

/-- A turn in which no pop fails and the channel is open. -/
def turn : Label := .popBatch (fun _ => true) true

variable {o : Returning} {s : Drain}

/-- The last turn finds nothing. -/
theorem step_turn_empty (hrunning : s.running = true) (h : rounds s.tables = 0) :
    (machine o).step s turn = some { s with tables := popped o s.tables, running := false } := by
  have hempty : (TableDataVector.newPop (fun k => (popBatchGeneric o (s.tables k)).1)).isEmpty =
      true := (TableDataVector.isEmpty_newPop _).mpr
        (fun k => (popBatchGeneric_eq_nil o _).mpr ((rounds_eq_zero _).mp h k))
  simp only [machine, step, turn, hrunning, if_true, popBatch_accepted o (fun _ => rfl), afterPop,
    hempty]
  rfl

/-- Any turn before it sends a batch that is not empty. -/
theorem step_turn {m : Nat} (hrunning : s.running = true) (h : rounds s.tables = m + 1) :
    ∃ tdv : TableDataVector, tdv.isEmpty = false ∧
      (∀ k, (tdv.column k).Perm ((s.tables k).records.take limit)) ∧
      (machine o).step s turn =
        some { s with tables := popped o s.tables, sent := s.sent ++ [tdv] } := by
  have hne : (TableDataVector.newPop (fun k => (popBatchGeneric o (s.tables k)).1)).isEmpty =
      false := by
    rw [Bool.eq_false_iff]
    intro hempty
    have hnone : rounds s.tables = 0 := (rounds_eq_zero _).mpr fun k =>
      (popBatchGeneric_eq_nil o _).mp ((TableDataVector.isEmpty_newPop _).mp hempty k)
    omega
  refine ⟨_, hne, fun k => ?_, ?_⟩
  · rw [TableDataVector.column_newPop]
    exact popBatchGeneric_perm o (s.tables k)
  · simp only [machine, step, turn, hrunning, if_true, popBatch_accepted o (fun _ => rfl),
      afterPop, hne]
    rfl

/-- The loop ends with the first turn that finds nothing, and has sent the blocks of each table
by then. -/
theorem final_turns {m : Nat} (hrunning : s.running = true) (h : rounds s.tables = m) :
    (∀ p ≤ m, ∃ d, (machine o).final s (List.replicate p turn) = some d ∧ d.running = true) ∧
    ∃ d batches, (machine o).final s (List.replicate (m + 1) turn) = some d ∧
      d.running = false ∧ d.sent = s.sent ++ batches ∧
      (∀ k, List.Forall₂ List.Perm (batches.map (fun v => v.column k))
        (blocks limit m (s.tables k).records)) ∧
      (∀ v ∈ batches, v.isEmpty = false) ∧ ∀ k, (d.tables k).records = [] := by
  induction m generalizing s with
  | zero =>
    refine ⟨?_, { s with tables := popped o s.tables, running := false }, [], ?_, rfl, by simp,
      by simp [blocks], by simp, ?_⟩
    · intro p hp
      obtain rfl := Nat.le_zero.mp hp
      exact ⟨s, rfl, hrunning⟩
    · rw [Nat.zero_add, List.replicate_one, Machine.final, List.foldlM_cons,
        step_turn_empty hrunning h]
      rfl
    · intro k
      show (popped o s.tables k).records = []
      rw [popped, popBatchGeneric_records, (rounds_eq_zero _).mp h k, List.drop_nil]
  | succ m ih =>
    obtain ⟨tdv, hne, hperm, hstep⟩ := step_turn (o := o) hrunning h
    have hnext : ∀ p, (machine o).final s (List.replicate (p + 1) turn) =
        (machine o).final { s with tables := popped o s.tables, sent := s.sent ++ [tdv] }
          (List.replicate p turn) := by
      intro p
      rw [List.replicate_succ, Machine.final, List.foldlM_cons, hstep]
      rfl
    obtain ⟨hgoes, d, batches, hfinal, hended, hsent, hblocks, hfull, hempty⟩ :=
      ih (s := { s with tables := popped o s.tables, sent := s.sent ++ [tdv] }) hrunning
        (rounds_popped o h)
    refine ⟨?_, d, tdv :: batches, (hnext _).trans hfinal, hended, by simp [hsent], ?_, ?_,
      hempty⟩
    · rintro (_ | p) hp
      · exact ⟨s, rfl, hrunning⟩
      · rw [hnext]
        exact hgoes p (Nat.le_of_succ_le_succ hp)
    · intro k
      have hlater := hblocks k
      simp only [popped, popBatchGeneric_records] at hlater
      exact List.Forall₂.cons (hperm k) hlater
    · intro v hv
      rcases List.mem_cons.mp hv with rfl | hv
      · exact hne
      · exact hfull v hv

end Drain

/-- Without errors, `get_all_tables` ends with the turn after the last one that finds a row. It
has sent the rows of each table, in blocks from the smallest id on, each row once and no batch
without one. -/
theorem the_drain_forwards_each_row_once (o : Returning) (t : Stores) :
    (∀ p ≤ rounds t, ∃ d, (Drain.machine o).final (Drain.start t)
      (.getAllTables :: List.replicate p Drain.turn) = some d ∧ d.running = true) ∧
    ∃ d, (Drain.machine o).final (Drain.start t)
        (.getAllTables :: List.replicate (rounds t + 1) Drain.turn) = some d ∧
      d.running = false ∧
      (∀ k, List.Forall₂ List.Perm (d.sent.map (fun v => v.column k))
        (blocks limit (rounds t) (t k).records)) ∧
      (∀ k, (d.forwarded k).Perm (t k).records) ∧
      (∀ v ∈ d.sent, v.isEmpty = false) ∧ ∀ k, (d.tables k).records = [] := by
  have hcall : ∀ is, (Drain.machine o).final (Drain.start t) (.getAllTables :: is) =
      (Drain.machine o).final { Drain.start t with running := true } is := fun is => rfl
  obtain ⟨hgoes, d, batches, hfinal, hended, hsent, hblocks, hfull, hempty⟩ :=
    Drain.final_turns (o := o) (s := { Drain.start t with running := true }) rfl rfl
  obtain rfl : d.sent = batches := by simpa [Drain.start] using hsent
  refine ⟨fun p hp => ?_, d, ?_, hended, hblocks, fun k => ?_, hfull, hempty⟩
  · rw [hcall]
    exact hgoes p hp
  · rw [hcall]
    exact hfinal
  · have hwhole : (blocks limit (rounds t) (t k).records).flatten = (t k).records :=
      flatten_blocks (Nat.mul_comm limit _ ▸ (rounds_le_iff t _).mp (Nat.le_refl _) k)
    rw [← hwhole, Drain.forwarded, List.flatMap]
    exact List.Perm.flatten_congr (hblocks k)

end EdgeGateway.Database
