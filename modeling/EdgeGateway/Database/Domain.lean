-- The telemetry that is stored and forwarded. `TableDataVector` is the
-- buffer of `dba_insert_task`, the four tables seen as queues, and what one
-- round of pops takes from them; `messages` is what a law counts.
import EdgeGateway.Message.Domain
import Mathlib.Algebra.Order.Group.Multiset
import Mathlib.Tactic.Abel

namespace EdgeGateway.Database

open EdgeGateway.Message

/-! ## The vectors -/

/-- A hub message that is stored while the server cannot be reached. -/
inductive Telemetry where
  | report (msg : Measurement)
  | monitor (msg : Monitor)
  | alertAir (msg : AlertAir)
  | alertTem (msg : AlertTh)
  deriving Repr, DecidableEq

structure TableDataVector where
  measurement : List Measurement
  alertAir : List AlertAir
  alertTh : List AlertTh
  monitor : List Monitor
  deriving Repr, DecidableEq

/-- The tables, in the order in which they are written and popped. -/
inductive TableName where
  | measurement
  | monitor
  | alertTh
  | alertAir
  deriving Repr, DecidableEq

def TableName.all : List TableName := [.measurement, .monitor, .alertTh, .alertAir]

/-- `BATCH_SIZE`. -/
def batchSize : Nat := 49

namespace TableDataVector

def new : TableDataVector := ⟨[], [], [], []⟩

def isEmpty (v : TableDataVector) : Bool :=
  v.measurement.isEmpty && v.alertAir.isEmpty && v.alertTh.isEmpty && v.monitor.isEmpty

def isSomeVectorFull (v : TableDataVector) : Bool :=
  v.measurement.length == batchSize || v.alertAir.length == batchSize ||
    v.alertTh.length == batchSize || v.monitor.length == batchSize

/-- `sort_by_vectors`: the message goes to the vector of its kind. -/
def sortByVectors (v : TableDataVector) : Telemetry → TableDataVector
  | .report msg => { v with measurement := v.measurement ++ [msg] }
  | .monitor msg => { v with monitor := v.monitor ++ [msg] }
  | .alertAir msg => { v with alertAir := v.alertAir ++ [msg] }
  | .alertTem msg => { v with alertTh := v.alertTh ++ [msg] }

/-- All rows of both. -/
def append (v w : TableDataVector) : TableDataVector :=
  ⟨v.measurement ++ w.measurement, v.alertAir ++ w.alertAir, v.alertTh ++ w.alertTh,
    v.monitor ++ w.monitor⟩

/-- The first `n` rows of one vector, and no other row. -/
def oldest (n : Nat) (v : TableDataVector) : TableName → TableDataVector
  | .measurement => { new with measurement := v.measurement.take n }
  | .monitor => { new with monitor := v.monitor.take n }
  | .alertTh => { new with alertTh := v.alertTh.take n }
  | .alertAir => { new with alertAir := v.alertAir.take n }

/-- The rows that `oldest` leaves. -/
def skip (n : Nat) (v : TableDataVector) : TableName → TableDataVector
  | .measurement => { v with measurement := v.measurement.drop n }
  | .monitor => { v with monitor := v.monitor.drop n }
  | .alertTh => { v with alertTh := v.alertTh.drop n }
  | .alertAir => { v with alertAir := v.alertAir.drop n }

/-- All the rows of one vector. -/
def only (v : TableDataVector) : TableName → TableDataVector
  | .measurement => { new with measurement := v.measurement }
  | .monitor => { new with monitor := v.monitor }
  | .alertTh => { new with alertTh := v.alertTh }
  | .alertAir => { new with alertAir := v.alertAir }

/-- The messages behind the rows, in no order. -/
def messages (v : TableDataVector) : Multiset Telemetry :=
  (v.measurement.map .report : List Telemetry) + (v.alertAir.map .alertAir : List Telemetry) +
    (v.alertTh.map .alertTem : List Telemetry) + (v.monitor.map .monitor : List Telemetry)

/-! ## What happens to the messages -/

@[simp] theorem messages_new : new.messages = 0 := rfl

@[simp] theorem messages_append (v w : TableDataVector) :
    (v.append w).messages = v.messages + w.messages := by
  simp only [messages, append, List.map_append, ← Multiset.coe_add]
  abel

@[simp] theorem messages_sortByVectors (v : TableDataVector) (m : Telemetry) :
    (v.sortByVectors m).messages = v.messages + {m} := by
  cases m <;>
    simp only [messages, sortByVectors, List.map_append, List.map_cons, List.map_nil,
      ← Multiset.coe_add, Multiset.coe_singleton] <;>
    abel

theorem messages_oldest_skip (n : Nat) (v : TableDataVector) (k : TableName) :
    (v.oldest n k).messages + (v.skip n k).messages = v.messages := by
  have hsplit : ∀ {α : Type} (l : List α) (f : α → Telemetry),
      ((l.map f : List Telemetry) : Multiset Telemetry) =
        ((l.take n).map f : List Telemetry) + ((l.drop n).map f : List Telemetry) := by
    intro α l f
    rw [Multiset.coe_add, ← List.map_append, List.take_append_drop]
  cases k
  · simp only [messages, oldest, skip, new, hsplit v.measurement, List.map_nil, Multiset.coe_nil]
    abel
  · simp only [messages, oldest, skip, new, hsplit v.monitor, List.map_nil, Multiset.coe_nil]
    abel
  · simp only [messages, oldest, skip, new, hsplit v.alertTh, List.map_nil, Multiset.coe_nil]
    abel
  · simp only [messages, oldest, skip, new, hsplit v.alertAir, List.map_nil, Multiset.coe_nil]
    abel

/-- Each row is in one vector. -/
theorem messages_all (v : TableDataVector) :
    (TableName.all.map (fun k => (v.only k).messages)).sum = v.messages := by
  simp only [TableName.all, List.map_cons, List.map_nil, List.sum_cons, List.sum_nil, messages,
    only, new, Multiset.coe_nil]
  abel

theorem isEmpty_iff (v : TableDataVector) : v.isEmpty = true ↔ v = new := by
  obtain ⟨a, b, c, d⟩ := v
  simp [isEmpty, new, and_assoc]

end TableDataVector

end EdgeGateway.Database
