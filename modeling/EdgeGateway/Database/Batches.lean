-- The buffer of `dba_insert_task` while writes fail as they like. It never holds a full
-- batch between two steps, what is stored keeps the order of arrival, and a flush that
-- fails loses no more than what one buffer holds.
import EdgeGateway.Database.Flush

namespace EdgeGateway.Database

open EdgeGateway.Lib EdgeGateway.Message

/-! ## What a buffer holds -/

/-- How many rows there are, in all vectors. -/
def TableDataVector.size (v : TableDataVector) : Nat :=
  v.measurement.length + v.monitor.length + v.alertTh.length + v.alertAir.length

/-- No vector has a full batch. -/
def TableDataVector.Open (v : TableDataVector) : Prop := ∀ k, (v.rows k).length < batchSize

namespace TableDataVector

variable {v : TableDataVector}

theorem size_rows (v : TableDataVector) :
    v.size = (v.rows .measurement).length + (v.rows .monitor).length +
      (v.rows .alertTh).length + (v.rows .alertAir).length := by
  simp [size, rows]

theorem size_append (v w : TableDataVector) : (v.append w).size = v.size + w.size := by
  simp only [size, append, List.length_append]
  omega

@[simp] theorem size_new : new.size = 0 := rfl

theorem size_sortByVectors (v : TableDataVector) (m : Telemetry) :
    (v.sortByVectors m).size = v.size + 1 := by
  cases m <;> simp only [size, sortByVectors, List.length_append, List.length_singleton] <;> omega

theorem open_new : new.Open := by
  intro k
  rw [rows_new]
  decide

/-- A message fills one vector at most, and that one shows it. -/
theorem open_sortByVectors (h : v.Open) (m : Telemetry) :
    (v.sortByVectors m).size ≤ 193 ∧
      ((v.sortByVectors m).isSomeVectorFull = false → (v.sortByVectors m).Open) := by
  have hmeasurement := h .measurement
  have hmonitor := h .monitor
  have halertTh := h .alertTh
  have halertAir := h .alertAir
  simp only [rows, List.length_map, batchSize] at hmeasurement hmonitor halertTh halertAir
  constructor
  · rw [size_sortByVectors, size]
    omega
  · intro hfull k
    have hone := rows_sortByVectors v m k
    have hlen : ((v.sortByVectors m).rows k).length ≤ (v.rows k).length + 1 := by
      rw [hone, List.length_append]
      have hfilter := List.length_filter_le (fun m => decide (m.table = k)) [m]
      simp only [List.length_singleton] at hfilter
      omega
    have hbefore := h k
    simp only [isSomeVectorFull, batchSize, Bool.or_eq_false_iff, beq_eq_false_iff_ne] at hfull
    obtain ⟨⟨⟨hm, ha⟩, ht⟩, hn⟩ := hfull
    cases k <;> simp only [rows, List.length_map, batchSize] at hlen hbefore ⊢ <;> omega

theorem size_le_of_open (h : v.Open) : v.size ≤ 193 := by
  have hmeasurement := h .measurement
  have hmonitor := h .monitor
  have halertTh := h .alertTh
  have halertAir := h .alertAir
  simp only [rows, List.length_map, batchSize] at hmeasurement hmonitor halertTh halertAir
  unfold size
  omega

end TableDataVector

/-! ## A flush -/

section Insert

variable (accepts : TableName → Bool) (v : TableDataVector)

/-- Each table gets its rows, or none. -/
theorem rows_insertTables_cases (stored : TableDataVector) {ks : List TableName} (hks : ks.Nodup)
    (k : TableName) :
    (insertTables accepts v stored ks).1.rows k = stored.rows k ∨
      k ∈ ks ∧ (insertTables accepts v stored ks).1.rows k = stored.rows k ++ v.rows k := by
  induction ks generalizing stored with
  | nil => exact .inl rfl
  | cons j rest ih =>
    obtain ⟨hj, hrest⟩ := List.nodup_cons.mp hks
    unfold insertTables
    split
    · rcases ih stored hrest with h | ⟨hmem, h⟩
      · exact .inl h
      · exact .inr ⟨List.mem_cons_of_mem j hmem, h⟩
    · split
      · have hnow : (stored.append (v.only j)).rows k =
            stored.rows k ++ if k = j then v.rows j else [] := by
          rw [TableDataVector.rows_append, TableDataVector.rows_only]
        rcases ih (stored.append (v.only j)) hrest with h | ⟨hmem, h⟩
        · by_cases hk : k = j
          · subst hk
            exact .inr ⟨List.mem_cons_self, by rw [h, hnow, if_pos rfl]⟩
          · exact .inl (by rw [h, hnow, if_neg hk, List.append_nil])
        · have hk : k ≠ j := fun heq => hj (heq ▸ hmem)
          rw [hnow, if_neg hk, List.append_nil] at h
          exact .inr ⟨List.mem_cons_of_mem j hmem, h⟩
      · exact .inl rfl

theorem rows_insert_cases (stored : TableDataVector) (k : TableName) :
    (Repository.insert accepts v stored).1.rows k = stored.rows k ∨
      (Repository.insert accepts v stored).1.rows k = stored.rows k ++ v.rows k := by
  rcases rows_insertTables_cases accepts v stored (show TableName.all.Nodup by decide) k with h | ⟨-, h⟩
  · exact .inl h
  · exact .inr h

theorem size_insert_le (stored : TableDataVector) :
    stored.size ≤ (Repository.insert accepts v stored).1.size := by
  have hrows : ∀ k, (stored.rows k).length ≤
      ((Repository.insert accepts v stored).1.rows k).length := by
    intro k
    rcases rows_insert_cases accepts v stored k with h | h
    · rw [h]
    · rw [h, List.length_append]
      omega
  have hmeasurement := hrows .measurement
  have hmonitor := hrows .monitor
  have halertTh := hrows .alertTh
  have halertAir := hrows .alertAir
  rw [TableDataVector.size_rows, TableDataVector.size_rows]
  omega

/-- Where each write succeeds, all rows are stored. -/
theorem size_insert (stored : TableDataVector) (h : Buffer.Accepted v accepts) :
    (Repository.insert accepts v stored).1.size = stored.size + v.size := by
  have hrows : ∀ k, (Repository.insert accepts v stored).1.rows k =
      stored.rows k ++ v.rows k := by
    intro k
    rw [Repository.insert, rows_insertTables stored (by decide) (fun j _ => h j),
      if_pos (by cases k <;> decide)]
  simp only [TableDataVector.size_rows, hrows, List.length_append]
  omega

end Insert

namespace Buffer

variable {s s' : Buffer} {i : Label}

/-- The step flushes, and a write that it needs fails. -/
def loses (s : Buffer) (i : Label) : Bool := decide (¬ s.Written i)

/-- No vector is full, and the rows of each table are in the order in which they came. -/
structure InOrder (s : Buffer) : Prop where
  room : s.tdv.Open
  order : ∀ k, (s.stored.rows k ++ s.tdv.rows k).Sublist
    (s.received.filter (fun m => m.table = k))

/-- How many rows are stored or buffered. -/
def kept (s : Buffer) : Nat := s.stored.size + s.tdv.size

theorem order_flush (accepts : TableName → Bool)
    (h : ∀ k, (s.stored.rows k ++ s.tdv.rows k).Sublist
      (s.received.filter (fun m => m.table = k))) : (s.flush accepts).InOrder where
  room := TableDataVector.open_new
  order k := by
    have hcleared : (s.flush accepts).tdv.rows k = [] := TableDataVector.rows_new k
    rw [hcleared, List.append_nil]
    rcases rows_insert_cases accepts s.tdv s.stored k with hrows | hrows
    · exact (hrows ▸ List.sublist_append_left _ _ : List.Sublist _ _).trans (h k)
    · exact (hrows ▸ h k : List.Sublist _ _)

/-- What a message does to the buffer before a flush. -/
structure Sorted (s r : Buffer) : Prop where
  order : ∀ k, (r.stored.rows k ++ r.tdv.rows k).Sublist
    (r.received.filter (fun m => m.table = k))
  size : r.tdv.size ≤ 193
  room : r.tdv.isSomeVectorFull = false → r.tdv.Open
  count : r.received.length + s.kept = s.received.length + r.kept

theorem sorted_sortByVectors (h : s.InOrder) (msg : HubMessage) :
    s.Sorted (s.sortByVectors msg) := by
  unfold sortByVectors
  cases Telemetry.ofHub msg with
  | none =>
    exact ⟨h.order, TableDataVector.size_le_of_open h.room, fun _ => h.room, rfl⟩
  | some m =>
    obtain ⟨hsize, hroom⟩ := TableDataVector.open_sortByVectors h.room m
    refine ⟨fun k => ?_, hsize, hroom, ?_⟩
    · change (s.stored.rows k ++ (s.tdv.sortByVectors m).rows k).Sublist
        ((s.received ++ [m]).filter _)
      rw [TableDataVector.rows_sortByVectors, List.filter_append, ← List.append_assoc]
      exact (h.order k).append (List.Sublist.refl _)
    · change (s.received ++ [m]).length + s.kept =
        s.received.length + (s.stored.size + (s.tdv.sortByVectors m).size)
      rw [TableDataVector.size_sortByVectors, List.length_append, List.length_singleton]
      unfold kept
      omega

theorem inOrder_step (h : s.InOrder) (hs : machine.step s i = some s') : s'.InOrder := by
  cases i with
  | insertHubMessage msg accepts =>
    obtain rfl := Option.some.inj hs
    have hsorted := sorted_sortByVectors h msg
    by_cases hfull : (s.sortByVectors msg).tdv.isSomeVectorFull = true
    · rw [if_pos hfull]
      exact order_flush accepts hsorted.order
    · rw [if_neg hfull]
      exact ⟨hsorted.room (Bool.not_eq_true _ ▸ hfull), hsorted.order⟩
  | tick accepts =>
    obtain rfl := Option.some.inj hs
    split
    · exact h
    · exact order_flush accepts h.order

/-- What a flush loses. -/
theorem kept_flush_size (accepts : TableName → Bool) (hsize : s.tdv.size ≤ 193) :
    s.kept ≤ (s.flush accepts).kept + 193 ∧
      (Accepted s.tdv accepts → s.kept = (s.flush accepts).kept) := by
  have hcleared : (s.flush accepts).tdv.size = 0 := rfl
  have hle := size_insert_le accepts s.tdv s.stored
  unfold kept
  rw [hcleared]
  refine ⟨?_, fun haccepted => ?_⟩
  · change s.stored.size + s.tdv.size ≤ (Repository.insert accepts s.tdv s.stored).1.size + 0 + 193
    omega
  · exact (size_insert accepts s.tdv s.stored haccepted).symm

/-- A step loses what one buffer holds at most, and nothing unless a write of it fails. -/
theorem kept_step_size (h : s.InOrder) (hs : machine.step s i = some s') :
    s'.received.length + s.kept ≤
      s.received.length + s'.kept + (if s.loses i then 193 else 0) := by
  have hflush : ∀ (r : Buffer) (accepts : TableName → Bool), s.Sorted r →
      (s.loses i = false → Accepted r.tdv accepts) →
      (r.flush accepts).received.length + s.kept ≤
        s.received.length + (r.flush accepts).kept + (if s.loses i then 193 else 0) := by
    intro r accepts hsorted haccepted
    obtain ⟨hle, heq⟩ := kept_flush_size accepts hsorted.size
    have hcount := hsorted.count
    have hsame : (r.flush accepts).received = r.received := rfl
    rw [hsame]
    by_cases hloses : s.loses i = true
    · rw [if_pos hloses]
      omega
    · have hkept := heq (haccepted (Bool.not_eq_true _ ▸ hloses))
      omega
  cases i with
  | insertHubMessage msg accepts =>
    obtain rfl := Option.some.inj hs
    have hsorted := sorted_sortByVectors h msg
    by_cases hfull : (s.sortByVectors msg).tdv.isSomeVectorFull = true
    · rw [if_pos hfull]
      apply hflush _ accepts hsorted
      intro hloses
      have hwritten := of_decide_eq_false hloses
      exact not_not.mp hwritten hfull
    · rw [if_neg hfull]
      have hcount := hsorted.count
      omega
  | tick accepts =>
    obtain rfl := Option.some.inj hs
    split
    · omega
    · apply hflush s accepts
      · exact ⟨h.order, TableDataVector.size_le_of_open h.room, fun _ => h.room, rfl⟩
      · exact fun hloses => not_not.mp (of_decide_eq_false hloses)

/-- Whatever writes fail: between two steps no vector has a full batch; what is stored and
buffered of each table is in the order in which it came, each message once; and what is missing
was lost by flushes, 193 messages at most by each. -/
theorem a_failed_flush_loses_one_buffer (t : List (Buffer × Label)) (s : Buffer)
    (r : machine.Run t s) :
    (∀ k, (s.tdv.rows k).length < batchSize) ∧
      (∀ k, (s.stored.rows k ++ s.tdv.rows k).Sublist
        (s.received.filter (fun m => m.table = k))) ∧
      s.received.length ≤
        s.stored.size + s.tdv.size + 193 * t.countP (fun p => p.1.loses p.2) := by
  have hinv : ∀ {t : List (Buffer × Label)} {s : Buffer}, machine.Run t s → s.InOrder := by
    intro t s r
    refine r.always InOrder ?_ (fun s i s' h hs => inOrder_step h hs)
    rintro s rfl
    exact ⟨TableDataVector.open_new, fun k => by simp [start]⟩
  refine ⟨(hinv r).room, (hinv r).order, ?_⟩
  change s.received.length ≤ s.kept + _
  induction r with
  | start h =>
    obtain rfl : _ = start := h
    exact Nat.zero_le _
  | @move t s s' i r hs ih =>
    have hstep := kept_step_size (hinv r) hs
    rw [List.countP_append, List.countP_singleton, Nat.mul_add]
    by_cases hloses : s.loses i = true
    · simp only [hloses, if_true] at hstep ⊢
      omega
    · simp only [hloses, if_false, Bool.false_eq_true] at hstep ⊢
      omega

theorem a_flush_loses_two_messages :
    ∃ (t : List (Buffer × Label)) (s : Buffer), machine.Run t s ∧ s.received.length = 2 ∧
      s.stored.size = 0 ∧ s.received.length ≤
        s.stored.size + s.tdv.size + 193 * t.countP (fun p => p.1.loses p.2) := by
  have hrun := Machine.run_of_final (m := machine) (ticks (fun k => k ≠ .measurement)) rfl
    (by decide +kernel)
  exact ⟨_, _, hrun, by decide +kernel, by decide +kernel,
    (a_failed_flush_loses_one_buffer _ _ hrun).2.2⟩

end Buffer

end EdgeGateway.Database
