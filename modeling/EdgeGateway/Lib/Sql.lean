-- A table whose rows get increasing ids, filled by batches and emptied from
-- the oldest row. What a row loses on the way is decided by three
-- descriptions of it: the columns declared, those an insertion names and
-- those a reader asks for. `roundTrip_iff` says when the three agree.
import Mathlib.Data.List.Sort

namespace EdgeGateway.Lib.Sql

universe u

/-! ## Rows by their id -/

/-- Rows with their ids, in the order of the ids, and the next id. -/
structure Store (ρ : Type u) where
  rows : List (Nat × ρ)
  next : Nat
  ordered : rows.Pairwise (fun a b => a.1 < b.1)
  below : ∀ r ∈ rows, r.1 < next

/-- The rows with the ids from `n` on. -/
def number {ρ : Type u} (n : Nat) : List ρ → List (Nat × ρ)
  | [] => []
  | r :: rs => (n, r) :: number (n + 1) rs

section Number

variable {ρ : Type u}

@[simp] theorem map_snd_number (n : Nat) (rs : List ρ) : (number n rs).map Prod.snd = rs := by
  induction rs generalizing n with
  | nil => rfl
  | cons r rs ih => simp [number, ih]

theorem number_bounds {n : Nat} {rs : List ρ} {x : Nat × ρ} (h : x ∈ number n rs) :
    n ≤ x.1 ∧ x.1 < n + rs.length := by
  induction rs generalizing n with
  | nil => simp [number] at h
  | cons r rs ih =>
    rw [number, List.mem_cons] at h
    rcases h with rfl | h
    · simp
    · have := ih h
      simp only [List.length_cons]
      omega

theorem number_ordered (n : Nat) (rs : List ρ) :
    (number n rs).Pairwise (fun a b => a.1 < b.1) := by
  induction rs generalizing n with
  | nil => exact List.Pairwise.nil
  | cons r rs ih =>
    refine List.Pairwise.cons (fun x hx => ?_) (ih (n + 1))
    have := (number_bounds hx).1
    show n < x.1
    omega

end Number

namespace Store

variable {ρ : Type u}

def new : Store ρ := ⟨[], 0, List.Pairwise.nil, by simp⟩

/-- The rows without their ids. -/
def records (s : Store ρ) : List ρ := s.rows.map Prod.snd

/-- New rows get the next ids. -/
def append (s : Store ρ) (rs : List ρ) : Store ρ where
  rows := s.rows ++ number s.next rs
  next := s.next + rs.length
  ordered := by
    refine List.pairwise_append.mpr ⟨s.ordered, number_ordered _ _, fun a ha b hb => ?_⟩
    exact Nat.lt_of_lt_of_le (s.below a ha) (number_bounds hb).1
  below := by
    intro r hr
    rcases List.mem_append.mp hr with hr | hr
    · have := s.below r hr
      omega
    · exact (number_bounds hr).2

/-- The `n` smallest ids. -/
def oldest (s : Store ρ) (n : Nat) : List Nat :=
  ((s.rows.map Prod.fst).insertionSort (· ≤ ·)).take n

/-- Delete the rows with the `n` smallest ids and return them. -/
def pop (s : Store ρ) (n : Nat) : List ρ × Store ρ :=
  ((s.rows.filter (fun r => r.1 ∈ s.oldest n)).map Prod.snd,
    { rows := s.rows.filter (fun r => r.1 ∉ s.oldest n)
      next := s.next
      ordered := s.ordered.filter _
      below := fun r hr => s.below r (List.mem_of_mem_filter hr) })

@[simp] theorem records_new : (new : Store ρ).records = [] := rfl

@[simp] theorem records_append (s : Store ρ) (rs : List ρ) :
    (s.append rs).records = s.records ++ rs := by
  simp [records, append]

theorem oldest_eq (s : Store ρ) (n : Nat) : s.oldest n = (s.rows.take n).map Prod.fst := by
  have hsorted : (s.rows.map Prod.fst).Pairwise (· ≤ ·) :=
    List.pairwise_map.mpr (s.ordered.imp Nat.le_of_lt)
  rw [oldest, hsorted.insertionSort_eq, List.map_take]

theorem filter_split {α : Type u} {p : α → Bool} {l : List α} {n : Nat}
    (ht : ∀ x ∈ l.take n, p x = true) (hd : ∀ x ∈ l.drop n, p x = false) :
    l.filter p = l.take n ∧ l.filter (fun x => !p x) = l.drop n := by
  constructor
  · conv_lhs => rw [← List.take_append_drop n l]
    rw [List.filter_append, List.filter_eq_self.mpr ht, List.filter_eq_nil_iff.mpr,
      List.append_nil]
    exact fun x hx => by simp [hd x hx]
  · conv_lhs => rw [← List.take_append_drop n l]
    rw [List.filter_append, List.filter_eq_nil_iff.mpr, List.filter_eq_self.mpr, List.nil_append]
    · exact fun x hx => by simp [hd x hx]
    · exact fun x hx => by simp [ht x hx]

/-- The rows deleted are the first ones. -/
theorem pop_eq (s : Store ρ) (n : Nat) :
    (s.pop n).1 = s.records.take n ∧ (s.pop n).2.records = s.records.drop n := by
  have hdrop : ∀ r ∈ s.rows.drop n, r.1 ∉ (s.rows.take n).map Prod.fst := by
    intro r hr hmem
    obtain ⟨r', hr', he⟩ := List.mem_map.mp hmem
    have hord := s.ordered
    rw [← List.take_append_drop n s.rows] at hord
    have := (List.pairwise_append.mp hord).2.2 r' hr' r hr
    omega
  have htake : ∀ r ∈ s.rows.take n, r.1 ∈ (s.rows.take n).map Prod.fst :=
    fun r hr => List.mem_map_of_mem hr
  obtain ⟨hin, hout⟩ := filter_split (p := fun r => decide (r.1 ∈ s.oldest n)) (l := s.rows)
    (n := n) (fun r hr => by rw [oldest_eq]; exact decide_eq_true (htake r hr))
    (fun r hr => by rw [oldest_eq]; exact decide_eq_false (hdrop r hr))
  constructor
  · show (s.rows.filter (fun r => decide (r.1 ∈ s.oldest n))).map Prod.snd = _
    rw [hin, records, List.map_take]
  · show (s.rows.filter (fun r => decide (r.1 ∉ s.oldest n))).map Prod.snd = _
    rw [records, ← List.map_drop, ← hout]
    simp

end Store

/-! ## Typed tables -/

structure Column where
  name : String
  notNull : Bool
  deriving Repr, DecidableEq

/-- The cells of a row by the name of their column. No value is NULL. -/
abbrev Record (ν : Type u) := List (String × Option ν)

/-- A table for rows of type `τ`: the columns declared beside the id, those
that an insertion names with what it binds to each, and the columns that a
reader asks for with what it builds from them. -/
structure Table (τ : Type u) (ν : Type u) where
  columns : List Column
  inserts : List (String × (τ → ν))
  reads : List String
  build : List ν → Option τ

namespace Table

variable {τ : Type u} {ν : Type u}

/-- An insertion is accepted: it names declared columns only, and leaves none
empty that must not be. -/
def accepts (t : Table τ ν) : Bool :=
  t.inserts.all (fun i => t.columns.any (fun c => c.name == i.1)) &&
    t.columns.all (fun c => !c.notNull || (t.inserts.lookup c.name).isSome)

/-- The row stored for `x`. -/
def record (t : Table τ ν) (x : τ) : Record ν :=
  t.columns.map (fun c => (c.name, (t.inserts.lookup c.name).map (fun bind => bind x)))

/-- Read a row. A column that is missing or NULL is an error. -/
def decode (t : Table τ ν) (r : Record ν) : Option τ := do
  let values ← t.reads.mapM (fun name => (r.lookup name).join)
  t.build values

/-- Insert a batch in one statement. -/
def insert (t : Table τ ν) (s : Store (Record ν)) (batch : List τ) : Option (Store (Record ν)) :=
  if batch.isEmpty then some s
  else if t.accepts then some (s.append (batch.map t.record))
  else none

/-- Delete the oldest rows, at most `limit`, and read them. -/
def popBatch (t : Table τ ν) (limit : Nat) (s : Store (Record ν)) :
    Option (List τ) × Store (Record ν) :=
  ((s.pop limit).1.mapM t.decode, (s.pop limit).2)

/-- Insert all the batches. -/
def insertAll (t : Table τ ν) (s : Store (Record ν)) : List (List τ) → Option (Store (Record ν))
  | [] => some s
  | batch :: rest => do
    let s' ← t.insert s batch
    t.insertAll s' rest

/-- Pop `k` times: the batches, if all of them can be read, and the rest. -/
def popTimes (t : Table τ ν) (limit : Nat) (s : Store (Record ν)) :
    Nat → Option (List (List τ)) × Store (Record ν)
  | 0 => (some [], s)
  | k + 1 =>
    let first := t.popBatch limit s
    let later := t.popTimes limit first.2 k
    (first.1.bind (fun batch => later.1.map (fun batches => batch :: batches)), later.2)

end Table

/-- The first `k` blocks of at most `limit` that a list is cut into. -/
def blocks {α : Type u} (limit : Nat) : Nat → List α → List (List α)
  | 0, _ => []
  | k + 1, l => l.take limit :: blocks limit k (l.drop limit)

/-- All batches are inserted, and popping returns what was inserted, in
blocks from the oldest row on, until the table is empty. -/
def RoundTrip {τ : Type u} {ν : Type u} (t : Table τ ν) (limit : Nat) (batches : List (List τ)) :
    Prop :=
  ∃ s, t.insertAll Store.new batches = some s ∧
    ∀ k, (t.popTimes limit s k).1 = some (blocks limit k batches.flatten) ∧
      (batches.flatten.length ≤ k * limit → (t.popTimes limit s k).2.records = [])

/-! ## When the descriptions agree -/

section Agreement

variable {τ : Type u} {ν : Type u} (t : Table τ ν)

theorem blocks_map {α : Type u} {β : Type u} (f : α → β) (limit k : Nat) (l : List α) :
    blocks limit k (l.map f) = (blocks limit k l).map (List.map f) := by
  induction k generalizing l with
  | zero => rfl
  | succ k ih => simp [blocks, ← ih, List.map_take, List.map_drop]

theorem mem_of_mem_blocks {α : Type u} {limit k : Nat} {l b : List α} {x : α}
    (hb : b ∈ blocks limit k l) (hx : x ∈ b) : x ∈ l := by
  induction k generalizing l with
  | zero => simp [blocks] at hb
  | succ k ih =>
    rw [blocks, List.mem_cons] at hb
    rcases hb with rfl | hb
    · exact List.mem_of_mem_take hx
    · exact List.mem_of_mem_drop (ih hb)

/-- Enough blocks are the whole list. -/
theorem flatten_blocks {α : Type u} {limit k : Nat} {l : List α} (h : l.length ≤ k * limit) :
    (blocks limit k l).flatten = l := by
  induction k generalizing l with
  | zero => simpa [blocks] using h
  | succ k ih =>
    rw [blocks, List.flatten_cons, ih, List.take_append_drop]
    rw [List.length_drop]
    have : (k + 1) * limit = k * limit + limit := Nat.succ_mul k limit
    omega

/-- A batch is inserted when it is empty or accepted. -/
theorem insert_eq (s : Store (Record ν)) (batch : List τ) :
    (t.accepts = true ∨ batch = [] →
      ∃ s', t.insert s batch = some s' ∧ s'.records = s.records ++ batch.map t.record) ∧
    (t.accepts = false → batch ≠ [] → t.insert s batch = none) := by
  unfold Table.insert
  rcases batch with _ | ⟨x, batch⟩
  · simp
  · rcases t.accepts with _ | _ <;> simp

theorem insertAll_eq (s : Store (Record ν)) (batches : List (List τ)) :
    (t.accepts = true ∨ batches.flatten = [] →
      ∃ s', t.insertAll s batches = some s' ∧
        s'.records = s.records ++ batches.flatten.map t.record) ∧
    (t.accepts = false → batches.flatten ≠ [] → t.insertAll s batches = none) := by
  induction batches generalizing s with
  | nil => simp [Table.insertAll]
  | cons batch rest ih =>
    constructor
    · intro h
      obtain ⟨s', hs', hr'⟩ := (insert_eq t s batch).1 (by simp at h; tauto)
      obtain ⟨s'', hs'', hr''⟩ := (ih s').1 (by simp at h ⊢; tauto)
      refine ⟨s'', by simp [Table.insertAll, hs', hs''], ?_⟩
      rw [hr'', hr']
      simp
    · intro hno hne
      by_cases hb : batch = []
      · obtain ⟨s', hs', -⟩ := (insert_eq t s batch).1 (Or.inr hb)
        have hrest : rest.flatten ≠ [] := by simpa [hb] using hne
        simp [Table.insertAll, hs', (ih s').2 hno hrest]
      · simp [Table.insertAll, (insert_eq t s batch).2 hno hb]

/-- Popping reads the blocks of the rows and leaves the rows after them. -/
theorem popTimes_eq (limit k : Nat) (s : Store (Record ν)) :
    (t.popTimes limit s k).1 = (blocks limit k s.records).mapM (fun b => b.mapM t.decode) ∧
      (t.popTimes limit s k).2.records = s.records.drop (k * limit) := by
  induction k generalizing s with
  | zero => simp [Table.popTimes, blocks]
  | succ k ih =>
    obtain ⟨h1, h2⟩ := s.pop_eq limit
    obtain ⟨ih1, ih2⟩ := ih (s.pop limit).2
    constructor
    · simp only [Table.popTimes, Table.popBatch, blocks, ih1, h1, h2, List.mapM_cons]
      rcases (s.records.take limit).mapM t.decode with _ | batch
      · rfl
      · simp [Option.map_eq_bind]
    · simp only [Table.popTimes, Table.popBatch, ih2, h2, List.drop_drop]
      rw [Nat.succ_mul, Nat.add_comm]

/-- Reading what was stored gives it back exactly when each row does. -/
theorem mapM_map_iff {α β : Type u} {f : α → β} {g : β → Option α} (l : List α) :
    (l.map f).mapM g = some l ↔ ∀ x ∈ l, g (f x) = some x := by
  induction l with
  | nil => simp
  | cons x l ih =>
    rw [List.map_cons, List.mapM_cons]
    rcases hx : g (f x) with _ | y
    · simp [hx]
    · rcases hl : (l.map f).mapM g with _ | ys
      · simp only [hl, reduceCtorEq, false_iff] at ih
        simp [hx, ih]
      · simp only [hl, Option.some.injEq] at ih
        simp [hx, ih, Option.bind_eq_bind]

/-- A table gives back what was inserted exactly when nothing was, or its
descriptions agree on every row. -/
theorem roundTrip_iff {limit : Nat} (hlimit : 0 < limit) (batches : List (List τ)) :
    RoundTrip t limit batches ↔ batches.flatten = [] ∨
      (t.accepts = true ∧ ∀ x ∈ batches.flatten, t.decode (t.record x) = some x) := by
  set rows := batches.flatten with hrows
  constructor
  · rintro ⟨s, hs, hpop⟩
    by_cases hempty : rows = []
    · exact Or.inl hempty
    · have haccepts : t.accepts = true := by
        by_contra hno
        rw [(insertAll_eq t Store.new batches).2 (by simpa using hno) hempty] at hs
        simp at hs
      obtain ⟨s', hs', hrecords⟩ := (insertAll_eq t Store.new batches).1 (Or.inl haccepts)
      rw [hs', Option.some.injEq] at hs
      subst hs
      refine Or.inr ⟨haccepts, fun x hx => ?_⟩
      -- as many pops as there are rows return every row
      have hall := (hpop rows.length).1
      rw [(popTimes_eq t limit rows.length s').1, hrecords, Store.records_new, List.nil_append,
        ← hrows, blocks_map, mapM_map_iff] at hall
      have hflat : (blocks limit rows.length rows).flatten = rows :=
        flatten_blocks (Nat.le_mul_of_pos_right _ hlimit)
      rw [← hflat, List.mem_flatten] at hx
      obtain ⟨b, hb, hxb⟩ := hx
      exact (mapM_map_iff b).mp (hall b hb) x hxb
  · intro h
    obtain ⟨s, hs, hrecords⟩ := (insertAll_eq t Store.new batches).1
      (h.elim Or.inr (fun h => Or.inl h.1))
    rw [Store.records_new, List.nil_append, ← hrows] at hrecords
    have hdecode : ∀ x ∈ rows, t.decode (t.record x) = some x := by
      rcases h with h | h
      · simp [h]
      · exact h.2
    refine ⟨s, hs, fun k => ?_⟩
    obtain ⟨h1, h2⟩ := popTimes_eq t limit k s
    rw [h1, h2, hrecords]
    constructor
    · rw [blocks_map, mapM_map_iff]
      intro b hb
      exact (mapM_map_iff b).mpr (fun x hx => hdecode x (mem_of_mem_blocks hb hx))
    · intro hlen
      rw [List.drop_eq_nil_iff, List.length_map]
      exact hlen

/-- A table that refuses insertions gives back what was inserted only when
nothing was. -/
theorem roundTrip_of_refused {limit : Nat} (hlimit : 0 < limit) (h : t.accepts = false)
    (batches : List (List τ)) : RoundTrip t limit batches ↔ batches.flatten = [] := by
  rw [roundTrip_iff t hlimit]
  simp [h]

theorem lookup_record_none {c : String} (h : c ∉ t.columns.map Column.name) (x : τ) :
    (t.record x).lookup c = none := by
  rw [List.lookup_eq_none_iff]
  intro p hp
  obtain ⟨column, hcolumn, rfl⟩ := List.mem_map.mp hp
  have : c ≠ column.name := fun he => h (he ▸ List.mem_map_of_mem hcolumn)
  simpa using this

/-- A reader that asks for a column that is not declared reads no row. -/
theorem decode_of_missing {c : String} (hr : c ∈ t.reads) (h : c ∉ t.columns.map Column.name)
    (x : τ) : t.decode (t.record x) = none := by
  have hnone : t.reads.mapM (fun name => ((t.record x).lookup name).join) = none := by
    generalize t.reads = reads at hr
    induction reads with
    | nil => simp at hr
    | cons name reads ih =>
      rw [List.mapM_cons]
      rcases List.mem_cons.mp hr with rfl | hr
      · simp [lookup_record_none t h]
      · rw [ih hr]
        cases ((t.record x).lookup name).join <;> rfl
  rw [Table.decode, hnone]
  rfl

/-- A table whose reader asks for a column that is not declared gives back
what was inserted only when nothing was. -/
theorem roundTrip_of_missing {limit : Nat} (hlimit : 0 < limit) {c : String} (hr : c ∈ t.reads)
    (h : c ∉ t.columns.map Column.name) (batches : List (List τ)) :
    RoundTrip t limit batches ↔ batches.flatten = [] := by
  rw [roundTrip_iff t hlimit]
  simp only [decode_of_missing t hr h, reduceCtorEq, imp_false]
  constructor
  · rintro (hempty | ⟨-, hnone⟩)
    · exact hempty
    · exact List.eq_nil_iff_forall_not_mem.mpr hnone
  · exact Or.inl

end Agreement

/-- A table of numbers whose descriptions agree. -/
example : RoundTrip (⟨[⟨"n", true⟩], [("n", id)], ["n"], List.head?⟩ : Table Nat Nat) 2
    [[1, 2], [], [3]] :=
  (roundTrip_iff _ (by decide) _).mpr (Or.inr (by decide))

end EdgeGateway.Lib.Sql
