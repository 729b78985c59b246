-- Statements over a table with a primary key, as they work on the cells of its rows.
-- Where the descriptions of the table agree, they do what `Keyed` says: an insertion is
-- refused for a taken key, a conflict replaces the row, and a row is read as it was.
import EdgeGateway.Lib.Keyed
import EdgeGateway.Lib.Sql

namespace EdgeGateway.Lib.Sql

universe u

variable {τ ν : Type u}

/-! ## Statements -/

/-- The value of a row in a column. -/
def cell (r : Record ν) (column : String) : Option ν := (r.lookup column).join

/-- Two rows have the same value in the column of the key. NULL is no key. -/
def conflicts [DecidableEq ν] (key : String) (r r' : Record ν) : Bool :=
  (cell r key).isSome && cell r key == cell r' key

namespace Table

variable (t : Table τ ν)

def hasColumn (column : String) : Bool := t.columns.any (fun c => c.name == column)

/-- `INSERT INTO .. VALUES ..` -/
def insertRow [DecidableEq ν] (key : String) (rows : List (Record ν)) (x : τ) : Option (List (Record ν)) :=
  if t.accepts && !rows.any (conflicts key (t.record x)) then some (rows ++ [t.record x]) else none

/-- `ON CONFLICT(key) DO UPDATE SET c = excluded.c, ..` for the columns `sets`. -/
def setRow (sets : List String) (new old : Record ν) : Record ν :=
  old.map (fun c => if c.1 ∈ sets then (c.1, cell new c.1) else c)

/-- `INSERT INTO .. VALUES .. ON CONFLICT(key) DO UPDATE SET ..` -/
def upsertRow [DecidableEq ν] (key : String) (sets : List String) (rows : List (Record ν)) (x : τ) :
    Option (List (Record ν)) :=
  if t.accepts && sets.all t.hasColumn then
    if rows.any (conflicts key (t.record x)) then
      some (rows.map (fun r => if conflicts key (t.record x) r then setRow sets (t.record x) r else r))
    else some (rows ++ [t.record x])
  else none

/-- `DELETE FROM .. WHERE column = ?` -/
def deleteRows [DecidableEq ν] (column : String) (value : ν) (rows : List (Record ν)) :
    Option (List (Record ν)) :=
  if t.hasColumn column then some (rows.filter (fun r => !(cell r column == some value))) else none

/-- `SELECT * FROM ..`, each row decoded. -/
def selectRows (rows : List (Record ν)) : Option (List τ) := rows.mapM t.decode

end Table

/-! ## Tables whose descriptions agree -/

/-- The table takes and gives back each row, and its primary key is `k` as it is bound. -/
structure Agrees {κ : Type u} (t : Table τ ν) (key : String) (k : τ → κ) : Prop where
  accepts : t.accepts = true
  decode : ∀ x, t.decode (t.record x) = some x
  present : ∀ x, (cell (t.record x) key).isSome = true
  key : ∀ x y, cell (t.record x) key = cell (t.record y) key ↔ k x = k y

section Keyed

variable {κ : Type u} {t : Table τ ν} {key : String} {k : τ → κ}

theorem conflicts_record [DecidableEq ν] (h : Agrees t key k) (x y : τ) :
    conflicts key (t.record x) (t.record y) = true ↔ k y = k x := by
  simp only [conflicts, h.present, Bool.true_and, beq_iff_eq]
  rw [h.key, eq_comm]

theorem any_conflicts [DecidableEq ν] (h : Agrees t key k) (rows : List τ) (x : τ) :
    (rows.map t.record).any (conflicts key (t.record x)) = true ↔ k x ∈ rows.map k := by
  rw [List.any_map, List.any_eq_true, List.mem_map]
  exact exists_congr fun y => and_congr_right fun _ => conflicts_record h x y

/-- A column of a stored row has what was bound to it. -/
theorem cell_record (hnodup : (t.columns.map Column.name).Nodup) {c : Column} (hc : c ∈ t.columns)
    (x : τ) : cell (t.record x) c.name = (t.inserts.lookup c.name).map (fun bind => bind x) := by
  unfold cell Table.record
  generalize t.columns = columns at hnodup hc
  induction columns with
  | nil => cases hc
  | cons c' columns ih =>
    rw [List.map_cons, List.nodup_cons] at hnodup
    rw [List.map_cons, List.lookup_cons]
    rcases List.mem_cons.mp hc with rfl | hc
    · simp
    · have hne : c.name ≠ c'.name := fun heq => hnodup.1 (heq ▸ List.mem_map_of_mem hc)
      rw [beq_false_of_ne hne]
      exact ih hnodup.2 hc

/-- Where all columns but the key are set, a conflict leaves the new row. -/
theorem setRow_record (hnodup : (t.columns.map Column.name).Nodup) {sets : List String}
    (hsets : ∀ c ∈ t.columns, c.name ≠ key → c.name ∈ sets) {x y : τ}
    (hkey : cell (t.record x) key = cell (t.record y) key) :
    Table.setRow sets (t.record x) (t.record y) = t.record x := by
  unfold Table.setRow
  show (t.columns.map (fun c => (c.name, (t.inserts.lookup c.name).map (fun bind => bind y)))).map
      _ = t.columns.map (fun c => (c.name, (t.inserts.lookup c.name).map (fun bind => bind x)))
  rw [List.map_map]
  refine List.map_congr_left fun c hc => ?_
  have hx := cell_record hnodup hc x
  have hy := cell_record hnodup hc y
  by_cases hin : c.name ∈ sets
  · simp [hin, hx]
  · have hc' : c.name = key := by
      by_contra hne
      exact hin (hsets c hc hne)
    rw [hc', hkey, ← hc', hy] at hx
    simp [hin, hx]

theorem selectRows_rows (h : Agrees t key k) (rows : List τ) :
    t.selectRows (rows.map t.record) = some rows :=
  (mapM_map_iff rows).mpr fun x _ => h.decode x

theorem deleteRows_rows [DecidableEq ν] (column : String) (hcolumn : t.hasColumn column = true)
    (value : ν) (p : τ → Bool) (hp : ∀ x, cell (t.record x) column = some value ↔ p x = true)
    (rows : Keyed k) :
    t.deleteRows column value (rows.rows.map t.record) =
      some ((rows.deleteWhere p).rows.map t.record) := by
  unfold Table.deleteRows Keyed.deleteWhere
  rw [if_pos hcolumn, List.filter_map]
  refine congrArg (fun l => some (l.map t.record)) (List.filter_congr fun x _ => ?_)
  by_cases hx : p x = true
  · simp [(hp x).mpr hx, hx]
  · simp [mt (hp x).mp hx, hx]

variable [DecidableEq ν] [DecidableEq κ]

theorem insertRow_rows (h : Agrees t key k) (rows : Keyed k) (x : τ) :
    t.insertRow key (rows.rows.map t.record) x =
      (rows.insert x).map (fun rows' => rows'.rows.map t.record) := by
  unfold Table.insertRow Keyed.insert
  by_cases hmem : k x ∈ rows.rows.map k
  · rw [dif_pos hmem, (any_conflicts h rows.rows x).mpr hmem]
    simp
  · rw [dif_neg hmem, h.accepts, Bool.eq_false_iff.mpr (mt (any_conflicts h rows.rows x).mp hmem)]
    simp

theorem upsertRow_rows (h : Agrees t key k) (hnodup : (t.columns.map Column.name).Nodup)
    (sets : List String) (hdeclared : sets.all t.hasColumn = true)
    (hsets : ∀ c ∈ t.columns, c.name ≠ key → c.name ∈ sets) (rows : Keyed k) (x : τ) :
    t.upsertRow key sets (rows.rows.map t.record) x =
      some ((rows.upsert x).rows.map t.record) := by
  unfold Table.upsertRow Keyed.upsert
  rw [h.accepts, hdeclared, Bool.true_and, if_pos rfl]
  by_cases hmem : k x ∈ rows.rows.map k
  · rw [dif_pos hmem, if_pos ((any_conflicts h rows.rows x).mpr hmem), List.map_map, List.map_map]
    refine congrArg some (List.map_congr_left fun y _ => ?_)
    by_cases hy : k y = k x
    · have hkey := (h.key x y).mpr hy.symm
      simp [(conflicts_record h x y).mpr hy, hy, setRow_record hnodup hsets hkey]
    · simp [mt (conflicts_record h x y).mp hy, hy]
  · rw [dif_neg hmem, if_neg (mt (any_conflicts h rows.rows x).mp hmem)]
    simp

end Keyed

end EdgeGateway.Lib.Sql
