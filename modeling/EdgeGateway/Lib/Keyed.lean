-- Tables with a primary key: the rows in the order of the table, no two with
-- the same key. `get` is what the table says about a key, and each statement
-- is described by the rows it leaves and by what it does to `get`.
import Mathlib.Data.List.Nodup

namespace EdgeGateway.Lib

universe u v

/-- Rows of a table whose primary key is `key`. -/
structure Keyed {ρ : Type u} {κ : Type v} (key : ρ → κ) where
  rows : List ρ
  nodup : (rows.map key).Nodup

namespace Keyed

variable {ρ : Type u} {κ : Type v} {key : ρ → κ}

def empty : Keyed key := ⟨[], List.nodup_nil⟩

/-- Delete the rows that meet a condition. -/
def deleteWhere (t : Keyed key) (p : ρ → Bool) : Keyed key :=
  ⟨t.rows.filter (fun r => !p r), (List.filter_sublist.map key).nodup t.nodup⟩

theorem mem_deleteWhere {t : Keyed key} {p : ρ → Bool} {r : ρ} :
    r ∈ (t.deleteWhere p).rows ↔ r ∈ t.rows ∧ p r = false := by
  simp [deleteWhere]

theorem nodup_snoc (t : Keyed key) {r : ρ} (h : key r ∉ t.rows.map key) :
    ((t.rows ++ [r]).map key).Nodup := by
  rw [List.map_append, List.map_singleton]
  exact t.nodup.append (List.nodup_singleton _) (by simpa using h)

variable [DecidableEq κ]

/-- The row with a key. -/
def get (t : Keyed key) (k : κ) : Option ρ := t.rows.find? (fun r => key r = k)

/-- An insertion is refused when the key is taken. -/
def insert (t : Keyed key) (r : ρ) : Option (Keyed key) :=
  if h : key r ∈ t.rows.map key then none else some ⟨t.rows ++ [r], t.nodup_snoc h⟩

theorem map_replace (t : Keyed key) (r : ρ) :
    (t.rows.map (fun x => if key x = key r then r else x)).map key = t.rows.map key := by
  rw [List.map_map]
  refine List.map_congr_left fun x _ => ?_
  by_cases hx : key x = key r <;> simp [hx]

/-- Replace the row with the key of `r`, or insert `r`. -/
def upsert (t : Keyed key) (r : ρ) : Keyed key :=
  if h : key r ∈ t.rows.map key then
    ⟨t.rows.map (fun x => if key x = key r then r else x), t.map_replace r ▸ t.nodup⟩
  else ⟨t.rows ++ [r], t.nodup_snoc h⟩

/-! ## What a table says about a key -/

theorem get_eq_some {t : Keyed key} {k : κ} {r : ρ} :
    t.get k = some r ↔ r ∈ t.rows ∧ key r = k := by
  constructor
  · intro h
    exact ⟨List.mem_of_find?_eq_some h, by simpa using List.find?_some h⟩
  · rintro ⟨hr, rfl⟩
    rcases hx : t.get (key r) with _ | x
    · simpa using List.find?_eq_none.mp hx r hr
    · have hmem := List.mem_of_find?_eq_some hx
      have hkey : key x = key r := by simpa using List.find?_some hx
      rw [List.inj_on_of_nodup_map t.nodup hmem hr hkey]

theorem get_eq_none {t : Keyed key} {k : κ} : t.get k = none ↔ ∀ r ∈ t.rows, key r ≠ k := by
  simp [get]

theorem mem_keys {t : Keyed key} {k : κ} : k ∈ t.rows.map key ↔ t.get k ≠ none := by
  simp [get_eq_none]

/-- A table is its rows: what it says about a key changes only with them. -/
theorem get_congr {t t' : Keyed key} {k : κ} (h : ∀ r, key r = k → (r ∈ t'.rows ↔ r ∈ t.rows)) :
    t'.get k = t.get k := by
  refine Option.ext fun r => ?_
  rw [get_eq_some, get_eq_some]
  exact and_congr_left fun hk => h r hk

/-! ## Statements -/

theorem rows_insert {t t' : Keyed key} {r : ρ} (h : t.insert r = some t') :
    t'.rows = t.rows ++ [r] := by
  unfold insert at h
  split at h
  · cases h
  · rw [← Option.some.inj h]

theorem insert_eq_none {t : Keyed key} {r : ρ} : t.insert r = none ↔ t.get (key r) ≠ none := by
  unfold insert
  rw [← mem_keys]
  split <;> simp_all

/-- The key of a row that was inserted was free. -/
theorem get_of_insert {t t' : Keyed key} {r : ρ} (h : t.insert r = some t') :
    t.get (key r) = none := by
  by_contra hc
  rw [insert_eq_none.mpr hc] at h
  cases h

theorem get_insert {t t' : Keyed key} {r : ρ} (h : t.insert r = some t') (k : κ) :
    t'.get k = if key r = k then some r else t.get k := by
  have hrows := rows_insert h
  by_cases hk : key r = k
  · rw [if_pos hk]
    exact get_eq_some.mpr ⟨by simp [hrows], hk⟩
  · rw [if_neg hk]
    refine get_congr fun x hx => ?_
    have hne : x ≠ r := fun hxr => hk (hxr ▸ hx)
    simp [hrows, hne]

theorem mem_upsert {t : Keyed key} {r x : ρ} :
    x ∈ (t.upsert r).rows ↔ x = r ∨ x ∈ t.rows ∧ key x ≠ key r := by
  unfold upsert
  split
  · rename_i h
    obtain ⟨y, hy, hkey⟩ := List.mem_map.mp h
    simp only [List.mem_map]
    constructor
    · rintro ⟨z, hz, rfl⟩
      by_cases hzr : key z = key r <;> simp [hzr, hz]
    · rintro (rfl | ⟨hx, hne⟩)
      · exact ⟨y, hy, if_pos hkey⟩
      · exact ⟨x, hx, if_neg hne⟩
  · rename_i h
    have hne : ∀ z ∈ t.rows, key z ≠ key r := by simpa using h
    simp only [List.mem_append, List.mem_singleton]
    constructor
    · rintro (hx | hx)
      · exact .inr ⟨hx, hne x hx⟩
      · exact .inl hx
    · rintro (hx | hx)
      · exact .inr hx
      · exact .inl hx.1

theorem get_upsert (t : Keyed key) (r : ρ) (k : κ) :
    (t.upsert r).get k = if key r = k then some r else t.get k := by
  by_cases hk : key r = k
  · rw [if_pos hk]
    exact get_eq_some.mpr ⟨mem_upsert.mpr (.inl rfl), hk⟩
  · rw [if_neg hk]
    refine get_congr fun x hx => ?_
    have hne : x ≠ r := fun hxr => hk (hxr ▸ hx)
    have hkey : key x ≠ key r := fun hxr => hk (hxr ▸ hx)
    simp [mem_upsert, hne, hkey]

theorem get_deleteWhere_key (t : Keyed key) (k₀ k : κ) :
    (t.deleteWhere (fun r => key r = k₀)).get k = if k₀ = k then none else t.get k := by
  by_cases hk : k₀ = k
  · rw [if_pos hk, get_eq_none]
    intro r hr
    rw [mem_deleteWhere] at hr
    simpa [hk] using hr.2
  · rw [if_neg hk]
    refine get_congr fun x hx => ?_
    have hne : key x ≠ k₀ := fun hx0 => hk (hx0.symm.trans hx)
    simp [mem_deleteWhere, hne]

end Keyed

end EdgeGateway.Lib
