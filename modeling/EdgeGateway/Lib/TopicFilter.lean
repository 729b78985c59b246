-- Topics of a broker, and the filters of its subscribers. A topic is a path of
-- levels; a filter names its levels or leaves them open. What a filter names at
-- its end, every topic that it takes has at its end.
import Mathlib.Data.List.Infix

namespace EdgeGateway.Lib

/-! ## Levels -/

def levels (path : String) : List (List Char) := path.toList.splitOn '/'

theorem levels_append (path path' : String) :
    levels (path ++ "/" ++ path') = levels path ++ levels path' := by
  unfold levels
  rw [String.toList_append, String.toList_append, List.append_assoc]
  exact List.splitOn_append_cons_self _ _

theorem levels_eq_singleton {level : String} (h : '/' ∉ level.toList) :
    levels level = [level.toList] := List.splitOn_eq_singleton h

/-- What has no separator ends a path when it ends the last level. -/
theorem suffix_append_separator {s path l : List Char} (h : '/' ∉ s) :
    s <:+ path ++ '/' :: l ↔ s <:+ l := by
  constructor
  · intro hs
    have hl : '/' :: l <:+ path ++ '/' :: l := List.suffix_append _ _
    rcases List.suffix_or_suffix_of_suffix hs hl with hs | hl
    · rcases List.suffix_cons_iff.mp hs with rfl | hs
      · exact absurd List.mem_cons_self h
      · exact hs
    · exact absurd (hl.subset List.mem_cons_self) h
  · rintro ⟨rest, rfl⟩
    exact ⟨path ++ '/' :: rest, by simp⟩

theorem suffix_iff_of_levels {s : List Char} (h : '/' ∉ s) {path : String}
    {ls : List (List Char)} {l : List Char} (hpath : levels path = ls ++ [l]) :
    s <:+ path.toList ↔ s <:+ l := by
  have hjoin : path.toList = ['/'].intercalate (ls ++ [l]) := by
    rw [← hpath]
    exact (List.intercalate_splitOn '/').symm
  rw [hjoin]
  clear hpath hjoin
  induction ls with
  | nil => rw [List.nil_append, List.intercalate_singleton]
  | cons l' ls ih =>
    rw [List.cons_append, List.intercalate_cons_of_ne_nil (by simp), List.append_assoc]
    exact (suffix_append_separator h).trans ih

/-! ## Filters -/

/-- `+` takes any level, and `#` at the end takes all levels from there on. -/
def levelsMatch : List (List Char) → List (List Char) → Bool
  | [], [] => true
  | [['#']], _ => true
  | f :: fs, t :: ts => (f == ['+'] || f == t) && levelsMatch fs ts
  | _, _ => false

/-- A filter that leaves the first level open takes no topic that starts with `$`. -/
def startsOpen (filter : List (List Char)) : Bool :=
  filter.head? = some ['+'] || filter.head? = some ['#']

def filterMatches (filter topic : String) : Bool :=
  levelsMatch (levels filter) (levels topic) &&
    !(startsOpen (levels filter) && topic.toList.head? = some '$')

/-- The level names itself in a filter. -/
def Named (l : List Char) : Prop := l ≠ ['+'] ∧ l ≠ ['#']

instance (l : List Char) : Decidable (Named l) := inferInstanceAs (Decidable (_ ∧ _))

theorem levelsMatch_concat {fs : List (List Char)} {l : List Char} (hl : Named l)
    {ts : List (List Char)} (h : levelsMatch (fs ++ [l]) ts = true) : ∃ ts', ts = ts' ++ [l] := by
  induction fs generalizing ts with
  | nil =>
    cases ts with
    | nil => simp [levelsMatch, hl.2] at h
    | cons t ts =>
      have hboth : l = t ∧ levelsMatch [] ts = true := by
        simpa [levelsMatch, hl.1, hl.2] using h
      cases ts with
      | nil => exact ⟨[], by rw [hboth.1, List.nil_append]⟩
      | cons t' ts => simp [levelsMatch] at hboth
  | cons f fs ih =>
    cases ts with
    | nil => simp [levelsMatch] at h
    | cons t ts =>
      have hrest : levelsMatch (fs ++ [l]) ts = true := by
        simp [levelsMatch] at h
        exact h.2
      obtain ⟨ts', rfl⟩ := ih hrest
      exact ⟨t :: ts', rfl⟩

/-- The topics that a filter takes end with the level that it ends with. -/
theorem levels_of_filterMatches {path level topic : String} (hplain : '/' ∉ level.toList)
    (hnamed : Named level.toList) (h : filterMatches (path ++ "/" ++ level) topic = true) :
    ∃ ls, levels topic = ls ++ [level.toList] := by
  unfold filterMatches at h
  rw [Bool.and_eq_true, levels_append, levels_eq_singleton hplain] at h
  exact levelsMatch_concat hnamed h.1

/-- A filter takes no topic that ends with another level. -/
theorem filterMatches_eq_false {path level path' level' : String} (hplain : '/' ∉ level.toList)
    (hnamed : Named level.toList) (hplain' : '/' ∉ level'.toList) (hne : level ≠ level') :
    filterMatches (path ++ "/" ++ level) (path' ++ "/" ++ level') = false := by
  rw [Bool.eq_false_iff]
  intro h
  obtain ⟨ls, hls⟩ := levels_of_filterMatches hplain hnamed h
  rw [levels_append, levels_eq_singleton hplain'] at hls
  have hlast := List.append_inj_right' hls rfl
  exact hne (String.toList_inj.mp (List.singleton_inj.mp hlast).symm)

end EdgeGateway.Lib
