-- Association lists that are changed key by key. A pass over a list of keys
-- that touches each key alone does to a key what one turn does to it, so a
-- pass is described by what it says about `lookup`.
import Mathlib.Data.List.AList

namespace EdgeGateway.Lib.Assoc

universe u v w

variable {α : Type u} [DecidableEq α] {β : Type v} {ι : Type w}

/-! ## Values -/

/-- Change every value. -/
def mapValues (f : β → β) (m : AList (fun _ : α => β)) : AList (fun _ : α => β) where
  entries := m.entries.map (fun e => ⟨e.1, f e.2⟩)
  nodupKeys := by
    have hkeys : (m.entries.map (fun e => (⟨e.1, f e.2⟩ : (_ : α) × β))).keys = m.entries.keys := by
      simp [List.keys]
    unfold List.NodupKeys
    rw [hkeys]
    exact m.nodupKeys

/-- Change the value of one key, if it has one. -/
def modify (m : AList (fun _ : α => β)) (a : α) (f : β → β) : AList (fun _ : α => β) :=
  match m.lookup a with
  | some b => m.insert a (f b)
  | none => m

theorem lookup_mapValues (f : β → β) (m : AList (fun _ : α => β)) (a : α) :
    (mapValues f m).lookup a = (m.lookup a).map f := by
  rcases h : m.lookup a with _ | b
  · rw [AList.lookup_eq_none, AList.mem_keys] at h
    rw [Option.map_none, AList.lookup_eq_none, AList.mem_keys]
    simpa [AList.keys, mapValues, List.keys] using h
  · rw [Option.map_some, ← Option.mem_def, AList.mem_lookup_iff]
    exact List.mem_map.mpr ⟨⟨a, b⟩, AList.mem_lookup_iff.mp h, rfl⟩

theorem lookup_modify (m : AList (fun _ : α => β)) (a : α) (f : β → β) :
    (modify m a f).lookup a = (m.lookup a).map f := by
  unfold modify
  rcases h : m.lookup a with _ | b
  · rw [Option.map_none]
    exact h
  · simp

theorem lookup_modify_ne (m : AList (fun _ : α => β)) {a a' : α} (h : a' ≠ a) (f : β → β) :
    (modify m a f).lookup a' = m.lookup a' := by
  unfold modify
  split
  · exact AList.lookup_insert_ne h
  · rfl

/-- The keys whose entry passes a test. -/
theorem mem_keys_filter {m : AList (fun _ : α => β)} {a : α} {test : (_ : α) × β → Bool} :
    a ∈ (m.entries.filter test).map Sigma.fst ↔
      ∃ b, m.lookup a = some b ∧ test ⟨a, b⟩ = true := by
  rw [List.mem_map]
  constructor
  · rintro ⟨e, he, rfl⟩
    rw [List.mem_filter] at he
    exact ⟨e.2, AList.mem_lookup_iff.mpr he.1, he.2⟩
  · rintro ⟨b, hb, htest⟩
    exact ⟨⟨a, b⟩, List.mem_filter.mpr ⟨AList.mem_lookup_iff.mp hb, htest⟩, rfl⟩

/-! ## Passes -/

/-- A turn for `i` touches the key of `i` alone, and does `g i` to it. -/
structure Local (key : ι → α) (f : AList (fun _ : α => β) → ι → AList (fun _ : α => β))
    (g : ι → Option β → Option β) : Prop where
  here : ∀ m i, (f m i).lookup (key i) = g i (m.lookup (key i))
  away : ∀ m i a, a ≠ key i → (f m i).lookup a = m.lookup a

variable {key : ι → α} {f : AList (fun _ : α => β) → ι → AList (fun _ : α => β)}
  {g : ι → Option β → Option β}

/-- A pass leaves the keys that it does not name. -/
theorem Local.lookup_foldl_of_notMem (h : Local key f g) {l : List ι} {a : α}
    (ha : ∀ i ∈ l, key i ≠ a) (m : AList (fun _ : α => β)) :
    (l.foldl f m).lookup a = m.lookup a := by
  induction l generalizing m with
  | nil => rfl
  | cons i l ih =>
    rw [List.foldl_cons, ih (fun j hj => ha j (List.mem_cons_of_mem _ hj))]
    exact h.away m i a (Ne.symm (ha i List.mem_cons_self))

/-- A pass does to a key what each turn for it does, when a second turn adds
nothing. -/
theorem Local.lookup_foldl (h : Local key f g) {l : List ι} {a : α} (once : Option β → Option β)
    (hidem : ∀ o, once (once o) = once o) (hg : ∀ i ∈ l, key i = a → g i = once)
    (hmem : ∃ i ∈ l, key i = a) (m : AList (fun _ : α => β)) :
    (l.foldl f m).lookup a = once (m.lookup a) := by
  induction l generalizing m with
  | nil => simp at hmem
  | cons i l ih =>
    have hg' : ∀ j ∈ l, key j = a → g j = once := fun j hj => hg j (List.mem_cons_of_mem _ hj)
    rw [List.foldl_cons]
    by_cases hi : key i = a
    · have hturn : (f m i).lookup a = once (m.lookup a) := by
        rw [← hg i List.mem_cons_self hi, ← hi]
        exact h.here m i
      by_cases hrest : ∃ j ∈ l, key j = a
      · rw [ih hg' hrest, hturn, hidem]
      · rw [h.lookup_foldl_of_notMem (fun j hj hja => hrest ⟨j, hj, hja⟩), hturn]
    · obtain ⟨j, hj, hja⟩ := hmem
      have hrest : ∃ j ∈ l, key j = a := by
        rcases List.mem_cons.mp hj with rfl | hj
        · exact absurd hja hi
        · exact ⟨j, hj, hja⟩
      rw [ih hg' hrest, h.away m i a (Ne.symm hi)]

/-- A pass that names a key brings its value where one turn brings it, when a second turn may
follow. -/
theorem Local.foldl_reaches (h : Local key f g) {l : List ι} {a : α} {P Q : Option β → Prop}
    (hturn : ∀ i ∈ l, key i = a → ∀ o, P o → Q (g i o)) (hagain : ∀ o, Q o → P o)
    (hmem : ∃ i ∈ l, key i = a) {m : AList (fun _ : α => β)} (hm : P (m.lookup a)) :
    Q ((l.foldl f m).lookup a) := by
  induction l generalizing m with
  | nil => simp at hmem
  | cons i l ih =>
    have hturn' : ∀ j ∈ l, key j = a → ∀ o, P o → Q (g j o) :=
      fun j hj => hturn j (List.mem_cons_of_mem _ hj)
    rw [List.foldl_cons]
    by_cases hi : key i = a
    · have hfirst : Q ((f m i).lookup a) := by
        rw [← hi, h.here m i, hi]
        exact hturn i List.mem_cons_self hi _ hm
      by_cases hrest : ∃ j ∈ l, key j = a
      · exact ih hturn' hrest (hagain _ hfirst)
      · rw [h.lookup_foldl_of_notMem (fun j hj hja => hrest ⟨j, hj, hja⟩)]
        exact hfirst
    · obtain ⟨j, hj, hja⟩ := hmem
      rcases List.mem_cons.mp hj with rfl | hj
      · exact absurd hja hi
      · apply ih hturn' ⟨j, hj, hja⟩
        rwa [h.away m i a (Ne.symm hi)]

/-- A pass over keys. -/
theorem Local.lookup_foldl_keys {f : AList (fun _ : α => β) → α → AList (fun _ : α => β)}
    {g : α → Option β → Option β} (h : Local (fun a : α => a) f g)
    (hidem : ∀ a o, g a (g a o) = g a o) (l : List α) (m : AList (fun _ : α => β)) (a : α) :
    (l.foldl f m).lookup a = if a ∈ l then g a (m.lookup a) else m.lookup a := by
  by_cases ha : a ∈ l
  · rw [if_pos ha]
    refine h.lookup_foldl (g a) (hidem a) (fun i _ hi => ?_) ⟨a, ha, rfl⟩ m
    rw [show i = a from hi]
  · rw [if_neg ha]
    refine h.lookup_foldl_of_notMem (fun i hi hia => ha ?_) m
    rw [← show i = a from hia]
    exact hi

end EdgeGateway.Lib.Assoc
