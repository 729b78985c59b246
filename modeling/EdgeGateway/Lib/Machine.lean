-- Labelled machines and what holds of all their runs. A machine steps by
-- labels; a run keeps every state with the label taken there, so a law
-- can speak about a state, about a step, or about the steps before it.
import Mathlib.Data.List.Basic
import Mathlib.Data.List.Induction

namespace EdgeGateway.Lib

universe u v

/-- A system that moves by labels. `step s i = none` says that the label
`i` cannot be taken in `s`. -/
structure Machine (σ : Type u) (ι : Type v) where
  init : σ → Prop
  step : σ → ι → Option σ

namespace Machine

variable {σ : Type u} {ι : Type v} {m : Machine σ ι}

/-- `m.Run t s`: a run ends in `s`, and `t` lists the states it left with
the labels it took there, the oldest first. -/
inductive Run (m : Machine σ ι) : List (σ × ι) → σ → Prop where
  | start {s : σ} (h : m.init s) : Run m [] s
  | move {t : List (σ × ι)} {s s' : σ} {i : ι}
      (r : Run m t s) (h : m.step s i = some s') : Run m (t ++ [(s, i)]) s'

/-- Every step of the run meets `C`. -/
def Meets (C : σ → ι → Prop) (t : List (σ × ι)) : Prop := ∀ p ∈ t, C p.1 p.2

instance {C : σ → ι → Prop} [∀ s i, Decidable (C s i)] (t : List (σ × ι)) :
    Decidable (Meets C t) :=
  inferInstanceAs (Decidable (∀ p ∈ t, C p.1 p.2))

/-- The states of a run, its last state included. -/
def visited (t : List (σ × ι)) (s : σ) : List σ := t.map Prod.fst ++ [s]

theorem meets_nil (C : σ → ι → Prop) : Meets C [] := by
  intro p hp
  simp at hp

theorem meets_snoc {C : σ → ι → Prop} {t : List (σ × ι)} {s : σ} {i : ι} :
    Meets C (t ++ [(s, i)]) ↔ Meets C t ∧ C s i := by
  constructor
  · intro h
    exact ⟨fun p hp => h p (by simp [hp]), h (s, i) (by simp)⟩
  · rintro ⟨ht, hs⟩ p hp
    rcases List.mem_append.mp hp with h | h
    · exact ht p h
    · rw [List.mem_singleton] at h
      exact h ▸ hs

theorem mem_visited {t : List (σ × ι)} {p : σ × ι} (h : p ∈ t) (s : σ) : p.1 ∈ visited t s :=
  List.mem_append_left _ (List.mem_map_of_mem h)

theorem last_mem_visited (t : List (σ × ι)) (s : σ) : s ∈ visited t s :=
  List.mem_append_right _ (List.mem_singleton_self s)

theorem visited_snoc (t : List (σ × ι)) (s s' : σ) (i : ι) :
    visited (t ++ [(s, i)]) s' = visited t s ++ [s'] := by
  simp [visited]

/-! ## Laws of every run -/

/-- A law that holds at the start, and that every step meeting `C` keeps,
holds at the end of each run whose steps meet `C`. -/
theorem Run.invariant (Inv : σ → Prop) (C : σ → ι → Prop)
    (h0 : ∀ s, m.init s → Inv s)
    (hs : ∀ s i s', Inv s → C s i → m.step s i = some s' → Inv s')
    {t : List (σ × ι)} {s : σ} (r : m.Run t s) (hc : Meets C t) : Inv s := by
  induction r with
  | start h => exact h0 _ h
  | move _ h ih =>
    obtain ⟨hc1, hc2⟩ := meets_snoc.mp hc
    exact hs _ _ _ (ih hc1) hc2 h

/-- The same law holds in all states of the run. -/
theorem Run.invariant_visited (Inv : σ → Prop) (C : σ → ι → Prop)
    (h0 : ∀ s, m.init s → Inv s)
    (hs : ∀ s i s', Inv s → C s i → m.step s i = some s' → Inv s')
    {t : List (σ × ι)} {s : σ} (r : m.Run t s) (hc : Meets C t) :
    ∀ x ∈ visited t s, Inv x := by
  induction r with
  | start h =>
    intro x hx
    simp only [visited, List.map_nil, List.nil_append, List.mem_singleton] at hx
    exact hx ▸ h0 _ h
  | move r h ih =>
    obtain ⟨hc1, hc2⟩ := meets_snoc.mp hc
    intro x hx
    rw [visited_snoc, List.mem_append, List.mem_singleton] at hx
    rcases hx with hx | hx
    · exact ih hc1 x hx
    · exact hx ▸ hs _ _ _ (r.invariant Inv C h0 hs hc1) hc2 h

/-- A law that every step keeps, whatever the label. -/
theorem Run.always (Inv : σ → Prop) (h0 : ∀ s, m.init s → Inv s)
    (hs : ∀ s i s', Inv s → m.step s i = some s' → Inv s')
    {t : List (σ × ι)} {s : σ} (r : m.Run t s) : Inv s :=
  r.invariant Inv (fun _ _ => True) h0 (fun s i s' hi _ h => hs s i s' hi h)
    (fun _ _ => trivial)

/-- A law about a state and the run that led to it. -/
theorem Run.history (Inv : List (σ × ι) → σ → Prop) (h0 : ∀ s, m.init s → Inv [] s)
    (hs : ∀ t s i s', Inv t s → m.step s i = some s' → Inv (t ++ [(s, i)]) s')
    {t : List (σ × ι)} {s : σ} (r : m.Run t s) : Inv t s := by
  induction r with
  | start h => exact h0 _ h
  | move _ h ih => exact hs _ _ _ _ ih h

/-- A law about steps: where the invariant and the condition give `P` of
the step taken, every step of the run has `P`. -/
theorem Run.meets (Inv : σ → Prop) (C P : σ → ι → Prop)
    (h0 : ∀ s, m.init s → Inv s)
    (hs : ∀ s i s', Inv s → C s i → m.step s i = some s' → Inv s')
    (hp : ∀ s i s', Inv s → C s i → m.step s i = some s' → P s i)
    {t : List (σ × ι)} {s : σ} (r : m.Run t s) (hc : Meets C t) : Meets P t := by
  induction r with
  | start _ => exact meets_nil P
  | move r h ih =>
    obtain ⟨hc1, hc2⟩ := meets_snoc.mp hc
    exact meets_snoc.mpr ⟨ih hc1, hp _ _ _ (r.invariant Inv C h0 hs hc1) hc2 h⟩

/-- Where `Wrong` steps are exactly those that lead from a state that is
not `Bad` to one that is, a run avoids `Bad` exactly when it takes no
wrong step. -/
theorem Run.avoids_iff (Inv Bad : σ → Prop) (Wrong : σ → ι → Prop)
    (h0 : ∀ s, m.init s → Inv s ∧ ¬ Bad s)
    (hs : ∀ s i s', Inv s → m.step s i = some s' → Inv s')
    (hb : ∀ s i s', Inv s → ¬ Bad s → m.step s i = some s' → (Bad s' ↔ Wrong s i))
    {t : List (σ × ι)} {s : σ} (r : m.Run t s) :
    (∀ x ∈ visited t s, ¬ Bad x) ↔ Meets (fun s i => ¬ Wrong s i) t := by
  induction r with
  | start h =>
    constructor
    · intro _
      exact meets_nil _
    · intro _ x hx
      simp only [visited, List.map_nil, List.nil_append, List.mem_singleton] at hx
      exact hx ▸ (h0 _ h).2
  | @move t s s' i r h ih =>
    have hinv : Inv s := r.always Inv (fun s h => (h0 s h).1) hs
    rw [visited_snoc, meets_snoc]
    constructor
    · intro hall
      have hbefore : ∀ x ∈ visited t s, ¬ Bad x := fun x hx => hall x (by simp [hx])
      have hlast : ¬ Bad s := hbefore s (last_mem_visited t s)
      have hnow : ¬ Bad s' := hall s' (by simp)
      exact ⟨ih.mp hbefore, fun hw => hnow ((hb s i s' hinv hlast h).mpr hw)⟩
    · rintro ⟨ht, hw⟩ x hx
      have hbefore := ih.mpr ht
      have hlast : ¬ Bad s := hbefore s (last_mem_visited t s)
      rcases List.mem_append.mp hx with hx | hx
      · exact hbefore x hx
      · rw [List.mem_singleton] at hx
        exact hx ▸ fun hbad => hw ((hb s i s' hinv hlast h).mp hbad)

/-! ## The rest of a run -/

/-- A run ends with its last step. -/
theorem run_snoc {t : List (σ × ι)} {s x : σ} {i : ι} :
    m.Run (t ++ [(s, i)]) x ↔ m.Run t s ∧ m.step s i = some x := by
  constructor
  · intro r
    generalize hl : t ++ [(s, i)] = l at r
    cases r with
    | start h => simp at hl
    | move r h =>
      obtain ⟨rfl, hlast⟩ := List.append_inj' hl rfl
      obtain ⟨rfl, rfl⟩ := Prod.mk.inj (List.singleton_inj.mp hlast)
      exact ⟨r, h⟩
  · rintro ⟨r, h⟩
    exact .move r h

/-- A run up to a step is a run. -/
theorem Run.before {t u : List (σ × ι)} {s x : σ} {i : ι} (r : m.Run (t ++ (s, i) :: u) x) :
    m.Run t s := by
  induction u using List.reverseRecOn generalizing x with
  | nil => exact (run_snoc.mp r).1
  | append_singleton u p ih =>
    rw [← List.cons_append, ← List.append_assoc] at r
    exact ih (run_snoc.mp r).1

/-- A law that holds once a step is taken, and that every later step meeting
`C` keeps, holds at the end. -/
theorem Run.invariant_after (Inv : σ → Prop) (C : σ → ι → Prop) {t u : List (σ × ι)} {s x : σ}
    {i : ι} (r : m.Run (t ++ (s, i) :: u) x) (h0 : ∀ s', m.step s i = some s' → Inv s')
    (hs : ∀ s i s', Inv s → C s i → m.step s i = some s' → Inv s') (hc : Meets C u) : Inv x := by
  induction u using List.reverseRecOn generalizing x with
  | nil => exact h0 _ (run_snoc.mp r).2
  | append_singleton u p ih =>
    rw [← List.cons_append, ← List.append_assoc] at r
    obtain ⟨r, h⟩ := run_snoc.mp r
    obtain ⟨hu, hp⟩ := meets_snoc.mp hc
    exact hs _ _ _ (ih r hu) hp h

/-! ## Runs that are computed -/

/-- The state after the labels `is`, when all of them can be taken. -/
def final (m : Machine σ ι) (s : σ) (is : List ι) : Option σ := is.foldlM m.step s

/-- The states left and the labels taken on the way. -/
def trace (m : Machine σ ι) (s : σ) : List ι → List (σ × ι)
  | [] => []
  | i :: is =>
    (s, i) :: match m.step s i with
      | none => []
      | some s' => trace m s' is

theorem run_append_trace {t : List (σ × ι)} {s s' : σ} {is : List ι}
    (r : m.Run t s) (h : m.final s is = some s') : m.Run (t ++ m.trace s is) s' := by
  induction is generalizing t s with
  | nil =>
    simp only [final, List.foldlM_nil, pure, Option.some.injEq] at h
    simpa [trace, h] using r
  | cons i is ih =>
    simp only [final, List.foldlM_cons] at h
    rcases hi : m.step s i with _ | s1
    · simp [hi] at h
    · rw [hi] at h
      have := ih (Run.move r hi) h
      simpa [trace, hi] using this

/-- Labels that lead on from where others end. -/
theorem final_trans {s s' x : σ} {is js : List ι} (h : m.final s is = some s')
    (h' : m.final s' js = some x) : m.final s (is ++ js) = some x := by
  unfold final at *
  rw [List.foldlM_append, h]
  exact h'

/-- A run goes on with labels that can all be taken. -/
theorem Run.follow {t : List (σ × ι)} {s : σ} (r : m.Run t s) (is : List ι)
    (h : (m.final s is).isSome) : m.Run (t ++ m.trace s is) ((m.final s is).get h) :=
  run_append_trace r (Option.some_get h).symm

/-- A list of labels that can all be taken from an initial state is a run. -/
theorem run_of_final {s : σ} (is : List ι) (h0 : m.init s) (h : (m.final s is).isSome) :
    m.Run (m.trace s is) ((m.final s is).get h) := by
  have := (Run.start h0).follow is h
  simpa using this

end Machine

end EdgeGateway.Lib
