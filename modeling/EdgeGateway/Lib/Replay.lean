-- A map and the log of the changes that it has still to take. Each change is
-- about one key. The changes of a log may be taken out of order, lane by lane,
-- as long as no change overtakes an older one about its own key.
import Mathlib.Data.List.Basic

namespace EdgeGateway.Lib

universe u v w

/-- Changes of a map: the key each is about, and what becomes of its value. -/
structure Changes (κ : Type u) (ν : Type v) (ω : Type w) where
  key : ω → κ
  effect : ω → Option ν → Option ν

namespace Changes

variable {κ : Type u} {ν : Type v} {ω : Type w} [DecidableEq κ] (o : Changes κ ν ω)

/-- The value at `k` after a change. -/
def apply (k : κ) (value : Option ν) (c : ω) : Option ν :=
  if o.key c = k then o.effect c value else value

/-- The value at `k` after all changes of a log, the oldest first. -/
def replay (k : κ) (value : Option ν) (log : List ω) : Option ν := log.foldl (o.apply k) value

theorem apply_self (c : ω) (value : Option ν) : o.apply (o.key c) value c = o.effect c value :=
  if_pos rfl

theorem apply_other {k : κ} {c : ω} (h : o.key c ≠ k) (value : Option ν) :
    o.apply k value c = value :=
  if_neg h

@[simp] theorem replay_nil (k : κ) (value : Option ν) : o.replay k value [] = value := rfl

@[simp] theorem replay_cons (k : κ) (value : Option ν) (c : ω) (log : List ω) :
    o.replay k value (c :: log) = o.replay k (o.apply k value c) log := rfl

@[simp] theorem replay_append (k : κ) (value : Option ν) (log log' : List ω) :
    o.replay k value (log ++ log') = o.replay k (o.replay k value log) log' :=
  List.foldl_append

/-- Changes about other keys leave the value. -/
theorem replay_other {k : κ} {log : List ω} (h : ∀ c ∈ log, o.key c ≠ k) (value : Option ν) :
    o.replay k value log = value := by
  induction log generalizing value with
  | nil => rfl
  | cons c log ih =>
    rw [replay_cons, o.apply_other (h c (by simp))]
    exact ih (fun c hc => h c (by simp [hc])) value

/-- A log with one change for each key of a list, when a second one adds nothing. -/
theorem replay_map {change : κ → ω} (hkey : ∀ k, o.key (change k) = k)
    (hidem : ∀ k value, o.effect (change k) (o.effect (change k) value) = o.effect (change k) value)
    (keys : List κ) (k : κ) (value : Option ν) :
    o.replay k value (keys.map change) =
      if k ∈ keys then o.effect (change k) value else value := by
  induction keys generalizing value with
  | nil => simp
  | cons k' keys ih =>
    rw [List.map_cons, replay_cons, ih]
    by_cases hk : k' = k
    · subst hk
      have hself : o.apply k' value (change k') = o.effect (change k') value := if_pos (hkey k')
      rw [hself, hidem]
      simp
    · rw [o.apply_other (by rwa [hkey])]
      simp [Ne.symm hk]

/-- The change leaves a value that is there. -/
def Keeps (c : ω) : Prop := ∀ value, o.effect c (some value) = some value

/-- The change does not look at the value that was there. -/
def Sets (c : ω) : Prop := ∀ value value', o.effect c value = o.effect c value'

theorem apply_keeps {k : κ} {c : ω} (h : o.key c = k → o.Keeps c) (value : ν) :
    o.apply k (some value) c = some value := by
  by_cases hk : o.key c = k
  · rw [apply, if_pos hk, h hk]
  · exact o.apply_other hk _

theorem replay_keeps {k : κ} {log : List ω} (h : ∀ c ∈ log, o.key c = k → o.Keeps c) (value : ν) :
    o.replay k (some value) log = some value := by
  induction log with
  | nil => rfl
  | cons c log ih =>
    rw [replay_cons, o.apply_keeps (h c (by simp))]
    exact ih (fun c hc => h c (by simp [hc]))

/-- A change may be taken before older changes about other keys. -/
theorem replay_early {c : ω} {older : List ω} (h : ∀ x ∈ older, o.key x ≠ o.key c)
    (newer : List ω) (k : κ) (value : Option ν) :
    o.replay k (o.apply k value c) (older ++ newer) = o.replay k value (older ++ c :: newer) := by
  rw [replay_append, replay_append, replay_cons]
  by_cases hk : o.key c = k
  · subst hk
    rw [o.replay_other h, o.replay_other h]
  · rw [o.apply_other hk, o.apply_other hk]

end Changes

/-! ## Lanes -/

section Lanes

variable {ω : Type w} {lane : ω → Bool} {log : List ω}

/-- The entries before the first one of a lane. -/
def before (lane : ω → Bool) (log : List ω) : List ω := log.takeWhile (fun c => !lane c)

/-- The first entry of a lane splits the log. -/
theorem split_lane {c : ω} {rest : List ω} (h : log.filter lane = c :: rest) :
    ∃ newer, log = before lane log ++ c :: newer ∧ log.eraseP lane = before lane log ++ newer := by
  induction log with
  | nil => simp at h
  | cons x log ih =>
    by_cases hx : lane x = true
    · rw [List.filter_cons_of_pos hx, List.cons.injEq] at h
      have hbefore : before lane (x :: log) = [] := by simp [before, hx]
      exact ⟨log, by rw [hbefore, h.1, List.nil_append],
        by rw [hbefore, List.eraseP_cons_of_pos hx, List.nil_append]⟩
    · rw [List.filter_cons_of_neg hx] at h
      obtain ⟨newer, hlog, herase⟩ := ih h
      have hbefore : before lane (x :: log) = x :: before lane log := by simp [before, hx]
      exact ⟨newer, by rw [hbefore, List.cons_append, ← hlog],
        by rw [List.eraseP_cons_of_neg hx, herase, hbefore, List.cons_append]⟩

/-- Taking the first entry of a lane takes it from that lane. -/
theorem filter_eraseP (lane : ω → Bool) (log : List ω) :
    (log.eraseP lane).filter lane = (log.filter lane).tail := by
  induction log with
  | nil => rfl
  | cons x log ih =>
    by_cases hx : lane x = true
    · simp [hx]
    · simp [hx, ih]

/-- The other lanes keep their entries. -/
theorem filter_eraseP_of_disjoint {lane' : ω → Bool} (h : ∀ c, lane c = true → lane' c = false)
    (log : List ω) : (log.eraseP lane).filter lane' = log.filter lane' := by
  induction log with
  | nil => rfl
  | cons x log ih =>
    by_cases hx : lane x = true
    · simp [hx, h x hx]
    · simp [hx, ih, List.filter_cons]

/-- The first change of a lane may be taken when no older change is about its key. -/
theorem Changes.replay_lane {κ : Type u} {ν : Type v} [DecidableEq κ] (o : Changes κ ν ω) {c : ω}
    {rest : List ω} (hc : log.filter lane = c :: rest)
    (h : ∀ x ∈ before lane log, o.key x ≠ o.key c) (k : κ) (value : Option ν) :
    o.replay k (o.apply k value c) (log.eraseP lane) = o.replay k value log := by
  obtain ⟨newer, hlog, herase⟩ := split_lane hc
  rw [herase, o.replay_early h, ← hlog]

end Lanes

end EdgeGateway.Lib
