-- A map that is kept in memory and in a store. A change is made in memory when
-- it is decided, and in the store when the task of its lane takes it. At the
-- start the memory is empty and loads what the store holds. Dependents are
-- entries of a second table that belong to a key of the map; deleting a key
-- sends a cascade after them.
import EdgeGateway.Lib.Replay

namespace EdgeGateway.Lib

universe u v w

@[ext]
structure Replica (κ : Type u) (ν : Type v) (ω : Type w) where
  memory : κ → Option ν
  stored : κ → Option ν
  /-- The changes that are not in the store, the oldest first. -/
  log : List ω
  /-- The same changes by their lanes. -/
  queues : Bool → List ω
  /-- The loads that have still to read the store. -/
  unread : Nat
  /-- What has been read and is not in memory. -/
  loads : List (List (κ × ν))
  dependents : List κ
  cascades : List κ

namespace Replica

variable {κ : Type u} {ν : Type v} {ω : Type w} [DecidableEq κ]

section

variable (o : Changes κ ν ω) (lane : ω → Bool)

/-- What the store will say about a key when the changes of the log have been
made in their order. -/
def upcoming (r : Replica κ ν ω) (k : κ) : Option ν := o.replay k (r.stored k) r.log

def Synced (r : Replica κ ν ω) (k : κ) : Prop := r.upcoming o k = r.memory k

/-- A step of a replica that keeps its order: no change overtakes an older one
of its key, what is loaded is what the store will have, and a dependent is
stored while its key is in memory or a cascade is still to come. -/
inductive Step : Replica κ ν ω → Replica κ ν ω → Prop where
  | pass {r : Replica κ ν ω} : Step r r
  | decides {r : Replica κ ν ω} (c : ω) (more : List κ)
      (hmore : ∀ value, o.effect c value = none → o.key c ∈ more) :
      Step r { r with
        memory := fun k => o.apply k (r.memory k) c
        log := r.log ++ [c]
        queues := fun b => r.queues b ++ [c].filter (fun c => lane c = b)
        cascades := r.cascades ++ more }
  | takes {r : Replica κ ν ω} {b : Bool} {c : ω} {rest : List ω} (hq : r.queues b = c :: rest)
      (hold : ∀ older ∈ before (fun c => lane c = b) r.log, o.key older ≠ o.key c) :
      Step r { r with
        stored := fun k => o.apply k (r.stored k) c
        log := r.log.eraseP (fun c => lane c = b)
        queues := Function.update r.queues b rest }
  | reads {r : Replica κ ν ω} {n : Nat} (hn : r.unread = n + 1) (rows : List (κ × ν))
      (hrows : ∀ k, (∀ row ∈ rows, row.1 ≠ k) → r.stored k = none) :
      Step r { r with unread := n, loads := r.loads ++ [rows] }
  | skips {r : Replica κ ν ω} {n : Nat} (hn : r.unread = n + 1) (hnone : ∀ k, r.stored k = none) :
      Step r { r with unread := n }
  | loads {r : Replica κ ν ω} {rows : List (κ × ν)} {rest : List (List (κ × ν))}
      (hq : r.loads = rows :: rest) (memory : κ → Option ν)
      (hload : ∀ k, (∃ row ∈ rows, row.1 = k ∧ memory k = some row.2) ∨
        (∀ row ∈ rows, row.1 ≠ k) ∧ memory k = r.memory k)
      (hfresh : ∀ row ∈ rows, r.upcoming o row.1 = some row.2) :
      Step r { r with memory := memory, loads := rest }
  | stores {r : Replica κ ν ω} (k : κ) (hk : r.memory k ≠ none ∨ k ∈ r.cascades) :
      Step r { r with dependents := r.dependents ++ [k] }
  | cascades {r : Replica κ ν ω} {k : κ} {rest : List κ} (hq : r.cascades = k :: rest) :
      Step r { r with dependents := r.dependents.filter (fun d => d ≠ k), cascades := rest }

/-- A key that is not synced is stored already, and its changes under way
leave what is stored: it is in memory since before the load. -/
def Known (r : Replica κ ν ω) (k : κ) : Prop :=
  r.Synced o k ∨
    r.stored k ≠ none ∧ ∀ c ∈ r.log, o.key c = k → o.Keeps c

/-- The load has still to read, or its rows are on their way and all other
keys are synced, or it is over. -/
def Loading (r : Replica κ ν ω) : Prop :=
  (r.unread = 1 ∧ r.loads = []) ∨
    (r.unread = 0 ∧ ∃ rows, r.loads = [rows] ∧ ∀ k, (∀ row ∈ rows, row.1 ≠ k) → r.Synced o k) ∨
    (r.unread = 0 ∧ r.loads = [] ∧ ∀ k, r.Synced o k)

structure Coherent (r : Replica κ ν ω) : Prop where
  queued : ∀ b, r.log.filter (fun c => lane c = b) = r.queues b
  known : ∀ k, r.Known o k
  loading : r.Loading o
  cascading : ∀ k ∈ r.dependents, r.upcoming o k ≠ none ∨ k ∈ r.cascades

end

/-! ## What is upcoming -/

variable {o : Changes κ ν ω} {lane : ω → Bool} {r r' : Replica κ ν ω}

/-- What is in memory is upcoming. -/
theorem upcoming_of_memory {k : κ} (h : r.Known o k) (hk : r.memory k ≠ none) :
    r.upcoming o k ≠ none := by
  rcases h with hsync | ⟨hstored, hlog⟩
  · rw [hsync]
    exact hk
  · obtain ⟨value, hvalue⟩ := Option.ne_none_iff_exists'.mp hstored
    rw [upcoming, hvalue, o.replay_keeps hlog]
    simp

/-- A key that is not stored is synced. -/
theorem synced_of_stored {k : κ} (h : r.Known o k) (hk : r.stored k = none) : r.Synced o k :=
  h.resolve_right (fun hstored => hstored.1 hk)

/-- A change that is made in order was upcoming before. -/
theorem upcoming_takes (h : r.Coherent o lane) {b : Bool} {c : ω} {rest : List ω}
    (hq : r.queues b = c :: rest)
    (hold : ∀ older ∈ before (fun c => lane c = b) r.log, o.key older ≠ o.key c) (k : κ) :
    o.replay k (o.apply k (r.stored k) c) (r.log.eraseP (fun c => lane c = b)) =
      r.upcoming o k :=
  o.replay_lane ((h.queued b).trans hq) hold k _

/-! ## Steps -/

section Steps

theorem queued_step (h : r.Coherent o lane) (hs : Step o lane r r') (b : Bool) :
    r'.log.filter (fun c => lane c = b) = r'.queues b := by
  cases hs with
  | decides c more _ => simp [List.filter_append, h.queued b]
  | @takes b' c rest hq _ =>
    by_cases hb : b = b'
    · subst hb
      simp only [Function.update_self, filter_eraseP, h.queued, hq, List.tail_cons]
    · have hother : ∀ c, decide (lane c = b') = true → decide (lane c = b) = false := by
        intro c hc
        rw [decide_eq_true_eq] at hc
        rw [decide_eq_false_iff_not, hc]
        exact Ne.symm hb
      simp only [Function.update_of_ne hb, filter_eraseP_of_disjoint hother, h.queued]
  | _ => exact h.queued b

/-- A key that is synced stays so. -/
theorem synced_step (h : r.Coherent o lane) (hs : Step o lane r r') {k : κ}
    (hk : r.Synced o k) : r'.Synced o k := by
  unfold Synced at hk ⊢
  cases hs with
  | decides c more _ =>
    show o.replay k (r.stored k) (r.log ++ [c]) = o.apply k (r.memory k) c
    rw [Changes.replay_append, ← hk]
    rfl
  | takes hq hold => exact (upcoming_takes h hq hold k).trans hk
  | loads hq memory hload hfresh =>
    rcases hload k with ⟨row, hrow, rfl, hmemory⟩ | ⟨-, hmemory⟩
    · exact (hfresh row hrow).trans hmemory.symm
    · exact hk.trans hmemory.symm
  | _ => exact hk

/-- Once the rows that were read are in memory, all keys are synced. -/
theorem synced_loads (h : r.Coherent o lane) {rows : List (κ × ν)} {rest : List (List (κ × ν))}
    (hq : r.loads = rows :: rest) {memory : κ → Option ν}
    (hload : ∀ k, (∃ row ∈ rows, row.1 = k ∧ memory k = some row.2) ∨
      (∀ row ∈ rows, row.1 ≠ k) ∧ memory k = r.memory k)
    (hfresh : ∀ row ∈ rows, r.upcoming o row.1 = some row.2) :
    r.unread = 0 ∧ rest = [] ∧ ∀ k, r.upcoming o k = memory k := by
  rcases h.loading with ⟨-, hnone⟩ | ⟨hunread, rows', hrows, hothers⟩ | ⟨-, hnone, -⟩
  · simp [hq] at hnone
  · rw [hq, List.cons.injEq] at hrows
    obtain ⟨rfl, rfl⟩ := hrows
    refine ⟨hunread, rfl, fun k => ?_⟩
    rcases hload k with ⟨row, hrow, rfl, hmemory⟩ | ⟨hnot, hmemory⟩
    · exact (hfresh row hrow).trans hmemory.symm
    · exact (hothers k hnot).trans hmemory.symm
  · simp [hq] at hnone

/-- A decision about a key that is not synced syncs it, or keeps its row. -/
theorem known_decides (hplain : ∀ c, o.Keeps c ∨ o.Sets c) {k : κ} (hstored : r.stored k ≠ none)
    (hlog : ∀ c ∈ r.log, o.key c = k → o.Keeps c) (c : ω) :
    o.replay k (r.stored k) (r.log ++ [c]) = o.apply k (r.memory k) c ∨
      r.stored k ≠ none ∧ ∀ x ∈ r.log ++ [c], o.key x = k → o.Keeps x := by
  by_cases hset : o.key c = k ∧ o.Sets c
  · left
    rw [Changes.replay_append, Changes.replay_cons, Changes.replay_nil, ← hset.1, o.apply_self,
      o.apply_self]
    exact hset.2 _ _
  · refine .inr ⟨hstored, fun x hx hxk => ?_⟩
    rcases List.mem_append.mp hx with hx | hx
    · exact hlog x hx hxk
    · rw [List.mem_singleton] at hx
      subst hx
      exact (hplain x).resolve_right (fun hs => hset ⟨hxk, hs⟩)

theorem known_step (hplain : ∀ c, o.Keeps c ∨ o.Sets c) (h : r.Coherent o lane)
    (hs : Step o lane r r') (k : κ) : r'.Known o k := by
  rcases h.known k with hsync | ⟨hstored, hlog⟩
  · exact .inl (synced_step h hs hsync)
  cases hs with
  | decides c more _ => exact known_decides hplain hstored hlog c
  | @takes b c rest hq hold =>
    have hmem : c ∈ r.log := by
      have hc : c ∈ r.log.filter (fun c => lane c = b) := by simp [h.queued b, hq]
      exact List.mem_of_mem_filter hc
    obtain ⟨value, hvalue⟩ := Option.ne_none_iff_exists'.mp hstored
    refine .inr ⟨?_, fun x hx => hlog x (List.mem_of_mem_eraseP hx)⟩
    simp only [hvalue, o.apply_keeps (hlog c hmem)]
    simp
  | loads hq memory hload hfresh => exact .inl ((synced_loads h hq hload hfresh).2.2 k)
  | _ => exact .inr ⟨hstored, hlog⟩

/-- A step that is not about the load keeps its phase. -/
theorem loading_of_synced (h : r.Loading o) (hunread : r'.unread = r.unread)
    (hloads : r'.loads = r.loads) (hsync : ∀ k, r.Synced o k → r'.Synced o k) :
    r'.Loading o := by
  unfold Loading
  rw [hunread, hloads]
  rcases h with h | ⟨h0, rows, hrows, hothers⟩ | ⟨h0, hnone, hall⟩
  · exact .inl h
  · exact .inr (.inl ⟨h0, rows, hrows, fun k hk => hsync k (hothers k hk)⟩)
  · exact .inr (.inr ⟨h0, hnone, fun k => hsync k (hall k)⟩)

/-- A load that has still to read is the only one. -/
theorem loading_unread (h : r.Loading o) {n : Nat} (hn : r.unread = n + 1) :
    n = 0 ∧ r.loads = [] := by
  rcases h with ⟨h1, hnone⟩ | ⟨h0, -⟩ | ⟨h0, -⟩
  · exact ⟨by omega, hnone⟩
  · omega
  · omega

theorem loading_step (h : r.Coherent o lane) (hs : Step o lane r r') : r'.Loading o := by
  have hsync : ∀ k, r.Synced o k → r'.Synced o k := fun k => synced_step h hs
  cases hs with
  | reads hn rows hrows =>
    obtain ⟨rfl, hnone⟩ := loading_unread h.loading hn
    exact .inr (.inl ⟨rfl, rows, by simp [hnone],
      fun k hk => hsync k (synced_of_stored (h.known k) (hrows k hk))⟩)
  | skips hn hstored =>
    obtain ⟨rfl, hnone⟩ := loading_unread h.loading hn
    exact .inr (.inr ⟨rfl, hnone, fun k => hsync k (synced_of_stored (h.known k) (hstored k))⟩)
  | loads hq memory hload hfresh =>
    obtain ⟨hunread, hrest, hall⟩ := synced_loads h hq hload hfresh
    exact .inr (.inr ⟨hunread, hrest, hall⟩)
  | _ => exact loading_of_synced h.loading rfl rfl hsync

theorem cascading_step (h : r.Coherent o lane) (hs : Step o lane r r') :
    ∀ k ∈ r'.dependents, r'.upcoming o k ≠ none ∨ k ∈ r'.cascades := by
  cases hs with
  | decides c more hmore =>
    intro k hk
    show o.replay k (r.stored k) (r.log ++ [c]) ≠ none ∨ k ∈ r.cascades ++ more
    rw [Changes.replay_append, Changes.replay_cons, Changes.replay_nil, List.mem_append]
    by_cases hkey : o.key c = k
    · subst hkey
      rw [o.apply_self]
      by_cases hnone : o.effect c (r.upcoming o (o.key c)) = none
      · exact .inr (.inr (hmore _ hnone))
      · exact .inl hnone
    · rw [o.apply_other hkey]
      exact (h.cascading k hk).imp_right .inl
  | takes hq hold =>
    intro k hk
    refine (h.cascading k hk).imp_left fun hne => ?_
    show o.replay k (o.apply k (r.stored k) _) (r.log.eraseP _) ≠ none
    rwa [upcoming_takes h hq hold k]
  | stores k hk =>
    intro d hd
    rcases List.mem_append.mp hd with hd | hd
    · exact h.cascading d hd
    · rw [List.mem_singleton] at hd
      subst hd
      exact hk.imp_left (upcoming_of_memory (h.known d))
  | cascades hq =>
    intro d hd
    rw [List.mem_filter, decide_eq_true_eq] at hd
    refine (h.cascading d hd.1).imp_right fun hc => ?_
    rw [hq, List.mem_cons] at hc
    exact hc.resolve_left hd.2
  | _ => exact h.cascading

/-- A step in order keeps the replica coherent. -/
theorem coherent_step (hplain : ∀ c, o.Keeps c ∨ o.Sets c) (h : r.Coherent o lane)
    (hs : Step o lane r r') : r'.Coherent o lane where
  queued := queued_step h hs
  known := known_step hplain h hs
  loading := loading_step h hs
  cascading := cascading_step h hs

end Steps

/-- When nothing is under way, the store says what the memory says, and every
dependent has its key. -/
theorem agree_of_coherent (h : r.Coherent o lane) (hqueues : ∀ b, r.queues b = [])
    (hunread : r.unread = 0) (hloads : r.loads = []) (hcascades : r.cascades = []) :
    (∀ k, r.stored k = r.memory k) ∧ ∀ k ∈ r.dependents, r.stored k ≠ none := by
  have hlog : r.log = [] := by
    refine List.eq_nil_iff_forall_not_mem.mpr fun c hc => ?_
    have hmem : c ∈ r.log.filter (fun x => lane x = lane c) := by simp [hc]
    simp [h.queued, hqueues] at hmem
  have hupcoming : ∀ k, r.upcoming o k = r.stored k := fun k => by simp [upcoming, hlog]
  constructor
  · intro k
    rcases h.loading with ⟨h1, -⟩ | ⟨-, rows, hrows, -⟩ | ⟨-, -, hall⟩
    · omega
    · simp [hloads] at hrows
    · exact (hupcoming k).symm.trans (hall k)
  · intro k hk
    rw [← hupcoming]
    exact (h.cascading k hk).resolve_right (by simp [hcascades])

end Replica

end EdgeGateway.Lib
