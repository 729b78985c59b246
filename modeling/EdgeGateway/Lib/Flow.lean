-- What goes through the channels over a whole run. A view reads the messages that
-- are of interest; what it reads of a channel comes in at one end and goes out at
-- the other, and a task that relays hands it on from one channel to the next. So a
-- lane of channels loses nothing, adds nothing and keeps the order.
import EdgeGateway.Lib.Mailbox

namespace EdgeGateway.Lib

universe u v

namespace Machine

variable {σ : Type u} {ι : Type v} {α : Type} {m : Machine σ ι}

/-- What the steps of a run give, the oldest first. -/
def log (f : σ → ι → List α) (l : List (σ × ι)) : List α := l.flatMap (fun p => f p.1 p.2)

@[simp] theorem log_nil (f : σ → ι → List α) : log f [] = [] := rfl

@[simp] theorem log_snoc (f : σ → ι → List α) (l : List (σ × ι)) (s : σ) (i : ι) :
    log f (l ++ [(s, i)]) = log f l ++ f s i := by
  simp [log]

/-- Where each step gives the same twice, so does the run. -/
theorem Run.log_congr {f g : σ → ι → List α}
    (h : ∀ s i s', m.step s i = some s' → f s i = g s i) {l : List (σ × ι)} {s : σ}
    (r : m.Run l s) : log f l = log g l := by
  induction r with
  | start _ => rfl
  | move r hs ih => rw [log_snoc, log_snoc, ih, h _ _ _ hs]

/-- Where each step keeps the books, so does the run: what was there and what came
is what went and what is there. -/
theorem Run.balance (content : σ → List α) (came went : σ → ι → List α) {c₀ : List α}
    (Inv : σ → Prop) (h0 : ∀ s, m.init s → Inv s ∧ content s = c₀)
    (hi : ∀ s i s', Inv s → m.step s i = some s' → Inv s')
    (h : ∀ s i s', Inv s → m.step s i = some s' →
      content s ++ came s i = went s i ++ content s') {l : List (σ × ι)} {s : σ}
    (r : m.Run l s) : c₀ ++ log came l = log went l ++ content s := by
  induction r with
  | start hs => simp [(h0 _ hs).2]
  | @move l s s' i r hs ih =>
    have hinv : Inv s := r.always Inv (fun s hs => (h0 s hs).1) hi
    rw [log_snoc, log_snoc, ← List.append_assoc, ih, List.append_assoc, h s i s' hinv hs,
      List.append_assoc]

end Machine

namespace Mailbox

variable {T C : Type} {M : C → Type} {S E : Type} {α : Type} [DecidableEq T] [DecidableEq C]

/-! ## What a view reads -/

section Reads

variable (v : (c : C) → M c → Option α)

/-- What is read of the sends into a channel. -/
def sent (c : C) (sends : List ((c : C) × M c)) : List α :=
  (sends.filter (fun p => p.1 = c)).filterMap (fun p => v p.1 p.2)

/-- What waits in a channel. -/
def held (g : Mailbox T C M S) (c : C) : List α := (g.queue c).filterMap (v c)

/-- What a task has still to send into a channel. -/
def owed (g : Mailbox T C M S) (t : T) (c : C) : List α := sent v c (g.pending t)

/-- What a step brings into a channel. -/
def came (c : C) (g : Mailbox T C M S) : Transfer T C M E → List α
  | .put t => sent v c ((g.pending t).take 1)
  | .feed c₀ m => sent v c [⟨c₀, m⟩]
  | _ => []

/-- What a step takes out of a channel. -/
def went (c : C) (g : Mailbox T C M S) : Transfer T C M E → List α
  | .take c₀ _ => if c₀ = c then ((g.queue c).take 1).filterMap (v c) else []
  | .drain c₀ => if c₀ = c then ((g.queue c).take 1).filterMap (v c) else []
  | _ => []

/-- What the message that a step takes makes a task send into a channel. -/
def caused (w : Wiring T C M S E) (t : T) (c : C) (g : Mailbox T C M S) :
    Transfer T C M E → List α
  | .take c₀ e =>
    match w.reader c₀, g.queue c₀ with
    | some t₀, m :: _ => if t₀ = t then sent v c (w.handle e g.memory c₀ m).2 else []
    | _, _ => []
  | _ => []

@[simp] theorem sent_nil (c : C) : sent v c ([] : List ((c : C) × M c)) = [] := rfl

theorem sent_cons_self {c : C} (m : M c) (sends : List ((c : C) × M c)) :
    sent v c (⟨c, m⟩ :: sends) = (v c m).toList ++ sent v c sends := by
  cases h : v c m <;> simp [sent, h]

theorem sent_cons_ne {c c₀ : C} (h : c₀ ≠ c) (m : M c₀) (sends : List ((c : C) × M c)) :
    sent v c (⟨c₀, m⟩ :: sends) = sent v c sends := by
  simp [sent, h]

theorem sent_split (c : C) (p : (c : C) × M c) (sends : List ((c : C) × M c)) :
    sent v c (p :: sends) = sent v c [p] ++ sent v c sends := by
  simp only [sent, ← List.filterMap_append, ← List.filter_append, List.singleton_append]

theorem filterMap_cons_toList {β : Type} (f : β → Option α) (b : β) (l : List β) :
    (b :: l).filterMap f = (f b).toList ++ l.filterMap f := by
  cases h : f b <;> simp [h]

theorem sent_append (c : C) (sends sends' : List ((c : C) × M c)) :
    sent v c (sends ++ sends') = sent v c sends ++ sent v c sends' := by
  simp only [sent, List.filter_append, List.filterMap_append]

/-- What is read of sends that all go into one channel. -/
theorem sent_map {β : Type} (c c₀ : C) (f : β → M c₀) (l : List β) :
    sent v c (l.map (fun b => (⟨c₀, f b⟩ : (c : C) × M c))) =
      if c₀ = c then l.filterMap (fun b => v c₀ (f b)) else [] := by
  by_cases hc : c₀ = c
  · subst hc
    rw [if_pos rfl]
    induction l with
    | nil => rfl
    | cons b l ih => rw [List.map_cons, sent_cons_self, ih, filterMap_cons_toList]
  · rw [if_neg hc]
    induction l with
    | nil => rfl
    | cons b l ih => rw [List.map_cons, sent_cons_ne v hc, ih]

end Reads

/-! ## One channel, one task -/

section Steps

variable {v : (c : C) → M c → Option α} {w : Wiring T C M S E} {g g' : Mailbox T C M S}
  {i : Transfer T C M E} {t : T} {c : C}

/-- A channel is a queue. -/
theorem held_step (hs : g.step w i = some g') :
    held v g c ++ came v c g i = went v c g i ++ held v g' c := by
  unfold held
  cases move_of_step hs with
  | @take c₀ t₀ m rest e hr hq hp =>
    by_cases hc : c₀ = c
    · subst hc
      simp [came, went, hq, filterMap_cons_toList]
    · simp [came, went, hc, queue_setQueue_ne _ (Ne.symm hc)]
  | @put t₀ c₀ m rest hp hroom =>
    by_cases hc : c₀ = c
    · subst hc
      simp [came, went, hp, sent_cons_self, filterMap_cons_toList]
    · simp [came, went, hp, sent_cons_ne v hc, queue_setQueue_ne _ (Ne.symm hc)]
  | @feed c₀ m hf hroom =>
    by_cases hc : c₀ = c
    · subst hc
      simp [came, went, sent_cons_self, filterMap_cons_toList]
    · simp [came, went, sent_cons_ne v hc, queue_setQueue_ne _ (Ne.symm hc)]
  | @drain c₀ m rest hr hq =>
    by_cases hc : c₀ = c
    · subst hc
      simp [came, went, hq, filterMap_cons_toList]
    · simp [came, went, hc, queue_setQueue_ne _ (Ne.symm hc)]

/-- What is read of a channel is sent by `t` alone. -/
structure Writer (v : (c : C) → M c → Option α) (w : Wiring T C M S E) (t : T) (c : C) :
    Prop where
  fed : w.fed c = true → ∀ m, v c m = none
  others : ∀ e s c₀ m t₀, w.reader c₀ = some t₀ → t₀ ≠ t → sent v c (w.handle e s c₀ m).2 = []

omit [DecidableEq T] in
/-- A channel that one task alone sends into. -/
theorem writer_of_writes {writes : T → C → Bool}
    (hw : ∀ e s c m t, w.reader c = some t → ∀ p ∈ (w.handle e s c m).2, writes t p.1 = true)
    (hfed : w.fed c = false) (honly : ∀ t₀, writes t₀ c = true → t₀ = t) : Writer v w t c where
  fed := by
    intro h
    rw [hfed] at h
    cases h
  others := by
    intro e s c₀ m t₀ hr ht
    unfold sent
    rw [List.filterMap_eq_nil_iff]
    intro p hp
    obtain ⟨hp, hpc⟩ := List.mem_filter.mp hp
    have hwrites := hw e s c₀ m t₀ hr p hp
    rw [of_decide_eq_true hpc] at hwrites
    exact absurd (honly t₀ hwrites) ht

/-- The other tasks have nothing of it to send. -/
theorem others_step (h : Writer v w t c) (hg : ∀ t₀ ≠ t, owed v g t₀ c = [])
    (hs : g.step w i = some g') : ∀ t₀ ≠ t, owed v g' t₀ c = [] := by
  intro t₀ ht
  unfold owed
  cases move_of_step hs with
  | @take c₁ t₁ m rest e hr hq hp =>
    by_cases heq : t₀ = t₁
    · subst heq
      rw [pending_setPending_self]
      exact h.others e g.memory c₁ m t₀ hr ht
    · rw [pending_setPending_ne _ heq]
      exact hg t₀ ht
  | @put t₁ c₁ m rest hp hroom =>
    by_cases heq : t₀ = t₁
    · subst heq
      rw [pending_setPending_self]
      have hbefore := hg t₀ ht
      unfold owed at hbefore
      rw [hp, sent_split] at hbefore
      exact (List.append_eq_nil_iff.mp hbefore).2
    · rw [pending_setPending_ne _ heq]
      exact hg t₀ ht
  | _ => exact hg t₀ ht

/-- What the only writer is caused to send comes into the channel, or is still to be sent. -/
theorem owed_step (h : Writer v w t c) (hg : ∀ t₀ ≠ t, owed v g t₀ c = [])
    (hs : g.step w i = some g') :
    owed v g t c ++ caused v w t c g i = came v c g i ++ owed v g' t c := by
  unfold owed
  cases move_of_step hs with
  | @take c₁ t₁ m rest e hr hq hp =>
    by_cases heq : t₁ = t
    · subst heq
      simp [caused, came, hr, hq, hp]
    · simp [caused, came, hr, hq, heq, pending_setPending_ne _ (Ne.symm heq)]
  | @put t₁ c₁ m rest hp hroom =>
    by_cases heq : t₁ = t
    · subst heq
      rw [pending_setPending_self, hp, sent_split]
      simp [caused, came, hp]
    · have hnone := hg t₁ heq
      unfold owed at hnone
      rw [hp, sent_split] at hnone
      simp [caused, came, hp, (List.append_eq_nil_iff.mp hnone).1,
        pending_setPending_ne _ (Ne.symm heq)]
  | @feed c₁ m hf hroom =>
    by_cases hc : c₁ = c
    · subst hc
      simp [caused, came, sent_cons_self, h.fed hf m]
    · simp [caused, came, sent_cons_ne v hc]
  | drain hr hq => simp [caused, came]

end Steps

/-! ## Lanes -/

/-- `t` hands on to `c` what it reads of `c'`, one for one, and nothing else. -/
structure Relay (v : (c : C) → M c → Option α) (w : Wiring T C M S E) (t : T) (c' c : C) :
    Prop where
  reader : w.reader c' = some t
  writer : Writer v w t c
  passes : ∀ e s m, sent v c (w.handle e s c' m).2 = (v c' m).toList
  alone : ∀ e s c₀ m, w.reader c₀ = some t → c₀ ≠ c' → sent v c (w.handle e s c₀ m).2 = []

omit [DecidableEq T] in
/-- A channel that is written in the handling of one other alone. -/
theorem relay_of_source {v : (c : C) → M c → Option α} {w : Wiring T C M S E} {t : T} {c' c : C}
    (hreader : w.reader c' = some t) (hfed : w.fed c = false)
    (hsource : ∀ e s c₀ m p, p ∈ (w.handle e s c₀ m).2 → p.1 = c → c₀ = c')
    (hpasses : ∀ e s m, sent v c (w.handle e s c' m).2 = (v c' m).toList) :
    Relay v w t c' c := by
  have hnothing : ∀ e s c₀ m, c₀ ≠ c' → sent v c (w.handle e s c₀ m).2 = [] := by
    intro e s c₀ m hc
    unfold sent
    rw [List.filterMap_eq_nil_iff]
    intro p hp
    obtain ⟨hp, hpc⟩ := List.mem_filter.mp hp
    exact absurd (hsource e s c₀ m p hp (of_decide_eq_true hpc)) hc
  refine ⟨hreader, ⟨fun h => ?_, fun e s c₀ m t₀ hr ht => hnothing e s c₀ m ?_⟩, hpasses,
    fun e s c₀ m _ hc => hnothing e s c₀ m hc⟩
  · rw [hfed] at h
    cases h
  · rintro rfl
    exact ht (Option.some.inj (hr.symm.trans hreader))

/-- Relays one behind the other, from the channel that the lane ends in. -/
inductive Linked (v : (c : C) → M c → Option α) (w : Wiring T C M S E) :
    C → List (T × C) → Prop where
  | nil (c : C) : Linked v w c []
  | cons {t : T} {c c' : C} {rest : List (T × C)} (h : Relay v w t c' c)
    (hrest : Linked v w c' rest) : Linked v w c ((t, c') :: rest)

/-- The channel that a lane begins with. -/
def source (c : C) : List (T × C) → C
  | [] => c
  | (_, c') :: rest => source c' rest

/-- No other task has anything of it to send into the channels of the lane. -/
def Reserved (v : (c : C) → M c → Option α) (g : Mailbox T C M S) (c : C) : List (T × C) → Prop
  | [] => True
  | (t, c') :: rest => (∀ t₀ ≠ t, owed v g t₀ c = []) ∧ Reserved v g c' rest

/-- What is under way on a lane, what comes out first at the front. -/
def lane (v : (c : C) → M c → Option α) (g : Mailbox T C M S) (c : C) : List (T × C) → List α
  | [] => held v g c
  | (t, c') :: rest => held v g c ++ owed v g t c ++ lane v g c' rest

section Lanes

variable {v : (c : C) → M c → Option α} {w : Wiring T C M S E} {g₀ g : Mailbox T C M S}
  {l : List (Mailbox T C M S × Transfer T C M E)} {t : T} {c c' : C}

theorem caused_of_relay (h : Relay v w t c' c) {g g' : Mailbox T C M S} {i : Transfer T C M E}
    (hs : g.step w i = some g') : caused v w t c g i = went v c' g i := by
  cases move_of_step hs with
  | @take c₀ t₀ m rest e hr hq hp =>
    by_cases hc : c₀ = c'
    · subst hc
      obtain rfl : t = t₀ := Option.some.inj (h.reader.symm.trans hr)
      simp [caused, went, hr, hq, h.passes, filterMap_cons_toList]
    · by_cases ht : t₀ = t
      · subst ht
        simp [caused, went, hr, hq, hc, h.alone e g.memory c₀ m hr hc]
      · simp [caused, went, hr, hq, hc, ht]
  | put hp hroom => rfl
  | feed m hf hroom => rfl
  | @drain c₀ m rest hr hq =>
    have hc : c₀ ≠ c' := by
      rintro rfl
      rw [h.reader] at hr
      cases hr
    simp [caused, went, hc]

/-- Over a run a channel loses nothing, adds nothing and keeps the order. -/
theorem run_held (run : (machine w (fun g => g = g₀)).Run l g) (c : C) :
    held v g₀ c ++ Machine.log (came v c) l = Machine.log (went v c) l ++ held v g c := by
  apply run.balance (fun g => held v g c) (came v c) (went v c) (fun _ => True)
  · rintro g rfl
    exact ⟨trivial, rfl⟩
  · exact fun _ _ _ _ _ => trivial
  · exact fun g i g' _ hs => held_step hs

/-- Over a run the only writer sends what it is caused to, in order. -/
theorem run_owed (h : Writer v w t c) (h0 : ∀ t₀ ≠ t, owed v g₀ t₀ c = [])
    (run : (machine w (fun g => g = g₀)).Run l g) :
    owed v g₀ t c ++ Machine.log (caused v w t c) l =
      Machine.log (came v c) l ++ owed v g t c := by
  apply run.balance (fun g => owed v g t c) (caused v w t c) (came v c)
    (fun g => ∀ t₀ ≠ t, owed v g t₀ c = [])
  · rintro g rfl
    exact ⟨h0, rfl⟩
  · exact fun g i g' hg hs => others_step h hg hs
  · exact fun g i g' hg hs => owed_step h hg hs

/-- Over a run a lane loses nothing, adds nothing and keeps the order. -/
theorem run_lane {path : List (T × C)} (h : Linked v w c path)
    (h0 : Reserved v g₀ c path)
    (run : (machine w (fun g => g = g₀)).Run l g) :
    lane v g₀ c path ++ Machine.log (came v (source c path)) l =
      Machine.log (went v c) l ++ lane v g c path := by
  induction h with
  | nil c => exact run_held run c
  | @cons t c c' rest h hrest ih =>
    have hlane := ih h0.2
    have howed := run_owed h.writer h0.1 run
    have hcaused : Machine.log (caused v w t c) l = Machine.log (went v c') l :=
      run.log_congr fun g i g' hs => caused_of_relay h hs
    have hheld := run_held (v := v) run c
    rw [hcaused] at howed
    calc held v g₀ c ++ owed v g₀ t c ++ lane v g₀ c' rest ++
          Machine.log (came v (source c' rest)) l
        = held v g₀ c ++ owed v g₀ t c ++
            (Machine.log (went v c') l ++ lane v g c' rest) := by
          rw [List.append_assoc, hlane]
      _ = held v g₀ c ++ (Machine.log (came v c) l ++ owed v g t c) ++ lane v g c' rest := by
          rw [← howed]
          simp only [List.append_assoc]
      _ = Machine.log (went v c) l ++ (held v g c ++ owed v g t c ++ lane v g c' rest) := by
          rw [← List.append_assoc, hheld]
          simp only [List.append_assoc]

/-! ## What a reader remembers -/

/-- The last that was read, or what was known before. -/
def settled (before : α) (heard : List α) : α := heard.getLast?.getD before

theorem settled_append (before : α) (heard heard' : List α) :
    settled before (heard ++ heard') = settled (settled before heard) heard' := by
  unfold settled
  rw [List.getLast?_append]
  cases heard'.getLast? <;> simp

/-- A part of the memory is the last that was read of a channel. -/
structure Keeps (v : (c : C) → M c → Option α) (w : Wiring T C M S E) (c : C) (know : S → α) :
    Prop where
  reader : w.reader c ≠ none
  own : ∀ e s m, know (w.handle e s c m).1 = (v c m).getD (know s)
  others : ∀ e s c₀ m, c₀ ≠ c → know (w.handle e s c₀ m).1 = know s

theorem know_step {know : S → α} (h : Keeps v w c know) {g g' : Mailbox T C M S}
    {i : Transfer T C M E} (hs : g.step w i = some g') :
    know g'.memory = settled (know g.memory) (went v c g i) := by
  cases move_of_step hs with
  | @take c₀ t m rest e hr hq hp =>
    by_cases hc : c₀ = c
    · subst hc
      refine (h.own e g.memory m).trans ?_
      cases hv : v c₀ m <;> simp [settled, went, hq, hv]
    · refine (h.others e g.memory c₀ m hc).trans ?_
      simp [settled, went, hc]
  | put hp hroom => rfl
  | feed m hf hroom => rfl
  | @drain c₀ m rest hr hq =>
    have hc : c₀ ≠ c := by
      rintro rfl
      exact h.reader hr
    simp only [went, if_neg hc]
    rfl

/-- What a reader knows, once it has read what is under way to it, is the last that came. -/
theorem run_know {know : S → α} {path : List (T × C)} (h : Keeps v w c know)
    (hlane : Linked v w c path) (h0 : Reserved v g₀ c path) (hnone : lane v g₀ c path = [])
    (run : (machine w (fun g => g = g₀)).Run l g) :
    settled (know g.memory) (lane v g c path) =
      settled (know g₀.memory) (Machine.log (came v (source c path)) l) := by
  have hread : know g.memory = settled (know g₀.memory) (Machine.log (went v c) l) := by
    clear hlane h0 hnone
    induction run with
    | start hg =>
      obtain rfl : _ = g₀ := hg
      rfl
    | move r hs ih => rw [know_step h hs, ih, Machine.log_snoc, settled_append]
  have hflow := run_lane hlane h0 run
  rw [hnone, List.nil_append] at hflow
  rw [hread, ← settled_append, hflow]

end Lanes

end Mailbox

end EdgeGateway.Lib
