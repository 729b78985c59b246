-- Tasks that are asked to end. A task ends when it waits for its next message; what is
-- sent to a task that has ended is dropped, and the sender goes on. So a shutdown hangs
-- only where every task that has not ended waits for room in a channel that is read by
-- another such task or from outside, and a knot of such tasks is never undone.
import EdgeGateway.Lib.Work

namespace EdgeGateway.Lib

/-- Tasks with the request to end, those that have ended, and the channels whose reader outside
has. -/
structure Closing (T C : Type) (M : C → Type) (S : Type) where
  mailbox : Mailbox T C M S
  cancelled : Bool
  ended : T → Bool
  left : C → Bool

namespace Closing

inductive Label (T C : Type) (M : C → Type) (E : Type) where
  | go (i : Transfer T C M E)
  | cancel
  | stop (t : T)
  | leave (c : C)

variable {T C : Type} {M : C → Type} {S E : Type}

/-- All tasks go on, and nothing asks them to end. -/
def running (g : Mailbox T C M S) : Closing T C M S where
  mailbox := g
  cancelled := false
  ended _ := false
  left _ := false

/-- Nobody reads the channel any more. -/
def closed (w : Wiring T C M S E) (s : Closing T C M S) (c : C) : Bool :=
  match w.reader c with
  | some t => s.ended t
  | none => s.left c

section Steps

variable [DecidableEq T] [DecidableEq C]

/-- A step of the tasks: what is sent into a channel without a reader is dropped. -/
def go (w : Wiring T C M S E) (s : Closing T C M S) :
    Transfer T C M E → Option (Mailbox T C M S)
  | .take c e => if s.closed w c then none else s.mailbox.take w c e
  | .put t =>
    match s.mailbox.pending t with
    | [] => none
    | ⟨c, _⟩ :: rest =>
      if s.closed w c then some (s.mailbox.setPending t rest) else s.mailbox.put w t
  | .feed c m => if s.closed w c then none else s.mailbox.feed w c m
  | .drain c => if s.closed w c then none else s.mailbox.drain w c

def step (w : Wiring T C M S E) (s : Closing T C M S) : Label T C M E → Option (Closing T C M S)
  | .go i => (s.go w i).map (fun g => { s with mailbox := g })
  | .cancel => some { s with cancelled := true }
  | .stop t =>
    if s.cancelled && !s.ended t && (s.mailbox.pending t).isEmpty then
      some { s with ended := Function.update s.ended t true }
    else none
  | .leave c =>
    if s.cancelled && (w.reader c).isNone then
      some { s with left := Function.update s.left c true }
    else none

def machine (w : Wiring T C M S E) (init : Mailbox T C M S → Prop) :
    Machine (Closing T C M S) (Label T C M E) where
  init s := ∃ g, init g ∧ s = running g
  step := step w

/-! ## Moves -/

inductive Move (w : Wiring T C M S E) (s : Closing T C M S) :
    Label T C M E → Closing T C M S → Prop where
  | go {i : Transfer T C M E} {g : Mailbox T C M S} (hs : s.mailbox.step w i = some g)
      (htake : ∀ c e, i = .take c e → s.closed w c = false)
      (hput : ∀ t c, i = .put t → s.mailbox.next t = some c → s.closed w c = false) :
      Move w s (.go i) { s with mailbox := g }
  | drop {t : T} {c : C} {m : M c} {rest : List ((c : C) × M c)}
      (hp : s.mailbox.pending t = ⟨c, m⟩ :: rest) (hc : s.closed w c = true) :
      Move w s (.go (.put t)) { s with mailbox := s.mailbox.setPending t rest }
  | cancel : Move w s .cancel { s with cancelled := true }
  | stop {t : T} (hc : s.cancelled = true) (ht : s.ended t = false)
      (hp : s.mailbox.pending t = []) :
      Move w s (.stop t) { s with ended := Function.update s.ended t true }
  | leave {c : C} (hc : s.cancelled = true) (hr : w.reader c = none) :
      Move w s (.leave c) { s with left := Function.update s.left c true }

variable {w : Wiring T C M S E} {s s' : Closing T C M S} {i : Label T C M E}

theorem move_of_step (h : s.step w i = some s') : Move w s i s' := by
  cases i with
  | go i =>
    simp only [step, Option.map_eq_some_iff] at h
    obtain ⟨g, hg, rfl⟩ := h
    cases i with
    | take c e =>
      simp only [go] at hg
      split at hg
      · cases hg
      · rename_i hopen
        refine .go hg (fun c' e' heq => ?_) (by rintro _ _ ⟨⟩)
        cases heq
        exact Bool.eq_false_iff.mpr hopen
    | put t =>
      simp only [go] at hg
      split at hg
      · cases hg
      · rename_i c m rest hp
        split at hg
        · rename_i hclosed
          exact Option.some.inj hg ▸ .drop hp hclosed
        · rename_i hopen
          refine .go hg (by rintro _ _ ⟨⟩) (fun t' c' heq hnext => ?_)
          cases heq
          simp only [Mailbox.next, hp, List.head?_cons, Option.map_some, Option.some.injEq] at hnext
          exact hnext ▸ Bool.eq_false_iff.mpr hopen
    | feed c m =>
      simp only [go] at hg
      split at hg
      · cases hg
      · exact .go hg (by rintro _ _ ⟨⟩) (by rintro _ _ ⟨⟩)
    | drain c =>
      simp only [go] at hg
      split at hg
      · cases hg
      · exact .go hg (by rintro _ _ ⟨⟩) (by rintro _ _ ⟨⟩)
  | cancel => exact Option.some.inj h ▸ .cancel
  | stop t =>
    simp only [step, Option.ite_none_right_eq_some, Bool.and_eq_true, Bool.not_eq_true',
      List.isEmpty_iff, Option.some.injEq] at h
    obtain ⟨⟨⟨hc, ht⟩, hp⟩, rfl⟩ := h
    exact .stop hc ht hp
  | leave c =>
    simp only [step, Option.ite_none_right_eq_some, Bool.and_eq_true, Option.isNone_iff_eq_none,
      Option.some.injEq] at h
    obtain ⟨⟨hc, hr⟩, rfl⟩ := h
    exact .leave hc hr

/-! ## Tasks that have ended -/

/-- A task that has ended has nothing left to send. -/
def Idle (s : Closing T C M S) : Prop := ∀ t, s.ended t = true → s.mailbox.pending t = []

theorem idle_step (h : s.Idle) (hs : s.step w i = some s') : s'.Idle := by
  intro t ht
  cases move_of_step hs with
  | @go i g hg htake hput =>
    have hidle := h t ht
    cases Mailbox.move_of_step hg with
    | @take c t₀ m rest e hr hq hp =>
      have hne : t ≠ t₀ := by
        rintro rfl
        have hopen := htake c e rfl
        unfold closed at hopen
        rw [hr] at hopen
        exact absurd ht (Bool.eq_false_iff.mp hopen)
      exact (Mailbox.pending_setPending_ne _ hne _).trans hidle
    | @put t₀ c m rest hp hroom =>
      have hne : t ≠ t₀ := by
        rintro rfl
        rw [hidle] at hp
        cases hp
      exact (Mailbox.pending_setPending_ne _ hne _).trans hidle
    | feed m hf hroom => exact hidle
    | drain hr hq => exact hidle
  | @drop t₀ c m rest hp hc =>
    have hidle := h t ht
    have hne : t ≠ t₀ := by
      rintro rfl
      rw [hidle] at hp
      cases hp
    exact (Mailbox.pending_setPending_ne _ hne _).trans hidle
  | cancel => exact h t ht
  | @stop t₀ hc ht₀ hp =>
    by_cases hne : t = t₀
    · exact hne ▸ hp
    · exact h t ((Function.update_of_ne hne _ _).symm.trans ht)
  | leave hc hr => exact h t ht

theorem sends_step {writes : T → C → Bool} (hw : ∀ e s c m t, w.reader c = some t →
      ∀ p ∈ (w.handle e s c m).2, writes t p.1 = true)
    (h : s.mailbox.Sends writes) (hs : s.step w i = some s') : s'.mailbox.Sends writes := by
  cases move_of_step hs with
  | go hg htake hput => exact Mailbox.sends_step hw h hg
  | @drop t₀ c m rest hp hc =>
    intro t p hmem
    by_cases hne : t = t₀
    · subst hne
      rw [Mailbox.pending_setPending_self] at hmem
      exact h t p (by simp [hp, hmem])
    · rw [Mailbox.pending_setPending_ne _ hne] at hmem
      exact h t p hmem
  | cancel => exact h
  | stop hc ht hp => exact h
  | leave hc hr => exact h

/-! ## Knots -/

/-- The task has not ended and waits for room in a channel that somebody reads. -/
def Waits (w : Wiring T C M S E) (s : Closing T C M S) (t : T) (c : C) : Prop :=
  s.ended t = false ∧ s.closed w c = false ∧ s.mailbox.Suspended w t c

instance (w : Wiring T C M S E) (s : Closing T C M S) (t : T) (c : C) : Decidable (s.Waits w t c) :=
  inferInstanceAs (Decidable (_ ∧ _ ∧ _))

/-- Each of the tasks is suspended in a send to another of them. -/
def Tied (w : Wiring T C M S E) (tasks : T → Prop) (g : Mailbox T C M S) : Prop :=
  ∀ t, tasks t → ∃ c t', g.Suspended w t c ∧ w.reader c = some t' ∧ tasks t'

/-- None of the tasks has ended, and each waits for another of them. -/
def Knot (w : Wiring T C M S E) (s : Closing T C M S) (tasks : T → Prop) : Prop :=
  ∀ t, tasks t → ∃ c t', s.Waits w t c ∧ w.reader c = some t' ∧ tasks t'

omit [DecidableEq T] [DecidableEq C] in
theorem pending_of_waits {t : T} {c : C} (h : s.Waits w t c) : s.mailbox.pending t ≠ [] := by
  intro hnil
  have hnext := h.2.2.1
  rw [Mailbox.next, hnil] at hnext
  cases hnext

/-- A knot is not undone, whatever is asked for. -/
theorem knot_step {tasks : T → Prop} (h : s.Knot w tasks) (hs : s.step w i = some s') :
    s'.Knot w tasks := by
  intro t ht
  obtain ⟨c, t', hwaits, hr, ht'⟩ := h t ht
  obtain ⟨c', -, hwaits', -, -⟩ := h t' ht'
  have hbusy := pending_of_waits hwaits
  have hbusy' := pending_of_waits hwaits'
  obtain ⟨hended, hopen, hsuspended⟩ := hwaits
  refine ⟨c, t', ?_, hr, ht'⟩
  cases move_of_step hs with
  | go hg htake hput =>
    exact ⟨hended, hopen, Mailbox.suspended_step hr hbusy' hsuspended hg⟩
  | @drop t₀ c₀ m rest hp hc =>
    have hne : t ≠ t₀ := by
      rintro rfl
      have hnext := hsuspended.1
      rw [Mailbox.next, hp] at hnext
      have heq : c₀ = c := Option.some.inj hnext
      rw [heq, hopen] at hc
      cases hc
    exact ⟨hended, hopen, (Mailbox.next_setPending_ne _ hne _).trans hsuspended.1, hsuspended.2⟩
  | cancel => exact ⟨hended, hopen, hsuspended⟩
  | @stop t₀ hc ht₀ hp =>
    have hne : t ≠ t₀ := fun heq => hbusy (heq ▸ hp)
    have hne' : t' ≠ t₀ := fun heq => hbusy' (heq ▸ hp)
    refine ⟨?_, ?_, hsuspended⟩
    · exact (Function.update_of_ne hne _ _).trans hended
    · unfold closed at hopen ⊢
      rw [hr] at hopen ⊢
      exact (Function.update_of_ne hne' _ _).trans hopen
  | leave hc hr₀ =>
    refine ⟨hended, ?_, hsuspended⟩
    unfold closed at hopen ⊢
    rw [hr] at hopen ⊢
    exact hopen

omit [DecidableEq T] [DecidableEq C] in
/-- A knot of tasks that are suspended is one, as tasks that have ended have nothing to send. -/
theorem knot_of_tied {tasks : T → Prop} (h : s.Idle) (htied : Tied w tasks s.mailbox) :
    s.Knot w tasks := by
  have hrunning : ∀ t, tasks t → s.ended t = false := by
    intro t ht
    obtain ⟨c, t', hsuspended, -, -⟩ := htied t ht
    by_contra hended
    have hnext := hsuspended.1
    rw [Mailbox.next, h t (Bool.not_eq_false _ ▸ hended)] at hnext
    cases hnext
  intro t ht
  obtain ⟨c, t', hsuspended, hr, ht'⟩ := htied t ht
  refine ⟨c, t', ⟨hrunning t ht, ?_, hsuspended⟩, hr, ht'⟩
  unfold closed
  rw [hr]
  exact hrunning t' ht'

theorem run_knot {init : Mailbox T C M S → Prop} {tasks : T → Prop}
    {l : List (Closing T C M S × Label T C M E)} (run : (machine w init).Run l s) :
    ∀ x ∈ Machine.visited l s, Tied w tasks x.mailbox → s.Knot w tasks := by
  have hidle := run.invariant_visited Idle (fun _ _ => True)
    (by
      rintro s ⟨g, -, rfl⟩ t ht
      cases ht)
    (fun s i s' h _ hs => idle_step h hs) (fun _ _ => trivial)
  induction run with
  | start h =>
    intro x hx htied
    simp only [Machine.visited, List.map_nil, List.nil_append, List.mem_singleton] at hx
    subst hx
    exact knot_of_tied (hidle x (Machine.last_mem_visited _ _)) htied
  | @move l s s' i r hs ih =>
    intro x hx htied
    rw [Machine.visited_snoc] at hx hidle
    rcases List.mem_append.mp hx with hx | hx
    · exact knot_step (ih (fun y hy => hidle y (List.mem_append_left _ hy)) x hx htied) hs
    · rw [List.mem_singleton] at hx
      subst hx
      exact knot_of_tied (hidle x (List.mem_append_right _ (List.mem_singleton_self x))) htied

/-! ## Standing still -/

/-- The tasks do work, or one of them ends. -/
def works : Label T C M E → Bool
  | .go i => Mailbox.works i
  | .stop _ => true
  | _ => false

def feeds : Label T C M E → Bool
  | .go i => Mailbox.feeds i
  | _ => false

/-- No task can go on, and none can end. -/
def Still (w : Wiring T C M S E) (s : Closing T C M S) : Prop :=
  ∀ i : Label T C M E, works i = true → s.step w i = none

/-- Once all are asked to end, a task that has not ended waits for room. -/
theorem waits_of_still (h : s.Still w) (hc : s.cancelled = true) {t : T} (ht : s.ended t = false) :
    ∃ p ∈ s.mailbox.pending t, s.Waits w t p.1 := by
  rcases hp : s.mailbox.pending t with _ | ⟨⟨c, m⟩, rest⟩
  · have hnone := h (.stop t) rfl
    simp [step, hc, ht, hp] at hnone
  · have hnone := h (.go (.put t)) rfl
    simp only [step, go, hp, Option.map_eq_none_iff] at hnone
    split at hnone
    · cases hnone
    · rename_i hopen
      refine ⟨⟨c, m⟩, List.mem_cons_self, ht, Bool.eq_false_iff.mpr hopen, ?_, ?_⟩
      · rw [Mailbox.next, hp]
        rfl
      · by_contra hroom
        simp [Mailbox.put, hp, hroom] at hnone

/-- So does the reader of the channel that it waits for, where that is a task. -/
theorem reader_waits (h : s.Still w) (hc : s.cancelled = true) {t t' : T} {c : C}
    (hw : s.Waits w t c) (hr : w.reader c = some t') :
    ∃ p ∈ s.mailbox.pending t', s.Waits w t' p.1 := by
  apply waits_of_still h hc
  have hopen := hw.2.1
  unfold closed at hopen
  rw [hr] at hopen
  exact hopen

/-- That no task can go on or end is seen from what waits. -/
def stands (w : Wiring T C M S E) (cs : List C) (ts : List T) (s : Closing T C M S) : Bool :=
  cs.all (fun c => s.closed w c ||
    match w.reader c with
    | some t => (s.mailbox.queue c).isEmpty || !(s.mailbox.pending t).isEmpty
    | none => true) &&
  ts.all (fun t =>
    match s.mailbox.next t with
    | some c => !s.closed w c && decide (s.mailbox.Full w c)
    | none => s.ended t)

theorem still_of_stands {cs : List C} {ts : List T} (hall : ∀ c, c ∈ cs) (hevery : ∀ t, t ∈ ts)
    (h : s.stands w cs ts = true) : s.Still w := by
  simp only [stands, Bool.and_eq_true, List.all_eq_true] at h
  obtain ⟨htakes, hputs⟩ := h
  intro i hi
  by_contra hs
  obtain ⟨s', hs⟩ := Option.ne_none_iff_exists'.mp hs
  cases move_of_step hs with
  | go hg hopen hroom =>
    cases Mailbox.move_of_step hg with
    | @take c t m rest e hr hq hp =>
      have htake := htakes c (hall c)
      simp [hopen c e rfl, hr, hq, hp] at htake
    | @put t c m rest hp hfree =>
      have hput := hputs t (hevery t)
      simp [Mailbox.next, hp, hfree] at hput
    | feed m hf hfree => cases hi
    | drain hr hq => cases hi
  | @drop t c m rest hp hc =>
    have hput := hputs t (hevery t)
    simp [Mailbox.next, hp, hc] at hput
  | cancel => cases hi
  | @stop t hc ht hp =>
    have hput := hputs t (hevery t)
    simp [Mailbox.next, hp, ht] at hput
  | leave hc hr => cases hi

/-! ## The work of a shutdown -/

variable {weight : (c : C) → M c → Nat} {cs : List C} {ts : List T}

/-- What the tasks have still to do, and one for each that has not ended. -/
def load (weight : (c : C) → M c → Nat) (cs : List C) (ts : List T) (s : Closing T C M S) : Nat :=
  s.mailbox.load weight cs ts + weigh (fun t => if s.ended t then 0 else 1) ts

theorem load_step (hcs : cs.Nodup) (hall : ∀ c, c ∈ cs) (hts : ts.Nodup) (hevery : ∀ t, t ∈ ts)
    (h : Mailbox.Pays weight w) {bound : Nat} (hfed : ∀ c m, w.fed c = true → weight c m ≤ bound)
    (hs : s.step w i = some s') :
    load weight cs ts s' + (if works i then 1 else 0) ≤
      load weight cs ts s + (if feeds i then bound else 0) := by
  cases move_of_step hs with
  | @go i g hg htake hput =>
    have hstep : g.load weight cs ts + (if works (Label.go i) then 1 else 0) ≤
        s.mailbox.load weight cs ts + (if feeds (Label.go i) then bound else 0) :=
      Mailbox.load_step hcs hall hts hevery h hfed hg
    unfold load
    dsimp only
    omega
  | @drop t c m rest hp hc =>
    have hpending := Mailbox.load_setPending weight cs s.mailbox hts (hevery t) rest
    rw [hp, weigh_cons] at hpending
    unfold load
    simp only [works, feeds, Mailbox.works, Mailbox.feeds, Mailbox.sending, if_true,
      Bool.false_eq_true, if_false] at hpending ⊢
    omega
  | cancel => exact Nat.le_refl _
  | @stop t hc ht hp =>
    have hchange := weigh_change (fun t => if s.ended t then 0 else 1)
      (fun t' => if Function.update s.ended t true t' then 0 else 1) hts (hevery t)
      (fun t' hne => by rw [Function.update_of_ne hne])
    rw [Function.update_self, ht] at hchange
    unfold load
    simp only [works, feeds, if_true, Bool.false_eq_true, if_false] at hchange ⊢
    omega
  | leave hc hr => exact Nat.le_refl _

/-- In any run the steps of the tasks and their ends are paid for by the load at the start, by
what is fed and by the tasks themselves. -/
theorem run_work (hcs : cs.Nodup) (hall : ∀ c, c ∈ cs) (hts : ts.Nodup) (hevery : ∀ t, t ∈ ts)
    (h : Mailbox.Pays weight w) {bound : Nat} (hfed : ∀ c m, w.fed c = true → weight c m ≤ bound)
    {g₀ : Mailbox T C M S} {l : List (Closing T C M S × Label T C M E)}
    (run : (machine w (fun g => g = g₀)).Run l s) :
    l.countP (fun p => works p.2) + load weight cs ts s ≤
      g₀.load weight cs ts + ts.length + bound * l.countP (fun p => feeds p.2) := by
  apply run.paid (fun _ => True) (load weight cs ts) (fun _ => 0)
  · rintro s ⟨g, rfl, rfl⟩
    have hones : ∀ ts : List T, weigh (fun t => if (running g).ended t then 0 else 1) ts =
        ts.length := by
      intro ts
      induction ts with
      | nil => rfl
      | cons t ts ih =>
        rw [weigh_cons, ih, List.length_cons]
        exact Nat.add_comm _ _
    refine ⟨trivial, ?_⟩
    unfold load
    rw [hones]
    exact Nat.le_refl _
  · intro s i s' _ hs
    exact ⟨trivial, load_step hcs hall hts hevery h hfed hs⟩

end Steps

end Closing

end EdgeGateway.Lib
