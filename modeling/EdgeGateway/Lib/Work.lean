-- How much work messages make. Each message has a weight that pays for its handling
-- and for all that its handling sends; then tasks that are fed a few messages take a
-- few steps, in any order, and come to rest.
import EdgeGateway.Lib.Actors
import EdgeGateway.Lib.Machine
import EdgeGateway.Lib.Mailbox

namespace EdgeGateway.Lib

/-! ## Weights -/

/-- What a list weighs. -/
def weigh {α : Type} (weight : α → Nat) : List α → Nat
  | [] => 0
  | a :: l => weight a + weigh weight l

section Weigh

variable {α : Type} {weight weight' : α → Nat}

@[simp] theorem weigh_nil : weigh weight [] = 0 := rfl

@[simp] theorem weigh_cons (a : α) (l : List α) :
    weigh weight (a :: l) = weight a + weigh weight l := rfl

@[simp] theorem weigh_append (l l' : List α) :
    weigh weight (l ++ l') = weigh weight l + weigh weight l' := by
  induction l with
  | nil => simp
  | cons a l ih =>
    rw [List.cons_append, weigh_cons, weigh_cons, ih]
    omega

theorem weigh_congr {l : List α} (h : ∀ a ∈ l, weight' a = weight a) :
    weigh weight' l = weigh weight l := by
  induction l with
  | nil => rfl
  | cons a l ih =>
    rw [weigh_cons, weigh_cons, h a (by simp), ih fun b hb => h b (by simp [hb])]

variable (weight weight') in
/-- Where one element changes, its weight does. -/
theorem weigh_change {l : List α} (hl : l.Nodup) {a : α} (ha : a ∈ l)
    (h : ∀ b, b ≠ a → weight' b = weight b) :
    weigh weight' l + weight a = weigh weight l + weight' a := by
  induction l with
  | nil => cases ha
  | cons b l ih =>
    obtain ⟨hb, hl⟩ := List.nodup_cons.mp hl
    rw [weigh_cons, weigh_cons]
    rcases List.mem_cons.mp ha with rfl | ha
    · have hrest : weigh weight' l = weigh weight l :=
        weigh_congr fun c hc => h c (fun heq => hb (heq ▸ hc))
      omega
    · have hne : b ≠ a := fun heq => hb (heq ▸ ha)
      have hrest := ih hl ha
      have hsame := h b hne
      omega

theorem weigh_pos {l : List α} {a : α} (ha : a ∈ l) (h : 0 < weight a) : 0 < weigh weight l := by
  induction l with
  | nil => cases ha
  | cons b l ih =>
    rw [weigh_cons]
    rcases List.mem_cons.mp ha with rfl | ha
    · omega
    · have := ih ha
      omega

end Weigh

/-! ## A run that is paid for -/

/-- Where each step of work lightens the load, and only what a step brings and credit add to it,
the work of a run is paid for by the load at the start, by what was brought and by the credit at
the end. -/
theorem Machine.Run.paid_by {σ ι : Type} {m : Machine σ ι} {works : ι → Bool} {start : Nat}
    (Inv : σ → Prop) (load credit : σ → Nat) (brings : ι → Nat)
    (h0 : ∀ s, m.init s → Inv s ∧ load s ≤ start + credit s)
    (hs : ∀ s i s', Inv s → m.step s i = some s' → Inv s' ∧
      load s' + (if works i then 1 else 0) + credit s ≤ load s + brings i + credit s')
    {t : List (σ × ι)} {s : σ} (run : m.Run t s) :
    t.countP (fun p => works p.2) + load s ≤
      start + weigh (fun p => brings p.2) t + credit s := by
  refine (run.history (fun t s => Inv s ∧ t.countP (fun p => works p.2) + load s ≤
    start + weigh (fun p => brings p.2) t + credit s) ?_ ?_).2
  · intro s hinit
    refine ⟨(h0 s hinit).1, ?_⟩
    rw [List.countP_nil, weigh_nil, Nat.zero_add]
    exact (h0 s hinit).2
  · rintro t s i s' ⟨hinv, ih⟩ hstep
    obtain ⟨hinv', hpaid⟩ := hs s i s' hinv hstep
    refine ⟨hinv', ?_⟩
    rw [List.countP_append, List.countP_singleton, weigh_append, weigh_cons, weigh_nil]
    by_cases hw : works i = true <;>
      simp only [hw, if_true, Bool.false_eq_true, if_false] at hpaid ⊢ <;> omega

theorem weigh_ite {α : Type} (p : α → Bool) (bound : Nat) (l : List α) :
    weigh (fun a => if p a then bound else 0) l = bound * l.countP p := by
  induction l with
  | nil => rfl
  | cons a l ih =>
    rw [weigh_cons, ih, List.countP_cons, Nat.mul_add]
    by_cases hp : p a = true <;> simp only [hp, if_true, Bool.false_eq_true, if_false] <;> omega

/-- The same where what is fed brings at most `bound`. -/
theorem Machine.Run.paid {σ ι : Type} {m : Machine σ ι} {works feeds : ι → Bool}
    {bound start : Nat} (Inv : σ → Prop) (load credit : σ → Nat)
    (h0 : ∀ s, m.init s → Inv s ∧ load s ≤ start + credit s)
    (hs : ∀ s i s', Inv s → m.step s i = some s' → Inv s' ∧
      load s' + (if works i then 1 else 0) + credit s ≤
        load s + (if feeds i then bound else 0) + credit s')
    {t : List (σ × ι)} {s : σ} (run : m.Run t s) :
    t.countP (fun p => works p.2) + load s ≤
      start + bound * t.countP (fun p => feeds p.2) + credit s := by
  rw [← weigh_ite]
  exact run.paid_by Inv load credit (fun i => if feeds i then bound else 0) h0 hs

/-! ## Channels that rest -/

section Room

variable {α : Type} {cap : Option Nat}

theorem room_nil (hcap : cap ≠ some 0) : room cap ([] : List α) = true := by
  cases cap with
  | none => rfl
  | some n =>
    rw [room_some, decide_eq_true_eq]
    exact Nat.pos_of_ne_zero (fun hn => hcap (by rw [hn]))

theorem ne_nil_of_room (hcap : cap ≠ some 0) {q : List α} (h : room cap q = false) : q ≠ [] := by
  rintro rfl
  rw [room_nil hcap] at h
  cases h

end Room

/-! ## Countdowns -/

/-- The steps that a command takes, those of its countdown included, where an expiry costs
`k`. -/
def Cmd.effort (k : Nat) : Cmd Unit → Nat
  | .start _ => k + 3
  | _ => 1

namespace Countdown

variable {α : Type} {c c' : Countdown α}

/-- The steps that are left of a countdown. -/
def effort (k : Nat) : Countdown α → Nat
  | .idle => 0
  | .firing _ => k + 1
  | _ => k + 2

theorem effort_receive {x : Cmd α} (k : Nat) (h : c.receive x = some c') :
    c'.effort k + 1 ≤ c.effort k + x.kind.effort k := by
  cases c <;> cases x <;> cases h <;> simp [effort, Cmd.effort, Cmd.kind]

theorem effort_expire {b : Bool} {out : Option α} (k : Nat) (h : c.expire b = some (c', out)) :
    c'.effort k + 1 + k * out.toList.length ≤ c.effort k := by
  cases c <;> cases b <;> cases h <;> simp [effort]
  all_goals omega

/-- A countdown whose sleep cannot end was not started, or waits for room. -/
theorem expire_eq_none {b : Bool} :
    c.expire b = none ↔ c = .idle ∨ b = false ∧ ∃ a, c = .firing a := by
  cases c <;> cases b <;> simp [expire]

theorem receive_idle (x : Cmd α) : (idle : Countdown α).receive x ≠ none := by
  cases x <;> simp [receive]

end Countdown

namespace Mailbox

variable {T C : Type} {M : C → Type} {S E : Type}

/-! ## The load of a state -/

/-- A message that is still to be sent weighs one more, for the send. -/
def sending (weight : (c : C) → M c → Nat) (p : (c : C) × M c) : Nat := weight p.1 p.2 + 1

/-- What waits in the channels `cs`, and what the tasks `ts` have still to send. -/
def load (weight : (c : C) → M c → Nat) (cs : List C) (ts : List T) (g : Mailbox T C M S) : Nat :=
  weigh (fun c => weigh (weight c) (g.queue c)) cs +
    weigh (fun t => weigh (sending weight) (g.pending t)) ts

/-- The tasks do work. -/
def works : Transfer T C M E → Bool
  | .take _ _ => true
  | .put _ => true
  | _ => false

def feeds : Transfer T C M E → Bool
  | .feed _ _ => true
  | _ => false

/-- A message pays for its handling and for what its handling sends. -/
structure Pays (weight : (c : C) → M c → Nat) (w : Wiring T C M S E) : Prop where
  handle : ∀ e s c m t, w.reader c = some t →
    weigh (sending weight) (w.handle e s c m).2 + 1 ≤ weight c m

section Load

variable {weight : (c : C) → M c → Nat} {cs : List C} {ts : List T} {w : Wiring T C M S E}
  {g g' : Mailbox T C M S} {i : Transfer T C M E}

theorem load_setQueue [DecidableEq C] (weight : (c : C) → M c → Nat) (ts : List T)
    (g : Mailbox T C M S) (hcs : cs.Nodup) {c : C} (hc : c ∈ cs) (q : List (M c)) :
    load weight cs ts (g.setQueue c q) + weigh (weight c) (g.queue c) =
      load weight cs ts g + weigh (weight c) q := by
  have hchange := weigh_change (fun c => weigh (weight c) (g.queue c))
    (fun c' => weigh (weight c') ((g.setQueue c q).queue c')) hcs hc
    (fun c' hne => by rw [queue_setQueue_ne g hne])
  rw [queue_setQueue_self] at hchange
  unfold load
  rw [pending_setQueue]
  omega

theorem load_setPending [DecidableEq T] (weight : (c : C) → M c → Nat) (cs : List C)
    (g : Mailbox T C M S) (hts : ts.Nodup) {t : T} (ht : t ∈ ts) (sends : List ((c : C) × M c)) :
    load weight cs ts (g.setPending t sends) + weigh (sending weight) (g.pending t) =
      load weight cs ts g + weigh (sending weight) sends := by
  have hchange := weigh_change (fun t => weigh (sending weight) (g.pending t))
    (fun t' => weigh (sending weight) ((g.setPending t sends).pending t')) hts ht
    (fun t' hne => by rw [pending_setPending_ne g hne])
  rw [pending_setPending_self] at hchange
  unfold load
  rw [queue_setPending]
  omega

variable [DecidableEq T] [DecidableEq C]

/-- Each step of a task lightens the load, and nothing but feeding adds to it. -/
theorem load_step (hcs : cs.Nodup) (hall : ∀ c, c ∈ cs) (hts : ts.Nodup) (hevery : ∀ t, t ∈ ts)
    (h : Pays weight w) {bound : Nat} (hfed : ∀ c m, w.fed c = true → weight c m ≤ bound)
    (hs : g.step w i = some g') :
    load weight cs ts g' + (if works i then 1 else 0) ≤
      load weight cs ts g + (if feeds i then bound else 0) := by
  cases move_of_step hs with
  | @take c t m rest e hr hq hp =>
    have hqueue := load_setQueue weight ts
      { g with memory := (w.handle e g.memory c m).1 } hcs (hall c) rest
    have hpending := load_setPending weight cs
      ({ g with memory := (w.handle e g.memory c m).1 }.setQueue c rest) hts (hevery t)
      (w.handle e g.memory c m).2
    have hpays := h.handle e g.memory c m t hr
    have hsame : load weight cs ts { g with memory := (w.handle e g.memory c m).1 } =
        load weight cs ts g := rfl
    simp only [pending_setQueue, hp, hq, weigh_nil, weigh_cons, hsame] at hqueue hpending
    simp only [works, feeds, if_true, Bool.false_eq_true, if_false]
    omega
  | @put t c m rest hp hroom =>
    have hqueue := load_setQueue weight ts g hcs (hall c)
      (g.queue c ++ [m])
    have hpending := load_setPending weight cs (g.setQueue c (g.queue c ++ [m])) hts (hevery t) rest
    simp only [pending_setQueue, hp, weigh_append, weigh_nil, weigh_cons, sending] at hqueue hpending
    simp only [works, feeds, if_true, Bool.false_eq_true, if_false]
    omega
  | @feed c m hf hroom =>
    have hqueue := load_setQueue weight ts g hcs (hall c)
      (g.queue c ++ [m])
    have hbound := hfed c m hf
    simp only [weigh_append, weigh_nil, weigh_cons] at hqueue
    simp only [works, feeds, if_true, Bool.false_eq_true, if_false]
    omega
  | @drain c m rest hr hq =>
    have hqueue := load_setQueue weight ts g hcs (hall c) rest
    simp only [hq, weigh_cons] at hqueue
    simp only [works, feeds, Bool.false_eq_true, if_false]
    omega

/-- In any run the steps of the tasks are paid for by the load at the start and by what is
fed. -/
theorem run_work (hcs : cs.Nodup) (hall : ∀ c, c ∈ cs) (hts : ts.Nodup) (hevery : ∀ t, t ∈ ts)
    (h : Pays weight w) {bound : Nat} (hfed : ∀ c m, w.fed c = true → weight c m ≤ bound)
    {g₀ : Mailbox T C M S} {l : List (Mailbox T C M S × Transfer T C M E)}
    (run : (machine w (fun g => g = g₀)).Run l g) :
    l.countP (fun p => works p.2) + load weight cs ts g ≤
      load weight cs ts g₀ + bound * l.countP (fun p => feeds p.2) := by
  apply run.paid (fun _ => True) (load weight cs ts) (fun _ => 0)
  · rintro g rfl
    exact ⟨trivial, Nat.le_refl _⟩
  · intro g i g' _ hs
    exact ⟨trivial, load_step hcs hall hts hevery h hfed hs⟩

end Load

/-! ## Standing still -/

/-- No task can go on. -/
def Still [DecidableEq T] [DecidableEq C] (w : Wiring T C M S E) (g : Mailbox T C M S) : Prop :=
  ∀ i : Transfer T C M E, works i = true → g.step w i = none

/-- Each task sends into its own channels. -/
def Sends (writes : T → C → Bool) (g : Mailbox T C M S) : Prop :=
  ∀ t, ∀ p ∈ g.pending t, writes t p.1 = true

section Still

variable [DecidableEq T] [DecidableEq C] {w : Wiring T C M S E} {g g' : Mailbox T C M S} {t t' : T}
  {c : C} {i : Transfer T C M E} {writes : T → C → Bool}

/-- A task that has something to send waits for room. -/
theorem suspended_of_pending (h : g.Still w) {p : (c : C) × M c} {rest : List ((c : C) × M c)}
    (hp : g.pending t = p :: rest) : g.Suspended w t p.1 := by
  refine ⟨by simp [next, hp], ?_⟩
  by_contra hroom
  have hnone := h (.put t) rfl
  obtain ⟨c, m⟩ := p
  simp [step, put, hp, hroom] at hnone

/-- A task that has something to take waits for room elsewhere. -/
theorem suspended_of_queue (h : g.Still w) (e : E) (hr : w.reader c = some t)
    (hq : g.queue c ≠ []) : ∃ p ∈ g.pending t, g.Suspended w t p.1 := by
  rcases hp : g.pending t with _ | ⟨p, rest⟩
  · obtain ⟨m, rest, hq⟩ := List.exists_cons_of_ne_nil hq
    have hnone := h (.take c e) rfl
    simp [step, take, hr, hq, hp] at hnone
  · exact ⟨p, by simp, suspended_of_pending h hp⟩

/-- So the reader of the channel that a task waits for waits itself. -/
theorem suspended_reader (h : g.Still w) (e : E) (hs : g.Suspended w t c) (hcap : 0 < w.cap c)
    (hr : w.reader c = some t') : ∃ p ∈ g.pending t', g.Suspended w t' p.1 := by
  apply suspended_of_queue h e hr
  intro hnil
  have hfull := hs.2
  unfold Full at hfull
  rw [hnil, List.length_nil] at hfull
  omega

/-- Where no task can go on, nothing is left to send and nothing that a task reads waits, or some
task waits for room. -/
theorem done_or_suspended (h : g.Still w) (e : E) :
    ((∀ t, g.pending t = []) ∧ ∀ c, w.reader c ≠ none → g.queue c = []) ∨
      ∃ t c, g.Suspended w t c := by
  by_cases hall : ∀ t, g.pending t = []
  · refine .inl ⟨hall, fun c hr => ?_⟩
    by_contra hq
    obtain ⟨t, ht⟩ := Option.ne_none_iff_exists'.mp hr
    obtain ⟨p, hp, -⟩ := suspended_of_queue h e ht hq
    rw [hall t] at hp
    cases hp
  · right
    rw [not_forall] at hall
    obtain ⟨t, ht⟩ := hall
    obtain ⟨p, rest, hp⟩ := List.exists_cons_of_ne_nil ht
    exact ⟨t, p.1, suspended_of_pending h hp⟩

/-- Tasks that each wait for room, or have nothing to send and nothing to take, stand still. -/
theorem still_of_each (h : ∀ t, (∃ c, g.Suspended w t c) ∨
      g.pending t = [] ∧ ∀ c, w.reader c = some t → g.queue c = []) : g.Still w := by
  intro i hi
  by_contra hs
  obtain ⟨g', hs⟩ := Option.ne_none_iff_exists'.mp hs
  cases move_of_step hs with
  | @take c t m rest e hr hq hp =>
    rcases h t with ⟨c', hnext, -⟩ | ⟨-, hnothing⟩
    · simp [next, hp] at hnext
    · rw [hnothing c hr] at hq
      cases hq
  | @put t c m rest hp hroom =>
    rcases h t with ⟨c', hnext, hfull⟩ | ⟨hnil, -⟩
    · simp only [next, hp, List.head?_cons, Option.map_some, Option.some.injEq] at hnext
      exact hroom (hnext ▸ hfull)
    · rw [hnil] at hp
      cases hp
  | feed m hf hroom => cases hi
  | drain hr hq => cases hi

/-- That no task can go on is seen from what waits. -/
def stands (w : Wiring T C M S E) (cs : List C) (ts : List T) (g : Mailbox T C M S) : Bool :=
  cs.all (fun c =>
    match w.reader c with
    | some t => (g.queue c).isEmpty || !(g.pending t).isEmpty
    | none => true) &&
  ts.all (fun t =>
    match g.next t with
    | some c => decide (g.Full w c)
    | none => true)

theorem still_of_stands {cs : List C} {ts : List T} (hall : ∀ c, c ∈ cs) (hevery : ∀ t, t ∈ ts)
    (h : g.stands w cs ts = true) : g.Still w := by
  simp only [stands, Bool.and_eq_true, List.all_eq_true] at h
  obtain ⟨htakes, hputs⟩ := h
  intro i hi
  by_contra hs
  obtain ⟨g', hs⟩ := Option.ne_none_iff_exists'.mp hs
  cases move_of_step hs with
  | @take c t m rest e hr hq hp =>
    have htake := htakes c (hall c)
    simp [hr, hq, hp] at htake
  | @put t c m rest hp hroom =>
    have hput := hputs t (hevery t)
    simp [next, hp, hroom] at hput
  | feed m hf hroom => cases hi
  | drain hr hq => cases hi

theorem sends_step (hw : ∀ e s c m t, w.reader c = some t →
      ∀ p ∈ (w.handle e s c m).2, writes t p.1 = true)
    (hk : g.Sends writes) (hs : g.step w i = some g') : g'.Sends writes := by
  intro t p hp
  cases move_of_step hs with
  | @take c t₀ m rest e hr hq hp₀ =>
    by_cases ht : t = t₀
    · subst ht
      rw [pending_setPending_self] at hp
      exact hw e g.memory c m t hr p hp
    · rw [pending_setPending_ne _ ht] at hp
      exact hk t p hp
  | @put t₀ c m rest hp₀ hroom =>
    by_cases ht : t = t₀
    · subst ht
      rw [pending_setPending_self] at hp
      exact hk t p (by simp [hp₀, hp])
    · rw [pending_setPending_ne _ ht] at hp
      exact hk t p hp
  | _ => exact hk t p hp

omit [DecidableEq T] [DecidableEq C] in
theorem writes_of_next (hk : g.Sends writes) (h : g.next t = some c) : writes t c = true := by
  obtain ⟨p, hp, rfl⟩ := Option.map_eq_some_iff.mp h
  exact hk t p (List.mem_of_mem_head? hp)

end Still

end Mailbox

end EdgeGateway.Lib
