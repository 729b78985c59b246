-- Tasks that talk over bounded channels. A task takes a message when it has
-- nothing left to send, and sends what the message asks for one by one: without
-- room in the channel it stays suspended in its send. Two tasks that each send
-- into a full channel which only the other one reads wait for ever.
import EdgeGateway.Lib.Machine
import Mathlib.Logic.Function.Basic

namespace EdgeGateway.Lib

/-! ## Channels and tasks -/

/-- How the tasks are wired. A channel without a reader is read from outside,
and `fed` says which channels are written from outside. `handle` says what a
message makes its reader send; `E` is what the reader finds outside by then. -/
structure Wiring (T C : Type) (M : C → Type) (S E : Type) where
  cap : C → Nat
  reader : C → Option T
  fed : C → Bool
  handle : E → S → (c : C) → M c → S × List ((c : C) × M c)

/-- Only the task `t` writes the channel, once for each message at most. -/
structure Wiring.Sole {T C : Type} {M : C → Type} {S E : Type} [DecidableEq C]
    (w : Wiring T C M S E) (t : T) (c : C) : Prop where
  fed : w.fed c = false
  writer : ∀ e s c₀ m t₀, w.reader c₀ = some t₀ →
    (∃ p ∈ (w.handle e s c₀ m).2, p.1 = c) → t₀ = t
  once : ∀ e s c₀ m, (w.handle e s c₀ m).2.countP (fun p => p.1 = c) ≤ 1

/-- What waits in the channels, and what each task has still to send. -/
structure Mailbox (T C : Type) (M : C → Type) (S : Type) where
  queue : (c : C) → List (M c)
  pending : T → List ((c : C) × M c)
  memory : S

/-- A task takes a message or sends one, or the outside writes or reads. -/
inductive Transfer (T C : Type) (M : C → Type) (E : Type) where
  | take (c : C) (e : E)
  | put (t : T)
  | feed (c : C) (m : M c)
  | drain (c : C)

namespace Mailbox

variable {T C : Type} {M : C → Type} {S E : Type}

/-- The channel holds all it can. -/
def Full (w : Wiring T C M S E) (g : Mailbox T C M S) (c : C) : Prop :=
  w.cap c ≤ (g.queue c).length

instance (w : Wiring T C M S E) (g : Mailbox T C M S) (c : C) : Decidable (g.Full w c) :=
  inferInstanceAs (Decidable (w.cap c ≤ (g.queue c).length))

/-- No channel holds more than it can. -/
def Bounded (w : Wiring T C M S E) (g : Mailbox T C M S) : Prop :=
  ∀ c, (g.queue c).length ≤ w.cap c

/-- The channel of the next send of a task. -/
def next (g : Mailbox T C M S) (t : T) : Option C := (g.pending t).head?.map Sigma.fst

section Queues

variable [DecidableEq C] (g : Mailbox T C M S) {c c' : C}

def setQueue (g : Mailbox T C M S) (c : C) (q : List (M c)) : Mailbox T C M S :=
  { g with queue := Function.update g.queue c q }

@[simp] theorem pending_setQueue (q : List (M c)) : (g.setQueue c q).pending = g.pending := rfl

@[simp] theorem next_setQueue (t : T) (q : List (M c)) :
    (g.setQueue c q).next t = g.next t := rfl

@[simp] theorem queue_setQueue_self (q : List (M c)) : (g.setQueue c q).queue c = q := by
  simp [setQueue]

theorem queue_setQueue_ne (h : c' ≠ c) (q : List (M c)) :
    (g.setQueue c q).queue c' = g.queue c' := by
  simp [setQueue, h]

variable {g} {w : Wiring T C M S E}

theorem bounded_setQueue {q : List (M c)} (h : g.Bounded w) (hq : q.length ≤ w.cap c) :
    (g.setQueue c q).Bounded w := by
  intro c₀
  by_cases hc : c₀ = c
  · subst hc
    rw [queue_setQueue_self]
    exact hq
  · rw [queue_setQueue_ne g hc]
    exact h c₀

theorem full_setQueue_ne (h : c' ≠ c) (q : List (M c)) :
    (g.setQueue c q).Full w c' ↔ g.Full w c' := by
  unfold Full
  rw [queue_setQueue_ne g h]

theorem full_append (h : g.Full w c') (m : M c) :
    (g.setQueue c (g.queue c ++ [m])).Full w c' := by
  by_cases hc : c' = c
  · subst hc
    unfold Full at h ⊢
    rw [queue_setQueue_self, List.length_append]
    omega
  · exact (full_setQueue_ne hc _).mpr h

theorem full_of_tail {m : M c} {rest : List (M c)} (hq : g.queue c = m :: rest)
    (h : (g.setQueue c rest).Full w c') : g.Full w c' := by
  by_cases hc : c' = c
  · subst hc
    unfold Full at h ⊢
    rw [queue_setQueue_self] at h
    rw [hq, List.length_cons]
    omega
  · exact (full_setQueue_ne hc _).mp h

end Queues

section Sends

variable [DecidableEq T] (g : Mailbox T C M S) {t t' : T}

def setPending (g : Mailbox T C M S) (t : T) (sends : List ((c : C) × M c)) :
    Mailbox T C M S :=
  { g with pending := Function.update g.pending t sends }

@[simp] theorem queue_setPending (sends : List ((c : C) × M c)) :
    (g.setPending t sends).queue = g.queue := rfl

@[simp] theorem pending_setPending_self (sends : List ((c : C) × M c)) :
    (g.setPending t sends).pending t = sends := by
  simp [setPending]

theorem pending_setPending_ne (h : t' ≠ t) (sends : List ((c : C) × M c)) :
    (g.setPending t sends).pending t' = g.pending t' := by
  simp [setPending, h]

@[simp] theorem next_setPending_self (sends : List ((c : C) × M c)) :
    (g.setPending t sends).next t = sends.head?.map Sigma.fst := by
  simp [next]

theorem next_setPending_ne (h : t' ≠ t) (sends : List ((c : C) × M c)) :
    (g.setPending t sends).next t' = g.next t' := by
  simp [next, pending_setPending_ne g h]

end Sends

/-! ## Steps -/

variable [DecidableEq T] [DecidableEq C]

/-- The reader of a channel takes its first message, once it has sent all. -/
def take (w : Wiring T C M S E) (g : Mailbox T C M S) (c : C) (e : E) :
    Option (Mailbox T C M S) :=
  match w.reader c, g.queue c with
  | some t, m :: rest =>
    if (g.pending t).isEmpty then
      let (memory, sends) := w.handle e g.memory c m
      some (({ g with memory }.setQueue c rest).setPending t sends)
    else none
  | _, _ => none

/-- A task goes on with its next send. -/
def put (w : Wiring T C M S E) (g : Mailbox T C M S) (t : T) : Option (Mailbox T C M S) :=
  match g.pending t with
  | [] => none
  | ⟨c, m⟩ :: rest =>
    if g.Full w c then none
    else some ((g.setQueue c (g.queue c ++ [m])).setPending t rest)

def feed (w : Wiring T C M S E) (g : Mailbox T C M S) (c : C) (m : M c) :
    Option (Mailbox T C M S) :=
  if w.fed c = true ∧ ¬ g.Full w c then some (g.setQueue c (g.queue c ++ [m])) else none

def drain (w : Wiring T C M S E) (g : Mailbox T C M S) (c : C) : Option (Mailbox T C M S) :=
  match w.reader c, g.queue c with
  | none, _ :: rest => some (g.setQueue c rest)
  | _, _ => none

def step (w : Wiring T C M S E) (g : Mailbox T C M S) :
    Transfer T C M E → Option (Mailbox T C M S)
  | .take c e => g.take w c e
  | .put t => g.put w t
  | .feed c m => g.feed w c m
  | .drain c => g.drain w c

/-! ## Moves -/

/-- What a step takes and what it leaves. -/
inductive Move (w : Wiring T C M S E) (g : Mailbox T C M S) :
    Transfer T C M E → Mailbox T C M S → Prop where
  | take {c : C} {t : T} {m : M c} {rest : List (M c)} (e : E) (hr : w.reader c = some t)
    (hq : g.queue c = m :: rest) (hp : g.pending t = []) :
    Move w g (.take c e)
      (({ g with memory := (w.handle e g.memory c m).1 }.setQueue c rest).setPending t
        (w.handle e g.memory c m).2)
  | put {t : T} {c : C} {m : M c} {rest : List ((c : C) × M c)}
    (hp : g.pending t = ⟨c, m⟩ :: rest) (hroom : ¬ g.Full w c) :
    Move w g (.put t) ((g.setQueue c (g.queue c ++ [m])).setPending t rest)
  | feed {c : C} (m : M c) (hf : w.fed c = true) (hroom : ¬ g.Full w c) :
    Move w g (.feed c m) (g.setQueue c (g.queue c ++ [m]))
  | drain {c : C} {m : M c} {rest : List (M c)} (hr : w.reader c = none)
    (hq : g.queue c = m :: rest) : Move w g (.drain c) (g.setQueue c rest)

variable {w : Wiring T C M S E} {g g' : Mailbox T C M S} {i : Transfer T C M E}

/-- Every step is a move. -/
theorem move_of_step (h : g.step w i = some g') : Move w g i g' := by
  cases i with
  | take c e =>
    simp only [step, take] at h
    split at h
    · rename_i t m rest hr hq
      split at h
      · rename_i hp
        exact Option.some.inj h ▸ .take e hr hq (List.isEmpty_iff.mp hp)
      · cases h
    · cases h
  | put t =>
    simp only [step, put] at h
    split at h
    · cases h
    · rename_i c m rest hp
      split at h
      · cases h
      · rename_i hroom
        exact Option.some.inj h ▸ .put hp hroom
  | feed c m =>
    simp only [step, feed, Option.ite_none_right_eq_some, Option.some.injEq] at h
    obtain ⟨⟨hf, hroom⟩, rfl⟩ := h
    exact .feed m hf hroom
  | drain c =>
    simp only [step, drain] at h
    split at h
    · rename_i hr hq
      exact Option.some.inj h ▸ .drain hr hq
    · cases h

/-! ## Suspended sends -/

/-- The task waits for room in the channel. -/
def Suspended (w : Wiring T C M S E) (g : Mailbox T C M S) (t : T) (c : C) : Prop :=
  g.next t = some c ∧ g.Full w c

instance (w : Wiring T C M S E) (g : Mailbox T C M S) (t : T) (c : C) :
    Decidable (g.Suspended w t c) :=
  inferInstanceAs (Decidable (g.next t = some c ∧ g.Full w c))

/-- The step brings the task to a send into the channel. -/
def comesTo (w : Wiring T C M S E) (g : Mailbox T C M S) (t : T) (c : C) :
    Transfer T C M E → Bool
  | .take c₀ e =>
    match w.reader c₀, g.queue c₀ with
    | some t₀, m :: _ => t₀ = t ∧ (w.handle e g.memory c₀ m).2.head?.map Sigma.fst = some c
    | _, _ => false
  | .put t₀ => t₀ = t ∧ (g.pending t).tail.head?.map Sigma.fst = some c
  | .feed _ _ => false
  | .drain _ => false

/-- The step takes a message out of the channel. -/
def takesFrom (c : C) : Transfer T C M E → Bool
  | .take c₀ _ => c₀ = c
  | _ => false

/-- A step that closes the circle from the side of `t`: it comes to a send into
the full channel `c` while the other task is suspended in its own. -/
def joins (w : Wiring T C M S E) (g : Mailbox T C M S) (t t' : T) (c c' : C)
    (i : Transfer T C M E) : Prop :=
  g.comesTo w t c i = true ∧ takesFrom c' i = false ∧ g.Full w c ∧ g.Suspended w t' c'

instance (w : Wiring T C M S E) (g : Mailbox T C M S) (t t' : T) (c c' : C)
    (i : Transfer T C M E) : Decidable (g.joins w t t' c c' i) :=
  inferInstanceAs (Decidable (_ ∧ _ ∧ _ ∧ _))

/-- Two tasks are suspended, each in a send into its channel. -/
def Circular (w : Wiring T C M S E) (g : Mailbox T C M S) (t t' : T) (c c' : C) : Prop :=
  g.Suspended w t c ∧ g.Suspended w t' c'

instance (w : Wiring T C M S E) (g : Mailbox T C M S) (t t' : T) (c c' : C) :
    Decidable (g.Circular w t t' c c') :=
  inferInstanceAs (Decidable (_ ∧ _))

/-! ## Channels with one writer -/

/-- Only `t` has sends into the channel to do, and one at most. -/
structure Sole (g : Mailbox T C M S) (t : T) (c : C) : Prop where
  writer : ∀ t₀, ∀ p ∈ g.pending t₀, p.1 = c → t₀ = t
  once : (g.pending t).countP (fun p => p.1 = c) ≤ 1

section Steps

variable {w : Wiring T C M S E} {g g' : Mailbox T C M S} {i : Transfer T C M E} {t t' : T}
  {c c' : C}

theorem bounded_step (h : g.Bounded w) (hs : g.step w i = some g') : g'.Bounded w := by
  cases move_of_step hs with
  | @take c t m rest e hr hq hp =>
    have hlen := h c
    rw [hq, List.length_cons] at hlen
    exact bounded_setQueue (g := { g with memory := (w.handle e g.memory c m).1 }) h (by omega)
  | @put t c m rest hp hroom =>
    unfold Full at hroom
    apply bounded_setQueue (g := g) h
    rw [List.length_append, List.length_singleton]
    omega
  | @feed c m hf hroom =>
    unfold Full at hroom
    apply bounded_setQueue h
    rw [List.length_append, List.length_singleton]
    omega
  | @drain c m rest hr hq =>
    have hlen := h c
    rw [hq, List.length_cons] at hlen
    exact bounded_setQueue h (by omega)

theorem sole_step (hw : w.Sole t c) (h : g.Sole t c) (hs : g.step w i = some g') :
    g'.Sole t c := by
  cases move_of_step hs with
  | @take c₀ t₀ m rest e hr hq hp =>
    refine ⟨fun t₁ p hmem hpc => ?_, ?_⟩
    · by_cases ht : t₁ = t₀
      · subst ht
        rw [pending_setPending_self] at hmem
        exact hw.writer e g.memory c₀ m t₁ hr ⟨p, hmem, hpc⟩
      · rw [pending_setPending_ne _ ht] at hmem
        exact h.writer t₁ p hmem hpc
    · by_cases ht : t = t₀
      · subst ht
        rw [pending_setPending_self]
        exact hw.once e g.memory c₀ m
      · rw [pending_setPending_ne _ ht]
        exact h.once
  | @put t₀ c₀ m rest hp hroom =>
    refine ⟨fun t₁ p hmem hpc => ?_, ?_⟩
    · by_cases ht : t₁ = t₀
      · subst ht
        rw [pending_setPending_self] at hmem
        exact h.writer t₁ p (hp ▸ List.mem_cons_of_mem _ hmem) hpc
      · rw [pending_setPending_ne _ ht] at hmem
        exact h.writer t₁ p hmem hpc
    · have honce := h.once
      by_cases ht : t = t₀
      · subst ht
        rw [hp, List.countP_cons] at honce
        rw [pending_setPending_self]
        omega
      · rw [pending_setPending_ne _ ht]
        exact honce
  | _ => exact ⟨h.writer, h.once⟩

/-- A send that is suspended stays so while the reader of its channel has something
to send itself. -/
theorem suspended_step (hr : w.reader c = some t') (hp' : g.pending t' ≠ [])
    (h : g.Suspended w t c) (hs : g.step w i = some g') : g'.Suspended w t c := by
  obtain ⟨hnext, hfull⟩ := h
  cases move_of_step hs with
  | @take c₀ t₀ m rest e hr₀ hq hp =>
    have ht : t ≠ t₀ := by
      rintro rfl
      simp [next, hp] at hnext
    have hc : c ≠ c₀ := by
      rintro rfl
      rw [hr, Option.some.injEq] at hr₀
      exact hp' (hr₀ ▸ hp)
    exact ⟨(next_setPending_ne _ ht _).trans hnext, (full_setQueue_ne (w := w) hc rest).mpr hfull⟩
  | @put t₀ c₀ m rest hp hroom =>
    have ht : t ≠ t₀ := by
      rintro rfl
      simp only [next, hp, List.head?_cons, Option.map_some, Option.some.injEq] at hnext
      exact hroom (hnext ▸ hfull)
    exact ⟨(next_setPending_ne _ ht _).trans hnext, full_append hfull m⟩
  | feed m hf hroom => exact ⟨hnext, full_append hfull m⟩
  | @drain c₀ m rest hr₀ hq =>
    have hc : c ≠ c₀ := by
      rintro rfl
      rw [hr] at hr₀
      cases hr₀
    exact ⟨hnext, (full_setQueue_ne hc rest).mpr hfull⟩

/-- A send is suspended when its task comes to it while the channel is full. -/
theorem suspended_of_step (hw : w.Sole t c) (hsole : g.Sole t c) (hs : g.step w i = some g')
    (h : g'.Suspended w t c) :
    g.Suspended w t c ∨ g.comesTo w t c i = true ∧ g.Full w c := by
  obtain ⟨hnext, hfull⟩ := h
  cases move_of_step hs with
  | @take c₀ t₀ m rest e hr₀ hq hp =>
    have hbefore : g.Full w c := full_of_tail (w := w) (g := g) hq hfull
    by_cases ht : t = t₀
    · subst ht
      rw [next_setPending_self] at hnext
      refine .inr ⟨?_, hbefore⟩
      simp [comesTo, hr₀, hq, hnext]
    · exact .inl ⟨(next_setPending_ne _ ht _).symm.trans hnext, hbefore⟩
  | @put t₀ c₀ m rest hp hroom =>
    by_cases ht : t = t₀
    · subst ht
      rw [next_setPending_self, Option.map_eq_some_iff] at hnext
      obtain ⟨p, hp', hpc⟩ := hnext
      -- a second send into the channel would be under way otherwise
      have hc : c ≠ c₀ := by
        rintro rfl
        have honce := hsole.once
        have hpos : 0 < rest.countP (fun p => p.1 = c) :=
          List.countP_pos_iff.mpr ⟨p, List.mem_of_mem_head? hp', by simpa using hpc⟩
        rw [hp, List.countP_cons] at honce
        simp only [decide_true, if_true] at honce
        omega
      right
      refine ⟨?_, (full_setQueue_ne hc _).mp hfull⟩
      simp [comesTo, hp, hp', hpc]
    · have hc : c ≠ c₀ := by
        rintro rfl
        exact ht (hsole.writer t₀ ⟨c, m⟩ (hp ▸ List.mem_cons_self) rfl).symm
      exact .inl ⟨(next_setPending_ne _ ht _).symm.trans hnext, (full_setQueue_ne hc _).mp hfull⟩
  | @feed c₀ m hf hroom =>
    have hc : c ≠ c₀ := by
      rintro rfl
      rw [hw.fed] at hf
      cases hf
    exact .inl ⟨hnext, (full_setQueue_ne hc _).mp hfull⟩
  | drain hr₀ hq => exact .inl ⟨hnext, full_of_tail hq hfull⟩

/-- Only the task that a step is of comes to a send. -/
theorem comesTo_inj (h : g.comesTo w t c i = true) (h' : g.comesTo w t' c' i = true) : t = t' := by
  cases i with
  | take c₀ e =>
    simp only [comesTo] at h h'
    split at h
    · rename_i hr hq
      simp only [hr, hq, decide_eq_true_eq] at h h'
      exact h.1.symm.trans h'.1
    · cases h
  | put t₀ =>
    simp only [comesTo, decide_eq_true_eq] at h h'
    exact h.1.symm.trans h'.1
  | feed c₀ m => cases h
  | drain c₀ => cases h

/-- A task that comes to a send into a full channel is suspended there. -/
theorem suspended_of_comesTo (hr : w.reader c ≠ some t) (h : g.comesTo w t c i = true)
    (hfull : g.Full w c) (hs : g.step w i = some g') : g'.Suspended w t c := by
  cases move_of_step hs with
  | @take c₀ t₀ m rest e hr₀ hq hp =>
    simp only [comesTo, hr₀, hq, decide_eq_true_eq] at h
    obtain ⟨rfl, hnext⟩ := h
    have hc : c ≠ c₀ := by
      rintro rfl
      exact hr hr₀
    refine ⟨?_, (full_setQueue_ne (w := w) hc rest).mpr hfull⟩
    rw [next_setPending_self]
    exact hnext
  | @put t₀ c₀ m rest hp hroom =>
    simp only [comesTo, decide_eq_true_eq] at h
    obtain ⟨rfl, hnext⟩ := h
    rw [hp] at hnext
    refine ⟨?_, full_append hfull m⟩
    rw [next_setPending_self]
    exact hnext
  | feed m hf hroom => cases h
  | drain hr₀ hq => cases h

/-- A step of another task leaves a suspended send, unless it takes from its channel. -/
theorem suspended_of_other (ht : t ≠ t') (h : g.comesTo w t c i = true)
    (hc : takesFrom c' i = false) (hsusp : g.Suspended w t' c') (hs : g.step w i = some g') :
    g'.Suspended w t' c' := by
  obtain ⟨hnext, hfull⟩ := hsusp
  cases move_of_step hs with
  | @take c₀ t₀ m rest e hr₀ hq hp =>
    simp only [comesTo, hr₀, hq, decide_eq_true_eq] at h
    obtain ⟨rfl, -⟩ := h
    have hne : c' ≠ c₀ := fun heq => by simp [takesFrom, heq] at hc
    exact ⟨(next_setPending_ne _ ht.symm _).trans hnext,
      (full_setQueue_ne (w := w) hne rest).mpr hfull⟩
  | @put t₀ c₀ m rest hp hroom =>
    simp only [comesTo, decide_eq_true_eq] at h
    obtain ⟨rfl, -⟩ := h
    exact ⟨(next_setPending_ne _ ht.symm _).trans hnext, full_append hfull m⟩
  | feed m hf hroom => cases h
  | drain hr₀ hq => cases h

/-- A full channel is not full once a message has been taken out. -/
theorem not_full_of_takesFrom (hb : g.Bounded w) (hc : takesFrom c i = true)
    (hs : g.step w i = some g') : ¬ g'.Full w c := by
  cases move_of_step hs with
  | @take c₀ t₀ m rest e hr₀ hq hp =>
    obtain rfl : c₀ = c := by simpa [takesFrom] using hc
    have hlen := hb c₀
    rw [hq, List.length_cons] at hlen
    unfold Full
    rw [queue_setPending, queue_setQueue_self]
    omega
  | _ => cases hc

end Steps

/-! ## Two tasks that wait for each other -/

section Circle

variable {w : Wiring T C M S E} {g g' : Mailbox T C M S} {i : Transfer T C M E} {t t' : T}
  {c c' : C}

/-- Who waits in a circle waits for ever. -/
theorem circular_step (hr : w.reader c = some t') (hr' : w.reader c' = some t)
    (h : g.Circular w t t' c c') (hs : g.step w i = some g') : g'.Circular w t t' c c' := by
  have hsends : ∀ {t c}, g.Suspended w t c → g.pending t ≠ [] := by
    rintro t c ⟨hnext, -⟩ hnone
    simp [next, hnone] at hnext
  exact ⟨suspended_step hr (hsends h.2) h.1 hs, suspended_step hr' (hsends h.1) h.2 hs⟩

/-- The circle closes exactly when one of the two comes to its send. -/
theorem circular_of_step (hw : w.Sole t c) (hw' : w.Sole t' c') (hr : w.reader c = some t')
    (hr' : w.reader c' = some t) (ht : t ≠ t') (hb : g.Bounded w) (hsole : g.Sole t c)
    (hsole' : g.Sole t' c') (hno : ¬ g.Circular w t t' c c') (hs : g.step w i = some g') :
    g'.Circular w t t' c c' ↔ g.joins w t t' c c' i ∨ g.joins w t' t c' c i := by
  have hstays : ∀ {c}, g'.Full w c → takesFrom c i = false := by
    intro c hfull
    by_contra hc
    exact not_full_of_takesFrom hb ((Bool.not_eq_false _).mp hc) hs hfull
  constructor
  · rintro ⟨h, h'⟩
    rcases suspended_of_step hw hsole hs h with hsusp | ⟨hcomes, hfull⟩ <;>
      rcases suspended_of_step hw' hsole' hs h' with hsusp' | ⟨hcomes', hfull'⟩
    · exact absurd ⟨hsusp, hsusp'⟩ hno
    · exact .inr ⟨hcomes', hstays h.2, hfull', hsusp⟩
    · exact .inl ⟨hcomes, hstays h'.2, hfull, hsusp'⟩
    · exact absurd (comesTo_inj hcomes hcomes') ht
  · rintro (⟨hcomes, hc, hfull, hsusp⟩ | ⟨hcomes, hc, hfull, hsusp⟩)
    · have hread : w.reader c ≠ some t := by simp [hr, ht.symm]
      exact ⟨suspended_of_comesTo hread hcomes hfull hs, suspended_of_other ht hcomes hc hsusp hs⟩
    · have hread : w.reader c' ≠ some t' := by simp [hr', ht]
      exact ⟨suspended_of_other ht.symm hcomes hc hsusp hs,
        suspended_of_comesTo hread hcomes hfull hs⟩

/-- The runs of the tasks. -/
def machine (w : Wiring T C M S E) (init : Mailbox T C M S → Prop) :
    Machine (Mailbox T C M S) (Transfer T C M E) where
  init := init
  step := fun g i => g.step w i

variable {init : Mailbox T C M S → Prop}

/-- A run keeps clear of the circle exactly when no step of it closes it. -/
theorem run_avoids_circle (hw : w.Sole t c) (hw' : w.Sole t' c') (hr : w.reader c = some t')
    (hr' : w.reader c' = some t) (ht : t ≠ t')
    (h0 : ∀ g, init g → (g.Bounded w ∧ g.Sole t c ∧ g.Sole t' c') ∧ ¬ g.Circular w t t' c c')
    {l : List (Mailbox T C M S × Transfer T C M E)} (run : (machine w init).Run l g) :
    (∀ x ∈ Machine.visited l g, ¬ x.Circular w t t' c c') ↔
      Machine.Meets (fun g i => ¬ (g.joins w t t' c c' i ∨ g.joins w t' t c' c i)) l :=
  run.avoids_iff (fun g => g.Bounded w ∧ g.Sole t c ∧ g.Sole t' c') _ _ h0
    (fun _ _ _ h hs => ⟨bounded_step h.1 hs, sole_step hw h.2.1 hs, sole_step hw' h.2.2 hs⟩)
    (fun _ _ _ h hno hs => circular_of_step hw hw' hr hr' ht h.1 h.2.1 h.2.2 hno hs)

/-- A task that comes to its send only while there is room is never suspended in it. -/
theorem run_not_suspended (hw : w.Sole t c)
    (h0 : ∀ g, init g → g.Sole t c ∧ ¬ g.Suspended w t c)
    {l : List (Mailbox T C M S × Transfer T C M E)} (run : (machine w init).Run l g)
    (hroom : Machine.Meets (fun g i => g.comesTo w t c i = true → ¬ g.Full w c) l) :
    ∀ x ∈ Machine.visited l g, ¬ x.Suspended w t c := by
  intro x hx
  have hlaw := run.invariant_visited (fun g => g.Sole t c ∧ ¬ g.Suspended w t c) _ h0 ?_ hroom x hx
  · exact hlaw.2
  · rintro s i s' ⟨hsole, hno⟩ hok hs
    refine ⟨sole_step hw hsole hs, fun hsusp => ?_⟩
    rcases suspended_of_step hw hsole hs hsusp with h | ⟨hcomes, hfull⟩
    · exact hno h
    · exact hok hcomes hfull

/-- Once closed, the circle stays. -/
theorem run_keeps_circle (hr : w.reader c = some t') (hr' : w.reader c' = some t)
    {l : List (Mailbox T C M S × Transfer T C M E)} (run : (machine w init).Run l g) :
    ∀ x ∈ Machine.visited l g, x.Circular w t t' c c' → g.Circular w t t' c c' := by
  induction run with
  | start h =>
    intro x hx hcircle
    simp only [Machine.visited, List.map_nil, List.nil_append, List.mem_singleton] at hx
    exact hx ▸ hcircle
  | move r hs ih =>
    intro x hx hcircle
    rw [Machine.visited_snoc, List.mem_append, List.mem_singleton] at hx
    rcases hx with hx | rfl
    · exact circular_step hr hr' (ih x hx hcircle) hs
    · exact hcircle

end Circle

end Mailbox

end EdgeGateway.Lib
