-- Whose state a `Timeout` ends. The countdown that expires remembers the
-- visit of the machine that started it, and a `Timeout` meets the machine
-- only after the events queued before it: these two decide the law.
import EdgeGateway.Fsm.Pending

namespace EdgeGateway.Fsm

open EdgeGateway.Lib EdgeGateway.Message EdgeGateway.Networks EdgeGateway.Quorum

/-! ## Following the queued events -/

/-- The state and the visit of the machine after it has taken the event. -/
def follow (x : FsmState × Nat) (e : Event) : FsmState × Nat :=
  match x.1.step e with
  | .valid t => (t.changeState, if t.changeState = x.1 then x.2 else x.2 + 1)
  | .invalid _ => x

/-- The state and the visit after all the queued events. -/
def drained (x : FsmState × Nat) (q : List (Event × Nat)) : FsmState × Nat :=
  q.foldl (fun x e => follow x e.1) x

/-- A `Timeout` of the visit `v` would end a visit of another number. -/
def endsOther (x : FsmState × Nat) (v : Nat) : Bool :=
  match x.1.step .timeout with
  | .valid t => decide (t.changeState ≠ x.1 ∧ v ≠ x.2)
  | .invalid _ => false

/-- Each `Timeout` of the queue, when its turn comes, ends no visit but the
one that started its countdown. -/
def fits (x : FsmState × Nat) : List (Event × Nat) → Bool
  | [] => true
  | (.timeout, v) :: q => !endsOther x v && fits (follow x .timeout) q
  | (e, _) :: q => fits (follow x e) q

theorem fits_append (x : FsmState × Nat) (p q : List (Event × Nat)) :
    fits x (p ++ q) = (fits x p && fits (drained x p) q) := by
  induction p generalizing x with
  | nil => simp [fits, drained]
  | cons e p ih =>
    obtain ⟨e, v⟩ := e
    cases e <;> simp [fits, drained, ih, Bool.and_assoc]

theorem follow_next {m m' : Mode} {e : Event} {l : List Action} (h : m.next e = some (m', l))
    (v : Nat) : follow (m.state, v) e = (m'.state, if m' = m then v else v + 1) := by
  simp [follow, Mode.step_mode h]

theorem follow_refused {m : Mode} {e : Event} (h : m.next e = none) (v : Nat) :
    follow (m.state, v) e = (m.state, v) := by
  obtain ⟨t, ht⟩ := Mode.step_mode_none h
  simp [follow, ht]

/-! ## The property and its condition -/

namespace Runtime

/-- Where the machine stands: its state and the number of its visit. -/
def stand (r : Runtime) : FsmState × Nat := (r.state, r.past.visit)

/-- If the step is `run_fsm` taking a `Timeout` that changes its state, the
countdown was started by the entry of the visit that it ends. -/
def ownTimeout (r : Runtime) (i : Label) : Bool :=
  match i, r.outbox, r.events with
  | .runFsm, none, (.timeout, v) :: _ => !endsOther r.stand v
  | _, _, _ => true

/-- If the step is the watchdog delivering its `Timeout`, the machine will
still be, once the events queued before it are taken, in the visit that
started the countdown, or in a state that a `Timeout` does not change. -/
def timely (cap : Option Nat) (r : Runtime) (i : Label) : Bool :=
  match i, r.timer.expire (room cap r.events) with
  | .timerExpire, some (_, some v) => !endsOther (drained r.stand r.events) v
  | _, _ => true

end Runtime

/-! ## One step -/

section Steps

variable {ctx : AppContext} {cap : Option Nat} {m m' : Mode} {r r' : Runtime} {i : Label}

/-- `fsm` itself never sends a `Timeout`. -/
theorem no_timeout_step (h : .toFsm .timeout ∉ r.ops) (hmove : Move ctx cap m r i m' r') :
    .toFsm .timeout ∉ r'.ops := by
  cases hmove with
  | @command _ c ho =>
    have ht := taken r.manager r.currentEpoch r.session c
    show .toFsm .timeout ∉ (onCommand r.manager r.currentEpoch r.session c).2.2
    generalize onCommand r.manager r.currentEpoch r.session c = out at ht ⊢
    cases ht with
    | empty hs =>
      rcases (quorumPhase_cases r.manager r.session (.emptyQueue _)).2 with h2 | h2 <;>
        rw [h2] <;> simp
    | emptySafe hs =>
      rcases (quorumSafeMode_cases r.manager r.session (.emptyQueueSafe _)).2 with h2 | h2 <;>
        rw [h2] <;> simp
    | _ => simp
  | take ho ha => simp
  | act ho =>
    rw [ho] at h
    simp only [Runtime.afterAct, List.mem_append, not_or]
    refine ⟨fun hmem => ?_, fun hmem => h (List.mem_cons_of_mem _ hmem)⟩
    obtain ⟨-, he⟩ := handleAction_event _ _ _ _ _ _ hmem
    rcases quorumAlgorithm_cases ctx r.manager r.session with hq | hq | hq <;>
      rw [hq] at he <;> simp at he
  | sendFsm ho hr => exact fun hmem => h (ho ▸ List.mem_cons_of_mem _ hmem)
  | sendTimer ho hr => exact fun hmem => h (ho ▸ List.mem_cons_of_mem _ hmem)
  | output ho hout => exact fun hmem => h (ho ▸ List.mem_cons_of_mem _ hmem)
  | advance hb he hn =>
    rw [Runtime.advanced_ops]
    exact h
  | _ => exact h

/-- `run_fsm` takes an event: what the queue promised of it is the property
of the step. -/
theorem fits_consume {e : Event} {v : Nat} {rest : List (Event × Nat)} (hb : r.outbox = none)
    (he : r.events = (e, v) :: rest) (hf : r'.stand = follow r.stand e) (hr : r'.events = rest) :
    (r.timely cap .runFsm = true ∧ fits r.stand r.events = true) ↔
      (r.ownTimeout .runFsm = true ∧ fits r'.stand r'.events = true) := by
  rw [he, hf, hr]
  cases e <;> simp [Runtime.timely, Runtime.ownTimeout, hb, he, fits]

/-- What a step asks of the queued timeouts is what it leaves of them. -/
theorem fits_step (hm : r.state = m.state) (hops : .toFsm .timeout ∉ r.ops)
    (hmove : Move ctx cap m r i m' r') :
    (r.timely cap i = true ∧ fits r.stand r.events = true) ↔
      (r.ownTimeout i = true ∧ fits r'.stand r'.events = true) := by
  cases hmove with
  | @sendFsm _ e rest now jitter ho hr =>
    have hnew : fits (drained r.stand r.events) [(e, 0)] = true := by
      have he : e ≠ .timeout := fun he => hops (ho ▸ he ▸ List.mem_cons_self)
      cases e <;> simp_all [fits]
    have hstand : ({ r with events := r.events ++ [(e, 0)], ops := rest } : Runtime).stand =
      r.stand := rfl
    simp [Runtime.timely, Runtime.ownTimeout, hstand, fits_append, hnew]
  | refuse hb he hn =>
    have hs : r.stand = (m.state, r.past.visit) := by rw [Runtime.stand, hm]
    refine fits_consume hb he ?_ rfl
    rw [hs, follow_refused hn]
    exact hs
  | advance hb he hn =>
    refine fits_consume hb he ?_ (Runtime.advanced_events ..)
    rw [Runtime.stand, Runtime.stand, hm, follow_next hn, Runtime.advanced_state,
      Runtime.advanced_past]
  | @expire _ timer out ht =>
    have hstand : ∀ q, ({ r with timer, events := q } : Runtime).stand = r.stand := fun _ => rfl
    rcases out with _ | v
    · simp [Runtime.timely, Runtime.ownTimeout, ht, hstand]
    · simp [Runtime.timely, Runtime.ownTimeout, ht, hstand, fits_append, fits, and_comm]
  | deliver hb hr => simp [Runtime.timely, Runtime.ownTimeout, hb, Runtime.stand]
  | command ho =>
    have hstand : ∀ c out, (r.afterCommand c out).stand = r.stand := fun c out => by
      simp [Runtime.stand, Runtime.afterCommand]
    simp only [Runtime.timely, Runtime.ownTimeout, hstand]
    exact Iff.rfl
  | _ =>
    simp only [Runtime.timely, Runtime.ownTimeout]
    exact Iff.rfl

end Steps

/-! ## The law -/

/-- A run delivers its timeouts timely exactly when each `Timeout` that the
machine took ended the visit that armed it, and those still queued will. -/
theorem a_timeout_ends_the_state_it_was_armed_for (ctx : AppContext) (cap : Option Nat)
    (t : List (Runtime × Label)) (r : Runtime) (run : (machine ctx cap).Run t r) :
    Machine.Meets (fun r i => r.timely cap i = true) t ↔
      Machine.Meets (fun r i => r.ownTimeout i = true) t ∧ fits r.stand r.events = true := by
  refine (run.history (fun t r => (∃ m : Mode, r.state = m.state) ∧
    .toFsm .timeout ∉ r.ops ∧ (Machine.Meets (fun r i => r.timely cap i = true) t ↔
      Machine.Meets (fun r i => r.ownTimeout i = true) t ∧ fits r.stand r.events = true))
    ?_ ?_).2.2
  · rintro r ⟨manager, rfl⟩
    refine ⟨⟨.init, ?_⟩, ?_, ?_⟩
    · simp
    · simp
    · simp [Machine.meets_nil, fits]
  · rintro t r i r' ⟨⟨m, hm⟩, hops, ih⟩ h
    obtain ⟨m', hm', hmove⟩ := move_of_step hm h
    have hstep := fits_step hm hops hmove
    refine ⟨⟨m', hm'⟩, no_timeout_step hops hmove, ?_⟩
    rw [Machine.meets_snoc, Machine.meets_snoc, ih]
    tauto

/-- The countdown of `InHandshake` expires when the approval of its quorum is
already queued. -/
def lateTimeout : List Label :=
  toInHandshake ++ [.command (answerOf "h" 1)] ++ works 1 ++ [.runFsm, .takeActions] ++ works 2 ++
    [.timerExpire, .runFsm, .runFsm]

/-- The `Timeout` of that countdown ends the alert phase. -/
theorem a_late_timeout_ends_the_alert_phase :
    ¬ ∀ (ctx : AppContext) (cap : Option Nat) (t : List (Runtime × Label)) (r : Runtime),
      (machine ctx cap).Run t r → Machine.Meets (fun r i => r.ownTimeout i = true) t := by
  intro h
  have hrun := Machine.run_of_final lateTimeout
    (init_start sampleContext (some 50) sampleCache) (by decide +kernel)
  have hmeets := h _ _ _ _ hrun
  revert hmeets
  decide +kernel

/-- A countdown that expires in its own state. -/
def timelyTimeout : List Label := toInHandshake ++ [.timerExpire, .runFsm]

theorem a_timeout_ends_its_handshake :
    let m := machine sampleContext (some 50)
    let t := m.trace (Runtime.start (some 50) sampleCache) timelyTimeout
    Machine.Meets (fun r i => r.timely (some 50) i = true) t ∧
      Machine.Meets (fun r i => r.ownTimeout i = true) t := by
  have hmeets : Machine.Meets (fun r i => r.timely (some 50) i = true)
      ((machine sampleContext (some 50)).trace (Runtime.start (some 50) sampleCache)
        timelyTimeout) := by decide +kernel
  exact ⟨hmeets, ((a_timeout_ends_the_state_it_was_armed_for sampleContext (some 50) _ _
    (Machine.run_of_final timelyTimeout (init_start _ _ _) (by decide +kernel))).mp hmeets).1⟩

end EdgeGateway.Fsm
