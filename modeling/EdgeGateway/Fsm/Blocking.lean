-- When `fsm` and `run_fsm` wait on each other for ever. Each waits for
-- room in the channel that only the other one empties; the load counts
-- all that can still end up in the two channels.
import EdgeGateway.Fsm.Pending

namespace EdgeGateway.Fsm

open EdgeGateway.Lib EdgeGateway.Message EdgeGateway.Networks EdgeGateway.Quorum

/-! ## The circular wait -/

/-- The capacity of every channel of the runtime. -/
def capacity : Option Nat := some 50

namespace Runtime

/-- `fsm` is suspended sending an event and `run_fsm` sending a list. -/
def blocked (r : Runtime) : Bool :=
  sendsNext r.ops && !room capacity r.events && (r.outbox.isSome && !room capacity r.actions)

/-- `run_fsm` is suspended sending a list. -/
def machineWaits (r : Runtime) : Bool := r.outbox.isSome && !room capacity r.actions

/-- The step closes the circle: while `run_fsm` waits, `fsm` takes a command
or an action that sends an event to the full channel, or the watchdog takes
the last place of the channel that `fsm` is about to send to. -/
def closes (r : Runtime) : Label → Bool
  | .command c =>
    r.machineWaits && !room capacity r.events &&
      sendsNext (onCommand r.manager r.currentEpoch r.session c).2.2
  | .work _ _ =>
    r.machineWaits && !room capacity r.events &&
      (match r.ops with
        | .act a :: _ => a.evaluates
        | _ => false)
  | .timerExpire =>
    r.machineWaits && decide (r.events.length = 49) && sendsNext r.ops &&
      decide (r.timer ≠ .idle)
  | _ => false

end Runtime

/-! ## One step -/

/-- The event channel keeps to its capacity, and events come first. -/
structure Bounded (r : Runtime) : Prop where
  events_le : r.events.length ≤ 50
  event_first : EventFirst r.ops

section Steps

variable {ctx : AppContext} {m m' : Mode} {r r' : Runtime} {i : Label}

theorem bounded_step (h : Bounded r) (hmove : Move ctx capacity m r i m' r') : Bounded r' := by
  refine ⟨?_, eventFirst_step h.event_first hmove⟩
  have hle := h.events_le
  cases hmove with
  | sendFsm ho hr =>
    simp only [capacity, room_some, decide_eq_true_eq] at hr
    simp only [List.length_append, List.length_singleton]
    omega
  | refuse hb he hn =>
    rw [he, List.length_cons] at hle
    exact Nat.le_of_succ_le hle
  | advance hb he hn =>
    rw [Runtime.advanced_events]
    rw [he, List.length_cons] at hle
    exact Nat.le_of_succ_le hle
  | @expire _ timer out ht =>
    rcases out with _ | v
    · simpa using hle
    · have hr := (Countdown.expire_some ht).1
      simp only [capacity, room_some, decide_eq_true_eq] at hr
      simp only [Option.map_some, Option.toList_some, List.length_append, List.length_singleton]
      omega
  | _ => exact hle

/-- From a configuration that is not blocked, exactly the closing steps lead
to one that is. -/
theorem blocked_step (h : Bounded r) (hnot : ¬ r.blocked = true)
    (hmove : Move ctx capacity m r i m' r') : r'.blocked = true ↔ r.closes i = true := by
  obtain ⟨hle, hfirst⟩ := h
  cases hmove with
  | command ho =>
    simp only [Runtime.blocked, Runtime.closes, Runtime.machineWaits, Runtime.afterCommand,
      Bool.and_eq_true]
    tauto
  | take ho ha =>
    have hops : ∀ l : List Action, sendsNext (l.map .act) = false := by
      intro l
      cases l <;> rfl
    simp [Runtime.blocked, Runtime.closes, hops]
  | @act _ a rest now jitter ho =>
    have hnext := (act_first ctx hfirst ho now jitter.val.toUInt32).2
    simp only [Runtime.blocked, Runtime.closes, Runtime.machineWaits, Runtime.afterAct, hnext, ho,
      Bool.and_eq_true]
    tauto
  | sendFsm ho hr =>
    simp [Runtime.blocked, Runtime.closes, ho, (eventFirst_tail (ho ▸ hfirst)).2]
  | sendTimer ho hr =>
    simp [Runtime.blocked, Runtime.closes, ho, (eventFirst_tail (ho ▸ hfirst)).2]
  | @output _ o rest now jitter ho hout =>
    have hnext := (eventFirst_tail (ho ▸ hfirst)).2
    cases o <;> simp_all [Runtime.blocked, Runtime.closes, Op.isOutput]
  | deliver hb hr => simp [Runtime.blocked, Runtime.closes]
  | refuse hb he hn => simp [Runtime.blocked, Runtime.closes, hb]
  | @advance _ _ e v rest l hb he hn =>
    -- taking an event makes room in the channel that `fsm` waits for
    have hroom : room capacity rest = true := by
      rw [he, List.length_cons] at hle
      simp only [capacity, room_some, decide_eq_true_eq]
      omega
    simp [Runtime.blocked, Runtime.closes, hroom]
  | receive hq ht =>
    exact ⟨fun hb => absurd hb hnot, fun hc => absurd hc (by simp [Runtime.closes])⟩
  | @expire _ timer out ht =>
    rcases out with _ | v
    · have hfull := (Countdown.expire_none ht).1
      simp only [capacity, room_some, decide_eq_false_iff_not, Nat.not_lt] at hfull
      have hne : r.events.length ≠ 49 := by omega
      simpa [Runtime.closes, hne, Runtime.blocked] using hnot
    · obtain ⟨hr, -, hidle⟩ := Countdown.expire_some ht
      simp only [capacity, room_some, decide_eq_true_eq] at hr
      have hlen : 50 ≤ r.events.length + 1 ↔ r.events.length = 49 := by omega
      simp only [Runtime.blocked, Runtime.closes, Runtime.machineWaits, capacity, room_some,
        Option.map_some, Option.toList_some, List.length_append, List.length_singleton,
        Bool.and_eq_true, Bool.not_eq_true', decide_eq_false_iff_not, Nat.not_lt,
        decide_eq_true_eq, hlen]
      tauto
  | network => exact ⟨fun hb => absurd hb hnot, fun hc => absurd hc (by simp [Runtime.closes])⟩

end Steps

/-! ## The load -/

/-- How many events the handling of the action can still bring. -/
def Action.weight (a : Action) : Nat :=
  (if a.evaluates then 1 else 0) + Countdown.starts a.kinds

def Op.weight : Op → Nat
  | .act a => a.weight
  | .toFsm _ => 1
  | .toTimer e => Countdown.starts [e.kind]
  | _ => 0

def weights (ops : List Op) : Nat := (ops.map Op.weight).sum

@[simp] theorem weights_nil : weights [] = 0 := rfl

@[simp] theorem weights_cons (o : Op) (ops : List Op) :
    weights (o :: ops) = o.weight + weights ops := by simp [weights]

@[simp] theorem weights_append (p q : List Op) : weights (p ++ q) = weights p + weights q := by
  simp [weights]

/-- The transition puts a list on its way that brings one event at most. -/
theorem Mode.weights_next {m m' : Mode} {e : Event} {l : List Action}
    (h : m.next e = some (m', l)) : weights (l.map .act) ≤ 1 :=
  of_rows (P := fun _ _ _ l => weights (l.map .act) ≤ 1) (by decide) h

section Sends

variable (ctx : AppContext) (manager : NetworkManager) (epoch : UInt32) (session : UpdateSession)
  (now : Int64) (jitter : UInt32)

/-- Handling an action brings no more events than it promised. -/
theorem handleAction_weights (a : Action) :
    weights (handleAction ctx manager epoch session now jitter a).2 = a.weight := by
  cases a with
  | onEntryBalance sub => cases sub <;> rfl
  | onEntryQuorum sub => cases sub <;> rfl
  | onEntryPhase sub => cases sub <;> rfl
  | _ => rfl

theorem onCommand_weights (c : FsmServiceCommand) :
    weights (onCommand manager epoch session c).2.2 ≤ 1 := by
  have ht := taken manager epoch session c
  generalize onCommand manager epoch session c = out at ht ⊢
  cases ht with
  | @empty msg hs =>
    rcases (quorumPhase_cases manager session (.emptyQueue msg)).2 with h2 | h2 <;>
      simp [h2, Op.weight, Countdown.starts]
  | @emptySafe msg hs =>
    rcases (quorumSafeMode_cases manager session (.emptyQueueSafe msg)).2 with h2 | h2 <;>
      simp [h2, Op.weight, Countdown.starts]
  | _ => simp [Op.weight]

end Sends

namespace Runtime

/-- The events and lists in the channels, and what can still be put there
without a further command. -/
def load (r : Runtime) : Nat :=
  r.events.length + r.queued.length + weights r.ops +
    r.timer.credit (r.timerQueue.map (fun c => c.1.kind))

/-- If the step is `fsm` taking a command, the load is at most 100. -/
def paced (r : Runtime) : Label → Bool
  | .command _ => r.load ≤ 100
  | _ => true

end Runtime

/-- Every list on its way brings one event at most. -/
def LightLists (r : Runtime) : Prop := ∀ l ∈ r.queued, weights (l.2.map .act) ≤ 1

section Load

variable {ctx : AppContext} {cap : Option Nat} {m m' : Mode} {r r' : Runtime} {i : Label}

theorem lightLists_step (h : LightLists r) (hmove : Move ctx cap m r i m' r') :
    LightLists r' := by
  cases hmove with
  | take ho ha =>
    intro l hl
    refine h l ?_
    rw [Runtime.queued, ha]
    exact List.mem_cons_of_mem _ hl
  | deliver hb hr =>
    intro l hl
    refine h l ?_
    simpa [Runtime.queued, hb] using hl
  | @advance _ _ e v rest l hb he hn =>
    intro x hx
    rw [Runtime.queued_advanced cap m m' rest l hb, List.mem_append, List.mem_singleton] at hx
    rcases hx with hx | rfl
    · exact h x hx
    · exact Mode.weights_next hn
  | _ => exact h

/-- Only a command raises the load, and by one at most. -/
theorem load_step (h : LightLists r) (hmove : Move ctx cap m r i m' r') :
    r'.load ≤ r.load ∨ ((∃ c, i = .command c) ∧ r'.load ≤ r.load + 1) := by
  cases hmove with
  | @command _ c ho =>
    have hw := onCommand_weights r.manager r.currentEpoch r.session c
    have hqueued : (r.afterCommand c (onCommand r.manager r.currentEpoch r.session c)).queued =
      r.queued := rfl
    refine Or.inr ⟨⟨c, rfl⟩, ?_⟩
    simp only [Runtime.load, hqueued, ho, weights_nil]
    simp only [Runtime.afterCommand]
    omega
  | @take _ visit l rest ho ha =>
    left
    have hw : weights (l.map .act) ≤ 1 := h (visit, l) (by simp [Runtime.queued, ha])
    simp only [Runtime.load, Runtime.queued, ho, ha, weights_nil, List.length_append,
      List.length_cons]
    omega
  | @act _ a rest now jitter ho =>
    left
    have hw := handleAction_weights ctx r.manager r.currentEpoch r.session now jitter.val.toUInt32 a
    simp only [Runtime.load, Runtime.afterAct, Runtime.queued, ho, weights_append, weights_cons,
      Op.weight, hw]
    omega
  | sendFsm ho hr =>
    left
    simp only [Runtime.load, Runtime.queued, ho, weights_cons, Op.weight, List.length_append,
      List.length_singleton]
    omega
  | sendTimer ho hr =>
    left
    simp only [Runtime.load, Runtime.queued, ho, weights_cons, Op.weight, List.map_append,
      List.map_cons, List.map_nil, Countdown.credit_append]
    omega
  | output ho hout =>
    left
    simp only [Runtime.load, Runtime.queued, ho, weights_cons]
    omega
  | deliver hb hr =>
    left
    simp [Runtime.load, Runtime.queued, hb]
  | refuse hb he hn =>
    left
    simp only [Runtime.load, Runtime.queued, he, List.length_cons]
    omega
  | @advance _ _ e v rest l hb he hn =>
    left
    simp only [Runtime.load, Runtime.queued_advanced cap m m' rest l hb, Runtime.advanced_events,
      Runtime.advanced_ops, Runtime.advanced_timer, Runtime.advanced_timerQueue, he,
      List.length_cons, List.length_append, List.length_nil]
    omega
  | @receive _ c rest timer hq ht =>
    left
    have hc := Countdown.credit_receive (q := rest.map (fun c => c.1.kind)) ht
    rw [timerCmd_kind] at hc
    simp only [Runtime.load, Runtime.queued, hq, List.map_cons]
    omega
  | expire ht =>
    left
    have hc := Countdown.credit_expire ht (r.timerQueue.map (fun c => c.1.kind))
    simp only [Runtime.load, Runtime.queued, List.length_append, ← hc, Option.toList_map,
      List.length_map]
    omega
  | network => exact Or.inl (Nat.le_refl _)

end Load

/-- Two full channels, and a task holding one more element for each. -/
theorem load_of_blocked {r : Runtime} (h : r.blocked = true) : 102 ≤ r.load := by
  simp only [Runtime.blocked, capacity, room_some, Bool.and_eq_true, Bool.not_eq_true',
    decide_eq_false_iff_not, Nat.not_lt] at h
  obtain ⟨⟨hops, hevents⟩, hout, hactions⟩ := h
  obtain ⟨l, hl⟩ := Option.isSome_iff_exists.mp hout
  have hweights : 1 ≤ weights r.ops := by
    rcases ho : r.ops with _ | ⟨o, rest⟩
    · simp [ho, sendsNext] at hops
    · cases o <;> simp_all [sendsNext, Op.weight]
  have hqueued : r.queued.length = r.actions.length + 1 := by simp [Runtime.queued, hl]
  unfold Runtime.load
  omega

/-- Nothing ends the circular wait. -/
theorem blocked_for_ever {ctx : AppContext} {m m' : Mode} {r r' : Runtime} {i : Label}
    (h : r.blocked = true) (hmove : Move ctx capacity m r i m' r') : r'.blocked = true := by
  have hall := h
  simp only [Runtime.blocked, Bool.and_eq_true, Bool.not_eq_true'] at h
  obtain ⟨⟨hops, hevents⟩, hout, hactions⟩ := h
  cases hmove with
  | command ho => simp [ho, sendsNext] at hops
  | take ho ha => simp [ho, sendsNext] at hops
  | act ho => simp [ho, sendsNext] at hops
  | sendFsm ho hr => simp [hevents] at hr
  | sendTimer ho hr => simp [ho, sendsNext] at hops
  | @output _ o _ _ _ ho ho' => cases o <;> simp_all [sendsNext, Op.isOutput]
  | deliver hb hr => simp [hactions] at hr
  | refuse hb he hn => simp [hb] at hout
  | advance hb he hn => simp [hb] at hout
  | receive hq ht => exact hall
  | @expire _ timer out ht =>
    rcases out with _ | v
    · simpa [Runtime.blocked] using hall
    · have hr := (Countdown.expire_some ht).1
      simp [hevents] at hr
  | network => exact hall

/-! ## The law -/

/-- What a run keeps: the machine is in a mode, its channels are bounded and
every list on its way is light. -/
theorem channels_run {ctx : AppContext} {t : List (Runtime × Label)} {r : Runtime}
    (run : (machine ctx capacity).Run t r) :
    (∃ m : Mode, r.state = m.state) ∧ Bounded r ∧ LightLists r := by
  refine run.always (fun r => (∃ m : Mode, r.state = m.state) ∧ Bounded r ∧ LightLists r) ?_ ?_
  · rintro r ⟨manager, rfl⟩
    refine ⟨⟨.init, Runtime.sendActions_state ..⟩, ⟨?_, ?_⟩, ?_⟩
    · simp
    · simp [EventFirst]
    · intro l hl
      rw [queued_start, List.mem_singleton] at hl
      subst hl
      decide
  · rintro r i r' ⟨⟨m, hm⟩, hb, hl⟩ h
    obtain ⟨m', hm', hmove⟩ := move_of_step hm h
    exact ⟨⟨m', hm'⟩, bounded_step hb hmove, lightLists_step hl hmove⟩

/-- A run never has `fsm` and `run_fsm` wait on each other exactly when no
step of it closes the circle; it is enough that commands are taken at a
load of at most 100. -/
theorem fsm_and_run_fsm_never_block_each_other (ctx : AppContext) (t : List (Runtime × Label))
    (r : Runtime) (run : (machine ctx capacity).Run t r) :
    ((∀ x ∈ Machine.visited t r, ¬ x.blocked = true) ↔
      Machine.Meets (fun r i => ¬ r.closes i = true) t) ∧
    (Machine.Meets (fun r i => r.paced i = true) t →
      ∀ x ∈ Machine.visited t r, ¬ x.blocked = true) := by
  constructor
  · refine run.avoids_iff (fun r => (∃ m : Mode, r.state = m.state) ∧ Bounded r)
      (fun r => r.blocked = true) (fun r i => r.closes i = true) ?_ ?_ ?_
    · rintro r h
      obtain ⟨hm, hb, -⟩ := channels_run (Machine.Run.start h : (machine ctx capacity).Run [] r)
      obtain ⟨manager, rfl⟩ := h
      exact ⟨⟨hm, hb⟩, by simp [Runtime.blocked, sendsNext]⟩
    · rintro r i r' ⟨⟨m, hm⟩, hb⟩ h
      obtain ⟨m', hm', hmove⟩ := move_of_step hm h
      exact ⟨⟨m', hm'⟩, bounded_step hb hmove⟩
    · rintro r i r' ⟨⟨m, hm⟩, hb⟩ hnot h
      obtain ⟨m', hm', hmove⟩ := move_of_step hm h
      exact blocked_step hb hnot hmove
  · intro hpaced x hx hblocked
    have hload := run.invariant_visited
      (fun r => (∃ m : Mode, r.state = m.state) ∧ LightLists r ∧ r.load ≤ 101)
      (fun r i => r.paced i = true) ?_ ?_ hpaced x hx
    · have := load_of_blocked hblocked
      omega
    · rintro r h
      obtain ⟨hm, -, hl⟩ := channels_run (Machine.Run.start h : (machine ctx capacity).Run [] r)
      obtain ⟨manager, rfl⟩ := h
      refine ⟨hm, hl, ?_⟩
      rw [Runtime.load, queued_start, start_eq]
      simp [Runtime.spawn, Countdown.credit, Countdown.starts]
    · rintro r i r' ⟨⟨m, hm⟩, hl, hle⟩ hp h
      obtain ⟨m', hm', hmove⟩ := move_of_step hm h
      refine ⟨⟨m', hm'⟩, lightLists_step hl hmove, ?_⟩
      rcases load_step hl hmove with hstep | ⟨⟨c, rfl⟩, hstep⟩
      · omega
      · simp only [Runtime.paced, decide_eq_true_eq] at hp
        omega

/-- A hub answers the handshake 102 times; `fsm` always finds its command
channel ready first, and `run_fsm` follows until the action channel is full. -/
def floodedHandshake : List Label :=
  toInHandshake ++
    (List.replicate 51 ([.command (answerOf "h" 1)] ++ works 1 ++ [.runFsm])).flatten ++
    (List.replicate 50 ([.command (answerOf "h" 1)] ++ works 1)).flatten ++
    [.command (answerOf "h" 1)]

theorem a_flood_of_answers_blocks_both_tasks :
    ¬ ∀ (ctx : AppContext) (t : List (Runtime × Label)) (r : Runtime),
      (machine ctx capacity).Run t r → ¬ r.blocked = true := by
  intro h
  have hrun := Machine.run_of_final floodedHandshake
    (init_start sampleContext capacity sampleCache) (by decide +kernel)
  refine h _ _ _ hrun ?_
  decide +kernel

theorem answers_one_by_one_do_not_block :
    let m := machine sampleContext capacity
    let t := m.trace (Runtime.start capacity sampleCache)
      (toInHandshake ++ [.command (answerOf "h" 1)])
    Machine.Meets (fun r i => r.paced i = true) t ∧ ∀ p ∈ t, ¬ p.1.blocked = true := by
  have hpaced : Machine.Meets (fun r i => r.paced i = true)
      ((machine sampleContext capacity).trace (Runtime.start capacity sampleCache)
        (toInHandshake ++ [.command (answerOf "h" 1)])) := by decide +kernel
  have hall := (fsm_and_run_fsm_never_block_each_other sampleContext _ _
    (Machine.run_of_final _ (init_start _ _ _) (by decide +kernel))).2 hpaced
  exact ⟨hpaced, fun p hp => hall p.1 (Machine.mem_visited hp _)⟩

end EdgeGateway.Fsm
