-- What becomes of a server that falls silent. Each heartbeat pays for the steps that it brings,
-- those of the timeouts after it included; so without further heartbeats the tasks come to rest.
-- And where they rest, the server is held for dead, and the core has heard of nothing else, but
-- for tasks that wait for each other.
import EdgeGateway.Heartbeat.Watchdog
import EdgeGateway.Lib.Work

namespace EdgeGateway.Heartbeat

open EdgeGateway.Lib EdgeGateway.Message

/-! ## The effort of what is on its way -/

def Event.effort : Event → Nat
  | .heartbeat => 19
  | _ => 1

def Action.effort (a : Action) : Nat :=
  match a.toTimer with
  | some c => 1 + c.kind.effort 1
  | none => 1

/-- What the timeouts that a state waits for can bring. -/
def State.effort : State → Nat
  | .startingWait => 11
  | .itsAlive => 11
  | .notHeartbeatYet => 4
  | .deadServer => 0

/-- A list is taken, and its actions are executed. -/
def effortOfList (l : List Action) : Nat := 1 + weigh Action.effort l

/-- A list that `run_fsm_heartbeat` holds is to be delivered before. -/
def effortOfOutbox : Option (List Action) → Nat
  | some l => 1 + effortOfList l
  | none => 0

/-- An event that `heartbeat` holds is to be delivered before. -/
def effortOfHeld : Bool → Nat
  | true => 1 + Event.heartbeat.effort
  | false => 0

/-- The steps that are on their way without further heartbeats of the server. -/
def Tasks.effort (s : Tasks) : Nat :=
  s.fsm.state.effort + weigh Event.effort s.events + weigh effortOfList s.actions +
    effortOfOutbox s.outbox + effortOfHeld s.held + weigh Action.effort s.list +
    weigh (fun c => c.kind.effort 1) s.timerQueue + s.timer.effort 1

/-- `heartbeat` takes a heartbeat of the server. -/
def Label.isBeat : Label → Bool
  | .heartbeat => true
  | _ => false

def Label.isOwn (i : Label) : Bool := !i.isBeat

/-- A transition pays for its list with its event and with the timeouts that it uses up. -/
theorem effort_of_step {m m' : FsmHeartbeat} {e : Event} {l : List Action}
    (h : m.step e = some (m', l)) :
    m'.state.effort + weigh Action.effort l + 3 ≤ m.state.effort + e.effort := by
  obtain ⟨state, oldStatus, status⟩ := m
  cases state <;> cases e <;>
    simp only [FsmHeartbeat.step, FsmHeartbeat.stepInner, Option.map_some, Option.map_none,
      Option.some.injEq, Prod.mk.injEq, reduceCtorEq] at h <;>
    obtain ⟨rfl, rfl⟩ := h <;>
    simp [State.effort, Event.effort, Action.effort, Action.toTimer, Event.kind, Cmd.effort]

theorem effort_sendActions (cap : Option Nat) {s : Tasks} (l : List Action)
    (hb : s.outbox = none) :
    (Tasks.sendActions cap s l).effort ≤ s.effort + weigh Action.effort l + 2 := by
  unfold Tasks.sendActions
  split
  · simp only [Tasks.effort, weigh_append, weigh_cons, weigh_nil, effortOfList]
    omega
  · simp only [Tasks.effort, hb, effortOfOutbox, effortOfList]
    omega

section Steps

variable {cap : Option Nat} {s s' : Tasks} {i : Label}

/-- Each step of a task spends effort, and only a heartbeat of the server brings some. -/
theorem effort_step (hs : (machine cap).step s i = some s') :
    s'.effort + (if i.isOwn then 1 else 0) ≤ s.effort + if i.isBeat then 20 else 0 := by
  have hmove := move_of_step hs
  cases hmove with
  | beat hl hr =>
    simp only [Tasks.effort, weigh_append, weigh_cons, weigh_nil, Event.effort, Label.isOwn,
      Label.isBeat, Bool.not_true, Bool.false_eq_true, if_true, if_false]
    omega
  | hold hl hr =>
    simp only [Tasks.effort, effortOfHeld, Event.effort, Label.isOwn, Label.isBeat,
      Bool.not_true, Bool.false_eq_true, if_true, if_false]
    omega
  | sendHeld hr =>
    have hheld : s.held = true := by
      simp only [machine, Tasks.step, Tasks.sendHeld, Option.ite_none_right_eq_some] at hs
      exact hs.1.1
    simp only [Tasks.effort, hheld, effortOfHeld, weigh_append, weigh_cons, weigh_nil,
      Event.effort, Label.isOwn, Label.isBeat,
      Bool.not_false, Bool.false_eq_true, if_true, if_false]
    omega
  | @take l rest hl ha =>
    simp only [Tasks.effort, hl, ha, weigh_cons, weigh_nil, effortOfList, Label.isOwn, Label.isBeat,
      Bool.not_false, Bool.false_eq_true, if_true, if_false]
    omega
  | @tell a c rest hl hc hr =>
    simp only [Tasks.effort, hl, weigh_append, weigh_cons, weigh_nil, Action.effort, hc,
      Label.isOwn, Label.isBeat,
      Bool.not_false, Bool.false_eq_true, if_true, if_false]
    omega
  | @report a rest hl hc =>
    simp only [Tasks.effort, hl, weigh_cons, Action.effort, hc, Label.isOwn, Label.isBeat,
      Bool.not_false, Bool.false_eq_true, if_true, if_false]
    omega
  | deliver hb hr =>
    simp only [Tasks.effort, hb, weigh_append, weigh_cons, weigh_nil, effortOfOutbox,
      Label.isOwn, Label.isBeat,
      Bool.not_false, Bool.false_eq_true, if_true, if_false]
    omega
  | @refuse e rest hb he hn =>
    have hpos : 1 ≤ e.effort := by cases e <;> decide
    simp only [Tasks.effort, Tasks.counted, he, weigh_cons, Label.isOwn, Label.isBeat,
      Bool.not_false, Bool.false_eq_true, if_true, if_false]
    omega
  | @advance e rest fsm l hb he hn =>
    have hpays := effort_of_step hn
    have hsent : (Tasks.sendActions cap { s.counted e rest with fsm } l).effort ≤ _ :=
      effort_sendActions cap l hb
    simp only [Tasks.effort, Tasks.counted, he, weigh_cons, Label.isOwn, Label.isBeat,
      Bool.not_false, Bool.false_eq_true, if_true, if_false] at hsent ⊢
    omega
  | @receive c rest timer hq ht =>
    have hspends := Countdown.effort_receive 1 ht
    rw [timerCmd_kind] at hspends
    simp only [Tasks.effort, hq, weigh_cons, Label.isOwn, Label.isBeat,
      Bool.not_false, Bool.false_eq_true, if_true, if_false]
    omega
  | @expire timer out ht =>
    have hspends := Countdown.effort_expire 1 ht
    have htimeout : weigh Event.effort (out.map (fun _ => Event.timeout)).toList =
        out.toList.length := by
      cases out <;> rfl
    simp only [Tasks.effort, weigh_append, htimeout, Label.isOwn, Label.isBeat,
      Bool.not_false, Bool.false_eq_true, if_true, if_false]
    omega

end Steps

/-- The heartbeats of the server that `heartbeat` has taken. -/
def heard (t : List (Tasks × Label)) : Nat := t.countP (fun p => p.2.isBeat)

/-- The steps of the tasks but for those. -/
def ownSteps (t : List (Tasks × Label)) : Nat := t.countP (fun p => p.2.isOwn)

theorem run_effort {cap : Option Nat} {t : List (Tasks × Label)} {s : Tasks}
    (run : (machine cap).Run t s) : ownSteps t + s.effort ≤ 11 + 20 * heard t := by
  have hpaid : ownSteps t + s.effort ≤ 11 + 20 * heard t + 0 := by
    apply run.paid (fun _ => True) Tasks.effort (fun _ => 0)
    · rintro s rfl
      exact ⟨trivial, by decide⟩
    · intro s i s' _ hs
      have hstep := effort_step hs
      exact ⟨trivial, by omega⟩
  omega

/-! ## What waits, and what the core has heard -/

/-- While the machine waits for the server, a timeout is in its channel or the watchdog is armed,
whatever the channels hold. -/
structure Guarded (s : Tasks) : Prop where
  samples : ∀ e ∈ s.events, e.sample.isSome = true
  armed : 0 < s.taken → s.fsm.state ≠ .deadServer →
    .timeout ∈ s.events ∨ s.timer.Armed s.told

/-- What the core has heard, and what it is going to hear. -/
def Tasks.said (s : Tasks) : List ServerStatus := s.toCore ++ s.pending.filterMap Action.reports

/-- The last word is the status of the machine. -/
structure Honest (s : Tasks) : Prop where
  settled : s.fsm.Settled
  last : s.said.getLastD .disconnected = s.fsm.status
  dead : s.fsm.state = .deadServer → s.fsm.status = .disconnected

section Steps

variable {cap : Option Nat} {s s' : Tasks} {i : Label}

theorem guarded_frame (h : Guarded s) (he : ∀ e ∈ s.events, e ∈ s'.events)
    (hnew : ∀ e ∈ s'.events, e ∈ s.events ∨ e.sample.isSome = true)
    (htaken : s'.taken = s.taken) (hfsm : s'.fsm = s.fsm) (htimer : s'.timer = s.timer)
    (htold : s'.told = s.told) : Guarded s' where
  samples := fun e hmem => (hnew e hmem).elim (h.samples e) id
  armed := by
    rw [htaken, hfsm, htimer, htold]
    intro ht hd
    exact (h.armed ht hd).imp_left (he _)

theorem guarded_step (h : Guarded s) (hm : Move cap s i s') : Guarded s' := by
  have hbeat : ∀ e ∈ s.events ++ [Event.heartbeat], e ∈ s.events ∨ e.sample.isSome = true := by
    intro e he
    rcases List.mem_append.mp he with he | he
    · exact Or.inl he
    · rw [List.mem_singleton.mp he]
      exact Or.inr rfl
  cases hm with
  | beat hl hr =>
    exact guarded_frame h (fun e he => List.mem_append_left _ he) hbeat rfl rfl rfl rfl
  | hold hl hr => exact guarded_frame h (fun e he => he) (fun e he => Or.inl he) rfl rfl rfl rfl
  | sendHeld hr =>
    exact guarded_frame h (fun e he => List.mem_append_left _ he) hbeat rfl rfl rfl rfl
  | take hl ha =>
    refine guarded_frame h (fun e he => he) (fun e he => Or.inl he) rfl rfl rfl ?_
    simp [Tasks.told, Tasks.pending, hl, ha]
  | @tell a c rest hl hc hr =>
    refine guarded_frame h (fun e he => he) (fun e he => Or.inl he) rfl rfl rfl ?_
    simp [Tasks.told, Tasks.pending, hl, commands, hc]
  | @report a rest hl hc =>
    refine guarded_frame h (fun e he => he) (fun e he => Or.inl he) rfl rfl rfl ?_
    simp [Tasks.told, Tasks.pending, hl, commands, hc]
  | deliver hb hr =>
    refine guarded_frame h (fun e he => he) (fun e he => Or.inl he) rfl rfl rfl ?_
    simp [Tasks.told, Tasks.pending, hb]
  | @refuse e rest hb he hn =>
    have hdead := FsmHeartbeat.step_none hn (h.samples e (by simp [he]))
    constructor
    · intro e' he'
      exact h.samples e' (by rw [he]; exact List.mem_cons_of_mem _ he')
    · intro _ hd
      exact absurd hdead hd
  | @advance e rest fsm l hb he hn =>
    -- whatever the watchdog does with older commands, the new list starts it last
    constructor
    · intro e' he'
      rw [Tasks.sendActions_events] at he'
      exact h.samples e' (by rw [he]; exact List.mem_cons_of_mem _ he')
    · intro _ hd
      rw [Tasks.sendActions_fsm] at hd
      right
      unfold Tasks.told
      rw [Tasks.sendActions_timer, Tasks.sendActions_timerQueue, Tasks.pending_sendActions,
        commands_append, ← List.append_assoc]
      · exact Countdown.armed_of_settle _ (FsmHeartbeat.step_starts hn hd)
      · exact hb
  | @receive c rest timer hq ht =>
    refine ⟨h.samples, fun htaken hd => ?_⟩
    rcases h.armed htaken hd with he | harmed
    · exact Or.inl he
    · right
      unfold Tasks.told at harmed
      rw [hq, List.map_cons, ← timerCmd_kind s.beats, List.cons_append] at harmed
      exact Countdown.armed_receive harmed ht
  | @expire timer out ht =>
    constructor
    · intro e he
      rcases List.mem_append.mp he with he | he
      · exact h.samples e he
      · cases out with
        | none => cases he
        | some beats =>
          rw [List.mem_singleton.mp he]
          rfl
    · intro _ _
      cases out with
      | none =>
        -- without room the expiry is still to be delivered
        obtain ⟨-, a, rfl⟩ := Countdown.expire_none ht
        exact Or.inr trivial
      | some beats => exact Or.inl (List.mem_append_right _ (List.mem_singleton_self _))

/-- A transition that leads to a dead server says that the server is lost. -/
theorem status_of_dead {m m' : FsmHeartbeat} {e : Event} {l : List Action}
    (h : m.step e = some (m', l)) (hd : m'.state = .deadServer) : m'.status = .disconnected := by
  obtain ⟨state, oldStatus, status⟩ := m
  cases state <;> cases e <;>
    simp only [FsmHeartbeat.step, FsmHeartbeat.stepInner, Option.map_some, Option.map_none,
      Option.some.injEq, Prod.mk.injEq, reduceCtorEq] at h <;>
    obtain ⟨rfl, rfl⟩ := h <;>
    first
    | rfl
    | cases hd

theorem honest_frame (h : Honest s) (hfsm : s'.fsm = s.fsm) (hsaid : s'.said = s.said) :
    Honest s' where
  settled := hfsm ▸ h.settled
  last := by
    rw [hfsm, hsaid]
    exact h.last
  dead := by
    rw [hfsm]
    exact h.dead

theorem honest_step (h : Honest s) (hm : Move cap s i s') : Honest s' := by
  cases hm with
  | take hl ha =>
    refine honest_frame h rfl ?_
    simp [Tasks.said, Tasks.pending, hl, ha]
  | @tell a c rest hl hc hr =>
    have hsilent : a.reports = none := by cases a <;> first | rfl | cases hc
    refine honest_frame h rfl ?_
    simp [Tasks.said, Tasks.pending, hl, hsilent]
  | @report a rest hl hc =>
    refine honest_frame h rfl ?_
    unfold Tasks.said Tasks.pending
    simp only [hl, List.cons_append, List.filterMap_cons]
    cases a.reports <;> simp
  | deliver hb hr =>
    refine honest_frame h rfl ?_
    simp [Tasks.said, Tasks.pending, hb]
  | @advance e rest fsm l hb he hn =>
    obtain ⟨hsettled, hreports⟩ := FsmHeartbeat.step_reports h.settled hn
    have hcore : (Tasks.sendActions cap { s.counted e rest with fsm } l).toCore = s.toCore := by
      unfold Tasks.sendActions
      split <;> rfl
    have hsaid : (Tasks.sendActions cap { s.counted e rest with fsm } l).said =
        s.said ++ if fsm.status = s.fsm.status then [] else [fsm.status] := by
      unfold Tasks.said
      rw [hcore, Tasks.pending_sendActions, List.filterMap_append, hreports, List.append_assoc]
      · rfl
      · exact hb
    constructor
    · rw [Tasks.sendActions_fsm]
      exact hsettled
    · rw [hsaid, Tasks.sendActions_fsm]
      show _ = fsm.status
      by_cases hsame : fsm.status = s.fsm.status
      · rw [if_pos hsame, List.append_nil, hsame]
        exact h.last
      · rw [if_neg hsame]
        simp
    · rw [Tasks.sendActions_fsm]
      exact status_of_dead hn
  | _ => exact honest_frame h rfl rfl

/-- A heartbeat that is heard reaches the machine. -/
theorem heard_step {t : List (Tasks × Label)}
    (h : heard t = 0 ∨ 0 < s.taken ∨ s.events ≠ [] ∨ s.held = true) (hm : Move cap s i s') :
    heard (t ++ [(s, i)]) = 0 ∨ 0 < s'.taken ∨ s'.events ≠ [] ∨ s'.held = true := by
  have hother : i.isBeat = false → heard (t ++ [(s, i)]) = heard t := by
    intro hi
    unfold heard
    rw [List.countP_append, List.countP_singleton]
    simp [hi]
  cases hm with
  | beat hl hr => exact Or.inr (Or.inr (Or.inl (by simp)))
  | hold hl hr => exact Or.inr (Or.inr (Or.inr rfl))
  | sendHeld hr => exact Or.inr (Or.inr (Or.inl (by simp)))
  | refuse hb he hn => exact Or.inr (Or.inl (Nat.succ_pos _))
  | advance hb he hn =>
    rw [Tasks.sendActions_taken]
    exact Or.inr (Or.inl (Nat.succ_pos _))
  | expire ht =>
    rw [hother rfl]
    refine h.imp_right (Or.imp_right (Or.imp_left fun hne hnil => hne ?_))
    exact (List.append_eq_nil_iff.mp hnil).1
  | _ =>
    rw [hother rfl]
    exact h

end Steps

/-! ## Where no task can go on -/

/-- No task can go on without a heartbeat of the server. -/
def Tasks.Rests (cap : Option Nat) (s : Tasks) : Prop :=
  ∀ i : Label, i.isOwn = true → s.step cap i = none

/-- `run_fsm_heartbeat` waits to deliver a list and `heartbeat` to send an event, or `heartbeat`
waits to command a watchdog that waits to deliver its timeout. -/
structure Jammed (cap : Option Nat) (s : Tasks) : Prop where
  holds : s.outbox.isSome = true
  actions : room cap s.actions = false
  events : room cap s.events = false
  waits : s.held = true ∨ room cap s.timerQueue = false ∧ ∃ beats, s.timer = .firing beats

section Rests

variable {cap : Option Nat} {s : Tasks}

theorem timer_of_rests (h : s.Rests cap) :
    s.timer = .idle ∨ room cap s.events = false ∧ ∃ beats, s.timer = .firing beats := by
  have hexpire : s.timerExpire cap = none := h .timerExpire rfl
  unfold Tasks.timerExpire at hexpire
  rw [Option.map_eq_none_iff] at hexpire
  exact Countdown.expire_eq_none.mp hexpire

theorem timerQueue_of_rests (h : s.Rests cap) (hidle : s.timer = .idle) : s.timerQueue = [] := by
  by_contra hne
  obtain ⟨c, rest, hq⟩ := List.exists_cons_of_ne_nil hne
  have hreceive : s.timerReceive = none := h .timerReceive rfl
  simp only [Tasks.timerReceive, hq, hidle, Option.map_eq_none_iff] at hreceive
  exact Countdown.receive_idle _ hreceive

theorem events_of_held (h : s.Rests cap) (hheld : s.held = true) : room cap s.events = false := by
  by_contra hr
  have hsend : s.sendHeld cap = none := h .sendHeld rfl
  simp [Tasks.sendHeld, hheld, hr] at hsend

/-- `heartbeat` has nothing to execute, or waits for room. -/
theorem list_of_rests (h : s.Rests cap) : s.list = [] ∨ room cap s.timerQueue = false := by
  have hwork : s.work cap = none := h .work rfl
  rcases hl : s.list with _ | ⟨a, rest⟩
  · exact Or.inl rfl
  · right
    by_contra hr
    cases hc : a.toTimer <;> simp [Tasks.work, hl, hc, hr] at hwork

/-- `heartbeat` takes a list unless it holds an event or another list. -/
theorem actions_of_rests (h : s.Rests cap) (hheld : s.held = false) (hl : s.list = []) :
    s.actions = [] := by
  by_contra hne
  obtain ⟨l, rest, hq⟩ := List.exists_cons_of_ne_nil hne
  have htake : s.takeActions = none := h .takeActions rfl
  simp [Tasks.takeActions, hq, hheld, hl] at htake

/-- A full command channel belongs to a watchdog that waits for room. -/
theorem firing_of_full (hcap : cap ≠ some 0) (h : s.Rests cap)
    (hfull : room cap s.timerQueue = false) :
    room cap s.events = false ∧ ∃ beats, s.timer = .firing beats := by
  rcases timer_of_rests h with hidle | hfiring
  · exact absurd (timerQueue_of_rests h hidle) (ne_nil_of_room hcap hfull)
  · exact hfiring

theorem jammed_of_rests (hcap : cap ≠ some 0) (h : s.Rests cap) (hb : s.outbox.isSome = true) :
    Jammed cap s := by
  obtain ⟨l, hl⟩ := Option.isSome_iff_exists.mp hb
  have hrun : s.runFsm cap = none := h .runFsm rfl
  have hactions : room cap s.actions = false := by
    by_contra hr
    simp [Tasks.runFsm, hl, hr] at hrun
  by_cases hheld : s.held = true
  · exact ⟨hb, hactions, events_of_held h hheld, Or.inl hheld⟩
  · rcases list_of_rests h with hlist | hfull
    · have hnil := actions_of_rests h (Bool.eq_false_iff.mpr hheld) hlist
      exact absurd hnil (ne_nil_of_room hcap hactions)
    · obtain ⟨hevents, hfiring⟩ := firing_of_full hcap h hfull
      exact ⟨hb, hactions, hevents, Or.inr ⟨hfull, hfiring⟩⟩

/-- Where `run_fsm_heartbeat` holds no list, nothing is on its way. -/
theorem nothing_of_rests (hcap : cap ≠ some 0) (h : s.Rests cap) (hb : s.outbox = none) :
    s.events = [] ∧ s.held = false ∧ s.pending = [] ∧ s.timer = .idle ∧ s.timerQueue = [] := by
  have hevents : s.events = [] := by
    by_contra hne
    obtain ⟨e, rest, he⟩ := List.exists_cons_of_ne_nil hne
    have hrun : s.runFsm cap = none := h .runFsm rfl
    cases hn : s.fsm.step e <;> simp [Tasks.runFsm, hb, he, hn] at hrun
  have hroom : ¬ room cap s.events = false := by
    rw [hevents, room_nil hcap]
    decide
  have hheld : s.held = false := Bool.eq_false_iff.mpr fun hheld => hroom (events_of_held h hheld)
  have hidle : s.timer = .idle := (timer_of_rests h).resolve_right fun hfiring => hroom hfiring.1
  have hlist : s.list = [] :=
    (list_of_rests h).resolve_right fun hfull => hroom (firing_of_full hcap h hfull).1
  have hactions := actions_of_rests h hheld hlist
  refine ⟨hevents, hheld, ?_, hidle, timerQueue_of_rests h hidle⟩
  simp [Tasks.pending, hlist, hactions, hb]

end Rests

/-! ## The law -/

end EdgeGateway.Heartbeat
