-- The three tasks of the heartbeat as one machine: `heartbeat` passes on the
-- heartbeats of the server and executes action lists, `run_fsm_heartbeat`
-- turns events into lists, the watchdog turns `InitTimer` into `Timeout`.
import EdgeGateway.Heartbeat.Debounce
import EdgeGateway.Lib.Actors
import EdgeGateway.Lib.Machine

namespace EdgeGateway.Heartbeat

open EdgeGateway.Lib EdgeGateway.Message

/-! ## The configuration -/

/-- The tasks and the channels between them. `outbox` is a list that
`run_fsm_heartbeat` holds while its channel is full, `held` an
`Event::Heartbeat` that `heartbeat` holds, and `list` what `heartbeat` has
still to execute. No task reads the last three fields: how many events and
how many heartbeats `run_fsm_heartbeat` has taken, and for each countdown
that has ended the number of heartbeats taken when it was started. -/
structure Tasks where
  fsm : FsmHeartbeat
  outbox : Option (List Action)
  events : List Event
  actions : List (List Action)
  held : Bool
  list : List Action
  timerQueue : List Event
  timer : Countdown Nat
  toCore : List ServerStatus
  taken : Nat
  beats : Nat
  expired : List Nat
  deriving Repr, DecidableEq

/-- A step is a task that goes on, or a heartbeat of the server that the
task `heartbeat` takes. -/
inductive Label where
  | heartbeat
  | sendHeld
  | takeActions
  | work
  | runFsm
  | timerReceive
  | timerExpire
  deriving Repr, DecidableEq

/-- What the task `heartbeat` tells the watchdog when it executes an action. -/
def Action.toTimer : Action → Option Event
  | .onEntry .startingWait => some .initTimer
  | .onEntry .notHeartbeatYet => some .initTimer
  | .onEntry .itsAlive => some .initTimer
  | .onEntry .deadServer => none
  | .sendStatusConditional _ _ => none
  | .stopTimer => some .stopTimer

/-! ## The tasks -/

namespace Tasks

def start : Tasks where
  fsm := FsmHeartbeat.new
  outbox := none
  events := []
  actions := []
  held := false
  list := []
  timerQueue := []
  timer := .idle
  toCore := []
  taken := 0
  beats := 0
  expired := []

/-- `heartbeat` takes a heartbeat of the server; a full channel leaves it
holding the event. -/
def heartbeat (cap : Option Nat) (s : Tasks) : Option Tasks :=
  if s.held = false ∧ s.list = [] then
    if room cap s.events then some { s with events := s.events ++ [.heartbeat] }
    else some { s with held := true }
  else none

/-- `heartbeat` delivers the event it holds. -/
def sendHeld (cap : Option Nat) (s : Tasks) : Option Tasks :=
  if s.held = true ∧ room cap s.events = true then
    some { s with events := s.events ++ [.heartbeat], held := false }
  else none

/-- `heartbeat` takes the next action list. -/
def takeActions (s : Tasks) : Option Tasks :=
  match s.actions with
  | [] => none
  | l :: rest =>
    if s.held = false ∧ s.list = [] then some { s with actions := rest, list := l } else none

/-- `heartbeat` executes the next action of its list. The channel to the
core is always drained. -/
def work (cap : Option Nat) (s : Tasks) : Option Tasks :=
  match s.list with
  | [] => none
  | a :: rest =>
    match a.toTimer with
    | some c =>
      if room cap s.timerQueue then
        some { s with timerQueue := s.timerQueue ++ [c], list := rest }
      else none
    | none => some { s with toCore := s.toCore ++ a.reports.toList, list := rest }

/-- `tx_actions.send`: a full channel leaves `run_fsm_heartbeat` holding the
list. -/
def sendActions (cap : Option Nat) (s : Tasks) (l : List Action) : Tasks :=
  if room cap s.actions then { s with actions := s.actions ++ [l] } else { s with outbox := some l }

/-- `run_fsm_heartbeat` has taken an event from its channel. -/
def counted (s : Tasks) (e : Event) (rest : List Event) : Tasks :=
  { s with
    events := rest
    taken := s.taken + 1
    beats := if e = .heartbeat then s.beats + 1 else s.beats }

/-- `run_fsm_heartbeat` delivers the list it holds, or takes the next event;
an invalid transition is only logged. -/
def runFsm (cap : Option Nat) (s : Tasks) : Option Tasks :=
  match s.outbox with
  | some l =>
    if room cap s.actions then some { s with actions := s.actions ++ [l], outbox := none }
    else none
  | none =>
    match s.events with
    | [] => none
    | e :: rest =>
      match s.fsm.step e with
      | none => some (s.counted e rest)
      | some (fsm, l) => some (sendActions cap { s.counted e rest with fsm } l)

/-- What an event means on the channel of the watchdog. A countdown carries
the number of heartbeats that were taken when it was started. -/
def timerCmd (beats : Nat) : Event → Cmd Nat
  | .initTimer => .start beats
  | .stopTimer => .stop
  | .heartbeat => .other
  | .timeout => .other

def timerReceive (s : Tasks) : Option Tasks :=
  match s.timerQueue with
  | [] => none
  | c :: rest =>
    (s.timer.receive (timerCmd s.beats c)).map (fun timer => { s with timerQueue := rest, timer })

def timerExpire (cap : Option Nat) (s : Tasks) : Option Tasks :=
  (s.timer.expire (room cap s.events)).map (fun out =>
    { s with
      timer := out.1
      events := s.events ++ (out.2.map (fun _ => Event.timeout)).toList
      expired := s.expired ++ out.2.toList })

def step (cap : Option Nat) (s : Tasks) : Label → Option Tasks
  | .heartbeat => s.heartbeat cap
  | .sendHeld => s.sendHeld cap
  | .takeActions => s.takeActions
  | .work => s.work cap
  | .runFsm => s.runFsm cap
  | .timerReceive => s.timerReceive
  | .timerExpire => s.timerExpire cap

end Tasks

/-- The tasks over channels of capacity `cap`. -/
def machine (cap : Option Nat) : Machine Tasks Label where
  init := fun s => s = Tasks.start
  step := Tasks.step cap

/-! ## What a step can do -/

/-- `Move cap s i s'`: the step `i` leads from `s` to `s'`. -/
inductive Move (cap : Option Nat) : Tasks → Label → Tasks → Prop where
  | beat {s : Tasks} (hl : s.list = []) (hr : room cap s.events = true) :
      Move cap s .heartbeat { s with events := s.events ++ [.heartbeat] }
  | hold {s : Tasks} (hl : s.list = []) (hr : room cap s.events = false) :
      Move cap s .heartbeat { s with held := true }
  | sendHeld {s : Tasks} (hr : room cap s.events = true) :
      Move cap s .sendHeld { s with events := s.events ++ [.heartbeat], held := false }
  | take {s : Tasks} {l : List Action} {rest : List (List Action)} (hl : s.list = [])
      (ha : s.actions = l :: rest) :
      Move cap s .takeActions { s with actions := rest, list := l }
  | tell {s : Tasks} {a : Action} {c : Event} {rest : List Action} (hl : s.list = a :: rest)
      (hc : a.toTimer = some c) (hr : room cap s.timerQueue = true) :
      Move cap s .work { s with timerQueue := s.timerQueue ++ [c], list := rest }
  | report {s : Tasks} {a : Action} {rest : List Action} (hl : s.list = a :: rest)
      (hc : a.toTimer = none) :
      Move cap s .work { s with toCore := s.toCore ++ a.reports.toList, list := rest }
  | deliver {s : Tasks} {l : List Action} (hb : s.outbox = some l)
      (hr : room cap s.actions = true) :
      Move cap s .runFsm { s with actions := s.actions ++ [l], outbox := none }
  | refuse {s : Tasks} {e : Event} {rest : List Event} (hb : s.outbox = none)
      (he : s.events = e :: rest) (hn : s.fsm.step e = none) :
      Move cap s .runFsm (s.counted e rest)
  | advance {s : Tasks} {e : Event} {rest : List Event} {fsm : FsmHeartbeat} {l : List Action}
      (hb : s.outbox = none) (he : s.events = e :: rest) (hn : s.fsm.step e = some (fsm, l)) :
      Move cap s .runFsm (Tasks.sendActions cap { s.counted e rest with fsm } l)
  | receive {s : Tasks} {c : Event} {rest : List Event} {timer : Countdown Nat}
      (hq : s.timerQueue = c :: rest)
      (ht : s.timer.receive (Tasks.timerCmd s.beats c) = some timer) :
      Move cap s .timerReceive { s with timerQueue := rest, timer }
  | expire {s : Tasks} {timer : Countdown Nat} {out : Option Nat}
      (ht : s.timer.expire (room cap s.events) = some (timer, out)) :
      Move cap s .timerExpire
        { s with
          timer
          events := s.events ++ (out.map (fun _ => Event.timeout)).toList
          expired := s.expired ++ out.toList }

section Inversion

variable {cap : Option Nat} {s s' : Tasks}

theorem move_of_heartbeat (h : s.heartbeat cap = some s') : Move cap s .heartbeat s' := by
  unfold Tasks.heartbeat at h
  rw [Option.ite_none_right_eq_some] at h
  obtain ⟨⟨-, hl⟩, h⟩ := h
  rcases hr : room cap s.events with _ | _
  · rw [hr, if_neg Bool.false_ne_true, Option.some.injEq] at h
    exact h ▸ .hold hl hr
  · rw [hr, if_pos rfl, Option.some.injEq] at h
    exact h ▸ .beat hl hr

theorem move_of_takeActions (h : s.takeActions = some s') : Move cap s .takeActions s' := by
  unfold Tasks.takeActions at h
  rcases ha : s.actions with _ | ⟨l, rest⟩
  · simp [ha] at h
  · rw [ha, Option.ite_none_right_eq_some, Option.some.injEq] at h
    exact h.2 ▸ .take h.1.2 ha

theorem move_of_work (h : s.work cap = some s') : Move cap s .work s' := by
  unfold Tasks.work at h
  rcases hl : s.list with _ | ⟨a, rest⟩
  · simp [hl] at h
  · rcases hc : a.toTimer with _ | c
    · simp only [hl, hc, Option.some.injEq] at h
      exact h ▸ .report hl hc
    · simp only [hl, hc, Option.ite_none_right_eq_some, Option.some.injEq] at h
      exact h.2 ▸ .tell hl hc h.1

theorem move_of_runFsm (h : s.runFsm cap = some s') : Move cap s .runFsm s' := by
  unfold Tasks.runFsm at h
  rcases hb : s.outbox with _ | l
  · rcases he : s.events with _ | ⟨e, rest⟩
    · simp [hb, he] at h
    · rcases hn : s.fsm.step e with _ | ⟨fsm, l⟩
      · simp only [hb, he, hn, Option.some.injEq] at h
        exact h ▸ .refuse hb he hn
      · simp only [hb, he, hn, Option.some.injEq] at h
        exact h ▸ .advance hb he hn
  · simp only [hb, Option.ite_none_right_eq_some, Option.some.injEq] at h
    exact h.2 ▸ .deliver hb h.1

/-- Every step of the machine is a move. -/
theorem move_of_step {i : Label} (h : (machine cap).step s i = some s') : Move cap s i s' := by
  cases i with
  | heartbeat => exact move_of_heartbeat h
  | sendHeld =>
    simp only [machine, Tasks.step, Tasks.sendHeld, Option.ite_none_right_eq_some,
      Option.some.injEq] at h
    exact h.2 ▸ .sendHeld h.1.2
  | takeActions => exact move_of_takeActions h
  | work => exact move_of_work h
  | runFsm => exact move_of_runFsm h
  | timerReceive =>
    rcases hq : s.timerQueue with _ | ⟨c, rest⟩
    · simp [machine, Tasks.step, Tasks.timerReceive, hq] at h
    · simp only [machine, Tasks.step, Tasks.timerReceive, hq, Option.map_eq_some_iff] at h
      obtain ⟨timer, ht, rfl⟩ := h
      exact .receive hq ht
  | timerExpire =>
    simp only [machine, Tasks.step, Tasks.timerExpire, Option.map_eq_some_iff] at h
    obtain ⟨⟨timer, out⟩, ht, rfl⟩ := h
    exact .expire ht

end Inversion

/-! ## The lists on their way -/

namespace Tasks

/-- The actions that `run_fsm_heartbeat` has decided and `heartbeat` has still
to execute, in their order. -/
def pending (s : Tasks) : List Action := s.list ++ s.actions.flatten ++ s.outbox.getD []

section SendActions

variable (cap : Option Nat) (s : Tasks) (l : List Action)

@[simp] theorem sendActions_fsm : (sendActions cap s l).fsm = s.fsm := by
  unfold sendActions; split <;> rfl

@[simp] theorem sendActions_events : (sendActions cap s l).events = s.events := by
  unfold sendActions; split <;> rfl

@[simp] theorem sendActions_timerQueue : (sendActions cap s l).timerQueue = s.timerQueue := by
  unfold sendActions; split <;> rfl

@[simp] theorem sendActions_timer : (sendActions cap s l).timer = s.timer := by
  unfold sendActions; split <;> rfl

@[simp] theorem sendActions_taken : (sendActions cap s l).taken = s.taken := by
  unfold sendActions; split <;> rfl

@[simp] theorem sendActions_beats : (sendActions cap s l).beats = s.beats := by
  unfold sendActions; split <;> rfl

@[simp] theorem sendActions_expired : (sendActions cap s l).expired = s.expired := by
  unfold sendActions; split <;> rfl

theorem pending_sendActions {s : Tasks} (hb : s.outbox = none) :
    (sendActions cap s l).pending = s.pending ++ l := by
  unfold sendActions pending
  split <;> simp [hb]

end SendActions

end Tasks

end EdgeGateway.Heartbeat
