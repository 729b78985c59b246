-- The three tasks as one machine. `fsm` takes commands and action lists,
-- `run_fsm` turns events into lists, the watchdog turns `InitTimer` into
-- `Timeout`; `Move` says once what each step can do.
import EdgeGateway.Fsm.Logic
import EdgeGateway.Fsm.Modes

namespace EdgeGateway.Fsm

open EdgeGateway.Lib EdgeGateway.Message EdgeGateway.Networks EdgeGateway.Quorum

/-! ## The configuration -/

/-- A hub message that `fsm` has taken, with the visit of the machine and
the epoch of that moment. -/
structure Heard where
  visit : Nat
  epoch : UInt32
  msg : HubMessage
  deriving Repr, DecidableEq

/-- What the laws have to remember. No task reads it.

`visit` counts the state changes of the machine, `serving` is the visit
that produced the list under execution, `entered` the visit whose entry
last set the state of the session, and a mark is the length that `heard`
had when its vote set was last cleared. -/
structure Past where
  visit : Nat
  serving : Nat
  entered : Nat
  heard : List Heard
  handshakeMark : Nat
  emptyMark : Nat
  deriving Repr, DecidableEq

/-- The tasks and the channels between them. An element of `events` carries
the visit that its countdown was started for when it is a `Timeout`; a
list carries the visit that produced it. -/
structure Runtime where
  state : FsmState
  outbox : Option (Nat × List Action)
  events : List (Event × Nat)
  actions : List (Nat × List Action)
  timerQueue : List (Event × Nat)
  timer : Countdown Nat
  currentEpoch : UInt32
  session : UpdateSession
  ops : List Op
  manager : NetworkManager
  past : Past

/-- A step is a task that goes on, or another task changing the cache. -/
inductive Label where
  | command (c : FsmServiceCommand)
  | takeActions
  | work (now : Int64) (jitter : Fin 11)
  | runFsm
  | timerReceive
  | timerExpire
  | network (c : NetworkManager.Change)
  deriving Repr

/-- The action sets the state of the session. -/
def Action.sets : Action → Option StateOfSession
  | .onEntryBalance .inHandshake => some .inHandshake
  | .onEntryBalance .outHandshake => some .outHandshake
  | .onEntryQuorum .checkQuorumIn => some .quorum
  | .onEntryQuorum .checkQuorumOut => some .quorum
  | .onEntryQuorum .repeatHandshakeIn => some .repeatHandshake
  | .onEntryQuorum .repeatHandshakeOut => some .repeatHandshake
  | .onEntryPhase .alert => some .phaseAlert
  | .onEntryPhase .data => some .phaseData
  | .onEntryPhase .monitor => some .phaseMonitor
  | .onEntrySafeMode => some .safeMode
  | _ => none

def Action.resetsHandshake : Action → Bool
  | .onEntryQuorum .repeatHandshakeIn => true
  | .onEntryQuorum .repeatHandshakeOut => true
  | .onEntryPhase _ => true
  | _ => false

def Action.resetsEmpty : Action → Bool
  | .onEntryPhase _ => true
  | .onEntrySafeMode => true
  | _ => false

namespace Past

def hear (p : Past) (epoch : UInt32) : FsmServiceCommand → Past
  | .fromHub msg => { p with heard := p.heard ++ [⟨p.visit, epoch, msg⟩] }
  | _ => p

/-- Hearing a message adds it to `heard` and changes nothing else. -/
theorem hear_eq (p : Past) (epoch : UInt32) (c : FsmServiceCommand) :
    p.hear epoch c = { p with heard := (p.hear epoch c).heard } := by
  cases c <;> rfl

@[simp] theorem hear_visit (p : Past) (epoch : UInt32) (c : FsmServiceCommand) :
    (p.hear epoch c).visit = p.visit := by rw [hear_eq]

def execute (p : Past) (a : Action) : Past :=
  { p with
    entered := if a.sets.isSome then p.serving else p.entered
    handshakeMark := if a.resetsHandshake then p.heard.length else p.handshakeMark
    emptyMark := if a.resetsEmpty then p.heard.length else p.emptyMark }

end Past

/-! ## The tasks -/

namespace Runtime

/-- `tx_actions.send`: a full channel leaves `run_fsm` holding the list. -/
def sendActions (cap : Option Nat) (r : Runtime) (l : List Action) : Runtime :=
  if room cap r.actions then { r with actions := r.actions ++ [(r.past.visit, l)] }
  else { r with outbox := some (r.past.visit, l) }

/-- `handle_transition`: an invalid one is only logged. -/
def handleTransition (cap : Option Nat) (r : Runtime) : Transition → Runtime
  | .valid t =>
    let visit := if t.changeState = r.state then r.past.visit else r.past.visit + 1
    sendActions cap { r with state := t.changeState, past := { r.past with visit } } t.actions
  | .invalid _ => r

/-- The tasks before their first step. -/
def spawn (manager : NetworkManager) : Runtime where
  state := FsmState.new
  outbox := none
  events := []
  actions := []
  timerQueue := []
  timer := .idle
  currentEpoch := 0
  session := UpdateSession.new
  ops := []
  manager := manager
  past := ⟨0, 0, 0, [], 0, 0⟩

/-- `run_fsm` begins with the transition of `Event::Start`. -/
def start (cap : Option Nat) (manager : NetworkManager) : Runtime :=
  (spawn manager).handleTransition cap (FsmState.new.step .start)

/-- The epoch, the session and the sends that a command leaves. -/
def afterCommand (r : Runtime) (c : FsmServiceCommand) (out : UInt32 × UpdateSession × List Op) :
    Runtime :=
  { r with
    currentEpoch := out.1, session := out.2.1, ops := out.2.2
    past := r.past.hear r.currentEpoch c }

/-- The session and the sends that an action leaves. -/
def afterAct (r : Runtime) (a : Action) (rest : List Op) (out : UpdateSession × List Op) :
    Runtime :=
  { r with session := out.1, ops := out.2 ++ rest, past := r.past.execute a }

/-- `fsm` takes a command, once it has nothing left to do. -/
def command (r : Runtime) (c : FsmServiceCommand) : Option Runtime :=
  match r.ops with
  | [] => some (r.afterCommand c (onCommand r.manager r.currentEpoch r.session c))
  | _ :: _ => none

/-- `fsm` takes the next action list. -/
def takeActions (r : Runtime) : Option Runtime :=
  match r.ops, r.actions with
  | [], (visit, l) :: rest =>
    some { r with
      actions := rest, ops := l.map .act, past := { r.past with serving := visit } }
  | _, _ => none

/-- `fsm` goes on with what it has to do. A send needs room in its channel;
the channels to other services are always drained. -/
def work (ctx : AppContext) (cap : Option Nat) (r : Runtime) (now : Int64) (jitter : Fin 11) :
    Option Runtime :=
  match r.ops with
  | [] => none
  | .act a :: rest =>
    some (r.afterAct a rest
      (handleAction ctx r.manager r.currentEpoch r.session now jitter.val.toUInt32 a))
  | .toFsm e :: rest =>
    if room cap r.events then some { r with events := r.events ++ [(e, 0)], ops := rest }
    else none
  | .toTimer e :: rest =>
    if room cap r.timerQueue then
      some { r with timerQueue := r.timerQueue ++ [(e, r.past.serving)], ops := rest }
    else none
  | .toCore _ :: rest => some { r with ops := rest }
  | .toHeartbeat _ :: rest => some { r with ops := rest }
  | .toEdgeState _ :: rest => some { r with ops := rest }

/-- `run_fsm` delivers the list it holds, or takes the next event. -/
def runFsm (cap : Option Nat) (r : Runtime) : Option Runtime :=
  match r.outbox with
  | some l =>
    if room cap r.actions then some { r with actions := r.actions ++ [l], outbox := none }
    else none
  | none =>
    match r.events with
    | [] => none
    | (e, _) :: rest =>
      some (handleTransition cap { r with events := rest } (r.state.step e))

/-- What an event means on the channel of the watchdog. -/
def timerCmd : Event × Nat → Cmd Nat
  | (.initTimer _, visit) => .start visit
  | (.stopTimer, _) => .stop
  | _ => .other

def timerReceive (r : Runtime) : Option Runtime :=
  match r.timerQueue with
  | [] => none
  | c :: rest =>
    (r.timer.receive (timerCmd c)).map (fun timer => { r with timerQueue := rest, timer })

def timerExpire (cap : Option Nat) (r : Runtime) : Option Runtime :=
  (r.timer.expire (room cap r.events)).map (fun out =>
    { r with
      timer := out.1
      events := r.events ++ (out.2.map (fun visit => (Event.timeout, visit))).toList })

def step (ctx : AppContext) (cap : Option Nat) (r : Runtime) : Label → Option Runtime
  | .command c => r.command c
  | .takeActions => r.takeActions
  | .work now jitter => r.work ctx cap now jitter
  | .runFsm => r.runFsm cap
  | .timerReceive => r.timerReceive
  | .timerExpire => r.timerExpire cap
  | .network c => some { r with manager := r.manager.change c }

end Runtime

/-- The runtime over channels of capacity `cap`, from any cache. -/
def machine (ctx : AppContext) (cap : Option Nat) : Machine Runtime Label where
  init := fun r => ∃ manager, r = Runtime.start cap manager
  step := Runtime.step ctx cap

theorem init_start (ctx : AppContext) (cap : Option Nat) (manager : NetworkManager) :
    (machine ctx cap).init (Runtime.start cap manager) := ⟨manager, rfl⟩

/-! ## The lists on their way -/

namespace Runtime

/-- The lists that `run_fsm` has produced and `fsm` has not taken. -/
def queued (r : Runtime) : List (Nat × List Action) := r.actions ++ r.outbox.toList

@[simp] theorem sendActions_state (cap : Option Nat) (r : Runtime) (l : List Action) :
    (sendActions cap r l).state = r.state := by unfold sendActions; split <;> rfl

@[simp] theorem sendActions_events (cap : Option Nat) (r : Runtime) (l : List Action) :
    (sendActions cap r l).events = r.events := by unfold sendActions; split <;> rfl

@[simp] theorem sendActions_timerQueue (cap : Option Nat) (r : Runtime) (l : List Action) :
    (sendActions cap r l).timerQueue = r.timerQueue := by unfold sendActions; split <;> rfl

@[simp] theorem sendActions_timer (cap : Option Nat) (r : Runtime) (l : List Action) :
    (sendActions cap r l).timer = r.timer := by unfold sendActions; split <;> rfl

@[simp] theorem sendActions_currentEpoch (cap : Option Nat) (r : Runtime) (l : List Action) :
    (sendActions cap r l).currentEpoch = r.currentEpoch := by unfold sendActions; split <;> rfl

@[simp] theorem sendActions_session (cap : Option Nat) (r : Runtime) (l : List Action) :
    (sendActions cap r l).session = r.session := by unfold sendActions; split <;> rfl

@[simp] theorem sendActions_ops (cap : Option Nat) (r : Runtime) (l : List Action) :
    (sendActions cap r l).ops = r.ops := by unfold sendActions; split <;> rfl

@[simp] theorem sendActions_manager (cap : Option Nat) (r : Runtime) (l : List Action) :
    (sendActions cap r l).manager = r.manager := by unfold sendActions; split <;> rfl

@[simp] theorem sendActions_past (cap : Option Nat) (r : Runtime) (l : List Action) :
    (sendActions cap r l).past = r.past := by unfold sendActions; split <;> rfl

theorem queued_sendActions {cap : Option Nat} {r : Runtime} (l : List Action)
    (hb : r.outbox = none) : (sendActions cap r l).queued = r.queued ++ [(r.past.visit, l)] := by
  unfold sendActions queued
  split <;> simp [hb]

/-- The machine has left mode `m` for `m'` and its list is on the way. -/
def advanced (cap : Option Nat) (r : Runtime) (m m' : Mode) (rest : List (Event × Nat))
    (l : List Action) : Runtime :=
  sendActions cap
    { r with
      events := rest, state := m'.state
      past := { r.past with visit := if m' = m then r.past.visit else r.past.visit + 1 } } l

section Advanced

variable (cap : Option Nat) (r : Runtime) (m m' : Mode) (rest : List (Event × Nat))
  (l : List Action)

@[simp] theorem advanced_state : (r.advanced cap m m' rest l).state = m'.state :=
  sendActions_state ..

@[simp] theorem advanced_events : (r.advanced cap m m' rest l).events = rest :=
  sendActions_events ..

@[simp] theorem advanced_timerQueue : (r.advanced cap m m' rest l).timerQueue = r.timerQueue :=
  sendActions_timerQueue ..

@[simp] theorem advanced_timer : (r.advanced cap m m' rest l).timer = r.timer :=
  sendActions_timer ..

@[simp] theorem advanced_currentEpoch :
    (r.advanced cap m m' rest l).currentEpoch = r.currentEpoch := sendActions_currentEpoch ..

@[simp] theorem advanced_session : (r.advanced cap m m' rest l).session = r.session :=
  sendActions_session ..

@[simp] theorem advanced_ops : (r.advanced cap m m' rest l).ops = r.ops := sendActions_ops ..

@[simp] theorem advanced_manager : (r.advanced cap m m' rest l).manager = r.manager :=
  sendActions_manager ..

@[simp] theorem advanced_past : (r.advanced cap m m' rest l).past =
    { r.past with visit := if m' = m then r.past.visit else r.past.visit + 1 } :=
  sendActions_past ..

theorem queued_advanced {r : Runtime} (hb : r.outbox = none) :
    (r.advanced cap m m' rest l).queued =
      r.queued ++ [(if m' = m then r.past.visit else r.past.visit + 1, l)] := by
  refine queued_sendActions l ?_
  exact hb

end Advanced

end Runtime

/-! ## What a step can do -/

/-- The step does not change what the runtime tasks share with each other:
a message to another service. -/
def Op.isOutput : Op → Bool
  | .toCore _ => true
  | .toHeartbeat _ => true
  | .toEdgeState _ => true
  | _ => false

/-- `Move ctx cap m r i m' r'`: with the machine in mode `m`, the step `i`
leads from `r` to `r'` and leaves the machine in mode `m'`. -/
inductive Move (ctx : AppContext) (cap : Option Nat) :
    Mode → Runtime → Label → Mode → Runtime → Prop where
  | command {m : Mode} {r : Runtime} {c : FsmServiceCommand} (ho : r.ops = []) :
      Move ctx cap m r (.command c) m
        (r.afterCommand c (onCommand r.manager r.currentEpoch r.session c))
  | take {m : Mode} {r : Runtime} {visit : Nat} {l : List Action} {rest : List (Nat × List Action)}
      (ho : r.ops = []) (ha : r.actions = (visit, l) :: rest) :
      Move ctx cap m r .takeActions m
        { r with actions := rest, ops := l.map .act, past := { r.past with serving := visit } }
  | act {m : Mode} {r : Runtime} {a : Action} {rest : List Op} {now : Int64} {jitter : Fin 11}
      (ho : r.ops = .act a :: rest) :
      Move ctx cap m r (.work now jitter) m
        (r.afterAct a rest
          (handleAction ctx r.manager r.currentEpoch r.session now jitter.val.toUInt32 a))
  | sendFsm {m : Mode} {r : Runtime} {e : Event} {rest : List Op} {now : Int64} {jitter : Fin 11}
      (ho : r.ops = .toFsm e :: rest) (hr : room cap r.events = true) :
      Move ctx cap m r (.work now jitter) m { r with events := r.events ++ [(e, 0)], ops := rest }
  | sendTimer {m : Mode} {r : Runtime} {e : Event} {rest : List Op} {now : Int64}
      {jitter : Fin 11} (ho : r.ops = .toTimer e :: rest) (hr : room cap r.timerQueue = true) :
      Move ctx cap m r (.work now jitter) m
        { r with timerQueue := r.timerQueue ++ [(e, r.past.serving)], ops := rest }
  | output {m : Mode} {r : Runtime} {o : Op} {rest : List Op} {now : Int64} {jitter : Fin 11}
      (ho : r.ops = o :: rest) (hout : o.isOutput = true) :
      Move ctx cap m r (.work now jitter) m { r with ops := rest }
  | deliver {m : Mode} {r : Runtime} {l : Nat × List Action} (hb : r.outbox = some l)
      (hr : room cap r.actions = true) :
      Move ctx cap m r .runFsm m { r with actions := r.actions ++ [l], outbox := none }
  | refuse {m : Mode} {r : Runtime} {e : Event} {v : Nat} {rest : List (Event × Nat)}
      (hb : r.outbox = none) (he : r.events = (e, v) :: rest) (hn : m.next e = none) :
      Move ctx cap m r .runFsm m { r with events := rest }
  | advance {m m' : Mode} {r : Runtime} {e : Event} {v : Nat} {rest : List (Event × Nat)}
      {l : List Action} (hb : r.outbox = none) (he : r.events = (e, v) :: rest)
      (hn : m.next e = some (m', l)) :
      Move ctx cap m r .runFsm m' (r.advanced cap m m' rest l)
  | receive {m : Mode} {r : Runtime} {c : Event × Nat} {rest : List (Event × Nat)}
      {timer : Countdown Nat} (hq : r.timerQueue = c :: rest)
      (ht : r.timer.receive (Runtime.timerCmd c) = some timer) :
      Move ctx cap m r .timerReceive m { r with timerQueue := rest, timer }
  | expire {m : Mode} {r : Runtime} {timer : Countdown Nat} {out : Option Nat}
      (ht : r.timer.expire (room cap r.events) = some (timer, out)) :
      Move ctx cap m r .timerExpire m
        { r with
          timer
          events := r.events ++ (out.map (fun visit => (Event.timeout, visit))).toList }
  | network {m : Mode} {r : Runtime} {c : NetworkManager.Change} :
      Move ctx cap m r (.network c) m { r with manager := r.manager.change c }

section Inversion

variable {ctx : AppContext} {cap : Option Nat} {m : Mode} {r r' : Runtime}

theorem move_of_work {now : Int64} {jitter : Fin 11} (h : r.work ctx cap now jitter = some r') :
    Move ctx cap m r (.work now jitter) m r' := by
  unfold Runtime.work at h
  rcases ho : r.ops with _ | ⟨o, rest⟩
  · simp [ho] at h
  · rw [ho] at h
    cases o with
    | act a =>
      simp only [Option.some.injEq] at h
      exact h ▸ .act ho
    | toFsm e =>
      simp only [Option.ite_none_right_eq_some, Option.some.injEq] at h
      exact h.2 ▸ .sendFsm ho h.1
    | toTimer e =>
      simp only [Option.ite_none_right_eq_some, Option.some.injEq] at h
      exact h.2 ▸ .sendTimer ho h.1
    | toCore x => simp only [Option.some.injEq] at h; exact h ▸ .output ho rfl
    | toHeartbeat x => simp only [Option.some.injEq] at h; exact h ▸ .output ho rfl
    | toEdgeState x => simp only [Option.some.injEq] at h; exact h ▸ .output ho rfl

theorem runFsm_event {e : Event} {v : Nat} {rest : List (Event × Nat)} (hb : r.outbox = none)
    (he : r.events = (e, v) :: rest) :
    r.runFsm cap = some (Runtime.handleTransition cap { r with events := rest }
      (r.state.step e)) := by
  cases r
  simp only at hb he
  subst hb he
  rfl

theorem move_of_runFsm (hm : r.state = m.state) (h : r.runFsm cap = some r') :
    ∃ m', r'.state = m'.state ∧ Move ctx cap m r .runFsm m' r' := by
  rcases hb : r.outbox with _ | l
  · rcases he : r.events with _ | ⟨⟨e, v⟩, rest⟩
    · simp [Runtime.runFsm, hb, he] at h
    · rw [runFsm_event hb he, Option.some.injEq] at h
      rcases hn : m.next e with _ | ⟨m', l⟩
      · obtain ⟨t, ht⟩ := Mode.step_mode_none hn
        have hs : r.state.step e = .invalid t := by rw [hm, ht]
        rw [hs] at h
        simp only [Runtime.handleTransition] at h
        exact ⟨m, h ▸ hm, h ▸ .refuse hb he hn⟩
      · have hs : r.state.step e = .valid ⟨m'.state, l⟩ := by rw [hm, Mode.step_mode hn]
        have hv : m'.state = r.state ↔ m' = m := by rw [hm, Mode.state_inj]
        rw [hs] at h
        simp only [Runtime.handleTransition, hv] at h
        subst h
        exact ⟨m', Runtime.sendActions_state .., .advance hb he hn⟩
  · simp only [Runtime.runFsm, hb, Option.ite_none_right_eq_some, Option.some.injEq] at h
    exact ⟨m, h.2 ▸ hm, h.2 ▸ .deliver hb h.1⟩

/-- Every step of the machine is a move, and the machine stays in a mode. -/
theorem move_of_step {i : Label} (hm : r.state = m.state)
    (h : (machine ctx cap).step r i = some r') :
    ∃ m', r'.state = m'.state ∧ Move ctx cap m r i m' r' := by
  cases i with
  | command c =>
    rcases ho : r.ops with _ | ⟨o, rest⟩
    · simp only [machine, Runtime.step, Runtime.command, ho, Option.some.injEq] at h
      exact ⟨m, h ▸ hm, h ▸ .command ho⟩
    · simp [machine, Runtime.step, Runtime.command, ho] at h
  | takeActions =>
    rcases ho : r.ops with _ | ⟨o, rest⟩
    · rcases ha : r.actions with _ | ⟨⟨visit, l⟩, rest⟩
      · simp [machine, Runtime.step, Runtime.takeActions, ho, ha] at h
      · simp only [machine, Runtime.step, Runtime.takeActions, ho, ha, Option.some.injEq] at h
        exact ⟨m, h ▸ hm, h ▸ .take ho ha⟩
    · simp [machine, Runtime.step, Runtime.takeActions, ho] at h
  | work now jitter =>
    have hw : Move ctx cap m r (.work now jitter) m r' := move_of_work h
    refine ⟨m, ?_, hw⟩
    cases hw <;> exact hm
  | runFsm => exact move_of_runFsm hm h
  | timerReceive =>
    rcases hq : r.timerQueue with _ | ⟨c, rest⟩
    · simp [machine, Runtime.step, Runtime.timerReceive, hq] at h
    · simp only [machine, Runtime.step, Runtime.timerReceive, hq, Option.map_eq_some_iff] at h
      obtain ⟨timer, ht, rfl⟩ := h
      exact ⟨m, hm, .receive hq ht⟩
  | timerExpire =>
    simp only [machine, Runtime.step, Runtime.timerExpire, Option.map_eq_some_iff] at h
    obtain ⟨⟨timer, out⟩, ht, rfl⟩ := h
    exact ⟨m, hm, .expire ht⟩
  | network c =>
    simp only [machine, Runtime.step, Option.some.injEq] at h
    exact ⟨m, h ▸ hm, h ▸ .network⟩

/-- When `run_fsm` has made its first transition, only the entry of
`InitBalanceMode` is on its way. -/
theorem start_eq (cap : Option Nat) (manager : NetworkManager) :
    Runtime.start cap manager =
      Runtime.sendActions cap
        { Runtime.spawn manager with state := Mode.init.state, past := ⟨1, 0, 0, [], 0, 0⟩ }
        [.onEntryBalance .initBalanceMode] := rfl

theorem queued_start (cap : Option Nat) (manager : NetworkManager) :
    (Runtime.start cap manager).queued = [(1, [.onEntryBalance .initBalanceMode])] := by
  rw [start_eq, Runtime.queued_sendActions]
  · rfl
  · rfl

@[simp] theorem state_start (cap : Option Nat) (manager : NetworkManager) :
    (Runtime.start cap manager).state = Mode.init.state := by
  rw [start_eq, Runtime.sendActions_state]

@[simp] theorem session_start (cap : Option Nat) (manager : NetworkManager) :
    (Runtime.start cap manager).session = UpdateSession.new := by
  rw [start_eq, Runtime.sendActions_session]
  rfl

@[simp] theorem ops_start (cap : Option Nat) (manager : NetworkManager) :
    (Runtime.start cap manager).ops = [] := by
  rw [start_eq, Runtime.sendActions_ops]
  rfl

@[simp] theorem events_start (cap : Option Nat) (manager : NetworkManager) :
    (Runtime.start cap manager).events = [] := by
  rw [start_eq, Runtime.sendActions_events]
  rfl

@[simp] theorem timer_start (cap : Option Nat) (manager : NetworkManager) :
    (Runtime.start cap manager).timer = .idle := by
  rw [start_eq, Runtime.sendActions_timer]
  rfl

@[simp] theorem past_start (cap : Option Nat) (manager : NetworkManager) :
    (Runtime.start cap manager).past = ⟨1, 0, 0, [], 0, 0⟩ := by
  rw [start_eq, Runtime.sendActions_past]

end Inversion

/-! ## Settings for concrete runs -/

/-- The context of the concrete runs: three attempts, and round timeouts. -/
def sampleContext : AppContext where
  idEdge := "edge"
  quorum :=
    { maxAttempts := 3, frequencyPhase := 10, frequencySafeMode := 10, timeoutHandshake := 60
      timeoutPhase := 300, timeoutSafeMode := 300, timeBetweenHeartbeatsBalanceMode := 5
      timeBetweenHeartbeatsNormal := 30, timeBetweenHeartbeatsSafeMode := 30 }

/-- The cache with one network and one hub in it. -/
def sampleCache : NetworkManager :=
  ((NetworkManager.newEmpty "edge").addNetwork (Network.new "n" true)).addHub "n" ⟨"h", "device"⟩

/-- The answer of a hub to the handshake of an epoch. -/
def answerOf (hub : String) (epoch : UInt32) : FsmServiceCommand :=
  .fromHub (.handshakeFromHub
    { metadata := ⟨hub, "edge", 0⟩, flag := "in", balanceEpoch := epoch })

/-- `fsm` goes on with its operations `n` times. -/
def works (n : Nat) : List Label := List.replicate n (.work 0 0)

/-- From the start to `InHandshake` with its countdown running: the epoch is
asked for and answered, and the entry of `InHandshake` is executed. -/
def toInHandshake : List Label :=
  [.takeActions] ++ works 2 ++ [.command (.epoch 0)] ++ works 3 ++ [.runFsm, .takeActions] ++
    works 3 ++ [.timerReceive]

end EdgeGateway.Fsm
