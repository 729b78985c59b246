-- The heartbeat to the hubs. `heartbeat_generator` remembers what it beats for and arms its
-- timer anew with each beat. A stop only tells the timer: a `Timeout` that is already on its way
-- beats once more, and that beat arms the timer again.
import EdgeGateway.Fsm.Logic
import EdgeGateway.Fsm.Modes

namespace EdgeGateway.Fsm

open EdgeGateway.Lib EdgeGateway.Message EdgeGateway.Networks EdgeGateway.Quorum

/-! ## What the machine tells the generator -/

/-- What the entry or the stop of an action sends to the generator. -/
def Action.beats : Action → List Action
  | .onEntryPhase .alert => [.sendHeartbeatMessagePhase]
  | .onEntryNormal => [.sendHeartbeatMessageNormal]
  | .onEntrySafeMode => [.sendHeartbeatMessageSafeMode]
  | .stopSendHeartbeatMessagePhase => [.stopSendHeartbeatMessagePhase]
  | .stopSendHeartbeatMessageSafeMode => [.stopSendHeartbeatMessageSafeMode]
  | _ => []

/-- It is what `handle_action` sends there. -/
theorem beats_handleAction (ctx : AppContext) (manager : NetworkManager) (epoch : UInt32)
    (session : UpdateSession) (now : Int64) (jitter : UInt32) (a : Action) :
    (handleAction ctx manager epoch session now jitter a).2.filterMap
      (fun | .toHeartbeat action => some action | _ => none) = a.beats := by
  cases a with
  | onEntryBalance sub => cases sub <;> rfl
  | onEntryQuorum sub => cases sub <;> rfl
  | onEntryPhase sub => cases sub <;> rfl
  | _ => rfl

/-! ## The two tasks -/

inductive HeartbeatState where
  | balanceMode
  | normal
  | safeMode
  | none
  deriving Repr, DecidableEq

/-- `heartbeat_generator` and `heartbeat_generator_timer` with their channels, beside the
machine that feeds them. `fromFsm` is all that the machine has sent and the generator has not
taken, `ops` what the handler under way has still to send. No task reads `stopped`: the last
action that the generator has processed is a stop. -/
structure Beats where
  state : FsmState
  fromFsm : List Action
  beat : HeartbeatState
  ops : List Op
  toTimer : List Event
  timer : Countdown UInt64
  fromTimer : List Event
  responses : List FsmServiceResponse
  stopped : Bool
  deriving Repr

inductive Beats.Label where
  | event (e : Event)
  | takeAction
  | takeTimeout (now : Int64)
  | work
  | timerReceive
  | timerExpire
  | takeResponse
  deriving Repr, DecidableEq

/-- The pause before the next beat. -/
def HeartbeatState.duration (ctx : AppContext) : HeartbeatState → Option UInt64
  | .balanceMode => some ctx.quorum.timeBetweenHeartbeatsBalanceMode
  | .normal => some ctx.quorum.timeBetweenHeartbeatsNormal
  | .safeMode => some ctx.quorum.timeBetweenHeartbeatsSafeMode
  | .none => Option.none

/-- The generator takes an action. A stop leaves `beat` as it is. -/
def onAction (ctx : AppContext) (beat : HeartbeatState) : Action → HeartbeatState × List Op
  | .sendHeartbeatMessagePhase =>
    (.balanceMode, [.toTimer (.initTimer ctx.quorum.timeBetweenHeartbeatsBalanceMode)])
  | .sendHeartbeatMessageNormal =>
    (.normal, [.toTimer (.initTimer ctx.quorum.timeBetweenHeartbeatsNormal)])
  | .sendHeartbeatMessageSafeMode =>
    (.safeMode, [.toTimer (.initTimer ctx.quorum.timeBetweenHeartbeatsSafeMode)])
  | .stopSendHeartbeatMessagePhase => (beat, [.toTimer .stopTimer])
  | .stopSendHeartbeatMessageSafeMode => (beat, [.toTimer .stopTimer])
  | _ => (beat, [])

def sendHeartbeat (ctx : AppContext) (now : Int64) : Op :=
  .toCore (.toHub (.heartbeat { metadata := buildMetadata ctx "all" now, beat := true }))

/-- The generator takes a `Timeout`. -/
def onTimeout (ctx : AppContext) (now : Int64) (beat : HeartbeatState) : List Op :=
  sendHeartbeat ctx now ::
    match beat.duration ctx with
    | some duration => [.toTimer (.initTimer duration)]
    | none => []

def Action.isStop : Action → Bool
  | .stopSendHeartbeatMessagePhase => true
  | .stopSendHeartbeatMessageSafeMode => true
  | _ => false

def Action.isSend : Action → Bool
  | .sendHeartbeatMessagePhase => true
  | .sendHeartbeatMessageNormal => true
  | .sendHeartbeatMessageSafeMode => true
  | _ => false

/-- How the timer sees an event. -/
def Event.timerCmd : Event → Cmd UInt64
  | .initTimer duration => .start duration
  | .stopTimer => .stop
  | _ => .other

namespace Beats

def start : Beats where
  state := FsmState.new
  fromFsm := []
  beat := .none
  ops := []
  toTimer := []
  timer := .idle
  fromTimer := []
  responses := []
  stopped := false

/-- `run_fsm` takes an event, and the actions of the transition follow. -/
def event (s : Beats) (e : Event) : Beats :=
  match s.state.step e with
  | .valid t =>
    { s with state := t.changeState, fromFsm := s.fromFsm ++ t.actions.flatMap Action.beats }
  | .invalid _ => s

/-- The select of the generator. -/
def takeAction (ctx : AppContext) (s : Beats) : Option Beats :=
  match s.ops, s.fromFsm with
  | [], a :: rest =>
    some { s with
      fromFsm := rest, beat := (onAction ctx s.beat a).1, ops := (onAction ctx s.beat a).2
      stopped := s.stopped && !a.isSend }
  | _, _ => none

def takeTimeout (ctx : AppContext) (now : Int64) (s : Beats) : Option Beats :=
  match s.ops, s.fromTimer with
  | [], .timeout :: rest => some { s with fromTimer := rest, ops := onTimeout ctx now s.beat }
  | [], _ :: rest => some { s with fromTimer := rest }
  | _, _ => none

/-- The handler goes on. A send waits for room. -/
def work (cap : Option Nat) (s : Beats) : Option Beats :=
  match s.ops with
  | .toTimer e :: rest =>
    if room cap s.toTimer then
      some { s with
        toTimer := s.toTimer ++ [e], ops := rest, stopped := s.stopped || e = .stopTimer }
    else none
  | .toCore response :: rest =>
    if room cap s.responses then
      some { s with responses := s.responses ++ [response], ops := rest }
    else none
  | _ => none

def timerReceive (s : Beats) : Option Beats :=
  match s.toTimer with
  | [] => none
  | e :: rest => (s.timer.receive e.timerCmd).map (fun timer => { s with toTimer := rest, timer })

def timerExpire (cap : Option Nat) (s : Beats) : Option Beats :=
  (s.timer.expire (room cap s.fromTimer)).map fun out =>
    { s with
      timer := out.1, fromTimer := s.fromTimer ++ (out.2.map (fun _ => Event.timeout)).toList }

/-- `FsmService` takes a response. -/
def takeResponse (s : Beats) : Option Beats :=
  match s.responses with
  | [] => none
  | _ :: rest => some { s with responses := rest }

def step (ctx : AppContext) (cap : Option Nat) (s : Beats) : Label → Option Beats
  | .event e => some (s.event e)
  | .takeAction => s.takeAction ctx
  | .takeTimeout now => s.takeTimeout ctx now
  | .work => s.work cap
  | .timerReceive => s.timerReceive
  | .timerExpire => s.timerExpire cap
  | .takeResponse => s.takeResponse

/-- The tasks over channels of capacity `cap`, beside a machine that takes any events. -/
def machine (ctx : AppContext) (cap : Option Nat) : Machine Beats Label where
  init := fun s => s = start
  step := step ctx cap

/-! ## The property and its condition -/

/-- The generator is about to send a heartbeat. -/
def beating (s : Beats) : Bool :=
  match s.ops with
  | .toCore (.toHub (.heartbeat _)) :: _ => true
  | _ => false

/-- No heartbeat is sent after a stop. -/
def Silent (s : Beats) : Label → Prop
  | .work => s.beating = true → s.stopped = false
  | _ => True

instance (s : Beats) : (i : Label) → Decidable (s.Silent i)
  | .work => inferInstanceAs (Decidable (s.beating = true → s.stopped = false))
  | .event _ | .takeAction | .takeTimeout _ | .timerReceive | .timerExpire | .takeResponse =>
    inferInstanceAs (Decidable True)

/-- No `Timeout` waits when a stop is taken, and no countdown ends while a `StopTimer` is on its
way to it. -/
def InTime (s : Beats) : Label → Prop
  | .takeAction => ∀ a ∈ s.fromFsm.head?, a.isStop = true → s.fromTimer = []
  | .timerExpire => Event.stopTimer ∉ s.toTimer ∧ Op.toTimer .stopTimer ∉ s.ops
  | _ => True

instance (s : Beats) : (i : Label) → Decidable (s.InTime i)
  | .takeAction =>
    inferInstanceAs (Decidable (∀ a ∈ s.fromFsm.head?, a.isStop = true → s.fromTimer = []))
  | .timerExpire =>
    inferInstanceAs (Decidable (Event.stopTimer ∉ s.toTimer ∧ Op.toTimer .stopTimer ∉ s.ops))
  | .event _ | .takeTimeout _ | .work | .timerReceive | .takeResponse =>
    inferInstanceAs (Decidable True)

/-! ## What a step can do -/

/-- What a step does to the generator and to its timer. -/
inductive Move (ctx : AppContext) (cap : Option Nat) (s : Beats) : Label → Beats → Prop where
  | refused {e : Event} : Move ctx cap s (.event e) s
  | fed {e : Event} {t : TransitionValid} (h : s.state.step e = .valid t) :
      Move ctx cap s (.event e)
        { s with state := t.changeState, fromFsm := s.fromFsm ++ t.actions.flatMap Action.beats }
  | action {a : Action} {rest : List Action} (ho : s.ops = []) (hq : s.fromFsm = a :: rest) :
      Move ctx cap s .takeAction
        { s with
          fromFsm := rest, beat := (onAction ctx s.beat a).1, ops := (onAction ctx s.beat a).2
          stopped := s.stopped && !a.isSend }
  | timeout {now : Int64} {rest : List Event} (ho : s.ops = [])
      (hq : s.fromTimer = .timeout :: rest) :
      Move ctx cap s (.takeTimeout now)
        { s with fromTimer := rest, ops := onTimeout ctx now s.beat }
  | ignored {now : Int64} {e : Event} {rest : List Event} (ho : s.ops = []) (he : e ≠ .timeout)
      (hq : s.fromTimer = e :: rest) :
      Move ctx cap s (.takeTimeout now) { s with fromTimer := rest }
  | sendTimer {e : Event} {rest : List Op} (ho : s.ops = .toTimer e :: rest) :
      Move ctx cap s .work
        { s with toTimer := s.toTimer ++ [e], ops := rest, stopped := s.stopped || e = .stopTimer }
  | sendCore {response : FsmServiceResponse} {rest : List Op}
      (ho : s.ops = .toCore response :: rest) :
      Move ctx cap s .work { s with responses := s.responses ++ [response], ops := rest }
  | receive {e : Event} {rest : List Event} {timer : Countdown UInt64} (hq : s.toTimer = e :: rest)
      (hr : s.timer.receive e.timerCmd = some timer) :
      Move ctx cap s .timerReceive { s with toTimer := rest, timer }
  | expire {timer : Countdown UInt64} {out : Option UInt64}
      (hx : s.timer.expire (room cap s.fromTimer) = some (timer, out)) :
      Move ctx cap s .timerExpire
        { s with
          timer, fromTimer := s.fromTimer ++ (out.map (fun _ => Event.timeout)).toList }
  | drain {response : FsmServiceResponse} {rest : List FsmServiceResponse}
      (hq : s.responses = response :: rest) :
      Move ctx cap s .takeResponse { s with responses := rest }

section Moves

variable {ctx : AppContext} {cap : Option Nat} {s s' : Beats} {i : Label}

theorem move_of_step (h : (machine ctx cap).step s i = some s') : Move ctx cap s i s' := by
  cases i with
  | event e =>
    obtain rfl := Option.some.inj h
    unfold event
    rcases ht : s.state.step e with t | t
    · exact .fed ht
    · exact .refused
  | takeAction =>
    change s.takeAction ctx = some s' at h
    unfold takeAction at h
    split at h
    · obtain rfl := Option.some.inj h
      exact .action ‹_› ‹_›
    · cases h
  | takeTimeout now =>
    change s.takeTimeout ctx now = some s' at h
    unfold takeTimeout at h
    split at h
    · obtain rfl := Option.some.inj h
      exact .timeout ‹_› ‹_›
    · rename_i hne ho hq
      obtain rfl := Option.some.inj h
      exact .ignored ho hne hq
    · cases h
  | work =>
    change s.work cap = some s' at h
    unfold work at h
    split at h
    · rw [Option.ite_none_right_eq_some] at h
      obtain rfl := Option.some.inj h.2
      exact .sendTimer ‹_›
    · rw [Option.ite_none_right_eq_some] at h
      obtain rfl := Option.some.inj h.2
      exact .sendCore ‹_›
    · cases h
  | timerReceive =>
    change s.timerReceive = some s' at h
    unfold timerReceive at h
    split at h
    · cases h
    · obtain ⟨timer, hr, rfl⟩ := Option.map_eq_some_iff.mp h
      exact .receive ‹_› hr
  | timerExpire =>
    obtain ⟨⟨timer, out⟩, hx, rfl⟩ := Option.map_eq_some_iff.mp h
    exact .expire hx
  | takeResponse =>
    change s.takeResponse = some s' at h
    unfold takeResponse at h
    split at h
    · cases h
    · obtain rfl := Option.some.inj h
      exact .drain ‹_›

/-! ## Stops that are in time -/

/-- While a stop is carried out and after it, no `Timeout` waits and none can come before the
timer takes the `StopTimer`. -/
structure Quiet (s : Beats) : Prop where
  stopping : .toTimer .stopTimer ∈ s.ops → s.fromTimer = [] ∧ s.ops = [.toTimer .stopTimer]
  stopped : s.stopped = true → s.fromTimer = [] ∧
    (s.ops = [] ∨ s.ops = [.toTimer .stopTimer]) ∧
    ((∃ before, s.toTimer = before ++ [.stopTimer]) ∨ s.toTimer = [] ∧ s.timer = .idle)

theorem quiet_start : start.Quiet where
  stopping := by
    intro h
    cases h
  stopped := by
    intro h
    cases h

/-- A step that leaves the generator and its timer. -/
theorem Quiet.frame (h : s.Quiet) (hops : s'.ops = s.ops) (hstopped : s'.stopped = s.stopped)
    (htoTimer : s'.toTimer = s.toTimer) (htimer : s'.timer = s.timer)
    (hfromTimer : s'.fromTimer = s.fromTimer) : s'.Quiet where
  stopping := by
    rw [hops, hfromTimer]
    exact h.stopping
  stopped := by
    rw [hops, hfromTimer, hstopped, htoTimer, htimer]
    exact h.stopped

/-- What an action leaves to be sent. -/
theorem onAction_cases (ctx : AppContext) (beat : HeartbeatState) (a : Action) :
    (a.isStop = true ∧ a.isSend = false ∧ (onAction ctx beat a).2 = [.toTimer .stopTimer]) ∨
      (a.isStop = false ∧ a.isSend = true ∧
        ∃ duration, (onAction ctx beat a).2 = [.toTimer (.initTimer duration)]) ∨
      (a.isStop = false ∧ a.isSend = false ∧ (onAction ctx beat a).2 = []) := by
  cases a <;> simp [onAction, Action.isStop, Action.isSend]

theorem notMem_onTimeout (ctx : AppContext) (now : Int64) (beat : HeartbeatState) :
    Op.toTimer .stopTimer ∉ onTimeout ctx now beat := by
  cases beat <;> simp [onTimeout, sendHeartbeat, HeartbeatState.duration]

theorem idle_of_receive_stop {c c' : Countdown UInt64}
    (h : c.receive (Event.timerCmd .stopTimer) = some c') : c' = .idle := by
  cases c with
  | idle => exact (Option.some.inj h).symm
  | running a => exact (Option.some.inj h).symm
  | deaf a => cases h
  | firing a => cases h

theorem quiet_step (h : s.Quiet) (hc : s.InTime i) (hs : (machine ctx cap).step s i = some s') :
    s'.Quiet := by
  cases move_of_step hs with
  | refused => exact h
  | fed ht => exact h.frame rfl rfl rfl rfl rfl
  | @action a rest ho hq =>
    have hempty : a.isStop = true → s.fromTimer = [] := hc a (by simp [hq])
    rcases onAction_cases ctx s.beat a with ⟨hstop, hsend, hops⟩ | ⟨-, hsend, duration, hops⟩ |
      ⟨-, hsend, hops⟩
    · refine ⟨fun _ => ⟨hempty hstop, hops⟩, fun hstopped => ?_⟩
      simp only [hsend, Bool.not_false, Bool.and_true] at hstopped
      exact ⟨hempty hstop, .inr hops, (h.stopped hstopped).2.2⟩
    · refine ⟨fun hmem => ?_, fun hstopped => ?_⟩
      · simp [hops] at hmem
      · simp [hsend] at hstopped
    · refine ⟨fun hmem => ?_, fun hstopped => ?_⟩
      · simp [hops] at hmem
      · simp only [hsend, Bool.not_false, Bool.and_true] at hstopped
        obtain ⟨hfrom, -, htimer⟩ := h.stopped hstopped
        exact ⟨hfrom, .inl hops, htimer⟩
  | @timeout now rest ho hq =>
    refine ⟨fun hmem => absurd hmem (notMem_onTimeout ctx now s.beat), fun hstopped => ?_⟩
    have hnone := (h.stopped hstopped).1
    rw [hq] at hnone
    cases hnone
  | @ignored now e rest ho he hq =>
    refine ⟨fun hmem => absurd hmem (by simp [ho]), fun hstopped => ?_⟩
    have hnone := (h.stopped hstopped).1
    rw [hq] at hnone
    cases hnone
  | @sendTimer e rest ho =>
    by_cases he : e = .stopTimer
    · subst he
      obtain ⟨hfrom, hone⟩ := h.stopping (by simp [ho])
      obtain rfl : rest = [] := by simpa [ho] using hone
      refine ⟨fun hmem => absurd hmem (by simp), fun _ => ⟨hfrom, .inl rfl, .inl ⟨_, rfl⟩⟩⟩
    · refine ⟨fun hmem => ?_, fun hstopped => ?_⟩
      · have hone := (h.stopping (by simp [ho, hmem])).2
        simp [ho, he] at hone
      · simp only [he, decide_false, Bool.or_false] at hstopped
        obtain ⟨-, hops, -⟩ := h.stopped hstopped
        simp [ho, he] at hops
  | @sendCore response rest ho =>
    refine ⟨fun hmem => ?_, fun hstopped => ?_⟩
    · have hone := (h.stopping (by simp [ho, hmem])).2
      simp [ho] at hone
    · obtain ⟨-, hops, -⟩ := h.stopped hstopped
      simp [ho] at hops
  | @receive e rest timer hq hr =>
    refine ⟨h.stopping, fun hstopped => ?_⟩
    obtain ⟨hfrom, hops, htimer⟩ := h.stopped hstopped
    refine ⟨hfrom, hops, ?_⟩
    rcases htimer with ⟨before, hlast⟩ | ⟨hnil, -⟩
    · cases before with
      | nil =>
        obtain ⟨rfl, rfl⟩ := List.cons.inj (hq.symm.trans hlast)
        exact .inr ⟨rfl, idle_of_receive_stop hr⟩
      | cons x before => exact .inl ⟨before, (List.cons.inj (hq.symm.trans hlast)).2⟩
    · rw [hq] at hnil
      cases hnil
  | @expire timer out hx =>
    obtain ⟨hqueue, hops⟩ := hc
    refine ⟨fun hmem => absurd hmem hops, fun hstopped => ?_⟩
    obtain ⟨-, -, ⟨before, hlast⟩ | ⟨-, hidle⟩⟩ := h.stopped hstopped
    · exact absurd (by simp [hlast]) hqueue
    · rw [hidle] at hx
      cases hx
  | drain hq => exact h.frame rfl rfl rfl rfl rfl

theorem silent_of_quiet (h : s.Quiet) (i : Label) : s.Silent i := by
  cases i with
  | work =>
    intro hbeating
    by_contra hstopped
    rw [Bool.not_eq_false] at hstopped
    obtain ⟨-, hops | hops, -⟩ := h.stopped hstopped <;> simp [beating, hops] at hbeating
  | _ => trivial

end Moves

/-- A stop is kept when no `Timeout` crosses it. -/
theorem a_stop_in_time_is_kept (ctx : AppContext) (cap : Option Nat) (t : List (Beats × Label))
    (s : Beats) (run : (machine ctx cap).Run t s) (h : Machine.Meets InTime t) :
    Machine.Meets Silent t := by
  apply run.meets Quiet InTime Silent _ _ _ h
  · rintro s rfl
    exact quiet_start
  · exact fun s i s' hq hc hs => quiet_step hq hc hs
  · exact fun s i s' hq _ _ => silent_of_quiet hq i

/-- A `Timeout` that waits after a stop can be the next to be taken, and it beats. -/
theorem a_waiting_timeout_beats {ctx : AppContext} {cap : Option Nat} {s : Beats}
    (hstopped : s.stopped = true) (ho : s.ops = []) {rest : List Event}
    (hq : s.fromTimer = .timeout :: rest) (now : Int64) :
    ∃ s', (machine ctx cap).step s (.takeTimeout now) = some s' ∧ ¬ s'.Silent .work := by
  refine ⟨{ s with fromTimer := rest, ops := onTimeout ctx now s.beat }, ?_, ?_⟩
  · show s.takeTimeout ctx now = _
    simp [takeTimeout, ho, hq]
  · simp [Silent, beating, onTimeout, sendHeartbeat, hstopped]

/-- The machine enters the alert phase, and the generator starts its timer. -/
def toBeats : List Label :=
  [.event .start, .event .balanceEpochOk, .event .approveQuorum, .takeAction, .work, .timerReceive]

/-- The phases end. -/
def toOutHandshake : List Label := [.event .timeout, .event .timeout, .event .timeout]

/-- A countdown ends and is answered with a beat, and the next one is stopped. -/
def stoppedInTime : List Label :=
  toBeats ++ [.timerExpire, .takeTimeout 0, .work, .work, .timerReceive] ++ toOutHandshake ++
    [.takeAction, .work, .timerReceive]

theorem a_stop_between_two_beats_is_kept :
    let t := (machine default (some 50)).trace start stoppedInTime
    Machine.Meets Silent t ∧ (∃ p ∈ t, p.1.beating = true) ∧ ∃ p ∈ t, p.1.stopped = true := by
  have hrun := Machine.run_of_final (m := machine default (some 50)) stoppedInTime rfl (by decide)
  exact ⟨a_stop_in_time_is_kept default (some 50) _ _ hrun (by decide), by decide, by decide⟩

theorem a_late_timeout_beats_after_the_stop :
    ¬ ∀ (ctx : AppContext) (cap : Option Nat) (t : List (Beats × Label)) (s : Beats),
      (machine ctx cap).Run t s → Machine.Meets Silent t := by
  intro h
  have hrun := Machine.run_of_final (m := machine default (some 50))
    (toBeats ++ [.timerExpire] ++ toOutHandshake ++ [.takeAction, .work, .takeTimeout 0, .work])
    rfl (by decide)
  have hsilent := h _ _ _ _ hrun
  revert hsilent
  decide

/-! ## The heartbeat of Normal -/

/-- The events that the handler under way has still to send to the timer. -/
def timerOps (ops : List Op) : List Event :=
  ops.filterMap fun
    | .toTimer e => some e
    | _ => none

/-- The commands that the timer has still to take. -/
def commands (s : Beats) : List (Cmd Unit) :=
  (s.toTimer ++ timerOps s.ops).map (fun e => e.timerCmd.kind)

/-- A beat is still to come: the timer will run, or has run. -/
def Living (s : Beats) : Prop := s.timer.Armed s.commands ∨ .timeout ∈ s.fromTimer

/-- The generator has taken the action. -/
def Taken (a : Action) (t : List (Beats × Label)) : Prop :=
  ∃ p ∈ t, p.2 = .takeAction ∧ p.1.fromFsm.head? = some a

instance (a : Action) (t : List (Beats × Label)) : Decidable (Taken a t) :=
  inferInstanceAs (Decidable (∃ p ∈ t, p.2 = .takeAction ∧ p.1.fromFsm.head? = some a))

/-- Normal is the last that the machine sends: it is still to come, it is on its way as the last,
or it has been taken and nothing follows. -/
inductive Fed (t : List (Beats × Label)) (s : Beats) : Prop where
  | before (hm : s.state = FsmState.new ∨ ∃ m, m ≠ .normal ∧ s.state = Mode.state m)
      (hq : .sendHeartbeatMessageNormal ∉ s.fromFsm)
      (ht : ¬ Taken .sendHeartbeatMessageNormal t)
  | sent (hm : s.state = Mode.normal.state) (early : List Action)
      (hq : s.fromFsm = early ++ [.sendHeartbeatMessageNormal])
      (hearly : .sendHeartbeatMessageNormal ∉ early) (ht : ¬ Taken .sendHeartbeatMessageNormal t)
  | taken (hm : s.state = Mode.normal.state) (hq : s.fromFsm = []) (hbeat : s.beat = .normal)
      (hliving : s.Living)

section Normal

variable {ctx : AppContext} {s s' : Beats} {i : Label} {t : List (Beats × Label)}

/-- What a row of the table sends to the generator. -/
theorem beats_next {m m' : Mode} {e : Event} {l : List Action} (h : m.next e = some (m', l)) :
    m ≠ .normal ∧
      (m' ≠ .normal ∧ .sendHeartbeatMessageNormal ∉ l.flatMap Action.beats ∨
        m' = .normal ∧ ∃ early, l.flatMap Action.beats = early ++ [.sendHeartbeatMessageNormal] ∧
          .sendHeartbeatMessageNormal ∉ early) := by
  cases m <;> cases e <;>
    simp only [Mode.next, Option.some.injEq, Prod.mk.injEq, reduceCtorEq] at h <;>
    obtain ⟨rfl, rfl⟩ := h <;> refine ⟨by decide, ?_⟩
  all_goals
    first
      | exact .inl ⟨by decide, by decide⟩
      | exact .inr ⟨rfl, [], rfl, by decide⟩
      | exact .inr ⟨rfl, [.stopSendHeartbeatMessageSafeMode], rfl, by decide⟩

/-- A transition of the machine, in the words of the table. -/
theorem valid_cases (h : s.state = FsmState.new ∨ ∃ m, s.state = Mode.state m) {e : Event}
    {t : TransitionValid} (ht : s.state.step e = .valid t) :
    (s.state = FsmState.new ∧ t = ⟨Mode.init.state, [.onEntryBalance .initBalanceMode]⟩) ∨
      ∃ m m' l, s.state = Mode.state m ∧ m.next e = some (m', l) ∧ t = ⟨m'.state, l⟩ := by
  rcases h with hnew | ⟨m, hm⟩
  · rw [hnew] at ht
    cases e <;> cases ht
    exact .inl ⟨hnew, rfl⟩
  · rw [hm] at ht
    rcases hnext : m.next e with _ | ⟨m', l⟩
    · obtain ⟨x, hx⟩ := Mode.step_mode_none hnext
      rw [hx] at ht
      cases ht
    · rw [Mode.step_mode hnext] at ht
      obtain rfl := Transition.valid.inj ht
      exact .inr ⟨m, m', l, hm, hnext, rfl⟩

/-- With unbounded channels the timer never waits for room. -/
theorem ne_firing_step (h : ∀ a, s.timer ≠ .firing a)
    (hs : (machine ctx none).step s i = some s') : ∀ a, s'.timer ≠ .firing a := by
  cases move_of_step hs with
  | receive hq hr => exact fun a => Countdown.receive_ne_firing hr a
  | @expire timer out hx =>
    cases out with
    | none => exact absurd (Countdown.expire_none hx).1 (by simp)
    | some duration =>
      intro a
      rw [show timer = .idle from (Countdown.expire_some hx).2.1]
      simp
  | _ => exact h

/-- Whatever was sent before, a start that is sent last arms the timer. -/
theorem living_of_start {d : UInt64} (hops : timerOps s.ops = [.initTimer d]) : s.Living := by
  left
  unfold commands
  rw [hops, List.map_append]
  exact Countdown.armed_of_settle _ rfl

theorem living_of_commands (h : s.Living) (hcommands : s'.commands = s.commands)
    (htimer : s'.timer = s.timer) (hfromTimer : s'.fromTimer = s.fromTimer) : s'.Living := by
  unfold Living
  rw [hcommands, htimer, hfromTimer]
  exact h

/-- Nothing that happens once the machine is in Normal stops the beat. -/
theorem living_step (h : s.Living) (hbeat : s.beat = .normal) (hq : s.fromFsm = [])
    (hs : (machine ctx none).step s i = some s') : s'.Living := by
  cases move_of_step hs with
  | refused => exact h
  | fed ht => exact h
  | action ho hq' =>
    rw [hq] at hq'
    cases hq'
  | timeout ho hq' => exact living_of_start (by rw [hbeat]; rfl)
  | ignored ho he hq' =>
    rcases h with harmed | hmem
    · exact .inl harmed
    · rw [hq', List.mem_cons] at hmem
      exact .inr (hmem.resolve_left (Ne.symm he))
  | @sendTimer e rest ho =>
    refine living_of_commands h ?_ rfl rfl
    unfold commands
    rw [ho, List.append_assoc]
    rfl
  | @sendCore response rest ho =>
    refine living_of_commands h ?_ rfl rfl
    unfold commands
    rw [ho]
    rfl
  | @receive e rest timer hq' hr =>
    have hsame : s.commands = e.timerCmd.kind ::
        (rest ++ timerOps s.ops).map (fun e => e.timerCmd.kind) := by
      unfold commands
      rw [hq']
      rfl
    rcases h with harmed | hmem
    · rw [hsame] at harmed
      exact .inl (Countdown.armed_receive harmed hr)
    · exact .inr hmem
  | @expire timer out hx =>
    cases out with
    | none => exact absurd (Countdown.expire_none hx).1 (by simp)
    | some duration => exact .inr (List.mem_append_right _ (by simp))
  | drain hq' => exact h

theorem not_taken_snoc {a : Action} (ht : ¬ Taken a t)
    (hi : i = .takeAction → s.fromFsm.head? ≠ some a) : ¬ Taken a (t ++ [(s, i)]) := by
  rintro ⟨p, hp, htake, hhead⟩
  rcases List.mem_append.mp hp with hp | hp
  · exact ht ⟨p, hp, htake, hhead⟩
  · obtain rfl := List.mem_singleton.mp hp
    exact hi htake hhead

/-- A transition before Normal sends no Normal, or sends it last. -/
theorem fed_before {e : Event} {tr : TransitionValid}
    (hm : s.state = FsmState.new ∨ ∃ m, m ≠ .normal ∧ s.state = Mode.state m)
    (hq : .sendHeartbeatMessageNormal ∉ s.fromFsm) (ht : ¬ Taken .sendHeartbeatMessageNormal t)
    (htr : s.state.step e = .valid tr) :
    Fed (t ++ [(s, .event e)])
      { s with
        state := tr.changeState, fromFsm := s.fromFsm ++ tr.actions.flatMap Action.beats } := by
  have hnot : ¬ Taken .sendHeartbeatMessageNormal (t ++ [(s, .event e)]) :=
    not_taken_snoc ht (by simp)
  rcases valid_cases (hm.imp_right fun ⟨m, _, h⟩ => ⟨m, h⟩) htr with
    ⟨-, rfl⟩ | ⟨m, m', l, -, hnext, rfl⟩
  · exact .before (.inr ⟨.init, by decide, rfl⟩) (by simpa [Action.beats] using hq) hnot
  · obtain ⟨-, ⟨hne, hnone⟩ | ⟨rfl, early, hlast, hearly⟩⟩ := beats_next hnext
    · exact .before (.inr ⟨m', hne, rfl⟩) (by simp [hq, hnone]) hnot
    · refine .sent rfl (s.fromFsm ++ early) ?_ (by simp [hq, hearly]) hnot
      simp [hlast]

theorem fed_step (h : Fed t s) (hs : (machine ctx none).step s i = some s') :
    Fed (t ++ [(s, i)]) s' := by
  cases h with
  | before hm hq ht =>
    cases move_of_step hs with
    | fed htr => exact fed_before hm hq ht htr
    | @action a rest ho hq' =>
      rw [hq'] at hq
      refine .before hm (fun hmem => hq (List.mem_cons_of_mem _ hmem)) (not_taken_snoc ht ?_)
      rintro - hhead
      rw [hq'] at hhead
      exact hq (List.mem_of_mem_head? hhead)
    | _ => exact .before hm hq (not_taken_snoc ht (by simp))
  | sent hm early hq hearly ht =>
    cases move_of_step hs with
    | @fed e tr htr =>
      rw [hm] at htr
      cases htr
    | @action a rest ho hq' =>
      rw [hq'] at hq
      cases early with
      | nil =>
        obtain ⟨rfl, rfl⟩ := List.cons.inj hq
        exact .taken hm rfl rfl (living_of_start rfl)
      | cons x early =>
        obtain ⟨rfl, rfl⟩ := List.cons.inj hq
        refine .sent hm early rfl (fun hmem => hearly (List.mem_cons_of_mem _ hmem))
          (not_taken_snoc ht ?_)
        rintro - hhead
        rw [hq'] at hhead
        exact hearly (Option.some.inj hhead ▸ List.mem_cons_self)
    | _ => exact .sent hm early hq hearly (not_taken_snoc ht (by simp))
  | taken hm hq hbeat hliving =>
    have hlives := living_step hliving hbeat hq hs
    cases move_of_step hs with
    | @fed e tr htr =>
      rw [hm] at htr
      cases htr
    | action ho hq' =>
      rw [hq] at hq'
      cases hq'
    | _ => exact .taken hm hq hbeat hlives

/-- What keeps the beat alive, where the generator waits in its select and where it does not. -/
theorem alive_of_living (h : s.Living) (hfire : ∀ a, s.timer ≠ .firing a) :
    s.timer.isRunning = true ∨ (∃ d, .initTimer d ∈ s.toTimer) ∨ .timeout ∈ s.fromTimer ∨
      ∃ d, .toTimer (.initTimer d) ∈ s.ops := by
  rcases h with harmed | hmem
  · cases htimer : s.timer with
    | running a => exact .inl rfl
    | deaf a => exact .inl rfl
    | firing a => exact absurd htimer (hfire a)
    | idle =>
      rw [htimer] at harmed
      obtain ⟨e, he, hkind⟩ := List.mem_map.mp (Countdown.mem_of_settle harmed)
      obtain ⟨d, rfl⟩ : ∃ d, e = .initTimer d := by
        cases e <;> first | exact ⟨_, rfl⟩ | cases hkind
      rcases List.mem_append.mp he with he | he
      · exact .inr (.inl ⟨d, he⟩)
      · obtain ⟨op, hop, hop'⟩ := List.mem_filterMap.mp he
        cases op <;> simp only [Option.some.injEq, reduceCtorEq] at hop'
        exact .inr (.inr (.inr ⟨d, hop' ▸ hop⟩))
  · exact .inr (.inr (.inl hmem))

end Normal

/-- Once Normal has been taken the beat never dies: a countdown runs, or a start of one or its
end is on its way. Only in the middle of a handler the start is still to be sent. -/
theorem the_heartbeat_lives_in_normal (ctx : AppContext) (t : List (Beats × Label)) (s : Beats)
    (run : (machine ctx none).Run t s) (h : Taken .sendHeartbeatMessageNormal t) :
    (s.ops = [] → s.timer.isRunning = true ∨ (∃ d, .initTimer d ∈ s.toTimer) ∨
        .timeout ∈ s.fromTimer) ∧
      (s.timer.isRunning = true ∨ (∃ d, .initTimer d ∈ s.toTimer) ∨ .timeout ∈ s.fromTimer ∨
        ∃ d, .toTimer (.initTimer d) ∈ s.ops) := by
  have hfire : ∀ a, s.timer ≠ .firing a := by
    apply run.always (fun s => ∀ a, s.timer ≠ .firing a)
    · rintro s rfl a
      simp [start]
    · exact fun s i s' hfire hs => ne_firing_step hfire hs
  have hfed : Fed t s := by
    apply run.history Fed
    · rintro s rfl
      refine .before (.inl rfl) List.not_mem_nil ?_
      rintro ⟨p, hp, -⟩
      exact List.not_mem_nil hp
    · exact fun t s i s' hfed hs => fed_step hfed hs
  cases hfed with
  | before hm hq ht => exact absurd h ht
  | sent hm early hq hearly ht => exact absurd h ht
  | taken hm hq hbeat hliving =>
    have halive := alive_of_living hliving hfire
    refine ⟨?_, halive⟩
    intro hops
    simpa only [hops, List.not_mem_nil, exists_false, or_false] using halive

/-- The last `Timeout` of SafeMode is answered in Normal, and the start that follows it is lost. -/
def toNormal : List Label :=
  [.event .start, .event .balanceEpochNotOk, .takeAction, .work, .timerReceive, .timerExpire,
    .event .timeout, .takeAction, .work, .takeAction, .work, .timerReceive, .timerReceive,
    .takeTimeout 0, .work, .work, .timerReceive]

theorem a_lost_start_leaves_the_countdown :
    ∃ t s, (machine default none).Run t s ∧ s.ops = [] ∧ s.toTimer = [] ∧ s.fromTimer = [] ∧
      s.timer.isRunning = true := by
  have hrun := Machine.run_of_final (m := machine default none) toNormal rfl (by decide)
  have halive := (the_heartbeat_lives_in_normal default _ _ hrun (by decide)).1 rfl
  refine ⟨_, _, hrun, rfl, rfl, rfl, ?_⟩
  rcases halive with h | ⟨d, hd⟩ | h
  · exact h
  · exact absurd hd List.not_mem_nil
  · exact absurd h List.not_mem_nil

end Beats

end EdgeGateway.Fsm
