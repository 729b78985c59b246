-- The tasks of the metrics service. The timer and the task that makes the reports hand one
-- event to and fro, so there is one report for each sleep of the timer; the service hands
-- the reports on to the core. So the core hears the readings of the machine in their order,
-- and the reports stop only where the core takes none.
import EdgeGateway.Lib.Flow
import EdgeGateway.Lib.Work
import EdgeGateway.Metrics.Domain

namespace EdgeGateway.Metrics

open EdgeGateway.Lib EdgeGateway.Lib.Mailbox EdgeGateway.Message

/-! ## The tasks -/

inductive MetricsTimerEvent where
  /-- The seconds of the sleep. -/
  | initTimer (secs : Nat)
  | timeout
  deriving Repr, DecidableEq

/-- `system_metrics`, `metrics_timer` and `MetricsService::run`. -/
inductive Task where
  | systemMetrics
  | metricsTimer
  | service
  deriving Repr, DecidableEq

inductive Channel where
  | toServer
  | toTimer
  | toMetrics
  | toCore
  deriving Repr, DecidableEq

def Channel.Message : Channel → Type
  | .toServer => ServerMessage
  | .toTimer => MetricsTimerEvent
  | .toMetrics => MetricsTimerEvent
  | .toCore => ServerMessage

abbrev Send : Type := (c : Channel) × c.Message

/-- What a task finds outside: the time of day, and the machine half a second after the
timeout is taken. -/
structure Outside where
  now : Int64
  readings : Readings

abbrev State : Type := Mailbox Task Channel Channel.Message MetricsCollector

abbrev Trace : Type := List (State × Transfer Task Channel Channel.Message Outside)

/-- The metadata of a report. -/
def Outside.metadata (idEdge : String) (e : Outside) : Metadata where
  senderUserId := idEdge
  destinationId := "server0"
  timestamp := e.now

/-- The sleep of the timer lies between the command that it takes and the send that it makes
of it. -/
def handle (idEdge : String) (e : Outside) (s : MetricsCollector) :
    (c : Channel) → c.Message → MetricsCollector × List Send
  | .toServer, msg => (s, [⟨.toCore, msg⟩])
  | .toTimer, .initTimer _ => (s, [⟨.toMetrics, MetricsTimerEvent.timeout⟩])
  | .toTimer, .timeout => (s, [])
  | .toMetrics, .timeout =>
    let (s, sysMet) := s.collect (e.metadata idEdge) e.readings
    (s, [⟨.toServer, ServerMessage.metrics sysMet⟩, ⟨.toTimer, MetricsTimerEvent.initTimer 30⟩])
  | .toMetrics, .initTimer _ => (s, [])
  | .toCore, _ => (s, [])

def wiring (idEdge : String) (bufferSize : Nat) :
    Wiring Task Channel Channel.Message MetricsCollector Outside where
  cap
    | .toCore => bufferSize
    | _ => 100
  reader
    | .toServer => some .service
    | .toTimer => some .metricsTimer
    | .toMetrics => some .systemMetrics
    | .toCore => none
  fed _ := false
  handle := handle idEdge

/-- `system_metrics` begins with its collector and the first command of the timer. -/
def atStart (r : Readings) : State where
  queue := fun _ => []
  pending
    | .systemMetrics => [⟨.toTimer, MetricsTimerEvent.initTimer 30⟩]
    | _ => []
  memory := .new r

def tasks (idEdge : String) (bufferSize : Nat) (r : Readings) :
    Machine State (Transfer Task Channel Channel.Message Outside) :=
  Mailbox.machine (wiring idEdge bufferSize) (fun g => g = atStart r)

/-! ## The event that goes to and fro -/

/-- Where the one event is: it is still to be sent to the timer, with the report before it or
not, or waits for it, or the timer sleeps, or `system_metrics` is to take the timeout. -/
inductive Turn where
  | reporting (msg : ServerMessage)
  | starting
  | started
  | sleeping
  | expired

namespace Turn

/-- What `system_metrics` has still to send. -/
def sends : Turn → List Send
  | reporting msg => [⟨.toServer, msg⟩, ⟨.toTimer, MetricsTimerEvent.initTimer 30⟩]
  | starting => [⟨.toTimer, MetricsTimerEvent.initTimer 30⟩]
  | _ => []

def timerSends : Turn → List Send
  | sleeping => [⟨.toMetrics, MetricsTimerEvent.timeout⟩]
  | _ => []

def commands : Turn → List MetricsTimerEvent
  | started => [.initTimer 30]
  | _ => []

def timeouts : Turn → List MetricsTimerEvent
  | expired => [.timeout]
  | _ => []

end Turn

/-- The two tasks are at this turn. -/
structure At (turn : Turn) (g : State) : Prop where
  sends : g.pending .systemMetrics = turn.sends
  timerSends : g.pending .metricsTimer = turn.timerSends
  commands : g.queue .toTimer = turn.commands
  timeouts : g.queue .toMetrics = turn.timeouts
  passed : ∀ p ∈ g.pending .service, p.1 = .toCore

/-- What a step does with the event. -/
inductive Shift : Turn → Transfer Task Channel Channel.Message Outside → Turn → Prop where
  | report (msg : ServerMessage) : Shift (.reporting msg) (.put .systemMetrics) .starting
  | start : Shift .starting (.put .systemMetrics) .started
  | sleep (e : Outside) : Shift .started (.take .toTimer e) .sleeping
  | expire : Shift .sleeping (.put .metricsTimer) .expired
  | collect (e : Outside) (msg : ServerMessage) :
      Shift .expired (.take .toMetrics e) (.reporting msg)
  | pass (turn : Turn) (e : Outside) : Shift turn (.take .toServer e) turn
  | hand (turn : Turn) : Shift turn (.put .service) turn
  | drain (turn : Turn) : Shift turn (.drain .toCore) turn

section Steps

variable {idEdge : String} {bufferSize : Nat} {g g' : State} {turn : Turn}
  {i : Transfer Task Channel Channel.Message Outside}

theorem at_step (h : At turn g) (hs : g.step (wiring idEdge bufferSize) i = some g') :
    ∃ turn', Shift turn i turn' ∧ At turn' g' := by
  obtain ⟨hsends, htimer, hcommands, htimeouts, hpassed⟩ := h
  -- what a step does not touch is as it was, and the rest is computed
  cases move_of_step hs with
  | @take c t m rest e hr hq hp =>
    cases c with
    | toServer =>
      obtain rfl : Task.service = t := Option.some.inj hr
      refine ⟨turn, .pass turn e, hsends, htimer, hcommands, htimeouts, fun p hmem => ?_⟩
      exact List.mem_singleton.mp hmem ▸ rfl
    | toTimer =>
      obtain rfl : Task.metricsTimer = t := Option.some.inj hr
      rw [hq] at hcommands
      cases turn <;> cases hcommands
      exact ⟨.sleeping, .sleep e, hsends, rfl, rfl, htimeouts, hpassed⟩
    | toMetrics =>
      obtain rfl : Task.systemMetrics = t := Option.some.inj hr
      rw [hq] at htimeouts
      cases turn <;> cases htimeouts
      exact ⟨.reporting _, .collect e _, rfl, htimer, hcommands, rfl, hpassed⟩
    | toCore => cases hr
  | @put t c m rest hp hroom =>
    cases t with
    | systemMetrics =>
      rw [hp] at hsends
      cases turn with
      | reporting msg =>
        cases hsends
        exact ⟨.starting, .report msg, rfl, htimer, hcommands, htimeouts, hpassed⟩
      | starting =>
        cases hsends
        refine ⟨.started, .start, rfl, htimer, ?_, htimeouts, hpassed⟩
        exact congrArg (· ++ [MetricsTimerEvent.initTimer 30]) hcommands
      | _ => cases hsends
    | metricsTimer =>
      rw [hp] at htimer
      cases turn <;> cases htimer
      refine ⟨.expired, .expire, hsends, rfl, hcommands, ?_, hpassed⟩
      exact congrArg (· ++ [MetricsTimerEvent.timeout]) htimeouts
    | service =>
      obtain rfl : c = .toCore := hpassed ⟨c, m⟩ (by simp [hp])
      refine ⟨turn, .hand turn, hsends, htimer, hcommands, htimeouts, fun p hmem => ?_⟩
      exact hpassed p (hp ▸ List.mem_cons_of_mem _ hmem)
  | feed m hf hroom => cases hf
  | @drain c m rest hr hq =>
    cases c with
    | toCore => exact ⟨turn, .drain turn, hsends, htimer, hcommands, htimeouts, hpassed⟩
    | _ => cases hr

end Steps

theorem at_start (r : Readings) : At .starting (atStart r) :=
  ⟨rfl, rfl, rfl, rfl, fun _ hp => absurd hp List.not_mem_nil⟩

/-! ## The reports -/

namespace MetricsCollector

/-- The collector after some reports. -/
def after (c : MetricsCollector) (calls : List (Metadata × Readings)) : MetricsCollector :=
  calls.foldl (fun c call => (c.collect call.1 call.2).1) c

theorem after_append (c : MetricsCollector) (calls calls' : List (Metadata × Readings)) :
    c.after (calls ++ calls') = (c.after calls).after calls' :=
  List.foldl_append

/-- Reports go on from the collector that the earlier ones leave. -/
theorem collects_append (c : MetricsCollector) (calls calls' : List (Metadata × Readings)) :
    c.collects (calls ++ calls') = c.collects calls ++ (c.after calls).collects calls' := by
  induction calls generalizing c with
  | nil => rfl
  | cons call calls ih =>
    obtain ⟨metadata, r⟩ := call
    rw [List.cons_append, collects, ih, collects]
    rfl

end MetricsCollector

/-- The readings of the report that a step makes. -/
def call (idEdge : String) (g : State) :
    Transfer Task Channel Channel.Message Outside → List (Metadata × Readings)
  | .take .toMetrics e =>
    match (g.queue .toMetrics : List MetricsTimerEvent) with
    | .timeout :: _ => [(e.metadata idEdge, e.readings)]
    | _ => []
  | _ => []

/-- The readings of all reports. -/
def calls (idEdge : String) (l : Trace) : List (Metadata × Readings) := Machine.log (call idEdge) l

/-- The timer ends its sleep. -/
def wakes : Transfer Task Channel Channel.Message Outside → Bool
  | .put .metricsTimer => true
  | _ => false

def slept (l : Trace) : Nat := l.countP (fun p => wakes p.2)

theorem slept_snoc (l : Trace) (g : State) (i : Transfer Task Channel Channel.Message Outside) :
    slept (l ++ [(g, i)]) = slept l + if wakes i then 1 else 0 := by
  unfold slept
  rw [List.countP_append, List.countP_singleton]

/-- The timeouts that `system_metrics` has still to take. -/
def Turn.left : Turn → Nat
  | .expired => 1
  | _ => 0

/-- The reports. -/
def reportView : (c : Channel) → c.Message → Option ServerMessage
  | .toServer, msg => some msg
  | .toCore, msg => some msg
  | _, _ => none

/-- What the core has taken. -/
def taken (l : Trace) : List ServerMessage := Machine.log (went reportView .toCore) l

/-- What is on its way to the core. -/
def underWay (g : State) : List ServerMessage :=
  lane reportView g .toCore [(.service, .toServer)] ++ owed reportView g .systemMetrics .toServer

section Laws

variable {idEdge : String} {bufferSize : Nat} {r : Readings} {l : Trace} {g g' : State}
  {turn turn' : Turn} {i : Transfer Task Channel Channel.Message Outside}

theorem writer_systemMetrics :
    Writer reportView (wiring idEdge bufferSize) .systemMetrics .toServer where
  fed h := by cases h
  others := by
    intro e s c m t hr ht
    cases c with
    | toServer => rfl
    | toTimer => cases m <;> rfl
    | toMetrics => exact absurd (Option.some.inj hr).symm ht
    | toCore => rfl

theorem relay_service : Relay reportView (wiring idEdge bufferSize) .service .toServer .toCore := by
  apply relay_of_source rfl rfl
  · intro e s c m p hp hc
    cases c with
    | toServer => rfl
    | toTimer =>
      cases m with
      | initTimer secs => rw [List.mem_singleton.mp hp] at hc; cases hc
      | timeout => cases hp
    | toMetrics =>
      cases m with
      | initTimer secs => cases hp
      | timeout =>
        rcases List.mem_cons.mp hp with rfl | hp
        · cases hc
        · rw [List.mem_singleton.mp hp] at hc
          cases hc
    | toCore => cases hp
  · exact fun e s m => rfl

variable (idEdge) in
/-- A timeout is taken once. -/
theorem left_step (h : At turn g) (hshift : Shift turn i turn') :
    (call idEdge g i).length + turn'.left = turn.left + if wakes i then 1 else 0 := by
  cases hshift with
  | collect e msg =>
    have htimeouts := h.timeouts
    simp only [call, htimeouts, Turn.timeouts]
    rfl
  | _ => first | rfl | exact Nat.zero_add _

theorem run_at (run : (tasks idEdge bufferSize r).Run l g) :
    ∃ turn, At turn g ∧ (calls idEdge l).length + turn.left = slept l := by
  refine run.history (fun l g => ∃ turn, At turn g ∧
    (calls idEdge l).length + turn.left = slept l) ?_ ?_
  · rintro g rfl
    exact ⟨.starting, at_start r, rfl⟩
  · rintro l g i g' ⟨turn, h, hcount⟩ hs
    obtain ⟨turn', hshift, h'⟩ := at_step h hs
    refine ⟨turn', h', ?_⟩
    have hleft := left_step idEdge h hshift
    unfold calls at hcount ⊢
    rw [Machine.log_snoc, List.length_append, slept_snoc]
    omega

/-- A step makes the reports of its readings, and the collector remembers them. -/
theorem caused_step (hs : g.step (wiring idEdge bufferSize) i = some g') :
    caused reportView (wiring idEdge bufferSize) .systemMetrics .toServer g i =
        (g.memory.collects (call idEdge g i)).map .metrics ∧
      g'.memory = g.memory.after (call idEdge g i) := by
  cases move_of_step hs with
  | @take c t m rest e hr hq hp =>
    cases c with
    | toServer =>
      simp only [caused, call, hq]
      exact ⟨rfl, rfl⟩
    | toTimer =>
      simp only [caused, call, hq]
      refine ⟨rfl, ?_⟩
      cases m <;> rfl
    | toMetrics =>
      simp only [caused, call, hq]
      cases m <;> exact ⟨rfl, rfl⟩
    | toCore => cases hr
  | put hp hroom => exact ⟨rfl, rfl⟩
  | feed m hf hroom => cases hf
  | drain hr hq => exact ⟨rfl, rfl⟩

theorem run_caused (run : (tasks idEdge bufferSize r).Run l g) :
    Machine.log (caused reportView (wiring idEdge bufferSize) .systemMetrics .toServer) l =
        ((MetricsCollector.new r).collects (calls idEdge l)).map .metrics ∧
      g.memory = (MetricsCollector.new r).after (calls idEdge l) := by
  refine run.history (fun l g =>
    Machine.log (caused reportView (wiring idEdge bufferSize) .systemMetrics .toServer) l =
        ((MetricsCollector.new r).collects (calls idEdge l)).map .metrics ∧
      g.memory = (MetricsCollector.new r).after (calls idEdge l)) ?_ ?_
  · rintro g rfl
    exact ⟨rfl, rfl⟩
  · rintro l g i g' ⟨hreports, hmemory⟩ hs
    obtain ⟨hcaused, hafter⟩ := caused_step hs
    unfold calls at *
    rw [Machine.log_snoc, Machine.log_snoc, hreports, hcaused, hafter, hmemory,
      MetricsCollector.collects_append, MetricsCollector.after_append, List.map_append]
    exact ⟨rfl, rfl⟩

end Laws

/-- In every run the core has taken, and is on its way to take, one report for each timeout, made
of the readings in their order; and there is one for each sleep of the timer, but for the last
sleep at most. -/
theorem reports_reach_the_core (idEdge : String) (bufferSize : Nat) (r : Readings) (l : Trace)
    (g : State) (run : (tasks idEdge bufferSize r).Run l g) :
    taken l ++ underWay g =
        ((MetricsCollector.new r).collects (calls idEdge l)).map .metrics ∧
      (calls idEdge l).length ≤ slept l ∧ slept l ≤ (calls idEdge l).length + 1 := by
  obtain ⟨turn, -, hcount⟩ := run_at run
  have hleft : turn.left ≤ 1 := by cases turn <;> simp [Turn.left]
  refine ⟨?_, by omega, by omega⟩
  have howed := run_owed writer_systemMetrics
    (by
      intro t ht
      cases t with
      | systemMetrics => exact absurd rfl ht
      | _ => rfl) run
  have hlinked : Linked reportView (wiring idEdge bufferSize) .toCore
      [(Task.service, Channel.toServer)] := .cons relay_service (.nil _)
  have hlane := run_lane hlinked
    (by
      refine ⟨fun t ht => ?_, trivial⟩
      cases t with
      | service => exact absurd rfl ht
      | _ => rfl) run
  have hnone : owed reportView (atStart r) .systemMetrics .toServer = [] := rfl
  have hempty : lane reportView (atStart r) .toCore [(Task.service, Channel.toServer)] = [] := rfl
  rw [hnone, List.nil_append, (run_caused run).1] at howed
  rw [hempty, List.nil_append] at hlane
  unfold taken underWay
  rw [howed, ← List.append_assoc, ← hlane]
  rfl

/-! ## Where the reports stop -/

section Still

variable {idEdge : String} {bufferSize : Nat} {g : State} {turn : Turn}

theorem suspended_of_still (h : At turn g) (hstill : g.Still (wiring idEdge bufferSize)) :
    g.Suspended (wiring idEdge bufferSize) .systemMetrics .toServer ∧
      g.Suspended (wiring idEdge bufferSize) .service .toCore := by
  -- what is read of the machine does not matter: a task that could take would not stand still
  have e : Outside := { now := 0, readings := default }
  cases turn with
  | reporting msg =>
    have hreports : g.Suspended (wiring idEdge bufferSize) .systemMetrics .toServer :=
      suspended_of_pending hstill h.sends
    obtain ⟨p, hp, hservice⟩ := suspended_reader hstill e hreports (Nat.succ_pos 99) rfl
    exact ⟨hreports, h.passed p hp ▸ hservice⟩
  | starting =>
    have hfull := (suspended_of_pending hstill h.sends).2
    unfold Full at hfull
    simp only [h.commands] at hfull
    cases hfull
  | started =>
    obtain ⟨p, hp, -⟩ := suspended_of_queue (c := Channel.toTimer) hstill e rfl
      (by rw [h.commands]; exact List.cons_ne_nil _ _)
    rw [h.timerSends] at hp
    cases hp
  | sleeping =>
    have hfull := (suspended_of_pending hstill h.timerSends).2
    unfold Full at hfull
    simp only [h.timeouts] at hfull
    cases hfull
  | expired =>
    obtain ⟨p, hp, -⟩ := suspended_of_queue (c := Channel.toMetrics) hstill e rfl
      (by rw [h.timeouts]; exact List.cons_ne_nil _ _)
    rw [h.sends] at hp
    cases hp

theorem still_of_suspended (h : At turn g)
    (hreports : g.Suspended (wiring idEdge bufferSize) .systemMetrics .toServer)
    (hservice : g.Suspended (wiring idEdge bufferSize) .service .toCore) :
    g.Still (wiring idEdge bufferSize) := by
  have hnext := hreports.1
  rw [Mailbox.next, h.sends] at hnext
  apply still_of_each
  intro t
  cases t with
  | systemMetrics => exact .inl ⟨_, hreports⟩
  | service => exact .inl ⟨_, hservice⟩
  | metricsTimer =>
    -- with a report to send, `system_metrics` has the event, and the timer has none
    cases turn with
    | reporting msg =>
      refine .inr ⟨h.timerSends, fun c hr => ?_⟩
      cases c with
      | toTimer => exact h.commands
      | _ => cases hr
    | _ => cases hnext

end Still

/-- The reports stop exactly where the service waits for the core and `system_metrics` for the
service: each waits with a report for a full channel. -/
theorem the_core_alone_stops_the_reports (idEdge : String) (bufferSize : Nat) (r : Readings)
    (l : Trace) (g : State) (run : (tasks idEdge bufferSize r).Run l g) :
    g.Still (wiring idEdge bufferSize) ↔
      g.Suspended (wiring idEdge bufferSize) .systemMetrics .toServer ∧
        g.Suspended (wiring idEdge bufferSize) .service .toCore := by
  obtain ⟨turn, h, -⟩ := run_at run
  exact ⟨suspended_of_still h, fun hs => still_of_suspended h hs.1 hs.2⟩

/-! ## Concrete runs -/

/-- The machine and the clock do not matter here. -/
def idle : Outside := { now := 0, readings := default }

/-- The timer sleeps once, and `system_metrics` has a report to send. -/
def tick : List (Transfer Task Channel Channel.Message Outside) :=
  [.put .systemMetrics, .take .toTimer idle, .put .metricsTimer, .take .toMetrics idle]

theorem a_report_reaches_the_core : ∃ l g, (tasks "edge" 1 default).Run l g ∧
    (taken l).length = 1 ∧
    taken l ++ underWay g =
      ((MetricsCollector.new default).collects (calls "edge" l)).map .metrics := by
  have hrun := Machine.run_of_final (m := tasks "edge" 1 default)
    (tick ++ [.put .systemMetrics, .take .toServer idle, .put .service, .drain .toCore]) rfl
    (by decide +kernel)
  exact ⟨_, _, hrun, by decide +kernel, (reports_reach_the_core "edge" 1 default _ _ hrun).1⟩

/-- The core takes nothing: one report fills its channel, the service has another, and a hundred
wait for it. -/
def unheard : List (Transfer Task Channel Channel.Message Outside) :=
  tick ++ [.put .systemMetrics, .take .toServer idle, .put .service] ++ tick ++
    [.put .systemMetrics, .take .toServer idle] ++
    (List.replicate 100 (tick ++ [.put .systemMetrics])).flatten ++ tick

theorem an_hour_without_the_core_stops_the_reports : ∃ l g,
    (tasks "edge" 1 default).Run l g ∧ slept l = 103 ∧ g.Still (wiring "edge" 1) := by
  have hrun := Machine.run_of_final (m := tasks "edge" 1 default) unheard rfl (by decide +kernel)
  exact ⟨_, _, hrun, by decide +kernel,
    (the_core_alone_stops_the_reports "edge" 1 default _ _ hrun).mpr
      ⟨by decide +kernel, by decide +kernel⟩⟩

end EdgeGateway.Metrics
