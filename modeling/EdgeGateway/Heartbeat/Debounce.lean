-- What the machine of the heartbeat does over a whole run: it announces the
-- connection when two heartbeats follow each other and its loss when two
-- timeouts do.
import EdgeGateway.Heartbeat.Domain
import EdgeGateway.Lib.Debounce

namespace EdgeGateway.Heartbeat

open EdgeGateway.Lib EdgeGateway.Message

/-! ## Runs of the machine -/

namespace FsmHeartbeat

/-- One turn of `run_fsm_heartbeat`: an invalid transition leaves the state
and sends no list. -/
def feed (m : FsmHeartbeat) (e : Event) : FsmHeartbeat × List Action := (m.step e).getD (m, [])

/-- The machine after the events, the oldest first. -/
def fed (m : FsmHeartbeat) (es : List Event) : FsmHeartbeat :=
  es.foldl (fun m e => (m.feed e).1) m

/-- What the task `heartbeat` sends to the core for the lists of a run. -/
def emitted (m : FsmHeartbeat) : List Event → List ServerStatus
  | [] => []
  | e :: es => (m.feed e).2.filterMap Action.reports ++ emitted (m.feed e).1 es

/-- The statuses that the machine turns to during a run. -/
def turns (m : FsmHeartbeat) : List Event → List ServerStatus
  | [] => []
  | e :: es =>
    if (m.feed e).1.status = m.status then turns (m.feed e).1 es
    else (m.feed e).1.status :: turns (m.feed e).1 es

theorem fed_snoc (m : FsmHeartbeat) (es : List Event) (e : Event) :
    m.fed (es ++ [e]) = ((m.fed es).feed e).1 := by
  unfold fed
  rw [List.foldl_append]
  rfl

end FsmHeartbeat

/-! ## The events as samples -/

/-- The status that an event speaks for. The timer commands speak for none. -/
def Event.sample : Event → Option ServerStatus
  | .heartbeat => some .connected
  | .timeout => some .disconnected
  | .initTimer => none
  | .stopTimer => none

/-- The newest heartbeat or timeout of a run. -/
def lastBeat (es : List Event) : Option Event :=
  (es.filter (fun e => e.sample.isSome)).getLast?

/-- Before any event the filter waits as after a heartbeat. -/
def quiet : Debounce ServerStatus := { last := .connected, level := .disconnected }

/-- A filter that saw the same events: its level is the status, and its last
sample is what the state stands for. -/
def Filters (d : Debounce ServerStatus) (m : FsmHeartbeat) : Prop :=
  m.oldStatus = d.level ∧ m.status = d.level ∧
    match m.state with
    | .startingWait => d.last = .connected
    | .itsAlive => d.last = .connected ∧ d.level = .connected
    | .notHeartbeatYet => d.last = .disconnected
    | .deadServer => d.last = .disconnected ∧ d.level = .disconnected

theorem filters_new : Filters quiet FsmHeartbeat.new := ⟨rfl, rfl, rfl⟩

/-- An event that is no sample is an invalid transition. -/
theorem feed_of_no_sample {m : FsmHeartbeat} {e : Event} (h : e.sample = none) :
    m.feed e = (m, []) := by
  obtain ⟨state, oldStatus, status⟩ := m
  cases e with
  | heartbeat => simp [Event.sample] at h
  | timeout => simp [Event.sample] at h
  | initTimer => cases state <;> rfl
  | stopTimer => cases state <;> rfl

/-- The machine takes a sample as the filter does, and its list reports the
level exactly when it turns. -/
theorem feed_filters {d : Debounce ServerStatus} {m : FsmHeartbeat} {e : Event} {a : ServerStatus}
    (h : Filters d m) (ha : e.sample = some a) :
    Filters (d.sample a) (m.feed e).1 ∧
      (m.feed e).2.filterMap Action.reports =
        if (d.sample a).level = d.level then [] else [(d.sample a).level] := by
  obtain ⟨state, oldStatus, status⟩ := m
  obtain ⟨last, level⟩ := d
  obtain ⟨hold, hstatus, hlast⟩ := h
  dsimp only at hold hstatus hlast
  subst hold hstatus
  cases e with
  | initTimer => simp [Event.sample] at ha
  | stopTimer => simp [Event.sample] at ha
  | heartbeat =>
    simp only [Event.sample, Option.some.injEq] at ha
    subst ha
    cases state with
    | startingWait => subst hlast; cases status <;> exact ⟨⟨rfl, rfl, rfl, rfl⟩, rfl⟩
    | itsAlive => obtain ⟨rfl, rfl⟩ := hlast; exact ⟨⟨rfl, rfl, rfl⟩, rfl⟩
    | notHeartbeatYet => subst hlast; cases status <;> exact ⟨⟨rfl, rfl, rfl⟩, rfl⟩
    | deadServer => obtain ⟨rfl, rfl⟩ := hlast; exact ⟨⟨rfl, rfl, rfl⟩, rfl⟩
  | timeout =>
    simp only [Event.sample, Option.some.injEq] at ha
    subst ha
    cases state with
    | startingWait => subst hlast; cases status <;> exact ⟨⟨rfl, rfl, rfl⟩, rfl⟩
    | itsAlive => obtain ⟨rfl, rfl⟩ := hlast; exact ⟨⟨rfl, rfl, rfl⟩, rfl⟩
    | notHeartbeatYet => subst hlast; cases status <;> exact ⟨⟨rfl, rfl, rfl, rfl⟩, rfl⟩
    | deadServer => obtain ⟨rfl, rfl⟩ := hlast; exact ⟨⟨rfl, rfl, rfl, rfl⟩, rfl⟩

/-- The samples of a run. -/
def samples (es : List Event) : List ServerStatus := es.filterMap Event.sample

theorem samples_cons (e : Event) (es : List Event) :
    samples (e :: es) = e.sample.toList ++ samples es := by
  unfold samples
  cases e <;> rfl

theorem samples_snoc (es : List Event) (e : Event) :
    samples (es ++ [e]) = samples es ++ e.sample.toList := by
  unfold samples
  rw [List.filterMap_append]
  cases e <;> rfl

/-- After any run the machine stands where the filter stands. -/
theorem fed_filters {d : Debounce ServerStatus} {m : FsmHeartbeat} (h : Filters d m)
    (es : List Event) : Filters (d.after (samples es)) (m.fed es) := by
  induction es using List.reverseRecOn with
  | nil => exact h
  | append_singleton es e ih =>
    rw [FsmHeartbeat.fed_snoc, samples_snoc]
    rcases he : e.sample with _ | a
    · rw [feed_of_no_sample he]
      simpa using ih
    · rw [Option.toList_some, Debounce.after_snoc]
      exact (feed_filters ih he).1

/-- The statuses that are sent are the turns of the filter. -/
theorem emitted_eq_turns {d : Debounce ServerStatus} {m : FsmHeartbeat} (h : Filters d m)
    (es : List Event) :
    m.emitted es = d.turns (samples es) ∧ m.turns es = d.turns (samples es) := by
  induction es generalizing d m with
  | nil => exact ⟨rfl, rfl⟩
  | cons e es ih =>
    unfold FsmHeartbeat.emitted FsmHeartbeat.turns
    rw [samples_cons]
    rcases he : e.sample with _ | a
    · rw [feed_of_no_sample he]
      simpa using ih h
    · obtain ⟨hnext, hreports⟩ := feed_filters h he
      obtain ⟨hemitted, hturns⟩ := ih hnext
      rw [hreports, hemitted, hturns, Option.toList_some, List.singleton_append, Debounce.turns,
        hnext.2.1, h.2.1]
      constructor
      · split <;> rfl
      · rfl

theorem lastBeat_snoc (es : List Event) (e : Event) :
    lastBeat (es ++ [e]) = if e.sample.isSome then some e else lastBeat es := by
  unfold lastBeat
  rw [List.filter_append]
  cases e <;> simp [Event.sample]

/-- The filter's last sample, told by the newest heartbeat or timeout. -/
theorem last_sample (es : List Event) :
    ((quiet.after (samples es)).last = .connected ↔
      lastBeat es = none ∨ lastBeat es = some .heartbeat) ∧
    ((quiet.after (samples es)).last = .disconnected ↔ lastBeat es = some .timeout) := by
  induction es using List.reverseRecOn with
  | nil => simp [samples, lastBeat, quiet, Debounce.after]
  | append_singleton es e ih =>
    rw [samples_snoc, lastBeat_snoc]
    cases e with
    | heartbeat => simp [Event.sample, Debounce.after_snoc, Debounce.sample]
    | timeout => simp [Event.sample, Debounce.after_snoc, Debounce.sample]
    | initTimer => simpa [Event.sample] using ih
    | stopTimer => simpa [Event.sample] using ih

/-- The status turns to `b` at the event after the run `es`. -/
def TurnsTo (b : ServerStatus) (es : List Event) (e : Event) : Prop :=
  (FsmHeartbeat.new.fed es).status ≠ b ∧ (FsmHeartbeat.new.fed (es ++ [e])).status = b

/-- A turn is one of the filter: the event repeats the sample before it. -/
theorem turnsTo_iff (b : ServerStatus) (es : List Event) (e : Event) :
    TurnsTo b es e ↔ e.sample = some b ∧ (FsmHeartbeat.new.fed es).status ≠ b ∧
      (quiet.after (samples es)).last = b := by
  unfold TurnsTo
  have hnow := fed_filters filters_new es
  have hnext := fed_filters filters_new (es ++ [e])
  rw [hnow.2.1, hnext.2.1, samples_snoc]
  rcases he : e.sample with _ | a
  · simp
  · simp only [Option.toList_some, Debounce.after_snoc, Option.some.injEq]
    exact Debounce.turn_iff _ a b

/-- The machine debounces its two samples, and what it sends are its turns,
which go to and fro from `connected`. -/
theorem the_status_needs_two_in_a_row (es : List Event) :
    (∀ e, TurnsTo .connected es e ↔
      e = .heartbeat ∧ (FsmHeartbeat.new.fed es).status = .disconnected ∧
        (lastBeat es = none ∨ lastBeat es = some .heartbeat)) ∧
    (∀ e, TurnsTo .disconnected es e ↔
      e = .timeout ∧ (FsmHeartbeat.new.fed es).status = .connected ∧
        lastBeat es = some .timeout) ∧
    (FsmHeartbeat.new.fed es).oldStatus = (FsmHeartbeat.new.fed es).status ∧
    FsmHeartbeat.new.emitted es = FsmHeartbeat.new.turns es ∧
    FsmHeartbeat.new.emitted es =
      Debounce.alternating .connected .disconnected (FsmHeartbeat.new.emitted es).length := by
  have hnow := fed_filters filters_new es
  obtain ⟨hemitted, hturns⟩ := emitted_eq_turns filters_new es
  obtain ⟨hconnected, hdisconnected⟩ := last_sample es
  have hup : ∀ e : Event, e.sample = some .connected ↔ e = .heartbeat := by
    intro e
    cases e <;> simp [Event.sample]
  have hdown : ∀ e : Event, e.sample = some .disconnected ↔ e = .timeout := by
    intro e
    cases e <;> simp [Event.sample]
  have htwo : ∀ c : ServerStatus, c = .connected ∨ c = .disconnected := by
    intro c
    cases c <;> simp
  have hne : ∀ c : ServerStatus, (c ≠ .connected ↔ c = .disconnected) ∧
      (c ≠ .disconnected ↔ c = .connected) := by
    intro c
    cases c <;> simp
  refine ⟨?_, ?_, ?_, ?_, ?_⟩
  · intro e
    rw [turnsTo_iff, hup, hconnected, (hne _).1]
  · intro e
    rw [turnsTo_iff, hdown, hdisconnected, (hne _).2]
  · rw [hnow.1, hnow.2.1]
  · rw [hemitted, hturns]
  · rw [hemitted]
    exact Debounce.alternating_of_chain htwo (Debounce.turns_chain quiet (samples es))

end EdgeGateway.Heartbeat
