-- What the watchdog of the heartbeat guarantees. Once an event was taken it
-- never goes missing; and where its timeouts come in time, the server is
-- declared dead only after two silent periods.
import EdgeGateway.Heartbeat.Tasks

namespace EdgeGateway.Heartbeat

open EdgeGateway.Lib EdgeGateway.Message

/-! ## What the watchdog is told -/

def Event.kind : Event → Cmd Unit
  | .initTimer => .start ()
  | .stopTimer => .stop
  | .heartbeat => .other
  | .timeout => .other

theorem timerCmd_kind (beats : Nat) (c : Event) : (Tasks.timerCmd beats c).kind = c.kind := by
  cases c <;> rfl

/-- The commands that actions send to the watchdog. -/
def commands (l : List Action) : List (Cmd Unit) := (l.filterMap Action.toTimer).map Event.kind

theorem commands_append (l k : List Action) : commands (l ++ k) = commands l ++ commands k := by
  unfold commands
  rw [List.filterMap_append, List.map_append]

namespace FsmHeartbeat

/-- A transition to a state that waits tells the watchdog to start, and
tells it nothing after that. -/
theorem step_starts {m m' : FsmHeartbeat} {e : Event} {l : List Action}
    (h : m.step e = some (m', l)) (hd : m'.state ≠ .deadServer) :
    Countdown.settle false (commands l) = true := by
  obtain ⟨state, oldStatus, status⟩ := m
  cases state <;> cases e <;>
    simp only [step, stepInner, Option.map_some, Option.map_none, Option.some.injEq,
      Prod.mk.injEq, reduceCtorEq] at h <;>
    obtain ⟨rfl, rfl⟩ := h <;>
    first
    | exact absurd rfl hd
    | rfl

/-- Only a dead server refuses a sample. -/
theorem step_none {m : FsmHeartbeat} {e : Event} (h : m.step e = none)
    (he : e.sample.isSome = true) : m.state = .deadServer := by
  obtain ⟨state, oldStatus, status⟩ := m
  cases e with
  | heartbeat => cases state <;> simp [step, stepInner] at h
  | timeout => cases state <;> first | rfl | simp [step, stepInner] at h
  | initTimer => simp [Event.sample] at he
  | stopTimer => simp [Event.sample] at he

end FsmHeartbeat

/-- What the watchdog will be told, in its order. -/
def Tasks.told (s : Tasks) : List (Cmd Unit) := s.timerQueue.map Event.kind ++ commands s.pending

/-! ## The watchdog never goes missing -/

/-- While the machine waits for the server, a timeout is in its channel or
the watchdog is armed. Nothing is held back by a full channel. -/
structure Watched (s : Tasks) : Prop where
  samples : ∀ e ∈ s.events, e.sample.isSome = true
  outbox : s.outbox = none
  listening : ∀ a, s.timer ≠ .firing a
  armed : 0 < s.taken → s.fsm.state ≠ .deadServer →
    .timeout ∈ s.events ∨ s.timer.Armed s.told

theorem watched_start : Watched Tasks.start where
  samples := by
    intro e he
    simp [Tasks.start] at he
  outbox := rfl
  listening := by
    intro a
    simp [Tasks.start]
  armed := by
    intro h
    simp [Tasks.start] at h

/-- A step that adds samples, and changes neither the machine nor what the
watchdog will be told, keeps the invariant. -/
theorem watched_frame {s s' : Tasks} (h : Watched s) (he : ∀ e ∈ s.events, e ∈ s'.events)
    (hnew : ∀ e ∈ s'.events, e.sample.isSome = true) (hb : s'.outbox = none)
    (htaken : s'.taken = s.taken) (hfsm : s'.fsm = s.fsm)
    (htimer : s'.timer = s.timer) (htold : s'.told = s.told) : Watched s' where
  samples := hnew
  outbox := hb
  listening := by rw [htimer]; exact h.listening
  armed := by
    rw [htaken, hfsm, htimer, htold]
    intro ht hd
    exact (h.armed ht hd).imp_left (he _)

theorem watched_step {s s' : Tasks} {i : Label} (h : Watched s) (hm : Move none s i s') :
    Watched s' := by
  have hbeat : ∀ e ∈ s.events ++ [Event.heartbeat], e.sample.isSome = true := by
    intro e he
    rcases List.mem_append.mp he with he | he
    · exact h.samples e he
    · rw [List.mem_singleton.mp he]
      rfl
  cases hm with
  | beat hl hr =>
    exact watched_frame h (fun e he => List.mem_append_left _ he) hbeat h.outbox rfl rfl rfl rfl
  | hold hl hr => simp at hr
  | sendHeld hr =>
    exact watched_frame h (fun e he => List.mem_append_left _ he) hbeat h.outbox rfl rfl rfl rfl
  | take hl ha =>
    refine watched_frame h (fun e he => he) h.samples h.outbox rfl rfl rfl ?_
    simp [Tasks.told, Tasks.pending, hl, ha]
  | @tell a c rest hl hc hr =>
    refine watched_frame h (fun e he => he) h.samples h.outbox rfl rfl rfl ?_
    simp [Tasks.told, Tasks.pending, hl, commands, hc]
  | @report a rest hl hc =>
    refine watched_frame h (fun e he => he) h.samples h.outbox rfl rfl rfl ?_
    simp [Tasks.told, Tasks.pending, hl, commands, hc]
  | deliver hb hr => simp [h.outbox] at hb
  | @refuse e rest hb he hn =>
    have hdead := FsmHeartbeat.step_none hn (h.samples e (by simp [he]))
    constructor
    · intro e' he'
      exact h.samples e' (by rw [he]; exact List.mem_cons_of_mem _ he')
    · exact hb
    · exact h.listening
    · intro _ hd
      exact absurd hdead hd
  | @advance e rest fsm l hb he hn =>
    -- whatever the watchdog does with older commands, the new list starts it last
    constructor
    · intro e' he'
      rw [Tasks.sendActions_events] at he'
      exact h.samples e' (by rw [he]; exact List.mem_cons_of_mem _ he')
    · exact hb
    · rw [Tasks.sendActions_timer]
      exact h.listening
    · intro _ hd
      rw [Tasks.sendActions_fsm] at hd
      right
      unfold Tasks.told
      rw [Tasks.sendActions_timer, Tasks.sendActions_timerQueue, Tasks.pending_sendActions,
        commands_append, ← List.append_assoc]
      · exact Countdown.armed_of_settle _ (FsmHeartbeat.step_starts hn hd)
      · exact hb
  | @receive c rest timer hq ht =>
    constructor
    · exact h.samples
    · exact h.outbox
    · exact Countdown.receive_ne_firing ht
    · intro htaken hd
      rcases h.armed htaken hd with he | harmed
      · exact Or.inl he
      · right
        unfold Tasks.told at harmed
        rw [hq, List.map_cons, ← timerCmd_kind s.beats, List.cons_append] at harmed
        exact Countdown.armed_receive harmed ht
  | @expire timer out ht =>
    rcases out with _ | a
    · exact absurd (Countdown.expire_none ht).1 (by simp)
    · have hidle := (Countdown.expire_some ht).2.1
      constructor
      · intro e he
        rcases List.mem_append.mp he with he | he
        · exact h.samples e he
        · simp only [Option.map_some, Option.toList_some, List.mem_singleton] at he
          rw [he]
          rfl
      · exact h.outbox
      · intro b
        simp [hidle]
      · intro _ _
        left
        simp

/-- With nothing on its way, a machine that has taken an event and does not
hold the server for dead has its countdown running; and when the countdown
ends, the machine learns of it. -/
theorem the_watchdog_never_goes_missing {t : List (Tasks × Label)} {s : Tasks}
    (r : (machine none).Run t s) (hevents : s.events = []) (hactions : s.actions = [])
    (htimer : s.timerQueue = []) (hlist : s.list = []) (htaken : 0 < s.taken)
    (hdead : s.fsm.state ≠ .deadServer) :
    s.timer.isRunning = true ∧
      ∃ s', (machine none).step s .timerExpire = some s' ∧ s'.events = [.timeout] := by
  have h : Watched s := by
    refine r.always Watched ?_ ?_
    · rintro s rfl
      exact watched_start
    · intro s i s' hs hstep
      exact watched_step hs (move_of_step hstep)
  have htold : s.told = [] := by
    simp [Tasks.told, Tasks.pending, htimer, hlist, hactions, h.outbox, commands]
  have harmed : s.timer.Armed [] := by
    rcases h.armed htaken hdead with he | harmed
    · simp [hevents] at he
    · exact htold ▸ harmed
  have hidle := Countdown.ne_idle_of_armed_nil harmed
  rcases hc : s.timer with _ | a | a | a
  · exact absurd hc hidle
  · refine ⟨rfl, _, by simp only [machine, Tasks.step, Tasks.timerExpire, hc]; rfl, ?_⟩
    simp [hevents]
  · refine ⟨rfl, _, by simp only [machine, Tasks.step, Tasks.timerExpire, hc]; rfl, ?_⟩
    simp [hevents]
  · exact absurd hc (h.listening a)

/-- The first heartbeat of a server, up to the start of the countdown. -/
def oneBeat : List Label :=
  [.heartbeat, .runFsm, .takeActions, .work, .work, .work, .timerReceive, .timerReceive]

/-- The tasks after the first heartbeat. -/
def alive : Tasks := ((machine none).final Tasks.start oneBeat).get (by decide +kernel)

theorem a_first_beat_is_watched :
    alive.timer.isRunning = true ∧
      ∃ s', (machine none).step alive .timerExpire = some s' ∧ s'.events = [.timeout] :=
  the_watchdog_never_goes_missing
    (Machine.run_of_final (m := machine none) oneBeat rfl (by decide +kernel))
    (by decide +kernel) (by decide +kernel) (by decide +kernel) (by decide +kernel)
    (by decide +kernel) (by decide +kernel)

/-! ## Two silent periods -/

/-- The timeouts that a state stands for, since the last heartbeat. -/
def State.silence : State → Nat
  | .startingWait => 0
  | .itsAlive => 0
  | .notHeartbeatYet => 1
  | .deadServer => 2

namespace FsmHeartbeat

/-- A timeout adds one to the silence, and the server is declared dead at
two. -/
theorem step_timeout {m m' : FsmHeartbeat} {l : List Action} (h : m.step .timeout = some (m', l)) :
    m'.state.silence = m.state.silence + 1 ∧
      ((∃ a ∈ l, a.reports = some .disconnected) → m'.state.silence = 2) := by
  obtain ⟨state, oldStatus, status⟩ := m
  cases state <;>
    simp only [step, stepInner, Option.map_some, Option.map_none, Option.some.injEq,
      Prod.mk.injEq, reduceCtorEq] at h <;>
    obtain ⟨rfl, rfl⟩ := h <;>
    simp [State.silence, Action.reports]

/-- A heartbeat ends the silence and declares no server dead. -/
theorem step_heartbeat {m m' : FsmHeartbeat} {l : List Action}
    (h : m.step .heartbeat = some (m', l)) :
    m'.state.silence = 0 ∧ ¬ ∃ a ∈ l, a.reports = some .disconnected := by
  obtain ⟨state, oldStatus, status⟩ := m
  cases state <;>
    simp only [step, stepInner, Option.map_some, Option.some.injEq, Prod.mk.injEq] at h <;>
    obtain ⟨rfl, rfl⟩ := h <;>
    simp [State.silence, Action.reports]

end FsmHeartbeat

namespace Tasks

/-- How many countdowns have ended that were started after the last heartbeat
that `run_fsm_heartbeat` has taken. -/
def silent (s : Tasks) : Nat := s.expired.countP (fun beats => s.beats ≤ beats)

/-- The loss of the server has been decided and not yet sent. -/
def Declared (s : Tasks) : Prop := ∃ a ∈ s.pending, a.reports = some .disconnected

instance (s : Tasks) : Decidable s.Declared :=
  inferInstanceAs (Decidable (∃ a ∈ s.pending, a.reports = some .disconnected))

/-- The countdown whose `Timeout` the watchdog delivers with its next step. -/
def delivers (cap : Option Nat) (s : Tasks) : Option Nat :=
  (s.timer.expire (room cap s.events)).bind Prod.snd

end Tasks

/-- The watchdog delivers a `Timeout` only when its countdown was started
after the last heartbeat taken and no other heartbeat waits before it; and no
heartbeat is taken while a loss of the server is still to be sent. -/
def Timely (cap : Option Nat) (s : Tasks) : Label → Prop
  | .timerExpire => ∀ beats ∈ s.delivers cap, beats = s.beats ∧ Event.heartbeat ∉ s.events
  | .runFsm => s.outbox = none → s.events.head? = some .heartbeat → ¬ s.Declared
  | _ => True

instance (cap : Option Nat) (s : Tasks) : (i : Label) → Decidable (Timely cap s i)
  | .timerExpire =>
    inferInstanceAs (Decidable (∀ beats ∈ s.delivers cap,
      beats = s.beats ∧ Event.heartbeat ∉ s.events))
  | .runFsm =>
    inferInstanceAs (Decidable (s.outbox = none → s.events.head? = some .heartbeat →
      ¬ s.Declared))
  | .heartbeat => inferInstanceAs (Decidable True)
  | .sendHeld => inferInstanceAs (Decidable True)
  | .takeActions => inferInstanceAs (Decidable True)
  | .work => inferInstanceAs (Decidable True)
  | .timerReceive => inferInstanceAs (Decidable True)

/-- When `heartbeat` sends `ServerDisconnected`, two countdowns have ended
that were both started after the last heartbeat taken. -/
def TwoSilent (s : Tasks) (i : Label) : Prop :=
  i = .work → s.list.head?.bind Action.reports = some .disconnected → 2 ≤ s.silent

instance (s : Tasks) (i : Label) : Decidable (TwoSilent s i) :=
  inferInstanceAs (Decidable (i = .work →
    s.list.head?.bind Action.reports = some .disconnected → 2 ≤ s.silent))

/-- The timeouts that wait come before the heartbeats that wait, and every
timeout, waiting or taken since the last heartbeat, is of a silent
countdown. -/
structure Backed (s : Tasks) : Prop where
  queue : ∃ k j, s.events = List.replicate k .timeout ++ List.replicate j .heartbeat ∧
    s.fsm.state.silence + k ≤ s.silent
  declared : s.Declared → 2 ≤ s.silent

theorem backed_start : Backed Tasks.start where
  queue := ⟨0, 0, rfl, Nat.le_refl 0⟩
  declared := by
    rintro ⟨a, ha, -⟩
    simp [Tasks.start, Tasks.pending] at ha

/-- A step of the task `heartbeat` that leaves the machine and what has
expired, and puts at most one more heartbeat in the queue. -/
theorem backed_frame {s s' : Tasks} (h : Backed s)
    (he : ∃ j, s'.events = s.events ++ List.replicate j .heartbeat) (hfsm : s'.fsm = s.fsm)
    (hsilent : s'.silent = s.silent) (hp : ∀ a ∈ s'.pending, a ∈ s.pending) : Backed s' where
  queue := by
    obtain ⟨k, j, hq, hle⟩ := h.queue
    obtain ⟨i, hi⟩ := he
    refine ⟨k, j + i, ?_, ?_⟩
    · rw [hi, hq, List.append_assoc, List.replicate_append_replicate]
    · rw [hfsm, hsilent]
      exact hle
  declared := by
    rintro ⟨a, ha, hr⟩
    rw [hsilent]
    exact h.declared ⟨a, hp a ha, hr⟩

/-- An event that is taken leaves what waits behind it. -/
theorem queue_tail {e : Event} {rest : List Event} {k j : Nat}
    (h : e :: rest = List.replicate k .timeout ++ List.replicate j .heartbeat) :
    (e = .timeout ∧ ∃ n, k = n + 1 ∧
      rest = List.replicate n .timeout ++ List.replicate j .heartbeat) ∨
    (e = .heartbeat ∧ k = 0 ∧ ∃ n, rest = List.replicate n .heartbeat) := by
  cases k with
  | succ k =>
    rw [List.replicate_succ, List.cons_append, List.cons.injEq] at h
    exact Or.inl ⟨h.1, k, rfl, h.2⟩
  | zero =>
    cases j with
    | zero => simp at h
    | succ j =>
      rw [List.replicate_zero, List.nil_append, List.replicate_succ, List.cons.injEq] at h
      exact Or.inr ⟨h.1, rfl, j, h.2⟩

section RunFsm

variable {cap : Option Nat} {s : Tasks} {e : Event} {rest : List Event}

/-- `run_fsm_heartbeat` takes an event that the machine refuses: only a dead
server refuses, and what it refuses is a timeout. -/
theorem backed_refuse (h : Backed s) (he : s.events = e :: rest) (hn : s.fsm.step e = none) :
    Backed (s.counted e rest) := by
  obtain ⟨k, j, hq, hle⟩ := h.queue
  rw [he] at hq
  rcases queue_tail hq with ⟨rfl, n, rfl, hrest⟩ | ⟨rfl, -, -⟩
  · constructor
    · refine ⟨n, j, hrest, ?_⟩
      show s.fsm.state.silence + n ≤ s.silent
      omega
    · exact h.declared
  · have hdead := FsmHeartbeat.step_none hn rfl
    simp [FsmHeartbeat.step, FsmHeartbeat.stepInner, hdead] at hn

/-- `run_fsm_heartbeat` takes an event and sends a list. A timeout moves from
the queue to the silence of the state; a heartbeat ends the silence, and no
loss is on its way then. -/
theorem backed_advance {fsm : FsmHeartbeat} {l : List Action} (h : Backed s)
    (hc : s.events.head? = some .heartbeat → ¬ s.Declared) (hb : s.outbox = none)
    (he : s.events = e :: rest) (hn : s.fsm.step e = some (fsm, l)) :
    Backed (Tasks.sendActions cap { s.counted e rest with fsm } l) := by
  obtain ⟨k, j, hq, hle⟩ := h.queue
  rw [he] at hq
  have hpending : (Tasks.sendActions cap { s.counted e rest with fsm } l).pending =
      s.pending ++ l := Tasks.pending_sendActions _ _ hb
  rcases queue_tail hq with ⟨rfl, n, rfl, hrest⟩ | ⟨rfl, rfl, n, hrest⟩
  · obtain ⟨hsilence, hdead⟩ := FsmHeartbeat.step_timeout hn
    have hsilent : (Tasks.sendActions cap { s.counted .timeout rest with fsm } l).silent =
        s.silent := by
      unfold Tasks.silent
      rw [Tasks.sendActions_beats, Tasks.sendActions_expired]
      rfl
    constructor
    · refine ⟨n, j, ?_, ?_⟩
      · rw [Tasks.sendActions_events]
        exact hrest
      · rw [Tasks.sendActions_fsm, hsilent]
        show fsm.state.silence + n ≤ s.silent
        omega
    · rintro ⟨a, ha, hr⟩
      rw [hsilent]
      rw [hpending, List.mem_append] at ha
      rcases ha with ha | ha
      · exact h.declared ⟨a, ha, hr⟩
      · have := hdead ⟨a, ha, hr⟩
        omega
  · obtain ⟨hsilence, hnot⟩ := FsmHeartbeat.step_heartbeat hn
    constructor
    · refine ⟨0, n, ?_, ?_⟩
      · rw [Tasks.sendActions_events]
        exact hrest
      · rw [Tasks.sendActions_fsm]
        show fsm.state.silence + 0 ≤ _
        omega
    · rintro ⟨a, ha, hr⟩
      rw [hpending, List.mem_append] at ha
      rcases ha with ha | ha
      · exact absurd ⟨a, ha, hr⟩ (hc (by rw [he]; rfl))
      · exact absurd ⟨a, ha, hr⟩ hnot

end RunFsm

/-- The watchdog delivers a timeout in time: it waits behind timeouts only,
and its countdown is one more that was silent. -/
theorem backed_expire {cap : Option Nat} {s : Tasks} {timer : Countdown Nat} {out : Option Nat}
    (h : Backed s) (hc : ∀ beats ∈ s.delivers cap, beats = s.beats ∧ Event.heartbeat ∉ s.events)
    (ht : s.timer.expire (room cap s.events) = some (timer, out)) :
    Backed { s with
      timer
      events := s.events ++ (out.map (fun _ => Event.timeout)).toList
      expired := s.expired ++ out.toList } := by
  rcases out with _ | beats
  · refine backed_frame h ⟨0, ?_⟩ rfl ?_ (fun a ha => ha)
    · simp
    · simp [Tasks.silent]
  · obtain ⟨rfl, hnone⟩ := hc beats (by simp [Tasks.delivers, ht])
    obtain ⟨k, j, hq, hle⟩ := h.queue
    obtain rfl : j = 0 := by
      rcases j with _ | j
      · rfl
      · exact absurd (by simp [hq, List.replicate_succ]) hnone
    have hsilent : (s.expired ++ [s.beats]).countP (fun beats => s.beats ≤ beats) =
        s.silent + 1 := by
      unfold Tasks.silent
      rw [List.countP_append]
      simp
    constructor
    · refine ⟨k + 1, 0, ?_, ?_⟩
      · simp [hq, List.replicate_succ']
      · show s.fsm.state.silence + (k + 1) ≤
          (s.expired ++ [s.beats]).countP (fun beats => s.beats ≤ beats)
        omega
    · intro hd
      have := h.declared hd
      show 2 ≤ (s.expired ++ [s.beats]).countP (fun beats => s.beats ≤ beats)
      omega

theorem backed_step {cap : Option Nat} {s s' : Tasks} {i : Label} (h : Backed s)
    (hc : Timely cap s i) (hm : Move cap s i s') : Backed s' := by
  cases hm with
  | beat hl hr => exact backed_frame h ⟨1, rfl⟩ rfl rfl (fun a ha => ha)
  | hold hl hr => exact backed_frame h ⟨0, by simp⟩ rfl rfl (fun a ha => ha)
  | sendHeld hr => exact backed_frame h ⟨1, rfl⟩ rfl rfl (fun a ha => ha)
  | take hl ha =>
    refine backed_frame h ⟨0, by simp⟩ rfl rfl ?_
    intro a hm
    simpa [Tasks.pending, hl, ha] using hm
  | tell hl hc hr =>
    refine backed_frame h ⟨0, by simp⟩ rfl rfl ?_
    intro a hm
    simp only [Tasks.pending, hl, List.cons_append, List.mem_cons] at hm ⊢
    exact Or.inr hm
  | report hl hc =>
    refine backed_frame h ⟨0, by simp⟩ rfl rfl ?_
    intro a hm
    simp only [Tasks.pending, hl, List.cons_append, List.mem_cons] at hm ⊢
    exact Or.inr hm
  | deliver hb hr =>
    refine backed_frame h ⟨0, by simp⟩ rfl rfl ?_
    intro a hm
    simpa [Tasks.pending, hb] using hm
  | refuse hb he hn => exact backed_refuse h he hn
  | advance hb he hn => exact backed_advance h (hc hb) hb he hn
  | receive hq ht => exact backed_frame h ⟨0, by simp⟩ rfl rfl (fun a ha => ha)
  | expire ht => exact backed_expire h hc ht

/-- Where every timeout comes in time, the server is declared dead only after
two silent periods. -/
theorem dead_after_two_silent_periods (cap : Option Nat) {t : List (Tasks × Label)} {s : Tasks}
    (r : (machine cap).Run t s) (h : Machine.Meets (Timely cap) t) : Machine.Meets TwoSilent t := by
  refine r.meets Backed (Timely cap) TwoSilent ?_ ?_ ?_ h
  · rintro s rfl
    exact backed_start
  · intro s i s' hs hc hstep
    exact backed_step hs hc (move_of_step hstep)
  · rintro s i s' hs - - - hhead
    obtain ⟨a, ha, hr⟩ := Option.bind_eq_some_iff.mp hhead
    refine hs.declared ⟨a, ?_, hr⟩
    have hmem : a ∈ s.list := List.mem_of_head? ha
    simp [Tasks.pending, hmem]

/-- One countdown ends in silence: the timeout is taken and, where a list
follows, executed. -/
def silence (n : Nat) : List Label :=
  [.timerExpire, .runFsm, .takeActions] ++ List.replicate n .work

/-- A server that is heard once and then falls silent for two periods. -/
def falls : List Label := oneBeat ++ silence 1 ++ [.timerReceive] ++ silence 2

theorem a_silent_server_is_dead :
    Machine.Meets TwoSilent ((machine (some 50)).trace Tasks.start falls) ∧
      ((machine (some 50)).final Tasks.start falls).map Tasks.toCore =
        some [.connected, .disconnected] :=
  ⟨dead_after_two_silent_periods (some 50)
    (Machine.run_of_final (m := machine (some 50)) falls rfl (by decide +kernel))
    (by decide +kernel), by decide +kernel⟩

/-- A server that is heard twice. The countdown of the first heartbeat ends
when the second is taken and its `StopTimer` is not sent yet; that timeout and
one silent period make the server dead. -/
def overtakes : List Label :=
  oneBeat ++ [.heartbeat, .runFsm, .timerExpire, .runFsm, .takeActions, .work, .work,
    .takeActions, .work, .timerReceive, .timerReceive, .timerReceive] ++ silence 1

/-- One silent period is enough. -/
theorem a_late_timeout_kills_the_server :
    (∃ s, (machine (some 50)).Run ((machine (some 50)).trace Tasks.start overtakes) s ∧
      s.toCore = [.connected, .disconnected]) ∧
    ¬ Machine.Meets TwoSilent ((machine (some 50)).trace Tasks.start overtakes) :=
  ⟨⟨_, Machine.run_of_final (m := machine (some 50)) overtakes rfl (by decide +kernel),
    by decide +kernel⟩, by decide +kernel⟩

end EdgeGateway.Heartbeat
