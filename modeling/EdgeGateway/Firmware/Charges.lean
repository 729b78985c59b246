-- Whose timeout the task takes. A `Timeout` says neither for which hub nor for which session
-- its countdown was started; beside the runtime stand the turns that its events carry.
import EdgeGateway.Firmware.Orders
import EdgeGateway.Lib.Countdown

namespace EdgeGateway.Firmware

open EdgeGateway.Lib EdgeGateway.Message EdgeGateway.Networks

/-! ## Turns -/

/-- The turn of a hub: the number of the session and the index in it. -/
structure Turn where
  session : Nat
  index : Nat
  deriving Repr, DecidableEq

/-- How the watchdog sees an event that is sent in a turn. -/
def Turn.cmd (turn : Turn) : Event → Cmd Turn
  | .initTimer _ => .start turn
  | .stopTimer => .stop
  | .timeout => .other

/-- The events that a handler has still to send to the watchdog. -/
def timerEvents (ops : List Op) : List Event :=
  ops.filterMap fun
    | .toTimer event => some event
    | _ => none

/-- The runtime with the turns of its events: `session` counts the orders that the task has
taken, `toTimer`, `timer` and `fromTimer` are those of the runtime with their turns. -/
structure Tagged where
  ota : Ota
  session : Nat
  toTimer : List (Cmd Turn)
  timer : Countdown Turn
  fromTimer : List Turn

namespace Tagged

def start (manager : NetworkManager) : Tagged where
  ota := Ota.start manager
  session := 0
  toTimer := []
  timer := .idle
  fromTimer := []

/-- The turn at which the task is. -/
def turn (s : Tagged) : Turn := ⟨s.session, s.ota.task.index⟩

/-- What a step of the runtime does to the turns. -/
def note (s : Tagged) : Ota.Label → Tagged
  | .takeMsg =>
    match s.ota.selecting, s.ota.msgs with
    | true, .update _ :: _ => { s with session := s.session + 1 }
    | _, _ => s
  | .takeTimer => { s with fromTimer := s.fromTimer.tail }
  | .work _ =>
    match s.ota.ops with
    | .toTimer event :: _ => { s with toTimer := s.toTimer ++ [s.turn.cmd event] }
    | _ => s
  | .watchdog =>
    match s.toTimer with
    | x :: rest => { s with toTimer := rest, timer := (s.timer.receive x).getD s.timer }
    | [] => s
  | .expire =>
    match s.timer.expire (room capacity s.fromTimer) with
    | some (timer, out) => { s with timer, fromTimer := s.fromTimer ++ out.toList }
    | none => s
  | _ => s

def step (idEdge : String) (s : Tagged) (i : Ota.Label) : Option Tagged :=
  (s.ota.step idEdge i).map (fun ota => { s.note i with ota })

def machine (idEdge : String) : Machine Tagged Ota.Label where
  init := fun s => ∃ manager, s = start manager
  step := step idEdge

/-- Each run of the runtime has its turns. -/
theorem exists_run {idEdge : String} {t : List (Ota × Ota.Label)} {s : Ota}
    (r : (Ota.machine idEdge).Run t s) :
    ∃ u x, (machine idEdge).Run u x ∧ x.ota = s ∧ u.map (fun p => (p.1.ota, p.2)) = t := by
  induction r with
  | start h =>
    obtain ⟨manager, rfl⟩ := h
    exact ⟨[], start manager, .start ⟨manager, rfl⟩, rfl, rfl⟩
  | @move t s s' i r h ih =>
    obtain ⟨u, x, hrun, rfl, rfl⟩ := ih
    have hmove : (machine idEdge).step x i = some { x.note i with ota := s' } := by
      change (x.ota.step idEdge i).map _ = _
      change x.ota.step idEdge i = some s' at h
      rw [h]
      rfl
    exact ⟨_, _, hrun.move hmove, rfl, by simp⟩

/-- And each run with turns is one of the runtime. -/
theorem run_ota {idEdge : String} {t : List (Tagged × Ota.Label)} {s : Tagged}
    (r : (machine idEdge).Run t s) :
    (Ota.machine idEdge).Run (t.map (fun p => (p.1.ota, p.2))) s.ota := by
  induction r with
  | start h =>
    obtain ⟨manager, rfl⟩ := h
    exact .start ⟨manager, rfl⟩
  | move r h ih =>
    obtain ⟨ota, hs, rfl⟩ := Option.map_eq_some_iff.mp h
    rw [List.map_append]
    exact ih.move hs

/-! ## The property and its condition -/

/-- A timeout that the task takes while a session is open is of the hub that it waits for. -/
def Charged (s : Tagged) : Ota.Label → Prop
  | .takeTimer => s.ota.selecting = true → s.ota.task.state = .working →
    ∀ turn ∈ s.fromTimer.head?, turn = s.turn
  | _ => True

instance (s : Tagged) : (i : Ota.Label) → Decidable (s.Charged i)
  | .takeTimer => inferInstanceAs (Decidable (s.ota.selecting = true →
      s.ota.task.state = .working → ∀ turn ∈ s.fromTimer.head?, turn = s.turn))
  | .command _ | .change _ | .takeMsg | .fetched _ _ _ | .work _ | .takeResponse | .watchdog
  | .expire => inferInstanceAs (Decidable True)

end Tagged

/-- The task has still to write what became of the hub at its index. -/
def writes (ops : List Op) : Bool :=
  ops.any fun
    | .record _ _ => true
    | _ => false

namespace Ota

/-- No `Timeout` waits when the task takes an order, and no session is open; and none waits
when it takes an answer, unless it is the answer of the last hub. -/
def TakesInTime (s : Ota) : List FirmwareServiceCommand → Prop
  | .update _ :: _ => s.task.state = .sleeping ∧ s.fromTimer = []
  | .hubResponse msg :: _ => s.task.handleHubResponse msg ≠ [] →
    s.fromTimer = [] ∨ s.task.index + 1 = s.task.processVector.length
  | _ => True

instance (s : Ota) : (q : List FirmwareServiceCommand) → Decidable (s.TakesInTime q)
  | .update _ :: _ =>
    inferInstanceAs (Decidable (s.task.state = .sleeping ∧ s.fromTimer = []))
  | .hubResponse msg :: _ => inferInstanceAs (Decidable (s.task.handleHubResponse msg ≠ [] →
      s.fromTimer = [] ∨ s.task.index + 1 = s.task.processVector.length))
  | [] | .createRuntime :: _ | .deleteRuntime :: _ => inferInstanceAs (Decidable True)

/-- A countdown ends only when the watchdog has taken all that the task sends it, or when the
session has no hub left to ask. -/
def InTime (s : Ota) : Label → Prop
  | .expire => (s.toTimer = [] ∧ timerEvents s.ops = []) ∨ s.task.state = .sleeping ∨
    (writes s.ops = true ∧ s.task.index + 1 = s.task.processVector.length)
  | .takeMsg => s.TakesInTime s.msgs
  | _ => True

instance (s : Ota) : (i : Label) → Decidable (s.InTime i)
  | .expire => inferInstanceAs (Decidable ((s.toTimer = [] ∧ timerEvents s.ops = []) ∨
      s.task.state = .sleeping ∨
      (writes s.ops = true ∧ s.task.index + 1 = s.task.processVector.length)))
  | .takeMsg => inferInstanceAs (Decidable (s.TakesInTime s.msgs))
  | .command _ | .change _ | .fetched _ _ _ | .takeTimer | .work _ | .takeResponse
  | .watchdog => inferInstanceAs (Decidable True)

end Ota

/-! ## What a handler asks of the watchdog -/

section Handlers

variable {idEdge : String} {now : Int64} {t t' : Task} {ops : List Op}

theorem timerEvents_generateMessageToHub (h : t.generateMessageToHub idEdge now = some ops) :
    timerEvents ops = [.initTimer otaTimeout] := by
  unfold Task.generateMessageToHub at h
  obtain ⟨hub, -, rfl⟩ := Option.map_eq_some_iff.mp h
  rfl

/-- What a handler leaves: the next hub is asked and its countdown started, or the session is
over. -/
def Leaves (t : Task) (ops : List Op) : Prop :=
  writes ops = false ∧ ((t.state = .working ∧ timerEvents ops = [.initTimer otaTimeout]) ∨
    (t.state = .sleeping ∧ timerEvents ops = []))

theorem writes_of_noRecord (h : ∀ a b, .record a b ∉ ops) : writes ops = false := by
  unfold writes
  rw [List.any_eq_false]
  intro op hop
  cases op with
  | toTimer event => simp
  | toCore response => simp
  | record a b => exact absurd hop (h a b)

theorem leaves_openSession {msg : UpdateFirmware} {version : Option String} {ids : List String}
    (h : t.clear.openSession idEdge now msg ids version = some (t', ops)) : Leaves t' ops := by
  refine ⟨writes_of_noRecord (noRecord_openSession h), ?_⟩
  obtain ⟨-, error, hrefused⟩ | ⟨v, -, -, error, hrefused⟩ | ⟨v, -, -, rfl, hasks⟩ :=
    openSession_cases h
  · obtain ⟨rfl, rfl⟩ := Prod.mk.inj hrefused
    exact Or.inr ⟨rfl, rfl⟩
  · obtain ⟨rfl, rfl⟩ := Prod.mk.inj hrefused
    exact Or.inr ⟨rfl, rfl⟩
  · exact Or.inl ⟨rfl, timerEvents_generateMessageToHub hasks⟩

/-- What is written is of an open session, and its last hub is followed by its end. -/
theorem leaves_record {isUpdated success : Bool} (h : t.InStep)
    (hr : t.record idEdge now isUpdated success = some (t', ops)) :
    Leaves t' ops ∧ t.state = .working ∧
      (t.index + 1 = t.processVector.length → t'.state = .sleeping) := by
  have hnone := writes_of_noRecord (noRecord_record hr)
  obtain ⟨hub, hhub, ⟨hlt, rfl, hasks⟩ | ⟨-, rfl, rfl⟩⟩ := record_cases hr
  · have hw : t.state = .working := h.mpr (List.getElem?_eq_some_iff.mp hhub).1
    exact ⟨⟨hnone, Or.inl ⟨hw, timerEvents_generateMessageToHub hasks⟩⟩, hw,
      fun hlast => absurd hlt (by omega)⟩
  · have hw : t.state = .working := h.mpr (List.getElem?_eq_some_iff.mp hhub).1
    exact ⟨⟨hnone, Or.inr ⟨rfl, rfl⟩⟩, hw, fun _ => rfl⟩

end Handlers

/-! ## One step -/

namespace Tagged

/-- The turns are those of the events of the runtime. -/
structure Faithful (s : Tagged) : Prop where
  toTimer : s.ota.toTimer.map Event.cmd = s.toTimer.map (Cmd.map fun _ => otaTimeout)
  timer : s.ota.timer = s.timer.map (fun _ => otaTimeout)
  fromTimer : s.ota.fromTimer = s.fromTimer.map (fun _ => .timeout)
  sent : ∀ event ∈ timerEvents s.ota.ops, event = .initTimer otaTimeout ∨ event = .stopTimer

/-- The handler of the task stays where it is. -/
def SameHandler (x y : Ota) : Prop := x.task = y.task ∧ x.fetching = y.fetching ∧ x.ops = y.ops

/-- What a step does to the handler and to the turns. -/
inductive Move (idEdge : String) (s : Tagged) : Ota.Label → Tagged → Prop where
  | other {i : Ota.Label} {ota : Ota} (h : SameHandler ota s.ota) : Move idEdge s i { s with ota }
  | order {msg : UpdateFirmware} {rest : List FirmwareServiceCommand} {ota : Ota}
      (hsel : s.ota.selecting = true) (hm : s.ota.msgs = .update msg :: rest)
      (htask : ota.task = s.ota.task.clear) (hf : ota.fetching = some msg)
      (hops : ota.ops = s.ota.ops) :
      Move idEdge s .takeMsg { s with ota, session := s.session + 1 }
  | answer {msg : FirmwareOk} {rest : List FirmwareServiceCommand} {ota : Ota}
      (hsel : s.ota.selecting = true) (hm : s.ota.msgs = .hubResponse msg :: rest)
      (htask : ota.task = s.ota.task) (hf : ota.fetching = s.ota.fetching)
      (hops : ota.ops = s.ota.task.handleHubResponse msg) : Move idEdge s .takeMsg { s with ota }
  | timeout {turn : Turn} {rest : List Turn} {ota : Ota} (hsel : s.ota.selecting = true)
      (hq : s.fromTimer = turn :: rest) (htask : ota.task = s.ota.task)
      (hf : ota.fetching = s.ota.fetching) (hops : ota.ops = Task.handleTimeout) :
      Move idEdge s .takeTimer { s with ota, fromTimer := rest }
  | fetched {version : Option String} {ids : List String} {now : Int64} {msg : UpdateFirmware}
      {ota : Ota} (hf : s.ota.fetching = some msg)
      (h : s.ota.task.openSession idEdge now msg ids version = some (ota.task, ota.ops))
      (hnone : ota.fetching = none) : Move idEdge s (.fetched version ids now) { s with ota }
  | sendTimer {now : Int64} {event : Event} {rest : List Op} {ota : Ota}
      (ho : s.ota.ops = .toTimer event :: rest) (htask : ota.task = s.ota.task)
      (hf : ota.fetching = s.ota.fetching) (hops : ota.ops = rest) :
      Move idEdge s (.work now) { s with ota, toTimer := s.toTimer ++ [s.turn.cmd event] }
  | sendCore {now : Int64} {response : FirmwareServiceResponse} {rest : List Op} {ota : Ota}
      (ho : s.ota.ops = .toCore response :: rest) (htask : ota.task = s.ota.task)
      (hf : ota.fetching = s.ota.fetching) (hops : ota.ops = rest) :
      Move idEdge s (.work now) { s with ota }
  | record {now : Int64} {isUpdated success : Bool} {rest : List Op} {ota : Ota}
      (ho : s.ota.ops = .record isUpdated success :: rest)
      (hr : s.ota.task.record idEdge now isUpdated success = some (ota.task, ota.ops))
      (hf : ota.fetching = s.ota.fetching) : Move idEdge s (.work now) { s with ota }
  | watchdog {x : Cmd Turn} {rest : List (Cmd Turn)} {timer : Countdown Turn} {ota : Ota}
      (hq : s.toTimer = x :: rest) (hr : s.timer.receive x = some timer)
      (h : SameHandler ota s.ota) :
      Move idEdge s .watchdog { s with ota, toTimer := rest, timer }
  | expire {timer : Countdown Turn} {out : Option Turn} {ota : Ota}
      (hx : s.timer.expire (room capacity s.fromTimer) = some (timer, out))
      (h : SameHandler ota s.ota) :
      Move idEdge s .expire { s with ota, timer, fromTimer := s.fromTimer ++ out.toList }

section Moves

variable {idEdge : String} {s s' : Tagged} {ota : Ota} {i : Ota.Label}

theorem faithful_start (manager : NetworkManager) : (start manager).Faithful where
  toTimer := rfl
  timer := rfl
  fromTimer := rfl
  sent := by
    intro event he
    simp [start, Ota.start, timerEvents] at he
    exact Or.inr he

/-- A step that leaves the channels of the watchdog. -/
theorem Faithful.frame (h : s.Faithful)
    (ht : s'.ota.toTimer = s.ota.toTimer ∧ s'.toTimer = s.toTimer)
    (hc : s'.ota.timer = s.ota.timer ∧ s'.timer = s.timer)
    (hf : s'.ota.fromTimer = s.ota.fromTimer ∧ s'.fromTimer = s.fromTimer)
    (hs : ∀ event ∈ timerEvents s'.ota.ops,
      event = .initTimer otaTimeout ∨ event = .stopTimer) : s'.Faithful where
  toTimer := by
    rw [ht.1, ht.2]
    exact h.toTimer
  timer := by
    rw [hc.1, hc.2]
    exact h.timer
  fromTimer := by
    rw [hf.1, hf.2]
    exact h.fromTimer
  sent := hs

theorem sent_of_leaves {t : Task} {ops : List Op} (h : Leaves t ops) :
    ∀ event ∈ timerEvents ops, event = .initTimer otaTimeout ∨ event = .stopTimer := by
  intro event he
  rcases h.2 with ⟨-, hops⟩ | ⟨-, hops⟩
  · rw [hops, List.mem_singleton] at he
    exact Or.inl he
  · rw [hops] at he
    cases he

theorem move_takeMsg (h : s.Faithful) (hs : s.ota.takeMsg = some ota) :
    Move idEdge s .takeMsg { s.note .takeMsg with ota } ∧
      Faithful { s.note .takeMsg with ota } := by
  unfold Ota.takeMsg at hs
  unfold note
  rcases hsel : s.ota.selecting with _ | _
  · simp [hsel] at hs
  · rcases hm : s.ota.msgs with _ | ⟨cmd, rest⟩
    · simp [hsel, hm] at hs
    · cases cmd with
      | update msg =>
        simp only [hsel, hm, Option.some.injEq] at hs ⊢
        subst hs
        exact ⟨.order hsel hm rfl rfl rfl, h.frame ⟨rfl, rfl⟩ ⟨rfl, rfl⟩ ⟨rfl, rfl⟩ h.sent⟩
      | hubResponse msg =>
        simp only [hsel, hm, Option.some.injEq] at hs ⊢
        subst hs
        refine ⟨.answer hsel hm rfl rfl rfl, h.frame ⟨rfl, rfl⟩ ⟨rfl, rfl⟩ ⟨rfl, rfl⟩ ?_⟩
        intro event he
        rcases handleHubResponse_cases s.ota.task msg with hops | hops
        · simp [hops, timerEvents] at he
        · simp [hops, timerEvents] at he
          exact Or.inr he
      | _ =>
        simp only [hsel, hm, Option.some.injEq] at hs ⊢
        subst hs
        exact ⟨.other ⟨rfl, rfl, rfl⟩, h.frame ⟨rfl, rfl⟩ ⟨rfl, rfl⟩ ⟨rfl, rfl⟩ h.sent⟩

theorem move_takeTimer (h : s.Faithful) (hs : s.ota.takeTimer = some ota) :
    Move idEdge s .takeTimer { s.note .takeTimer with ota } ∧
      Faithful { s.note .takeTimer with ota } := by
  unfold Ota.takeTimer at hs
  unfold note
  rcases hsel : s.ota.selecting with _ | _
  · simp [hsel] at hs
  · rcases hq : s.fromTimer with _ | ⟨turn, rest⟩
    · have hnone : s.ota.fromTimer = [] := by
        rw [h.fromTimer, hq]
        rfl
      simp [hsel, hnone] at hs
    · have hcons : s.ota.fromTimer = .timeout :: rest.map (fun _ => .timeout) := by
        rw [h.fromTimer, hq]
        rfl
      simp only [hsel, hcons, Option.some.injEq] at hs
      subst hs
      refine ⟨.timeout hsel hq rfl rfl rfl, h.toTimer, h.timer, rfl, ?_⟩
      intro event he
      simp [Task.handleTimeout, timerEvents] at he
      exact Or.inr he

theorem move_fetched {version : Option String} {ids : List String} {now : Int64}
    (h : s.Faithful) (ho : s.ota.Orderly) (hs : s.ota.fetched idEdge now version ids = some ota) :
    Move idEdge s (.fetched version ids now) { s with ota } ∧ Faithful { s with ota } := by
  unfold Ota.fetched at hs
  rcases hf : s.ota.fetching with _ | msg
  · simp [hf] at hs
  · obtain ⟨-, hw, hv, hi⟩ := ho.fetching (by simp [hf])
    obtain ⟨⟨task, ops⟩, hout, -⟩ := openSession_spec idEdge hw hv hi now msg ids version
    have hclear : s.ota.task.clear = s.ota.task := by simp [Task.clear, ← hw, ← hv, ← hi]
    simp only [hf, hout, Option.ite_none_right_eq_some, Option.some.injEq] at hs
    obtain ⟨-, rfl⟩ := hs
    refine ⟨.fetched hf hout rfl, h.frame ⟨rfl, rfl⟩ ⟨rfl, rfl⟩ ⟨rfl, rfl⟩ ?_⟩
    rw [← hclear] at hout
    exact sent_of_leaves (leaves_openSession hout)

/-- The events that are left when the first operation is done. -/
theorem sent_of_cons (h : s.Faithful) {op : Op} {rest : List Op} (ho : s.ota.ops = op :: rest) :
    ∀ event ∈ timerEvents rest, event = .initTimer otaTimeout ∨ event = .stopTimer := by
  intro event he
  refine h.sent event ?_
  rw [ho]
  unfold timerEvents at he ⊢
  exact ((List.suffix_cons op rest).filterMap _).subset he

theorem move_work {now : Int64} (h : s.Faithful) (ho : s.ota.Orderly)
    (hs : s.ota.work idEdge now = some ota) :
    Move idEdge s (.work now) { s.note (.work now) with ota } ∧
      Faithful { s.note (.work now) with ota } := by
  unfold Ota.work at hs
  unfold note
  rcases hops : s.ota.ops with _ | ⟨event | response | ⟨isUpdated, success⟩, rest⟩ <;>
    simp only [hops, Option.ite_none_right_eq_some, Option.some.injEq, reduceCtorEq] at hs ⊢
  · obtain ⟨-, rfl⟩ := hs
    refine ⟨.sendTimer hops rfl rfl rfl, ?_, h.timer, h.fromTimer, sent_of_cons h hops⟩
    have hcmd : event.cmd = (s.turn.cmd event).map (fun _ => otaTimeout) := by
      rcases h.sent event (by simp [hops, timerEvents]) with rfl | rfl <;> rfl
    simp only [List.map_append, List.map_cons, List.map_nil, h.toTimer, hcmd]
  · obtain ⟨-, rfl⟩ := hs
    exact ⟨.sendCore hops rfl rfl rfl,
      h.frame ⟨rfl, rfl⟩ ⟨rfl, rfl⟩ ⟨rfl, rfl⟩ (sent_of_cons h hops)⟩
  · rcases hr : s.ota.task.record idEdge now isUpdated success with _ | ⟨task, ops⟩
    · rw [hr] at hs
      subst hs
      exact ⟨.other ⟨rfl, rfl, rfl⟩, h.frame ⟨rfl, rfl⟩ ⟨rfl, rfl⟩ ⟨rfl, rfl⟩ h.sent⟩
    · rw [hr] at hs
      subst hs
      have hf : s.ota.fetching = none := by
        by_contra hne
        rw [(ho.fetching hne).1] at hops
        cases hops
      exact ⟨.record hops hr rfl, h.frame ⟨rfl, rfl⟩ ⟨rfl, rfl⟩ ⟨rfl, rfl⟩
        (sent_of_leaves (leaves_record (ho.inStep hf) hr).1)⟩

theorem move_watchdog (h : s.Faithful) (hs : s.ota.watchdog = some ota) :
    Move idEdge s .watchdog { s.note .watchdog with ota } ∧
      Faithful { s.note .watchdog with ota } := by
  unfold Ota.watchdog at hs
  unfold note
  have hto := h.toTimer
  rcases hq : s.ota.toTimer with _ | ⟨event, rest⟩
  · simp [hq] at hs
  · rcases hx : s.toTimer with _ | ⟨x, turns⟩
    · rw [hq, hx] at hto
      cases hto
    · rw [hq, hx, List.map_cons, List.map_cons] at hto
      obtain ⟨hcmd, hrest⟩ := List.cons.inj hto
      simp only [hq, hcmd, h.timer, Countdown.receive_map, Option.map_map] at hs
      obtain ⟨timer, hr, rfl⟩ := Option.map_eq_some_iff.mp hs
      simp only [hr, Option.getD_some]
      exact ⟨.watchdog hx hr ⟨rfl, rfl, rfl⟩, hrest, rfl, h.fromTimer, h.sent⟩

theorem move_expire (h : s.Faithful) (hs : s.ota.expire = some ota) :
    Move idEdge s .expire { s.note .expire with ota } ∧
      Faithful { s.note .expire with ota } := by
  unfold Ota.expire at hs
  unfold note
  have hroom : room capacity s.ota.fromTimer = room capacity s.fromTimer := by
    rw [h.fromTimer]
    simp [capacity]
  rw [h.timer, hroom, Countdown.expire_map, Option.map_map] at hs
  obtain ⟨⟨timer, out⟩, hx, rfl⟩ := Option.map_eq_some_iff.mp hs
  simp only [hx]
  refine ⟨.expire hx ⟨rfl, rfl, rfl⟩, h.toTimer, rfl, ?_, h.sent⟩
  cases out <;> simp [h.fromTimer]

theorem move_of_step (h : s.Faithful) (ho : s.ota.Orderly)
    (hs : (machine idEdge).step s i = some s') : Move idEdge s i s' ∧ s'.Faithful := by
  obtain ⟨ota, hota, rfl⟩ := Option.map_eq_some_iff.mp hs
  unfold Ota.step at hota
  rw [Option.ite_none_left_eq_some] at hota
  obtain ⟨-, hota⟩ := hota
  have hother : ∀ {i : Ota.Label}, SameHandler ota s.ota → ota.toTimer = s.ota.toTimer →
      ota.timer = s.ota.timer → ota.fromTimer = s.ota.fromTimer →
      Move idEdge s i { s with ota } ∧ Faithful { s with ota } := by
    intro i hsame ht hc hf
    refine ⟨.other hsame, h.frame ⟨ht, rfl⟩ ⟨hc, rfl⟩ ⟨hf, rfl⟩ ?_⟩
    rw [hsame.2.2]
    exact h.sent
  cases i with
  | command cmd =>
    simp only [Option.ite_none_right_eq_some, Option.some.injEq] at hota
    obtain ⟨-, rfl⟩ := hota
    exact hother ⟨rfl, rfl, rfl⟩ rfl rfl rfl
  | change c =>
    obtain rfl := Option.some.inj hota
    exact hother ⟨rfl, rfl, rfl⟩ rfl rfl rfl
  | takeMsg => exact move_takeMsg h hota
  | fetched version ids now => exact move_fetched h ho hota
  | takeTimer => exact move_takeTimer h hota
  | work now => exact move_work h ho hota
  | takeResponse =>
    rcases hq : s.ota.responses with _ | ⟨response, rest⟩ <;>
      simp only [Ota.takeResponse, hq, Option.some.injEq, reduceCtorEq] at hota
    subst hota
    exact hother ⟨rfl, rfl, rfl⟩ rfl rfl rfl
  | watchdog => exact move_watchdog h hota
  | expire => exact move_expire h hota

end Moves

/-! ## The invariant -/

/-- The commands on their way to the watchdog. -/
def queue (s : Tagged) : List (Cmd Turn) :=
  s.toTimer ++ (timerEvents s.ota.ops).map s.turn.cmd

/-- The countdown that runs once the watchdog has taken them. -/
def outlook (s : Tagged) : Option (Option Turn) := s.timer.outlook s.queue

/-- No countdown will run, and no timeout waits. -/
def Stopped (s : Tagged) : Prop := s.fromTimer = [] ∧ s.outlook = some none

/-- The countdown of the turn will run, or its timeout waits. -/
def Asked (s : Tagged) : Prop :=
  (s.fromTimer = [] ∧ s.outlook = some (some s.turn)) ∨
    (s.fromTimer = [s.turn] ∧ s.outlook = some none)

/-- A timeout that waits while no session is open is taken while none is open. -/
structure Good (s : Tagged) : Prop where
  fetching : s.ota.fetching ≠ none → s.Stopped
  ended : s.ota.task.state = .sleeping →
    s.fromTimer ≠ [] ∨ writes s.ota.ops = true ∨ s.outlook = some none
  asked : s.ota.fetching = none → s.ota.task.state = .working → writes s.ota.ops = false → s.Asked
  answered : s.ota.task.state = .working → writes s.ota.ops = true →
    s.Stopped ∨ (s.fromTimer ≠ [] ∧ s.ota.task.index + 1 = s.ota.task.processVector.length)

section Invariant

variable {idEdge : String} {s s' : Tagged} {ota : Ota} {i : Ota.Label}

theorem good_start (manager : NetworkManager) : (start manager).Good where
  fetching := fun hne => absurd rfl hne
  ended := fun _ => Or.inr (Or.inr rfl)
  asked := by
    intro _ hw
    cases hw
  answered := by
    intro hw
    cases hw

/-- A step that leaves the task, what waits and the outlook. -/
theorem Good.frame (h : s.Good) (htask : s'.ota.task = s.ota.task)
    (hf : s'.ota.fetching = s.ota.fetching) (hw : writes s'.ota.ops = writes s.ota.ops)
    (hsession : s'.session = s.session) (hq : s'.fromTimer = s.fromTimer)
    (ho : ∀ e, s.outlook = some e → s'.outlook = some e) : s'.Good := by
  have hturn : s'.turn = s.turn := by
    unfold turn
    rw [hsession, htask]
  have hstopped : s.Stopped → s'.Stopped := fun hs => ⟨hq ▸ hs.1, ho _ hs.2⟩
  constructor
  · intro hne
    exact hstopped (h.fetching (hf ▸ hne))
  · intro hs
    rw [hq, hw]
    exact (h.ended (htask ▸ hs)).imp_right (Or.imp_right (ho _))
  · intro hnone hworking hwrites
    unfold Asked
    rw [hq, hturn]
    exact (h.asked (hf ▸ hnone) (htask ▸ hworking) (hw ▸ hwrites)).imp
      (And.imp_right (ho _)) (And.imp_right (ho _))
  · intro hworking hwrites
    rw [hq, htask]
    exact (h.answered (htask ▸ hworking) (hw ▸ hwrites)).imp_left hstopped

/-- A handler sends nothing to the watchdog before it is at `x`. -/
theorem outlook_snoc (s x : Tagged) {e : Option Turn} {events : List Event}
    (hbefore : timerEvents s.ota.ops = []) (hafter : timerEvents x.ota.ops = events)
    (hto : x.toTimer = s.toTimer) (htimer : x.timer = s.timer) (h : s.outlook = some e) :
    x.outlook = Countdown.plan e (events.map x.turn.cmd) := by
  unfold outlook queue at h ⊢
  rw [hbefore, List.map_nil, List.append_nil] at h
  rw [hafter, hto, htimer, Countdown.outlook_append, h]
  rfl

/-- A step that leaves what is on its way to the watchdog as well. -/
theorem Good.frame_queue (h : s.Good) (htask : s'.ota.task = s.ota.task)
    (hf : s'.ota.fetching = s.ota.fetching) (hw : writes s'.ota.ops = writes s.ota.ops)
    (hsession : s'.session = s.session) (hq : s'.fromTimer = s.fromTimer)
    (htimer : s'.timer = s.timer)
    (hevents : s'.toTimer ++ (timerEvents s'.ota.ops).map s.turn.cmd = s.queue) : s'.Good := by
  refine h.frame htask hf hw hsession hq (fun e he => ?_)
  unfold outlook at he ⊢
  rwa [queue, turn, hsession, htask, htimer, ← turn, hevents]

/-- An order is taken when nothing runs and nothing waits. -/
theorem good_order {msg : UpdateFirmware} (h : s.Good) (hfrom : s.fromTimer = [])
    (hsleep : s.ota.task.state = .sleeping) (hops : s.ota.ops = [])
    (htask : ota.task = s.ota.task.clear) (hf : ota.fetching = some msg)
    (hsame : ota.ops = s.ota.ops) : Good { s with ota, session := s.session + 1 } := by
  have hout : s.outlook = some none := by
    rcases h.ended hsleep with hne | hw | hout
    · exact absurd hfrom hne
    · rw [hops] at hw
      cases hw
    · exact hout
  have hworking : ota.task.state = .working := by
    rw [htask]
    rfl
  constructor
  · intro _
    have hnil : timerEvents s.ota.ops = [] := by
      rw [hops]
      rfl
    have hafter : timerEvents ota.ops = [] := by
      rw [hsame]
      exact hnil
    exact ⟨hfrom, outlook_snoc s { s with ota, session := s.session + 1 } hnil hafter rfl rfl hout⟩
  · intro hs
    rw [hworking] at hs
    cases hs
  · intro hnone
    rw [hf] at hnone
    cases hnone
  · intro _ hw
    rw [hsame, hops] at hw
    cases hw

/-- A handler that stops the watchdog and will write the outcome of a hub. -/
theorem good_stop {isUpdated success : Bool} {fromTimer : List Turn}
    (hops : s.ota.ops = []) (hf : ota.fetching = none) (htask : ota.task = s.ota.task)
    (hsends : ota.ops = [.toTimer .stopTimer, .record isUpdated success])
    (hout : s.ota.task.state = .working → (∃ e, s.outlook = some e) ∧
      (fromTimer = [] ∨
        (fromTimer ≠ [] ∧ s.ota.task.index + 1 = s.ota.task.processVector.length))) :
    Good { s with ota, fromTimer } := by
  have hwrites : writes ota.ops = true := by
    rw [hsends]
    rfl
  constructor
  · intro hne
    exact absurd hf hne
  · intro _
    exact Or.inr (Or.inl hwrites)
  · intro _ _ hno
    rw [hwrites] at hno
    cases hno
  · intro hw _
    obtain ⟨⟨e, he⟩, hfrom⟩ := hout (htask ▸ hw)
    rw [htask]
    refine hfrom.imp_left (fun hnil => ⟨hnil, ?_⟩)
    have hbefore : timerEvents s.ota.ops = [] := by
      rw [hops]
      rfl
    have hafter : timerEvents ota.ops = [.stopTimer] := by
      rw [hsends]
      rfl
    rw [outlook_snoc s { s with ota, fromTimer } hbefore hafter rfl rfl he]
    cases e <;> rfl

/-- A handler that leaves the task with a hub that is asked, or with its session over. -/
theorem good_leave (hops : timerEvents s.ota.ops = [])
    (hleaves : Leaves ota.task ota.ops) (hf : ota.fetching = none)
    (hbefore : s.Stopped ∨ (s.fromTimer ≠ [] ∧ ota.task.state = .sleeping)) :
    Good { s with ota } := by
  obtain ⟨hwrites, hleaves⟩ := hleaves
  constructor
  · intro hne
    exact absurd hf hne
  · intro hs
    rcases hbefore with ⟨-, hout⟩ | ⟨hne, -⟩
    · rcases hleaves with ⟨hw, -⟩ | ⟨-, hnone⟩
      · rw [hw] at hs
        cases hs
      · exact Or.inr (Or.inr (outlook_snoc s { s with ota } hops hnone rfl rfl hout))
    · exact Or.inl hne
  · intro _ hw _
    rcases hbefore with ⟨hfrom, hout⟩ | ⟨-, hs⟩
    · rcases hleaves with ⟨-, hinit⟩ | ⟨hs, -⟩
      · exact Or.inl ⟨hfrom, outlook_snoc s { s with ota } hops hinit rfl rfl hout⟩
      · rw [hs] at hw
        cases hw
    · rw [hs] at hw
      cases hw
  · intro _ hw
    rw [hwrites] at hw
    cases hw

/-- A countdown that ends is delivered, unless timeouts fill the channel. -/
theorem ne_nil_of_expire {timer : Countdown Turn} {out : Option Turn}
    (hx : s.timer.expire (room capacity s.fromTimer) = some (timer, out)) :
    s.fromTimer ++ out.toList ≠ [] := by
  cases out with
  | some turn => simp
  | none =>
    obtain ⟨hroom, -⟩ := Countdown.expire_none hx
    intro hnil
    simp at hnil
    simp [hnil, capacity] at hroom

/-- Where the watchdog has taken all, what ends is the countdown of the turn. -/
theorem good_expire {timer : Countdown Turn} {out : Option Turn} (h : s.Good)
    (ho : s.ota.Orderly) (hq : s.queue = [] ∨ s.ota.task.state = .sleeping ∨
      (writes s.ota.ops = true ∧ s.ota.task.index + 1 = s.ota.task.processVector.length))
    (hx : s.timer.expire (room capacity s.fromTimer) = some (timer, out))
    (hsame : SameHandler ota s.ota) :
    Good { s with ota, timer, fromTimer := s.fromTimer ++ out.toList } := by
  obtain ⟨htask, hf, hops⟩ := hsame
  have hne := ne_nil_of_expire hx
  -- with nothing to take, a countdown that ends was in the outlook
  have hstopped : s.queue = [] → s.fromTimer = [] → s.outlook ≠ some none := by
    intro hnil hfrom hout
    unfold outlook at hout
    obtain ⟨a, ha, -, -⟩ := Countdown.outlook_expire hout (by simp [hfrom, capacity]) hx
    rw [ha, hnil] at hout
    cases hout
  constructor
  · intro hfetching
    rw [hf] at hfetching
    obtain ⟨hnone, hw, -, -⟩ := ho.fetching hfetching
    obtain ⟨hfrom, hout⟩ := h.fetching hfetching
    rcases hq with hnil | hs | ⟨hwrites, -⟩
    · exact absurd hout (hstopped hnil hfrom)
    · rw [hw] at hs
      cases hs
    · rw [hnone] at hwrites
      cases hwrites
  · intro _
    exact Or.inl hne
  · intro hnone hw hno
    rw [hf] at hnone
    rw [htask] at hw
    rw [hops] at hno
    rcases hq with hnil | hs | ⟨hwrites, -⟩
    · rcases h.asked hnone hw hno with ⟨hfrom, hout⟩ | ⟨hfrom, hout⟩
      · unfold outlook at hout
        obtain ⟨a, ha, rfl, rfl⟩ :=
          Countdown.outlook_expire hout (by simp [hfrom, capacity]) hx
        rw [ha, hnil] at hout
        obtain rfl := Option.some.inj (Option.some.inj hout)
        refine Or.inr ⟨by simp [hfrom, turn, htask], ?_⟩
        have hqueue : queue { s with
            ota, timer := .idle, fromTimer := s.fromTimer ++ (some s.turn).toList } = s.queue := by
          simp [queue, turn, hops, htask]
        unfold outlook
        rw [hqueue, hnil]
        rfl
      · unfold outlook at hout
        obtain ⟨a, ha, -, -⟩ := Countdown.outlook_expire hout (by simp [hfrom, capacity]) hx
        rw [ha, hnil] at hout
        cases hout
    · rw [hw] at hs
      cases hs
    · rw [hno] at hwrites
      cases hwrites
  · intro hw hwrites
    rw [htask] at hw ⊢
    rw [hops] at hwrites
    rcases h.answered hw hwrites with ⟨hfrom, hout⟩ | ⟨-, hlast⟩
    · rcases hq with hnil | hs | ⟨-, hlast⟩
      · exact absurd hout (hstopped hnil hfrom)
      · rw [hw] at hs
        cases hs
      · exact Or.inr ⟨hne, hlast⟩
    · exact Or.inr ⟨hne, hlast⟩

theorem good_move (h : s.Good) (hfaith : s.Faithful) (ho : s.ota.Orderly)
    (hphase : s.ota.fetching = none → Ota.Phase idEdge s.ota.task s.ota.ops)
    (htime : s.ota.InTime i) (hm : Move idEdge s i s') : s'.Good := by
  cases hm with
  | @other _ ota hsame =>
    obtain ⟨htask, hf, hops⟩ := hsame
    exact h.frame_queue htask hf (by rw [hops]) rfl rfl rfl (by rw [hops, queue])
  | order hsel hmsgs htask hf hops =>
    simp only [Ota.InTime, Ota.TakesInTime, hmsgs] at htime
    have hfrom := hfaith.fromTimer
    rw [htime.2] at hfrom
    exact good_order h (List.map_eq_nil_iff.mp hfrom.symm) htime.1 (selecting_iff.mp hsel).2
      htask hf hops
  | @answer msg rest ota hsel hmsgs htask hf hops =>
    obtain ⟨hnone, hnil⟩ := selecting_iff.mp hsel
    rcases handleHubResponse_cases s.ota.task msg with hresponse | hresponse
    · rw [hresponse] at hops
      exact h.frame_queue htask hf (by rw [hops, hnil]) rfl rfl rfl (by rw [hops, queue, hnil])
    · simp only [Ota.InTime, Ota.TakesInTime, hmsgs, hresponse] at htime
      rw [hresponse] at hops
      refine good_stop hnil (hf.trans hnone) htask hops (fun hw => ?_)
      rcases h.asked hnone hw (by rw [hnil]; rfl) with ⟨hfrom, hout⟩ | ⟨hfrom, hout⟩
      · exact ⟨⟨_, hout⟩, Or.inl hfrom⟩
      · refine ⟨⟨_, hout⟩, Or.inr ⟨by simp [hfrom], ?_⟩⟩
        refine (htime (by simp)).resolve_left ?_
        rw [hfaith.fromTimer, hfrom]
        simp
  | @timeout turn rest ota hsel hq htask hf hops =>
    obtain ⟨hnone, hnil⟩ := selecting_iff.mp hsel
    refine good_stop hnil (hf.trans hnone) htask hops (fun hw => ?_)
    rcases h.asked hnone hw (by rw [hnil]; rfl) with ⟨hfrom, -⟩ | ⟨hfrom, hout⟩
    · rw [hq] at hfrom
      cases hfrom
    · rw [hq] at hfrom
      exact ⟨⟨_, hout⟩, Or.inl (List.cons.inj hfrom).2⟩
  | fetched hf hopen hnone =>
    have hne : s.ota.fetching ≠ none := by simp [hf]
    obtain ⟨hops, hw, hv, hi⟩ := ho.fetching hne
    have hclear : s.ota.task.clear = s.ota.task := by simp [Task.clear, ← hw, ← hv, ← hi]
    rw [← hclear] at hopen
    exact good_leave (by rw [hops]; rfl) (leaves_openSession hopen) hnone
      (Or.inl (h.fetching hne))
  | @sendTimer now event rest ota hops htask hf hrest =>
    have hwrites : writes ota.ops = writes s.ota.ops := by
      rw [hops, hrest]
      rfl
    exact h.frame_queue htask hf hwrites rfl rfl rfl (by simp [queue, hops, hrest, timerEvents])
  | @sendCore now response rest ota hops htask hf hrest =>
    have hwrites : writes ota.ops = writes s.ota.ops := by
      rw [hops, hrest]
      rfl
    exact h.frame_queue htask hf hwrites rfl rfl rfl (by simp [queue, hops, hrest, timerEvents])
  | record hops hr hf =>
    have hnone : s.ota.fetching = none := by
      by_contra hne
      rw [(ho.fetching hne).1] at hops
      cases hops
    obtain ⟨hleaves, hw, hlast⟩ := leaves_record (ho.inStep hnone) hr
    refine good_leave ?_ hleaves (hf.trans hnone) ?_
    · have hnow := hphase hnone
      rw [hops] at hnow ⊢
      cases hnow with
      | sending hno => exact absurd List.mem_cons_self (hno _ _)
      | writing input a b hi hall hdoes =>
        rcases hall with hall | hall
        · cases hall
        · rw [hall]
          rfl
    · exact (h.answered hw (by rw [hops]; rfl)).imp_right (And.imp_right hlast)
  | @watchdog x rest timer ota hq hr hsame =>
    obtain ⟨htask, hf, hops⟩ := hsame
    have hnew : queue { s with ota, toTimer := rest, timer } =
        rest ++ (timerEvents s.ota.ops).map s.turn.cmd := by
      simp [queue, turn, htask, hops]
    refine h.frame htask hf (by rw [hops]) rfl rfl (fun e he => ?_)
    unfold outlook at he ⊢
    rw [hnew]
    rw [queue, hq, List.cons_append] at he
    exact Countdown.outlook_receive he hr
  | expire hx hsame =>
    refine good_expire h ho (htime.imp_left ?_) hx hsame
    rintro ⟨hto, hevents⟩
    have hturns := hfaith.toTimer
    rw [hto] at hturns
    rw [queue, List.map_eq_nil_iff.mp hturns.symm, hevents]
    rfl

/-- A timeout that is taken while a hub is asked is its own. -/
theorem charged_of_good (h : s.Good) : s.Charged i := by
  cases i with
  | takeTimer =>
    intro hsel hw turn hturn
    obtain ⟨hnone, hnil⟩ := selecting_iff.mp hsel
    rcases h.asked hnone hw (by rw [hnil]; rfl) with ⟨hfrom, -⟩ | ⟨hfrom, -⟩
    · rw [hfrom] at hturn
      cases hturn
    · rw [hfrom] at hturn
      exact (Option.some.inj hturn).symm
  | _ => trivial

end Invariant

/-! ## The law -/

/-- What the runtime keeps of its handler. -/
theorem orderly_of_run {idEdge : String} {t : List (Ota × Ota.Label)} {x : Ota}
    (r : (Ota.machine idEdge).Run t x) :
    x.Orderly ∧ (x.fetching = none → Ota.Phase idEdge x.task x.ops) := by
  constructor
  · refine r.always Ota.Orderly ?_ (fun s i s' h hs => (orderly_step h hs).1)
    rintro s ⟨manager, rfl⟩
    exact ⟨fun _ => iff_of_false (by simp [Ota.start, Task.new]) (by simp [Ota.start, Task.new]),
      fun hne => absurd rfl hne⟩
  · intro hnone
    obtain ⟨u, b, hfollows⟩ := Ota.exists_follows r
    exact (hfollows.handling hnone).2.1

/-- In every run whose countdowns end in time and whose timeouts are taken in time, a timeout
that is taken while a session is open was started for the hub that is asked. -/
theorem a_timeout_is_of_the_hub_that_is_asked (idEdge : String)
    (t : List (Tagged × Ota.Label)) (s : Tagged) (r : (machine idEdge).Run t s)
    (htime : Machine.Meets (fun s i => s.ota.InTime i) t) : Machine.Meets Charged t := by
  refine r.meets
    (fun s => (∃ t, (Ota.machine idEdge).Run t s.ota) ∧ s.Faithful ∧ s.Good) _ Charged
    ?_ ?_ ?_ htime
  · rintro s ⟨manager, rfl⟩
    exact ⟨⟨[], .start ⟨manager, rfl⟩⟩, faithful_start manager, good_start manager⟩
  · rintro s i s' ⟨⟨u, hrun⟩, hfaith, hgood⟩ hok hs
    obtain ⟨horderly, hphase⟩ := orderly_of_run hrun
    obtain ⟨hmove, hfaith'⟩ := move_of_step hfaith horderly hs
    obtain ⟨ota, hota, rfl⟩ := Option.map_eq_some_iff.mp hs
    exact ⟨⟨_, hrun.move hota⟩, hfaith', good_move hgood hfaith horderly hphase hok hmove⟩
  · rintro s i s' ⟨-, -, hgood⟩ - -
    exact charged_of_good hgood

/-! ## Concrete runs -/

/-- A network with two hubs. -/
def twoHubs : NetworkManager := oneHub.addHub "n" ⟨"k", "device"⟩

/-- A session is opened and its first hub asked; its countdown ends. -/
def expires : List Ota.Label :=
  [.work default, .watchdog, .command (.update (updateOf "n")), .takeMsg,
    .fetched (some "1.0.0") ["h", "k"] default, .work default, .work default, .watchdog, .expire]

theorem a_silent_hub_is_charged :
    let t := (machine "edge").trace (start twoHubs) (expires ++ [.takeTimer, .work default])
    Machine.Meets Charged t ∧ ∃ s ∈ t, s.1.ota.task.state = .working ∧ s.1.fromTimer = [⟨1, 0⟩] := by
  have hinit : (machine "edge").init (start twoHubs) := ⟨twoHubs, rfl⟩
  have hrun := Machine.run_of_final (expires ++ [.takeTimer, .work default]) hinit
    (by decide +kernel)
  exact ⟨a_timeout_is_of_the_hub_that_is_asked "edge" _ _ hrun (by decide +kernel),
    by decide +kernel⟩

/-- The answer of the first hub is taken before its timeout, and the second is asked. -/
def answersLate : List Ota.Label :=
  expires ++ [.command (.hubResponse (updatedBy "h")), .takeMsg, .work default, .work default,
    .work default, .work default, .takeTimer]

/-- The timeout of the first hub is charged to the second. -/
theorem a_timeout_is_charged_to_the_next_hub :
    ¬ ∀ (idEdge : String) (t : List (Tagged × Ota.Label)) (s : Tagged),
      (machine idEdge).Run t s → Machine.Meets Charged t := by
  intro h
  have hinit : (machine "edge").init (start twoHubs) := ⟨twoHubs, rfl⟩
  have hrun := Machine.run_of_final answersLate hinit (by decide +kernel)
  have hmeets := h _ _ _ hrun
  revert hmeets
  decide +kernel

end Tagged

end EdgeGateway.Firmware
