-- Every firmware session comes to its end. Each message and each hub that is found pays for the
-- steps that it brings, those of the timeouts after it included; so the two tasks come to rest.
-- And where they rest, the session is over and its orders have their answers, unless the task
-- has panicked, fetches a version or waits, for the service or for the watchdog.
import EdgeGateway.Firmware.Charges
import EdgeGateway.Lib.Work

namespace EdgeGateway.Firmware

open EdgeGateway.Lib EdgeGateway.Message EdgeGateway.Networks

/-! ## What a step does -/

/-- The steps of the runtime, by the operation that is done or the message that is taken. -/
inductive Ota.Move (idEdge : String) (s : Ota) : Ota.Label → Ota → Prop where
  | command {cmd : FirmwareServiceCommand} (hr : room capacity s.msgs = true) :
      Ota.Move idEdge s (.command cmd) { s with msgs := s.msgs ++ [cmd] }
  | change {c : NetworkManager.Change} :
      Ota.Move idEdge s (.change c) { s with manager := s.manager.change c }
  | order {update : UpdateFirmware} {rest : List FirmwareServiceCommand}
      (hsel : s.selecting = true) (hm : s.msgs = .update update :: rest) :
      Ota.Move idEdge s .takeMsg
        { s with msgs := rest, task := s.task.clear, fetching := some update }
  | answer {firmware : FirmwareOk} {rest : List FirmwareServiceCommand}
      (hsel : s.selecting = true) (hm : s.msgs = .hubResponse firmware :: rest) :
      Ota.Move idEdge s .takeMsg
        { s with msgs := rest, ops := s.task.handleHubResponse firmware }
  | skipMsg {cmd : FirmwareServiceCommand} {rest : List FirmwareServiceCommand}
      (hsel : s.selecting = true) (hm : s.msgs = cmd :: rest) :
      Ota.Move idEdge s .takeMsg { s with msgs := rest }
  | timeout {rest : List Event} (hsel : s.selecting = true) (hq : s.fromTimer = .timeout :: rest) :
      Ota.Move idEdge s .takeTimer { s with fromTimer := rest, ops := Task.handleTimeout }
  | skipTimer {event : Event} {rest : List Event} (hsel : s.selecting = true)
      (hq : s.fromTimer = event :: rest) (hne : event ≠ .timeout) :
      Ota.Move idEdge s .takeTimer { s with fromTimer := rest }
  | fetched {version : Option String} {ids : List String} {now : Int64} {update : UpdateFirmware}
      {task : Task} {ops : List Op} (hf : s.fetching = some update)
      (h : s.task.clear.openSession idEdge now update ids version = some (task, ops)) :
      Ota.Move idEdge s (.fetched version ids now) { s with fetching := none, task, ops }
  | sendTimer {now : Int64} {event : Event} {rest : List Op} (ho : s.ops = .toTimer event :: rest)
      (hr : room capacity s.toTimer = true) :
      Ota.Move idEdge s (.work now) { s with ops := rest, toTimer := s.toTimer ++ [event] }
  | sendCore {now : Int64} {response : FirmwareServiceResponse} {rest : List Op}
      (ho : s.ops = .toCore response :: rest) (hr : room capacity s.responses = true) :
      Ota.Move idEdge s (.work now) { s with ops := rest, responses := s.responses ++ [response] }
  | record {now : Int64} {isUpdated success : Bool} {rest : List Op} {task : Task} {ops : List Op}
      (ho : s.ops = .record isUpdated success :: rest)
      (hr : s.task.record idEdge now isUpdated success = some (task, ops)) :
      Ota.Move idEdge s (.work now) { s with task, ops }
  | panic {now : Int64} {isUpdated success : Bool} {rest : List Op}
      (ho : s.ops = .record isUpdated success :: rest) :
      Ota.Move idEdge s (.work now) { s with panicked := true }
  | takeResponse {response : FirmwareServiceResponse} {rest : List FirmwareServiceResponse}
      (hq : s.responses = response :: rest) :
      Ota.Move idEdge s .takeResponse { s with responses := rest }
  | watchdog {event : Event} {rest : List Event} {timer : Countdown Nat}
      (hq : s.toTimer = event :: rest) (hr : s.timer.receive event.cmd = some timer) :
      Ota.Move idEdge s .watchdog { s with toTimer := rest, timer }
  | expire {timer : Countdown Nat} {out : Option Nat}
      (hx : s.timer.expire (room capacity s.fromTimer) = some (timer, out)) :
      Ota.Move idEdge s .expire
        { s with timer, fromTimer := s.fromTimer ++ (out.map (fun _ => .timeout)).toList }

section Moves

open Ota

variable {idEdge : String} {s s' : Ota} {i : Ota.Label}

theorem ota_move_takeMsg (hs : s.takeMsg = some s') : s.Move idEdge .takeMsg s' := by
  unfold Ota.takeMsg at hs
  rcases hsel : s.selecting with _ | _
  · simp [hsel] at hs
  · rcases hm : s.msgs with _ | ⟨cmd, rest⟩
    · simp [hsel, hm] at hs
    · cases cmd <;> simp only [hsel, hm, Option.some.injEq] at hs <;> subst hs
      · exact .order hsel hm
      · exact .answer hsel hm
      · exact .skipMsg hsel hm
      · exact .skipMsg hsel hm

theorem ota_move_takeTimer (hs : s.takeTimer = some s') : s.Move idEdge .takeTimer s' := by
  unfold Ota.takeTimer at hs
  rcases hsel : s.selecting with _ | _
  · simp [hsel] at hs
  · rcases hq : s.fromTimer with _ | ⟨event, rest⟩
    · simp [hsel, hq] at hs
    · cases event <;> simp only [hsel, hq, Option.some.injEq] at hs <;> subst hs
      · exact .skipTimer hsel hq (by simp)
      · exact .skipTimer hsel hq (by simp)
      · exact .timeout hsel hq

theorem ota_move_fetched {version : Option String} {ids : List String} {now : Int64}
    (ho : s.Orderly) (hs : s.fetched idEdge now version ids = some s') :
    s.Move idEdge (.fetched version ids now) s' := by
  unfold Ota.fetched at hs
  rcases hf : s.fetching with _ | update
  · simp [hf] at hs
  · obtain ⟨-, hw, hv, hi⟩ := ho.fetching (by simp [hf])
    obtain ⟨⟨task, ops⟩, hout, -⟩ := openSession_spec idEdge hw hv hi now update ids version
    have hclear : s.task.clear = s.task := by simp [Task.clear, ← hw, ← hv, ← hi]
    simp only [hf, hout, Option.ite_none_right_eq_some, Option.some.injEq] at hs
    obtain ⟨-, rfl⟩ := hs
    apply Ota.Move.fetched hf
    rw [hclear]
    exact hout

theorem ota_move_work {now : Int64} (hs : s.work idEdge now = some s') :
    s.Move idEdge (.work now) s' := by
  unfold Ota.work at hs
  rcases ho : s.ops with _ | ⟨event | response | ⟨isUpdated, success⟩, rest⟩ <;>
    simp only [ho, Option.ite_none_right_eq_some, Option.some.injEq, reduceCtorEq] at hs
  · obtain ⟨hr, rfl⟩ := hs
    exact .sendTimer ho hr
  · obtain ⟨hr, rfl⟩ := hs
    exact .sendCore ho hr
  · rcases hr : s.task.record idEdge now isUpdated success with _ | ⟨task, ops⟩ <;>
      simp only [hr] at hs <;> subst hs
    · exact .panic ho
    · exact .record ho hr

theorem ota_move_of_step (ho : s.Orderly) (hs : step idEdge s i = some s') :
    s.panicked = false ∧ s.Move idEdge i s' := by
  unfold Ota.step at hs
  rw [Option.ite_none_left_eq_some, Bool.not_eq_true] at hs
  obtain ⟨hp, hs⟩ := hs
  refine ⟨hp, ?_⟩
  cases i with
  | command cmd =>
    simp only [Option.ite_none_right_eq_some, Option.some.injEq] at hs
    obtain ⟨hr, rfl⟩ := hs
    exact .command hr
  | change c =>
    obtain rfl := Option.some.inj hs
    exact .change
  | takeMsg => exact ota_move_takeMsg hs
  | fetched version ids now => exact ota_move_fetched ho hs
  | takeTimer => exact ota_move_takeTimer hs
  | work now => exact ota_move_work hs
  | takeResponse =>
    rcases hq : s.responses with _ | ⟨response, rest⟩ <;>
      simp only [Ota.takeResponse, hq, Option.some.injEq, reduceCtorEq] at hs
    subst hs
    exact .takeResponse hq
  | watchdog =>
    rcases hq : s.toTimer with _ | ⟨event, rest⟩ <;>
      simp only [Ota.watchdog, hq, Option.map_eq_some_iff, reduceCtorEq] at hs
    obtain ⟨timer, hr, rfl⟩ := hs
    exact .watchdog hq hr
  | expire =>
    obtain ⟨out, hx, rfl⟩ := Option.map_eq_some_iff.mp hs
    exact .expire hx

end Moves

/-! ## The effort of what is on its way -/

/-- The steps of a timeout that is taken: the watchdog is told to stop, and the outcome of a hub
is written. -/
def timeoutEffort : Nat := 4

/-- A command of the watchdog. -/
def Event.effort (event : Event) : Nat := event.cmd.kind.effort timeoutEffort

def Op.effort : Op → Nat
  | .toTimer event => 1 + event.effort
  | _ => 1

def FirmwareServiceCommand.effort : FirmwareServiceCommand → Nat
  | .update _ => 2
  | .hubResponse _ => timeoutEffort
  | _ => 1

/-- The hubs of the session that are still to be asked, and its outcome. -/
def Task.effort (t : Task) : Nat :=
  match t.state with
  | .working => 9 * (t.processVector.length - (t.index + 1)) + 1
  | .sleeping => 0

/-- The steps that are on their way; after a panic there are none. -/
def Ota.effort (s : Ota) : Nat :=
  if s.panicked then 0
  else s.task.effort + weigh Op.effort s.ops + weigh FirmwareServiceCommand.effort s.msgs +
    weigh (fun _ => timeoutEffort) s.fromTimer + weigh Event.effort s.toTimer +
    s.timer.effort timeoutEffort

/-- A step of one of the two tasks. -/
def Ota.Label.isOwn : Ota.Label → Bool
  | .takeMsg | .takeTimer | .work _ | .watchdog | .expire => true
  | _ => false

/-- The steps that come with a message and with the hubs of a network. -/
def Ota.Label.brings : Ota.Label → Nat
  | .command _ => 4
  | .fetched _ ids _ => 9 * ids.length
  | _ => 0

section Effort

variable {idEdge : String} {now : Int64} {t t' : Task} {ops : List Op} {s s' : Ota} {i : Ota.Label}

theorem effort_generateMessageToHub (h : t.generateMessageToHub idEdge now = some ops) :
    weigh Op.effort ops = 9 := by
  unfold Task.generateMessageToHub at h
  obtain ⟨hub, -, rfl⟩ := Option.map_eq_some_iff.mp h
  rfl

theorem effort_command (cmd : FirmwareServiceCommand) : 1 ≤ cmd.effort ∧ cmd.effort ≤ 4 := by
  cases cmd <;> simp [FirmwareServiceCommand.effort, timeoutEffort]

theorem effort_handleHubResponse (t : Task) (msg : FirmwareOk) :
    weigh Op.effort (t.handleHubResponse msg) + 1 ≤ timeoutEffort := by
  rcases handleHubResponse_cases t msg with hops | hops <;> rw [hops] <;>
    simp [Op.effort, Event.effort, Event.cmd, Cmd.kind, Cmd.effort, timeoutEffort]

/-- A session that opens has its hubs to ask. -/
theorem effort_openSession {msg : UpdateFirmware} {version : Option String} {ids : List String}
    (h : t.clear.openSession idEdge now msg ids version = some (t', ops)) :
    t'.effort + weigh Op.effort ops ≤ 1 + 9 * ids.length := by
  obtain ⟨-, error, hrefused⟩ | ⟨v, -, -, error, hrefused⟩ | ⟨v, -, hids, rfl, hasks⟩ :=
    openSession_cases h
  · obtain ⟨rfl, rfl⟩ := Prod.mk.inj hrefused
    simp [Task.effort, Op.effort]
  · obtain ⟨rfl, rfl⟩ := Prod.mk.inj hrefused
    simp [Task.effort, Op.effort]
  · have hpos : 0 < ids.length := List.length_pos_of_ne_nil hids
    rw [effort_generateMessageToHub hasks]
    simp only [Task.effort, Task.enlist, Task.clear, List.nil_append, List.length_map]
    omega

/-- A hub that is done leaves the others. -/
theorem effort_record {isUpdated success : Bool} (hstep : t.InStep)
    (h : t.record idEdge now isUpdated success = some (t', ops)) :
    t'.effort + weigh Op.effort ops ≤ t.effort := by
  obtain ⟨hub, hhub, hrest⟩ := record_cases h
  have hw : t.state = .working := hstep.mpr (List.getElem?_eq_some_iff.mp hhub).1
  rcases hrest with ⟨hlt, rfl, hasks⟩ | ⟨-, rfl, rfl⟩
  · rw [effort_generateMessageToHub hasks]
    simp only [Task.effort, Task.write, hw, List.length_set]
    omega
  · simp [Task.effort, Op.effort, hw]

/-- A command that is taken and the countdown that it starts. -/
theorem effort_watchdog {event : Event} {timer : Countdown Nat}
    (h : s.timer.receive event.cmd = some timer) :
    timer.effort timeoutEffort + 1 ≤ s.timer.effort timeoutEffort + event.effort :=
  Countdown.effort_receive timeoutEffort h

theorem weigh_const {α β : Type} (k : Nat) (f : α → β) (out : Option α) :
    weigh (fun _ => k) (out.map f).toList = k * out.toList.length := by
  cases out <;> simp

/-- Each step of a task spends effort, and a message and a version alone bring some. -/
theorem effort_step (ho : s.Orderly) (hs : Ota.step idEdge s i = some s') :
    s'.effort + (if i.isOwn then 1 else 0) ≤ s.effort + i.brings := by
  obtain ⟨hp, hmove⟩ := ota_move_of_step ho hs
  cases hmove with
  | @command cmd hr =>
    have hcost := (effort_command cmd).2
    simp only [Ota.effort, hp, weigh_append, weigh_cons, weigh_nil, Ota.Label.isOwn,
      Ota.Label.brings, Bool.false_eq_true, if_false]
    omega
  | change => simp [Ota.effort, Ota.Label.isOwn, Ota.Label.brings]
  | order hsel hm =>
    simp only [Ota.effort, hp, hm, weigh_cons, Task.effort, Task.clear, List.length_nil,
      FirmwareServiceCommand.effort, Ota.Label.isOwn, Ota.Label.brings, Bool.false_eq_true,
      if_true, if_false]
    omega
  | @answer firmware rest hsel hm =>
    have hsends := effort_handleHubResponse s.task firmware
    simp only [Ota.effort, hp, hm, weigh_cons, FirmwareServiceCommand.effort, Ota.Label.isOwn,
      Ota.Label.brings, Bool.false_eq_true, if_true, if_false]
    omega
  | @skipMsg cmd rest hsel hm =>
    have hcost := (effort_command cmd).1
    simp only [Ota.effort, hp, hm, weigh_cons, Ota.Label.isOwn, Ota.Label.brings,
      Bool.false_eq_true, if_true, if_false]
    omega
  | timeout hsel hq =>
    have hsends : weigh Op.effort Task.handleTimeout + 1 = timeoutEffort := rfl
    simp only [Ota.effort, hp, hq, weigh_cons, Ota.Label.isOwn, Ota.Label.brings,
      Bool.false_eq_true, if_true, if_false]
    omega
  | skipTimer hsel hq hne =>
    have hcost : 1 ≤ timeoutEffort := by decide
    simp only [Ota.effort, hp, hq, weigh_cons, Ota.Label.isOwn, Ota.Label.brings,
      Bool.false_eq_true, if_true, if_false]
    omega
  | fetched hf h =>
    obtain ⟨hnone, hw, hv, hi⟩ := ho.fetching (by simp [hf])
    have hopens := effort_openSession h
    have hbefore : s.task.effort = 1 := by simp [Task.effort, hw, hv]
    simp only [Ota.effort, hp, hnone, hbefore, weigh_nil, Ota.Label.isOwn, Ota.Label.brings,
      Bool.false_eq_true, if_false]
    omega
  | sendTimer ho' hr =>
    simp only [Ota.effort, hp, ho', weigh_append, weigh_cons, weigh_nil, Op.effort,
      Ota.Label.isOwn, Ota.Label.brings, Bool.false_eq_true, if_true, if_false]
    omega
  | sendCore ho' hr =>
    simp only [Ota.effort, hp, ho', weigh_cons, Op.effort, Ota.Label.isOwn, Ota.Label.brings,
      Bool.false_eq_true, if_true, if_false]
    omega
  | record ho' hr =>
    have hf : s.fetching = none := by
      by_contra hne
      rw [(ho.fetching hne).1] at ho'
      cases ho'
    have hspends := effort_record (ho.inStep hf) hr
    simp only [Ota.effort, hp, ho', weigh_cons, Op.effort, Ota.Label.isOwn, Ota.Label.brings,
      Bool.false_eq_true, if_true, if_false]
    omega
  | panic ho' =>
    simp only [Ota.effort, hp, ho', weigh_cons, Op.effort, Ota.Label.isOwn, Ota.Label.brings,
      Bool.false_eq_true, if_true, if_false]
    omega
  | takeResponse hq => simp [Ota.effort, Ota.Label.isOwn, Ota.Label.brings]
  | watchdog hq hr =>
    have hspends := effort_watchdog hr
    simp only [Ota.effort, hp, hq, weigh_cons, Ota.Label.isOwn, Ota.Label.brings,
      Bool.false_eq_true, if_true, if_false]
    omega
  | @expire timer out hx =>
    have hspends := Countdown.effort_expire timeoutEffort hx
    simp only [Ota.effort, hp, weigh_append, weigh_const, Ota.Label.isOwn, Ota.Label.brings,
      Bool.false_eq_true, if_true, if_false]
    omega

end Effort

/-- The steps of the two tasks. -/
def ownSteps (t : List (Ota × Ota.Label)) : Nat := t.countP (fun p => p.2.isOwn)

/-- What the messages and the versions of a run bring. -/
def brought (t : List (Ota × Ota.Label)) : Nat := weigh (fun p => p.2.brings) t

theorem orderly_start (manager : NetworkManager) : (Ota.start manager).Orderly where
  inStep := fun _ => iff_of_false (by simp [Ota.start, Task.new]) (by simp [Ota.start, Task.new])
  fetching := fun hne => absurd rfl hne

theorem run_effort {idEdge : String} {t : List (Ota × Ota.Label)} {s : Ota}
    (run : (Ota.machine idEdge).Run t s) : ownSteps t + s.effort ≤ 2 + brought t := by
  have hpaid : ownSteps t + s.effort ≤ 2 + brought t + 0 := by
    apply run.paid_by Ota.Orderly Ota.effort (fun _ => 0) Ota.Label.brings
    · rintro s ⟨manager, rfl⟩
      exact ⟨orderly_start manager, Nat.le_refl 2⟩
    · intro s i s' ho hs
      have hstep := effort_step ho hs
      exact ⟨(orderly_step ho hs).1, by omega⟩
  omega

/-! ## What waits -/

/-- The commands on their way to the watchdog. -/
def Ota.told (s : Ota) : List (Cmd Unit) :=
  (s.toTimer ++ timerEvents s.ops).map (fun event => event.cmd.kind)

/-- While a hub is waited for, its timeout waits or the watchdog is armed, unless the task is
about to write its outcome. -/
def Ota.Guarded (s : Ota) : Prop :=
  s.fetching = none → s.task.state = .working → writes s.ops = false →
    .timeout ∈ s.fromTimer ∨ s.timer.Armed s.told

section Guarded

variable {idEdge : String} {s s' : Ota} {i : Ota.Label}

theorem ota_guarded_frame (h : s.Guarded) (hf : s'.fetching = s.fetching) (ht : s'.task = s.task)
    (hw : writes s'.ops = writes s.ops)
    (hq : .timeout ∈ s.fromTimer → .timeout ∈ s'.fromTimer) (hc : s'.timer = s.timer)
    (ho : s'.told = s.told) : s'.Guarded := by
  unfold Ota.Guarded
  rw [hf, ht, hw, hc, ho]
  intro hfetching hworking hwrites
  exact (h hfetching hworking hwrites).imp_left hq

/-- A handler that asks a hub starts its countdown last. -/
theorem guarded_of_leaves {task : Task} {ops : List Op} (h : Leaves task ops)
    (hs : s'.task = task) (ho : s'.ops = ops) : s'.Guarded := by
  intro _ hworking _
  rw [hs] at hworking
  right
  rcases h.2 with ⟨-, hasks⟩ | ⟨hsleeping, -⟩
  · unfold Ota.told
    rw [ho, hasks, List.map_append]
    exact Countdown.armed_of_settle _ rfl
  · rw [hsleeping] at hworking
    cases hworking

theorem ota_guarded_step (ho : s.Orderly) (h : s.Guarded) (hm : s.Move idEdge i s') :
    s'.Guarded := by
  cases hm with
  | order hsel hm =>
    intro hf
    cases hf
  | @answer firmware rest hsel hm =>
    rcases handleHubResponse_cases s.task firmware with hops | hops
    · refine ota_guarded_frame h rfl rfl ?_ (fun hq => hq) rfl ?_ <;>
        simp [hops, (selecting_iff.mp hsel).2, Ota.told]
    · intro _ _ hwrites
      simp [hops, writes] at hwrites
  | timeout hsel hq =>
    intro _ _ hwrites
    simp [Task.handleTimeout, writes] at hwrites
  | @skipTimer event rest hsel hq hne =>
    refine ota_guarded_frame h rfl rfl rfl (fun hmem => ?_) rfl rfl
    rw [hq] at hmem
    exact (List.mem_cons.mp hmem).resolve_left (fun heq => hne heq.symm)
  | fetched hf hopen => exact guarded_of_leaves (leaves_openSession hopen) rfl rfl
  | @sendTimer now event rest ho' hr =>
    refine ota_guarded_frame h rfl rfl ?_ (fun hq => hq) rfl ?_
    · simp [ho', writes]
    · simp [Ota.told, ho', timerEvents]
  | sendCore ho' hr =>
    refine ota_guarded_frame h rfl rfl ?_ (fun hq => hq) rfl ?_
    · simp [ho', writes]
    · simp [Ota.told, ho', timerEvents]
  | record ho' hr =>
    have hf : s.fetching = none := by
      by_contra hne
      rw [(ho.fetching hne).1] at ho'
      cases ho'
    exact guarded_of_leaves (leaves_record (ho.inStep hf) hr).1 rfl rfl
  | watchdog hq hr =>
    intro hf hw hn
    rcases h hf hw hn with hmem | harmed
    · exact Or.inl hmem
    · right
      unfold Ota.told at harmed
      rw [hq, List.cons_append, List.map_cons] at harmed
      exact Countdown.armed_receive harmed hr
  | @expire timer out hx =>
    intro hf hw hn
    cases out with
    | none =>
      -- without room the expiry is still to be delivered
      obtain ⟨-, a, rfl⟩ := Countdown.expire_none hx
      exact Or.inr trivial
    | some duration => exact Or.inl (List.mem_append_right _ (List.mem_singleton_self _))
  | _ => exact ota_guarded_frame h rfl rfl rfl (fun hq => hq) rfl rfl

end Guarded

/-! ## Where neither task can go on -/

namespace Ota

/-- Neither task can go on without a message, a version or the service. -/
def Rests (idEdge : String) (s : Ota) : Prop :=
  ∀ i : Label, i.isOwn = true → s.step idEdge i = none

/-- No session is open, and nothing waits. -/
structure Over (s : Ota) : Prop where
  selects : s.selecting = true
  sleeps : s.task.state = .sleeping
  msgs : s.msgs = []
  fromTimer : s.fromTimer = []
  toTimer : s.toTimer = []
  timer : s.timer = .idle

/-- The task waits for the service to take a response. -/
structure Unserved (s : Ota) : Prop where
  sends : ∃ response rest, s.ops = .toCore response :: rest
  full : room capacity s.responses = false

/-- The task waits to command a watchdog that waits to deliver its timeout. -/
structure Jammed (s : Ota) : Prop where
  sends : ∃ event rest, s.ops = .toTimer event :: rest
  toTimer : room capacity s.toTimer = false
  fromTimer : room capacity s.fromTimer = false
  fires : ∃ duration, s.timer = .firing duration

section Rests

variable {idEdge : String} {s : Ota}

theorem own_none (h : s.Rests idEdge) (hp : s.panicked = false) :
    s.takeMsg = none ∧ s.takeTimer = none ∧ s.watchdog = none ∧ s.expire = none ∧
      ∀ now, s.work idEdge now = none := by
  have hstep : ∀ i : Label, i.isOwn = true → s.step idEdge i = none := h
  unfold step at hstep
  simp only [hp, Bool.false_eq_true, if_false] at hstep
  exact ⟨hstep .takeMsg rfl, hstep .takeTimer rfl, hstep .watchdog rfl, hstep .expire rfl,
    fun now => hstep (.work now) rfl⟩

theorem idle_or_firing (h : s.expire = none) :
    s.timer = .idle ∨ room capacity s.fromTimer = false ∧ ∃ duration, s.timer = .firing duration := by
  unfold expire at h
  rw [Option.map_eq_none_iff] at h
  exact Countdown.expire_eq_none.mp h

theorem toTimer_of_idle (h : s.watchdog = none) (hidle : s.timer = .idle) : s.toTimer = [] := by
  by_contra hne
  obtain ⟨event, rest, hq⟩ := List.exists_cons_of_ne_nil hne
  simp only [watchdog, hq, hidle, Option.map_eq_none_iff] at h
  exact Countdown.receive_idle _ h

/-- A handler that cannot go on waits with a send. -/
theorem waits_of_ops (h : s.Rests idEdge) (hp : s.panicked = false) (hne : s.ops ≠ []) :
    s.Unserved ∨ s.Jammed := by
  obtain ⟨-, -, hwatchdog, hexpire, hwork⟩ := own_none h hp
  have hnone := hwork default
  unfold work at hnone
  rcases ho : s.ops with _ | ⟨event | response | ⟨isUpdated, success⟩, rest⟩
  · exact absurd ho hne
  · right
    have hfull : room capacity s.toTimer = false := by
      by_contra hr
      simp [ho, hr] at hnone
    rcases idle_or_firing hexpire with hidle | ⟨hfrom, hfires⟩
    · rw [toTimer_of_idle hwatchdog hidle] at hfull
      cases hfull
    · exact ⟨⟨event, rest, ho⟩, hfull, hfrom, hfires⟩
  · left
    refine ⟨⟨response, rest, ho⟩, ?_⟩
    by_contra hr
    simp [ho, hr] at hnone
  · simp [ho] at hnone

/-- A task that waits in its select has nothing to take, and nothing is on its way. -/
theorem quiet_of_selecting (h : s.Rests idEdge) (hp : s.panicked = false)
    (hsel : s.selecting = true) :
    s.msgs = [] ∧ s.fromTimer = [] ∧ s.toTimer = [] ∧ s.timer = .idle := by
  obtain ⟨hmsg, htimer, hwatchdog, hexpire, -⟩ := own_none h hp
  have hmsgs : s.msgs = [] := by
    by_contra hne
    obtain ⟨cmd, rest, hq⟩ := List.exists_cons_of_ne_nil hne
    cases cmd <;> simp [takeMsg, hsel, hq] at hmsg
  have hfrom : s.fromTimer = [] := by
    by_contra hne
    obtain ⟨event, rest, hq⟩ := List.exists_cons_of_ne_nil hne
    cases event <;> simp [takeTimer, hsel, hq] at htimer
  have hidle : s.timer = .idle := by
    rcases idle_or_firing hexpire with hidle | ⟨hfull, -⟩
    · exact hidle
    · rw [hfrom] at hfull
      cases hfull
  exact ⟨hmsgs, hfrom, toTimer_of_idle hwatchdog hidle, hidle⟩

theorem over_of_selecting (h : s.Rests idEdge) (hp : s.panicked = false) (hg : s.Guarded)
    (hsel : s.selecting = true) : s.Over := by
  obtain ⟨hmsgs, hfrom, hto, hidle⟩ := quiet_of_selecting h hp hsel
  obtain ⟨hf, hops⟩ := selecting_iff.mp hsel
  refine ⟨hsel, ?_, hmsgs, hfrom, hto, hidle⟩
  cases hstate : s.task.state with
  | sleeping => rfl
  | working =>
    rcases hg hf hstate (by simp [hops, writes]) with hmem | harmed
    · rw [hfrom] at hmem
      cases hmem
    · have htold : s.told = [] := by simp [told, hto, hops, timerEvents]
      rw [htold] at harmed
      exact absurd hidle (Countdown.ne_idle_of_armed_nil harmed)

theorem rests_of_over (h : s.Over) : s.Rests idEdge := by
  obtain ⟨-, hops⟩ := selecting_iff.mp h.selects
  intro i hown
  unfold step
  by_cases hp : s.panicked = true
  · rw [if_pos hp]
  · rw [if_neg hp]
    cases i with
    | takeMsg => simp [takeMsg, h.msgs]
    | takeTimer => simp [takeTimer, h.fromTimer]
    | work now => simp [work, hops]
    | watchdog => simp [watchdog, h.toTimer]
    | expire => simp [expire, h.timer, Countdown.expire]
    | _ => cases hown

end Rests

end Ota

/-! ## The law -/

/-- Every session ends: the two tasks take at most two steps, four for each message and nine for
each hub that is found; and where neither can go on, the task has panicked, fetches a version or
waits with a send, or no session is open, nothing waits, and each order that was taken in its
turn has its answer. -/
theorem every_session_ends (idEdge : String) (t : List (Ota × Ota.Label)) (s : Ota)
    (run : (Ota.machine idEdge).Run t s) :
    ownSteps t ≤ 2 + brought t ∧
      (s.Rests idEdge → s.panicked = true ∨ s.fetching ≠ none ∨ s.Unserved ∨ s.Jammed ∨
        (s.Over ∧ (Matched (Ota.log t) ↔ Machine.Meets Ota.InTurn t))) := by
  have heffort := run_effort run
  refine ⟨by omega, fun hrests => ?_⟩
  have hinv : s.Orderly ∧ s.Guarded := by
    refine run.always (fun s => s.Orderly ∧ s.Guarded) ?_ ?_
    · rintro s ⟨manager, rfl⟩
      exact ⟨orderly_start manager, fun _ hworking => by cases hworking⟩
    · rintro s i s' ⟨ho, hg⟩ hs
      exact ⟨(orderly_step ho hs).1, ota_guarded_step ho hg (ota_move_of_step ho hs).2⟩
  by_cases hp : s.panicked = true
  · exact Or.inl hp
  · rw [Bool.not_eq_true] at hp
    by_cases hf : s.fetching = none
    · by_cases hops : s.ops = []
      · have hsel : s.selecting = true := selecting_iff.mpr ⟨hf, hops⟩
        have hover := Ota.over_of_selecting hrests hp hinv.2 hsel
        have hledger := Ota.the_runtime_answers_its_orders run hsel hover.sleeps
        exact Or.inr (Or.inr (Or.inr (Or.inr ⟨hover, hledger⟩)))
      · rcases Ota.waits_of_ops hrests hp hops with hunserved | hjammed
        · exact Or.inr (Or.inr (Or.inl hunserved))
        · exact Or.inr (Or.inr (Or.inr (Or.inl hjammed)))
    · exact Or.inr (Or.inl hf)

/-- The hub that is asked says nothing. -/
def saysNothing : List Ota.Label :=
  [.expire, .takeTimer, .work default, .work default, .work default, .watchdog]

theorem a_session_with_a_silent_hub_ends : ∃ t s, (Ota.machine "edge").Run t s ∧
    s.Rests "edge" ∧ ownSteps t = 12 ∧ brought t = 13 ∧
      (s.panicked = true ∨ s.fetching ≠ none ∨ s.Unserved ∨ s.Jammed ∨
        (s.Over ∧ (Matched (Ota.log t) ↔ Machine.Meets Ota.InTurn t))) := by
  have hinit : (Ota.machine "edge").init (Ota.start oneHub) := ⟨oneHub, rfl⟩
  have hrun := Machine.run_of_final (opened ++ saysNothing) hinit (by decide +kernel)
  have hrests : Ota.Rests "edge" (((Ota.machine "edge").final (Ota.start oneHub)
      (opened ++ saysNothing)).get (by decide +kernel)) := by
    apply Ota.rests_of_over
    constructor <;> decide +kernel
  exact ⟨_, _, hrun, hrests, by decide +kernel, by decide +kernel,
    (every_session_ends "edge" _ _ hrun).2 hrests⟩

end EdgeGateway.Firmware
