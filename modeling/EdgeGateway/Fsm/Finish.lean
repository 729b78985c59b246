-- Every balancing comes to its end. What is on its way to the tasks is an effort that each of
-- their steps spends, and a change of the state pays for what it puts on its way out of the
-- changes that are left. So the tasks take as many steps as the attempts of the settings and
-- the commands allow; and where none of them can go on, the machine works normally, or the
-- epoch has not come, or `fsm` and `run_fsm` wait for each other.
import EdgeGateway.Lib.Work
import EdgeGateway.Fsm.Bounds
import EdgeGateway.Fsm.Stuck

namespace EdgeGateway.Fsm

open EdgeGateway.Lib EdgeGateway.Message EdgeGateway.Networks EdgeGateway.Quorum

/-! ## The effort of what is on its way -/

/-- The steps that an event takes where the state does not change: an answer to a handshake has
its quorum calculated, and the verdict of that refused. -/
def Event.effort : Event → Nat
  | .newMessageHandshake => 8
  | _ => 3

def Action.effort : Action → Nat
  | .onEntryBalance .initBalanceMode => 2
  | .onEntryBalance .inHandshake => 9
  | .onEntryBalance .outHandshake => 9
  | .onEntryQuorum .checkQuorumIn => 5
  | .onEntryQuorum .checkQuorumOut => 5
  | .onEntryQuorum _ => 9
  | .calculateQuorum => 5
  | .onEntryPhase .alert => 10
  | .onEntryPhase _ => 9
  | .onEntryNormal => 3
  | .onEntrySafeMode => 10
  | .stopTimer => 3
  | .stopSendHeartbeatMessagePhase => 2
  | .stopSendHeartbeatMessageSafeMode => 2
  | _ => 1

def Op.effort : Op → Nat
  | .act a => a.effort
  | .toFsm e => 1 + e.effort
  | .toTimer e => 1 + e.kind.effort 3
  | _ => 1

/-- A list is taken, and its actions are handled. -/
def effortOfList (l : Nat × List Action) : Nat := 1 + weigh Action.effort l.2

/-- A list that `run_fsm` holds is to be delivered before. -/
def effortOfOutbox : Option (Nat × List Action) → Nat
  | some l => 1 + effortOfList l
  | none => 0

/-- The steps that are on their way, but for those of further changes of the state. -/
def Runtime.effort (r : Runtime) : Nat :=
  weigh (fun e => e.1.effort) r.events + weigh effortOfList r.actions + effortOfOutbox r.outbox +
    weigh Op.effort r.ops + weigh (fun c => c.1.kind.effort 3) r.timerQueue +
    r.timer.effort 3

/-- The three tasks, not a command for them and not another task. -/
def Label.isOwn : Label → Bool
  | .command _ => false
  | .network _ => false
  | _ => true

def Label.isCommand : Label → Bool
  | .command _ => true
  | _ => false

section Sends

variable (ctx : AppContext) (manager : NetworkManager) (epoch : UInt32) (session : UpdateSession)
  (now : Int64) (jitter : UInt32)

theorem effort_quorumAlgorithm : (quorumAlgorithm ctx manager session).effort = 3 := by
  rcases quorumAlgorithm_cases ctx manager session with h | h | h <;> rw [h] <;> rfl

/-- An action spends its effort on what it sends. -/
theorem effort_handleAction (a : Action) :
    weigh Op.effort (handleAction ctx manager epoch session now jitter a).2 + 1 = a.effort := by
  cases a with
  | onEntryBalance sub => cases sub <;> rfl
  | onEntryQuorum sub =>
    cases sub with
    | checkQuorumIn => simp [handleAction, Op.effort, effort_quorumAlgorithm, Action.effort]
    | checkQuorumOut => simp [handleAction, Op.effort, effort_quorumAlgorithm, Action.effort]
    | _ => rfl
  | calculateQuorum => simp [handleAction, Op.effort, effort_quorumAlgorithm, Action.effort]
  | onEntryPhase sub => cases sub <;> rfl
  | _ => rfl

/-- A command brings nine steps at most. -/
theorem effort_onCommand (c : FsmServiceCommand) :
    weigh Op.effort (onCommand manager epoch session c).2.2 ≤ 9 := by
  have ht := taken manager epoch session c
  generalize onCommand manager epoch session c = out at ht ⊢
  cases ht with
  | @empty msg hs =>
    rcases (quorumPhase_cases manager session (.emptyQueue msg)).2 with h | h <;>
      simp [h, Op.effort, Event.effort, Cmd.effort]
  | @emptySafe msg hs =>
    rcases (quorumSafeMode_cases manager session (.emptyQueueSafe msg)).2 with h | h <;>
      simp [h, Op.effort, Event.effort, Cmd.effort]
  | _ => simp [Op.effort, Event.effort]

end Sends

/-- A row of the table pays for its list, with fourteen more where the state changes. -/
theorem effort_of_row {m m' : Mode} {e : Event} {l : List Action} (h : m.next e = some (m', l)) :
    weigh Action.effort l + 3 ≤ e.effort + if m' = m then 0 else 14 :=
  Mode.of_rows (P := fun m e m' l => weigh Action.effort l + 3 ≤
    e.effort + if m' = m then 0 else 14) (by decide) h

theorem weigh_map_act (l : List Action) : weigh Op.effort (l.map .act) = weigh Action.effort l := by
  induction l with
  | nil => rfl
  | cons a l ih =>
    rw [List.map_cons, weigh_cons, weigh_cons, ih]
    rfl

theorem effort_sendActions (cap : Option Nat) (r : Runtime) (l : List Action)
    (hb : r.outbox = none) :
    (Runtime.sendActions cap r l).effort ≤ r.effort + weigh Action.effort l + 2 := by
  unfold Runtime.sendActions
  split
  · simp only [Runtime.effort, weigh_append, weigh_cons, weigh_nil, effortOfList]
    omega
  · simp only [Runtime.effort, hb, effortOfOutbox, effortOfList]
    omega

/-! ## One step -/

section Steps

variable {ctx : AppContext} {cap : Option Nat} {m m' : Mode} {t : List (Runtime × Label)}
  {r r' : Runtime} {i : Label}

/-- Each step of a task spends effort, and only a command or a change of the state brings more. -/
theorem effort_step (hmove : Move ctx cap m r i m' r') :
    r'.effort + (if i.isOwn then 1 else 0) + 14 * r.past.visit ≤
      r.effort + (if i.isCommand then 9 else 0) + 14 * r'.past.visit := by
  cases hmove with
  | @command _ c ho =>
    have hbrings := effort_onCommand r.manager r.currentEpoch r.session c
    simp only [Runtime.effort, Runtime.afterCommand, ho, weigh_nil, Label.isOwn, Label.isCommand,
      Past.hear_visit, if_true, Bool.false_eq_true, if_false]
    omega
  | @take _ visit l rest ho ha =>
    simp only [Runtime.effort, ho, ha, weigh_nil, weigh_cons, weigh_map_act, effortOfList,
      Label.isOwn, Label.isCommand, if_true, Bool.false_eq_true, if_false]
    omega
  | @act _ a rest now jitter ho =>
    have hspends := effort_handleAction ctx r.manager r.currentEpoch r.session now
      jitter.val.toUInt32 a
    simp only [Runtime.effort, Runtime.afterAct, Past.execute, ho, weigh_append, weigh_cons,
      Op.effort, Label.isOwn, Label.isCommand, if_true, Bool.false_eq_true, if_false]
    omega
  | sendFsm ho hr =>
    simp only [Runtime.effort, ho, weigh_append, weigh_cons, weigh_nil, Op.effort, Label.isOwn,
      Label.isCommand, if_true, Bool.false_eq_true, if_false]
    omega
  | sendTimer ho hr =>
    simp only [Runtime.effort, ho, weigh_append, weigh_cons, weigh_nil, Op.effort, Label.isOwn,
      Label.isCommand, if_true, Bool.false_eq_true, if_false]
    omega
  | @output _ o rest now jitter ho hout =>
    have hsend : o.effort = 1 := by cases o <;> first | rfl | cases hout
    simp only [Runtime.effort, ho, weigh_cons, hsend, Label.isOwn, Label.isCommand, if_true,
      Bool.false_eq_true, if_false]
    omega
  | deliver hb hr =>
    simp only [Runtime.effort, hb, weigh_append, weigh_cons, weigh_nil, effortOfOutbox,
      Label.isOwn, Label.isCommand, if_true, Bool.false_eq_true, if_false]
    omega
  | @refuse _ e v rest hb he hn =>
    have hpos : 3 ≤ e.effort := by cases e <;> simp [Event.effort]
    simp only [Runtime.effort, he, weigh_cons, Label.isOwn, Label.isCommand, if_true,
      Bool.false_eq_true, if_false]
    omega
  | @advance _ _ e v rest l hb he hn =>
    have hrow := effort_of_row hn
    have hsent : (r.advanced cap m m' rest l).effort + e.effort ≤
        r.effort + weigh Action.effort l + 2 := by
      have hlist : (r.advanced cap m m' rest l).effort ≤ _ := effort_sendActions cap _ l hb
      simp only [Runtime.effort, he, weigh_cons] at hlist ⊢
      omega
    simp only [Runtime.advanced_past, Label.isOwn, Label.isCommand, if_true, Bool.false_eq_true,
      if_false]
    split at hrow
    · rw [if_pos ‹_›]
      omega
    · rw [if_neg ‹_›]
      omega
  | @receive _ c rest timer hq ht =>
    have hspends := Countdown.effort_receive 3 ht
    rw [timerCmd_kind] at hspends
    simp only [Runtime.effort, hq, weigh_cons, Label.isOwn, Label.isCommand, if_true,
      Bool.false_eq_true, if_false]
    omega
  | @expire _ timer out ht =>
    have hspends := Countdown.effort_expire 3 ht
    have htimeout : weigh (fun e : Event × Nat => e.1.effort)
        (out.map (fun visit => (Event.timeout, visit))).toList = 3 * out.toList.length := by
      cases out <;> rfl
    simp only [Runtime.effort, weigh_append, htimeout, Label.isOwn, Label.isCommand, if_true,
      Bool.false_eq_true, if_false]
    omega
  | network =>
    simp only [Runtime.effort, Label.isOwn, Label.isCommand, Bool.false_eq_true, if_false]
    omega

end Steps

/-! ## A whole run -/

def ownSteps (t : List (Runtime × Label)) : Nat := t.countP (fun p => p.2.isOwn)

def commands (t : List (Runtime × Label)) : Nat := t.countP (fun p => p.2.isCommand)

theorem effort_start (cap : Option Nat) (manager : NetworkManager) :
    (Runtime.start cap manager).effort ≤ 4 := by
  rw [start_eq]
  apply effort_sendActions
  rfl

/-- The steps of the tasks are paid for by the commands and by the changes of the state. -/
theorem run_effort {ctx : AppContext} {cap : Option Nat} {t : List (Runtime × Label)} {r : Runtime}
    (run : (machine ctx cap).Run t r) :
    ownSteps t + r.effort + 10 ≤ 9 * commands t + 14 * r.past.visit := by
  have hpaid : ownSteps t + (r.effort + 10) ≤ 0 + 9 * commands t + 14 * r.past.visit := by
    apply run.paid (fun r => ∃ m : Mode, r.state = m.state) (fun r => r.effort + 10)
      (fun r => 14 * r.past.visit)
    · rintro r ⟨manager, rfl⟩
      have hstart := effort_start cap manager
      have hvisit : (Runtime.start cap manager).past.visit = 1 := by rw [past_start]
      exact ⟨⟨.init, state_start cap manager⟩, by omega⟩
    · rintro r i r' ⟨m, hm⟩ hs
      obtain ⟨m', hm', hmove⟩ := move_of_step hm hs
      have hstep := effort_step hmove
      exact ⟨⟨m', hm'⟩, by omega⟩
  omega

/-! ## Where no task can go on -/

/-- None of the three tasks can go on. -/
def Runtime.Rests (ctx : AppContext) (cap : Option Nat) (r : Runtime) : Prop :=
  ∀ i : Label, i.isOwn = true → r.step ctx cap i = none

/-- `run_fsm` waits to deliver a list and `fsm` to send an event, or `fsm` waits to command a
watchdog that waits to deliver its timeout. -/
structure Jammed (cap : Option Nat) (r : Runtime) : Prop where
  holds : r.outbox.isSome = true
  actions : room cap r.actions = false
  events : room cap r.events = false
  ops : (∃ e rest, r.ops = .toFsm e :: rest) ∨
    ∃ e rest v, r.ops = .toTimer e :: rest ∧ room cap r.timerQueue = false ∧ r.timer = .firing v

section Rests

variable {ctx : AppContext} {cap : Option Nat} {r : Runtime}

/-- A watchdog that cannot go on is idle or waits for room. -/
theorem timer_of_rests (h : r.Rests ctx cap) :
    r.timer = .idle ∨ room cap r.events = false ∧ ∃ v, r.timer = .firing v := by
  have hexpire : r.timerExpire cap = none := h .timerExpire rfl
  unfold Runtime.timerExpire at hexpire
  rw [Option.map_eq_none_iff] at hexpire
  exact Countdown.expire_eq_none.mp hexpire

/-- An idle watchdog has taken its commands. -/
theorem timerQueue_of_rests (h : r.Rests ctx cap) (hidle : r.timer = .idle) :
    r.timerQueue = [] := by
  by_contra hne
  obtain ⟨c, rest, hq⟩ := List.exists_cons_of_ne_nil hne
  have hreceive : r.timerReceive = none := h .timerReceive rfl
  simp only [Runtime.timerReceive, hq, hidle, Option.map_eq_none_iff] at hreceive
  exact Countdown.receive_idle _ hreceive

/-- `fsm` has nothing to do, or waits for room. -/
theorem ops_of_rests (h : r.Rests ctx cap) : r.ops = [] ∨
    (∃ e rest, r.ops = .toFsm e :: rest ∧ room cap r.events = false) ∨
    ∃ e rest, r.ops = .toTimer e :: rest ∧ room cap r.timerQueue = false := by
  have hwork : r.work ctx cap 0 0 = none := h (.work 0 0) rfl
  rcases ho : r.ops with _ | ⟨o, rest⟩
  · exact Or.inl rfl
  · right
    unfold Runtime.work at hwork
    rw [ho] at hwork
    cases o with
    | toFsm e =>
      left
      by_cases hr : room cap r.events = true
      · simp [hr] at hwork
      · exact ⟨e, rest, rfl, Bool.eq_false_iff.mpr hr⟩
    | toTimer e =>
      right
      by_cases hr : room cap r.timerQueue = true
      · simp [hr] at hwork
      · exact ⟨e, rest, rfl, Bool.eq_false_iff.mpr hr⟩
    | _ => cases hwork

/-- Where `run_fsm` holds a list, the tasks wait for each other. -/
theorem jammed_of_rests (hcap : cap ≠ some 0) (h : r.Rests ctx cap)
    (hb : r.outbox.isSome = true) : Jammed cap r := by
  have hrun : r.runFsm cap = none := h .runFsm rfl
  obtain ⟨l, hl⟩ := Option.isSome_iff_exists.mp hb
  have hactions : room cap r.actions = false := by
    by_contra hr
    simp [Runtime.runFsm, hl, hr] at hrun
  rcases ops_of_rests h with ho | ⟨e, rest, ho, hevents⟩ | ⟨e, rest, ho, hqueue⟩
  · obtain ⟨l', rest, hq⟩ := List.exists_cons_of_ne_nil (ne_nil_of_room hcap hactions)
    have htake : r.takeActions = none := h .takeActions rfl
    simp [Runtime.takeActions, ho, hq] at htake
  · exact ⟨hb, hactions, hevents, Or.inl ⟨e, rest, ho⟩⟩
  · rcases timer_of_rests h with hidle | ⟨hevents, v, hv⟩
    · exact absurd (timerQueue_of_rests h hidle) (ne_nil_of_room hcap hqueue)
    · exact ⟨hb, hactions, hevents, Or.inr ⟨e, rest, v, ho, hqueue, hv⟩⟩

/-- Where `run_fsm` holds none, nothing is on its way. -/
theorem nothing_of_rests (hcap : cap ≠ some 0) (h : r.Rests ctx cap) (hb : r.outbox = none) :
    r.events = [] ∧ r.ops = [] ∧ r.actions = [] ∧ r.timer = .idle ∧ r.timerQueue = [] := by
  have hevents : r.events = [] := by
    by_contra hne
    obtain ⟨e, rest, he⟩ := List.exists_cons_of_ne_nil hne
    have hrun : r.runFsm cap = none := h .runFsm rfl
    simp [Runtime.runFsm, hb, he] at hrun
  have hroom : room cap r.events = true := by
    rw [hevents]
    exact room_nil hcap
  have hidle : r.timer = .idle := by
    rcases timer_of_rests h with hidle | ⟨hfull, -⟩
    · exact hidle
    · rw [hroom] at hfull
      cases hfull
  have hqueue := timerQueue_of_rests h hidle
  have hops : r.ops = [] := by
    rcases ops_of_rests h with ho | ⟨e, rest, ho, hfull⟩ | ⟨e, rest, ho, hfull⟩
    · exact ho
    · rw [hroom] at hfull
      cases hfull
    · exact absurd hqueue (ne_nil_of_room hcap hfull)
  refine ⟨hevents, hops, ?_, hidle, hqueue⟩
  by_contra hne
  obtain ⟨l, rest, hq⟩ := List.exists_cons_of_ne_nil hne
  have htake : r.takeActions = none := h .takeActions rfl
  simp [Runtime.takeActions, hops, hq] at htake

end Rests

/-- With nothing on its way the machine works normally, or waits for the epoch. -/
theorem rests_in {ctx : AppContext} {cap : Option Nat} {t : List (Runtime × Label)} {r : Runtime}
    (run : (machine ctx cap).Run t r) (hcap : cap ≠ some 0) (h : r.Rests ctx cap)
    (hb : r.outbox = none) :
    r.state = Mode.normal.state ∨ (r.state = Mode.init.state ∧ Asked t ∧ Unanswered t) := by
  obtain ⟨hevents, hops, hactions, hidle, hqueue⟩ := nothing_of_rests hcap h hb
  obtain ⟨m, hm, hw⟩ := watched_run run
  obtain ⟨m₂, hm₂, hwait⟩ := waits_run run
  obtain rfl : m = m₂ := Mode.state_injective (hm.symm.trans hm₂)
  have hpending : r.pending = [] := by simp [Runtime.pending, Runtime.queued, *]
  have hahead : r.ahead = [] := by simp [Runtime.ahead, *]
  have htold : r.told = [] := by simp [Runtime.told, *]
  have htimed : ¬ m.timed = true := by
    intro htimed
    rcases hw.armed htimed with harmed | ⟨e, he, -⟩
    · rw [htold] at harmed
      exact Countdown.ne_idle_of_armed_nil harmed hidle
    · rw [hahead] at he
      cases he
  have hchecking : ¬ m.checking = true := by
    intro hchecking
    rcases hw.judged hchecking with ⟨e, he, -⟩ | ⟨a, ha, -⟩
    · rw [hahead] at he
      cases he
    · rw [hpending] at ha
      cases ha
  cases m with
  | normal => exact Or.inl hm
  | init =>
    obtain ⟨hasked, hunanswered⟩ := hwait rfl
    rw [hpending] at hasked
    rw [hahead] at hunanswered
    exact Or.inr ⟨hm, by simpa using hasked, by simpa using hunanswered⟩
  | _ => exact absurd rfl (by first | exact htimed | exact hchecking)

/-! ## The law -/

/-- No hub ever answers, and safe mode runs out. -/
def silentBalancing : List Label :=
  silence ++ [.takeActions] ++ works 4 ++ [.timerReceive, .timerExpire, .runFsm, .takeActions] ++
    works 5

end EdgeGateway.Fsm
