-- The course of the balancing as the hubs hear it: handshakes in, the three phases one
-- after the other, handshakes out. What they hear are the entries of the states with a
-- time limit, and `fsm` executes these in the order in which the machine begins them.
import EdgeGateway.Lib.Flow
import EdgeGateway.Lib.Order
import EdgeGateway.Fsm.Pending

namespace EdgeGateway.Fsm

open EdgeGateway.Lib EdgeGateway.Message EdgeGateway.Networks EdgeGateway.Quorum

/-! ## What a hub hears -/

inductive Notice where
  | handshakeIn
  | alert
  | data
  | monitor
  | handshakeOut
  deriving Repr, DecidableEq

/-- What a hub reads in a message of the balancing. -/
def Notice.ofHub : HubMessage → Option Notice
  | .handshakeToHub msg =>
    if msg.flag = "in" then some .handshakeIn
    else if msg.flag = "out" then some .handshakeOut
    else none
  | .phaseNotification msg =>
    if msg.phase = "alert" then some .alert
    else if msg.phase = "data" then some .data
    else if msg.phase = "monitor" then some .monitor
    else none
  | _ => none

/-- A handshake in, as often as it takes, each phase once, and a handshake out, as often as it
takes. -/
def balancing : Order Notice (Option Notice) where
  start := none
  next _ n := some n
  allows
    | none, .handshakeIn => true
    | some .handshakeIn, .handshakeIn => true
    | some .handshakeIn, .alert => true
    | some .alert, .data => true
    | some .data, .monitor => true
    | some .monitor, .handshakeOut => true
    | some .handshakeOut, .handshakeOut => true
    | _, _ => false

/-! ## The entries behind it -/

/-- The mode whose entry the action executes, where that entry starts the watchdog. -/
def Action.enters : Action → List Mode
  | .onEntryBalance .inHandshake => [.inHandshake]
  | .onEntryBalance .outHandshake => [.outHandshake]
  | .onEntryQuorum .repeatHandshakeIn => [.repeatIn]
  | .onEntryQuorum .repeatHandshakeOut => [.repeatOut]
  | .onEntryPhase .alert => [.alert]
  | .onEntryPhase .data => [.data]
  | .onEntryPhase .monitor => [.monitor]
  | .onEntrySafeMode => [.safeMode]
  | _ => []

/-- What the hubs hear of an entry. -/
def Mode.notice : Mode → Option Notice
  | .inHandshake => some .handshakeIn
  | .repeatIn => some .handshakeIn
  | .alert => some .alert
  | .data => some .data
  | .monitor => some .monitor
  | .outHandshake => some .handshakeOut
  | .repeatOut => some .handshakeOut
  | _ => none

def Op.enters : Op → List Mode
  | .act a => a.enters
  | _ => []

def Op.notices : Op → List Notice
  | .act a => a.enters.filterMap Mode.notice
  | .toCore (.toHub msg) => (Notice.ofHub msg).toList
  | _ => []

/-- The entry that `fsm` executes in a step. -/
def Runtime.enters (r : Runtime) : Label → List Mode
  | .work _ _ =>
    match r.ops with
    | .act a :: _ => a.enters
    | _ => []
  | _ => []

/-- What the hubs hear of a step. -/
def Runtime.tells (r : Runtime) : Label → List Notice
  | .work _ _ =>
    match r.ops with
    | .toCore (.toHub msg) :: _ => (Notice.ofHub msg).toList
    | _ => []
  | _ => []

theorem handleAction_notices (ctx : AppContext) (manager : NetworkManager) (epoch : UInt32)
    (session : UpdateSession) (now : Int64) (jitter : UInt32) (a : Action) :
    (handleAction ctx manager epoch session now jitter a).2.flatMap Op.notices =
      a.enters.filterMap Mode.notice := by
  cases a with
  | onEntryBalance sub => cases sub <;> rfl
  | onEntryQuorum sub => cases sub <;> rfl
  | onEntryPhase sub => cases sub <;> rfl
  | _ => rfl

theorem onCommand_notices (manager : NetworkManager) (epoch : UInt32) (session : UpdateSession)
    (c : FsmServiceCommand) : (onCommand manager epoch session c).2.2.flatMap Op.notices = [] := by
  have ht := taken manager epoch session c
  generalize onCommand manager epoch session c = out at ht ⊢
  cases ht with
  | @empty msg hs =>
    rcases (quorumPhase_cases manager session (.emptyQueue msg)).2 with h | h <;> rw [h] <;> rfl
  | @emptySafe msg hs =>
    rcases (quorumSafeMode_cases manager session (.emptyQueueSafe msg)).2 with h | h <;>
      rw [h] <;> rfl
  | _ => rfl

/-! ## What a step makes of all that is pending -/

/-- `Shift ctx m r i m' r'`: the step `i` puts the sends of a command or of an action before what
is pending, takes a send from its front, or puts the list of a transition behind it. -/
inductive Shift (ctx : AppContext) :
    Mode → Runtime → Label → Mode → Runtime → Prop where
  | still {m : Mode} {r r' : Runtime} {i : Label} (hi : ∀ now jitter, i ≠ .work now jitter)
      (hp : r'.pending = r.pending) : Shift ctx m r i m r'
  | command {m : Mode} {r r' : Runtime} {c : FsmServiceCommand} (ho : r.ops = [])
      (hp : r'.pending =
        (onCommand r.manager r.currentEpoch r.session c).2.2 ++ r.pending) :
      Shift ctx m r (.command c) m r'
  | act {m : Mode} {r r' : Runtime} {a : Action} {rest p : List Op} {now : Int64}
      {jitter : Fin 11} (ho : r.ops = .act a :: rest) (hp : r.pending = .act a :: p)
      (hp' : r'.pending = (handleAction ctx r.manager r.currentEpoch r.session now
        jitter.val.toUInt32 a).2 ++ p) :
      Shift ctx m r (.work now jitter) m r'
  | send {m : Mode} {r r' : Runtime} {o : Op} {rest : List Op} {now : Int64} {jitter : Fin 11}
      (ho : r.ops = o :: rest) (hs : o.isSend = true) (hp : r.pending = o :: r'.pending) :
      Shift ctx m r (.work now jitter) m r'
  | advance {m m' : Mode} {r r' : Runtime} {e : Event} {l : List Action}
      (hn : m.next e = some (m', l)) (hp : r'.pending = r.pending ++ l.map .act) :
      Shift ctx m r .runFsm m' r'

theorem shift_of_move {ctx : AppContext} {cap : Option Nat} {m m' : Mode} {r r' : Runtime}
    {i : Label} (hmove : Move ctx cap m r i m' r') : Shift ctx m r i m' r' := by
  cases hmove with
  | command ho => exact .command ho (Runtime.pending_afterCommand ho _ _)
  | @take _ visit l rest ho ha =>
    exact .still nofun (Runtime.pending_take ho ha { r.past with serving := visit })
  | act ho =>
    obtain ⟨p, hp, hout⟩ := Runtime.pending_afterAct ho
    exact .act ho hp (hout _)
  | @sendFsm _ e _ _ _ ho hr =>
    exact .send ho rfl (Runtime.pending_send ho (r.events ++ [(e, 0)]) r.timerQueue)
  | @sendTimer _ e _ _ _ ho hr =>
    exact .send ho rfl (Runtime.pending_send ho r.events (r.timerQueue ++ [(e, r.past.serving)]))
  | @output _ o _ _ _ ho hout =>
    refine .send ho ?_ (Runtime.pending_send ho r.events r.timerQueue)
    cases o <;> first | rfl | cases hout
  | deliver hb hr => exact .still nofun (Runtime.pending_deliver hb)
  | refuse hb he hn => exact .still nofun rfl
  | advance hb he hn => exact .advance hn (Runtime.pending_advanced cap hb _ _ _ _)
  | receive hq ht => exact .still nofun rfl
  | expire ht => exact .still nofun rfl
  | network => exact .still nofun rfl

/-! ## The entries of a run -/

/-- The entries that `fsm` has executed. -/
def done (t : List (Runtime × Label)) : List Mode := Machine.log Runtime.enters t

/-- The entries that the machine has begun: those executed and those on their way. -/
def begun (t : List (Runtime × Label)) (r : Runtime) : List Mode :=
  done t ++ r.pending.flatMap Op.enters

theorem done_snoc {t : List (Runtime × Label)} {r : Runtime} {i : Label} :
    done (t ++ [(r, i)]) = done t ++ r.enters i := Machine.log_snoc ..

theorem enters_of_sends {ops : List Op} (h : ∀ o ∈ ops, o.isSend = true) :
    ops.flatMap Op.enters = [] := by
  refine List.flatMap_eq_nil_iff.mpr fun o ho => ?_
  have hs := h o ho
  cases o <;> first | rfl | cases hs

section Steps

variable {ctx : AppContext} {m m' : Mode} {t : List (Runtime × Label)} {r r' : Runtime}
  {i : Label}

/-- What a transition announces is what its list enters. -/
theorem notices_acts (l : List Action) :
    (l.map Op.act).flatMap Op.notices =
      ((l.map Op.act).flatMap Op.enters).filterMap Mode.notice := by
  induction l with
  | nil => rfl
  | cons a l ih =>
    rw [List.map_cons, List.flatMap_cons, List.flatMap_cons, List.filterMap_append, ih]
    rfl

/-- What the hubs have heard and what is on its way to them are the notices of the entries
begun. -/
theorem notices_step (h : Shift ctx m r i m' r')
    (ih : Machine.log Runtime.tells t ++ r.pending.flatMap Op.notices =
      (begun t r).filterMap Mode.notice) :
    Machine.log Runtime.tells (t ++ [(r, i)]) ++ r'.pending.flatMap Op.notices =
      (begun (t ++ [(r, i)]) r').filterMap Mode.notice := by
  unfold begun at ih ⊢
  rw [Machine.log_snoc, done_snoc, List.append_assoc]
  cases h with
  | still hi hp =>
    have hnone : r.tells i = [] ∧ r.enters i = [] := by
      cases i <;> first | exact ⟨rfl, rfl⟩ | exact absurd rfl (hi _ _)
    rw [hp, hnone.1, hnone.2, List.append_nil, List.nil_append]
    exact ih
  | @command _ _ c ho hp =>
    have hnone : r.tells (.command c) = [] ∧ r.enters (.command c) = [] := ⟨rfl, rfl⟩
    have hsends := (onCommand_sends r.manager r.currentEpoch r.session c).2
    rw [hp, hnone.1, hnone.2, List.flatMap_append, List.flatMap_append, onCommand_notices,
      enters_of_sends hsends, List.append_nil, List.nil_append, List.nil_append, List.nil_append]
    exact ih
  | @act _ _ a rest p now jitter ho hp hp' =>
    have hnone : r.tells (.work now jitter) = [] ∧ r.enters (.work now jitter) = a.enters := by
      simp only [Runtime.tells, Runtime.enters, ho, and_self]
    have hsends := handleAction_sends ctx r.manager r.currentEpoch r.session now
      jitter.val.toUInt32 a
    rw [hp] at ih
    rw [hp', hnone.1, hnone.2, List.flatMap_append, List.flatMap_append, handleAction_notices,
      enters_of_sends hsends, List.nil_append, List.nil_append, List.append_assoc]
    exact ih
  | @send _ _ o rest now jitter ho hs hp =>
    have htells : r.tells (.work now jitter) = o.notices ∧ r.enters (.work now jitter) = [] ∧
        o.enters = [] := by
      simp only [Runtime.tells, Runtime.enters, ho]
      cases o with
      | act a => cases hs
      | toCore response => cases response <;> exact ⟨rfl, rfl, rfl⟩
      | _ => exact ⟨rfl, rfl, rfl⟩
    rw [hp, List.flatMap_cons, List.flatMap_cons, htells.2.2, List.nil_append] at ih
    rw [htells.1, htells.2.1, List.append_nil]
    exact ih
  | @advance _ _ _ e l hn hp =>
    have hnone : r.tells .runFsm = [] ∧ r.enters .runFsm = [] := ⟨rfl, rfl⟩
    rw [hp, hnone.1, hnone.2, List.flatMap_append, List.flatMap_append, notices_acts,
      List.append_nil, List.nil_append, ← List.append_assoc, ← List.append_assoc,
      List.filterMap_append, ih]

end Steps

theorem pending_start (cap : Option Nat) (manager : NetworkManager) :
    (Runtime.start cap manager).pending = [.act (.onEntryBalance .initBalanceMode)] := by
  rw [Runtime.pending, queued_start, ops_start]
  rfl

theorem run_notices {ctx : AppContext} {cap : Option Nat} {t : List (Runtime × Label)}
    {r : Runtime} (run : (machine ctx cap).Run t r) :
    Machine.log Runtime.tells t ++ r.pending.flatMap Op.notices =
      (begun t r).filterMap Mode.notice := by
  refine (run.history (fun t r => (∃ m : Mode, r.state = m.state) ∧
    Machine.log Runtime.tells t ++ r.pending.flatMap Op.notices =
      (begun t r).filterMap Mode.notice) ?_ ?_).2
  · rintro r ⟨manager, rfl⟩
    refine ⟨⟨.init, state_start cap manager⟩, ?_⟩
    unfold begun
    rw [pending_start]
    rfl
  · rintro t r i r' ⟨⟨m, hm⟩, ih⟩ hs
    obtain ⟨m', hm', hmove⟩ := move_of_step hm hs
    exact ⟨⟨m', hm'⟩, notices_step (shift_of_move hmove) ih⟩

/-! ## The order of the entries -/

/-- Which entry may follow which. -/
def course : Order Mode (Option Mode) where
  start := none
  next _ n := some n
  allows
    | none, .inHandshake => true
    | none, .safeMode => true
    | some .inHandshake, .repeatIn => true
    | some .inHandshake, .alert => true
    | some .inHandshake, .safeMode => true
    | some .repeatIn, .repeatIn => true
    | some .repeatIn, .alert => true
    | some .repeatIn, .safeMode => true
    | some .alert, .data => true
    | some .data, .monitor => true
    | some .monitor, .outHandshake => true
    | some .outHandshake, .repeatOut => true
    | some .outHandshake, .safeMode => true
    | some .repeatOut, .repeatOut => true
    | some .repeatOut, .safeMode => true
    | _, _ => false

/-- An entry that may follow is safe mode, or its notice may follow too. -/
theorem allows_notice {k : Option Mode} {n : Mode} (h : course.allows k n = true) :
    k ≠ some .safeMode ∧ (n = .safeMode ∨
      ∃ x, n.notice = some x ∧ balancing.allows (k.bind Mode.notice) x = true) := by
  rcases k with _ | k
  · cases n <;> first
      | exact absurd h (by decide)
      | exact ⟨by decide, .inl rfl⟩
      | exact ⟨by decide, .inr ⟨_, rfl, rfl⟩⟩
  · cases k <;> cases n <;> first
      | exact absurd h (by decide)
      | exact ⟨by decide, .inl rfl⟩
      | exact ⟨by decide, .inr ⟨_, rfl, rfl⟩⟩

/-- Where the entries are in order, so are their notices. -/
theorem balancing_of_course {entries : List Mode} (h : course.Holds entries) :
    balancing.Holds (entries.filterMap Mode.notice) ∧
      (course.after entries ≠ some .safeMode →
        balancing.after (entries.filterMap Mode.notice) =
          (course.after entries).bind Mode.notice) := by
  induction entries using List.reverseRecOn with
  | nil => exact ⟨Order.holds_nil balancing, fun _ => rfl⟩
  | append_singleton entries n ih =>
    obtain ⟨hbefore, hallows⟩ := (Order.holds_snoc course).mp h
    obtain ⟨hholds, hafter⟩ := ih hbefore
    obtain ⟨hlast, rfl | ⟨x, hx, hnext⟩⟩ := allows_notice hallows
    · have hempty : [Mode.safeMode].filterMap Mode.notice = [] := rfl
      rw [List.filterMap_append, hempty, List.append_nil, Order.after_snoc]
      exact ⟨hholds, fun hne => absurd rfl hne⟩
    · have hone : [n].filterMap Mode.notice = [x] := by
        simp [hx]
      rw [← hafter hlast] at hnext
      rw [List.filterMap_append, hone, Order.after_snoc, Order.after_snoc]
      exact ⟨(Order.holds_snoc balancing).mpr ⟨hholds, hnext⟩, fun _ => hx.symm⟩

end EdgeGateway.Fsm
