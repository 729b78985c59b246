-- What is on its way to the tasks. All that `fsm` still has to execute is
-- one list, `pending`, and each fact below says what an action, a command
-- or a transition adds to it.
import EdgeGateway.Fsm.Runtime

namespace EdgeGateway.Fsm

open EdgeGateway.Lib EdgeGateway.Message EdgeGateway.Networks EdgeGateway.Quorum

/-! ## Reading a list of operations -/

/-- What the event means for a countdown. -/
def Event.kind : Event → Cmd Unit
  | .initTimer _ => .start ()
  | .stopTimer => .stop
  | _ => .other

@[simp] theorem Event.kind_stopTimer : Event.stopTimer.kind = .stop := rfl

theorem timerCmd_kind (c : Event × Nat) : (Runtime.timerCmd c).kind = c.1.kind := by
  obtain ⟨e, v⟩ := c
  cases e <;> rfl

/-- What the watchdog is going to be told when the action is handled. -/
def Action.kinds : Action → List (Cmd Unit)
  | .onEntryBalance .inHandshake => [.start ()]
  | .onEntryBalance .outHandshake => [.start ()]
  | .onEntryQuorum .repeatHandshakeIn => [.start ()]
  | .onEntryQuorum .repeatHandshakeOut => [.start ()]
  | .onEntryPhase _ => [.start ()]
  | .onEntrySafeMode => [.start ()]
  | .stopTimer => [.stop]
  | _ => []

/-- The action runs the quorum of a check state. -/
def Action.checks : Action → Bool
  | .onEntryQuorum .checkQuorumIn => true
  | .onEntryQuorum .checkQuorumOut => true
  | _ => false

namespace Op

def kinds : Op → List (Cmd Unit)
  | .act a => a.kinds
  | .toTimer e => [e.kind]
  | _ => []

def sets : Op → Option StateOfSession
  | .act a => a.sets
  | _ => none

/-- The event that the operation sends to the machine. -/
def event : Op → Option Event
  | .toFsm e => some e
  | _ => none

/-- The operation is a send, not an action still to be handled. -/
def isSend : Op → Bool
  | .act _ => false
  | _ => true

end Op

/-- What the watchdog is going to be told by the operations. -/
def kinds (ops : List Op) : List (Cmd Unit) := ops.flatMap Op.kinds

/-- The state of the session once the operations are executed. -/
def sessionAfter (s : StateOfSession) (ops : List Op) : StateOfSession :=
  ops.foldl (fun s o => o.sets.getD s) s

/-- Some action still to be handled sets the state of the session. -/
def Setting (ops : List Op) : Prop := ∃ o ∈ ops, o.sets ≠ none

instance (ops : List Op) : Decidable (Setting ops) :=
  inferInstanceAs (Decidable (∃ o ∈ ops, o.sets ≠ none))

/-- From every point before the last setting of the session on, the
operations leave a watchdog that is asleep. -/
def Sealed : List Op → Prop
  | [] => True
  | o :: ops => (Setting (o :: ops) → Countdown.settle false (kinds (o :: ops)) = true) ∧ Sealed ops

@[simp] theorem kinds_nil : kinds [] = [] := rfl

@[simp] theorem kinds_cons (o : Op) (ops : List Op) : kinds (o :: ops) = o.kinds ++ kinds ops :=
  List.flatMap_cons

@[simp] theorem kinds_append (p q : List Op) : kinds (p ++ q) = kinds p ++ kinds q :=
  List.flatMap_append

theorem sessionAfter_append (s : StateOfSession) (p q : List Op) :
    sessionAfter s (p ++ q) = sessionAfter (sessionAfter s p) q := List.foldl_append

/-- Operations that set nothing leave the session as it is. -/
theorem sessionAfter_of_not_setting {ops : List Op} (h : ¬ Setting ops) (s : StateOfSession) :
    sessionAfter s ops = s := by
  induction ops generalizing s with
  | nil => rfl
  | cons o ops ih =>
    have ho : o.sets = none := by
      by_contra hne
      exact h ⟨o, List.mem_cons_self, hne⟩
    have hops : ¬ Setting ops := fun ⟨x, hx, hne⟩ => h ⟨x, List.mem_cons_of_mem _ hx, hne⟩
    simp only [sessionAfter, List.foldl_cons, ho, Option.getD_none]
    exact ih hops s

theorem not_setting_of_sends {ops : List Op} (h : ∀ o ∈ ops, o.isSend = true) : ¬ Setting ops := by
  rintro ⟨o, ho, hne⟩
  have hs := h o ho
  cases o <;> simp_all [Op.sets, Op.isSend]

theorem settle_of_sealed {ops : List Op} (h : Sealed ops) (hs : Setting ops) :
    Countdown.settle false (kinds ops) = true := by
  cases ops with
  | nil =>
    obtain ⟨o, ho, _⟩ := hs
    simp at ho
  | cons o ops => exact h.1 hs

/-- Sends before sealed operations change nothing of the seal. -/
theorem sealed_sends_append {p q : List Op} (hp : ∀ o ∈ p, o.isSend = true) (hq : Sealed q) :
    Sealed (p ++ q) := by
  induction p with
  | nil => exact hq
  | cons o p ih =>
    have hp' : ∀ x ∈ p, x.isSend = true := fun x hx => hp x (List.mem_cons_of_mem _ hx)
    refine ⟨?_, ih hp'⟩
    rintro ⟨x, hx, hne⟩
    have hset : Setting q := by
      rcases List.mem_append.mp (List.cons_append ▸ hx : x ∈ (o :: p) ++ q) with h | h
      · exact absurd ⟨x, h, hne⟩ (not_setting_of_sends hp)
      · exact ⟨x, h, hne⟩
    show Countdown.settle false (kinds ((o :: p) ++ q)) = true
    rw [kinds_append, Countdown.settle_append]
    exact Countdown.settle_mono (settle_of_sealed hq hset) _

/-- A list that ends with a sleeping watchdog seals all before it. -/
theorem sealed_append_of_settle {p q : List Op} (hq : Sealed q)
    (hk : Countdown.settle false (kinds q) = true) : Sealed (p ++ q) := by
  induction p with
  | nil => exact hq
  | cons o p ih =>
    refine ⟨fun _ => ?_, ih⟩
    show Countdown.settle false (kinds ((o :: p) ++ q)) = true
    rw [kinds_append, Countdown.settle_append]
    exact Countdown.settle_mono hk _

/-- A list that neither sets the session nor speaks to the watchdog keeps a seal. -/
theorem sealed_append_of_silent {p q : List Op} (hp : Sealed p) (hs : ¬ Setting q)
    (hk : kinds q = []) : Sealed (p ++ q) := by
  induction p with
  | nil =>
    induction q with
    | nil => trivial
    | cons o q ih =>
      have hq : ¬ Setting q := fun ⟨x, hx, hne⟩ => hs ⟨x, List.mem_cons_of_mem _ hx, hne⟩
      have hk' : kinds q = [] := by simp_all [kinds]
      exact ⟨fun h => absurd h hs, ih hq hk'⟩
  | cons o p ih =>
    refine ⟨?_, ih hp.2⟩
    rintro ⟨x, hx, hne⟩
    have hset : Setting (o :: p) := by
      rcases List.mem_append.mp (List.cons_append ▸ hx : x ∈ (o :: p) ++ q) with h | h
      · exact ⟨x, h, hne⟩
      · exact absurd ⟨x, h, hne⟩ hs
    show Countdown.settle false (kinds ((o :: p) ++ q)) = true
    rw [kinds_append, hk, List.append_nil]
    exact hp.1 hset

/-! ## What actions and commands add -/

section Sends

variable (ctx : AppContext) (manager : NetworkManager) (epoch : UInt32) (session : UpdateSession)
  (now : Int64) (jitter : UInt32)

theorem quorumAlgorithm_cases :
    quorumAlgorithm ctx manager session = .approveQuorum ∨
    quorumAlgorithm ctx manager session = .notApproveQuorum ∨
    quorumAlgorithm ctx manager session = .notApproveNotAttempts := by
  unfold quorumAlgorithm
  split
  · exact Or.inr (Or.inr rfl)
  · split
    · exact Or.inl rfl
    · exact Or.inr (Or.inl rfl)

/-- Handling an action adds sends only. -/
theorem handleAction_sends (a : Action) :
    ∀ o ∈ (handleAction ctx manager epoch session now jitter a).2, o.isSend = true := by
  cases a with
  | onEntryBalance sub =>
    cases sub <;> simp [handleAction, onEntryInHandshake, onEntryOutHandshake, sendHandshake,
      initTimer, Op.isSend]
  | onEntryQuorum sub =>
    cases sub <;> simp [handleAction, onEntryRepeatHandshake, initTimer, Op.isSend]
  | onEntryPhase sub =>
    cases sub <;> simp [handleAction, onEntryAlert, onEntryData, onEntryMonitor, onEntryPhase,
      sendPhaseNotification, initTimer, Op.isSend]
  | onEntryNormal => simp [handleAction, onEntryNormal, Op.isSend]
  | onEntrySafeMode => simp [handleAction, onEntrySafeMode, initTimer, Op.isSend]
  | _ => simp [handleAction, Op.isSend]

/-- The watchdog is told what the action announced. -/
theorem handleAction_kinds (a : Action) :
    kinds (handleAction ctx manager epoch session now jitter a).2 = a.kinds := by
  cases a with
  | onEntryBalance sub => cases sub <;> rfl
  | onEntryQuorum sub => cases sub <;> rfl
  | onEntryPhase sub => cases sub <;> rfl
  | _ => rfl

/-- The state of the session is the one that the action sets. -/
theorem handleAction_state (a : Action) :
    (handleAction ctx manager epoch session now jitter a).1.state = a.sets.getD session.state := by
  cases a with
  | onEntryBalance sub => cases sub <;> rfl
  | onEntryQuorum sub => cases sub <;> rfl
  | onEntryPhase sub => cases sub <;> rfl
  | _ => rfl

/-- A check action sends the verdict of the quorum. -/
theorem handleAction_checks {a : Action} (h : a.checks = true) :
    ∃ e, .toFsm e ∈ (handleAction ctx manager epoch session now jitter a).2 ∧
      (e = .approveQuorum ∨ e = .notApproveQuorum ∨ e = .notApproveNotAttempts) := by
  cases a with
  | onEntryQuorum sub =>
    cases sub with
    | checkQuorumIn => exact ⟨_, List.mem_singleton_self _, quorumAlgorithm_cases _ _ _⟩
    | checkQuorumOut => exact ⟨_, List.mem_singleton_self _, quorumAlgorithm_cases _ _ _⟩
    | repeatHandshakeIn => simp [Action.checks] at h
    | repeatHandshakeOut => simp [Action.checks] at h
  | _ => simp [Action.checks] at h

/-- The action runs the quorum over the answers to a handshake. -/
def Action.evaluates : Action → Bool
  | .calculateQuorum => true
  | a => a.checks

/-- The verdict reads the votes and the attempts, not the state of the session. -/
@[simp] theorem quorumAlgorithm_setState (s : StateOfSession) :
    quorumAlgorithm ctx manager (session.setState s) = quorumAlgorithm ctx manager session := rfl

/-- The only event that an action sends is the verdict of its quorum. -/
theorem handleAction_event {a : Action} {e : Event}
    (h : .toFsm e ∈ (handleAction ctx manager epoch session now jitter a).2) :
    a.evaluates = true ∧ e = quorumAlgorithm ctx manager session := by
  cases a with
  | onEntryBalance sub =>
    cases sub <;> simp [handleAction, onEntryInHandshake, onEntryOutHandshake, sendHandshake,
      initTimer] at h
  | onEntryQuorum sub =>
    cases sub with
    | checkQuorumIn => exact ⟨rfl, by simpa [handleAction] using h⟩
    | checkQuorumOut => exact ⟨rfl, by simpa [handleAction] using h⟩
    | repeatHandshakeIn => simp [handleAction, onEntryRepeatHandshake, initTimer] at h
    | repeatHandshakeOut => simp [handleAction, onEntryRepeatHandshake, initTimer] at h
  | onEntryPhase sub =>
    cases sub <;> simp [handleAction, onEntryAlert, onEntryData, onEntryMonitor, onEntryPhase,
      sendPhaseNotification, initTimer] at h
  | onEntryNormal => simp [handleAction, onEntryNormal] at h
  | onEntrySafeMode => simp [handleAction, onEntrySafeMode, initTimer] at h
  | calculateQuorum => exact ⟨rfl, by simpa [handleAction] using h⟩
  | _ => simp [handleAction] at h

/-- What a quorum over empty queues may send. -/
theorem quorumPhase_cases (msg : HubMessage) :
    (quorumPhase manager session msg).1.state = session.state ∧
    ((quorumPhase manager session msg).2 = [] ∨
      (quorumPhase manager session msg).2 = [.toFsm .quorumPhase, .toTimer .stopTimer]) := by
  unfold quorumPhase
  split
  · split
    · have hstate : ∀ k v, (session.insertEmpty k v).state = session.state := by
        intro k v
        unfold UpdateSession.insertEmpty
        split <;> rfl
      simp only
      split
      · exact ⟨hstate _ _, Or.inr rfl⟩
      · exact ⟨hstate _ _, Or.inl rfl⟩
    · exact ⟨rfl, Or.inl rfl⟩
  · exact ⟨rfl, Or.inl rfl⟩

theorem quorumSafeMode_cases (msg : HubMessage) :
    (quorumSafeMode manager session msg).1.state = session.state ∧
    ((quorumSafeMode manager session msg).2 = [] ∨
      (quorumSafeMode manager session msg).2 = [.toFsm .quorumSafeMode, .toTimer .stopTimer]) := by
  unfold quorumSafeMode
  split
  · split
    · have hstate : ∀ k v, (session.insertEmpty k v).state = session.state := by
        intro k v
        unfold UpdateSession.insertEmpty
        split <;> rfl
      simp only
      split
      · exact ⟨hstate _ _, Or.inr rfl⟩
      · exact ⟨hstate _ _, Or.inl rfl⟩
    · exact ⟨rfl, Or.inl rfl⟩
  · exact ⟨rfl, Or.inl rfl⟩

end Sends

/-- What `fsm` makes of a command: nothing, or one of five reactions. -/
inductive Taken (manager : NetworkManager) (epoch : UInt32) (session : UpdateSession) :
    FsmServiceCommand → UInt32 × UpdateSession × List Op → Prop where
  | silent {c : FsmServiceCommand} : Taken manager epoch session c (epoch, session, [])
  | handshake {h : HandshakeFromHub}
      (hs : session.state = .inHandshake ∨ session.state = .outHandshake ∨
        session.state = .repeatHandshake)
      (he : h.balanceEpoch = epoch) :
      Taken manager epoch session (.fromHub (.handshakeFromHub h))
        (epoch, session.insertHandshake h.metadata.senderUserId h.balanceEpoch,
          [.toFsm .newMessageHandshake])
  | empty {msg : EmptyQueue}
      (hs : session.state = .phaseAlert ∨ session.state = .phaseData ∨
        session.state = .phaseMonitor) :
      Taken manager epoch session (.fromHub (.emptyQueue msg))
        (epoch, quorumPhase manager session (.emptyQueue msg))
  | emptySafe {msg : EmptyQueueSafeMode} (hs : session.state = .safeMode) :
      Taken manager epoch session (.fromHub (.emptyQueueSafe msg))
        (epoch, quorumSafeMode manager session (.emptyQueueSafe msg))
  | errorEpoch :
      Taken manager epoch session .errorEpoch (epoch, session, [.toFsm .balanceEpochNotOk])
  | epoch {e : UInt32} : Taken manager epoch session (.epoch e)
      (e + 1, session, [.toFsm .balanceEpochOk, .toCore (.newEpoch (e + 1)),
        .toEdgeState (.balanceMode (e + 1))])

theorem taken (manager : NetworkManager) (epoch : UInt32) (session : UpdateSession)
    (c : FsmServiceCommand) :
    Taken manager epoch session c (onCommand manager epoch session c) := by
  cases c with
  | errorEpoch => exact .errorEpoch
  | epoch e => exact .epoch
  | createRuntime => exact .silent
  | deleteRuntime => exact .silent
  | fromHub msg =>
    cases msg with
    | handshakeFromHub h =>
      rcases hs : session.state <;> simp only [onCommand, hs] <;>
        first | exact .silent | (split; exacts [.handshake (by simp [hs]) ‹_›, .silent])
    | emptyQueue msg =>
      rcases hs : session.state <;> simp only [onCommand, hs] <;>
        first | exact .silent | exact .empty (by simp [hs])
    | emptyQueueSafe msg =>
      rcases hs : session.state <;> simp only [onCommand, hs] <;>
        first | exact .silent | exact .emptySafe hs
    | _ => exact .silent

/-- A command only adds sends, and leaves the state of the session. -/
theorem onCommand_sends (manager : NetworkManager) (epoch : UInt32) (session : UpdateSession)
    (c : FsmServiceCommand) :
    (onCommand manager epoch session c).2.1.state = session.state ∧
      ∀ o ∈ (onCommand manager epoch session c).2.2, o.isSend = true := by
  have h := taken manager epoch session c
  generalize onCommand manager epoch session c = out at h ⊢
  cases h with
  | silent => simp
  | handshake hs he =>
    refine ⟨?_, by simp [Op.isSend]⟩
    unfold UpdateSession.insertHandshake
    split <;> rfl
  | empty hs =>
    obtain ⟨h1, h2 | h2⟩ := quorumPhase_cases manager session (.emptyQueue ‹_›) <;>
      simp [h1, h2, Op.isSend]
  | emptySafe hs =>
    obtain ⟨h1, h2 | h2⟩ := quorumSafeMode_cases manager session (.emptyQueueSafe ‹_›) <;>
      simp [h1, h2, Op.isSend]
  | errorEpoch => simp [Op.isSend]
  | epoch => simp [Op.isSend]

/-! ## Events come first -/

/-- The next operation sends an event to the machine. -/
def sendsNext : List Op → Bool
  | .toFsm _ :: _ => true
  | _ => false

/-- Only the first operation may send an event: an action or a command
sends at most one, before its other sends. -/
def EventFirst (ops : List Op) : Prop := ∀ o ∈ ops.tail, o.event = none

theorem eventFirst_tail {o : Op} {rest : List Op} (h : EventFirst (o :: rest)) :
    EventFirst rest ∧ sendsNext rest = false := by
  refine ⟨fun x hx => h x (List.mem_of_mem_tail hx), ?_⟩
  rcases rest with _ | ⟨x, rest⟩
  · rfl
  · have hx := h x (by simp)
    cases x <;> first | rfl | simp [Op.event] at hx

/-- Only the first operation may send an event. -/
theorem tail_ne_toFsm {o : Op} {rest : List Op} (h : EventFirst (o :: rest)) (e : Event)
    (rest' : List Op) : rest ≠ .toFsm e :: rest' := by
  rintro rfl
  have hno := (eventFirst_tail h).2
  simp [sendsNext] at hno

/-- The event that is sent next after an action is one that it sends. -/
theorem mem_sends_of_next {a : Action} {sends rest rest' : List Op} {e : Event}
    (h : EventFirst (.act a :: rest)) (hnext : sends ++ rest = .toFsm e :: rest') :
    .toFsm e ∈ sends := by
  rcases sends with _ | ⟨o, sends⟩
  · exact absurd hnext (tail_ne_toFsm h e rest')
  · rw [List.cons_append, List.cons.injEq] at hnext
    exact hnext.1 ▸ List.mem_cons_self

section Sends

variable (ctx : AppContext) (manager : NetworkManager) (epoch : UInt32) (session : UpdateSession)
  (now : Int64) (jitter : UInt32)

theorem handleAction_first (a : Action) :
    EventFirst (handleAction ctx manager epoch session now jitter a).2 ∧
      sendsNext (handleAction ctx manager epoch session now jitter a).2 = a.evaluates := by
  cases a with
  | onEntryBalance sub =>
    cases sub <;> simp [handleAction, onEntryInHandshake, onEntryOutHandshake, sendHandshake,
      initTimer, EventFirst, sendsNext, Op.event, Action.evaluates, Action.checks]
  | onEntryQuorum sub =>
    cases sub <;> simp [handleAction, onEntryRepeatHandshake, initTimer, EventFirst, sendsNext,
      Op.event, Action.evaluates, Action.checks]
  | onEntryPhase sub =>
    cases sub <;> simp [handleAction, onEntryAlert, onEntryData, onEntryMonitor, onEntryPhase,
      sendPhaseNotification, initTimer, EventFirst, sendsNext, Op.event, Action.evaluates,
      Action.checks]
  | onEntryNormal =>
    simp [handleAction, onEntryNormal, EventFirst, sendsNext, Op.event, Action.evaluates,
      Action.checks]
  | onEntrySafeMode =>
    simp [handleAction, onEntrySafeMode, initTimer, EventFirst, sendsNext, Op.event,
      Action.evaluates, Action.checks]
  | _ => simp [handleAction, EventFirst, sendsNext, Action.evaluates, Action.checks]

theorem onCommand_first (c : FsmServiceCommand) :
    EventFirst (onCommand manager epoch session c).2.2 := by
  have ht := taken manager epoch session c
  generalize onCommand manager epoch session c = out at ht ⊢
  cases ht with
  | @empty msg hs =>
    rcases (quorumPhase_cases manager session (.emptyQueue msg)).2 with h2 | h2 <;>
      simp [EventFirst, h2, Op.event]
  | @emptySafe msg hs =>
    rcases (quorumSafeMode_cases manager session (.emptyQueueSafe msg)).2 with h2 | h2 <;>
      simp [EventFirst, h2, Op.event]
  | _ => simp [EventFirst, Op.event]

end Sends

/-- The actions that follow one under way are not events, so what it sends
next is what the action sends first. -/
theorem act_first (ctx : AppContext) {r : Runtime} {a : Action} {rest : List Op}
    (h : EventFirst r.ops) (ho : r.ops = .act a :: rest) (now : Int64) (jitter : UInt32) :
    EventFirst ((handleAction ctx r.manager r.currentEpoch r.session now jitter a).2 ++ rest) ∧
      sendsNext ((handleAction ctx r.manager r.currentEpoch r.session now jitter a).2 ++ rest) =
        a.evaluates := by
  have hrest : ∀ o ∈ rest, o.event = none := fun o hmem => h o (by rw [ho]; exact hmem)
  obtain ⟨hfirst, hnext⟩ :=
    handleAction_first ctx r.manager r.currentEpoch r.session now jitter a
  generalize (handleAction ctx r.manager r.currentEpoch r.session now jitter a).2 = sends
    at hfirst hnext ⊢
  rcases sends with _ | ⟨o, sends⟩
  · rw [ho] at h
    obtain ⟨h1, h2⟩ := eventFirst_tail h
    exact ⟨h1, by rw [← hnext]; exact h2⟩
  · refine ⟨?_, by rw [← hnext]; cases o <;> rfl⟩
    intro x hx
    rcases List.mem_append.mp hx with hx | hx
    · exact hfirst x hx
    · exact hrest x hx

/-! ## All that is on its way -/

namespace Runtime

/-- All that `fsm` still has to execute, in order. -/
def pending (r : Runtime) : List Op := r.ops ++ r.queued.flatMap (fun l => l.2.map .act)

/-- The events that the machine is going to meet without a further action. -/
def ahead (r : Runtime) : List Event := r.events.map Prod.fst ++ r.pending.filterMap Op.event

/-- What the watchdog is going to be told. -/
def told (r : Runtime) : List (Cmd Unit) :=
  r.timerQueue.map (fun c => c.1.kind) ++ kinds r.pending

/-- A command puts its sends before all that is pending. -/
theorem pending_afterCommand {r : Runtime} (ho : r.ops = []) (c : FsmServiceCommand)
    (out : UInt32 × UpdateSession × List Op) :
    (r.afterCommand c out).pending = out.2.2 ++ r.pending := by
  simp [afterCommand, pending, queued, ho]

/-- Handling an action puts its sends in its place. -/
theorem pending_afterAct {r : Runtime} {a : Action} {rest : List Op} (ho : r.ops = .act a :: rest) :
    ∃ p, r.pending = .act a :: p ∧
      ∀ out, (r.afterAct a rest out).pending = out.2 ++ p := by
  refine ⟨rest ++ r.queued.flatMap (fun l => l.2.map .act), by rw [pending, ho]; rfl, ?_⟩
  intro out
  simp [afterAct, pending, queued]

/-- A send of `fsm` that arrives is the first of the pending operations. -/
theorem pending_send {r : Runtime} {o : Op} {rest : List Op} (ho : r.ops = o :: rest)
    (events timerQueue : List (Event × Nat)) :
    r.pending = o :: ({ r with events, timerQueue, ops := rest } : Runtime).pending := by
  rw [pending, pending, ho]
  rfl

theorem pending_take {r : Runtime} {visit : Nat} {l : List Action}
    {rest : List (Nat × List Action)} (ho : r.ops = []) (ha : r.actions = (visit, l) :: rest)
    (past : Past) :
    ({ r with actions := rest, ops := l.map .act, past } : Runtime).pending = r.pending := by
  simp [pending, queued, ho, ha]

theorem pending_deliver {r : Runtime} {l : Nat × List Action} (hb : r.outbox = some l) :
    ({ r with actions := r.actions ++ [l], outbox := none } : Runtime).pending = r.pending := by
  simp [pending, queued, hb]

/-- A transition puts its list behind all that is pending. -/
theorem pending_sendActions {cap : Option Nat} {r : Runtime} (hb : r.outbox = none)
    (l : List Action) : (sendActions cap r l).pending = r.pending ++ l.map .act := by
  rw [pending, queued_sendActions l hb, sendActions_ops, pending]
  simp

theorem pending_advanced (cap : Option Nat) {r : Runtime} (hb : r.outbox = none) (m m' : Mode)
    (rest : List (Event × Nat)) (l : List Action) :
    (r.advanced cap m m' rest l).pending = r.pending ++ l.map .act := by
  refine pending_sendActions ?_ l
  exact hb

end Runtime

/-- Every step keeps events first. -/
theorem eventFirst_step {ctx : AppContext} {cap : Option Nat} {m m' : Mode} {r r' : Runtime}
    {i : Label} (h : EventFirst r.ops) (hmove : Move ctx cap m r i m' r') : EventFirst r'.ops := by
  cases hmove with
  | command ho => exact onCommand_first _ _ _ _
  | take ho ha =>
    intro o hmem
    obtain ⟨a, -, rfl⟩ := List.mem_map.mp (List.mem_of_mem_tail hmem)
    rfl
  | act ho => exact (act_first ctx h ho _ _).1
  | sendFsm ho hr => exact (eventFirst_tail (ho ▸ h)).1
  | sendTimer ho hr => exact (eventFirst_tail (ho ▸ h)).1
  | output ho hout => exact (eventFirst_tail (ho ▸ h)).1
  | advance hb he hn =>
    rw [Runtime.advanced_ops]
    exact h
  | _ => exact h

/-- A pending operation stays pending until `fsm` executes it, and an
action that is executed leaves its sends. -/
theorem pending_kept {ctx : AppContext} {cap : Option Nat} {m m' : Mode} {r r' : Runtime}
    {i : Label} (hmove : Move ctx cap m r i m' r') {o : Op} (h : o ∈ r.pending) :
    o ∈ r'.pending ∨ ∃ rest now jitter, r.ops = o :: rest ∧ i = .work now jitter ∧
      ∀ a, o = .act a → ∀ x ∈ (handleAction ctx r.manager r.currentEpoch r.session now
        jitter.val.toUInt32 a).2, x ∈ r'.pending := by
  cases hmove with
  | command ho =>
    rw [Runtime.pending_afterCommand ho]
    exact Or.inl (List.mem_append_right _ h)
  | @take _ visit _ _ ho ha =>
    rw [Runtime.pending_take ho ha { r.past with serving := visit }]
    exact Or.inl h
  | @act _ a rest now jitter ho =>
    obtain ⟨p, hp, hout⟩ := Runtime.pending_afterAct ho
    rw [hp, List.mem_cons] at h
    rw [hout]
    rcases h with rfl | h
    · refine Or.inr ⟨rest, now, jitter, ho, rfl, fun b hb x hx => ?_⟩
      rw [Op.act.injEq] at hb
      exact List.mem_append_left _ (hb ▸ hx)
    · exact Or.inl (List.mem_append_right _ h)
  | @sendFsm _ e rest now jitter ho hr =>
    rw [Runtime.pending_send ho (r.events ++ [(e, 0)]) r.timerQueue, List.mem_cons] at h
    rcases h with rfl | h
    · exact Or.inr ⟨rest, now, jitter, ho, rfl, by simp⟩
    · exact Or.inl h
  | @sendTimer _ e rest now jitter ho hr =>
    rw [Runtime.pending_send ho r.events (r.timerQueue ++ [(e, r.past.serving)]),
      List.mem_cons] at h
    rcases h with rfl | h
    · exact Or.inr ⟨rest, now, jitter, ho, rfl, by simp⟩
    · exact Or.inl h
  | @output _ out rest now jitter ho hout =>
    rw [Runtime.pending_send ho r.events r.timerQueue, List.mem_cons] at h
    rcases h with rfl | h
    · refine Or.inr ⟨rest, now, jitter, ho, rfl, ?_⟩
      rintro a rfl
      simp [Op.isOutput] at hout
    · exact Or.inl h
  | deliver hb hr =>
    rw [Runtime.pending_deliver hb]
    exact Or.inl h
  | refuse hb he hn => exact Or.inl h
  | advance hb he hn =>
    rw [Runtime.pending_advanced cap hb]
    exact Or.inl (List.mem_append_left _ h)
  | receive hq ht => exact Or.inl h
  | expire ht => exact Or.inl h
  | network => exact Or.inl h

end EdgeGateway.Fsm
