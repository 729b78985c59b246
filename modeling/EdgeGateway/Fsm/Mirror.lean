-- The state machine and the vote session as two machines that are kept in
-- step by action lists alone. Each list is executed before the next event,
-- and hubs vote at any moment between two lists.
import EdgeGateway.Fsm.Stuck
import EdgeGateway.Fsm.Votes

namespace EdgeGateway.Fsm

open EdgeGateway.Lib EdgeGateway.Message EdgeGateway.Networks EdgeGateway.Quorum

/-! ## The two machines -/

/-- What `run_fsm` keeps, what `fsm` keeps, and the cache they read. -/
structure Fed where
  state : FsmState
  epoch : UInt32
  session : UpdateSession
  manager : NetworkManager

/-- An event for the machine, a command that `fsm` takes between two lists,
or another task changing the cache. -/
inductive Input where
  | event (e : Event) (now : Int64) (jitter : Fin 11)
  | command (c : FsmServiceCommand)
  | network (c : NetworkManager.Change)
  deriving Repr

namespace Fed

def start (manager : NetworkManager) : Fed where
  state := FsmState.new
  epoch := 0
  session := UpdateSession.new
  manager := manager

/-- The session after `handle_action` was called for each action of a list. -/
def execute (ctx : AppContext) (x : Fed) (now : Int64) (jitter : Fin 11) (l : List Action) :
    UpdateSession :=
  l.foldl (fun session a =>
    (handleAction ctx x.manager x.epoch session now jitter.val.toUInt32 a).1) x.session

/-- An event is fed to the machine and its list is executed; an invalid
transition changes nothing. -/
def feed (ctx : AppContext) (x : Fed) (e : Event) (now : Int64) (jitter : Fin 11) : Fed :=
  match x.state.step e with
  | .valid t => { x with state := t.changeState, session := x.execute ctx now jitter t.actions }
  | .invalid _ => x

/-- `fsm` takes a command. -/
def command (x : Fed) (c : FsmServiceCommand) : Fed :=
  let out := onCommand x.manager x.epoch x.session c
  { x with epoch := out.1, session := out.2.1 }

def step (ctx : AppContext) (x : Fed) : Input → Fed
  | .event e now jitter => x.feed ctx e now jitter
  | .command c => x.command c
  | .network c => { x with manager := x.manager.change c }

end Fed

/-- The machine and the session, from any cache. -/
def fedMachine (ctx : AppContext) : Machine Fed Input where
  init := fun x => ∃ manager, x = Fed.start manager
  step := fun x i => some (x.step ctx i)

/-! ## What the states should be -/

namespace FsmState

/-- A substate is there exactly when its parent is active. -/
structure Nested (s : FsmState) : Prop where
  balance : s.balance.isSome ↔ ∃ epoch, s.globalState = .balanceMode epoch
  quorum : s.quorum.isSome ↔ s.balance = some .quorum
  phase : s.phase.isSome ↔ s.balance = some .phase

/-- The state of the session that corresponds to a state. Normal has none of
its own. -/
def session (s : FsmState) : StateOfSession :=
  match s.globalState, s.balance, s.quorum, s.phase with
  | .balanceMode _, some .inHandshake, _, _ => .inHandshake
  | .balanceMode _, some .outHandshake, _, _ => .outHandshake
  | .balanceMode _, some .quorum, some .checkQuorumIn, _ => .quorum
  | .balanceMode _, some .quorum, some .checkQuorumOut, _ => .quorum
  | .balanceMode _, some .quorum, some .repeatHandshakeIn, _ => .repeatHandshake
  | .balanceMode _, some .quorum, some .repeatHandshakeOut, _ => .repeatHandshake
  | .balanceMode _, some .phase, _, some .alert => .phaseAlert
  | .balanceMode _, some .phase, _, some .data => .phaseData
  | .balanceMode _, some .phase, _, some .monitor => .phaseMonitor
  | .safeMode, _, _, _ => .safeMode
  | _, _, _, _ => .none

end FsmState

theorem nested_mode (m : Mode) : m.state.Nested := by
  cases m <;> constructor <;> simp [Mode.state]

theorem nested_new : FsmState.new.Nested := by
  constructor <;> simp [FsmState.new]

theorem session_mode (m : Mode) : m.state.session = m.session := by
  cases m <;> rfl

/-- No attempt has been counted and no handshake has been answered. -/
def UpdateSession.Unvoted (u : UpdateSession) : Prop := u.totalAttempts = 0 ∧ u.handshakeHash = ∅

/-- The mode is before a handshake, or is a phase. -/
def Mode.quiet : Mode → Bool
  | .init => true
  | .alert => true
  | .data => true
  | .monitor => true
  | _ => false

/-! ## What a list makes of the session -/

section Rows

variable (ctx : AppContext) (x : Fed) (now : Int64) (jitter : Fin 11)

/-- The state of the session is the one that the actions set. -/
theorem execute_state (l : List Action) :
    (x.execute ctx now jitter l).state = sessionAfter x.session.state (l.map .act) := by
  unfold Fed.execute sessionAfter
  induction l generalizing x with
  | nil => rfl
  | cons a l ih =>
    rw [List.foldl_cons, List.map_cons, List.foldl_cons]
    have := ih { x with
      session := (handleAction ctx x.manager x.epoch x.session now jitter.val.toUInt32 a).1 }
    rw [this, handleAction_state]
    rfl

variable {m m' : Mode} {e : Event} {l : List Action}

/-- The list that enters a quiet mode, all of them phases, ends with no
attempt and no answer. -/
theorem enter_quiet (h : m.next e = some (m', l)) (hq : m'.quiet = true) :
    (x.execute ctx now jitter l).Unvoted := by
  cases m <;> cases e <;>
    simp only [Mode.next, Option.some.injEq, Prod.mk.injEq, reduceCtorEq] at h <;>
    obtain ⟨rfl, rfl⟩ := h <;>
    first
    | exact ⟨rfl, rfl⟩
    | exact absurd hq (by decide)

/-- A handshake is entered from a quiet mode, by a list that leaves the
attempts and the answers as they are. -/
theorem enter_handshake (h : m.next e = some (m', l)) (hne : m' ≠ m)
    (hh : m' = .inHandshake ∨ m' = .outHandshake) :
    m.quiet = true ∧ (x.execute ctx now jitter l).totalAttempts = x.session.totalAttempts ∧
      (x.execute ctx now jitter l).handshakeHash = x.session.handshakeHash := by
  rcases hh with rfl | rfl <;> cases m <;> cases e <;>
    simp only [Mode.next, Option.some.injEq, Prod.mk.injEq, reduceCtorEq, false_and] at h <;>
    first
    | exact absurd rfl hne
    | (obtain ⟨-, rfl⟩ := h; exact ⟨rfl, rfl, rfl⟩)

end Rows

/-! ## What a command makes of the session -/

theorem insertEmpty_unvoted {u : UpdateSession} (key : String) (value : Bool) (h : u.Unvoted) :
    (u.insertEmpty key value).Unvoted := by
  unfold UpdateSession.insertEmpty
  split <;> exact h

/-- While the session is in no handshake, no command counts an answer. -/
theorem onCommand_unvoted {manager : NetworkManager} {epoch : UInt32} {u : UpdateSession}
    (c : FsmServiceCommand) (h : u.Unvoted)
    (hs : u.state ≠ .inHandshake ∧ u.state ≠ .outHandshake ∧ u.state ≠ .repeatHandshake) :
    (onCommand manager epoch u c).2.1.Unvoted := by
  have ht := taken manager epoch u c
  generalize onCommand manager epoch u c = out at ht ⊢
  cases ht with
  | silent => exact h
  | handshake hstate he =>
    rcases hstate with hstate | hstate | hstate
    · exact absurd hstate hs.1
    · exact absurd hstate hs.2.1
    · exact absurd hstate hs.2.2
  | empty hstate =>
    rw [quorumPhase_eq]
    split
    · exact insertEmpty_unvoted _ _ h
    · exact h
  | emptySafe hstate =>
    rw [quorumSafeMode_eq]
    split
    · exact insertEmpty_unvoted _ _ h
    · exact h
  | errorEpoch => exact h
  | epoch => exact h

/-! ## The law -/

/-- The machine has not started, or is in a mode that the session mirrors;
before a handshake the session is unvoted. -/
inductive Mirrors (x : Fed) : Prop where
  | before (hstate : x.state = FsmState.new) (hsession : x.session.state = .none)
      (hvotes : x.session.Unvoted)
  | started (m : Mode) (hstate : x.state = m.state)
      (hsession : m ≠ .normal → x.session.state = m.session)
      (hvotes : m.quiet = true → x.session.Unvoted)

theorem mirrors_start (manager : NetworkManager) : Mirrors (Fed.start manager) :=
  .before rfl rfl ⟨rfl, rfl⟩

/-- The first transition is that of `Start`. -/
theorem step_new (e : Event) :
    (e = .start ∧
      FsmState.new.step e = .valid ⟨Mode.init.state, [.onEntryBalance .initBalanceMode]⟩) ∨
    ∃ t, FsmState.new.step e = .invalid t := by
  cases e with
  | start => exact Or.inl ⟨rfl, rfl⟩
  | _ => exact Or.inr ⟨_, rfl⟩

section Step

variable {ctx : AppContext} {x : Fed} {e : Event} {now : Int64} {jitter : Fin 11}

theorem feed_invalid {t : TransitionInvalid} (h : x.state.step e = .invalid t) :
    x.feed ctx e now jitter = x := by
  unfold Fed.feed
  rw [h]

theorem feed_valid {t : TransitionValid} (h : x.state.step e = .valid t) :
    x.feed ctx e now jitter =
      { x with state := t.changeState, session := x.execute ctx now jitter t.actions } := by
  unfold Fed.feed
  rw [h]

/-- The machine moves along a row of its table and the list is executed. -/
theorem feed_row {m m' : Mode} {l : List Action} (hm : x.state = m.state)
    (h : m.next e = some (m', l)) :
    x.feed ctx e now jitter =
      { x with state := m'.state, session := x.execute ctx now jitter l } :=
  feed_valid (by rw [hm, Mode.step_mode h])

/-- Executing a row's list brings the session to the mirror of the new mode. -/
theorem row_session {m m' : Mode} {l : List Action} (h : m.next e = some (m', l))
    (hs : m ≠ .normal → x.session.state = m.session) (hn : m' ≠ .normal) :
    (x.execute ctx now jitter l).state = m'.session := by
  rw [execute_state]
  by_cases hne : m' = m
  · subst hne
    rw [sessionAfter_of_not_setting (Mode.loop_silent h).1]
    exact hs hn
  · exact Mode.enter_session h hne hn _

theorem mirrors_feed (h : Mirrors x) : Mirrors (x.feed ctx e now jitter) := by
  cases h with
  | before hstate hsession hvotes =>
    rcases step_new e with ⟨rfl, hstep⟩ | ⟨t, hstep⟩
    · rw [feed_valid (by rw [hstate]; exact hstep)]
      exact .started .init rfl (fun _ => hsession) (fun _ => hvotes)
    · rw [feed_invalid (by rw [hstate]; exact hstep)]
      exact .before hstate hsession hvotes
  | started m hstate hsession hvotes =>
    rcases hn : m.next e with _ | ⟨m', l⟩
    · obtain ⟨t, ht⟩ := Mode.step_mode_none hn
      rw [feed_invalid (by rw [hstate]; exact ht)]
      exact .started m hstate hsession hvotes
    · rw [feed_row hstate hn]
      exact .started m' rfl (fun hnormal => row_session hn hsession hnormal)
        (fun hq => enter_quiet ctx x now jitter hn hq)

theorem mirrors_command (h : Mirrors x) (c : FsmServiceCommand) : Mirrors (x.command c) := by
  have hkeep : (x.command c).session.state = x.session.state :=
    (onCommand_sends x.manager x.epoch x.session c).1
  cases h with
  | before hstate hsession hvotes =>
    refine .before hstate (hkeep.trans hsession) (onCommand_unvoted c hvotes ?_)
    rw [hsession]
    decide
  | started m hstate hsession hvotes =>
    refine .started m hstate (fun hn => hkeep.trans (hsession hn)) ?_
    intro hq
    refine onCommand_unvoted c (hvotes hq) ?_
    have hs : x.session.state = m.session := hsession (by rintro rfl; cases hq)
    rw [hs]
    cases m <;> first | (cases hq; done) | decide

theorem mirrors_step (h : Mirrors x) (i : Input) : Mirrors (x.step ctx i) := by
  cases i with
  | event e now jitter => exact mirrors_feed h
  | command c => exact mirrors_command h c
  | network c =>
    cases h with
    | before hstate hsession hvotes => exact .before hstate hsession hvotes
    | started m hstate hsession hvotes => exact .started m hstate hsession hvotes

end Step

/-- The list of this input has entered a handshake, and leaves a session
without attempts and without answers. -/
def EntersUnvoted (ctx : AppContext) (x : Fed) : Input → Prop
  | .event e now jitter =>
    (x.feed ctx e now jitter).state.balance ≠ x.state.balance →
    ((x.feed ctx e now jitter).state.balance = some .inHandshake ∨
      (x.feed ctx e now jitter).state.balance = some .outHandshake) →
    (x.feed ctx e now jitter).session.Unvoted
  | _ => True

theorem enters_unvoted {ctx : AppContext} {x : Fed} (h : Mirrors x) (i : Input) :
    EntersUnvoted ctx x i := by
  cases i with
  | command c => trivial
  | network c => trivial
  | event e now jitter =>
    intro hne hhandshake
    cases h with
    | before hstate hsession hvotes =>
      rcases step_new e with ⟨rfl, hstep⟩ | ⟨t, hstep⟩
      · rw [feed_valid (by rw [hstate]; exact hstep)] at hhandshake
        simp [Mode.state] at hhandshake
      · exact absurd (by rw [feed_invalid (by rw [hstate]; exact hstep)]) hne
    | started m hstate hsession hvotes =>
      rcases hn : m.next e with _ | ⟨m', l⟩
      · obtain ⟨t, ht⟩ := Mode.step_mode_none hn
        exact absurd (by rw [feed_invalid (by rw [hstate]; exact ht)]) hne
      · rw [feed_row hstate hn] at hne hhandshake ⊢
        have hmode : m' = .inHandshake ∨ m' = .outHandshake := by
          cases m' <;> simp [Mode.state] at hhandshake ⊢
        have hleft : m' ≠ m := by
          rintro rfl
          exact hne (by rw [hstate])
        obtain ⟨hq, hattempts, hanswers⟩ :=
          enter_handshake ctx x now jitter hn hleft hmode
        exact ⟨hattempts.trans (hvotes hq).1, hanswers.trans (hvotes hq).2⟩

/-- Whatever events are fed and whatever hubs vote between two lists, the
substates are nested, the session mirrors the machine until it is in Normal,
and a handshake is entered without attempts and without answers. -/
theorem the_session_mirrors_the_machine (ctx : AppContext) {t : List (Fed × Input)} {x : Fed}
    (r : (fedMachine ctx).Run t x) :
    (∀ y ∈ Machine.visited t x,
      y.state.Nested ∧ (y.state.globalState ≠ .normal → y.session.state = y.state.session)) ∧
    Machine.Meets (EntersUnvoted ctx) t := by
  have h0 : ∀ x, (fedMachine ctx).init x → Mirrors x := by
    rintro x ⟨manager, rfl⟩
    exact mirrors_start manager
  have hs : ∀ x i x', Mirrors x → True → (fedMachine ctx).step x i = some x' → Mirrors x' := by
    intro x i x' hx _ h
    simp only [fedMachine, Option.some.injEq] at h
    exact h ▸ mirrors_step hx i
  constructor
  · intro y hy
    have hm : Mirrors y :=
      r.invariant_visited Mirrors (fun _ _ => True) h0 hs (fun _ _ => trivial) y hy
    cases hm with
    | before hstate hsession hvotes =>
      rw [hstate]
      exact ⟨nested_new, fun _ => hsession⟩
    | started m hstate hsession hvotes =>
      rw [hstate, session_mode]
      refine ⟨nested_mode m, fun hn => hsession ?_⟩
      rintro rfl
      exact hn rfl
  · exact r.meets Mirrors (fun _ _ => True) (EntersUnvoted ctx) h0 hs
      (fun x i _ hx _ _ => enters_unvoted hx i) (fun _ _ => trivial)

/-- An event at the longest jitter. -/
def eventOf (e : Event) : Input := .event e default (Fin.last 10)

/-- One hub that answers both handshakes. -/
def fullCycle : List Input :=
  [eventOf .start, .command (.epoch 0), eventOf .balanceEpochOk, .command (answerOf "h" 1),
    eventOf .approveQuorum, eventOf .quorumPhase, eventOf .timeout, eventOf .quorumPhase,
    .command (answerOf "h" 1), eventOf .approveQuorum]

/-- The machine and the session after the whole protocol. -/
def balanced : Fed :=
  ((fedMachine sampleContext).final (Fed.start sampleCache) fullCycle).get (by decide +kernel)

theorem a_full_cycle_mirrors :
    ((∀ y ∈ Machine.visited
        ((fedMachine sampleContext).trace (Fed.start sampleCache) fullCycle) balanced,
      y.state.Nested ∧ (y.state.globalState ≠ .normal → y.session.state = y.state.session)) ∧
    Machine.Meets (EntersUnvoted sampleContext)
      ((fedMachine sampleContext).trace (Fed.start sampleCache) fullCycle)) ∧
    balanced.state.globalState = .normal :=
  ⟨the_session_mirrors_the_machine sampleContext
    (Machine.run_of_final (m := fedMachine sampleContext) fullCycle ⟨sampleCache, rfl⟩
      (by decide +kernel)), by decide +kernel⟩

end EdgeGateway.Fsm
