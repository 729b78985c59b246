-- What the quorums count. The votes are sender names that no task compares
-- with the registered hubs, and the total comes from the cache; the law
-- says when a decision of `fsm` is backed by hubs that are registered.
import EdgeGateway.Fsm.Pending

namespace EdgeGateway.Fsm

open EdgeGateway.Lib EdgeGateway.Message EdgeGateway.Networks EdgeGateway.Quorum

/-! ## Votes and decisions -/

/-- The event is the verdict of votes that ends a state. -/
def Event.decides : Event → Bool
  | .approveQuorum => true
  | .quorumPhase => true
  | .quorumSafeMode => true
  | _ => false

/-- The hub that answers a handshake with the epoch current at that moment. -/
def handshakeVote (h : Heard) : Option String :=
  match h.msg with
  | .handshakeFromHub msg =>
    if msg.balanceEpoch = h.epoch then some msg.metadata.senderUserId else none
  | _ => none

/-- The hub that reports its queue empty. -/
def emptyVote (h : Heard) : Option String :=
  match h.msg with
  | .emptyQueue msg => if msg.queueEmpty then some msg.metadata.senderUserId else none
  | _ => none

/-- The hub that reports its queue empty in safe mode. -/
def emptySafeVote (h : Heard) : Option String :=
  match h.msg with
  | .emptyQueueSafe msg => if msg.queueEmpty then some msg.metadata.senderUserId else none
  | _ => none

namespace Runtime

/-- The share of all registered hubs that a decision needs, in percent. -/
def required (r : Runtime) : Event → ℚ
  | .approveQuorum => threshold r.session.totalAttempts
  | .quorumPhase => 80
  | .quorumSafeMode => 70
  | _ => 0

/-- The senders of the votes heard since the votes were last cleared. -/
def voters (r : Runtime) : Event → List String
  | .approveQuorum => (r.past.heard.drop r.past.handshakeMark).filterMap handshakeVote
  | .quorumPhase => (r.past.heard.drop r.past.emptyMark).filterMap emptyVote
  | .quorumSafeMode => (r.past.heard.drop r.past.emptyMark).filterMap emptySafeVote
  | _ => []

/-- Some hub is registered, and those of the registered hubs that have voted
are the required share of all of them. -/
def Backed (r : Runtime) (e : Event) : Prop :=
  r.manager.registered.Nonempty ∧
    r.required e * r.manager.registered.card ≤
      100 * (r.manager.registered.filter (fun id => id ∈ r.voters e)).card

instance (r : Runtime) (e : Event) : Decidable (r.Backed e) :=
  inferInstanceAs (Decidable (_ ∧ _))

/-- If the step is `fsm` sending a decision, the decision is backed. -/
def backedSend (r : Runtime) (i : Label) : Bool :=
  match i, r.ops with
  | .work _ _, .toFsm e :: _ => !e.decides || decide (r.Backed e)
  | _, _ => true

def allRegistered (r : Runtime) (ids : List String) : Bool :=
  ids.all (fun id => decide (id ∈ r.manager.registered))

/-- The session is in a phase. -/
def inPhase : StateOfSession → Bool
  | .phaseAlert => true
  | .phaseData => true
  | .phaseMonitor => true
  | _ => false

/-- If the step evaluates votes, all of them are of registered hubs; if it
changes the cache, no decision is waiting to be sent. -/
def cleanVotes (r : Runtime) : Label → Bool
  | .command (.fromHub (.emptyQueue msg)) =>
    !(inPhase r.session.state && msg.queueEmpty) ||
      r.allRegistered (msg.metadata.senderUserId :: r.session.emptyHash.keys)
  | .command (.fromHub (.emptyQueueSafe msg)) =>
    !(r.session.state == .safeMode && msg.queueEmpty) ||
      r.allRegistered (msg.metadata.senderUserId :: r.session.emptyHash.keys)
  | .work _ _ =>
    match r.ops with
    | .act a :: _ => !a.evaluates || r.allRegistered r.session.handshakeHash.keys
    | _ => true
  | .network _ =>
    match r.ops with
    | .toFsm e :: _ => !e.decides
    | _ => true
  | _ => true

end Runtime

/-! ## The session keeps what was heard -/

section Session

theorem mem_insertEmpty {u : UpdateSession} {key k : String} {value : Bool} :
    k ∈ (u.insertEmpty key value).emptyHash.keys ↔ k = key ∨ k ∈ u.emptyHash.keys := by
  unfold UpdateSession.insertEmpty
  split
  · rename_i h
    constructor
    · exact Or.inr
    · rintro (rfl | hk)
      · exact AList.mem_keys.mp h
      · exact hk
  · rw [← AList.mem_keys, AList.mem_insert, AList.mem_keys]

theorem mem_insertHandshake {u : UpdateSession} {key k : String} {value : UInt32} :
    k ∈ (u.insertHandshake key value).handshakeHash.keys ↔
      k = key ∨ k ∈ u.handshakeHash.keys := by
  unfold UpdateSession.insertHandshake
  split
  · rename_i h
    constructor
    · exact Or.inr
    · rintro (rfl | hk)
      · exact AList.mem_keys.mp h
      · exact hk
  · rw [← AList.mem_keys, AList.mem_insert, AList.mem_keys]

/-- A vote of a handshake leaves the rest of the session. -/
theorem insertHandshake_rest (u : UpdateSession) (key : String) (value : UInt32) :
    (u.insertHandshake key value).emptyHash = u.emptyHash ∧
      (u.insertHandshake key value).state = u.state := by
  unfold UpdateSession.insertHandshake
  split <;> exact ⟨rfl, rfl⟩

/-- A vote of an empty queue leaves the rest of the session. -/
theorem insertEmpty_rest (u : UpdateSession) (key : String) (value : Bool) :
    (u.insertEmpty key value).handshakeHash = u.handshakeHash ∧
      (u.insertEmpty key value).state = u.state := by
  unfold UpdateSession.insertEmpty
  split <;> exact ⟨rfl, rfl⟩

theorem getTotalEmpty_eq (u : UpdateSession) : u.getTotalEmpty = u.emptyHash.keys.length := by
  simp [UpdateSession.getTotalEmpty, AList.keys, List.keys]

theorem getTotalHandshake_eq (u : UpdateSession) :
    u.getTotalHandshake = u.handshakeHash.keys.length := by
  simp [UpdateSession.getTotalHandshake, AList.keys, List.keys]

variable (ctx : AppContext) (manager : NetworkManager) (epoch : UInt32) (session : UpdateSession)
  (now : Int64) (jitter : UInt32)

/-- What an action makes of the session, and the event it may send: it clears a vote
set or leaves it, and an evaluation leaves the attempts. -/
structure Handled (ctx : AppContext) (manager : NetworkManager) (session : UpdateSession)
    (a : Action) (out : UpdateSession × List Op) : Prop where
  handshakes : out.1.handshakeHash = if a.resetsHandshake then ∅ else session.handshakeHash
  empties : out.1.emptyHash = if a.resetsEmpty then ∅ else session.emptyHash
  attempts : a.evaluates = true → out.1.totalAttempts = session.totalAttempts
  state : out.1.state = a.sets.getD session.state
  event : ∀ e, .toFsm e ∈ out.2 → a.evaluates = true ∧ e = quorumAlgorithm ctx manager session

theorem handled (a : Action) :
    Handled ctx manager session a (handleAction ctx manager epoch session now jitter a) where
  handshakes := by
    cases a with
    | onEntryBalance sub => cases sub <;> rfl
    | onEntryQuorum sub => cases sub <;> rfl
    | onEntryPhase sub => cases sub <;> rfl
    | _ => rfl
  empties := by
    cases a with
    | onEntryBalance sub => cases sub <;> rfl
    | onEntryQuorum sub => cases sub <;> rfl
    | onEntryPhase sub => cases sub <;> rfl
    | _ => rfl
  attempts := by
    intro heval
    cases a with
    | onEntryBalance sub => cases sub <;> cases heval
    | onEntryQuorum sub => cases sub <;> first | rfl | cases heval
    | onEntryPhase sub => cases heval
    | _ => rfl
  state := handleAction_state ctx manager epoch session now jitter a
  event := fun _ => handleAction_event ctx manager epoch session now jitter

/-- A quorum over empty queues counts a report of an empty queue, and
decides by the share with it. -/
theorem quorumPhase_eq (msg : EmptyQueue) :
    quorumPhase manager session (.emptyQueue msg) =
      if msg.queueEmpty = true then
        (session.insertEmpty msg.metadata.senderUserId true,
          if (share (session.insertEmpty msg.metadata.senderUserId true).getTotalEmpty
            manager.getTotalHubs).ge 80 = true then [.toFsm .quorumPhase, .toTimer .stopTimer]
          else [])
      else (session, []) := by
  rcases h : msg.queueEmpty with _ | _
  · simp [quorumPhase, h]
  · simp only [quorumPhase, h, if_true]
    split <;> rfl

theorem quorumSafeMode_eq (msg : EmptyQueueSafeMode) :
    quorumSafeMode manager session (.emptyQueueSafe msg) =
      if msg.queueEmpty = true then
        (session.insertEmpty msg.metadata.senderUserId true,
          if (share (session.insertEmpty msg.metadata.senderUserId true).getTotalEmpty
            manager.getTotalHubs).ge 70 = true then [.toFsm .quorumSafeMode, .toTimer .stopTimer]
          else [])
      else (session, []) := by
  rcases h : msg.queueEmpty with _ | _
  · simp [quorumSafeMode, h]
  · simp only [quorumSafeMode, h, if_true]
    split <;> rfl

/-- Reports of empty queues leave the votes of a handshake. -/
theorem quorumPhase_handshakes (msg : EmptyQueue) :
    (quorumPhase manager session (.emptyQueue msg)).1.handshakeHash = session.handshakeHash := by
  rw [quorumPhase_eq]
  split
  · exact (insertEmpty_rest session _ true).1
  · rfl

theorem quorumSafeMode_handshakes (msg : EmptyQueueSafeMode) :
    (quorumSafeMode manager session (.emptyQueueSafe msg)).1.handshakeHash =
      session.handshakeHash := by
  rw [quorumSafeMode_eq]
  split
  · exact (insertEmpty_rest session _ true).1
  · rfl

/-- The quorum over a handshake approves by its share only. -/
theorem share_of_approve (h : quorumAlgorithm ctx manager session = .approveQuorum) :
    (share session.getTotalHandshake manager.getTotalHubs).ge (threshold session.totalAttempts) =
      true ∧ 10 < threshold session.totalAttempts := by
  unfold quorumAlgorithm at h
  split at h
  · simp at h
  · split at h
    · assumption
    · simp at h

end Session

/-! ## The invariant -/

/-- Every vote of the session was heard since its set was last cleared, and
a decision that waits to be sent is backed. -/
structure Counted (r : Runtime) : Prop where
  first : EventFirst r.ops
  handshakeMark_le : r.past.handshakeMark ≤ r.past.heard.length
  emptyMark_le : r.past.emptyMark ≤ r.past.heard.length
  handshakes : ∀ k ∈ r.session.handshakeHash.keys, k ∈ r.voters .approveQuorum
  empties : Runtime.inPhase r.session.state = true →
    ∀ k ∈ r.session.emptyHash.keys, k ∈ r.voters .quorumPhase
  emptiesSafe : r.session.state = .safeMode →
    ∀ k ∈ r.session.emptyHash.keys, k ∈ r.voters .quorumSafeMode
  sending : ∀ e rest, r.ops = .toFsm e :: rest → e.decides = true → r.Backed e

section Steps

variable {ctx : AppContext} {cap : Option Nat} {m m' : Mode} {r r' : Runtime} {i : Label}

/-- A step that changes neither votes nor cache, and brings no new event to
send, keeps the invariant. -/
theorem counted_frame (h : Counted r) (hs : r'.session = r.session)
    (hm : r'.manager = r.manager) (hheard : r'.past.heard = r.past.heard)
    (hk : r'.past.handshakeMark = r.past.handshakeMark)
    (he : r'.past.emptyMark = r.past.emptyMark) (hfirst : EventFirst r'.ops)
    (hops : ∀ e rest, r'.ops = .toFsm e :: rest → ∃ rest', r.ops = .toFsm e :: rest') :
    Counted r' := by
  have hvoters : ∀ e, r'.voters e = r.voters e := by
    intro e
    cases e <;> simp [Runtime.voters, hheard, hk, he]
  have hrequired : ∀ e, r'.required e = r.required e := by
    intro e
    cases e <;> simp [Runtime.required, hs]
  refine ⟨hfirst, by rw [hk, hheard]; exact h.handshakeMark_le,
    by rw [he, hheard]; exact h.emptyMark_le, ?_, ?_, ?_, ?_⟩
  · rw [hs, hvoters]
    exact h.handshakes
  · rw [hs, hvoters]
    exact h.empties
  · rw [hs, hvoters]
    exact h.emptiesSafe
  · intro e rest ho hd
    obtain ⟨rest', ho'⟩ := hops e rest ho
    have := h.sending e rest' ho' hd
    rw [Runtime.Backed, hm, hvoters, hrequired]
    exact this

/-- Distinct registered votes that reach the share back the decision. -/
theorem backed_of_share {e : Event} {votes : List String} (hnodup : votes.Nodup)
    (hreg : r.allRegistered votes = true) (hvoters : ∀ k ∈ votes, k ∈ r.voters e)
    (hpos : 0 < r.required e)
    (h : (share votes.length r.manager.getTotalHubs).ge (r.required e) = true) : r.Backed e := by
  simp only [Runtime.allRegistered, List.all_eq_true, decide_eq_true_eq] at hreg
  exact reached_of_members r.manager.card_registered_le hnodup hreg hvoters hpos h

theorem mem_votes_snoc {f : Heard → Option String} {heard : List Heard} {mark : Nat} {k : String}
    (x : Heard) (h : k ∈ (heard.drop mark).filterMap f) :
    k ∈ ((heard ++ [x]).drop mark).filterMap f := by
  rw [List.drop_append, List.filterMap_append]
  exact List.mem_append_left _ h

theorem mem_votes_new {f : Heard → Option String} {heard : List Heard} {mark : Nat} {k : String}
    {x : Heard} (hle : mark ≤ heard.length) (hx : f x = some k) :
    k ∈ ((heard ++ [x]).drop mark).filterMap f := by
  rw [List.drop_append_of_le_length hle, List.filterMap_append]
  exact List.mem_append_right _ (by simp [hx])

/-- A command loses no vote that was heard. -/
theorem voters_afterCommand (c : FsmServiceCommand) (out : UInt32 × UpdateSession × List Op)
    {e : Event} {k : String} (h : k ∈ r.voters e) : k ∈ (r.afterCommand c out).voters e := by
  cases c with
  | fromHub msg =>
    cases e <;> first | exact mem_votes_snoc _ h | exact h
  | _ => cases e <;> exact h

/-- Hearing a message keeps the marks, and only lengthens what was heard. -/
theorem marks_afterCommand (c : FsmServiceCommand) (out : UInt32 × UpdateSession × List Op) :
    (r.afterCommand c out).past.handshakeMark = r.past.handshakeMark ∧
    (r.afterCommand c out).past.emptyMark = r.past.emptyMark ∧
    r.past.heard.length ≤ (r.afterCommand c out).past.heard.length := by
  cases c <;> simp [Runtime.afterCommand, Past.hear]

theorem marks_le_afterCommand (h : Counted r) (c : FsmServiceCommand)
    (out : UInt32 × UpdateSession × List Op) :
    (r.afterCommand c out).past.handshakeMark ≤ (r.afterCommand c out).past.heard.length ∧
    (r.afterCommand c out).past.emptyMark ≤ (r.afterCommand c out).past.heard.length := by
  obtain ⟨hk, he, hlen⟩ := marks_afterCommand (r := r) c out
  have := h.handshakeMark_le
  have := h.emptyMark_le
  omega

/-- The report of an empty queue counts its sender, and decides by the
share of the senders counted. -/
theorem counted_report (h : Counted r) {msg : HubMessage} {key : String} {e : Event} {q : ℚ}
    (hq : ∀ x : Runtime, x.required e = q) (hpos : 0 < q)
    (hclean : r.allRegistered (key :: r.session.emptyHash.keys) = true)
    (hold : ∀ k ∈ r.session.emptyHash.keys, k ∈ r.voters e)
    (hnew : ∀ out, key ∈ (r.afterCommand (.fromHub msg) out).voters e)
    (hphase : Runtime.inPhase r.session.state = true → e = .quorumPhase)
    (hsafe : r.session.state = .safeMode → e = .quorumSafeMode) :
    Counted (r.afterCommand (.fromHub msg) (r.currentEpoch, r.session.insertEmpty key true,
      if (share (r.session.insertEmpty key true).getTotalEmpty r.manager.getTotalHubs).ge q = true
      then [.toFsm e, .toTimer .stopTimer] else [])) := by
  set sends : List Op :=
    if (share (r.session.insertEmpty key true).getTotalEmpty r.manager.getTotalHubs).ge q = true
    then [.toFsm e, .toTimer .stopTimer] else [] with hsends
  set out := (r.currentEpoch, r.session.insertEmpty key true, sends) with hout
  obtain ⟨hhand, hstate⟩ := insertEmpty_rest r.session key true
  obtain ⟨hk, he⟩ := marks_le_afterCommand h (.fromHub msg) out
  have hvotes : ∀ k ∈ (r.session.insertEmpty key true).emptyHash.keys,
      k ∈ (r.afterCommand (.fromHub msg) out).voters e := by
    intro k hmem
    rcases mem_insertEmpty.mp hmem with rfl | hmem
    · exact hnew out
    · exact voters_afterCommand _ out (hold k hmem)
  refine ⟨?_, hk, he, ?_, ?_, ?_, ?_⟩
  · show EventFirst sends
    rw [hsends]
    split <;> simp [EventFirst, Op.event]
  · intro k hmem
    exact voters_afterCommand _ out (h.handshakes k (hhand ▸ hmem))
  · intro hp k hmem
    exact hphase (hstate ▸ hp) ▸ hvotes k hmem
  · intro hp k hmem
    exact hsafe (hstate ▸ hp) ▸ hvotes k hmem
  · intro e' rest hops _
    have hops' : sends = .toFsm e' :: rest := hops
    by_cases hshare : (share (r.session.insertEmpty key true).getTotalEmpty
        r.manager.getTotalHubs).ge q = true
    · rw [hsends, if_pos hshare, List.cons.injEq, Op.toFsm.injEq] at hops'
      obtain ⟨rfl, -⟩ := hops'
      refine backed_of_share (r.session.insertEmpty key true).emptyHash.keys_nodup ?_ hvotes
        (by rw [hq]; exact hpos) ?_
      · simp only [Runtime.allRegistered, List.all_eq_true] at hclean ⊢
        intro k hmem
        refine hclean k ?_
        rw [List.mem_cons]
        exact mem_insertEmpty.mp hmem
      · rw [hq, ← getTotalEmpty_eq]
        exact hshare
    · simp [hsends, hshare] at hops'

/-- A reaction that leaves the session and sends no decision. -/
theorem counted_plain (h : Counted r) (c : FsmServiceCommand)
    {out : UInt32 × UpdateSession × List Op} (hfirst : EventFirst out.2.2)
    (hs : out.2.1 = r.session) (hno : ∀ e ∈ out.2.2.filterMap Op.event, e.decides = false) :
    Counted (r.afterCommand c out) := by
  obtain ⟨hk, he⟩ := marks_le_afterCommand h c out
  have hkept : ∀ {e k}, k ∈ r.voters e → k ∈ (r.afterCommand c out).voters e :=
    voters_afterCommand c out
  have hs' : (r.afterCommand c out).session = r.session := hs
  refine ⟨hfirst, hk, he, ?_, ?_, ?_, ?_⟩
  · rw [hs']
    exact fun k hmem => hkept (h.handshakes k hmem)
  · rw [hs']
    exact fun hp k hmem => hkept (h.empties hp k hmem)
  · rw [hs']
    exact fun hp k hmem => hkept (h.emptiesSafe hp k hmem)
  · intro e rest hops hd
    have hmem : e ∈ out.2.2.filterMap Op.event :=
      List.mem_filterMap.mpr ⟨_, hops ▸ List.mem_cons_self, rfl⟩
    rw [hno e hmem] at hd
    simp at hd

/-- An answer of the epoch to a handshake counts its sender. -/
theorem counted_handshake (h : Counted r) {msg : HandshakeFromHub}
    (hepoch : msg.balanceEpoch = r.currentEpoch) :
    Counted (r.afterCommand (.fromHub (.handshakeFromHub msg)) (r.currentEpoch,
      r.session.insertHandshake msg.metadata.senderUserId msg.balanceEpoch,
      [.toFsm .newMessageHandshake])) := by
  set out := (r.currentEpoch,
    r.session.insertHandshake msg.metadata.senderUserId msg.balanceEpoch,
    [Op.toFsm .newMessageHandshake])
  obtain ⟨hk, he⟩ := marks_le_afterCommand h (.fromHub (.handshakeFromHub msg)) out
  have hkept : ∀ {e k}, k ∈ r.voters e →
      k ∈ (r.afterCommand (.fromHub (.handshakeFromHub msg)) out).voters e :=
    voters_afterCommand _ out
  obtain ⟨hempty, hstate⟩ := insertHandshake_rest r.session msg.metadata.senderUserId
    msg.balanceEpoch
  have hvote : handshakeVote ⟨r.past.visit, r.currentEpoch, .handshakeFromHub msg⟩ =
      some msg.metadata.senderUserId := by
    simp [handshakeVote, hepoch]
  refine ⟨?_, hk, he, ?_, ?_, ?_, ?_⟩
  · simp [Runtime.afterCommand, out, EventFirst]
  · intro k hmem
    rcases mem_insertHandshake.mp hmem with rfl | hmem
    · exact mem_votes_new h.handshakeMark_le hvote
    · exact hkept (h.handshakes k hmem)
  · intro hp k hmem
    exact hkept (h.empties (hstate ▸ hp) k (hempty ▸ hmem))
  · intro hp k hmem
    exact hkept (h.emptiesSafe (hstate ▸ hp) k (hempty ▸ hmem))
  · intro e rest hops hd
    simp only [Runtime.afterCommand, out, List.cons.injEq, Op.toFsm.injEq] at hops
    rw [← hops.1] at hd
    simp [Event.decides] at hd

theorem counted_command (h : Counted r) {c : FsmServiceCommand}
    (hclean : r.cleanVotes (.command c) = true) :
    Counted (r.afterCommand c (onCommand r.manager r.currentEpoch r.session c)) := by
  have ht := taken r.manager r.currentEpoch r.session c
  generalize onCommand r.manager r.currentEpoch r.session c = out at ht ⊢
  cases ht with
  | silent => exact counted_plain h c (by simp [EventFirst]) rfl (by simp)
  | errorEpoch =>
    exact counted_plain h _ (by simp [EventFirst]) rfl (by simp [Op.event, Event.decides])
  | epoch =>
    exact counted_plain h _ (by simp [EventFirst, Op.event]) rfl
      (by simp [Op.event, Event.decides])
  | handshake hs hepoch => exact counted_handshake h hepoch
  | @empty msg hs =>
    have hphase : Runtime.inPhase r.session.state = true := by
      rcases hs with hs | hs | hs <;> rw [hs] <;> rfl
    rw [quorumPhase_eq]
    rcases hq : msg.queueEmpty with _ | _
    · simp only [Bool.false_eq_true, if_false]
      exact counted_plain h _ (by simp [EventFirst]) rfl (by simp)
    · simp only [Runtime.cleanVotes, hphase, hq, Bool.and_self, Bool.not_true, Bool.false_or]
        at hclean
      simp only [if_true]
      refine counted_report h (fun _ => rfl) (by norm_num) hclean (h.empties hphase) ?_
        (fun _ => rfl) ?_
      · intro out
        exact mem_votes_new h.emptyMark_le (by simp [emptyVote, hq])
      · intro hsafe
        rw [hsafe] at hphase
        simp [Runtime.inPhase] at hphase
  | @emptySafe msg hs =>
    rw [quorumSafeMode_eq]
    rcases hq : msg.queueEmpty with _ | _
    · simp only [Bool.false_eq_true, if_false]
      exact counted_plain h _ (by simp [EventFirst]) rfl (by simp)
    · simp only [Runtime.cleanVotes, hs, hq, BEq.rfl, Bool.and_self, Bool.not_true,
        Bool.false_or] at hclean
      simp only [if_true]
      refine counted_report h (fun _ => rfl) (by norm_num) hclean (h.emptiesSafe hs) ?_ ?_
        (fun _ => rfl)
      · intro out
        exact mem_votes_new h.emptyMark_le (by simp [emptySafeVote, hq])
      · intro hphase
        rw [hs] at hphase
        simp [Runtime.inPhase] at hphase

/-- A setting of the session to a state that counts empty queues clears the
reports. -/
theorem resets_of_sets {a : Action} {s : StateOfSession} (h : a.sets = some s)
    (hs : Runtime.inPhase s = true ∨ s = .safeMode) : a.resetsEmpty = true := by
  cases a with
  | onEntryBalance sub =>
    cases sub <;> simp [Action.sets] at h <;> subst h <;> simp [Runtime.inPhase] at hs
  | onEntryQuorum sub =>
    cases sub <;> simp [Action.sets] at h <;> subst h <;> simp [Runtime.inPhase] at hs
  | onEntryPhase sub => rfl
  | onEntrySafeMode => rfl
  | _ => simp [Action.sets] at h

/-- An action that clears no report leaves a state of the session that counts them. -/
theorem state_of_not_resets {a : Action} {s : StateOfSession} {out : UpdateSession}
    (hstate : out.state = a.sets.getD r.session.state) (hs : out.state = s)
    (hcounts : Runtime.inPhase s = true ∨ s = .safeMode) (hno : a.resetsEmpty = false) :
    r.session.state = s := by
  rcases hsets : a.sets with _ | s'
  · rw [← hs, hstate, hsets, Option.getD_none]
  · rw [hsets, Option.getD_some] at hstate
    have hresets := resets_of_sets hsets (by rw [← hstate, hs]; exact hcounts)
    simp [hresets] at hno

/-- An action that decides by the answers to a handshake keeps them. -/
theorem keeps_of_evaluates {a : Action} (h : a.evaluates = true) : a.resetsHandshake = false := by
  cases a with
  | onEntryQuorum sub =>
    cases sub <;> first | rfl | simp [Action.evaluates, Action.checks] at h
  | calculateQuorum => rfl
  | _ => simp [Action.evaluates, Action.checks] at h

/-- An approval that an action sends is backed by the answers that were counted. -/
theorem backed_of_approve {a : Action} {rest : List Op} {out : UpdateSession × List Op}
    (h : Counted r) (heval : a.evaluates = true)
    (happrove : quorumAlgorithm ctx r.manager r.session = .approveQuorum)
    (hattempts : out.1.totalAttempts = r.session.totalAttempts)
    (hclean : r.allRegistered r.session.handshakeHash.keys = true) :
    (r.afterAct a rest out).Backed .approveQuorum := by
  have hno := keeps_of_evaluates heval
  obtain ⟨hshare, hten⟩ := share_of_approve ctx r.manager r.session happrove
  have hrequired : (r.afterAct a rest out).required .approveQuorum =
      threshold r.session.totalAttempts := by
    rw [← hattempts]
    rfl
  rw [getTotalHandshake_eq, ← hrequired] at hshare
  refine backed_of_share r.session.handshakeHash.keys_nodup hclean (fun k hk => ?_) ?_ hshare
  · simpa [Runtime.voters, Runtime.afterAct, Past.execute, hno] using h.handshakes k hk
  · rw [hrequired]
    linarith

theorem counted_act (h : Counted r) {a : Action} {rest : List Op} {now : Int64} {jitter : Fin 11}
    (ho : r.ops = .act a :: rest) (hclean : r.cleanVotes (.work now jitter) = true) :
    Counted (r.afterAct a rest
      (handleAction ctx r.manager r.currentEpoch r.session now jitter.val.toUInt32 a)) := by
  obtain ⟨hfirst, hnext⟩ := act_first ctx h.first ho now jitter.val.toUInt32
  have hdone := handled ctx r.manager r.currentEpoch r.session now jitter.val.toUInt32 a
  generalize handleAction ctx r.manager r.currentEpoch r.session now jitter.val.toUInt32 a = out
    at hfirst hnext hdone ⊢
  have hreports : ∀ k ∈ out.1.emptyHash.keys, a.resetsEmpty = false ∧
      k ∈ r.session.emptyHash.keys := by
    intro k hmem
    rw [hdone.empties] at hmem
    split at hmem
    · simp at hmem
    · exact ⟨by simpa using ‹¬ a.resetsEmpty = true›, hmem⟩
  refine ⟨hfirst, ?_, ?_, ?_, ?_, ?_, ?_⟩
  · have := h.handshakeMark_le
    show (if a.resetsHandshake then r.past.heard.length else r.past.handshakeMark) ≤
      r.past.heard.length
    split <;> omega
  · have := h.emptyMark_le
    show (if a.resetsEmpty then r.past.heard.length else r.past.emptyMark) ≤ r.past.heard.length
    split <;> omega
  · intro k hmem
    rw [show (r.afterAct a rest out).session = out.1 from rfl, hdone.handshakes] at hmem
    by_cases hreset : a.resetsHandshake = true
    · rw [if_pos hreset] at hmem
      simp at hmem
    · rw [if_neg hreset] at hmem
      simpa [Runtime.voters, Runtime.afterAct, Past.execute, hreset] using h.handshakes k hmem
  · intro hp k hmem
    obtain ⟨hno, hold⟩ := hreports k hmem
    have := h.empties (by rw [state_of_not_resets hdone.state rfl (.inl hp) hno]; exact hp) k hold
    simpa [Runtime.voters, Runtime.afterAct, Past.execute, hno] using this
  · intro hs k hmem
    obtain ⟨hno, hold⟩ := hreports k hmem
    have := h.emptiesSafe (state_of_not_resets hdone.state hs (.inr rfl) hno) k hold
    simpa [Runtime.voters, Runtime.afterAct, Past.execute, hno] using this
  · intro e rest' hops hd
    have hops' : out.2 ++ rest = .toFsm e :: rest' := hops
    have heval : a.evaluates = true := by rw [← hnext, hops']; rfl
    have hmem : .toFsm e ∈ out.2 := mem_sends_of_next (ho ▸ h.first) hops'
    have happrove : quorumAlgorithm ctx r.manager r.session = .approveQuorum := by
      rw [(hdone.event e hmem).2] at hd
      rcases quorumAlgorithm_cases ctx r.manager r.session with hq | hq | hq
      · exact hq
      · rw [hq] at hd
        simp [Event.decides] at hd
      · rw [hq] at hd
        simp [Event.decides] at hd
    obtain rfl : e = .approveQuorum := (hdone.event e hmem).2.trans happrove
    simp only [Runtime.cleanVotes, ho, heval, Bool.not_true, Bool.false_or] at hclean
    exact backed_of_approve h heval happrove (hdone.attempts heval) hclean

/-- A step whose votes are clean keeps the invariant. -/
theorem counted_step (h : Counted r) (hclean : r.cleanVotes i = true)
    (hmove : Move ctx cap m r i m' r') : Counted r' := by
  have hfirst := eventFirst_step h.first hmove
  -- the operations after the first send no event
  have hrest : ∀ {o : Op} {rest : List Op}, r.ops = o :: rest → ∀ e rest',
      rest = .toFsm e :: rest' → ∃ rest'', r.ops = .toFsm e :: rest'' :=
    fun ho e rest' hr => absurd hr (tail_ne_toFsm (ho ▸ h.first) e rest')
  cases hmove with
  | command _ => exact counted_command h hclean
  | act ho => exact counted_act h ho hclean
  | take ho ha =>
    refine counted_frame h rfl rfl rfl rfl rfl hfirst ?_
    rintro e rest hops
    have hmem : Op.toFsm e ∈ List.map Op.act _ := hops ▸ List.mem_cons_self
    simp at hmem
  | sendFsm ho hr => exact counted_frame h rfl rfl rfl rfl rfl hfirst (hrest ho)
  | sendTimer ho hr => exact counted_frame h rfl rfl rfl rfl rfl hfirst (hrest ho)
  | output ho hout => exact counted_frame h rfl rfl rfl rfl rfl hfirst (hrest ho)
  | advance hb he hn =>
    refine counted_frame h ?_ ?_ ?_ ?_ ?_ hfirst ?_
    · rw [Runtime.advanced_session]
    · rw [Runtime.advanced_manager]
    · rw [Runtime.advanced_past]
    · rw [Runtime.advanced_past]
    · rw [Runtime.advanced_past]
    · rw [Runtime.advanced_ops]
      exact fun e rest hops => ⟨rest, hops⟩
  | network =>
    refine ⟨h.first, h.handshakeMark_le, h.emptyMark_le, h.handshakes, h.empties, h.emptiesSafe, ?_⟩
    intro e rest hops hd
    have hops' : r.ops = .toFsm e :: rest := hops
    simp [Runtime.cleanVotes, hops', hd] at hclean
  | _ => exact counted_frame h rfl rfl rfl rfl rfl hfirst (fun e rest hops => ⟨rest, hops⟩)

end Steps

theorem counted_start (cap : Option Nat) (manager : NetworkManager) :
    Counted (Runtime.start cap manager) where
  first := by simp [EventFirst]
  handshakeMark_le := by simp
  emptyMark_le := by simp
  handshakes := by simp [UpdateSession.new]
  empties := by simp [UpdateSession.new]
  emptiesSafe := by simp [UpdateSession.new]
  sending := by simp

/-! ## The law -/

/-- In a run whose quorums count registered hubs only, and whose cache does
not change while a decision waits to be sent, each decision is backed. -/
theorem decisions_are_backed_by_registered_hubs (ctx : AppContext) (cap : Option Nat)
    (t : List (Runtime × Label)) (r : Runtime) (run : (machine ctx cap).Run t r)
    (hclean : Machine.Meets (fun r i => r.cleanVotes i = true) t) :
    Machine.Meets (fun r i => r.backedSend i = true) t := by
  refine run.meets (fun r => (∃ m : Mode, r.state = m.state) ∧ Counted r) _ _ ?_ ?_ ?_ hclean
  · rintro r ⟨manager, rfl⟩
    exact ⟨⟨.init, state_start cap manager⟩, counted_start cap manager⟩
  · rintro r i r' ⟨⟨m, hm⟩, hcounted⟩ hc h
    obtain ⟨m', hm', hmove⟩ := move_of_step hm h
    exact ⟨⟨m', hm'⟩, counted_step hcounted hc hmove⟩
  · rintro r i r' ⟨-, hcounted⟩ - -
    unfold Runtime.backedSend
    split
    · rename_i e rest ho
      by_cases hd : e.decides = true
      · simp [hcounted.sending e rest ho hd]
      · simp [hd]
    · rfl

/-- One answer to the handshake, evaluated and approved. -/
def approvalBy (hub : String) : List Label :=
  toInHandshake ++ [.command (answerOf hub 1)] ++ works 1 ++ [.runFsm, .takeActions] ++ works 2

/-- The only registered hub approves. -/
theorem the_registered_hub_backs_the_approval :
    let m := machine sampleContext (some 50)
    let t := m.trace (Runtime.start (some 50) sampleCache) (approvalBy "h")
    Machine.Meets (fun r i => r.cleanVotes i = true) t ∧
      Machine.Meets (fun r i => r.backedSend i = true) t := by
  have hclean : Machine.Meets (fun r i => r.cleanVotes i = true)
      ((machine sampleContext (some 50)).trace (Runtime.start (some 50) sampleCache)
        (approvalBy "h")) := by decide +kernel
  exact ⟨hclean, decisions_are_backed_by_registered_hubs sampleContext (some 50) _ _
    (Machine.run_of_final (approvalBy "h") (init_start _ _ _) (by decide +kernel)) hclean⟩

/-- A cache with one network and no hub in it. -/
def cacheWithoutHubs : NetworkManager :=
  (NetworkManager.newEmpty "edge").addNetwork (Network.new "n" true)

/-- Where no hub is registered at all, the answer of a stranger approves. -/
theorem a_stranger_approves_without_hubs :
    ¬ ∀ (ctx : AppContext) (cap : Option Nat) (t : List (Runtime × Label)) (r : Runtime),
      (machine ctx cap).Run t r → Machine.Meets (fun r i => r.backedSend i = true) t := by
  intro h
  have hrun := Machine.run_of_final (approvalBy "x")
    (init_start sampleContext (some 50) cacheWithoutHubs) (by decide +kernel)
  have hmeets := h _ _ _ _ hrun
  revert hmeets
  decide +kernel

end EdgeGateway.Fsm
