-- Which repeat rounds can be won. A round may start once more than the settings allow attempts,
-- and from the fifteenth attempt on no share of the votes is enough: the answers of all hubs
-- are then lost.
import EdgeGateway.Fsm.Phases

namespace EdgeGateway.Fsm

open EdgeGateway.Lib EdgeGateway.Message EdgeGateway.Networks EdgeGateway.Quorum

/-! ## The property and its condition -/

namespace Runtime

/-- The machine is in a repeat round whose entry has been executed. -/
def InRound (r : Runtime) : Prop :=
  (r.state = Mode.repeatIn.state ∨ r.state = Mode.repeatOut.state) ∧
    r.past.entered = r.past.visit

/-- Some hub is counted, and all that are counted have answered since the entry of the round. -/
def AllAnswered (r : Runtime) : Prop :=
  1 ≤ r.manager.getTotalHubs ∧ ∀ id ∈ r.manager.counted, id ∈ r.voters .approveQuorum

/-- The quorum that `fsm` runs for an answer sends `ApproveQuorum`. -/
def Approves (ctx : AppContext) (r : Runtime) (now : Int64) (jitter : Fin 11) : Prop :=
  (handleAction ctx r.manager r.currentEpoch r.session now jitter.val.toUInt32
    .calculateQuorum).2 = [.toFsm .approveQuorum]

/-- The attempts are within the settings and within the fourteen that the threshold allows. -/
def InAttempts (ctx : AppContext) (r : Runtime) : Prop :=
  r.session.totalAttempts ≤ ctx.quorum.maxAttempts.toNat ∧ r.session.totalAttempts ≤ 14

/-- The different senders are the share that the round needs. -/
def EnoughSenders (r : Runtime) : Prop :=
  threshold r.session.totalAttempts * r.manager.getTotalHubs ≤
    100 * (r.voters .approveQuorum).toFinset.card

instance (r : Runtime) : Decidable r.InRound := inferInstanceAs (Decidable (_ ∧ _))

instance (r : Runtime) : Decidable r.AllAnswered := inferInstanceAs (Decidable (_ ∧ _))

instance (ctx : AppContext) (r : Runtime) (now : Int64) (jitter : Fin 11) :
    Decidable (r.Approves ctx now jitter) := inferInstanceAs (Decidable (_ = _))

instance (ctx : AppContext) (r : Runtime) : Decidable (r.InAttempts ctx) :=
  inferInstanceAs (Decidable (_ ∧ _))

instance (r : Runtime) : Decidable r.EnoughSenders := inferInstanceAs (Decidable (_ ≤ _))

/-- If the step runs the quorum in a round that all hubs have answered, it approves. -/
def Won (ctx : AppContext) (r : Runtime) (i : Label) : Prop :=
  ∀ now jitter rest, i = .work now jitter → r.ops = .act .calculateQuorum :: rest →
    r.InRound → r.AllAnswered → r.Approves ctx now jitter

/-- If the step runs the quorum in a round that all hubs have answered, it approves exactly
within the attempts, where enough senders have answered. -/
def WonInAttempts (ctx : AppContext) (r : Runtime) (i : Label) : Prop :=
  ∀ now jitter rest, i = .work now jitter → r.ops = .act .calculateQuorum :: rest →
    r.InRound → r.AllAnswered →
      (r.Approves ctx now jitter ↔ r.InAttempts ctx ∧ r.EnoughSenders)

end Runtime

/-! ## The threshold -/

/-- The threshold is above its cut-off in fourteen attempts. -/
theorem threshold_gt_ten (n : Nat) : 10 < threshold n ↔ n ≤ 14 := by
  unfold threshold
  constructor
  · intro h
    have hlt : ((n - 1 : Nat) : ℚ) < 14 := by linarith
    have : n - 1 < 14 := by exact_mod_cast hlt
    omega
  · intro h
    have hle : ((n - 1 : Nat) : ℚ) ≤ 13 := by exact_mod_cast (by omega : n - 1 ≤ 13)
    linarith

theorem threshold_le (n : Nat) : threshold n ≤ 80 := by
  unfold threshold
  have : (0 : ℚ) ≤ ((n - 1 : Nat) : ℚ) := Nat.cast_nonneg _
  linarith

/-- When the quorum approves. -/
theorem quorumAlgorithm_approves {ctx : AppContext} {manager : NetworkManager}
    {session : UpdateSession} (htotal : 1 ≤ manager.getTotalHubs) :
    quorumAlgorithm ctx manager session = .approveQuorum ↔
      (session.totalAttempts ≤ ctx.quorum.maxAttempts.toNat ∧ session.totalAttempts ≤ 14) ∧
        threshold session.totalAttempts * manager.getTotalHubs ≤
          100 * session.getTotalHandshake := by
  have hshare := share_ge_iff session.getTotalHandshake manager.getTotalHubs
    (threshold session.totalAttempts)
  have hten := threshold_gt_ten session.totalAttempts
  have hne : manager.getTotalHubs ≠ 0 := by omega
  simp only [hne, false_and, false_or, ne_eq, not_false_eq_true, true_and] at hshare
  unfold quorumAlgorithm
  by_cases hmax : session.totalAttempts > ctx.quorum.maxAttempts.toNat
  · rw [if_pos hmax]
    simp only [reduceCtorEq, false_iff]
    omega
  · rw [if_neg hmax, ← hshare, ← hten]
    have hle : session.totalAttempts ≤ ctx.quorum.maxAttempts.toNat := by omega
    simp only [ite_eq_left_iff, reduceCtorEq, imp_false, not_not, gt_iff_lt, hle, true_and]
    exact and_comm

/-! ## The votes of a round -/

/-- In a repeat round the session counts those that have answered since its entry, each once. -/
structure Tallied (r : Runtime) : Prop where
  mark_le : r.past.handshakeMark ≤ r.past.heard.length
  votes : r.session.state = .repeatHandshake →
    ∀ k, k ∈ r.session.handshakeHash.keys ↔ k ∈ r.voters .approveQuorum

section Steps

variable {ctx : AppContext} {cap : Option Nat} {m m' : Mode} {r r' : Runtime} {i : Label}

theorem tallied_frame (h : Tallied r) (hs : r'.session = r.session)
    (hheard : r'.past.heard = r.past.heard)
    (hmark : r'.past.handshakeMark = r.past.handshakeMark) : Tallied r' := by
  constructor
  · rw [hmark, hheard]
    exact h.mark_le
  · unfold Runtime.voters
    rw [hs, hmark, hheard]
    exact h.votes

/-- What a message adds to the votes. -/
theorem voters_hear (h : Tallied r) (msg : HubMessage) (out : UInt32 × UpdateSession × List Op) :
    (r.afterCommand (.fromHub msg) out).voters .approveQuorum =
      r.voters .approveQuorum ++
        (handshakeVote ⟨r.past.visit, r.currentEpoch, msg⟩).toList := by
  show ((r.past.heard ++ [_]).drop r.past.handshakeMark).filterMap handshakeVote = _
  rw [List.drop_append_of_le_length h.mark_le, List.filterMap_append]
  cases hvote : handshakeVote ⟨r.past.visit, r.currentEpoch, msg⟩ <;>
    simp [hvote, Runtime.voters]

/-- An answer adds its sender to the session exactly when it adds it to the votes. -/
theorem tallied_answer (h : Tallied r) (msg : HandshakeFromHub)
    (hs : r.session.state = .repeatHandshake) (k : String) :
    k ∈ (onCommand r.manager r.currentEpoch r.session
        (.fromHub (.handshakeFromHub msg))).2.1.handshakeHash.keys ↔
      k ∈ r.voters .approveQuorum ++
        (handshakeVote ⟨r.past.visit, r.currentEpoch, .handshakeFromHub msg⟩).toList := by
  simp only [onCommand, hs, handshakeVote]
  by_cases hepoch : msg.balanceEpoch = r.currentEpoch
  · rw [if_pos hepoch, if_pos hepoch, mem_insertHandshake, h.votes hs]
    simp [or_comm]
  · rw [if_neg hepoch, if_neg hepoch, h.votes hs]
    simp

theorem tallied_command (h : Tallied r) (c : FsmServiceCommand) :
    Tallied (r.afterCommand c (onCommand r.manager r.currentEpoch r.session c)) := by
  have hstate := (onCommand_sends r.manager r.currentEpoch r.session c).1
  constructor
  · obtain ⟨hmark, -, hlen⟩ :=
      marks_afterCommand (r := r) c (onCommand r.manager r.currentEpoch r.session c)
    rw [hmark]
    exact h.mark_le.trans hlen
  · intro hrepeat
    have hs : r.session.state = .repeatHandshake := hstate.symm.trans hrepeat
    cases c with
    | fromHub msg =>
      rw [voters_hear h]
      cases msg with
      | handshakeFromHub msg => exact tallied_answer h msg hs
      | _ => simpa [handshakeVote, Runtime.afterCommand, onCommand, hs] using h.votes hs
    | _ => exact h.votes hs

/-- Only the entry of a repeat round brings the session there, and it clears the votes. -/
theorem resets_of_repeat {a : Action} (h : a.sets = some .repeatHandshake) :
    a.resetsHandshake = true := by
  cases a with
  | onEntryBalance sub => cases sub <;> simp [Action.sets] at h
  | onEntryQuorum sub => cases sub <;> first | rfl | simp [Action.sets] at h
  | onEntryPhase sub => rfl
  | _ => simp [Action.sets] at h

theorem tallied_act (h : Tallied r) {a : Action} {rest : List Op} {now : Int64} {jitter : Fin 11} :
    Tallied (r.afterAct a rest
      (handleAction ctx r.manager r.currentEpoch r.session now jitter.val.toUInt32 a)) := by
  have hdone := handled ctx r.manager r.currentEpoch r.session now jitter.val.toUInt32 a
  generalize handleAction ctx r.manager r.currentEpoch r.session now jitter.val.toUInt32 a = out
    at hdone ⊢
  constructor
  · have := h.mark_le
    show (if a.resetsHandshake then r.past.heard.length else r.past.handshakeMark) ≤
      r.past.heard.length
    split <;> omega
  · intro hrepeat k
    have hrepeat' : a.sets.getD r.session.state = .repeatHandshake := hdone.state ▸ hrepeat
    show k ∈ out.1.handshakeHash.keys ↔ _
    rw [hdone.handshakes]
    by_cases hreset : a.resetsHandshake = true
    · simp [hreset, Runtime.voters, Runtime.afterAct, Past.execute]
    · have hsets : a.sets = none := by
        rcases hsets : a.sets with _ | s
        · rfl
        · rw [hsets, Option.getD_some] at hrepeat'
          exact absurd (resets_of_repeat (hrepeat' ▸ hsets)) hreset
      rw [hsets, Option.getD_none] at hrepeat'
      simpa [hreset, Runtime.voters, Runtime.afterAct, Past.execute] using h.votes hrepeat' k

theorem tallied_step (h : Tallied r) (hmove : Move ctx cap m r i m' r') : Tallied r' := by
  cases hmove with
  | command _ => exact tallied_command h _
  | act _ => exact tallied_act h
  | advance hb he hn => exact tallied_frame h (by simp) (by simp) (by simp)
  | _ => exact tallied_frame h rfl rfl rfl

end Steps

theorem tallied_start (cap : Option Nat) (manager : NetworkManager) :
    Tallied (Runtime.start cap manager) where
  mark_le := by simp
  votes := by simp [UpdateSession.new]

/-! ## The law -/

/-- The session counts as many answers as there are different senders. -/
theorem getTotalHandshake_voters {r : Runtime} (h : Tallied r)
    (hs : r.session.state = .repeatHandshake) :
    r.session.getTotalHandshake = (r.voters .approveQuorum).toFinset.card := by
  rw [getTotalHandshake_eq, ← List.toFinset_card_of_nodup r.session.handshakeHash.keys_nodup]
  congr 1
  ext k
  rw [List.mem_toFinset, List.mem_toFinset, h.votes hs]

/-- Where no two counted hubs share their id, the answers of all are enough. -/
theorem enoughSenders {r : Runtime} (h : r.AllAnswered)
    (hcard : r.manager.counted.card = r.manager.getTotalHubs) : r.EnoughSenders := by
  have hsub : r.manager.counted ⊆ (r.voters .approveQuorum).toFinset := by
    intro id hid
    exact List.mem_toFinset.mpr (h.2 id hid)
  have hle : (r.manager.getTotalHubs : ℚ) ≤ (r.voters .approveQuorum).toFinset.card := by
    exact_mod_cast hcard ▸ Finset.card_le_card hsub
  have hpos : (0 : ℚ) ≤ r.manager.getTotalHubs := Nat.cast_nonneg _
  calc threshold r.session.totalAttempts * r.manager.getTotalHubs
      ≤ 80 * r.manager.getTotalHubs := mul_le_mul_of_nonneg_right (threshold_le _) hpos
    _ ≤ 100 * (r.voters .approveQuorum).toFinset.card := by linarith

theorem approves_iff {ctx : AppContext} {r : Runtime} {m : Mode} (hm : r.state = m.state)
    (hdated : Dated m r) (htallied : Tallied r) (hround : r.InRound) (h : r.AllAnswered)
    (now : Int64) (jitter : Fin 11) :
    r.Approves ctx now jitter ↔ r.InAttempts ctx ∧ r.EnoughSenders := by
  have hs : r.session.state = .repeatHandshake := by
    rw [hdated.entered hround.2]
    rcases hround.1 with hrepeat | hrepeat <;>
      rw [hm, Mode.state_inj] at hrepeat <;> rw [hrepeat] <;> rfl
  unfold Runtime.Approves Runtime.InAttempts Runtime.EnoughSenders
  rw [← getTotalHandshake_voters htallied hs, ← quorumAlgorithm_approves h.1]
  simp [handleAction]

/-! ## The round after the last attempt -/

/-- The verdict of a check is sent, and the round that follows is entered. -/
def toRound : List Label :=
  works 1 ++ [.runFsm, .takeActions] ++ works 3 ++ [.timerReceive]

/-- The handshake ends without an answer, and the first repeat round is entered. -/
def toFirstRound : List Label :=
  toInHandshake ++ [.timerExpire, .runFsm, .takeActions] ++ works 2 ++ toRound

/-- A repeat round ends without an answer, and the next one is entered. -/
def toNextRound : List Label := [.timerExpire, .runFsm, .takeActions] ++ works 1 ++ toRound

/-- The round of the attempt `n`, entered and still without an answer. -/
def unanswered (manager : NetworkManager) (n visit : Nat) : Runtime where
  state := Mode.repeatIn.state
  outbox := none
  events := []
  actions := []
  timerQueue := []
  timer := .running visit
  currentEpoch := 1
  session := { UpdateSession.new with state := .repeatHandshake, totalAttempts := n }
  ops := []
  manager := manager
  past := ⟨visit, visit, visit, [], 0, 0⟩

section Lost

variable {ctx : AppContext} {manager : NetworkManager} {session : UpdateSession}

/-- Without an answer the quorum does not approve, and up to the last attempt it goes on. -/
theorem quorumAlgorithm_unanswered (hvotes : session.handshakeHash = ∅)
    (h : session.totalAttempts ≤ ctx.quorum.maxAttempts.toNat) :
    quorumAlgorithm ctx manager session = .notApproveQuorum := by
  have hnone : ¬ ((share session.getTotalHandshake manager.getTotalHubs).ge
      (threshold session.totalAttempts) = true ∧ threshold session.totalAttempts > 10) := by
    rintro ⟨hshare, hten⟩
    have hpos := votes_pos_of_ge (by linarith) hshare
    simp [UpdateSession.getTotalHandshake, hvotes] at hpos
  unfold quorumAlgorithm
  rw [if_neg (by omega), if_neg hnone]

/-- The machine is in `CheckQuorumIn`, and `fsm` is about to send the verdict. -/
def checked (manager : NetworkManager) (n visit : Nat) (verdict : Event) : Runtime where
  state := Mode.checkIn.state
  outbox := none
  events := []
  actions := []
  timerQueue := []
  timer := .idle
  currentEpoch := 1
  session := { UpdateSession.new with state := .quorum, totalAttempts := n }
  ops := [.toFsm verdict]
  manager := manager
  past := ⟨visit, visit, visit, [], 0, 0⟩

/-- A verdict against the quorum starts the next round. -/
theorem unanswered_of_checked (n visit : Nat) :
    (machine ctx (some 50)).final (checked manager n visit .notApproveQuorum)
      toRound = some (unanswered manager (n + 1) (visit + 1)) := rfl

/-- The first round is always entered. -/
theorem unanswered_first : (machine ctx (some 50)).final (Runtime.start (some 50) manager)
    toFirstRound = some (unanswered manager 1 4) := by
  have hcheck : quorumAlgorithm ctx manager { UpdateSession.new with state := .quorum } =
      .notApproveQuorum := quorumAlgorithm_unanswered rfl (Nat.zero_le _)
  have hchecked : (machine ctx (some 50)).final (Runtime.start (some 50) manager)
      (toInHandshake ++ [.timerExpire, .runFsm, .takeActions] ++ works 2) =
        some (checked manager 0 3 (quorumAlgorithm ctx manager
          { UpdateSession.new with state := .quorum })) := rfl
  rw [hcheck] at hchecked
  exact Machine.final_trans hchecked (unanswered_of_checked 0 3)

/-- A round follows each round up to the last attempt. -/
theorem unanswered_next {n : Nat} (h : n ≤ ctx.quorum.maxAttempts.toNat) (visit : Nat) :
    (machine ctx (some 50)).final (unanswered manager n visit) toNextRound =
      some (unanswered manager (n + 1) (visit + 2)) := by
  have hcheck : quorumAlgorithm ctx manager
      { UpdateSession.new with state := .quorum, totalAttempts := n } = .notApproveQuorum :=
    quorumAlgorithm_unanswered rfl h
  have hchecked : (machine ctx (some 50)).final (unanswered manager n visit)
      ([.timerExpire, .runFsm, .takeActions] ++ works 1) =
        some (checked manager n (visit + 1) (quorumAlgorithm ctx manager
          { UpdateSession.new with state := .quorum, totalAttempts := n })) := rfl
  rw [hcheck] at hchecked
  exact Machine.final_trans hchecked (unanswered_of_checked n (visit + 1))

/-- Every round up to the one after the last attempt is entered. -/
theorem unanswered_entered (ctx : AppContext) (manager : NetworkManager) {n : Nat}
    (h : n ≤ ctx.quorum.maxAttempts.toNat) :
    ∃ is visit, (machine ctx (some 50)).final (Runtime.start (some 50) manager) is =
      some (unanswered manager (n + 1) visit) := by
  induction n with
  | zero => exact ⟨toFirstRound, 4, unanswered_first⟩
  | succ n ih =>
    obtain ⟨is, visit, hfinal⟩ := ih (by omega)
    exact ⟨is ++ toNextRound, visit + 2, Machine.final_trans hfinal (unanswered_next h visit)⟩

end Lost

/-- Whatever the settings and the hubs, a round is entered that no answers can win. -/
theorem a_round_too_many_is_entered (ctx : AppContext) (manager : NetworkManager) :
    ∃ t r, (machine ctx (some 50)).Run t r ∧ r.manager = manager ∧ r.InRound ∧
      r.session.totalAttempts = ctx.quorum.maxAttempts.toNat + 1 ∧ ¬ r.InAttempts ctx := by
  obtain ⟨is, visit, hfinal⟩ := unanswered_entered ctx manager (Nat.le_refl _)
  have hrun := Machine.run_append_trace (.start (init_start ctx (some 50) manager)) hfinal
  refine ⟨_, _, hrun, rfl, ⟨.inl rfl, rfl⟩, rfl, ?_⟩
  rintro ⟨hmax, -⟩
  exact absurd hmax (Nat.not_succ_le_self _)

/-- The only hub answers in the repeat round after `n` others, and its answer is about to be
counted. -/
def answered (n : Nat) : List Label :=
  toFirstRound ++ (List.replicate n toNextRound).flatten ++
    ([.command (answerOf "h" 1)] ++ works 1 ++ [.runFsm, .takeActions])

/-- The runtime with one hub after the labels. -/
def reached (is : List Label) : Option Runtime :=
  (machine sampleContext (some 50)).final (Runtime.start (some 50) sampleCache) is

theorem reached_third : (reached (answered 2)).isSome = true := by decide +kernel

theorem reached_fourth : (reached (answered 3)).isSome = true := by decide +kernel

end EdgeGateway.Fsm
