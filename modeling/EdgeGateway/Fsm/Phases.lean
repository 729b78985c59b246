-- Whose votes end a phase. A `QuorumPhase` carries no phase, the reports of
-- empty queues are counted without a look at the phase that they name, and
-- the session lags behind the machine: these decide the law.
import EdgeGateway.Fsm.Votes
import EdgeGateway.Fsm.Timeouts
import EdgeGateway.Fsm.Stuck

namespace EdgeGateway.Fsm

open EdgeGateway.Lib EdgeGateway.Message EdgeGateway.Networks EdgeGateway.Quorum

/-! ## The property and its condition -/

/-- The name that a hub knows the phase by. -/
def SubStatePhase.name : SubStatePhase → String
  | .alert => "alert"
  | .data => "data"
  | .monitor => "monitor"

/-- The phase that a state of the session counts for. -/
def StateOfSession.phase : StateOfSession → Option SubStatePhase
  | .phaseAlert => some .alert
  | .phaseData => some .data
  | .phaseMonitor => some .monitor
  | _ => Option.none

/-- The hub that reports in the visit `v` that its queue for `phase` is empty. -/
def phaseVote (v : Nat) (phase : SubStatePhase) (h : Heard) : Option String :=
  match h.msg with
  | .emptyQueue msg =>
    if h.visit = v ∧ msg.queueEmpty = true ∧ msg.phase = phase.name then
      some msg.metadata.senderUserId
    else none
  | _ => none

namespace Runtime

/-- Of all hubs that are counted, 80 percent have reported in this visit
that their queue for its phase is empty. -/
def Reported (r : Runtime) (x : FsmState × Nat) : Prop :=
  ∀ phase ∈ x.1.phase, 80 * r.manager.getTotalHubs ≤
    100 * r.manager.countedIn (r.past.heard.filterMap (phaseVote x.2 phase))

instance (r : Runtime) (x : FsmState × Nat) : Decidable (r.Reported x) :=
  inferInstanceAs (Decidable (∀ phase ∈ x.1.phase, _))

/-- If the step is the machine leaving a phase by a `QuorumPhase`, the hubs
have reported for this phase and in this visit. -/
def ownVotes (r : Runtime) (i : Label) : Bool :=
  match i, r.outbox, r.events with
  | .runFsm, none, (.quorumPhase, _) :: _ => decide (r.Reported r.stand)
  | _, _, _ => true

/-- A `QuorumPhase` is on its way to the machine. -/
def phaseDecided (r : Runtime) : Bool :=
  r.ops.any (fun o => o.event == some .quorumPhase) || r.events.any (fun e => e.1 == .quorumPhase)

/-- If the step counts a report, the report names the phase of the session
and all reports counted are of counted hubs. If it sends a `QuorumPhase`, the
machine will still be, once the events queued before are taken, in the visit
that the session counts for, or in no phase. If it changes the hubs, no
`QuorumPhase` is on its way. -/
def counts (r : Runtime) : Label → Bool
  | .command (.fromHub (.emptyQueue msg)) =>
    !(inPhase r.session.state && msg.queueEmpty) ||
      (r.session.state.phase.map SubStatePhase.name == some msg.phase &&
        (msg.metadata.senderUserId :: r.session.emptyHash.keys).all
          (fun id => decide (id ∈ r.manager.counted)))
  | .work _ _ =>
    match r.ops with
    | .toFsm .quorumPhase :: _ =>
      (drained r.stand r.events).1.phase.isNone ||
        decide ((drained r.stand r.events).2 = r.past.entered)
    | _ => true
  | .network c => !c.touchesHubs || !r.phaseDecided
  | _ => true

end Runtime

/-! ## Visits -/

/-- A mode of the machine is in the phase that its session counts for. -/
theorem Mode.phase_session (m : Mode) : m.session.phase = m.state.phase := by cases m <;> rfl

/-- What the list of a transition sets is the session of the mode entered. -/
theorem Mode.sets_session {m m' : Mode} {e : Event} {l : List Action}
    (h : m.next e = some (m', l)) : ∀ a ∈ l, ∀ s, a.sets = some s → s = m'.session :=
  of_rows (P := fun _ _ m' l => ∀ a ∈ l, ∀ s ∈ a.sets, s = m'.session) (by decide) h

/-- Every number of a visit is of a visit begun, and what belongs to the
current visit belongs to its mode. -/
structure Dated (m : Mode) (r : Runtime) : Prop where
  lists_le : ∀ x ∈ r.queued, x.1 ≤ r.past.visit
  serving_le : r.past.serving ≤ r.past.visit
  entered_le : r.past.entered ≤ r.past.visit
  heard_le : ∀ h ∈ r.past.heard, h.visit ≤ r.past.visit
  lists : ∀ x ∈ r.queued, x.1 = r.past.visit → ∀ a ∈ x.2, ∀ s, a.sets = some s → s = m.session
  ops : r.past.serving = r.past.visit → ∀ o ∈ r.ops, ∀ s, o.sets = some s → s = m.session
  entered : r.past.entered = r.past.visit → r.session.state = m.session

section Visits

variable {ctx : AppContext} {cap : Option Nat} {m m' : Mode} {r r' : Runtime} {i : Label}

/-- A step that stays in the visit and only drops what is to be executed
keeps the numbers. -/
theorem dated_frame (h : Dated m r) (hp : r'.past = r.past) (hs : r'.session = r.session)
    (hq : r'.queued = r.queued) (ho : ∀ o ∈ r'.ops, o ∈ r.ops) : Dated m r' where
  lists_le := by rw [hq, hp]; exact h.lists_le
  serving_le := by rw [hp]; exact h.serving_le
  entered_le := by rw [hp]; exact h.entered_le
  heard_le := by rw [hp]; exact h.heard_le
  lists := by rw [hq, hp]; exact h.lists
  ops := by rw [hp]; exact fun hv o hmem => h.ops hv o (ho o hmem)
  entered := by rw [hp, hs]; exact h.entered

theorem dated_command (h : Dated m r) (c : FsmServiceCommand) :
    Dated m (r.afterCommand c (onCommand r.manager r.currentEpoch r.session c)) := by
  obtain ⟨hstate, hsends⟩ := onCommand_sends r.manager r.currentEpoch r.session c
  have hpast : ∀ out, (r.afterCommand c out).past.visit = r.past.visit ∧
      (r.afterCommand c out).past.serving = r.past.serving ∧
      (r.afterCommand c out).past.entered = r.past.entered := by
    intro out
    cases c <;> exact ⟨rfl, rfl, rfl⟩
  obtain ⟨hv, hserving, hentered⟩ :=
    hpast (onCommand r.manager r.currentEpoch r.session c)
  refine ⟨?_, ?_, ?_, ?_, ?_, ?_, ?_⟩
  · rw [hv]
    exact h.lists_le
  · rw [hv, hserving]
    exact h.serving_le
  · rw [hv, hentered]
    exact h.entered_le
  · rw [hv]
    cases c with
    | fromHub msg =>
      intro x hx
      rcases List.mem_append.mp hx with hx | hx
      · exact h.heard_le x hx
      · rw [List.mem_singleton.mp hx]
    | _ => exact h.heard_le
  · rw [hv]
    exact h.lists
  · intro _ o ho s hs
    have := hsends o ho
    cases o <;> simp [Op.sets, Op.isSend] at hs this
  · rw [hv, hentered]
    intro he
    exact hstate.trans (h.entered he)

theorem dated_act (h : Dated m r) {a : Action} {rest : List Op} {now : Int64} {jitter : Fin 11}
    (ho : r.ops = .act a :: rest) :
    Dated m (r.afterAct a rest
      (handleAction ctx r.manager r.currentEpoch r.session now jitter.val.toUInt32 a)) := by
  have hstate := handleAction_state ctx r.manager r.currentEpoch r.session now
    jitter.val.toUInt32 a
  have hsends := handleAction_sends ctx r.manager r.currentEpoch r.session now
    jitter.val.toUInt32 a
  generalize handleAction ctx r.manager r.currentEpoch r.session now jitter.val.toUInt32 a = out
    at hstate hsends ⊢
  refine ⟨h.lists_le, h.serving_le, ?_, h.heard_le, h.lists, ?_, ?_⟩
  · show (if a.sets.isSome then r.past.serving else r.past.entered) ≤ r.past.visit
    split
    · exact h.serving_le
    · exact h.entered_le
  · intro hv o hmem s hs
    rcases List.mem_append.mp hmem with hmem | hmem
    · have := hsends o hmem
      cases o <;> simp [Op.sets, Op.isSend] at hs this
    · exact h.ops hv o (ho ▸ List.mem_cons_of_mem _ hmem) s hs
  · show (if a.sets.isSome then r.past.serving else r.past.entered) = r.past.visit →
      out.1.state = m.session
    rw [hstate]
    rcases hs : a.sets with _ | s
    · exact h.entered
    · intro hv
      exact h.ops hv (.act a) (ho ▸ List.mem_cons_self) s hs

theorem dated_advance (h : Dated m r) {e : Event} {rest : List (Event × Nat)} {l : List Action}
    (hb : r.outbox = none) (hn : m.next e = some (m', l)) :
    Dated m' (r.advanced cap m m' rest l) := by
  have hsets := Mode.sets_session hn
  -- a new visit: whatever belongs to an older one has a smaller number
  by_cases hm : m' = m
  · subst hm
    refine ⟨?_, ?_, ?_, ?_, ?_, ?_, ?_⟩ <;>
      simp only [Runtime.advanced_past, Runtime.advanced_ops, Runtime.advanced_session,
        Runtime.queued_advanced cap m' m' rest l hb, if_true]
    · intro x hx
      rcases List.mem_append.mp hx with hx | hx
      · exact h.lists_le x hx
      · rw [List.mem_singleton.mp hx]
    · exact h.serving_le
    · exact h.entered_le
    · exact h.heard_le
    · intro x hx hv
      rcases List.mem_append.mp hx with hx | hx
      · exact h.lists x hx hv
      · rw [List.mem_singleton.mp hx]
        exact hsets
    · exact h.ops
    · exact h.entered
  · have hserving := h.serving_le
    have hentered := h.entered_le
    refine ⟨?_, ?_, ?_, ?_, ?_, ?_, ?_⟩ <;>
      simp only [Runtime.advanced_past, Runtime.advanced_ops, Runtime.advanced_session,
        Runtime.queued_advanced cap m m' rest l hb, if_neg hm]
    · intro x hx
      rcases List.mem_append.mp hx with hx | hx
      · exact Nat.le_succ_of_le (h.lists_le x hx)
      · rw [List.mem_singleton.mp hx]
    · omega
    · omega
    · exact fun x hx => Nat.le_succ_of_le (h.heard_le x hx)
    · intro x hx hv
      rcases List.mem_append.mp hx with hx | hx
      · have := h.lists_le x hx
        omega
      · rw [List.mem_singleton.mp hx]
        exact hsets
    · intro hv
      omega
    · intro hv
      omega

/-- Every step keeps the numbers of the visits. -/
theorem dated_step (h : Dated m r) (hmove : Move ctx cap m r i m' r') : Dated m' r' := by
  cases hmove with
  | command _ => exact dated_command h _
  | act ho => exact dated_act h ho
  | advance hb he hn => exact dated_advance h hb hn
  | @take _ visit l rest ho ha =>
    have hmem : (visit, l) ∈ r.queued := by simp [Runtime.queued, ha]
    refine ⟨?_, h.lists_le _ hmem, h.entered_le, h.heard_le, ?_, ?_, h.entered⟩
    · intro x hx
      refine h.lists_le x ?_
      simp only [Runtime.queued, ha, List.cons_append]
      exact List.mem_cons_of_mem _ hx
    · intro x hx
      refine h.lists x ?_
      simp only [Runtime.queued, ha, List.cons_append]
      exact List.mem_cons_of_mem _ hx
    · intro hv o ho s hs
      obtain ⟨a, ha, rfl⟩ := List.mem_map.mp ho
      exact h.lists (visit, l) hmem hv a ha s hs
  | sendFsm ho hr =>
    exact dated_frame h rfl rfl rfl (fun o hmem => ho ▸ List.mem_cons_of_mem _ hmem)
  | sendTimer ho hr =>
    exact dated_frame h rfl rfl rfl (fun o hmem => ho ▸ List.mem_cons_of_mem _ hmem)
  | output ho hout =>
    exact dated_frame h rfl rfl rfl (fun o hmem => ho ▸ List.mem_cons_of_mem _ hmem)
  | deliver hb hr =>
    refine dated_frame h rfl rfl ?_ (fun o hmem => hmem)
    simp [Runtime.queued, hb]
  | _ => exact dated_frame h rfl rfl rfl (fun o hmem => hmem)

end Visits

/-! ## Foreseeing the verdicts -/

/-- Each `QuorumPhase` of the queue, when its turn comes, meets a machine
that the hubs have reported to. -/
def owed (r : Runtime) (x : FsmState × Nat) : List (Event × Nat) → Prop
  | [] => True
  | (e, _) :: q => (e = .quorumPhase → r.Reported x) ∧ owed r (follow x e) q

theorem owed_append (r : Runtime) (x : FsmState × Nat) (p q : List (Event × Nat)) :
    owed r x (p ++ q) ↔ owed r x p ∧ owed r (drained x p) q := by
  induction p generalizing x with
  | nil => simp [owed, drained]
  | cons e p ih => simp [owed, drained, ih, and_assoc]

/-- Nothing is owed when no `QuorumPhase` is queued. -/
theorem owed_of_none (r : Runtime) {q : List (Event × Nat)} (h : ∀ e ∈ q, e.1 ≠ .quorumPhase)
    (x : FsmState × Nat) : owed r x q := by
  induction q generalizing x with
  | nil => trivial
  | cons e q ih =>
    exact ⟨fun he => absurd he (h e List.mem_cons_self),
      ih (fun e he => h e (List.mem_cons_of_mem _ he)) _⟩

/-- Reports are not lost, and count for as many hubs while the hubs stay. -/
theorem reported_mono {r r' : Runtime} (hm : r'.manager.hubs = r.manager.hubs)
    (hh : ∀ h ∈ r.past.heard, h ∈ r'.past.heard) (x : FsmState × Nat) (hr : r.Reported x) :
    r'.Reported x := by
  intro phase hphase
  have hsub : ∀ k ∈ r.past.heard.filterMap (phaseVote x.2 phase),
      k ∈ r'.past.heard.filterMap (phaseVote x.2 phase) := by
    intro k hk
    obtain ⟨h, hmem, hvote⟩ := List.mem_filterMap.mp hk
    exact List.mem_filterMap.mpr ⟨h, hh h hmem, hvote⟩
  have hmono := r.manager.countedIn_mono hsub
  have hold := hr phase hphase
  have htotal : r'.manager.getTotalHubs = r.manager.getTotalHubs := by
    rw [NetworkManager.getTotalHubs, NetworkManager.getTotalHubs, hm]
  have hcount : ∀ ids, r'.manager.countedIn ids = r.manager.countedIn ids := by
    intro ids
    rw [NetworkManager.countedIn, NetworkManager.countedIn, hm]
  rw [htotal, hcount]
  omega

/-- What is owed stays owed when more is heard of the same hubs. -/
theorem owed_mono {r r' : Runtime} {x : FsmState × Nat} {q : List (Event × Nat)}
    (ho : owed r x q) (hm : r'.manager.hubs = r.manager.hubs)
    (hh : ∀ h ∈ r.past.heard, h ∈ r'.past.heard) : owed r' x q := by
  induction q generalizing x with
  | nil => trivial
  | cons e q ih => exact ⟨fun he => reported_mono hm hh x (ho.1 he), ih ho.2⟩

/-- The number of the visit grows only with a change of the state. -/
theorem drained_stays (x : FsmState × Nat) (q : List (Event × Nat)) :
    x.2 ≤ (drained x q).2 ∧ ((drained x q).2 = x.2 → (drained x q).1 = x.1) := by
  induction q generalizing x with
  | nil => simp [drained]
  | cons e q ih =>
    obtain ⟨hle, heq⟩ := ih (follow x e.1)
    have hstep : x.2 ≤ (follow x e.1).2 ∧ ((follow x e.1).2 = x.2 → (follow x e.1).1 = x.1) := by
      unfold follow
      split
      · rename_i t _
        by_cases hc : t.changeState = x.1 <;> simp [hc]
      · simp
    refine ⟨hstep.1.trans hle, fun hq => ?_⟩
    have hq' : (drained (follow x e.1) q).2 = x.2 := hq
    have hsame : (follow x e.1).2 = x.2 := by
      have := hstep.1
      omega
    calc (drained (follow x e.1) q).1 = (follow x e.1).1 := heq (hq'.trans hsame.symm)
      _ = x.1 := hstep.2 hsame

/-! ## The votes of the session -/

/-- The reports that the session holds are for its phase and not older than
the visit that set it, a verdict about to be sent has its share, and those
queued are owed. -/
structure Polled (r : Runtime) : Prop where
  first : EventFirst r.ops
  reports : ∀ phase ∈ r.session.state.phase, ∀ k ∈ r.session.emptyHash.keys,
    ∃ h ∈ r.past.heard, r.past.entered ≤ h.visit ∧ phaseVote h.visit phase h = some k
  sending : ∀ rest, r.ops = .toFsm .quorumPhase :: rest →
    80 * r.manager.getTotalHubs ≤ 100 * r.manager.countedIn r.session.emptyHash.keys
  queue : owed r r.stand r.events

section Steps

variable {ctx : AppContext} {cap : Option Nat} {m m' : Mode} {r r' : Runtime} {i : Label}

/-- A step that keeps session, hubs and what was heard, and begins to send
no verdict, leaves only the queue to look at. -/
theorem polled_frame (h : Polled r) (hs : r'.session = r.session)
    (hm : r'.manager = r.manager) (hheard : r'.past.heard = r.past.heard)
    (he : r'.past.entered = r.past.entered) (hfirst : EventFirst r'.ops)
    (hops : ∀ e rest, r'.ops = .toFsm e :: rest → ∃ rest', r.ops = .toFsm e :: rest')
    (hq : owed r r'.stand r'.events) : Polled r' where
  first := hfirst
  reports := by rw [hs, hheard, he]; exact h.reports
  sending := by
    intro rest ho
    obtain ⟨rest', ho'⟩ := hops _ rest ho
    rw [hs, hm]
    exact h.sending rest' ho'
  queue := owed_mono hq (by rw [hm]) (by rw [hheard]; exact fun x hx => hx)

theorem heard_afterCommand (c : FsmServiceCommand) (out : UInt32 × UpdateSession × List Op)
    {x : Heard} (hx : x ∈ r.past.heard) : x ∈ (r.afterCommand c out).past.heard := by
  cases c with
  | fromHub msg => exact List.mem_append_left _ hx
  | _ => exact hx

theorem owed_afterCommand (h : owed r r.stand r.events) (c : FsmServiceCommand)
    (out : UInt32 × UpdateSession × List Op) :
    owed (r.afterCommand c out) (r.afterCommand c out).stand (r.afterCommand c out).events := by
  have hstand : (r.afterCommand c out).stand = r.stand := by
    simp [Runtime.stand, Runtime.afterCommand]
  rw [hstand]
  exact owed_mono h rfl (fun _ hx => heard_afterCommand c out hx)

/-- The report of an empty queue keeps the invariant when it is for the phase
of the session and all the senders counted are counted hubs. -/
theorem polled_report (h : Polled r) (hd : Dated m r) {msg : EmptyQueue}
    (hempty : msg.queueEmpty = true)
    (hname : r.session.state.phase.map SubStatePhase.name = some msg.phase)
    (hcounted : ∀ k ∈ msg.metadata.senderUserId :: r.session.emptyHash.keys,
      k ∈ r.manager.counted) :
    Polled (r.afterCommand (.fromHub (.emptyQueue msg))
      (r.currentEpoch, quorumPhase r.manager r.session (.emptyQueue msg))) := by
  obtain ⟨-, hstate⟩ := insertEmpty_rest r.session msg.metadata.senderUserId true
  have hmem : ∀ k ∈ (r.session.insertEmpty msg.metadata.senderUserId true).emptyHash.keys,
      k = msg.metadata.senderUserId ∨ k ∈ r.session.emptyHash.keys :=
    fun k hk => mem_insertEmpty.mp hk
  rw [quorumPhase_eq, if_pos hempty]
  refine ⟨?_, ?_, ?_, ?_⟩
  · simp only [Runtime.afterCommand]
    split <;> simp [EventFirst, Op.event]
  · intro phase hphase k hk
    have hphase' : phase ∈ r.session.state.phase := hstate ▸ hphase
    rcases hmem k hk with rfl | hk
    · refine ⟨⟨r.past.visit, r.currentEpoch, .emptyQueue msg⟩,
        List.mem_append_right _ (List.mem_singleton_self _), hd.entered_le, ?_⟩
      have : msg.phase = phase.name := by
        rw [Option.mem_def.mp hphase', Option.map_some, Option.some.injEq] at hname
        exact hname.symm
      simp [phaseVote, hempty, this]
    · obtain ⟨x, hx, hv, hvote⟩ := h.reports phase hphase' k hk
      exact ⟨x, List.mem_append_left _ hx, hv, hvote⟩
  · intro rest ho
    have hshare : (share (r.session.insertEmpty msg.metadata.senderUserId true).getTotalEmpty
        r.manager.getTotalHubs).ge 80 = true := by
      by_contra hno
      simp [Runtime.afterCommand, hno] at ho
    have hle : (r.session.insertEmpty msg.metadata.senderUserId true).emptyHash.keys.length ≤
        r.manager.countedIn
          (r.session.insertEmpty msg.metadata.senderUserId true).emptyHash.keys := by
      refine NetworkManager.length_le_countedIn (AList.keys_nodup _) fun k hk => hcounted k ?_
      exact List.mem_cons.mpr (hmem k hk)
    rw [getTotalEmpty_eq, share_ge_iff] at hshare
    show 80 * r.manager.getTotalHubs ≤ 100 * r.manager.countedIn
      (r.session.insertEmpty msg.metadata.senderUserId true).emptyHash.keys
    rcases hshare with ⟨h0, -⟩ | ⟨-, hge⟩
    · omega
    · have : 80 * r.manager.getTotalHubs ≤ 100 * (r.session.insertEmpty
          msg.metadata.senderUserId true).emptyHash.keys.length := by exact_mod_cast hge
      omega
  · exact owed_afterCommand h.queue _ _

theorem polled_command (h : Polled r) (hd : Dated m r) {c : FsmServiceCommand}
    (hcounts : r.counts (.command c) = true) :
    Polled (r.afterCommand c (onCommand r.manager r.currentEpoch r.session c)) := by
  have ht := taken r.manager r.currentEpoch r.session c
  have hfirst := onCommand_first r.manager r.currentEpoch r.session c
  generalize onCommand r.manager r.currentEpoch r.session c = out at ht hfirst ⊢
  -- a reaction that keeps the reports and sends no verdict of a phase
  have hplain : out.2.1.emptyHash = r.session.emptyHash → out.2.1.state = r.session.state →
      (∀ rest, out.2.2 ≠ .toFsm .quorumPhase :: rest) → Polled (r.afterCommand c out) := by
    intro hhash hstate hno
    refine ⟨hfirst, ?_, fun rest hops => absurd hops (hno rest), owed_afterCommand h.queue c out⟩
    intro phase hphase k hk
    obtain ⟨x, hx, hv, hvote⟩ := h.reports phase (hstate ▸ hphase) k (hhash ▸ hk)
    refine ⟨x, heard_afterCommand c out hx, ?_, hvote⟩
    cases c <;> exact hv
  cases ht with
  | silent => exact hplain rfl rfl (by simp)
  | errorEpoch => exact hplain rfl rfl (by simp)
  | epoch => exact hplain rfl rfl (by simp)
  | @handshake msg hs he =>
    obtain ⟨hempty, hstate⟩ := insertHandshake_rest r.session msg.metadata.senderUserId
      msg.balanceEpoch
    exact hplain hempty hstate (by simp)
  | @empty msg hs =>
    have hphase : Runtime.inPhase r.session.state = true := by
      rcases hs with hs | hs | hs <;> rw [hs] <;> rfl
    by_cases hq : msg.queueEmpty = true
    · simp only [Runtime.counts, hphase, hq, Bool.and_self, Bool.not_true, Bool.false_or,
        Bool.and_eq_true, beq_iff_eq, List.all_eq_true, decide_eq_true_eq] at hcounts
      exact polled_report h hd hq hcounts.1 hcounts.2
    · rw [quorumPhase_eq, if_neg hq] at hplain ⊢
      exact hplain rfl rfl (by simp)
  | @emptySafe msg hs =>
    have hnone : r.session.state.phase = none := by rw [hs]; rfl
    have hsends := (quorumSafeMode_cases r.manager r.session (.emptyQueueSafe msg)).2
    have hstate := (quorumSafeMode_cases r.manager r.session (.emptyQueueSafe msg)).1
    refine ⟨hfirst, ?_, ?_, owed_afterCommand h.queue _ _⟩
    · intro phase hphase
      have hphase' : phase ∈ r.session.state.phase := hstate ▸ hphase
      simp [hnone] at hphase'
    · intro rest hops
      have hops' : (quorumSafeMode r.manager r.session (.emptyQueueSafe msg)).2 =
        .toFsm .quorumPhase :: rest := hops
      rcases hsends with hsends | hsends <;> simp [hsends] at hops'

theorem polled_act (h : Polled r) {a : Action} {rest : List Op} {now : Int64} {jitter : Fin 11}
    (ho : r.ops = .act a :: rest) :
    Polled (r.afterAct a rest
      (handleAction ctx r.manager r.currentEpoch r.session now jitter.val.toUInt32 a)) := by
  obtain ⟨hfirst, -⟩ := act_first ctx h.first ho now jitter.val.toUInt32
  have hdone := handled ctx r.manager r.currentEpoch r.session now jitter.val.toUInt32 a
  have hstate := hdone.state
  generalize handleAction ctx r.manager r.currentEpoch r.session now jitter.val.toUInt32 a = out
    at hfirst hdone hstate ⊢
  refine ⟨hfirst, ?_, ?_, ?_⟩
  · intro phase hphase k hk
    rw [show (r.afterAct a rest out).session = out.1 from rfl, hdone.empties] at hk
    by_cases hreset : a.resetsEmpty = true
    · simp [hreset] at hk
    · rw [if_neg hreset] at hk
      rcases hsets : a.sets with _ | s
      · rw [hsets, Option.getD_none] at hstate
        obtain ⟨x, hx, hv, hvote⟩ := h.reports phase (hstate ▸ hphase) k hk
        refine ⟨x, hx, ?_, hvote⟩
        simpa [Runtime.afterAct, Past.execute, hsets] using hv
      · rw [hsets, Option.getD_some] at hstate
        have hin : Runtime.inPhase s = true := by
          have hsome : phase ∈ s.phase := hstate ▸ hphase
          cases s <;> first | rfl | simp [StateOfSession.phase] at hsome
        exact absurd (resets_of_sets hsets (Or.inl hin)) hreset
  · intro rest' hops
    have hmem : .toFsm .quorumPhase ∈ out.2 := mem_sends_of_next (ho ▸ h.first) hops
    have hq := (hdone.event _ hmem).2
    rcases quorumAlgorithm_cases ctx r.manager r.session with h1 | h1 | h1 <;>
      rw [h1] at hq <;> simp at hq
  · exact owed_mono h.queue rfl (fun x hx => hx)

/-- A verdict that is sent in the visit of its session is owed. -/
theorem owed_send (hm : r.state = m.state) (h : Polled r) (hd : Dated m r) {rest : List Op}
    (ho : r.ops = .toFsm .quorumPhase :: rest) {now : Int64} {jitter : Fin 11}
    (hcounts : r.counts (.work now jitter) = true) : r.Reported (drained r.stand r.events) := by
  intro phase hphase
  simp only [Runtime.counts, ho, Bool.or_eq_true, Option.isNone_iff_eq_none,
    decide_eq_true_eq] at hcounts
  rcases hcounts with hnone | hentered
  · rw [hnone] at hphase
    simp at hphase
  · -- the queue holds the machine in the visit that the session counts for
    obtain ⟨hle, hsame⟩ := drained_stays r.stand r.events
    have hle' := hd.entered_le
    have hvisit : r.past.entered = r.past.visit := by
      have : r.past.visit ≤ (drained r.stand r.events).2 := hle
      omega
    have hstate : (drained r.stand r.events).1 = r.state := hsame (hentered.trans hvisit)
    have hsession : phase ∈ r.session.state.phase := by
      rw [hd.entered hvisit, Mode.phase_session, ← hm, ← hstate]
      exact hphase
    have hcount : r.manager.countedIn r.session.emptyHash.keys ≤ r.manager.countedIn
        (r.past.heard.filterMap (phaseVote (drained r.stand r.events).2 phase)) := by
      refine r.manager.countedIn_mono fun k hk => ?_
      obtain ⟨x, hx, hv, hvote⟩ := h.reports phase hsession k hk
      have hx' : x.visit = (drained r.stand r.events).2 := by
        have := hd.heard_le x hx
        omega
      exact List.mem_filterMap.mpr ⟨x, hx, hx' ▸ hvote⟩
    have := h.sending rest ho
    omega

/-- The events that the machine leaves in the queue stay owed. -/
theorem owed_consume {e : Event} {v : Nat} {rest : List (Event × Nat)} (h : Polled r)
    (he : r.events = (e, v) :: rest) : owed r (follow r.stand e) rest := by
  have := h.queue
  rw [he] at this
  exact this.2

/-- A step that counts as it should keeps the invariant. -/
theorem polled_step (hm : r.state = m.state) (h : Polled r) (hd : Dated m r)
    (hcounts : r.counts i = true) (hmove : Move ctx cap m r i m' r') : Polled r' := by
  have hfirst := eventFirst_step h.first hmove
  have hrest : ∀ {o : Op} {rest : List Op}, r.ops = o :: rest → ∀ e rest',
      rest = .toFsm e :: rest' → ∃ rest'', r.ops = .toFsm e :: rest'' :=
    fun ho e rest' hr => absurd hr (tail_ne_toFsm (ho ▸ h.first) e rest')
  have hstay : ∀ e rest, r.ops = .toFsm e :: rest → ∃ rest', r.ops = .toFsm e :: rest' :=
    fun e rest ho => ⟨rest, ho⟩
  cases hmove with
  | command _ => exact polled_command h hd hcounts
  | act ho => exact polled_act h ho
  | take ho ha =>
    refine polled_frame h rfl rfl rfl rfl hfirst ?_ h.queue
    rintro e rest hops
    have hmem : Op.toFsm e ∈ List.map Op.act _ := hops ▸ List.mem_cons_self
    simp at hmem
  | @sendFsm _ e rest now jitter ho hr =>
    refine polled_frame h rfl rfl rfl rfl hfirst (hrest ho) ?_
    refine (owed_append _ _ _ _).mpr ⟨h.queue, fun he => ?_, trivial⟩
    exact owed_send hm h hd (he ▸ ho) hcounts
  | sendTimer ho hr => exact polled_frame h rfl rfl rfl rfl hfirst (hrest ho) h.queue
  | output ho hout => exact polled_frame h rfl rfl rfl rfl hfirst (hrest ho) h.queue
  | refuse hb he hn =>
    refine polled_frame h rfl rfl rfl rfl hfirst hstay ?_
    have hs : r.stand = (m.state, r.past.visit) := by rw [Runtime.stand, hm]
    have := owed_consume h he
    rw [hs, follow_refused hn, ← hs] at this
    exact this
  | advance hb he hn =>
    refine polled_frame h (Runtime.advanced_session ..) (Runtime.advanced_manager ..) ?_ ?_ hfirst
      ?_ ?_
    · rw [Runtime.advanced_past]
    · rw [Runtime.advanced_past]
    · rw [Runtime.advanced_ops]
      exact hstay
    · have := owed_consume h he
      rw [Runtime.stand, hm, follow_next hn] at this
      rw [Runtime.stand, Runtime.advanced_state, Runtime.advanced_past, Runtime.advanced_events]
      exact this
  | @expire _ timer out ht =>
    refine polled_frame h rfl rfl rfl rfl hfirst hstay ?_
    refine (owed_append _ _ _ _).mpr ⟨h.queue, owed_of_none _ ?_ _⟩
    rcases out with _ | v <;> simp
  | @network _ c =>
    by_cases htouch : c.touchesHubs = true
    · simp only [Runtime.counts, htouch, Runtime.phaseDecided, Bool.not_true, Bool.false_or,
        Bool.not_eq_true', Bool.or_eq_false_iff, List.any_eq_false, beq_iff_eq] at hcounts
      refine ⟨h.first, h.reports, fun rest hops => ?_, owed_of_none _ hcounts.2 _⟩
      have hops' : r.ops = .toFsm .quorumPhase :: rest := hops
      exact absurd rfl (hcounts.1 _ (hops' ▸ List.mem_cons_self))
    · have hhubs := NetworkManager.hubs_change (m := r.manager) (Bool.eq_false_iff.mpr htouch)
      refine ⟨h.first, h.reports, fun rest hops => ?_, owed_mono h.queue hhubs (fun x hx => hx)⟩
      have := h.sending rest hops
      simpa [NetworkManager.getTotalHubs, NetworkManager.countedIn, hhubs] using this
  | _ => exact polled_frame h rfl rfl rfl rfl hfirst hstay h.queue

end Steps

/-! ## The law -/

theorem polled_start (cap : Option Nat) (manager : NetworkManager) :
    Dated .init (Runtime.start cap manager) ∧ Polled (Runtime.start cap manager) := by
  refine ⟨⟨?_, ?_, ?_, ?_, ?_, ?_, ?_⟩, ⟨?_, ?_, ?_, ?_⟩⟩
  · simp [queued_start]
  · simp
  · simp
  · simp
  · simp [queued_start, Action.sets]
  · simp
  · simp
  · simp [EventFirst]
  · simp [UpdateSession.new, StateOfSession.phase]
  · simp
  · rw [events_start]
    trivial

/-- In a run that counts reports for their phase and of counted hubs, and
whose verdicts meet the visit that they were counted in, a phase is only left
by the reports of its own hubs. -/
theorem no_phase_is_skipped_by_votes_of_another (ctx : AppContext) (cap : Option Nat)
    (t : List (Runtime × Label)) (r : Runtime) (run : (machine ctx cap).Run t r)
    (hcounts : Machine.Meets (fun r i => r.counts i = true) t) :
    Machine.Meets (fun r i => r.ownVotes i = true) t := by
  refine run.meets (fun r => ∃ m : Mode, r.state = m.state ∧ Dated m r ∧ Polled r) _ _ ?_ ?_ ?_
    hcounts
  · rintro r ⟨manager, rfl⟩
    exact ⟨.init, state_start cap manager, polled_start cap manager⟩
  · rintro r i r' ⟨m, hm, hd, hp⟩ hc h
    obtain ⟨m', hm', hmove⟩ := move_of_step hm h
    exact ⟨m', hm', dated_step hd hmove, polled_step hm hp hd hc hmove⟩
  · rintro r i r' ⟨-, -, -, hp⟩ - -
    unfold Runtime.ownVotes
    split
    · rename_i v rest he
      have := hp.queue
      rw [he] at this
      simpa using this.1 rfl
    · rfl

/-- The report of a hub that its queue is empty in the phase named. -/
def reportOf (hub phase : String) : FsmServiceCommand :=
  .fromHub (.emptyQueue
    { metadata := ⟨hub, "edge", 0⟩, state := "balance_mode", phase, queueEmpty := true })

/-- From the start to the phase of alerts with its entry executed. -/
def toAlert : List Label := approvalBy "h" ++ [.runFsm, .takeActions] ++ works 7

/-- The report of the only hub ends the phase. -/
theorem the_report_of_the_hub_ends_the_phase :
    let m := machine sampleContext (some 50)
    let t := m.trace (Runtime.start (some 50) sampleCache)
      (toAlert ++ [.command (reportOf "h" "alert")] ++ works 2 ++ [.runFsm])
    Machine.Meets (fun r i => r.counts i = true) t ∧
      Machine.Meets (fun r i => r.ownVotes i = true) t := by
  have hcounts : Machine.Meets (fun r i => r.counts i = true)
      ((machine sampleContext (some 50)).trace (Runtime.start (some 50) sampleCache)
        (toAlert ++ [.command (reportOf "h" "alert")] ++ works 2 ++ [.runFsm])) := by
    decide +kernel
  exact ⟨hcounts, no_phase_is_skipped_by_votes_of_another sampleContext (some 50) _ _
    (Machine.run_of_final _ (init_start _ _ _) (by decide +kernel)) hcounts⟩

/-- A report that comes twice ends two phases. -/
def twoReports : List Label :=
  toAlert ++ [.command (reportOf "h" "alert")] ++ works 2 ++ [.command (reportOf "h" "alert")] ++
    works 2 ++ [.runFsm, .runFsm]

theorem a_second_report_skips_the_data_phase :
    ¬ ∀ (ctx : AppContext) (cap : Option Nat) (t : List (Runtime × Label)) (r : Runtime),
      (machine ctx cap).Run t r → Machine.Meets (fun r i => r.ownVotes i = true) t := by
  intro h
  have hrun := Machine.run_of_final twoReports
    (init_start sampleContext (some 50) sampleCache) (by decide +kernel)
  have hmeets := h _ _ _ _ hrun
  revert hmeets
  decide +kernel

end EdgeGateway.Fsm
