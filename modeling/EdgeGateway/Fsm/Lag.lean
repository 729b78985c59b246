-- How far `fsm` can lag behind the machine. Until the entry of the alert phase is executed one
-- `Timeout` can still come, and no vote ends a phase: the machine does not get through the phases
-- before `fsm` has cleared the answers to the handshake.
import EdgeGateway.Fsm.Votes
import EdgeGateway.Fsm.Timeouts

namespace EdgeGateway.Fsm

open EdgeGateway.Lib EdgeGateway.Message EdgeGateway.Networks EdgeGateway.Quorum

/-! ## The entries of the phases -/

def Action.isPhase : Action → Bool
  | .onEntryPhase _ => true
  | _ => false

def Op.isPhase : Op → Bool
  | .act a => a.isPhase
  | _ => false

/-- How many entries of phases are still to be executed. -/
def phaseEntries (ops : List Op) : Nat := ops.countP Op.isPhase

/-- After the entry of a phase only those of phases set the session. -/
def PhasesLast (ops : List Op) : Prop :=
  ops.Pairwise fun x y => x.isPhase = true → y.sets ≠ none → y.isPhase = true

instance (ops : List Op) : Decidable (PhasesLast ops) :=
  inferInstanceAs (Decidable (ops.Pairwise _))

namespace Mode

/-- The modes up to the phases. -/
def early : Mode → Bool
  | .init => true
  | .inHandshake => true
  | .checkIn => true
  | .repeatIn => true
  | .alert => true
  | .data => true
  | .monitor => true
  | _ => false

/-- How many phases the machine has begun. -/
def phases : Mode → Nat
  | .alert => 1
  | .data => 2
  | .monitor => 3
  | _ => 0

/-- How many timeouts can come while `fsm` has entered no phase, the phases that the machine has
begun counted in. -/
def timeouts : Mode → Nat
  | .inHandshake => 1
  | .repeatIn => 1
  | .alert => 2
  | .data => 2
  | _ => 0

end Mode

/-- The timeouts on their way to the machine, and those that the watchdog can still send. -/
def Runtime.timeouts (r : Runtime) : Nat :=
  r.events.countP (fun e => e.1 == .timeout) + r.timer.credit r.told

section Entries

theorem not_isPhase_of_send {o : Op} (h : o.isSend = true) : o.isPhase = false := by
  cases o <;> first | rfl | simp [Op.isSend] at h

theorem sets_of_send {o : Op} (h : o.isSend = true) : o.sets = none := by
  cases o <;> first | rfl | simp [Op.isSend] at h

theorem phaseEntries_sends {ops : List Op} (h : ∀ o ∈ ops, o.isSend = true) :
    phaseEntries ops = 0 := by
  refine List.countP_eq_zero.mpr fun o ho => ?_
  simp [not_isPhase_of_send (h o ho)]

theorem phaseEntries_append (p q : List Op) :
    phaseEntries (p ++ q) = phaseEntries p + phaseEntries q := List.countP_append

theorem phasesLast_sends_append {p q : List Op} (hp : ∀ o ∈ p, o.isSend = true)
    (hq : PhasesLast q) : PhasesLast (p ++ q) := by
  refine List.pairwise_append.mpr ⟨?_, hq, ?_⟩
  · refine List.pairwise_iff_forall_sublist.mpr fun hsub hphase => ?_
    have hmem := hp _ (hsub.subset List.mem_cons_self)
    simp [not_isPhase_of_send hmem] at hphase
  · intro x hx y _ hphase
    simp [not_isPhase_of_send (hp x hx)] at hphase

/-- Each entry of a phase starts the watchdog. -/
theorem phaseEntries_le_starts (ops : List Op) :
    phaseEntries ops ≤ Countdown.starts (kinds ops) := by
  induction ops with
  | nil => exact Nat.le_refl _
  | cons o ops ih =>
    have ho : (if o.isPhase = true then 1 else 0) ≤ Countdown.starts o.kinds := by
      cases o with
      | act a => cases a <;> simp [Op.isPhase, Action.isPhase, Op.kinds, Action.kinds,
          Countdown.starts]
      | _ => simp [Op.isPhase]
    unfold phaseEntries at *
    rw [List.countP_cons, kinds_cons, Countdown.starts_append]
    omega

theorem inPhase_of_sets {a : Action} {s : StateOfSession} (h : a.sets = some s) :
    Runtime.inPhase s = a.isPhase := by
  cases a with
  | onEntryBalance sub => cases sub <;> simp [Action.sets] at h <;> subst h <;> rfl
  | onEntryQuorum sub => cases sub <;> simp [Action.sets] at h <;> subst h <;> rfl
  | onEntryPhase sub => cases sub <;> simp [Action.sets] at h <;> subst h <;> rfl
  | onEntrySafeMode => simp [Action.sets] at h; subst h; rfl
  | _ => simp [Action.sets] at h

theorem sets_of_isPhase {a : Action} (h : a.isPhase = true) :
    a.sets ≠ none ∧ a.resetsHandshake = true := by
  cases a with
  | onEntryPhase sub => cases sub <;> exact ⟨by simp [Action.sets], rfl⟩
  | _ => simp [Action.isPhase] at h

end Entries

/-! ## Rows of the table -/

section Rows

variable {m m' : Mode} {e : Event} {l : List Action}

theorem Mode.early_of_next (h : m.next e = some (m', l)) (hm : m'.early = true) :
    m.early = true :=
  of_rows (P := fun m _ m' _ => m'.early = true → m.early = true) (by decide) h hm

/-- What the list of an early transition adds. -/
theorem Mode.early_row (h : m.next e = some (m', l)) (hm : m'.early = true) :
    m.phases + phaseEntries (l.map .act) = m'.phases ∧ PhasesLast (l.map .act) ∧
      (m.phases ≠ 0 → ∀ o ∈ l.map Op.act, o.sets ≠ none → o.isPhase = true) ∧
      (e ≠ .quorumPhase → m ≠ .data →
        m.timeouts + Countdown.starts (kinds (l.map .act)) ≤
          m'.timeouts + if e = .timeout then 1 else 0) :=
  of_rows (P := fun m e m' l => m'.early = true →
    m.phases + phaseEntries (l.map .act) = m'.phases ∧ PhasesLast (l.map .act) ∧
      (m.phases ≠ 0 → ∀ o ∈ l.map Op.act, o.sets ≠ none → o.isPhase = true) ∧
      (e ≠ .quorumPhase → m ≠ .data →
        m.timeouts + Countdown.starts (kinds (l.map .act)) ≤
          m'.timeouts + if e = .timeout then 1 else 0)) (by decide) h hm

end Rows

/-! ## The invariant -/

/-- Before the output handshake. While no phase that the machine has begun is entered, the
timeouts that can come do not take it beyond the second, and no vote does; once one is entered,
the answers to the handshake are cleared, and only phases are still to be entered. -/
structure Early (m : Mode) (r : Runtime) : Prop where
  entries_le : phaseEntries r.pending ≤ m.phases
  order : PhasesLast r.pending
  lagging : phaseEntries r.pending = m.phases →
    r.timeouts ≤ m.timeouts ∧ Runtime.inPhase r.session.state = false ∧ .quorumPhase ∉ r.ahead
  entered : phaseEntries r.pending < m.phases →
    Runtime.inPhase r.session.state = true ∧ r.session.handshakeHash = ∅ ∧
      ∀ o ∈ r.pending, o.sets ≠ none → o.isPhase = true

section Steps

variable {ctx : AppContext} {cap : Option Nat} {m m' : Mode} {r r' : Runtime} {i : Label}

/-- A step that at most takes a send from the front of what is pending, and brings neither a
timeout nor a verdict of a phase, keeps the invariant. -/
theorem early_frame (h : Early m r) (hs : r'.session = r.session)
    (hp : r'.pending = r.pending ∨ ∃ o, o.isSend = true ∧ r.pending = o :: r'.pending)
    (hahead : .quorumPhase ∈ r'.ahead → .quorumPhase ∈ r.ahead)
    (ht : r'.timeouts ≤ r.timeouts) : Early m r' := by
  obtain ⟨p, hsends, hpending⟩ : ∃ p, (∀ o ∈ p, o.isSend = true) ∧ r.pending = p ++ r'.pending := by
    rcases hp with hp | ⟨o, ho, hp⟩
    · exact ⟨[], by simp, hp.symm⟩
    · exact ⟨[o], by simp [ho], hp⟩
  have hentries : phaseEntries r.pending = phaseEntries r'.pending := by
    rw [hpending, phaseEntries_append, phaseEntries_sends hsends, Nat.zero_add]
  refine ⟨by rw [← hentries]; exact h.entries_le, ?_, ?_, ?_⟩
  · have horder := h.order
    rw [hpending] at horder
    exact (List.pairwise_append.mp horder).2.1
  · intro hlag
    obtain ⟨hle, hphase, hno⟩ := h.lagging (hentries.trans hlag)
    exact ⟨ht.trans hle, hs ▸ hphase, fun hmem => hno (hahead hmem)⟩
  · intro hlt
    obtain ⟨hphase, hhash, hsets⟩ := h.entered (hentries ▸ hlt)
    refine ⟨hs ▸ hphase, hs ▸ hhash, fun o ho => hsets o ?_⟩
    rw [hpending]
    exact List.mem_append_right _ ho

/-- What a command makes of a session and of the events: no vote of a phase counts outside of
one, and no answer to a handshake counts in one. -/
theorem onCommand_phase (manager : NetworkManager) (epoch : UInt32) (session : UpdateSession)
    (c : FsmServiceCommand) :
    Countdown.starts (kinds (onCommand manager epoch session c).2.2) = 0 ∧
    (Runtime.inPhase session.state = false →
      .quorumPhase ∉ (onCommand manager epoch session c).2.2.filterMap Op.event) ∧
    (Runtime.inPhase session.state = true →
      (onCommand manager epoch session c).2.1.handshakeHash = session.handshakeHash) := by
  have ht := taken manager epoch session c
  generalize onCommand manager epoch session c = out at ht ⊢
  cases ht with
  | handshake hs he =>
    refine ⟨rfl, by simp [Op.event], fun hphase => ?_⟩
    rcases hs with hs | hs | hs <;> rw [hs] at hphase <;> cases hphase
  | @empty msg hs =>
    refine ⟨?_, fun hphase => ?_, fun _ => ?_⟩
    · rcases (quorumPhase_cases manager session (.emptyQueue msg)).2 with h2 | h2 <;>
        rw [h2] <;> rfl
    · rcases hs with hs | hs | hs <;> rw [hs] at hphase <;> cases hphase
    · exact quorumPhase_handshakes manager session msg
  | @emptySafe msg hs =>
    refine ⟨?_, fun _ => ?_, fun hphase => ?_⟩
    · rcases (quorumSafeMode_cases manager session (.emptyQueueSafe msg)).2 with h2 | h2 <;>
        rw [h2] <;> rfl
    · rcases (quorumSafeMode_cases manager session (.emptyQueueSafe msg)).2 with h2 | h2 <;>
        simp [h2, Op.event]
    · rw [hs] at hphase
      cases hphase
  | _ => exact ⟨rfl, by simp [Op.event], fun _ => rfl⟩

theorem early_command (h : Early m r) (ho : r.ops = []) (c : FsmServiceCommand) :
    Early m (r.afterCommand c (onCommand r.manager r.currentEpoch r.session c)) := by
  obtain ⟨hstate, hsends⟩ := onCommand_sends r.manager r.currentEpoch r.session c
  obtain ⟨hstarts, hevent, hhash⟩ := onCommand_phase r.manager r.currentEpoch r.session c
  generalize onCommand r.manager r.currentEpoch r.session c = out
    at hstate hsends hstarts hevent hhash ⊢
  have hpending := Runtime.pending_afterCommand ho c out
  have hentries : phaseEntries (r.afterCommand c out).pending = phaseEntries r.pending := by
    rw [hpending, phaseEntries_append, phaseEntries_sends hsends, Nat.zero_add]
  refine ⟨by rw [hentries]; exact h.entries_le, ?_, ?_, ?_⟩
  · rw [hpending]
    exact phasesLast_sends_append hsends h.order
  · intro hlag
    obtain ⟨hle, hphase, hno⟩ := h.lagging (hentries ▸ hlag)
    refine ⟨?_, hstate ▸ hphase, ?_⟩
    · unfold Runtime.timeouts Runtime.told at *
      rw [hpending, kinds_append, Countdown.credit_append, Countdown.starts_append, hstarts]
      rw [Countdown.credit_append] at hle
      show r.events.countP _ + (r.timer.credit (r.timerQueue.map _) + _) ≤ _
      omega
    · unfold Runtime.ahead at *
      rw [hpending, List.filterMap_append]
      have := hevent hphase
      simp only [List.mem_append, not_or] at hno ⊢
      exact ⟨hno.1, this, hno.2⟩
  · intro hlt
    obtain ⟨hphase, hempty, hsets⟩ := h.entered (hentries ▸ hlt)
    refine ⟨hstate ▸ hphase, (hhash hphase).trans hempty, fun o hmem hne => ?_⟩
    rw [hpending, List.mem_append] at hmem
    rcases hmem with hmem | hmem
    · exact absurd (sets_of_send (hsends o hmem)) hne
    · exact hsets o hmem hne

theorem early_act (h : Early m r) {a : Action} {rest : List Op} {now : Int64} {jitter : Fin 11}
    (ho : r.ops = .act a :: rest) :
    Early m (r.afterAct a rest
      (handleAction ctx r.manager r.currentEpoch r.session now jitter.val.toUInt32 a)) := by
  have hdone := handled ctx r.manager r.currentEpoch r.session now jitter.val.toUInt32 a
  have hsends := handleAction_sends ctx r.manager r.currentEpoch r.session now jitter.val.toUInt32 a
  have hkinds := handleAction_kinds ctx r.manager r.currentEpoch r.session now jitter.val.toUInt32 a
  generalize handleAction ctx r.manager r.currentEpoch r.session now jitter.val.toUInt32 a = out
    at hdone hsends hkinds ⊢
  obtain ⟨p, hpending, hout⟩ := Runtime.pending_afterAct ho
  have hpending' := hout out
  have hstate : (r.afterAct a rest out).session.state = a.sets.getD r.session.state := hdone.state
  have hbefore : phaseEntries r.pending = phaseEntries p + if a.isPhase = true then 1 else 0 := by
    rw [hpending]
    exact List.countP_cons
  have hafter : phaseEntries (r.afterAct a rest out).pending = phaseEntries p := by
    rw [hpending', phaseEntries_append, phaseEntries_sends hsends, Nat.zero_add]
  have hle := h.entries_le
  have horder := h.order
  rw [hpending] at horder
  obtain ⟨hfirst, horder⟩ := List.pairwise_cons.mp horder
  refine ⟨by rw [hafter]; omega, ?_, ?_, ?_⟩
  · rw [hpending']
    exact phasesLast_sends_append hsends horder
  · intro hlag
    have hphase : a.isPhase = false := by
      by_contra hphase
      simp only [Bool.not_eq_false] at hphase
      rw [hphase, if_pos rfl] at hbefore
      omega
    simp only [hphase, Bool.false_eq_true, if_false] at hbefore
    obtain ⟨htimeouts, hout', hno⟩ := h.lagging (by omega)
    refine ⟨?_, ?_, ?_⟩
    · unfold Runtime.timeouts Runtime.told at *
      rw [hpending', kinds_append, hkinds]
      rw [hpending] at htimeouts
      exact htimeouts
    · rw [hstate]
      rcases hsets : a.sets with _ | s
      · exact hout'
      · exact (inPhase_of_sets hsets).trans hphase
    · unfold Runtime.ahead at *
      rw [hpending', List.filterMap_append]
      rw [hpending] at hno
      simp only [List.mem_append, not_or] at hno ⊢
      refine ⟨hno.1, fun hmem => ?_, hno.2⟩
      obtain ⟨o, hmem, hevent⟩ := List.mem_filterMap.mp hmem
      cases o <;> simp only [Op.event, Option.some.injEq, reduceCtorEq] at hevent
      subst hevent
      have hverdict := (hdone.event _ hmem).2
      rcases quorumAlgorithm_cases ctx r.manager r.session with hq | hq | hq <;>
        rw [hq] at hverdict <;> cases hverdict
  · intro hlt
    rw [hafter] at hlt
    -- either a phase was entered before, or this is the entry of the first
    have hentered : Runtime.inPhase (a.sets.getD r.session.state) = true ∧
        (a.resetsHandshake = true ∨ r.session.handshakeHash = ∅) ∧
        ∀ o ∈ p, o.sets ≠ none → o.isPhase = true := by
      by_cases hphase : a.isPhase = true
      · obtain ⟨hne, hreset⟩ := sets_of_isPhase hphase
        obtain ⟨s, hs⟩ := Option.ne_none_iff_exists'.mp hne
        refine ⟨?_, .inl hreset, fun o hmem hset => hfirst o hmem hphase hset⟩
        rw [hs, Option.getD_some, inPhase_of_sets hs, hphase]
      · rw [if_neg hphase] at hbefore
        obtain ⟨hin, hhash, hsets⟩ := h.entered (by omega)
        rw [hpending] at hsets
        have hnone : a.sets = none := by
          by_contra hne
          exact hphase (hsets (.act a) List.mem_cons_self hne)
        refine ⟨?_, .inr hhash, fun o hmem => hsets o (List.mem_cons_of_mem _ hmem)⟩
        rw [hnone, Option.getD_none, hin]
    obtain ⟨hin, hhash, hsets⟩ := hentered
    refine ⟨by rw [hstate]; exact hin, ?_, fun o hmem hne => ?_⟩
    · show out.1.handshakeHash = ∅
      rw [hdone.handshakes]
      rcases hhash with hreset | hempty
      · rw [if_pos hreset]
      · rw [hempty, ite_self]
    · rw [hpending', List.mem_append] at hmem
      rcases hmem with hmem | hmem
      · exact absurd (sets_of_send (hsends o hmem)) hne
      · exact hsets o hmem hne

theorem early_advance (h : Early m r) {e : Event} {v : Nat} {rest : List (Event × Nat)}
    {l : List Action} (hb : r.outbox = none) (he : r.events = (e, v) :: rest)
    (hn : m.next e = some (m', l)) (hm : m'.early = true) :
    Early m' (r.advanced cap m m' rest l) := by
  obtain ⟨hphases, hlast, hsets, htimeouts⟩ := Mode.early_row hn hm
  have hpending := Runtime.pending_advanced cap hb m m' rest l
  have hentries : phaseEntries (r.advanced cap m m' rest l).pending =
      phaseEntries r.pending + phaseEntries (l.map .act) := by
    rw [hpending, phaseEntries_append]
  have hle := h.entries_le
  refine ⟨by rw [hentries]; omega, ?_, ?_, ?_⟩
  · rw [hpending]
    refine List.pairwise_append.mpr ⟨h.order, hlast, fun x hx y hy hphase hne => ?_⟩
    refine hsets ?_ y hy hne
    have hpos : 0 < phaseEntries r.pending := List.countP_pos_iff.mpr ⟨x, hx, hphase⟩
    omega
  · intro hlag
    obtain ⟨hbound, hphase, hno⟩ := h.lagging (by omega)
    have hverdict : e ≠ .quorumPhase := by
      rintro rfl
      exact hno (by simp [Runtime.ahead, he])
    have hcredit : phaseEntries r.pending ≤ r.timer.credit r.told := by
      refine (phaseEntries_le_starts r.pending).trans ?_
      unfold Runtime.told
      rw [Countdown.credit_append]
      omega
    have htaken : (r.events.countP fun e => e.1 == .timeout) =
        (rest.countP fun e => e.1 == .timeout) + if e = .timeout then 1 else 0 := by
      rw [he, List.countP_cons]
      simp
    refine ⟨?_, by rw [Runtime.advanced_session]; exact hphase, ?_⟩
    · have hnew : (r.advanced cap m m' rest l).timeouts =
          (rest.countP fun e => e.1 == .timeout) + (r.timer.credit r.told +
            Countdown.starts (kinds (l.map .act))) := by
        unfold Runtime.timeouts Runtime.told
        rw [hpending, kinds_append, ← List.append_assoc, Countdown.credit_append]
        simp
      have hdata : m ≠ .data := by
        rintro rfl
        -- two phases are to be entered, and with them no `Timeout` is left for the third
        have hlagging : phaseEntries r.pending = 2 := by
          have : Mode.data.phases = 2 := rfl
          omega
        have htimeout : e = .timeout := by
          cases e <;> simp only [Mode.next, reduceCtorEq] at hn <;>
            first | rfl | exact absurd rfl hverdict
        rw [if_pos htimeout] at htaken
        have : Mode.data.timeouts = 2 := rfl
        unfold Runtime.timeouts at hbound
        omega
      have := htimeouts hverdict hdata
      unfold Runtime.timeouts at hbound
      omega
    · unfold Runtime.ahead at *
      rw [hpending, Runtime.advanced_events]
      simp only [he, List.map_cons, List.mem_append, List.mem_cons, not_or,
        List.filterMap_append] at hno ⊢
      refine ⟨hno.1.2, hno.2, fun hmem => ?_⟩
      obtain ⟨o, hmem, hevent⟩ := List.mem_filterMap.mp hmem
      obtain ⟨a, -, rfl⟩ := List.mem_map.mp hmem
      cases hevent
  · intro hlt
    obtain ⟨hin, hhash, hold⟩ := h.entered (by omega)
    rw [Runtime.advanced_session]
    refine ⟨hin, hhash, fun o hmem hne => ?_⟩
    rw [hpending, List.mem_append] at hmem
    rcases hmem with hmem | hmem
    · exact hold o hmem hne
    · exact hsets (by omega) o hmem hne

/-- Every step that stays before the output handshake keeps the invariant. -/
theorem early_step (h : Early m r) (hops : .toFsm .timeout ∉ r.ops) (hm : m'.early = true)
    (hmove : Move ctx cap m r i m' r') : Early m' r' := by
  cases hmove with
  | command ho => exact early_command h ho _
  | act ho => exact early_act h ho
  | advance hb he hn => exact early_advance h hb he hn hm
  | @take _ visit l rest ho ha =>
    have hp := Runtime.pending_take ho ha { r.past with serving := visit }
    refine early_frame h rfl (.inl hp) ?_ ?_
    · unfold Runtime.ahead
      rw [hp]
      exact id
    · unfold Runtime.timeouts Runtime.told
      rw [hp]
  | @sendFsm _ e rest now jitter ho hr =>
    have hp := Runtime.pending_send ho (r.events ++ [(e, 0)]) r.timerQueue
    refine early_frame h rfl (.inr ⟨_, rfl, hp⟩) ?_ ?_
    · unfold Runtime.ahead
      rw [hp]
      simp [Op.event]
    · have hne : e ≠ .timeout := by
        rintro rfl
        exact hops (ho ▸ List.mem_cons_self)
      unfold Runtime.timeouts Runtime.told
      rw [hp]
      simp [List.countP_append, hne, Op.kinds]
  | @sendTimer _ e rest now jitter ho hr =>
    have hp := Runtime.pending_send ho r.events (r.timerQueue ++ [(e, r.past.serving)])
    refine early_frame h rfl (.inr ⟨_, rfl, hp⟩) ?_ ?_
    · unfold Runtime.ahead
      rw [hp]
      simp [Op.event]
    · unfold Runtime.timeouts Runtime.told
      rw [hp]
      simp [Op.kinds]
  | @output _ o rest now jitter ho hout =>
    have hp := Runtime.pending_send ho r.events r.timerQueue
    have hsend : o.isSend = true ∧ o.event = none ∧ o.kinds = [] := by
      cases o <;> first | exact ⟨rfl, rfl, rfl⟩ | cases hout
    refine early_frame h rfl (.inr ⟨o, hsend.1, hp⟩) ?_ ?_
    · unfold Runtime.ahead
      rw [hp]
      simp [hsend.2.1]
    · unfold Runtime.timeouts Runtime.told
      rw [hp]
      simp [hsend.2.2]
  | deliver hb hr =>
    have hp := Runtime.pending_deliver hb
    refine early_frame h rfl (.inl hp) ?_ ?_
    · unfold Runtime.ahead
      rw [hp]
      exact id
    · unfold Runtime.timeouts Runtime.told
      rw [hp]
  | @refuse _ e v rest hb he hn =>
    refine early_frame h rfl (.inl rfl) ?_ ?_
    · unfold Runtime.ahead
      rw [he]
      exact fun hmem => List.mem_cons_of_mem _ hmem
    · unfold Runtime.timeouts
      rw [he, List.countP_cons]
      show rest.countP _ + r.timer.credit r.told ≤ _
      omega
  | @receive _ c rest timer hq ht =>
    refine early_frame h rfl (.inl rfl) id ?_
    have hcredit := Countdown.credit_receive
      (q := rest.map (fun c => c.1.kind) ++ kinds r.pending) ht
    rw [timerCmd_kind] at hcredit
    unfold Runtime.timeouts Runtime.told
    rw [hq]
    show r.events.countP _ + timer.credit (rest.map _ ++ kinds r.pending) ≤ _
    exact Nat.add_le_add_left hcredit _
  | @expire _ timer out ht =>
    refine early_frame h rfl (.inl rfl) ?_ ?_
    · unfold Runtime.ahead
      show .quorumPhase ∈ (r.events ++ _).map Prod.fst ++ r.pending.filterMap Op.event → _
      cases out <;> simp
    · have hcredit := Countdown.credit_expire ht r.told
      have hcount : ((out.map (fun visit => (Event.timeout, visit))).toList).countP
          (fun e => e.1 == .timeout) = out.toList.length := by
        cases out <;> rfl
      unfold Runtime.timeouts
      show (r.events ++ _).countP _ + timer.credit r.told ≤ _
      rw [List.countP_append, hcount]
      omega
  | network => exact early_frame h rfl (.inl rfl) id (Nat.le_refl _)

end Steps

theorem early_start (cap : Option Nat) (manager : NetworkManager) :
    Early .init (Runtime.start cap manager) := by
  have hpending : (Runtime.start cap manager).pending =
      [.act (.onEntryBalance .initBalanceMode)] := by
    rw [Runtime.pending, queued_start]
    simp
  have hqueue : (Runtime.start cap manager).timerQueue = [] := by
    rw [start_eq, Runtime.sendActions_timerQueue]
    rfl
  have htimeouts : (Runtime.start cap manager).timeouts = 0 := by
    unfold Runtime.timeouts Runtime.told
    rw [hpending, hqueue]
    simp [Countdown.credit, Countdown.starts, Op.kinds, Action.kinds]
  constructor
  · rw [hpending]
    exact Nat.zero_le _
  · rw [hpending]
    exact List.pairwise_singleton ..
  · intro _
    refine ⟨htimeouts.le, by simp [UpdateSession.new, Runtime.inPhase], ?_⟩
    rw [Runtime.ahead, hpending]
    simp [Op.event]
  · rw [hpending]
    intro hlt
    exact absurd hlt (Nat.not_lt_zero _)

/-- In the monitor phase, at the latest, no answer to the handshake is left. -/
theorem handshakes_of_monitor {r : Runtime} (h : Early .monitor r) :
    r.session.handshakeHash = ∅ := by
  refine (h.entered ?_).2.1
  have hle := h.entries_le
  have hcredit : phaseEntries r.pending ≤ r.timeouts := by
    refine (phaseEntries_le_starts r.pending).trans ?_
    unfold Runtime.timeouts Runtime.told
    rw [Countdown.credit_append]
    omega
  by_contra hlag
  have heq : phaseEntries r.pending = Mode.monitor.phases := by omega
  have hbound := (h.lagging heq).1
  have hthree : Mode.monitor.phases = 3 := rfl
  have hzero : Mode.monitor.timeouts = 0 := rfl
  omega

end EdgeGateway.Fsm
