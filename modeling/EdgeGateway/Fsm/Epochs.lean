-- The order of the epochs in all that a runtime is going to send: what the hubs are
-- told of an epoch comes after the `NewEpoch` of it, in the channel to the service and
-- in what is still to be handled.
import EdgeGateway.Fsm.Pending
import EdgeGateway.Fsm.Service

namespace EdgeGateway.Fsm

open EdgeGateway.Lib EdgeGateway.Message EdgeGateway.Networks EdgeGateway.Quorum

/-! ## Epochs in what is to be sent -/

/-- The epoch that a message announces. Outside the balance mode `StateToHub` has
none. -/
def epochOf : HubMessage → Option UInt32
  | .handshakeToHub msg => some msg.balanceEpoch
  | .phaseNotification msg => some msg.epoch
  | .stateToHub msg => if msg.state = "balance" then some msg.balanceEpoch else none
  | _ => none

/-- The epoch that a response asks to store. -/
def FsmServiceResponse.stores : FsmServiceResponse → Option UInt32
  | .newEpoch epoch => some epoch
  | _ => none

/-- The epoch that a response announces. -/
def FsmServiceResponse.announced : FsmServiceResponse → Option UInt32
  | .toHub msg => epochOf msg
  | _ => none

/-- The state has an epoch. -/
def StateGlobal.epoch : StateGlobal → Option UInt32
  | .balanceMode epoch => some epoch
  | _ => none

/-- The action sends the epoch to the hubs. -/
def Action.announces : Action → Bool
  | .onEntryBalance .inHandshake => true
  | .onEntryBalance .outHandshake => true
  | .onEntryQuorum .repeatHandshakeIn => true
  | .onEntryQuorum .repeatHandshakeOut => true
  | .onEntryPhase _ => true
  | _ => false

namespace Op

def stores : Op → Option UInt32
  | .toCore response => response.stores
  | _ => none

/-- The epoch that the operation announces, or leaves to `edge_state`; an action still
to be handled announces the one of its time. -/
def announces (current : UInt32) : Op → Option UInt32
  | .toCore response => response.announced
  | .toEdgeState state => state.epoch
  | .act a => if a.announces then some current else none
  | _ => none

end Op

/-! ## Announced after it is stored -/

/-- The newest epoch once the operations have been executed. -/
def newestAfter (n : UInt32) (ops : List Op) : UInt32 := ops.foldl (fun n o => o.stores.getD n) n

/-- Each epoch that is to be announced is `ok` and not newer than what has been
stored before it, and each that is to be stored is newer than what was. -/
def Ordered (ok : UInt32 → Prop) (current : UInt32) : UInt32 → List Op → Prop
  | _, [] => True
  | n, o :: ops =>
    (∀ v, o.announces current = some v → ok v ∧ v ≤ n) ∧ (∀ v, o.stores = some v → n < v) ∧
      Ordered ok current (o.stores.getD n) ops

/-- The operations store nothing, and announce no epoch that is not `ok`. -/
def Quiet (ok : UInt32 → Prop) (current n : UInt32) (ops : List Op) : Prop :=
  ∀ o ∈ ops, o.stores = none ∧ ∀ v, o.announces current = some v → ok v ∧ v ≤ n

section Order

variable {ok : UInt32 → Prop} {current n : UInt32} {p q q' s : List Op}

theorem newestAfter_append (n : UInt32) (p q : List Op) :
    newestAfter n (p ++ q) = newestAfter (newestAfter n p) q := List.foldl_append

theorem ordered_append :
    Ordered ok current n (p ++ q) ↔
      Ordered ok current n p ∧ Ordered ok current (newestAfter n p) q := by
  induction p generalizing n with
  | nil => simp [Ordered, newestAfter]
  | cons o p ih =>
    simp only [List.cons_append, Ordered, newestAfter, List.foldl_cons, and_assoc]
    exact and_congr_right fun _ => and_congr_right fun _ => ih

theorem le_newestAfter (h : Ordered ok current n p) : n ≤ newestAfter n p := by
  induction p generalizing n with
  | nil => exact UInt32.le_refl n
  | cons o p ih =>
    obtain ⟨-, hstores, hrest⟩ := h
    have hle : n ≤ o.stores.getD n := by
      rcases hs : o.stores with _ | v
      · exact UInt32.le_refl n
      · exact UInt32.le_of_lt (hstores v hs)
    exact UInt32.le_trans hle (ih hrest)

theorem newestAfter_of_silent (h : ∀ o ∈ p, o.stores = none) : newestAfter n p = n := by
  induction p with
  | nil => rfl
  | cons o p ih =>
    simp only [newestAfter, List.foldl_cons, h o List.mem_cons_self, Option.getD_none]
    exact ih fun x hx => h x (List.mem_cons_of_mem _ hx)

theorem Quiet.newestAfter (h : Quiet ok current n p) : newestAfter n p = n :=
  newestAfter_of_silent fun o ho => (h o ho).1

theorem Quiet.ordered (h : Quiet ok current n p) : Ordered ok current n p := by
  induction p with
  | nil => trivial
  | cons o p ih =>
    obtain ⟨hnone, hann⟩ := h o List.mem_cons_self
    refine ⟨hann, fun v hv => by simp [hnone] at hv, ?_⟩
    rw [hnone, Option.getD_none]
    exact ih fun x hx => h x (List.mem_cons_of_mem _ hx)

/-- Operations that store nothing may give way to others that do not. -/
theorem ordered_replace (h : Ordered ok current n (p ++ (q ++ s)))
    (hq : ∀ o ∈ q, o.stores = none) (hq' : Quiet ok current (newestAfter n p) q') :
    Ordered ok current n (p ++ (q' ++ s)) ∧
      newestAfter n (p ++ (q' ++ s)) = newestAfter n (p ++ (q ++ s)) := by
  have hsame : newestAfter (newestAfter n p) q = newestAfter n p := newestAfter_of_silent hq
  obtain ⟨hp, hqs⟩ := ordered_append.mp h
  obtain ⟨-, hs⟩ := ordered_append.mp hqs
  rw [hsame] at hs
  refine ⟨ordered_append.mpr ⟨hp, ordered_append.mpr ⟨hq'.ordered, ?_⟩⟩, ?_⟩
  · rw [hq'.newestAfter]
    exact hs
  · simp only [newestAfter_append, hq'.newestAfter, hsame]

/-- Operations that come in order and store nothing are quiet. -/
theorem Ordered.quiet (h : Ordered ok current n p) (hp : ∀ o ∈ p, o.stores = none) :
    Quiet ok current n p := by
  induction p with
  | nil => exact fun o ho => absurd ho List.not_mem_nil
  | cons o p ih =>
    obtain ⟨hann, -, hrest⟩ := h
    have hnone := hp o List.mem_cons_self
    rw [hnone, Option.getD_none] at hrest
    intro x hx
    rcases List.mem_cons.mp hx with rfl | hx
    · exact ⟨hnone, hann⟩
    · exact ih hrest (fun y hy => hp y (List.mem_cons_of_mem _ hy)) x hx

theorem Ordered.mono {ok' : UInt32 → Prop} (h : Ordered ok current n p)
    (hok : ∀ v, ok v → ok' v) : Ordered ok' current n p := by
  induction p generalizing n with
  | nil => trivial
  | cons o p ih =>
    obtain ⟨hann, hstores, hrest⟩ := h
    exact ⟨fun v hv => ⟨hok v (hann v hv).1, (hann v hv).2⟩, hstores, ih hrest⟩

end Order

/-! ## What a step makes of the order -/

/-- The machine is between the handshakes of a balance, which it enters with an epoch. -/
def Mode.balancing : Mode → Bool
  | .init => false
  | .safeMode => false
  | .normal => false
  | _ => true

/-- Only the epoch leads into the balance, and only there it is announced. -/
theorem Mode.next_balancing {m m' : Mode} {e : Event} {l : List Action}
    (h : m.next e = some (m', l))
    (hb : m'.balancing = true ∨ ∃ a ∈ l, a.announces = true) :
    m.balancing = true ∨ e = .balanceEpochOk :=
  of_rows (P := fun m e m' l => (m'.balancing = true ∨ ∃ a ∈ l, a.announces = true) →
    m.balancing = true ∨ e = .balanceEpochOk) (by decide) h hb

section Steps

variable {ctx : AppContext} {cap : Option Nat} {m m' : Mode} {r r' : Runtime} {i : Label}

/-- An action stores nothing, and announces the epoch of its time. -/
theorem handleAction_epochs (ctx : AppContext) (manager : NetworkManager) (epoch : UInt32)
    (session : UpdateSession) (now : Int64) (jitter : UInt32) (a : Action) :
    ∀ o ∈ (handleAction ctx manager epoch session now jitter a).2,
      o.stores = none ∧ ∀ v, o.announces epoch = some v → a.announces = true ∧ v = epoch := by
  cases a with
  | onEntryBalance sub =>
    cases sub <;> simp [handleAction, onEntryInHandshake, onEntryOutHandshake, sendHandshake,
      initTimer, Op.stores, FsmServiceResponse.stores, Op.announces, FsmServiceResponse.announced,
      epochOf, Action.announces]
  | onEntryQuorum sub =>
    cases sub <;> simp [handleAction, onEntryRepeatHandshake, initTimer, Op.stores,
      FsmServiceResponse.stores, Op.announces, FsmServiceResponse.announced, epochOf,
      Action.announces]
  | onEntryPhase sub =>
    cases sub <;> simp [handleAction, onEntryAlert, onEntryData, onEntryMonitor, onEntryPhase,
      sendPhaseNotification, initTimer, Op.stores, FsmServiceResponse.stores, Op.announces,
      FsmServiceResponse.announced, epochOf, Action.announces]
  | onEntryNormal =>
    simp [handleAction, onEntryNormal, Op.stores, Op.announces, StateGlobal.epoch]
  | onEntrySafeMode =>
    simp [handleAction, onEntrySafeMode, initTimer, Op.stores, Op.announces, StateGlobal.epoch]
  | _ => simp [handleAction, Op.stores, Op.announces]

/-- Another command than an epoch is silent about epochs. -/
theorem onCommand_epochs (manager : NetworkManager) (epoch : UInt32) (session : UpdateSession)
    {c : FsmServiceCommand} (hc : ∀ e, c ≠ .epoch e) :
    (onCommand manager epoch session c).1 = epoch ∧
      ∀ o ∈ (onCommand manager epoch session c).2.2,
        o.stores = none ∧ o.announces epoch = none ∧ o.event ≠ some .balanceEpochOk := by
  have ht := taken manager epoch session c
  generalize onCommand manager epoch session c = out at ht ⊢
  cases ht with
  | silent => simp
  | handshake hs he => simp [Op.stores, Op.announces, Op.event]
  | empty hs =>
    refine ⟨rfl, ?_⟩
    rcases (quorumPhase_cases manager session (.emptyQueue ‹_›)).2 with h2 | h2 <;>
      simp [h2, Op.stores, Op.announces, Op.event]
  | emptySafe hs =>
    refine ⟨rfl, ?_⟩
    rcases (quorumSafeMode_cases manager session (.emptyQueueSafe ‹_›)).2 with h2 | h2 <;>
      simp [h2, Op.stores, Op.announces, Op.event]
  | errorEpoch => simp [Op.stores, Op.announces, Op.event]
  | epoch => exact absurd rfl (hc _)

/-- The machine has its epoch, or is going to be told that it has. -/
def Speaks (m : Mode) (r : Runtime) : Prop := m.balancing = true ∨ .balanceEpochOk ∈ r.ahead

/-- Only the command with the epoch makes the machine speak. -/
theorem speaks_step (hmove : Move ctx cap m r i m' r') (hi : ∀ e, i ≠ .command (.epoch e))
    (h : Speaks m' r') : Speaks m r := by
  unfold Speaks Runtime.ahead at h ⊢
  rw [List.mem_append] at h ⊢
  cases hmove with
  | @command _ c ho =>
    have hquiet := (onCommand_epochs r.manager r.currentEpoch r.session
      (fun e => fun hc => hi e (hc ▸ rfl) : ∀ e, c ≠ .epoch e)).2
    rw [Runtime.pending_afterCommand ho, List.filterMap_append, List.mem_append] at h
    rcases h with h | h | h | h
    · exact .inl h
    · exact .inr (.inl h)
    · obtain ⟨o, hmem, ho⟩ := List.mem_filterMap.mp h
      exact absurd ho (hquiet o hmem).2.2
    · exact .inr (.inr h)
  | @take _ visit _ _ ho ha =>
    rwa [Runtime.pending_take ho ha { r.past with serving := visit }] at h
  | @act _ a rest now jitter ho =>
    obtain ⟨p, hp, hout⟩ := Runtime.pending_afterAct ho
    rw [hout, List.filterMap_append, List.mem_append] at h
    rw [hp]
    rcases h with h | h | h | h
    · exact .inl h
    · exact .inr (.inl h)
    · obtain ⟨o, hmem, ho⟩ := List.mem_filterMap.mp h
      cases o <;> simp only [Op.event, Option.some.injEq, reduceCtorEq] at ho
      subst ho
      obtain ⟨-, hverdict⟩ := handleAction_event ctx _ _ _ now _ hmem
      rcases quorumAlgorithm_cases ctx r.manager r.session with hq | hq | hq <;>
        rw [hq] at hverdict <;> cases hverdict
    · exact .inr (.inr h)
  | @sendFsm _ e rest now jitter ho hr =>
    rw [Runtime.pending_send ho (r.events ++ [(e, 0)]) r.timerQueue, List.filterMap_cons]
    simp only [Op.event, List.mem_cons, List.map_append, List.mem_append, List.map_cons,
      List.map_nil, List.not_mem_nil, or_false] at h ⊢
    tauto
  | @sendTimer _ e rest now jitter ho hr =>
    rw [Runtime.pending_send ho r.events (r.timerQueue ++ [(e, r.past.serving)])]
    exact h
  | @output _ o rest now jitter ho hout =>
    rw [Runtime.pending_send ho r.events r.timerQueue]
    refine h.imp_right (Or.imp_right fun h => ?_)
    obtain ⟨x, hx, hev⟩ := List.mem_filterMap.mp h
    exact List.mem_filterMap.mpr ⟨x, List.mem_cons_of_mem _ hx, hev⟩
  | deliver hb hr => rwa [Runtime.pending_deliver hb] at h
  | refuse hb hev hn =>
    rw [hev, List.map_cons, List.mem_cons]
    exact h.imp_right (Or.imp_left Or.inr)
  | @advance _ _ e _ _ l hb hev hn =>
    rw [Runtime.advanced_events, Runtime.pending_advanced cap hb, List.filterMap_append,
      List.mem_append] at h
    rw [hev, List.map_cons, List.mem_cons]
    rcases h with h | h | h | h
    · exact (Mode.next_balancing hn (.inl h)).imp_right fun he => .inl (.inl he.symm)
    · exact .inr (.inl (.inr h))
    · exact .inr (.inr h)
    · obtain ⟨o, hmem, ho⟩ := List.mem_filterMap.mp h
      obtain ⟨a, -, rfl⟩ := List.mem_map.mp hmem
      cases ho
  | receive hq ht => exact h
  | @expire _ timer out ht =>
    rw [List.map_append, List.mem_append] at h
    rcases h with h | (h | h) | h
    · exact .inl h
    · exact .inr (.inl h)
    · cases out <;> simp at h
    · exact .inr (.inr h)
  | network => exact h

/-- Operations that store nothing give way, at the front of the pending ones, to others
that store nothing and announce nothing else. -/
def Replaces (r r' : Runtime) : Prop :=
  ∃ q q' s, r.pending = q ++ s ∧ r'.pending = q' ++ s ∧ (∀ o ∈ q, o.stores = none) ∧
    ∀ o ∈ q', o.stores = none ∧ ∀ v, o.announces r.currentEpoch = some v →
      ∃ x ∈ q, x.announces r.currentEpoch = some v

theorem replaces_of_eq (h : r'.pending = r.pending) : Replaces r r' :=
  ⟨[], [], r.pending, rfl, h, by simp, by simp⟩

theorem replaces_of_cons {o : Op} (ho : o.stores = none) (h : r.pending = o :: r'.pending) :
    Replaces r r' :=
  ⟨[o], [], r'.pending, h, rfl, by simp [ho], by simp⟩

/-- A step that is no epoch and sends nothing to the core replaces operations at the
front, or puts the list of a transition behind them. -/
theorem pending_step (hmove : Move ctx cap m r i m' r') (hi : ∀ e, i ≠ .command (.epoch e))
    (hcore : r.toCore i = []) :
    r'.currentEpoch = r.currentEpoch ∧
      (Replaces r r' ∨ ∃ e l, m.next e = some (m', l) ∧ e ∈ r.ahead ∧
        r'.pending = r.pending ++ l.map .act) := by
  cases hmove with
  | @command _ c ho =>
    obtain ⟨hepoch, hquiet⟩ := onCommand_epochs r.manager r.currentEpoch r.session
      (fun e => fun hc => hi e (hc ▸ rfl) : ∀ e, c ≠ .epoch e)
    refine ⟨hepoch, .inl ⟨[], _, r.pending, rfl, Runtime.pending_afterCommand ho _ _, by simp,
      fun o hmem => ⟨(hquiet o hmem).1, fun v hv => ?_⟩⟩⟩
    rw [(hquiet o hmem).2.1] at hv
    cases hv
  | take ho ha => exact ⟨rfl, .inl (replaces_of_eq (Runtime.pending_take ho ha _))⟩
  | @act _ a rest now jitter ho =>
    obtain ⟨p, hp, hout⟩ := Runtime.pending_afterAct ho
    refine ⟨rfl, .inl ⟨[.act a], _, p, hp, hout _, by simp [Op.stores], fun o hmem => ?_⟩⟩
    obtain ⟨hnone, hann⟩ := handleAction_epochs ctx r.manager r.currentEpoch r.session now
      jitter.val.toUInt32 a o hmem
    refine ⟨hnone, fun v hv => ⟨.act a, List.mem_singleton_self _, ?_⟩⟩
    obtain ⟨ha, rfl⟩ := hann v hv
    simp [Op.announces, ha]
  | sendFsm ho hr => exact ⟨rfl, .inl (replaces_of_cons rfl (Runtime.pending_send ho _ _))⟩
  | sendTimer ho hr => exact ⟨rfl, .inl (replaces_of_cons rfl (Runtime.pending_send ho _ _))⟩
  | @output _ o rest now jitter ho hout =>
    have hnone : o.stores = none := by
      cases o <;> simp [Runtime.toCore, ho] at hcore <;> rfl
    exact ⟨rfl, .inl (replaces_of_cons hnone (Runtime.pending_send ho _ _))⟩
  | deliver hb hr => exact ⟨rfl, .inl (replaces_of_eq (Runtime.pending_deliver hb))⟩
  | @advance _ _ e _ _ l hb hev hn =>
    refine ⟨?_, .inr ⟨e, l, hn, ?_, Runtime.pending_advanced cap hb m m' _ l⟩⟩
    · exact Runtime.advanced_currentEpoch ..
    · simp [Runtime.ahead, hev]
  | _ => exact ⟨rfl, .inl (replaces_of_eq rfl)⟩

/-- A replacement keeps the order, and the epoch at its end. -/
theorem Replaces.ordered {ok : UInt32 → Prop} {n : UInt32} {p : List Op} (h : Replaces r r')
    (hline : Ordered ok r.currentEpoch n (p ++ r.pending)) :
    Ordered ok r.currentEpoch n (p ++ r'.pending) ∧
      newestAfter n (p ++ r'.pending) = newestAfter n (p ++ r.pending) := by
  obtain ⟨q, q', s, hp, hp', hq, hq'⟩ := h
  rw [hp] at hline ⊢
  rw [hp']
  have hquiet := (ordered_append.mp (ordered_append.mp hline).2).1.quiet hq
  apply ordered_replace hline hq
  intro o ho
  obtain ⟨hnone, hann⟩ := hq' o ho
  refine ⟨hnone, fun v hv => ?_⟩
  obtain ⟨x, hx, hxv⟩ := hann v hv
  exact (hquiet x hx).2 v hxv

/-- What a step sends to the core was the first of the pending operations. -/
theorem pending_toCore {response : FsmServiceResponse} (hmove : Move ctx cap m r i m' r')
    (hcore : r.toCore i = [response]) :
    m' = m ∧ r'.currentEpoch = r.currentEpoch ∧ r.pending = .toCore response :: r'.pending := by
  cases hmove with
  | @output _ o rest now jitter ho hout =>
    cases o <;> simp [Runtime.toCore, ho] at hcore
    subst hcore
    exact ⟨rfl, rfl, Runtime.pending_send ho _ _⟩
  | act ho => simp [Runtime.toCore, ho] at hcore
  | sendFsm ho hr => simp [Runtime.toCore, ho] at hcore
  | sendTimer ho hr => simp [Runtime.toCore, ho] at hcore
  | _ => simp [Runtime.toCore] at hcore

end Steps

/-! ## The law of a runtime -/

namespace Live

/-- What the runtime has sent to the core and the service has not taken. -/
def sent (l : Live) : List Op := l.responses.map .toCore

/-- All that it is going to send, in order. -/
def line (l : Live) : List Op := l.sent ++ l.runtime.pending

/-- The epochs that `edge_state` has, is going to have, or is about to announce. -/
def edgeEpochs (l : Live) : List UInt32 :=
  l.toEdge.filterMap StateGlobal.epoch ++ l.edge.epoch.toList ++
    l.edgeSends.filterMap FsmServiceResponse.announced

/-- Over an epoch `n` that has left the runtime: what it announces is stored before,
and `ok`. -/
structure Keeps (ok : UInt32 → Prop) (n : UInt32) (l : Live) : Prop where
  line : Ordered ok l.runtime.currentEpoch n l.line
  edge : ∀ v ∈ l.edgeEpochs, ok v ∧ v ≤ newestAfter n l.sent
  silent : ∀ x ∈ l.edgeSends, x.stores = none
  speaks : ∃ m, l.runtime.state = m.state ∧ (Speaks m l.runtime →
    ok l.runtime.currentEpoch ∧ l.runtime.currentEpoch ≤ newestAfter n l.line)

/-- An epoch that `fsm` takes is not older than any that is stored or on its way, and
is not the last one. -/
def isCurrent (n : UInt32) (l : Live) : Label → Bool
  | .takeCommand =>
    match l.commands with
    | .epoch e :: _ => newestAfter n l.sent ≤ e ∧ e < 4294967295
    | _ => true
  | _ => true

section Law

variable {ctx : AppContext} {cap : Option Nat} {ok : UInt32 → Prop} {n : UInt32} {l l' : Live}
  {m m' : Mode} {r r' : Runtime} {i : Fsm.Label} {sent : List Op}

theorem keeps_spawn (ok : UInt32 → Prop) (n : UInt32) (cap : Option Nat)
    (manager : NetworkManager) : (spawn cap manager).Keeps ok n where
  line := by
    simp [Live.line, Live.sent, spawn, Runtime.pending, queued_start, Ordered, Op.announces,
      Action.announces, Op.stores]
  edge := by simp [edgeEpochs, spawn, StateGlobal.epoch]
  silent := by simp [spawn]
  speaks := by
    refine ⟨.init, state_start cap manager, fun h => ?_⟩
    simp [Speaks, Mode.balancing, Runtime.ahead, spawn, Runtime.pending, queued_start,
      Op.event] at h

/-- The order of what is to be sent, over one step that takes no epoch. -/
theorem line_step (hline : Ordered ok r.currentEpoch n (sent ++ r.pending))
    (hspeaks : Speaks m r →
      ok r.currentEpoch ∧ r.currentEpoch ≤ newestAfter n (sent ++ r.pending))
    (hmove : Move ctx cap m r i m' r') (hi : ∀ e, i ≠ .command (.epoch e))
    (hcore : r.toCore i = []) :
    Ordered ok r'.currentEpoch n (sent ++ r'.pending) ∧
      (Speaks m' r' →
        ok r'.currentEpoch ∧ r'.currentEpoch ≤ newestAfter n (sent ++ r'.pending)) := by
  have hback : Speaks m' r' → Speaks m r := speaks_step hmove hi
  obtain ⟨hepoch, hreplaces | ⟨e, acts, hn, he, hp'⟩⟩ := pending_step hmove hi hcore
  · obtain ⟨hordered, hsame⟩ := hreplaces.ordered hline
    rw [hepoch, hsame]
    exact ⟨hordered, fun h => hspeaks (hback h)⟩
  · -- an action that announces comes only when the machine speaks
    have hnew : Quiet ok r.currentEpoch (newestAfter n (sent ++ r.pending)) (acts.map .act) := by
      intro o ho
      obtain ⟨a, ha, rfl⟩ := List.mem_map.mp ho
      refine ⟨rfl, fun v hv => ?_⟩
      simp only [Op.announces, Option.ite_none_right_eq_some, Option.some.injEq] at hv
      obtain ⟨hannounces, rfl⟩ := hv
      apply hspeaks
      rcases Mode.next_balancing hn (.inr ⟨a, ha, hannounces⟩) with hb | rfl
      · exact .inl hb
      · exact .inr he
    rw [hp', hepoch, ← List.append_assoc, newestAfter_append, hnew.newestAfter]
    exact ⟨ordered_append.mpr ⟨hline, hnew.ordered⟩, fun h => hspeaks (hback h)⟩

/-- What has been sent does not depend on the epoch of the runtime. -/
theorem ordered_sent {current current' : UInt32} {responses : List FsmServiceResponse}
    (h : Ordered ok current n (responses.map .toCore)) :
    Ordered ok current' n (responses.map .toCore) := by
  induction responses generalizing n with
  | nil => trivial
  | cons x responses ih => exact ⟨h.1, h.2.1, ih h.2.2⟩

theorem lt_add_one {N e : UInt32} (h : N ≤ e) (he : e < 4294967295) : N < e + 1 := by
  rw [UInt32.lt_iff_toNat_lt] at he ⊢
  rw [UInt32.le_iff_toNat_le] at h
  rw [UInt32.toNat_add, Nat.mod_eq_of_lt]
  · simp
    omega
  · simp at he ⊢
    omega

theorem Keeps.mono {ok' : UInt32 → Prop} (h : l.Keeps ok n) (hok : ∀ v, ok v → ok' v) :
    l.Keeps ok' n where
  line := h.line.mono hok
  edge := fun v hv => ⟨hok v (h.edge v hv).1, (h.edge v hv).2⟩
  silent := h.silent
  speaks := by
    obtain ⟨m, hm, hspeaks⟩ := h.speaks
    exact ⟨m, hm, fun hs => ⟨hok _ (hspeaks hs).1, (hspeaks hs).2⟩⟩

/-- Actions still to be handled announce the epoch, and no other. -/
theorem quiet_queued {current : UInt32} (hok : ok current) (hle : current ≤ n) (r : Runtime) :
    Quiet ok current n (r.queued.flatMap fun q => q.2.map .act) := by
  intro o ho
  obtain ⟨q, -, ho⟩ := List.mem_flatMap.mp ho
  obtain ⟨a, -, rfl⟩ := List.mem_map.mp ho
  refine ⟨rfl, fun v hv => ?_⟩
  simp only [Op.announces, Option.ite_none_right_eq_some, Option.some.injEq] at hv
  exact hv.2 ▸ ⟨hok, hle⟩

/-- The epoch that `fsm` takes is stored before it is announced. -/
theorem keeps_epoch {e : UInt32} {rest : List FsmServiceCommand} (h : l.Keeps ok n)
    (hfresh : ∀ v, n < v → ok v) (ho : l.runtime.ops = []) (hm : l.runtime.state = m.state)
    (hle : newestAfter n l.sent ≤ e) (he : e < 4294967295) :
    { l with
      commands := rest
      runtime := l.runtime.afterCommand (.epoch e)
        (onCommand l.runtime.manager l.runtime.currentEpoch l.runtime.session
          (.epoch e)) }.Keeps ok n := by
  have hlt : newestAfter n l.sent < e + 1 := lt_add_one hle he
  have hsent := (ordered_append.mp h.line).1
  have hok : ok (e + 1) := hfresh _ (UInt32.lt_of_le_of_lt (le_newestAfter hsent) hlt)
  have hquiet : Quiet ok (e + 1) (e + 1) l.runtime.pending := by
    rw [Runtime.pending, ho, List.nil_append]
    exact quiet_queued hok (UInt32.le_refl _) l.runtime
  have hp := Runtime.pending_afterCommand ho (.epoch e)
    (onCommand l.runtime.manager l.runtime.currentEpoch l.runtime.session (.epoch e))
  refine ⟨?_, h.edge, h.silent, m, hm, fun _ => ⟨hok, ?_⟩⟩
  · unfold Live.line
    rw [hp]
    refine ordered_append.mpr ⟨ordered_sent hsent, ?_⟩
    simp only [onCommand, List.cons_append, List.nil_append, Ordered, Op.announces, Op.stores,
      FsmServiceResponse.stores, FsmServiceResponse.announced, StateGlobal.epoch,
      reduceCtorEq, Option.some.injEq, forall_eq', IsEmpty.forall_iff, implies_true, true_and]
    exact ⟨hlt, ⟨hok, UInt32.le_refl _⟩, hquiet.ordered⟩
  · unfold Live.line
    rw [hp, newestAfter_append]
    exact UInt32.le_of_eq (hquiet.newestAfter (n := e + 1)).symm

theorem keeps_takeCommand (h : l.Keeps ok n) (hfresh : ∀ v, n < v → ok v)
    (hcur : l.isCurrent n .takeCommand = true) (hs : l.takeCommand ctx cap = some l') :
    l'.Keeps ok n := by
  unfold Live.takeCommand at hs
  unfold isCurrent at hcur
  rcases hq : l.commands with _ | ⟨c, rest⟩
  · simp [hq] at hs
  · simp only [hq, Option.map_eq_some_iff] at hs hcur
    obtain ⟨runtime, hr, rfl⟩ := hs
    obtain ⟨m, hm, hspeaks⟩ := h.speaks
    obtain ⟨m', hm', hmove⟩ := Fsm.move_of_step hm hr
    by_cases hc : ∃ e, c = .epoch e
    · obtain ⟨e, rfl⟩ := hc
      simp only [Bool.decide_and, Bool.and_eq_true, decide_eq_true_eq] at hcur
      cases hmove with
      | command ho => exact keeps_epoch h hfresh ho hm hcur.1 hcur.2
    · have hi : ∀ e, Label.command c ≠ .command (.epoch e) :=
        fun e he => hc ⟨e, by injection he⟩
      obtain ⟨hline, hspeaks'⟩ := line_step h.line hspeaks hmove hi rfl
      exact ⟨hline, h.edge, h.silent, m', hm', hspeaks'⟩

theorem toCore_cases (r : Runtime) (i : Fsm.Label) :
    r.toCore i = [] ∨ ∃ x, r.toCore i = [x] := by
  cases i with
  | work now jitter =>
    unfold Runtime.toCore
    rcases r.ops with _ | ⟨o, rest⟩
    · exact .inl rfl
    · cases o with
      | toCore x => exact .inr ⟨x, rfl⟩
      | _ => exact .inl rfl
  | _ => exact .inl rfl

/-- What goes to `edge_state` was the first of the pending operations. -/
theorem pending_toEdge {s : StateGlobal} (h : s ∈ r.toEdge i) :
    ∃ rest, r.pending = .toEdgeState s :: rest := by
  unfold Runtime.toEdge at h
  split at h
  · split at h
    · rename_i ho
      obtain rfl := List.mem_singleton.mp h
      exact ⟨_, Runtime.pending_send ho r.events r.timerQueue⟩
    · cases h
  · cases h

theorem runtimeStep_some (h : l.runtimeStep ctx cap i = some l') :
    (∀ c, i ≠ .command c) ∧ ∃ runtime, (machine ctx cap).step l.runtime i = some runtime ∧
      l' = { l with
        runtime
        responses := l.responses ++ l.runtime.toCore i
        toEdge := l.toEdge ++ l.runtime.toEdge i } := by
  unfold runtimeStep at h
  split at h
  · cases h
  · obtain ⟨runtime, hr, rfl⟩ := Option.map_eq_some_iff.mp h
    exact ⟨‹_›, runtime, hr, rfl⟩

/-- An epoch that `edge_state` is given is announced in order. -/
theorem edge_runtime (h : l.Keeps ok n) (i : Fsm.Label) :
    ∀ v ∈ ({ l with toEdge := l.toEdge ++ l.runtime.toEdge i } : Live).edgeEpochs,
      ok v ∧ v ≤ newestAfter n l.sent := by
  intro v hv
  simp only [edgeEpochs, List.filterMap_append, List.mem_append] at hv
  have hold : v ∈ l.edgeEpochs → ok v ∧ v ≤ newestAfter n l.sent := h.edge v
  simp only [edgeEpochs, List.mem_append] at hold
  rcases hv with ((hv | hv) | hv) | hv
  · exact hold (.inl (.inl hv))
  · obtain ⟨s, hs, hsv⟩ := List.mem_filterMap.mp hv
    obtain ⟨rest, hp⟩ := pending_toEdge hs
    have hline := h.line
    unfold Live.line at hline
    rw [hp] at hline
    exact (ordered_append.mp hline).2.1 v hsv
  · exact hold (.inl (.inr hv))
  · exact hold (.inr hv)

theorem keeps_runtime (h : l.Keeps ok n) (hs : l.runtimeStep ctx cap i = some l') :
    l'.Keeps ok n := by
  obtain ⟨hi, runtime, hr, rfl⟩ := runtimeStep_some hs
  obtain ⟨m, hm, hspeaks⟩ := h.speaks
  obtain ⟨m', hm', hmove⟩ := Fsm.move_of_step hm hr
  have hedge := edge_runtime h i
  rcases toCore_cases l.runtime i with hcore | ⟨x, hcore⟩
  · obtain ⟨hline, hspeaks'⟩ := line_step h.line hspeaks hmove (fun e => hi _) hcore
    rw [hcore, List.append_nil]
    exact ⟨hline, hedge, h.silent, m', hm', hspeaks'⟩
  · -- the response goes from what is pending to what is sent
    obtain ⟨rfl, hepoch, hp⟩ := pending_toCore hmove hcore
    rw [hcore]
    have hline : l.line = (l.responses ++ [x]).map Op.toCore ++ runtime.pending := by
      simp [Live.line, Live.sent, hp]
    have hordered := h.line
    rw [hline, ← hepoch] at hordered
    have hgrow : newestAfter n l.sent ≤ newestAfter n ((l.responses ++ [x]).map Op.toCore) := by
      rw [List.map_append] at hordered ⊢
      rw [newestAfter_append]
      exact le_newestAfter (ordered_append.mp (ordered_append.mp hordered).1).2
    refine ⟨hordered, fun v hv => ?_, h.silent, m', hm', fun hspeak => ?_⟩
    · exact ⟨(hedge v hv).1, UInt32.le_trans (hedge v hv).2 hgrow⟩
    · have hkept := hspeaks (speaks_step hmove (fun e => hi _) hspeak)
      rw [hline, ← hepoch] at hkept
      exact hkept

/-! ### `edge_state` -/

theorem edgeTick_epochs (now : Int64) (jitter : Fin 6) (s : StateGlobal) :
    ∀ x ∈ Fsm.edgeTick ctx now jitter s,
      x.stores = none ∧ ∀ v, x.announced = some v → s.epoch = some v := by
  cases s <;> simp [Fsm.edgeTick, FsmServiceResponse.stores, FsmServiceResponse.announced, epochOf,
    StateGlobal.epoch]

theorem edgeState_epoch {s s' : StateGlobal} {v : UInt32} (h : (edgeState s s').epoch = some v) :
    s.epoch = some v ∨ s'.epoch = some v := by
  cases s'
  · exact .inl h
  all_goals exact .inr h

/-- What `edge_state` sends stores nothing. -/
theorem keeps_edgeSend {x : FsmServiceResponse} {rest : List FsmServiceResponse}
    (h : l.Keeps ok n) (hx : l.edgeSends = x :: rest) :
    { l with responses := l.responses ++ [x], edgeSends := rest }.Keeps ok n := by
  have hnone : x.stores = none := h.silent x (hx ▸ List.mem_cons_self)
  have hquiet : Quiet ok l.runtime.currentEpoch (newestAfter n l.sent) [.toCore x] := by
    intro o ho
    obtain rfl := List.mem_singleton.mp ho
    refine ⟨hnone, fun v hv => h.edge v ?_⟩
    refine List.mem_append_right _ (List.mem_filterMap.mpr ⟨x, ?_, hv⟩)
    exact hx ▸ List.mem_cons_self
  obtain ⟨hordered, hsame⟩ := ordered_replace (q := []) (s := l.runtime.pending) h.line
    (by simp) hquiet
  have hsent : newestAfter n ((l.responses ++ [x]).map Op.toCore) = newestAfter n l.sent := by
    rw [List.map_append, newestAfter_append]
    exact hquiet.newestAfter
  have hline : ({ l with responses := l.responses ++ [x], edgeSends := rest } : Live).line =
      l.sent ++ ([.toCore x] ++ l.runtime.pending) := by
    simp [Live.line, Live.sent]
  obtain ⟨m, hm, hspeaks⟩ := h.speaks
  refine ⟨?_, fun v hv => ?_, fun y hy => ?_, m, hm, fun hs => ?_⟩
  · rw [hline]
    exact hordered
  · unfold Live.sent
    rw [hsent]
    apply h.edge
    simp only [edgeEpochs, hx, List.filterMap_cons, List.mem_append] at hv ⊢
    refine hv.imp_right fun hv => ?_
    split
    · exact hv
    · exact List.mem_cons_of_mem _ hv
  · exact h.silent y (hx ▸ List.mem_cons_of_mem _ hy)
  · rw [hline, hsame]
    exact hspeaks hs

/-! ### Every step -/

theorem keeps_step {i : Label} (h : l.Keeps ok n) (hfresh : ∀ v, n < v → ok v)
    (hcur : l.isCurrent n i = true) (hs : l.step ctx cap i = some l') : l'.Keeps ok n := by
  cases i with
  | takeCommand => exact keeps_takeCommand h hfresh hcur hs
  | runtime i => exact keeps_runtime h hs
  | edgeTake =>
    rcases hsends : l.edgeSends with _ | ⟨x, sends⟩ <;> rcases hto : l.toEdge with _ | ⟨s, rest⟩ <;>
      simp only [step, hsends, hto, Option.some.injEq, reduceCtorEq] at hs
    subst hs
    refine ⟨h.line, fun v hv => h.edge v ?_, fun x hx => absurd hx List.not_mem_nil, h.speaks⟩
    simp only [edgeEpochs, hto, List.mem_append, List.mem_filterMap, Option.mem_toList,
      List.mem_cons] at hv ⊢
    rcases hv with (⟨y, hy, hyv⟩ | hv) | ⟨x, hx, -⟩
    · exact .inl (.inl ⟨y, .inr hy, hyv⟩)
    · rcases edgeState_epoch hv with hv | hv
      · exact .inl (.inr hv)
      · exact .inl (.inl ⟨s, .inl rfl, hv⟩)
    · exact absurd hx List.not_mem_nil
  | edgeTick now jitter =>
    rcases hsends : l.edgeSends with _ | ⟨x, sends⟩ <;>
      simp only [step, hsends, Option.some.injEq, reduceCtorEq] at hs
    subst hs
    refine ⟨h.line, fun v hv => h.edge v ?_, fun x hx => ?_, h.speaks⟩
    · simp only [edgeEpochs, List.mem_append, List.mem_filterMap, Option.mem_toList] at hv ⊢
      rcases hv with (hv | hv) | ⟨x, hx, hv⟩
      · exact .inl (.inl hv)
      · exact .inl (.inr hv)
      · exact .inl (.inr ((edgeTick_epochs now jitter l.edge x hx).2 v hv))
    · exact (edgeTick_epochs now jitter l.edge x hx).1
  | edgeSend =>
    rcases hsends : l.edgeSends with _ | ⟨x, sends⟩ <;>
      simp only [step, hsends, Option.some.injEq, reduceCtorEq] at hs
    exact hs ▸ keeps_edgeSend h hsends

/-- The service takes the first response. -/
theorem Keeps.forward {x : FsmServiceResponse} {rest : List FsmServiceResponse}
    (h : l.Keeps ok n) (hq : l.responses = x :: rest) :
    (∀ v, x.announced = some v → ok v ∧ v ≤ n) ∧ (∀ v, x.stores = some v → n < v) ∧
      { l with responses := rest }.Keeps ok (x.stores.getD n) := by
  obtain ⟨hordered, hedge, hsilent, hspeaks⟩ := h
  simp only [Live.line, Live.sent, hq, List.map_cons, List.cons_append] at hordered hedge hspeaks
  exact ⟨hordered.1, hordered.2.1, hordered.2.2, hedge, hsilent, hspeaks⟩

end Law

end Live

end EdgeGateway.Fsm
