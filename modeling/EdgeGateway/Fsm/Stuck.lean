-- The balancing protocol is never stuck. Each mode that waits for the
-- watchdog keeps it armed or has an event ahead that ends the mode, and
-- each check mode has its verdict ahead; a step keeps both.
import EdgeGateway.Fsm.Pending

namespace EdgeGateway.Fsm

open EdgeGateway.Lib EdgeGateway.Message EdgeGateway.Networks EdgeGateway.Quorum

/-! ## Kinds of modes -/

namespace Mode

/-- The entry of the mode starts the watchdog. -/
def timed : Mode → Bool
  | .init => false
  | .checkIn => false
  | .checkOut => false
  | .normal => false
  | _ => true

/-- The mode waits for the verdict of a quorum. -/
def checking : Mode → Bool
  | .checkIn => true
  | .checkOut => true
  | _ => false

/-- The state of the session that mirrors the mode. Normal sets none. -/
def session : Mode → StateOfSession
  | .init => .none
  | .inHandshake => .inHandshake
  | .checkIn => .quorum
  | .repeatIn => .repeatHandshake
  | .alert => .phaseAlert
  | .data => .phaseData
  | .monitor => .phaseMonitor
  | .outHandshake => .outHandshake
  | .checkOut => .quorum
  | .repeatOut => .repeatHandshake
  | .safeMode => .safeMode
  | .normal => .none

/-- The event ends the mode. -/
def Ends (m : Mode) (e : Event) : Prop := ∃ m' l, m.next e = some (m', l) ∧ m' ≠ m

theorem ends_timeout {m : Mode} (h : m.timed = true) : m.Ends .timeout := by
  cases m <;> first | exact ⟨_, _, rfl, by decide⟩ | simp [timed] at h

theorem ends_verdict {m : Mode} {e : Event} (h : m.checking = true)
    (he : e = .approveQuorum ∨ e = .notApproveQuorum ∨ e = .notApproveNotAttempts) :
    m.Ends e := by
  rcases he with rfl | rfl | rfl <;> cases m <;>
    first | exact ⟨_, _, rfl, by decide⟩ | simp [checking] at h

theorem ends_quorumPhase {m : Mode}
    (h : m.session = .phaseAlert ∨ m.session = .phaseData ∨ m.session = .phaseMonitor) :
    m.Ends .quorumPhase := by
  cases m <;> first | exact ⟨_, _, rfl, by decide⟩ | simp [session] at h

theorem ends_quorumSafeMode {m : Mode} (h : m.session = .safeMode) : m.Ends .quorumSafeMode := by
  cases m <;> first | exact ⟨_, _, rfl, by decide⟩ | simp [session] at h

/-! ## What a transition puts on its way -/

section Rows

variable {m m' : Mode} {e : Event} {l : List Action}

/-- A transition inside a mode neither sets the session nor speaks to the
watchdog. -/
theorem loop_silent (h : m.next e = some (m, l)) :
    ¬ Setting (l.map .act) ∧ kinds (l.map .act) = [] :=
  of_rows (P := fun m _ m' l => m' = m → ¬ Setting (l.map .act) ∧ kinds (l.map .act) = [])
    (by decide) h rfl

/-- The list that enters a timed mode starts the watchdog last. -/
theorem enter_timed (h : m.next e = some (m', l)) (hne : m' ≠ m) (ht : m'.timed = true) :
    Sealed (l.map .act) ∧ Countdown.settle false (kinds (l.map .act)) = true := by
  cases m <;> cases e <;> simp only [next, Option.some.injEq, Prod.mk.injEq, reduceCtorEq] at h <;>
    obtain ⟨rfl, rfl⟩ := h <;>
    first
    | exact absurd rfl hne
    | exact absurd ht (by decide)
    | simp [Sealed, Op.kinds, Action.kinds, Countdown.settle]

/-- The list that enters a mode brings the session to its mirror. -/
theorem enter_session (h : m.next e = some (m', l)) (hne : m' ≠ m) (hn : m' ≠ .normal)
    (s : StateOfSession) : sessionAfter s (l.map .act) = m'.session := by
  cases m <;> cases e <;> simp only [next, Option.some.injEq, Prod.mk.injEq, reduceCtorEq] at h <;>
    obtain ⟨rfl, rfl⟩ := h <;>
    first
    | exact absurd rfl hne
    | exact absurd rfl hn
    | rfl

/-- The list that enters a check mode holds the check. -/
theorem enter_checking (h : m.next e = some (m', l)) (hne : m' ≠ m) (hc : m'.checking = true) :
    ∃ a, .act a ∈ l.map Op.act ∧ a.checks = true := by
  obtain ⟨a, ha, hchecks⟩ := of_rows (P := fun m _ m' l => m' ≠ m → m'.checking = true →
    ∃ a ∈ l, a.checks = true) (by decide) h hne hc
  exact ⟨a, List.mem_map_of_mem ha, hchecks⟩

end Rows

end Mode

/-! ## The invariant -/

/-- The invariant that ties the mode to what is on its way. -/
structure Watched (m : Mode) (r : Runtime) : Prop where
  mirror : m ≠ .normal → sessionAfter r.session.state r.pending = m.session
  sealed : m.timed = true → Sealed r.pending
  armed : m.timed = true → r.timer.Armed r.told ∨ ∃ e ∈ r.ahead, m.Ends e
  judged : m.checking = true →
    (∃ e ∈ r.ahead, m.Ends e) ∨ ∃ a, .act a ∈ r.pending ∧ a.checks = true

/-- Where no event that ends the mode is lost, a mode that waits for its watchdog
still does, or is going to end. -/
theorem Watched.armed_kept {m : Mode} {r r' : Runtime} (h : Watched m r) (hm : m.timed = true)
    (ha : ∀ e ∈ r.ahead, m.Ends e → e ∈ r'.ahead) :
    r.timer.Armed r.told ∨ ∃ e ∈ r'.ahead, m.Ends e :=
  (h.armed hm).imp_right fun ⟨e, he, hends⟩ => ⟨e, ha e he hends, hends⟩

/-- A step that keeps the session, the pending operations, the watchdog and
what it is told, and loses no event that ends the mode, keeps the invariant. -/
theorem watched_frame {m : Mode} {r r' : Runtime} (h : Watched m r)
    (hs : r'.session.state = r.session.state) (hp : r'.pending = r.pending)
    (ha : ∀ e ∈ r.ahead, m.Ends e → e ∈ r'.ahead)
    (ht : m.timed = true → r.timer.Armed r.told →
      r'.timer.Armed r'.told ∨ ∃ e ∈ r'.ahead, m.Ends e) :
    Watched m r' where
  mirror := by rw [hs, hp]; exact h.mirror
  sealed := by rw [hp]; exact h.sealed
  armed := by
    intro hm
    rcases h.armed hm with h1 | ⟨e, he, hends⟩
    · exact ht hm h1
    · exact Or.inr ⟨e, ha e he hends, hends⟩
  judged := by
    intro hm
    rw [hp]
    rcases h.judged hm with ⟨e, he, hends⟩ | h1
    · exact Or.inl ⟨e, ha e he hends, hends⟩
    · exact Or.inr h1

section Steps

variable {ctx : AppContext} {cap : Option Nat} {m m' : Mode} {r r' : Runtime} {i : Label}

/-- While the mode lasts, no event that ends it is lost. -/
theorem ahead_kept (hmove : Move ctx cap m r i m' r') (hm : m' = m) :
    ∀ e ∈ r.ahead, m.Ends e → e ∈ r'.ahead := by
  intro e he hends
  simp only [Runtime.ahead, List.mem_append] at he ⊢
  cases hmove with
  | command ho =>
    rw [Runtime.pending_afterCommand ho, List.filterMap_append, List.mem_append]
    exact he.imp_right Or.inr
  | @take _ visit _ _ ho ha =>
    rwa [Runtime.pending_take ho ha { r.past with serving := visit }]
  | act ho =>
    obtain ⟨p, hp, hout⟩ := Runtime.pending_afterAct ho
    rw [hp] at he
    rw [hout, List.filterMap_append, List.mem_append]
    exact he.imp_right Or.inr
  | @sendFsm _ x _ _ _ ho hr =>
    rw [Runtime.pending_send ho (r.events ++ [(x, 0)]) r.timerQueue, List.filterMap_cons] at he
    simp only [Op.event, List.mem_cons, List.map_append, List.mem_append, List.map_cons,
      List.map_nil] at he ⊢
    tauto
  | @sendTimer _ x _ _ _ ho hr =>
    rw [Runtime.pending_send ho r.events (r.timerQueue ++ [(x, r.past.serving)])] at he
    exact he
  | @output _ o _ _ _ ho hout =>
    rw [Runtime.pending_send ho r.events r.timerQueue] at he
    cases o <;> first | exact he | simp [Op.isOutput] at hout
  | deliver hb hr => rwa [Runtime.pending_deliver hb]
  | refuse hb hev hn =>
    rw [hev, List.map_cons, List.mem_cons] at he
    rcases he with (rfl | he) | he
    · obtain ⟨m2, l2, h2, _⟩ := hends
      rw [hn] at h2
      simp at h2
    · exact Or.inl he
    · exact Or.inr he
  | advance hb hev hn =>
    subst hm
    rw [hev, List.map_cons, List.mem_cons] at he
    rw [Runtime.advanced_events, Runtime.pending_advanced cap hb, List.filterMap_append,
      List.mem_append]
    rcases he with (rfl | he) | he
    · obtain ⟨m2, l2, h2, hne⟩ := hends
      rw [hn, Option.some.injEq, Prod.mk.injEq] at h2
      exact absurd h2.1.symm hne
    · exact Or.inl he
    · exact Or.inr (Or.inl he)
  | receive hq ht => exact he
  | expire ht =>
    rw [List.map_append, List.mem_append]
    exact he.imp_left Or.inl
  | network => exact he

/-- A quorum over empty queues stops the watchdog; the event it sends ends
the mode, or the entry of the mode is still to come and starts it again. -/
theorem watched_command (h : Watched m r) (c : FsmServiceCommand) (ho : r.ops = [])
    (hahead : ∀ e ∈ r.ahead, m.Ends e →
      e ∈ (r.afterCommand c (onCommand r.manager r.currentEpoch r.session c)).ahead) :
    Watched m (r.afterCommand c (onCommand r.manager r.currentEpoch r.session c)) := by
  obtain ⟨hstate, hsends⟩ := onCommand_sends r.manager r.currentEpoch r.session c
  have ht := taken r.manager r.currentEpoch r.session c
  generalize onCommand r.manager r.currentEpoch r.session c = out
    at hstate hsends ht hahead ⊢
  generalize hr' : r.afterCommand c out = r' at hahead ⊢
  have hqueue : r'.timerQueue = r.timerQueue := hr' ▸ rfl
  have htimer : r'.timer = r.timer := hr' ▸ rfl
  have hsession : r'.session.state = r.session.state := hr' ▸ hstate
  have hpend : r'.pending = out.2.2 ++ r.pending := hr' ▸ Runtime.pending_afterCommand ho c out
  have htold : r'.told =
      r.timerQueue.map (fun c => c.1.kind) ++ (kinds out.2.2 ++ kinds r.pending) := by
    rw [Runtime.told, hpend, hqueue, kinds_append]
  have hmirror : m ≠ .normal → sessionAfter r'.session.state r'.pending = m.session := by
    intro hn
    rw [hpend, sessionAfter_append, sessionAfter_of_not_setting (not_setting_of_sends hsends),
      hsession]
    exact h.mirror hn
  refine ⟨hmirror, fun hm => hpend ▸ sealed_sends_append hsends (h.sealed hm), fun hm => ?_,
    fun hm => ?_⟩
  · rcases h.armed hm with h1 | ⟨e, he, hends⟩
    · -- only the two quorums over empty queues speak to the watchdog
      have hquiet : kinds out.2.2 = [] → r'.timer.Armed r'.told := by
        intro hk
        rw [htold, hk, List.nil_append, htimer]
        exact h1
      have hstop : ∀ ev : Event, (m.session = r.session.state → m.Ends ev) →
          out.2.2 = [.toFsm ev, .toTimer .stopTimer] →
          r'.timer.Armed r'.told ∨ ∃ e ∈ r'.ahead, m.Ends e := by
        intro ev hev hout
        by_cases hset : Setting r.pending
        · left
          rw [htold, ← List.append_assoc]
          exact Countdown.armed_of_settle _ (settle_of_sealed (h.sealed hm) hset)
        · right
          have hn : m ≠ .normal := by rintro rfl; simp [Mode.timed] at hm
          have := h.mirror hn
          rw [sessionAfter_of_not_setting hset] at this
          refine ⟨ev, ?_, hev this.symm⟩
          simp [Runtime.ahead, hpend, hout, Op.event]
      cases ht with
      | silent => exact Or.inl (hquiet rfl)
      | handshake hs he => exact Or.inl (hquiet rfl)
      | empty hs =>
        rcases (quorumPhase_cases r.manager r.session (.emptyQueue _)).2 with h2 | h2
        · exact Or.inl (hquiet (by rw [h2]; rfl))
        · exact hstop .quorumPhase (fun heq => Mode.ends_quorumPhase (heq ▸ hs)) h2
      | emptySafe hs =>
        rcases (quorumSafeMode_cases r.manager r.session (.emptyQueueSafe _)).2 with h2 | h2
        · exact Or.inl (hquiet (by rw [h2]; rfl))
        · exact hstop .quorumSafeMode (fun heq => Mode.ends_quorumSafeMode (heq ▸ hs)) h2
      | errorEpoch => exact Or.inl (hquiet rfl)
      | epoch => exact Or.inl (hquiet rfl)
    · exact Or.inr ⟨e, hahead e he hends, hends⟩
  · rcases h.judged hm with ⟨e, he, hends⟩ | ⟨a, ha, hc⟩
    · exact Or.inl ⟨e, hahead e he hends, hends⟩
    · exact Or.inr ⟨a, by rw [hpend]; exact List.mem_append_right _ ha, hc⟩

/-- Handling an action turns it into its sends. -/
theorem watched_act (h : Watched m r) {a : Action} {rest : List Op} (ho : r.ops = .act a :: rest)
    (now : Int64) (jitter : UInt32)
    (hahead : ∀ e ∈ r.ahead, m.Ends e → e ∈ (r.afterAct a rest
      (handleAction ctx r.manager r.currentEpoch r.session now jitter a)).ahead) :
    Watched m (r.afterAct a rest
      (handleAction ctx r.manager r.currentEpoch r.session now jitter a)) := by
  have hsends := handleAction_sends ctx r.manager r.currentEpoch r.session now jitter a
  have hkinds := handleAction_kinds ctx r.manager r.currentEpoch r.session now jitter a
  have hstate := handleAction_state ctx r.manager r.currentEpoch r.session now jitter a
  have hchecks := @handleAction_checks ctx r.manager r.currentEpoch r.session now jitter a
  generalize handleAction ctx r.manager r.currentEpoch r.session now jitter a = out
    at hsends hkinds hstate hchecks hahead ⊢
  generalize hr' : r.afterAct a rest out = r' at hahead ⊢
  obtain ⟨p, hp, hout⟩ := Runtime.pending_afterAct ho
  have hp' : r'.pending = out.2 ++ p := hr' ▸ hout out
  have hqueue : r'.timerQueue = r.timerQueue := hr' ▸ rfl
  have htimer : r'.timer = r.timer := hr' ▸ rfl
  have hsession : r'.session.state = a.sets.getD r.session.state := hr' ▸ hstate
  have htold : r'.told = r.told := by
    simp [Runtime.told, hp, hp', hqueue, hkinds, Op.kinds]
  refine ⟨fun hn => ?_, fun hm => ?_, fun hm => ?_, fun hm => ?_⟩
  · rw [hp', sessionAfter_append, sessionAfter_of_not_setting (not_setting_of_sends hsends),
      hsession]
    have := h.mirror hn
    rw [hp] at this
    exact this
  · rw [hp']
    have := h.sealed hm
    rw [hp] at this
    exact sealed_sends_append hsends this.2
  · rw [htold, htimer]
    exact h.armed_kept hm hahead
  · rcases h.judged hm with ⟨e, he, hends⟩ | ⟨b, hb, hc⟩
    · exact Or.inl ⟨e, hahead e he hends, hends⟩
    · rw [hp, List.mem_cons] at hb
      rcases hb with hb | hb
      · -- the check itself is handled, and its verdict ends the mode
        simp only [Op.act.injEq] at hb
        subst hb
        obtain ⟨e, he, hverdict⟩ := hchecks hc
        refine Or.inl ⟨e, ?_, Mode.ends_verdict hm hverdict⟩
        simp only [Runtime.ahead, hp', List.filterMap_append, List.mem_append, List.mem_filterMap]
        exact Or.inr (Or.inl ⟨_, he, rfl⟩)
      · exact Or.inr ⟨b, by rw [hp']; exact List.mem_append_right _ hb, hc⟩

/-- A send of `fsm` that arrives: an event, a command for the watchdog or
a message to another service. -/
theorem watched_send (h : Watched m r) {o : Op} {rest : List Op} (ho : r.ops = o :: rest)
    (hsend : o.isSend = true) {events timerQueue : List (Event × Nat)}
    (hahead : ∀ e ∈ r.ahead, m.Ends e →
      e ∈ ({ r with events, timerQueue, ops := rest } : Runtime).ahead)
    (hqueue : timerQueue.map (fun c => c.1.kind) =
      r.timerQueue.map (fun c => c.1.kind) ++ o.kinds) :
    Watched m { r with events, timerQueue, ops := rest } := by
  generalize hr' : ({ r with events, timerQueue, ops := rest } : Runtime) = r' at hahead ⊢
  have hqueue' : r'.timerQueue = timerQueue := hr' ▸ rfl
  have hsession : r'.session = r.session := hr' ▸ rfl
  have htimer : r'.timer = r.timer := hr' ▸ rfl
  have hp : r.pending = o :: r'.pending := hr' ▸ Runtime.pending_send ho events timerQueue
  have hsets : o.sets = none := by
    cases o with
    | act a => simp [Op.isSend] at hsend
    | _ => rfl
  have htold : r'.told = r.told := by
    simp [Runtime.told, hp, hqueue', hqueue]
  refine ⟨fun hn => ?_, fun hm => ?_, fun hm => ?_, fun hm => ?_⟩
  · have := h.mirror hn
    rw [hp] at this
    simpa [sessionAfter, hsets, hsession] using this
  · have := h.sealed hm
    rw [hp] at this
    exact this.2
  · rw [htold, htimer]
    exact h.armed_kept hm hahead
  · rcases h.judged hm with ⟨e, he, hends⟩ | ⟨b, hb, hc⟩
    · exact Or.inl ⟨e, hahead e he hends, hends⟩
    · rw [hp, List.mem_cons] at hb
      rcases hb with rfl | hb
      · simp [Op.isSend] at hsend
      · exact Or.inr ⟨b, hb, hc⟩

/-- A transition puts its list behind all that is pending. -/
theorem watched_advance (h : Watched m r) {e : Event} {rest : List (Event × Nat)}
    {l : List Action} (hb : r.outbox = none) (hn : m.next e = some (m', l))
    (hahead : m' = m → ∀ x ∈ r.ahead, m.Ends x → x ∈ (r.advanced cap m m' rest l).ahead) :
    Watched m' (r.advanced cap m m' rest l) := by
  have hp := Runtime.pending_advanced cap hb m m' rest l
  have hqueue := Runtime.advanced_timerQueue cap r m m' rest l
  have htimer := Runtime.advanced_timer cap r m m' rest l
  have hsession := Runtime.advanced_session cap r m m' rest l
  generalize r.advanced cap m m' rest l = r' at hahead hp hqueue htimer hsession ⊢
  have htold : r'.told = r.told ++ kinds (l.map .act) := by
    simp [Runtime.told, hp, hqueue]
  by_cases hne : m' = m
  · subst hne
    obtain ⟨hset, hk⟩ := Mode.loop_silent hn
    refine ⟨fun hm => ?_, fun hm => ?_, fun hm => ?_, fun hm => ?_⟩
    · rw [hp, sessionAfter_append, sessionAfter_of_not_setting hset, hsession]
      exact h.mirror hm
    · exact hp ▸ sealed_append_of_silent (h.sealed hm) hset hk
    · rw [htold, hk, List.append_nil, htimer]
      rcases h.armed hm with h1 | ⟨x, hx, hends⟩
      · exact Or.inl h1
      · exact Or.inr ⟨x, hahead rfl x hx hends, hends⟩
    · rcases h.judged hm with ⟨x, hx, hends⟩ | ⟨a, ha, hc⟩
      · exact Or.inl ⟨x, hahead rfl x hx hends, hends⟩
      · exact Or.inr ⟨a, by rw [hp]; exact List.mem_append_left _ ha, hc⟩
  · refine ⟨fun hm => ?_, fun hm => ?_, fun hm => ?_, fun hm => ?_⟩
    · rw [hp, sessionAfter_append]
      exact Mode.enter_session hn hne hm _
    · obtain ⟨h1, h2⟩ := Mode.enter_timed hn hne hm
      exact hp ▸ sealed_append_of_settle h1 h2
    · rw [htold]
      exact Or.inl (Countdown.armed_of_settle _ (Mode.enter_timed hn hne hm).2)
    · obtain ⟨a, ha, hc⟩ := Mode.enter_checking hn hne hm
      exact Or.inr ⟨a, by rw [hp]; exact List.mem_append_right _ ha, hc⟩

/-- Every step keeps the invariant. -/
theorem watched_step (h : Watched m r) (hmove : Move ctx cap m r i m' r') : Watched m' r' := by
  have hahead := ahead_kept hmove
  cases hmove with
  | command ho => exact watched_command h _ ho (hahead rfl)
  | @take _ visit _ _ ho ha =>
    have hp := Runtime.pending_take ho ha { r.past with serving := visit }
    exact watched_frame h rfl hp (hahead rfl) (fun _ ht => Or.inl (by rwa [Runtime.told, hp]))
  | act ho => exact watched_act h ho _ _ (hahead rfl)
  | sendFsm ho hr => exact watched_send h ho rfl (hahead rfl) (by simp [Op.kinds])
  | sendTimer ho hr => exact watched_send h ho rfl (hahead rfl) (by simp [Op.kinds])
  | @output _ o _ _ _ ho hout =>
    refine watched_send h ho ?_ (hahead rfl) ?_
    · cases o <;> simp_all [Op.isSend, Op.isOutput]
    · cases o <;> simp_all [Op.kinds, Op.isOutput]
  | deliver hb hr =>
    have hp := Runtime.pending_deliver hb
    exact watched_frame h rfl hp (hahead rfl) (fun _ ht => Or.inl (by rwa [Runtime.told, hp]))
  | refuse hb he hn => exact watched_frame h rfl rfl (hahead rfl) (fun _ ht => Or.inl ht)
  | advance hb he hn => exact watched_advance h hb hn hahead
  | receive hq ht =>
    refine watched_frame h rfl rfl (hahead rfl) (fun _ ha => Or.inl ?_)
    simp only [Runtime.told, hq, List.map_cons, List.cons_append] at ha
    rw [← timerCmd_kind] at ha
    exact Countdown.armed_receive ha ht
  | @expire _ timer out ht =>
    refine watched_frame h rfl rfl (hahead rfl) ?_
    intro hm _
    rcases out with _ | visit
    · -- no room: the expiry is still to be delivered
      left
      obtain ⟨_, a, rfl⟩ := Countdown.expire_none ht
      trivial
    · exact Or.inr ⟨.timeout, by simp [Runtime.ahead], Mode.ends_timeout hm⟩
  | network => exact watched_frame h rfl rfl (hahead rfl) (fun _ ha => Or.inl ha)

theorem watched_start (manager : NetworkManager) : Watched .init (Runtime.start cap manager) where
  mirror := by
    intro _
    rw [start_eq, Runtime.sendActions_session, Runtime.pending_sendActions rfl]
    rfl
  sealed := by simp [Mode.timed]
  armed := by simp [Mode.timed]
  judged := by simp [Mode.checking]

end Steps

/-- In every run the machine is in a mode that is watched. -/
theorem watched_run {ctx : AppContext} {cap : Option Nat} {t : List (Runtime × Label)}
    {r : Runtime} (run : (machine ctx cap).Run t r) :
    ∃ m : Mode, r.state = m.state ∧ Watched m r := by
  refine run.always (fun r => ∃ m : Mode, r.state = m.state ∧ Watched m r) ?_ ?_
  · rintro r ⟨manager, rfl⟩
    exact ⟨.init, state_start _ _, watched_start manager⟩
  · rintro r i r' ⟨m, hm, hw⟩ h
    obtain ⟨m', hm', hmove⟩ := move_of_step hm h
    exact ⟨m', hm', watched_step hw hmove⟩

/-! ## Waiting for the epoch -/

/-- The command answers `GetEpoch`. -/
def FsmServiceCommand.answers : FsmServiceCommand → Bool
  | .errorEpoch => true
  | .epoch _ => true
  | _ => false

/-- `fsm` has sent `GetEpoch` in the run. -/
def Asked (t : List (Runtime × Label)) : Prop :=
  ∃ p ∈ t, p.1.ops.head? = some (.toCore .getEpoch) ∧ ∃ now jitter, p.2 = .work now jitter

/-- `fsm` has taken no answer to `GetEpoch` in the run. -/
def Unanswered (t : List (Runtime × Label)) : Prop :=
  ∀ p ∈ t, ∀ c, p.2 = .command c → c.answers = false

/-- In `InitBalanceMode` the question is asked or on its way, and an answer
that was taken has its event ahead. -/
structure Waits (t : List (Runtime × Label)) (r : Runtime) : Prop where
  asked : .act (.onEntryBalance .initBalanceMode) ∈ r.pending ∨ .toCore .getEpoch ∈ r.pending ∨
    Asked t
  unanswered : Unanswered t ∨ ∃ e ∈ r.ahead, Mode.init.Ends e

/-- No transition leads back to `InitBalanceMode`. -/
theorem Mode.next_ne_init {m : Mode} {e : Event} {l : List Action} :
    m.next e ≠ some (.init, l) :=
  fun h => of_rows (P := fun _ _ m' _ => m' ≠ .init) (by decide) h rfl

section Waiting

variable {ctx : AppContext} {cap : Option Nat} {m : Mode} {r r' : Runtime} {i : Label}
  {t : List (Runtime × Label)}

theorem asked_snoc (h : Asked t) (p : Runtime × Label) : Asked (t ++ [p]) := by
  obtain ⟨q, hq, hs⟩ := h
  exact ⟨q, List.mem_append_left _ hq, hs⟩

/-- The question stays on its way until it is asked. -/
theorem asked_step (hmove : Move ctx cap .init r i .init r')
    (h : .act (.onEntryBalance .initBalanceMode) ∈ r.pending ∨ .toCore .getEpoch ∈ r.pending ∨
      Asked t) :
    .act (.onEntryBalance .initBalanceMode) ∈ r'.pending ∨ .toCore .getEpoch ∈ r'.pending ∨
      Asked (t ++ [(r, i)]) := by
  rcases h with h | h | h
  · rcases pending_kept hmove h with h | ⟨rest, now, jitter, ho, rfl, hsends⟩
    · exact Or.inl h
    · exact Or.inr (Or.inl (hsends _ rfl _ (List.mem_singleton_self _)))
  · rcases pending_kept hmove h with h | ⟨rest, now, jitter, ho, rfl, -⟩
    · exact Or.inr (Or.inl h)
    · exact Or.inr (Or.inr ⟨_, List.mem_append_right _ (List.mem_singleton_self _),
        by rw [ho]; rfl, now, jitter, rfl⟩)
  · exact Or.inr (Or.inr (asked_snoc h _))

/-- An answer that `fsm` takes puts its event ahead. -/
theorem unanswered_step (hmove : Move ctx cap .init r i .init r')
    (h : Unanswered t ∨ ∃ e ∈ r.ahead, Mode.init.Ends e) :
    Unanswered (t ++ [(r, i)]) ∨ ∃ e ∈ r'.ahead, Mode.init.Ends e := by
  rcases h with h | ⟨e, he, hends⟩
  · by_cases hans : ∃ c, i = .command c ∧ c.answers = true
    · obtain ⟨c, rfl, hc⟩ := hans
      right
      cases hmove with
      | command ho =>
        have hnew : ∀ e, .toFsm e ∈ (onCommand r.manager r.currentEpoch r.session c).2.2 →
            e ∈ (r.afterCommand c (onCommand r.manager r.currentEpoch r.session c)).ahead := by
          intro e he
          rw [Runtime.ahead, Runtime.pending_afterCommand ho, List.filterMap_append]
          refine List.mem_append_right _ (List.mem_append_left _ ?_)
          exact List.mem_filterMap.mpr ⟨_, he, rfl⟩
        cases c with
        | errorEpoch =>
          exact ⟨.balanceEpochNotOk, hnew _ List.mem_cons_self, _, _, rfl, by decide⟩
        | epoch e => exact ⟨.balanceEpochOk, hnew _ List.mem_cons_self, _, _, rfl, by decide⟩
        | _ => simp [FsmServiceCommand.answers] at hc
    · left
      intro p hp c hpc
      rcases List.mem_append.mp hp with hp | hp
      · exact h p hp c hpc
      · rw [List.mem_singleton] at hp
        subst hp
        exact Bool.eq_false_iff.mpr fun hc => hans ⟨c, hpc, hc⟩
  · exact Or.inr ⟨e, ahead_kept hmove rfl e he hends, hends⟩

end Waiting

/-- While the machine is in `InitBalanceMode`, the epoch is awaited. -/
theorem waits_run {ctx : AppContext} {cap : Option Nat} {t : List (Runtime × Label)}
    {r : Runtime} (run : (machine ctx cap).Run t r) :
    ∃ m : Mode, r.state = m.state ∧ (m = .init → Waits t r) := by
  refine run.history (fun t r => ∃ m : Mode, r.state = m.state ∧ (m = .init → Waits t r))
    ?_ ?_
  · rintro r ⟨manager, rfl⟩
    refine ⟨.init, state_start _ _, fun _ => ⟨Or.inl ?_, Or.inl ?_⟩⟩
    · rw [start_eq, Runtime.pending_sendActions rfl]
      exact List.mem_append_right _ (List.mem_singleton_self _)
    · intro p hp
      simp at hp
  · rintro t r i r' ⟨m, hm, hw⟩ h
    obtain ⟨m', hm', hmove⟩ := move_of_step hm h
    refine ⟨m', hm', ?_⟩
    rintro rfl
    have hinit : m = .init := by
      cases hmove with
      | advance hb he hn => exact absurd hn Mode.next_ne_init
      | _ => rfl
    subst hinit
    exact ⟨asked_step hmove (hw rfl).asked, unanswered_step hmove (hw rfl).unanswered⟩

/-- Over unbounded channels the watchdog never waits for room. -/
theorem not_firing_run {ctx : AppContext} {t : List (Runtime × Label)} {r : Runtime}
    (run : (machine ctx none).Run t r) (a : Nat) : r.timer ≠ .firing a := by
  refine (run.always (fun r => (∃ m : Mode, r.state = m.state) ∧ ∀ a, r.timer ≠ .firing a)
    ?_ ?_).2 a
  · rintro r ⟨manager, rfl⟩
    exact ⟨⟨.init, state_start _ _⟩, fun a => by simp⟩
  · rintro r i r' ⟨⟨m, hm⟩, hr⟩ h
    obtain ⟨m', hm', hmove⟩ := move_of_step hm h
    refine ⟨⟨m', hm'⟩, fun a => ?_⟩
    cases hmove with
    | receive hq ht => exact Countdown.receive_ne_firing ht a
    | @expire _ timer out ht =>
      rcases out with _ | v
      · exact absurd (Countdown.expire_none ht).1 (by simp)
      · simp [(Countdown.expire_some ht).2.1]
    | advance hb he hn =>
      rw [Runtime.advanced_timer]
      exact hr a
    | _ => exact hr a

/-! ## The law -/

/-- With nothing on its way, the machine is in normal operation, waits for
the epoch it has asked for, or the countdown of its watchdog is running. -/
theorem the_protocol_is_never_stuck (ctx : AppContext) (t : List (Runtime × Label)) (r : Runtime)
    (run : (machine ctx none).Run t r) (hevents : r.events = []) (houtbox : r.outbox = none)
    (hactions : r.actions = []) (htimer : r.timerQueue = []) (hops : r.ops = []) :
    r.state.globalState = .normal ∨
    (r.state.globalState = .balanceMode 0 ∧ r.state.balance = some .initBalanceMode ∧
      Asked t ∧ Unanswered t) ∨
    r.timer.isRunning = true := by
  obtain ⟨m, hm, hw⟩ := watched_run run
  obtain ⟨m2, hm2, hwait⟩ := waits_run run
  obtain rfl : m = m2 := Mode.state_injective (hm.symm.trans hm2)
  have hpending : r.pending = [] := by simp [Runtime.pending, Runtime.queued, *]
  have hahead : r.ahead = [] := by simp [Runtime.ahead, *]
  have htold : r.told = [] := by simp [Runtime.told, *]
  by_cases htimed : m.timed = true
  · right; right
    rcases hw.armed htimed with h | ⟨e, he, _⟩
    · rw [htold] at h
      have hidle := Countdown.ne_idle_of_armed_nil h
      have hfiring := not_firing_run run
      rcases hc : r.timer with _ | _ | _ | a <;> simp_all [Countdown.isRunning]
    · simp [hahead] at he
  · by_cases hchecking : m.checking = true
    · rcases hw.judged hchecking with ⟨e, he, _⟩ | ⟨a, ha, _⟩
      · simp [hahead] at he
      · simp [hpending] at ha
    · cases m with
      | init =>
        obtain ⟨hasked, hun⟩ := hwait rfl
        rw [hpending] at hasked
        rw [hahead] at hun
        refine Or.inr (Or.inl ⟨by rw [hm]; rfl, by rw [hm]; rfl, ?_, ?_⟩)
        · simpa using hasked
        · simpa using hun
      | normal => exact Or.inl (by rw [hm]; rfl)
      | _ => simp [Mode.timed, Mode.checking] at htimed hchecking

/-- The runtime of an empty cache once `InHandshake` is entered. -/
def quietRuntime : Runtime :=
  ((machine sampleContext none).final (Runtime.start none (NetworkManager.newEmpty "edge"))
    toInHandshake).get (by decide +kernel)

theorem never_stuck_in_handshake :
    quietRuntime.state.globalState = .normal ∨
    (quietRuntime.state.globalState = .balanceMode 0 ∧
      quietRuntime.state.balance = some .initBalanceMode ∧
      Asked ((machine sampleContext none).trace (Runtime.start none (NetworkManager.newEmpty "edge"))
        toInHandshake) ∧
      Unanswered ((machine sampleContext none).trace
        (Runtime.start none (NetworkManager.newEmpty "edge")) toInHandshake)) ∨
    quietRuntime.timer.isRunning = true :=
  the_protocol_is_never_stuck sampleContext _ quietRuntime
    (Machine.run_of_final toInHandshake (init_start _ _ _) (by decide +kernel))
    (by decide +kernel) (by decide +kernel) (by decide +kernel) (by decide +kernel)
    (by decide +kernel)

end EdgeGateway.Fsm
