-- The state machine seen flat. Twelve modes are all the states it reaches
-- after `Start`, and one table says where each event leads and which
-- actions go with it. `step_mode` ties the table to `FsmState.step`.
import EdgeGateway.Fsm.Domain

namespace EdgeGateway.Fsm

/-- The states that the machine can be in once it has started. -/
inductive Mode where
  | init
  | inHandshake
  | checkIn
  | repeatIn
  | alert
  | data
  | monitor
  | outHandshake
  | checkOut
  | repeatOut
  | safeMode
  | normal
  deriving Repr, DecidableEq

namespace Mode

/-- The hierarchical state behind a mode. -/
def state : Mode → FsmState
  | .init => ⟨.balanceMode 0, some .initBalanceMode, none, none⟩
  | .inHandshake => ⟨.balanceMode 0, some .inHandshake, none, none⟩
  | .checkIn => ⟨.balanceMode 0, some .quorum, some .checkQuorumIn, none⟩
  | .repeatIn => ⟨.balanceMode 0, some .quorum, some .repeatHandshakeIn, none⟩
  | .alert => ⟨.balanceMode 0, some .phase, none, some .alert⟩
  | .data => ⟨.balanceMode 0, some .phase, none, some .data⟩
  | .monitor => ⟨.balanceMode 0, some .phase, none, some .monitor⟩
  | .outHandshake => ⟨.balanceMode 0, some .outHandshake, none, none⟩
  | .checkOut => ⟨.balanceMode 0, some .quorum, some .checkQuorumOut, none⟩
  | .repeatOut => ⟨.balanceMode 0, some .quorum, some .repeatHandshakeOut, none⟩
  | .safeMode => ⟨.safeMode, none, none, none⟩
  | .normal => ⟨.normal, none, none, none⟩

/-- Where an event leads from a mode, and the actions of the way. -/
def next : Mode → Event → Option (Mode × List Action)
  | .init, .balanceEpochOk => some (.inHandshake, [.onEntryBalance .inHandshake])
  | .init, .balanceEpochNotOk => some (.safeMode, [.onEntrySafeMode])
  | .inHandshake, .timeout =>
    some (.checkIn, [.onEntryBalance .quorum, .onEntryQuorum .checkQuorumIn])
  | .inHandshake, .newMessageHandshake => some (.inHandshake, [.calculateQuorum])
  | .inHandshake, .approveQuorum =>
    some (.alert, [.stopTimer, .onEntryBalance .phase, .onEntryPhase .alert])
  | .inHandshake, .notApproveQuorum => some (.inHandshake, [])
  | .checkIn, .notApproveQuorum => some (.repeatIn, [.onEntryQuorum .repeatHandshakeIn])
  | .checkIn, .approveQuorum =>
    some (.alert, [.stopTimer, .onEntryBalance .phase, .onEntryPhase .alert])
  | .checkIn, .notApproveNotAttempts => some (.safeMode, [.onEntrySafeMode])
  | .repeatIn, .timeout => some (.checkIn, [.onEntryQuorum .checkQuorumIn])
  | .repeatIn, .newMessageHandshake => some (.repeatIn, [.calculateQuorum])
  | .repeatIn, .approveQuorum =>
    some (.alert, [.stopTimer, .onEntryBalance .phase, .onEntryPhase .alert])
  | .repeatIn, .notApproveQuorum => some (.repeatIn, [])
  | .alert, .timeout => some (.data, [.stopTimer, .onEntryPhase .data])
  | .alert, .quorumPhase => some (.data, [.stopTimer, .onEntryPhase .data])
  | .data, .timeout => some (.monitor, [.stopTimer, .onEntryPhase .monitor])
  | .data, .quorumPhase => some (.monitor, [.stopTimer, .onEntryPhase .monitor])
  | .monitor, .timeout => some (.outHandshake,
    [.stopSendHeartbeatMessagePhase, .stopTimer, .onEntryBalance .outHandshake])
  | .monitor, .quorumPhase => some (.outHandshake,
    [.stopSendHeartbeatMessagePhase, .stopTimer, .onEntryBalance .outHandshake])
  | .outHandshake, .timeout =>
    some (.checkOut, [.onEntryBalance .quorum, .onEntryQuorum .checkQuorumOut])
  | .outHandshake, .newMessageHandshake => some (.outHandshake, [.calculateQuorum])
  | .outHandshake, .approveQuorum => some (.normal, [.stopTimer, .onEntryNormal])
  | .outHandshake, .notApproveQuorum => some (.outHandshake, [])
  | .checkOut, .notApproveQuorum => some (.repeatOut, [.onEntryQuorum .repeatHandshakeOut])
  | .checkOut, .approveQuorum => some (.normal, [.stopTimer, .onEntryNormal])
  | .checkOut, .notApproveNotAttempts => some (.safeMode, [.onEntrySafeMode])
  | .repeatOut, .timeout => some (.checkOut, [.onEntryQuorum .checkQuorumOut])
  | .repeatOut, .newMessageHandshake => some (.repeatOut, [.calculateQuorum])
  | .repeatOut, .approveQuorum => some (.normal, [.stopTimer, .onEntryNormal])
  | .repeatOut, .notApproveQuorum => some (.repeatOut, [])
  | .safeMode, .timeout => some (.normal, [.stopSendHeartbeatMessageSafeMode, .onEntryNormal])
  | .safeMode, .quorumSafeMode =>
    some (.normal, [.stopSendHeartbeatMessageSafeMode, .onEntryNormal])
  | _, _ => none

theorem state_injective {m m' : Mode} (h : m.state = m'.state) : m = m' := by
  cases m <;> cases m' <;> first | rfl | exact absurd h (by decide)

@[simp] theorem state_inj {m m' : Mode} : m.state = m'.state ↔ m = m' :=
  ⟨state_injective, fun h => h ▸ rfl⟩

/-! ## Row by row -/

def all : List Mode :=
  [.init, .inHandshake, .checkIn, .repeatIn, .alert, .data, .monitor, .outHandshake, .checkOut,
    .repeatOut, .safeMode, .normal]

/-- The events that some mode answers. -/
def events : List Event :=
  [.timeout, .balanceEpochOk, .balanceEpochNotOk, .approveQuorum, .quorumPhase, .quorumSafeMode,
    .notApproveQuorum, .notApproveNotAttempts, .newMessageHandshake]

def rows : List (Mode × Event × Mode × List Action) :=
  all.flatMap fun m => events.filterMap fun e => (m.next e).map fun row => (m, e, row)

theorem mem_rows {m m' : Mode} {e : Event} {l : List Action} (h : m.next e = some (m', l)) :
    (m, e, m', l) ∈ rows := by
  have hm : m ∈ all := by cases m <;> decide
  have he : e ∈ events := by cases e <;> first | decide | cases m <;> cases h
  exact List.mem_flatMap.mpr ⟨m, hm, List.mem_filterMap.mpr ⟨e, he, by rw [h]; rfl⟩⟩

/-- What holds of the rows holds of every transition. -/
theorem of_rows {P : Mode → Event → Mode → List Action → Prop}
    (hrows : ∀ row ∈ rows, P row.1 row.2.1 row.2.2.1 row.2.2.2) {m m' : Mode} {e : Event}
    {l : List Action} (h : m.next e = some (m', l)) : P m e m' l :=
  hrows _ (mem_rows h)

/-! ## The table is the machine -/

/-- A row of the table is the transition that `step` makes. -/
theorem step_mode {m m' : Mode} {e : Event} {l : List Action} (h : m.next e = some (m', l)) :
    m.state.step e = .valid ⟨m'.state, l⟩ :=
  of_rows (P := fun m e m' l => m.state.step e = .valid ⟨m'.state, l⟩) (by decide) h

/-- Where the table has no row, `step` refuses the event. -/
theorem step_mode_none {m : Mode} {e : Event} (h : m.next e = none) :
    ∃ t, m.state.step e = .invalid t := by
  cases m <;> cases e <;> simp only [next, reduceCtorEq] at h <;> exact ⟨_, rfl⟩

end Mode

end EdgeGateway.Fsm
