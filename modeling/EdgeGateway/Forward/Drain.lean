-- When the stored telemetry is drained. `dba_get_task` drains the tables when
-- the heartbeat brings it from disconnected to connected; the events of grpc,
-- which make `msg_from_hub` store, never reach it. Rows that are written while
-- no such change is ahead of it stay in the tables.
import EdgeGateway.Forward.Pipeline

namespace EdgeGateway.Forward

open EdgeGateway.Lib EdgeGateway.Message EdgeGateway.Database EdgeGateway.Heartbeat

namespace Pipeline

/-! ## The system at rest -/

/-- All channels are empty. -/
def Quiet (p : Pipeline) : Prop :=
  p.grpcEvents = [] ∧ p.heartbeatActions = [] ∧ p.heartbeatEvents = [] ∧ p.hubInputs = [] ∧
    p.live = [] ∧ p.serverInputs = [] ∧ p.toInsert = [] ∧ p.getEvents = [] ∧ p.batches = []

instance (p : Pipeline) : Decidable p.Quiet :=
  inferInstanceAs (Decidable (_ ∧ _))

/-- Nothing is under way, nothing is buffered, and the server is there for the
heartbeat and for both tasks of the message service. -/
def Restored (p : Pipeline) : Prop :=
  p.Quiet ∧ p.buffer = TableDataVector.new ∧ p.heartbeat.status = .connected ∧
    p.fromHub = some .connected ∧ p.toServer = some .connected

instance (p : Pipeline) : Decidable p.Restored :=
  inferInstanceAs (Decidable (_ ∧ _))

/-- `dba_get_task` has more to do than to wait for an event. -/
def Draining (p : Pipeline) : Prop := p.get ≠ .listening

instance (p : Pipeline) : Decidable p.Draining :=
  inferInstanceAs (Decidable (_ ≠ _))

/-! ## What is ahead of `dba_get_task` -/

/-- The connectivity events on their way to `dba_get_task`, the next one first. -/
def announced (p : Pipeline) : List ServerStatus :=
  p.getEvents ++ p.heartbeatEvents ++
    p.heartbeatActions.flatMap (fun actions => actions.filterMap Action.reports)

/-- `dba_get_task` is disconnected or will be, so a drain comes once the
heartbeat is connected. -/
def outageAhead (p : Pipeline) : Prop :=
  p.getState = .disconnected ∨ ServerStatus.disconnected ∈ p.announced

instance (p : Pipeline) : Decidable p.outageAhead :=
  inferInstanceAs (Decidable (_ ∨ _))

/-- A step that keeps stored rows within reach of a drain: a flush writes rows
only while a drain goes on or is ahead, and a drain ends with rows in the
tables only if another one is ahead. -/
def reaches (p : Pipeline) : Label → Bool
  | .flush =>
    match p.flushing with
    | some (k :: _) => p.buffer.only k = TableDataVector.new ∨ p.Draining ∨ p.outageAhead
    | _ => true
  | .pop =>
    match p.get with
    | .popping [] got =>
      got ≠ TableDataVector.new ∨ p.tables = TableDataVector.new ∨ p.outageAhead
    | _ => true
  | _ => true

/-! ## Laws -/

/-- `dba_get_task` will have the status of the heartbeat when all events on
their way have reached it. -/
def Tracked (p : Pipeline) : Prop :=
  p.heartbeat.Settled ∧ p.getOldState = p.getState ∧
    p.announced.getLast?.getD p.getState = p.heartbeat.status

/-- Stored rows are being drained or will be. -/
def WithinReach (p : Pipeline) : Prop :=
  p.tables = TableDataVector.new ∨ p.Draining ∨ p.outageAhead

end Pipeline

/-! ## Steps -/

section Steps

variable {p p' : Pipeline} {i : Label}

/-- A step leaves the events on their way as they are, adds a change of the
heartbeat, or gives the first one to `dba_get_task`, which drains the tables
when it becomes connected. -/
theorem announced_step (hset : p.heartbeat.Settled) (hmove : Move p i p') :
    (p'.announced = p.announced ∧ p'.getState = p.getState ∧ p'.getOldState = p.getOldState ∧
      p'.heartbeat.Settled ∧ p'.heartbeat.status = p.heartbeat.status) ∨
    (p'.announced = p.announced ++ [p'.heartbeat.status] ∧ p'.getState = p.getState ∧
      p'.getOldState = p.getOldState ∧ p'.heartbeat.Settled) ∨
    (p.announced = p'.getState :: p'.announced ∧ p'.getOldState = p'.getState ∧
      p'.heartbeat = p.heartbeat ∧
      (p.getOldState = .disconnected → p'.getState = .connected → p'.Draining)) := by
  cases hmove with
  | heartbeatFsm hs =>
    obtain ⟨hset', hreports⟩ := FsmHeartbeat.step_reports hset hs
    split at hreports
    · rename_i hsame
      exact .inl ⟨by simp [Pipeline.announced, hreports], rfl, rfl, hset', hsame⟩
    · exact .inr (.inl ⟨by simp [Pipeline.announced, hreports], rfl, rfl, hset'⟩)
  | heartbeatTask hq =>
    exact .inl ⟨by simp [Pipeline.announced, hq], rfl, rfl, hset, rfl⟩
  | coreHeartbeat hq =>
    exact .inl ⟨by simp [Pipeline.announced, Pipeline.toMessageService, hq], rfl, rfl, hset, rfl⟩
  | connected _ hq ho =>
    exact .inr (.inr ⟨by simp [Pipeline.announced, hq], rfl, rfl, by simp [ho]⟩)
  | drain _ hq _ =>
    exact .inr (.inr ⟨by simp [Pipeline.announced, hq], rfl, rfl, by simp [Pipeline.Draining]⟩)
  | disconnected _ hq =>
    exact .inr (.inr ⟨by simp [Pipeline.announced, hq], rfl, rfl, by simp⟩)
  | _ => exact .inl ⟨rfl, rfl, rfl, hset, rfl⟩

theorem tracked_step (h : p.Tracked) (hmove : Move p i p') : p'.Tracked := by
  obtain ⟨hset, hold, hlast⟩ := h
  rcases announced_step hset hmove with
    ⟨ha, hg, ho, hset', hs⟩ | ⟨ha, hg, ho, hset'⟩ | ⟨ha, ho, hh, -⟩
  · exact ⟨hset', by rw [ho, hg, hold], by rw [ha, hg, hs, hlast]⟩
  · exact ⟨hset', by rw [ho, hg, hold], by simp [ha]⟩
  · refine ⟨hh ▸ hset, ho, ?_⟩
    rw [ha, List.getLast?_cons] at hlast
    rw [hh, ← hlast]
    rfl

/-- An outage that is ahead stays ahead, or its drain begins. -/
theorem outageAhead_step (h : p.Tracked) (hahead : p.outageAhead) (hmove : Move p i p') :
    p'.Draining ∨ p'.outageAhead := by
  obtain ⟨hset, hold, -⟩ := h
  rcases announced_step hset hmove with ⟨ha, hg, -⟩ | ⟨ha, hg, -⟩ | ⟨ha, -, -, hdrain⟩
  · right
    rwa [Pipeline.outageAhead, ha, hg]
  · right
    rw [Pipeline.outageAhead, ha, hg, List.mem_append]
    exact hahead.imp_right .inl
  · rcases hs : p'.getState with _ | _
    · rcases hahead with hdown | hmem
      · exact .inl (hdrain (hold.trans hdown) hs)
      · right
        rw [ha, hs, List.mem_cons] at hmem
        exact .inr (hmem.resolve_left (by simp))
    · exact .inr (.inl hs)

/-- A drain goes on, or ends with nothing left to drain. -/
theorem draining_step (hdrain : p.Draining) (hok : p.reaches i = true) (hmove : Move p i p') :
    p'.tables = TableDataVector.new ∨ p'.Draining ∨ p'.outageAhead := by
  unfold Pipeline.Draining at hdrain
  cases hmove with
  | connected hg | drain hg | disconnected hg => exact absurd hg hdrain
  | popTable | sendBatch | wake => exact .inr (.inl (by simp [Pipeline.Draining]))
  | drained hg he =>
    simp only [Pipeline.reaches, hg, decide_eq_true_eq] at hok
    exact (hok.resolve_left (not_not.mpr he)).imp_right .inr
  | _ => exact .inr (.inl hdrain)

/-- Empty tables are only written where a drain is sure to come. -/
theorem emptyTables_step (hnew : p.tables = TableDataVector.new) (hok : p.reaches i = true)
    (hmove : Move p i p') :
    p'.tables = TableDataVector.new ∨ p'.Draining ∨ p'.outageAhead := by
  cases hmove with
  | write hf =>
    simp only [Pipeline.reaches, hf, decide_eq_true_eq] at hok
    rcases hok with hnone | hdrain | hahead
    · exact .inl (by simp [hnew, hnone, TableDataVector.append, TableDataVector.new])
    · exact .inr (.inl hdrain)
    · exact .inr (.inr hahead)
  | @popTable k rest got hg =>
    exact .inl (by cases k <;> simp [hnew, TableDataVector.skip, TableDataVector.new])
  | _ => exact .inl hnew

/-- A step that meets the condition keeps the rows within reach. -/
theorem withinReach_step (h : p.Tracked) (hreach : p.WithinReach) (hok : p.reaches i = true)
    (hmove : Move p i p') : p'.WithinReach := by
  rcases hreach with hnew | hdrain | hahead
  · exact emptyTables_step hnew hok hmove
  · exact draining_step hdrain hok hmove
  · exact .inr (outageAhead_step h hahead hmove)

end Steps

/-! ## The law -/

/-- Where the server is back, the channels are empty and no drain goes on, no
row is left in the tables: this holds in all states of a run that writes and
drains within reach. -/
theorem stored_rows_are_drained (t : List (Pipeline × Label)) (p : Pipeline)
    (run : machine.Run t p) (hok : Machine.Meets (fun p i => p.reaches i = true) t) :
    ∀ x ∈ Machine.visited t p, x.Restored → ¬ x.Draining → x.tables = TableDataVector.new := by
  have hlaw := run.invariant_visited (fun p => p.Tracked ∧ p.WithinReach)
    (fun p i => p.reaches i = true)
    (fun p hp => by
      obtain ⟨tables, rfl⟩ := hp
      exact ⟨⟨FsmHeartbeat.settled_new, rfl, rfl⟩, .inr (.inr (.inl rfl))⟩)
    (fun p i p' hp hi h =>
      have hmove := move_of_step h
      ⟨tracked_step hp.1 hmove, withinReach_step hp.1 hp.2 hi hmove⟩)
    hok
  intro x hx hrestored hidle
  obtain ⟨⟨-, -, hlast⟩, hreach⟩ := hlaw x hx
  obtain ⟨⟨-, ha, hb, -, -, -, -, hg, -⟩, -, hs, -, -⟩ := hrestored
  have hnone : x.announced = [] := by simp [Pipeline.announced, ha, hb, hg]
  have hup : x.getState = .connected := by simpa [hnone, hs] using hlast
  rcases hreach with hnew | hdrain | hdown | hmem
  · exact hnew
  · exact absurd hdrain hidle
  · simp [hup] at hdown
  · simp [hnone] at hmem

/-- The server answers: the heartbeat becomes connected, and the first drain
ends. -/
def firstDrain : List Label :=
  [.heartbeatFsm .heartbeat, .heartbeatTask, .coreHeartbeat, .msgFromHub, .msgToServerCommand,
    .dbaGet] ++ List.replicate 5 .pop

/-- The message service takes a connectivity event of grpc. -/
def grpcEvent (status : ServerStatus) : List Label :=
  [.grpc status, .coreGrpc, .msgFromHub, .msgToServerCommand]

/-- The stream is lost for a short time, between two heartbeats, and a message
is stored in it. -/
def shortOutage : List Label :=
  firstDrain ++ grpcEvent .disconnected ++
    [.incoming (.report default), .msgFromHub, .dbaInsert] ++ grpcEvent .connected ++
    [.tick] ++ List.replicate 5 .flush

theorem a_short_outage_leaves_its_rows :
    ¬ ∀ (t : List (Pipeline × Label)) (p : Pipeline), machine.Run t p →
      ∀ x ∈ Machine.visited t p, x.Restored → x.tables = TableDataVector.new := by
  intro h
  have hrun := Machine.run_of_final shortOutage (init_start TableDataVector.new)
    (by decide +kernel)
  have hlast := h _ _ hrun _ (Machine.last_mem_visited _ _)
  revert hlast
  decide +kernel

/-- What an earlier run stored is drained, the batch is uploaded, and the next
tick finds the system at rest. -/
def startupDrain : List Label :=
  firstDrain ++ [.coreBatch, .msgToServerCommand, .wake] ++ List.replicate 5 .pop ++ [.tick]

theorem stored_rows_are_drained_at_startup :
    let stored := TableDataVector.new.sortByVectors (.report default)
    let t := machine.trace (Pipeline.start stored) startupDrain
    (∃ s ∈ t, s.1.Restored ∧ ¬ s.1.Draining) ∧
      ∀ s ∈ t, s.1.Restored → ¬ s.1.Draining → s.1.tables = TableDataVector.new := by
  have hmeets : Machine.Meets (fun p i => p.reaches i = true)
      (machine.trace (Pipeline.start (TableDataVector.new.sortByVectors (.report default)))
        startupDrain) := by decide +kernel
  have hrun := Machine.run_of_final startupDrain
    (init_start (TableDataVector.new.sortByVectors (.report default))) (by decide +kernel)
  have hall := stored_rows_are_drained _ _ hrun hmeets
  exact ⟨by decide +kernel,
    fun s hs => hall s.1 (Machine.mem_visited hs _)⟩

end EdgeGateway.Forward
