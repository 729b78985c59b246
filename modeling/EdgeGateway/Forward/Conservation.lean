-- Where the telemetry is. Every message that `msg_from_hub` has decoded is
-- in one place, or `msg_to_server` has thrown it away: it does so with all
-- that reaches it after a `ServerDisconnected`, though `msg_from_hub` may
-- have routed the message while it was still connected.
import EdgeGateway.Forward.Pipeline

namespace EdgeGateway.Forward

open EdgeGateway.Lib EdgeGateway.Message EdgeGateway.Database EdgeGateway.Heartbeat

/-! ## Places -/

def ServerInput.messages : ServerInput → Multiset Telemetry
  | .internal _ => 0
  | .batch rows => rows.messages

/-- What `pop_batch` has taken so far. -/
def GetStage.messages : GetStage → Multiset Telemetry
  | .popping _ got => got.messages
  | _ => 0

/-- The rows of the buffer that are in no table. While a flush goes on, those
of the tables it has still to write. -/
def unwritten (flushing : Option (List TableName)) (buffer : TableDataVector) :
    Multiset Telemetry :=
  ((flushing.getD TableName.all).map (fun k => (buffer.only k).messages)).sum

namespace Pipeline

/-- The telemetry of all places: the channels, the buffer, the tables with the
rows that are being popped, and the uploads. -/
def located (p : Pipeline) : Multiset Telemetry :=
  (p.live : Multiset Telemetry) + (p.serverInputs.map ServerInput.messages).sum +
    (p.toInsert : Multiset Telemetry) + unwritten p.flushing p.buffer + p.tables.messages +
    p.get.messages + (p.batches.map TableDataVector.messages).sum + p.uploads

/-- Each decoded message is in exactly one place. -/
def Conserved (p : Pipeline) : Prop := p.located = p.decoded

/-- What a step of `msg_to_server` takes while its last event is
`ServerDisconnected`. -/
def discarded (p : Pipeline) : Label → Multiset Telemetry
  | .msgToServerCommand =>
    match believes p.toServer, p.serverInputs with
    | .disconnected, input :: _ => input.messages
    | _, _ => 0
  | .msgToServerHub =>
    match believes p.toServer, p.live with
    | .disconnected, msg :: _ => {msg}
    | _, _ => 0
  | _ => 0

end Pipeline

/-- A buffer that is not being written has all its rows. -/
theorem unwritten_eq {flushing : Option (List TableName)} (buffer : TableDataVector)
    (h : flushing = none ∨ flushing = some TableName.all) :
    unwritten flushing buffer = buffer.messages := by
  rw [← TableDataVector.messages_all]
  rcases h with rfl | rfl <;> rfl

@[simp] theorem unwritten_nil (buffer : TableDataVector) : unwritten (some []) buffer = 0 := rfl

theorem unwritten_cons (k : TableName) (rest : List TableName) (buffer : TableDataVector) :
    unwritten (some (k :: rest)) buffer =
      (buffer.only k).messages + unwritten (some rest) buffer := by
  simp [unwritten]

/-! ## Steps -/

section Steps

variable {p p' : Pipeline}

/-- What is new in a step has been decoded there, and what is gone has been
discarded there. -/
theorem located_step {i : Label} (h : machine.step p i = some p') :
    ∃ new, p'.decoded = p.decoded + new ∧ p'.located + p.discarded i = p.located + new := by
  cases move_of_step h with
  | hubLive hq hb =>
    refine ⟨_, rfl, ?_⟩
    simp only [Pipeline.located, Pipeline.discarded, ← Multiset.coe_add, Multiset.coe_singleton]
    abel
  | hubStored hq hb =>
    refine ⟨_, rfl, ?_⟩
    simp only [Pipeline.located, Pipeline.discarded, ← Multiset.coe_add, Multiset.coe_singleton]
    abel
  | serverEvent hq =>
    refine ⟨0, (add_zero _).symm, ?_⟩
    rcases hb : believes p.toServer with _ | _ <;>
      simp [Pipeline.located, Pipeline.discarded, hq, hb, ServerInput.messages]
  | uploadBatch hq hb | dropBatch hq hb =>
    refine ⟨0, (add_zero _).symm, ?_⟩
    simp only [Pipeline.located, Pipeline.discarded, hq, hb, List.map_cons, List.sum_cons,
      ServerInput.messages]
    abel
  | uploadLive hq hb | dropLive hq hb =>
    refine ⟨0, (add_zero _).symm, ?_⟩
    simp only [Pipeline.located, Pipeline.discarded, hq, hb, ← Multiset.cons_coe,
      ← Multiset.singleton_add]
    abel
  | insert hf hq hn =>
    refine ⟨0, (add_zero _).symm, ?_⟩
    simp only [Pipeline.located, Pipeline.discarded, unwritten_eq _ (.inl hf), unwritten_eq _ hn,
      hq, TableDataVector.messages_sortByVectors, ← Multiset.cons_coe, ← Multiset.singleton_add]
    abel
  | tick hf hn =>
    refine ⟨0, (add_zero _).symm, ?_⟩
    simp only [Pipeline.located, Pipeline.discarded, unwritten_eq _ (.inl hf), unwritten_eq _ hn]
  | write hf =>
    refine ⟨0, (add_zero _).symm, ?_⟩
    simp only [Pipeline.located, Pipeline.discarded, hf, unwritten_cons,
      TableDataVector.messages_append]
    abel
  | clear hf =>
    refine ⟨0, (add_zero _).symm, ?_⟩
    simp [Pipeline.located, Pipeline.discarded, hf, unwritten_eq TableDataVector.new (.inl rfl)]
  | @popTable k rest got hg =>
    refine ⟨0, (add_zero _).symm, ?_⟩
    simp only [Pipeline.located, Pipeline.discarded, hg, GetStage.messages,
      TableDataVector.messages_append,
      ← TableDataVector.messages_oldest_skip limit p.tables k]
    abel
  | sendBatch hg he =>
    refine ⟨0, (add_zero _).symm, ?_⟩
    simp only [Pipeline.located, Pipeline.discarded, hg, GetStage.messages, List.map_append,
      List.map_cons, List.map_nil, List.sum_append, List.sum_cons, List.sum_nil]
    abel
  | coreBatch hq =>
    refine ⟨0, (add_zero _).symm, ?_⟩
    simp only [Pipeline.located, Pipeline.discarded, hq, ServerInput.messages, List.map_append,
      List.map_cons, List.map_nil, List.sum_append, List.sum_cons, List.sum_nil]
    abel
  | drained hg he =>
    exact ⟨0, (add_zero _).symm, by
      simp [Pipeline.located, Pipeline.discarded, hg, he, GetStage.messages]⟩
  | connected hg | drain hg | disconnected hg | wake hg =>
    exact ⟨0, (add_zero _).symm, by
      simp [Pipeline.located, Pipeline.discarded, hg, GetStage.messages]⟩
  | coreGrpc | coreHeartbeat =>
    exact ⟨0, (add_zero _).symm, by
      simp [Pipeline.located, Pipeline.discarded, Pipeline.toMessageService, ServerInput.messages]⟩
  | _ => exact ⟨0, (add_zero _).symm, rfl⟩

/-- A step discards nothing exactly when it keeps the law. -/
theorem conserved_step {i : Label} (hc : p.Conserved) (h : machine.step p i = some p') :
    p'.Conserved ↔ p.discarded i = 0 := by
  obtain ⟨new, hdecoded, hlocated⟩ := located_step h
  unfold Pipeline.Conserved at hc ⊢
  rw [hc, ← hdecoded] at hlocated
  constructor
  · intro hl
    rw [hl] at hlocated
    exact left_eq_add.mp hlocated.symm
  · intro hd
    rwa [hd, add_zero] at hlocated

end Steps

theorem conserved_start (tables : TableDataVector) : (Pipeline.start tables).Conserved := by
  unfold Pipeline.Conserved
  simp [Pipeline.located, Pipeline.start, unwritten_eq TableDataVector.new (.inl rfl),
    GetStage.messages]

/-! ## The law -/

/-- In every run, what was decoded is somewhere or has been discarded. -/
theorem located_or_discarded {t : List (Pipeline × Label)} {p : Pipeline}
    (run : machine.Run t p) :
    p.located + (t.map (fun s => s.1.discarded s.2)).sum = p.decoded := by
  induction run with
  | start h =>
    obtain ⟨tables, rfl⟩ := h
    exact (add_zero _).trans (conserved_start tables)
  | move run h ih =>
    obtain ⟨new, hdecoded, hlocated⟩ := located_step h
    rw [hdecoded, ← ih, List.map_append, List.sum_append, List.map_cons, List.map_nil,
      List.sum_cons, List.sum_nil, add_zero, add_right_comm, ← hlocated]
    abel

/-- Telemetry is conserved in all states of a run exactly when `msg_to_server`
takes none of it after a `ServerDisconnected`. -/
theorem telemetry_is_conserved_unless_discarded (t : List (Pipeline × Label)) (p : Pipeline)
    (run : machine.Run t p) :
    (∀ x ∈ Machine.visited t p, x.Conserved) ↔
      Machine.Meets (fun p i => p.discarded i = 0) t := by
  have hlaw := run.avoids_iff (fun _ => True) (fun p => ¬ p.Conserved)
    (fun p i => p.discarded i ≠ 0)
    (fun p hp => by
      obtain ⟨tables, rfl⟩ := hp
      exact ⟨trivial, not_not.mpr (conserved_start tables)⟩)
    (fun _ _ _ _ _ => trivial)
    (fun p i p' _ hc h => not_congr (conserved_step (not_not.mp hc) h))
  simpa only [not_not] using hlaw

/-- A message is routed to the server, and the stream is lost before
`msg_to_server` takes it. -/
def lostInFlight : List Label :=
  [.incoming (.report default), .msgFromHub, .grpc .disconnected, .coreGrpc,
    .msgToServerCommand, .msgToServerHub]

theorem telemetry_can_be_dropped :
    ¬ ∀ (t : List (Pipeline × Label)) (p : Pipeline), machine.Run t p →
      ∀ x ∈ Machine.visited t p, x.Conserved := by
  intro h
  have hrun := Machine.run_of_final lostInFlight (init_start TableDataVector.new)
    (by decide +kernel)
  have hlast := h _ _ hrun _ (Machine.last_mem_visited _ _)
  have hcard := congrArg Multiset.card hlast
  revert hcard
  decide +kernel

/-- The stream is lost, and the message that comes after it is stored. -/
def storedInTime : List Label :=
  [.grpc .disconnected, .coreGrpc, .msgFromHub, .incoming (.report default), .msgFromHub,
    .msgToServerCommand, .dbaInsert]

theorem stored_telemetry_is_conserved :
    let t := machine.trace (Pipeline.start TableDataVector.new) storedInTime
    Machine.Meets (fun p i => p.discarded i = 0) t ∧ ∀ s ∈ t, s.1.Conserved := by
  have hmeets : Machine.Meets (fun p i => p.discarded i = 0)
      (machine.trace (Pipeline.start TableDataVector.new) storedInTime) := by decide +kernel
  have hrun := Machine.run_of_final storedInTime (init_start TableDataVector.new)
    (by decide +kernel)
  have hall := (telemetry_is_conserved_unless_discarded _ _ hrun).mpr hmeets
  exact ⟨hmeets, fun s hs => hall s.1 (Machine.mem_visited hs _)⟩

end EdgeGateway.Forward
