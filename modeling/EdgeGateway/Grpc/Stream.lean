-- What the uplink carries over a whole run, whatever the connection does: the
-- uploads meet the stream in the order in which they were handed over, and each
-- that is lost ends a connection; what the core hears of the server comes in
-- sessions, and nothing that the stream brings is lost.
import EdgeGateway.Grpc.Domain
import EdgeGateway.Lib.Flow
import EdgeGateway.Lib.Order

namespace EdgeGateway.Grpc

open EdgeGateway.Lib

section Stream

variable {α β : Type}

/-- A run of the uplink: the states left and the steps taken there. -/
abbrev Trace (α β : Type) : Type := List (Uplink α β × Label α β)

/-! ## What is under way -/

def Service.upload : Service α β → Option α
  | .queueing msg => some msg
  | _ => none

def Service.event : Service α β → Option (InternalEvent β)
  | .forwarding e => some e
  | _ => none

def StateClient.upload : StateClient α β → Option α
  | .uploading msg => some msg
  | _ => none

def StateClient.event (client : StateClient α β) : Option (InternalEvent β) :=
  client.sends.map Prod.fst

namespace Uplink

/-- The uploads on their way to the stream, the next at the front. -/
def underWay (u : Uplink α β) : List α :=
  u.client.upload.toList ++ u.uploads ++ u.service.upload.toList

/-- The events on their way to the core. -/
def waiting (u : Uplink α β) : List (InternalEvent β) :=
  u.service.event.toList ++ u.events ++ u.client.event.toList

end Uplink

/-! ## What a step does -/

/-- The upload that `GrpcService::run` takes. -/
def handed (_ : Uplink α β) : Label α β → List α
  | .upload msg => [msg]
  | _ => []

/-- The upload that meets the stream, and whether the stream takes it. -/
def met (u : Uplink α β) : Label α β → List (α × Bool)
  | .stream ok => (u.client.upload.map (fun msg => (msg, ok))).toList
  | _ => []

/-- The event that arises in `grpc`. -/
def arises (_ : Uplink α β) : Label α β → List (InternalEvent β)
  | .connect ok => [if ok then .serverConnected else .serverDisconnected]
  | .stream ok => if ok then [] else [.serverDisconnected]
  | .inbound (some msg) => [.incomingGrpc msg]
  | .inbound none => [.serverDisconnected]
  | _ => []

/-- The event that the core gets. -/
def forwarded (u : Uplink α β) : Label α β → List (InternalEvent β)
  | .forward => u.service.event.toList
  | _ => []

/-- What the stream brings. -/
def brought (_ : Uplink α β) : Label α β → List β
  | .inbound (some msg) => [msg]
  | _ => []

/-- The uploads that the stream took, and those that it did not. -/
def taken (t : Trace α β) : List α :=
  ((Machine.log met t).filter (fun p => p.2)).map Prod.fst

def lost (t : Trace α β) : List α :=
  ((Machine.log met t).filter (fun p => !p.2)).map Prod.fst

/-- What the core hears of the connection: in a session nothing but messages, and
outside of one nothing but that there is none. -/
def sessions : Order (InternalEvent β) Bool where
  start := false
  next
    | _, .serverConnected => true
    | _, .serverDisconnected => false
    | on, .incomingGrpc _ => on
  allows
    | on, .serverConnected => !on
    | _, .serverDisconnected => true
    | on, .incomingGrpc _ => on

/-- The events that end a connection, or an attempt at one. -/
def InternalEvent.ends : InternalEvent β → Bool
  | .serverDisconnected => true
  | _ => false

def InternalEvent.incoming : InternalEvent β → Option β
  | .incomingGrpc msg => some msg
  | _ => none

/-- `grpc` has a session while it has told that there is one and not that it ended. -/
def StateClient.online : StateClient α β → Bool
  | .connected => true
  | .work => true
  | .uploading _ => true
  | .delivering _ => true
  | _ => false

/-! ## One step -/

/-- What a step can be. -/
inductive Move (u : Uplink α β) : Label α β → Uplink α β → Prop where
  | upload {msg : α} (h : u.service = .listening) :
    Move u (.upload msg) { u with service := .queueing msg }
  | queueUpload {msg : α} (h : u.service = .queueing msg) (hroom : room capacity u.uploads = true) :
    Move u .queueUpload { u with service := .listening, uploads := u.uploads ++ [msg] }
  | takeEvent {e : InternalEvent β} {rest : List (InternalEvent β)} (h : u.service = .listening)
    (he : u.events = e :: rest) :
    Move u .takeEvent { u with service := .forwarding e, events := rest }
  | forward {e : InternalEvent β} (h : u.service = .forwarding e) :
    Move u .forward { u with service := .listening }
  | connect {ok : Bool} (h : u.client = .init) :
    Move u (.connect ok) { u with client := if ok then .connected else .failed }
  | sendEvent {e : InternalEvent β} {client : StateClient α β} (h : u.client.sends = some (e, client))
    (hroom : room capacity u.events = true) :
    Move u .sendEvent { u with client, events := u.events ++ [e] }
  | takeUpload {msg : α} {rest : List α} (h : u.client = .work) (hu : u.uploads = msg :: rest) :
    Move u .takeUpload { u with client := .uploading msg, uploads := rest }
  | taken {msg : α} (h : u.client = .uploading msg) :
    Move u (.stream true) { u with client := .work, streamed := u.streamed ++ [msg] }
  | refused {msg : α} (h : u.client = .uploading msg) :
    Move u (.stream false) { u with client := .failed }
  | inbound {msg : β} (h : u.client = .work) :
    Move u (.inbound (some msg)) { u with client := .delivering msg }
  | closed (h : u.client = .work) : Move u (.inbound none) { u with client := .failed }
  | wake (h : u.client = .cooling) : Move u .wake { u with client := .init }

section Steps

variable {u u' : Uplink α β} {i : Label α β}

theorem move_of_step (h : (machine α β).step u i = some u') : Move u i u' := by
  change u.step i = some u' at h
  cases i with
  | upload msg =>
    rcases hs : u.service <;>
      simp only [Uplink.step, Uplink.runService, hs, Option.some.injEq, reduceCtorEq] at h
    exact h ▸ .upload hs
  | queueUpload =>
    rcases hs : u.service <;>
      simp only [Uplink.step, Uplink.runService, hs, Option.ite_none_right_eq_some,
        Option.some.injEq, reduceCtorEq] at h
    exact h.2 ▸ .queueUpload hs h.1
  | takeEvent =>
    rcases hs : u.service <;> rcases he : u.events <;>
      simp only [Uplink.step, Uplink.runService, hs, he, Option.some.injEq, reduceCtorEq] at h
    exact h ▸ .takeEvent hs he
  | forward =>
    rcases hs : u.service <;>
      simp only [Uplink.step, Uplink.runService, hs, Option.some.injEq, reduceCtorEq] at h
    exact h ▸ .forward hs
  | connect ok =>
    rcases hc : u.client <;>
      simp only [Uplink.step, Uplink.grpc, hc, Option.some.injEq, reduceCtorEq] at h
    exact h ▸ .connect hc
  | sendEvent =>
    rcases hs : u.client.sends with _ | ⟨e, client⟩ <;>
      simp only [Uplink.step, Uplink.grpc, hs, Option.ite_none_right_eq_some, Option.some.injEq,
        reduceCtorEq] at h
    exact h.2 ▸ .sendEvent hs h.1
  | takeUpload =>
    rcases hc : u.client <;> rcases hu : u.uploads <;>
      simp only [Uplink.step, Uplink.grpc, hc, hu, Option.some.injEq, reduceCtorEq] at h
    exact h ▸ .takeUpload hc hu
  | stream ok =>
    rcases hc : u.client <;> cases ok <;>
      simp only [Uplink.step, Uplink.grpc, hc, Option.some.injEq, reduceCtorEq, Bool.false_eq_true,
        if_true, if_false] at h
    · exact h ▸ .refused hc
    · exact h ▸ .taken hc
  | inbound msg =>
    rcases hc : u.client <;> rcases msg with _ | msg <;>
      simp only [Uplink.step, Uplink.grpc, hc, Option.some.injEq, reduceCtorEq] at h
    · exact h ▸ .closed hc
    · exact h ▸ .inbound hc
  | wake =>
    rcases hc : u.client <;>
      simp only [Uplink.step, Uplink.grpc, hc, Option.some.injEq, reduceCtorEq] at h
    exact h ▸ .wake hc

/-- What `grpc` is sending holds no upload, and neither does what it goes on with. -/
theorem upload_of_sends {client client' : StateClient α β} {e : InternalEvent β}
    (h : client.sends = some (e, client')) : client.upload = none ∧ client'.upload = none := by
  cases client <;> simp only [StateClient.sends, Option.some.injEq, Prod.mk.injEq, reduceCtorEq] at h
  all_goals exact ⟨rfl, h.2 ▸ rfl⟩

/-- After an event is sent, no other is being sent, and the session is as before. -/
theorem event_of_sends {client client' : StateClient α β} {e : InternalEvent β}
    (h : client.sends = some (e, client')) :
    client.event = some e ∧ client'.event = none ∧ client'.online = client.online := by
  cases client <;> simp only [StateClient.sends, Option.some.injEq, Prod.mk.injEq, reduceCtorEq] at h
  all_goals
    obtain ⟨rfl, rfl⟩ := h
    exact ⟨rfl, rfl, rfl⟩

theorem underWay_step (hs : (machine α β).step u i = some u') :
    u.underWay ++ handed u i = (met u i).map Prod.fst ++ u'.underWay := by
  unfold Uplink.underWay
  cases move_of_step hs with
  | upload h => simp [handed, met, h, Service.upload]
  | queueUpload h hroom => simp [handed, met, h, Service.upload]
  | takeEvent h he => simp [handed, met, h, Service.upload]
  | forward h => simp [handed, met, h, Service.upload]
  | @connect ok h => cases ok <;> simp [handed, met, h, StateClient.upload]
  | sendEvent h hroom =>
    obtain ⟨hbefore, hafter⟩ := upload_of_sends h
    simp [handed, met, hbefore, hafter]
  | takeUpload h hu => simp [handed, met, h, hu, StateClient.upload]
  | taken h => simp [handed, met, h, StateClient.upload]
  | refused h => simp [handed, met, h, StateClient.upload]
  | inbound h => simp [handed, met, h, StateClient.upload]
  | closed h => simp [handed, met, h, StateClient.upload]
  | wake h => simp [handed, met, h, StateClient.upload]

theorem waiting_step (hs : (machine α β).step u i = some u') :
    u.waiting ++ arises u i = forwarded u i ++ u'.waiting := by
  unfold Uplink.waiting
  cases move_of_step hs with
  | upload h => simp [arises, forwarded, h, Service.event]
  | queueUpload h hroom => simp [arises, forwarded, h, Service.event]
  | takeEvent h he => simp [arises, forwarded, h, he, Service.event]
  | forward h => simp [arises, forwarded, h, Service.event]
  | @connect ok h => cases ok <;> simp [arises, forwarded, h, StateClient.event, StateClient.sends]
  | sendEvent h hroom =>
    obtain ⟨hbefore, hafter, -⟩ := event_of_sends h
    simp [arises, forwarded, hbefore, hafter]
  | takeUpload h hu => simp [arises, forwarded, h, StateClient.event, StateClient.sends]
  | taken h => simp [arises, forwarded, h, StateClient.event, StateClient.sends]
  | refused h => simp [arises, forwarded, h, StateClient.event, StateClient.sends]
  | inbound h => simp [arises, forwarded, h, StateClient.event, StateClient.sends]
  | closed h => simp [arises, forwarded, h, StateClient.event, StateClient.sends]
  | wake h => simp [arises, forwarded, h, StateClient.event, StateClient.sends]

/-- A step keeps what it takes from the stream, and arises one event at most. -/
theorem streamed_step (hs : (machine α β).step u i = some u') :
    u'.streamed = u.streamed ++ ((met u i).filter (fun p => p.2)).map Prod.fst := by
  cases move_of_step hs with
  | taken h => simp [met, h, StateClient.upload]
  | refused h => simp [met, h, StateClient.upload]
  | _ => simp [met]

/-- An event that arises is allowed in the session of `grpc`, and leads to its next one. -/
theorem online_step (hs : (machine α β).step u i = some u') :
    (arises u i = [] ∧ u'.client.online = u.client.online) ∨
      ∃ e, arises u i = [e] ∧ sessions.allows u.client.online e = true ∧
        sessions.next u.client.online e = u'.client.online := by
  cases move_of_step hs with
  | @connect ok h =>
    refine .inr ⟨_, rfl, ?_⟩
    cases ok <;> simp [sessions, h, StateClient.online]
  | sendEvent h hroom => exact .inl ⟨rfl, (event_of_sends h).2.2⟩
  | takeUpload h hu => exact .inl ⟨rfl, by simp [h, StateClient.online]⟩
  | taken h => exact .inl ⟨rfl, by simp [h, StateClient.online]⟩
  | refused h => exact .inr ⟨_, rfl, by simp [sessions, StateClient.online]⟩
  | inbound h => exact .inr ⟨_, rfl, by simp [sessions, h, StateClient.online]⟩
  | closed h => exact .inr ⟨_, rfl, by simp [sessions, StateClient.online]⟩
  | wake h => exact .inl ⟨rfl, by simp [h, StateClient.online]⟩
  | _ => exact .inl ⟨rfl, rfl⟩

/-- An upload is lost only with the connection. -/
theorem lost_step (hs : (machine α β).step u i = some u') :
    ((met u i).filter (fun p => !p.2)).length ≤ (arises u i).countP InternalEvent.ends := by
  cases move_of_step hs with
  | taken h => simp [met, h, StateClient.upload]
  | refused h => simp [met, arises, h, StateClient.upload, InternalEvent.ends]
  | _ => exact Nat.zero_le _

/-- What the stream brings becomes an event, and no other message does. -/
theorem brought_step (hs : (machine α β).step u i = some u') :
    brought u i = (arises u i).filterMap InternalEvent.incoming := by
  cases move_of_step hs with
  | @connect ok h => cases ok <;> rfl
  | _ => rfl

end Steps

/-! ## The laws -/

/-- The session of `grpc` is what the events that arose say, and they are in order. -/
theorem arises_in_sessions {t : Trace α β} {u : Uplink α β} (run : (machine α β).Run t u) :
    sessions.Holds (Machine.log arises t) ∧
      sessions.after (Machine.log arises t) = u.client.online := by
  induction run with
  | start h =>
    obtain rfl : _ = Uplink.new := h
    exact ⟨sessions.holds_nil, rfl⟩
  | move r hs ih =>
    rw [Machine.log_snoc]
    rcases online_step hs with ⟨hnone, honline⟩ | ⟨e, he, hallows, hnext⟩
    · rw [hnone, List.append_nil, honline]
      exact ih
    · rw [he, sessions.holds_snoc, sessions.after_snoc, ih.2]
      exact ⟨⟨ih.1, hallows⟩, hnext⟩

/-- The core hears of the server in sessions: the events that arise reach it in order, and each
message of the server is one of them, between the begin and the end of its connection. -/
theorem the_core_hears_sessions (t : Trace α β) (u : Uplink α β) (run : (machine α β).Run t u) :
    Machine.log arises t = Machine.log forwarded t ++ u.waiting ∧
      sessions.Holds (Machine.log forwarded t) ∧
      Machine.log brought t =
        (Machine.log forwarded t).filterMap InternalEvent.incoming ++
          u.waiting.filterMap InternalEvent.incoming := by
  have hnew : ∀ u : Uplink α β, (machine α β).init u → True ∧ u.waiting = [] := by
    rintro u rfl
    exact ⟨trivial, rfl⟩
  have hflow := run.balance Uplink.waiting arises forwarded (fun _ => True) hnew
    (fun _ _ _ _ _ => trivial) (fun u i u' _ hs => waiting_step hs)
  rw [List.nil_append] at hflow
  refine ⟨hflow, ?_, ?_⟩
  · apply Order.Holds.before
    rw [← hflow]
    exact (arises_in_sessions run).1
  · rw [← List.filterMap_append, ← hflow]
    unfold Machine.log
    rw [List.filterMap_flatMap]
    exact run.log_congr fun u i u' hs => brought_step hs

/-- A session with a message and an upload, an upload that finds the stream closed, and
another attempt. -/
def lossOfAnUpload : List (Label Nat Nat) :=
  [.connect true, .sendEvent, .takeEvent, .forward, .upload 1, .queueUpload, .takeUpload,
    .stream true, .inbound (some 7), .sendEvent, .takeEvent, .forward, .upload 2, .queueUpload,
    .takeUpload, .stream false, .sendEvent, .takeEvent, .forward, .wake, .connect false]

theorem a_session_is_heard :
    ∃ (t : Trace Nat Nat) (u : Uplink Nat Nat), (machine Nat Nat).Run t u ∧
      Machine.log forwarded t = [.serverConnected, .incomingGrpc 7, .serverDisconnected] ∧
      sessions.Holds (Machine.log forwarded t) := by
  have hrun := Machine.run_of_final (m := machine Nat Nat) lossOfAnUpload rfl (by decide +kernel)
  exact ⟨_, _, hrun, by decide +kernel, (the_core_hears_sessions _ _ hrun).2.1⟩

end Stream

end EdgeGateway.Grpc
