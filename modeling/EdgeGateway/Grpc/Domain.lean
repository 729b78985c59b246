-- The uplink to the server: `GrpcService::run`, its task `grpc` and the two
-- channels between them. Each is emptied by one task only, and both tasks
-- send with an unbounded wait: the law says which steps close the circle.
import EdgeGateway.Lib.Machine
import EdgeGateway.Lib.Actors

namespace EdgeGateway.Grpc

open EdgeGateway.Lib

/-! ## The two tasks -/

/-- What `grpc` reports of the connection, or brings from the server. -/
inductive InternalEvent (β : Type) where
  | serverConnected
  | serverDisconnected
  | incomingGrpc (msg : β)
  deriving Repr, DecidableEq

/-- Where `GrpcService::run` is suspended: in its select, sending an upload
to `grpc`, or sending an event to the core. -/
inductive Service (α β : Type) where
  | listening
  | queueing (upload : α)
  | forwarding (event : InternalEvent β)
  deriving Repr, DecidableEq

/-- Where `grpc` is suspended. `StateClient::Init` ends in `connected`, which
sends before it works; `StateClient::Error` sends in `failed` and then cools
down. In `uploading` the stream has not taken the upload yet. -/
inductive StateClient (α β : Type) where
  | init
  | connected
  | work
  | uploading (upload : α)
  | delivering (msg : β)
  | failed
  | cooling
  deriving Repr, DecidableEq

/-- The capacity of both channels between the tasks. -/
def capacity : Option Nat := some 50

structure Uplink (α β : Type) where
  service : Service α β
  client : StateClient α β
  uploads : List α
  events : List (InternalEvent β)
  streamed : List α
  deriving Repr, DecidableEq

/-- A step is one of the tasks going on, with the outcome of what it waits
for outside: the core, the connection, the stream, the clock. -/
inductive Label (α β : Type) where
  | upload (msg : α)
  | queueUpload
  | takeEvent
  | forward
  | connect (ok : Bool)
  | sendEvent
  | takeUpload
  | stream (ok : Bool)
  | inbound (msg : Option β)
  | wake
  deriving Repr, DecidableEq

section Model

variable {α β : Type}

/-- The event that `grpc` is sending, and where it goes on afterwards. -/
def StateClient.sends : StateClient α β → Option (InternalEvent β × StateClient α β)
  | .connected => some (.serverConnected, .work)
  | .delivering msg => some (.incomingGrpc msg, .work)
  | .failed => some (.serverDisconnected, .cooling)
  | _ => none

namespace Uplink

def new : Uplink α β :=
  { service := .listening, client := .init, uploads := [], events := [], streamed := [] }

/-- The select of `GrpcService::run` and the sends in its arms. -/
def runService (u : Uplink α β) : Label α β → Option (Uplink α β)
  | .upload msg =>
    match u.service with
    | .listening => some { u with service := .queueing msg }
    | _ => none
  | .queueUpload =>
    match u.service with
    | .queueing msg =>
      if room capacity u.uploads then
        some { u with service := .listening, uploads := u.uploads ++ [msg] }
      else none
    | _ => none
  | .takeEvent =>
    match u.service, u.events with
    | .listening, e :: rest => some { u with service := .forwarding e, events := rest }
    | _, _ => none
  | .forward =>
    match u.service with
    | .forwarding _ => some { u with service := .listening }
    | _ => none
  | _ => none

/-- The states of `grpc` and the sends on their way. -/
def grpc (u : Uplink α β) : Label α β → Option (Uplink α β)
  | .connect ok =>
    match u.client with
    | .init => some { u with client := if ok then .connected else .failed }
    | _ => none
  | .sendEvent =>
    match u.client.sends with
    | some (e, client) =>
      if room capacity u.events then some { u with client, events := u.events ++ [e] } else none
    | none => none
  | .takeUpload =>
    match u.client, u.uploads with
    | .work, msg :: rest => some { u with client := .uploading msg, uploads := rest }
    | _, _ => none
  | .stream ok =>
    match u.client with
    | .uploading msg =>
      -- an upload that finds the stream closed is dropped
      if ok then some { u with client := .work, streamed := u.streamed ++ [msg] }
      else some { u with client := .failed }
    | _ => none
  | .inbound msg =>
    match u.client, msg with
    | .work, some msg => some { u with client := .delivering msg }
    | .work, none => some { u with client := .failed }
    | _, _ => none
  | .wake =>
    match u.client with
    | .cooling => some { u with client := .init }
    | _ => none
  | _ => none

def step (u : Uplink α β) : Label α β → Option (Uplink α β)
  | .upload msg => u.runService (.upload msg)
  | .queueUpload => u.runService .queueUpload
  | .takeEvent => u.runService .takeEvent
  | .forward => u.runService .forward
  | i => u.grpc i

end Uplink

variable (α β) in
def machine : Machine (Uplink α β) (Label α β) where
  init := fun u => u = Uplink.new
  step := Uplink.step

/-! ## The circular wait -/

namespace Uplink

/-- `GrpcService::run` is suspended on a full channel. -/
def serviceWaits (u : Uplink α β) : Bool :=
  match u.service with
  | .queueing _ => !room capacity u.uploads
  | _ => false

/-- `grpc` is suspended on a full channel. -/
def clientWaits (u : Uplink α β) : Bool := u.client.sends.isSome && !room capacity u.events

def blocked (u : Uplink α β) : Bool := u.serviceWaits && u.clientWaits

/-- The step closes the circle: one task waits on a full channel, and the
other begins to send into the channel that the first does not empty, which is
full too. -/
def closes (u : Uplink α β) : Label α β → Bool
  | .upload _ => u.clientWaits && (u.service matches .listening) && !room capacity u.uploads
  | .connect _ => u.serviceWaits && (u.client matches .init) && !room capacity u.events
  | .stream ok =>
    u.serviceWaits && !ok && (u.client matches .uploading _) && !room capacity u.events
  | .inbound _ => u.serviceWaits && (u.client matches .work) && !room capacity u.events
  | _ => false

/-- If the step hands over an upload, the channel to `grpc` has room for it. -/
def paced (u : Uplink α β) : Label α β → Bool
  | .upload _ => room capacity u.uploads
  | _ => true

end Uplink

/-! ## One step -/

section Steps

variable {u u' : Uplink α β} {i : Label α β}

/-- A step of `GrpcService::run` takes an upload, or does not leave it
waiting for `grpc`. -/
theorem service_cases (h : u.runService i = some u') :
    (∃ msg, i = .upload msg ∧ u.service = .listening ∧ u' = { u with service := .queueing msg }) ∨
      (u'.serviceWaits = false ∧ u.closes i = false) := by
  cases i with
  | upload msg =>
    rcases hs : u.service <;>
      simp only [Uplink.runService, hs, Option.some.injEq, reduceCtorEq] at h
    exact Or.inl ⟨msg, rfl, rfl, h.symm⟩
  | queueUpload =>
    rcases hs : u.service <;>
      simp only [Uplink.runService, hs, Option.ite_none_right_eq_some, Option.some.injEq,
        reduceCtorEq] at h
    exact Or.inr ⟨h.2 ▸ rfl, rfl⟩
  | takeEvent =>
    rcases hs : u.service <;> rcases he : u.events <;>
      simp only [Uplink.runService, hs, he, Option.some.injEq, reduceCtorEq] at h
    exact Or.inr ⟨h ▸ rfl, rfl⟩
  | forward =>
    rcases hs : u.service <;>
      simp only [Uplink.runService, hs, Option.some.injEq, reduceCtorEq] at h
    exact Or.inr ⟨h ▸ rfl, rfl⟩
  | _ => simp [Uplink.runService] at h

/-- A step of `GrpcService::run` blocks both tasks when it closes the circle. -/
theorem blocked_runService (h : u.runService i = some u') : u'.blocked = u.closes i := by
  rcases service_cases h with ⟨msg, rfl, hs, rfl⟩ | ⟨hw, hc⟩
  · simp [Uplink.blocked, Uplink.serviceWaits, Uplink.closes, Uplink.clientWaits, hs,
      Bool.and_comm]
  · rw [Uplink.blocked, hw, hc, Bool.false_and]

/-- A step of `grpc` blocks both tasks when it closes the circle. -/
theorem blocked_grpc (h : u.grpc i = some u') : u'.blocked = u.closes i := by
  cases i with
  | connect ok =>
    rcases hc : u.client <;> simp only [Uplink.grpc, hc, Option.some.injEq, reduceCtorEq] at h
    subst h
    cases ok <;> simp [Uplink.blocked, Uplink.serviceWaits, Uplink.closes, Uplink.clientWaits,
      StateClient.sends, hc]
  | sendEvent =>
    rcases hs : u.client.sends with _ | ⟨e, client⟩ <;>
      simp only [Uplink.grpc, hs, Option.ite_none_right_eq_some, Option.some.injEq,
        reduceCtorEq] at h
    have hnext : client.sends = none := by
      rcases hc : u.client <;> simp only [StateClient.sends, hc, Option.some.injEq, Prod.mk.injEq,
        reduceCtorEq] at hs <;> rw [← hs.2] <;> rfl
    rw [← h.2]
    simp [Uplink.blocked, Uplink.clientWaits, Uplink.closes, hnext]
  | takeUpload =>
    rcases hc : u.client <;> rcases hu : u.uploads <;>
      simp only [Uplink.grpc, hc, hu, Option.some.injEq, reduceCtorEq] at h
    subst h
    simp [Uplink.blocked, Uplink.clientWaits, Uplink.closes, StateClient.sends]
  | stream ok =>
    rcases hc : u.client <;> cases ok <;>
      simp only [Uplink.grpc, hc, Option.some.injEq, reduceCtorEq, Bool.false_eq_true, if_true,
        if_false] at h <;>
      subst h <;>
      simp [Uplink.blocked, Uplink.serviceWaits, Uplink.clientWaits, Uplink.closes,
        StateClient.sends, hc]
  | inbound msg =>
    rcases hc : u.client <;> rcases msg with _ | msg <;>
      simp only [Uplink.grpc, hc, Option.some.injEq, reduceCtorEq] at h <;>
      subst h <;>
      simp [Uplink.blocked, Uplink.serviceWaits, Uplink.clientWaits, Uplink.closes,
        StateClient.sends, hc]
  | wake =>
    rcases hc : u.client <;> simp only [Uplink.grpc, hc, Option.some.injEq, reduceCtorEq] at h
    subst h
    simp [Uplink.blocked, Uplink.clientWaits, Uplink.closes, StateClient.sends]
  | _ => simp [Uplink.grpc] at h

/-- A step of the uplink is a step of one of its tasks. -/
theorem step_cases (h : (machine α β).step u i = some u') :
    u.runService i = some u' ∨ u.grpc i = some u' := by
  cases i <;> first | exact Or.inl h | exact Or.inr h

theorem blocked_step (h : (machine α β).step u i = some u') : u'.blocked = u.closes i := by
  rcases step_cases h with h | h
  · exact blocked_runService h
  · exact blocked_grpc h

/-- Nothing ends the circular wait: neither task has a step. -/
theorem blocked_for_ever (h : u.blocked = true) : (machine α β).step u i = none := by
  simp only [Uplink.blocked, Uplink.serviceWaits, Uplink.clientWaits, Bool.and_eq_true,
    Bool.not_eq_true'] at h
  obtain ⟨hs, hc, he⟩ := h
  rcases hservice : u.service with _ | msg | e <;> rw [hservice] at hs <;>
    simp only [Bool.false_eq_true, Bool.not_eq_true'] at hs
  cases i <;> rcases hclient : u.client <;>
    simp_all [machine, Uplink.step, Uplink.runService, Uplink.grpc, StateClient.sends]

/-- `grpc` leaves `GrpcService::run` where it is, and takes uploads only. -/
theorem grpc_frame (h : u.grpc i = some u') :
    u'.service = u.service ∧ u'.uploads.length ≤ u.uploads.length := by
  cases i with
  | sendEvent =>
    rcases hs : u.client.sends <;>
      simp only [Uplink.grpc, hs, Option.ite_none_right_eq_some, Option.some.injEq,
        reduceCtorEq] at h
    rw [← h.2]
    exact ⟨rfl, Nat.le_refl _⟩
  | takeUpload =>
    rcases hc : u.client <;> rcases hu : u.uploads <;>
      simp only [Uplink.grpc, hc, hu, Option.some.injEq, reduceCtorEq] at h
    subst h
    simp
  | stream ok =>
    rcases hc : u.client <;> cases ok <;>
      simp only [Uplink.grpc, hc, Option.some.injEq, reduceCtorEq, Bool.false_eq_true, if_true,
        if_false] at h <;>
      subst h <;> exact ⟨rfl, Nat.le_refl _⟩
  | inbound msg =>
    rcases hc : u.client <;> rcases msg with _ | msg <;>
      simp only [Uplink.grpc, hc, Option.some.injEq, reduceCtorEq] at h <;>
      subst h <;> exact ⟨rfl, Nat.le_refl _⟩
  | connect ok =>
    rcases hc : u.client <;> simp only [Uplink.grpc, hc, Option.some.injEq, reduceCtorEq] at h
    subst h
    exact ⟨rfl, Nat.le_refl _⟩
  | wake =>
    rcases hc : u.client <;> simp only [Uplink.grpc, hc, Option.some.injEq, reduceCtorEq] at h
    subst h
    exact ⟨rfl, Nat.le_refl _⟩
  | _ => simp [Uplink.grpc] at h

/-- While uploads are handed over with room only, `GrpcService::run` never
waits for `grpc`. -/
theorem paced_step (hw : u.serviceWaits = false) (hp : u.paced i = true)
    (h : (machine α β).step u i = some u') : u'.serviceWaits = false := by
  rcases step_cases h with h | h
  · rcases service_cases h with ⟨msg, rfl, hs, rfl⟩ | ⟨hw', -⟩
    · simpa [Uplink.serviceWaits, Uplink.paced] using hp
    · exact hw'
  · obtain ⟨hservice, hlen⟩ := grpc_frame h
    rcases hs : u.service with _ | msg | e <;> rw [hs] at hservice
    · simp [Uplink.serviceWaits, hservice]
    · simp only [Uplink.serviceWaits, hs, hservice, capacity, room_some, Bool.not_eq_false',
        decide_eq_true_eq] at hw ⊢
      omega
    · simp [Uplink.serviceWaits, hservice]

end Steps

/-! ## The law -/

/-- A run never has the two tasks wait on each other exactly when no step of
it closes the circle; it is enough that uploads are handed over only while
their channel has room. -/
theorem run_and_grpc_never_wait_on_each_other (t : List (Uplink α β × Label α β))
    (u : Uplink α β) (run : (machine α β).Run t u) :
    ((∀ x ∈ Machine.visited t u, ¬ x.blocked = true) ↔
      Machine.Meets (fun u i => ¬ u.closes i = true) t) ∧
    (Machine.Meets (fun u i => u.paced i = true) t →
      ∀ x ∈ Machine.visited t u, ¬ x.blocked = true) := by
  constructor
  · refine run.avoids_iff (fun _ => True) (fun u => u.blocked = true)
      (fun u i => u.closes i = true) ?_ ?_ ?_
    · rintro u rfl
      exact ⟨trivial, by simp [Uplink.blocked, Uplink.serviceWaits, Uplink.new]⟩
    · exact fun _ _ _ _ _ => trivial
    · intro u i u' _ _ h
      rw [blocked_step h]
  · intro hpaced x hx hblocked
    have hwaits := run.invariant_visited (fun u => u.serviceWaits = false)
      (fun u i => u.paced i = true) ?_ ?_ hpaced x hx
    · simp [Uplink.blocked, hwaits] at hblocked
    · rintro u rfl
      rfl
    · exact fun u i u' hw hp h => paced_step hw hp h

/-- An outage: 51 uploads fill the channel and the select, and 51 attempts
to connect fail. -/
def longOutage : List (Label Nat Nat) :=
  (List.replicate 50 [.upload 0, .queueUpload]).flatten ++ [.upload 0] ++
    (List.replicate 50 [.connect false, .sendEvent, .wake]).flatten ++ [.connect false]

theorem a_long_outage_blocks_the_uplink :
    ¬ ∀ (t : List (Uplink Nat Nat × Label Nat Nat)) (u : Uplink Nat Nat),
      (machine Nat Nat).Run t u → ¬ u.blocked = true := by
  intro h
  have h0 : (machine Nat Nat).init Uplink.new := rfl
  have hrun := Machine.run_of_final longOutage h0 (by decide +kernel)
  refine h _ _ hrun ?_
  decide +kernel

/-- An outage with the same attempts, and only 50 uploads. -/
theorem fifty_uploads_do_not_block :
    let t := (machine Nat Nat).trace Uplink.new
      ((List.replicate 50 [.upload 0, .queueUpload]).flatten ++
        (List.replicate 50 [.connect false, .sendEvent, .wake]).flatten ++ [.connect false])
    Machine.Meets (fun u i => u.paced i = true) t ∧ ∀ p ∈ t, ¬ p.1.blocked = true := by
  have hpaced : Machine.Meets (fun u i => u.paced i = true)
      ((machine Nat Nat).trace Uplink.new
        ((List.replicate 50 [.upload 0, .queueUpload]).flatten ++
          (List.replicate 50 [.connect false, .sendEvent, .wake]).flatten ++
          [.connect false])) := by decide +kernel
  have h0 : (machine Nat Nat).init Uplink.new := rfl
  have hall := (run_and_grpc_never_wait_on_each_other _ _
    (Machine.run_of_final _ h0 (by decide +kernel))).2 hpaced
  exact ⟨hpaced, fun p hp => hall p.1 (Machine.mem_visited hp _)⟩

end Model

end EdgeGateway.Grpc
