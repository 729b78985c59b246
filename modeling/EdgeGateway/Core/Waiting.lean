-- The core and the message service as tasks over bounded channels. Both send from
-- within the handling of what they have taken, in opposite directions: each can
-- find the channel of the other full. The other services are outside: they write
-- and read the channels of the core in any order.
import EdgeGateway.Core.Domain
import EdgeGateway.Lib.Mailbox

namespace EdgeGateway.Core

open EdgeGateway.Lib EdgeGateway.Message EdgeGateway.Networks EdgeGateway.Database

/-! ## Channels and tasks -/

inductive Service where
  | data
  | firmware
  | fsm
  | grpc
  | heartbeat
  | message
  | metrics
  | mqtt
  | network
  deriving Repr, DecidableEq

/-- What a service answers. -/
def Service.Answer : Service → Type
  | .data => DataResponse
  | .firmware => Firmware.FirmwareServiceResponse
  | .fsm => Fsm.FsmServiceResponse
  | .grpc => InternalEvent
  | .heartbeat => InternalEvent
  | .message => MessageServiceResponse
  | .metrics => ServerMessage
  | .mqtt => InternalEvent
  | .network => NetworkResponse

/-- What a service takes. The metrics service takes nothing. -/
def Service.Command : Service → Type
  | .data => DataCommand
  | .firmware => Firmware.FirmwareServiceCommand
  | .fsm => Fsm.FsmServiceCommand
  | .grpc => FromEdge
  | .heartbeat => ServerMessage
  | .message => MessageServiceCommand
  | .metrics => Empty
  | .mqtt => MqttCommand
  | .network => NetworkServiceCommand

/-- The channels of `Channels::new`, and those that `MessageService::run` makes:
`responses` is its `rx`, `command` leads to each of its tasks. -/
inductive Channel where
  | toCore (service : Service)
  | fromCore (service : Service)
  | responses
  | internalToHub
  | serverToHub
  | hubToServer
  | command (task : MessageTask)
  deriving Repr, DecidableEq

def Channel.Message : Channel → Type
  | .toCore service => service.Answer
  | .fromCore service => service.Command
  | .responses => MessageServiceResponse
  | .internalToHub => InternalEvent
  | .serverToHub => ServerMessage
  | .hubToServer => ServerMessage
  | .command _ => MessageServiceCommand

inductive Task where
  | core
  | messageService
  | task (task : MessageTask)
  deriving Repr, DecidableEq

/-- A message on its way into a channel. -/
abbrev Send := (c : Channel) × c.Message

def Service.input : (service : Service) → service.Answer → Input
  | .data => Input.dataService
  | .firmware => Input.firmwareService
  | .fsm => Input.fsmService
  | .grpc => Input.grpcService
  | .heartbeat => Input.heartbeatService
  | .message => Input.messageService
  | .metrics => Input.metricsService
  | .mqtt => Input.mqttService
  | .network => Input.networkService

def Output.send : Output → Send
  | .toDataService command => ⟨.fromCore .data, command⟩
  | .toFirmwareService command => ⟨.fromCore .firmware, command⟩
  | .toFsmService command => ⟨.fromCore .fsm, command⟩
  | .toGrpcService upload => ⟨.fromCore .grpc, upload⟩
  | .toHeartbeatService msg => ⟨.fromCore .heartbeat, msg⟩
  | .toMessageService command => ⟨.fromCore .message, command⟩
  | .toMqttService command => ⟨.fromCore .mqtt, command⟩
  | .toNetworkService command => ⟨.fromCore .network, command⟩

/-- The channel of what a task of the message service sends. -/
def sendOf : TaskSend → Send
  | .toCore response => ⟨.responses, response⟩
  | .toMsgToServer msg => ⟨.hubToServer, msg⟩
  | .internalToHub event => ⟨.internalToHub, event⟩
  | .serverToHub msg => ⟨.serverToHub, msg⟩

/-! ## The tasks -/

/-- What the tasks of the message service know of the two connections. -/
structure Memory where
  msgToHub : LocalStatus
  msgFromHub : ServerStatus
  msgToServer : ServerStatus
  deriving Repr, DecidableEq

/-- What a task finds outside: the clock and the topology. -/
structure Outside where
  now : Int64
  manager : NetworkManager

/-- What the reader of a channel does with a message. -/
def handle (idEdge : String) (e : Outside) (s : Memory) :
    (c : Channel) → c.Message → Memory × List Send
  | .toCore service, answer => (s, (run (service.input answer)).map Output.send)
  | .fromCore .message, command =>
    (s, (MessageServiceCommand.route idEdge e.now command).map (fun r => ⟨.command r.1, r.2⟩))
  | .fromCore _, _ => (s, [])
  | .responses, response => (s, [⟨.toCore .message, response⟩])
  | .internalToHub, event => ({ s with msgToHub := msgToHubInternal s.msgToHub event }, [])
  | .serverToHub, msg =>
    (s, ((msgToHubServer e.manager s.msgToHub msg).map
      (fun out => ⟨.responses, MessageServiceResponse.serialized out⟩)).toList)
  | .hubToServer, msg => (s, (msgToServerHub idEdge s.msgToServer msg).map sendOf)
  | .command .msgToHub, command =>
    (s, ((msgToHub e.manager s.msgToHub command).map
      (fun out => ⟨.responses, MessageServiceResponse.serialized out⟩)).toList)
  | .command .msgFromHub, command =>
    let (status, sends) := Message.msgFromHub e.manager s.msgFromHub command
    ({ s with msgFromHub := status }, sends.map sendOf)
  | .command .msgToServer, command =>
    let (status, sends) := Message.msgToServer idEdge e.now s.msgToServer command
    ({ s with msgToServer := status }, sends.map sendOf)
  | .command .msgFromServer, command => (s, (msgFromServer command).map sendOf)

/-- The channels of the core hold `bufferSize` messages, those of the message
service a hundred. -/
def wiring (idEdge : String) (bufferSize : Nat) :
    Wiring Task Channel Channel.Message Memory Outside where
  cap
    | .toCore _ => bufferSize
    | .fromCore _ => bufferSize
    | _ => 100
  reader
    | .toCore _ => some .core
    | .fromCore service => if service = .message then some .messageService else none
    | .responses => some .messageService
    | .internalToHub => some (.task .msgToHub)
    | .serverToHub => some (.task .msgToHub)
    | .hubToServer => some (.task .msgToServer)
    | .command task => some (.task task)
  fed
    | .toCore service => service ≠ .message
    | _ => false
  handle := handle idEdge

/-- Nothing waits, and the core begins with what it sends before its loop. -/
def atStart : Mailbox Task Channel Channel.Message Memory where
  queue := fun _ => []
  pending
    | .core => start.map Output.send
    | _ => []
  memory := { msgToHub := .connected, msgFromHub := .connected, msgToServer := .connected }

def tasks (idEdge : String) (bufferSize : Nat) :
    Machine (Mailbox Task Channel Channel.Message Memory)
      (Transfer Task Channel Channel.Message Outside) :=
  Mailbox.machine (wiring idEdge bufferSize) (fun g => g = atStart)

/-! ## Who writes where -/

theorem channel_send (out : Output) : ∃ service, out.send.1 = .fromCore service := by
  cases out <;> exact ⟨_, rfl⟩

theorem channel_sendOf (s : TaskSend) (service : Service) :
    (sendOf s).1 ≠ .fromCore service ∧ (sendOf s).1 ≠ .toCore service := by
  cases s <;> simp [sendOf]

/-- The core writes the channels of the services, and only a response of its tasks
makes the message service write to the core. -/
theorem channel_handle (idEdge : String) (e : Outside) (s : Memory) (c : Channel)
    (m : c.Message) {p : Send} (hp : p ∈ (handle idEdge e s c m).2) (service : Service) :
    (p.1 = .fromCore service → ∃ answering, c = .toCore answering) ∧
      (p.1 = .toCore service → c = .responses) := by
  have hsends : ∀ {sends : List TaskSend}, p ∈ sends.map sendOf →
      (p.1 = .fromCore service → ∃ answering, c = .toCore answering) ∧
        (p.1 = .toCore service → c = .responses) := by
    intro sends hp
    obtain ⟨s, -, rfl⟩ := List.mem_map.mp hp
    have hne := channel_sendOf s service
    exact ⟨fun h => absurd h hne.1, fun h => absurd h hne.2⟩
  cases c with
  | toCore answering =>
    refine ⟨fun _ => ⟨answering, rfl⟩, fun h => ?_⟩
    obtain ⟨out, -, rfl⟩ := List.mem_map.mp hp
    obtain ⟨other, hother⟩ := channel_send out
    rw [hother] at h
    cases h
  | fromCore other =>
    cases other <;> simp only [handle, List.not_mem_nil] at hp
    obtain ⟨r, -, rfl⟩ := List.mem_map.mp hp
    exact ⟨nofun, nofun⟩
  | responses =>
    rw [List.mem_singleton.mp hp]
    exact ⟨nofun, fun _ => rfl⟩
  | internalToHub => cases hp
  | serverToHub =>
    obtain ⟨out, -, rfl⟩ := Option.map_eq_some_iff.mp (Option.mem_toList.mp hp)
    exact ⟨nofun, nofun⟩
  | hubToServer => exact hsends hp
  | command task =>
    cases task with
    | msgToHub =>
      obtain ⟨out, -, rfl⟩ := Option.map_eq_some_iff.mp (Option.mem_toList.mp hp)
      exact ⟨nofun, nofun⟩
    | msgFromHub => exact hsends hp
    | msgToServer => exact hsends hp
    | msgFromServer => exact hsends hp

/-- No answer makes the core send to the message service twice. -/
theorem run_once (input : Input) :
    ((run input).map Output.send).countP (fun p => p.1 = .fromCore .message) ≤ 1 := by
  cases input with
  | dataService response =>
    rcases response with rows | epoch | _ | response
    · rfl
    · exact Nat.zero_le 1
    · exact Nat.zero_le 1
    · cases response <;> simp [run, ofData, Output.send]
  | firmwareService response => cases response <;> simp [run, ofFirmware, Output.send]
  | fsmService response =>  cases response <;> simp [run, ofFsm, Output.send]
  | messageService response =>
    rcases response with upload | out | msg | msg
    · exact Nat.zero_le 1
    · exact Nat.zero_le 1
    · cases msg <;> simp [run, ofMessage, ofHub, Output.send]
    · cases msg <;> simp [run, ofMessage, ofServer, Output.send]
  | networkService response =>
    rcases response with response | command
    · cases response <;> simp [run, ofNetwork, Output.send]
    · cases command <;> simp [run, ofNetwork, Output.send]
  | _ => simp [run, Output.send]

theorem sole_core (idEdge : String) (bufferSize : Nat) :
    (wiring idEdge bufferSize).Sole .core (.fromCore .message) where
  fed := rfl
  writer := by
    rintro e s c m t hr ⟨p, hp, hpc⟩
    obtain ⟨answering, rfl⟩ := (channel_handle idEdge e s c m hp .message).1 hpc
    exact (Option.some.inj hr).symm
  once := by
    intro e s c m
    cases c with
    | toCore answering => exact run_once _
    | _ =>
      refine (List.countP_eq_zero.mpr fun p hp hpc => ?_).le.trans (Nat.zero_le 1)
      obtain ⟨answering, hne⟩ :=
        (channel_handle idEdge e s _ m hp .message).1 (of_decide_eq_true hpc)
      cases hne

theorem sole_messageService (idEdge : String) (bufferSize : Nat) :
    (wiring idEdge bufferSize).Sole .messageService (.toCore .message) where
  fed := rfl
  writer := by
    rintro e s c m t hr ⟨p, hp, hpc⟩
    obtain rfl := (channel_handle idEdge e s c m hp .message).2 hpc
    exact (Option.some.inj hr).symm
  once := by
    intro e s c m
    cases c with
    | responses => exact List.countP_le_length
    | _ =>
      refine (List.countP_eq_zero.mpr fun p hp hpc => ?_).le.trans (Nat.zero_le 1)
      cases (channel_handle idEdge e s _ m hp .message).2 (of_decide_eq_true hpc)

/-! ## Who waits for whom -/

section Circle

variable {idEdge : String} {bufferSize : Nat}

/-- The core is suspended in a send to the message service, and the message service
in one to the core. -/
def WaitForEachOther (idEdge : String) (bufferSize : Nat)
    (g : Mailbox Task Channel Channel.Message Memory) : Prop :=
  g.Circular (wiring idEdge bufferSize) .core .messageService (.fromCore .message)
    (.toCore .message)

/-- A step that closes the circle: the core comes to a send into the full channel of
the message service, not by an answer of that service, while it is suspended in a send
to the core; or the message service to one into the full channel of the core, while the
core is suspended in a send to it. -/
def closes (idEdge : String) (bufferSize : Nat)
    (g : Mailbox Task Channel Channel.Message Memory)
    (i : Transfer Task Channel Channel.Message Outside) : Prop :=
  g.joins (wiring idEdge bufferSize) .core .messageService (.fromCore .message) (.toCore .message)
      i ∨
    g.joins (wiring idEdge bufferSize) .messageService .core (.toCore .message)
      (.fromCore .message) i

/-- The message service takes a response of its tasks only while the channel of the
core has room. -/
def takesWithRoom (idEdge : String) (bufferSize : Nat)
    (g : Mailbox Task Channel Channel.Message Memory)
    (i : Transfer Task Channel Channel.Message Outside) : Prop :=
  g.comesTo (wiring idEdge bufferSize) .messageService (.toCore .message) i = true →
    ¬ g.Full (wiring idEdge bufferSize) (.toCore .message)

instance (g : Mailbox Task Channel Channel.Message Memory) :
    Decidable (WaitForEachOther idEdge bufferSize g) :=
  inferInstanceAs (Decidable (g.Circular _ _ _ _ _))

instance (g : Mailbox Task Channel Channel.Message Memory)
    (i : Transfer Task Channel Channel.Message Outside) :
    Decidable (closes idEdge bufferSize g i) :=
  inferInstanceAs (Decidable (g.joins _ _ _ _ _ _ ∨ g.joins _ _ _ _ _ _))

theorem sole_core_atStart : atStart.Sole .core (.fromCore .message) where
  writer t p hp _ := by
    cases t with
    | core => rfl
    | _ => cases hp
  once := by decide

theorem sole_messageService_atStart : atStart.Sole .messageService (.toCore .message) where
  writer t p hp hpc := by
    cases t with
    | core =>
      obtain ⟨out, -, rfl⟩ := List.mem_map.mp hp
      obtain ⟨service, hne⟩ := channel_send out
      rw [hne] at hpc
      cases hpc
    | _ => cases hp
  once := by decide

/-- The two wait for each other in a run exactly when a step of it closes the circle,
and then for ever. While the message service takes a response only when the core has
room for it, they never do. -/
theorem core_and_message_service_wait (idEdge : String) (bufferSize : Nat)
    (t : List (Mailbox Task Channel Channel.Message Memory ×
      Transfer Task Channel Channel.Message Outside))
    (g : Mailbox Task Channel Channel.Message Memory) (run : (tasks idEdge bufferSize).Run t g) :
    ((∀ x ∈ Machine.visited t g, ¬ WaitForEachOther idEdge bufferSize x) ↔
        Machine.Meets (fun g i => ¬ closes idEdge bufferSize g i) t) ∧
      (∀ x ∈ Machine.visited t g, WaitForEachOther idEdge bufferSize x →
        WaitForEachOther idEdge bufferSize g) ∧
      (Machine.Meets (fun g i => takesWithRoom idEdge bufferSize g i) t →
        ∀ x ∈ Machine.visited t g, ¬ WaitForEachOther idEdge bufferSize x) := by
  have hcore := sole_core idEdge bufferSize
  have hservice := sole_messageService idEdge bufferSize
  have hidle :
      ¬ atStart.Suspended (wiring idEdge bufferSize) .messageService (.toCore .message) := by
    rintro ⟨hnext, -⟩
    cases hnext
  refine ⟨?_, ?_, ?_⟩
  · apply Mailbox.run_avoids_circle hcore hservice rfl rfl (by simp) _ run
    rintro g rfl
    refine ⟨⟨fun c => Nat.zero_le _, sole_core_atStart, sole_messageService_atStart⟩, ?_⟩
    exact fun h => hidle h.2
  · exact Mailbox.run_keeps_circle rfl rfl run
  · intro hroom x hx h
    have hnever := Mailbox.run_not_suspended hservice
      (by
        rintro g rfl
        exact ⟨sole_messageService_atStart, hidle⟩) run hroom x hx
    exact hnever h.2

/-! ## Concrete runs -/

/-- The topology and the clock do not matter here. -/
def still : Outside := { now := default, manager := NetworkManager.newEmpty "edge" }

/-- A hub asks to join a network, and the core takes it from the MQTT service. -/
def asked : List (Transfer Task Channel Channel.Message Outside) :=
  [.feed (.toCore .mqtt) (InternalEvent.incomingMessage (some (.linkageRequest (requestOf "h" "n")))),
    .take (.toCore .mqtt) still]

/-- The core greets the server, whose upload waits for the message service. -/
def greeting : List (Transfer Task Channel Channel.Message Outside) :=
  [.put .core, .put .core, .take (.fromCore .message) still, .put .messageService,
    .take (.command .msgToServer) still, .put (.task .msgToServer)]

/-- The request reaches the task that reads what hubs send, and comes back. -/
def passedOn : List (Transfer Task Channel Channel.Message Outside) :=
  [.put .core, .take (.fromCore .message) still, .put .messageService,
    .take (.command .msgFromHub) still, .put (.task .msgFromHub)]

/-- The message service sends a response to the core, and takes the next. -/
def answered : List (Transfer Task Channel Channel.Message Outside) :=
  [.take .responses still, .put .messageService, .take .responses still]

/-- With room for one message each, three requests of hubs are enough. -/
theorem three_requests_close_the_circle :
    ¬ ∀ (idEdge : String) (bufferSize : Nat), 1 ≤ bufferSize →
      ∀ (t : List (Mailbox Task Channel Channel.Message Memory ×
          Transfer Task Channel Channel.Message Outside))
        (g : Mailbox Task Channel Channel.Message Memory), (tasks idEdge bufferSize).Run t g →
      ∀ x ∈ Machine.visited t g, ¬ WaitForEachOther idEdge bufferSize x := by
  intro h
  have hrun := Machine.run_of_final (m := tasks "edge" 1)
    (greeting ++ asked ++ passedOn ++ answered ++ asked ++ [.put .core] ++ asked) rfl
    (by decide +kernel)
  exact h "edge" 1 (Nat.le_refl 1) _ _ hrun _ (Machine.last_mem_visited _ _) (by decide +kernel)

theorem one_request_closes_no_circle :
    (((tasks "edge" 1).final atStart (greeting ++ asked ++ passedOn)).isSome = true) ∧
    ∀ x ∈ Machine.visited ((tasks "edge" 1).trace atStart (greeting ++ asked ++ passedOn))
        (((tasks "edge" 1).final atStart (greeting ++ asked ++ passedOn)).get (by decide +kernel)),
      ¬ WaitForEachOther "edge" 1 x := by
  refine ⟨by decide +kernel, ?_⟩
  have hrun := Machine.run_of_final (m := tasks "edge" 1) (greeting ++ asked ++ passedOn) rfl
    (by decide +kernel)
  exact (core_and_message_service_wait "edge" 1 _ _ hrun).1.mpr (by decide +kernel)

end Circle

end EdgeGateway.Core
