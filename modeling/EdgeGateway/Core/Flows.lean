-- What passes through the core and the message service in a whole run, for any
-- sizes of the channels and any order of the tasks: what the core gives a service
-- is what its routes make of the answers it took, in their order; what the tasks of
-- the message service hand over arrives once and in order; and the two tasks that
-- ask whether the server is there are told the same.
import EdgeGateway.Core.Waiting
import EdgeGateway.Lib.Flow

namespace EdgeGateway.Core

open EdgeGateway.Lib EdgeGateway.Message EdgeGateway.Networks EdgeGateway.Database
open EdgeGateway.Lib.Mailbox

/-- A run of the tasks: the states left and the steps taken there. -/
abbrev Trace : Type :=
  List (Mailbox Task Channel Channel.Message Memory ×
    Transfer Task Channel Channel.Message Outside)

/-- A state of the tasks. -/
abbrev State : Type := Mailbox Task Channel Channel.Message Memory

/-! ## What the core gives -/

/-- The service that a command is for. -/
def Output.service : Output → Service
  | .toDataService _ => .data
  | .toFirmwareService _ => .firmware
  | .toFsmService _ => .fsm
  | .toGrpcService _ => .grpc
  | .toHeartbeatService _ => .heartbeat
  | .toMessageService _ => .message
  | .toMqttService _ => .mqtt
  | .toNetworkService _ => .network

/-- What the core reads in its own channels: the answers, and what it sends. -/
def answerView : (c : Channel) → c.Message → Option Input
  | .toCore service, answer => some (service.input answer)
  | _, _ => none

def commandView : (c : Channel) → c.Message → Option Output
  | .fromCore .data, command => some (.toDataService command)
  | .fromCore .firmware, command => some (.toFirmwareService command)
  | .fromCore .fsm, command => some (.toFsmService command)
  | .fromCore .grpc, upload => some (.toGrpcService upload)
  | .fromCore .heartbeat, msg => some (.toHeartbeatService msg)
  | .fromCore .message, command => some (.toMessageService command)
  | .fromCore .mqtt, command => some (.toMqttService command)
  | .fromCore .network, command => some (.toNetworkService command)
  | _, _ => none

/-- The answer that the core takes in a step. -/
def answer (g : State) : Transfer Task Channel Channel.Message Outside → List Input
  | .take (.toCore service) _ => ((g.queue (.toCore service)).take 1).map service.input
  | _ => []

/-- The answers that the core has taken, of all services. -/
def answers (l : Trace) : List Input := Machine.log answer l

/-- The commands that a service has been given. -/
def given (service : Service) (l : Trace) : List Output :=
  Machine.log (came commandView (.fromCore service)) l

/-- The commands that the core still has to send to a service. -/
def toGive (service : Service) (g : State) : List Output :=
  owed commandView g .core (.fromCore service)

/-- What of the commands is for a service. -/
def outputsFor (service : Service) (outs : List Output) : List Output :=
  outs.filter (fun out => out.service = service)

theorem commandView_send (out : Output) : commandView out.send.1 out.send.2 = some out := by
  cases out <;> rfl

theorem channel_send_service (out : Output) : out.send.1 = .fromCore out.service := by
  cases out <;> rfl

theorem sent_outputs (service : Service) (outs : List Output) :
    sent commandView (.fromCore service) (outs.map Output.send) = outputsFor service outs := by
  induction outs with
  | nil => rfl
  | cons out outs ih =>
    rw [List.map_cons, sent_split, ih]
    unfold outputsFor
    by_cases h : out.service = service
    · simp [sent, channel_send_service, h, commandView_send]
    · simp [sent, channel_send_service, h]

/-- Only the core writes the channels of the services. -/
theorem writer_core {α : Type} (v : (c : Channel) → c.Message → Option α) (idEdge : String)
    (bufferSize : Nat) (service : Service) :
    Writer v (wiring idEdge bufferSize) .core (.fromCore service) where
  fed h := by cases h
  others := by
    intro e s c₀ m t₀ hr ht
    unfold sent
    have hnone : (handle idEdge e s c₀ m).2.filter (fun p => p.1 = .fromCore service) = [] := by
      rw [List.filter_eq_nil_iff]
      intro p hp hpc
      obtain ⟨answering, rfl⟩ :=
        (channel_handle idEdge e s c₀ m hp service).1 (of_decide_eq_true hpc)
      exact ht (Option.some.inj hr).symm
    exact List.filterMap_eq_nil_iff.mpr (by simp [wiring, hnone])

/-- At the start only the core has something to send. -/
theorem owed_atStart {α : Type} (v : (c : Channel) → c.Message → Option α) (c : Channel)
    {t : Task} (ht : t ≠ .core) : owed v atStart t c = [] := by
  cases t with
  | core => exact absurd rfl ht
  | _ => rfl

/-- What an answer makes the core send to a service is what its routes say. -/
theorem caused_core_step (idEdge : String) (bufferSize : Nat) (service : Service) {g g' : State}
    {i : Transfer Task Channel Channel.Message Outside}
    (hs : g.step (wiring idEdge bufferSize) i = some g') :
    caused commandView (wiring idEdge bufferSize) .core (.fromCore service) g i =
      outputsFor service ((answer g i).flatMap Core.run) := by
  cases move_of_step hs with
  | @take c t m rest e hr hq hp =>
    cases c with
    | toCore answering =>
      have hrun : (answer g (.take (.toCore answering) e)).flatMap Core.run =
          Core.run (answering.input m) := by
        simp only [answer, hq]
        exact List.append_nil _
      simp only [caused, hq, hrun]
      exact sent_outputs service (Core.run (answering.input m))
    | fromCore other =>
      cases other with
      | message => simp only [caused, hq]; rfl
      | _ => cases hr
    | _ => simp only [caused, hq]; rfl
  | put hp hroom => rfl
  | feed m hf hroom => rfl
  | drain hr hq => rfl

theorem caused_core (idEdge : String) (bufferSize : Nat) (service : Service) {l : Trace} {g : State}
    (run : (tasks idEdge bufferSize).Run l g) :
    Machine.log (caused commandView (wiring idEdge bufferSize) .core (.fromCore service)) l =
      outputsFor service ((answers l).flatMap Core.run) := by
  induction run with
  | start _ => rfl
  | @move l g g' i r hs ih =>
    have hstep := caused_core_step idEdge bufferSize service hs
    unfold answers outputsFor at *
    rw [Machine.log_snoc, Machine.log_snoc, List.flatMap_append, List.filter_append, ih, hstep]

/-- What the services hand to the core, and what it hands to them. -/
theorem the_core_forwards_in_order (idEdge : String) (bufferSize : Nat) (l : Trace) (g : State)
    (run : (tasks idEdge bufferSize).Run l g) (service : Service) :
    outputsFor service (start ++ (answers l).flatMap Core.run) =
        given service l ++ toGive service g ∧
      Machine.log (came answerView (.toCore service)) l =
        Machine.log (went answerView (.toCore service)) l ++
          held answerView g (.toCore service) := by
  constructor
  · have howed := run_owed (writer_core commandView idEdge bufferSize service)
      (fun t ht => owed_atStart commandView _ ht) run
    have hstart : owed commandView atStart .core (.fromCore service) =
        outputsFor service start := sent_outputs service start
    rw [caused_core idEdge bufferSize service run, hstart] at howed
    unfold outputsFor at howed ⊢
    rw [List.filter_append]
    exact howed
  · exact run_held run (.toCore service)

/-- The first upload, and then a request of a hub, come to the core. -/
def greeted : List (Transfer Task Channel Channel.Message Outside) :=
  greeting ++ asked ++ passedOn ++
    [.take .responses still, .put .messageService, .take (.toCore .message) still, .put .core]

theorem the_greeting_is_given :
    ∃ l g, (tasks "edge" 1).Run l g ∧ (given .grpc l).length = 1 ∧
      outputsFor .grpc (start ++ (answers l).flatMap Core.run) =
        given .grpc l ++ toGive .grpc g := by
  have hrun := Machine.run_of_final (m := tasks "edge" 1) greeted rfl (by decide +kernel)
  exact ⟨_, _, hrun, by decide +kernel, (the_core_forwards_in_order "edge" 1 _ _ hrun .grpc).1⟩

/-! ## What the tasks of the message service hand over -/

/-- The command hands on a message of a hub or of the server, or one for them. -/
def Output.fromMessages : Output → Bool
  | .toDataService (.hub _) => true
  | .toFirmwareService (.update _) => true
  | .toFirmwareService (.hubResponse _) => true
  | .toFsmService (.fromHub _) => true
  | .toGrpcService _ => true
  | .toHeartbeatService _ => true
  | .toMqttService (.serialized _) => true
  | .toNetworkService (.serverMessage _) => true
  | .toNetworkService (.hubMessage _) => true
  | _ => false

/-- A selection of such commands, all for one service. -/
structure Selects {α : Type} (f : Output → Option α) (service : Service) : Prop where
  fromMessages : ∀ out, (f out).isSome = true → out.fromMessages = true
  service : ∀ out, (f out).isSome = true → out.service = service

/-- A response on its way to the service that it is for. -/
def deliveryView {α : Type} (f : Output → Option α) : (c : Channel) → c.Message → Option α
  | .responses, response => (ofMessage response).findSome? f
  | .toCore .message, response => (ofMessage response).findSome? f
  | .fromCore service, command => (commandView (.fromCore service) command).bind f
  | _, _ => none

/-- The way of a response to a service. -/
def delivery : List (Task × Channel) :=
  [(.core, .toCore .message), (.messageService, .responses)]

/-- A response gives one command at most. -/
theorem ofMessage_cases (response : MessageServiceResponse) :
    ofMessage response = [] ∨ ∃ out, ofMessage response = [out] := by
  cases response with
  | edgeUpload upload => exact .inr ⟨_, rfl⟩
  | serialized msg => exact .inr ⟨_, rfl⟩
  | fromHub msg => cases msg <;> first | exact .inl rfl | exact .inr ⟨_, rfl⟩
  | fromServer msg => cases msg <;> first | exact .inl rfl | exact .inr ⟨_, rfl⟩

/-- No other answer makes the core hand on a message. -/
theorem fromMessages_run {service : Service} (h : service ≠ .message) (answer : service.Answer) :
    ∀ out ∈ run (service.input answer), out.fromMessages = false := by
  cases service with
  | message => exact absurd rfl h
  | data =>
    rcases answer with rows | epoch | _ | response
    · simp [Service.input, run, ofData, Output.fromMessages]
    · simp [Service.input, run, ofData, Output.fromMessages]
    · simp [Service.input, run, ofData, Output.fromMessages]
    · cases response <;> simp [Service.input, run, ofData, Output.fromMessages]
  | firmware => cases answer <;> simp [Service.input, run, ofFirmware, Output.fromMessages]
  | fsm => cases answer <;> simp [Service.input, run, ofFsm, Output.fromMessages]
  | network =>
    rcases answer with response | command
    · cases response <;> simp [Service.input, run, ofNetwork, Output.fromMessages]
    · cases command <;> simp [Service.input, run, ofNetwork, Output.fromMessages]
  | _ => simp [Service.input, run, Output.fromMessages]

section Delivery

variable {α : Type} {f : Output → Option α} {service : Service}

theorem sent_delivery (h : Selects f service) (outs : List Output) :
    sent (deliveryView f) (.fromCore service) (outs.map Output.send) = outs.filterMap f := by
  have hview : ∀ out : Output, deliveryView f out.send.1 out.send.2 = f out := by
    intro out
    cases out <;> rfl
  induction outs with
  | nil => rfl
  | cons out outs ih =>
    rw [List.map_cons, sent_split, ih, filterMap_cons_toList]
    congr 1
    by_cases hs : out.service = service
    · simp only [sent, channel_send_service, hs, List.filter_cons, List.filter_nil, decide_true,
        if_true, filterMap_cons_toList, List.filterMap_nil, List.append_nil]
      rw [hview]
    · have hnone : f out = none := by
        by_contra hsome
        exact hs (h.service out (Option.isSome_iff_ne_none.mpr hsome))
      simp [sent, channel_send_service, hs, hnone]

theorem relay_core (h : Selects f service) (idEdge : String) (bufferSize : Nat) :
    Relay (deliveryView f) (wiring idEdge bufferSize) .core (.toCore .message)
      (.fromCore service) where
  reader := rfl
  writer := writer_core _ idEdge bufferSize service
  passes := by
    intro e s m
    have hsent := sent_delivery h (ofMessage m)
    refine hsent.trans ?_
    show _ = ((ofMessage m).findSome? f).toList
    rcases ofMessage_cases m with hnone | ⟨out, hout⟩
    · rw [hnone]
      rfl
    · rw [hout]
      cases hf : f out <;> simp [hf]
  alone := by
    intro e s c₀ m hr hc
    cases c₀ with
    | toCore answering =>
      have hne : answering ≠ .message := fun heq => hc (by rw [heq])
      refine (sent_delivery h (run (answering.input m))).trans ?_
      rw [List.filterMap_eq_nil_iff]
      intro out hout
      by_contra hsome
      have hfrom := h.fromMessages out (Option.isSome_iff_ne_none.mpr hsome)
      rw [fromMessages_run hne m out hout] at hfrom
      cases hfrom
    | fromCore other =>
      cases other with
      | message => cases hr
      | _ => cases hr
    | _ => cases hr

theorem relay_messageService (f : Output → Option α) (idEdge : String) (bufferSize : Nat) :
    Relay (deliveryView f) (wiring idEdge bufferSize) .messageService .responses
      (.toCore .message) := by
  apply relay_of_source rfl rfl
  · exact fun e s c₀ m p hp hpc => (channel_handle idEdge e s c₀ m hp .message).2 hpc
  · exact fun e s m => (sent_cons_self _ _ _).trans (List.append_nil _)

theorem linked_delivery (h : Selects f service) (idEdge : String) (bufferSize : Nat) :
    Linked (deliveryView f) (wiring idEdge bufferSize) (.fromCore service) delivery :=
  .cons (relay_core h idEdge bufferSize)
    (.cons (relay_messageService f idEdge bufferSize) (.nil _))

theorem owed_start (h : Selects f service) :
    owed (deliveryView f) atStart .core (.fromCore service) = [] := by
  refine (sent_delivery h start).trans ?_
  rw [List.filterMap_eq_nil_iff]
  intro out hout
  by_contra hsome
  have hfrom := h.fromMessages out (Option.isSome_iff_ne_none.mpr hsome)
  have hnone : ∀ out ∈ start, out.fromMessages = false := by decide
  rw [hnone out hout] at hfrom
  cases hfrom

theorem reserved_atStart (f : Output → Option α) (service : Service) :
    Reserved (deliveryView f) atStart (.fromCore service) delivery := by
  refine ⟨fun t ht => owed_atStart _ _ ht, fun t ht => ?_, trivial⟩
  cases t <;> rfl

/-- What the tasks hand over to the message service, of what is selected. -/
def handedOver (f : Output → Option α) (l : Trace) : List α :=
  Machine.log (came (deliveryView f) .responses) l

/-- What a service has taken from its channel. -/
def arrived (f : Output → Option α) (service : Service) (l : Trace) : List α :=
  Machine.log (went (deliveryView f) (.fromCore service)) l

/-- What is between the tasks and the service, the next to arrive at the front. -/
def underWay (f : Output → Option α) (service : Service) (g : State) : List α :=
  lane (deliveryView f) g (.fromCore service) delivery

theorem run_delivery (h : Selects f service) {idEdge : String} {bufferSize : Nat} {l : Trace}
    {g : State} (run : (tasks idEdge bufferSize).Run l g) :
    handedOver f l = arrived f service l ++ underWay f service g := by
  have hlane := run_lane (linked_delivery h idEdge bufferSize) (reserved_atStart f service) run
  have hstart : lane (deliveryView f) atStart (.fromCore service) delivery = [] := by
    show [] ++ owed (deliveryView f) atStart .core (.fromCore service) ++ [] = []
    rw [owed_start h]
    rfl
  rw [hstart, List.nil_append] at hlane
  exact hlane

end Delivery

/-- What is for a service, of the messages that the tasks hand over. -/
def messageFor (service : Service) (out : Output) : Option Output :=
  if out.fromMessages = true ∧ out.service = service then some out else none

theorem selects_messageFor (service : Service) : Selects (messageFor service) service := by
  have hsome : ∀ out, (messageFor service out).isSome = true →
      out.fromMessages = true ∧ out.service = service := by
    intro out h
    unfold messageFor at h
    split at h
    · assumption
    · cases h
  exact ⟨fun out h => (hsome out h).1, fun out h => (hsome out h).2⟩

/-- Whatever the tasks of the message service hand over for a service arrives there once and in
order, or is under way. -/
theorem responses_reach_their_service (idEdge : String) (bufferSize : Nat) (l : Trace) (g : State)
    (run : (tasks idEdge bufferSize).Run l g) (service : Service) :
    handedOver (messageFor service) l =
      arrived (messageFor service) service l ++ underWay (messageFor service) service g :=
  run_delivery (selects_messageFor service) run

theorem the_request_is_under_way :
    ∃ l g, (tasks "edge" 1).Run l g ∧ (handedOver (messageFor .network) l).length = 1 ∧
      handedOver (messageFor .network) l =
        arrived (messageFor .network) .network l ++ underWay (messageFor .network) .network g := by
  have hrun := Machine.run_of_final (m := tasks "edge" 1) greeted rfl (by decide +kernel)
  exact ⟨_, _, hrun, by decide +kernel,
    responses_reach_their_service "edge" 1 _ _ hrun .network⟩

/-! ## Uploads and publications -/

/-- What a task hands over to the message service. -/
def handed (sends : List TaskSend) : List MessageServiceResponse :=
  sends.filterMap fun s =>
    match s with
    | .toCore response => some response
    | _ => none

def uploadsOf (sends : List TaskSend) : List FromEdge :=
  (handed sends).filterMap fun response =>
    match response with
    | .edgeUpload upload => some upload
    | _ => none

/-- The uploads that a step makes `msg_to_server` send. -/
def upload (idEdge : String) (g : State) :
    Transfer Task Channel Channel.Message Outside → List FromEdge
  | .take (.command .msgToServer) e =>
    ((g.queue (.command .msgToServer)).take 1).flatMap
      (fun command => uploadsOf (Message.msgToServer idEdge e.now g.memory.msgToServer command).2)
  | .take .hubToServer _ =>
    ((g.queue .hubToServer).take 1).flatMap
      (fun msg => uploadsOf (msgToServerHub idEdge g.memory.msgToServer msg))
  | _ => []

/-- The messages that a step makes `msg_to_hub` publish. -/
def publication (g : State) :
    Transfer Task Channel Channel.Message Outside → List SerializedMessage
  | .take (.command .msgToHub) e =>
    ((g.queue (.command .msgToHub)).take 1).flatMap
      (fun command => (Message.msgToHub e.manager g.memory.msgToHub command).toList)
  | .take .serverToHub e =>
    ((g.queue .serverToHub).take 1).flatMap
      (fun msg => (msgToHubServer e.manager g.memory.msgToHub msg).toList)
  | _ => []

/-- All uploads that a run has made `msg_to_server` send. -/
def uploads (idEdge : String) (l : Trace) : List FromEdge := Machine.log (upload idEdge) l

def publications (l : Trace) : List SerializedMessage := Machine.log publication l

theorem selects_upload : Selects Output.upload .grpc where
  fromMessages out h := by cases out <;> first | rfl | cases h
  service out h := by cases out <;> first | rfl | cases h

theorem selects_mqttMessage : Selects Output.mqttMessage .mqtt where
  fromMessages out h := by
    cases out with
    | toMqttService command => cases command <;> first | rfl | cases h
    | _ => cases h
  service out h := by cases out <;> first | rfl | cases h

section Responses

variable {α : Type} {f : Output → Option α}

/-- What is read of the responses that a task hands over. -/
theorem sent_responses (f : Output → Option α) (sends : List TaskSend) :
    sent (deliveryView f) .responses (sends.map sendOf) =
      (handed sends).filterMap (fun response => (ofMessage response).findSome? f) := by
  induction sends with
  | nil => rfl
  | cons s sends ih =>
    rw [List.map_cons, sent_split, ih]
    cases s with
    | toCore response =>
      rw [show handed (.toCore response :: sends) = response :: handed sends from rfl,
        filterMap_cons_toList]
      rfl
    | _ => rfl

theorem sent_serialized (f : Output → Option α) (out : Option SerializedMessage) :
    sent (deliveryView f) .responses ((out.map (fun out =>
        (⟨.responses, MessageServiceResponse.serialized out⟩ : Send))).toList) =
      out.toList.filterMap (fun out => f (.toMqttService (.serialized out))) := by
  cases out with
  | none => rfl
  | some out =>
    refine (sent_cons_self _ _ _).trans ?_
    show ((ofMessage (.serialized out)).findSome? f).toList ++ [] = _
    cases hf : f (.toMqttService (.serialized out)) <;> simp [ofMessage, hf]

/-- `msg_from_hub` hands over messages of hubs. -/
theorem mem_handed_msgFromHub {m : NetworkManager} {state : ServerStatus}
    {command : MessageServiceCommand} {response : MessageServiceResponse}
    (h : response ∈ handed (Message.msgFromHub m state command).2) :
    ∃ msg, response = .fromHub msg := by
  obtain ⟨s, hs, hr⟩ := List.mem_filterMap.mp h
  cases s with
  | toCore answer =>
    obtain rfl := Option.some.inj hr
    cases command with
    | internal event =>
      cases event with
      | incomingMessage decoded =>
        cases decoded with
        | none => simp [Message.msgFromHub] at hs
        | some msg =>
          cases state with
          | disconnected =>
            simp only [Message.msgFromHub, List.mem_singleton, TaskSend.toCore.injEq] at hs
            exact ⟨msg, hs⟩
          | connected =>
            simp only [Message.msgFromHub] at hs
            cases msg <;> simp [fromHubConnected] at hs <;> exact ⟨_, hs⟩
      | _ => simp [Message.msgFromHub] at hs
    | _ => simp [Message.msgFromHub] at hs
  | _ => cases hr

/-- `msg_from_server` hands over messages of the server. -/
theorem mem_handed_msgFromServer {command : MessageServiceCommand}
    {response : MessageServiceResponse} (h : response ∈ handed (Message.msgFromServer command)) :
    ∃ msg, response = .fromServer msg := by
  obtain ⟨s, hs, hr⟩ := List.mem_filterMap.mp h
  rcases mem_msgFromServer hs with ⟨msg, rfl⟩ | ⟨msg, rfl⟩
  · exact ⟨msg, (Option.some.inj hr).symm⟩
  · cases hr

/-- What is neither an upload nor a publication. -/
theorem plain_response (response : MessageServiceResponse)
    (h : (∃ msg, response = .fromHub msg) ∨ ∃ msg, response = .fromServer msg) :
    (ofMessage response).findSome? Output.upload = none ∧
      (ofMessage response).findSome? Output.mqttMessage = none := by
  rcases h with ⟨msg, rfl⟩ | ⟨msg, rfl⟩ <;> cases msg <;> exact ⟨rfl, rfl⟩

/-- Neither the core nor the message service itself writes the channel of the responses. -/
theorem sent_handle_outer (idEdge : String) (e : Outside) (s : Memory) (c : Channel) (m : c.Message)
    (h : (∃ service, c = .toCore service) ∨ (∃ service, c = .fromCore service) ∨ c = .responses) :
    sent (deliveryView f) .responses (handle idEdge e s c m).2 = [] := by
  unfold sent
  rw [List.filterMap_eq_nil_iff]
  intro p hp
  obtain ⟨hp, hpc⟩ := List.mem_filter.mp hp
  have hresponses : p.1 = .responses := of_decide_eq_true hpc
  rcases h with ⟨service, rfl⟩ | ⟨service, rfl⟩ | rfl
  · obtain ⟨out, -, rfl⟩ := List.mem_map.mp hp
    rw [channel_send_service] at hresponses
    cases hresponses
  · cases service with
    | message =>
      obtain ⟨r, -, rfl⟩ := List.mem_map.mp hp
      cases hresponses
    | _ => cases hp
  · rw [List.mem_singleton.mp hp] at hresponses
    cases hresponses

theorem writer_upload (idEdge : String) (bufferSize : Nat) :
    Writer (deliveryView Output.upload) (wiring idEdge bufferSize) (.task .msgToServer)
      .responses where
  fed h := by cases h
  others := by
    intro e s c₀ m t₀ hr ht
    have hplain : ∀ sends : List TaskSend, (∀ response ∈ handed sends,
        (∃ msg, response = .fromHub msg) ∨ ∃ msg, response = .fromServer msg) →
        sent (deliveryView Output.upload) .responses (sends.map sendOf) = [] := by
      intro sends hsends
      rw [sent_responses, List.filterMap_eq_nil_iff]
      exact fun response hresponse => (plain_response response (hsends response hresponse)).1
    cases c₀ with
    | toCore service => exact sent_handle_outer idEdge e s _ m (.inl ⟨_, rfl⟩)
    | fromCore service => exact sent_handle_outer idEdge e s _ m (.inr (.inl ⟨_, rfl⟩))
    | responses => exact sent_handle_outer idEdge e s _ m (.inr (.inr rfl))
    | internalToHub => rfl
    | serverToHub => exact (sent_serialized _ _).trans (List.filterMap_eq_nil_iff.mpr fun _ _ => rfl)
    | hubToServer => exact absurd (Option.some.inj hr).symm ht
    | command task =>
      cases task with
      | msgToHub =>
        exact (sent_serialized _ _).trans (List.filterMap_eq_nil_iff.mpr fun _ _ => rfl)
      | msgFromHub => exact hplain _ fun response h => .inl (mem_handed_msgFromHub h)
      | msgToServer => exact absurd (Option.some.inj hr).symm ht
      | msgFromServer => exact hplain _ fun response h => .inr (mem_handed_msgFromServer h)

theorem writer_mqttMessage (idEdge : String) (bufferSize : Nat) :
    Writer (deliveryView Output.mqttMessage) (wiring idEdge bufferSize) (.task .msgToHub)
      .responses where
  fed h := by cases h
  others := by
    intro e s c₀ m t₀ hr ht
    have hplain : ∀ sends : List TaskSend, (∀ response ∈ handed sends,
        (∃ msg, response = .fromHub msg) ∨ ∃ msg, response = .fromServer msg) →
        sent (deliveryView Output.mqttMessage) .responses (sends.map sendOf) = [] := by
      intro sends hsends
      rw [sent_responses, List.filterMap_eq_nil_iff]
      exact fun response hresponse => (plain_response response (hsends response hresponse)).2
    have hupload : ∀ sends : List TaskSend, (∀ s ∈ sends, ∃ upload, s = .toCore (.edgeUpload upload)) →
        sent (deliveryView Output.mqttMessage) .responses (sends.map sendOf) = [] := by
      intro sends hsends
      rw [sent_responses, List.filterMap_eq_nil_iff]
      intro response hresponse
      obtain ⟨x, hx, hr⟩ := List.mem_filterMap.mp hresponse
      obtain ⟨upload, rfl⟩ := hsends x hx
      rw [← Option.some.inj hr]
      rfl
    cases c₀ with
    | toCore service => exact sent_handle_outer idEdge e s _ m (.inl ⟨_, rfl⟩)
    | fromCore service => exact sent_handle_outer idEdge e s _ m (.inr (.inl ⟨_, rfl⟩))
    | responses => exact sent_handle_outer idEdge e s _ m (.inr (.inr rfl))
    | internalToHub => rfl
    | serverToHub => exact absurd (Option.some.inj hr).symm ht
    | hubToServer =>
      exact hupload _ fun x hx => mem_msgToServerHub hx
    | command task =>
      cases task with
      | msgToHub => exact absurd (Option.some.inj hr).symm ht
      | msgFromHub => exact hplain _ fun response h => .inl (mem_handed_msgFromHub h)
      | msgToServer => exact hupload _ fun x hx => mem_msgToServer hx
      | msgFromServer => exact hplain _ fun response h => .inr (mem_handed_msgFromServer h)

theorem uploadsOf_eq (sends : List TaskSend) : uploadsOf sends =
    (handed sends).filterMap (fun response => (ofMessage response).findSome? Output.upload) := by
  unfold uploadsOf
  congr 1
  funext response
  cases response with
  | edgeUpload upload => rfl
  | serialized msg => rfl
  | fromHub msg => cases msg <;> rfl
  | fromServer msg => cases msg <;> rfl

theorem caused_upload_step (idEdge : String) (bufferSize : Nat) {g g' : State}
    {i : Transfer Task Channel Channel.Message Outside}
    (hs : g.step (wiring idEdge bufferSize) i = some g') :
    caused (deliveryView Output.upload) (wiring idEdge bufferSize) (.task .msgToServer) .responses
      g i = upload idEdge g i := by
  cases move_of_step hs with
  | @take c t m rest e hr hq hp =>
    have hsent : ∀ sends : List TaskSend,
        sent (deliveryView Output.upload) .responses (sends.map sendOf) = uploadsOf sends :=
      fun sends => (sent_responses _ sends).trans (uploadsOf_eq sends).symm
    cases c with
    | hubToServer =>
      simp only [caused, upload, hq]
      exact (hsent _).trans (List.append_nil _).symm
    | command task =>
      cases task with
      | msgToServer =>
        simp only [caused, upload, hq]
        exact (hsent _).trans (List.append_nil _).symm
      | _ => simp only [caused, upload, hq]; rfl
    | fromCore service =>
      cases service with
      | message => simp only [caused, upload, hq]; rfl
      | _ => cases hr
    | _ => simp only [caused, upload, hq]; rfl
  | put hp hroom => rfl
  | feed m hf hroom => rfl
  | drain hr hq => rfl

theorem caused_publication_step (idEdge : String) (bufferSize : Nat) {g g' : State}
    {i : Transfer Task Channel Channel.Message Outside}
    (hs : g.step (wiring idEdge bufferSize) i = some g') :
    caused (deliveryView Output.mqttMessage) (wiring idEdge bufferSize) (.task .msgToHub) .responses
      g i = publication g i := by
  cases move_of_step hs with
  | @take c t m rest e hr hq hp =>
    have hself : ∀ out : Option SerializedMessage,
        out.toList.filterMap (fun out => Output.mqttMessage (.toMqttService (.serialized out))) =
          out.toList := by
      intro out
      cases out <;> rfl
    cases c with
    | serverToHub =>
      simp only [caused, publication, hq]
      exact ((sent_serialized _ _).trans (hself _)).trans (List.append_nil _).symm
    | command task =>
      cases task with
      | msgToHub =>
        simp only [caused, publication, hq]
        exact ((sent_serialized _ _).trans (hself _)).trans (List.append_nil _).symm
      | _ => simp only [caused, publication, hq]; rfl
    | fromCore service =>
      cases service with
      | message => simp only [caused, publication, hq]; rfl
      | _ => cases hr
    | _ => simp only [caused, publication, hq]; rfl
  | put hp hroom => rfl
  | feed m hf hroom => rfl
  | drain hr hq => rfl

end Responses

/-- What `msg_to_server` uploads reaches the gRPC service, and what `msg_to_hub` publishes the
MQTT service: each once, in the order of the task, or it is still under way. -/
theorem uploads_and_publications_arrive_in_order (idEdge : String) (bufferSize : Nat) (l : Trace)
    (g : State) (run : (tasks idEdge bufferSize).Run l g) :
    uploads idEdge l = arrived Output.upload .grpc l ++ underWay Output.upload .grpc g ++
        owed (deliveryView Output.upload) g (.task .msgToServer) .responses ∧
      publications l = arrived Output.mqttMessage .mqtt l ++ underWay Output.mqttMessage .mqtt g ++
        owed (deliveryView Output.mqttMessage) g (.task .msgToHub) .responses := by
  have hnothing : ∀ {α : Type} (f : Output → Option α) (t : Task),
      owed (deliveryView f) atStart t .responses = [] := by
    intro α f t
    cases t <;> rfl
  constructor
  · have howed := run_owed (writer_upload idEdge bufferSize) (fun t _ => hnothing _ t) run
    rw [hnothing, List.nil_append, run.log_congr fun _ _ _ hs =>
      caused_upload_step idEdge bufferSize hs] at howed
    exact howed.trans (congrArg (· ++ _) (run_delivery selects_upload run))
  · have howed := run_owed (writer_mqttMessage idEdge bufferSize) (fun t _ => hnothing _ t) run
    rw [hnothing, List.nil_append, run.log_congr fun _ _ _ hs =>
      caused_publication_step idEdge bufferSize hs] at howed
    exact howed.trans (congrArg (· ++ _) (run_delivery selects_mqttMessage run))

theorem the_greeting_is_uploaded :
    ∃ l g, (tasks "edge" 1).Run l g ∧ (uploads "edge" l).length = 1 ∧
      uploads "edge" l = arrived Output.upload .grpc l ++ underWay Output.upload .grpc g ++
        owed (deliveryView Output.upload) g (.task .msgToServer) .responses := by
  have hrun := Machine.run_of_final (m := tasks "edge" 1) greeted rfl (by decide +kernel)
  exact ⟨_, _, hrun, by decide +kernel,
    (uploads_and_publications_arrive_in_order "edge" 1 _ _ hrun).1⟩

/-! ## What the tasks are told of the connections -/

/-- The events of a connection that a command tells. -/
def commandStatus : MessageServiceCommand → Option ServerStatus
  | .internal .serverConnected => some .connected
  | .internal .serverDisconnected => some .disconnected
  | _ => none

def eventBroker : InternalEvent → Option LocalStatus
  | .localConnected => some .connected
  | .localDisconnected => some .disconnected
  | _ => none

def commandBroker : MessageServiceCommand → Option LocalStatus
  | .internal event => eventBroker event
  | _ => none

/-- What is said of the server between the core and the tasks. -/
def statusView : (c : Channel) → c.Message → Option ServerStatus
  | .fromCore .message, command => commandStatus command
  | .command _, command => commandStatus command
  | _, _ => none

/-- What is said of the broker on the way to `msg_to_hub`. -/
def brokerView : (c : Channel) → c.Message → Option LocalStatus
  | .fromCore .message, command => commandBroker command
  | .command .msgFromHub, command => commandBroker command
  | .internalToHub, event => eventBroker event
  | _, _ => none

/-- The way of an event to a task, and on to `msg_to_hub`. -/
def toTask : List (Task × Channel) := [(.messageService, .fromCore .message)]

def throughMsgFromHub : List (Task × Channel) :=
  [(.task .msgFromHub, .command .msgFromHub), (.messageService, .fromCore .message)]

/-- All that the core has told the message service of the server, and of the broker. -/
def told (l : Trace) : List ServerStatus := Machine.log (came statusView (.fromCore .message)) l

def toldBroker (l : Trace) : List LocalStatus :=
  Machine.log (came brokerView (.fromCore .message)) l

/-- What of it has not reached a task yet. -/
def unheard (task : MessageTask) (g : State) : List ServerStatus :=
  lane statusView g (.command task) toTask

def unheardBroker (g : State) : List LocalStatus :=
  lane brokerView g .internalToHub throughMsgFromHub

/-- Both tasks that ask for the server are told of it. -/
theorem routed_status {task : MessageTask} (h : task = .msgFromHub ∨ task = .msgToServer)
    (idEdge : String) (now : Int64) (command : MessageServiceCommand) :
    (commandsFor task (MessageServiceCommand.route idEdge now command)).filterMap commandStatus =
      (commandStatus command).toList := by
  rcases h with rfl | rfl <;> cases command with
  | internal event => cases event <;> rfl
  | toHub msg => cases h : passesToHub msg <;> simp [MessageServiceCommand.route, h] <;> rfl
  | toServer msg => cases h : passesToServer msg <;> simp [MessageServiceCommand.route, h] <;> rfl
  | _ => rfl

theorem routed_broker (idEdge : String) (now : Int64) (command : MessageServiceCommand) :
    (commandsFor .msgFromHub (MessageServiceCommand.route idEdge now command)).filterMap
      commandBroker = (commandBroker command).toList := by
  cases command with
  | internal event => cases event <;> rfl
  | toHub msg => cases h : passesToHub msg <;> simp [MessageServiceCommand.route, h] <;> rfl
  | toServer msg => cases h : passesToServer msg <;> simp [MessageServiceCommand.route, h] <;> rfl
  | _ => rfl

section Status

variable {idEdge : String} {bufferSize : Nat}

theorem keeps_msgFromHub :
    Keeps statusView (wiring idEdge bufferSize) (.command .msgFromHub) Memory.msgFromHub where
  reader := nofun
  own := by
    intro e s m
    cases m with
    | internal event =>
      cases event with
      | incomingMessage decoded =>
        cases decoded with
        | none => rfl
        | some msg =>
          cases hs : s.msgFromHub <;> simp [wiring, handle, Message.msgFromHub, hs] <;> rfl
      | _ => rfl
    | _ => rfl
  others := by
    intro e s c m hc
    cases c with
    | command task =>
      cases task with
      | msgFromHub => exact absurd rfl hc
      | _ => rfl
    | fromCore service => cases service <;> rfl
    | _ => rfl

theorem keeps_msgToServer :
    Keeps statusView (wiring idEdge bufferSize) (.command .msgToServer) Memory.msgToServer where
  reader := nofun
  own := by
    intro e s m
    cases m with
    | internal event => cases event <;> rfl
    | batch rows =>
      cases hs : s.msgToServer <;> simp [wiring, handle, Message.msgToServer, hs] <;> rfl
    | _ => rfl
  others := by
    intro e s c m hc
    cases c with
    | command task =>
      cases task with
      | msgToServer => exact absurd rfl hc
      | _ => rfl
    | fromCore service => cases service <;> rfl
    | _ => rfl

theorem keeps_msgToHub :
    Keeps brokerView (wiring idEdge bufferSize) .internalToHub Memory.msgToHub where
  reader := nofun
  own := by
    intro e s m
    cases m <;> rfl
  others := by
    intro e s c m hc
    cases c with
    | internalToHub => exact absurd rfl hc
    | fromCore service => cases service <;> rfl
    | command task => cases task <;> rfl
    | _ => rfl

/-- Only the message service writes the channels of its tasks. -/
theorem channel_command {task : MessageTask} (idEdge : String) (e : Outside) (s : Memory)
    (c : Channel) (m : c.Message) {p : Send} (hp : p ∈ (handle idEdge e s c m).2)
    (hc : p.1 = .command task) : c = .fromCore .message := by
  have hsend : ∀ x : TaskSend, (sendOf x).1 ≠ .command task := by
    intro x
    cases x <;> nofun
  have hsends : ∀ {sends : List TaskSend}, p ∈ sends.map sendOf → False := by
    intro sends hmem
    obtain ⟨x, -, rfl⟩ := List.mem_map.mp hmem
    exact hsend x hc
  cases c with
  | toCore service =>
    obtain ⟨out, -, rfl⟩ := List.mem_map.mp hp
    rw [channel_send_service] at hc
    cases hc
  | fromCore service =>
    cases service with
    | message => rfl
    | _ => cases hp
  | responses =>
    rw [List.mem_singleton.mp hp] at hc
    cases hc
  | internalToHub => cases hp
  | serverToHub =>
    obtain ⟨out, -, rfl⟩ := Option.map_eq_some_iff.mp (Option.mem_toList.mp hp)
    cases hc
  | hubToServer => exact absurd hp hsends
  | command other =>
    cases other with
    | msgToHub =>
      obtain ⟨out, -, rfl⟩ := Option.map_eq_some_iff.mp (Option.mem_toList.mp hp)
      cases hc
    | _ => exact absurd hp hsends

/-- What is read of the commands that a task gets. -/
theorem sent_route {α : Type} {v : (c : Channel) → c.Message → Option α}
    {f : MessageServiceCommand → Option α} {task : MessageTask}
    (hv : ∀ command, v (.command task) command = f command)
    (routed : List (MessageTask × MessageServiceCommand)) :
    sent v (.command task) (routed.map (fun r => (⟨.command r.1, r.2⟩ : Send))) =
      (commandsFor task routed).filterMap f := by
  induction routed with
  | nil => rfl
  | cons r routed ih =>
    obtain ⟨other, command⟩ := r
    rw [List.map_cons, sent_split, ih]
    unfold commandsFor
    by_cases h : other = task
    · subst h
      have hone : sent v (.command other) [(⟨.command other, command⟩ : Send)] =
          (f command).toList := by
        rw [← hv command]
        exact (sent_cons_self v (c := .command other) command []).trans (List.append_nil _)
      simp [hone, filterMap_cons_toList]
    · have hne : Channel.command other ≠ .command task := fun heq => h (Channel.command.inj heq)
      have hnone : sent v (.command task) [(⟨.command other, command⟩ : Send)] = [] :=
        sent_cons_ne v hne command []
      simp [hnone, h]

/-- The message service relays to a task what its routes give it. -/
theorem relay_command {α : Type} {v : (c : Channel) → c.Message → Option α}
    {f : MessageServiceCommand → Option α} {task : MessageTask}
    (hv : ∀ command, v (.command task) command = f command)
    (hcore : ∀ command, v (.fromCore .message) command = f command)
    (hroute : ∀ idEdge now command,
      (commandsFor task (MessageServiceCommand.route idEdge now command)).filterMap f =
        (f command).toList) :
    Relay v (wiring idEdge bufferSize) .messageService (.fromCore .message) (.command task) := by
  apply relay_of_source rfl rfl
  · exact fun e s c₀ m p hp hpc => channel_command idEdge e s c₀ m hp hpc
  · intro e s m
    rw [hcore m]
    exact (sent_route hv _).trans (hroute idEdge e.now m)

/-- `msg_from_hub` says nothing of the broker but what it is told. -/
theorem sent_msgFromHub (idEdge : String) (e : Outside) (s : Memory) (command : MessageServiceCommand) :
    sent brokerView .internalToHub (handle idEdge e s (.command .msgFromHub) command).2 =
      (commandBroker command).toList := by
  have hquiet : ∀ sends : List TaskSend, (∀ x ∈ sends, ∀ event, x ≠ .internalToHub event) →
      sent brokerView .internalToHub (sends.map sendOf) = [] := by
    intro sends hsends
    unfold sent
    rw [List.filterMap_eq_nil_iff]
    intro p hp
    obtain ⟨hp, hpc⟩ := List.mem_filter.mp hp
    obtain ⟨x, hx, rfl⟩ := List.mem_map.mp hp
    cases x with
    | internalToHub event => exact absurd rfl (hsends _ hx event)
    | _ => cases of_decide_eq_true hpc
  cases command with
  | internal event =>
    cases event with
    | incomingMessage decoded =>
      cases decoded with
      | none => rfl
      | some msg =>
        refine hquiet _ fun x hx event => ?_
        cases hs : s.msgFromHub <;> simp only [hs] at hx
        · cases msg <;> simp [fromHubConnected] at hx <;> simp [hx]
        · simp [List.mem_singleton.mp hx]
    | _ => rfl
  | _ => rfl

/-- Only `msg_from_hub` writes the channel of the events of the broker. -/
theorem channel_internalToHub (idEdge : String) (e : Outside) (s : Memory) (c : Channel)
    (m : c.Message) {p : Send} (hp : p ∈ (handle idEdge e s c m).2) (hc : p.1 = .internalToHub) :
    c = .command .msgFromHub := by
  have huploads : ∀ {sends : List TaskSend}, p ∈ sends.map sendOf →
      (∀ x ∈ sends, ∃ upload, x = .toCore (.edgeUpload upload)) → False := by
    intro sends hmem hsends
    obtain ⟨x, hx, rfl⟩ := List.mem_map.mp hmem
    obtain ⟨upload, rfl⟩ := hsends x hx
    cases hc
  cases c with
  | toCore service =>
    obtain ⟨out, -, rfl⟩ := List.mem_map.mp hp
    rw [channel_send_service] at hc
    cases hc
  | fromCore service =>
    cases service with
    | message =>
      obtain ⟨r, -, rfl⟩ := List.mem_map.mp hp
      cases hc
    | _ => cases hp
  | responses =>
    rw [List.mem_singleton.mp hp] at hc
    cases hc
  | internalToHub => cases hp
  | serverToHub =>
    obtain ⟨out, -, rfl⟩ := Option.map_eq_some_iff.mp (Option.mem_toList.mp hp)
    cases hc
  | hubToServer => exact (huploads hp fun x hx => mem_msgToServerHub hx).elim
  | command task =>
    cases task with
    | msgToHub =>
      obtain ⟨out, -, rfl⟩ := Option.map_eq_some_iff.mp (Option.mem_toList.mp hp)
      cases hc
    | msgFromHub => rfl
    | msgToServer => exact (huploads hp fun x hx => mem_msgToServer hx).elim
    | msgFromServer =>
      obtain ⟨x, hx, rfl⟩ := List.mem_map.mp hp
      rcases mem_msgFromServer hx with ⟨msg, rfl⟩ | ⟨msg, rfl⟩ <;> cases hc

theorem relay_msgFromHub :
    Relay brokerView (wiring idEdge bufferSize) (.task .msgFromHub) (.command .msgFromHub)
      .internalToHub := by
  apply relay_of_source rfl rfl
  · exact fun e s c₀ m p hp hpc => channel_internalToHub idEdge e s c₀ m hp hpc
  · exact fun e s m => sent_msgFromHub idEdge e s m

theorem linked_toTask {task : MessageTask} (h : task = .msgFromHub ∨ task = .msgToServer) :
    Linked statusView (wiring idEdge bufferSize) (.command task) toTask :=
  .cons (relay_command (fun _ => rfl) (fun _ => rfl) (routed_status h)) (.nil _)

theorem linked_throughMsgFromHub :
    Linked brokerView (wiring idEdge bufferSize) .internalToHub throughMsgFromHub :=
  .cons relay_msgFromHub (.cons (relay_command (fun _ => rfl) (fun _ => rfl) routed_broker)
    (.nil _))

end Status

/-- What the tasks know of the server and of the broker, once they have heard what is under
way to them, is the last that the message service was told: `msg_from_hub` and `msg_to_server`
agree on the server where nothing is under way. -/
theorem the_tasks_hear_the_same (idEdge : String) (bufferSize : Nat) (l : Trace) (g : State)
    (run : (tasks idEdge bufferSize).Run l g) :
    settled g.memory.msgFromHub (unheard .msgFromHub g) = settled .connected (told l) ∧
      settled g.memory.msgToServer (unheard .msgToServer g) = settled .connected (told l) ∧
      settled g.memory.msgToHub (unheardBroker g) = settled .connected (toldBroker l) ∧
      (unheard .msgFromHub g = [] → unheard .msgToServer g = [] →
        g.memory.msgFromHub = g.memory.msgToServer) := by
  have hnothing : ∀ task : MessageTask,
      Reserved statusView atStart (.command task) toTask := by
    intro task
    refine ⟨fun t ht => ?_, trivial⟩
    cases t <;> rfl
  have hnothing' : Reserved brokerView atStart .internalToHub throughMsgFromHub := by
    refine ⟨fun t ht => ?_, fun t ht => ?_, trivial⟩
    · cases t <;> rfl
    · cases t <;> rfl
  have hfrom := run_know keeps_msgFromHub (linked_toTask (.inl rfl)) (hnothing _) rfl run
  have hto := run_know keeps_msgToServer (linked_toTask (.inr rfl)) (hnothing _) rfl run
  have hbroker := run_know keeps_msgToHub linked_throughMsgFromHub hnothing' rfl run
  refine ⟨hfrom, hto, hbroker, fun hnone hnone' => ?_⟩
  unfold unheard at hnone hnone'
  rw [hnone] at hfrom
  rw [hnone'] at hto
  exact hfrom.trans hto.symm

/-- The server goes: `msg_from_hub` hears of it, and `msg_to_server` not yet. -/
def lostServer : List (Transfer Task Channel Channel.Message Outside) :=
  [.feed (.toCore .grpc) InternalEvent.serverDisconnected, .take (.toCore .grpc) still, .put .core,
    .take (.fromCore .message) still, .put .messageService, .put .messageService,
    .take (.command .msgFromHub) still]

theorem one_task_hears_it_first :
    ∃ l g, (tasks "edge" 1).Run l g ∧ g.memory.msgFromHub ≠ g.memory.msgToServer ∧
      settled g.memory.msgToServer (unheard .msgToServer g) = settled .connected (told l) := by
  have hrun := Machine.run_of_final (m := tasks "edge" 1) (greeting ++ lostServer) rfl
    (by decide +kernel)
  exact ⟨_, _, hrun, by decide +kernel, (the_tasks_hear_the_same "edge" 1 _ _ hrun).2.1⟩

end EdgeGateway.Core
