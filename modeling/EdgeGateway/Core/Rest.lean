-- How the core and the message service come to rest. What an answer makes them do is
-- paid for by its weight, so a few answers make a few steps, in any order; and where
-- no task can go on, all has been done, or one of three kinds of tasks waits for ever.
import EdgeGateway.Core.Waiting
import EdgeGateway.Lib.Work

namespace EdgeGateway.Core

open EdgeGateway.Lib EdgeGateway.Message EdgeGateway.Networks EdgeGateway.Database
open EdgeGateway.Lib.Mailbox

/-! ## What messages weigh -/

/-- What a command of the message service makes it and its tasks do. A batch makes the
most, with its four vectors. -/
def commandWeight : MessageServiceCommand → Nat
  | .internal _ => 17
  | .batch _ => 23
  | _ => 8

def responseWeight : MessageServiceResponse → Nat
  | .fromServer _ => 10
  | _ => 2

def taskWeight : MessageTask → MessageServiceCommand → Nat
  | .msgToHub, _ => 6
  | .msgFromHub, _ => 8
  | .msgToServer, .batch _ => 21
  | .msgToServer, _ => 6
  | .msgFromServer, _ => 14

/-- What the other services take is no work of these tasks. -/
def weight : (c : Channel) → c.Message → Nat
  | .toCore .message, response => responseWeight response
  | .toCore _, _ => 25
  | .fromCore .message, command => commandWeight command
  | .fromCore _, _ => 0
  | .responses, response => responseWeight response + 2
  | .internalToHub, _ => 1
  | .serverToHub, _ => 6
  | .hubToServer, _ => 6
  | .command task, command => taskWeight task command

def services : List Service :=
  [.data, .firmware, .fsm, .grpc, .heartbeat, .message, .metrics, .mqtt, .network]

def messageTasks : List MessageTask := [.msgToHub, .msgFromHub, .msgToServer, .msgFromServer]

def channels : List Channel :=
  services.map .toCore ++ services.map .fromCore ++
    [.responses, .internalToHub, .serverToHub, .hubToServer] ++ messageTasks.map .command

def allTasks : List Task := [.core, .messageService] ++ messageTasks.map .task

theorem mem_channels (c : Channel) : c ∈ channels := by
  cases c with
  | toCore service => cases service <;> decide
  | fromCore service => cases service <;> decide
  | command task => cases task <;> decide
  | _ => decide

theorem mem_allTasks (t : Task) : t ∈ allTasks := by
  cases t with
  | task task => cases task <;> decide
  | _ => decide

/-- An answer pays for what the core sends. -/
theorem weigh_run (service : Service) (answer : service.Answer) :
    weigh (sending weight) ((run (service.input answer)).map Output.send) + 1 ≤
      weight (.toCore service) answer := by
  -- each route is a closed list, and its weight a number
  cases service with
  | data =>
    rcases answer with rows | epoch | _ | response
    · exact Nat.le_of_ble_eq_true rfl
    · exact Nat.le_of_ble_eq_true rfl
    · exact Nat.le_of_ble_eq_true rfl
    · cases response <;> exact Nat.le_of_ble_eq_true rfl
  | firmware => cases answer <;> exact Nat.le_of_ble_eq_true rfl
  | fsm => cases answer <;> exact Nat.le_of_ble_eq_true rfl
  | message =>
    rcases answer with upload | out | msg | msg
    · exact Nat.le_of_ble_eq_true rfl
    · exact Nat.le_of_ble_eq_true rfl
    · cases msg <;> exact Nat.le_of_ble_eq_true rfl
    · cases msg <;> exact Nat.le_of_ble_eq_true rfl
  | network =>
    rcases answer with response | command
    · cases response <;> exact Nat.le_of_ble_eq_true rfl
    · cases command <;> exact Nat.le_of_ble_eq_true rfl
  | _ => exact Nat.le_of_ble_eq_true rfl

theorem weigh_route (idEdge : String) (now : Int64) (command : MessageServiceCommand) :
    weigh (sending weight) ((MessageServiceCommand.route idEdge now command).map
      (fun r => (⟨.command r.1, r.2⟩ : Send))) + 1 ≤ commandWeight command := by
  cases command with
  | internal event => cases event <;> exact Nat.le_of_ble_eq_true rfl
  | toHub msg => cases h : passesToHub msg <;> simp [MessageServiceCommand.route, h] <;>
      exact Nat.le_of_ble_eq_true rfl
  | toServer msg =>
    cases h : passesToServer msg <;> simp [MessageServiceCommand.route, h] <;>
      exact Nat.le_of_ble_eq_true rfl
  | _ => exact Nat.le_of_ble_eq_true rfl

theorem weigh_serialized (out : Option SerializedMessage) :
    weigh (sending weight) ((out.map (fun out =>
      (⟨.responses, MessageServiceResponse.serialized out⟩ : Send))).toList) + 1 ≤ 6 := by
  cases out <;> exact Nat.le_of_ble_eq_true rfl

theorem weigh_uploadOf (idEdge : String) (msg : ServerMessage) :
    weigh (sending weight) ((uploadOf idEdge msg).map sendOf) ≤ 5 := by
  unfold uploadOf
  cases convertToProtoUpload idEdge msg <;> exact Nat.le_of_ble_eq_true rfl

theorem weigh_processBatch (idEdge : String) (rows : TableDataVector) :
    weigh (sending weight) ((processBatch idEdge rows).map sendOf) ≤ 20 := by
  have hpart : ∀ (empty : Bool) (msg : ServerMessage),
      weigh (sending weight) ((if empty then [] else uploadOf idEdge msg).map sendOf) ≤ 5 := by
    intro empty msg
    cases empty with
    | true => exact Nat.zero_le _
    | false => exact weigh_uploadOf idEdge msg
  have hmeasurement := hpart rows.measurement.isEmpty (.reportBatch rows.measurement)
  have hmonitor := hpart rows.monitor.isEmpty (.monitorBatch rows.monitor)
  have halertAir := hpart rows.alertAir.isEmpty (.alertAirBatch rows.alertAir)
  have halertTh := hpart rows.alertTh.isEmpty (.alertTemBatch rows.alertTh)
  unfold processBatch
  rw [List.map_append, List.map_append, List.map_append, weigh_append, weigh_append, weigh_append]
  omega

theorem weigh_msgFromHub (m : NetworkManager) (state : ServerStatus)
    (command : MessageServiceCommand) :
    weigh (sending weight) ((Message.msgFromHub m state command).2.map sendOf) + 1 ≤ 8 := by
  cases command with
  | internal event =>
    cases event with
    | incomingMessage decoded =>
      cases decoded with
      | none => exact Nat.le_of_ble_eq_true rfl
      | some msg =>
        cases state with
        | disconnected => exact Nat.le_of_ble_eq_true rfl
        | connected =>
          have hif : ∀ (active : Bool) (msg : ServerMessage), weigh (sending weight)
              ((if active then [TaskSend.toMsgToServer msg] else []).map sendOf) + 1 ≤ 8 := by
            intro active msg
            cases active <;> exact Nat.le_of_ble_eq_true rfl
          cases msg <;> first | exact hif _ _ | exact Nat.le_of_ble_eq_true rfl
    | _ => exact Nat.le_of_ble_eq_true rfl
  | _ => exact Nat.le_of_ble_eq_true rfl

theorem weigh_msgToServer (idEdge : String) (now : Int64) (state : ServerStatus)
    (command : MessageServiceCommand) :
    weigh (sending weight) ((Message.msgToServer idEdge now state command).2.map sendOf) + 1 ≤
      taskWeight .msgToServer command := by
  cases command with
  | internal event => cases event <;> exact Nat.le_of_ble_eq_true rfl
  | batch rows =>
    cases state with
    | disconnected => exact Nat.le_of_ble_eq_true rfl
    | connected => exact Nat.succ_le_succ (weigh_processBatch idEdge rows)
  | toServer msg =>
    cases state with
    | disconnected => exact Nat.le_of_ble_eq_true rfl
    | connected => exact Nat.succ_le_succ (weigh_uploadOf idEdge msg)
  | _ => exact Nat.le_of_ble_eq_true rfl

theorem weigh_msgFromServer (command : MessageServiceCommand) :
    weigh (sending weight) ((Message.msgFromServer command).map sendOf) + 1 ≤ 14 := by
  cases command with
  | internal event =>
    cases event with
    | incomingGrpc payload =>
      rcases payload with _ | msg
      · exact Nat.le_of_ble_eq_true rfl
      · cases msg <;> exact Nat.le_of_ble_eq_true rfl
    | _ => exact Nat.le_of_ble_eq_true rfl
  | _ => exact Nat.le_of_ble_eq_true rfl

/-- Each message pays for its handling. -/
theorem pays (idEdge : String) (bufferSize : Nat) : Pays weight (wiring idEdge bufferSize) where
  handle := by
    intro e s c m t hr
    cases c with
    | toCore service => exact weigh_run service m
    | fromCore service =>
      cases service with
      | message => exact weigh_route idEdge e.now m
      | _ => cases hr
    | responses =>
      show responseWeight m + 1 + 0 + 1 ≤ responseWeight m + 2
      omega
    | internalToHub => exact Nat.le_refl 1
    | serverToHub => exact weigh_serialized _
    | hubToServer =>
      show weigh (sending weight) ((msgToServerHub idEdge s.msgToServer m).map sendOf) + 1 ≤ 6
      unfold msgToServerHub
      cases s.msgToServer with
      | disconnected => exact Nat.le_of_ble_eq_true rfl
      | connected => exact Nat.succ_le_succ (weigh_uploadOf idEdge m)
    | command task =>
      cases task with
      | msgToHub => exact weigh_serialized _
      | msgFromHub => exact weigh_msgFromHub e.manager s.msgFromHub m
      | msgToServer => exact weigh_msgToServer idEdge e.now s.msgToServer m
      | msgFromServer => exact weigh_msgFromServer m

theorem weight_fed (idEdge : String) (bufferSize : Nat) (c : Channel) (m : c.Message)
    (hf : (wiring idEdge bufferSize).fed c = true) : weight c m ≤ 25 := by
  cases c with
  | toCore service =>
    cases service with
    | message => cases hf
    | _ => exact Nat.le_refl 25
  | _ => cases hf

/-- With `n` answers the core, the message service and its tasks take 10 + 25 n steps at most,
whatever the sizes of the channels and the order of the tasks. -/
theorem a_few_answers_make_a_few_steps (idEdge : String) (bufferSize : Nat)
    (l : List (Mailbox Task Channel Channel.Message Memory ×
      Transfer Task Channel Channel.Message Outside))
    (g : Mailbox Task Channel Channel.Message Memory) (run : (tasks idEdge bufferSize).Run l g) :
    l.countP (fun p => works p.2) ≤ 10 + 25 * l.countP (fun p => feeds p.2) := by
  have hwork := run_work (by decide) mem_channels (by decide) mem_allTasks (pays idEdge bufferSize)
    (weight_fed idEdge bufferSize) run
  have hstart : load weight channels allTasks atStart = 10 := rfl
  omega

/-! ## Where nobody can go on -/

/-- The channels that each task sends into. -/
def writes : Task → Channel → Bool
  | .core, .fromCore _ => true
  | .messageService, .toCore .message => true
  | .messageService, .command _ => true
  | .task _, .responses => true
  | .task .msgFromHub, .hubToServer => true
  | .task .msgFromHub, .internalToHub => true
  | .task .msgFromServer, .serverToHub => true
  | _, _ => false

theorem writes_uploads {sends : List TaskSend} (h : ∀ x ∈ sends, ∃ upload,
    x = .toCore (.edgeUpload upload)) (task : MessageTask) :
    ∀ p ∈ sends.map sendOf, writes (.task task) p.1 = true := by
  intro p hp
  obtain ⟨x, hx, rfl⟩ := List.mem_map.mp hp
  obtain ⟨upload, rfl⟩ := h x hx
  rfl

theorem writes_serialized (out : Option SerializedMessage) (task : MessageTask) :
    ∀ p ∈ (out.map (fun out => (⟨.responses, MessageServiceResponse.serialized out⟩ : Send))).toList,
      writes (.task task) p.1 = true := by
  intro p hp
  obtain ⟨out, -, rfl⟩ := Option.map_eq_some_iff.mp (Option.mem_toList.mp hp)
  rfl

theorem writes_msgFromHub (m : NetworkManager) (state : ServerStatus)
    (command : MessageServiceCommand) :
    ∀ p ∈ (Message.msgFromHub m state command).2.map sendOf,
      writes (.task .msgFromHub) p.1 = true := by
  intro p hp
  obtain ⟨x, hx, rfl⟩ := List.mem_map.mp hp
  cases x with
  | serverToHub msg =>
    exfalso
    cases command with
    | internal event =>
      cases event with
      | incomingMessage decoded =>
        cases decoded with
        | none => simp [Message.msgFromHub] at hx
        | some msg =>
          cases state with
          | disconnected => simp [Message.msgFromHub] at hx
          | connected => cases msg <;> simp [Message.msgFromHub, fromHubConnected] at hx
      | _ => simp [Message.msgFromHub] at hx
    | _ => simp [Message.msgFromHub] at hx
  | _ => rfl

theorem writes_msgFromServer (command : MessageServiceCommand) :
    ∀ p ∈ (Message.msgFromServer command).map sendOf,
      writes (.task .msgFromServer) p.1 = true := by
  intro p hp
  obtain ⟨x, hx, rfl⟩ := List.mem_map.mp hp
  rcases mem_msgFromServer hx with ⟨msg, rfl⟩ | ⟨msg, rfl⟩ <;> rfl

theorem writes_handle (idEdge : String) (bufferSize : Nat) (e : Outside) (s : Memory) (c : Channel)
    (m : c.Message) (t : Task) (hr : (wiring idEdge bufferSize).reader c = some t) :
    ∀ p ∈ ((wiring idEdge bufferSize).handle e s c m).2, writes t p.1 = true := by
  intro p hp
  cases c with
  | toCore service =>
    obtain rfl : Task.core = t := Option.some.inj hr
    obtain ⟨out, -, rfl⟩ := List.mem_map.mp hp
    cases out <;> rfl
  | fromCore service =>
    cases service with
    | message =>
      obtain rfl : Task.messageService = t := Option.some.inj hr
      obtain ⟨r, -, rfl⟩ := List.mem_map.mp hp
      rfl
    | _ => cases hr
  | responses =>
    obtain rfl : Task.messageService = t := Option.some.inj hr
    rw [List.mem_singleton.mp hp]
    rfl
  | internalToHub => cases hp
  | serverToHub =>
    obtain rfl : Task.task .msgToHub = t := Option.some.inj hr
    exact writes_serialized _ _ p hp
  | hubToServer =>
    obtain rfl : Task.task .msgToServer = t := Option.some.inj hr
    exact writes_uploads (fun x hx => mem_msgToServerHub hx) .msgToServer p hp
  | command task =>
    obtain rfl : Task.task task = t := Option.some.inj hr
    cases task with
    | msgToHub => exact writes_serialized _ _ p hp
    | msgFromHub => exact writes_msgFromHub e.manager s.msgFromHub m p hp
    | msgToServer => exact writes_uploads (fun x hx => mem_msgToServer hx) .msgToServer p hp
    | msgFromServer => exact writes_msgFromServer m p hp

theorem sends_atStart : atStart.Sends writes := by
  intro t p hp
  cases t with
  | core =>
    obtain ⟨out, -, rfl⟩ := List.mem_map.mp hp
    cases out <;> rfl
  | _ => cases hp

/-! ## Chains of waiting tasks -/

/-- Where tasks wait for tasks, in the end: the core for another service, or it and the message
service for each other, or the message service for one of its tasks and a task for it. -/
def EndsIn (waits : Task → Channel → Prop) : Prop :=
  (∃ service ≠ .message, waits .core (.fromCore service)) ∨
    (waits .core (.fromCore .message) ∧ waits .messageService (.toCore .message)) ∨
    ∃ task other, waits .messageService (.command task) ∧ waits (.task other) .responses

section Chains

variable {idEdge : String} {bufferSize : Nat} {waits : Task → Channel → Prop}

/-- A task of the message service that waits does so, in the end, for the message service. -/
theorem task_waits (hw : ∀ t c, waits t c → writes t c = true)
    (hnext : ∀ t c t', waits t c → (wiring idEdge bufferSize).reader c = some t' →
      ∃ c', waits t' c') {task : MessageTask} {c : Channel} (h : waits (.task task) c) :
    ∃ other, waits (.task other) .responses := by
  -- `msg_to_hub` and `msg_to_server` send to the message service alone
  have honly : ∀ {other : MessageTask} {c : Channel}, waits (.task other) c →
      other = .msgToHub ∨ other = .msgToServer → c = .responses := by
    intro other c h hother
    have hwrites := hw _ _ h
    rcases hother with rfl | rfl <;> revert hwrites <;> cases c <;> simp [writes]
  have hon : ∀ {other : MessageTask},
      (wiring idEdge bufferSize).reader c = some (.task other) →
      other = .msgToHub ∨ other = .msgToServer → ∃ other, waits (.task other) .responses := by
    intro other hr hother
    obtain ⟨c', h'⟩ := hnext _ _ _ h hr
    exact ⟨other, honly h' hother ▸ h'⟩
  have hwrites := hw _ _ h
  cases c with
  | toCore service => cases task <;> cases hwrites
  | fromCore service => cases task <;> cases hwrites
  | responses => exact ⟨task, h⟩
  | internalToHub => exact hon rfl (.inl rfl)
  | serverToHub => exact hon rfl (.inl rfl)
  | hubToServer => exact hon rfl (.inr rfl)
  | command other => cases task <;> cases hwrites

theorem endsIn_of_command (hw : ∀ t c, waits t c → writes t c = true)
    (hnext : ∀ t c t', waits t c → (wiring idEdge bufferSize).reader c = some t' →
      ∃ c', waits t' c') {task : MessageTask} (h : waits .messageService (.command task)) :
    EndsIn waits := by
  obtain ⟨c, h'⟩ := hnext _ _ _ h rfl
  obtain ⟨other, hother⟩ := task_waits hw hnext h'
  exact .inr (.inr ⟨task, other, h, hother⟩)

theorem endsIn_of_core (hw : ∀ t c, waits t c → writes t c = true)
    (hnext : ∀ t c t', waits t c → (wiring idEdge bufferSize).reader c = some t' →
      ∃ c', waits t' c') {c : Channel} (h : waits .core c) : EndsIn waits := by
  have hwrites := hw _ _ h
  cases c with
  | fromCore service =>
    by_cases hservice : service = .message
    · subst hservice
      obtain ⟨c', h'⟩ := hnext _ _ _ h rfl
      have hwrites' := hw _ _ h'
      cases c' with
      | toCore answering =>
        cases answering with
        | message => exact .inr (.inl ⟨h, h'⟩)
        | _ => cases hwrites'
      | command task => exact endsIn_of_command hw hnext h'
      | _ => cases hwrites'
    · exact .inl ⟨service, hservice, h⟩
  | _ => cases hwrites

/-- Whoever waits, there is an end to it. -/
theorem endsIn_of_waits (hw : ∀ t c, waits t c → writes t c = true)
    (hnext : ∀ t c t', waits t c → (wiring idEdge bufferSize).reader c = some t' →
      ∃ c', waits t' c') {t : Task} {c : Channel} (h : waits t c) : EndsIn waits := by
  have hservice : ∀ {c : Channel}, waits .messageService c → EndsIn waits := by
    intro c h
    have hwrites := hw _ _ h
    cases c with
    | toCore answering =>
      obtain ⟨c', h'⟩ := hnext _ _ _ h rfl
      exact endsIn_of_core hw hnext h'
    | command task => exact endsIn_of_command hw hnext h
    | _ => cases hwrites
  cases t with
  | core => exact endsIn_of_core hw hnext h
  | messageService => exact hservice h
  | task task =>
    obtain ⟨other, hother⟩ := task_waits hw hnext h
    obtain ⟨c', h'⟩ := hnext _ _ _ hother rfl
    exact hservice h'

end Chains

theorem cap_pos (idEdge : String) {bufferSize : Nat} (hpos : 1 ≤ bufferSize) (c : Channel) :
    0 < (wiring idEdge bufferSize).cap c := by
  cases c with
  | toCore service => exact hpos
  | fromCore service => exact hpos
  | _ => exact Nat.succ_pos 99

section Still

variable {idEdge : String} {bufferSize : Nat} {g : Mailbox Task Channel Channel.Message Memory}

theorem sends_run {l : List (Mailbox Task Channel Channel.Message Memory ×
      Transfer Task Channel Channel.Message Outside)} (run : (tasks idEdge bufferSize).Run l g) :
    g.Sends writes := by
  refine run.always (Sends writes) ?_
    (fun g i g' hk hs => sends_step (writes_handle idEdge bufferSize) hk hs)
  rintro g rfl
  exact sends_atStart

/-- The message service waits for one of its tasks, and a task for it. -/
def WaitsForItsTasks (idEdge : String) (bufferSize : Nat)
    (g : Mailbox Task Channel Channel.Message Memory) : Prop :=
  ∃ task other, g.Suspended (wiring idEdge bufferSize) .messageService (.command task) ∧
    g.Suspended (wiring idEdge bufferSize) (.task other) .responses

/-- Who waits, in the end, where someone does. -/
def Waits (idEdge : String) (bufferSize : Nat) (g : Mailbox Task Channel Channel.Message Memory) :
    Prop :=
  (∃ service ≠ .message, g.Suspended (wiring idEdge bufferSize) .core (.fromCore service)) ∨
    WaitForEachOther idEdge bufferSize g ∨ WaitsForItsTasks idEdge bufferSize g

end Still

/-- Nothing is left to send, and nothing that the tasks read waits. -/
def Done (idEdge : String) (bufferSize : Nat) (g : Mailbox Task Channel Channel.Message Memory) :
    Prop :=
  (∀ t, g.pending t = []) ∧ ∀ c, (wiring idEdge bufferSize).reader c ≠ none → g.queue c = []

/-! ## Concrete runs -/

theorem a_greeting_makes_a_few_steps :
    ((tasks "edge" 1).trace atStart greeting).countP (fun p => works p.2) ≤
      10 + 25 * ((tasks "edge" 1).trace atStart greeting).countP (fun p => feeds p.2) :=
  a_few_answers_make_a_few_steps "edge" 1 _ _
    (Machine.run_of_final (m := tasks "edge" 1) greeting rfl (by decide +kernel))

/-- A request comes, and reaches the channel of `msg_from_hub`. -/
def requested : List (Transfer Task Channel Channel.Message Outside) :=
  asked ++ [.put .core, .take (.fromCore .message) still, .put .messageService]

/-- The message service prefers the core: a hundred responses fill its own channel, a hundred
requests that of `msg_from_hub`, and it comes to one more. -/
def preferred : List (Transfer Task Channel Channel.Message Outside) :=
  greeting ++
    (List.replicate 99
      (requested ++ [.take (.command .msgFromHub) still, .put (.task .msgFromHub)])).flatten ++
    requested ++ [.take (.command .msgFromHub) still] ++ (List.replicate 100 requested).flatten ++
    asked ++ [.put .core, .take (.fromCore .message) still]

end EdgeGateway.Core
