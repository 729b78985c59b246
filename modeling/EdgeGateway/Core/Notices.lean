-- Whether the hubs are told of a change of their network. The notice is made after
-- memory has changed, and `msg_to_hub` asks memory for its topic when it takes it: the
-- notice of a deletion finds its network gone.
import EdgeGateway.Core.Ready
import EdgeGateway.Network.Topics

namespace EdgeGateway.Core

open EdgeGateway.Lib EdgeGateway.Message EdgeGateway.Networks EdgeGateway.Database
  EdgeGateway.Mqtt

/-! ## Notices -/

/-- What the hubs are to be told of a deletion or a change. -/
def hubNotice (idEdge : String) (now : Int64) (msg : NetworkMsg) : HubMessage :=
  if msg.deleteNetwork then
    .deleteHub { metadata := createMetadata idEdge now, network := msg.idNetwork }
  else
    .activeHub
      { metadata := createMetadata idEdge now, network := msg.idNetwork, active := msg.active }

/-- The publication that tells them. -/
def notice (idEdge : String) (now : Int64) (msg : NetworkMsg) : SerializedMessage :=
  if msg.deleteNetwork then
    { topic := s!"iot/{msg.idNetwork}/delete_hub", payload := hubNotice idEdge now msg, qos := 0
      retain := false }
  else
    { topic := s!"iot/{msg.idNetwork}/active", payload := hubNotice idEdge now msg, qos := 1
      retain := true }

/-- The answer of the network service carries the message. -/
def carries (msg : HubMessage) : NetworkServiceResponse → Bool
  | .hubMessage other => other = msg
  | _ => false

/-- The message is for all hubs of a network. -/
def isNotice : HubMessage → Bool
  | .deleteHub _ => true
  | .activeHub _ => true
  | _ => false

theorem isNotice_hubNotice (idEdge : String) (now : Int64) (msg : NetworkMsg) :
    isNotice (hubNotice idEdge now msg) = true := by
  unfold hubNotice
  split <;> rfl

theorem payload_notice (idEdge : String) (now : Int64) (msg : NetworkMsg) :
    (notice idEdge now msg).payload = hubNotice idEdge now msg := by
  unfold notice
  split <;> rfl

/-- A command that is accepted makes its notice. -/
theorem toCore_adminServer {m : NetworkManager} {msg : NetworkMsg}
    (h : actionOf m msg = .delete ∨ actionOf m msg = .update) (idEdge : String) (now : Int64) :
    (adminServer idEdge now m (.network msg)).toCore =
      [.hubMessage (hubNotice idEdge now msg)] := by
  rcases h with ha | ha
  · simp [adminServer, ha, handleAction, handleEvent, hubNotice, (delete_of_actionOf ha).2]
  · simp [adminServer, ha, handleAction, handleEvent, hubNotice, (update_of_actionOf ha).2]

/-- The notice of a change finds its network, that of a deletion does not. -/
theorem mem_networks_adminServer {m : NetworkManager} {msg : NetworkMsg}
    (h : actionOf m msg = .delete ∨ actionOf m msg = .update) (idEdge : String) (now : Int64) :
    msg.idNetwork ∈ (adminServer idEdge now m (.network msg)).manager.networks ↔
      actionOf m msg = .update := by
  rw [mem_adminServer]
  rcases h with ha | ha
  · simp [createsNetwork, deletesNetwork, ha]
  · simp [createsNetwork, deletesNetwork, ha, (update_of_actionOf ha).1]

/-- No command of the server comes, and the broker stays. -/
def Label.isCalm : Label → Bool
  | .sync (.server _) => false
  | .localStatus status => status = .connected
  | .mqttLose => false
  | _ => true

namespace Gateway

/-- How often the message is published, or has its topic and is about to be. -/
def sent (g : Gateway) (out : SerializedMessage) : Nat :=
  g.published.count out + g.rxMsg.count out + g.fromMessage.count (.serialized out)

/-- How often it is on its way to `msg_to_hub`. -/
def unsent (g : Gateway) (msg : HubMessage) : Nat :=
  g.toHub.count (.toHub msg) + g.toMessage.count (.toHub msg) + g.fromNetwork.countP (carries msg)

/-- How often the hubs are told of the change, once nothing is under way: a notice
whose network is gone by then has no topic. -/
def told (g : Gateway) (idEdge : String) (now : Int64) (msg : NetworkMsg)
    (networks : AList (fun _ : String => Network)) : Nat :=
  g.sent (notice idEdge now msg) +
    if msg.idNetwork ∈ networks then g.unsent (hubNotice idEdge now msg) else 0

/-- No command of the server is left, the networks are loaded and the broker is
there; `networks` is what memory has. -/
structure Calm (g : Gateway) (networks : AList (fun _ : String => Network)) : Prop where
  fromServer : g.sync.fromServer = []
  started : isWaiting g.client = false
  signals : g.signals = 0
  broker : g.localStatus = .connected
  networks : g.sync.manager.networks = networks

/-! ## One step -/

section Steps

variable {idEdge : String} {g g' : Gateway} {i : Label}
  {networks : AList (fun _ : String => Network)}

theorem fromServer_step (h : g.sync.fromServer = []) (hi : i.isCalm = true)
    (hs : (machine idEdge).step g i = some g') : g'.sync.fromServer = [] := by
  cases move_of_step hs with
  | @sync i p' hp =>
    cases Sync.move_of_step hp with
    | server msg => cases hi
    | adminServer hq => simp [h] at hq
    | _ => exact h
  | _ => exact h

/-- The networks in memory change with commands of the server, or are loaded. -/
theorem networks_calm (h : g.Calm networks) (hi : i.isCalm = true)
    (hs : (machine idEdge).step g i = some g') : g'.sync.manager.networks = networks := by
  rw [← h.networks]
  cases move_of_step hs with
  | @sync i p' hp =>
    cases Sync.move_of_step hp with
    | adminServer hq => simp [h.fromServer] at hq
    | @adminHub request rest hq => exact (adminHub_spec g.sync.manager request).2
    | @adminBatch batch rest hq =>
      cases batch with
      | network rows =>
        have hnone := h.signals
        simp only [signals, hq, List.countP_cons, isNetworkBatch, if_true] at hnone
        omega
      | hub rows => exact (networks_load rows g.sync.manager).2
    | _ => rfl
  | _ => rfl

theorem calm_step (h : g.Calm networks) (hi : i.isCalm = true)
    (hs : (machine idEdge).step g i = some g') : g'.Calm networks where
  fromServer := fromServer_step h.fromServer hi hs
  started := by rw [waiting_step hs, h.started, Bool.false_and]
  signals := by
    have hcount := signals_step hs
    rw [h.signals] at hcount
    omega
  broker := by
    cases move_of_step hs with
    | localStatus status => exact of_decide_eq_true hi
    | _ => exact h.broker
  networks := networks_calm h hi hs

/-- The core publishes what the message service has serialized. -/
theorem mqtt_ofMessage (response : MessageServiceResponse) (out : SerializedMessage) :
    ((run (.messageService response)).filterMap Output.mqttMessage).count out =
      [response].count (.serialized out) := by
  rcases response with upload | msg | msg | msg
  · rfl
  · simp [run, ofMessage, Output.mqttMessage, List.count_singleton]
  · cases msg <;> rfl
  · cases msg <;> rfl

theorem mqtt_ofData (response : DataServiceResponse) :
    (run (.dataService (.registry response))).filterMap Output.mqttMessage = [] := by
  cases response <;> rfl

theorem mqtt_ofNetwork (response : NetworkServiceResponse) :
    (run (.networkService (.response response))).filterMap Output.mqttMessage = [] := by
  cases response <;> rfl

/-- What `msg_to_server` sends is no publication. -/
theorem serialized_msgToServer (now : Int64) (status : ServerStatus)
    (command : MessageServiceCommand) (out : SerializedMessage) :
    ((Message.msgToServer idEdge now status command).2.filterMap responseOf).count
      (.serialized out) = 0 := by
  rw [List.count_eq_zero, List.mem_filterMap]
  rintro ⟨s, hs, heq⟩
  obtain ⟨upload, rfl⟩ := mem_msgToServer hs
  cases heq

/-- Only `msg_to_hub` makes a publication. -/
theorem sent_step (hi : i ≠ .msgToHub) (hs : (machine idEdge).step g i = some g')
    (out : SerializedMessage) : g'.sent out = g.sent out := by
  cases move_of_step hs with
  | coreData hq => simp [sent, handle, mqtt_ofData]
  | coreNetwork hq => simp [sent, handle, mqtt_ofNetwork]
  | @coreMessage response rest hq =>
    simp only [sent, handle, hq, List.count_append, mqtt_ofMessage, List.count_cons,
      List.count_nil]
    omega
  | msgToHub hq => exact absurd rfl hi
  | msgToServer hq => simp [sent, serialized_msgToServer]
  | mqttMsg hw hq =>
    simp only [sent, hq, List.count_append, List.count_cons, List.count_nil]
    omega
  | _ => rfl

theorem message_ofData (response : DataServiceResponse) (msg : HubMessage) :
    ((run (.dataService (.registry response))).filterMap Output.messageCommand).count
      (.toHub msg) = 0 := by
  cases response <;> simp [run, ofData, Output.messageCommand, List.filterMap_cons]

theorem message_ofNetwork (response : NetworkServiceResponse) (msg : HubMessage) :
    ((run (.networkService (.response response))).filterMap Output.messageCommand).count
      (.toHub msg) = [response].countP (carries msg) := by
  cases response <;>
    simp [run, ofNetwork, Output.messageCommand, carries, List.filterMap_cons,
      List.count_singleton, List.countP_cons]

/-- What the core sends back to hubs itself is no notice. -/
theorem message_ofMessage (response : MessageServiceResponse) {msg : HubMessage}
    (hmsg : isNotice msg = true) :
    ((run (.messageService response)).filterMap Output.messageCommand).count (.toHub msg) = 0 := by
  rcases response with upload | out | other | other
  · rfl
  · rfl
  · cases other <;> rfl
  · -- what the server sends on to the hubs is no notice
    rw [List.count_eq_zero]
    intro hmem
    cases other <;>
      simp [run, ofMessage, ofServer, Output.messageCommand, List.filterMap_cons] at hmem
    all_goals
      subst hmem
      cases hmsg

/-- A notice goes through to `msg_to_hub`. -/
theorem route_notice (now : Int64) (command : MessageServiceCommand) {msg : HubMessage}
    (hmsg : isNotice msg = true) :
    (commandsFor .msgToHub (command.route idEdge now)).count (.toHub msg) =
      [command].count (.toHub msg) := by
  cases command with
  | toHub other =>
    by_cases heq : other = msg
    · subst heq
      have hpass : passesToHub other = true := by
        cases other <;> first | rfl | cases hmsg
      simp [MessageServiceCommand.route, hpass, commandsFor]
    · cases hpass : passesToHub other <;>
        simp [MessageServiceCommand.route, hpass, commandsFor, heq]
  | internal event => cases event <;> rfl
  | toServer other =>
    cases hpass : passesToServer other <;>
      simp [MessageServiceCommand.route, hpass, commandsFor]
  | generateLinkageAck hub =>
    cases msg <;>
      simp [MessageServiceCommand.route, commandsFor, linkageAck, isNotice] at hmsg ⊢
  | _ => rfl

/-- Only `msg_to_hub` takes a notice off its way, and only a command of the server
puts one there. -/
theorem unsent_step (h : g.Calm networks) (hi : i ≠ .msgToHub)
    (hs : (machine idEdge).step g i = some g') {msg : HubMessage} (hmsg : isNotice msg = true) :
    g'.unsent msg = g.unsent msg := by
  cases move_of_step hs with
  | @sync i p' hp =>
    have hnone : (g.sync.toCore idEdge i).countP (carries msg) = 0 := by
      cases Sync.move_of_step hp with
      | adminServer hq => simp [h.fromServer] at hq
      | @adminHub request rest hq =>
        simp only [Sync.toCore, hq, adminHub]
        split <;> rfl
      | @adminBatch batch rest hq => cases batch <;> simp [Sync.toCore, hq, adminBatch, carries]
      | _ => rfl
    simp [unsent, afterSync, answer, hnone]
  | coreData hq => simp [unsent, handle, message_ofData]
  | @coreNetwork response rest hq =>
    simp only [unsent, handle, hq, List.count_append, message_ofNetwork, List.countP_cons,
      List.countP_nil]
    omega
  | coreMessage hq => simp [unsent, handle, message_ofMessage _ hmsg]
  | @messageService now command rest hq =>
    simp only [unsent, hq, List.count_append, route_notice now command hmsg, List.count_cons,
      List.count_nil]
    omega
  | msgToHub hq => exact absurd rfl hi
  | _ => rfl

/-- A notice is published while its network is in memory, and only then. -/
theorem msgToHub_hubNotice {m : NetworkManager} (h : m.Formed idEdge) (now : Int64)
    (msg : NetworkMsg) :
    Message.msgToHub m .connected (.toHub (hubNotice idEdge now msg)) =
      if msg.idNetwork ∈ m.networks then some (notice idEdge now msg) else none := by
  rcases hl : m.networks.lookup msg.idNetwork with _ | network
  · rw [if_neg (AList.lookup_eq_none.mp hl)]
    unfold hubNotice
    split <;> simp [Message.msgToHub, resolveStaticTopic, getTopicToSendMsgToHub, hl]
  · rw [if_pos (AList.lookup_isSome.mp (hl ▸ rfl))]
    have hnew : ∃ active, network = Network.new msg.idNetwork active :=
      ⟨_, h.networks msg.idNetwork network hl⟩
    obtain ⟨active, rfl⟩ := hnew
    unfold notice hubNotice
    split <;>
      simp [Message.msgToHub, resolveStaticTopic, getTopicToSendMsgToHub, hl, Network.new]

/-- `msg_to_hub` takes a notice and publishes it, or drops it. -/
theorem told_msgToHub (h : g.Calm networks) (hm : g.sync.manager.Formed idEdge)
    (hs : (machine idEdge).step g .msgToHub = some g') (now : Int64) (msg : NetworkMsg) :
    g'.told idEdge now msg networks = g.told idEdge now msg networks := by
  cases move_of_step hs with
  | @msgToHub command rest hq =>
    by_cases heq : command = .toHub (hubNotice idEdge now msg)
    · subst heq
      simp only [told, sent, unsent, hq, h.broker, msgToHub_hubNotice hm, h.networks]
      split
      · simp
        omega
      · simp
    · have hother : ((Message.msgToHub g.sync.manager g.localStatus command).map
          MessageServiceResponse.serialized).toList.count
            (.serialized (notice idEdge now msg)) = 0 := by
        rw [List.count_eq_zero, Option.mem_toList, Option.map_eq_some_iff]
        rintro ⟨out, hout, hsame⟩
        cases hsame
        cases command with
        | toHub other =>
          have hpayload := payload_msgToHub hout
          rw [payload_notice] at hpayload
          exact heq (hpayload ▸ rfl)
        | _ => simp [Message.msgToHub] at hout
      simp only [told, sent, unsent, hq, List.count_append, hother, List.count_cons,
        beq_eq_false_iff_ne.mpr heq]
      simp

/-- While no command comes, the change is told as often as it is going to be. -/
theorem told_step (h : g.Calm networks) (hm : g.sync.manager.Formed idEdge)
    (hs : (machine idEdge).step g i = some g') (now : Int64) (msg : NetworkMsg) :
    g'.told idEdge now msg networks = g.told idEdge now msg networks := by
  by_cases hi : i = .msgToHub
  · subst hi
    exact told_msgToHub h hm hs now msg
  · simp only [told, sent_step hi hs, unsent_step h hi hs (isNotice_hubNotice idEdge now msg)]

theorem formed_step (h : g.sync.manager.Formed idEdge)
    (hs : (machine idEdge).step g i = some g') : g'.sync.manager.Formed idEdge := by
  cases move_of_step hs with
  | sync hp =>
    cases Sync.move_of_step hp with
    | adminServer hq => exact formed_adminServer h _ _
    | adminHub hq => exact formed_adminHub h _
    | adminBatch hq => exact formed_adminBatch h _
    | _ => exact h
  | _ => exact h

theorem formed_of_run {t : List (Gateway × Label)} (run : (machine idEdge).Run t g) :
    g.sync.manager.Formed idEdge := by
  apply run.always (fun g => g.sync.manager.Formed idEdge)
  · rintro g ⟨tables, rfl⟩
    exact formed_newEmpty idEdge
  · intro g i g' h hs
    exact formed_step h hs

end Steps

/-! ## The law -/

section Law

variable {idEdge : String} {g g' : Gateway} {now : Int64} {msg : NetworkMsg}

/-- The last command of the server has been taken. -/
theorem calm_adminServer (hone : g.OneSignal) (hq : g.sync.fromServer = [.network msg])
    (hbroker : g.localStatus = .connected) (hclient : isWaiting g.client = false)
    (hs : (machine idEdge).step g (.sync (.adminServer now)) = some g') :
    g'.Calm g'.sync.manager.networks := by
  have hcount := signals_step hs
  unfold OneSignal at hone
  rw [hclient, if_neg Bool.false_ne_true] at hone
  refine ⟨?_, ?_, by omega, ?_, rfl⟩
  · cases move_of_step hs with
    | sync hp =>
      cases Sync.move_of_step hp with
      | adminServer hq' =>
        rw [hq] at hq'
        exact (List.cons.inj hq').2.symm
  · rw [waiting_step hs, hclient, Bool.false_and]
  · cases move_of_step hs with
    | sync hp => exact hbroker

/-- A command that is accepted makes its notice. -/
theorem unsent_adminServer (hq : g.sync.fromServer = [.network msg])
    (ha : actionOf g.sync.manager msg = .delete ∨ actionOf g.sync.manager msg = .update)
    (hs : (machine idEdge).step g (.sync (.adminServer now)) = some g') :
    g'.unsent (hubNotice idEdge now msg) = g.unsent (hubNotice idEdge now msg) + 1 ∧
      (msg.idNetwork ∈ g'.sync.manager.networks ↔ actionOf g.sync.manager msg = .update) := by
  cases move_of_step hs with
  | sync hp =>
    cases Sync.move_of_step hp with
    | @adminServer now taken rest hq' =>
      obtain ⟨rfl, rfl⟩ := List.cons.inj (hq.symm.trans hq')
      constructor
      · simp only [unsent, afterSync, answer, Sync.toCore, hq, List.countP_append,
          toCore_adminServer ha, List.countP_singleton, carries, decide_true, if_true]
        omega
      · exact mem_networks_adminServer ha idEdge now

theorem told_adminServer (hq : g.sync.fromServer = [.network msg])
    (ha : actionOf g.sync.manager msg = .delete ∨ actionOf g.sync.manager msg = .update)
    (hs : (machine idEdge).step g (.sync (.adminServer now)) = some g') :
    g'.told idEdge now msg g'.sync.manager.networks =
      g.sent (notice idEdge now msg) +
        if actionOf g.sync.manager msg = .update then
          g.unsent (hubNotice idEdge now msg) + 1
        else 0 := by
  obtain ⟨hunsent, hmem⟩ := unsent_adminServer hq ha hs
  have hsent := sent_step (by simp) hs (notice idEdge now msg)
  simp only [told, hsent, hunsent, hmem]

/-- At rest all that is to be told has been published. -/
theorem told_of_resting (h : g.Resting) (networks : AList (fun _ : String => Network)) :
    g.told idEdge now msg networks = g.published.count (notice idEdge now msg) := by
  obtain ⟨-, -, -, hnet, hmsg, hhub, -, hfrom, -, hrx⟩ := h
  simp [told, sent, unsent, hnet, hmsg, hhub, hfrom, hrx]

/-- A deletion or a change that the gateway accepts while the broker is there, with
no command after it: at rest its notice has been published once more than those
before it exactly when it is a change, and the notice of a deletion has not been
published at all. -/
theorem hubs_are_told_of_changes (idEdge : String) (t u : List (Gateway × Label)) (g x : Gateway)
    (now : Int64) (msg : NetworkMsg)
    (run : (machine idEdge).Run (t ++ (g, .sync (.adminServer now)) :: u) x)
    (htaken : g.sync.fromServer = [.network msg])
    (haccepted : actionOf g.sync.manager msg = .delete ∨ actionOf g.sync.manager msg = .update)
    (hbroker : g.localStatus = .connected) (hclient : ∃ subs, g.client = .work subs)
    (hcalm : Machine.Meets (fun _ i => i.isCalm = true) u) (hrest : x.Resting) :
    (x.published.count (notice idEdge now msg) =
        g.sent (notice idEdge now msg) + g.unsent (hubNotice idEdge now msg) + 1 ↔
      actionOf g.sync.manager msg = .update) ∧
    (actionOf g.sync.manager msg = .delete →
      x.published.count (notice idEdge now msg) = g.sent (notice idEdge now msg)) := by
  have hone := oneSignal_of_run run.before
  have hformed := formed_of_run run.before
  have hwork : isWaiting g.client = false := by
    obtain ⟨subs, hsubs⟩ := hclient
    rw [hsubs]
    rfl
  have hend := run.invariant_after
    (fun g' => ∃ networks, g'.Calm networks ∧ g'.sync.manager.Formed idEdge ∧
      g'.told idEdge now msg networks =
        g.sent (notice idEdge now msg) +
          if actionOf g.sync.manager msg = .update then
            g.unsent (hubNotice idEdge now msg) + 1
          else 0)
    (fun _ i => i.isCalm = true)
    (fun g' hs => ⟨_, calm_adminServer hone htaken hbroker hwork hs, formed_step hformed hs,
      told_adminServer htaken haccepted hs⟩)
    (fun s i s' ⟨networks, hc, hm, htold⟩ hi hs => ⟨networks, calm_step hc hi hs,
      formed_step hm hs, (told_step hc hm hs now msg).trans htold⟩)
    hcalm
  obtain ⟨networks, -, -, htold⟩ := hend
  rw [told_of_resting hrest] at htold
  rw [htold]
  rcases haccepted with ha | ha
  · rw [if_neg (by simp [ha]), Nat.add_zero]
    refine ⟨⟨fun h => ?_, fun h => ?_⟩, fun _ => rfl⟩
    · omega
    · cases ha.symm.trans h
  · rw [if_pos ha]
    refine ⟨⟨fun _ => ha, fun _ => by omega⟩, fun h => ?_⟩
    cases ha.symm.trans h

/-! ## Concrete runs -/

/-- The server sends a command about the stored network. -/
def commanded (active deleteNetwork : Bool) : List Label :=
  greeted ++ loaded ++ [.sync (.server (commandFor "m" active deleteNetwork))]

/-- What is left of a change is done: it reaches the hubs and the database, and its
acknowledgement leaves the gateway. -/
def changedAway : List Label :=
  [.coreNetwork, .messageService default, .msgToHub, .coreMessage, .mqttMsg, .sync .dbaNetwork,
    .sync .dataService, .sync .dbaInsert, .coreData, .messageService default, .msgToServer default,
    .coreMessage, .mqttNet .succeed]

/-- What is left of a deletion is done. -/
def deletedAway : List Label :=
  [.coreNetwork, .messageService default, .msgToHub, .sync .dbaNetwork, .sync .dataService,
    .sync .dataService, .sync .dbaRemove, .sync .dbaRemove, .coreData, .messageService default,
    .msgToServer default, .coreMessage, .coreData, .mqttNet .succeed]

/-- The command about the stored network. -/
def changeOf (active deleteNetwork : Bool) : NetworkMsg where
  metadata := { senderUserId := "server0", destinationId := "edge", timestamp := default }
  idNetwork := "m"
  nameNetwork := "m"
  active := active
  deleteNetwork := deleteNetwork

theorem a_deletion_is_not_told :
    ¬ ∀ (idEdge : String) (t u : List (Gateway × Label)) (g x : Gateway) (now : Int64)
        (msg : NetworkMsg), (machine idEdge).Run (t ++ (g, .sync (.adminServer now)) :: u) x →
      g.sync.fromServer = [.network msg] →
      (actionOf g.sync.manager msg = .delete ∨ actionOf g.sync.manager msg = .update) →
      g.localStatus = .connected → (∃ subs, g.client = .work subs) →
      Machine.Meets (fun _ i => i.isCalm = true) u → x.Resting →
      x.published.count (notice idEdge now msg) =
        g.sent (notice idEdge now msg) + g.unsent (hubNotice idEdge now msg) + 1 := by
  intro h
  have hinit : (machine "edge").init (start "edge" storedTables) := ⟨_, rfl⟩
  have hrun := Machine.run_of_final (commanded true true) hinit (by decide +kernel)
  have hall := hrun.follow (.sync (.adminServer default) :: deletedAway) (by decide +kernel)
  have hcount := h "edge" _ _ _ _ default (changeOf true true) hall (by decide +kernel)
    (by decide +kernel) (by decide +kernel) ⟨_, rfl⟩ (by decide +kernel) (by decide +kernel)
  exact absurd hcount (by decide +kernel)

theorem a_change_is_told :
    ∃ x : Gateway, x.Resting ∧
      x.published.count (notice "edge" default (changeOf false false)) = 1 := by
  have hinit : (machine "edge").init (start "edge" storedTables) := ⟨_, rfl⟩
  have hrun := Machine.run_of_final (commanded false false) hinit (by decide +kernel)
  have hall := hrun.follow (.sync (.adminServer default) :: changedAway) (by decide +kernel)
  have hrest := hubs_are_told_of_changes "edge" _ _ _ _ default (changeOf false false) hall
    (by decide +kernel) (by decide +kernel) (by decide +kernel) ⟨_, rfl⟩ (by decide +kernel)
    (by decide +kernel)
  refine ⟨_, ?_, (hrest.1.mpr ?_).trans ?_⟩
  · decide +kernel
  · decide +kernel
  · decide +kernel

end Law

end Gateway

end EdgeGateway.Core
