-- The acknowledgements of the commands about networks. Each change that
-- `network_admin` decides ends in one upload, on whichever way it goes through the
-- database; a command that changes nothing ends there.
import EdgeGateway.Core.Ready

namespace EdgeGateway.Core

open EdgeGateway.Lib EdgeGateway.Message EdgeGateway.Networks EdgeGateway.Database
  EdgeGateway.Mqtt

/-! ## What is acknowledged -/

/-- The server sends a command about the network. -/
def isCommand (id : String) : ServerMessage → Bool
  | .network msg => msg.idNetwork = id
  | _ => false

/-- A command that changes nothing: the network is there with the same flag, or is
not there to be deleted. -/
def isIgnored (id : String) (m : NetworkManager) : ServerMessage → Bool
  | .network msg => msg.idNetwork = id ∧ actionOf m msg = .ignore
  | _ => false

def concerns (id : String) (change : NetworkChanged) : Bool := change.id = id

/-- The database answers the command with a `NetworksUpdated` of the network. -/
def isAnswered (id : String) : DataServiceCommand → Bool
  | .newNetwork row => row.idNetwork = id
  | .updateNetwork row => row.idNetwork = id
  | .deleteNetwork other => other = id
  | _ => false

def insertAnswers (id : String) : DataCommandInsert → Bool
  | .insertNetwork row => row.idNetwork = id
  | .updateNetwork row => row.idNetwork = id
  | .insertHub _ => false

def removeAnswers (id : String) : DataCommandDelete → Bool
  | .deleteNetwork other => other = id
  | _ => false

def isUpdated (id : String) : DataServiceResponse → Bool
  | .networksUpdated other _ => other = id
  | _ => false

def generatesAck (id : String) : MessageServiceCommand → Bool
  | .generateNetworkAck other _ => other = id
  | _ => false

/-- An acknowledgement of the network on its way to the server. -/
def isAck (id : String) (upload : FromEdge) : Bool :=
  match upload.payload with
  | .networkAck ack => ack.idNetwork = id
  | _ => false

def carriesAck (id : String) : MessageServiceResponse → Bool
  | .edgeUpload upload => isAck id upload
  | _ => false

namespace Gateway

/-- `network_admin` takes a command about the network. -/
def processes (id : String) (g : Gateway) : Label → Bool
  | .sync (.adminServer _) =>
    match g.sync.fromServer with
    | msg :: _ => isCommand id msg
    | [] => false
  | _ => false

/-- It takes one that it ignores. -/
def ignores (id : String) (g : Gateway) : Label → Bool
  | .sync (.adminServer _) =>
    match g.sync.fromServer with
    | msg :: _ => isIgnored id g.sync.manager msg
    | [] => false
  | _ => false

/-- The acknowledgements that are still under way, as whatever they are there. -/
def acksUnderWay (id : String) (g : Gateway) : Nat :=
  g.sync.netChan.countP (concerns id) + g.sync.commands.countP (isAnswered id) +
    g.sync.inserts.countP (insertAnswers id) + g.sync.deletes.countP (removeAnswers id) +
    g.fromData.countP (isUpdated id) + g.toMessage.countP (generatesAck id) +
    g.toServer.countP (generatesAck id) + g.fromMessage.countP (carriesAck id)

end Gateway

/-! ## One task -/

section Tasks

variable (id : String)

/-- `network_admin` decides one change for a command, or ignores it. -/
theorem concerned_adminServer (idEdge : String) (now : Int64) (m : NetworkManager)
    (msg : ServerMessage) :
    (adminServer idEdge now m msg).netChan.countP (concerns id) + (isIgnored id m msg).toNat =
      (isCommand id msg).toNat := by
  cases msg with
  | network network =>
    by_cases hid : network.idNetwork = id <;>
      rcases ha : actionOf m network <;>
      simp [adminServer, ha, handleAction, isIgnored, isCommand, concerns, NetworkChanged.id, hid]
  | _ => rfl

theorem answered_network (change : NetworkChanged) :
    change.commands.countP (isAnswered id) = [change].countP (concerns id) := by
  cases change <;> rfl

theorem answered_hub (change : HubChanged) : change.commands.countP (isAnswered id) = 0 := by
  cases change <;> simp [HubChanged.commands, isAnswered]

/-- `DataService` gives the command to the task that answers it. -/
theorem answered_dataService (command : DataServiceCommand) :
    (forInsert command).toList.countP (insertAnswers id) +
      (forDelete command).toList.countP (removeAnswers id) = [command].countP (isAnswered id) := by
  cases command <;>
    simp [forInsert, forDelete, insertAnswers, removeAnswers, isAnswered, List.countP_cons]

/-- The rows of the start, which do not go through the core, acknowledge nothing. -/
theorem updated_filter (responses : List DataServiceResponse) :
    (responses.filter (fun r => (batchOf r).isNone)).countP (isUpdated id) =
      responses.countP (isUpdated id) := by
  rw [List.countP_filter]
  apply List.countP_congr
  intro r _
  cases r <;> simp [isUpdated, batchOf]

/-- `dba_insert_task` answers once, whether the statement succeeds or fails. -/
theorem updated_dbaInsert (t : Tables) (command : DataCommandInsert) :
    (Database.dbaInsert t command).2.2.countP (isUpdated id) =
      [command].countP (insertAnswers id) := by
  cases command with
  | insertNetwork row =>
    unfold Database.dbaInsert
    simp only
    split <;> simp [isUpdated, insertAnswers, List.countP_cons]
  | updateNetwork row => simp [Database.dbaInsert, isUpdated, insertAnswers, List.countP_cons]
  | insertHub row => rfl

theorem updated_dbaInsertError (command : DataCommandInsert) :
    (dbaInsertError command).countP (isUpdated id) = [command].countP (insertAnswers id) := by
  cases command <;> simp [dbaInsertError, isUpdated, insertAnswers, List.countP_cons]

theorem updated_dbaInsertHub (t : Tables) (row : HubRow) :
    (Database.dbaInsertHub t row).2.countP (isUpdated id) = 0 := by
  unfold Database.dbaInsertHub
  split <;> simp [isUpdated]

/-- So does `dba_remove_task`. -/
theorem updated_dbaRemove (t : Tables) (command : DataCommandDelete) :
    (Database.dbaRemove t command).2.countP (isUpdated id) =
      [command].countP (removeAnswers id) := by
  cases command with
  | deleteNetwork other =>
    unfold Database.dbaRemove
    simp only
    split <;> simp [isUpdated, removeAnswers, List.countP_cons]
  | deleteAllHubByNetwork other => rfl
  | deleteHub other => rfl

theorem updated_dbaRemoveError (t : Tables) (command : DataCommandDelete) :
    (dbaRemoveError t command).countP (isUpdated id) = [command].countP (removeAnswers id) := by
  cases command with
  | deleteNetwork other =>
    unfold dbaRemoveError
    simp only
    split <;> simp [isUpdated, removeAnswers, List.countP_cons]
  | deleteAllHubByNetwork other => rfl
  | deleteHub other => rfl

/-- The core asks for one acknowledgement for each answer. -/
theorem generates_ofData (response : DataServiceResponse) :
    ((run (.dataService (.registry response))).filterMap Output.messageCommand).countP
      (generatesAck id) = [response].countP (isUpdated id) := by
  cases response <;>
    simp [run, ofData, Output.messageCommand, generatesAck, isUpdated, List.filterMap_cons,
      List.countP_cons]

theorem generates_ofNetwork (response : NetworkServiceResponse) :
    ((run (.networkService (.response response))).filterMap Output.messageCommand).countP
      (generatesAck id) = 0 := by
  cases response <;> simp [run, ofNetwork, Output.messageCommand, generatesAck, List.filterMap_cons]

theorem generates_ofMessage (response : MessageServiceResponse) :
    ((run (.messageService response)).filterMap Output.messageCommand).countP (generatesAck id) =
      0 := by
  rcases response with upload | out | other | other
  · rfl
  · rfl
  · cases other <;> rfl
  · cases other <;>
      simp [run, ofMessage, ofServer, Output.messageCommand, generatesAck, List.filterMap_cons]

/-- An acknowledgement goes through to `msg_to_server`. -/
theorem generates_route (idEdge : String) (now : Int64) (command : MessageServiceCommand) :
    (commandsFor .msgToServer (command.route idEdge now)).countP (generatesAck id) =
      [command].countP (generatesAck id) := by
  cases command with
  | internal event => cases event <;> rfl
  | toHub other =>
    cases hpass : passesToHub other <;>
      simp [MessageServiceCommand.route, hpass, commandsFor, generatesAck]
  | toServer other =>
    cases hpass : passesToServer other <;>
      simp [MessageServiceCommand.route, hpass, commandsFor, generatesAck]
  | _ => rfl

/-- Uploads go through the core, and nothing else makes one. -/
theorem uploads_ofMessage (response : MessageServiceResponse) :
    ((run (.messageService response)).filterMap Output.upload).countP (isAck id) =
      [response].countP (carriesAck id) := by
  rcases response with upload | out | other | other
  · rfl
  · rfl
  · cases other <;> rfl
  · cases other <;> rfl

theorem uploads_ofData (response : DataServiceResponse) :
    (run (.dataService (.registry response))).filterMap Output.upload = [] := by
  cases response <;> rfl

theorem uploads_ofNetwork (response : NetworkServiceResponse) :
    (run (.networkService (.response response))).filterMap Output.upload = [] := by
  cases response <;> rfl

/-- What the message service passes on to `msg_to_server` is no acknowledgement
that somebody else made. -/
def isPassed : MessageServiceCommand → Bool
  | .toServer msg => passesToServer msg
  | _ => true

theorem passed_route (idEdge : String) (now : Int64) (command : MessageServiceCommand) :
    ∀ c ∈ commandsFor .msgToServer (command.route idEdge now), isPassed c = true := by
  intro c hc
  cases command with
  | internal event =>
    cases event <;> simp [MessageServiceCommand.route, commandsFor] at hc <;> subst hc <;> rfl
  | toHub other =>
    cases hpass : passesToHub other <;>
      simp [MessageServiceCommand.route, hpass, commandsFor] at hc
  | toServer other =>
    cases hpass : passesToServer other <;>
      simp [MessageServiceCommand.route, hpass, commandsFor] at hc
    subst hc
    exact hpass
  | _ => simp [MessageServiceCommand.route, commandsFor] at hc <;> subst hc <;> rfl

/-- `msg_to_server` makes the acknowledgement, in any state. -/
theorem carries_msgToServer (idEdge : String) (now : Int64) (status : ServerStatus)
    {command : MessageServiceCommand} (h : isPassed command = true) :
    ((Message.msgToServer idEdge now status command).2.filterMap Gateway.responseOf).countP
      (carriesAck id) = [command].countP (generatesAck id) := by
  cases command with
  | internal event => cases event <;> rfl
  | batch rows =>
    cases status with
    | disconnected => rfl
    | connected =>
      simp only [Message.msgToServer, processBatch, List.filterMap_append, List.countP_append]
      have hreports : ∀ (b : Bool) (msg : ServerMessage), (∀ e, msg ≠ .networkAck e) →
          ((if b then [] else uploadOf idEdge msg).filterMap Gateway.responseOf).countP
            (carriesAck id) = 0 := by
        intro b msg hmsg
        cases b <;> cases msg <;>
          simp [uploadOf, convertToProtoUpload, Gateway.responseOf, carriesAck, isAck] at hmsg ⊢
      rw [hreports _ _ (by simp), hreports _ _ (by simp), hreports _ _ (by simp),
        hreports _ _ (by simp)]
      rfl
  | toServer msg =>
    cases status with
    | disconnected => rfl
    | connected => cases msg <;> first | rfl | cases h
  | _ => rfl

end Tasks

namespace Gateway

/-! ## One step -/

section Steps

variable {idEdge : String} {g g' : Gateway} {i : Label} (id : String)

/-- What is under way and what has been sent. -/
def acksMade (g : Gateway) : Nat := g.acksUnderWay id + g.uploads.countP (isAck id)

theorem acks_sync {i : Sync.Label} {p' : Sync} (h : g.sync.step idEdge i = some p') :
    acksMade id (g.afterSync idEdge i p') + (g.ignores id (.sync i)).toNat =
      acksMade id g + (g.processes id (.sync i)).toNat := by
  cases Sync.move_of_step h with
  | @adminServer now msg rest hq =>
    have hone := concerned_adminServer id idEdge now g.sync.manager msg
    simp [acksMade, acksUnderWay, afterSync, answer, Sync.responses, Sync.enact, ignores, processes,
      hq]
    omega
  | @adminHub request rest hq =>
    have hnone : (adminHub g.sync.manager request).netChan = [] :=
      (adminHub_spec g.sync.manager request).1
    simp [acksMade, acksUnderWay, afterSync, answer, Sync.responses, Sync.enact, ignores, processes,
      hnone]
  | @adminBatch batch rest hq =>
    cases batch <;>
      simp [acksMade, acksUnderWay, afterSync, answer, Sync.responses, Sync.enact, ignores,
        processes, adminBatch]
  | @dbaNetwork change rest hq =>
    simp [acksMade, acksUnderWay, afterSync, answer, Sync.responses, ignores, processes, hq,
      answered_network, List.countP_cons]
    omega
  | dbaHub hq =>
    simp [acksMade, acksUnderWay, afterSync, answer, Sync.responses, ignores, processes,
      answered_hub]
  | @dataService command rest hq =>
    have hone := answered_dataService id command
    simp [acksMade, acksUnderWay, afterSync, answer, Sync.responses, Sync.route, ignores, processes,
      hq, List.countP_cons] at hone ⊢
    omega
  | @dbaInsert command rest hi hq =>
    simp [acksMade, acksUnderWay, afterSync, answer, Sync.responses, ignores, processes, hq,
      updated_filter, updated_dbaInsert, List.countP_cons]
    omega
  | @dbaInsertHub row hi =>
    simp [acksMade, acksUnderWay, afterSync, answer, Sync.responses, ignores, processes, hi,
      updated_filter, updated_dbaInsertHub]
  | @dbaRemove command rest hq =>
    simp [acksMade, acksUnderWay, afterSync, answer, Sync.responses, ignores, processes, hq,
      updated_filter, updated_dbaRemove, List.countP_cons]
    omega
  | getNetworks ht =>
    simp [acksMade, acksUnderWay, afterSync, answer, Sync.responses, ignores, processes, ht,
      Database.dbaGetNext, batchOf]
  | countHubs ht =>
    simp [acksMade, acksUnderWay, afterSync, answer, Sync.responses, ignores, processes, ht,
      Database.dbaGetNext]
  | getHubs ht =>
    simp [acksMade, acksUnderWay, afterSync, answer, Sync.responses, ignores, processes, ht,
      Database.dbaGetNext, batchOf, isUpdated]
  | _ => simp [acksMade, acksUnderWay, afterSync, answer, Sync.responses, ignores, processes]

/-- `msg_to_server` has only what the message service passes on. -/
def Passing (g : Gateway) : Prop := ∀ c ∈ g.toServer, isPassed c = true

theorem passing_step (h : g.Passing) (hs : (machine idEdge).step g i = some g') : g'.Passing := by
  cases move_of_step hs with
  | @messageService now command rest hq =>
    intro c hc
    rcases List.mem_append.mp hc with hc | hc
    · exact h c hc
    · exact passed_route idEdge now command c hc
  | @msgToServer now command rest hq =>
    intro c hc
    exact h c (hq ▸ List.mem_cons_of_mem _ hc)
  | _ => exact h

/-- Each command that is not ignored has one acknowledgement, from the change it
makes to the upload. -/
theorem acks_step (h : g.Passing) (hs : (machine idEdge).step g i = some g') :
    acksMade id g' + (g.ignores id i).toNat = acksMade id g + (g.processes id i).toNat := by
  cases move_of_step hs with
  | sync hp => exact acks_sync id hp
  | @insertFails command rest hi hq =>
    simp [acksMade, acksUnderWay, answer, Sync.skipInsert, ignores, processes, hq, updated_filter,
      updated_dbaInsertError, List.countP_cons]
    omega
  | @removeFails command rest hq =>
    simp [acksMade, acksUnderWay, answer, Sync.skipDelete, ignores, processes, hq, updated_filter,
      updated_dbaRemoveError, List.countP_cons]
    omega
  | @coreData response rest hq =>
    simp [acksMade, acksUnderWay, handle, ignores, processes, hq, generates_ofData,
      uploads_ofData, List.countP_cons]
    omega
  | @coreNetwork response rest hq =>
    simp [acksMade, acksUnderWay, handle, ignores, processes, generates_ofNetwork,
      uploads_ofNetwork]
  | @coreMessage response rest hq =>
    simp [acksMade, acksUnderWay, handle, ignores, processes, hq, generates_ofMessage,
      uploads_ofMessage, List.countP_cons]
    omega
  | @messageService now command rest hq =>
    simp [acksMade, acksUnderWay, ignores, processes, hq, generates_route, List.countP_cons]
    omega
  | @msgToHub command rest hq =>
    have hnone : ((Message.msgToHub g.sync.manager g.localStatus command).map
        MessageServiceResponse.serialized).toList.countP (carriesAck id) = 0 := by
      cases Message.msgToHub g.sync.manager g.localStatus command <;> simp [carriesAck]
    simp [acksMade, acksUnderWay, ignores, processes, hnone]
  | @msgToServer now command rest hq =>
    have hmade := carries_msgToServer id idEdge now g.serverStatus
      (h command (hq ▸ List.mem_cons_self))
    simp only [acksMade, acksUnderWay, ignores, processes, hq, List.countP_append, hmade,
      List.countP_cons, List.countP_nil]
    omega
  | _ => simp [acksMade, acksUnderWay, ignores, processes]

end Steps

/-! ## The law -/

section Law

variable {idEdge : String} {g : Gateway} {t : List (Gateway × Label)}

/-- The commands about the network that `network_admin` has taken in a run. -/
def processed (id : String) (t : List (Gateway × Label)) : Nat :=
  t.countP (fun p => p.1.processes id p.2)

/-- Those that it has ignored. -/
def ignored (id : String) (t : List (Gateway × Label)) : Nat :=
  t.countP (fun p => p.1.ignores id p.2)

/-- No acknowledgement is lost, and none is made twice. -/
theorem acks_of_run (run : (machine idEdge).Run t g) (id : String) :
    acksMade id g + ignored id t = processed id t := by
  have hlaw := run.history
    (fun t g => g.Passing ∧ acksMade id g + ignored id t = processed id t) ?_ ?_
  · exact hlaw.2
  · rintro g ⟨tables, rfl⟩
    refine ⟨fun c hc => ?_, rfl⟩
    simp [start] at hc
  · rintro t s i s' ⟨hpass, hcount⟩ hs
    refine ⟨passing_step hpass hs, ?_⟩
    have hstep := acks_step id hpass hs
    have hsnoc : ∀ f : Gateway × Label → Bool,
        (t ++ [(s, i)]).countP f = t.countP f + (f (s, i)).toNat := by
      intro f
      rw [List.countP_append]
      cases hf : f (s, i) <;> simp [hf]
    unfold ignored processed at hcount ⊢
    rw [hsnoc, hsnoc]
    simp only
    omega

theorem underWay_of_resting (h : g.Resting) (id : String) : acksUnderWay id g = 0 := by
  obtain ⟨hquiet, -, hdata, -, hmessage, -, hserver, hfrom, -, -⟩ := h
  obtain ⟨-, -, -, hnet, -, hcommands, hinserts, hdeletes, -⟩ := hquiet
  simp [acksUnderWay, hnet, hcommands, hinserts, hdeletes, hdata, hmessage, hserver, hfrom]

/-- At rest a network has as many acknowledgements as commands exactly when none of
its commands was ignored. -/
theorem commands_are_acknowledged (idEdge : String) (t : List (Gateway × Label)) (g : Gateway)
    (run : (machine idEdge).Run t g) (hrest : g.Resting) (id : String) :
    g.uploads.countP (isAck id) = processed id t ↔
      Machine.Meets (fun g i => g.ignores id i = false) t := by
  have hcount := acks_of_run run id
  have hnone : ignored id t = 0 ↔ Machine.Meets (fun g i => g.ignores id i = false) t := by
    simp [ignored, List.countP_eq_zero, Machine.Meets]
  unfold acksMade at hcount
  rw [underWay_of_resting hrest id] at hcount
  rw [← hnone]
  omega

/-! ## Concrete runs -/

/-- The server sends the command that creates the network once more. -/
def createdTwice : List Label :=
  greeted ++ nothingLoaded ++ created ++
    [.sync (.server (commandFor "n" true false)), .sync (.adminServer default)]

theorem a_repeated_command_is_not_acknowledged :
    ¬ ∀ (idEdge : String) (t : List (Gateway × Label)) (g : Gateway), (machine idEdge).Run t g →
      g.Resting → ∀ id, g.uploads.countP (isAck id) = processed id t := by
  intro h
  have hinit : (machine "edge").init (start "edge" Tables.empty) := ⟨_, rfl⟩
  have hrun := Machine.run_of_final createdTwice hinit (by decide +kernel)
  have hcount := h "edge" _ _ hrun (by decide +kernel) "n"
  exact absurd hcount (by decide +kernel)

theorem a_new_network_is_acknowledged :
    ∃ g : Gateway, g.Resting ∧ g.uploads.countP (isAck "n") = 1 := by
  have hinit : (machine "edge").init (start "edge" Tables.empty) := ⟨_, rfl⟩
  have hrun := Machine.run_of_final (greeted ++ nothingLoaded ++ created) hinit
    (by decide +kernel)
  have hacks := commands_are_acknowledged "edge" _ _ hrun (by decide +kernel) "n"
  refine ⟨_, ?_, (hacks.mpr ?_).trans ?_⟩
  · decide +kernel
  · decide +kernel
  · decide +kernel

end Law

end Gateway

end EdgeGateway.Core
