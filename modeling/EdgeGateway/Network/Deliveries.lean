-- What the network service makes of a whole run. `network_admin` takes the commands of the core
-- in some order, each kind in its own; what it decides of them is a fold over the cache; and
-- what it decided, its answers as well as its changes of networks and of hubs, reaches the core
-- in the order of the decisions, or is under way.
import EdgeGateway.Network.Service

namespace EdgeGateway.NetworkService

open EdgeGateway.Lib EdgeGateway.Lib.Mailbox EdgeGateway.Message EdgeGateway.Networks
  EdgeGateway.Database

/-! ## The decisions -/

/-- A command of the core, and the time of day when `network_admin` takes it. -/
abbrev Input : Type := Int64 × Core.NetworkServiceCommand

/-- The channel that the service hands a command on to. -/
def channelOf : Core.NetworkServiceCommand → Channel
  | .serverMessage _ => .serverCommand
  | .hubMessage _ => .hubCommand
  | .batch _ => .commandBatch

/-- The command that a message of such a channel came with. -/
def commandOf : (c : Channel) → c.Message → Option Core.NetworkServiceCommand
  | .serverCommand, msg => some (.serverMessage msg)
  | .hubCommand, msg => some (.hubMessage msg)
  | .commandBatch, batch => some (.batch batch)
  | _, _ => none

def decisionOn (idEdge : String) (m : NetworkManager) (i : Input) : Decision :=
  match i.2 with
  | .serverMessage msg => adminServer idEdge i.1 m msg
  | .hubMessage msg => adminHubMessage m msg
  | .batch batch => adminBatch m batch

/-- The cache after some commands. -/
def cacheAfter (idEdge : String) (m : NetworkManager) (inputs : List Input) : NetworkManager :=
  inputs.foldl (fun m i => (decisionOn idEdge m i).manager) m

/-- What is decided of some commands, one after the other. -/
def decisions (idEdge : String) (m : NetworkManager) : List Input → List Decision
  | [] => []
  | i :: rest =>
    decisionOn idEdge m i :: decisions idEdge (decisionOn idEdge m i).manager rest

theorem decisions_append (idEdge : String) (m : NetworkManager) (inputs inputs' : List Input) :
    decisions idEdge m (inputs ++ inputs') =
      decisions idEdge m inputs ++ decisions idEdge (cacheAfter idEdge m inputs) inputs' := by
  induction inputs generalizing m with
  | nil => rfl
  | cons i rest ih =>
    rw [List.cons_append, decisions, decisions, ih]
    rfl

theorem cacheAfter_append (idEdge : String) (m : NetworkManager) (inputs inputs' : List Input) :
    cacheAfter idEdge m (inputs ++ inputs') =
      cacheAfter idEdge (cacheAfter idEdge m inputs) inputs' :=
  List.foldl_append

/-- The command that a step makes `network_admin` take. -/
def input (g : State) : Step → List Input
  | .take c now => (((g.queue c).take 1).filterMap (commandOf c)).map (fun command => (now, command))
  | _ => []

/-- The commands that `network_admin` has taken. -/
def inputs (l : Trace) : List Input := Machine.log input l

/-! ## The changes for the database -/

inductive Kind where
  | network
  | hub
  deriving Repr, DecidableEq

inductive Change where
  | network (change : NetworkChanged)
  | hub (change : HubChanged)
  deriving Repr, DecidableEq

def Change.commands : Change → List DataServiceCommand
  | .network change => change.commands
  | .hub change => change.commands

namespace Kind

/-- The channel from `network_admin` to `network_dba`. -/
def channel : Kind → Channel
  | .network => .insertNetwork
  | .hub => .insertHub

/-- What a decision changes. -/
def changes (k : Kind) (d : Decision) : List Change :=
  match k with
  | .network => d.netChan.map .network
  | .hub => d.hubChan.map .hub

/-- The command makes a change of the kind. -/
def has : Kind → DataServiceCommand → Bool
  | .network, .newNetwork _ => true
  | .network, .updateNetwork _ => true
  | .network, .deleteNetwork _ => true
  | .network, .deleteAllHubByNetwork _ => true
  | .hub, .newHub _ => true
  | .hub, .deleteHub _ => true
  | _, _ => false

end Kind

/-! ## What is read of the channels -/

/-- The commands of the core that are for a channel of `network_admin`. -/
def inputView (c₀ : Channel) : (c : Channel) → c.Message → Option Core.NetworkServiceCommand
  | .fromCore, command => if channelOf command = c₀ then some command else none
  | c, msg => commandOf c msg

def responseView : (c : Channel) → c.Message → Option NetworkServiceResponse
  | .responseAdmin, response => some response
  | .toCore, .response response => some response
  | _, _ => none

def changeView : (c : Channel) → c.Message → Option Change
  | .insertNetwork, change => some (.network change)
  | .insertHub, change => some (.hub change)
  | _, _ => none

def commandView (k : Kind) : (c : Channel) → c.Message → Option DataServiceCommand
  | .dbaResponse, command => if k.has command then some command else none
  | .toCore, .dataCommand command => if k.has command then some command else none
  | _, _ => none

/-- What the core has handed to the service for a channel of `network_admin`. -/
def handed (c : Channel) (l : Trace) : List Core.NetworkServiceCommand :=
  Machine.log (came (inputView c) .fromCore) l

/-- What is between the core and `network_admin`. -/
def comingIn (c : Channel) (g : State) : List Core.NetworkServiceCommand :=
  lane (inputView c) g c [(.service, .fromCore)]

/-- The answers that the core has taken. -/
def answered (l : Trace) : List NetworkServiceResponse := Machine.log (went responseView .toCore) l

/-- The answers that are on their way to the core. -/
def answering (g : State) : List NetworkServiceResponse :=
  lane responseView g .toCore [(.service, .responseAdmin)] ++
    owed responseView g .networkAdmin .responseAdmin

/-- The commands for the database that the core has taken. -/
def commanded (k : Kind) (l : Trace) : List DataServiceCommand :=
  Machine.log (went (commandView k) .toCore) l

/-- The commands that are on their way to the core, those of the changes that `network_dba` has
still to take included. -/
def commanding (k : Kind) (g : State) : List DataServiceCommand :=
  lane (commandView k) g .toCore [(.service, .dbaResponse)] ++
    owed (commandView k) g .networkDba .dbaResponse ++
    (held changeView g k.channel ++ owed changeView g .networkAdmin k.channel).flatMap
      Change.commands

/-! ## The tasks hand on -/

section Relays

variable {idEdge : String} {bufferSize : Nat}

theorem writer_task {α : Type} (v : (c : Channel) → c.Message → Option α) {t : Task} {c : Channel}
    (hfed : c ≠ .fromCore) (honly : ∀ t₀, writes t₀ c = true → t₀ = t) :
    Writer v (wiring idEdge bufferSize) t c :=
  writer_of_writes (writes_handle idEdge bufferSize) (decide_eq_false hfed) honly

theorem relay_response :
    Relay responseView (wiring idEdge bufferSize) .service .responseAdmin .toCore where
  reader := rfl
  writer := writer_task responseView (by decide) (by intro t; cases t <;> decide)
  passes _ _ _ := rfl
  alone := by
    intro now m c msg hr hc
    cases c with
    | fromCore => cases msg <;> rfl
    | responseAdmin => exact absurd rfl hc
    | dbaResponse => rfl
    | _ => cases hr

theorem relay_command (k : Kind) :
    Relay (commandView k) (wiring idEdge bufferSize) .service .dbaResponse .toCore where
  reader := rfl
  writer := writer_task (commandView k) (by decide) (by intro t; cases t <;> decide)
  passes := by
    intro now m command
    exact (sent_cons_self _ _ _).trans (List.append_nil _)
  alone := by
    intro now m c msg hr hc
    cases c with
    | fromCore => cases msg <;> rfl
    | responseAdmin => rfl
    | dbaResponse => exact absurd rfl hc
    | _ => cases hr

theorem relay_input {c : Channel} (hc : c.toAdmin = true) :
    Relay (inputView c) (wiring idEdge bufferSize) .service .fromCore c where
  reader := rfl
  writer := by
    apply writer_task
    · rintro rfl
      cases hc
    · intro t
      cases c <;> cases t <;> first | decide | cases hc
  passes := by
    intro now m command
    cases c <;> cases command <;> rfl
  alone := by
    intro now m c₀ msg hr hne
    cases c₀ with
    | fromCore => exact absurd rfl hne
    | responseAdmin => cases c <;> rfl
    | dbaResponse => cases c <;> rfl
    | _ => cases hr

end Relays

/-! ## What a step makes the tasks send -/

section Steps

variable {idEdge : String} {bufferSize : Nat} {g g' : State} {i : Step}

/-- What is taken of a channel of `network_admin` is an input. -/
theorem went_input {c : Channel} (hc : c.toAdmin = true)
    (hs : g.step (wiring idEdge bufferSize) i = some g') :
    went (inputView c) c g i =
      ((input g i).map Prod.snd).filter (fun command => channelOf command = c) := by
  cases move_of_step hs with
  | @take c₀ t msg rest now hr hq hp =>
    by_cases heq : c₀ = c
    · subst heq
      cases c₀ with
      | serverCommand => simp [went, input, hq, inputView, commandOf, channelOf]
      | hubCommand => simp [went, input, hq, inputView, commandOf, channelOf]
      | commandBatch => simp [went, input, hq, inputView, commandOf, channelOf]
      | _ => cases hc
    · cases c₀ <;> simp [went, input, hq, heq, commandOf, channelOf]
  | @drain c₀ msg rest hr hq =>
    have hne : c₀ ≠ c := by
      rintro rfl
      cases c₀ with
      | toCore => cases hc
      | _ => cases hr
    simp [went, input, hne]
  | _ => rfl

/-- A step makes `network_admin` send what it decides, and the cache remembers it. -/
theorem caused_admin {α : Type} (v : (c : Channel) → c.Message → Option α) (c : Channel)
    (hs : g.step (wiring idEdge bufferSize) i = some g') :
    caused v (wiring idEdge bufferSize) .networkAdmin c g i =
        (decisions idEdge g.memory (input g i)).flatMap (fun d => sent v c (sendsOf d)) ∧
      g'.memory = cacheAfter idEdge g.memory (input g i) := by
  cases move_of_step hs with
  | @take c₀ t msg rest now hr hq hp =>
    cases c₀ with
    | toCore => cases hr
    | fromCore =>
      simp only [caused, input, hq]
      refine ⟨rfl, ?_⟩
      cases msg <;> rfl
    | serverCommand =>
      simp only [caused, input, hq]
      exact ⟨(List.append_nil _).symm, rfl⟩
    | hubCommand =>
      simp only [caused, input, hq]
      exact ⟨(List.append_nil _).symm, rfl⟩
    | commandBatch =>
      simp only [caused, input, hq]
      exact ⟨(List.append_nil _).symm, rfl⟩
    | _ =>
      simp only [caused, input, hq]
      exact ⟨rfl, rfl⟩
  | put hp hroom => exact ⟨rfl, rfl⟩
  | feed msg hf hroom => exact ⟨rfl, rfl⟩
  | drain hr hq => exact ⟨rfl, rfl⟩

theorem sent_commands (k : Kind) (change : Change) :
    sent (commandView k) .dbaResponse
        (change.commands.map (fun command => (⟨.dbaResponse, command⟩ : Send))) =
      match k, change with
      | .network, .network _ => change.commands
      | .hub, .hub _ => change.commands
      | _, _ => [] := by
  refine (sent_map _ _ Channel.dbaResponse (fun command => command) _).trans ?_
  cases k <;> rcases change with change | change <;> cases change <;> rfl

/-- A step makes `network_dba` send the commands of the change that it takes. -/
theorem caused_dba (k : Kind) (hs : g.step (wiring idEdge bufferSize) i = some g') :
    caused (commandView k) (wiring idEdge bufferSize) .networkDba .dbaResponse g i =
      (went changeView k.channel g i).flatMap Change.commands := by
  cases move_of_step hs with
  | @take c₀ t msg rest now hr hq hp =>
    cases c₀ with
    | toCore => cases hr
    | insertNetwork =>
      have hsent := sent_commands k (.network msg)
      cases k <;> simp only [caused, hq] <;> refine hsent.trans ?_
      · show _ = (((g.queue .insertNetwork).take 1).filterMap (changeView .insertNetwork)).flatMap _
        rw [hq]
        exact (List.append_nil _).symm
      · rfl
    | insertHub =>
      have hsent := sent_commands k (.hub msg)
      cases k <;> simp only [caused, hq] <;> refine hsent.trans ?_
      · rfl
      · show _ = (((g.queue .insertHub).take 1).filterMap (changeView .insertHub)).flatMap _
        rw [hq]
        exact (List.append_nil _).symm
    | _ =>
      simp only [caused, went, hq]
      cases k <;> rfl
  | put hp hroom => rfl
  | feed msg hf hroom => rfl
  | @drain c₀ msg rest hr hq =>
    have hne : c₀ ≠ k.channel := by
      rintro rfl
      cases k <;> cases hr
    simp [caused, went, hne]

end Steps

/-! ## A whole run -/

section Runs

variable {idEdge : String} {bufferSize : Nat} {l : Trace} {g : State}

/-- `network_admin` sends what it decides of its inputs, and the cache is what they make of it. -/
theorem run_admin {α : Type} (v : (c : Channel) → c.Message → Option α) (c : Channel)
    (run : (tasks idEdge bufferSize).Run l g) :
    Machine.log (caused v (wiring idEdge bufferSize) .networkAdmin c) l =
        (decisions idEdge (NetworkManager.newEmpty idEdge) (inputs l)).flatMap
          (fun d => sent v c (sendsOf d)) ∧
      g.memory = cacheAfter idEdge (NetworkManager.newEmpty idEdge) (inputs l) := by
  refine run.history (fun l g =>
    Machine.log (caused v (wiring idEdge bufferSize) .networkAdmin c) l =
        (decisions idEdge (NetworkManager.newEmpty idEdge) (inputs l)).flatMap
          (fun d => sent v c (sendsOf d)) ∧
      g.memory = cacheAfter idEdge (NetworkManager.newEmpty idEdge) (inputs l)) ?_ ?_
  · rintro g rfl
    exact ⟨rfl, rfl⟩
  · rintro l g i g' ⟨hsent, hmemory⟩ hs
    obtain ⟨hcaused, hafter⟩ := caused_admin v c hs
    unfold inputs at *
    rw [Machine.log_snoc, Machine.log_snoc, hsent, hcaused, hafter, hmemory, decisions_append,
      cacheAfter_append, List.flatMap_append]
    exact ⟨rfl, rfl⟩

theorem run_input {c : Channel} (hc : c.toAdmin = true) (run : (tasks idEdge bufferSize).Run l g) :
    Machine.log (went (inputView c) c) l =
      ((inputs l).map Prod.snd).filter (fun command => channelOf command = c) := by
  induction run with
  | start _ => rfl
  | move r hs ih =>
    unfold inputs at *
    rw [Machine.log_snoc, Machine.log_snoc, List.map_append, List.filter_append, ih,
      went_input hc hs]

theorem run_dba (k : Kind) (run : (tasks idEdge bufferSize).Run l g) :
    Machine.log (caused (commandView k) (wiring idEdge bufferSize) .networkDba .dbaResponse) l =
      (Machine.log (went changeView k.channel) l).flatMap Change.commands := by
  induction run with
  | start _ => rfl
  | move r hs ih =>
    rw [Machine.log_snoc, Machine.log_snoc, List.flatMap_append, ih, caused_dba k hs]

theorem sent_sendsOf {α : Type} (v : (c : Channel) → c.Message → Option α) (c : Channel)
    (d : Decision) :
    sent v c (sendsOf d) =
      (if .insertHub = c then d.hubChan.filterMap (v .insertHub) else []) ++
        (if .responseAdmin = c then d.toCore.filterMap (v .responseAdmin) else []) ++
        (if .insertNetwork = c then d.netChan.filterMap (v .insertNetwork) else []) := by
  unfold sendsOf
  rw [sent_append, sent_append]
  exact congrArg₂ (· ++ ·)
    (congrArg₂ (· ++ ·) (sent_map v c Channel.insertHub (fun change => change) _)
      (sent_map v c Channel.responseAdmin (fun response => response) _))
    (sent_map v c Channel.insertNetwork (fun change => change) _)

theorem sent_responses (d : Decision) :
    sent responseView .responseAdmin (sendsOf d) = d.toCore := by
  rw [sent_sendsOf]
  show [] ++ d.toCore.filterMap some ++ [] = d.toCore
  rw [List.nil_append, List.append_nil, List.filterMap_some]

theorem sent_changes (k : Kind) (d : Decision) :
    sent changeView k.channel (sendsOf d) = k.changes d := by
  rw [sent_sendsOf]
  cases k with
  | network =>
    show [] ++ [] ++ d.netChan.filterMap (some ∘ Change.network) = _
    rw [List.filterMap_eq_map]
    rfl
  | hub =>
    show d.hubChan.filterMap (some ∘ Change.hub) ++ [] ++ [] = _
    rw [List.filterMap_eq_map, List.append_nil, List.append_nil]
    rfl

/-- What is decided has been sent and taken, or is on its way. -/
theorem run_answers (run : (tasks idEdge bufferSize).Run l g) :
    (decisions idEdge (NetworkManager.newEmpty idEdge) (inputs l)).flatMap Decision.toCore =
      answered l ++ answering g := by
  have howed := run_owed (writer_task responseView (c := .responseAdmin) (t := .networkAdmin)
    (by decide) (by intro t; cases t <;> decide)) (fun t _ => rfl) run
  have hlinked : Linked responseView (wiring idEdge bufferSize) .toCore
      [(Task.service, Channel.responseAdmin)] := .cons relay_response (.nil _)
  have hlane := run_lane hlinked ⟨fun t _ => rfl, trivial⟩ run
  have hnone : owed responseView (atStart idEdge) .networkAdmin .responseAdmin = [] := rfl
  have hempty : lane responseView (atStart idEdge) .toCore
      [(Task.service, Channel.responseAdmin)] = [] := rfl
  rw [(run_admin responseView .responseAdmin run).1, hnone, List.nil_append] at howed
  simp only [sent_responses] at howed
  rw [hempty, List.nil_append] at hlane
  unfold answered answering
  rw [howed, ← List.append_assoc, ← hlane]
  rfl

theorem run_changes (k : Kind) (run : (tasks idEdge bufferSize).Run l g) :
    (decisions idEdge (NetworkManager.newEmpty idEdge) (inputs l)).flatMap k.changes =
      Machine.log (went changeView k.channel) l ++
        (held changeView g k.channel ++ owed changeView g .networkAdmin k.channel) := by
  have hne : k.channel ≠ .fromCore := by cases k <;> decide
  have honly : ∀ t, writes t k.channel = true → t = .networkAdmin := by
    intro t
    cases k <;> cases t <;> decide
  have howed := run_owed (writer_task changeView hne honly) (fun t _ => rfl) run
  have hheld := run_held (v := changeView) run k.channel
  have hnone : owed changeView (atStart idEdge) .networkAdmin k.channel = [] := rfl
  have hempty : held changeView (atStart idEdge) k.channel = [] := rfl
  rw [(run_admin changeView k.channel run).1, hnone, List.nil_append] at howed
  simp only [sent_changes] at howed
  rw [hempty, List.nil_append] at hheld
  rw [howed, hheld, List.append_assoc]

theorem run_commands (k : Kind) (run : (tasks idEdge bufferSize).Run l g) :
    ((decisions idEdge (NetworkManager.newEmpty idEdge) (inputs l)).flatMap k.changes).flatMap
      Change.commands = commanded k l ++ commanding k g := by
  have howed := run_owed (writer_task (commandView k) (c := .dbaResponse) (t := .networkDba)
    (by decide) (by intro t; cases t <;> decide)) (fun t _ => rfl) run
  have hlinked : Linked (commandView k) (wiring idEdge bufferSize) .toCore
      [(Task.service, Channel.dbaResponse)] := .cons (relay_command k) (.nil _)
  have hlane := run_lane hlinked ⟨fun t _ => rfl, trivial⟩ run
  have hnone : owed (commandView k) (atStart idEdge) .networkDba .dbaResponse = [] := rfl
  have hempty : lane (commandView k) (atStart idEdge) .toCore
      [(Task.service, Channel.dbaResponse)] = [] := rfl
  rw [run_dba k run, hnone, List.nil_append] at howed
  rw [hempty, List.nil_append] at hlane
  rw [run_changes k run, List.flatMap_append, howed]
  unfold commanded commanding
  rw [← List.append_assoc, ← List.append_assoc, ← hlane]
  rfl

end Runs

/-- In every run `network_admin` takes the commands of the core, each kind in its order; the cache
is what it decides of them one after the other; and the answers of these decisions and the
commands of their changes, of networks and of hubs, have reached the core in their order or are
under way. -/
theorem the_decisions_reach_the_core (idEdge : String) (bufferSize : Nat) (l : Trace) (g : State)
    (run : (tasks idEdge bufferSize).Run l g) :
    (∀ c, c.toAdmin = true → handed c l =
        ((inputs l).map Prod.snd).filter (fun command => channelOf command = c) ++ comingIn c g) ∧
      g.memory = cacheAfter idEdge (NetworkManager.newEmpty idEdge) (inputs l) ∧
      (decisions idEdge (NetworkManager.newEmpty idEdge) (inputs l)).flatMap Decision.toCore =
        answered l ++ answering g ∧
      ∀ k : Kind, ((decisions idEdge (NetworkManager.newEmpty idEdge) (inputs l)).flatMap
        k.changes).flatMap Change.commands = commanded k l ++ commanding k g := by
  refine ⟨fun c hc => ?_, (run_admin responseView .responseAdmin run).2, run_answers run,
    fun k => run_commands k run⟩
  have hlinked : Linked (inputView c) (wiring idEdge bufferSize) c
      [(Task.service, Channel.fromCore)] := .cons (relay_input hc) (.nil _)
  have hlane := run_lane hlinked ⟨fun t _ => rfl, trivial⟩ run
  rw [run_input hc run] at hlane
  exact hlane

/-- The server makes a network and switches it off, and the core takes the first command. -/
def switchedOff : List Step :=
  [.feed .fromCore (Core.NetworkServiceCommand.serverMessage
      (.network { (default : NetworkMsg) with idNetwork := "n", active := true })),
    .take .fromCore 0, .put .service, .take .serverCommand 0, .put .networkAdmin,
    .feed .fromCore (Core.NetworkServiceCommand.serverMessage
      (.network { (default : NetworkMsg) with idNetwork := "n", active := false })),
    .take .fromCore 0, .put .service, .take .serverCommand 0, .take .insertNetwork 0,
    .put .networkDba, .take .dbaResponse 0, .put .service, .drain .toCore]

theorem the_new_network_is_commanded : ∃ l g, (tasks "edge" 1).Run l g ∧
    commanded .network l = [DataServiceCommand.newNetwork { idNetwork := "n", active := true }] ∧
    g.memory.activeOf "n" = some false ∧
    g.memory = cacheAfter "edge" (NetworkManager.newEmpty "edge") (inputs l) ∧
      ((decisions "edge" (NetworkManager.newEmpty "edge") (inputs l)).flatMap
        Kind.network.changes).flatMap Change.commands =
          commanded .network l ++ commanding .network g := by
  have hrun := Machine.run_of_final (m := tasks "edge" 1) switchedOff rfl (by decide +kernel)
  have hlaw := the_decisions_reach_the_core "edge" 1 _ _ hrun
  exact ⟨_, _, hrun, by decide +kernel, by decide +kernel, hlaw.2.1, hlaw.2.2.2 .network⟩

end EdgeGateway.NetworkService
