-- Whether the MQTT client starts. It waits for `NetworksReady`, which only the
-- load of the stored networks brings; a network that is created later is
-- announced by `NetworksUpdated`, and a client that waits ignores it.
import EdgeGateway.Core.Gateway

namespace EdgeGateway.Core

open EdgeGateway.Lib EdgeGateway.Message EdgeGateway.Networks EdgeGateway.Database
  EdgeGateway.Mqtt

/-! ## The signal -/

def isNetworkBatch : Batch → Bool
  | .network _ => true
  | .hub _ => false

def isReady : NetworkServiceResponse → Bool
  | .networksReady => true
  | _ => false

/-- The rows of the networks are still to be read. -/
def isCounted : TotalStage → Nat
  | .networks => 1
  | _ => 0

def isWaiting : StateClient → Bool
  | .waiting => true
  | _ => false

namespace Gateway

/-- What can still become a `NetworksReady` of the client: questions for the
stored networks, rows on their way and the signal itself. -/
def signals (g : Gateway) : Nat :=
  g.sync.commands.count .getTotalOfNetworks + g.sync.gets.length +
    isCounted g.sync.total + g.sync.batch.countP isNetworkBatch +
    g.fromNetwork.countP isReady + g.rxNet.count .networksReady

/-- The client takes a signal. -/
def takesReady (g : Gateway) : Label → Bool
  | .mqttNet _ => g.rxNet.head? = some .networksReady
  | _ => false

/-- A step that uses up a signal: a count that finds no network, or the client
that takes it. -/
def spent (g : Gateway) : Label → Nat
  | .sync .dbaGet => if g.sync.tables.network.rows.length > 0 then 0 else 1
  | .mqttNet _ => if g.rxNet.head? = some .networksReady then 1 else 0
  | _ => 0

/-- A count that finds no network finds none in memory either, and no network is
created while the client waits for a signal that will not come. -/
def announces (g : Gateway) : Label → Bool
  | .sync .dbaGet =>
    g.sync.tables.network.rows.length > 0 ∨ g.sync.manager.networks.keys = []
  | .sync (.adminServer _) =>
    match g.sync.fromServer with
    | .network msg :: _ =>
      actionOf g.sync.manager msg = .insert → isWaiting g.client = false ∨ g.signals > 0
    | _ => true
  | _ => true

/-! ## One step -/

section Steps

variable {idEdge : String} {g g' : Gateway} {i : Label}

/-- No answer to the server is a signal. -/
theorem ready_adminServer (now : Int64) (m : NetworkManager) (msg : ServerMessage) :
    (adminServer idEdge now m msg).toCore.countP isReady = 0 := by
  cases msg with
  | network network =>
    rcases ha : actionOf m network <;>
      simp [adminServer, ha, handleAction, handleEvent, isReady]
  | _ => simp [adminServer, isReady]

theorem ready_adminHub (m : NetworkManager) (request : LinkageRequest) :
    (adminHub m request).toCore.countP isReady = 0 := by
  unfold adminHub
  split <;> simp [isReady]

/-- A step of the topology moves a signal, and a count may lose it. -/
theorem signals_sync {i : Sync.Label} {p' : Sync} (h : g.sync.step idEdge i = some p') :
    (g.afterSync idEdge i p').signals + g.spent (.sync i) = g.signals := by
  cases Sync.move_of_step h with
  | @adminServer now msg rest hq =>
    simp [signals, spent, afterSync, answer, Sync.toCore, Sync.enact, hq, ready_adminServer]
  | @adminHub request rest hq =>
    simp [signals, spent, afterSync, answer, Sync.toCore, Sync.enact, hq, ready_adminHub]
  | @adminBatch batch rest hq =>
    cases batch <;>
      simp [signals, spent, afterSync, answer, Sync.toCore, Sync.enact, hq, adminBatch, isReady,
        isNetworkBatch, List.countP_cons]
    omega
  | @dbaNetwork change rest hq =>
    cases change <;>
      simp [signals, spent, afterSync, answer, Sync.toCore, NetworkChanged.commands]
  | @dbaHub change rest hq =>
    cases change <;> simp [signals, spent, afterSync, answer, Sync.toCore, HubChanged.commands]
  | @dataService command rest hq =>
    cases command <;>
      simp [signals, spent, afterSync, answer, Sync.toCore, Sync.route, hq, forGet]
    omega
  | @dbaGet rest ht hq =>
    by_cases hn : g.sync.tables.network.rows.length > 0 <;>
      simp [signals, spent, afterSync, answer, Sync.toCore, hq, ht, dbaGetTotal, hn, isCounted] <;>
      omega
  | getNetworks ht =>
    simp [signals, spent, afterSync, answer, Sync.toCore, ht, isNetworkBatch, isCounted]
    omega
  | countHubs ht =>
    by_cases hn : g.sync.tables.hub.rows.length > 0 <;>
      simp [signals, spent, afterSync, answer, Sync.toCore, ht, hn, isCounted]
  | getHubs ht =>
    simp [signals, spent, afterSync, answer, Sync.toCore, ht, isNetworkBatch, isCounted]
  | _ => simp [signals, spent, afterSync, answer, Sync.toCore]

/-- An answer of the database, a message or an upload is no signal. -/
theorem net_ofData (response : DataServiceResponse) :
    ((run (.dataService (.registry response))).filterMap Output.mqttNet).count .networksReady =
      0 := by
  cases response <;> simp [run, ofData, Output.mqttNet, List.filterMap_cons]

theorem net_ofMessage (response : MessageServiceResponse) :
    (run (.messageService response)).filterMap Output.mqttNet = [] := by
  rcases response with upload | msg | msg | msg
  · rfl
  · rfl
  · cases msg <;> rfl
  · cases msg <;> rfl

theorem net_ofNetwork (response : NetworkServiceResponse) :
    ((run (.networkService (.response response))).filterMap Output.mqttNet).count .networksReady =
      [response].countP isReady := by
  cases response <;> simp [run, ofNetwork, Output.mqttNet, isReady, List.filterMap_cons]

theorem signals_step (h : (machine idEdge).step g i = some g') :
    g'.signals + g.spent i = g.signals := by
  cases move_of_step h with
  | sync hp => exact signals_sync hp
  | @coreData response rest hq =>
    simp [signals, spent, handle, net_ofData]
  | @coreNetwork response rest hq =>
    simp [signals, spent, handle, net_ofNetwork, hq, List.countP_cons]
    omega
  | @coreMessage response rest hq =>
    simp [signals, spent, handle, net_ofMessage]
  | @mqttNet calls command rest client hq hc =>
    cases command <;> simp [signals, spent, hq]
    omega
  | _ => rfl

/-- Only a signal ends the wait of the client. -/
theorem waiting_step (h : (machine idEdge).step g i = some g') :
    isWaiting g'.client = (isWaiting g.client && !g.takesReady i) := by
  cases move_of_step h with
  | @mqttNet calls command rest client hq hc =>
    cases hs : g.client <;> cases command <;>
      simp only [StateClient.command, hs, Option.some.injEq, reduceCtorEq] at hc <;>
      subst hc <;> simp [takesReady, hq, isWaiting]
  | mqttConnect hc =>
    cases hs : g.client <;> simp only [StateClient.connect, hs, reduceCtorEq] at hc
    rw [← Option.some.inj hc]
    split <;> rfl
  | mqttLose hc =>
    cases hs : g.client <;>
      simp only [StateClient.lose, hs, Option.some.injEq, reduceCtorEq] at hc
    rw [← hc]
    rfl
  | mqttRetry hc =>
    cases hs : g.client <;>
      simp only [StateClient.retry, hs, Option.some.injEq, reduceCtorEq] at hc
    rw [← hc]
    rfl
  | _ => exact (Bool.and_true _).symm

/-- A network comes into memory by a command of the server or with the rows of
the start. -/
theorem networks_step (h : (machine idEdge).step g i = some g')
    {id : String} (hid : id ∈ g'.sync.manager.networks) :
    id ∈ g.sync.manager.networks ∨ i = .sync .adminBatch ∧ g'.signals > 0 ∨
      ∃ now msg rest, i = .sync (.adminServer now) ∧ g.sync.fromServer = .network msg :: rest ∧
        actionOf g.sync.manager msg = .insert := by
  cases move_of_step h with
  | @sync i p' hp =>
    cases Sync.move_of_step hp with
    | @adminServer now msg rest hq =>
      rcases (mem_adminServer _ _ _ _).mp hid with ⟨hid, -⟩ | ⟨network, rfl, ha, -⟩
      · exact .inl hid
      · exact .inr (.inr ⟨now, network, rest, rfl, hq, ha⟩)
    | @adminHub request rest hq =>
      left
      have hsame := (adminHub_spec g.sync.manager request).2
      exact hsame ▸ hid
    | @adminBatch batch rest hq =>
      cases batch with
      | network rows =>
        refine .inr (.inl ⟨rfl, ?_⟩)
        simp [signals, afterSync, answer, Sync.toCore, hq, adminBatch, isReady]
      | hub rows =>
        left
        have hsame := (networks_load rows g.sync.manager).2
        exact hsame ▸ hid
    | _ => exact .inl hid
  | _ => exact .inl hid

end Steps

/-! ## The law -/

/-- At most one signal is under way, and only while the client waits. -/
def OneSignal (g : Gateway) : Prop := g.signals ≤ if isWaiting g.client then 1 else 0

/-- A client that waits will be told, unless memory has no network. -/
def Announced (g : Gateway) : Prop :=
  isWaiting g.client = true → g.signals > 0 ∨ ∀ id, id ∉ g.sync.manager.networks

/-- The client waits, and nothing will tell it. -/
def Unheard (g : Gateway) : Prop := isWaiting g.client = true ∧ g.signals = 0

section Law

variable {idEdge : String} {g g' : Gateway} {i : Label}

theorem oneSignal_start (idEdge : String) (tables : Tables) : (start idEdge tables).OneSignal := by
  simp [OneSignal, signals, start, Sync.start, isCounted, isWaiting]

theorem oneSignal_step (h : g.OneSignal) (hs : (machine idEdge).step g i = some g') :
    g'.OneSignal := by
  have hcount := signals_step hs
  have hwait := waiting_step hs
  unfold OneSignal at h ⊢
  by_cases ht : g.takesReady i = true
  · have hspent : g.spent i = 1 := by
      cases i <;> simp_all [takesReady, spent]
    rw [hwait, ht, Bool.not_true, Bool.and_false]
    split at h
    · simp only [Bool.false_eq_true, if_false]
      omega
    · omega
  · rw [Bool.not_eq_true] at ht
    rw [hwait, ht, Bool.not_false, Bool.and_true]
    omega

theorem oneSignal_of_run {t : List (Gateway × Label)} (run : (machine idEdge).Run t g) :
    g.OneSignal := by
  apply run.always OneSignal
  · rintro g ⟨tables, rfl⟩
    exact oneSignal_start idEdge tables
  · intro g i g' h hs
    exact oneSignal_step h hs

/-- A signal that is used up is one that was under way. -/
theorem waiting_of_spent (h : g.OneSignal) (hs : (machine idEdge).step g i = some g')
    (hspent : g.spent i = 1) : isWaiting g.client = true ∧ g'.signals = 0 := by
  have hcount := signals_step hs
  unfold OneSignal at h
  split at h
  · rename_i hw
    exact ⟨hw, by omega⟩
  · omega

theorem announced_step (h : g.Announced) (hok : g.announces i = true)
    (hs : (machine idEdge).step g i = some g') : g'.Announced := by
  intro hwaiting
  rw [waiting_step hs, Bool.and_eq_true, Bool.not_eq_true'] at hwaiting
  obtain ⟨hw, ht⟩ := hwaiting
  have hcount := signals_step hs
  by_cases hspent : g.spent i = 0
  · by_cases hsig : g'.signals > 0
    · exact .inl hsig
    · right
      intro id hid
      rcases networks_step hs hid with hid | ⟨-, hpos⟩ | ⟨now, msg, rest, rfl, hq, ha⟩
      · rcases h hw with hpos | hnone
        · omega
        · exact hnone id hid
      · exact hsig hpos
      · simp only [announces, hq, ha, hw, Bool.true_eq_false, false_or, true_implies,
          decide_eq_true_eq] at hok
        omega
  · -- the only signal that is used up while the client goes on waiting
    have hget : i = .sync .dbaGet ∧ g.sync.tables.network.rows.length = 0 := by
      unfold spent at hspent
      split at hspent
      · split at hspent
        · exact absurd rfl hspent
        · exact ⟨rfl, by omega⟩
      · unfold takesReady at ht
        simp_all
      · exact absurd rfl hspent
    obtain ⟨rfl, hrows⟩ := hget
    simp only [announces, hrows, Nat.lt_irrefl, false_or, decide_eq_true_eq] at hok
    right
    intro id hid
    have hsame : g'.sync.manager = g.sync.manager := by
      cases move_of_step hs with
      | sync hp =>
        cases Sync.move_of_step hp with
        | dbaGet ht hq => rfl
    rw [hsame, AList.mem_keys, hok] at hid
    exact absurd hid List.not_mem_nil

theorem unheard_step (h : g.Unheard) (hs : (machine idEdge).step g i = some g') :
    g'.Unheard := by
  obtain ⟨hw, hzero⟩ := h
  have hcount := signals_step hs
  refine ⟨?_, by omega⟩
  have ht : g.takesReady i = false := by
    by_contra ht
    have hspent : g.spent i = 1 := by
      cases i <;> simp_all [takesReady, spent]
    omega
  rw [waiting_step hs, hw, ht]
  rfl

/-- A step that the condition excludes leaves the client unheard. -/
theorem unheard_of_not_announces (h : g.OneSignal) (hno : ¬ g.announces i = true)
    (hs : (machine idEdge).step g i = some g') : g'.Unheard := by
  have hcount := signals_step hs
  have hwait := waiting_step hs
  unfold announces at hno
  split at hno
  · simp only [decide_eq_true_eq, not_or] at hno
    have hspent : g.spent (.sync .dbaGet) = 1 := if_neg hno.1
    obtain ⟨hw, hzero⟩ := waiting_of_spent h hs hspent
    refine ⟨?_, hzero⟩
    rw [hwait, hw]
    rfl
  · split at hno
    · simp only [decide_eq_true_eq, Classical.not_imp, not_or, Bool.not_eq_false] at hno
      obtain ⟨-, hw, hsig⟩ := hno
      refine ⟨?_, by omega⟩
      rw [hwait, hw]
      rfl
    · exact absurd rfl hno
  · exact absurd rfl hno

/-- With nothing under way there is no signal. -/
theorem signals_of_resting (h : g.Resting) : g.signals = 0 := by
  obtain ⟨hquiet, hidle, -, hnet, -, -, -, -, hrx, -⟩ := h
  obtain ⟨-, -, hbatch, -, -, hcommands, -, -, hgets⟩ := hquiet
  simp [signals, hnet, hrx, hbatch, hcommands, hgets, hidle.2, isCounted]

/-- At rest a client does not wait while memory has a network, in every run in
which no count overlooks a network and none is created after one that found
none; a step that does either leaves the client waiting for ever. -/
theorem the_client_starts (idEdge : String) (t : List (Gateway × Label)) (g : Gateway)
    (run : (machine idEdge).Run t g) :
    (Machine.Meets (fun g i => g.announces i = true) t →
      ∀ x ∈ Machine.visited t g, x.Resting → (∃ id, id ∈ x.sync.manager.networks) →
        isWaiting x.client = false) ∧
    ∀ u w s i, t = u ++ (s, i) :: w → ¬ s.announces i = true → isWaiting g.client = true := by
  constructor
  · intro hok x hx hrest ⟨id, hid⟩
    have hlaw := run.invariant_visited Announced (fun g i => g.announces i = true) ?_
      (fun g i g' h hi hs => announced_step h hi hs) hok x hx
    · by_contra hw
      rw [Bool.not_eq_false] at hw
      rcases hlaw hw with hsig | hnone
      · rw [signals_of_resting hrest] at hsig
        exact absurd hsig (Nat.lt_irrefl 0)
      · exact hnone id hid
    · rintro g ⟨tables, rfl⟩ -
      exact .inl (by simp [signals, start, Sync.start])
  · rintro u w s i rfl hno
    have hone := oneSignal_of_run run.before
    have hlast := run.invariant_after Unheard (fun _ _ => True)
      (fun s' hs => unheard_of_not_announces hone hno hs)
      (fun s i s' h _ hs => unheard_step h hs) (fun _ _ => trivial)
    exact hlast.1

/-! ## Concrete runs -/

/-- The first message to the server leaves the gateway. -/
def greeted : List Label := [.messageService default, .msgToServer default, .coreMessage]

/-- The server creates a network, and its acknowledgement leaves the gateway. -/
def created : List Label :=
  [.sync (.server (commandFor "n" true false)), .sync (.adminServer default), .sync .dbaNetwork,
    .sync .dataService, .sync .dbaInsert, .coreData, .messageService default, .msgToServer default,
    .coreMessage, .mqttNet .succeed]

/-- Nothing is stored when the gateway starts. -/
def nothingLoaded : List Label := [.sync .dataService, .sync .dbaGet]

/-- The networks and hubs of an earlier run are loaded, and the client connects. -/
def loaded : List Label :=
  [.sync .dataService, .sync .dbaGet, .sync .dbaGetNext, .sync .dbaGetNext, .sync .dbaGetNext,
    .sync .adminBatch, .sync .adminBatch, .coreData, .coreNetwork, .mqttNet .succeed,
    .mqttConnect true .succeed]

theorem a_first_network_does_not_start_the_client :
    ¬ ∀ (idEdge : String) (t : List (Gateway × Label)) (g : Gateway), (machine idEdge).Run t g →
      ∀ x ∈ Machine.visited t g, x.Resting → (∃ id, id ∈ x.sync.manager.networks) →
        isWaiting x.client = false := by
  intro h
  have hinit : (machine "edge").init (start "edge" Tables.empty) := ⟨_, rfl⟩
  have hrun := Machine.run_of_final (greeted ++ nothingLoaded ++ created) hinit
    (by decide +kernel)
  have hnetwork : "n" ∈ (((machine "edge").final (start "edge" Tables.empty)
      (greeted ++ nothingLoaded ++ created)).get (by decide +kernel)).sync.manager.networks := by
    decide +kernel
  have hstarts := h _ _ _ hrun _ (Machine.last_mem_visited _ _) (by decide +kernel) ⟨"n", hnetwork⟩
  exact absurd hstarts (by decide +kernel)

theorem a_stored_network_starts_the_client :
    let t := (machine "edge").trace (start "edge" storedTables) (greeted ++ loaded ++ created)
    ∃ s ∈ t, s.1.Resting ∧ (∃ id, id ∈ s.1.sync.manager.networks) ∧
      isWaiting s.1.client = false := by
  have hinit : (machine "edge").init (start "edge" storedTables) := ⟨_, rfl⟩
  have hrun := Machine.run_of_final (greeted ++ loaded ++ created) hinit (by decide +kernel)
  have hall := (the_client_starts "edge" _ _ hrun).1 (by decide +kernel)
  have hrest : ∃ s ∈ (machine "edge").trace (start "edge" storedTables)
      (greeted ++ loaded ++ created), s.1.Resting ∧ "m" ∈ s.1.sync.manager.networks := by
    decide +kernel
  obtain ⟨s, hs, hrest, hnet⟩ := hrest
  exact ⟨s, hs, hrest, ⟨"m", hnet⟩, hall s.1 (Machine.mem_visited hs _) hrest ⟨"m", hnet⟩⟩

end Law

end Gateway

end EdgeGateway.Core
