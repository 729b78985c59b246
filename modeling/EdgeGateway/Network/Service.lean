-- The network service as tasks over bounded channels: the service between the core and its two
-- tasks, `network_admin` that decides and `network_dba` that turns changes into commands of the
-- database. Whatever is decided reaches the core in its order, by each of three ways; a few
-- messages make a few steps; and where no task can go on, one of two circles of full channels
-- has closed, or the core takes nothing.
import EdgeGateway.Core.Domain
import EdgeGateway.Lib.Flow
import EdgeGateway.Lib.Work

namespace EdgeGateway.NetworkService

open EdgeGateway.Lib EdgeGateway.Lib.Mailbox EdgeGateway.Message EdgeGateway.Networks
  EdgeGateway.Database

/-! ## The tasks -/

/-- `NetworkService::run`, `network_admin` and `network_dba`. -/
inductive Task where
  | service
  | networkAdmin
  | networkDba
  deriving Repr, DecidableEq

/-- The channels of the core, and those that `NetworkService::run` makes. -/
inductive Channel where
  | fromCore
  | toCore
  | serverCommand
  | hubCommand
  | commandBatch
  | responseAdmin
  | insertNetwork
  | insertHub
  | dbaResponse
  deriving Repr, DecidableEq

def Channel.Message : Channel → Type
  | .fromCore => Core.NetworkServiceCommand
  | .toCore => Core.NetworkResponse
  | .serverCommand => ServerMessage
  | .hubCommand => HubMessage
  | .commandBatch => Batch
  | .responseAdmin => NetworkServiceResponse
  | .insertNetwork => NetworkChanged
  | .insertHub => HubChanged
  | .dbaResponse => DataServiceCommand

abbrev Send : Type := (c : Channel) × c.Message

/-- The cache of the networks is the memory; the time of day comes from outside. -/
abbrev State : Type := Mailbox Task Channel Channel.Message NetworkManager

abbrev Step : Type := Transfer Task Channel Channel.Message Int64

abbrev Trace : Type := List (State × Step)

/-- What `network_admin` sends of a decision, in its order. -/
def sendsOf (d : Decision) : List Send :=
  d.hubChan.map (fun change => ⟨.insertHub, change⟩) ++
    d.toCore.map (fun response => ⟨.responseAdmin, response⟩) ++
    d.netChan.map (fun change => ⟨.insertNetwork, change⟩)

/-- A message of a hub asks for something when it is a request to join. -/
def adminHubMessage (m : NetworkManager) : HubMessage → Decision
  | .linkageRequest request => adminHub m request
  | _ => { manager := m }

def handle (idEdge : String) (now : Int64) (m : NetworkManager) :
    (c : Channel) → c.Message → NetworkManager × List Send
  | .fromCore, .hubMessage msg => (m, [⟨.hubCommand, msg⟩])
  | .fromCore, .serverMessage msg => (m, [⟨.serverCommand, msg⟩])
  | .fromCore, .batch batch => (m, [⟨.commandBatch, batch⟩])
  | .toCore, _ => (m, [])
  | .serverCommand, msg =>
    let d := adminServer idEdge now m msg
    (d.manager, sendsOf d)
  | .hubCommand, msg =>
    let d := adminHubMessage m msg
    (d.manager, sendsOf d)
  | .commandBatch, batch =>
    let d := adminBatch m batch
    (d.manager, sendsOf d)
  | .responseAdmin, response => (m, [⟨.toCore, Core.NetworkResponse.response response⟩])
  | .insertNetwork, change => (m, change.commands.map (fun command => ⟨.dbaResponse, command⟩))
  | .insertHub, change => (m, change.commands.map (fun command => ⟨.dbaResponse, command⟩))
  | .dbaResponse, command => (m, [⟨.toCore, Core.NetworkResponse.dataCommand command⟩])

/-- The channels of the core hold `bufferSize` messages, those of the service fifty. -/
def wiring (idEdge : String) (bufferSize : Nat) :
    Wiring Task Channel Channel.Message NetworkManager Int64 where
  cap
    | .fromCore => bufferSize
    | .toCore => bufferSize
    | _ => 50
  reader
    | .fromCore => some .service
    | .toCore => none
    | .serverCommand => some .networkAdmin
    | .hubCommand => some .networkAdmin
    | .commandBatch => some .networkAdmin
    | .responseAdmin => some .service
    | .insertNetwork => some .networkDba
    | .insertHub => some .networkDba
    | .dbaResponse => some .service
  fed c := c = .fromCore
  handle := handle idEdge

def atStart (idEdge : String) : State where
  queue := fun _ => []
  pending := fun _ => []
  memory := NetworkManager.newEmpty idEdge

def tasks (idEdge : String) (bufferSize : Nat) : Machine State Step :=
  Mailbox.machine (wiring idEdge bufferSize) (fun g => g = atStart idEdge)

/-! ## What messages weigh -/

def weight : (c : Channel) → c.Message → Nat
  | .fromCore, _ => 14
  | .toCore, _ => 0
  | .serverCommand, _ => 12
  | .hubCommand, _ => 6
  | .commandBatch, _ => 4
  | .responseAdmin, _ => 2
  | .insertNetwork, _ => 7
  | .insertHub, _ => 4
  | .dbaResponse, _ => 2

def channels : List Channel :=
  [.fromCore, .toCore, .serverCommand, .hubCommand, .commandBatch, .responseAdmin, .insertNetwork,
    .insertHub, .dbaResponse]

def allTasks : List Task := [.service, .networkAdmin, .networkDba]

theorem mem_channels (c : Channel) : c ∈ channels := by cases c <;> decide

theorem mem_allTasks (t : Task) : t ∈ allTasks := by cases t <;> decide

theorem weigh_adminServer (idEdge : String) (now : Int64) (m : NetworkManager)
    (msg : ServerMessage) :
    weigh (sending weight) (sendsOf (adminServer idEdge now m msg)) + 1 ≤ 12 := by
  cases msg with
  | network network =>
    rcases h : handleAction m network (actionOf m network) with _ | ⟨manager, change⟩
    · simp [adminServer, h, sendsOf]
    · cases change <;>
        simp [adminServer, h, sendsOf, handleEvent, sending, weight]
  | _ => exact Nat.le_of_ble_eq_true rfl

theorem weigh_adminHubMessage (m : NetworkManager) (msg : HubMessage) :
    weigh (sending weight) (sendsOf (adminHubMessage m msg)) + 1 ≤ 6 := by
  cases msg with
  | linkageRequest request =>
    unfold adminHubMessage adminHub
    by_cases h : m.searchHub request.network request.metadata.senderUserId = true <;>
      simp [h, sendsOf, sending, weight]
  | _ => exact Nat.le_of_ble_eq_true rfl

/-- Each message pays for its handling. -/
theorem pays (idEdge : String) (bufferSize : Nat) : Pays weight (wiring idEdge bufferSize) where
  handle := by
    intro now m c msg t hr
    cases c with
    | fromCore => cases msg <;> exact Nat.le_of_ble_eq_true rfl
    | toCore => cases hr
    | serverCommand => exact weigh_adminServer idEdge now m msg
    | hubCommand => exact weigh_adminHubMessage m msg
    | commandBatch => cases msg <;> exact Nat.le_of_ble_eq_true rfl
    | responseAdmin => exact Nat.le_refl 2
    | insertNetwork => cases msg <;> exact Nat.le_of_ble_eq_true rfl
    | insertHub => cases msg <;> exact Nat.le_of_ble_eq_true rfl
    | dbaResponse => exact Nat.le_refl 2

theorem weight_fed (idEdge : String) (bufferSize : Nat) (c : Channel) (m : c.Message)
    (hf : (wiring idEdge bufferSize).fed c = true) : weight c m ≤ 14 := by
  obtain rfl : c = .fromCore := of_decide_eq_true hf
  exact Nat.le_refl 14

/-! ## Who waits for whom -/

/-- The channels that each task sends into. -/
def writes : Task → Channel → Bool
  | .service, .toCore => true
  | .service, .serverCommand => true
  | .service, .hubCommand => true
  | .service, .commandBatch => true
  | .networkAdmin, .responseAdmin => true
  | .networkAdmin, .insertNetwork => true
  | .networkAdmin, .insertHub => true
  | .networkDba, .dbaResponse => true
  | _, _ => false

theorem writes_sendsOf (d : Decision) : ∀ p ∈ sendsOf d, writes .networkAdmin p.1 = true := by
  intro p hp
  unfold sendsOf at hp
  rcases List.mem_append.mp hp with hp | hp
  · rcases List.mem_append.mp hp with hp | hp
    · obtain ⟨change, -, rfl⟩ := List.mem_map.mp hp
      rfl
    · obtain ⟨response, -, rfl⟩ := List.mem_map.mp hp
      rfl
  · obtain ⟨change, -, rfl⟩ := List.mem_map.mp hp
    rfl

theorem writes_handle (idEdge : String) (bufferSize : Nat) (now : Int64) (m : NetworkManager)
    (c : Channel) (msg : c.Message) (t : Task)
    (hr : (wiring idEdge bufferSize).reader c = some t) :
    ∀ p ∈ ((wiring idEdge bufferSize).handle now m c msg).2, writes t p.1 = true := by
  intro p hp
  cases c with
  | fromCore =>
    obtain rfl : Task.service = t := Option.some.inj hr
    cases msg <;> rw [List.mem_singleton.mp hp] <;> rfl
  | toCore => cases hr
  | serverCommand =>
    obtain rfl : Task.networkAdmin = t := Option.some.inj hr
    exact writes_sendsOf _ p hp
  | hubCommand =>
    obtain rfl : Task.networkAdmin = t := Option.some.inj hr
    exact writes_sendsOf _ p hp
  | commandBatch =>
    obtain rfl : Task.networkAdmin = t := Option.some.inj hr
    exact writes_sendsOf _ p hp
  | responseAdmin =>
    obtain rfl : Task.service = t := Option.some.inj hr
    rw [List.mem_singleton.mp hp]
    rfl
  | insertNetwork =>
    obtain rfl : Task.networkDba = t := Option.some.inj hr
    obtain ⟨command, -, rfl⟩ := List.mem_map.mp hp
    rfl
  | insertHub =>
    obtain rfl : Task.networkDba = t := Option.some.inj hr
    obtain ⟨command, -, rfl⟩ := List.mem_map.mp hp
    rfl
  | dbaResponse =>
    obtain rfl : Task.service = t := Option.some.inj hr
    rw [List.mem_singleton.mp hp]
    rfl

/-- A channel from the service to `network_admin`, and one from there to `network_dba`. -/
def Channel.toAdmin : Channel → Bool
  | .serverCommand | .hubCommand | .commandBatch => true
  | _ => false

def Channel.toDba : Channel → Bool
  | .insertNetwork | .insertHub => true
  | _ => false

/-- Where tasks wait for tasks, in the end: the service for the core, or it and `network_admin`
for each other, or both and `network_dba` in a circle. -/
def EndsIn (waits : Task → Channel → Prop) : Prop :=
  waits .service .toCore ∨
    ∃ c, c.toAdmin = true ∧ waits .service c ∧
      (waits .networkAdmin .responseAdmin ∨
        ∃ c', c'.toDba = true ∧ waits .networkAdmin c' ∧ waits .networkDba .dbaResponse)

section Chains

variable {idEdge : String} {bufferSize : Nat} {waits : Task → Channel → Prop}

theorem endsIn_of_service (hw : ∀ t c, waits t c → writes t c = true)
    (hnext : ∀ t c t', waits t c → (wiring idEdge bufferSize).reader c = some t' →
      ∃ c', waits t' c') {c : Channel} (h : waits .service c) : EndsIn waits := by
  by_cases hcore : c = .toCore
  · exact .inl (hcore ▸ h)
  · have hadmin : c.toAdmin = true := by
      have hwrites := hw _ _ h
      cases c <;> first | rfl | exact absurd rfl hcore | cases hwrites
    have hreader : (wiring idEdge bufferSize).reader c = some .networkAdmin := by
      cases c <;> first | rfl | cases hadmin
    obtain ⟨c', h'⟩ := hnext _ _ _ h hreader
    refine .inr ⟨c, hadmin, h, ?_⟩
    by_cases hresponse : c' = .responseAdmin
    · exact .inl (hresponse ▸ h')
    · have hdba : c'.toDba = true := by
        have hwrites := hw _ _ h'
        cases c' <;> first | rfl | exact absurd rfl hresponse | cases hwrites
      have hreader' : (wiring idEdge bufferSize).reader c' = some .networkDba := by
        cases c' <;> first | rfl | cases hdba
      obtain ⟨c'', h''⟩ := hnext _ _ _ h' hreader'
      have hlast : c'' = .dbaResponse := by
        have hwrites := hw _ _ h''
        cases c'' <;> first | rfl | cases hwrites
      exact .inr ⟨c', hdba, h', hlast ▸ h''⟩

/-- Whoever waits, the service does in the end. -/
theorem endsIn_of_waits (hw : ∀ t c, waits t c → writes t c = true)
    (hnext : ∀ t c t', waits t c → (wiring idEdge bufferSize).reader c = some t' →
      ∃ c', waits t' c') {t : Task} {c : Channel} (h : waits t c) : EndsIn waits := by
  have hdba : ∀ {c : Channel}, waits .networkDba c → EndsIn waits := by
    intro c h
    have hlast : c = .dbaResponse := by
      have hwrites := hw _ _ h
      cases c <;> first | rfl | cases hwrites
    obtain ⟨c', h'⟩ := hnext _ _ .service h (hlast ▸ rfl)
    exact endsIn_of_service hw hnext h'
  cases t with
  | service => exact endsIn_of_service hw hnext h
  | networkDba => exact hdba h
  | networkAdmin =>
    have hwrites := hw _ _ h
    by_cases hresponse : c = .responseAdmin
    · obtain ⟨c', h'⟩ := hnext _ _ .service h (hresponse ▸ rfl)
      exact endsIn_of_service hw hnext h'
    · have hreader : (wiring idEdge bufferSize).reader c = some .networkDba := by
        cases c <;> first | rfl | exact absurd rfl hresponse | cases hwrites
      obtain ⟨c', h'⟩ := hnext _ _ _ h hreader
      exact hdba h'

end Chains

/-- Nothing is left to send, and nothing that the tasks read waits. -/
def Done (idEdge : String) (bufferSize : Nat) (g : State) : Prop :=
  (∀ t, g.pending t = []) ∧ ∀ c, (wiring idEdge bufferSize).reader c ≠ none → g.queue c = []

/-- Who waits, in the end, where someone does. -/
def Waits (idEdge : String) (bufferSize : Nat) (g : State) : Prop :=
  EndsIn (g.Suspended (wiring idEdge bufferSize))

/-- New settings come from the server, and the service hands them on. -/
def settled : List Step :=
  [.feed .fromCore (Core.NetworkServiceCommand.serverMessage (.fromServerSettings default)),
    .take .fromCore 0, .put .service]

/-- The service prefers the core: the settings are decided, but their responses stay. -/
def prefersTheCore : List Step :=
  (List.replicate 50 (settled ++ [.take .serverCommand 0, .put .networkAdmin])).flatten ++
    settled ++ [.take .serverCommand 0] ++ (List.replicate 50 settled).flatten ++
    settled.take 2

end EdgeGateway.NetworkService
