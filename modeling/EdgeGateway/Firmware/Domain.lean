-- The update of the firmware of a network, hub by hub, beside its watchdog.
-- The answer of a hub is checked against the session, an expiry is not: one
-- that was sent before the last answer was taken finds the session closed, and
-- the task indexes past its end.
import EdgeGateway.Lib.Actors
import EdgeGateway.Lib.Machine
import EdgeGateway.Network.Domain

namespace EdgeGateway.Firmware

open EdgeGateway.Lib EdgeGateway.Message EdgeGateway.Networks

/-! ## Types -/

inductive State where
  | sleeping
  | working
  deriving Repr, DecidableEq

structure HubFirmwareStatus where
  id : String
  isUpdated : Bool
  success : Bool
  deriving Repr, DecidableEq

inductive FirmwareServiceCommand where
  | update (msg : UpdateFirmware)
  | hubResponse (msg : FirmwareOk)
  | createRuntime
  | deleteRuntime
  deriving Repr, DecidableEq

inductive FirmwareServiceResponse where
  | serverAck (msg : ServerMessage)
  | hubCommand (msg : HubMessage)
  deriving Repr, DecidableEq

/-- A duration is in seconds. -/
inductive Event where
  | initTimer (duration : Nat)
  | stopTimer
  | timeout
  deriving Repr, DecidableEq

/-- How the watchdog sees an event. -/
def Event.cmd : Event → Cmd Nat
  | .initTimer duration => .start duration
  | .stopTimer => .stop
  | .timeout => .other

/-- `OTA_TIMEOUT`. -/
def otaTimeout : Nat := 120

/-- The capacity of each channel of the runtime. -/
def capacity : Option Nat := some 50

/-- The variables of `update_firmware_task`. -/
structure Task where
  state : State
  processVector : List HubFirmwareStatus
  index : Nat
  version : String
  network : String
  deriving Repr

/-- What a handler has still to do, in its order: its sends, and what is
written at the index once the watchdog has been stopped. -/
inductive Op where
  | toTimer (event : Event)
  | toCore (response : FirmwareServiceResponse)
  | record (isUpdated success : Bool)
  deriving Repr, DecidableEq

/-! ## Messages -/

def metadataTo (idEdge destination : String) (now : Int64) : Metadata :=
  { senderUserId := idEdge, destinationId := destination, timestamp := now }

def generateOutcomeError (idEdge : String) (now : Int64) (network error : String) :
    FirmwareOutcomeError :=
  { metadata := metadataTo idEdge "server0" now, network, error }

/-- The share of the hubs that are updated or had nothing to do, in percent. -/
def generateOutcome (idEdge : String) (now : Int64) (vector : List HubFirmwareStatus)
    (network : String) : FirmwareOutcome :=
  let counter := vector.countP (fun hub => hub.isUpdated || hub.success)
  let percentageOk := (Float32.ofNat counter / Float32.ofNat vector.length) * 100.0
  { metadata := metadataTo idEdge "server0" now, network, percentageOk := ⟨percentageOk.toBits⟩ }

/-! ## Handlers -/

/-- The ids of the hubs of a network; their order is the one of a hash set. -/
def getAllHubIdsByNetwork (m : NetworkManager) (id : String) : Multiset String :=
  ((m.hubs.lookup id).getD ∅).val.map Hub.id

namespace Task

def new : Task :=
  { state := .sleeping, processVector := [], index := 0, version := "", network := "" }

/-- The hub at the index is asked to update. `none` is the panic of an index
out of bounds, here and below. -/
def generateMessageToHub (idEdge : String) (now : Int64) (t : Task) : Option (List Op) :=
  t.processVector[t.index]?.map fun hub =>
    [.toCore (.hubCommand (.updateFirmwareRequest
        { metadata := metadataTo idEdge hub.id now, network := t.network, version := t.version })),
      .toTimer (.initTimer otaTimeout)]

/-- A new session, before the version is known. -/
def clear (t : Task) : Task := { t with state := .working, processVector := [], index := 0 }

/-- The session ends before it begins. -/
def refuse (idEdge : String) (now : Int64) (t : Task) (error : String) : Task × List Op :=
  ({ t with state := .sleeping },
    [.toCore (.serverAck (.firmwareOutcomeError
      (generateOutcomeError idEdge now t.network error)))])

/-- The session lists the hubs that are to be updated. -/
def enlist (t : Task) (ids : List String) : Task :=
  { t with processVector := t.processVector ++
      ids.map (fun id => { id, isUpdated := false, success := false }) }

/-- The version has been fetched, or not; `ids` are the hubs of the network. -/
def openSession (idEdge : String) (now : Int64) (t : Task) (update : UpdateFirmware)
    (ids : List String) : Option String → Option (Task × List Op)
  | none => some (t.refuse idEdge now "No se pudo obtener la versión actual del firmware")
  | some version =>
    let t := { t with version, network := update.network }
    if ids = [] then
      some (t.refuse idEdge now s!"No hay Hubs en la red {t.network}. Nada para actualizar!")
    else
      ((t.enlist ids).generateMessageToHub idEdge now).map (fun ops => (t.enlist ids, ops))

/-- The answer of a hub counts when the hub is the one at the index. -/
def handleHubResponse (t : Task) (firmware : FirmwareOk) : List Op :=
  if t.state = .working then
    match t.processVector[t.index]? with
    | some hub =>
      if firmware.metadata.senderUserId = hub.id then
        [.toTimer .stopTimer, .record firmware.isUpdated firmware.success]
      else []
    | none => []
  else []

/-- An expiry counts whatever the state is. -/
def handleTimeout : List Op := [.toTimer .stopTimer, .record false false]

/-- The outcome of the hub at the index, and the next index. -/
def write (t : Task) (hub : HubFirmwareStatus) : Task :=
  { t with processVector := t.processVector.set t.index hub, index := t.index + 1 }

/-- The next hub is asked, or the session ends. -/
def advance (idEdge : String) (now : Int64) (t : Task) : Option (Task × List Op) :=
  if t.index < t.processVector.length then
    (t.generateMessageToHub idEdge now).map (fun ops => (t, ops))
  else
    some ({ t with state := .sleeping },
      [.toCore (.serverAck (.firmwareOutcome
        (generateOutcome idEdge now t.processVector t.network)))])

def record (idEdge : String) (now : Int64) (t : Task) (isUpdated success : Bool) :
    Option (Task × List Op) :=
  match t.processVector[t.index]? with
  | none => none
  | some hub => (t.write { hub with isUpdated, success }).advance idEdge now

end Task

/-! ## The runtime -/

/-- The two tasks of the runtime and their channels. `fetching` is the update
whose version is being fetched; after a panic nothing goes on. -/
structure Ota where
  task : Task
  fetching : Option UpdateFirmware
  ops : List Op
  msgs : List FirmwareServiceCommand
  fromTimer : List Event
  toTimer : List Event
  timer : Countdown Nat
  responses : List FirmwareServiceResponse
  manager : NetworkManager
  panicked : Bool

inductive Ota.Label where
  | command (cmd : FirmwareServiceCommand)
  | change (c : NetworkManager.Change)
  | takeMsg
  | fetched (version : Option String) (ids : List String) (now : Int64)
  | takeTimer
  | work (now : Int64)
  | takeResponse
  | watchdog
  | expire

namespace Ota

def start (manager : NetworkManager) : Ota where
  task := Task.new
  fetching := none
  ops := [.toTimer .stopTimer]
  msgs := []
  fromTimer := []
  toTimer := []
  timer := .idle
  responses := []
  manager := manager
  panicked := false

/-- What a handler makes of the task, or its panic. -/
def proceed (s : Ota) : Option (Task × List Op) → Ota
  | some (task, ops) => { s with task, ops }
  | none => { s with panicked := true }

/-- The task is in no handler. -/
def selecting (s : Ota) : Bool := s.fetching.isNone && s.ops.isEmpty

/-- The select of the task. -/
def takeMsg (s : Ota) : Option Ota :=
  match s.selecting, s.msgs with
  | true, .update update :: rest =>
    some { s with msgs := rest, task := s.task.clear, fetching := some update }
  | true, .hubResponse firmware :: rest =>
    some { s with msgs := rest, ops := s.task.handleHubResponse firmware }
  | true, _ :: rest => some { s with msgs := rest }
  | _, _ => none

def takeTimer (s : Ota) : Option Ota :=
  match s.selecting, s.fromTimer with
  | true, .timeout :: rest => some { s with fromTimer := rest, ops := Task.handleTimeout }
  | true, _ :: rest => some { s with fromTimer := rest }
  | _, _ => none

def fetched (idEdge : String) (now : Int64) (version : Option String) (ids : List String)
    (s : Ota) : Option Ota :=
  match s.fetching with
  | some update =>
    if (ids : Multiset String) = getAllHubIdsByNetwork s.manager update.network then
      some ({ s with fetching := none }.proceed
        (s.task.openSession idEdge now update ids version))
    else none
  | none => none

/-- A handler goes on. A send waits for room. -/
def work (idEdge : String) (now : Int64) (s : Ota) : Option Ota :=
  match s.ops with
  | [] => none
  | .toTimer event :: rest =>
    if room capacity s.toTimer then some { s with ops := rest, toTimer := s.toTimer ++ [event] }
    else none
  | .toCore response :: rest =>
    if room capacity s.responses then
      some { s with ops := rest, responses := s.responses ++ [response] }
    else none
  | .record isUpdated success :: _ =>
    some (s.proceed (s.task.record idEdge now isUpdated success))

/-- `FirmwareService` takes a response. -/
def takeResponse (s : Ota) : Option Ota :=
  match s.responses with
  | [] => none
  | _ :: rest => some { s with responses := rest }

def watchdog (s : Ota) : Option Ota :=
  match s.toTimer with
  | [] => none
  | event :: rest =>
    (s.timer.receive event.cmd).map (fun timer => { s with toTimer := rest, timer })

def expire (s : Ota) : Option Ota :=
  (s.timer.expire (room capacity s.fromTimer)).map fun out =>
    { s with timer := out.1, fromTimer := s.fromTimer ++ (out.2.map (fun _ => .timeout)).toList }

def step (idEdge : String) (s : Ota) (i : Label) : Option Ota :=
  if s.panicked then none
  else match i with
    | .command cmd =>
      if room capacity s.msgs then some { s with msgs := s.msgs ++ [cmd] } else none
    | .change c => some { s with manager := s.manager.change c }
    | .takeMsg => s.takeMsg
    | .fetched version ids now => s.fetched idEdge now version ids
    | .takeTimer => s.takeTimer
    | .work now => s.work idEdge now
    | .takeResponse => s.takeResponse
    | .watchdog => s.watchdog
    | .expire => s.expire

/-- A runtime that has just been spawned, beside any cache. -/
def machine (idEdge : String) : Machine Ota Label where
  init := fun s => ∃ manager, s = start manager
  step := step idEdge

/-! ## The condition -/

/-- The task writes at its index while a session is open. -/
def recordsWorking (s : Ota) : Label → Bool
  | .work _ =>
    match s.ops with
    | .record _ _ :: _ => s.task.state = .working
    | _ => true
  | _ => true

end Ota

/-! ## The law -/

section Law

open Ota

variable {idEdge : String} {s s' : Ota} {i : Ota.Label}

/-- A session is open exactly while its index is in bounds. -/
def Task.InStep (t : Task) : Prop := t.state = .working ↔ t.index < t.processVector.length

/-- The task is in step unless it fetches a version, and then it does nothing
else. -/
structure Ota.Orderly (s : Ota) : Prop where
  inStep : s.fetching = none → s.task.InStep
  fetching : s.fetching ≠ none →
    s.ops = [] ∧ s.task.state = .working ∧ s.task.processVector = [] ∧ s.task.index = 0

theorem generateMessageToHub_of_lt (idEdge : String) {t : Task}
    (h : t.index < t.processVector.length) (now : Int64) :
    ∃ ops, t.generateMessageToHub idEdge now = some ops := by
  unfold Task.generateMessageToHub
  rw [List.getElem?_eq_getElem h]
  exact ⟨_, rfl⟩

/-- A session that opens asks a hub that it has. -/
theorem openSession_spec (idEdge : String) {t : Task} (hw : t.state = .working)
    (hv : t.processVector = []) (hi : t.index = 0) (now : Int64) (update : UpdateFirmware)
    (ids : List String) (version : Option String) :
    ∃ out, t.openSession idEdge now update ids version = some out ∧ out.1.InStep := by
  unfold Task.openSession
  cases version with
  | none => exact ⟨_, rfl, by simp [Task.InStep, Task.refuse, hv, hi]⟩
  | some version =>
    by_cases hids : ids = []
    · simp only [hids, if_true]
      exact ⟨_, rfl, by simp [Task.InStep, Task.refuse, hv, hi]⟩
    · have hlt : 0 < ids.length := List.length_pos_of_ne_nil hids
      simp only [hids, if_false]
      let session := { t with version := version, network := update.network }.enlist ids
      have hbound : session.index < session.processVector.length := by
        simpa [session, Task.enlist, hv, hi] using hlt
      obtain ⟨ops, hops⟩ := generateMessageToHub_of_lt idEdge hbound now
      exact ⟨(session, ops), Option.map_eq_some_iff.mpr ⟨ops, hops, rfl⟩, iff_of_true hw hbound⟩

/-- A session goes on, or it ends at its length. -/
theorem advance_spec (idEdge : String) {t : Task} (hw : t.state = .working) (now : Int64) :
    ∃ out, t.advance idEdge now = some out ∧ out.1.InStep := by
  unfold Task.advance
  by_cases hlt : t.index < t.processVector.length
  · obtain ⟨ops, hops⟩ := generateMessageToHub_of_lt idEdge hlt now
    rw [if_pos hlt]
    exact ⟨(t, ops), Option.map_eq_some_iff.mpr ⟨ops, hops, rfl⟩, iff_of_true hw hlt⟩
  · rw [if_neg hlt]
    exact ⟨_, rfl, iff_of_false (by simp) hlt⟩

theorem record_of_le {t : Task} (h : t.processVector.length ≤ t.index) (now : Int64)
    (isUpdated success : Bool) : t.record idEdge now isUpdated success = none := by
  unfold Task.record
  rw [List.getElem?_eq_none h]

/-- A session is refused, without a version or without a hub, or its first hub is asked. -/
theorem openSession_cases {t t' : Task} {now : Int64} {update : UpdateFirmware}
    {ids : List String} {version : Option String} {ops : List Op}
    (h : t.openSession idEdge now update ids version = some (t', ops)) :
    (version = none ∧ ∃ error, (t', ops) = t.refuse idEdge now error) ∨
    (∃ v, version = some v ∧ ids = [] ∧ ∃ error, (t', ops) =
      ({ t with version := v, network := update.network } : Task).refuse idEdge now error) ∨
    (∃ v, version = some v ∧ ids ≠ [] ∧
      t' = ({ t with version := v, network := update.network } : Task).enlist ids ∧
      t'.generateMessageToHub idEdge now = some ops) := by
  unfold Task.openSession at h
  cases version with
  | none => exact Or.inl ⟨rfl, _, (Option.some.inj h).symm⟩
  | some version =>
    right
    by_cases hids : ids = []
    · simp only [hids, if_true] at h
      exact Or.inl ⟨version, rfl, hids, _, (Option.some.inj h).symm⟩
    · simp only [hids, if_false] at h
      obtain ⟨asks, hasks, hsame⟩ := Option.map_eq_some_iff.mp h
      obtain ⟨rfl, rfl⟩ := Prod.mk.inj hsame
      exact Or.inr ⟨version, rfl, hids, rfl, hasks⟩

/-- The hub at the index gets its outcome, and the next one is asked or the session ends. -/
theorem record_cases {t t' : Task} {now : Int64} {isUpdated success : Bool} {ops : List Op}
    (h : t.record idEdge now isUpdated success = some (t', ops)) :
    ∃ hub, t.processVector[t.index]? = some hub ∧
      ((t.index + 1 < t.processVector.length ∧
          t' = t.write { hub with isUpdated, success } ∧
          t'.generateMessageToHub idEdge now = some ops) ∨
        (t.processVector.length ≤ t.index + 1 ∧
          t' = { t.write { hub with isUpdated, success } with state := .sleeping } ∧
          ops = [.toCore (.serverAck (.firmwareOutcome
            (generateOutcome idEdge now t'.processVector t'.network)))])) := by
  unfold Task.record at h
  rcases hhub : t.processVector[t.index]? with _ | hub
  · simp [hhub] at h
  · rw [hhub] at h
    refine ⟨hub, rfl, ?_⟩
    unfold Task.advance at h
    have hlength : (t.write { hub with isUpdated, success }).processVector.length =
        t.processVector.length := List.length_set
    have hindex : (t.write { hub with isUpdated, success }).index = t.index + 1 := rfl
    simp only [hlength, hindex] at h
    by_cases hlt : t.index + 1 < t.processVector.length
    · rw [if_pos hlt] at h
      obtain ⟨asks, hasks, hsame⟩ := Option.map_eq_some_iff.mp h
      obtain ⟨rfl, rfl⟩ := Prod.mk.inj hsame
      exact Or.inl ⟨hlt, rfl, hasks⟩
    · rw [if_neg hlt] at h
      obtain ⟨rfl, rfl⟩ := Prod.mk.inj (Option.some.inj h)
      exact Or.inr ⟨Nat.le_of_not_lt hlt, rfl, rfl⟩

/-- A step that leaves the handler where it is. -/
theorem orderly_of_frame (h : s.Orderly) (htask : s'.task = s.task)
    (hfetching : s'.fetching = s.fetching) (hops : s'.ops = s.ops) : s'.Orderly := by
  refine ⟨fun hf => ?_, fun hf => ?_⟩
  · rw [htask]
    exact h.inStep (hfetching ▸ hf)
  · rw [hops, htask]
    exact h.fetching (hfetching ▸ hf)

theorem selecting_iff : s.selecting = true ↔ s.fetching = none ∧ s.ops = [] := by
  simp [selecting]

/-- A task in no handler starts one. -/
theorem orderly_takeMsg (h : s.Orderly) (hs : s.takeMsg = some s') :
    s'.Orderly ∧ s'.panicked = s.panicked := by
  unfold Ota.takeMsg at hs
  rcases hsel : s.selecting with _ | _
  · simp [hsel] at hs
  · obtain ⟨hf, ho⟩ := selecting_iff.mp hsel
    rcases hm : s.msgs with _ | ⟨cmd, rest⟩
    · simp [hsel, hm] at hs
    · cases cmd with
      | update update =>
        simp only [hsel, hm, Option.some.injEq] at hs
        rw [← hs]
        exact ⟨⟨fun hnone => by simp at hnone, fun _ => ⟨ho, rfl, rfl, rfl⟩⟩, rfl⟩
      | hubResponse firmware =>
        simp only [hsel, hm, Option.some.injEq] at hs
        rw [← hs]
        exact ⟨⟨fun _ => h.inStep hf, fun hne => absurd hf hne⟩, rfl⟩
      | _ =>
        simp only [hsel, hm, Option.some.injEq] at hs
        rw [← hs]
        exact ⟨orderly_of_frame h rfl rfl rfl, rfl⟩

theorem orderly_takeTimer (h : s.Orderly) (hs : s.takeTimer = some s') :
    s'.Orderly ∧ s'.panicked = s.panicked := by
  unfold Ota.takeTimer at hs
  rcases hsel : s.selecting with _ | _
  · simp [hsel] at hs
  · obtain ⟨hf, -⟩ := selecting_iff.mp hsel
    rcases hm : s.fromTimer with _ | ⟨event, rest⟩
    · simp [hsel, hm] at hs
    · cases event with
      | timeout =>
        simp only [hsel, hm, Option.some.injEq] at hs
        rw [← hs]
        exact ⟨⟨fun _ => h.inStep hf, fun hne => absurd hf hne⟩, rfl⟩
      | _ =>
        simp only [hsel, hm, Option.some.injEq] at hs
        rw [← hs]
        exact ⟨orderly_of_frame h rfl rfl rfl, rfl⟩

theorem orderly_fetched {now : Int64} {version : Option String} {ids : List String}
    (h : s.Orderly) (hs : s.fetched idEdge now version ids = some s') :
    s'.Orderly ∧ s'.panicked = s.panicked := by
  unfold Ota.fetched at hs
  rcases hf : s.fetching with _ | update
  · rw [hf] at hs
    cases hs
  · have hne : s.fetching ≠ none := by simp [hf]
    obtain ⟨-, hw, hv, hi⟩ := h.fetching hne
    rw [hf] at hs
    simp only [Option.ite_none_right_eq_some, Option.some.injEq] at hs
    obtain ⟨⟨task, ops⟩, hout, hstep⟩ :=
      openSession_spec idEdge hw hv hi now update ids version
    rw [hout] at hs
    rw [← hs.2]
    exact ⟨⟨fun _ => hstep, fun hne => absurd rfl hne⟩, rfl⟩

/-- The handler goes on; it panics when it writes with no session open. -/
theorem orderly_work {now : Int64} (h : s.Orderly) (hp : s.panicked = false)
    (hs : s.work idEdge now = some s') :
    s'.Orderly ∧ (s'.panicked = true ↔ s.recordsWorking (.work now) = false) := by
  unfold Ota.work at hs
  have hidle : s.ops ≠ [] → s.fetching = none := by
    intro hne
    by_contra hf
    exact hne (h.fetching hf).1
  rcases ho : s.ops with _ | ⟨event | response | ⟨isUpdated, success⟩, rest⟩ <;>
    simp only [ho, Option.ite_none_right_eq_some, Option.some.injEq, reduceCtorEq] at hs
  · have hf := hidle (by simp [ho])
    rw [← hs.2]
    exact ⟨⟨fun _ => h.inStep hf, fun hne => absurd hf hne⟩, by simp [recordsWorking, ho, hp]⟩
  · have hf := hidle (by simp [ho])
    rw [← hs.2]
    exact ⟨⟨fun _ => h.inStep hf, fun hne => absurd hf hne⟩, by simp [recordsWorking, ho, hp]⟩
  · have hf := hidle (by simp [ho])
    have hstep := h.inStep hf
    by_cases hw : s.task.state = .working
    · have hlt := hstep.mp hw
      obtain ⟨⟨task, ops⟩, hout, hnext⟩ :=
        advance_spec idEdge (t := s.task.write
          { s.task.processVector[s.task.index] with isUpdated := isUpdated, success := success })
          hw now
      have hrecord : s.task.record idEdge now isUpdated success = some (task, ops) := by
        unfold Task.record
        rw [List.getElem?_eq_getElem hlt]
        exact hout
      rw [hrecord] at hs
      rw [← hs]
      exact ⟨⟨fun _ => hnext, fun hne => absurd hf hne⟩,
        by simp [Ota.proceed, recordsWorking, ho, hp, hw]⟩
    · have hle : s.task.processVector.length ≤ s.task.index :=
        Nat.le_of_not_lt (fun hlt => hw (hstep.mpr hlt))
      rw [record_of_le hle] at hs
      rw [← hs]
      exact ⟨orderly_of_frame h rfl rfl rfl, by simp [Ota.proceed, recordsWorking, ho, hw]⟩

theorem orderly_step (h : s.Orderly) (hs : step idEdge s i = some s') :
    s'.Orderly ∧ (s'.panicked = true ↔ s.recordsWorking i = false) := by
  unfold Ota.step at hs
  by_cases hp : s.panicked = true
  · simp [hp] at hs
  · rw [if_neg hp] at hs
    rw [Bool.not_eq_true] at hp
    -- only `work` writes at the index
    have hplain : (s'.Orderly ∧ s'.panicked = s.panicked) → s.recordsWorking i = true →
        s'.Orderly ∧ (s'.panicked = true ↔ s.recordsWorking i = false) := by
      rintro ⟨horderly, hsame⟩ hok
      exact ⟨horderly, by simp [hsame, hp, hok]⟩
    cases i with
    | command cmd =>
      simp only [Option.ite_none_right_eq_some, Option.some.injEq] at hs
      obtain ⟨-, rfl⟩ := hs
      exact hplain ⟨orderly_of_frame h rfl rfl rfl, rfl⟩ rfl
    | change c =>
      obtain rfl := Option.some.inj hs
      exact hplain ⟨orderly_of_frame h rfl rfl rfl, rfl⟩ rfl
    | takeMsg => exact hplain (orderly_takeMsg h hs) rfl
    | fetched version ids now => exact hplain (orderly_fetched h hs) rfl
    | takeTimer => exact hplain (orderly_takeTimer h hs) rfl
    | work now => exact orderly_work h hp hs
    | takeResponse =>
      rcases hq : s.responses with _ | ⟨response, rest⟩ <;>
        simp only [Ota.takeResponse, hq, Option.some.injEq, reduceCtorEq] at hs
      subst hs
      exact hplain ⟨orderly_of_frame h rfl rfl rfl, rfl⟩ rfl
    | watchdog =>
      rcases hq : s.toTimer with _ | ⟨event, rest⟩ <;>
        simp only [Ota.watchdog, hq, Option.map_eq_some_iff, reduceCtorEq] at hs
      obtain ⟨timer, -, rfl⟩ := hs
      exact hplain ⟨orderly_of_frame h rfl rfl rfl, rfl⟩ rfl
    | expire =>
      obtain ⟨out, -, rfl⟩ := Option.map_eq_some_iff.mp hs
      exact hplain ⟨orderly_of_frame h rfl rfl rfl, rfl⟩ rfl

/-- The task never indexes past its session exactly in the runs in which it
writes the outcome of a hub only while a session is open. -/
theorem indexes_its_session (idEdge : String) (t : List (Ota × Ota.Label)) (s : Ota)
    (run : (machine idEdge).Run t s) :
    (∀ x ∈ Machine.visited t s, x.panicked = false) ↔
      Machine.Meets (fun s i => s.recordsWorking i = true) t := by
  have hiff := run.avoids_iff Ota.Orderly (fun s => s.panicked = true)
    (fun s i => s.recordsWorking i = false)
    (by
      rintro s ⟨manager, rfl⟩
      exact ⟨⟨fun _ => iff_of_false (by simp [start, Task.new]) (by simp [start, Task.new]),
        fun hne => absurd rfl hne⟩, by simp [start]⟩)
    (fun s i s' h hs => (orderly_step h hs).1)
    (fun s i s' h _ hs => (orderly_step h hs).2)
  simpa only [Bool.not_eq_true, Bool.not_eq_false] using hiff

/-! ## Concrete runs -/

/-- A network with one hub. -/
def oneHub : NetworkManager :=
  ((NetworkManager.newEmpty "edge").addNetwork (Network.new "n" true)).addHub "n" ⟨"h", "device"⟩

def updateOf (network : String) : UpdateFirmware :=
  { metadata := { senderUserId := "server0", destinationId := "edge", timestamp := default }
    network }

def updatedBy (hub : String) : FirmwareOk :=
  { metadata := { senderUserId := hub, destinationId := "edge", timestamp := default }
    isUpdated := true, success := true }

/-- A session is opened, and the hub is asked. -/
def opened : List Ota.Label :=
  [.work default, .watchdog, .command (.update (updateOf "n")), .takeMsg,
    .fetched (some "1.0.0") ["h"] default, .work default, .work default, .watchdog]

/-- The countdown ends while the answer of the hub waits to be taken. -/
def expiredBeforeAnswer : List Ota.Label :=
  [.expire, .command (.hubResponse (updatedBy "h")), .takeMsg, .work default, .work default,
    .work default, .takeTimer, .work default, .work default]

theorem an_expiry_indexes_past_the_session :
    ¬ ∀ (idEdge : String) (t : List (Ota × Ota.Label)) (s : Ota), (machine idEdge).Run t s →
      ∀ x ∈ Machine.visited t s, x.panicked = false := by
  intro h
  have hinit : (machine "edge").init (start oneHub) := ⟨oneHub, rfl⟩
  have hrun := Machine.run_of_final (opened ++ expiredBeforeAnswer) hinit (by decide +kernel)
  have hlast := h _ _ _ hrun _ (Machine.last_mem_visited _ _)
  revert hlast
  decide +kernel

theorem an_answered_session_ends :
    let t := (machine "edge").trace (start oneHub)
      (opened ++ [.command (.hubResponse (updatedBy "h")), .takeMsg, .work default, .work default,
        .work default, .takeResponse])
    (∃ s ∈ t, s.1.task.state = .working) ∧ (∃ s ∈ t, s.1.task.index = 1) ∧
      ∀ s ∈ t, s.1.panicked = false := by
  have hinit : (machine "edge").init (start oneHub) := ⟨oneHub, rfl⟩
  have hall := (indexes_its_session "edge" _ _ (Machine.run_of_final
    (opened ++ [.command (.hubResponse (updatedBy "h")), .takeMsg, .work default, .work default,
      .work default, .takeResponse]) hinit (by decide +kernel))).mpr (by decide +kernel)
  exact ⟨by decide +kernel, by decide +kernel, fun s hs => hall s.1 (Machine.mem_visited hs _)⟩

end Law

end EdgeGateway.Firmware
