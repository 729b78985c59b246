-- The epochs of the balance: the core, `FsmService` with its runtime, `DataService`
-- and the two tasks that store and read table `balance_epoch`. A runtime announces the
-- epoch after the one it is given, so its epochs are new as long as what it is given
-- has not been overtaken by what is on its way to the table.
import EdgeGateway.Core.Domain
import EdgeGateway.Fsm.Epochs

namespace EdgeGateway.Core

open EdgeGateway.Lib EdgeGateway.Networks EdgeGateway.Quorum EdgeGateway.Fsm

/-! ## Table `balance_epoch` -/

/-- The epochs of the rows, by `id`. -/
def insertBalanceEpoch (rows : List UInt32) (balance : UInt32) : List UInt32 := rows ++ [balance]

/-- The last row decides; an empty table is zero. -/
def getBalanceEpoch (rows : List UInt32) : UInt32 := rows.getLast?.getD 0

theorem getBalanceEpoch_append (rows : List UInt32) (o : Option UInt32) :
    getBalanceEpoch (rows ++ o.toList) = o.getD (getBalanceEpoch rows) := by
  cases o <;> simp [getBalanceEpoch]

/-! ## The configuration -/

namespace Output

def dataCommand : Output → Option DataCommand
  | .toDataService command => some command
  | _ => none

def fsmCommand : Output → Option FsmServiceCommand
  | .toFsmService command => some command
  | _ => none

end Output

/-- The epoch that the command stores. -/
def DataCommand.stores : DataCommand → Option UInt32
  | .newEpoch epoch => some epoch
  | _ => none

/-- The answer comes from neither `FsmService` nor the reading of the epoch, which are
part of the configuration. -/
def Input.isOther : Input → Bool
  | .fsmService _ => false
  | .dataService (.epoch _) => false
  | _ => true

/-- The tasks and the channels between them. `inserts` has the epochs that
`dba_insert_task` is to store, `gets` the readings that `dba_get_task` is to make; what
else they do only takes time. `spawned` counts the runtimes, and `announced` has what
left `FsmService` for the hubs, with the runtime it is of; no task reads these two. -/
structure Epochs where
  toFsm : List FsmServiceCommand
  live : Option Live
  fromFsm : List FsmServiceResponse
  toData : List DataCommand
  inserts : List UInt32
  gets : Nat
  fromData : List DataResponse
  rows : List UInt32
  spawned : Nat
  announced : List (Nat × UInt32)

/-- A step is an answer of another service, or a task that goes on; a runtime is
spawned over the cache of that moment. -/
inductive Epochs.Label where
  | core (input : Input)
  | coreFsm
  | coreData
  | dataService
  | dbaInsert
  | dbaGet
  | manage (manager : NetworkManager)
  | forward
  | live (i : Live.Label)

namespace Epochs

/-- The tasks before their first step, over the rows of the table. -/
def start (rows : List UInt32) : Epochs where
  toFsm := []
  live := none
  fromFsm := []
  toData := Core.start.filterMap Output.dataCommand
  inserts := []
  gets := 0
  fromData := []
  rows := rows
  spawned := 0
  announced := []

/-! ## Steps -/

/-- The core sends what an answer asks for. -/
def handle (g : Epochs) (input : Input) : Epochs :=
  { g with
    toFsm := g.toFsm ++ (run input).filterMap Output.fsmCommand
    toData := g.toData ++ (run input).filterMap Output.dataCommand }

def core (g : Epochs) (input : Input) : Option Epochs :=
  if input.isOther then some (g.handle input) else none

def coreFsm (g : Epochs) : Option Epochs :=
  match g.fromFsm with
  | [] => none
  | response :: rest => some ({ g with fromFsm := rest }.handle (.fsmService response))

def coreData (g : Epochs) : Option Epochs :=
  match g.fromData with
  | [] => none
  | response :: rest => some ({ g with fromData := rest }.handle (.dataService response))

/-- Storing and reading go to different tasks. -/
def dataService (g : Epochs) : Option Epochs :=
  match g.toData with
  | [] => none
  | .newEpoch epoch :: rest => some { g with toData := rest, inserts := g.inserts ++ [epoch] }
  | .getEpoch :: rest => some { g with toData := rest, gets := g.gets + 1 }
  | _ :: rest => some { g with toData := rest }

def dbaInsert (g : Epochs) : Option Epochs :=
  match g.inserts with
  | [] => none
  | epoch :: rest => some { g with inserts := rest, rows := insertBalanceEpoch g.rows epoch }

def dbaGet (g : Epochs) : Option Epochs :=
  match g.gets with
  | 0 => none
  | gets + 1 =>
    some { g with gets, fromData := g.fromData ++ [.epoch (getBalanceEpoch g.rows)] }

/-- `FsmService` takes a command. -/
def manage (cap : Option Nat) (manager : NetworkManager) (g : Epochs) : Option Epochs :=
  match g.toFsm with
  | [] => none
  | command :: rest =>
    some { g with
      toFsm := rest
      live := Live.manage cap manager g.live command
      spawned := if g.live.isNone ∧ command = .createRuntime then g.spawned + 1 else g.spawned }

/-- `FsmService` takes a response of its runtime. -/
def forward (g : Epochs) : Option Epochs :=
  match g.live with
  | none => none
  | some l =>
    match l.responses with
    | [] => none
    | response :: rest =>
      some { g with
        live := some { l with responses := rest }
        fromFsm := g.fromFsm ++ [response]
        announced := g.announced ++ (response.announced.map (fun v => (g.spawned, v))).toList }

def liveStep (ctx : AppContext) (cap : Option Nat) (g : Epochs) (i : Live.Label) :
    Option Epochs :=
  match g.live with
  | none => none
  | some l => (l.step ctx cap i).map (fun l => { g with live := some l })

def step (ctx : AppContext) (cap : Option Nat) (g : Epochs) : Label → Option Epochs
  | .core input => g.core input
  | .coreFsm => g.coreFsm
  | .coreData => g.coreData
  | .dataService => g.dataService
  | .dbaInsert => g.dbaInsert
  | .dbaGet => g.dbaGet
  | .manage manager => g.manage cap manager
  | .forward => g.forward
  | .live i => g.liveStep ctx cap i

/-- The gateway from its start, over any content of the table. -/
def machine (ctx : AppContext) (cap : Option Nat) : Machine Epochs Label where
  init := fun g => ∃ rows, g = start rows
  step := step ctx cap

/-! ## The law -/

/-- A later runtime has announced only epochs newer than those of an earlier one. -/
def Increasing (g : Epochs) : Prop :=
  ∀ p ∈ g.announced, ∀ q ∈ g.announced, p.1 < q.1 → p.2 < q.2

instance (g : Epochs) : Decidable g.Increasing :=
  inferInstanceAs (Decidable (∀ p ∈ g.announced, ∀ q ∈ g.announced, p.1 < q.1 → p.2 < q.2))

/-- The rows of the table once all is stored that is on its way to it. -/
def written (g : Epochs) : List UInt32 :=
  g.rows ++ g.inserts ++ g.toData.filterMap DataCommand.stores ++
    g.fromFsm.filterMap FsmServiceResponse.stores

/-- The epoch that the table is going to have. -/
def newest (g : Epochs) : UInt32 := getBalanceEpoch g.written

/-- No earlier runtime has announced the epoch, or a newer one. -/
def IsNew (g : Epochs) (v : UInt32) : Prop := ∀ p ∈ g.announced, p.1 < g.spawned → p.2 < v

/-- The epoch that the runtime takes has not been overtaken. -/
def isCurrent (g : Epochs) : Label → Bool
  | .live i =>
    match g.live with
    | none => true
    | some l => l.isCurrent g.newest i
  | _ => true

/-- What has been announced is of the runtimes so far, and not newer than what is
stored or on its way. -/
structure Lawful (g : Epochs) : Prop where
  known : ∀ p ∈ g.announced, p.1 ≤ g.spawned ∧ p.2 ≤ g.newest
  increasing : g.Increasing
  keeps : ∀ l, g.live = some l → l.Keeps g.IsNew g.newest

section Law

variable {ctx : AppContext} {cap : Option Nat} {g g' : Epochs}

theorem lawful_start (rows : List UInt32) : (start rows).Lawful where
  known := fun _ hp => absurd hp List.not_mem_nil
  increasing := fun _ hp => absurd hp List.not_mem_nil
  keeps := by simp [start]

/-- A step that stores nothing new and leaves the runtime keeps the law. -/
theorem Lawful.frame (h : g.Lawful) (hw : g'.written = g.written) (hl : g'.live = g.live)
    (hs : g'.spawned = g.spawned) (ha : g'.announced = g.announced) : g'.Lawful := by
  have hn : g'.newest = g.newest := by
    unfold newest
    rw [hw]
  have hnew : g'.IsNew = g.IsNew := by
    unfold IsNew
    rw [hs, ha]
  refine ⟨?_, ?_, ?_⟩
  · rw [ha, hs, hn]
    exact h.known
  · unfold Increasing
    rw [ha]
    exact h.increasing
  · rw [hl, hn, hnew]
    exact h.keeps

/-- Of the answers, only `NewEpoch` makes the core store an epoch. -/
theorem stores_run (input : Input) :
    ((run input).filterMap Output.dataCommand).filterMap DataCommand.stores =
      match input with
      | .fsmService response => response.stores.toList
      | _ => [] := by
  cases input with
  | fsmService response => cases response <;> rfl
  | dataService response =>
    cases response with
    | registry response => cases response <;> rfl
    | _ => rfl
  | firmwareService response => cases response <;> rfl
  | messageService response =>
    cases response with
    | fromHub msg => cases msg <;> rfl
    | fromServer msg => cases msg <;> rfl
    | _ => rfl
  | networkService response =>
    cases response with
    | response response => cases response <;> rfl
    | dataCommand command => cases command <;> rfl
  | _ => rfl

theorem lawful_core {input : Input} (h : g.Lawful) (hs : g.core input = some g') : g'.Lawful := by
  unfold core at hs
  split at hs
  · rename_i hother
    obtain rfl := Option.some.inj hs
    refine h.frame ?_ rfl rfl rfl
    have hnone : ((run input).filterMap Output.dataCommand).filterMap DataCommand.stores = [] := by
      rw [stores_run]
      cases input <;> simp [Input.isOther] at hother ⊢
    simp only [written, handle, List.filterMap_append, hnone, List.append_nil]
  · cases hs

theorem lawful_coreFsm (h : g.Lawful) (hs : g.coreFsm = some g') : g'.Lawful := by
  unfold coreFsm at hs
  split at hs
  · cases hs
  · rename_i response rest hq
    obtain rfl := Option.some.inj hs
    refine h.frame ?_ rfl rfl rfl
    simp only [written, handle, List.filterMap_append, stores_run, hq, List.append_assoc]
    cases response <;> rfl

theorem lawful_coreData (h : g.Lawful) (hs : g.coreData = some g') : g'.Lawful := by
  unfold coreData at hs
  split at hs
  · cases hs
  · rename_i response rest hq
    obtain rfl := Option.some.inj hs
    refine h.frame ?_ rfl rfl rfl
    simp only [written, handle, List.filterMap_append, stores_run, List.append_nil]

theorem lawful_dataService (h : g.Lawful) (hs : g.dataService = some g') : g'.Lawful := by
  unfold dataService at hs
  rcases hq : g.toData with _ | ⟨command, rest⟩
  · simp [hq] at hs
  · rw [hq] at hs
    cases command <;> obtain rfl := Option.some.inj hs <;> refine h.frame ?_ rfl rfl rfl <;>
      simp [written, hq, List.filterMap_cons, DataCommand.stores]

theorem lawful_dbaInsert (h : g.Lawful) (hs : g.dbaInsert = some g') : g'.Lawful := by
  unfold dbaInsert at hs
  split at hs
  · cases hs
  · rename_i epoch rest hq
    obtain rfl := Option.some.inj hs
    refine h.frame ?_ rfl rfl rfl
    simp [written, insertBalanceEpoch, hq]

theorem lawful_dbaGet (h : g.Lawful) (hs : g.dbaGet = some g') : g'.Lawful := by
  unfold dbaGet at hs
  split at hs
  · cases hs
  · obtain rfl := Option.some.inj hs
    exact h.frame rfl rfl rfl rfl

/-- A runtime that is spawned has nothing to announce yet. -/
theorem lawful_manage {manager : NetworkManager} (h : g.Lawful)
    (hs : g.manage cap manager = some g') : g'.Lawful := by
  unfold manage at hs
  split at hs
  · cases hs
  · rename_i command rest hq
    obtain rfl := Option.some.inj hs
    rcases hl : g.live with _ | l
    · refine ⟨fun p hp => ⟨?_, (h.known p hp).2⟩, h.increasing, fun l hlive => ?_⟩
      · have hle := (h.known p hp).1
        simp only
        split <;> omega
      · cases command <;> simp only [Live.manage, reduceCtorEq, Option.some.injEq] at hlive
        exact hlive ▸ Live.keeps_spawn _ _ cap manager
    · have hspawned : ¬ ((some l).isNone ∧ command = .createRuntime) := by simp
      rw [if_neg hspawned]
      refine ⟨h.known, h.increasing, fun l' hlive => ?_⟩
      have hkeeps := h.keeps l hl
      cases command <;> simp only [Live.manage, reduceCtorEq, Option.some.injEq] at hlive <;>
        subst hlive <;> exact ⟨hkeeps.line, hkeeps.edge, hkeeps.silent, hkeeps.speaks⟩

/-- What is announced comes after its `NewEpoch`, and is new. -/
theorem lawful_forward (h : g.Lawful) (hs : g.forward = some g') : g'.Lawful := by
  unfold forward at hs
  rcases hl : g.live with _ | l
  · simp [hl] at hs
  rcases hq : l.responses with _ | ⟨response, rest⟩
  · simp [hl, hq] at hs
  simp only [hl, hq, Option.some.injEq] at hs
  obtain ⟨hann, hstores, hkeeps⟩ := (h.keeps l hl).forward hq
  have hnewest : g'.newest = response.stores.getD g.newest := by
    have hwritten : g'.written = g.written ++ response.stores.toList := by
      subst hs
      simp only [written, List.filterMap_append, List.append_assoc]
      cases response <;> rfl
    unfold newest
    rw [hwritten, getBalanceEpoch_append]
  have hle : g.newest ≤ g'.newest := by
    rw [hnewest]
    rcases hv : response.stores with _ | v
    · exact UInt32.le_refl _
    · exact UInt32.le_of_lt (hstores v hv)
  have hmem : ∀ p ∈ g'.announced, p ∈ g.announced ∨
      p.1 = g.spawned ∧ response.announced = some p.2 := by
    intro p hp
    subst hs
    rcases List.mem_append.mp hp with hp | hp
    · exact .inl hp
    · rw [Option.mem_toList, Option.map_eq_some_iff] at hp
      obtain ⟨v, hv, rfl⟩ := hp
      exact .inr ⟨rfl, hv⟩
  have hspawned : g'.spawned = g.spawned := by rw [← hs]
  refine ⟨fun p hp => ?_, fun p hp q hq hlt => ?_, fun l' hlive => ?_⟩
  · rw [hspawned]
    rcases hmem p hp with hp | ⟨hp, hv⟩
    · exact ⟨(h.known p hp).1, UInt32.le_trans (h.known p hp).2 hle⟩
    · exact ⟨Nat.le_of_eq hp, UInt32.le_trans (hann _ hv).2 hle⟩
  · rcases hmem p hp with hp | ⟨hp, -⟩ <;> rcases hmem q hq with hq | ⟨hq, hv⟩
    · exact h.increasing p hp q hq hlt
    · exact (hann _ hv).1 p hp (hq ▸ hlt)
    · have := (h.known q hq).1
      omega
    · omega
  · have hnew : ∀ v, g.IsNew v → g'.IsNew v := by
      intro v hv p hp hlt
      rw [hspawned] at hlt
      rcases hmem p hp with hp | ⟨hp, -⟩
      · exact hv p hp hlt
      · omega
    rw [hnewest]
    subst hs
    obtain rfl := Option.some.inj hlive
    exact hkeeps.mono hnew

theorem lawful_live {i : Live.Label} (h : g.Lawful) (hcur : g.isCurrent (.live i) = true)
    (hs : g.liveStep ctx cap i = some g') : g'.Lawful := by
  unfold liveStep at hs
  unfold isCurrent at hcur
  rcases hl : g.live with _ | l
  · simp [hl] at hs
  · simp only [hl, Option.map_eq_some_iff] at hs hcur
    obtain ⟨l', hstep, rfl⟩ := hs
    have hfresh : ∀ v, g.newest < v → g.IsNew v :=
      fun v hv p hp _ => UInt32.lt_of_le_of_lt (h.known p hp).2 hv
    refine ⟨h.known, h.increasing, fun l2 hlive => ?_⟩
    obtain rfl := Option.some.inj hlive
    exact Live.keeps_step (h.keeps l hl) hfresh hcur hstep

theorem lawful_step {i : Label} (h : g.Lawful) (hcur : g.isCurrent i = true)
    (hs : (machine ctx cap).step g i = some g') : g'.Lawful := by
  cases i with
  | core input => exact lawful_core h hs
  | coreFsm => exact lawful_coreFsm h hs
  | coreData => exact lawful_coreData h hs
  | dataService => exact lawful_dataService h hs
  | dbaInsert => exact lawful_dbaInsert h hs
  | dbaGet => exact lawful_dbaGet h hs
  | manage manager => exact lawful_manage h hs
  | forward => exact lawful_forward h hs
  | live i => exact lawful_live h hcur hs

end Law

/-- While no runtime takes an epoch that has been overtaken, none announces an epoch
that an earlier one has announced, or an older one. -/
theorem epochs_are_not_reused {ctx : AppContext} {cap : Option Nat}
    {t : List (Epochs × Label)} {g : Epochs} (hrun : (machine ctx cap).Run t g)
    (hcur : Machine.Meets (fun g i => g.isCurrent i = true) t) :
    ∀ x ∈ Machine.visited t g, x.Increasing := by
  intro x hx
  refine (hrun.invariant_visited Lawful _ ?_ ?_ hcur x hx).increasing
  · rintro g ⟨rows, rfl⟩
    exact lawful_start rows
  · intro g i g' h hcur hs
    exact lawful_step h hcur hs

/-! ## Two runtimes, one after the other -/

def ofRuntime (is : List Fsm.Label) : List Label := is.map (fun i => .live (.runtime i))

/-- There are networks: a runtime is spawned, and asks for its epoch. -/
def created : List Label :=
  [.core (.dataService (.registry .thereAreNetworks)), .manage sampleCache] ++
    ofRuntime ([.takeActions] ++ works 2) ++ [.forward, .coreFsm, .dataService]

/-- The epoch is read and given to the runtime, which announces the next one. -/
def given : List Label :=
  [.dbaGet, .coreData, .manage sampleCache, .live .takeCommand] ++
    ofRuntime (works 3 ++ [.runFsm, .takeActions] ++ works 2) ++
    [.forward, .forward, .coreFsm, .coreFsm, .dataService]

/-- There are no networks left. -/
def deleted : List Label :=
  [.core (.dataService (.registry .noNetworks)), .manage sampleCache]

/-- The second runtime reads the table before the epoch of the first is stored. -/
def overtaking : List Label :=
  [.dataService] ++ created ++ given ++ deleted ++ created ++ given

/-- The epoch of the first runtime is stored before the second one reads. -/
def stored : List Label :=
  [.dataService] ++ created ++ given ++ [.dbaInsert] ++ deleted ++ created ++ given

/-- The second runtime announces the epoch of the first. -/
theorem an_epoch_is_reused :
    ¬ ∀ (ctx : AppContext) (cap : Option Nat) (t : List (Epochs × Label)) (g : Epochs),
      (machine ctx cap).Run t g → ∀ x ∈ Machine.visited t g, x.Increasing := by
  intro h
  have hrun := Machine.run_of_final (m := machine sampleContext none) overtaking ⟨[], rfl⟩
    (by decide +kernel)
  have hlast := h sampleContext none _ _ hrun _ (Machine.last_mem_visited _ _)
  exact absurd hlast (by decide +kernel)

theorem two_runtimes_announce_two_epochs :
    (∀ x ∈ Machine.visited ((machine sampleContext none).trace (start []) stored)
        (((machine sampleContext none).final (start []) stored).get (by decide +kernel)),
      x.Increasing) ∧
    (((machine sampleContext none).final (start []) stored).get (by decide +kernel)).announced =
      [(1, 1), (2, 2)] := by
  have hrun := Machine.run_of_final (m := machine sampleContext none) stored ⟨[], rfl⟩
    (by decide +kernel)
  exact ⟨epochs_are_not_reused hrun (by decide +kernel), by decide +kernel⟩

end Epochs

end EdgeGateway.Core
