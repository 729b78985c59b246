-- The state that `edge_state` announces. It is told the epoch by the answers that
-- `fsm` takes, and the end of the balance by entry actions; an answer that comes after
-- that end makes it announce a balance again.
import EdgeGateway.Fsm.Epochs

namespace EdgeGateway.Fsm

open EdgeGateway.Lib EdgeGateway.Message EdgeGateway.Networks EdgeGateway.Quorum

/-! ## What `edge_state` is going to be told -/

/-- The state that the entry action tells `edge_state`. -/
def Action.edge : Action → Option StateGlobal
  | .onEntryNormal => some .normal
  | .onEntrySafeMode => some .safeMode
  | _ => none

def Op.edge : Op → Option StateGlobal
  | .toEdgeState state => some state
  | .act a => a.edge
  | _ => none

/-- The states that the operations tell `edge_state`, in their order. -/
def edges (ops : List Op) : List StateGlobal := ops.filterMap Op.edge

theorem edges_append (p q : List Op) : edges (p ++ q) = edges p ++ edges q :=
  List.filterMap_append

theorem edges_acts (l : List Action) : edges (l.map .act) = l.filterMap Action.edge := by
  unfold edges
  rw [List.filterMap_map]
  rfl

theorem edgeState_of_ne {s s' : StateGlobal} (h : s' ≠ .start) : edgeState s s' = s' := by
  cases s' with
  | start => exact absurd rfl h
  | _ => rfl

/-- The last state of a list decides, whatever came before. -/
theorem foldl_edgeState {xs : List StateGlobal} (h : ∀ x ∈ xs, x ≠ .start) (hne : xs ≠ [])
    (s s' : StateGlobal) : xs.foldl edgeState s = xs.foldl edgeState s' := by
  cases xs with
  | nil => exact absurd rfl hne
  | cons x xs =>
    have hx := h x List.mem_cons_self
    rw [List.foldl_cons, List.foldl_cons, edgeState_of_ne hx, edgeState_of_ne hx]

namespace Mode

/-- The balance is over. -/
def ended : Mode → Bool
  | .safeMode => true
  | .normal => true
  | _ => false

/-- A list tells `edge_state` of the end of the balance exactly when it makes
an end of it, or of the safe mode. -/
theorem row_edges {m m' : Mode} {e : Event} {l : List Action} (h : m.next e = some (m', l)) :
    l.filterMap Action.edge = if m'.ended then [m'.state.globalState] else [] :=
  of_rows (P := fun _ _ m' l =>
    l.filterMap Action.edge = if m'.ended then [m'.state.globalState] else []) (by decide) h

/-- From an ended balance there is no way back. -/
theorem ended_next {m m' : Mode} {e : Event} {l : List Action} (h : m.next e = some (m', l))
    (hm : m.ended = true) : m'.ended = true :=
  of_rows (P := fun m _ m' _ => m.ended = true → m'.ended = true) (by decide) h hm

theorem state_of_ended {m : Mode} (h : m.ended = true) :
    m.state.globalState = .safeMode ∨ m.state.globalState = .normal := by
  cases m <;> first | exact Or.inl rfl | exact Or.inr rfl | exact absurd h (by decide)

end Mode

section Steps

variable {ctx : AppContext} {cap : Option Nat} {m m' : Mode} {r r' : Runtime} {i : Label}

/-- An action tells `edge_state` what it announced. -/
theorem handleAction_edges (ctx : AppContext) (manager : NetworkManager) (epoch : UInt32)
    (session : UpdateSession) (now : Int64) (jitter : UInt32) (a : Action) :
    edges (handleAction ctx manager epoch session now jitter a).2 = a.edge.toList := by
  cases a with
  | onEntryBalance sub => cases sub <;> rfl
  | onEntryQuorum sub => cases sub <;> rfl
  | onEntryPhase sub => cases sub <;> rfl
  | _ => rfl

/-- Only an epoch makes `fsm` tell `edge_state` something at once. -/
theorem onCommand_edges (manager : NetworkManager) (epoch : UInt32) (session : UpdateSession)
    {c : FsmServiceCommand} (hc : ∀ e, c ≠ .epoch e) :
    edges (onCommand manager epoch session c).2.2 = [] := by
  have ht := taken manager epoch session c
  generalize onCommand manager epoch session c = out at ht ⊢
  cases ht with
  | silent => rfl
  | handshake hs he => rfl
  | empty hs =>
    rcases (quorumPhase_cases manager session (.emptyQueue ‹_›)).2 with h2 | h2 <;>
      rw [h2] <;> rfl
  | emptySafe hs =>
    rcases (quorumSafeMode_cases manager session (.emptyQueueSafe ‹_›)).2 with h2 | h2 <;>
      rw [h2] <;> rfl
  | errorEpoch => rfl
  | epoch => exact absurd rfl (hc _)

/-- A step sends the first of the coming states to `edge_state`, or leaves them all;
a transition adds those of its list. -/
theorem edges_step (hmove : Move ctx cap m r i m' r') (hi : ∀ e, i ≠ .command (.epoch e)) :
    r.toEdge i ++ edges r'.pending = edges r.pending ∧ m' = m ∨
    ∃ e l, m.next e = some (m', l) ∧
      r.toEdge i ++ edges r'.pending = edges r.pending ++ l.filterMap Action.edge := by
  cases hmove with
  | @command _ c ho =>
    left
    have hnone := onCommand_edges r.manager r.currentEpoch r.session
      (fun e => fun hc => hi e (hc ▸ rfl) : ∀ e, c ≠ .epoch e)
    rw [Runtime.pending_afterCommand ho, edges_append, hnone]
    exact ⟨rfl, rfl⟩
  | @take _ visit _ _ ho ha =>
    left
    rw [Runtime.pending_take ho ha { r.past with serving := visit }]
    exact ⟨rfl, rfl⟩
  | @act _ a rest now jitter ho =>
    left
    obtain ⟨p, hp, hout⟩ := Runtime.pending_afterAct ho
    have hsame := handleAction_edges ctx r.manager r.currentEpoch r.session now
      jitter.val.toUInt32 a
    rw [hout, hp, edges_append, hsame]
    refine ⟨?_, rfl⟩
    unfold Runtime.toEdge edges
    rw [ho]
    cases h : a.edge <;> simp [Op.edge, h]
  | @sendFsm _ e rest now jitter ho hr =>
    left
    rw [Runtime.pending_send ho (r.events ++ [(e, 0)]) r.timerQueue]
    refine ⟨?_, rfl⟩
    unfold Runtime.toEdge
    rw [ho]
    rfl
  | @sendTimer _ e rest now jitter ho hr =>
    left
    rw [Runtime.pending_send ho r.events (r.timerQueue ++ [(e, r.past.serving)])]
    refine ⟨?_, rfl⟩
    unfold Runtime.toEdge
    rw [ho]
    rfl
  | @output _ o rest now jitter ho hout =>
    left
    rw [Runtime.pending_send ho r.events r.timerQueue]
    refine ⟨?_, rfl⟩
    unfold Runtime.toEdge
    rw [ho]
    cases o <;> first | rfl | cases hout
  | deliver hb hr =>
    left
    rw [Runtime.pending_deliver hb]
    exact ⟨rfl, rfl⟩
  | @advance _ _ e _ _ l hb hev hn =>
    right
    refine ⟨e, l, hn, ?_⟩
    rw [Runtime.pending_advanced cap hb, edges_append, edges_acts]
    rfl
  | refuse hb hev hn => exact Or.inl ⟨rfl, rfl⟩
  | receive hq ht => exact Or.inl ⟨rfl, rfl⟩
  | expire ht => exact Or.inl ⟨rfl, rfl⟩
  | network => exact Or.inl ⟨rfl, rfl⟩

/-- Only an epoch changes the epoch. -/
theorem currentEpoch_step (hmove : Move ctx cap m r i m' r')
    (hi : ∀ e, i ≠ .command (.epoch e)) : r'.currentEpoch = r.currentEpoch := by
  cases hmove with
  | @command _ c ho =>
    exact (onCommand_epochs r.manager r.currentEpoch r.session
      (fun e => fun hc => hi e (hc ▸ rfl) : ∀ e, c ≠ .epoch e)).1
  | advance hb hev hn => exact Runtime.advanced_currentEpoch ..
  | _ => rfl

end Steps

/-! ## The law of a runtime -/

namespace Live

/-- The states that `edge_state` is still to take, in their order. -/
def coming (l : Live) : List StateGlobal := l.toEdge ++ edges l.runtime.pending

/-- The state that `edge_state` will have when it has taken them. -/
def settled (l : Live) : StateGlobal := l.coming.foldl edgeState l.edge

/-- The last state that `fsm` has sent to `edge_state`. -/
def told (l : Live) : StateGlobal := l.toEdge.foldl edgeState l.edge

/-- `edge_state` will announce the state of the machine, once the machine has an
epoch or is in safe mode. -/
structure Tells (m : Mode) (l : Live) : Prop where
  named : ∀ x ∈ l.coming, x ≠ .start
  ended : m.ended = true → l.settled = m.state.globalState
  balance : m.ended = false → ∀ x ∈ l.coming, x.epoch.isSome = true
  speaks : m.ended = false → Speaks m l.runtime →
    l.settled = .balanceMode l.runtime.currentEpoch

/-- `fsm` takes no epoch after it has told `edge_state` that the balance is over. -/
def isTimely (l : Live) : Label → Bool
  | .takeCommand =>
    match l.commands with
    | .epoch _ :: _ => l.told ≠ .safeMode ∧ l.told ≠ .normal
    | _ => true
  | _ => true

theorem settled_eq (l : Live) :
    l.settled = (edges l.runtime.pending).foldl edgeState l.told := by
  unfold settled coming told
  rw [List.foldl_append]

section Law

variable {ctx : AppContext} {cap : Option Nat} {l l' : Live} {m m' : Mode} {r' : Runtime}
  {i : Fsm.Label}

theorem tells_spawn (cap : Option Nat) (manager : NetworkManager) :
    (spawn cap manager).Tells .init := by
  have hcoming : (spawn cap manager).coming = [] := by
    simp [coming, spawn, Runtime.pending, queued_start, edges, Op.edge, Action.edge]
  constructor
  · rw [hcoming]
    simp
  · intro h
    cases h
  · rw [hcoming]
    simp
  · intro _ h
    simp [Speaks, Mode.balancing, Runtime.ahead, spawn, Runtime.pending, queued_start,
      Op.event] at h

/-- A step that takes no epoch: what is coming stays, and the end of a balance is
announced by its list. -/
theorem tells_move (h : l.Tells m) (hmove : Move ctx cap m l.runtime i m' r')
    (hi : ∀ e, i ≠ .command (.epoch e)) (hruntime : l'.runtime = r') (hedge : l'.edge = l.edge)
    (hto : l'.toEdge = l.toEdge ++ l.runtime.toEdge i) : l'.Tells m' := by
  have hcoming : l'.coming = l.toEdge ++ (l.runtime.toEdge i ++ edges r'.pending) := by
    rw [coming, hruntime, hto, List.append_assoc]
  have hsettled : l'.settled = l'.coming.foldl edgeState l.edge := by rw [settled, hedge]
  have hepoch : l'.runtime.currentEpoch = l.runtime.currentEpoch := by
    rw [hruntime]
    exact currentEpoch_step hmove hi
  have hspeaks : Speaks m' l'.runtime → Speaks m l.runtime := by
    rw [hruntime]
    exact speaks_step hmove hi
  rcases edges_step hmove hi with ⟨hsame, rfl⟩ | ⟨e, acts, hn, hnew⟩
  · rw [hsame] at hcoming
    have hkept : l'.settled = l.settled := by rw [hsettled, hcoming]; rfl
    constructor
    · rw [hcoming]
      exact h.named
    · rw [hkept]
      exact h.ended
    · rw [hcoming]
      exact h.balance
    · intro hended hs
      rw [hkept, hepoch]
      exact h.speaks hended (hspeaks hs)
  · rw [hnew, ← List.append_assoc, Mode.row_edges hn] at hcoming
    change l'.coming = l.coming ++ _ at hcoming
    by_cases hended : m'.ended = true
    · rw [if_pos hended] at hcoming
      have hne : m'.state.globalState ≠ .start := by
        rcases Mode.state_of_ended hended with h | h <;> rw [h] <;> simp
      constructor
      · intro x hx
        rw [hcoming, List.mem_append, List.mem_singleton] at hx
        rcases hx with hx | rfl
        · exact h.named x hx
        · exact hne
      · intro _
        rw [hsettled, hcoming, List.foldl_append]
        exact edgeState_of_ne hne
      · intro hnot
        rw [hended] at hnot
        cases hnot
      · intro hnot
        rw [hended] at hnot
        cases hnot
    · rw [if_neg hended, List.append_nil] at hcoming
      have hbefore : m.ended = false := by
        rw [← Bool.not_eq_true]
        intro hm
        exact hended (Mode.ended_next hn hm)
      have hkept : l'.settled = l.settled := by rw [hsettled, hcoming]; rfl
      constructor
      · rw [hcoming]
        exact h.named
      · intro hm
        exact absurd hm hended
      · intro _
        rw [hcoming]
        exact h.balance hbefore
      · intro _ hs
        rw [hkept, hepoch]
        exact h.speaks hbefore (hspeaks hs)

/-- Queued lists tell `edge_state` of the end of a balance, never of an epoch. -/
theorem edges_queued (r : Runtime) :
    ∀ x ∈ edges (r.queued.flatMap fun q => q.2.map .act), x.epoch = none := by
  intro x hx
  obtain ⟨o, ho, hx⟩ := List.mem_filterMap.mp hx
  obtain ⟨q, -, ho⟩ := List.mem_flatMap.mp ho
  obtain ⟨a, -, rfl⟩ := List.mem_map.mp ho
  cases a <;> simp only [Op.edge, Action.edge, Option.some.injEq, reduceCtorEq] at hx <;>
    subst hx <;> rfl

/-- `fsm` takes an epoch while the balance is not over for `edge_state`. -/
theorem tells_epoch {e : UInt32} {rest : List FsmServiceCommand} (h : l.Tells m)
    (ho : l.runtime.ops = []) (htold : l.told ≠ .safeMode ∧ l.told ≠ .normal) :
    { l with
      commands := rest
      runtime := l.runtime.afterCommand (.epoch e)
        (onCommand l.runtime.manager l.runtime.currentEpoch l.runtime.session
          (.epoch e)) }.Tells m := by
  have hp := Runtime.pending_afterCommand ho (.epoch e)
    (onCommand l.runtime.manager l.runtime.currentEpoch l.runtime.session (.epoch e))
  have hqueued : l.runtime.pending = l.runtime.queued.flatMap fun q => q.2.map .act := by
    rw [Runtime.pending, ho, List.nil_append]
  have hepochs : ∀ x ∈ edges l.runtime.pending, x.epoch = none := by
    rw [hqueued]
    exact edges_queued l.runtime
  have hedges : edges (l.runtime.afterCommand (.epoch e)
      (onCommand l.runtime.manager l.runtime.currentEpoch l.runtime.session
        (.epoch e))).pending = .balanceMode (e + 1) :: edges l.runtime.pending := by
    rw [hp, edges_append]
    rfl
  have hnone : m.ended = false → edges l.runtime.pending = [] := by
    intro hended
    apply List.eq_nil_iff_forall_not_mem.mpr
    intro x hx
    have hsome := h.balance hended x (List.mem_append_right _ hx)
    rw [hepochs x hx] at hsome
    cases hsome
  constructor
  · intro x hx
    unfold coming at hx
    rw [hedges, List.mem_append, List.mem_cons] at hx
    rcases hx with hx | rfl | hx
    · exact h.named x (List.mem_append_left _ hx)
    · simp
    · exact h.named x (List.mem_append_right _ hx)
  · intro hended
    have hover := h.ended hended
    rw [settled_eq] at hover ⊢
    have hsome : edges l.runtime.pending ≠ [] := by
      intro hnil
      rw [hnil, List.foldl_nil] at hover
      rcases Mode.state_of_ended hended with hs | hs <;> rw [hs] at hover
      · exact htold.1 hover
      · exact htold.2 hover
    rw [hedges, List.foldl_cons, ← hover]
    exact foldl_edgeState (fun x hx => h.named x (List.mem_append_right _ hx)) hsome _ _
  · intro hended x hx
    unfold coming at hx
    rw [hedges, List.mem_append, List.mem_cons] at hx
    rcases hx with hx | rfl | hx
    · exact h.balance hended x (List.mem_append_left _ hx)
    · rfl
    · exact h.balance hended x (List.mem_append_right _ hx)
  · intro hended _
    rw [settled_eq, hedges, hnone hended]
    rfl

theorem tells_takeCommand (h : l.Tells m) (hm : l.runtime.state = m.state)
    (htimely : l.isTimely .takeCommand = true) (hs : l.takeCommand ctx cap = some l') :
    ∃ m' : Mode, l'.runtime.state = m'.state ∧ l'.Tells m' := by
  unfold Live.takeCommand at hs
  unfold isTimely at htimely
  rcases hq : l.commands with _ | ⟨c, rest⟩
  · simp [hq] at hs
  · simp only [hq, Option.map_eq_some_iff] at hs htimely
    obtain ⟨runtime, hr, rfl⟩ := hs
    obtain ⟨m', hm', hmove⟩ := Fsm.move_of_step hm hr
    refine ⟨m', hm', ?_⟩
    by_cases hc : ∃ e, c = .epoch e
    · obtain ⟨e, rfl⟩ := hc
      rw [decide_eq_true_eq] at htimely
      cases hmove with
      | command ho => exact tells_epoch h ho htimely
    · have hi : ∀ e, Label.command c ≠ .command (.epoch e) :=
        fun e he => hc ⟨e, by injection he⟩
      exact tells_move h hmove hi rfl rfl (List.append_nil _).symm

theorem tells_runtime (h : l.Tells m) (hm : l.runtime.state = m.state)
    (hs : l.runtimeStep ctx cap i = some l') :
    ∃ m' : Mode, l'.runtime.state = m'.state ∧ l'.Tells m' := by
  obtain ⟨hi, runtime, hr, rfl⟩ := runtimeStep_some hs
  obtain ⟨m', hm', hmove⟩ := Fsm.move_of_step hm hr
  exact ⟨m', hm', tells_move h hmove (fun e => hi _) rfl rfl rfl⟩

theorem tells_step {i : Label} (h : l.Tells m) (hm : l.runtime.state = m.state)
    (htimely : l.isTimely i = true) (hs : l.step ctx cap i = some l') :
    ∃ m' : Mode, l'.runtime.state = m'.state ∧ l'.Tells m' := by
  cases i with
  | takeCommand => exact tells_takeCommand h hm htimely hs
  | runtime i => exact tells_runtime h hm hs
  | edgeTake =>
    -- a state goes from what is coming to what `edge_state` has
    rcases hsends : l.edgeSends with _ | ⟨x, sends⟩ <;> rcases hto : l.toEdge with _ | ⟨s, rest⟩ <;>
      simp only [step, hsends, hto, Option.some.injEq, reduceCtorEq] at hs
    subst hs
    have hcoming : l.coming = s :: (rest ++ edges l.runtime.pending) := by
      rw [coming, hto, List.cons_append]
    refine ⟨m, hm, ?_, ?_, ?_, ?_⟩
    · intro x hx
      exact h.named x (hcoming ▸ List.mem_cons_of_mem _ hx)
    · intro hended
      have hover := h.ended hended
      rwa [settled, hcoming] at hover
    · intro hended x hx
      exact h.balance hended x (hcoming ▸ List.mem_cons_of_mem _ hx)
    · intro hended hs
      have hspeaks := h.speaks hended hs
      rwa [settled, hcoming] at hspeaks
  | edgeTick now jitter =>
    rcases hsends : l.edgeSends with _ | ⟨x, sends⟩ <;>
      simp only [step, hsends, Option.some.injEq, reduceCtorEq] at hs
    exact ⟨m, hs ▸ hm, hs ▸ ⟨h.named, h.ended, h.balance, h.speaks⟩⟩
  | edgeSend =>
    rcases hsends : l.edgeSends with _ | ⟨x, sends⟩ <;>
      simp only [step, hsends, Option.some.injEq, reduceCtorEq] at hs
    exact ⟨m, hs ▸ hm, hs ▸ ⟨h.named, h.ended, h.balance, h.speaks⟩⟩

end Law

/-- The channels of the runtime are empty, and its tasks wait for them. -/
def Idle (l : Live) : Prop :=
  l.commands = [] ∧ l.responses = [] ∧ l.toEdge = [] ∧ l.edgeSends = [] ∧ l.runtime.ops = [] ∧
    l.runtime.outbox = none ∧ l.runtime.events = [] ∧ l.runtime.actions = [] ∧
    l.runtime.timerQueue = []

instance (l : Live) : Decidable l.Idle :=
  inferInstanceAs (Decidable (l.commands = [] ∧ l.responses = [] ∧ l.toEdge = [] ∧
    l.edgeSends = [] ∧ l.runtime.ops = [] ∧ l.runtime.outbox = none ∧ l.runtime.events = [] ∧
    l.runtime.actions = [] ∧ l.runtime.timerQueue = []))

/-- The state of the machine, with the epoch of the handshakes in a balance. -/
def state (l : Live) : StateGlobal :=
  match l.runtime.state.globalState with
  | .balanceMode _ => .balanceMode l.runtime.currentEpoch
  | s => s

/-- An idle runtime that has left `InitBalanceMode` announces its state. -/
theorem edge_of_tells {l : Live} {m : Mode} (h : l.Tells m) (hm : l.runtime.state = m.state)
    (hidle : l.Idle) (hleft : l.runtime.state.balance ≠ some .initBalanceMode) :
    l.edge = l.state := by
  obtain ⟨-, -, hto, -, hops, hbox, -, hactions, -⟩ := hidle
  have hsettled : l.settled = l.edge := by
    simp [settled, coming, hto, Runtime.pending, Runtime.queued, hops, hactions, hbox, edges]
  have hinit : m ≠ .init := by
    rintro rfl
    exact hleft (by rw [hm]; rfl)
  unfold state
  rw [hm]
  by_cases hended : m.ended = true
  · rw [← hsettled, h.ended hended]
    rcases Mode.state_of_ended hended with hs | hs <;> rw [hs]
  · have hbalancing : m.balancing = true := by
      cases m <;> first | rfl | exact absurd rfl hinit | exact absurd rfl hended
    have hepoch := h.speaks (by simpa using hended) (Or.inl hbalancing)
    rw [← hsettled, hepoch]
    cases m <;> first | rfl | cases hbalancing

end Live

/-! ## The service and the answers -/

/-- `FsmService` with the commands that it is still to take, its runtime, and how many
requests for the epoch it has passed on that are not answered. -/
structure Served where
  commands : List FsmServiceCommand
  live : Option Live
  requests : Nat

/-- A step is a command of the core that is no answer, an answer to a request
(`none` is a failed query), or a task that goes on. -/
inductive Served.Label where
  | create
  | delete
  | hub (msg : HubMessage)
  | answer (epoch : Option UInt32)
  | manage (manager : NetworkManager)
  | forward
  | live (i : Live.Label)

namespace Served

def start : Served where
  commands := []
  live := none
  requests := 0

def send (g : Served) (c : FsmServiceCommand) : Served :=
  { g with commands := g.commands ++ [c] }

/-- What the core makes of the answer of `dba_get_task`. -/
def answerCommand : Option UInt32 → FsmServiceCommand
  | some epoch => .epoch epoch
  | none => .errorEpoch

def answer (g : Served) (epoch : Option UInt32) : Option Served :=
  match g.requests with
  | 0 => none
  | n + 1 => some ({ g with requests := n }.send (answerCommand epoch))

/-- `FsmService` takes a command. -/
def manage (cap : Option Nat) (manager : NetworkManager) (g : Served) : Option Served :=
  match g.commands with
  | [] => none
  | c :: rest => some { g with commands := rest, live := Live.manage cap manager g.live c }

/-- `FsmService` passes on a response of its runtime. -/
def forward (g : Served) : Option Served :=
  match g.live with
  | none => none
  | some l =>
    match l.responses with
    | [] => none
    | response :: rest =>
      some { g with
        live := some { l with responses := rest }
        requests := if response = .getEpoch then g.requests + 1 else g.requests }

def liveStep (ctx : AppContext) (cap : Option Nat) (g : Served) (i : Live.Label) :
    Option Served :=
  match g.live with
  | none => none
  | some l => (l.step ctx cap i).map (fun l => { g with live := some l })

def step (ctx : AppContext) (cap : Option Nat) (g : Served) : Label → Option Served
  | .create => some (g.send .createRuntime)
  | .delete => some (g.send .deleteRuntime)
  | .hub msg => some (g.send (.fromHub msg))
  | .answer epoch => g.answer epoch
  | .manage manager => g.manage cap manager
  | .forward => g.forward
  | .live i => g.liveStep ctx cap i

def machine (ctx : AppContext) (cap : Option Nat) : Machine Served Label where
  init := fun g => g = start
  step := step ctx cap

/-- A runtime with nothing on its way that has left `InitBalanceMode` announces the
state of its machine. -/
def Announces (g : Served) : Prop :=
  ∀ l, g.live = some l → g.commands = [] → l.Idle →
    l.runtime.state.balance ≠ some .initBalanceMode → l.edge = l.state

def isTimely (g : Served) : Label → Bool
  | .live i =>
    match g.live with
    | none => true
    | some l => l.isTimely i
  | _ => true

/-- The runtime tells `edge_state` its state. -/
def Lawful (g : Served) : Prop :=
  ∀ l, g.live = some l → ∃ m : Mode, l.runtime.state = m.state ∧ l.Tells m

section Law

variable {ctx : AppContext} {cap : Option Nat} {g g' : Served}

theorem lawful_manage {manager : NetworkManager} (h : g.Lawful)
    (hs : g.manage cap manager = some g') : g'.Lawful := by
  unfold manage at hs
  rcases hq : g.commands with _ | ⟨c, rest⟩
  · simp [hq] at hs
  simp only [hq, Option.some.injEq] at hs
  subst hs
  intro l' hlive
  rcases hl : g.live with _ | l
  · cases c <;> simp only [hl, Live.manage, reduceCtorEq, Option.some.injEq] at hlive
    exact ⟨.init, hlive ▸ state_start cap manager, hlive ▸ Live.tells_spawn cap manager⟩
  · obtain ⟨m, hm, ht⟩ := h l hl
    cases c <;> simp only [hl, Live.manage, reduceCtorEq, Option.some.injEq] at hlive <;>
      exact ⟨m, hlive ▸ hm, hlive ▸ ⟨ht.named, ht.ended, ht.balance, ht.speaks⟩⟩

theorem lawful_forward (h : g.Lawful) (hs : g.forward = some g') : g'.Lawful := by
  unfold forward at hs
  rcases hl : g.live with _ | l
  · simp [hl] at hs
  rcases hq : l.responses with _ | ⟨response, rest⟩
  · simp [hl, hq] at hs
  simp only [hl, hq, Option.some.injEq] at hs
  subst hs
  intro l' hlive
  obtain rfl := Option.some.inj hlive
  obtain ⟨m, hm, ht⟩ := h l hl
  exact ⟨m, hm, ht.named, ht.ended, ht.balance, ht.speaks⟩

theorem lawful_live {i : Live.Label} (h : g.Lawful) (htimely : g.isTimely (.live i) = true)
    (hs : g.liveStep ctx cap i = some g') : g'.Lawful := by
  unfold liveStep at hs
  unfold isTimely at htimely
  rcases hl : g.live with _ | l
  · simp [hl] at hs
  · simp only [hl, Option.map_eq_some_iff] at hs htimely
    obtain ⟨l', hstep, rfl⟩ := hs
    intro l2 hlive
    obtain rfl := Option.some.inj hlive
    obtain ⟨m, hm, ht⟩ := h l hl
    exact Live.tells_step ht hm htimely hstep

theorem lawful_step {i : Label} (h : g.Lawful) (htimely : g.isTimely i = true)
    (hs : (machine ctx cap).step g i = some g') : g'.Lawful := by
  have hsend : ∀ c, g.send c = g' → g'.Lawful := by
    rintro c rfl
    exact h
  cases i with
  | create => exact hsend _ (Option.some.inj hs)
  | delete => exact hsend _ (Option.some.inj hs)
  | hub msg => exact hsend _ (Option.some.inj hs)
  | answer epoch =>
    simp only [machine, step, answer] at hs
    rcases hr : g.requests with _ | n
    · simp [hr] at hs
    · rw [hr] at hs
      obtain rfl := Option.some.inj hs
      exact h
  | manage manager => exact lawful_manage h hs
  | forward => exact lawful_forward h hs
  | live i => exact lawful_live h htimely hs

end Law

/-- While no runtime takes an epoch after it has told `edge_state` that the balance is
over, `edge_state` announces the state of the machine. -/
theorem the_announced_state_is_the_state {ctx : AppContext} {cap : Option Nat}
    {t : List (Served × Label)} {g : Served} (r : (machine ctx cap).Run t g)
    (htimely : Machine.Meets (fun g i => g.isTimely i = true) t) :
    ∀ x ∈ Machine.visited t g, x.Announces := by
  intro x hx l hl _ hidle hleft
  have hlawful : x.Lawful := by
    refine r.invariant_visited Lawful _ ?_ ?_ htimely x hx
    · rintro g rfl
      intro l hl
      cases hl
    · intro g i g' h htimely hs
      exact lawful_step h htimely hs
  obtain ⟨m, hm, ht⟩ := hlawful l hl
  exact Live.edge_of_tells ht hm hidle hleft

/-! ## Answers of an earlier runtime -/

def ofRuntime (is : List Fsm.Label) : List Label := is.map (fun i => .live (.runtime i))

/-- A runtime is spawned and asks for its epoch. -/
def asks : List Label :=
  [.create, .manage sampleCache] ++ ofRuntime ([.takeActions] ++ works 2) ++ [.forward]

/-- The runtime takes an epoch and tells `edge_state`. -/
def takes (epoch : UInt32) : List Label :=
  [.answer (some epoch), .manage sampleCache, .live .takeCommand] ++ ofRuntime (works 3) ++
    [.forward, .live .edgeTake] ++ ofRuntime [.runFsm]

/-- The runtime learns that the query has failed, and enters safe mode. -/
def fails : List Label :=
  [.answer none, .manage sampleCache, .live .takeCommand] ++
    ofRuntime (works 1 ++ [.runFsm, .takeActions] ++ works 4 ++ [.timerReceive]) ++
    [.live .edgeTake]

/-- One runtime with its epoch, in `InHandshake`. -/
def balances : List Label :=
  asks ++ takes 0 ++ ofRuntime ([.takeActions] ++ works 3 ++ [.timerReceive]) ++ [.forward]

theorem a_balance_is_announced :
    (∀ x ∈ Machine.visited ((machine sampleContext (some 50)).trace start balances)
        (((machine sampleContext (some 50)).final start balances).get (by decide +kernel)),
      x.Announces) ∧
    ((((machine sampleContext (some 50)).final start balances).bind Served.live).map
      (fun l => (decide l.Idle, l.edge, l.state))) =
      some (true, .balanceMode 1, .balanceMode 1) :=
  ⟨the_announced_state_is_the_state
    (Machine.run_of_final (m := machine sampleContext (some 50)) balances rfl (by decide +kernel))
    (by decide +kernel), by decide +kernel⟩

/-- A runtime is deleted before its request is answered. Its successor is told that the
query has failed, and then gets the other answer. -/
def outlives : List Label := asks ++ [.delete, .manage sampleCache] ++ asks ++ fails ++ takes 0

/-- The service with the successor. -/
def outlived : Served :=
  ((machine sampleContext (some 50)).final start outlives).get (by decide +kernel)

theorem outlived_live : outlived.live.isSome = true := by decide +kernel

/-- In safe mode, with nothing on its way, `edge_state` announces a balance. -/
theorem a_late_answer_is_announced :
    ¬ ∀ (ctx : AppContext) (cap : Option Nat) (t : List (Served × Label)) (g : Served),
      (machine ctx cap).Run t g → ∀ x ∈ Machine.visited t g, x.Announces := by
  intro h
  have hrun := Machine.run_of_final (m := machine sampleContext (some 50)) outlives rfl
    (by decide +kernel)
  have hlast : outlived.Announces :=
    h sampleContext (some 50) _ _ hrun _ (Machine.last_mem_visited _ _)
  have hedge := hlast (outlived.live.get outlived_live) (Option.some_get outlived_live).symm
    (by decide +kernel) (by decide +kernel) (by decide +kernel)
  exact absurd hedge (by decide +kernel)

end Served

end EdgeGateway.Fsm
