-- The answers to the firmware orders. The handlers of `update_firmware_task` share one
-- session: an order that arrives while it is open takes its place, and an order whose
-- version cannot be fetched is answered with the network of the one before it.
import EdgeGateway.Firmware.Domain
import EdgeGateway.Lib.Ledger

namespace EdgeGateway.Firmware

open EdgeGateway.Lib EdgeGateway.Message EdgeGateway.Networks

/-! ## The handlers from their input to their end -/

/-- What the task takes. `version` and `ids` are what the handler of an order finds: the
version, if it can be fetched, and the hubs of the network. -/
inductive Input where
  | update (msg : UpdateFirmware) (version : Option String) (ids : List String)
  | hubResponse (msg : FirmwareOk)
  | timeout
  deriving Repr

/-- The messages that a handler sends. -/
def sends (ops : List Op) : List FirmwareServiceResponse :=
  ops.filterMap fun
    | .toCore response => some response
    | _ => none

namespace Task

/-- A handler runs to its end; what it does after it has written is what `record` says. -/
def perform (idEdge : String) (now : Int64) (t : Task) :
    List Op → Option (Task × List FirmwareServiceResponse)
  | [] => some (t, [])
  | .toTimer _ :: rest => t.perform idEdge now rest
  | .toCore response :: rest =>
    (t.perform idEdge now rest).map (fun out => (out.1, response :: out.2))
  | .record isUpdated success :: _ =>
    (t.record idEdge now isUpdated success).map (fun out => (out.1, sends out.2))

/-- The task after an input, and what it has sent; `none` is a panic. -/
def handle (idEdge : String) (now : Int64) (t : Task) :
    Input → Option (Task × List FirmwareServiceResponse)
  | .update msg version ids =>
    (t.clear.openSession idEdge now msg ids version).map (fun out => (out.1, sends out.2))
  | .hubResponse msg => t.perform idEdge now (t.handleHubResponse msg)
  | .timeout => t.perform idEdge now handleTimeout

end Task

/-! ## The ledger -/

/-- The network of an answer to the server. -/
def answerOf : FirmwareServiceResponse → Option String
  | .serverAck (.firmwareOutcome msg) => some msg.network
  | .serverAck (.firmwareOutcomeError msg) => some msg.network
  | _ => none

def answers (responses : List FirmwareServiceResponse) : List (Entry String) :=
  (responses.filterMap answerOf).map .answer

/-- The order that an input brings. -/
def Input.orders : Input → List (Entry String)
  | .update msg _ _ => [.order msg.network]
  | _ => []

/-- The task, and the orders and answers so far. -/
structure Books where
  task : Task
  log : List (Entry String)
  deriving Repr

namespace Books

def start : Books := ⟨Task.new, []⟩

/-- An input is handled at a time. -/
def step (idEdge : String) (s : Books) (i : Int64 × Input) : Option Books :=
  (s.task.handle idEdge i.1 i.2).map fun out =>
    { task := out.1, log := s.log ++ i.2.orders ++ answers out.2 }

def machine (idEdge : String) : Machine Books (Int64 × Input) where
  init := fun s => s = start
  step := step idEdge

/-- An order is taken while no session is open, and if its version cannot be fetched, it is
for the network of the last order that got that far. -/
def InTurn (s : Books) (i : Int64 × Input) : Prop :=
  match i.2 with
  | .update msg version _ =>
    s.task.state = .sleeping ∧ (version = none → s.task.network = msg.network)
  | _ => True

instance (s : Books) (i : Int64 × Input) : Decidable (s.InTurn i) :=
  match i with
  | (_, .update msg version _) => inferInstanceAs (Decidable
      (s.task.state = .sleeping ∧ (version = none → s.task.network = msg.network)))
  | (_, .hubResponse _) => inferInstanceAs (Decidable True)
  | (_, .timeout) => inferInstanceAs (Decidable True)

end Books

/-! ## What a handler does -/

/-- What an input makes of the task, and the networks that it answers. -/
inductive Handles (t : Task) : Input → Task → List String → Prop where
  | ignored {i : Input} (h : i.orders = []) : Handles t i t []
  | asked {i : Input} {t' : Task} (h : i.orders = []) (hw : t.state = .working)
      (hw' : t'.state = .working) (hn : t'.network = t.network) : Handles t i t' []
  | ended {i : Input} {t' : Task} (h : i.orders = []) (hw : t.state = .working)
      (hs : t'.state = .sleeping) : Handles t i t' [t.network]
  | opened {msg : UpdateFirmware} {version : String} {ids : List String} {t' : Task}
      (hw : t'.state = .working) (hn : t'.network = msg.network) :
      Handles t (.update msg (some version) ids) t' []
  | refused {msg : UpdateFirmware} {version : String} {ids : List String} {t' : Task}
      (hs : t'.state = .sleeping) :
      Handles t (.update msg (some version) ids) t' [msg.network]
  | failed {msg : UpdateFirmware} {ids : List String} {t' : Task}
      (hs : t'.state = .sleeping) : Handles t (.update msg none ids) t' [t.network]

section Handlers

variable {idEdge : String} {now : Int64} {t t' : Task} {i : Input}
  {responses : List FirmwareServiceResponse}

/-- A message to a hub answers nothing. -/
theorem answerOf_generateMessageToHub {ops : List Op}
    (h : t.generateMessageToHub idEdge now = some ops) : (sends ops).filterMap answerOf = [] := by
  unfold Task.generateMessageToHub at h
  obtain ⟨hub, -, rfl⟩ := Option.map_eq_some_iff.mp h
  rfl

/-! Only `handleHubResponse` and `handleTimeout` leave something to be written. -/

theorem noRecord_generateMessageToHub {ops : List Op}
    (h : t.generateMessageToHub idEdge now = some ops) (a b : Bool) : .record a b ∉ ops := by
  unfold Task.generateMessageToHub at h
  obtain ⟨hub, -, rfl⟩ := Option.map_eq_some_iff.mp h
  simp

theorem noRecord_openSession {msg : UpdateFirmware} {version : Option String}
    {ids : List String} {ops : List Op}
    (h : t.openSession idEdge now msg ids version = some (t', ops)) (a b : Bool) :
    .record a b ∉ ops := by
  obtain ⟨-, error, hrefused⟩ | ⟨v, -, -, error, hrefused⟩ | ⟨v, -, -, -, hasks⟩ :=
    openSession_cases h
  · obtain ⟨-, rfl⟩ := Prod.mk.inj hrefused
    simp
  · obtain ⟨-, rfl⟩ := Prod.mk.inj hrefused
    simp
  · exact noRecord_generateMessageToHub hasks a b

theorem noRecord_record {isUpdated success : Bool} {ops : List Op}
    (h : t.record idEdge now isUpdated success = some (t', ops)) (a b : Bool) :
    .record a b ∉ ops := by
  obtain ⟨hub, -, ⟨-, -, hasks⟩ | ⟨-, -, rfl⟩⟩ := record_cases h
  · exact noRecord_generateMessageToHub hasks a b
  · simp

/-- What is written belongs to an open session, and the session goes on or is answered. -/
theorem handles_record {ops : List Op} {isUpdated success : Bool} (h : t.InStep)
    (hi : i.orders = []) (hr : t.record idEdge now isUpdated success = some (t', ops)) :
    Handles t i t' ((sends ops).filterMap answerOf) ∧ t'.InStep := by
  obtain ⟨hub, hhub, ⟨hlt, rfl, hasks⟩ | ⟨hle, rfl, rfl⟩⟩ := record_cases hr
  · have hw : t.state = .working := h.mpr (List.getElem?_eq_some_iff.mp hhub).1
    rw [answerOf_generateMessageToHub hasks]
    exact ⟨Handles.asked hi hw hw rfl, iff_of_true hw (by simpa [Task.write] using hlt)⟩
  · have hw : t.state = .working := h.mpr (List.getElem?_eq_some_iff.mp hhub).1
    exact ⟨Handles.ended hi hw rfl, iff_of_false (by simp) (by simpa [Task.write] using hle)⟩

theorem handles_update {msg : UpdateFirmware} {version : Option String} {ids : List String}
    {ops : List Op}
    (h : t.clear.openSession idEdge now msg ids version = some (t', ops)) :
    Handles t (.update msg version ids) t' ((sends ops).filterMap answerOf) ∧ t'.InStep := by
  obtain ⟨out, hout, hstep⟩ :=
    openSession_spec idEdge (t := t.clear) rfl rfl rfl now msg ids version
  rw [h] at hout
  obtain rfl := Option.some.inj hout
  refine ⟨?_, hstep⟩
  obtain ⟨rfl, error, hrefused⟩ | ⟨v, rfl, -, error, hrefused⟩ | ⟨v, rfl, -, rfl, hasks⟩ :=
    openSession_cases h
  · obtain ⟨rfl, rfl⟩ := Prod.mk.inj hrefused
    exact Handles.failed rfl
  · obtain ⟨rfl, rfl⟩ := Prod.mk.inj hrefused
    exact Handles.refused rfl
  · rw [answerOf_generateMessageToHub hasks]
    exact Handles.opened rfl rfl

/-- A handler that stops the watchdog and writes. -/
theorem handles_perform {isUpdated success : Bool} (h : t.InStep) (hi : i.orders = [])
    (hs : t.perform idEdge now [.toTimer .stopTimer, .record isUpdated success] =
      some (t', responses)) :
    Handles t i t' (responses.filterMap answerOf) ∧ t'.InStep := by
  unfold Task.perform Task.perform at hs
  obtain ⟨⟨task, ops⟩, hr, hout⟩ := Option.map_eq_some_iff.mp hs
  obtain ⟨rfl, rfl⟩ := Prod.mk.inj hout
  exact handles_record h hi hr

/-- The answer of a hub is passed over, or it stops the watchdog and is written. -/
theorem handleHubResponse_cases (t : Task) (msg : FirmwareOk) :
    t.handleHubResponse msg = [] ∨ t.handleHubResponse msg =
      [.toTimer .stopTimer, .record msg.isUpdated msg.success] := by
  unfold Task.handleHubResponse
  split
  · split
    · split
      · exact Or.inr rfl
      · exact Or.inl rfl
    · exact Or.inl rfl
  · exact Or.inl rfl

theorem handles (h : t.InStep) (hs : t.handle idEdge now i = some (t', responses)) :
    Handles t i t' (responses.filterMap answerOf) ∧ t'.InStep := by
  cases i with
  | update msg version ids =>
    obtain ⟨⟨task, ops⟩, hopen, hout⟩ := Option.map_eq_some_iff.mp hs
    obtain ⟨rfl, rfl⟩ := Prod.mk.inj hout
    exact handles_update hopen
  | hubResponse msg =>
    change t.perform idEdge now (t.handleHubResponse msg) = _ at hs
    rcases handleHubResponse_cases t msg with hops | hops
    · rw [hops] at hs
      obtain ⟨rfl, rfl⟩ := Prod.mk.inj (Option.some.inj hs)
      exact ⟨Handles.ignored rfl, h⟩
    · rw [hops] at hs
      exact handles_perform h rfl hs
  | timeout => exact handles_perform h rfl hs

end Handlers

/-! ## The law -/

namespace Books

section Law

variable {idEdge : String} {t : List (Books × Int64 × Input)} {s s' : Books} {i : Int64 × Input}

/-- All orders are answered but the one whose session is open. -/
def Settled (s : Books) : Prop :=
  ∃ l, Matched l ∧
    s.log = l ++ if s.task.state = .working then [.order s.task.network] else []

/-- An answer has gone to another network, or an order has lost its session. -/
def Spoiled (s : Books) : Prop :=
  (∃ l j k r, Matched l ∧ j ≠ k ∧ s.log = l ++ [.order j, .answer k] ++ r) ∨
    (if s.task.state = .working then 2 else 1) ≤ due (fun _ => true) s.log

theorem inTurn_of_orders_nil (s : Books) (now : Int64) {input : Input}
    (h : input.orders = []) : s.InTurn (now, input) := by
  cases input with
  | update msg version ids => cases h
  | hubResponse msg => trivial
  | timeout => trivial

theorem matched_of_settled (h : s.Settled) (hs : s.task.state = .sleeping) : Matched s.log := by
  obtain ⟨l, hl, hlog⟩ := h
  rw [hlog, hs, if_neg (by decide), List.append_nil]
  exact hl

theorem not_matched_of_spoiled (h : s.Spoiled) : ¬ Matched s.log := by
  rcases h with ⟨l, j, k, r, hl, hjk, hlog⟩ | hdue
  · rw [hlog]
    exact hl.not_of_foreign hjk r
  · intro hm
    rw [hm.due_eq] at hdue
    split at hdue <;> omega

/-- A step is a handler, and the ledger gets what it takes and answers. -/
theorem step_cases (h : s.task.InStep) (hs : (machine idEdge).step s i = some s') :
    ∃ names, Handles s.task i.2 s'.task names ∧ s'.task.InStep ∧
      s'.log = s.log ++ i.2.orders ++ names.map .answer := by
  obtain ⟨⟨task, responses⟩, hhandle, rfl⟩ := Option.map_eq_some_iff.mp hs
  obtain ⟨hdoes, hstep⟩ := handles h hhandle
  exact ⟨_, hdoes, hstep, rfl⟩

theorem settled_step (h : s.Settled) (hok : s.InTurn i) {names : List String}
    (hdoes : Handles s.task i.2 s'.task names)
    (hlog : s'.log = s.log ++ i.2.orders ++ names.map .answer) : s'.Settled := by
  obtain ⟨now, input⟩ := i
  obtain ⟨l, hl, hold⟩ := h
  unfold Settled
  generalize s'.task = task' at hdoes ⊢
  cases hdoes with
  | ignored hi => exact ⟨l, hl, by simpa [hi, hold] using hlog⟩
  | asked hi hw hw' hn =>
    exact ⟨l, hl, by simpa [hi, hold, hw, hw', hn] using hlog⟩
  | ended hi hw hsleep =>
    exact ⟨_, hl.answered s.task.network, by simpa [hi, hold, hw, hsleep] using hlog⟩
  | opened hw hn =>
    obtain ⟨hsleep, -⟩ := hok
    exact ⟨l, hl, by simpa [hold, hsleep, hw, hn, Input.orders] using hlog⟩
  | @refused msg _ _ _ hs' =>
    obtain ⟨hsleep, -⟩ := hok
    exact ⟨_, hl.answered msg.network, by simpa [hold, hsleep, hs', Input.orders] using hlog⟩
  | @failed msg _ _ hs' =>
    obtain ⟨hsleep, hsame⟩ := hok
    exact ⟨_, hl.answered msg.network,
      by simpa [hold, hsleep, hs', hsame rfl, Input.orders] using hlog⟩

/-- An order too many is never answered. -/
theorem due_step (h : (if s.task.state = .working then 2 else 1) ≤ due (fun _ => true) s.log)
    {names : List String} (hdoes : Handles s.task i.2 s'.task names)
    (hlog : s'.log = s.log ++ i.2.orders ++ names.map .answer) :
    (if s'.task.state = .working then 2 else 1) ≤ due (fun _ => true) s'.log := by
  obtain ⟨now, input⟩ := i
  have hone : 1 ≤ due (fun _ => true) s.log := by
    split at h <;> omega
  rw [hlog, due_append, due_append]
  generalize s'.task = task' at hdoes ⊢
  cases hdoes with
  | ignored hi => simpa [hi] using h
  | asked hi hw hw' hn => simpa [hi, hw, hw'] using h
  | ended hi hw hs =>
    simp only [hw, if_true] at h
    simp [hi, hs]
    omega
  | opened hw hn =>
    simp [hw, Input.orders]
    omega
  | refused hs => simpa [hs, Input.orders] using hone
  | failed hs => simpa [hs, Input.orders] using hone

theorem spoiled_step (h : s.Spoiled) {names : List String}
    (hdoes : Handles s.task i.2 s'.task names)
    (hlog : s'.log = s.log ++ i.2.orders ++ names.map .answer) : s'.Spoiled := by
  rcases h with ⟨l, j, k, r, hl, hjk, hold⟩ | hdue
  · refine Or.inl ⟨l, j, k, r ++ (i.2.orders ++ names.map .answer), hl, hjk, ?_⟩
    rw [hlog, hold]
    simp
  · exact Or.inr (due_step hdue hdoes hlog)

/-- The first order that breaks the rule spoils the ledger. -/
theorem spoil_step (h : s.Settled) (hbad : ¬ s.InTurn i) {names : List String}
    (hdoes : Handles s.task i.2 s'.task names)
    (hlog : s'.log = s.log ++ i.2.orders ++ names.map .answer) : s'.Spoiled := by
  obtain ⟨now, input⟩ := i
  obtain ⟨l, hl, hold⟩ := h
  cases input with
  | hubResponse msg => exact absurd trivial hbad
  | timeout => exact absurd trivial hbad
  | update msg version ids =>
    by_cases hw : s.task.state = .working
    · -- the order takes the place of the one whose session is open
      have hdue : due (fun _ => true) s.log = 1 := by
        rw [hold, if_pos hw, due_append, hl.due_eq]
        rfl
      refine Or.inr ?_
      rw [hlog, due_append, due_append, hdue]
      generalize s'.task = task' at hdoes ⊢
      cases hdoes with
      | ignored hi => cases hi
      | asked hi => cases hi
      | ended hi => cases hi
      | opened hw' hn => simp [hw', Input.orders]
      | refused hs => simp [hs, Input.orders]
      | failed hs => simp [hs, Input.orders]
    · -- its version cannot be fetched, and the answer names another network
      have hsleep : s.task.state = .sleeping := by
        cases hstate : s.task.state with
        | sleeping => rfl
        | working => exact absurd hstate hw
      rw [if_neg hw, List.append_nil] at hold
      have hfetch : ¬ (version = none → s.task.network = msg.network) :=
        fun hsame => hbad ⟨hsleep, hsame⟩
      rw [Classical.not_imp] at hfetch
      obtain ⟨rfl, hne⟩ := hfetch
      generalize s'.task = task' at hdoes
      cases hdoes with
      | ignored hi => cases hi
      | asked hi => cases hi
      | ended hi => cases hi
      | failed hs =>
        refine Or.inl ⟨l, msg.network, s.task.network, [], hl, Ne.symm hne, ?_⟩
        rw [hlog, hold]
        simp [Input.orders]

/-- Up to the first order that breaks the rule the ledger is settled, from there on it is
spoiled. -/
theorem settled_or_spoiled (r : (machine idEdge).Run t s) :
    s.task.InStep ∧
      ((Machine.Meets InTurn t ∧ s.Settled) ∨ (¬ Machine.Meets InTurn t ∧ s.Spoiled)) := by
  refine r.history (fun t s => s.task.InStep ∧
    ((Machine.Meets InTurn t ∧ s.Settled) ∨ (¬ Machine.Meets InTurn t ∧ s.Spoiled))) ?_ ?_
  · rintro s rfl
    exact ⟨iff_of_false (by simp [start, Task.new]) (by simp [start, Task.new]),
      Or.inl ⟨Machine.meets_nil _, [], Matched.nil, rfl⟩⟩
  · rintro t s i s' ⟨hin, hbooks⟩ hs
    obtain ⟨names, hdoes, hin', hlog⟩ := step_cases hin hs
    refine ⟨hin', ?_⟩
    rw [Machine.meets_snoc]
    rcases hbooks with ⟨hmeets, hsettled⟩ | ⟨hmeets, hspoiled⟩
    · by_cases hok : s.InTurn i
      · exact Or.inl ⟨⟨hmeets, hok⟩, settled_step hsettled hok hdoes hlog⟩
      · exact Or.inr ⟨fun hall => hok hall.2, spoil_step hsettled hok hdoes hlog⟩
    · exact Or.inr ⟨fun hall => hmeets hall.1, spoiled_step hspoiled hdoes hlog⟩

theorem matched_iff (r : (machine idEdge).Run t s) (hend : s.task.state = .sleeping) :
    Matched s.log ↔ Machine.Meets InTurn t := by
  rcases (settled_or_spoiled r).2 with ⟨hmeets, hsettled⟩ | ⟨hmeets, hspoiled⟩
  · exact iff_of_true (matched_of_settled hsettled hend) hmeets
  · exact iff_of_false (not_matched_of_spoiled hspoiled) hmeets

end Law

/-- When no session is open, each order has been answered once and for its network exactly
if each was taken while no session was open and none that failed was for another network. -/
theorem each_order_has_its_answer (idEdge : String) (t : List (Books × Int64 × Input))
    (s : Books) (r : (machine idEdge).Run t s) (hend : s.task.state = .sleeping) :
    Matched s.log ↔ Machine.Meets InTurn t :=
  matched_iff r hend

/-! ## The runtime -/

end Books

namespace Ota

/-- What a step writes into the ledger: an order that the task takes, an answer that it
sends. -/
def entries (s : Ota) : Label → List (Entry String)
  | .takeMsg =>
    match s.selecting, s.msgs with
    | true, .update msg :: _ => [.order msg.network]
    | _, _ => []
  | .work _ =>
    match s.ops with
    | .toCore response :: _ => answers [response]
    | _ => []
  | _ => []

def log (t : List (Ota × Label)) : List (Entry String) := t.flatMap (fun p => p.1.entries p.2)

/-- The rule of the orders, where the runtime takes an order and where its fetch fails. -/
def InTurn (s : Ota) : Label → Prop
  | .takeMsg =>
    match s.selecting, s.msgs with
    | true, .update _ :: _ => s.task.state = .sleeping
    | _, _ => True
  | .fetched none _ _ => ∀ msg ∈ s.fetching, s.task.network = msg.network
  | _ => True

/-- How far the task is in a handler: it sends what is left, or it has still to write. -/
inductive Phase (idEdge : String) (t : Task) : List Op → Prop where
  | sending {ops : List Op} (h : ∀ a b, .record a b ∉ ops) : Phase idEdge t ops
  | writing {ops : List Op} (i : Input) (isUpdated success : Bool) (hi : i.orders = [])
      (hops : ops = [.toTimer .stopTimer, .record isUpdated success] ∨
        ops = [.record isUpdated success])
      (h : ∀ now, t.handle idEdge now i =
        (t.record idEdge now isUpdated success).map (fun out => (out.1, sends out.2))) :
      Phase idEdge t ops

/-- The runtime beside the books that its inputs make, one handler at a time. While a
version is fetched, the books have still to take the order. -/
structure Follows (idEdge : String) (t : List (Ota × Label)) (s : Ota)
    (u : List (Books × Int64 × Input)) (b : Books) : Prop where
  run : (Books.machine idEdge).Run u b
  fetching : ∀ msg, s.fetching = some msg → s.ops = [] ∧ s.task = b.task.clear ∧
    log t = b.log ++ [.order msg.network] ∧
    (Machine.Meets InTurn t ↔ Machine.Meets Books.InTurn u ∧ b.task.state = .sleeping)
  handling : s.fetching = none → s.task = b.task ∧ Phase idEdge s.task s.ops ∧
    log t ++ answers (sends s.ops) = b.log ∧
    (Machine.Meets InTurn t ↔ Machine.Meets Books.InTurn u)

section Runtime

variable {idEdge : String} {t : List (Ota × Label)} {s s' : Ota} {i : Label}
  {u : List (Books × Int64 × Input)} {b : Books}

theorem log_snoc (t : List (Ota × Label)) (s : Ota) (i : Label) :
    log (t ++ [(s, i)]) = log t ++ s.entries i := by
  simp [log]

theorem follows_start (manager : NetworkManager) :
    Follows idEdge [] (start manager) [] Books.start where
  run := .start rfl
  fetching := by
    intro msg hf
    cases hf
  handling := by
    intro _
    exact ⟨rfl, .sending (by simp [start]), rfl,
      iff_of_true (Machine.meets_nil _) (Machine.meets_nil _)⟩

/-- A step that leaves the handler where it is. -/
theorem follows_frame (h : Follows idEdge t s u b) (htask : s'.task = s.task)
    (hfetching : s'.fetching = s.fetching) (hops : s'.ops = s.ops) (hentries : s.entries i = [])
    (hturn : s.InTurn i) : Follows idEdge (t ++ [(s, i)]) s' u b where
  run := h.run
  fetching := by
    rw [log_snoc, hentries, List.append_nil, Machine.meets_snoc, and_iff_left hturn, htask,
      hfetching, hops]
    exact h.fetching
  handling := by
    rw [log_snoc, hentries, List.append_nil, Machine.meets_snoc, and_iff_left hturn, htask,
      hfetching, hops]
    exact h.handling

/-- A handler that begins, with what it has still to do. -/
theorem follows_begin (h : Follows idEdge t s u b) (hsel : s.selecting = true)
    (htask : s'.task = s.task) (hfetching : s'.fetching = s.fetching)
    (hphase : Phase idEdge s.task s'.ops) (hnone : answers (sends s'.ops) = [])
    (hentries : s.entries i = []) (hturn : s.InTurn i) :
    Follows idEdge (t ++ [(s, i)]) s' u b where
  run := h.run
  fetching := by
    intro msg hf
    rw [hfetching, (selecting_iff.mp hsel).1] at hf
    cases hf
  handling := by
    intro hf
    obtain ⟨hfnone, hops⟩ := selecting_iff.mp hsel
    obtain ⟨hsame, -, hlog, hmeets⟩ := h.handling hfnone
    rw [hops] at hlog
    rw [log_snoc, hentries, Machine.meets_snoc, and_iff_left hturn, htask, hnone]
    exact ⟨hsame, hphase, by simpa [answers, sends] using hlog, hmeets⟩

/-- The answer of a hub that is passed over or is to be written. -/
theorem phase_handleHubResponse (idEdge : String) (task : Task) (msg : FirmwareOk) :
    Phase idEdge task (task.handleHubResponse msg) ∧
      answers (sends (task.handleHubResponse msg)) = [] := by
  have hdoes : ∀ now, task.handle idEdge now (.hubResponse msg) =
      task.perform idEdge now (task.handleHubResponse msg) := fun now => rfl
  rcases handleHubResponse_cases task msg with hops | hops
  · rw [hops]
    exact ⟨.sending (by simp), rfl⟩
  · rw [hops] at hdoes ⊢
    exact ⟨.writing (.hubResponse msg) _ _ rfl (Or.inl rfl) hdoes, rfl⟩

theorem follows_takeMsg (h : Follows idEdge t s u b) (hs : s.takeMsg = some s') :
    Follows idEdge (t ++ [(s, .takeMsg)]) s' u b := by
  unfold Ota.takeMsg at hs
  rcases hsel : s.selecting with _ | _
  · simp [hsel] at hs
  · rcases hm : s.msgs with _ | ⟨cmd, rest⟩
    · simp [hsel, hm] at hs
    · cases cmd with
      | update msg =>
        simp only [hsel, hm, Option.some.injEq] at hs
        subst hs
        obtain ⟨hf, hops⟩ := selecting_iff.mp hsel
        obtain ⟨htask, -, hlog, hmeets⟩ := h.handling hf
        refine ⟨h.run, fun msg' hmsg => ?_, fun hnone => absurd hnone (by simp)⟩
        obtain rfl := Option.some.inj hmsg
        refine ⟨hops, by rw [← htask], ?_, ?_⟩
        · rw [hops] at hlog
          rw [log_snoc, ← hlog]
          simp [entries, hsel, hm, answers, sends]
        · rw [Machine.meets_snoc, hmeets, ← htask]
          simp [InTurn, hsel, hm]
      | hubResponse msg =>
        simp only [hsel, hm, Option.some.injEq] at hs
        subst hs
        obtain ⟨hphase, hnone⟩ := phase_handleHubResponse idEdge s.task msg
        exact follows_begin h hsel rfl rfl hphase hnone (by simp [entries, hsel, hm])
          (by simp [InTurn, hsel, hm])
      | _ =>
        simp only [hsel, hm, Option.some.injEq] at hs
        subst hs
        exact follows_frame h rfl rfl rfl (by simp [entries, hsel, hm])
          (by simp [InTurn, hsel, hm])

theorem follows_takeTimer (h : Follows idEdge t s u b) (hs : s.takeTimer = some s') :
    Follows idEdge (t ++ [(s, .takeTimer)]) s' u b := by
  unfold Ota.takeTimer at hs
  rcases hsel : s.selecting with _ | _
  · simp [hsel] at hs
  · rcases hm : s.fromTimer with _ | ⟨event, rest⟩
    · simp [hsel, hm] at hs
    · cases event with
      | timeout =>
        simp only [hsel, hm, Option.some.injEq] at hs
        subst hs
        exact follows_begin h hsel rfl rfl
          (.writing .timeout false false rfl (Or.inl rfl) (fun now => rfl)) rfl rfl trivial
      | _ =>
        simp only [hsel, hm, Option.some.injEq] at hs
        subst hs
        exact follows_frame h rfl rfl rfl rfl trivial

theorem follows_fetched {now : Int64} {version : Option String} {ids : List String}
    (h : Follows idEdge t s u b) (hs : s.fetched idEdge now version ids = some s') :
    ∃ u' b', Follows idEdge (t ++ [(s, .fetched version ids now)]) s' u' b' := by
  unfold Ota.fetched at hs
  rcases hf : s.fetching with _ | msg
  · simp [hf] at hs
  · obtain ⟨hops, htask, hlog, hmeets⟩ := h.fetching msg hf
    obtain ⟨⟨task, ops⟩, hout, -⟩ :=
      openSession_spec idEdge (t := b.task.clear) rfl rfl rfl now msg ids version
    simp only [hf, htask, hout, Option.ite_none_right_eq_some, Option.some.injEq] at hs
    obtain ⟨-, rfl⟩ := hs
    have hmove : (Books.machine idEdge).step b (now, .update msg version ids) =
        some ⟨task, b.log ++ [.order msg.network] ++ answers (sends ops)⟩ := by
      change (b.task.handle idEdge now (.update msg version ids)).map _ = _
      simp only [Task.handle, hout, Option.map_some, Input.orders]
    refine ⟨_, _, h.run.move hmove, fun msg' hnone => absurd hnone (by simp [proceed]),
      fun _ => ?_⟩
    refine ⟨rfl, .sending (noRecord_openSession hout), ?_, ?_⟩
    · rw [log_snoc, hlog]
      simp [entries, proceed]
    · rw [Machine.meets_snoc, Machine.meets_snoc, hmeets, and_assoc]
      refine and_congr_right (fun _ => ?_)
      cases version with
      | none => simp [InTurn, Books.InTurn, hf, htask, Task.clear]
      | some version => simp [InTurn, Books.InTurn]

theorem follows_work {now : Int64} (h : Follows idEdge t s u b)
    (hs : s.work idEdge now = some s') :
    ∃ u' b', Follows idEdge (t ++ [(s, .work now)]) s' u' b' := by
  have hidle : s.ops ≠ [] → s.fetching = none := by
    intro hne
    by_contra hf
    obtain ⟨msg, hmsg⟩ := Option.ne_none_iff_exists'.mp hf
    exact hne (h.fetching msg hmsg).1
  unfold Ota.work at hs
  rcases ho : s.ops with _ | ⟨event | response | ⟨isUpdated, success⟩, rest⟩ <;>
    simp only [ho, Option.ite_none_right_eq_some, Option.some.injEq, reduceCtorEq] at hs
  · obtain ⟨-, rfl⟩ := hs
    have hf := hidle (by simp [ho])
    obtain ⟨htask, hphase, hlog, hmeets⟩ := h.handling hf
    refine ⟨u, b, h.run, fun msg hmsg => absurd hmsg (by simp [hf]), fun _ => ?_⟩
    rw [log_snoc, Machine.meets_snoc, and_iff_left (show s.InTurn (.work now) from trivial)]
    refine ⟨htask, ?_, by simpa [entries, ho, sends] using hlog, hmeets⟩
    rw [ho] at hphase
    cases hphase with
    | sending hno => exact .sending (fun a c hmem => hno a c (List.mem_cons_of_mem _ hmem))
    | writing input a c hi hops hdoes =>
      rcases hops with hops | hops
      · obtain ⟨-, rfl⟩ := List.cons.inj hops
        exact .writing input a c hi (Or.inr rfl) hdoes
      · cases hops
  · obtain ⟨-, rfl⟩ := hs
    have hf := hidle (by simp [ho])
    obtain ⟨htask, hphase, hlog, hmeets⟩ := h.handling hf
    refine ⟨u, b, h.run, fun msg hmsg => absurd hmsg (by simp [hf]), fun _ => ?_⟩
    rw [log_snoc, Machine.meets_snoc, and_iff_left (show s.InTurn (.work now) from trivial)]
    refine ⟨htask, ?_, ?_, hmeets⟩
    · rw [ho] at hphase
      cases hphase with
      | sending hno => exact .sending (fun a c hmem => hno a c (List.mem_cons_of_mem _ hmem))
      | writing input a c hi hops hdoes => rcases hops with hops | hops <;> cases hops
    · rw [ho] at hlog
      rw [← hlog, List.append_assoc]
      cases ha : answerOf response <;> simp [entries, ho, answers, sends, ha]
  · have hf := hidle (by simp [ho])
    obtain ⟨htask, hphase, hlog, hmeets⟩ := h.handling hf
    rw [ho] at hphase
    cases hphase with
    | sending hno => exact absurd List.mem_cons_self (hno isUpdated success)
    | writing input a c hi hops hdoes =>
      rcases hops with hops | hops
      · cases hops
      · obtain ⟨hop, rfl⟩ := List.cons.inj hops
        obtain ⟨rfl, rfl⟩ := Op.record.inj hop
        rcases hr : s.task.record idEdge now isUpdated success with _ | ⟨task, ops⟩
        · rw [hr] at hs
          subst hs
          exact ⟨u, b, follows_frame h rfl rfl rfl (by simp [entries, ho]) trivial⟩
        · rw [hr] at hs
          subst hs
          have hmove : (Books.machine idEdge).step b (now, input) =
              some ⟨task, b.log ++ answers (sends ops)⟩ := by
            change (b.task.handle idEdge now input).map _ = _
            rw [← htask, hdoes now, hr]
            simp [hi]
          refine ⟨_, _, h.run.move hmove, fun msg hmsg => absurd hmsg (by simp [proceed, hf]),
            fun _ => ⟨rfl, .sending (noRecord_record hr), ?_, ?_⟩⟩
          · rw [log_snoc, ← hlog, ho]
            simp [entries, ho, proceed, sends, answers]
          · rw [Machine.meets_snoc, Machine.meets_snoc, hmeets,
              and_iff_left (show s.InTurn (.work now) from trivial),
              and_iff_left (Books.inTurn_of_orders_nil b now hi)]

/-- Each run of the runtime is followed by the books of what its task takes. -/
theorem exists_follows (r : (machine idEdge).Run t s) : ∃ u b, Follows idEdge t s u b := by
  refine r.history (fun t s => ∃ u b, Follows idEdge t s u b) ?_ ?_
  · rintro s ⟨manager, rfl⟩
    exact ⟨[], _, follows_start manager⟩
  · rintro t s i s' ⟨u, b, h⟩ hs
    change step idEdge s i = some s' at hs
    unfold step at hs
    rw [Option.ite_none_left_eq_some] at hs
    obtain ⟨-, hs⟩ := hs
    cases i with
    | command cmd =>
      simp only [Option.ite_none_right_eq_some, Option.some.injEq] at hs
      obtain ⟨-, rfl⟩ := hs
      exact ⟨u, b, follows_frame h rfl rfl rfl rfl trivial⟩
    | change c =>
      obtain rfl := Option.some.inj hs
      exact ⟨u, b, follows_frame h rfl rfl rfl rfl trivial⟩
    | takeMsg => exact ⟨u, b, follows_takeMsg h hs⟩
    | fetched version ids now => exact follows_fetched h hs
    | takeTimer => exact ⟨u, b, follows_takeTimer h hs⟩
    | work now => exact follows_work h hs
    | takeResponse =>
      rcases hq : s.responses with _ | ⟨response, rest⟩ <;>
        simp only [Ota.takeResponse, hq, Option.some.injEq, reduceCtorEq] at hs
      subst hs
      exact ⟨u, b, follows_frame h rfl rfl rfl rfl trivial⟩
    | watchdog =>
      rcases hq : s.toTimer with _ | ⟨event, rest⟩ <;>
        simp only [Ota.watchdog, hq, Option.map_eq_some_iff, reduceCtorEq] at hs
      obtain ⟨timer, -, rfl⟩ := hs
      exact ⟨u, b, follows_frame h rfl rfl rfl rfl trivial⟩
    | expire =>
      obtain ⟨out, -, rfl⟩ := Option.map_eq_some_iff.mp hs
      exact ⟨u, b, follows_frame h rfl rfl rfl rfl trivial⟩

/-- The same law for the runtime, whenever its task waits with no session open. -/
theorem the_runtime_answers_its_orders (r : (machine idEdge).Run t s)
    (hsel : s.selecting = true) (hend : s.task.state = .sleeping) :
    Matched (log t) ↔ Machine.Meets InTurn t := by
  obtain ⟨u, b, h⟩ := exists_follows r
  obtain ⟨hf, hops⟩ := selecting_iff.mp hsel
  obtain ⟨htask, -, hlog, hmeets⟩ := h.handling hf
  have hall : log t = b.log := by
    rw [hops] at hlog
    simpa [answers, sends] using hlog
  rw [hall, hmeets]
  exact Books.matched_iff h.run (htask ▸ hend)

end Runtime

end Ota

namespace Books

/-! ## Concrete orders -/

/-- An order for a network with one hub, which answers. -/
def oneOrder : List (Int64 × Input) :=
  [(default, .update (updateOf "n") (some "1.0.0") ["h"]), (default, .hubResponse (updatedBy "h"))]

def served : Books := ((machine "edge").final start oneOrder).get (by decide +kernel)

theorem one_order_has_its_answer :
    Matched served.log ∧ served.log = [.order "n", .answer "n"] := by
  have hrun := Machine.run_of_final (m := machine "edge") oneOrder rfl (by decide +kernel)
  exact ⟨(each_order_has_its_answer "edge" _ served hrun (by decide +kernel)).mpr
    (by decide +kernel), by decide +kernel⟩

/-- A second order, for a network without hubs, before the hub of the first has answered. -/
def twoOrders : List (Int64 × Input) :=
  [(default, .update (updateOf "n") (some "1.0.0") ["h"]),
    (default, .update (updateOf "m") (some "1.0.0") [])]

/-- The first order is never answered. -/
theorem an_order_takes_the_place_of_another :
    ¬ ∀ (idEdge : String) (t : List (Books × Int64 × Input)) (s : Books),
      (machine idEdge).Run t s → s.task.state = .sleeping → Matched s.log := by
  intro h
  have hrun := Machine.run_of_final (m := machine "edge") twoOrders rfl (by decide +kernel)
  have hdue := (h _ _ _ hrun (by decide +kernel)).due_eq (fun _ => true)
  revert hdue
  decide +kernel

end Books

end EdgeGateway.Firmware
