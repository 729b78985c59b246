-- One firmware session. The hubs are asked one after the other, each has its turn until it
-- answers or its countdown ends, and the outcome counts what they said in their turns.
import EdgeGateway.Firmware.Orders
import Mathlib.Algebra.Field.Rat

namespace EdgeGateway.Firmware

open EdgeGateway.Lib EdgeGateway.Message EdgeGateway.Networks

/-! ## Turns -/

/-- What an input says of the hub whose turn it is: its answer, or its silence. -/
def Input.verdict (id : String) : Input → Option (Bool × Bool)
  | .hubResponse msg =>
    if msg.metadata.senderUserId = id then some (msg.isUpdated, msg.success) else none
  | .timeout => some (false, false)
  | .update _ _ _ => none

/-- What became of the hubs, each in its turn. -/
def verdicts : List String → List (Int64 × Input) → List (Bool × Bool)
  | [], _ => []
  | _ :: _, [] => []
  | id :: ids, (_, i) :: rest =>
    match i.verdict id with
    | some verdict => verdict :: verdicts ids rest
    | none => verdicts (id :: ids) rest

theorem length_verdicts_le (ids : List String) (inputs : List (Int64 × Input)) :
    (verdicts ids inputs).length ≤ ids.length := by
  fun_induction verdicts ids inputs with
  | case1 inputs => simp
  | case2 id ids => simp
  | case3 id ids now i rest verdict hv ih => simpa using ih
  | case4 id ids now i rest hv ih => exact ih

/-- A hub that is updated, or had nothing to do. -/
def fine (verdict : Bool × Bool) : Bool := verdict.1 || verdict.2

/-- The share in percent, as `generate_outcome` computes it. -/
def share {α : Type} [Div α] [Mul α] (ofNat : Nat → α) (hundred : α) (counter total : Nat) : α :=
  (ofNat counter / ofNat total) * hundred

/-! ## The task over many inputs -/

namespace Task

/-- The task after the inputs, and all that it has sent; `none` is a panic. -/
def serve (idEdge : String) (t : Task) :
    List (Int64 × Input) → Option (Task × List FirmwareServiceResponse)
  | [] => some (t, [])
  | (now, i) :: rest =>
    match t.handle idEdge now i with
    | none => none
    | some (t', sent) => (t'.serve idEdge rest).map (fun out => (out.1, sent ++ out.2))

/-- No further order; and a timeout is of the countdown for the hub at the index, which is
started when the hub is asked, so the session is open. -/
def Permits (t : Task) : Input → Prop
  | .update _ _ _ => False
  | .hubResponse _ => True
  | .timeout => t.state = .working

def PermitsAll (idEdge : String) (t : Task) : List (Int64 × Input) → Prop
  | [] => True
  | (now, i) :: rest =>
    t.Permits i ∧
      match t.handle idEdge now i with
      | none => True
      | some (t', _) => t'.PermitsAll idEdge rest

end Task

/-- The hub that a message asks, for which network and with which version. -/
def asked : FirmwareServiceResponse → Option (String × String × String)
  | .hubCommand (.updateFirmwareRequest msg) =>
    some (msg.metadata.destinationId, msg.network, msg.version)
  | _ => none

/-- The network and the share of an outcome. -/
def outcomeOf : FirmwareServiceResponse → Option (String × F32)
  | .serverAck (.firmwareOutcome msg) => some (msg.network, msg.percentageOk)
  | _ => none

/-! ## The open session -/

/-- The session of these hubs, with the verdicts so far. -/
structure Session (ids : List String) (network version : String) (done : List (Bool × Bool))
    (t : Task) : Prop where
  hubs : t.processVector.map HubFirmwareStatus.id = ids
  index : t.index = done.length
  written : (t.processVector.take done.length).map (fun hub => (hub.isUpdated, hub.success)) = done
  state : t.state = if done.length < ids.length then .working else .sleeping
  network : t.network = network
  version : t.version = version

section Turns

variable {idEdge network version : String} {now : Int64} {ids : List String}
  {done : List (Bool × Bool)} {t : Task}

/-- The message that asks a hub. -/
def request (idEdge : String) (now : Int64) (network version id : String) :
    FirmwareServiceResponse :=
  .hubCommand (.updateFirmwareRequest { metadata := metadataTo idEdge id now, network, version })

/-- The message that ends a session. -/
def ending (idEdge : String) (now : Int64) (network : String) (done : List (Bool × Bool)) :
    FirmwareServiceResponse :=
  .serverAck (.firmwareOutcome
    { metadata := metadataTo idEdge "server0" now, network
      percentageOk := ⟨(share Float32.ofNat 100.0 (done.countP fine) done.length).toBits⟩ })

/-- What is sent when a turn ends: the next hub is asked, or the outcome is sent. -/
def next (idEdge : String) (now : Int64) (network version : String) (ids : List String)
    (done : List (Bool × Bool)) : FirmwareServiceResponse :=
  match ids[done.length]? with
  | some id => request idEdge now network version id
  | none => ending idEdge now network done

theorem Session.length_vector (h : Session ids network version done t) :
    t.processVector.length = ids.length := by
  rw [← h.hubs, List.length_map]

theorem sends_generateMessageToHub (idEdge : String) (now : Int64) {hub : HubFirmwareStatus}
    (h : t.processVector[t.index]? = some hub) :
    ∃ ops, t.generateMessageToHub idEdge now = some ops ∧
      sends ops = [request idEdge now t.network t.version hub.id] := by
  unfold Task.generateMessageToHub
  rw [h]
  exact ⟨_, rfl, rfl⟩

theorem map_id_set {vector : List HubFirmwareStatus} {i : Nat} {hub : HubFirmwareStatus}
    (h : vector[i]? = some hub) (isUpdated success : Bool) :
    (vector.set i { hub with isUpdated, success }).map HubFirmwareStatus.id =
      vector.map HubFirmwareStatus.id := by
  have hid : (vector.map HubFirmwareStatus.id)[i]? = some hub.id := by
    rw [List.getElem?_map, h]
    rfl
  obtain ⟨hlt, hid⟩ := List.getElem?_eq_some_iff.mp hid
  rw [List.map_set, ← hid, List.set_getElem_self]

theorem take_succ_set {α : Type} (l : List α) {i : Nat} (h : i < l.length) (x : α) :
    (l.set i x).take (i + 1) = l.take i ++ [x] := by
  rw [List.take_add_one, List.take_set_of_le (Nat.le_refl i), List.getElem?_set_self h]
  rfl

/-- A task that has written goes on with the next hub, or ends its session. -/
theorem session_advance (idEdge : String) (t : Task) (ids : List String)
    (done : List (Bool × Bool))
    (hubs : t.processVector.map HubFirmwareStatus.id = ids) (index : t.index = done.length)
    (written : (t.processVector.take done.length).map (fun hub => (hub.isUpdated, hub.success)) =
      done) (hw : t.state = .working) (now : Int64) :
    ∃ t' ops, t.advance idEdge now = some (t', ops) ∧
      Session ids t.network t.version done t' ∧
      sends ops = [next idEdge now t.network t.version ids done] := by
  have hlength : t.processVector.length = ids.length := by
    rw [← hubs, List.length_map]
  unfold Task.advance next
  rw [index]
  by_cases hmore : done.length < t.processVector.length
  · rw [if_pos hmore]
    obtain ⟨hub, hhub⟩ : ∃ hub, t.processVector[done.length]? = some hub :=
      ⟨_, List.getElem?_eq_getElem hmore⟩
    obtain ⟨ops, hops, hsends⟩ :=
      sends_generateMessageToHub idEdge now (index ▸ hhub)
    have hid : ids[done.length]? = some hub.id := by
      rw [← hubs, List.getElem?_map, hhub]
      rfl
    rw [hid]
    exact ⟨t, ops, Option.map_eq_some_iff.mpr ⟨ops, hops, rfl⟩,
      ⟨hubs, index, written, by rw [hw, if_pos (hlength ▸ hmore)], rfl, rfl⟩, hsends⟩
  · rw [if_neg hmore]
    have hall : t.processVector.map (fun hub => (hub.isUpdated, hub.success)) = done := by
      rw [← written, List.take_of_length_le (by omega)]
    have hcounter : t.processVector.countP (fun hub => hub.isUpdated || hub.success) =
        done.countP fine := by
      rw [← hall, List.countP_map]
      rfl
    have hnone : ids[done.length]? = none := List.getElem?_eq_none (by omega)
    rw [hnone]
    refine ⟨_, _, rfl, ⟨hubs, rfl, written, ?_, rfl, rfl⟩, ?_⟩
    · rw [if_neg (by omega)]
    · have htotal : t.processVector.length = done.length := by
        rw [← hall, List.length_map]
      simp only [sends, ending, generateOutcome, hcounter, htotal]
      rfl

/-- A turn that ends. -/
theorem session_record (idEdge : String) (h : Session ids network version done t)
    (hlt : done.length < ids.length) (now : Int64) (isUpdated success : Bool) :
    ∃ t' ops, t.record idEdge now isUpdated success = some (t', ops) ∧
      Session ids network version (done ++ [(isUpdated, success)]) t' ∧
      sends ops = [next idEdge now network version ids (done ++ [(isUpdated, success)])] := by
  have hindex : done.length < t.processVector.length := by
    rw [h.length_vector]
    exact hlt
  obtain ⟨hub, hhub⟩ : ∃ hub, t.processVector[t.index]? = some hub :=
    ⟨_, List.getElem?_eq_getElem (h.index ▸ hindex)⟩
  have hadvance := session_advance idEdge (t.write { hub with isUpdated, success }) ids
    (done ++ [(isUpdated, success)]) ?_ ?_ ?_ ?_ now
  · unfold Task.record
    rw [hhub]
    have hsame : (t.write { hub with isUpdated, success }).network = network ∧
        (t.write { hub with isUpdated, success }).version = version := ⟨h.network, h.version⟩
    rw [hsame.1, hsame.2] at hadvance
    exact hadvance
  · exact (map_id_set hhub isUpdated success).trans h.hubs
  · simp [Task.write, h.index]
  · unfold Task.write
    rw [List.length_append, List.length_singleton, h.index, take_succ_set _ hindex,
      List.map_append, h.written]
    rfl
  · exact h.state.trans (if_pos hlt)

/-- Whatever does not end the turn of a hub changes nothing and sends nothing. -/
theorem session_idle (idEdge : String) (h : Session ids network version done t) {i : Input}
    (hp : t.Permits i) (hnone : ∀ id, ids[done.length]? = some id → i.verdict id = none)
    (now : Int64) :
    t.handle idEdge now i = some (t, []) := by
  cases i with
  | update msg version ids => exact absurd hp (fun hfalse => hfalse)
  | hubResponse msg =>
    have hops : t.handleHubResponse msg = [] := by
      unfold Task.handleHubResponse
      rcases hhub : t.processVector[t.index]? with _ | hub
      · split <;> rfl
      · have hid : ids[done.length]? = some hub.id := by
          rw [← h.hubs, ← h.index, List.getElem?_map, hhub]
          rfl
        have hother : msg.metadata.senderUserId ≠ hub.id := by
          intro hsame
          have hverdict := hnone hub.id hid
          simp [Input.verdict, hsame] at hverdict
        simp [hother]
    show t.perform idEdge now (t.handleHubResponse msg) = some (t, [])
    rw [hops]
    rfl
  | timeout =>
    have hlt : done.length < ids.length := by
      by_contra hle
      have hsleeping := h.state
      rw [if_neg hle] at hsleeping
      rw [Task.Permits, hsleeping] at hp
      cases hp
    exact absurd (hnone _ (List.getElem?_eq_getElem hlt)) (by simp [Input.verdict])

/-- The handler that ends a turn. -/
theorem session_turn (idEdge : String) (h : Session ids network version done t) {i : Input}
    {id : String} (hid : ids[done.length]? = some id) {verdict : Bool × Bool}
    (hv : i.verdict id = some verdict) (now : Int64) :
    ∃ t', t.handle idEdge now i =
        some (t', [next idEdge now network version ids (done ++ [verdict])]) ∧
      Session ids network version (done ++ [verdict]) t' := by
  have hlt : done.length < ids.length := (List.getElem?_eq_some_iff.mp hid).1
  have hperform : t.handle idEdge now i =
      t.perform idEdge now [.toTimer .stopTimer, .record verdict.1 verdict.2] := by
    cases i with
    | update msg version ids => cases hv
    | hubResponse msg =>
      simp only [Input.verdict, Option.ite_none_right_eq_some, Option.some.injEq] at hv
      obtain ⟨hsender, rfl⟩ := hv
      obtain ⟨hub, hhub, rfl⟩ : ∃ hub, t.processVector[t.index]? = some hub ∧ hub.id = id := by
        rw [← h.hubs, ← h.index, List.getElem?_map, Option.map_eq_some_iff] at hid
        exact hid
      have hw : t.state = .working := h.state.trans (if_pos hlt)
      have hops : t.handleHubResponse msg =
          [.toTimer .stopTimer, .record msg.isUpdated msg.success] := by
        simp [Task.handleHubResponse, hw, hhub, hsender]
      show t.perform idEdge now (t.handleHubResponse msg) = _
      rw [hops]
    | timeout =>
      obtain rfl := Option.some.inj hv
      rfl
  obtain ⟨t', ops, hrecord, hsession, hsends⟩ :=
    session_record idEdge h hlt now verdict.1 verdict.2
  refine ⟨t', ?_, hsession⟩
  rw [hperform, ← hsends]
  simp [Task.perform, hrecord]

end Turns

/-! ## The whole session -/

/-- What has been sent when these verdicts are in: all hubs up to the one whose turn it is have
been asked, and the outcome follows the last. -/
structure Sent (ids : List String) (network version : String) (done : List (Bool × Bool))
    (all : List FirmwareServiceResponse) : Prop where
  asked : all.filterMap asked = (ids.take (done.length + 1)).map (fun id => (id, network, version))
  outcome : all.filterMap outcomeOf =
    if done.length = ids.length then
      [(network, ⟨(share Float32.ofNat 100.0 (done.countP fine) ids.length).toBits⟩)]
    else []
  only : ∀ response ∈ all, (Firmware.asked response).isSome || (outcomeOf response).isSome

section Serve

variable {idEdge network version : String} {ids : List String} {done : List (Bool × Bool)}
  {t : Task} {all : List FirmwareServiceResponse}

theorem sent_turn (idEdge : String) (h : Sent ids network version done all)
    (hlt : done.length < ids.length) (now : Int64) (verdict : Bool × Bool) :
    Sent ids network version (done ++ [verdict])
      (all ++ [next idEdge now network version ids (done ++ [verdict])]) := by
  have hlength : (done ++ [verdict]).length = done.length + 1 := by simp
  unfold next
  rw [hlength]
  rcases hid : ids[done.length + 1]? with _ | id
  · have hend : done.length + 1 = ids.length := by
      have hle := List.getElem?_eq_none_iff.mp hid
      omega
    refine ⟨?_, ?_, ?_⟩
    · rw [List.filterMap_append, h.asked, hlength, List.take_of_length_le (by omega),
        List.take_of_length_le (by omega)]
      simp [ending, Firmware.asked]
    · rw [List.filterMap_append, h.outcome, if_neg (by omega), hlength, if_pos hend]
      simp [ending, outcomeOf, ← hend]
    · intro response hmem
      rcases List.mem_append.mp hmem with hmem | hmem
      · exact h.only response hmem
      · rw [List.mem_singleton.mp hmem]
        rfl
  · have hmore : done.length + 1 < ids.length := (List.getElem?_eq_some_iff.mp hid).1
    refine ⟨?_, ?_, ?_⟩
    · rw [List.filterMap_append, h.asked, hlength, List.take_add_one (i := done.length + 1), hid]
      simp [request, Firmware.asked, metadataTo]
    · rw [List.filterMap_append, h.outcome, if_neg (by omega), hlength, if_neg (by omega)]
      simp [request, outcomeOf]
    · intro response hmem
      rcases List.mem_append.mp hmem with hmem | hmem
      · exact h.only response hmem
      · rw [List.mem_singleton.mp hmem]
        rfl

theorem serve_cons {now : Int64} {i : Input} {t' t'' : Task}
    {sent sent' : List FirmwareServiceResponse} {rest : List (Int64 × Input)}
    (h : t.handle idEdge now i = some (t', sent))
    (hserve : t'.serve idEdge rest = some (t'', sent')) :
    t.serve idEdge ((now, i) :: rest) = some (t'', sent ++ sent') := by
  unfold Task.serve
  rw [h]
  exact Option.map_eq_some_iff.mpr ⟨_, hserve, rfl⟩

/-- The session over any inputs, from any of its turns. -/
theorem session_serve (inputs : List (Int64 × Input)) {done : List (Bool × Bool)} {t : Task}
    {all : List FirmwareServiceResponse} (h : Session ids network version done t)
    (hs : Sent ids network version done all) (hp : t.PermitsAll idEdge inputs) :
    ∃ t' sent, t.serve idEdge inputs = some (t', sent) ∧
      Session ids network version (done ++ verdicts (ids.drop done.length) inputs) t' ∧
      Sent ids network version (done ++ verdicts (ids.drop done.length) inputs) (all ++ sent) := by
  induction inputs generalizing done t all with
  | nil =>
    have hnone : verdicts (ids.drop done.length) [] = [] := by
      cases ids.drop done.length <;> rfl
    rw [hnone]
    exact ⟨t, [], rfl, by simpa using h, by simpa using hs⟩
  | cons input rest ih =>
    obtain ⟨now, i⟩ := input
    obtain ⟨hp, hrest⟩ := hp
    by_cases hturn : ∃ id, ids[done.length]? = some id ∧ i.verdict id ≠ none
    · obtain ⟨id, hid, hne⟩ := hturn
      obtain ⟨verdict, hv⟩ := Option.ne_none_iff_exists'.mp hne
      have hlt : done.length < ids.length := (List.getElem?_eq_some_iff.mp hid).1
      have hdrop : ids.drop done.length = id :: ids.drop (done.length + 1) := by
        rw [List.drop_eq_getElem_cons hlt, (List.getElem?_eq_some_iff.mp hid).2]
      obtain ⟨t', hhandle, hsession⟩ := session_turn idEdge h hid hv now
      rw [hhandle] at hrest
      obtain ⟨t'', sent, hserve, hend, hsent⟩ :=
        ih hsession (sent_turn idEdge hs hlt now verdict) hrest
      have hverdicts : done ++ verdicts (ids.drop done.length) ((now, i) :: rest) =
          (done ++ [verdict]) ++ verdicts (ids.drop (done ++ [verdict]).length) rest := by
        rw [hdrop]
        simp [verdicts, hv]
      rw [hverdicts]
      refine ⟨t'', _, serve_cons hhandle hserve, hend, ?_⟩
      rw [← List.append_assoc]
      exact hsent
    · have hnone : ∀ id, ids[done.length]? = some id → i.verdict id = none := by
        intro id hid
        by_contra hne
        exact hturn ⟨id, hid, hne⟩
      have hhandle := session_idle idEdge h hp hnone now
      rw [hhandle] at hrest
      obtain ⟨t', sent, hserve, hend, hsent⟩ := ih h hs hrest
      have hverdicts : verdicts (ids.drop done.length) ((now, i) :: rest) =
          verdicts (ids.drop done.length) rest := by
        rcases hd : ids.drop done.length with _ | ⟨id, ids'⟩
        · simp [verdicts]
        · have hid : ids[done.length]? = some id := by
            rw [← List.head?_drop, hd]
            rfl
          simp [verdicts, hnone id hid]
      rw [hverdicts]
      exact ⟨t', sent, serve_cons hhandle hserve, hend, hsent⟩

/-- An order opens a session and asks the first hub. -/
theorem session_open (idEdge : String) (t : Task) (now : Int64) (msg : UpdateFirmware)
    (version : String) (hids : ids ≠ []) :
    ∃ t' sent, t.handle idEdge now (.update msg (some version) ids) = some (t', sent) ∧
      Session ids msg.network version [] t' ∧ Sent ids msg.network version [] sent := by
  obtain ⟨id, rest, rfl⟩ := List.exists_cons_of_ne_nil hids
  refine ⟨_, _, rfl, ⟨?_, rfl, rfl, rfl, rfl, rfl⟩, ?_, rfl, ?_⟩
  · simp [Task.clear, Task.enlist]
    exact List.map_id' rest
  · rfl
  · intro response hmem
    rw [List.mem_singleton.mp hmem]
    rfl

end Serve

/-- A session that nothing interrupts: each hub is asked once, in its turn, and the outcome
comes once, after the last of them; what is not of the hub at the index does nothing. -/
theorem a_session_is_complete_and_fair (idEdge : String) (t : Task) (now : Int64)
    (msg : UpdateFirmware) (version : String) (ids : List String) (hids : ids ≠ []) :
    (∃ t₀ sent₀, t.handle idEdge now (.update msg (some version) ids) = some (t₀, sent₀) ∧
      ∀ inputs, t₀.PermitsAll idEdge inputs →
        ∃ t' sent, t₀.serve idEdge inputs = some (t', sent) ∧
          Sent ids msg.network version (verdicts ids inputs) (sent₀ ++ sent) ∧
          (t'.state = .sleeping ↔ (verdicts ids inputs).length = ids.length) ∧
          ∀ (now' : Int64) (answer : FirmwareOk),
            (∀ id, ids[(verdicts ids inputs).length]? = some id →
              answer.metadata.senderUserId ≠ id) →
            t'.handle idEdge now' (.hubResponse answer) = some (t', [])) ∧
      ∀ k : Nat, share (Nat.cast : Nat → ℚ) 100 k ids.length = 100 * k / ids.length := by
  constructor
  · obtain ⟨t₀, sent₀, hopen, hsession, hsent⟩ := session_open idEdge t now msg version hids
    refine ⟨t₀, sent₀, hopen, fun inputs hp => ?_⟩
    obtain ⟨t', sent, hserve, hend, hall⟩ := session_serve inputs hsession hsent hp
    rw [List.nil_append, List.length_nil, List.drop_zero] at hend hall
    refine ⟨t', sent, hserve, hall, ?_, fun now' answer hother => ?_⟩
    · have hle := length_verdicts_le ids inputs
      rw [hend.state]
      split
      · simp
        omega
      · simp
        omega
    · refine session_idle idEdge hend (i := .hubResponse answer) trivial (fun id hid => ?_) now'
      exact if_neg (hother id hid)
  · intro k
    unfold share
    rw [div_mul_eq_mul_div, mul_comm]

/-- Two hubs: the second answers out of turn, the first answers, and the countdown of the second
ends before its answer comes. -/
def outOfTurn : List (Int64 × Input) :=
  [(1, .hubResponse (updatedBy "k")), (2, .hubResponse (updatedBy "h")), (3, .timeout),
    (4, .hubResponse (updatedBy "k"))]

/-- The session of the two hubs as it opens. -/
def twoHubs : Task :=
  { state := .working, processVector := [⟨"h", false, false⟩, ⟨"k", false, false⟩], index := 0
    version := "1.0.0", network := "n" }

theorem a_session_of_two_hubs_ends :
    ∃ t' sent, twoHubs.serve "edge" outOfTurn = some (t', sent) ∧ t'.state = .sleeping ∧
      sent.filterMap asked = [("k", "n", "1.0.0")] := by
  obtain ⟨⟨t₀, sent₀, hopen, hall⟩, -⟩ := a_session_is_complete_and_fair "edge" Task.new 0
    (updateOf "n") "1.0.0" ["h", "k"] (by decide)
  obtain ⟨rfl, rfl⟩ := Prod.mk.inj (Option.some.inj hopen)
  obtain ⟨t', sent, hserve, hsent, hend, -⟩ := hall outOfTurn
    ⟨trivial, trivial, rfl, trivial, trivial⟩
  exact ⟨t', sent, hserve, hend.mpr (by decide), (List.cons.inj hsent.asked).2⟩

end EdgeGateway.Firmware
