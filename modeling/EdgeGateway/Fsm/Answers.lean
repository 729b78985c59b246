-- Whose answers the output handshake counts. Both handshakes of a balance share the epoch, and
-- nobody reads the flag of an answer: one to the input handshake that comes late is counted in
-- the output handshake.
import EdgeGateway.Fsm.Lag
import EdgeGateway.Fsm.Rounds

namespace EdgeGateway.Fsm

open EdgeGateway.Lib EdgeGateway.Message EdgeGateway.Networks EdgeGateway.Quorum

/-! ## The runtime among its hubs -/

/-- The state belongs to the output handshake: it and its check and repeat states. -/
def FsmState.inOut (s : FsmState) : Bool :=
  s = Mode.outHandshake.state ∨ s = Mode.checkOut.state ∨ s = Mode.repeatOut.state

/-- The session takes answers to a handshake. -/
def StateOfSession.takesAnswers : StateOfSession → Bool
  | .inHandshake => true
  | .outHandshake => true
  | .repeatHandshake => true
  | _ => false

/-- The hub whose message answers the output handshake of the epoch. -/
def outAnswer (epoch : UInt32) : HubMessage → Option String
  | .handshakeFromHub msg =>
    if msg.balanceEpoch = epoch ∧ msg.flag = "out" then some msg.metadata.senderUserId else none
  | _ => none

/-- The runtime and all that the hubs have sent, the oldest first: any of it arrives at any time
and as often as the network likes. No task reads `since`, what had been sent when the machine
last entered `OutHandshake`. -/
structure Wired where
  runtime : Runtime
  sent : List HubMessage
  since : Nat

namespace Wired

inductive Label where
  | send (msg : HubMessage)
  | runtime (i : Fsm.Label)
  deriving Repr

def start (cap : Option Nat) (manager : NetworkManager) : Wired where
  runtime := Runtime.start cap manager
  sent := []
  since := 0

/-- What the label delivers has been sent. -/
def delivers (w : Wired) : Fsm.Label → Bool
  | .command (.fromHub msg) => decide (msg ∈ w.sent)
  | _ => true

/-- The runtime has moved on. -/
def moved (w : Wired) (r : Runtime) : Wired :=
  { w with
    runtime := r
    since :=
      if r.state = Mode.outHandshake.state ∧ w.runtime.state ≠ Mode.outHandshake.state then
        w.sent.length
      else w.since }

def step (ctx : AppContext) (cap : Option Nat) (w : Wired) : Label → Option Wired
  | .send msg => some { w with sent := w.sent ++ [msg] }
  | .runtime i => if w.delivers i then (w.runtime.step ctx cap i).map w.moved else none

/-- The runtime over channels of capacity `cap`, among hubs that send what they like. -/
def machine (ctx : AppContext) (cap : Option Nat) : Machine Wired Label where
  init := fun w => ∃ manager, w = start cap manager
  step := step ctx cap

/-! ## The property and its condition -/

/-- The hubs that have answered the output handshake since it was entered. -/
def outAnswers (w : Wired) : List String :=
  (w.sent.drop w.since).filterMap (outAnswer w.runtime.currentEpoch)

/-- If the step runs the quorum of an output handshake, each sender in the vote set has answered
it; if it takes an answer to another handshake there, the vote set stays. -/
def countsOut (w : Wired) : Label → Bool
  | .runtime (.work _ _) =>
    match w.runtime.ops with
    | .act a :: _ =>
      !(a.evaluates && w.runtime.state.inOut) ||
        w.runtime.session.handshakeHash.keys.all (fun k => decide (k ∈ w.outAnswers))
    | _ => true
  | .runtime (.command (.fromHub (.handshakeFromHub msg))) =>
    !w.runtime.state.inOut || msg.flag == "out" ||
      (onCommand w.runtime.manager w.runtime.currentEpoch w.runtime.session
        (.fromHub (.handshakeFromHub msg))).2.1.handshakeHash.keys ==
          w.runtime.session.handshakeHash.keys
  | _ => true

/-- If the step takes an answer that counts in an output handshake, it is an answer to that,
sent since it was entered; if it takes an epoch there, no votes are held or the epoch stays. -/
def takesOut (w : Wired) : Label → Bool
  | .runtime (.command (.fromHub (.handshakeFromHub msg))) =>
    !(w.runtime.state.inOut && w.runtime.session.state.takesAnswers &&
        msg.balanceEpoch == w.runtime.currentEpoch) ||
      (msg.flag == "out" && decide (.handshakeFromHub msg ∈ w.sent.drop w.since))
  | .runtime (.command (.epoch epoch)) =>
    !w.runtime.state.inOut || w.runtime.session.handshakeHash.keys.isEmpty ||
      epoch + 1 == w.runtime.currentEpoch
  | _ => true

end Wired

/-! ## The output handshake -/

namespace Mode

/-- The mode belongs to the output handshake. -/
def out : Mode → Bool
  | .outHandshake => true
  | .checkOut => true
  | .repeatOut => true
  | _ => false

theorem inOut_state (m : Mode) : m.state.inOut = m.out := by
  cases m <;> decide

/-- The output handshake is entered from the phase of the monitor, once. -/
theorem out_of_next {m m' : Mode} {e : Event} {l : List Action} (h : m.next e = some (m', l))
    (hm : m'.out = true) :
    m = .monitor ∧ m' = .outHandshake ∨
      m.out = true ∧ (m' = .outHandshake → m = .outHandshake) :=
  of_rows (P := fun m _ m' _ => m'.out = true → m = .monitor ∧ m' = .outHandshake ∨
    m.out = true ∧ (m' = .outHandshake → m = .outHandshake)) (by decide) h hm

end Mode

namespace Wired

/-- Up to the phases `fsm` lags behind the machine by little, and from then on the votes are
those of hubs that have answered the output handshake. -/
structure Separate (m : Mode) (w : Wired) : Prop where
  mode : w.runtime.state = m.state
  ops : .toFsm .timeout ∉ w.runtime.ops
  early : m.early = true → Early m w.runtime
  votes : m.out = true → ∀ k ∈ w.runtime.session.handshakeHash.keys, k ∈ w.outAnswers

section Steps

variable {ctx : AppContext} {cap : Option Nat} {m m' : Mode} {w w' : Wired} {r r' : Runtime}
  {i : Fsm.Label}

theorem separate_send (h : w.Separate m) (msg : HubMessage) :
    Separate m { w with sent := w.sent ++ [msg] } := by
  refine ⟨h.mode, h.ops, h.early, fun hm k hk => ?_⟩
  unfold outAnswers
  rw [List.drop_append, List.filterMap_append]
  exact List.mem_append_left _ (h.votes hm k hk)

/-- A command within the output handshake that meets the condition counts an answer to it, or no
other than before. -/
theorem votes_command (h : w.Separate m) (hout : m.out = true) {c : FsmServiceCommand}
    (htakes : w.takesOut (.runtime (.command c)) = true) :
    ∀ k ∈ (onCommand w.runtime.manager w.runtime.currentEpoch w.runtime.session
        c).2.1.handshakeHash.keys,
      k ∈ (w.sent.drop w.since).filterMap (outAnswer (onCommand w.runtime.manager
        w.runtime.currentEpoch w.runtime.session c).1) := by
  have hvotes := h.votes hout
  have hin : w.runtime.state.inOut = true := by rw [h.mode, Mode.inOut_state, hout]
  have ht := taken w.runtime.manager w.runtime.currentEpoch w.runtime.session c
  generalize onCommand w.runtime.manager w.runtime.currentEpoch w.runtime.session c = out at ht ⊢
  cases ht with
  | @handshake msg hs he =>
    have hopen : w.runtime.session.state.takesAnswers = true := by
      rcases hs with hs | hs | hs <;> rw [hs] <;> rfl
    simp only [takesOut, hin, hopen, he, Bool.and_self, BEq.rfl, Bool.not_true, Bool.false_or,
      Bool.and_eq_true, beq_iff_eq, decide_eq_true_eq] at htakes
    intro k hk
    rcases mem_insertHandshake.mp hk with rfl | hk
    · refine List.mem_filterMap.mpr ⟨_, htakes.2, ?_⟩
      simp [outAnswer, he, htakes.1]
    · exact hvotes k hk
  | @epoch e =>
    simp only [takesOut, hin, Bool.not_true, Bool.false_or, Bool.or_eq_true, List.isEmpty_iff,
      beq_iff_eq] at htakes
    intro k hk
    rcases htakes with hnone | hsame
    · rw [hnone] at hk
      exact absurd hk List.not_mem_nil
    · rw [hsame]
      exact hvotes k hk
  | @empty msg hs =>
    rw [quorumPhase_handshakes]
    exact hvotes
  | @emptySafe msg hs =>
    rw [quorumSafeMode_handshakes]
    exact hvotes
  | _ => exact hvotes

/-- So does every step. -/
theorem votes_step (h : w.Separate m) (hout : m.out = true)
    (htakes : w.takesOut (.runtime i) = true) (hmove : Move ctx cap m w.runtime i m' r') :
    ∀ k ∈ r'.session.handshakeHash.keys,
      k ∈ (w.sent.drop w.since).filterMap (outAnswer r'.currentEpoch) := by
  have hvotes := h.votes hout
  cases hmove with
  | command ho => exact votes_command h hout htakes
  | @act _ a rest now jitter ho =>
    have hdone := handled ctx w.runtime.manager w.runtime.currentEpoch w.runtime.session now
      jitter.val.toUInt32 a
    intro k hk
    have hk' : k ∈ (if a.resetsHandshake = true then ∅
        else w.runtime.session.handshakeHash).keys := hdone.handshakes ▸ hk
    split at hk'
    · simp at hk'
    · exact hvotes k hk'
  | advance hb he hn =>
    rw [Runtime.advanced_session, Runtime.advanced_currentEpoch]
    exact hvotes
  | _ => exact hvotes

/-- Only a transition leaves the mode. -/
theorem eq_of_move (hmove : Move ctx cap m r i m' r') :
    m' = m ∨ ∃ e l, m.next e = some (m', l) ∧ r'.session = r.session := by
  cases hmove with
  | advance hb he hn => exact .inr ⟨_, _, hn, Runtime.advanced_session ..⟩
  | _ => exact .inl rfl

theorem separate_runtime (h : w.Separate m) (htakes : w.takesOut (.runtime i) = true)
    (hm : r'.state = m'.state) (hmove : Move ctx cap m w.runtime i m' r') :
    Separate m' (w.moved r') := by
  have hstep := eq_of_move hmove
  refine ⟨hm, no_timeout_step h.ops hmove, fun hearly => ?_, fun hout => ?_⟩
  · have hbefore : m.early = true := by
      rcases hstep with rfl | ⟨e, l, hn, -⟩
      · exact hearly
      · exact Mode.early_of_next hn hearly
    exact early_step (h.early hbefore) h.ops hearly hmove
  · rcases hstep with rfl | ⟨e, l, hn, hsession⟩
    · have hsince : (w.moved r').since = w.since := by
        simp [moved, hm, h.mode]
      unfold outAnswers
      rw [hsince]
      exact votes_step h hout htakes hmove
    · rcases Mode.out_of_next hn hout with ⟨rfl, rfl⟩ | ⟨hbefore, hstay⟩
      · -- the machine enters the output handshake, and no vote is held
        intro k hk
        have hnone : r'.session.handshakeHash = ∅ :=
          hsession ▸ handshakes_of_monitor (h.early rfl)
        have hk' : k ∈ r'.session.handshakeHash.keys := hk
        rw [hnone] at hk'
        simp at hk'
      · have hsince : (w.moved r').since = w.since := by
          simp only [moved, hm, h.mode, Mode.state_inj, ne_eq, ite_eq_right_iff, and_imp]
          exact fun hnew hold => absurd (hstay hnew) hold
        unfold outAnswers
        rw [hsince]
        exact votes_step h hbefore htakes hmove

/-- Every step that meets the condition keeps the invariant. -/
theorem separate_step {j : Label} (h : ∃ m, w.Separate m) (htakes : w.takesOut j = true)
    (hs : (machine ctx cap).step w j = some w') : ∃ m', w'.Separate m' := by
  obtain ⟨m, h⟩ := h
  cases j with
  | send msg =>
    obtain rfl := Option.some.inj hs
    exact ⟨m, separate_send h msg⟩
  | runtime i =>
    simp only [machine, step, Option.ite_none_right_eq_some, Option.map_eq_some_iff] at hs
    obtain ⟨-, r', hr, rfl⟩ := hs
    obtain ⟨m', hm', hmove⟩ := move_of_step h.mode hr
    exact ⟨m', separate_runtime h htakes hm' hmove⟩

/-- An answer that the session does not take, or of another epoch, leaves the session. -/
theorem onCommand_dropped (manager : NetworkManager) {epoch : UInt32} {session : UpdateSession}
    {msg : HandshakeFromHub}
    (h : (session.state.takesAnswers && msg.balanceEpoch == epoch) = false) :
    (onCommand manager epoch session (.fromHub (.handshakeFromHub msg))).2.1 = session := by
  have ht := taken manager epoch session (.fromHub (.handshakeFromHub msg))
  generalize onCommand manager epoch session (.fromHub (.handshakeFromHub msg)) = out at ht ⊢
  cases ht with
  | silent => rfl
  | handshake hs he =>
    rcases hs with hs | hs | hs <;> simp [hs, he, StateOfSession.takesAnswers] at h

/-- What the invariant and the condition say of the step that is taken. -/
theorem countsOut_of_separate {j : Label} (h : w.Separate m) (htakes : w.takesOut j = true) :
    w.countsOut j = true := by
  unfold countsOut
  split
  · split
    · rename_i a rest ho
      by_cases hin : w.runtime.state.inOut = true
      · have hout : m.out = true := by rw [← Mode.inOut_state, ← h.mode, hin]
        rw [Bool.or_eq_true]
        right
        exact List.all_eq_true.mpr fun k hk => decide_eq_true (h.votes hout k hk)
      · simp [hin]
    · rfl
  · rename_i msg
    by_cases hin : w.runtime.state.inOut = true
    · by_cases hflag : msg.flag = "out"
      · simp [hflag]
      · have hdropped : (w.runtime.session.state.takesAnswers &&
            msg.balanceEpoch == w.runtime.currentEpoch) = false := by
          rw [Bool.and_eq_false_iff, beq_eq_false_iff_ne]
          simpa [takesOut, hin, hflag] using htakes
        rw [onCommand_dropped w.runtime.manager hdropped]
        simp
    · simp [hin]
  · rfl

end Steps

theorem separate_start (cap : Option Nat) (manager : NetworkManager) :
    Separate .init (start cap manager) where
  mode := state_start cap manager
  ops := by simp [start]
  early := fun _ => early_start cap manager
  votes := fun hout => nomatch hout

end Wired

/-! ## The law -/

/-- Where no answer to another handshake is taken in the output handshake, and no other epoch
while votes are held, the output handshake counts its own answers only. -/
theorem Wired.the_output_handshake_counts_its_answers (ctx : AppContext) (cap : Option Nat)
    (t : List (Wired × Wired.Label)) (w : Wired) (run : (Wired.machine ctx cap).Run t w)
    (htakes : Machine.Meets (fun w i => w.takesOut i = true) t) :
    Machine.Meets (fun w i => w.countsOut i = true) t := by
  refine run.meets (fun w => ∃ m, w.Separate m) _ _ ?_ ?_ ?_ htakes
  · rintro w ⟨manager, rfl⟩
    exact ⟨.init, separate_start cap manager⟩
  · exact fun w j w' hinv ht hs => separate_step hinv ht hs
  · rintro w j w' ⟨m, hinv⟩ ht -
    exact countsOut_of_separate hinv ht

namespace Wired

/-- An answer of the only hub, to the handshake of the flag. -/
def flagged (flag : String) (timestamp : Int64) : HubMessage :=
  .handshakeFromHub { metadata := ⟨"h", "edge", timestamp⟩, flag, balanceEpoch := 1 }

def ofRuntime (is : List Fsm.Label) : List Label := is.map .runtime

/-- The answer arrives, and its vote is counted. -/
def arrives (msg : HubMessage) : List Fsm.Label :=
  [.command (.fromHub msg)] ++ works 1 ++ [.runFsm, .takeActions] ++ works 2

/-- A phase ends with its countdown, and `n` operations enter what follows. -/
def phaseEnds (n : Nat) : List Fsm.Label :=
  [.timerExpire, .runFsm, .takeActions] ++ works n ++ [.timerReceive, .timerReceive]

/-- The hub answers the input handshake twice, and only its second answer arrives. -/
def toOutHandshake : List Label :=
  ofRuntime toFirstRound ++ [.send (flagged "in" 1), .send (flagged "in" 2)] ++
    ofRuntime (arrives (flagged "in" 2) ++ [.runFsm, .takeActions] ++ works 7 ++
      [.timerReceive, .timerReceive] ++ phaseEnds 5 ++ phaseEnds 5 ++ phaseEnds 7)

/-- The hub answers the output handshake. -/
def answeredOut : List Label :=
  toOutHandshake ++ [.send (flagged "out" 3)] ++ ofRuntime (arrives (flagged "out" 3))

/-- Its first answer to the input handshake arrives in the output handshake. -/
def answeredLate : List Label := toOutHandshake ++ ofRuntime (arrives (flagged "in" 1))

theorem an_answer_in_time_is_counted :
    let t := (machine sampleContext (some 50)).trace (start (some 50) sampleCache) answeredOut
    Machine.Meets (fun w i => w.countsOut i = true) t ∧ ∃ p ∈ t, p.1.outAnswers = ["h"] := by
  have hrun := Machine.run_of_final (m := machine sampleContext (some 50)) answeredOut
    ⟨sampleCache, rfl⟩ (by decide +kernel)
  exact ⟨the_output_handshake_counts_its_answers sampleContext (some 50) _ _ hrun
    (by decide +kernel), by decide +kernel⟩

theorem a_late_answer_is_counted_in_the_output_handshake :
    ¬ ∀ (ctx : AppContext) (cap : Option Nat) (t : List (Wired × Label)) (w : Wired),
      (machine ctx cap).Run t w → Machine.Meets (fun w i => w.countsOut i = true) t := by
  intro h
  have hrun := Machine.run_of_final (m := machine sampleContext (some 50)) answeredLate
    ⟨sampleCache, rfl⟩ (by decide +kernel)
  have hmeets := h _ _ _ _ hrun
  revert hmeets
  decide +kernel

end Wired

end EdgeGateway.Fsm
