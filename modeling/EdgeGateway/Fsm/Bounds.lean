-- How long a balancing can last. Each state with a time limit starts one countdown, and
-- each check of a quorum takes one `Timeout`; a verdict that allows another repetition
-- is older than the attempts that are used up. So the repetitions are bounded by the
-- attempts of the settings, whatever the hubs send and however the tasks are scheduled.
import EdgeGateway.Fsm.Course
import EdgeGateway.Fsm.Lag

namespace EdgeGateway.Fsm

open EdgeGateway.Lib EdgeGateway.Message EdgeGateway.Networks EdgeGateway.Quorum

/-! ## The entries of states with a time limit -/

/-- `run_fsm` takes a `Timeout`. -/
def Runtime.expires (r : Runtime) (i : Label) : Bool :=
  match i, r.outbox, r.events with
  | .runFsm, none, (.timeout, _) :: _ => true
  | _, _, _ => false

/-- A handshake in is entered, the first or a repetition. -/
def Mode.isIn : Mode → Bool
  | .inHandshake => true
  | .repeatIn => true
  | _ => false

def Mode.isOut : Mode → Bool
  | .outHandshake => true
  | .repeatOut => true
  | _ => false

/-- The handshakes in among the entries. -/
def ins (entries : List Mode) : Nat := entries.countP Mode.isIn

def outs (entries : List Mode) : Nat := entries.countP Mode.isOut

/-- The attempts after an entry. -/
def attempt (n : Nat) : Mode → Nat
  | .repeatIn => n + 1
  | .repeatOut => n + 1
  | .alert => 0
  | .data => 0
  | .monitor => 0
  | _ => n

def attempts (entries : List Mode) : Nat := entries.foldl attempt 0

/-- How far the course has got with its last entry. -/
def stage : Option Mode → Nat
  | none => 0
  | some .inHandshake => 1
  | some .repeatIn => 1
  | some .alert => 2
  | some .data => 3
  | some .monitor => 4
  | some .outHandshake => 5
  | some .repeatOut => 5
  | some _ => 6

section Entries

@[simp] theorem ins_append (p q : List Mode) : ins (p ++ q) = ins p + ins q := List.countP_append

@[simp] theorem outs_append (p q : List Mode) : outs (p ++ q) = outs p + outs q :=
  List.countP_append

@[simp] theorem attempts_snoc (p : List Mode) (n : Mode) :
    attempts (p ++ [n]) = attempt (attempts p) n := by
  simp [attempts]

theorem stage_le_of_allows {k : Option Mode} {n : Mode} (h : course.allows k n = true) :
    stage k ≤ stage (some n) := by
  rcases k with _ | k
  · exact Nat.zero_le _
  · cases k <;> cases n <;> first | decide | cases h

/-- Later entries are no earlier stage. -/
theorem stage_le_append {p : List Mode} (q : List Mode) (h : course.Holds (p ++ q)) :
    stage (course.after p) ≤ stage (course.after (p ++ q)) := by
  induction q using List.reverseRecOn with
  | nil => rw [List.append_nil]
  | append_singleton q n ih =>
    rw [← List.append_assoc] at h ⊢
    obtain ⟨hbefore, hallows⟩ := (Order.holds_snoc course).mp h
    rw [Order.after_snoc]
    exact (ih hbefore).trans (stage_le_of_allows hallows)

/-- What the entries count up to, by the last of them: their number, the handshakes in, the
handshakes out and the attempts. -/
structure Counts (k : Option Mode) (length ins outs attempts : Nat) : Prop where
  none : stage k = 0 → length = 0 ∧ ins = 0
  early : stage k ≤ 1 → length = ins ∧ length ≤ 1 + attempts
  phase : 2 ≤ stage k → stage k ≤ 4 → length + 1 = ins + stage k ∧ attempts = 0
  before : stage k ≤ 4 → outs = 0
  late : stage k = 5 → length = ins + 4 + attempts ∧ outs = 1 + attempts

theorem counts_next {k : Option Mode} {n : Mode} {length ins outs attempts : Nat}
    (h : Counts k length ins outs attempts) (hallows : course.allows k n = true) :
    Counts (some n) (length + 1) (ins + if n.isIn = true then 1 else 0)
      (outs + if n.isOut = true then 1 else 0) (attempt attempts n) := by
  obtain ⟨hnone, hearly, hphase, hbefore, hlate⟩ := h
  rcases k with _ | k
  · cases n <;> first
      | exact absurd hallows (by decide)
      | (constructor <;> simp [stage, Mode.isIn, Mode.isOut, attempt] at * <;> omega)
  · cases k <;> cases n <;> first
      | exact absurd hallows (by decide)
      | (constructor <;> simp [stage, Mode.isIn, Mode.isOut, attempt] at * <;> omega)

theorem counts_of_holds {entries : List Mode} (h : course.Holds entries) :
    Counts (course.after entries) entries.length (ins entries) (outs entries)
      (attempts entries) := by
  induction entries using List.reverseRecOn with
  | nil => exact ⟨by decide, by decide, by decide, by decide, by decide⟩
  | append_singleton entries n ih =>
    obtain ⟨hbefore, hallows⟩ := (Order.holds_snoc course).mp h
    have hnext := counts_next (ih hbefore) hallows
    have hin : ins [n] = if n.isIn = true then 1 else 0 := List.countP_singleton
    have hout : outs [n] = if n.isOut = true then 1 else 0 := List.countP_singleton
    rw [Order.after_snoc, List.length_append, ins_append, outs_append, attempts_snoc, hin, hout]
    exact hnext

/-- Each entry starts the watchdog once. -/
theorem length_enters_le (ops : List Op) :
    (ops.flatMap Op.enters).length ≤ Countdown.starts (kinds ops) := by
  induction ops with
  | nil => exact Nat.le_refl _
  | cons o ops ih =>
    have ho : o.enters.length ≤ Countdown.starts o.kinds := by
      cases o with
      | act a =>
        cases a with
        | onEntryBalance sub => cases sub <;> decide
        | onEntryQuorum sub => cases sub <;> decide
        | onEntryPhase sub => cases sub <;> decide
        | onEntrySafeMode => exact Nat.le_refl _
        | _ => exact Nat.zero_le _
      | _ => exact Nat.zero_le _
    rw [List.flatMap_cons, List.length_append, kinds_cons, Countdown.starts_append]
    omega

end Entries

/-! ## Rows of the table -/

namespace Mode

/-- Which entry can have been the last when the machine is in the mode. -/
def lasts : Mode → List (Option Mode)
  | .init => [none]
  | .inHandshake => [some .inHandshake]
  | .checkIn => [some .inHandshake, some .repeatIn]
  | .repeatIn => [some .repeatIn]
  | .alert => [some .alert]
  | .data => [some .data]
  | .monitor => [some .monitor]
  | .outHandshake => [some .outHandshake]
  | .checkOut => [some .outHandshake, some .repeatOut]
  | .repeatOut => [some .repeatOut]
  | .safeMode => [some .safeMode]
  | .normal => [some .outHandshake, some .repeatOut, some .safeMode]

/-- How many handshakes more than timeouts the machine can have met. -/
def slack : Mode → Nat
  | .init => 0
  | .checkIn => 0
  | .outHandshake => 2
  | .repeatOut => 2
  | .safeMode => 2
  | .normal => 2
  | _ => 1

/-- How many states the machine can have visited beside two for each handshake. -/
def visits : Mode → Nat
  | .init => 1
  | .checkIn => 1
  | .alert => 2
  | .data => 3
  | .monitor => 4
  | .outHandshake => 3
  | .checkOut => 4
  | .repeatOut => 3
  | .safeMode => 5
  | .normal => 6
  | _ => 0

/-- The entries lead from the last one to one of those that the mode allows. -/
def Reaches (k : Option Mode) (entries : List Mode) (lasts : List (Option Mode)) : Prop :=
  match entries with
  | [] => k ∈ lasts
  | [n] => course.allows k n = true ∧ some n ∈ lasts
  | _ => False

instance (k : Option Mode) (entries : List Mode) (lasts : List (Option Mode)) :
    Decidable (Reaches k entries lasts) :=
  match entries with
  | [] => inferInstanceAs (Decidable (k ∈ lasts))
  | [_] => inferInstanceAs (Decidable (_ ∧ _))
  | _ :: _ :: _ => inferInstanceAs (Decidable False)

/-- What the list of a transition enters. -/
structure Enters (m : Mode) (e : Event) (m' : Mode) (entries : List Mode) (starts : Nat) :
    Prop where
  starts : starts = entries.length
  lasts : ∀ k ∈ m.lasts, Reaches k entries m'.lasts
  slack : m.slack + (ins entries + outs entries) ≤
    m'.slack + if e = .timeout then 1 else 0
  visits : m.visits + (if m' = m then 0 else 1) ≤ 2 * (ins entries + outs entries) + m'.visits
  ins : ins entries = 0 ∨
    ins entries = 1 ∧ (m = .init ∨ m = .checkIn ∧ e = .notApproveQuorum)
  outs : outs entries = 0 ∨
    outs entries = 1 ∧ (m = .monitor ∨ m = .checkOut ∧ e = .notApproveQuorum)

instance (m : Mode) (e : Event) (m' : Mode) (entries : List Mode) (starts : Nat) :
    Decidable (Enters m e m' entries starts) :=
  decidable_of_iff (_ ∧ _ ∧ _ ∧ _ ∧ _ ∧ _)
    ⟨fun ⟨h1, h2, h3, h4, h5, h6⟩ => ⟨h1, h2, h3, h4, h5, h6⟩,
      fun ⟨h1, h2, h3, h4, h5, h6⟩ => ⟨h1, h2, h3, h4, h5, h6⟩⟩

theorem enters_row {m m' : Mode} {e : Event} {l : List Action} (h : m.next e = some (m', l)) :
    Enters m e m' ((l.map Op.act).flatMap Op.enters) (Countdown.starts (kinds (l.map .act))) :=
  of_rows (P := fun m e m' l => Enters m e m' ((l.map Op.act).flatMap Op.enters)
    (Countdown.starts (kinds (l.map .act)))) (by decide) h

end Mode

/-! ## The verdicts on their way -/

/-- Once `n` timeouts are taken, each verdict of the queue that allows a repetition meets the
machine before more than `limit` are. -/
def InTime (limit : Nat) : Nat → List (Event × Nat) → Prop
  | _, [] => True
  | n, (e, _) :: q =>
    (e = .notApproveQuorum → n ≤ limit) ∧ InTime limit (n + if e = .timeout then 1 else 0) q

theorem inTime_append {limit n : Nat} {p q : List (Event × Nat)} :
    InTime limit n (p ++ q) ↔
      InTime limit n p ∧ InTime limit (n + p.countP (fun e => e.1 == .timeout)) q := by
  induction p generalizing n with
  | nil => simp [InTime]
  | cons e p ih =>
    obtain ⟨e, v⟩ := e
    have hcount : n + (if e = .timeout then 1 else 0) + p.countP (fun e => e.1 == .timeout) =
        n + ((e, v) :: p).countP (fun e => e.1 == .timeout) := by
      rw [List.countP_cons]
      by_cases he : e = .timeout
      · simp [he]
        omega
      · simp [he]
    rw [List.cons_append, InTime, InTime, ih, hcount, and_assoc]

theorem inTime_mono {limit limit' n : Nat} {q : List (Event × Nat)} (hle : limit ≤ limit')
    (h : InTime limit n q) : InTime limit' n q := by
  induction q generalizing n with
  | nil => trivial
  | cons e q ih => exact ⟨fun he => (h.1 he).trans hle, ih h.2⟩

/-! ## The invariant -/

/-- The timeouts that the machine has taken. -/
def expired (t : List (Runtime × Label)) : Nat := t.countP (fun p => p.1.expires p.2)

/-- How many timeouts the machine can have taken when a verdict allows a repetition. -/
def limit (ctx : AppContext) (entries : List Mode) : Nat :=
  if stage (course.after entries) ≤ 1 then ctx.quorum.maxAttempts.toNat + 1
  else ins entries + ctx.quorum.maxAttempts.toNat + 4

/-- Each timeout was started by an entry, each repetition took one, and each verdict that allows a
repetition was sent within the attempts. -/
structure Budgeted (ctx : AppContext) (m : Mode) (t : List (Runtime × Label)) (r : Runtime) :
    Prop where
  quiet : .toFsm .timeout ∉ r.ops
  first : EventFirst r.ops
  holds : course.Holds (begun t r)
  last : course.after (begun t r) ∈ m.lasts
  timeouts : expired t + r.timeouts ≤ (begun t r).length
  attempts : r.session.totalAttempts = attempts (done t)
  verdict : ∀ rest, r.ops = .toFsm .notApproveQuorum :: rest →
    r.session.totalAttempts ≤ ctx.quorum.maxAttempts.toNat
  inTime : stage (course.after (begun t r)) ≤ 5 →
    InTime (limit ctx (begun t r)) (expired t) r.events
  slack : ins (begun t r) + outs (begun t r) ≤ expired t + m.slack
  visit : r.past.visit ≤ 2 * (ins (begun t r) + outs (begun t r)) + m.visits
  ins_le : ins (begun t r) ≤ ctx.quorum.maxAttempts.toNat + 2
  outs_le : outs (begun t r) ≤ ctx.quorum.maxAttempts.toNat + 6

section Steps

variable {ctx : AppContext} {cap : Option Nat} {m m' : Mode} {t : List (Runtime × Label)}
  {r r' : Runtime} {i : Label}

theorem expired_snoc :
    expired (t ++ [(r, i)]) = expired t + if r.expires i = true then 1 else 0 := by
  unfold expired
  rw [List.countP_append, List.countP_singleton]

/-- A step that begins nothing new keeps the invariant, where it keeps what it says of the
timeouts, the attempts and the verdicts. -/
theorem budgeted_frame (h : Budgeted ctx m t r) (hquiet : .toFsm .timeout ∉ r'.ops)
    (hfirst : EventFirst r'.ops) (hbegun : begun (t ++ [(r, i)]) r' = begun t r)
    (htimeouts : expired (t ++ [(r, i)]) + r'.timeouts ≤ expired t + r.timeouts)
    (hattempts : r'.session.totalAttempts = attempts (done (t ++ [(r, i)])))
    (hverdict : ∀ rest, r'.ops = .toFsm .notApproveQuorum :: rest →
      r'.session.totalAttempts ≤ ctx.quorum.maxAttempts.toNat)
    (hinTime : stage (course.after (begun t r)) ≤ 5 →
      InTime (limit ctx (begun t r)) (expired (t ++ [(r, i)])) r'.events)
    (hvisit : r'.past.visit = r.past.visit) : Budgeted ctx m (t ++ [(r, i)]) r' where
  quiet := hquiet
  first := hfirst
  holds := by
    rw [hbegun]
    exact h.holds
  last := by
    rw [hbegun]
    exact h.last
  timeouts := by
    rw [hbegun]
    exact htimeouts.trans h.timeouts
  attempts := hattempts
  verdict := hverdict
  inTime := by
    rw [hbegun]
    exact hinTime
  slack := by
    have hslack := h.slack
    rw [hbegun, expired_snoc]
    omega
  visit := by
    rw [hbegun, hvisit]
    exact h.visit
  ins_le := by
    rw [hbegun]
    exact h.ins_le
  outs_le := by
    rw [hbegun]
    exact h.outs_le

/-- What a command adds neither enters a state nor starts the watchdog. -/
theorem onCommand_silent (manager : NetworkManager) (epoch : UInt32) (session : UpdateSession)
    (c : FsmServiceCommand) :
    (onCommand manager epoch session c).2.1.totalAttempts = session.totalAttempts ∧
      Countdown.starts (kinds (onCommand manager epoch session c).2.2) = 0 ∧
      ∀ rest, (onCommand manager epoch session c).2.2 ≠ .toFsm .notApproveQuorum :: rest := by
  have hempty : ∀ k v, (session.insertEmpty k v).totalAttempts = session.totalAttempts := by
    intro k v
    unfold UpdateSession.insertEmpty
    split <;> rfl
  have ht := taken manager epoch session c
  generalize onCommand manager epoch session c = out at ht ⊢
  cases ht with
  | silent => exact ⟨rfl, rfl, nofun⟩
  | handshake hs he =>
    refine ⟨?_, rfl, by simp⟩
    unfold UpdateSession.insertHandshake
    split <;> rfl
  | @empty msg hs =>
    have hattempts : (quorumPhase manager session (.emptyQueue msg)).1.totalAttempts =
        session.totalAttempts := by
      rw [quorumPhase_eq]
      split
      · exact hempty _ _
      · rfl
    rcases (quorumPhase_cases manager session (.emptyQueue msg)).2 with h | h <;>
      exact ⟨hattempts, by rw [h]; rfl, by rw [h]; simp⟩
  | @emptySafe msg hs =>
    have hattempts : (quorumSafeMode manager session (.emptyQueueSafe msg)).1.totalAttempts =
        session.totalAttempts := by
      rw [quorumSafeMode_eq]
      split
      · exact hempty _ _
      · rfl
    rcases (quorumSafeMode_cases manager session (.emptyQueueSafe msg)).2 with h | h <;>
      exact ⟨hattempts, by rw [h]; rfl, by rw [h]; simp⟩
  | errorEpoch => exact ⟨rfl, rfl, by simp⟩
  | epoch => exact ⟨rfl, rfl, by simp⟩

theorem handleAction_attempts (manager : NetworkManager) (epoch : UInt32)
    (session : UpdateSession) (now : Int64) (jitter : UInt32) (a : Action) :
    (handleAction ctx manager epoch session now jitter a).1.totalAttempts =
      a.enters.foldl attempt session.totalAttempts := by
  cases a with
  | onEntryBalance sub => cases sub <;> rfl
  | onEntryQuorum sub => cases sub <;> rfl
  | onEntryPhase sub => cases sub <;> rfl
  | _ => rfl

/-- A verdict that allows a repetition is sent within the attempts. -/
theorem attempts_le_of_verdict {manager : NetworkManager} {session : UpdateSession}
    (h : quorumAlgorithm ctx manager session = .notApproveQuorum) :
    session.totalAttempts ≤ ctx.quorum.maxAttempts.toNat := by
  unfold quorumAlgorithm at h
  split at h
  · cases h
  · omega

/-- The timeouts taken do not outnumber the entries executed. -/
theorem expired_le_done (h : expired t + r.timeouts ≤ (begun t r).length) :
    expired t + r.events.countP (fun e => e.1 == .timeout) ≤ (done t).length := by
  have hcredit : Countdown.starts (kinds r.pending) ≤ r.timer.credit r.told := by
    unfold Runtime.told
    rw [Countdown.credit_append]
    omega
  have henters := length_enters_le r.pending
  unfold begun at h
  unfold Runtime.timeouts at h
  rw [List.length_append] at h
  omega

/-- A verdict that is sent within the attempts is in time. -/
theorem done_le_limit (h : Budgeted ctx m t r)
    (hattempts : r.session.totalAttempts ≤ ctx.quorum.maxAttempts.toNat)
    (hstage : stage (course.after (begun t r)) ≤ 5) :
    (done t).length ≤ limit ctx (begun t r) := by
  have hle : stage (course.after (done t)) ≤ stage (course.after (begun t r)) :=
    stage_le_append _ h.holds
  obtain ⟨-, hearly, hphase, -, hlate⟩ := counts_of_holds h.holds.before
  have hins : ins (begun t r) = ins (done t) + ins (r.pending.flatMap Op.enters) := ins_append _ _
  rw [h.attempts] at hattempts
  unfold limit
  split
  · have := (hearly (by omega)).2
    omega
  · by_cases h1 : stage (course.after (done t)) ≤ 1
    · have := (hearly h1).2
      omega
    · by_cases h4 : stage (course.after (done t)) ≤ 4
      · have := (hphase (by omega) h4).1
        omega
      · have := (hlate (by omega)).1
        omega

/-- Where no action is executed and no event taken, only what is on its way is left to show. -/
theorem budgeted_still (h : Budgeted ctx m t r) (hquiet : .toFsm .timeout ∉ r'.ops)
    (hfirst : EventFirst r'.ops) (hnone : r.enters i = [])
    (hexpires : r.expires i = false) (hp : r'.pending = r.pending)
    (htimeouts : r'.timeouts ≤ r.timeouts) (hsession : r'.session = r.session)
    (hops : ∀ rest, r'.ops = .toFsm .notApproveQuorum :: rest → r'.ops = r.ops)
    (hin : InTime (limit ctx (begun t r)) (expired t) r.events →
      InTime (limit ctx (begun t r)) (expired t) r'.events)
    (hvisit : r'.past.visit = r.past.visit) : Budgeted ctx m (t ++ [(r, i)]) r' := by
  have hdone : done (t ++ [(r, i)]) = done t := by
    rw [done_snoc, hnone, List.append_nil]
  have hexpired : expired (t ++ [(r, i)]) = expired t := by
    rw [expired_snoc, hexpires]
    rfl
  refine budgeted_frame h hquiet hfirst ?_ ?_ ?_ ?_ ?_ hvisit
  · unfold begun
    rw [hdone, hp]
  · rw [hexpired]
    omega
  · rw [hsession, hdone]
    exact h.attempts
  · intro rest hrest
    rw [hsession]
    exact h.verdict rest (hops rest hrest ▸ hrest)
  · rw [hexpired]
    exact fun hle => hin (h.inTime hle)

/-- Of what is on its way to the machine, a send takes nothing away. -/
theorem budgeted_send (h : Budgeted ctx m t r) {o : Op} {rest : List Op} {now : Int64}
    {jitter : Fin 11} (ho : r.ops = o :: rest) (hs : o.isSend = true)
    (hops : r'.ops = rest) (hp : r.pending = o :: r'.pending) (hsession : r'.session = r.session)
    (hpast : r'.past = r.past) (htimeouts : r'.timeouts = r.timeouts)
    (hinTime : stage (course.after (begun t r)) ≤ 5 →
      InTime (limit ctx (begun t r)) (expired t) r'.events) :
    Budgeted ctx m (t ++ [(r, .work now jitter)]) r' := by
  have hfirst := h.first
  rw [ho] at hfirst
  have hnone : r.enters (.work now jitter) = [] := by
    simp only [Runtime.enters, ho]
    cases o <;> first | rfl | cases hs
  have hdone : done (t ++ [(r, .work now jitter)]) = done t := by
    rw [done_snoc, hnone, List.append_nil]
  have hexpired : expired (t ++ [(r, .work now jitter)]) = expired t := expired_snoc
  have hbegun : begun (t ++ [(r, .work now jitter)]) r' = begun t r := by
    have ho' : o.enters = [] := by
      cases o <;> first | rfl | cases hs
    unfold begun
    rw [hdone, hp, List.flatMap_cons, ho', List.nil_append]
  refine budgeted_frame h ?_ ?_ hbegun ?_ ?_ ?_ ?_ ?_
  · rw [hops]
    exact fun hmem => h.quiet (ho ▸ List.mem_cons_of_mem _ hmem)
  · rw [hops]
    exact (eventFirst_tail hfirst).1
  · rw [hexpired, htimeouts]
  · rw [hsession, hdone]
    exact h.attempts
  · intro rest' hrest
    rw [hops] at hrest
    exact absurd hrest (tail_ne_toFsm hfirst _ _)
  · rw [hexpired]
    exact hinTime
  · rw [hpast]

theorem budgeted_command (h : Budgeted ctx m t r) (ho : r.ops = []) (c : FsmServiceCommand)
    (hquiet : .toFsm .timeout ∉
      (r.afterCommand c (onCommand r.manager r.currentEpoch r.session c)).ops)
    (hfirst : EventFirst
      (r.afterCommand c (onCommand r.manager r.currentEpoch r.session c)).ops) :
    Budgeted ctx m (t ++ [(r, .command c)])
      (r.afterCommand c (onCommand r.manager r.currentEpoch r.session c)) := by
  have hp := Runtime.pending_afterCommand ho c (onCommand r.manager r.currentEpoch r.session c)
  obtain ⟨-, hsends⟩ := onCommand_sends r.manager r.currentEpoch r.session c
  obtain ⟨hattempts, hstarts, hverdict⟩ :=
    onCommand_silent r.manager r.currentEpoch r.session c
  have hdone : done (t ++ [(r, .command c)]) = done t := by
    rw [done_snoc]
    exact List.append_nil _
  have hexpired : expired (t ++ [(r, .command c)]) = expired t := expired_snoc
  refine budgeted_frame h hquiet hfirst ?_ ?_ ?_ ?_ ?_ ?_
  · unfold begun
    rw [hdone, hp, List.flatMap_append, enters_of_sends hsends, List.nil_append]
  · rw [hexpired]
    have hcredit : (r.afterCommand c (onCommand r.manager r.currentEpoch r.session c)).timeouts =
        r.timeouts := by
      unfold Runtime.timeouts Runtime.told
      rw [hp, kinds_append, Countdown.credit_append, Countdown.starts_append, hstarts,
        Nat.zero_add, ← Countdown.credit_append]
      rfl
    omega
  · rw [hdone, ← h.attempts]
    exact hattempts
  · exact fun rest hrest => absurd hrest (hverdict rest)
  · rw [hexpired]
    exact h.inTime
  · exact Past.hear_visit _ _ _

theorem budgeted_act (h : Budgeted ctx m t r) {a : Action} {rest : List Op} {now : Int64}
    {jitter : Fin 11} (ho : r.ops = .act a :: rest)
    (hquiet : .toFsm .timeout ∉ (r.afterAct a rest (handleAction ctx r.manager r.currentEpoch
      r.session now jitter.val.toUInt32 a)).ops)
    (hfirst : EventFirst (r.afterAct a rest (handleAction ctx r.manager r.currentEpoch
      r.session now jitter.val.toUInt32 a)).ops) :
    Budgeted ctx m (t ++ [(r, .work now jitter)])
      (r.afterAct a rest
        (handleAction ctx r.manager r.currentEpoch r.session now jitter.val.toUInt32 a)) := by
  obtain ⟨p, hp, hout⟩ := Runtime.pending_afterAct ho
  have hp' := hout
    (handleAction ctx r.manager r.currentEpoch r.session now jitter.val.toUInt32 a)
  have hdone : done (t ++ [(r, .work now jitter)]) = done t ++ a.enters := by
    rw [done_snoc]
    simp only [Runtime.enters, ho]
  have hexpired : expired (t ++ [(r, .work now jitter)]) = expired t := expired_snoc
  have hsends := handleAction_sends ctx r.manager r.currentEpoch r.session now
    jitter.val.toUInt32 a
  refine budgeted_frame h hquiet hfirst ?_ ?_ ?_ ?_ ?_ ?_
  · unfold begun
    rw [hdone, hp, hp', List.flatMap_append, enters_of_sends hsends, List.nil_append,
      List.append_assoc]
    rfl
  · have htold : (r.afterAct a rest (handleAction ctx r.manager r.currentEpoch r.session now
        jitter.val.toUInt32 a)).timeouts = r.timeouts := by
      unfold Runtime.timeouts Runtime.told
      rw [hp, hp', kinds_append, handleAction_kinds]
      rfl
    rw [hexpired, htold]
  · rw [hdone, attempts, List.foldl_append, ← attempts, ← h.attempts]
    exact handleAction_attempts _ _ _ _ _ _
  · intro rest' hrest
    have hfirst := h.first
    rw [ho] at hfirst
    have hmem := mem_sends_of_next hfirst hrest
    obtain ⟨heval, hverdict⟩ := handleAction_event ctx r.manager r.currentEpoch r.session now
      jitter.val.toUInt32 hmem
    have hsame := (handled ctx r.manager r.currentEpoch r.session now
      jitter.val.toUInt32 a).attempts heval
    have hle := attempts_le_of_verdict hverdict.symm
    exact hsame ▸ hle
  · rw [hexpired]
    exact h.inTime
  · rfl

/-- `run_fsm` takes an event. -/
theorem expired_take {e : Event} {v : Nat} {rest : List (Event × Nat)} (hb : r.outbox = none)
    (he : r.events = (e, v) :: rest) :
    expired (t ++ [(r, .runFsm)]) = expired t + if e = .timeout then 1 else 0 := by
  rw [expired_snoc]
  congr 1
  unfold Runtime.expires
  rw [hb, he]
  cases e <;> rfl

/-- A handshake in begins only after `InitBalanceMode`, or by a verdict that is in time. -/
theorem ins_le_of_row (h : Budgeted ctx m t r) {e : Event} {entries : List Mode} {starts : Nat}
    (hrow : m.Enters e m' entries starts)
    (hpromise : stage (course.after (begun t r)) ≤ 5 → e = .notApproveQuorum →
      expired t ≤ limit ctx (begun t r)) :
    ins (begun t r) + ins entries ≤ ctx.quorum.maxAttempts.toNat + 2 := by
  have hle := h.ins_le
  have hslack := h.slack
  rcases hrow.ins with hnone | ⟨hone, rfl | ⟨rfl, hverdict⟩⟩
  · omega
  · have hnone : course.after (begun t r) = none := List.mem_singleton.mp h.last
    have := ((counts_of_holds h.holds).none (by rw [hnone]; rfl)).2
    omega
  · have hearly : stage (course.after (begun t r)) ≤ 1 := by
      rcases List.mem_pair.mp h.last with hlast | hlast <;> rw [hlast] <;> decide
    have hin := hpromise (by omega) hverdict
    have hslack' : Mode.checkIn.slack = 0 := rfl
    unfold limit at hin
    rw [if_pos hearly] at hin
    omega

/-- A handshake out begins only after the phases, or by a verdict that is in time. -/
theorem outs_le_of_row (h : Budgeted ctx m t r) {e : Event} {entries : List Mode} {starts : Nat}
    (hrow : m.Enters e m' entries starts)
    (hpromise : stage (course.after (begun t r)) ≤ 5 → e = .notApproveQuorum →
      expired t ≤ limit ctx (begun t r)) :
    outs (begun t r) + outs entries ≤ ctx.quorum.maxAttempts.toNat + 6 := by
  have hle := h.outs_le
  have hslack := h.slack
  rcases hrow.outs with hnone | ⟨hone, rfl | ⟨rfl, hverdict⟩⟩
  · omega
  · have hmonitor : course.after (begun t r) = some .monitor := List.mem_singleton.mp h.last
    have := (counts_of_holds h.holds).before (by rw [hmonitor]; decide)
    omega
  · have hlate : stage (course.after (begun t r)) = 5 := by
      rcases List.mem_pair.mp h.last with hlast | hlast <;> rw [hlast] <;> rfl
    have hin := hpromise (by omega) hverdict
    have hslack' : Mode.checkOut.slack = 1 := rfl
    unfold limit at hin
    rw [if_neg (by omega)] at hin
    omega

/-- The list of a transition is announced: what was promised of the event is used up. -/
theorem budgeted_advance (h : Budgeted ctx m t r) {e : Event} {v : Nat}
    {rest : List (Event × Nat)} {l : List Action} (hb : r.outbox = none)
    (he : r.events = (e, v) :: rest) (hn : m.next e = some (m', l)) :
    Budgeted ctx m' (t ++ [(r, .runFsm)]) (r.advanced cap m m' rest l) := by
  have hrow := Mode.enters_row hn
  generalize hentries : (l.map Op.act).flatMap Op.enters = entries at hrow
  have hpending := Runtime.pending_advanced cap hb m m' rest l
  have hexpired : expired (t ++ [(r, .runFsm)]) = _ := expired_take hb he
  have hdone : done (t ++ [(r, .runFsm)]) = done t := by
    rw [done_snoc]
    exact List.append_nil _
  have hbegun : begun (t ++ [(r, .runFsm)]) (r.advanced cap m m' rest l) =
      begun t r ++ entries := by
    unfold begun
    rw [hdone, hpending, List.flatMap_append, hentries, List.append_assoc]
  have hreaches := hrow.lasts _ h.last
  have hholds : course.Holds (begun t r ++ entries) ∧
      course.after (begun t r ++ entries) ∈ m'.lasts := by
    rcases entries with _ | ⟨n, _ | ⟨n', entries⟩⟩
    · rw [List.append_nil]
      exact ⟨h.holds, hreaches⟩
    · rw [Order.after_snoc]
      exact ⟨(Order.holds_snoc course).mpr ⟨h.holds, hreaches.1⟩, hreaches.2⟩
    · exact absurd hreaches id
  have hstage := stage_le_append entries hholds.1
  have hins : ins (begun t r ++ entries) = ins (begun t r) + ins entries := ins_append _ _
  have houts : outs (begun t r ++ entries) = outs (begun t r) + outs entries := outs_append _ _
  have hslack := h.slack
  have hpromise : stage (course.after (begun t r)) ≤ 5 → e = .notApproveQuorum →
      expired t ≤ limit ctx (begun t r) := by
    intro hle hverdict
    have hintime := h.inTime hle
    rw [he] at hintime
    exact hintime.1 hverdict
  constructor
  · rw [Runtime.advanced_ops]
    exact h.quiet
  · rw [Runtime.advanced_ops]
    exact h.first
  · rw [hbegun]
    exact hholds.1
  · rw [hbegun]
    exact hholds.2
  · have htaken : (r.events.countP fun e => e.1 == .timeout) =
        (rest.countP fun e => e.1 == .timeout) + if e = .timeout then 1 else 0 := by
      rw [he, List.countP_cons]
      simp
    have hnew : (r.advanced cap m m' rest l).timeouts =
        (rest.countP fun e => e.1 == .timeout) + (r.timer.credit r.told + entries.length) := by
      unfold Runtime.timeouts Runtime.told
      rw [hpending, kinds_append, ← List.append_assoc, Countdown.credit_append, hrow.starts]
      simp
    have htimeouts := h.timeouts
    have hold : r.timeouts = (r.events.countP fun e => e.1 == .timeout) + r.timer.credit r.told :=
      rfl
    rw [hbegun, hexpired, List.length_append]
    omega
  · rw [hdone, Runtime.advanced_session]
    exact h.attempts
  · rw [Runtime.advanced_ops, Runtime.advanced_session]
    exact h.verdict
  · rw [hbegun, hexpired, Runtime.advanced_events]
    intro hle
    have hintime := h.inTime (hstage.trans hle)
    rw [he] at hintime
    refine inTime_mono ?_ hintime.2
    unfold limit
    split
    · split <;> omega
    · rw [if_neg (by omega)]
      omega
  · have := hrow.slack
    rw [hbegun, hexpired]
    omega
  · have hvisits := hrow.visits
    have hvisit := h.visit
    rw [hbegun, Runtime.advanced_past]
    show (if m' = m then r.past.visit else r.past.visit + 1) ≤ _
    split at hvisits <;> simp only [*, if_true, if_false] <;> omega
  · rw [hbegun, hins]
    exact ins_le_of_row h hrow hpromise
  · rw [hbegun, houts]
    exact outs_le_of_row h hrow hpromise

theorem budgeted_step (h : Budgeted ctx m t r) (hmove : Move ctx cap m r i m' r') :
    Budgeted ctx m' (t ++ [(r, i)]) r' := by
  have hquiet := no_timeout_step h.quiet hmove
  have hfirst := eventFirst_step h.first hmove
  cases hmove with
  | command ho => exact budgeted_command h ho _ hquiet hfirst
  | act ho => exact budgeted_act h ho hquiet hfirst
  | advance hb he hn => exact budgeted_advance h hb he hn
  | @take _ visit l rest ho ha =>
    have hp := Runtime.pending_take ho ha { r.past with serving := visit }
    refine budgeted_still h hquiet hfirst rfl rfl hp ?_ rfl ?_ id rfl
    · unfold Runtime.timeouts Runtime.told
      rw [hp]
    · intro rest' hrest
      cases l <;> cases hrest
  | @sendFsm _ e rest now jitter ho hr =>
    have hp := Runtime.pending_send ho (r.events ++ [(e, 0)]) r.timerQueue
    have hne : e ≠ .timeout := by
      rintro rfl
      exact h.quiet (ho ▸ List.mem_cons_self)
    refine budgeted_send h ho rfl rfl hp rfl rfl ?_ ?_
    · unfold Runtime.timeouts Runtime.told
      rw [hp]
      simp [List.countP_append, hne, Op.kinds]
    · intro hle
      refine inTime_append.mpr ⟨h.inTime hle, fun hverdict => ?_, trivial⟩
      subst hverdict
      exact (expired_le_done h.timeouts).trans (done_le_limit h (h.verdict rest ho) hle)
  | @sendTimer _ e rest now jitter ho hr =>
    have hp := Runtime.pending_send ho r.events (r.timerQueue ++ [(e, r.past.serving)])
    refine budgeted_send h ho rfl rfl hp rfl rfl ?_ h.inTime
    unfold Runtime.timeouts Runtime.told
    rw [hp]
    simp [Op.kinds]
  | @output _ o rest now jitter ho hout =>
    have hp := Runtime.pending_send ho r.events r.timerQueue
    have hsend : o.isSend = true ∧ o.kinds = [] := by
      cases o <;> first | exact ⟨rfl, rfl⟩ | cases hout
    refine budgeted_send h ho hsend.1 rfl hp rfl rfl ?_ h.inTime
    unfold Runtime.timeouts Runtime.told
    rw [hp]
    simp [hsend.2]
  | deliver hb hr =>
    have hp := Runtime.pending_deliver hb
    refine budgeted_still h hquiet hfirst rfl ?_ hp ?_ rfl (fun _ _ => rfl) id rfl
    · unfold Runtime.expires
      rw [hb]
    · unfold Runtime.timeouts Runtime.told
      rw [hp]
  | @refuse _ e v rest hb he hn =>
    have hdone : done (t ++ [(r, .runFsm)]) = done t := by
      rw [done_snoc]
      exact List.append_nil _
    have hexpired : expired (t ++ [(r, .runFsm)]) = _ := expired_take hb he
    refine budgeted_frame h hquiet hfirst ?_ ?_ ?_ h.verdict ?_ rfl
    · unfold begun
      rw [hdone]
      rfl
    · have hcount : r.timeouts = (rest.countP (fun e => e.1 == .timeout) +
          if e = .timeout then 1 else 0) + r.timer.credit r.told := by
        unfold Runtime.timeouts
        rw [he, List.countP_cons]
        simp
      rw [hexpired, hcount]
      show _ + (rest.countP _ + r.timer.credit r.told) ≤ _
      omega
    · rw [hdone]
      exact h.attempts
    · intro hle
      have hintime := h.inTime hle
      rw [he] at hintime
      rw [hexpired]
      exact hintime.2
  | @receive _ c rest timer hq ht =>
    refine budgeted_still h hquiet hfirst rfl rfl rfl ?_ rfl (fun _ _ => rfl) id rfl
    have hcredit := Countdown.credit_receive
      (q := rest.map (fun c => c.1.kind) ++ kinds r.pending) ht
    rw [timerCmd_kind] at hcredit
    unfold Runtime.timeouts Runtime.told
    rw [hq]
    show r.events.countP _ + timer.credit (rest.map _ ++ kinds r.pending) ≤ _
    exact Nat.add_le_add_left hcredit _
  | @expire _ timer out ht =>
    refine budgeted_still h hquiet hfirst rfl rfl rfl ?_ rfl (fun _ _ => rfl) ?_ rfl
    · have hcredit := Countdown.credit_expire ht r.told
      have hcount : ((out.map (fun visit => (Event.timeout, visit))).toList).countP
          (fun e => e.1 == .timeout) = out.toList.length := by
        cases out <;> rfl
      unfold Runtime.timeouts
      show (r.events ++ _).countP _ + timer.credit r.told ≤ _
      rw [List.countP_append, hcount]
      omega
    · intro hin
      refine inTime_append.mpr ⟨hin, ?_⟩
      cases out with
      | none => trivial
      | some visit => exact ⟨fun hverdict => absurd hverdict (by decide), trivial⟩
  | network =>
    exact budgeted_still h hquiet hfirst rfl rfl rfl (Nat.le_refl _) rfl (fun _ _ => rfl) id rfl

end Steps

theorem budgeted_start (ctx : AppContext) (cap : Option Nat) (manager : NetworkManager) :
    Budgeted ctx .init [] (Runtime.start cap manager) := by
  have hpending := pending_start cap manager
  have hqueue : (Runtime.start cap manager).timerQueue = [] := by
    rw [start_eq, Runtime.sendActions_timerQueue]
    rfl
  have hbegun : begun [] (Runtime.start cap manager) = [] := by
    unfold begun
    rw [hpending]
    rfl
  constructor
  · rw [ops_start]
    exact List.not_mem_nil
  · rw [ops_start]
    exact fun o ho => absurd ho List.not_mem_nil
  · rw [hbegun]
    exact Order.holds_nil course
  · rw [hbegun]
    decide
  · have htimeouts : (Runtime.start cap manager).timeouts = 0 := by
      unfold Runtime.timeouts Runtime.told
      rw [hpending, hqueue]
      simp [Countdown.credit, Countdown.starts, Op.kinds, Action.kinds]
    rw [htimeouts]
    exact Nat.zero_le _
  · rw [session_start]
    rfl
  · intro rest hrest
    rw [ops_start] at hrest
    cases hrest
  · rw [events_start]
    exact fun _ => trivial
  · rw [hbegun]
    decide
  · rw [past_start]
    exact Nat.le_add_left _ _
  · rw [hbegun]
    exact Nat.zero_le _
  · rw [hbegun]
    exact Nat.zero_le _

theorem run_budgeted {ctx : AppContext} {cap : Option Nat} {t : List (Runtime × Label)}
    {r : Runtime} (run : (machine ctx cap).Run t r) :
    ∃ m : Mode, r.state = m.state ∧ Budgeted ctx m t r := by
  refine run.history (fun t r => ∃ m : Mode, r.state = m.state ∧ Budgeted ctx m t r) ?_ ?_
  · rintro r ⟨manager, rfl⟩
    exact ⟨.init, state_start cap manager, budgeted_start ctx cap manager⟩
  · rintro t r i r' ⟨m, hm, h⟩ hs
    obtain ⟨m', hm', hmove⟩ := move_of_step hm hs
    exact ⟨m', hm', budgeted_step h hmove⟩

/-! ## The laws -/

/-- In every run the hubs hear handshakes in, then each phase once and in its place, then
handshakes out: nothing that belongs earlier comes later. -/
theorem the_hubs_hear_one_course (ctx : AppContext) (cap : Option Nat)
    (t : List (Runtime × Label)) (r : Runtime) (run : (machine ctx cap).Run t r) :
    balancing.Holds (Machine.log Runtime.tells t) := by
  obtain ⟨m, -, h⟩ := run_budgeted run
  have hnotices := (balancing_of_course h.holds).1
  rw [← run_notices run] at hnotices
  exact hnotices.before

theorem visit_le {ctx : AppContext} {m : Mode} {t : List (Runtime × Label)} {r : Runtime}
    (h : Budgeted ctx m t r) : r.past.visit ≤ 4 * ctx.quorum.maxAttempts.toNat + 22 := by
  have hins := h.ins_le
  have houts := h.outs_le
  have hvisit := h.visit
  have hmode : m.visits ≤ 6 := by cases m <;> decide
  omega

theorem count_notices (entries : List Mode) :
    (entries.filterMap Mode.notice).count .handshakeIn = ins entries ∧
      (entries.filterMap Mode.notice).count .handshakeOut = outs entries := by
  induction entries with
  | nil => exact ⟨rfl, rfl⟩
  | cons n entries ih =>
    unfold ins outs at *
    rw [List.countP_cons, List.countP_cons, ← ih.1, ← ih.2]
    cases n <;> simp [List.filterMap_cons, Mode.notice, Mode.isIn, Mode.isOut]

/-- A balancing does not go on for ever, whatever the hubs send: handshakes are repeated as often
as the settings allow attempts, once more for those in and up to five times more for those out,
and the machine changes its state a bounded number of times. -/
theorem the_balancing_is_bounded (ctx : AppContext) (cap : Option Nat)
    (t : List (Runtime × Label)) (r : Runtime) (run : (machine ctx cap).Run t r) :
    (Machine.log Runtime.tells t).count .handshakeIn ≤ ctx.quorum.maxAttempts.toNat + 2 ∧
      (Machine.log Runtime.tells t).count .handshakeOut ≤ ctx.quorum.maxAttempts.toNat + 6 ∧
      r.past.visit ≤ 4 * ctx.quorum.maxAttempts.toNat + 22 := by
  obtain ⟨m, -, h⟩ := run_budgeted run
  have hin := (count_notices (begun t r)).1
  have hout := (count_notices (begun t r)).2
  rw [← run_notices run, List.count_append] at hin hout
  have hins := h.ins_le
  have houts := h.outs_le
  refine ⟨?_, ?_, visit_le h⟩ <;> omega

/-! ## Concrete runs -/

/-- A check finds no answer, and the handshake is repeated; the list of the check takes `n`
operations. -/
def runsOut (n : Nat) : List Label :=
  [.timerExpire, .runFsm, .takeActions] ++ works n ++ [.runFsm, .takeActions] ++ works 3 ++
    [.timerReceive]

/-- No hub ever answers. -/
def silence : List Label :=
  toInHandshake ++ runsOut 3 ++ runsOut 2 ++ runsOut 2 ++ runsOut 2 ++
    [.timerExpire, .runFsm, .takeActions] ++ works 2 ++ [.runFsm]

/-- With three attempts five handshakes are sent, then the machine is in safe mode. -/
theorem silent_hubs_are_asked_five_times :
    ∃ (t : List (Runtime × Label)) (r : Runtime), (machine sampleContext none).Run t r ∧
      r.state = Mode.safeMode.state ∧
      (Machine.log Runtime.tells t).count .handshakeIn = 5 ∧
      (Machine.log Runtime.tells t).count .handshakeIn ≤
        sampleContext.quorum.maxAttempts.toNat + 2 := by
  have hrun := Machine.run_of_final silence (init_start sampleContext none sampleCache)
    (by decide +kernel)
  exact ⟨_, _, hrun, by decide +kernel, by decide +kernel,
    (the_balancing_is_bounded _ _ _ _ hrun).1⟩

theorem silent_hubs_hear_handshakes_only :
    ∃ (t : List (Runtime × Label)) (r : Runtime), (machine sampleContext none).Run t r ∧
      Machine.log Runtime.tells t = List.replicate 5 .handshakeIn ∧
      balancing.Holds (Machine.log Runtime.tells t) := by
  have hrun := Machine.run_of_final silence (init_start sampleContext none sampleCache)
    (by decide +kernel)
  exact ⟨_, _, hrun, by decide +kernel, the_hubs_hear_one_course _ _ _ _ hrun⟩

end EdgeGateway.Fsm
