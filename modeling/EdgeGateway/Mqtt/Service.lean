-- `MqttService::run` beside its task `mqtt`, and the three channels between them.
-- The task takes messages for the broker only while it works, and a command for the
-- topology waits behind them in the service: so messages that come before the
-- networks are ready can keep the client from ever starting.
import EdgeGateway.Core.Domain
import EdgeGateway.Lib.Actors
import EdgeGateway.Lib.Flow

namespace EdgeGateway.Mqtt

open EdgeGateway.Lib EdgeGateway.Message EdgeGateway.Networks

/-! ## The two tasks -/

/-- Where `MqttService::run` is suspended: in its select, sending a command to `mqtt`, or
sending an event to the core. -/
inductive Service where
  | listening
  | sending (cmd : Core.MqttCommand)
  | forwarding (event : InternalEvent)
  deriving Repr, DecidableEq

/-- Where `mqtt` is suspended: in one of its states, or sending an event and then going on. -/
inductive Task where
  | at (state : StateClient)
  | telling (event : InternalEvent) (next : StateClient)

/-- What the event loop of the connection reports. -/
inductive Notification where
  | publish (decoded : Option HubMessage)
  | connAck
  | disconnect
  | other
  | error
  deriving Repr, DecidableEq

/-- The event that a report gives the core. -/
def Notification.event : Notification → Option InternalEvent
  | .publish decoded => some (.incomingMessage decoded)
  | .connAck => some .localConnected
  | .disconnect => some .localDisconnected
  | .other => none
  | .error => some .localDisconnected

/-- The capacity of the channels between the two. -/
def capacity : Option Nat := some 100

structure Bridge where
  service : Service
  task : Task
  msgs : List SerializedMessage
  nets : List MqttServiceCommand
  events : List InternalEvent
  published : List SerializedMessage

/-- A step is one of the tasks going on, with what it finds outside: the core, the topology,
the broker, the clock. -/
inductive Bridge.Label where
  | command (cmd : Core.MqttCommand)
  | queue
  | takeEvent
  | forward
  | net (m : NetworkManager) (calls : Calls)
  | connect (m : NetworkManager) (certificates : Bool) (calls : Calls)
  | poll (notification : Notification)
  | publish (ok : Bool)
  | sendEvent
  | wake

namespace Bridge

def new : Bridge :=
  { service := .listening, task := .at .waiting, msgs := [], nets := [], events := [],
    published := [] }

/-- The select of `MqttService::run` and the sends in its arms. -/
def runService (b : Bridge) : Label → Option Bridge
  | .command cmd =>
    match b.service with
    | .listening => some { b with service := .sending cmd }
    | _ => none
  | .queue =>
    match b.service with
    | .sending (.serialized msg) =>
      if room capacity b.msgs then
        some { b with service := .listening, msgs := b.msgs ++ [msg] }
      else none
    | .sending (.net cmd) =>
      if room capacity b.nets then
        some { b with service := .listening, nets := b.nets ++ [cmd] }
      else none
    | _ => none
  | .takeEvent =>
    match b.service, b.events with
    | .listening, e :: rest => some { b with service := .forwarding e, events := rest }
    | _, _ => none
  | .forward =>
    match b.service with
    | .forwarding _ => some { b with service := .listening }
    | _ => none
  | _ => none

/-- The states of `mqtt` and the sends on their way. -/
def mqtt (b : Bridge) : Label → Option Bridge
  | .net m calls =>
    match b.task, b.nets with
    | .at state, cmd :: rest =>
      (state.command m calls cmd).map (fun state => { b with task := .at state, nets := rest })
    | _, _ => none
  | .connect m certificates calls =>
    match b.task with
    | .at state =>
      (state.connect m certificates calls).map (fun state => { b with task := .at state })
    | _ => none
  | .poll notification =>
    match b.task with
    | .at (.work subs) =>
      match notification.event with
      | some e =>
        -- only an error of the connection ends the work
        let next := if notification = .error then StateClient.error else .work subs
        some { b with task := .telling e next }
      | none => some b
    | _ => none
  | .publish ok =>
    match b.task, b.msgs with
    | .at (.work _), msg :: rest =>
      some { b with msgs := rest, published := if ok then b.published ++ [msg] else b.published }
    | _, _ => none
  | .sendEvent =>
    match b.task with
    | .telling e next =>
      if room capacity b.events then some { b with task := .at next, events := b.events ++ [e] }
      else none
    | _ => none
  | .wake =>
    match b.task with
    | .at state => state.retry.map (fun state => { b with task := .at state })
    | _ => none
  | _ => none

def step (b : Bridge) : Label → Option Bridge
  | .command cmd => b.runService (.command cmd)
  | .queue => b.runService .queue
  | .takeEvent => b.runService .takeEvent
  | .forward => b.runService .forward
  | i => b.mqtt i

end Bridge

def bridge : Machine Bridge Bridge.Label where
  init := fun b => b = Bridge.new
  step := Bridge.step

/-- A run of the two tasks: the states left and the steps taken there. -/
abbrev Trace : Type := List (Bridge × Bridge.Label)

/-! ## One step -/

/-- What a step can be. -/
inductive Bridge.Move (b : Bridge) : Bridge.Label → Bridge → Prop where
  | command {cmd : Core.MqttCommand} (h : b.service = .listening) :
    Move b (.command cmd) { b with service := .sending cmd }
  | queueMsg {msg : SerializedMessage} (h : b.service = .sending (.serialized msg))
    (hroom : room capacity b.msgs = true) :
    Move b .queue { b with service := .listening, msgs := b.msgs ++ [msg] }
  | queueNet {cmd : MqttServiceCommand} (h : b.service = .sending (.net cmd))
    (hroom : room capacity b.nets = true) :
    Move b .queue { b with service := .listening, nets := b.nets ++ [cmd] }
  | takeEvent {e : InternalEvent} {rest : List InternalEvent} (h : b.service = .listening)
    (he : b.events = e :: rest) :
    Move b .takeEvent { b with service := .forwarding e, events := rest }
  | forward {e : InternalEvent} (h : b.service = .forwarding e) :
    Move b .forward { b with service := .listening }
  | net {m : NetworkManager} {calls : Calls} {state next : StateClient} {cmd : MqttServiceCommand}
    {rest : List MqttServiceCommand} (h : b.task = .at state) (hn : b.nets = cmd :: rest)
    (hc : state.command m calls cmd = some next) :
    Move b (.net m calls) { b with task := .at next, nets := rest }
  | connect {m : NetworkManager} {certificates : Bool} {calls : Calls} {next : StateClient}
    (h : b.task = .at .init) (hc : StateClient.init.connect m certificates calls = some next) :
    Move b (.connect m certificates calls) { b with task := .at next }
  | quiet {subs : Subs} {notification : Notification} (h : b.task = .at (.work subs))
    (he : notification.event = none) : Move b (.poll notification) b
  | poll {subs : Subs} {notification : Notification} {e : InternalEvent} {next : StateClient}
    (h : b.task = .at (.work subs)) (he : notification.event = some e) (hnext : next ≠ .waiting) :
    Move b (.poll notification) { b with task := .telling e next }
  | publish {subs : Subs} {msg : SerializedMessage} {rest : List SerializedMessage} {ok : Bool}
    (h : b.task = .at (.work subs)) (hm : b.msgs = msg :: rest) :
    Move b (.publish ok)
      { b with msgs := rest, published := if ok then b.published ++ [msg] else b.published }
  | sendEvent {e : InternalEvent} {next : StateClient} (h : b.task = .telling e next)
    (hroom : room capacity b.events = true) :
    Move b .sendEvent { b with task := .at next, events := b.events ++ [e] }
  | wake (h : b.task = .at .error) : Move b .wake { b with task := .at .init }

section Steps

variable {b b' : Bridge} {i : Bridge.Label}

theorem move_of_step (hs : bridge.step b i = some b') : b.Move i b' := by
  change b.step i = some b' at hs
  cases i with
  | command cmd =>
    rcases h : b.service <;>
      simp only [Bridge.step, Bridge.runService, h, Option.some.injEq, reduceCtorEq] at hs
    exact hs ▸ .command h
  | queue =>
    rcases h : b.service with _ | (msg | cmd) | _ <;>
      simp only [Bridge.step, Bridge.runService, h, Option.ite_none_right_eq_some,
        Option.some.injEq, reduceCtorEq] at hs
    · exact hs.2 ▸ .queueMsg h hs.1
    · exact hs.2 ▸ .queueNet h hs.1
  | takeEvent =>
    rcases h : b.service <;> rcases he : b.events <;>
      simp only [Bridge.step, Bridge.runService, h, he, Option.some.injEq, reduceCtorEq] at hs
    exact hs ▸ .takeEvent h he
  | forward =>
    rcases h : b.service <;>
      simp only [Bridge.step, Bridge.runService, h, Option.some.injEq, reduceCtorEq] at hs
    exact hs ▸ .forward h
  | net m calls =>
    rcases h : b.task with state | ⟨e, next⟩ <;> rcases hn : b.nets with _ | ⟨cmd, rest⟩ <;>
      simp only [Bridge.step, Bridge.mqtt, h, hn, Option.map_eq_some_iff, reduceCtorEq] at hs
    obtain ⟨next, hc, rfl⟩ := hs
    exact .net h hn hc
  | connect m certificates calls =>
    rcases h : b.task with state | ⟨e, next⟩ <;>
      simp only [Bridge.step, Bridge.mqtt, h, Option.map_eq_some_iff, reduceCtorEq] at hs
    obtain ⟨next, hc, rfl⟩ := hs
    cases state <;> first | exact .connect h hc | cases hc
  | poll notification =>
    rcases h : b.task with (_ | _ | subs | _) | ⟨e, next⟩ <;>
      simp only [Bridge.step, Bridge.mqtt, h, reduceCtorEq] at hs
    rcases he : notification.event with _ | e <;> simp only [he, Option.some.injEq] at hs
    · exact hs ▸ .quiet h he
    · exact hs ▸ .poll h he (by split <;> nofun)
  | publish ok =>
    obtain ⟨service, task, msgs, nets, events, published⟩ := b
    rcases task with (_ | _ | subs | _) | ⟨e, next⟩ <;> rcases msgs with _ | ⟨msg, rest⟩ <;>
      simp only [Bridge.step, Bridge.mqtt, Option.some.injEq, reduceCtorEq] at hs
    exact hs ▸ .publish rfl rfl
  | sendEvent =>
    rcases h : b.task <;>
      simp only [Bridge.step, Bridge.mqtt, h, Option.ite_none_right_eq_some, Option.some.injEq,
        reduceCtorEq] at hs
    exact hs.2 ▸ .sendEvent h hs.1
  | wake =>
    rcases h : b.task with state | ⟨e, next⟩ <;>
      simp only [Bridge.step, Bridge.mqtt, h, Option.map_eq_some_iff, reduceCtorEq] at hs
    obtain ⟨next, hc, rfl⟩ := hs
    cases state <;> simp only [StateClient.retry, Option.some.injEq, reduceCtorEq] at hc
    exact hc ▸ .wake h

end Steps

/-! ## What passes through -/

def Service.msg : Service → Option SerializedMessage
  | .sending (.serialized msg) => some msg
  | _ => none

def Service.net : Service → Option MqttServiceCommand
  | .sending (.net cmd) => some cmd
  | _ => none

def Service.event : Service → Option InternalEvent
  | .forwarding e => some e
  | _ => none

def Task.event : Task → Option InternalEvent
  | .telling e _ => some e
  | _ => none

namespace Bridge

/-- The messages on their way to the broker, the next at the front. -/
def underWay (b : Bridge) : List SerializedMessage := b.msgs ++ b.service.msg.toList

def netsUnderWay (b : Bridge) : List MqttServiceCommand := b.nets ++ b.service.net.toList

/-- The events on their way to the core. -/
def waiting (b : Bridge) : List InternalEvent :=
  b.service.event.toList ++ b.events ++ b.task.event.toList

end Bridge

/-- The message that `MqttService::run` takes, and the command for the topology. -/
def handed (_ : Bridge) : Bridge.Label → List SerializedMessage
  | .command (.serialized msg) => [msg]
  | _ => []

def ordered (_ : Bridge) : Bridge.Label → List MqttServiceCommand
  | .command (.net cmd) => [cmd]
  | _ => []

/-- The message that is given to the client of the broker, and whether it takes it. -/
def met (b : Bridge) : Bridge.Label → List (SerializedMessage × Bool)
  | .publish ok => (b.msgs.take 1).map (fun msg => (msg, ok))
  | _ => []

/-- The command that `mqtt` takes. -/
def obeyed (b : Bridge) : Bridge.Label → List MqttServiceCommand
  | .net _ _ => b.nets.take 1
  | _ => []

def arises (_ : Bridge) : Bridge.Label → List InternalEvent
  | .poll notification => notification.event.toList
  | _ => []

def forwarded (b : Bridge) : Bridge.Label → List InternalEvent
  | .forward => b.service.event.toList
  | _ => []

section Flow

variable {b b' : Bridge} {i : Bridge.Label}

theorem underWay_step (hs : bridge.step b i = some b') :
    b.underWay ++ handed b i = (met b i).map Prod.fst ++ b'.underWay := by
  unfold Bridge.underWay
  cases move_of_step hs with
  | @command cmd h => cases cmd <;> simp [handed, met, h, Service.msg]
  | queueMsg h hroom => simp [handed, met, h, Service.msg]
  | queueNet h hroom => simp [handed, met, h, Service.msg]
  | takeEvent h he => simp [handed, met, h, Service.msg]
  | forward h => simp [handed, met, h, Service.msg]
  | publish h hm => simp [handed, met, hm]
  | _ => simp [handed, met]

theorem netsUnderWay_step (hs : bridge.step b i = some b') :
    b.netsUnderWay ++ ordered b i = obeyed b i ++ b'.netsUnderWay := by
  unfold Bridge.netsUnderWay
  cases move_of_step hs with
  | @command cmd h => cases cmd <;> simp [ordered, obeyed, h, Service.net]
  | queueMsg h hroom => simp [ordered, obeyed, h, Service.net]
  | queueNet h hroom => simp [ordered, obeyed, h, Service.net]
  | takeEvent h he => simp [ordered, obeyed, h, Service.net]
  | forward h => simp [ordered, obeyed, h, Service.net]
  | net h hn hc => simp [ordered, obeyed, hn]
  | _ => simp [ordered, obeyed]

theorem waiting_step (hs : bridge.step b i = some b') :
    b.waiting ++ arises b i = forwarded b i ++ b'.waiting := by
  unfold Bridge.waiting
  cases move_of_step hs with
  | command h => simp [arises, forwarded, h, Service.event]
  | queueMsg h hroom => simp [arises, forwarded, h, Service.event]
  | queueNet h hroom => simp [arises, forwarded, h, Service.event]
  | takeEvent h he => simp [arises, forwarded, h, he, Service.event]
  | forward h => simp [arises, forwarded, h, Service.event]
  | net h hn hc => simp [arises, forwarded, h, Task.event]
  | connect h hc => simp [arises, forwarded, h, Task.event]
  | quiet h he => simp [arises, forwarded, he]
  | poll h he hnext => simp [arises, forwarded, h, he, Task.event]
  | publish h hm => simp [arises, forwarded]
  | sendEvent h hroom => simp [arises, forwarded, h, Task.event]
  | wake h => simp [arises, forwarded, h, Task.event]

theorem published_step (hs : bridge.step b i = some b') :
    b'.published = b.published ++ ((met b i).filter (fun p => p.2)).map Prod.fst := by
  cases move_of_step hs with
  | @publish subs msg rest ok h hm => cases ok <;> simp [met, hm]
  | _ => simp [met]

end Flow

/-! ## Who waits for whom -/

namespace Bridge

/-- The channel that a command goes into has room. -/
def roomFor (b : Bridge) : Core.MqttCommand → Bool
  | .serialized _ => room capacity b.msgs
  | .net _ => room capacity b.nets

/-- `MqttService::run` is suspended on a full channel. -/
def serviceWaits (b : Bridge) : Bool :=
  match b.service with
  | .sending cmd => !b.roomFor cmd
  | _ => false

/-- `mqtt` is suspended on a full channel. -/
def taskWaits (b : Bridge) : Bool := b.task.event.isSome && !room capacity b.events

/-- `mqtt` waits for the networks, and no word of them is under way to it. -/
def unstarted (b : Bridge) : Bool :=
  (b.task matches .at .waiting) && !b.nets.contains .networksReady

/-- Nobody will take what `MqttService::run` is suspended in. -/
def stuck (b : Bridge) : Bool :=
  b.serviceWaits && (b.taskWaits || (b.service.msg.isSome && b.unstarted))

/-- The step leads there: a command comes to a full channel that `mqtt` does not empty, or
`mqtt` comes to one while the service is suspended. -/
def closes (b : Bridge) : Label → Bool
  | .command cmd =>
    !b.roomFor cmd &&
      (b.taskWaits || ((cmd matches .serialized _) && b.unstarted))
  | .poll notification =>
    b.serviceWaits && notification.event.isSome && !room capacity b.events
  | _ => false

/-- If the step hands over a command, its channel has room. -/
def paced (b : Bridge) : Label → Bool
  | .command cmd => b.roomFor cmd
  | _ => true

end Bridge

section Wait

variable {b b' : Bridge} {i : Bridge.Label}

/-- A client that waits on after a command has not been told to start. -/
theorem command_waiting {m : NetworkManager} {calls : Calls} {state : StateClient}
    {cmd : MqttServiceCommand} (h : state.command m calls cmd = some .waiting) :
    state = .waiting ∧ cmd = .networksUpdated := by
  cases state <;> cases cmd <;> simp [StateClient.command] at h ⊢

/-- Before a command of the topology is taken the client was no nearer to its start. -/
theorem unstarted_net {m : NetworkManager} {calls : Calls} {state next : StateClient}
    {cmd : MqttServiceCommand} {rest : List MqttServiceCommand} (h : b.task = .at state)
    (hn : b.nets = cmd :: rest) (hc : state.command m calls cmd = some next)
    (hnext : ({ b with task := .at next, nets := rest } : Bridge).unstarted = true) :
    b.unstarted = true := by
  unfold Bridge.unstarted at hnext ⊢
  cases next with
  | waiting =>
    obtain ⟨rfl, rfl⟩ := command_waiting hc
    simpa [h, hn] using hnext
  | _ => simp at hnext

/-- While `mqtt` does not come to a send, only a command can leave the two stuck. -/
theorem stuck_of_task (hservice : b'.service = b.service) (hmsgs : b'.serviceWaits = true →
    b.serviceWaits = true) (hidle : b'.task.event = none)
    (hstart : b'.unstarted = true → b.unstarted = true) (hb : b.stuck = false) :
    b'.stuck = false := by
  by_contra hstuck
  rw [Bool.not_eq_false] at hstuck
  simp only [Bridge.stuck, Bridge.taskWaits, hidle, Bool.and_eq_true, Bool.or_eq_true,
    Option.isSome_none, Bool.false_and, Bool.false_eq_true, false_or, hservice] at hstuck
  obtain ⟨hwaits, hmsg, hunstarted⟩ := hstuck
  have hold : b.stuck = true := by
    simp [Bridge.stuck, hmsgs hwaits, hmsg, hstart hunstarted]
  rw [hb] at hold
  cases hold

/-- After an event the client works on or fails; it does not wait for the networks again. -/
def Bridge.Goes (b : Bridge) : Prop := ∀ e next, b.task = .telling e next → next ≠ .waiting

theorem goes_step (hs : bridge.step b i = some b') (hg : b.Goes) : b'.Goes := by
  intro e next htask
  cases move_of_step hs with
  | poll h he hnext =>
    obtain ⟨-, rfl⟩ := Task.telling.inj htask
    exact hnext
  | net h hn hc => cases htask
  | connect h hc => cases htask
  | sendEvent h hroom => cases htask
  | wake h => cases htask
  | _ => exact hg e next htask

theorem stuck_step (hs : bridge.step b i = some b') (hg : b.Goes) (hb : b.stuck = false) :
    b'.stuck = b.closes i := by
  cases move_of_step hs with
  | @command cmd h =>
    cases cmd <;> simp [Bridge.stuck, Bridge.closes, Bridge.serviceWaits, Bridge.roomFor,
      Bridge.taskWaits, Bridge.unstarted, Service.msg]
  | queueMsg h hroom => simp [Bridge.stuck, Bridge.closes, Bridge.serviceWaits]
  | queueNet h hroom => simp [Bridge.stuck, Bridge.closes, Bridge.serviceWaits]
  | takeEvent h he => simp [Bridge.stuck, Bridge.closes, Bridge.serviceWaits]
  | forward h => simp [Bridge.stuck, Bridge.closes, Bridge.serviceWaits]
  | net h hn hc =>
    refine stuck_of_task (b := b) rfl (fun hw => ?_) rfl (unstarted_net h hn hc) hb
    revert hw
    rcases hservice : b.service with _ | (msg | cmd) | _ <;>
      simp [Bridge.serviceWaits, Bridge.roomFor, hservice, hn, capacity]
    omega
  | @connect m certificates calls next h hc =>
    refine stuck_of_task (b := b) rfl id rfl (fun hstart => ?_) hb
    simp only [StateClient.connect, Option.some.injEq] at hc
    subst hc
    split at hstart <;> simp [Bridge.unstarted] at hstart
  | quiet h he => simp [Bridge.closes, he, hb]
  | poll h he hnext =>
    simp [Bridge.stuck, Bridge.closes, Bridge.serviceWaits, Bridge.roomFor, Bridge.taskWaits,
      Bridge.unstarted, Task.event, he]
  | publish h hm =>
    refine stuck_of_task (b := b) rfl (fun hw => ?_) (by simp [h, Task.event]) id hb
    revert hw
    rcases hservice : b.service with _ | (msg | cmd) | _ <;>
      simp [Bridge.serviceWaits, Bridge.roomFor, hservice, hm, capacity]
    omega
  | @sendEvent e next h hroom =>
    refine stuck_of_task (b := b) rfl id rfl (fun hstart => ?_) hb
    cases next with
    | waiting => exact absurd rfl (hg e _ h)
    | _ => simp [Bridge.unstarted] at hstart
  | wake h =>
    refine stuck_of_task (b := b) rfl id rfl (fun hstart => ?_) hb
    simp [Bridge.unstarted] at hstart

/-- Nothing ends it: the service takes nothing more, and nothing more is published. -/
theorem stuck_for_ever (hs : bridge.step b i = some b') (hb : b.stuck = true) :
    b'.stuck = true ∧ b'.service = b.service ∧ b'.published = b.published := by
  have hstuck := hb
  simp only [Bridge.stuck, Bridge.serviceWaits, Bridge.taskWaits, Bridge.unstarted,
    Bool.and_eq_true, Bool.or_eq_true] at hstuck
  obtain ⟨hservice, htask⟩ := hstuck
  cases move_of_step hs with
  | command h => simp [h] at hservice
  | queueMsg h hroom => simp [h, Bridge.roomFor, hroom] at hservice
  | queueNet h hroom => simp [h, Bridge.roomFor, hroom] at hservice
  | takeEvent h he => simp [h] at hservice
  | forward h => simp [h] at hservice
  | @net m calls state next cmd rest h hn hc =>
    -- only a client that waits for the networks takes a command here
    refine ⟨?_, rfl, rfl⟩
    rcases hmsg : b.service with _ | (msg | net) | _ <;>
      simp [h, hmsg, Task.event, Service.msg, Bridge.roomFor] at hservice htask
    obtain ⟨hwaiting, hready⟩ := htask
    cases state <;> simp at hwaiting
    cases cmd with
    | networksReady => simp [hn] at hready
    | networksUpdated =>
      obtain rfl := Option.some.inj hc
      have hrest : ¬ MqttServiceCommand.networksReady ∈ rest := by simpa [hn] using hready
      simp [Bridge.stuck, Bridge.serviceWaits, Bridge.roomFor, Bridge.unstarted, hservice,
        Service.msg, hrest]
  | connect h hc => simp [h, Task.event] at htask
  | quiet h he => exact ⟨hb, rfl, rfl⟩
  | poll h he hnext => simp [h, Task.event] at htask
  | publish h hm => simp [h, Task.event] at htask
  | sendEvent h hroom => simp [h, hroom] at htask
  | wake h => simp [h, Task.event] at htask

theorem paced_step (hs : bridge.step b i = some b') (hp : b.paced i = true)
    (hw : b.serviceWaits = false) : b'.serviceWaits = false := by
  cases move_of_step hs with
  | @command cmd h => simpa [Bridge.serviceWaits, Bridge.roomFor, Bridge.paced] using hp
  | net h hn hc =>
    revert hw
    rcases hservice : b.service with _ | (msg | cmd) | _ <;>
      simp [Bridge.serviceWaits, Bridge.roomFor, hservice, hn, capacity]
    omega
  | publish h hm =>
    revert hw
    rcases hservice : b.service with _ | (msg | cmd) | _ <;>
      simp [Bridge.serviceWaits, Bridge.roomFor, hservice, hm, capacity]
    omega
  | quiet h he => exact hw
  | connect h hc => exact hw
  | poll h he hnext => exact hw
  | sendEvent h hroom => exact hw
  | wake h => exact hw
  | _ => rfl

end Wait

/-- The two tasks come to a standstill exactly by a step that closes one, and then for ever: no
message is taken or published any more. It is enough that commands are handed over only while
their channel has room. -/
theorem mqtt_and_its_service_stand_still (t : Trace) (b : Bridge) (run : bridge.Run t b) :
    ((∀ x ∈ Machine.visited t b, ¬ x.stuck = true) ↔
        Machine.Meets (fun b i => ¬ b.closes i = true) t) ∧
      (∀ x ∈ Machine.visited t b, x.stuck = true →
        b.stuck = true ∧ b.service = x.service ∧ b.published = x.published) ∧
      (Machine.Meets (fun b i => b.paced i = true) t →
        ∀ x ∈ Machine.visited t b, ¬ x.stuck = true) := by
  refine ⟨?_, ?_, ?_⟩
  · apply run.avoids_iff Bridge.Goes
    · rintro b rfl
      exact ⟨nofun, by decide⟩
    · exact fun b i b' hg hs => goes_step hs hg
    · intro b i b' hg hb hs
      rw [stuck_step hs hg (Bool.not_eq_true _ ▸ hb)]
  · induction run with
    | @start b h =>
      intro x hx _
      simp only [Machine.visited, List.map_nil, List.nil_append, List.mem_singleton] at hx
      subst hx
      exact ⟨by assumption, rfl, rfl⟩
    | @move t b b' i r hs ih =>
      intro x hx hstuck
      rw [Machine.visited_snoc, List.mem_append, List.mem_singleton] at hx
      rcases hx with hx | rfl
      · obtain ⟨hb, hservice, hpublished⟩ := ih x hx hstuck
        obtain ⟨hb', hservice', hpublished'⟩ := stuck_for_ever hs hb
        exact ⟨hb', hservice'.trans hservice, hpublished'.trans hpublished⟩
      · exact ⟨hstuck, rfl, rfl⟩
  · intro hpaced x hx hstuck
    have hwaits := run.invariant_visited (fun b => b.serviceWaits = false)
      (fun b i => b.paced i = true) (by rintro b rfl; rfl)
      (fun b i b' hw hp hs => paced_step hs hp hw) hpaced x hx
    simp [Bridge.stuck, hwaits] at hstuck

/-! ## Concrete runs -/

/-- A message for the broker. -/
def toPublish (topic : String) : SerializedMessage :=
  { topic, payload := .linkageAck default, qos := 0, retain := false }

/-- The networks are ready, the client connects, and a message is published and another refused. -/
def firstMessages : List Bridge.Label :=
  [.command (.net .networksReady), .queue, .net (.newEmpty "edge") .succeed,
    .connect (.newEmpty "edge") true .succeed, .poll .connAck, .sendEvent, .takeEvent, .forward,
    .command (.serialized (toPublish "a")), .queue, .publish true,
    .command (.serialized (toPublish "b")), .queue, .publish false]

/-- A hundred and one messages before the networks are ready. -/
theorem early_messages_keep_the_client_waiting :
    ∃ (t : Trace) (b : Bridge), bridge.Run t b ∧ b.stuck = true ∧
      ¬ Machine.Meets (fun b i => ¬ b.closes i = true) t := by
  have hrun := Machine.run_of_final (m := bridge)
    ((List.replicate 100 [.command (.serialized (toPublish "a")), .queue]).flatten ++
      [.command (.serialized (toPublish "a"))]) rfl (by decide +kernel)
  refine ⟨_, _, hrun, by decide +kernel, fun hmeets => ?_⟩
  have hnever := (mqtt_and_its_service_stand_still _ _ hrun).1.mpr hmeets
  exact hnever _ (Machine.last_mem_visited _ _) (by decide +kernel)

end EdgeGateway.Mqtt
