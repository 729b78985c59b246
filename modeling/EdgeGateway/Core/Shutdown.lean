-- How the core and the message service end when the gateway is shut down. Each task looks
-- at the token where it waits for its next message, and not in a send: so all of them end
-- after a few steps, or they come to rest as they do without a shutdown, and tasks that
-- wait for each other never end.
import EdgeGateway.Core.Rest
import EdgeGateway.Lib.Shutdown

namespace EdgeGateway.Core

open EdgeGateway.Lib EdgeGateway.Message EdgeGateway.Networks
open EdgeGateway.Lib.Closing

/-! ## The model -/

/-- The token is cancelled once, then each task breaks its loop when it likes to. A send into
the channel of a task that has ended, or of a service that has, is an error that is logged. -/
def shutdown (idEdge : String) (bufferSize : Nat) :
    Machine (Closing Task Channel Channel.Message Memory)
      (Closing.Label Task Channel Channel.Message Outside) :=
  Closing.machine (wiring idEdge bufferSize) (fun g => g = atStart)

section Laws

variable {idEdge : String} {bufferSize : Nat} {s : Closing Task Channel Channel.Message Memory}
  {l : List (Closing Task Channel Channel.Message Memory ×
    Closing.Label Task Channel Channel.Message Outside)}

theorem sends_shutdown (run : (shutdown idEdge bufferSize).Run l s) : s.mailbox.Sends writes := by
  refine run.always (fun s => s.mailbox.Sends writes) ?_
    (fun s i s' h hs => Closing.sends_step (writes_handle idEdge bufferSize) h hs)
  rintro s ⟨g, rfl, rfl⟩
  exact sends_atStart

/-! ## Where a shutdown hangs -/

/-- Who has not ended and waits, in the end. -/
def Hangs (idEdge : String) (bufferSize : Nat) (s : Closing Task Channel Channel.Message Memory) :
    Prop :=
  EndsIn (s.Waits (wiring idEdge bufferSize))

end Laws

/-! ## How long a shutdown takes -/

/-- The steps of the tasks and their ends are paid for by what the core begins with, by the
answers that still come and by the six tasks. -/
theorem works_le {idEdge : String} {bufferSize : Nat}
    {l : List (Closing Task Channel Channel.Message Memory ×
      Closing.Label Task Channel Channel.Message Outside)}
    {s : Closing Task Channel Channel.Message Memory}
    (run : (shutdown idEdge bufferSize).Run l s) :
    l.countP (fun p => works p.2) ≤ 16 + 25 * l.countP (fun p => feeds p.2) := by
  have hwork := run_work (by decide) mem_channels (by decide) mem_allTasks (pays idEdge bufferSize)
    (weight_fed idEdge bufferSize) run
  have hstart : Mailbox.load weight channels allTasks atStart = 10 := rfl
  have htasks : allTasks.length = 6 := rfl
  omega

/-! ## Knots -/

/-- Tasks that are each suspended in a send to another of them never end, whether that comes
about before the shutdown is asked for or after: the gateway then waits for them for ever. -/
theorem tied_tasks_never_end (idEdge : String) (bufferSize : Nat) (group : Task → Prop)
    (l : List (Closing Task Channel Channel.Message Memory ×
      Closing.Label Task Channel Channel.Message Outside))
    (s : Closing Task Channel Channel.Message Memory)
    (run : (shutdown idEdge bufferSize).Run l s)
    (htied : ∃ x ∈ Machine.visited l s, Tied (wiring idEdge bufferSize) group x.mailbox) :
    ∀ t, group t → s.ended t = false := by
  intro t ht
  obtain ⟨x, hx, htied⟩ := htied
  obtain ⟨c, t', hwaits, -, -⟩ := run_knot run x hx htied t ht
  exact hwaits.1

/-! ## Concrete runs -/

/-- Three requests of hubs, and the core and the message service wait for each other. -/
def circle : List (Transfer Task Channel Channel.Message Outside) :=
  greeting ++ asked ++ passedOn ++ answered ++ asked ++ [.put .core] ++ asked

/-- Then the shutdown is asked for, and only the tasks of the message service end. -/
def caught : List (Closing.Label Task Channel Channel.Message Outside) :=
  circle.map .go ++ [.cancel] ++ messageTasks.map (fun task => .stop (.task task))

theorem a_circle_never_ends : ∃ l s, (shutdown "edge" 1).Run l s ∧ s.cancelled = true ∧
    ∀ t, t = .core ∨ t = .messageService → s.ended t = false := by
  have hrun := Machine.run_of_final (m := shutdown "edge" 1) caught ⟨_, rfl, rfl⟩
    (by decide +kernel)
  refine ⟨_, _, hrun, by decide +kernel,
    tied_tasks_never_end "edge" 1 (fun t => t = .core ∨ t = .messageService) _ _ hrun
      ⟨_, Machine.last_mem_visited _ _, ?_⟩⟩
  rintro t (rfl | rfl)
  · exact ⟨.fromCore .message, .messageService, by decide +kernel, rfl, .inr rfl⟩
  · exact ⟨.toCore .message, .core, by decide +kernel, rfl, .inl rfl⟩

end EdgeGateway.Core
