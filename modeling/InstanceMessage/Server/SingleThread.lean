import InstanceMessage.Server.Refinement
import InstanceMessage.Server.Service

/-!
# A pool of one thread

With one thread the pool lets no packet be looked at before the handler of the
packet before it has returned, so every run of the service handles one packet
after the other: what the tables are like between two handlers then follows
from the messenger for which they stand.
-/

namespace InstanceMessage

open Library

namespace Service

/-- All statements succeed. -/
def Lucky (service : Service) : ServiceEvent → Prop
  | .act thread outcome => ∀ index, service.position thread = some index →
      service.server.Lucky (.act index outcome)
  | _ => True

/-- The packet that is submitted in the step, with the handle from which it comes. -/
def arrival (service : Service) : ServiceEvent → List (Bytes × Handle)
  | .receive conn data => [(data, service.server.handleOf conn)]
  | _ => []

/-- The one thread holds the task of the packet that has waited longest, or none, and the tasks of
the others are in the queue. -/
structure Alone (service : Service) (hand : Option TaskId) : Prop where
  hands : service.pool.hands = [hand]
  waiting : service.server.halted = false →
    service.server.tasks.map Task.tid = hand.toList ++ service.pool.taskQueueData

theorem alone_start (tUser : List UserRow) (tFriend : List (ℤ × ℤ)) :
    (start 1 tUser tFriend).Alone none := ⟨rfl, fun _ => rfl⟩

variable {before after : Service} {hand : Option TaskId}

/-- The thread acts for the first of the tasks. -/
theorem Alone.position {thread index : ℕ} (alone : before.Alone hand)
    (running : before.server.halted = false) (found : before.position thread = some index) :
    index = 0 ∧ thread = 0 ∧ hand.isSome := by
  rcases task_of_position found with ⟨tid, _, held, _, _⟩
  rw [alone.hands] at held
  have only : thread = 0 := by
    have bound := (List.getElem?_eq_some_iff.mp held).1
    rwa [List.length_singleton, Nat.lt_one_iff] at bound
  subst only
  have holds : hand = some tid := by simpa using held
  subst holds
  have waiting := alone.waiting running
  cases tasks : before.server.tasks with
  | nil => simp [tasks] at waiting
  | cons first others =>
      have firstTid : first.tid = tid := by
        rw [tasks, List.map_cons] at waiting
        exact (List.cons.inj waiting).1
      have at0 : before.position 0 = some 0 := by
        simp [Service.position, alone.hands, tasks, List.findIdx?_cons, firstTid]
      exact ⟨Option.some.inj (found.symm.trans at0), rfl, rfl⟩

theorem Alone.act {outcome : Outcome} {server : State} (alone : before.Alone hand)
    (running : before.server.halted = false)
    (stepped : before.server.step (.act 0 outcome) = some server) :
    Alone { before with server := server } hand := by
  refine ⟨alone.hands, fun goesOn => ?_⟩
  rw [← alone.waiting running]
  cases State.stepped_of_step stepped with
  | halt => simp [State.halt] at goesOn
  | perform present shape _ performed =>
      have frame := (State.performs_of_perform performed).sameFrame
      simp only [State.advance, frame.tasks]
      exact State.map_tid_set present

theorem Alone.step {event : ServiceEvent} (alone : before.Alone hand)
    (lucky : before.Lucky event) (stepped : before.step event = some after) :
    (∃ held, after.Alone held) ∧
      ((after.server = before.server ∧ before.arrival event = []) ∨ ∃ serverEvent,
        (before.server.Serial serverEvent ∧ before.server.Lucky serverEvent) ∧
          before.server.step serverEvent = some after.server ∧
            before.server.arrival serverEvent = before.arrival event) := by
  have running : before.server.halted = false := by
    simp only [Service.step] at stepped
    split at stepped
    · simp at stepped
    · rename_i goesOn
      simpa using goesOn
  have shape := stepped
  simp only [Service.step, running, Bool.false_eq_true, if_false] at shape
  have fromPool {pool : LFThreadPool TaskId} (same : before.pool.SameTasks pool) :
      Alone { before with pool := pool } hand :=
    ⟨same.hands.trans alone.hands, fun goesOn => same.queue ▸ alone.waiting goesOn⟩
  cases event with
  | network event =>
      rcases Option.ite_none_right_eq_some.mp shape with ⟨isNetwork, mapped⟩
      rcases Option.map_eq_some_iff.mp mapped with ⟨server, moved, rfl⟩
      have network : event.Network := by cases event <;> simp_all [Event.isNetwork, Event.Network]
      refine ⟨⟨hand, alone.hands, fun _ => ?_⟩, Or.inr ⟨event, ⟨?_, ?_⟩, moved, ?_⟩⟩
      · rw [← alone.waiting running]
        cases State.stepped_of_step moved with
        | accept | list | closeSocket | eraseClient => rfl
        | receive | perform | halt | finish => exact network.elim
      · cases event <;> trivial
      · cases event <;> trivial
      · cases event <;> first | rfl | exact network.elim
  | receive conn data =>
      rcases Option.bind_eq_some_iff.mp shape with ⟨server, moved, rest⟩
      rcases Option.map_eq_some_iff.mp rest with ⟨pool, pushed, rfl⟩
      refine ⟨⟨hand, ?_, fun _ => ?_⟩, Or.inr ⟨.receive conn data, ⟨trivial, trivial⟩, moved, rfl⟩⟩
      · rw [LFThreadPool.push_eq_some pushed]
        exact alone.hands
      · rw [LFThreadPool.push_eq_some pushed]
        cases State.stepped_of_step moved with
        | receive =>
            simp only [State.receive, List.map_append, alone.waiting running, List.append_assoc]
            rfl
  | notify choice =>
      rcases Option.map_eq_some_iff.mp shape with ⟨pool, notified, rfl⟩
      exact ⟨⟨hand, fromPool (LFThreadPool.sameTasks_notify notified)⟩, Or.inl ⟨rfl, rfl⟩⟩
  | spurious thread =>
      rcases Option.some.inj shape with rfl
      exact ⟨⟨hand, fromPool (LFThreadPool.sameTasks_wake _ thread)⟩, Or.inl ⟨rfl, rfl⟩⟩
  | run thread choice =>
      rcases Option.map_eq_some_iff.mp shape with ⟨pool, ran, rfl⟩
      refine ⟨?_, Or.inl ⟨rfl, rfl⟩⟩
      rcases LFThreadPool.run_cases ran with ⟨empty, same | ⟨tid, dequeues⟩⟩
      · exact ⟨hand, fromPool same⟩
      · have bound := (List.getElem?_eq_some_iff.mp empty).1
        rw [alone.hands, List.length_singleton, Nat.lt_one_iff] at bound
        subst bound
        have free : hand = none := by simpa [alone.hands] using empty
        subst free
        refine ⟨some tid, ?_, fun _ => ?_⟩
        · rw [dequeues.hands, alone.hands]
          rfl
        · rw [alone.waiting running, dequeues.queue]
          rfl
  | act thread outcome =>
      rcases Option.bind_eq_some_iff.mp shape with ⟨index, found, rest⟩
      rcases Option.map_eq_some_iff.mp rest with ⟨server, moved, rfl⟩
      rcases alone.position running found with ⟨rfl, _, _⟩
      exact ⟨⟨hand, alone.act running moved⟩,
        Or.inr ⟨.act 0 outcome, ⟨rfl, lucky 0 found⟩, moved, rfl⟩⟩
  | dealt thread =>
      rcases Option.bind_eq_some_iff.mp shape with ⟨index, found, rest⟩
      rcases Option.bind_eq_some_iff.mp rest with ⟨server, moved, rest⟩
      rcases Option.map_eq_some_iff.mp rest with ⟨pool, returned, rfl⟩
      rcases alone.position running found with ⟨rfl, rfl, isSome⟩
      rcases Option.isSome_iff_exists.mp isSome with ⟨tid, rfl⟩
      have returns := LFThreadPool.returns_of_dealt returned
      refine ⟨⟨none, ?_, fun _ => ?_⟩, Or.inr ⟨.finish 0, ⟨rfl, trivial⟩, moved, rfl⟩⟩
      · rw [returns.hands, alone.hands]
        rfl
      · have waiting := alone.waiting running
        cases State.stepped_of_step moved with
        | finish present _ =>
            rw [returns.queue]
            cases tasks : before.server.tasks with
            | nil => simp [tasks] at present
            | cons first others =>
                rw [tasks, List.map_cons] at waiting
                exact (List.cons.inj waiting).2

/-- A packet that waits has not been taken from the queue, and so has no history. -/
theorem Alone.idle (alone : before.Alone none) (scheduled : before.Scheduled)
    (running : before.server.halted = false) : before.server.Idle := by
  intro task member
  have queued : task.tid ∈ before.pool.taskQueueData := by
    have listed : task.tid ∈ before.server.tasks.map Task.tid := List.mem_map_of_mem member
    rwa [alone.waiting running] at listed
  have unique : (before.pool.dequeued ++ before.pool.taskQueueData).Nodup := by
    rw [scheduled.fifo, scheduled.received]
    exact List.nodup_range
  simp only [historyOf, List.map_eq_nil_iff, List.filter_eq_nil_iff, decide_eq_true_eq]
  intro entry logged same
  have taken := scheduled.logged entry logged
  rw [same] at taken
  exact (List.nodup_append.mp unique).2.2 _ taken _ queued rfl

/-- A service with one thread whose statements succeed is a messenger, however its steps
interleave with those of the network: whenever no handler is in progress, the packets that have
been taken are the first that have arrived and have been dealt with as the messenger does, the
tables stand for it, and they are well formed. -/
theorem served_of_one_thread {tUser : List UserRow} {tFriend : List (ℤ × ℤ)}
    {events : List ServiceEvent} {final : Service}
    (wellFormed : (State.start tUser tFriend).WellFormed)
    (lucky : service.Meets Lucky (start 1 tUser tFriend) events)
    (reached : service.run (start 1 tUser tFriend) events = some final)
    (running : final.server.halted = false) (free : ∀ hand ∈ final.pool.hands, hand = none) :
    ∃ messenger exchanges last, (State.start tUser tFriend).Represents messenger ∧
      messenger.Served exchanges last ∧ exchanges.length = final.pool.dequeued.length ∧
      exchanges.map Messenger.Exchange.packet ++ final.server.tasks.map Task.packet =
        service.outputs arrival (start 1 tUser tFriend) events ∧
      (∀ tid exchange, exchanges[tid]? = some exchange →
        deedsOf (historyOf final.server.log tid) = exchange.deeds.map Deed.action) ∧
      final.server.Represents last ∧ final.server.WellFormed := by
  have scheduled := scheduled_of_run reached
  have alone : ∃ hand, final.Alone hand :=
    service.run_invariant (fun later => ∃ hand, later.Alone hand)
      (fun ⟨_, alone⟩ lucky stepped => (alone.step lucky stepped).1)
      ⟨none, alone_start tUser tFriend⟩ lucky reached
  rcases alone with ⟨hand, alone⟩
  have noHand : hand = none := free hand (by rw [alone.hands]; exact List.mem_singleton_self hand)
  subst noHand
  have idle := alone.idle scheduled running
  have serverRuns : ∃ serverEvents,
      InstanceMessage.server.Meets (fun state event => state.Serial event ∧ state.Lucky event)
        (State.start tUser tFriend) serverEvents ∧
      InstanceMessage.server.run (State.start tUser tFriend) serverEvents = some final.server ∧
      InstanceMessage.server.outputs State.arrival (State.start tUser tFriend) serverEvents =
        service.outputs arrival (start 1 tUser tFriend) events :=
    service.exists_meeting_run arrival State.arrival Service.server
      (fun later => ∃ hand, later.Alone hand)
      (fun ⟨_, alone⟩ lucky stepped => alone.step lucky stepped)
      ⟨none, alone_start tUser tFriend⟩ lucky reached
  rcases serverRuns with ⟨serverEvents, meets, serverRun, sameArrivals⟩
  rcases State.served_of_run wellFormed
    (InstanceMessage.server.meets_imp (fun _ _ both => both.1) meets)
    (InstanceMessage.server.meets_imp (fun _ _ both => both.2) meets) serverRun running with
    ⟨messenger, exchanges, last, represents, served, packets, numbered, deeds, quiet⟩
  have represented := quiet idle
  refine ⟨messenger, exchanges, last, represents, served, ?_, packets.trans sameArrivals, deeds,
    represented, represented.wellFormed⟩
  have taken := congrArg List.length scheduled.fifo
  have waiting := congrArg List.length (alone.waiting running)
  simp only [scheduled.received, List.length_append, List.length_range, List.length_map,
    Option.toList_none, List.nil_append] at taken waiting
  omega

def lucky (service : Service) : ServiceEvent → Bool
  | .act thread outcome =>
      match service.position thread with
      | some index => service.server.lucky (.act index outcome)
      | none => true
  | _ => true

theorem holds_of_lucky (service : Service) (event : ServiceEvent)
    (passed : service.lucky event = true) : service.Lucky event := by
  cases event with
  | act thread outcome =>
      intro index found
      simp only [lucky, found] at passed
      exact State.holds_of_lucky _ _ passed
  | _ => trivial

/-- Alice's first message reaches Bob, and her second one waits. -/
theorem served_of_one_thread_chat : ∃ final messenger exchanges last,
    service.run (start 1 [alice, bob] []) (aliceWritesTwice ++ deals 0 chatOutcomes ++
      [.dealt 0]) = some final ∧
    (State.start [alice, bob] []).Represents messenger ∧ messenger.Served exchanges last ∧
      exchanges.length = 3 ∧
      exchanges.map Messenger.Exchange.packet ++ final.server.tasks.map Task.packet =
        service.outputs arrival (start 1 [alice, bob] []) (aliceWritesTwice ++
          deals 0 chatOutcomes ++ [.dealt 0]) ∧
      final.server.Represents last ∧ final.server.WellFormed := by
  have evaluated : (service.run (start 1 [alice, bob] []) (aliceWritesTwice ++
      deals 0 chatOutcomes ++ [.dealt 0])).any (fun final => final.server.halted = false ∧
        final.pool.hands = [none] ∧ final.pool.dequeued.length = 3) = true := by
    decide +kernel
  have passed : service.allSteps lucky (start 1 [alice, bob] []) (aliceWritesTwice ++
      deals 0 chatOutcomes ++ [.dealt 0]) = true := by
    decide +kernel
  rcases (Option.any_eq_true _ _).mp evaluated with ⟨final, reached, shape⟩
  simp only [decide_eq_true_eq] at shape
  rcases shape with ⟨running, free, taken⟩
  rcases served_of_one_thread State.wellFormed_alice_bob
    (service.meets_of_allSteps holds_of_lucky passed)
    reached running (by simp [free]) with
    ⟨messenger, exchanges, last, represents, served, length, packets, _, represented, wellFormed⟩
  exact ⟨final, messenger, exchanges, last, reached, represents, served, length.trans taken,
    packets, represented, wellFormed⟩

end Service

end InstanceMessage
