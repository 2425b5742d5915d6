import InstanceMessage.Server.Coherence
import InstanceMessage.Server.LFThreadPool

/-!
# The server on its thread pool

The running server with the pool that carries its handlers: a received packet is
submitted to the pool, and only the thread that has taken its task from the
queue performs the actions of its handler. Every run of the two together is a
run of the server alone; which of those runs are possible is what the pool
decides.

The pool takes the packets in the order in which they were received, but lets
go of the mutex before `dealData`, and nothing ties a task to the connection it
came from. So the order of the effects is that of the packets only where one
handler has returned before the other packet is taken.
-/

namespace InstanceMessage

open Library

structure Service where
  server : State
  pool : LFThreadPool TaskId

/-- The destructor of the pool is not among the steps: `startServer` does not return. -/
inductive ServiceEvent
  /-- A step of the accept loop or of `closeClient`. -/
  | network (event : Event)
  | receive (conn : ConnId) (data : Bytes)
  | notify (woken : Option ℕ)
  | run (thread : ℕ) (woken : Option ℕ)
  | spurious (thread : ℕ)
  | act (thread : ℕ) (outcome : Outcome)
  | dealt (thread : ℕ)

/-- A step of the network layer in which no handler and no packet has a part. -/
def Event.isNetwork : Event → Bool
  | .accept _ | .list _ | .closeSocket _ | .eraseClient _ => true
  | .receive _ _ | .act _ _ | .finish _ => false

namespace Service

def start (threadCount : ℕ) (tUser : List UserRow) (tFriend : List (ℤ × ℤ)) : Service :=
  ⟨.start tUser tFriend, .start threadCount⟩

/-- The position of the task that the thread executes. -/
def position (service : Service) (thread : ℕ) : Option ℕ :=
  match service.pool.hands[thread]? with
  | some (some tid) => service.server.tasks.findIdx? (·.tid = tid)
  | _ => none

def step (service : Service) (event : ServiceEvent) : Option Service :=
  if service.server.halted then none
  else match event with
    | .network event =>
        if event.isNetwork then
          (service.server.step event).map fun server => { service with server := server }
        else none
    | .receive conn data =>
        (service.server.step (.receive conn data)).bind fun server =>
          (service.pool.push service.server.nextTask).map fun pool => ⟨server, pool⟩
    | .notify choice =>
        (service.pool.notify choice).map fun pool => { service with pool := pool }
    | .run thread choice =>
        (service.pool.run thread choice).map fun pool => { service with pool := pool }
    | .spurious thread => some { service with pool := service.pool.wake thread }
    | .act thread outcome =>
        (service.position thread).bind fun index =>
          (service.server.step (.act index outcome)).map fun server =>
            { service with server := server }
    | .dealt thread =>
        (service.position thread).bind fun index =>
          (service.server.step (.finish index)).bind fun server =>
            (service.pool.dealt thread).map fun pool => ⟨server, pool⟩

end Service

def service : Machine Service ServiceEvent := ⟨Service.step⟩

namespace Service

/-! ## Steps -/

/-- The steps of a running service. -/
inductive Stepped (service : Service) : Service → Prop
  | network {event : Event} {server : State} (isNetwork : event.isNetwork = true)
      (stepped : service.server.step event = some server) :
      Stepped service { service with server := server }
  | receive {conn : ConnId} {data : Bytes} {server : State} {pool : LFThreadPool TaskId}
      (stepped : service.server.step (.receive conn data) = some server)
      (pushed : service.pool.push service.server.nextTask = some pool) :
      Stepped service ⟨server, pool⟩
  | idle {pool : LFThreadPool TaskId} (same : service.pool.SameTasks pool) :
      Stepped service { service with pool := pool }
  | take {thread : ℕ} {tid : TaskId} {pool : LFThreadPool TaskId}
      (empty : service.pool.hands[thread]? = some none)
      (dequeues : service.pool.Dequeues pool thread tid) :
      Stepped service { service with pool := pool }
  | act {thread index : ℕ} {tid : TaskId} {task : Task} {outcome : Outcome} {server : State}
      (held : service.pool.hands[thread]? = some (some tid))
      (present : service.server.tasks[index]? = some task) (same : task.tid = tid)
      (stepped : service.server.step (.act index outcome) = some server) :
      Stepped service { service with server := server }
  | dealt {thread index : ℕ} {server : State} {pool : LFThreadPool TaskId}
      (stepped : service.server.step (.finish index) = some server)
      (returned : service.pool.dealt thread = some pool) : Stepped service ⟨server, pool⟩

theorem task_of_position {service : Service} {thread index : ℕ}
    (found : service.position thread = some index) :
    ∃ tid task, service.pool.hands[thread]? = some (some tid) ∧
      service.server.tasks[index]? = some task ∧ task.tid = tid := by
  simp only [position] at found
  split at found
  · rename_i tid held
    rcases List.findIdx?_eq_some_iff_getElem.mp found with ⟨bound, same, _⟩
    exact ⟨tid, _, held, List.getElem?_eq_getElem bound, by simpa using same⟩
  · simp at found

theorem stepped_of_step {before after : Service} {event : ServiceEvent}
    (stepped : before.step event = some after) : Stepped before after := by
  simp only [step] at stepped
  split at stepped
  · simp at stepped
  · cases event with
    | network event =>
        rcases Option.ite_none_right_eq_some.mp stepped with ⟨isNetwork, mapped⟩
        rcases Option.map_eq_some_iff.mp mapped with ⟨server, moved, rfl⟩
        exact .network isNetwork moved
    | receive conn data =>
        rcases Option.bind_eq_some_iff.mp stepped with ⟨server, moved, rest⟩
        rcases Option.map_eq_some_iff.mp rest with ⟨pool, pushed, rfl⟩
        exact .receive moved pushed
    | notify choice =>
        rcases Option.map_eq_some_iff.mp stepped with ⟨pool, notified, rfl⟩
        exact .idle (LFThreadPool.sameTasks_notify notified)
    | run thread choice =>
        rcases Option.map_eq_some_iff.mp stepped with ⟨pool, ran, rfl⟩
        rcases LFThreadPool.run_cases ran with ⟨empty, same | ⟨tid, dequeues⟩⟩
        · exact .idle same
        · exact .take empty dequeues
    | spurious thread =>
        exact Option.some.inj stepped ▸ .idle (LFThreadPool.sameTasks_wake _ thread)
    | act thread outcome =>
        rcases Option.bind_eq_some_iff.mp stepped with ⟨index, found, rest⟩
        rcases Option.map_eq_some_iff.mp rest with ⟨server, moved, rfl⟩
        rcases task_of_position found with ⟨tid, task, held, present, same⟩
        exact .act held present same moved
    | dealt thread =>
        rcases Option.bind_eq_some_iff.mp stepped with ⟨index, _, rest⟩
        rcases Option.bind_eq_some_iff.mp rest with ⟨server, moved, rest⟩
        rcases Option.map_eq_some_iff.mp rest with ⟨pool, returned, rfl⟩
        exact .dealt moved returned

/-- The pool chooses among the runs of the server and adds none. -/
theorem server_run_of_run {before after : Service} {events : List ServiceEvent}
    (reached : service.run before events = some after) :
    ∃ serverEvents, InstanceMessage.server.run before.server serverEvents = some after.server := by
  refine service.exists_run_of_run Service.server ?_ reached
  intro state event next stepped
  cases stepped_of_step stepped with
  | network isNetwork moved => exact Or.inr ⟨_, moved⟩
  | receive moved pushed => exact Or.inr ⟨.receive _ _, moved⟩
  | idle | take => exact Or.inl rfl
  | act held present same moved => exact Or.inr ⟨.act _ _, moved⟩
  | dealt moved returned => exact Or.inr ⟨.finish _, moved⟩

end Service

/-! ## The order of the effects -/

namespace State

theorem log_of_act {state next : State} {index : ℕ} {outcome : Outcome} {task : Task}
    (present : state.tasks[index]? = some task)
    (stepped : state.step (.act index outcome) = some next) :
    next.nextTask = state.nextTask ∧ (next.log = state.log ∨
      ∃ entry : Entry, next.log = entry :: state.log ∧ entry.tid = task.tid) := by
  cases stepped_of_step stepped with
  | halt => exact ⟨rfl, Or.inl rfl⟩
  | @perform _ _ acting action rest after answer found shape goesOn performed =>
      have same : task = acting := Option.some.inj (present.symm.trans found)
      subst same
      have frame := (performs_of_perform performed).sameFrame
      exact ⟨frame.nextTask, Or.inr ⟨_, log_advance frame, rfl⟩⟩

theorem log_of_network {state next : State} {event : Event} (isNetwork : event.isNetwork = true)
    (stepped : state.step event = some next) :
    next.nextTask = state.nextTask ∧ next.log = state.log := by
  cases stepped_of_step stepped with
  | accept | list | closeSocket | eraseClient => exact ⟨rfl, rfl⟩
  | receive | perform | halt | finish => simp [Event.isNetwork] at isNetwork

theorem log_of_receive {state next : State} {conn : ConnId} {data : Bytes}
    (stepped : state.step (.receive conn data) = some next) :
    next.nextTask = state.nextTask + 1 ∧ next.log = state.log := by
  cases stepped_of_step stepped with
  | receive => exact ⟨rfl, rfl⟩

theorem log_of_finish {state next : State} {index : ℕ}
    (stepped : state.step (.finish index) = some next) :
    next.nextTask = state.nextTask ∧ next.log = state.log := by
  cases stepped_of_step stepped with
  | finish => exact ⟨rfl, rfl⟩

/-- The packet has been received, and its handler has returned. -/
def Dealt (state : State) (tid : TaskId) : Prop :=
  tid < state.nextTask ∧ ∀ task ∈ state.tasks, task.tid ≠ tid

/-- A packet whose handler has returned has no further effects. -/
theorem Dealt.step {state next : State} {event : Event} {tid : TaskId}
    (dealt : state.Dealt tid) (stepped : state.step event = some next) :
    next.Dealt tid ∧
      ∃ newer, next.log = newer ++ state.log ∧ ∀ entry ∈ newer, entry.tid ≠ tid := by
  rcases dealt with ⟨received, gone⟩
  cases stepped_of_step stepped with
  | accept | list | closeSocket | eraseClient => exact ⟨⟨received, gone⟩, [], rfl, by simp⟩
  | receive =>
      refine ⟨⟨Nat.lt_succ_of_lt received, fun task member => ?_⟩, [], rfl, by simp⟩
      rcases List.mem_append.mp member with old | new
      · exact gone task old
      · rw [List.mem_singleton.mp new]
        exact received.ne'
  | @perform index outcome task action rest after answer present shape goesOn performed =>
      have frame := (performs_of_perform performed).sameFrame
      have other := gone task (List.mem_of_getElem? present)
      refine ⟨⟨by simpa only [advance, frame.nextTask] using received, fun moved member => ?_⟩,
        [_], log_advance frame, by simpa using other⟩
      rcases mem_tasks_of_advance frame member with old | rfl
      · exact gone moved old
      · exact other
  | halt => exact ⟨⟨received, by simp [State.halt]⟩, [], rfl, by simp⟩
  | finish =>
      exact ⟨⟨received, fun task member => gone task (List.mem_of_mem_eraseIdx member)⟩, [], rfl,
        by simp⟩

theorem Dealt.run {state final : State} {events : List Event} {tid : TaskId}
    (dealt : state.Dealt tid) (reached : server.run state events = some final) :
    ∃ newer, final.log = newer ++ state.log ∧ ∀ entry ∈ newer, entry.tid ≠ tid := by
  refine (server.run_invariant_of_step (fun later => later.Dealt tid ∧
    ∃ newer, later.log = newer ++ state.log ∧ ∀ entry ∈ newer, entry.tid ≠ tid) ?_
    ⟨dealt, [], rfl, by simp⟩ reached).2
  rintro later event next ⟨holds, newer, appended, others⟩ stepped
  rcases holds.step stepped with ⟨still, latest, added, different⟩
  refine ⟨still, latest ++ newer, by rw [added, appended, List.append_assoc], ?_⟩
  intro entry member
  rcases List.mem_append.mp member with new | old
  · exact different entry new
  · exact others entry old

end State

namespace Service

/-- The packets are numbered as they are submitted, and only those that a thread has taken have
had effects. -/
structure Scheduled (service : Service) : Prop where
  fifo : service.pool.Fifo
  received : service.pool.submitted = List.range service.server.nextTask
  held : ∀ tid : TaskId, some tid ∈ service.pool.hands → tid ∈ service.pool.dequeued
  logged : ∀ entry ∈ service.server.log, entry.tid ∈ service.pool.dequeued

theorem scheduled_start (threadCount : ℕ) (tUser : List UserRow) (tFriend : List (ℤ × ℤ)) :
    (start threadCount tUser tFriend).Scheduled where
  fifo := rfl
  received := rfl
  held := by
    intro tid held
    simp [start, LFThreadPool.start, LFThreadPool.hands, LFThreadPool.inHand] at held
  logged := by simp [start, State.start]

theorem Scheduled.step {before after : Service} {event : ServiceEvent}
    (scheduled : before.Scheduled) (stepped : before.step event = some after) :
    after.Scheduled := by
  cases stepped_of_step stepped with
  | network isNetwork moved =>
      rcases State.log_of_network isNetwork moved with ⟨nextTask, log⟩
      exact ⟨scheduled.fifo, nextTask ▸ scheduled.received, scheduled.held, log ▸ scheduled.logged⟩
  | receive moved pushed =>
      rcases State.log_of_receive moved with ⟨nextTask, log⟩
      refine ⟨scheduled.fifo.push pushed, ?_, ?_, ?_⟩
      all_goals
        rcases LFThreadPool.push_eq_some pushed with rfl
      · simp only [nextTask, List.range_succ, scheduled.received]
      · exact scheduled.held
      · exact log ▸ scheduled.logged
  | idle same =>
      refine ⟨same.fifo scheduled.fifo, same.submitted ▸ scheduled.received, ?_, ?_⟩
      · rw [same.hands, same.dequeued]
        exact scheduled.held
      · rw [same.dequeued]
        exact scheduled.logged
  | take empty dequeues =>
      refine ⟨dequeues.fifo scheduled.fifo, dequeues.submitted ▸ scheduled.received, ?_, ?_⟩
      · intro tid held
        rw [dequeues.dequeued]
        rw [dequeues.hands] at held
        rcases List.mem_or_eq_of_mem_set held with old | new
        · exact List.mem_append_left _ (scheduled.held tid old)
        · simp [Option.some.inj new]
      · rw [dequeues.dequeued]
        exact fun entry member => List.mem_append_left _ (scheduled.logged entry member)
  | @act thread index tid task outcome server held present same moved =>
      rcases State.log_of_act present moved with ⟨nextTask, log | ⟨entry, log, ofTask⟩⟩
      · exact ⟨scheduled.fifo, nextTask ▸ scheduled.received, scheduled.held,
          log ▸ scheduled.logged⟩
      · refine ⟨scheduled.fifo, nextTask ▸ scheduled.received, scheduled.held, ?_⟩
        rw [log]
        intro other member
        rcases List.mem_cons.mp member with rfl | old
        · rw [ofTask, same]
          exact scheduled.held tid (List.mem_of_getElem? held)
        · exact scheduled.logged other old
  | @dealt thread index server pool moved returned =>
      rcases State.log_of_finish moved with ⟨nextTask, log⟩
      have returns := LFThreadPool.returns_of_dealt returned
      refine ⟨scheduled.fifo.dealt returned, ?_, ?_, ?_⟩
      · rw [returns.submitted, nextTask]
        exact scheduled.received
      · intro tid held
        rw [returns.dequeued]
        rw [returns.hands] at held
        rcases List.mem_or_eq_of_mem_set held with old | new
        · exact scheduled.held tid old
        · simp at new
      · rw [returns.dequeued, log]
        exact scheduled.logged

theorem Scheduled.le_of_getLast? {service : Service} (scheduled : service.Scheduled)
    {tid other : TaskId} (last : service.pool.dequeued.getLast? = some tid)
    (member : other ∈ service.pool.dequeued) : other ≤ tid := by
  have increasing : (service.pool.dequeued ++ service.pool.taskQueueData).Pairwise (· < ·) := by
    rw [scheduled.fifo, scheduled.received]
    exact List.pairwise_lt_range
  rcases List.getLast?_eq_some_iff.mp last with ⟨earlier, split⟩
  rw [split] at increasing member
  rcases List.mem_append.mp member with before | final
  · exact ((List.pairwise_append.mp (List.pairwise_append.mp increasing).1).2.2 other before tid
      (List.mem_singleton_self tid)).le
  · exact (List.mem_singleton.mp final).le

/-- With one thread the packet in progress is the one taken last, and the effects are in the
order of the packets. -/
structure Sequential (service : Service) : Prop where
  one : service.pool.hands.length = 1
  last : ∀ tid : TaskId, some tid ∈ service.pool.hands →
    service.pool.dequeued.getLast? = some tid
  ordered : service.server.log.Pairwise fun newer older => older.tid ≤ newer.tid

theorem sequential_start (tUser : List UserRow) (tFriend : List (ℤ × ℤ)) :
    (start 1 tUser tFriend).Sequential where
  one := rfl
  last := by
    intro tid held
    simp [start, LFThreadPool.start, LFThreadPool.hands, LFThreadPool.inHand] at held
  ordered := .nil

theorem Sequential.step {before after : Service} {event : ServiceEvent}
    (sequential : before.Sequential) (scheduled : before.Scheduled)
    (stepped : before.step event = some after) : after.Sequential := by
  cases stepped_of_step stepped with
  | network isNetwork moved =>
      rcases State.log_of_network isNetwork moved with ⟨_, log⟩
      exact ⟨sequential.one, sequential.last, log ▸ sequential.ordered⟩
  | receive moved pushed =>
      rcases State.log_of_receive moved with ⟨_, log⟩
      rcases LFThreadPool.push_eq_some pushed with rfl
      exact ⟨sequential.one, sequential.last, log ▸ sequential.ordered⟩
  | idle same =>
      refine ⟨same.hands ▸ sequential.one, ?_, sequential.ordered⟩
      rw [same.hands, same.dequeued]
      exact sequential.last
  | @take thread tid pool empty dequeues =>
      rcases List.length_eq_one_iff.mp sequential.one with ⟨hand, only⟩
      have bound := (List.getElem?_eq_some_iff.mp empty).1
      rw [only, List.length_singleton, Nat.lt_one_iff] at bound
      have hands : pool.hands = [some tid] := by
        rw [dequeues.hands, only, bound]
        rfl
      refine ⟨by simp [hands], fun other held => ?_, sequential.ordered⟩
      rw [hands, List.mem_singleton] at held
      rw [dequeues.dequeued, Option.some.inj held]
      exact List.getLast?_concat
  | @act thread index tid task outcome server held present same moved =>
      rcases State.log_of_act present moved with ⟨_, log | ⟨entry, log, ofTask⟩⟩
      · exact ⟨sequential.one, sequential.last, log ▸ sequential.ordered⟩
      · refine ⟨sequential.one, sequential.last, ?_⟩
        rw [log]
        refine List.pairwise_cons.mpr ⟨fun older member => ?_, sequential.ordered⟩
        rw [ofTask, same]
        exact scheduled.le_of_getLast? (sequential.last tid (List.mem_of_getElem? held))
          (scheduled.logged older member)
  | dealt moved returned =>
      rcases State.log_of_finish moved with ⟨_, log⟩
      have returns := LFThreadPool.returns_of_dealt returned
      refine ⟨by simp [returns.hands, sequential.one], fun tid held => ?_,
        log ▸ sequential.ordered⟩
      rw [returns.dequeued]
      rw [returns.hands] at held
      rcases List.mem_or_eq_of_mem_set held with old | new
      · exact sequential.last tid old
      · simp at new

theorem scheduled_of_run {threadCount : ℕ} {tUser : List UserRow} {tFriend : List (ℤ × ℤ)}
    {events : List ServiceEvent} {final : Service}
    (reached : service.run (start threadCount tUser tFriend) events = some final) :
    final.Scheduled :=
  service.run_invariant_of_step Scheduled (fun scheduled stepped => scheduled.step stepped)
    (scheduled_start threadCount tUser tFriend) reached

/-- The order of packets and effects, for every number of threads and every schedule: packets are
taken from the queue in the order in which they were received; all effects of a packet whose
handler has returned precede those of every packet taken later; with one thread all effects
are in the order of the packets. -/
theorem effects_in_order {threadCount : ℕ} {tUser : List UserRow} {tFriend : List (ℤ × ℤ)}
    {first second : List ServiceEvent} {middle final : Service}
    (reached : service.run (start threadCount tUser tFriend) first = some middle)
    (continued : service.run middle second = some final) :
    middle.pool.dequeued ++ middle.pool.taskQueueData = List.range middle.server.nextTask ∧
      (∀ p q, middle.server.Dealt p → q ∉ middle.pool.dequeued →
        ∃ newer, final.server.log = newer ++ middle.server.log ∧
          (∀ entry ∈ newer, entry.tid ≠ p) ∧ ∀ entry ∈ middle.server.log, entry.tid ≠ q) ∧
        (threadCount = 1 →
          final.server.log.Pairwise fun newer older => older.tid ≤ newer.tid) := by
  have scheduled := scheduled_of_run reached
  refine ⟨?_, ?_, ?_⟩
  · rw [← scheduled.received]
    exact scheduled.fifo
  · intro p q dealt waiting
    rcases server_run_of_run continued with ⟨serverEvents, serverRun⟩
    rcases dealt.run serverRun with ⟨newer, appended, others⟩
    refine ⟨newer, appended, others, ?_⟩
    rintro entry logged rfl
    exact waiting (scheduled.logged entry logged)
  · rintro rfl
    have whole := service.run_append_eq_some.mpr ⟨middle, reached, continued⟩
    refine (service.run_invariant_of_step (fun later => later.Scheduled ∧
      later.Sequential) ?_ ⟨scheduled_start 1 tUser tFriend, sequential_start tUser tFriend⟩
      whole).2.ordered
    intro later event next holds stepped
    exact ⟨holds.1.step stepped, holds.2.step holds.1 stepped⟩

/-! ## Two messages of one connection -/

def deals (thread : ℕ) (outcomes : List Outcome) : List ServiceEvent :=
  .run thread none :: outcomes.map (.act thread)

def loginOutcomes (user : UserRow) : List Outcome :=
  (logsIn user 0 0).filterMap fun event => match event with
    | .act _ outcome => some outcome
    | _ => none

def logsInOn (thread : ℕ) (user : UserRow) (conn : ConnId) (socket : Handle) : List ServiceEvent :=
  [.network (.accept socket), .network (.list conn),
    .receive conn (StruLoginRq.bytes ⟨user.tel, user.pass⟩)] ++
      deals thread (loginOutcomes user) ++ [.dealt thread]

/-- Bob and Alice are online, and two messages of Alice to Bob wait in the queue. -/
def aliceWritesTwice : List ServiceEvent :=
  logsInOn 0 bob 0 4 ++ logsInOn 0 alice 1 8 ++
    [.receive 1 (StruChatRq.bytes ⟨1, 2, ascii "first"⟩),
      .receive 1 (StruChatRq.bytes ⟨1, 2, ascii "second"⟩)]

def chatOutcomes : List Outcome := [.internal, .internal, .internal]

theorem effects_in_order_one_thread : ∃ final,
    service.run (start 1 [alice, bob] []) (aliceWritesTwice ++
      (deals 0 chatOutcomes ++ .dealt 0 :: deals 0 chatOutcomes)) = some final ∧
        final.server.log.Pairwise fun newer older => older.tid ≤ newer.tid := by
  have evaluated : (service.run (start 1 [alice, bob] []) (aliceWritesTwice ++
      (deals 0 chatOutcomes ++ .dealt 0 :: deals 0 chatOutcomes))).isSome = true := by
    decide +kernel
  rcases Option.isSome_iff_exists.mp evaluated with ⟨final, reached⟩
  rcases service.run_append_eq_some.mp reached with ⟨middle, waiting, continued⟩
  exact ⟨final, reached, (effects_in_order waiting continued).2.2 rfl⟩

def sendsTo (clientId : Handle) : Action → Bool
  | .sendData _ socket => socket = clientId
  | _ => false

/-- Two threads take the two messages, and the second message is forwarded first. -/
theorem effects_out_of_order : ∃ final early late,
    service.run (start 2 [alice, bob] []) (aliceWritesTwice ++
      (.run 0 none :: deals 1 chatOutcomes ++ chatOutcomes.map (.act 0))) = some final ∧
        final.server.log[0]? = some early ∧ final.server.log[3]? = some late ∧
          early.conn = 1 ∧ late.conn = 1 ∧ early.tid < late.tid ∧
            sendsTo 4 early.performed.action = true ∧
              StruChatRq.readContent early.data = some (ascii "first") ∧
              sendsTo 4 late.performed.action = true ∧
                StruChatRq.readContent late.data = some (ascii "second") := by
  have evaluated : (service.run (start 2 [alice, bob] []) (aliceWritesTwice ++
      (.run 0 none :: deals 1 chatOutcomes ++ chatOutcomes.map (.act 0)))).any (fun final =>
        final.server.log[0]?.any fun early => final.server.log[3]?.any fun late =>
          early.conn = 1 ∧ late.conn = 1 ∧ early.tid < late.tid ∧
            sendsTo 4 early.performed.action = true ∧
              StruChatRq.readContent early.data = some (ascii "first") ∧
              sendsTo 4 late.performed.action = true ∧
                StruChatRq.readContent late.data = some (ascii "second")) = true := by
    decide +kernel
  rcases (Option.any_eq_true _ _).mp evaluated with ⟨final, reached, shape⟩
  rcases (Option.any_eq_true _ _).mp shape with ⟨early, foundEarly, shape⟩
  rcases (Option.any_eq_true _ _).mp shape with ⟨late, foundLate, shape⟩
  exact ⟨final, early, late, reached, foundEarly, foundLate, of_decide_eq_true shape⟩

end Service

end InstanceMessage
