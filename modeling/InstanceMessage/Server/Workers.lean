import InstanceMessage.Server.IocpServer

/-!
# The workers that are left

A worker is in the completion loop until it leaves it. The condition of the loop
is the value that `GetQueuedCompletionStatus` returns, and that is `FALSE` for a
failed operation: the worker that gets one leaves the loop, without a look at
its context. Nothing else takes a worker out of the loop, so the workers survive
exactly the runs in which no operation fails.
-/

namespace InstanceMessage

open Library

def IocpEvent.failed : IocpEvent → Bool
  | .dequeueFailed _ _ => true
  | _ => false

namespace IocpServer

/-- The number of workers inside the completion loop. -/
def inLoop (server : IocpServer) : ℕ := server.workers.countP (· ≠ .exited)

section Step

variable {server next : IocpServer} {event : IocpEvent} {worker : ℕ} {old : Stage}

theorem inLoop_of_set (new : Stage) (present : server.workers[worker]? = some old)
    (inside : old ≠ .exited) (moved : next.workers = server.workers.set worker new) :
    next.inLoop + (if new = .exited then 1 else 0) = server.inLoop := by
  rcases List.getElem?_eq_some_iff.mp present with ⟨bound, same⟩
  have positive : 0 < server.inLoop :=
    List.countP_pos_iff.mpr ⟨old, List.mem_of_getElem? present, by simpa using inside⟩
  have counted : next.inLoop = server.inLoop - 1 + if decide (new ≠ .exited) then 1 else 0 := by
    simp only [inLoop, moved, List.countP_set bound, same, decide_eq_true inside, if_true]
  by_cases exits : new = .exited
  · simp only [exits, ne_eq, not_true_eq_false, decide_false, Bool.false_eq_true, if_false]
      at counted
    rw [if_pos exits]
    omega
  · simp only [exits, ne_eq, not_false_eq_true, decide_true, if_true] at counted
    rw [if_neg exits]
    omega

/-- The body of the loop leads back to its condition, or into `closeClient`. -/
theorem workers_handled (server : IocpServer) (worker : ℕ) (pio : ContextId) (context : PerIo)
    (posted : Bool) (effect : Effect) : ∃ stage, stage ≠ .exited ∧
      (server.handled worker pio context posted effect).workers =
        server.workers.set worker stage := by
  cases effect with
  | closeClient => exact ⟨.closing pio, by simp, rfl⟩
  | recvBody changed =>
      cases posted with
      | true => exact ⟨.waiting, by simp, rfl⟩
      | false => exact ⟨.closing pio, by simp, rfl⟩
  | submit task changed => exact ⟨.waiting, by simp, rfl⟩
  | release => exact ⟨.waiting, by simp, rfl⟩
  | nothing => exact ⟨.waiting, by simp, rfl⟩

/-- A worker leaves the loop with every failed completion and with nothing else. -/
theorem inLoop_step (stepped : server.step event = some next) :
    next.inLoop + (if event.failed then 1 else 0) = server.inLoop := by
  cases stepped_of_step stepped with
  | accept => rfl
  | list => rfl
  | postFirst => rfl
  | @dequeue worker pio context received present =>
      exact inLoop_of_set (.handling pio received) present (by simp) rfl
  | dequeueFailed present => exact inLoop_of_set .exited present (by simp) rfl
  | @handle worker pio context received posted present =>
      rcases workers_handled (server.touch pio) worker pio context posted
        (workerBody received.length context) with ⟨stage, inside, moved⟩
      have counted := inLoop_of_set stage present (by simp) moved
      rwa [if_neg inside] at counted
  | @closing worker pio context present =>
      exact inLoop_of_set (.erasing pio) present (by simp) rfl
  | @erasing worker pio context present =>
      exact inLoop_of_set (.deleting pio) present (by simp) rfl
  | deleting present => exact inLoop_of_set .waiting present (by simp) rfl
  | unsent => rfl
  | send => simp [IocpEvent.failed, inLoop]
  | closesocket => rfl

end Step

/-! ## Every run -/

/-- What a failed completion of the context may do: close its connection and release it. -/
structure Contained (before after : IocpServer) (pio : ContextId) : Prop where
  inLoop : after.inLoop = before.inLoop
  acceptor : after.acceptor = before.acceptor
  others : ∀ other, other ≠ pio → after.pios other = before.pios other ∧
    after.outstanding other = before.outstanding other ∧
      after.released other = before.released other
  connections : ∀ context, before.pios pio = some context → ∀ socket, socket ≠ context.sock →
    after.sockets socket = before.sockets socket ∧
      after.mClients socket = before.mClients socket ∧
        after.arrived socket = before.arrived socket
  reports : ∀ context, before.pios pio = some context →
    after.reports = before.reports ∨ after.reports = before.reports ++ [.closed context.sock]

/-- A failed completion is contained. -/
def ContainsFailure (server : IocpServer) : IocpEvent → Prop
  | .dequeueFailed worker pio =>
      ∀ next, server.step (.dequeueFailed worker pio) = some next → server.Contained next pio
  | _ => True

/-- The number of workers inside the loop is the same after every part of the run. -/
def NeverDrops (workers : ℕ) (events : List IocpEvent) : Prop :=
  ∀ first, first <+: events → ∀ middle, iocpServer.run (start workers) first = some middle →
    middle.inLoop = workers

section Run

variable {workers : ℕ} {events : List IocpEvent} {final : IocpServer}

theorem inLoop_start (workers : ℕ) : (start workers).inLoop = workers := by
  simp [start, inLoop, List.countP_replicate]

/-- Every failed completion costs a worker. -/
theorem inLoop_run {server : IocpServer} (reached : iocpServer.run server events = some final) :
    final.inLoop + events.countP IocpEvent.failed = server.inLoop := by
  induction events generalizing server with
  | nil =>
      simp only [Machine.run_nil, Option.some.injEq] at reached
      simp [reached]
  | cons event events ih =>
      rcases (iocpServer.run_cons_eq_some).mp reached with ⟨next, stepped, rest⟩
      have step := inLoop_step stepped
      have run := ih rest
      rw [List.countP_cons]
      omega

/-- The workers survive exactly the runs without a failed completion: then, and only then, the
number of workers inside the loop never drops and every failed completion is contained. -/
theorem workers_survive
    (reached : iocpServer.run (start workers) events = some final) :
    (NeverDrops workers events ∧
        iocpServer.Meets ContainsFailure (start workers) events) ↔
      ∀ event ∈ events, event.failed = false := by
  constructor
  · intro survives event member
    have count := inLoop_run reached
    rw [survives.1 events (List.prefix_refl _) final reached, inLoop_start] at count
    have none : events.countP IocpEvent.failed = 0 := by omega
    simpa using List.countP_eq_zero.mp none event member
  · intro allWell
    constructor
    · intro first isPrefix middle partly
      have count := inLoop_run partly
      have none : first.countP IocpEvent.failed = 0 :=
        List.countP_eq_zero.mpr fun event member => by
          simp [allWell event (isPrefix.subset member)]
      rw [inLoop_start] at count
      omega
    · refine iocpServer.meets_of_forall_mem (fun server event member => ?_) _
      cases event with
      | dequeueFailed worker pio => simpa [IocpEvent.failed] using allWell _ member
      | _ => trivial

end Run

def clientComesAndGoes : List IocpEvent :=
  [.accept 4, .list, .postFirst true, .dequeue 0 0 [2, 0, 0, 0], .handle 0 true,
    .dequeue 1 0 [7, 8], .handle 1 true, .dequeue 0 0 [], .handle 0 true, .closeClient 0,
    .closeClient 0, .closeClient 0]

theorem workers_survive_client : ∃ final,
    iocpServer.run (start 2) clientComesAndGoes = some final ∧
      NeverDrops 2 clientComesAndGoes := by
  have evaluated : (iocpServer.run (start 2) clientComesAndGoes).isSome = true := by
    decide +kernel
  rcases Option.isSome_iff_exists.mp evaluated with ⟨final, reached⟩
  exact ⟨final, reached, ((workers_survive reached).mpr (by decide)).1⟩

def bothLogOff : List IocpEvent :=
  [.accept 4, .list, .postFirst true, .accept 8, .list, .postFirst true, .closesocket 4,
    .closesocket 8, .dequeueFailed 0 0, .dequeueFailed 1 1]

/-- Two clients are there, `dealOfflineRq` closes their sockets, and the receives fail: no worker
is left. -/
theorem workers_survive_fails : ∃ final,
    iocpServer.run (start 2) bothLogOff = some final ∧ final.inLoop = 0 := by
  have evaluated : (iocpServer.run (start 2) bothLogOff).any
      (fun final => final.inLoop = 0) = true := by
    decide +kernel
  rcases (Option.any_eq_true _ _).mp evaluated with ⟨final, reached, shape⟩
  exact ⟨final, reached, by simpa using shape⟩

end IocpServer

end InstanceMessage
