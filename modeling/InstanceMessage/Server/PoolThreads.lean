import InstanceMessage.Library.Monitor
import Mathlib.Data.List.Chain
import Mathlib.Data.List.Nodup

/-!
# The statements of the pool

`LFThreadPool` statement by statement: the pool threads, any number of calls of
`submit` and the destructor are the parties of a monitor whose mutex is `mtx`
and whose condition variables are `task_cv` and `follower_cv`. A thread in one
of the two loops keeps the calls of the loops that are below it on its stack;
each function calls a loop at one place only, so a suspended call needs no
program point. Below all of them is `threadLoop`.

The tasks that have been pushed, taken from the queue and passed to `dealData`
are recorded with the party that did so.
-/

namespace InstanceMessage

open Library

inductive PoolParty
  | thread (index : ℕ)
  | submit (call : ℕ)
  | destructor
  deriving DecidableEq

inductive PoolCv
  | taskCv
  | followerCv
  deriving DecidableEq

/-- A suspended call of one of the loops, in which the other one has been called. -/
inductive LoopCall
  | leaderLoop
  | followerLoop
  deriving DecidableEq

inductive ThreadPoint
  | lock
  | test
  | elect
  | callLeader
  | callFollower
  /-- Back from the loop, where `lk` is destroyed. -/
  | unlock
  deriving DecidableEq

inductive FollowerPoint
  | head
  /-- The predicate of the wait is evaluated. -/
  | predicate
  | blocked
  | test
  | elect
  | call
  | ret
  deriving DecidableEq

inductive LeaderPoint (Job : Type)
  | head
  | predicate
  | blocked
  | test
  | front
  | pop (task : Job)
  | clear (task : Job)
  | notify (task : Job)
  | unlock (task : Job)
  /-- About to call `dealData`. -/
  | deal (task : Job)
  | dealing (task : Job)
  | lock
  | call
  | ret
  deriving DecidableEq

inductive SubmitPoint
  | lock
  | test
  /-- The exception unwinds the first critical section. -/
  | throw
  | thrown
  | push
  | unlock
  | relock
  | branch
  | notifyTask
  | notifyFollower
  | finish
  | done
  deriving DecidableEq

inductive DestructorPoint
  | lock
  | stop
  | notifyTask
  | notifyFollower
  | unlock
  | join (index : ℕ)
  | done
  deriving DecidableEq

inductive PoolPoint (Job : Type)
  | threadLoop (at_ : ThreadPoint)
  | followerLoop (at_ : FollowerPoint) (callers : List LoopCall)
  | leaderLoop (at_ : LeaderPoint Job) (callers : List LoopCall)
  | finished
  | submit (task : Job) (at_ : SubmitPoint)
  | destructor (at_ : DestructorPoint)
  deriving DecidableEq

structure PoolShared (Job : Type) where
  taskQueueData : List Job := []
  leaderExists : Bool := false
  stopping : Bool := false
  /-- The calls of `submit` that have pushed, in this order. -/
  pushed : List (ℕ × Job) := []
  /-- The tasks that threads have taken from the queue, in this order. -/
  dequeued : List (ℕ × Job) := []
  /-- The tasks that threads have passed to `dealData`, in this order. -/
  dealt : List (ℕ × Job) := []

namespace PoolPoint

variable {Job : Type}

/-- Where a loop returns to. -/
def returned : List LoopCall → PoolPoint Job
  | [] => .threadLoop .unlock
  | .leaderLoop :: callers => .leaderLoop .ret callers
  | .followerLoop :: callers => .followerLoop .ret callers

/-- The calls of the loops on the stack of a thread, innermost first. -/
def activeCalls : PoolPoint Job → List LoopCall
  | .followerLoop _ callers => .followerLoop :: callers
  | .leaderLoop _ callers => .leaderLoop :: callers
  | _ => []

end PoolPoint

namespace PoolThreads

variable {Job : Type}

abbrev PoolStmt (Job : Type) := Monitor.Stmt PoolParty PoolCv (PoolPoint Job) (PoolShared Job)

def threadLoop (shared : PoolShared Job) : ThreadPoint → PoolStmt Job
  | .lock => .lock (.threadLoop .test)
  | .test =>
      if shared.leaderExists then .assign shared (.threadLoop .callFollower)
      else .assign shared (.threadLoop .elect)
  | .elect => .assign { shared with leaderExists := true } (.threadLoop .callLeader)
  | .callLeader => .assign shared (.leaderLoop .head [])
  | .callFollower => .assign shared (.followerLoop .head [])
  | .unlock => .unlock .finished

def followerLoop (shared : PoolShared Job) (callers : List LoopCall) :
    FollowerPoint → PoolStmt Job
  | .head =>
      if shared.stopping then .assign shared (.followerLoop .ret callers)
      else .assign shared (.followerLoop .predicate callers)
  | .predicate =>
      if shared.stopping || !shared.leaderExists then .assign shared (.followerLoop .test callers)
      else .wait .followerCv (.followerLoop .blocked callers)
  | .blocked => .lock (.followerLoop .predicate callers)
  | .test =>
      if shared.stopping then .assign shared (.followerLoop .ret callers)
      else .assign shared (.followerLoop .elect callers)
  | .elect => .assign { shared with leaderExists := true } (.followerLoop .call callers)
  | .call => .assign shared (.leaderLoop .head (.followerLoop :: callers))
  | .ret => .assign shared (.returned callers)

/-- The front of an empty queue is undefined. -/
def leaderLoop (index : ℕ) (shared : PoolShared Job) (callers : List LoopCall) :
    LeaderPoint Job → PoolStmt Job
  | .head =>
      if shared.stopping then .assign shared (.leaderLoop .ret callers)
      else .assign shared (.leaderLoop .predicate callers)
  | .predicate =>
      if shared.stopping || !shared.taskQueueData.isEmpty then
        .assign shared (.leaderLoop .test callers)
      else .wait .taskCv (.leaderLoop .blocked callers)
  | .blocked => .lock (.leaderLoop .predicate callers)
  | .test =>
      if shared.stopping then .assign shared (.leaderLoop .ret callers)
      else .assign shared (.leaderLoop .front callers)
  | .front =>
      match shared.taskQueueData with
      | [] => .halt
      | task :: _ => .assign shared (.leaderLoop (.pop task) callers)
  | .pop task =>
      .assign { shared with
        taskQueueData := shared.taskQueueData.tail
        dequeued := shared.dequeued ++ [(index, task)] } (.leaderLoop (.clear task) callers)
  | .clear task =>
      .assign { shared with leaderExists := false } (.leaderLoop (.notify task) callers)
  | .notify task => .notifyOne .followerCv (.leaderLoop (.unlock task) callers)
  | .unlock task => .unlock (.leaderLoop (.deal task) callers)
  | .deal task =>
      .assign { shared with dealt := shared.dealt ++ [(index, task)] }
        (.leaderLoop (.dealing task) callers)
  | .dealing _ => .assign shared (.leaderLoop .lock callers)
  | .lock => .lock (.leaderLoop .call callers)
  | .call => .assign shared (.followerLoop .head (.leaderLoop :: callers))
  | .ret => .assign shared (.returned callers)

def submit (call : ℕ) (task : Job) (shared : PoolShared Job) : SubmitPoint → PoolStmt Job
  | .lock => .lock (.submit task .test)
  | .test =>
      if shared.stopping then .assign shared (.submit task .throw)
      else .assign shared (.submit task .push)
  | .throw => .unlock (.submit task .thrown)
  | .push =>
      .assign { shared with
        taskQueueData := shared.taskQueueData ++ [task]
        pushed := shared.pushed ++ [(call, task)] } (.submit task .unlock)
  | .unlock => .unlock (.submit task .relock)
  | .relock => .lock (.submit task .branch)
  | .branch =>
      if shared.leaderExists then .assign shared (.submit task .notifyTask)
      else .assign shared (.submit task .notifyFollower)
  | .notifyTask => .notifyOne .taskCv (.submit task .finish)
  | .notifyFollower => .notifyOne .followerCv (.submit task .finish)
  | .finish => .unlock (.submit task .done)
  | .thrown | .done => .halt

def destructor (threadCount : ℕ) (shared : PoolShared Job) : DestructorPoint → PoolStmt Job
  | .lock => .lock (.destructor .stop)
  | .stop => .assign { shared with stopping := true } (.destructor .notifyTask)
  | .notifyTask => .notifyAll .taskCv (.destructor .notifyFollower)
  | .notifyFollower => .notifyAll .followerCv (.destructor .unlock)
  | .unlock => .unlock (.destructor (.join 0))
  | .join index =>
      if index < threadCount then .join (.thread index) (.destructor (.join (index + 1)))
      else .assign shared (.destructor .done)
  | .done => .halt

def code (threadCount : ℕ) : Monitor.Code PoolParty PoolCv (PoolPoint Job) (PoolShared Job)
  | .thread _, .threadLoop at_, shared => threadLoop shared at_
  | .thread _, .followerLoop at_ callers, shared => followerLoop shared callers at_
  | .thread index, .leaderLoop at_ callers, shared => leaderLoop index shared callers at_
  | .submit call, .submit task at_, shared => submit call task shared at_
  | .destructor, .destructor at_, shared => destructor threadCount shared at_
  | _, _, _ => .halt

abbrev PoolState (Job : Type) := Monitor.State PoolParty PoolCv (PoolPoint Job) (PoolShared Job)

/-- The threads, a call of `submit` for each task, and the destructor, all about to begin. -/
def start (threadCount : ℕ) (tasks : ℕ → Job) : PoolState Job where
  shared := {}
  point
    | .thread index => if index < threadCount then .threadLoop .lock else .finished
    | .submit call => .submit (tasks call) .lock
    | .destructor => .destructor .lock

def machine (threadCount : ℕ) : Machine (PoolState Job) (Monitor.Label PoolParty) :=
  Monitor.machine (code threadCount)

/-! ## The mutex -/

/-- The points at which a party holds `mtx`. -/
def inside : PoolPoint Job → Bool
  | .threadLoop .lock | .finished => false
  | .threadLoop _ => true
  | .followerLoop .blocked _ => false
  | .followerLoop _ _ => true
  | .leaderLoop .blocked _ | .leaderLoop (.deal _) _ | .leaderLoop (.dealing _) _ => false
  | .leaderLoop .lock _ => false
  | .leaderLoop _ _ => true
  | .submit _ .lock | .submit _ .thrown | .submit _ .relock | .submit _ .done => false
  | .submit _ _ => true
  | .destructor .lock | .destructor (.join _) | .destructor .done => false
  | .destructor _ => true

@[simp]
theorem inside_returned (callers : List LoopCall) :
    inside (.returned callers : PoolPoint Job) = true := by
  rcases callers with _ | ⟨call, callers⟩
  · rfl
  · cases call <;> rfl

theorem brackets (threadCount : ℕ) (party : PoolParty) (point : PoolPoint Job)
    (shared : PoolShared Job) :
    (code threadCount party point shared).Brackets inside point := by
  cases party with
  | thread index =>
      cases point with
      | threadLoop at_ =>
          cases at_ <;> simp only [code, threadLoop]
          all_goals (try split) <;> simp [Monitor.Stmt.Brackets, inside]
      | followerLoop at_ callers =>
          cases at_ with
          | ret => exact inside_returned callers
          | _ =>
              simp only [code, followerLoop]
              (try split) <;> simp [Monitor.Stmt.Brackets, inside]
      | leaderLoop at_ callers =>
          cases at_ with
          | ret => exact inside_returned callers
          | _ =>
              simp only [code, leaderLoop]
              (try split) <;> simp [Monitor.Stmt.Brackets, inside]
      | _ => trivial
  | submit call =>
      cases point with
      | submit task at_ =>
          cases at_ <;> simp only [code, submit]
          all_goals (try split) <;> simp [Monitor.Stmt.Brackets, inside]
      | _ => trivial
  | destructor =>
      cases point with
      | destructor at_ =>
          cases at_ <;> simp only [code, destructor]
          all_goals (try split) <;> simp [Monitor.Stmt.Brackets, inside]
      | _ => trivial

theorem exclusive_start (threadCount : ℕ) (tasks : ℕ → Job) :
    Monitor.Exclusive inside (start threadCount tasks) := by
  intro party
  cases party with
  | thread index =>
      simp only [start]
      split <;> simp [inside]
  | submit call => simp [start, inside]
  | destructor => simp [start, inside]

/-! ## What holds under the mutex -/

/-- What the tests that lead to a point have established. -/
def assertion : PoolPoint Job → PoolShared Job → Prop
  | .threadLoop .elect, shared => shared.leaderExists = false
  | .followerLoop .test _, shared => shared.stopping = true ∨ shared.leaderExists = false
  | .followerLoop .elect _, shared => shared.leaderExists = false
  | .leaderLoop .test _, shared => shared.stopping = true ∨ shared.taskQueueData ≠ []
  | .leaderLoop .front _, shared => shared.taskQueueData ≠ []
  | .leaderLoop (.pop task) _, shared => ∃ rest, shared.taskQueueData = task :: rest
  | _, _ => True

theorem assertion_outside (point : PoolPoint Job) (shared : PoolShared Job)
    (outside : inside point = false) : assertion point shared := by
  cases point with
  | threadLoop at_ => cases at_ <;> simp_all [inside, assertion]
  | followerLoop at_ callers => cases at_ <;> simp_all [inside, assertion]
  | leaderLoop at_ callers => cases at_ <;> simp_all [inside, assertion]
  | _ => trivial

/-! ## What a statement does -/

/-- The thread has set `leader_exists` and has not cleared it again. -/
def leads : PoolPoint Job → Bool
  | .threadLoop .callLeader | .followerLoop .call _ => true
  | .leaderLoop .head _ | .leaderLoop .predicate _ | .leaderLoop .blocked _ => true
  | .leaderLoop .test _ | .leaderLoop .front _ | .leaderLoop (.pop _) _ => true
  | .leaderLoop (.clear _) _ => true
  | _ => false

/-- The task that the thread has taken from the queue and is about to pass to `dealData`. -/
def inHand : PoolPoint Job → List Job
  | .leaderLoop (.clear task) _ | .leaderLoop (.notify task) _ => [task]
  | .leaderLoop (.unlock task) _ | .leaderLoop (.deal task) _ => [task]
  | _ => []

/-- The call of `submit` has pushed its task. -/
def hasPushed : PoolPoint Job → Bool
  | .submit _ .unlock | .submit _ .relock | .submit _ .branch => true
  | .submit _ .notifyTask | .submit _ .notifyFollower | .submit _ .finish => true
  | .submit _ .done => true
  | _ => false

/-- The task that the call of `submit` has been given. -/
def submits : PoolPoint Job → Option Job
  | .submit task _ => some task
  | _ => none

/-- The calls of `leaderLoop` on the stack that have passed a task to `dealData`. -/
def worked : PoolPoint Job → ℕ
  | .followerLoop _ callers => callers.count .leaderLoop
  | .leaderLoop (.dealing _) callers | .leaderLoop .lock callers => callers.count .leaderLoop + 1
  | .leaderLoop .call callers => callers.count .leaderLoop + 1
  | .leaderLoop _ callers => callers.count .leaderLoop
  | _ => 0

/-- Nothing about tasks changes between the points, and no loop has called itself. -/
structure Keeps (point next : PoolPoint Job) : Prop where
  hands : inHand next = inHand point
  pushes : hasPushed next = hasPushed point
  task : submits next = submits point
  worked : worked next ≤ worked point
  alternate : point.activeCalls.IsChain (· ≠ ·) → next.activeCalls.IsChain (· ≠ ·)

theorem keeps_returned {point : PoolPoint Job} {call : LoopCall} {callers : List LoopCall}
    (calls : point.activeCalls = call :: callers) (hands : inHand point = [])
    (pushes : hasPushed point = false) (task : submits point = none)
    (worked : callers.count .leaderLoop ≤ worked point) :
    Keeps point (.returned callers) := by
  rcases callers with _ | ⟨caller, callers⟩
  · exact ⟨hands.symm, pushes.symm, task.symm, Nat.zero_le _, fun _ => .nil⟩
  · have tail (alternate : point.activeCalls.IsChain (· ≠ ·)) :
        (caller :: callers).IsChain (· ≠ ·) := by
      rw [calls] at alternate
      exact alternate.tail
    cases caller with
    | leaderLoop =>
        refine ⟨hands.symm, pushes.symm, task.symm, le_trans ?_ worked, tail⟩
        simp [PoolThreads.worked, PoolPoint.returned]
    | followerLoop =>
        refine ⟨hands.symm, pushes.symm, task.symm, le_trans ?_ worked, tail⟩
        simp [PoolThreads.worked, PoolPoint.returned]

theorem leads_returned (callers : List LoopCall) :
    leads (.returned callers : PoolPoint Job) = false := by
  rcases callers with _ | ⟨call, callers⟩
  · rfl
  · cases call <;> rfl

/-- What a statement of a party does to its own point and to the shared state. -/
inductive Moves : PoolParty → PoolPoint Job → PoolShared Job → PoolPoint Job → PoolShared Job → Prop
  | plain {party : PoolParty} {point next : PoolPoint Job} {shared : PoolShared Job}
      (keeps : Keeps point next)
      (role : leads next = leads point ∨ (leads next = false ∧ shared.stopping = true)) :
      Moves party point shared next shared
  | elect {index : ℕ} {point next : PoolPoint Job} {shared : PoolShared Job}
      (keeps : Keeps point next) (vacant : shared.leaderExists = false)
      (role : leads next = true) :
      Moves (.thread index) point shared next { shared with leaderExists := true }
  | take {index : ℕ} {task : Job} {rest : List Job} {callers : List LoopCall}
      {shared : PoolShared Job} (queue : shared.taskQueueData = task :: rest) :
      Moves (.thread index) (.leaderLoop (.pop task) callers) shared
        (.leaderLoop (.clear task) callers) { shared with
          taskQueueData := rest
          dequeued := shared.dequeued ++ [(index, task)] }
  | resign {index : ℕ} {task : Job} {callers : List LoopCall} {shared : PoolShared Job} :
      Moves (.thread index) (.leaderLoop (.clear task) callers) shared
        (.leaderLoop (.notify task) callers) { shared with leaderExists := false }
  | deal {index : ℕ} {task : Job} {callers : List LoopCall} {shared : PoolShared Job} :
      Moves (.thread index) (.leaderLoop (.deal task) callers) shared
        (.leaderLoop (.dealing task) callers)
        { shared with dealt := shared.dealt ++ [(index, task)] }
  | push {call : ℕ} {task : Job} {shared : PoolShared Job} :
      Moves (.submit call) (.submit task .push) shared (.submit task .unlock) { shared with
        taskQueueData := shared.taskQueueData ++ [task]
        pushed := shared.pushed ++ [(call, task)] }
  | stop {shared : PoolShared Job} :
      Moves .destructor (.destructor .stop) shared (.destructor .notifyTask)
        { shared with stopping := true }

section Moves

variable {shared : PoolShared Job} {target : PoolPoint Job}

theorem threadLoop_moves {index : ℕ} {at_ : ThreadPoint}
    (asserted : assertion (.threadLoop at_) shared)
    (goes : (threadLoop shared at_).next = some target) :
    Moves (.thread index) (.threadLoop at_) shared target
      ((threadLoop shared at_).after shared) := by
  cases at_ with
  | elect =>
      rcases Option.some.inj goes with rfl
      exact .elect ⟨rfl, rfl, rfl, le_rfl, id⟩ asserted rfl
  | test =>
      simp only [threadLoop] at goes ⊢
      split at goes <;> rcases Option.some.inj goes with rfl
      all_goals
        rename_i holds
        simp only [holds, if_true]
        exact .plain ⟨rfl, rfl, rfl, le_rfl, id⟩ (Or.inl rfl)
  | callLeader | callFollower =>
      rcases Option.some.inj goes with rfl
      exact .plain ⟨rfl, rfl, rfl, le_rfl, fun _ => .singleton _⟩ (Or.inl rfl)
  | lock | unlock =>
      rcases Option.some.inj goes with rfl
      exact .plain ⟨rfl, rfl, rfl, le_rfl, id⟩ (Or.inl rfl)

theorem followerLoop_moves {index : ℕ} {at_ : FollowerPoint} {callers : List LoopCall}
    (asserted : assertion (.followerLoop at_ callers) shared)
    (goes : (followerLoop shared callers at_).next = some target) :
    Moves (.thread index) (.followerLoop at_ callers) shared target
      ((followerLoop shared callers at_).after shared) := by
  cases at_ with
  | elect =>
      rcases Option.some.inj goes with rfl
      exact .elect ⟨rfl, rfl, rfl, le_rfl, id⟩ asserted rfl
  | call =>
      rcases Option.some.inj goes with rfl
      refine .plain ⟨rfl, rfl, rfl, ?_, fun alternate => ?_⟩ (Or.inl rfl)
      · simp [worked]
      · exact .cons_cons (by simp) alternate
  | ret =>
      rcases Option.some.inj goes with rfl
      refine .plain (keeps_returned rfl rfl rfl rfl le_rfl) (Or.inl ?_)
      exact leads_returned callers
  | head | predicate | test =>
      simp only [followerLoop] at goes ⊢
      split at goes <;> rcases Option.some.inj goes with rfl
      all_goals
        rename_i holds
        simp only [holds]
        exact .plain ⟨rfl, rfl, rfl, le_rfl, id⟩ (Or.inl rfl)
  | blocked =>
      rcases Option.some.inj goes with rfl
      exact .plain ⟨rfl, rfl, rfl, le_rfl, id⟩ (Or.inl rfl)

theorem leaderLoop_moves {index : ℕ} {at_ : LeaderPoint Job} {callers : List LoopCall}
    (asserted : assertion (.leaderLoop at_ callers) shared)
    (goes : (leaderLoop index shared callers at_).next = some target) :
    Moves (.thread index) (.leaderLoop at_ callers) shared target
      ((leaderLoop index shared callers at_).after shared) := by
  cases at_ with
  | front =>
      simp only [leaderLoop] at goes ⊢
      cases queue : shared.taskQueueData with
      | nil => exact absurd queue asserted
      | cons task rest =>
          simp only [queue] at goes ⊢
          rcases Option.some.inj goes with rfl
          exact .plain ⟨rfl, rfl, rfl, le_rfl, id⟩ (Or.inl rfl)
  | pop task =>
      rcases Option.some.inj goes with rfl
      rcases asserted with ⟨rest, queue⟩
      simp only [leaderLoop, Monitor.Stmt.after, queue, List.tail_cons]
      exact .take queue
  | clear task =>
      rcases Option.some.inj goes with rfl
      exact .resign
  | deal task =>
      rcases Option.some.inj goes with rfl
      exact .deal
  | call =>
      rcases Option.some.inj goes with rfl
      refine .plain ⟨rfl, rfl, rfl, ?_, fun alternate => ?_⟩ (Or.inl rfl)
      · simp [worked]
      · exact .cons_cons (by simp) alternate
  | ret =>
      rcases Option.some.inj goes with rfl
      refine .plain (keeps_returned rfl rfl rfl rfl le_rfl) (Or.inl ?_)
      exact leads_returned callers
  | head | test =>
      simp only [leaderLoop] at goes ⊢
      split at goes <;> rcases Option.some.inj goes with rfl
      all_goals
        rename_i holds
        simp only [holds]
      · exact .plain ⟨rfl, rfl, rfl, le_rfl, id⟩ (Or.inr ⟨rfl, holds⟩)
      · exact .plain ⟨rfl, rfl, rfl, le_rfl, id⟩ (Or.inl rfl)
  | predicate =>
      simp only [leaderLoop] at goes ⊢
      split at goes <;> rcases Option.some.inj goes with rfl
      all_goals
        rename_i holds
        simp only [holds]
        exact .plain ⟨rfl, rfl, rfl, le_rfl, id⟩ (Or.inl rfl)
  | blocked | notify task | unlock task | dealing task | lock =>
      rcases Option.some.inj goes with rfl
      exact .plain ⟨rfl, rfl, rfl, le_rfl, id⟩ (Or.inl rfl)

theorem submit_moves {call : ℕ} {task : Job} {at_ : SubmitPoint}
    (goes : (submit call task shared at_).next = some target) :
    Moves (.submit call) (.submit task at_) shared target
      ((submit call task shared at_).after shared) := by
  cases at_ with
  | push =>
      rcases Option.some.inj goes with rfl
      exact .push
  | test | branch =>
      simp only [submit] at goes ⊢
      split at goes <;> rcases Option.some.inj goes with rfl
      all_goals
        rename_i holds
        simp only [holds]
        exact .plain ⟨rfl, rfl, rfl, le_rfl, id⟩ (Or.inl rfl)
  | thrown | done => simp [submit, Monitor.Stmt.next] at goes
  | lock | throw | unlock | relock | notifyTask | notifyFollower | finish =>
      rcases Option.some.inj goes with rfl
      exact .plain ⟨rfl, rfl, rfl, le_rfl, id⟩ (Or.inl rfl)

theorem destructor_moves {threadCount : ℕ} {at_ : DestructorPoint}
    (goes : (destructor threadCount shared at_).next = some target) :
    Moves .destructor (.destructor at_) shared target
      ((destructor threadCount shared at_).after shared) := by
  cases at_ with
  | stop =>
      rcases Option.some.inj goes with rfl
      exact .stop
  | join index =>
      simp only [destructor] at goes ⊢
      split at goes <;> rcases Option.some.inj goes with rfl
      all_goals
        rename_i holds
        simp only [holds]
        exact .plain ⟨rfl, rfl, rfl, le_rfl, id⟩ (Or.inl rfl)
  | done => simp [destructor, Monitor.Stmt.next] at goes
  | lock | notifyTask | notifyFollower | unlock =>
      rcases Option.some.inj goes with rfl
      exact .plain ⟨rfl, rfl, rfl, le_rfl, id⟩ (Or.inl rfl)

/-- A statement whose tests have been passed moves as it should. -/
theorem moves_of_next {threadCount : ℕ} {party : PoolParty} {point : PoolPoint Job}
    (asserted : assertion point shared)
    (goes : (code threadCount party point shared).next = some target) :
    Moves party point shared target ((code threadCount party point shared).after shared) := by
  cases party with
  | thread index =>
      cases point with
      | threadLoop at_ => exact threadLoop_moves asserted goes
      | followerLoop at_ callers => exact followerLoop_moves asserted goes
      | leaderLoop at_ callers => exact leaderLoop_moves asserted goes
      | _ => simp [code, Monitor.Stmt.next] at goes
  | submit call =>
      cases point with
      | submit task at_ => exact submit_moves goes
      | _ => simp [code, Monitor.Stmt.next] at goes
  | destructor =>
      cases point with
      | destructor at_ => exact destructor_moves goes
      | _ => simp [code, Monitor.Stmt.next] at goes

end Moves

/-! ## The assertions hold -/

theorem assertion_returned (callers : List LoopCall) (shared : PoolShared Job) :
    assertion (.returned callers) shared := by
  rcases callers with _ | ⟨call, callers⟩
  · trivial
  · cases call <;> trivial

section Assertions

variable {threadCount : ℕ} {party : PoolParty} {point target : PoolPoint Job}
  {shared : PoolShared Job}

theorem assertion_of_next (asserted : assertion point shared)
    (goes : (code threadCount party point shared).next = some target) :
    assertion target ((code threadCount party point shared).after shared) := by
  cases party with
  | thread index =>
      cases point with
      | threadLoop at_ =>
          cases at_ with
          | test =>
              simp only [code, threadLoop] at goes ⊢
              split at goes <;> rcases Option.some.inj goes with rfl
              · trivial
              · rename_i vacant
                simp [vacant, assertion, Monitor.Stmt.after]
          | _ => rcases Option.some.inj goes with rfl; trivial
      | followerLoop at_ callers =>
          cases at_ with
          | head =>
              simp only [code, followerLoop] at goes ⊢
              split at goes <;> rcases Option.some.inj goes with rfl <;> trivial
          | predicate =>
              simp only [code, followerLoop] at goes ⊢
              split at goes <;> rcases Option.some.inj goes with rfl
              · rename_i holds
                simp only [holds, if_true]
                show shared.stopping = true ∨ shared.leaderExists = false
                simpa using holds
              · trivial
          | test =>
              simp only [code, followerLoop] at goes ⊢
              split at goes <;> rcases Option.some.inj goes with rfl
              · trivial
              · rename_i running
                simp only [running]
                exact asserted.resolve_left running
          | ret =>
              rcases Option.some.inj goes with rfl
              exact assertion_returned callers _
          | _ => rcases Option.some.inj goes with rfl; trivial
      | leaderLoop at_ callers =>
          cases at_ with
          | head =>
              simp only [code, leaderLoop] at goes ⊢
              split at goes <;> rcases Option.some.inj goes with rfl <;> trivial
          | predicate =>
              simp only [code, leaderLoop] at goes ⊢
              split at goes <;> rcases Option.some.inj goes with rfl
              · rename_i holds
                simp only [holds, if_true]
                show shared.stopping = true ∨ shared.taskQueueData ≠ []
                simpa using holds
              · trivial
          | test =>
              simp only [code, leaderLoop] at goes ⊢
              split at goes <;> rcases Option.some.inj goes with rfl
              · trivial
              · rename_i running
                simp only [running]
                exact asserted.resolve_left running
          | front =>
              simp only [code, leaderLoop] at goes ⊢
              cases queue : shared.taskQueueData with
              | nil => exact absurd queue asserted
              | cons task rest =>
                  simp only [queue] at goes ⊢
                  rcases Option.some.inj goes with rfl
                  exact ⟨rest, queue⟩
          | ret =>
              rcases Option.some.inj goes with rfl
              exact assertion_returned callers _
          | _ => rcases Option.some.inj goes with rfl; trivial
      | _ => simp [code, Monitor.Stmt.next] at goes
  | submit call =>
      cases point with
      | submit task at_ =>
          cases at_ with
          | test | branch =>
              simp only [code, submit] at goes ⊢
              split at goes <;> rcases Option.some.inj goes with rfl <;> trivial
          | thrown | done => simp [code, submit, Monitor.Stmt.next] at goes
          | _ => rcases Option.some.inj goes with rfl; trivial
      | _ => simp [code, Monitor.Stmt.next] at goes
  | destructor =>
      cases point with
      | destructor at_ =>
          cases at_ with
          | join index =>
              simp only [code, destructor] at goes ⊢
              split at goes <;> rcases Option.some.inj goes with rfl <;> trivial
          | done => simp [code, destructor, Monitor.Stmt.next] at goes
          | _ => rcases Option.some.inj goes with rfl; trivial
      | _ => simp [code, Monitor.Stmt.next] at goes

/-- Without the mutex, only the passing of a task to `dealData` is recorded. -/
theorem after_outside (threadCount : ℕ) (party : PoolParty) (shared : PoolShared Job)
    (outside : inside point = false) :
    ∃ dealt, (code threadCount party point shared).after shared =
      { shared with dealt := dealt } := by
  cases party with
  | thread index =>
      cases point with
      | threadLoop at_ =>
          cases at_ with
          | lock => exact ⟨_, rfl⟩
          | _ => simp [inside] at outside
      | followerLoop at_ callers =>
          cases at_ with
          | blocked => exact ⟨_, rfl⟩
          | _ => simp [inside] at outside
      | leaderLoop at_ callers =>
          cases at_ with
          | blocked | dealing | lock => exact ⟨shared.dealt, rfl⟩
          | deal task => exact ⟨_, rfl⟩
          | _ => simp [inside] at outside
      | _ => exact ⟨_, rfl⟩
  | submit call =>
      cases point with
      | submit task at_ =>
          cases at_ with
          | lock | thrown | relock | done => exact ⟨_, rfl⟩
          | _ => simp [inside] at outside
      | _ => exact ⟨_, rfl⟩
  | destructor =>
      cases point with
      | destructor at_ =>
          cases at_ with
          | lock | done => exact ⟨_, rfl⟩
          | join index =>
              refine ⟨shared.dealt, ?_⟩
              simp only [code, destructor]
              split <;> rfl
          | _ => simp [inside] at outside
      | _ => exact ⟨_, rfl⟩

theorem assertion_congr (point : PoolPoint Job) (shared : PoolShared Job)
    (dealt : List (ℕ × Job)) :
    assertion point { shared with dealt := dealt } ↔ assertion point shared := by
  cases point with
  | threadLoop at_ => cases at_ <;> rfl
  | followerLoop at_ callers => cases at_ <;> rfl
  | leaderLoop at_ callers => cases at_ <;> rfl
  | _ => rfl

end Assertions

/-! ## Every run -/

/-- The points at which a party waits on a condition variable. -/
def blockedOn : PoolCv → PoolPoint Job → Prop
  | .taskCv, point => ∃ callers, point = .leaderLoop .blocked callers
  | .followerCv, point => ∃ callers, point = .followerLoop .blocked callers

theorem blockedOn_of_wait {threadCount : ℕ} {party : PoolParty} {point target : PoolPoint Job}
    {shared : PoolShared Job} {cv : PoolCv}
    (waits : code threadCount party point shared = .wait cv target) : blockedOn cv target := by
  cases party with
  | thread index =>
      cases point with
      | threadLoop at_ =>
          cases at_ <;> simp only [code, threadLoop] at waits
          all_goals (try split at waits) <;> simp at waits
      | followerLoop at_ callers =>
          cases at_ <;> simp only [code, followerLoop] at waits
          all_goals (try split at waits) <;> try simp at waits
          rcases waits with ⟨rfl, rfl⟩
          exact ⟨callers, rfl⟩
      | leaderLoop at_ callers =>
          cases at_ <;> simp only [code, leaderLoop] at waits
          all_goals (try split at waits) <;> try simp at waits
          rcases waits with ⟨rfl, rfl⟩
          exact ⟨callers, rfl⟩
      | _ => simp [code] at waits
  | submit call =>
      cases point with
      | submit task at_ =>
          cases at_ <;> simp only [code, submit] at waits
          all_goals (try split at waits) <;> simp at waits
      | _ => simp [code] at waits
  | destructor =>
      cases point with
      | destructor at_ =>
          cases at_ <;> simp only [code, destructor] at waits
          all_goals (try split at waits) <;> simp at waits
      | _ => simp [code] at waits

/-- The parties obey the rules of the monitor. -/
structure Guarded (state : PoolState Job) : Prop where
  exclusive : Monitor.Exclusive inside state
  asserted : Monitor.Asserted assertion state
  waits : Monitor.Waits blockedOn state

theorem guarded_start (threadCount : ℕ) (tasks : ℕ → Job) : Guarded (start threadCount tasks) where
  exclusive := exclusive_start threadCount tasks
  asserted := fun party => assertion_outside _ _ (by
    have free := exclusive_start threadCount tasks party
    simpa [start] using free)
  waits := by simp [Monitor.Waits, start]

section Run

variable {threadCount : ℕ} {tasks : ℕ → Job} {state next : PoolState Job}
  {label : Monitor.Label PoolParty}

theorem Guarded.step (guarded : Guarded state)
    (stepped : (machine threadCount).step state label = some next) : Guarded next := by
  have moved := Monitor.stepped_of_step stepped
  refine ⟨guarded.exclusive.step (brackets threadCount) moved, ?_,
    guarded.waits.step (fun _ _ _ _ _ => blockedOn_of_wait) moved⟩
  apply guarded.asserted.step guarded.exclusive assertion_outside
    (fun _ _ _ _ => assertion_of_next) ?_ moved
  intro party point shared other outside asserted
  rcases after_outside threadCount party shared outside with
    ⟨dealt, same⟩
  rw [same]
  exact (assertion_congr other shared dealt).mpr asserted

/-- An invariant of the points and the shared state holds in every run if the statements of the
pool preserve it. -/
theorem invariant_of_run (invariant : (PoolParty → PoolPoint Job) → PoolShared Job → Prop)
    (initially : invariant (start threadCount tasks).point {})
    (preserved : ∀ point shared party from_ target after, invariant point shared →
      point party = from_ → Moves party from_ shared target after →
        invariant (Function.update point party target) after)
    {final : PoolState Job} {labels : List (Monitor.Label PoolParty)}
    (reached : (machine threadCount).run (start threadCount tasks) labels = some final) :
    Guarded final ∧ invariant final.point final.shared := by
  refine (machine threadCount).run_invariant_of_step
    (fun state => Guarded state ∧ invariant state.point state.shared) ?_
    ⟨guarded_start threadCount tasks, initially⟩ reached
  rintro before label after ⟨guarded, holds⟩ stepped
  refine ⟨guarded.step stepped, ?_⟩
  rcases (Monitor.stepped_of_step stepped).moves with
    ⟨point, shared⟩ | ⟨party, target, goes, point, shared⟩
  · rw [point, shared]
    exact holds
  · rw [point, shared]
    exact preserved _ _ party _ target _ holds rfl (moves_of_next (guarded.asserted party) goes)

end Run

end PoolThreads

end InstanceMessage
