import InstanceMessage.Server.LFThreadPool
import InstanceMessage.Server.PoolParties

/-!
# What a statement is to the pool

Between two points at which it gives the mutex away a thread performs many
statements, and the pool one step. `resume` is what the pool still has to do of
that step when the thread is at a point of it, and `Acts` says of each statement
how it gets on: it begins the step, leaves the rest of it as it is, ends it, or
has no part in it.

The pool for which a state of the statements stands is its `summary`.
-/

namespace InstanceMessage

open Library

namespace PoolThreads

variable {Job : Type}

/-! ## The pool for which a state of the statements stands -/

def frame : LoopCall → Frame
  | .leaderLoop => .leaderLoop
  | .followerLoop => .followerLoop

/-- The calls on the stack of a thread, innermost first. -/
def frames (calls : List LoopCall) : List Frame := calls.map frame ++ [.threadLoop]

@[simp]
theorem frames_cons (call : LoopCall) (calls : List LoopCall) :
    frames (call :: calls) = frame call :: frames calls := rfl

/-- The points at which a thread has the mutex and the pool has not taken its step. -/
def uncommitted : PoolPoint Job → Bool
  | .threadLoop .lock => false
  | .threadLoop _ => true
  | .followerLoop .blocked _ => false
  | .followerLoop _ _ => true
  | .leaderLoop .blocked _ | .leaderLoop (.unlock _) _ | .leaderLoop (.deal _) _ => false
  | .leaderLoop (.dealing _) _ | .leaderLoop .lock _ => false
  | .leaderLoop _ _ => true
  | _ => false

theorem inside_of_uncommitted {point : PoolPoint Job} (inner : uncommitted point = true) :
    inside point = true := by
  cases point with
  | threadLoop at_ => cases at_ <;> simp_all [uncommitted, inside]
  | followerLoop at_ callers => cases at_ <;> simp_all [uncommitted, inside]
  | leaderLoop at_ callers => cases at_ <;> simp_all [uncommitted, inside]
  | finished | submit | destructor => simp [uncommitted] at inner

/-- Where the pool has a thread whose step it has taken. -/
def standing : PoolPoint Job → Bool → PoolThread Job
  | .followerLoop .blocked callers, true => ⟨frames (.followerLoop :: callers), .followerWaiting⟩
  | .followerLoop .blocked callers, false => ⟨frames (.followerLoop :: callers), .followerWoken⟩
  | .leaderLoop .blocked callers, true => ⟨frames (.leaderLoop :: callers), .leaderWaiting⟩
  | .leaderLoop .blocked callers, false => ⟨frames (.leaderLoop :: callers), .leaderWoken⟩
  | .leaderLoop (.unlock task) callers, _ => ⟨frames (.leaderLoop :: callers), .dealing task⟩
  | .leaderLoop (.deal task) callers, _ => ⟨frames (.leaderLoop :: callers), .dealing task⟩
  | .leaderLoop (.dealing task) callers, _ => ⟨frames (.leaderLoop :: callers), .dealing task⟩
  | .leaderLoop .lock callers, _ => ⟨frames (.leaderLoop :: callers), .returning⟩
  | .finished, _ => ⟨[], .finished⟩
  | _, _ => ⟨[], .starting⟩

def poolOf (threads : List (PoolThread Job)) (shared : PoolShared Job) (unnotified : ℕ) :
    LFThreadPool Job where
  threads := threads
  taskQueueData := shared.taskQueueData
  leaderExists := shared.leaderExists
  stopping := shared.stopping
  unnotified := unnotified
  submitted := shared.pushed.map Prod.snd
  dequeued := shared.dequeued.map Prod.snd

/-- The call of `submit` has pushed its task and not yet notified a thread. -/
def awaits : PoolPoint Job → Bool
  | .submit _ .unlock | .submit _ .relock | .submit _ .branch => true
  | .submit _ .notifyTask | .submit _ .notifyFollower => true
  | _ => false

def unnotified (state : PoolState Job) : ℕ :=
  state.shared.pushed.countP fun entry => awaits (state.point (.submit entry.1))

/-- The pool when nobody has the mutex. -/
def summary (threadCount : ℕ) (state : PoolState Job) : LFThreadPool Job :=
  poolOf ((List.range threadCount).map fun index =>
    standing (state.point (.thread index)) (state.isBlocked (.thread index)))
    state.shared (unnotified state)

/-! ## What a thread still has to do -/

def finish (index : ℕ) (pool : LFThreadPool Job) (choice : Option ℕ) : Option (LFThreadPool Job) :=
  if choice = none then some (pool.goTo index [] .finished) else none

/-- The rest of the pool's step, from a point of the thread. -/
def resume (index : ℕ) (pool : LFThreadPool Job) (choice : Option ℕ) :
    PoolPoint Job → Option (LFThreadPool Job)
  | .threadLoop .test =>
      if pool.leaderExists then pool.followerLoop index (frames [.followerLoop]) choice
      else { pool with leaderExists := true }.leaderLoop index (frames [.leaderLoop]) choice
  | .threadLoop .elect =>
      { pool with leaderExists := true }.leaderLoop index (frames [.leaderLoop]) choice
  | .threadLoop .callLeader => pool.leaderLoop index (frames [.leaderLoop]) choice
  | .threadLoop .callFollower => pool.followerLoop index (frames [.followerLoop]) choice
  | .followerLoop .head callers | .followerLoop .predicate callers | .followerLoop .test callers =>
      pool.followerLoop index (frames (.followerLoop :: callers)) choice
  | .followerLoop .elect callers =>
      { pool with leaderExists := true }.leaderLoop index
        (frames (.leaderLoop :: .followerLoop :: callers)) choice
  | .followerLoop .call callers =>
      pool.leaderLoop index (frames (.leaderLoop :: .followerLoop :: callers)) choice
  | .leaderLoop .head callers | .leaderLoop .predicate callers | .leaderLoop .test callers =>
      pool.leaderLoop index (frames (.leaderLoop :: callers)) choice
  | .leaderLoop .front callers | .leaderLoop (.pop _) callers =>
      match pool.taskQueueData with
      | [] => none
      | task :: rest =>
          { pool.goTo index (frames (.leaderLoop :: callers)) (.dealing task) with
            taskQueueData := rest
            leaderExists := false
            dequeued := pool.dequeued ++ [task] }.notifyOne LFThreadPool.isFollowerWaiting choice
  | .leaderLoop (.clear task) callers =>
      { pool.goTo index (frames (.leaderLoop :: callers)) (.dealing task) with
        leaderExists := false }.notifyOne LFThreadPool.isFollowerWaiting choice
  | .leaderLoop (.notify task) callers =>
      (pool.goTo index (frames (.leaderLoop :: callers)) (.dealing task)).notifyOne
        LFThreadPool.isFollowerWaiting choice
  | .leaderLoop .call callers =>
      pool.followerLoop index (frames (.followerLoop :: .leaderLoop :: callers)) choice
  | .threadLoop .unlock | .followerLoop .ret _ | .leaderLoop .ret _ => finish index pool choice
  | _ => none

/-- What a statement of a thread is to the pool. -/
inductive Acts (index : ℕ) (shared : PoolShared Job) : PoolPoint Job → PoolStmt Job → Prop
  /-- The thread gets the mutex, and all of the step is still to come. -/
  | begins {point next : PoolPoint Job} (outer : uncommitted point = false)
      (inner : uncommitted next = true)
      (whole : ∀ pool : LFThreadPool Job, pool.threads[index]? = some (standing point false) →
        ∀ choice, pool.run index choice = resume index pool choice next) :
      Acts index shared point (.lock next)
  | goesOn {point next : PoolPoint Job} {after : PoolShared Job}
      (inner : uncommitted point = true) (innerNext : uncommitted next = true)
      (pushed : after.pushed = shared.pushed)
      (rest : ∀ threads unnotified choice,
        resume index (poolOf threads shared unnotified) choice point =
          resume index (poolOf threads after unnotified) choice next) :
      Acts index shared point (.assign after next)
  | waits {point next : PoolPoint Job} {cv : PoolCv} (inner : uncommitted point = true)
      (outer : uncommitted next = false)
      (rest : ∀ threads unnotified, resume index (poolOf threads shared unnotified) none point =
        some (poolOf (threads.set index (standing next true)) shared unnotified)) :
      Acts index shared point (.wait cv next)
  | wakes {task : Job} {callers : List LoopCall} :
      Acts index shared (.leaderLoop (.notify task) callers)
        (.notifyOne .followerCv (.leaderLoop (.unlock task) callers))
  | ends : Acts index shared (.threadLoop .unlock) (.unlock .finished)
  | leaves {task : Job} {callers : List LoopCall} :
      Acts index shared (.leaderLoop (.unlock task) callers)
        (.unlock (.leaderLoop (.deal task) callers))
  | deals {task : Job} {callers : List LoopCall} :
      Acts index shared (.leaderLoop (.deal task) callers)
        (.assign { shared with dealt := shared.dealt ++ [(index, task)] }
          (.leaderLoop (.dealing task) callers))
  | returns {task : Job} {callers : List LoopCall} :
      Acts index shared (.leaderLoop (.dealing task) callers)
        (.assign shared (.leaderLoop .lock callers))
  | halts {point : PoolPoint Job} : Acts index shared point .halt

section Acts

variable {index : ℕ} {shared : PoolShared Job}

theorem uncommitted_returned (callers : List LoopCall) :
    uncommitted (.returned callers : PoolPoint Job) = true := by
  rcases callers with _ | ⟨call, callers⟩
  · rfl
  · cases call <;> rfl

theorem resume_returned (pool : LFThreadPool Job) (choice : Option ℕ) (callers : List LoopCall) :
    resume index pool choice (.returned callers) = finish index pool choice := by
  rcases callers with _ | ⟨call, callers⟩
  · rfl
  · cases call <;> rfl

theorem followerLoop_stopping {pool : LFThreadPool Job} {frames : List Frame} {choice : Option ℕ}
    (stopping : pool.stopping = true) :
    pool.followerLoop index frames choice = finish index pool choice := by
  simp [LFThreadPool.followerLoop, stopping, finish]

theorem leaderLoop_stopping {pool : LFThreadPool Job} {frames : List Frame} {choice : Option ℕ}
    (stopping : pool.stopping = true) :
    pool.leaderLoop index frames choice = finish index pool choice := by
  simp [LFThreadPool.leaderLoop, stopping, finish]

theorem acts_threadLoop {at_ : ThreadPoint} (asserted : assertion (.threadLoop at_) shared) :
    Acts index shared (.threadLoop at_) (threadLoop shared at_) := by
  cases at_ with
  | lock =>
      refine .begins rfl rfl fun pool at_ choice => ?_
      simp only [LFThreadPool.run, at_, standing]
      rfl
  | test =>
      simp only [threadLoop]
      split
      · rename_i exists_
        exact .goesOn rfl rfl rfl fun _ _ _ => by simp [resume, poolOf, exists_]
      · rename_i vacant
        exact .goesOn rfl rfl rfl fun _ _ _ => by simp [resume, poolOf, vacant]
  | elect => exact .goesOn rfl rfl rfl fun _ _ _ => rfl
  | callLeader | callFollower => exact .goesOn rfl rfl rfl fun _ _ _ => rfl
  | unlock => exact .ends

theorem acts_followerLoop {at_ : FollowerPoint} {callers : List LoopCall}
    (asserted : assertion (.followerLoop at_ callers) shared) :
    Acts index shared (.followerLoop at_ callers) (followerLoop shared callers at_) := by
  cases at_ with
  | blocked =>
      refine .begins rfl rfl fun pool at_ choice => ?_
      simp only [LFThreadPool.run, at_, standing]
      rfl
  | head =>
      simp only [followerLoop]
      split
      · rename_i stopping
        exact .goesOn rfl rfl rfl fun _ _ _ => followerLoop_stopping stopping
      · exact .goesOn rfl rfl rfl fun _ _ _ => rfl
  | predicate =>
      simp only [followerLoop]
      split
      · exact .goesOn rfl rfl rfl fun _ _ _ => rfl
      · rename_i waits
        have going : shared.stopping = false ∧ shared.leaderExists = true := by simpa using waits
        refine .waits rfl rfl fun threads unnotified => ?_
        simp [resume, LFThreadPool.followerLoop, poolOf, going.1, going.2, LFThreadPool.goTo,
          standing]
  | test =>
      simp only [followerLoop]
      split
      · rename_i stopping
        exact .goesOn rfl rfl rfl fun _ _ _ => followerLoop_stopping stopping
      · rename_i running
        have vacant : shared.leaderExists = false := asserted.resolve_left running
        refine .goesOn rfl rfl rfl fun threads unnotified choice => ?_
        simp [resume, LFThreadPool.followerLoop, poolOf, running, vacant, frame]
  | elect => exact .goesOn rfl rfl rfl fun _ _ _ => rfl
  | call => exact .goesOn rfl rfl rfl fun _ _ _ => rfl
  | ret =>
      exact .goesOn rfl (uncommitted_returned callers) rfl fun _ _ _ =>
        (resume_returned _ _ callers).symm

theorem acts_leaderLoop {at_ : LeaderPoint Job} {callers : List LoopCall}
    (asserted : assertion (.leaderLoop at_ callers) shared) :
    Acts index shared (.leaderLoop at_ callers) (leaderLoop index shared callers at_) := by
  cases at_ with
  | blocked | lock =>
      refine .begins rfl rfl fun pool at_ choice => ?_
      simp only [LFThreadPool.run, at_, standing]
      rfl
  | head =>
      simp only [leaderLoop]
      split
      · rename_i stopping
        exact .goesOn rfl rfl rfl fun _ _ _ => leaderLoop_stopping stopping
      · exact .goesOn rfl rfl rfl fun _ _ _ => rfl
  | predicate =>
      simp only [leaderLoop]
      split
      · exact .goesOn rfl rfl rfl fun _ _ _ => rfl
      · rename_i waits
        have going : shared.stopping = false ∧ shared.taskQueueData = [] := by simpa using waits
        refine .waits rfl rfl fun threads unnotified => ?_
        simp [resume, LFThreadPool.leaderLoop, poolOf, going.1, going.2, LFThreadPool.goTo,
          standing]
  | test =>
      simp only [leaderLoop]
      split
      · rename_i stopping
        exact .goesOn rfl rfl rfl fun _ _ _ => leaderLoop_stopping stopping
      · rename_i running
        have filled : shared.taskQueueData ≠ [] := asserted.resolve_left running
        rcases queue : shared.taskQueueData with _ | ⟨task, rest⟩
        · exact absurd queue filled
        · refine .goesOn rfl rfl rfl fun threads unnotified choice => ?_
          simp [resume, LFThreadPool.leaderLoop, poolOf, running, queue]
  | front =>
      rcases queue : shared.taskQueueData with _ | ⟨task, rest⟩
      · exact absurd queue asserted
      · simp only [leaderLoop, queue]
        exact .goesOn rfl rfl rfl fun _ _ _ => rfl
  | pop task =>
      rcases asserted with ⟨rest, queue⟩
      refine .goesOn rfl rfl rfl fun threads unnotified choice => ?_
      simp [resume, poolOf, queue, LFThreadPool.goTo]
  | clear task => exact .goesOn rfl rfl rfl fun _ _ _ => rfl
  | notify task => exact .wakes
  | unlock task => exact .leaves
  | deal task => exact .deals
  | dealing task => exact .returns
  | call => exact .goesOn rfl rfl rfl fun _ _ _ => rfl
  | ret =>
      exact .goesOn rfl (uncommitted_returned callers) rfl fun _ _ _ =>
        (resume_returned _ _ callers).symm

theorem acts_code {threadCount : ℕ} {point : PoolPoint Job} (asserted : assertion point shared) :
    Acts index shared point (code threadCount (.thread index) point shared) := by
  cases point with
  | threadLoop at_ => exact acts_threadLoop asserted
  | followerLoop at_ callers => exact acts_followerLoop asserted
  | leaderLoop at_ callers => exact acts_leaderLoop asserted
  | finished | submit | destructor => exact .halts

end Acts

end PoolThreads

end InstanceMessage
