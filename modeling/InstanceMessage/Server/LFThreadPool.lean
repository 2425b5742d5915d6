import InstanceMessage.Library.Machine
import Mathlib.Data.List.Basic

/-!
# The leader/follower pool

`LFThreadPool`, for any kind of task. A thread runs from one point at which it
gives the mutex away to the next in a single step: it gives it away in a wait
on a condition variable, around `dealData`, and when it returns. A thread that
waits takes part in a step only after a notification has chosen it, or it has
woken spuriously; it then looks at its predicate again. `submit` pushes the
task in one critical section and notifies in another.

The calls of `leaderLoop` and `followerLoop` are kept as frames, since each of
the two calls the other before it returns.
-/

namespace InstanceMessage

open Library

inductive Frame
  | threadLoop
  | leaderLoop
  | followerLoop
  deriving DecidableEq

inductive Place (Job : Type)
  /-- Not yet in `threadLoop`'s critical section. -/
  | starting
  /-- Waits on `task_cv`. -/
  | leaderWaiting
  /-- Woken from `task_cv`, and not yet back in the mutex. -/
  | leaderWoken
  /-- Inside `dealData` with the task. -/
  | dealing (job : Job)
  /-- Back from `dealData`, and not yet in the mutex. -/
  | returning
  /-- Waits on `follower_cv`. -/
  | followerWaiting
  /-- Woken from `follower_cv`, and not yet back in the mutex. -/
  | followerWoken
  | finished
  deriving DecidableEq

structure PoolThread (Job : Type) where
  frames : List Frame := []
  place : Place Job := .starting
  deriving DecidableEq

structure LFThreadPool (Job : Type) where
  threads : List (PoolThread Job)
  taskQueueData : List Job := []
  leaderExists : Bool := false
  stopping : Bool := false
  /-- Calls of `submit` which have pushed and not yet notified. -/
  unnotified : ℕ := 0
  /-- The tasks that have been pushed, in this order. -/
  submitted : List Job := []
  /-- The tasks that have been taken from the queue, in this order. -/
  dequeued : List Job := []

/-- The steps of the pool; `woken` is the waiting thread that a `notify_one` chooses. -/
inductive PoolEvent (Job : Type)
  /-- The first critical section of `submit`. -/
  | push (job : Job)
  /-- The second critical section of `submit`. -/
  | notify (woken : Option ℕ)
  /-- The thread runs to the next point at which it gives the mutex away. -/
  | run (thread : ℕ) (woken : Option ℕ)
  | dealt (thread : ℕ)
  | spurious (thread : ℕ)
  | stop

namespace LFThreadPool

variable {Job : Type}

def start (threadCount : ℕ) : LFThreadPool Job := { threads := List.replicate threadCount {} }

/-- The place of a thread that a notification or a spurious wakeup gets out of its wait. -/
def woken : Place Job → Place Job
  | .leaderWaiting => .leaderWoken
  | .followerWaiting => .followerWoken
  | place => place

def isLeaderWaiting : Place Job → Bool
  | .leaderWaiting => true
  | _ => false

def isFollowerWaiting : Place Job → Bool
  | .followerWaiting => true
  | _ => false

def wake (pool : LFThreadPool Job) (index : ℕ) : LFThreadPool Job :=
  { pool with
    threads := pool.threads.modify index fun thread => { thread with place := woken thread.place } }

/-- `notify_one`: one of the threads that wait, if there is one. -/
def notifyOne (pool : LFThreadPool Job) (waits : Place Job → Bool) :
    Option ℕ → Option (LFThreadPool Job)
  | some index =>
      match pool.threads[index]? with
      | some thread => if waits thread.place then some (pool.wake index) else none
      | none => none
  | none => if pool.threads.any fun thread => waits thread.place then none else some pool

def goTo (pool : LFThreadPool Job) (index : ℕ) (frames : List Frame) (place : Place Job) :
    LFThreadPool Job :=
  { pool with threads := pool.threads.set index ⟨frames, place⟩ }

/-- `leaderLoop`, from the head of its loop; when it returns so do all calls below it. -/
def leaderLoop (pool : LFThreadPool Job) (index : ℕ) (frames : List Frame) (choice : Option ℕ) :
    Option (LFThreadPool Job) :=
  if pool.stopping then
    if choice = none then some (pool.goTo index [] .finished) else none
  else
    match pool.taskQueueData with
    | [] => if choice = none then some (pool.goTo index frames .leaderWaiting) else none
    | task :: rest =>
        { pool.goTo index frames (.dealing task) with
          taskQueueData := rest
          leaderExists := false
          dequeued := pool.dequeued ++ [task] }.notifyOne isFollowerWaiting choice

def followerLoop (pool : LFThreadPool Job) (index : ℕ) (frames : List Frame)
    (choice : Option ℕ) : Option (LFThreadPool Job) :=
  if pool.stopping then
    if choice = none then some (pool.goTo index [] .finished) else none
  else if pool.leaderExists then
    if choice = none then some (pool.goTo index frames .followerWaiting) else none
  else { pool with leaderExists := true }.leaderLoop index (.leaderLoop :: frames) choice

/-- A thread outside `dealData` that does not wait gets the mutex. -/
def run (pool : LFThreadPool Job) (index : ℕ) (choice : Option ℕ) : Option (LFThreadPool Job) :=
  match pool.threads[index]? with
  | none => none
  | some thread =>
      match thread.place with
      | .starting =>
          if pool.leaderExists then
            pool.followerLoop index [.followerLoop, .threadLoop] choice
          else
            { pool with leaderExists := true }.leaderLoop index [.leaderLoop, .threadLoop] choice
      | .leaderWoken => pool.leaderLoop index thread.frames choice
      | .followerWoken => pool.followerLoop index thread.frames choice
      | .returning => pool.followerLoop index (.followerLoop :: thread.frames) choice
      | .leaderWaiting | .followerWaiting | .dealing _ | .finished => none

def dealt (pool : LFThreadPool Job) (index : ℕ) : Option (LFThreadPool Job) :=
  match pool.threads[index]? with
  | some thread =>
      match thread.place with
      | .dealing _ => some (pool.goTo index thread.frames .returning)
      | _ => none
  | none => none

/-- A `submit` that finds the pool stopping throws and pushes nothing. -/
def push (pool : LFThreadPool Job) (job : Job) : Option (LFThreadPool Job) :=
  if pool.stopping then none
  else some { pool with
    taskQueueData := pool.taskQueueData ++ [job]
    unnotified := pool.unnotified + 1
    submitted := pool.submitted ++ [job] }

def notify (pool : LFThreadPool Job) (choice : Option ℕ) : Option (LFThreadPool Job) :=
  if pool.unnotified = 0 then none
  else { pool with unnotified := pool.unnotified - 1 }.notifyOne
    (if pool.leaderExists then isLeaderWaiting else isFollowerWaiting) choice

def stop (pool : LFThreadPool Job) : LFThreadPool Job :=
  { pool with
    stopping := true
    threads := pool.threads.map fun thread => { thread with place := woken thread.place } }

def step (pool : LFThreadPool Job) : PoolEvent Job → Option (LFThreadPool Job)
  | .push job => pool.push job
  | .notify choice => pool.notify choice
  | .run thread choice => pool.run thread choice
  | .dealt thread => pool.dealt thread
  | .spurious thread => some (pool.wake thread)
  | .stop => some pool.stop

def machine : Machine (LFThreadPool Job) (PoolEvent Job) := ⟨step⟩

/-! ## What the threads hold -/

/-- The task in the hands of a thread inside `dealData`. -/
def inHand : Place Job → Option Job
  | .dealing job => some job
  | _ => none

def hands (pool : LFThreadPool Job) : List (Option Job) :=
  pool.threads.map fun thread => inHand thread.place

@[simp]
theorem inHand_woken (place : Place Job) : inHand (woken place) = inHand place := by
  cases place <;> rfl

/-- The queue, what went into it and came out of it, and what the threads hold are the same. -/
structure SameTasks (pool after : LFThreadPool Job) : Prop where
  hands : after.hands = pool.hands
  queue : after.taskQueueData = pool.taskQueueData
  submitted : after.submitted = pool.submitted
  dequeued : after.dequeued = pool.dequeued

theorem SameTasks.refl (pool : LFThreadPool Job) : SameTasks pool pool := ⟨rfl, rfl, rfl, rfl⟩

theorem hands_goTo (pool : LFThreadPool Job) (index : ℕ) (frames : List Frame)
    (place : Place Job) :
    (pool.goTo index frames place).hands = pool.hands.set index (inHand place) := by
  simp [hands, goTo, List.map_set]

theorem sameTasks_wake (pool : LFThreadPool Job) (index : ℕ) :
    SameTasks pool (pool.wake index) := by
  refine ⟨?_, rfl, rfl, rfl⟩
  apply List.ext_getElem?
  intro position
  simp only [hands, wake, List.getElem?_map, List.getElem?_modify]
  cases pool.threads[position]? with
  | none => rfl
  | some thread =>
      by_cases same : index = position
      · simp [same]
      · simp [same]

theorem sameTasks_notifyOne {pool next : LFThreadPool Job} {waits : Place Job → Bool}
    {choice : Option ℕ} (notified : pool.notifyOne waits choice = some next) :
    SameTasks pool next := by
  cases choice with
  | none =>
      simp only [notifyOne] at notified
      split at notified
      · simp at notified
      · exact Option.some.inj notified ▸ .refl pool
  | some index =>
      simp only [notifyOne] at notified
      split at notified
      · split at notified
        · exact Option.some.inj notified ▸ sameTasks_wake pool index
        · simp at notified
      · simp at notified

/-- The thread has taken the front of the queue. -/
structure Dequeues (pool next : LFThreadPool Job) (index : ℕ) (task : Job) : Prop where
  queue : pool.taskQueueData = task :: next.taskQueueData
  submitted : next.submitted = pool.submitted
  dequeued : next.dequeued = pool.dequeued ++ [task]
  hands : next.hands = pool.hands.set index (some task)

theorem sameTasks_goTo {pool : LFThreadPool Job} {index : ℕ} {frames : List Frame}
    {place : Place Job} (empty : pool.hands[index]? = some none) (holds : inHand place = none) :
    SameTasks pool (pool.goTo index frames place) := by
  refine ⟨?_, rfl, rfl, rfl⟩
  rw [hands_goTo, holds]
  apply List.ext_getElem?
  intro position
  rw [List.getElem?_set]
  split
  · rename_i same
    subst same
    rw [if_pos (List.getElem?_eq_some_iff.mp empty).1]
    exact empty.symm
  · rfl

theorem leaderLoop_cases {pool next : LFThreadPool Job} {index : ℕ} {frames : List Frame}
    {choice : Option ℕ} (empty : pool.hands[index]? = some none)
    (looped : pool.leaderLoop index frames choice = some next) :
    SameTasks pool next ∨ ∃ task, Dequeues pool next index task := by
  simp only [leaderLoop] at looped
  split at looped
  · rcases Option.ite_none_right_eq_some.mp looped with ⟨_, same⟩
    exact Or.inl (Option.some.inj same ▸ sameTasks_goTo empty rfl)
  · split at looped
    · rcases Option.ite_none_right_eq_some.mp looped with ⟨_, same⟩
      exact Or.inl (Option.some.inj same ▸ sameTasks_goTo empty rfl)
    · rename_i task rest queue
      have kept := sameTasks_notifyOne looped
      refine Or.inr ⟨task, ?_, ?_, ?_, ?_⟩
      · rw [queue, kept.queue]
      · rw [kept.submitted]
        rfl
      · rw [kept.dequeued]
      · rw [kept.hands]
        exact hands_goTo pool index frames (.dealing task)

theorem leaderLoop_cases_of_elected {pool next : LFThreadPool Job} {index : ℕ}
    {frames : List Frame} {choice : Option ℕ} (empty : pool.hands[index]? = some none)
    (looped : { pool with leaderExists := true }.leaderLoop index frames choice = some next) :
    SameTasks pool next ∨ ∃ task, Dequeues pool next index task := by
  have elected : ({ pool with leaderExists := true } : LFThreadPool Job).hands[index]? =
    some none := empty
  rcases leaderLoop_cases elected looped with
    ⟨hands, queue, submitted, dequeued⟩ | ⟨task, queue, submitted, dequeued, hands⟩
  · exact Or.inl ⟨hands, queue, submitted, dequeued⟩
  · exact Or.inr ⟨task, queue, submitted, dequeued, hands⟩

theorem followerLoop_cases {pool next : LFThreadPool Job} {index : ℕ} {frames : List Frame}
    {choice : Option ℕ} (empty : pool.hands[index]? = some none)
    (looped : pool.followerLoop index frames choice = some next) :
    SameTasks pool next ∨ ∃ task, Dequeues pool next index task := by
  simp only [followerLoop] at looped
  split at looped
  · rcases Option.ite_none_right_eq_some.mp looped with ⟨_, same⟩
    exact Or.inl (Option.some.inj same ▸ sameTasks_goTo empty rfl)
  · split at looped
    · rcases Option.ite_none_right_eq_some.mp looped with ⟨_, same⟩
      exact Or.inl (Option.some.inj same ▸ sameTasks_goTo empty rfl)
    · exact leaderLoop_cases_of_elected empty looped

/-- A thread that runs has empty hands, and either keeps them so or takes the front task. -/
theorem run_cases {pool next : LFThreadPool Job} {index : ℕ} {choice : Option ℕ}
    (ran : pool.run index choice = some next) :
    pool.hands[index]? = some none ∧
      (SameTasks pool next ∨ ∃ task, Dequeues pool next index task) := by
  simp only [run] at ran
  split at ran
  · simp at ran
  · rename_i thread present
    have held (place : Place Job) (shape : thread.place = place) :
        pool.hands[index]? = some (inHand place) := by
      simp [hands, present, shape]
    split at ran
    · rename_i shape
      have empty := held _ shape
      refine ⟨empty, ?_⟩
      split at ran
      · exact followerLoop_cases empty ran
      · exact leaderLoop_cases_of_elected empty ran
    · rename_i shape
      exact ⟨held _ shape, leaderLoop_cases (held _ shape) ran⟩
    · rename_i shape
      exact ⟨held _ shape, followerLoop_cases (held _ shape) ran⟩
    · rename_i shape
      exact ⟨held _ shape, followerLoop_cases (held _ shape) ran⟩
    all_goals simp at ran

/-- The thread comes back from `dealData`, with empty hands. -/
structure Returns (pool next : LFThreadPool Job) (index : ℕ) : Prop where
  hands : next.hands = pool.hands.set index none
  queue : next.taskQueueData = pool.taskQueueData
  submitted : next.submitted = pool.submitted
  dequeued : next.dequeued = pool.dequeued

theorem returns_of_dealt {pool next : LFThreadPool Job} {index : ℕ}
    (returned : pool.dealt index = some next) : Returns pool next index := by
  simp only [dealt] at returned
  split at returned
  · split at returned
    · rcases Option.some.inj returned with rfl
      exact ⟨hands_goTo _ _ _ _, rfl, rfl, rfl⟩
    · simp at returned
  · simp at returned

theorem sameTasks_notify {pool next : LFThreadPool Job} {choice : Option ℕ}
    (notified : pool.notify choice = some next) : SameTasks pool next := by
  simp only [notify] at notified
  split at notified
  · simp at notified
  · rcases sameTasks_notifyOne notified with ⟨hands, queue, submitted, dequeued⟩
    exact ⟨hands, queue, submitted, dequeued⟩

theorem push_eq_some {pool next : LFThreadPool Job} {job : Job}
    (pushed : pool.push job = some next) :
    next = { pool with
      taskQueueData := pool.taskQueueData ++ [job]
      unnotified := pool.unnotified + 1
      submitted := pool.submitted ++ [job] } := by
  simp only [push] at pushed
  split at pushed
  · simp at pushed
  · exact (Option.some.inj pushed).symm

/-! ## The queue is first in, first out -/

/-- The tasks have been taken in the order in which they were pushed. -/
def Fifo (pool : LFThreadPool Job) : Prop :=
  pool.dequeued ++ pool.taskQueueData = pool.submitted

theorem SameTasks.fifo {pool next : LFThreadPool Job} (same : SameTasks pool next)
    (fifo : pool.Fifo) : next.Fifo := by
  rw [Fifo, same.dequeued, same.queue, same.submitted]
  exact fifo

theorem Dequeues.fifo {pool next : LFThreadPool Job} {index : ℕ} {task : Job}
    (dequeues : Dequeues pool next index task) (fifo : pool.Fifo) : next.Fifo := by
  rw [Fifo, dequeues.dequeued, dequeues.submitted, ← fifo, dequeues.queue]
  simp

theorem Fifo.dealt {pool next : LFThreadPool Job} {index : ℕ} (fifo : pool.Fifo)
    (returned : pool.dealt index = some next) : next.Fifo := by
  have returns := returns_of_dealt returned
  rw [Fifo, returns.dequeued, returns.queue, returns.submitted]
  exact fifo

theorem Fifo.push {pool next : LFThreadPool Job} {job : Job} (fifo : pool.Fifo)
    (pushed : pool.push job = some next) : next.Fifo := by
  rw [push_eq_some pushed, Fifo, ← List.append_assoc, fifo]

end LFThreadPool

end InstanceMessage
