import InstanceMessage.Server.LFThreadPool

/-!
# The pool does not get stuck

While the pool is not stopping, a task in the queue is taken unless all threads
are inside `dealData`. A wakeup can be lost in the pool: a notification may find
no thread that waits, or wake a thread which another one has overtaken. What
keeps the pool going is a count of roles. While a leader exists, exactly one
thread is in the leader's wait or has been woken from it, and when it waits
although the queue is not empty, a `submit` has pushed and has not notified yet.
While no leader exists, a follower waits only if some other thread is on its way
to the mutex, where it will find the leader's place empty.

When the pool stops, no thread waits any more, so every thread outside
`dealData` returns at its next turn.
-/

namespace InstanceMessage

open Library

namespace LFThreadPool

variable {Job : Type}

/-! ## Roles -/

/-- The thread is on its way to the mutex. -/
def isReady : Place Job → Bool
  | .starting | .leaderWoken | .followerWoken | .returning => true
  | _ => false

def isLeader : Place Job → Bool
  | .leaderWaiting | .leaderWoken => true
  | _ => false

def isWaiting (place : Place Job) : Bool := isLeaderWaiting place || isFollowerWaiting place

def isDealing : Place Job → Bool
  | .dealing _ => true
  | _ => false

def isFinished : Place Job → Bool
  | .finished => true
  | _ => false

def count (pool : LFThreadPool Job) (role : Place Job → Bool) : ℕ :=
  pool.threads.countP fun thread => role thread.place

/-- A thread has gone from one place to another. -/
theorem count_goTo {pool : LFThreadPool Job} {index : ℕ} {thread : PoolThread Job}
    (present : pool.threads[index]? = some thread) (frames : List Frame) (place : Place Job)
    (role : Place Job → Bool) :
    (pool.goTo index frames place).count role + (role thread.place).toNat =
      pool.count role + (role place).toNat := by
  rcases List.getElem?_eq_some_iff.mp present with ⟨bound, same⟩
  have positive : (role thread.place).toNat ≤ pool.count role := by
    cases holds : role thread.place with
    | false => exact Nat.zero_le _
    | true => exact List.countP_pos_iff.mpr ⟨thread, List.mem_of_getElem? present, holds⟩
  have counted : (pool.goTo index frames place).count role =
      pool.count role - (if role thread.place then 1 else 0) + if role place then 1 else 0 := by
    simp only [count, goTo, List.countP_set bound, same]
  rw [counted]
  by_cases left : role thread.place = true <;> by_cases enters : role place = true <;>
    simp [left, enters] at positive ⊢ <;> omega

theorem wake_eq_goTo {pool : LFThreadPool Job} {index : ℕ} {thread : PoolThread Job}
    (present : pool.threads[index]? = some thread) :
    pool.wake index = pool.goTo index thread.frames (woken thread.place) := by
  simp only [wake, goTo, List.modify_eq_set_getElem?, present, Option.map_eq_map,
    Option.map_some, Option.getD_some]

theorem wake_eq_self {pool : LFThreadPool Job} {index : ℕ}
    (absent : pool.threads[index]? = none) : pool.wake index = pool := by
  simp only [wake, List.modify_eq_set_getElem?, absent, Option.map_eq_map, Option.map_none,
    Option.getD_none]

theorem notifyOne_cases {pool next : LFThreadPool Job} {waits : Place Job → Bool}
    {choice : Option ℕ} (notified : pool.notifyOne waits choice = some next) :
    (next = pool ∧ pool.count waits = 0) ∨ ∃ index thread,
      pool.threads[index]? = some thread ∧ waits thread.place = true ∧
        next = pool.goTo index thread.frames (woken thread.place) := by
  cases choice with
  | none =>
      rcases Option.ite_none_left_eq_some.mp notified with ⟨nobody, same⟩
      refine Or.inl ⟨(Option.some.inj same).symm, List.countP_eq_zero.mpr ?_⟩
      simpa using nobody
  | some index =>
      simp only [notifyOne] at notified
      split at notified
      · rename_i thread present
        rcases Option.ite_none_right_eq_some.mp notified with ⟨waiting, same⟩
        refine Or.inr ⟨index, thread, present, waiting, ?_⟩
        rw [← wake_eq_goTo present]
        exact (Option.some.inj same).symm
      · simp at notified

/-- There is always a choice for a notification. -/
theorem exists_notifyOne (pool : LFThreadPool Job) (waits : Place Job → Bool) :
    ∃ choice next, pool.notifyOne waits choice = some next := by
  by_cases nobody : pool.threads.any fun thread => waits thread.place
  · rcases List.any_eq_true.mp nobody with ⟨thread, member, waiting⟩
    rcases List.mem_iff_getElem?.mp member with ⟨index, present⟩
    exact ⟨some index, pool.wake index, by simp [notifyOne, present, waiting]⟩
  · exact ⟨none, pool, by simp [notifyOne, nobody]⟩

theorem count_le_count {pool : LFThreadPool Job} {few many : Place Job → Bool}
    (fewer : ∀ place, few place = true → many place = true) : pool.count few ≤ pool.count many :=
  List.countP_mono_left fun thread _ => fewer thread.place

/-! ## While the pool is not stopping -/

/-- Who waits for what in a pool that is not stopping. -/
structure Awake (pool : LFThreadPool Job) : Prop where
  leaders : pool.count isLeader = pool.leaderExists.toNat
  promised : pool.count isLeaderWaiting ≠ 0 → pool.taskQueueData ≠ [] → pool.unnotified ≠ 0
  followed : pool.leaderExists = false → pool.count isFollowerWaiting ≠ 0 →
    pool.count isReady ≠ 0
  unfinished : pool.count isFinished = 0

/-- Only a leader waits as one. -/
theorem leaderWaiting_le_leader (pool : LFThreadPool Job) :
    pool.count isLeaderWaiting ≤ pool.count isLeader := by
  apply count_le_count
  intro place waits
  cases place <;> simp_all [isLeaderWaiting, isLeader]

theorem roles_of_ready {place : Place Job} (ready : isReady place = true) :
    isLeaderWaiting place = false ∧ isFollowerWaiting place = false ∧ isFinished place = false := by
  cases place <;> simp_all [isReady, isLeaderWaiting, isFollowerWaiting, isFinished]

/-- A follower that is woken is on its way to the mutex. -/
theorem Awake.notifyFollower {pool next : LFThreadPool Job} {choice : Option ℕ}
    (leaders : pool.count isLeader = 0) (noLeader : pool.leaderExists = false)
    (unfinished : pool.count isFinished = 0)
    (notified : pool.notifyOne isFollowerWaiting choice = some next) : next.Awake := by
  have nobody : pool.count isLeaderWaiting = 0 :=
    Nat.le_zero.mp (leaders ▸ pool.leaderWaiting_le_leader)
  rcases notifyOne_cases notified with ⟨rfl, none_⟩ | ⟨index, thread, present, waits, rfl⟩
  · exact ⟨by rw [leaders, noLeader]; rfl, fun waiting => absurd nobody waiting,
      fun _ waiting => absurd none_ waiting, unfinished⟩
  · have place : thread.place = .followerWaiting := by
      cases shape : thread.place <;> simp_all [isFollowerWaiting]
    have counted := count_goTo present thread.frames (woken thread.place)
    simp only [place, woken] at counted ⊢
    have leading := counted isLeader
    have waiting := counted isLeaderWaiting
    have ready := counted isReady
    have finished := counted isFinished
    simp only [isLeader, isLeaderWaiting, isReady, isFinished, Bool.toNat_true,
      Bool.toNat_false] at leading waiting ready finished
    refine ⟨?_, ?_, ?_, by omega⟩
    · show _ = pool.leaderExists.toNat
      rw [noLeader, Bool.toNat_false]
      omega
    · intro waits
      exact absurd (by omega) waits
    · intro _ _
      omega

/-- The leader that is woken no longer waits. -/
theorem Awake.notifyLeader {pool next : LFThreadPool Job} {choice : Option ℕ}
    (leaders : pool.count isLeader = 1) (led : pool.leaderExists = true)
    (unfinished : pool.count isFinished = 0)
    (notified : pool.notifyOne isLeaderWaiting choice = some next) : next.Awake := by
  rcases notifyOne_cases notified with ⟨rfl, nobody⟩ | ⟨index, thread, present, waits, rfl⟩
  · refine ⟨by rw [leaders, led]; rfl, fun waiting => absurd nobody waiting, ?_, unfinished⟩
    intro noLeader
    exact absurd (led.symm.trans noLeader) (by decide)
  · have place : thread.place = .leaderWaiting := by
      cases shape : thread.place <;> simp_all [isLeaderWaiting]
    have only := pool.leaderWaiting_le_leader
    have counted := count_goTo present thread.frames (woken thread.place)
    simp only [place, woken] at counted ⊢
    have leading := counted isLeader
    have waiting := counted isLeaderWaiting
    have finished := counted isFinished
    simp only [isLeader, isLeaderWaiting, isFinished, Bool.toNat_true, Bool.toNat_false]
      at leading waiting finished
    refine ⟨?_, ?_, ?_, by omega⟩
    · show _ = pool.leaderExists.toNat
      rw [led, Bool.toNat_true]
      omega
    · intro waits
      exact absurd (by omega) waits
    · intro noLeader
      exact absurd (led.symm.trans noLeader) (by decide)

theorem Awake.notify {pool next : LFThreadPool Job} {choice : Option ℕ} (awake : pool.Awake)
    (notified : pool.notify choice = some next) : next.Awake := by
  rcases Option.ite_none_left_eq_some.mp notified with ⟨pushed, notified⟩
  have leaders := awake.leaders
  by_cases led : pool.leaderExists = true
  · rw [led] at leaders
    rw [if_pos led] at notified
    refine Awake.notifyLeader ?_ ?_ ?_ notified
    · exact leaders
    · exact led
    · exact awake.unfinished
  · rw [Bool.eq_false_iff.mpr led] at leaders
    rw [if_neg led] at notified
    refine Awake.notifyFollower ?_ ?_ ?_ notified
    · exact leaders
    · exact Bool.eq_false_iff.mpr led
    · exact awake.unfinished

section Turn

variable {pool next : LFThreadPool Job} {index : ℕ} {thread : PoolThread Job}
  {frames : List Frame} {choice : Option ℕ}

/-- The thread becomes a follower that waits, since there is a leader. -/
theorem Awake.follow (awake : pool.Awake) (present : pool.threads[index]? = some thread)
    (follower : isLeader thread.place = false) (ready : isReady thread.place = true)
    (led : pool.leaderExists = true) :
    (pool.goTo index frames .followerWaiting).Awake := by
  rcases roles_of_ready ready with ⟨notWaiting, _, running⟩
  have counted := count_goTo present frames (.followerWaiting : Place Job)
  have leaders := counted isLeader
  have waiting := counted isLeaderWaiting
  have finished := counted isFinished
  rw [follower] at leaders
  rw [notWaiting] at waiting
  rw [running] at finished
  simp only [isLeader, isLeaderWaiting, isFinished, Bool.toNat_false, Nat.add_zero]
    at leaders waiting finished
  refine ⟨leaders.trans awake.leaders, ?_, ?_, finished.trans awake.unfinished⟩
  · rw [waiting]
    exact awake.promised
  · intro noLeader
    exact absurd (led.symm.trans noLeader) (by decide)

/-- The thread leads: it waits for a task, or takes one and gives its place away. -/
theorem Awake.lead (present : pool.threads[index]? = some thread)
    (ready : isReady thread.place = true)
    (alone : pool.count isLeader = (isLeader thread.place).toNat)
    (led : pool.leaderExists = true) (unfinished : pool.count isFinished = 0)
    (running : pool.stopping = false)
    (looped : pool.leaderLoop index frames choice = some next) : next.Awake := by
  rcases roles_of_ready ready with ⟨notWaiting, _, working⟩
  rw [leaderLoop, if_neg (by simp [running])] at looped
  split at looped
  · rename_i empty
    rcases Option.ite_none_right_eq_some.mp looped with ⟨_, same⟩
    rcases Option.some.inj same with rfl
    have counted := count_goTo present frames (.leaderWaiting : Place Job)
    have leaders := counted isLeader
    have finished := counted isFinished
    rw [working] at finished
    rw [alone] at leaders
    have leading : isLeader (.leaderWaiting : Place Job) = true := rfl
    simp only [leading, isFinished, Bool.toNat_true, Bool.toNat_false] at leaders finished
    refine ⟨?_, ?_, ?_, by omega⟩
    · show _ = pool.leaderExists.toNat
      rw [led, Bool.toNat_true]
      omega
    · intro _ queued
      exact absurd empty queued
    · intro noLeader
      exact absurd (led.symm.trans noLeader) (by decide)
  · rename_i task rest queue
    have counted := count_goTo present frames (.dealing task)
    have leaders := counted isLeader
    have finished := counted isFinished
    rw [working] at finished
    rw [alone] at leaders
    have retired : isLeader (.dealing task) = false := rfl
    simp only [retired, isFinished, Bool.toNat_false] at leaders finished
    refine Awake.notifyFollower ?_ rfl ?_ looped
    · show (pool.goTo index frames (.dealing task)).count isLeader = 0
      omega
    · show (pool.goTo index frames (.dealing task)).count isFinished = 0
      omega

/-- A thread that finds the leader's place empty takes it. -/
theorem Awake.elect (awake : pool.Awake) (present : pool.threads[index]? = some thread)
    (ready : isReady thread.place = true) (follower : isLeader thread.place = false)
    (noLeader : pool.leaderExists = false) (running : pool.stopping = false)
    (looped : { pool with leaderExists := true }.leaderLoop index frames choice = some next) :
    next.Awake := by
  have leaders := awake.leaders
  rw [noLeader] at leaders
  refine Awake.lead ?_ ready ?_ rfl ?_ ?_ looped
  · exact present
  · rw [follower]
    exact leaders
  · exact awake.unfinished
  · exact running

theorem Awake.followerLoop (awake : pool.Awake) (present : pool.threads[index]? = some thread)
    (ready : isReady thread.place = true) (follower : isLeader thread.place = false)
    (running : pool.stopping = false)
    (looped : pool.followerLoop index frames choice = some next) : next.Awake := by
  rw [LFThreadPool.followerLoop, if_neg (by simp [running])] at looped
  split at looped
  · rename_i led
    rcases Option.ite_none_right_eq_some.mp looped with ⟨_, same⟩
    rcases Option.some.inj same with rfl
    exact awake.follow present follower ready led
  · rename_i noLeader
    exact awake.elect present ready follower (Bool.eq_false_iff.mpr noLeader) running looped

theorem Awake.run (awake : pool.Awake) (running : pool.stopping = false)
    (ran : pool.run index choice = some next) : next.Awake := by
  simp only [LFThreadPool.run] at ran
  split at ran
  · simp at ran
  · rename_i thread present
    split at ran
    · rename_i place
      have ready : isReady thread.place = true := by rw [place]; rfl
      have follower : isLeader thread.place = false := by rw [place]; rfl
      split at ran
      · exact awake.followerLoop present ready follower running ran
      · rename_i noLeader
        exact awake.elect present ready follower (Bool.eq_false_iff.mpr noLeader) running ran
    · rename_i place
      have positive : 0 < pool.count isLeader :=
        List.countP_pos_iff.mpr ⟨thread, List.mem_of_getElem? present, by rw [place]; rfl⟩
      have leaders := awake.leaders
      cases led : pool.leaderExists with
      | false =>
          rw [led, Bool.toNat_false] at leaders
          omega
      | true =>
          rw [led] at leaders
          refine Awake.lead present ?_ ?_ led awake.unfinished running ran
          · rw [place]
            rfl
          · rw [leaders, place]
            rfl
    · rename_i place
      exact awake.followerLoop present (by rw [place]; rfl) (by rw [place]; rfl) running ran
    · rename_i place
      exact awake.followerLoop present (by rw [place]; rfl) (by rw [place]; rfl) running ran
    all_goals simp at ran

end Turn

theorem Awake.push {pool next : LFThreadPool Job} {job : Job} (awake : pool.Awake)
    (pushed : pool.push job = some next) : next.Awake := by
  rw [push_eq_some pushed]
  refine ⟨awake.leaders, ?_, awake.followed, awake.unfinished⟩
  intro _ _
  exact Nat.succ_ne_zero _

theorem Awake.dealt {pool next : LFThreadPool Job} {index : ℕ} (awake : pool.Awake)
    (returned : pool.dealt index = some next) : next.Awake := by
  simp only [LFThreadPool.dealt] at returned
  split at returned
  · rename_i thread present
    split at returned
    · rename_i task place
      rcases Option.some.inj returned with rfl
      have counted := count_goTo present thread.frames (.returning : Place Job)
      rw [place] at counted
      have leaders := counted isLeader
      have waiting := counted isLeaderWaiting
      have ready := counted isReady
      have finished := counted isFinished
      simp only [isLeader, isLeaderWaiting, isReady, isFinished, Bool.toNat_true,
        Bool.toNat_false, Nat.add_zero] at leaders waiting ready finished
      refine ⟨leaders.trans awake.leaders, ?_, ?_, finished.trans awake.unfinished⟩
      · rw [waiting]
        exact awake.promised
      · intro _ _
        rw [ready]
        exact Nat.succ_ne_zero _
    · simp at returned
  · simp at returned

/-- A thread that wakes without having been chosen leads or follows as before. -/
theorem Awake.wake {pool : LFThreadPool Job} (awake : pool.Awake) (index : ℕ) :
    (pool.wake index).Awake := by
  cases present : pool.threads[index]? with
  | none =>
      rw [wake_eq_self present]
      exact awake
  | some thread =>
      rw [wake_eq_goTo present]
      have counted := count_goTo present thread.frames (woken thread.place)
      have leaders := counted isLeader
      have leading := counted isLeaderWaiting
      have following := counted isFollowerWaiting
      have ready := counted isReady
      have finished := counted isFinished
      rcases awake with ⟨led, promised, followed, unfinished⟩
      cases place : thread.place <;> rw [place] at leaders leading following ready finished <;>
        simp only [woken, isLeader, isLeaderWaiting, isFollowerWaiting, isReady, isFinished,
          Bool.toNat_true, Bool.toNat_false] at leaders leading following ready finished ⊢
      all_goals
        refine ⟨(show _ = pool.leaderExists.toNat by omega), ?_, ?_, by omega⟩
        · intro waiting queued
          exact promised (by omega) queued
        · intro noLeader waiting
          have before := followed noLeader
          omega

theorem awake_start (threadCount : ℕ) : (start threadCount : LFThreadPool Job).Awake := by
  have nobody (role : Place Job → Bool) (idle : role .starting = false) :
      (start threadCount : LFThreadPool Job).count role = 0 := by
    apply List.countP_eq_zero.mpr
    intro thread member
    rw [List.eq_of_mem_replicate member, idle]
    exact Bool.false_ne_true
  exact ⟨nobody _ rfl, fun waiting => absurd (nobody _ rfl) waiting,
    fun _ waiting => absurd (nobody _ rfl) waiting, nobody _ rfl⟩

/-! ## When the pool stops -/

section Stopping

variable {pool next : LFThreadPool Job} {index : ℕ} {frames : List Frame} {choice : Option ℕ}

theorem stopping_notifyOne {waits : Place Job → Bool}
    (notified : pool.notifyOne waits choice = some next) : next.stopping = pool.stopping := by
  rcases notifyOne_cases notified with ⟨rfl, _⟩ | ⟨_, _, _, _, rfl⟩ <;> rfl

theorem stopping_leaderLoop (looped : pool.leaderLoop index frames choice = some next) :
    next.stopping = pool.stopping := by
  simp only [leaderLoop] at looped
  split at looped
  · rcases Option.ite_none_right_eq_some.mp looped with ⟨_, same⟩
    rcases Option.some.inj same with rfl
    rfl
  · split at looped
    · rcases Option.ite_none_right_eq_some.mp looped with ⟨_, same⟩
      rcases Option.some.inj same with rfl
      rfl
    · exact (stopping_notifyOne looped).trans rfl

theorem stopping_followerLoop (looped : pool.followerLoop index frames choice = some next) :
    next.stopping = pool.stopping := by
  simp only [LFThreadPool.followerLoop] at looped
  split at looped
  · rcases Option.ite_none_right_eq_some.mp looped with ⟨_, same⟩
    rcases Option.some.inj same with rfl
    rfl
  · split at looped
    · rcases Option.ite_none_right_eq_some.mp looped with ⟨_, same⟩
      rcases Option.some.inj same with rfl
      rfl
    · exact (stopping_leaderLoop looped).trans rfl

theorem stopping_run (ran : pool.run index choice = some next) :
    next.stopping = pool.stopping := by
  simp only [LFThreadPool.run] at ran
  split at ran
  · simp at ran
  · split at ran
    · split at ran
      · exact stopping_followerLoop ran
      · exact (stopping_leaderLoop ran).trans rfl
    · exact stopping_leaderLoop ran
    · exact stopping_followerLoop ran
    · exact stopping_followerLoop ran
    all_goals simp at ran

theorem leaderLoop_of_stopping (stopped : pool.stopping = true) :
    pool.leaderLoop index frames choice =
      if choice = none then some (pool.goTo index [] .finished) else none := by
  rw [leaderLoop, if_pos stopped]

theorem followerLoop_of_stopping (stopped : pool.stopping = true) :
    pool.followerLoop index frames choice =
      if choice = none then some (pool.goTo index [] .finished) else none := by
  rw [LFThreadPool.followerLoop, if_pos stopped]

/-- A thread that gets the mutex after the pool has stopped returns from `threadLoop`. -/
theorem finishes_of_stopping {thread : PoolThread Job} (stopped : pool.stopping = true)
    (present : pool.threads[index]? = some thread) (ready : isReady thread.place = true) :
    ∃ led, ∀ choice, pool.run index choice = if choice = none then
      some ({ pool with leaderExists := led }.goTo index [] .finished) else none := by
  simp only [LFThreadPool.run, present]
  cases place : thread.place with
  | starting =>
      by_cases led : pool.leaderExists = true
      · exact ⟨pool.leaderExists, fun choice => by
          rw [if_pos led, followerLoop_of_stopping stopped]⟩
      · exact ⟨true, fun choice => by
          rw [if_neg led]
          exact leaderLoop_of_stopping stopped⟩
  | leaderWoken => exact ⟨pool.leaderExists, fun choice => leaderLoop_of_stopping stopped⟩
  | followerWoken => exact ⟨pool.leaderExists, fun choice => followerLoop_of_stopping stopped⟩
  | returning => exact ⟨pool.leaderExists, fun choice => followerLoop_of_stopping stopped⟩
  | leaderWaiting | followerWaiting | dealing | finished => simp [place, isReady] at ready

theorem ready_of_run (ran : pool.run index choice = some next) :
    ∃ thread, pool.threads[index]? = some thread ∧ isReady thread.place = true := by
  simp only [LFThreadPool.run] at ran
  split at ran
  · simp at ran
  · rename_i thread present
    refine ⟨thread, present, ?_⟩
    cases place : thread.place <;> simp only [place, reduceCtorEq] at ran <;> rfl

theorem waiting_goTo {thread : PoolThread Job} (released : pool.count isWaiting = 0)
    (present : pool.threads[index]? = some thread) (frames : List Frame) {place : Place Job}
    (awake : isWaiting place = false) : (pool.goTo index frames place).count isWaiting = 0 := by
  have counted := count_goTo present frames place isWaiting
  rw [awake, released, Bool.toNat_false] at counted
  omega

theorem isWaiting_woken (place : Place Job) : isWaiting (woken place) = false := by
  cases place <;> rfl

theorem waiting_wake (released : pool.count isWaiting = 0) (index : ℕ) :
    (pool.wake index).count isWaiting = 0 := by
  cases present : pool.threads[index]? with
  | none =>
      rw [wake_eq_self present]
      exact released
  | some thread =>
      rw [wake_eq_goTo present]
      exact waiting_goTo released present _ (isWaiting_woken _)

theorem waiting_notifyOne {waits : Place Job → Bool} (released : pool.count isWaiting = 0)
    (notified : pool.notifyOne waits choice = some next) : next.count isWaiting = 0 := by
  rcases notifyOne_cases notified with ⟨rfl, _⟩ | ⟨_, _, present, _, rfl⟩
  · exact released
  · exact waiting_goTo released present _ (isWaiting_woken _)

theorem waiting_stop (pool : LFThreadPool Job) : pool.stop.count isWaiting = 0 := by
  apply List.countP_eq_zero.mpr
  intro thread member
  rcases List.mem_map.mp member with ⟨before, _, rfl⟩
  rw [isWaiting_woken]
  exact Bool.false_ne_true

end Stopping

/-- In a pool that stops nobody waits, in another one the waits are in order. -/
structure Unstuck (pool : LFThreadPool Job) : Prop where
  awake : pool.stopping = false → pool.Awake
  released : pool.stopping = true → pool.count isWaiting = 0

section Unstuck

variable {pool next : LFThreadPool Job} {index : ℕ} {choice : Option ℕ}

theorem Unstuck.push {job : Job} (unstuck : pool.Unstuck) (pushed : pool.push job = some next) :
    next.Unstuck := by
  have same : next.stopping = pool.stopping := by rw [push_eq_some pushed]
  constructor
  · intro running
    exact (unstuck.awake (same ▸ running)).push pushed
  · intro stopped
    rw [push_eq_some pushed]
    exact unstuck.released (same ▸ stopped)

theorem Unstuck.notify (unstuck : pool.Unstuck) (notified : pool.notify choice = some next) :
    next.Unstuck := by
  rcases Option.ite_none_left_eq_some.mp notified with ⟨_, chosen⟩
  have same := stopping_notifyOne chosen
  constructor
  · intro running
    exact (unstuck.awake (same.symm.trans running)).notify notified
  · intro stopped
    refine waiting_notifyOne ?_ chosen
    exact unstuck.released (same.symm.trans stopped)

theorem Unstuck.run (unstuck : pool.Unstuck) (ran : pool.run index choice = some next) :
    next.Unstuck := by
  have same := stopping_run ran
  constructor
  · intro running
    rw [same] at running
    exact (unstuck.awake running).run running ran
  · intro stopped
    rw [same] at stopped
    rcases ready_of_run ran with ⟨thread, present, ready⟩
    rcases finishes_of_stopping stopped present ready with ⟨led, finishes⟩
    rw [finishes] at ran
    rcases Option.ite_none_right_eq_some.mp ran with ⟨_, finished⟩
    rcases Option.some.inj finished with rfl
    refine waiting_goTo ?_ present _ rfl
    exact unstuck.released stopped

theorem Unstuck.dealt (unstuck : pool.Unstuck) (returned : pool.dealt index = some next) :
    next.Unstuck := by
  have before := returned
  simp only [LFThreadPool.dealt] at returned
  split at returned
  · rename_i thread present
    split at returned
    · rcases Option.some.inj returned with rfl
      constructor
      · intro running
        exact (unstuck.awake running).dealt before
      · intro stopped
        exact waiting_goTo (unstuck.released stopped) present _ rfl
    · simp at returned
  · simp at returned

theorem Unstuck.step {event : PoolEvent Job} (unstuck : pool.Unstuck)
    (stepped : pool.step event = some next) : next.Unstuck := by
  cases event with
  | push job => exact unstuck.push stepped
  | notify choice => exact unstuck.notify stepped
  | run thread choice => exact unstuck.run stepped
  | dealt thread => exact unstuck.dealt stepped
  | spurious thread =>
      rcases Option.some.inj stepped with rfl
      constructor
      · intro running
        exact (unstuck.awake running).wake thread
      · intro stopped
        exact waiting_wake (unstuck.released stopped) thread
  | stop =>
      rcases Option.some.inj stepped with rfl
      exact ⟨fun running => by simp [stop] at running, fun _ => waiting_stop pool⟩

end Unstuck

theorem unstuck_of_run {threadCount : ℕ} {events : List (PoolEvent Job)}
    {pool : LFThreadPool Job} (reached : machine.run (start threadCount) events = some pool) :
    pool.Unstuck := by
  have initially : (start threadCount : LFThreadPool Job).Unstuck :=
    ⟨fun _ => awake_start threadCount, fun stopped => by simp [start] at stopped⟩
  exact machine.run_invariant_of_step Unstuck
    (fun unstuck stepped => Unstuck.step unstuck stepped) initially reached

/-! ## Who can move -/

/-- The thread does not wait, and its next turn takes the front task. -/
def TakesTask (pool : LFThreadPool Job) (index : ℕ) : Prop :=
  ∃ choice next task, pool.run index choice = some next ∧ Dequeues pool next index task

section Moves

variable {pool next : LFThreadPool Job} {index : ℕ} {thread : PoolThread Job}

theorem hands_of_ready (present : pool.threads[index]? = some thread)
    (ready : isReady thread.place = true) : pool.hands[index]? = some none := by
  simp only [hands, List.getElem?_map, present, Option.map_some]
  cases place : thread.place <;> simp_all [isReady, inHand]

/-- Whoever enters `leaderLoop` with a task in the queue takes it. -/
theorem exists_dequeues_of_leaderLoop (running : pool.stopping = false)
    (queued : pool.taskQueueData ≠ []) (empty : pool.hands[index]? = some none)
    (frames : List Frame) :
    ∃ choice next task,
      pool.leaderLoop index frames choice = some next ∧ Dequeues pool next index task := by
  cases queue : pool.taskQueueData with
  | nil => exact absurd queue queued
  | cons task rest =>
      have enters (choice : Option ℕ) : pool.leaderLoop index frames choice =
          { pool.goTo index frames (.dealing task) with
            taskQueueData := rest
            leaderExists := false
            dequeued := pool.dequeued ++ [task] }.notifyOne isFollowerWaiting choice := by
        rw [leaderLoop, if_neg (by simp [running])]
        simp only [queue]
      rcases exists_notifyOne { pool.goTo index frames (.dealing task) with
        taskQueueData := rest
        leaderExists := false
        dequeued := pool.dequeued ++ [task] } isFollowerWaiting with ⟨choice, next, notified⟩
      have looped := (enters choice).trans notified
      rcases leaderLoop_cases empty looped with same | ⟨first, dequeues⟩
      · have left : next.taskQueueData = rest := (sameTasks_notifyOne notified).queue
        rw [same.queue, queue] at left
        exact absurd left (List.cons_ne_self task rest)
      · exact ⟨choice, next, first, looped, dequeues⟩

/-- The same of a thread which has just found the leader's place empty. -/
theorem exists_dequeues_of_elected (running : pool.stopping = false)
    (queued : pool.taskQueueData ≠ []) (empty : pool.hands[index]? = some none)
    (frames : List Frame) :
    ∃ choice next task,
      { pool with leaderExists := true }.leaderLoop index frames choice = some next ∧
        Dequeues pool next index task := by
  have elected : ∃ choice next task,
      { pool with leaderExists := true }.leaderLoop index frames choice = some next ∧
        Dequeues { pool with leaderExists := true } next index task := by
    apply exists_dequeues_of_leaderLoop
    · exact running
    · exact queued
    · exact empty
  rcases elected with ⟨choice, next, task, looped, queue, submitted, dequeued, hands⟩
  exact ⟨choice, next, task, looped, queue, submitted, dequeued, hands⟩

theorem takesTask_of_leader (running : pool.stopping = false)
    (queued : pool.taskQueueData ≠ []) (present : pool.threads[index]? = some thread)
    (place : thread.place = .leaderWoken) : pool.TakesTask index := by
  have empty := hands_of_ready present (by rw [place]; rfl)
  rcases exists_dequeues_of_leaderLoop running queued empty thread.frames with
    ⟨choice, next, task, looped, dequeues⟩
  refine ⟨choice, next, task, ?_, dequeues⟩
  simp only [LFThreadPool.run, present, place]
  exact looped

/-- With no leader, any thread that gets the mutex becomes one. -/
theorem takesTask_of_ready (running : pool.stopping = false) (queued : pool.taskQueueData ≠ [])
    (noLeader : pool.leaderExists = false) (present : pool.threads[index]? = some thread)
    (ready : isReady thread.place = true) (follower : isLeader thread.place = false) :
    pool.TakesTask index := by
  have empty := hands_of_ready present ready
  have follows (frames : List Frame) (choice : Option ℕ) :
      pool.followerLoop index frames choice =
        { pool with leaderExists := true }.leaderLoop index (.leaderLoop :: frames) choice := by
    rw [LFThreadPool.followerLoop, if_neg (by simp [running]), if_neg (by simp [noLeader])]
  have elected := exists_dequeues_of_elected running queued empty
  cases place : thread.place with
  | starting =>
      rcases elected [.leaderLoop, .threadLoop] with ⟨choice, next, task, looped, dequeues⟩
      refine ⟨choice, next, task, ?_, dequeues⟩
      simp only [LFThreadPool.run, present, place]
      rw [if_neg (by simp [noLeader])]
      exact looped
  | followerWoken =>
      rcases elected (.leaderLoop :: thread.frames) with ⟨choice, next, task, looped, dequeues⟩
      refine ⟨choice, next, task, ?_, dequeues⟩
      simp only [LFThreadPool.run, present, place, follows]
      exact looped
  | returning =>
      rcases elected (.leaderLoop :: .followerLoop :: thread.frames) with
        ⟨choice, next, task, looped, dequeues⟩
      refine ⟨choice, next, task, ?_, dequeues⟩
      simp only [LFThreadPool.run, present, place, follows]
      exact looped
  | leaderWoken => simp [place, isLeader] at follower
  | leaderWaiting | followerWaiting | dealing | finished => simp [place, isReady] at ready

theorem exists_of_count {role : Place Job → Bool} (played : pool.count role ≠ 0) :
    ∃ (index : ℕ) (thread : PoolThread Job),
      pool.threads[index]? = some thread ∧ role thread.place = true := by
  rcases List.countP_pos_iff.mp (Nat.pos_of_ne_zero played) with ⟨thread, member, plays⟩
  rcases List.mem_iff_getElem?.mp member with ⟨index, present⟩
  exact ⟨index, thread, present, plays⟩

/-- The leader that a `submit` has yet to notify takes the task once it is notified. -/
theorem takesTask_of_notify {choice : Option ℕ} (running : pool.stopping = false)
    (queued : pool.taskQueueData ≠ []) (led : pool.leaderExists = true)
    (waits : pool.count isLeaderWaiting ≠ 0) (notified : pool.notify choice = some next) :
    ∃ index, next.TakesTask index := by
  rcases Option.ite_none_left_eq_some.mp notified with ⟨_, chosen⟩
  rw [if_pos led] at chosen
  rcases notifyOne_cases chosen with ⟨_, nobody⟩ | ⟨index, thread, present, waiting, rfl⟩
  · exact absurd nobody waits
  · have place : thread.place = .leaderWaiting := by
      cases shape : thread.place <;> simp_all [isLeaderWaiting]
    rcases List.getElem?_eq_some_iff.mp present with ⟨bound, _⟩
    refine ⟨index, takesTask_of_leader running queued (List.getElem?_set_self bound) ?_⟩
    rw [place]
    rfl

/-- Some thread takes the front task at its next turn, or it is the leader, and does so once
a `submit` on its way has notified it. -/
theorem Awake.progress (awake : pool.Awake) (running : pool.stopping = false)
    (queued : pool.taskQueueData ≠ [])
    (outside : ∃ thread ∈ pool.threads, isDealing thread.place = false) :
    (∃ index, pool.TakesTask index) ∨
      ((∃ choice next, pool.notify choice = some next) ∧
        ∀ choice next, pool.notify choice = some next → ∃ index, next.TakesTask index) := by
  cases led : pool.leaderExists with
  | true =>
      have leaders := awake.leaders
      rw [led, Bool.toNat_true] at leaders
      rcases exists_of_count (leaders.trans_ne Nat.one_ne_zero) with ⟨index, thread, present, leads⟩
      cases place : thread.place with
      | leaderWoken => exact Or.inl ⟨index, takesTask_of_leader running queued present place⟩
      | leaderWaiting =>
          have waits : pool.count isLeaderWaiting ≠ 0 := by
            apply Nat.ne_of_gt
            apply List.countP_pos_iff.mpr
            exact ⟨thread, List.mem_of_getElem? present, by rw [place]; rfl⟩
          refine Or.inr ⟨?_, ?_⟩
          · simp only [LFThreadPool.notify, if_neg (awake.promised waits queued)]
            apply exists_notifyOne
          · intro choice next notified
            exact takesTask_of_notify running queued led waits notified
      | starting | dealing | returning | followerWaiting | followerWoken | finished =>
          simp [place, isLeader] at leads
  | false =>
      have ready : pool.count isReady ≠ 0 := by
        rcases outside with ⟨thread, member, outside⟩
        have plays (role : Place Job → Bool) (holds : role thread.place = true) :
            pool.count role ≠ 0 :=
          Nat.ne_of_gt (List.countP_pos_iff.mpr ⟨thread, member, holds⟩)
        cases place : thread.place with
        | starting | leaderWoken | followerWoken | returning =>
            exact plays isReady (by rw [place]; rfl)
        | followerWaiting => exact awake.followed led (plays _ (by rw [place]; rfl))
        | leaderWaiting =>
            exact absurd (awake.leaders.trans (by rw [led]; rfl))
              (plays isLeader (by rw [place]; rfl))
        | finished => exact absurd awake.unfinished (plays _ (by rw [place]; rfl))
        | dealing => simp [place, isDealing] at outside
      rcases exists_of_count ready with ⟨index, thread, present, ready⟩
      refine Or.inl ⟨index, takesTask_of_ready running queued led present ready ?_⟩
      have leaders := awake.leaders
      rw [led] at leaders
      exact Bool.eq_false_iff.mpr
        (List.countP_eq_zero.mp leaders thread (List.mem_of_getElem? present))

/-- In a pool that stops, a thread has returned, is inside `dealData`, or returns at its next
turn. -/
theorem Unstuck.leaves (unstuck : pool.Unstuck) (stopped : pool.stopping = true)
    (present : pool.threads[index]? = some thread) :
    thread.place = .finished ∨ (∃ job, thread.place = .dealing job) ∨
      (∃ next, pool.run index none = some next) ∧
        ∀ choice next, pool.run index choice = some next →
          next.threads[index]? = some ⟨[], .finished⟩ := by
  have still : isWaiting thread.place = false :=
    Bool.eq_false_iff.mpr (List.countP_eq_zero.mp (unstuck.released stopped) thread
      (List.mem_of_getElem? present))
  have returns (ready : isReady thread.place = true) :
      (∃ next, pool.run index none = some next) ∧
        ∀ choice next, pool.run index choice = some next →
          next.threads[index]? = some ⟨[], .finished⟩ := by
    rcases finishes_of_stopping stopped present ready with ⟨led, finishes⟩
    refine ⟨⟨_, (finishes none).trans (if_pos rfl)⟩, ?_⟩
    intro choice next ran
    rw [finishes] at ran
    rcases Option.ite_none_right_eq_some.mp ran with ⟨_, finished⟩
    rcases Option.some.inj finished with rfl
    exact List.getElem?_set_self (List.getElem?_eq_some_iff.mp present).1
  cases place : thread.place with
  | finished => exact Or.inl rfl
  | dealing job => exact Or.inr (Or.inl ⟨job, rfl⟩)
  | starting | leaderWoken | followerWoken | returning =>
      exact Or.inr (Or.inr (returns (by rw [place]; rfl)))
  | leaderWaiting | followerWaiting =>
      simp [place, isWaiting, isLeaderWaiting, isFollowerWaiting] at still

end Moves

/-- No run strands the queue while a thread is outside `dealData`, and none keeps a thread in
a wait once the pool stops. -/
theorem never_stuck {threadCount : ℕ} {events : List (PoolEvent Job)} {pool : LFThreadPool Job}
    (reached : machine.run (start threadCount) events = some pool) :
    (pool.stopping = false → pool.taskQueueData ≠ [] →
      (∃ thread ∈ pool.threads, isDealing thread.place = false) →
        (∃ index, pool.TakesTask index) ∨
          ((∃ choice next, pool.notify choice = some next) ∧
            ∀ choice next, pool.notify choice = some next → ∃ index, next.TakesTask index)) ∧
    (pool.stopping = true →
      (∀ thread ∈ pool.threads, isWaiting thread.place = false) ∧
        ∀ index thread, pool.threads[index]? = some thread →
          thread.place = .finished ∨ (∃ job, thread.place = .dealing job) ∨
            (∃ next, pool.run index none = some next) ∧
              ∀ choice next, pool.run index choice = some next →
                next.threads[index]? = some ⟨[], .finished⟩) := by
  have unstuck := unstuck_of_run reached
  constructor
  · intro running queued outside
    exact (unstuck.awake running).progress running queued outside
  · intro stopped
    refine ⟨?_, fun index thread present => unstuck.leaves stopped present⟩
    intro thread member
    exact Bool.eq_false_iff.mpr
      (List.countP_eq_zero.mp (unstuck.released stopped) thread member)

/-- Both threads wait when the task is pushed, and when the pool stops. -/
theorem never_stuck_both_waiting :
    (∃ pool : LFThreadPool ℕ,
      machine.run (start 2) [.run 0 none, .run 1 none, .push 7] = some pool ∧
        ((∃ index, pool.TakesTask index) ∨
          ((∃ choice next, pool.notify choice = some next) ∧
            ∀ choice next, pool.notify choice = some next → ∃ index, next.TakesTask index))) ∧
    (∃ pool : LFThreadPool ℕ,
      machine.run (start 2) [.run 0 none, .run 1 none, .stop] = some pool ∧
        (∀ thread ∈ pool.threads, isWaiting thread.place = false)) := by
  constructor
  · have reached : ∃ pool : LFThreadPool ℕ,
        machine.run (start 2) [.run 0 none, .run 1 none, .push 7] = some pool ∧
          pool.stopping = false ∧ pool.taskQueueData ≠ [] ∧
            ∃ thread ∈ pool.threads, isDealing thread.place = false :=
      ⟨_, rfl, rfl, List.cons_ne_nil _ _, _, List.mem_cons_self, rfl⟩
    rcases reached with ⟨pool, reached, running, queued, outside⟩
    exact ⟨pool, reached, (never_stuck reached).1 running queued outside⟩
  · have reached : ∃ pool : LFThreadPool ℕ,
        machine.run (start 2) [.run 0 none, .run 1 none, .stop] = some pool ∧
          pool.stopping = true := ⟨_, rfl, rfl⟩
    rcases reached with ⟨pool, reached, stopped⟩
    exact ⟨pool, reached, ((never_stuck reached).2 stopped).1⟩

end LFThreadPool

end InstanceMessage
