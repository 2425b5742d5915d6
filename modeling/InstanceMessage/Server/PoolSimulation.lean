import InstanceMessage.Server.PoolRefinement

/-!
# The statements refine the pool

The pool takes its step when the thread gives the mutex away or wakes another
thread; until then it stands where it was when the thread got the mutex, and
what is left of the step from the shared state that the statements have made is
what the whole step would do from the pool's own (`Mirrors.inner`). What other
threads do meanwhile without the mutex changes neither.
-/

namespace InstanceMessage

open Library

namespace PoolThreads

variable {Job : Type}

/-! ## The relation -/

/-- The destructor has set `stopping`, and has not yet woken everybody. -/
def stops : PoolPoint Job → Bool
  | .destructor .notifyTask | .destructor .notifyFollower => true
  | _ => false

/-- The shared variables of the pool, but for `stopping`. -/
structure SameShared (pool : LFThreadPool Job) (shared : PoolShared Job) : Prop where
  queue : pool.taskQueueData = shared.taskQueueData
  leaderExists : pool.leaderExists = shared.leaderExists
  submitted : pool.submitted = shared.pushed.map Prod.snd
  dequeued : pool.dequeued = shared.dequeued.map Prod.snd

def Quiet (state : PoolState Job) : Prop :=
  ∀ index, uncommitted (state.point (.thread index)) = false

/-- The threads outside a step stand in the pool where their points say. -/
structure Stands (threadCount : ℕ) (state : PoolState Job) (threads : List (PoolThread Job)) :
    Prop where
  size : threads.length = threadCount
  outer : ∀ index < threadCount, uncommitted (state.point (.thread index)) = false →
    threads[index]? =
      some (standing (state.point (.thread index)) (state.isBlocked (.thread index)))

structure Mirrors (threadCount : ℕ) (state : PoolState Job) (pool : LFThreadPool Job) : Prop where
  stands : Stands threadCount state pool.threads
  inner : ∀ index, uncommitted (state.point (.thread index)) = true →
    ∀ threads, threads[index]? = pool.threads[index]? → ∀ choice,
      ({ pool with threads := threads } : LFThreadPool Job).run index choice =
        resume index (poolOf threads state.shared pool.unnotified) choice
          (state.point (.thread index))
  settled : Quiet state → SameShared pool state.shared ∧
    (stops (state.point .destructor) = false → pool.stopping = state.shared.stopping)
  unnotified : pool.unnotified = unnotified state

theorem SameShared.poolOf (threads : List (PoolThread Job)) (shared : PoolShared Job)
    (unnotified : ℕ) : SameShared (poolOf threads shared unnotified) shared :=
  ⟨rfl, rfl, rfl, rfl⟩

theorem SameShared.eq_poolOf {pool : LFThreadPool Job} {shared : PoolShared Job}
    (same : SameShared pool shared) (stopping : pool.stopping = shared.stopping)
    (threads : List (PoolThread Job)) :
    { pool with threads := threads } = PoolThreads.poolOf threads shared pool.unnotified := by
  rcases same with ⟨queue, leaderExists, submitted, dequeued⟩
  simp only [PoolThreads.poolOf, queue, leaderExists, stopping, submitted, dequeued]

section Steps

variable {threadCount : ℕ} {tasks : ℕ → Job} {state next : PoolState Job} {pool : LFThreadPool Job}
  {index : ℕ}

/-- The party inside the mutex is the only one. -/
theorem Orderly.quiet_of_inside (orderly : Orderly threadCount state) {party : PoolParty}
    (within : inside (state.point party) = true)
    (outer : uncommitted (state.point party) = false) : Quiet state := by
  intro index
  by_contra inner
  rw [Bool.not_eq_false] at inner
  have same := orderly.guarded.exclusive.eq_of_inside within (inside_of_uncommitted inner)
  rw [same] at outer
  rw [outer] at inner
  exact Bool.noConfusion inner

theorem Orderly.quiet_of_free (orderly : Orderly threadCount state) (free : state.owner = none) :
    Quiet state := by
  intro index
  by_contra inner
  rw [Bool.not_eq_false] at inner
  have owns := (orderly.guarded.exclusive (.thread index)).mpr (inside_of_uncommitted inner)
  simp [free] at owns

theorem Orderly.only (orderly : Orderly threadCount state)
    (inner : uncommitted (state.point (.thread index)) = true) {party : PoolParty}
    (other : party ≠ .thread index) : inside (state.point party) = false := by
  by_contra within
  rw [Bool.not_eq_false] at within
  exact other (orderly.guarded.exclusive.eq_of_inside within (inside_of_uncommitted inner))

theorem stops_of_outside {point : PoolPoint Job} (outside : inside point = false) :
    stops point = false := by
  cases point with
  | destructor at_ => cases at_ <;> simp_all [inside, stops]
  | _ => rfl

theorem Mirrors.eq_poolOf (mirrors : Mirrors threadCount state pool) (quiet : Quiet state)
    (going : stops (state.point .destructor) = false) (threads : List (PoolThread Job)) :
    { pool with threads := threads } = poolOf threads state.shared pool.unnotified :=
  (mirrors.settled quiet).1.eq_poolOf ((mirrors.settled quiet).2 going) threads

/-- The points of the threads and what the pool has of the shared state are as before. -/
theorem Mirrors.congr (mirrors : Mirrors threadCount state pool)
    (points : ∀ index, next.point (.thread index) = state.point (.thread index))
    (blocked : ∀ index, next.isBlocked (.thread index) = state.isBlocked (.thread index))
    (shared : next.shared = state.shared)
    (stopping : stops (next.point .destructor) = false → stops (state.point .destructor) = false)
    (awaiting : PoolThreads.unnotified next = PoolThreads.unnotified state) :
    Mirrors threadCount next pool where
  stands := by
    refine ⟨mirrors.stands.size, fun index bound outer => ?_⟩
    rw [points] at outer
    rw [points, blocked]
    exact mirrors.stands.outer index bound outer
  inner index inner threads same choice := by
    rw [points] at inner
    rw [points, shared]
    exact mirrors.inner index inner threads same choice
  settled quiet := by
    have before := mirrors.settled fun index => points index ▸ quiet index
    rw [shared]
    exact ⟨before.1, fun going => before.2 (stopping going)⟩
  unnotified := mirrors.unnotified.trans awaiting.symm

/-- The statement leaves nobody in a step. -/
theorem mirrors_of_quiet (quiet : Quiet next) (stands : Stands threadCount next pool.threads)
    (same : SameShared pool next.shared)
    (stopping : stops (next.point .destructor) = false → pool.stopping = next.shared.stopping)
    (awaiting : pool.unnotified = PoolThreads.unnotified next) : Mirrors threadCount next pool where
  stands := stands
  inner index inner := by
    rw [quiet index] at inner
    exact Bool.noConfusion inner
  settled _ := ⟨same, stopping⟩
  unnotified := awaiting

/-! ## Statements of threads -/

/-- A thread has gone on to another point. -/
structure ThreadMoves (state next : PoolState Job) (index : ℕ) (target : PoolPoint Job) : Prop where
  point : next.point = Function.update state.point (.thread index) target
  pushed : next.shared.pushed = state.shared.pushed

section ThreadMoves

variable {target : PoolPoint Job}

theorem ThreadMoves.self (moves : ThreadMoves state next index target) :
    next.point (.thread index) = target := by
  rw [moves.point, Function.update_self]

theorem ThreadMoves.other (moves : ThreadMoves state next index target) {party : PoolParty}
    (other : party ≠ .thread index) : next.point party = state.point party := by
  rw [moves.point, Function.update_of_ne other]

theorem ThreadMoves.unnotified (moves : ThreadMoves state next index target) :
    PoolThreads.unnotified next = PoolThreads.unnotified state := by
  have same (call : ℕ) : next.point (.submit call) = state.point (.submit call) :=
    moves.other (by simp)
  simp only [PoolThreads.unnotified, moves.pushed, same]

theorem ThreadMoves.quiet (moves : ThreadMoves state next index target)
    (orderly : Orderly threadCount state) (inner : uncommitted (state.point (.thread index)) = true)
    (outer : uncommitted target = false) : Quiet next := by
  intro other
  by_cases same : other = index
  · rw [same, moves.self, outer]
  · have different : PoolParty.thread other ≠ .thread index := by simpa using same
    rw [moves.other different]
    by_contra within
    rw [Bool.not_eq_false] at within
    have outside := orderly.only inner different
    rw [inside_of_uncommitted within] at outside
    exact Bool.noConfusion outside

end ThreadMoves

/-- The thread is in a step, and the pool has it where the step began. -/
theorem Mirrors.goesInside (mirrors : Mirrors threadCount state pool) {target : PoolPoint Job}
    (moves : ThreadMoves state next index target)
    (blocked : ∀ other, other ≠ index →
      next.isBlocked (.thread other) = state.isBlocked (.thread other))
    (others : ∀ other, other ≠ index → uncommitted (state.point (.thread other)) = false)
    (inner : uncommitted target = true)
    (rest : ∀ threads, threads[index]? = pool.threads[index]? → ∀ choice,
      ({ pool with threads := threads } : LFThreadPool Job).run index choice =
        resume index (poolOf threads next.shared pool.unnotified) choice target) :
    Mirrors threadCount next pool where
  stands := by
    refine ⟨mirrors.stands.size, fun other bound outer => ?_⟩
    by_cases same : other = index
    · rw [same, moves.self, inner] at outer
      exact Bool.noConfusion outer
    · have different : PoolParty.thread other ≠ .thread index := by simpa using same
      rw [moves.other different] at outer
      rw [moves.other different, blocked other same]
      exact mirrors.stands.outer other bound outer
  inner other within := by
    by_cases same : other = index
    · subst same
      rw [moves.self]
      exact rest
    · have different : PoolParty.thread other ≠ .thread index := by simpa using same
      rw [moves.other different, others other same] at within
      exact Bool.noConfusion within
  settled quiet := by
    have outer := quiet index
    rw [moves.self, inner] at outer
    exact Bool.noConfusion outer
  unnotified := mirrors.unnotified.trans moves.unnotified.symm

/-- The thread stands in the pool at its new point. -/
theorem Stands.set {threads : List (PoolThread Job)} (stands : Stands threadCount state threads)
    {target : PoolPoint Job} (moves : ThreadMoves state next index target)
    (blocked : ∀ other, other ≠ index →
      next.isBlocked (.thread other) = state.isBlocked (.thread other)) :
    Stands threadCount next
      (threads.set index (standing target (next.isBlocked (.thread index)))) := by
  refine ⟨by rw [List.length_set, stands.size], fun other bound outer => ?_⟩
  by_cases same : other = index
  · subst same
    rw [List.getElem?_set_self (stands.size ▸ bound), moves.self]
  · have different : PoolParty.thread other ≠ .thread index := by simpa using same
    rw [moves.other different] at outer
    rw [List.getElem?_set_ne (Ne.symm same), moves.other different, blocked other same]
    exact stands.outer other bound outer

/-- The thread moves between points outside a step, possibly while another one is in a step. -/
theorem Mirrors.passes (mirrors : Mirrors threadCount state pool) {target : PoolPoint Job}
    (moves : ThreadMoves state next index target)
    (waiting : next.waiting = state.waiting)
    (awake : state.isBlocked (.thread index) = false)
    (outer : uncommitted (state.point (.thread index)) = false)
    (outerNext : uncommitted target = false)
    (same : ∀ threads unnotified,
      poolOf threads next.shared unnotified = poolOf threads state.shared unnotified) :
    Mirrors threadCount next { pool with
      threads := pool.threads.set index (standing target false) } where
  stands := by
    have blocked (party : PoolParty) : next.isBlocked party = state.isBlocked party := by
      rw [Monitor.State.isBlocked, waiting]
      rfl
    have stands := mirrors.stands.set moves fun other _ => blocked (.thread other)
    rwa [blocked, awake] at stands
  inner other within threads sameThread choice := by
    have different : other ≠ index := by
      rintro rfl
      rw [moves.self, outerNext] at within
      exact Bool.noConfusion within
    have differentParty : PoolParty.thread other ≠ .thread index := by simpa using different
    rw [moves.other differentParty] at within
    rw [moves.other differentParty, same]
    rw [List.getElem?_set_ne (Ne.symm different)] at sameThread
    exact mirrors.inner other within threads sameThread choice
  settled quiet := by
    have before : Quiet state := by
      intro other
      by_cases sameIndex : other = index
      · rw [sameIndex, outer]
      · have different : PoolParty.thread other ≠ .thread index := by simpa using sameIndex
        rw [← moves.other different]
        exact quiet other
    have destructor : next.point .destructor = state.point .destructor := moves.other (by simp)
    have shared := same [] 0
    simp only [poolOf, LFThreadPool.mk.injEq] at shared
    rcases mirrors.settled before with ⟨⟨queue, leaderExists, submitted, dequeued⟩, stopping⟩
    rcases shared with ⟨_, sameQueue, sameLeader, sameStopping, _, sameSubmitted, sameDequeued⟩
    refine ⟨⟨queue.trans sameQueue.symm, leaderExists.trans sameLeader.symm,
      submitted.trans sameSubmitted.symm, dequeued.trans sameDequeued.symm⟩, fun going => ?_⟩
    rw [sameStopping]
    exact stopping (destructor ▸ going)
  unnotified := mirrors.unnotified.trans moves.unnotified.symm

/-- The pool takes the step that the thread has come to the end of. -/
theorem Mirrors.commits (mirrors : Mirrors threadCount state pool)
    (orderly : Orderly threadCount state) {target : PoolPoint Job}
    (moves : ThreadMoves state next index target)
    (shared : next.shared = state.shared)
    (inner : uncommitted (state.point (.thread index)) = true)
    (outer : uncommitted target = false) {choice : Option ℕ} {threads : List (PoolThread Job)}
    (rest : resume index (poolOf pool.threads state.shared pool.unnotified) choice
      (state.point (.thread index)) = some (poolOf threads state.shared pool.unnotified))
    (stands : Stands threadCount next threads) :
    ∃ after, LFThreadPool.machine.Reaches pool after ∧ Mirrors threadCount next after := by
  have ran : pool.run index choice = some (poolOf threads state.shared pool.unnotified) :=
    (mirrors.inner index inner pool.threads rfl choice).trans rest
  have stepped : LFThreadPool.machine.step pool (.run index choice) =
      some (poolOf threads state.shared pool.unnotified) := ran
  refine ⟨_, Machine.reaches_of_step stepped,
    mirrors_of_quiet (moves.quiet orderly inner outer) stands ?_ ?_ ?_⟩
  · rw [shared]
    exact .poolOf threads state.shared pool.unnotified
  · rw [shared]
    exact fun _ => rfl
  · exact mirrors.unnotified.trans moves.unnotified.symm

/-! ## Threads are woken -/

def wakeThread (thread : PoolThread Job) : PoolThread Job :=
  { thread with place := LFThreadPool.woken thread.place }

/-- The pool's test for a thread that waits on the condition variable. -/
def waitsOn : PoolCv → Place Job → Bool
  | .taskCv => LFThreadPool.isLeaderWaiting
  | .followerCv => LFThreadPool.isFollowerWaiting

theorem wakeThread_standing {cv : PoolCv} {point : PoolPoint Job} (blocked : blockedOn cv point) :
    wakeThread (standing point true) = standing point false := by
  cases cv <;> rcases blocked with ⟨callers, rfl⟩ <;> rfl

theorem wakeThread_standing_awake (point : PoolPoint Job) :
    wakeThread (standing point false) = standing point false := by
  cases point with
  | followerLoop at_ callers => cases at_ <;> rfl
  | leaderLoop at_ callers => cases at_ <;> rfl
  | _ => rfl

theorem waitsOn_standing {cv : PoolCv} {point : PoolPoint Job} (blocked : blockedOn cv point) :
    waitsOn cv (standing point true).place = true := by
  cases cv <;> rcases blocked with ⟨callers, rfl⟩ <;> rfl

theorem blockedOn_of_waitsOn {cv : PoolCv} {point : PoolPoint Job} {blocked : Bool}
    (waits : waitsOn cv (standing point blocked).place = true) :
    blocked = true ∧ blockedOn cv point := by
  cases point with
  | followerLoop at_ callers =>
      cases at_ <;> cases cv <;> cases blocked <;>
        simp_all [standing, waitsOn, LFThreadPool.isLeaderWaiting, LFThreadPool.isFollowerWaiting,
          blockedOn]
  | leaderLoop at_ callers =>
      cases at_ <;> cases cv <;> cases blocked <;>
        simp_all [standing, waitsOn, LFThreadPool.isLeaderWaiting, LFThreadPool.isFollowerWaiting,
          blockedOn]
  | threadLoop | finished | submit | destructor =>
      cases cv <;> simp [standing, waitsOn, LFThreadPool.isLeaderWaiting,
        LFThreadPool.isFollowerWaiting] at waits

theorem blockedOn_unique {cv other : PoolCv} {point : PoolPoint Job} (blocked : blockedOn cv point)
    (also : blockedOn other point) : cv = other := by
  cases cv <;> cases other <;> rcases blocked with ⟨callers, rfl⟩ <;> first
    | rfl
    | (rcases also with ⟨others, same⟩; simp at same)

theorem uncommitted_of_blockedOn {cv : PoolCv} {point : PoolPoint Job}
    (blocked : blockedOn cv point) : uncommitted point = false := by
  cases cv <;> rcases blocked with ⟨callers, rfl⟩ <;> rfl

/-- What waits, in a state of the statements. -/
structure Waiters (threadCount : ℕ) (state : PoolState Job) : Prop where
  blocked : ∀ party cv, (party, cv) ∈ state.waiting →
    ∃ index < threadCount, party = .thread index ∧ blockedOn cv (state.point (.thread index))
  once : Monitor.WaitsOnce state

theorem Orderly.waiters (orderly : Orderly threadCount state) : Waiters threadCount state :=
  ⟨fun _ _ waiting => orderly.waits waiting, orderly.once⟩

theorem Waiters.blockedOn (waiters : Waiters threadCount state)
    (blocked : state.isBlocked (.thread index) = true) :
    ∃ cv, (.thread index, cv) ∈ state.waiting ∧ blockedOn cv (state.point (.thread index)) := by
  rcases isBlocked_iff.mp blocked with ⟨cv, waiting⟩
  rcases waiters.blocked _ cv waiting with ⟨other, _, same, blocked⟩
  rcases PoolParty.thread.inj same with rfl
  exact ⟨cv, waiting, blocked⟩

/-- Some of the threads that wait do so no longer. -/
theorem Stands.wake {threads woken : List (PoolThread Job)}
    (stands : Stands threadCount state threads) (waiters : Waiters threadCount state)
    (points : ∀ index, next.point (.thread index) = state.point (.thread index))
    (size : woken.length = threads.length)
    (change : ∀ index < threadCount,
      (next.isBlocked (.thread index) = state.isBlocked (.thread index) ∧
        woken[index]? = threads[index]?) ∨
      (state.isBlocked (.thread index) = true ∧ next.isBlocked (.thread index) = false ∧
        woken[index]? = threads[index]?.map wakeThread)) :
    Stands threadCount next woken := by
  refine ⟨size.trans stands.size, fun index bound outer => ?_⟩
  rw [points] at outer
  have stood := stands.outer index bound outer
  rw [points]
  rcases change index bound with ⟨blocked, same⟩ | ⟨blocked, awake, same⟩
  · rw [same, blocked, stood]
  · rcases waiters.blockedOn blocked with ⟨cv, _, blockedPoint⟩
    rw [same, stood, blocked, awake, Option.map_some, wakeThread_standing blockedPoint]

theorem isBlocked_erase (once : Monitor.WaitsOnce state) {party other : PoolParty} {cv : PoolCv}
    (waiting : (other, cv) ∈ state.waiting)
    (erased : next.waiting = state.waiting.erase (other, cv)) :
    next.isBlocked party = if party = other then false else state.isBlocked party := by
  have unique : state.waiting.Nodup := once.of_map
  rw [Bool.eq_iff_iff, isBlocked_iff, erased]
  split
  · rename_i same
    subst same
    simp only [unique.mem_erase_iff, Bool.false_eq_true, iff_false, not_exists, not_and]
    intro another different also
    exact different (List.inj_on_of_nodup_map once also waiting rfl)
  · rename_i different
    rw [isBlocked_iff]
    constructor
    · rintro ⟨another, member⟩
      exact ⟨another, List.mem_of_mem_erase member⟩
    · rintro ⟨another, member⟩
      refine ⟨another, (unique.mem_erase_iff).mpr ⟨?_, member⟩⟩
      exact fun same => different (Prod.mk.inj same).1

/-- A notification of the statements is one of the pool. -/
theorem Stands.notifyOne {mirror : LFThreadPool Job}
    (stands : Stands threadCount state mirror.threads) (quiet : Quiet state)
    (waiters : Waiters threadCount state) {cv : PoolCv} {waiting : List (PoolParty × PoolCv)}
    (notified : (∃ other, (other, cv) ∈ state.waiting ∧
        waiting = state.waiting.erase (other, cv)) ∨
      ((state.waiting.any fun waits => waits.2 = cv) = false ∧ waiting = state.waiting)) :
    ∃ choice threads, mirror.notifyOne (waitsOn cv) choice = some { mirror with
        threads := threads } ∧
      Stands threadCount { state with waiting := waiting } threads := by
  rcases notified with ⟨other, isWaiting, rfl⟩ | ⟨nobody, rfl⟩
  · rcases waiters.blocked other cv isWaiting with ⟨index, bound, rfl, blocked⟩
    have isBlocked := isBlocked_iff.mpr ⟨cv, isWaiting⟩
    have stood := stands.outer index bound (quiet index)
    rw [isBlocked] at stood
    refine ⟨some index, mirror.threads.modify index wakeThread, ?_, ?_⟩
    · simp only [LFThreadPool.notifyOne, stood, waitsOn_standing blocked, if_true]
      rfl
    · refine stands.wake waiters (fun _ => rfl) (by simp) fun thread _ => ?_
      have erased : Monitor.State.isBlocked { state with
          waiting := state.waiting.erase (.thread index, cv) } (.thread thread) =
          if PoolParty.thread thread = .thread index then false
          else state.isBlocked (.thread thread) :=
        isBlocked_erase waiters.once isWaiting rfl
      by_cases same : thread = index
      · subst same
        exact Or.inr ⟨isBlocked, by simpa using erased, by simp⟩
      · exact Or.inl ⟨by simpa [same] using erased, by simp [Ne.symm same]⟩
  · refine ⟨none, mirror.threads, ?_, stands⟩
    have unheard : (mirror.threads.any fun thread => waitsOn cv thread.place) = false := by
      rw [List.any_eq_false]
      intro thread member waits
      rcases List.getElem_of_mem member with ⟨index, bound, found⟩
      have present := (List.getElem?_eq_getElem bound).trans (congrArg some found)
      rw [stands.outer index (stands.size ▸ bound) (quiet index), Option.some.injEq] at present
      rw [← present] at waits
      rcases blockedOn_of_waitsOn waits with ⟨isBlocked, blocked⟩
      rcases waiters.blockedOn isBlocked with ⟨another, isWaiting, also⟩
      rcases blockedOn_unique blocked also with rfl
      have absent := List.any_eq_false.mp nobody _ isWaiting
      simp at absent
    simp [LFThreadPool.notifyOne, unheard]

/-! ## Steps -/

/-- What a `notifyOne` does to those that wait. -/
theorem notified_of_perform {party : PoolParty} {woken : Option PoolParty} {cv : PoolCv}
    {target : PoolPoint Job}
    (performed : state.perform (code threadCount) party woken (.notifyOne cv target) = some next) :
    ∃ waiting, next = { state.goTo party target with waiting := waiting } ∧
      ((∃ other, (other, cv) ∈ state.waiting ∧ waiting = state.waiting.erase (other, cv)) ∨
        ((state.waiting.any fun waits => waits.2 = cv) = false ∧ waiting = state.waiting)) := by
  cases woken with
  | some other =>
      rcases Option.ite_none_right_eq_some.mp performed with ⟨waiting, same⟩
      exact ⟨_, (Option.some.inj same).symm, Or.inl ⟨other, waiting, rfl⟩⟩
  | none =>
      rcases Option.ite_none_left_eq_some.mp performed with ⟨nobody, same⟩
      exact ⟨_, (Option.some.inj same).symm, Or.inr ⟨Bool.eq_false_iff.mpr nobody, rfl⟩⟩

/-- A party that moves does not wait. -/
theorem Waiters.goTo (waiters : Waiters threadCount state) {party : PoolParty}
    (awake : state.isBlocked party = false) (target : PoolPoint Job) :
    Waiters threadCount (state.goTo party target) := by
  refine ⟨fun other cv waiting => ?_, waiters.once⟩
  rcases waiters.blocked other cv waiting with ⟨index, bound, rfl, blocked⟩
  have different : PoolParty.thread index ≠ party := by
    rintro rfl
    have isBlocked : state.isBlocked (.thread index) = true := isBlocked_iff.mpr ⟨cv, waiting⟩
    rw [isBlocked] at awake
    exact Bool.noConfusion awake
  refine ⟨index, bound, rfl, ?_⟩
  simpa only [Monitor.State.goTo, Function.update_of_ne different] using blocked

theorem Mirrors.thread_step (mirrors : Mirrors threadCount state pool)
    (orderly : Orderly threadCount state) (awake : state.isBlocked (.thread index) = false)
    (bound : index < threadCount) {point : PoolPoint Job} {stmt : PoolStmt Job}
    (at_ : state.point (.thread index) = point) (acts : Acts index state.shared point stmt)
    {woken : Option PoolParty}
    (performed : state.perform (code threadCount) (.thread index) woken stmt = some next) :
    ∃ after, LFThreadPool.machine.Reaches pool after ∧ Mirrors threadCount next after := by
  have others (inner : uncommitted point = true) (other : ℕ) (different : other ≠ index) :
      uncommitted (state.point (.thread other)) = false := by
    by_contra within
    rw [Bool.not_eq_false] at within
    have differentParty : PoolParty.thread other ≠ .thread index := by simpa using different
    have outside := orderly.only (at_ ▸ inner) differentParty
    rw [inside_of_uncommitted within] at outside
    exact Bool.noConfusion outside
  have stood (outer : uncommitted point = false) :
      pool.threads[index]? = some (standing point false) := by
    have stands := mirrors.stands.outer index bound (at_ ▸ outer)
    rwa [at_, awake] at stands
  have unmoved (target : PoolPoint Job) (outer : uncommitted point = false)
      (same : standing target false = standing point false) :
      pool = { pool with threads := pool.threads.set index (standing target false) } := by
    rcases List.getElem?_eq_some_iff.mp (stood outer) with ⟨inBounds, found⟩
    rw [same, ← found, List.set_getElem_self]
  cases acts with
  | @begins _ target outer inner whole =>
      rcases Option.ite_none_right_eq_some.mp performed with ⟨free, same⟩
      rcases Option.some.inj same with rfl
      have quiet := orderly.quiet_of_free free
      have going : stops (state.point .destructor) = false := by
        apply stops_of_outside
        by_contra within
        rw [Bool.not_eq_false] at within
        have owns := (orderly.guarded.exclusive .destructor).mpr within
        simp [free] at owns
      refine ⟨pool, ⟨[], rfl⟩, mirrors.goesInside ⟨rfl, rfl⟩ (fun _ _ => rfl)
        (fun other _ => quiet other) inner fun threads sameThread choice => ?_⟩
      rw [whole { pool with threads := threads } (sameThread.trans (stood outer)) choice,
        mirrors.eq_poolOf quiet going threads]
      rfl
  | @goesOn _ target after inner innerNext pushed rest =>
      rcases Option.some.inj performed with rfl
      refine ⟨pool, ⟨[], rfl⟩, mirrors.goesInside ⟨rfl, pushed⟩ (fun _ _ => rfl) (others inner)
        innerNext fun threads sameThread choice => ?_⟩
      rw [mirrors.inner index (at_ ▸ inner) threads sameThread choice, at_]
      exact rest threads pool.unnotified choice
  | @waits _ target cv inner outer rest =>
      have same := (Option.some.inj performed).symm
      have moves : ThreadMoves state next index target := same ▸ ⟨rfl, rfl⟩
      have blocked (other : ℕ) (different : other ≠ index) :
          next.isBlocked (.thread other) = state.isBlocked (.thread other) := by
        simp [same, Monitor.State.isBlocked, Ne.symm different]
      have waits : next.isBlocked (.thread index) = true := by
        simp [same, Monitor.State.isBlocked]
      have stands := mirrors.stands.set moves blocked
      rw [waits] at stands
      exact mirrors.commits orderly moves (same ▸ rfl) (at_ ▸ inner) outer (at_ ▸ rest _ _) stands
  | @wakes task callers =>
      rcases notified_of_perform performed with ⟨waiting, same, notified⟩
      have moved : ThreadMoves state (state.goTo (.thread index)
          (.leaderLoop (.unlock task) callers)) index (.leaderLoop (.unlock task) callers) :=
        ⟨rfl, rfl⟩
      have inner : uncommitted (state.point (.thread index)) = true := by rw [at_]; rfl
      have stands : Stands threadCount (state.goTo (.thread index)
          (.leaderLoop (.unlock task) callers)) (poolOf (pool.threads.set index
            (standing (.leaderLoop (.unlock task) callers) false)) state.shared
              pool.unnotified).threads :=
        mirrors.stands.set moved fun _ _ => rfl
      rcases stands.notifyOne (moved.quiet orderly inner rfl) (orderly.waiters.goTo awake _)
        notified with ⟨choice, threads, woke, standsNext⟩
      have rest : resume index (poolOf pool.threads state.shared pool.unnotified) choice
          (state.point (.thread index)) =
          some (poolOf threads state.shared pool.unnotified) := by
        rw [at_]
        exact woke
      subst same
      exact mirrors.commits orderly ⟨rfl, rfl⟩ rfl inner rfl rest standsNext
  | ends =>
      have same := (Option.some.inj performed).symm
      have moves : ThreadMoves state next index .finished := same ▸ ⟨rfl, rfl⟩
      have inner : uncommitted (state.point (.thread index)) = true := by rw [at_]; rfl
      have stands := mirrors.stands.set moves fun _ _ => same ▸ rfl
      have rest : resume index (poolOf pool.threads state.shared pool.unnotified) none
          (state.point (.thread index)) = some (poolOf (pool.threads.set index
            (standing .finished (next.isBlocked (.thread index)))) state.shared
            pool.unnotified) := by
        rw [at_]
        rfl
      exact mirrors.commits orderly moves (same ▸ rfl) inner rfl rest stands
  | @leaves task callers =>
      have same := (Option.some.inj performed).symm
      have moves : ThreadMoves state next index (.leaderLoop (.deal task) callers) :=
        same ▸ ⟨rfl, rfl⟩
      have passed := mirrors.passes moves (same ▸ rfl) awake (at_ ▸ rfl) rfl
        fun _ _ => same ▸ rfl
      rw [← unmoved (.leaderLoop (.deal task) callers) rfl rfl] at passed
      exact ⟨pool, ⟨[], rfl⟩, passed⟩
  | @deals task callers =>
      have same := (Option.some.inj performed).symm
      have moves : ThreadMoves state next index (.leaderLoop (.dealing task) callers) :=
        same ▸ ⟨rfl, rfl⟩
      have passed := mirrors.passes moves (same ▸ rfl) awake (at_ ▸ rfl) rfl
        fun _ _ => same ▸ rfl
      rw [← unmoved (.leaderLoop (.dealing task) callers) rfl rfl] at passed
      exact ⟨pool, ⟨[], rfl⟩, passed⟩
  | @returns task callers =>
      have same := (Option.some.inj performed).symm
      have moves : ThreadMoves state next index (.leaderLoop .lock callers) := same ▸ ⟨rfl, rfl⟩
      have passed := mirrors.passes moves (same ▸ rfl) awake (at_ ▸ rfl) rfl
        fun _ _ => same ▸ rfl
      have dealt : LFThreadPool.machine.step pool (.dealt index) = some { pool with
          threads := pool.threads.set index (standing (.leaderLoop .lock callers) false) } := by
        simp only [LFThreadPool.machine, LFThreadPool.step, LFThreadPool.dealt, stood rfl,
          standing]
        rfl
      exact ⟨_, Machine.reaches_of_step dealt, passed⟩
  | halts => simp [Monitor.State.perform] at performed

/-- A party that is not a thread has gone on to another point. -/
structure OtherMoves (state next : PoolState Job) (party : PoolParty) (target : PoolPoint Job) :
    Prop where
  point : next.point = Function.update state.point party target
  other : ∀ index, party ≠ .thread index

section OtherMoves

variable {party : PoolParty} {target : PoolPoint Job}

theorem OtherMoves.thread (moves : OtherMoves state next party target) (index : ℕ) :
    next.point (.thread index) = state.point (.thread index) := by
  rw [moves.point, Function.update_of_ne (Ne.symm (moves.other index))]

theorem OtherMoves.quiet (moves : OtherMoves state next party target) (quiet : Quiet state) :
    Quiet next := fun index => (congrArg uncommitted (moves.thread index)).trans (quiet index)

theorem OtherMoves.stands (moves : OtherMoves state next party target)
    (waiting : next.waiting = state.waiting) {threads : List (PoolThread Job)}
    (stands : Stands threadCount state threads) : Stands threadCount next threads := by
  refine ⟨stands.size, fun index bound outer => ?_⟩
  rw [moves.thread] at outer
  rw [moves.thread, Monitor.State.isBlocked, waiting]
  exact stands.outer index bound outer

theorem OtherMoves.unnotified (moves : OtherMoves state next party target)
    (pushed : next.shared.pushed = state.shared.pushed)
    (same : awaits target = awaits (state.point party)) :
    PoolThreads.unnotified next = PoolThreads.unnotified state := by
  simp only [PoolThreads.unnotified, pushed, moves.point, update_congr awaits same]

/-- Nothing happens that the pool would see. -/
theorem Mirrors.ignores (mirrors : Mirrors threadCount state pool)
    (moves : OtherMoves state next party target) (waiting : next.waiting = state.waiting)
    (shared : next.shared = state.shared)
    (awaiting : awaits target = awaits (state.point party))
    (stopping : stops (next.point .destructor) = false →
      stops (state.point .destructor) = false) :
    ∃ after, LFThreadPool.machine.Reaches pool after ∧ Mirrors threadCount next after :=
  ⟨pool, ⟨[], rfl⟩, mirrors.congr moves.thread
    (fun _ => by rw [Monitor.State.isBlocked, waiting]; rfl) shared stopping
    (moves.unnotified (by rw [shared]) awaiting)⟩

end OtherMoves

/-! ### `submit` -/

theorem unnotified_eq (state : PoolState Job) : unnotified state =
    (state.shared.pushed.map Prod.fst).countP fun call => awaits (state.point (.submit call)) := by
  rw [unnotified, List.countP_map]
  rfl

theorem countP_update {point : PoolParty → PoolPoint Job} {calls : List ℕ} {call : ℕ}
    (absent : call ∉ calls) (target : PoolPoint Job) :
    (calls.countP fun other =>
        awaits (Function.update point (.submit call) target (.submit other))) =
      calls.countP fun other => awaits (point (.submit other)) := by
  apply List.countP_congr
  intro other member
  have different : other ≠ call := fun same => absent (same ▸ member)
  rw [Function.update_of_ne (by simpa using different)]

theorem unnotified_pushes {call : ℕ} {task : Job} {target : PoolPoint Job}
    (absent : call ∉ state.shared.pushed.map Prod.fst)
    (point : next.point = Function.update state.point (.submit call) target)
    (pushed : next.shared.pushed = state.shared.pushed ++ [(call, task)])
    (awaiting : awaits target = true) : unnotified next = unnotified state + 1 := by
  rw [unnotified_eq, unnotified_eq, pushed, point, List.map_append, List.countP_append,
    countP_update absent]
  simp [awaiting]

theorem unnotified_notifies {call : ℕ} {target : PoolPoint Job}
    (once : (state.shared.pushed.map Prod.fst).Nodup)
    (present : call ∈ state.shared.pushed.map Prod.fst)
    (point : next.point = Function.update state.point (.submit call) target)
    (pushed : next.shared.pushed = state.shared.pushed)
    (awaited : awaits (state.point (.submit call)) = true) (notified : awaits target = false) :
    unnotified state = unnotified next + 1 := by
  rw [unnotified_eq, unnotified_eq, pushed, point]
  rcases List.append_of_mem present with ⟨before, behind, split⟩
  rw [split] at once ⊢
  have absent := List.nodup_middle.mp once
  rw [List.nodup_cons, List.mem_append, not_or] at absent
  simp only [List.countP_append, List.countP_cons, countP_update absent.1.1,
    countP_update absent.1.2, Function.update_self, awaited, notified]
  simp
  omega

/-- The flag chooses the condition variable on which `submit` notifies. -/
theorem Mirrors.submit_notifies (mirrors : Mirrors threadCount state pool)
    (orderly : Orderly threadCount state)
    (accounted : Accounted tasks state.point state.shared) {call : ℕ} {task : Job} {cv : PoolCv}
    (quiet : Quiet state) (going : stops (state.point .destructor) = false)
    (pushed : hasPushed (state.point (.submit call)) = true)
    (awaited : awaits (state.point (.submit call)) = true)
    (awake : state.isBlocked (.submit call) = false)
    (flag : (if state.shared.leaderExists then LFThreadPool.isLeaderWaiting
      else LFThreadPool.isFollowerWaiting) = (waitsOn cv : Place Job → Bool))
    {woken : Option PoolParty} (performed : state.perform (code threadCount) (.submit call) woken
      (.notifyOne cv (.submit task .finish)) = some next) :
    ∃ after, LFThreadPool.machine.Reaches pool after ∧ Mirrors threadCount next after := by
  rcases mirrors.settled quiet with ⟨same, stopping⟩
  rcases notified_of_perform performed with ⟨waiting, rfl, notified⟩
  have moves : OtherMoves state (state.goTo (.submit call) (.submit task .finish))
    (.submit call) (.submit task .finish) := ⟨rfl, fun _ => by simp⟩
  have counted : PoolThreads.unnotified state =
      PoolThreads.unnotified (state.goTo (.submit call) (.submit task .finish)) + 1 :=
    unnotified_notifies accounted.once ((accounted.pushed call).mpr pushed) rfl rfl awaited rfl
  have stands : Stands threadCount (state.goTo (.submit call) (.submit task .finish))
      { pool with unnotified := pool.unnotified - 1 }.threads :=
    moves.stands rfl mirrors.stands
  rcases stands.notifyOne (moves.quiet quiet) (orderly.waiters.goTo awake _) notified with
    ⟨choice, threads, woke, standsNext⟩
  have notifies : LFThreadPool.machine.step pool (.notify choice) = some { pool with
      unnotified := pool.unnotified - 1
      threads := threads } := by
    have some_ : pool.unnotified ≠ 0 := by
      rw [mirrors.unnotified, counted]
      exact Nat.succ_ne_zero _
    rw [← same.leaderExists] at flag
    simp only [LFThreadPool.machine, LFThreadPool.step, LFThreadPool.notify, some_, if_false, flag]
    exact woke
  refine ⟨_, Machine.reaches_of_step notifies, mirrors_of_quiet (moves.quiet quiet) standsNext
    ⟨same.queue, same.leaderExists, same.submitted, same.dequeued⟩ (fun _ => stopping going) ?_⟩
  rw [mirrors.unnotified, counted]
  rfl

theorem Mirrors.submit_step (mirrors : Mirrors threadCount state pool)
    (orderly : Orderly threadCount state)
    (accounted : Accounted tasks state.point state.shared) {call : ℕ} {task : Job}
    {at_ : SubmitPoint} (here : state.point (.submit call) = .submit task at_)
    (awake : state.isBlocked (.submit call) = false) {woken : Option PoolParty}
    (performed : state.perform (code threadCount) (.submit call) woken
      (submit call task state.shared at_) = some next) :
    ∃ after, LFThreadPool.machine.Reaches pool after ∧ Mirrors threadCount next after := by
  have own {target : PoolPoint Job} (goes : next.point =
      Function.update state.point (.submit call) target) :
      OtherMoves state next (.submit call) target := ⟨goes, fun _ => by simp⟩
  have ignored {target : PoolPoint Job} (goes : next.point =
      Function.update state.point (.submit call) target) (waiting : next.waiting = state.waiting)
      (shared : next.shared = state.shared)
      (awaiting : awaits target = awaits (.submit task at_ : PoolPoint Job)) :
      ∃ after, LFThreadPool.machine.Reaches pool after ∧ Mirrors threadCount next after :=
    mirrors.ignores (own goes) waiting shared (here ▸ awaiting) fun going => by
      rwa [goes, Function.update_of_ne (by simp)] at going
  -- The other statements are performed under the mutex.
  have under (within : inside (.submit task at_ : PoolPoint Job) = true) :
      Quiet state ∧ stops (state.point .destructor) = false := by
    rw [← here] at within
    refine ⟨orderly.quiet_of_inside within (here ▸ rfl), stops_of_outside ?_⟩
    by_contra destructing
    rw [Bool.not_eq_false] at destructing
    have same := orderly.guarded.exclusive.eq_of_inside within destructing
    simp at same
  have granted := orderly.granted (.submit call)
  rw [here] at granted
  cases at_ with
  | lock | relock =>
      rcases Option.ite_none_right_eq_some.mp performed with ⟨_, same⟩
      rcases Option.some.inj same with rfl
      exact ignored rfl rfl rfl rfl
  | test | branch =>
      simp only [submit] at performed
      split at performed <;> rcases Option.some.inj performed with rfl <;>
        exact ignored rfl rfl rfl rfl
  | throw | unlock | finish =>
      rcases Option.some.inj performed with rfl
      exact ignored rfl rfl rfl rfl
  | thrown | done => simp [submit, Monitor.State.perform] at performed
  | push =>
      rcases under rfl with ⟨quiet, going⟩
      rcases mirrors.settled quiet with ⟨⟨queue, leaderExists, submitted, dequeued⟩, stopping⟩
      have running : pool.stopping = false := (stopping going).trans granted
      have pushed : LFThreadPool.machine.step pool (.push task) = some { pool with
          taskQueueData := pool.taskQueueData ++ [task]
          unnotified := pool.unnotified + 1
          submitted := pool.submitted ++ [task] } := by
        simp [LFThreadPool.machine, LFThreadPool.step, LFThreadPool.push, running]
      have absent : call ∉ state.shared.pushed.map Prod.fst := by
        rw [accounted.pushed call, here]
        simp [hasPushed]
      rcases Option.some.inj performed with rfl
      have moves := own rfl
      refine ⟨_, Machine.reaches_of_step pushed, mirrors_of_quiet (moves.quiet quiet)
        (moves.stands rfl mirrors.stands) ⟨?_, leaderExists, ?_, dequeued⟩ ?_ ?_⟩
      · exact congrArg (· ++ [task]) queue
      · simp [submitted]
      · exact fun _ => stopping going
      · rw [unnotified_pushes absent rfl rfl rfl, ← mirrors.unnotified]
  | notifyTask =>
      rcases under rfl with ⟨quiet, going⟩
      have flagged : state.shared.leaderExists = true := granted
      refine mirrors.submit_notifies orderly accounted quiet going ?_ ?_ awake ?_ performed
      · rw [here]; rfl
      · rw [here]; rfl
      · rw [flagged, if_pos rfl]; rfl
  | notifyFollower =>
      rcases under rfl with ⟨quiet, going⟩
      have vacant : state.shared.leaderExists = false := granted
      refine mirrors.submit_notifies orderly accounted quiet going ?_ ?_ awake ?_ performed
      · rw [here]; rfl
      · rw [here]; rfl
      · rw [vacant]; rfl

/-! ### The destructor -/

theorem wakeThread_idem (thread : PoolThread Job) :
    wakeThread (wakeThread thread) = wakeThread thread := by
  rcases thread with ⟨frames, place⟩
  cases place <;> rfl

/-- Threads may wake spuriously one after the other. -/
theorem reaches_wakes (pool : LFThreadPool Job) (indices : List ℕ) :
    ∃ threads, LFThreadPool.machine.Reaches pool { pool with threads := threads } ∧
      threads.length = pool.threads.length ∧ ∀ index, threads[index]? =
        if index ∈ indices then pool.threads[index]?.map wakeThread else pool.threads[index]? := by
  induction indices generalizing pool with
  | nil => exact ⟨pool.threads, ⟨[], rfl⟩, rfl, fun _ => by simp⟩
  | cons first indices ih =>
      rcases ih (pool.wake first) with ⟨threads, reaches, size, woken⟩
      have stepped : LFThreadPool.machine.step pool (.spurious first) = some (pool.wake first) :=
        rfl
      refine ⟨threads, (Machine.reaches_of_step stepped).trans reaches, ?_, fun index => ?_⟩
      · simpa [LFThreadPool.wake] using size
      · have front : (pool.wake first).threads[index]? =
            if first = index then pool.threads[index]?.map wakeThread
            else pool.threads[index]? := by
          simp only [LFThreadPool.wake, List.getElem?_modify]
          split
          · rfl
          · simp
        rw [woken, front]
        by_cases same : first = index <;> by_cases behind : index ∈ indices <;>
          simp [same, behind, @eq_comm _ index, Function.comp_def, wakeThread_idem]

theorem Mirrors.destructor_step (mirrors : Mirrors threadCount state pool)
    (orderly : Orderly threadCount state) {at_ : DestructorPoint}
    (here : state.point .destructor = .destructor at_) {woken : Option PoolParty}
    (performed : state.perform (code threadCount) .destructor woken
      (destructor threadCount state.shared at_) = some next) :
    ∃ after, LFThreadPool.machine.Reaches pool after ∧ Mirrors threadCount next after := by
  have own {target : PoolPoint Job} (goes : next.point =
      Function.update state.point .destructor target) :
      OtherMoves state next .destructor target := ⟨goes, fun _ => by simp⟩
  have ignored {target : PoolPoint Job} (goes : next.point =
      Function.update state.point .destructor target) (waiting : next.waiting = state.waiting)
      (shared : next.shared = state.shared) (awaiting : awaits target = false)
      (going : stops (.destructor at_ : PoolPoint Job) = false) :
      ∃ after, LFThreadPool.machine.Reaches pool after ∧ Mirrors threadCount next after :=
    mirrors.ignores (own goes) waiting shared (by rw [here, awaiting]; rfl) fun _ =>
      here ▸ going
  have under (within : inside (.destructor at_ : PoolPoint Job) = true) : Quiet state := by
    rw [← here] at within
    exact orderly.quiet_of_inside within (here ▸ rfl)
  have unnotifies {target : PoolPoint Job} (moves : OtherMoves state next .destructor target)
      (pushed : next.shared.pushed = state.shared.pushed) (awaiting : awaits target = false) :
      pool.unnotified = PoolThreads.unnotified next :=
    mirrors.unnotified.trans (moves.unnotified pushed (by rw [here, awaiting]; rfl)).symm
  cases at_ with
  | lock =>
      rcases Option.ite_none_right_eq_some.mp performed with ⟨_, same⟩
      rcases Option.some.inj same with rfl
      exact ignored rfl rfl rfl rfl rfl
  | unlock =>
      rcases Option.some.inj performed with rfl
      exact ignored rfl rfl rfl rfl rfl
  | join index =>
      simp only [destructor] at performed
      split at performed
      · rcases Option.ite_none_right_eq_some.mp performed with ⟨_, same⟩
        rcases Option.some.inj same with rfl
        exact ignored rfl rfl rfl rfl rfl
      · rcases Option.some.inj performed with rfl
        exact ignored rfl rfl rfl rfl rfl
  | done => simp [destructor, Monitor.State.perform] at performed
  | stop =>
      have quiet := under rfl
      rcases mirrors.settled quiet with ⟨⟨queue, leaderExists, submitted, dequeued⟩, _⟩
      rcases Option.some.inj performed with rfl
      have moves := own rfl
      refine ⟨pool, ⟨[], rfl⟩, mirrors_of_quiet (moves.quiet quiet)
        (moves.stands rfl mirrors.stands) ⟨queue, leaderExists, submitted, dequeued⟩ ?_
        (unnotifies moves rfl rfl)⟩
      intro going
      simp [Monitor.State.goTo, stops] at going
  | notifyTask =>
      have quiet := under rfl
      have settled := mirrors.settled quiet
      have same := (Option.some.inj performed).symm
      have moves : OtherMoves state next .destructor (.destructor .notifyFollower) :=
        own (same ▸ rfl)
      have shared : next.shared = state.shared := same ▸ rfl
      rcases reaches_wakes pool ((List.range threadCount).filter fun index =>
        decide ((PoolParty.thread index, PoolCv.taskCv) ∈ state.waiting)) with
        ⟨threads, reaches, size, woken⟩
      refine ⟨_, reaches, mirrors_of_quiet (moves.quiet quiet)
        (mirrors.stands.wake orderly.waiters moves.thread size fun index bound => ?_)
        ⟨?_, ?_, ?_, ?_⟩ (fun going => ?_) (unnotifies moves (by rw [shared]) rfl)⟩
      · have waiting : next.waiting = state.waiting.filter (·.2 ≠ .taskCv) := same ▸ rfl
        by_cases waits : (PoolParty.thread index, PoolCv.taskCv) ∈ state.waiting
        · refine Or.inr ⟨isBlocked_iff.mpr ⟨_, waits⟩, ?_, ?_⟩
          · by_contra blocked
            rw [Bool.not_eq_false] at blocked
            rcases isBlocked_iff.mp blocked with ⟨cv, still⟩
            rw [waiting, List.mem_filter] at still
            have once := List.inj_on_of_nodup_map orderly.once still.1 waits rfl
            rcases Prod.mk.inj once with ⟨_, rfl⟩
            simp at still
          · rw [woken, if_pos (by simp [bound, waits])]
        · refine Or.inl ⟨?_, by rw [woken, if_neg (by simp [waits])]⟩
          rw [Bool.eq_iff_iff, isBlocked_iff, isBlocked_iff, waiting]
          constructor
          · rintro ⟨cv, still⟩
            exact ⟨cv, List.mem_of_mem_filter still⟩
          · rintro ⟨cv, waited⟩
            refine ⟨cv, List.mem_filter.mpr ⟨waited, ?_⟩⟩
            cases cv with
            | taskCv => exact absurd waited waits
            | followerCv => simp
      · exact shared ▸ settled.1.queue
      · exact shared ▸ settled.1.leaderExists
      · exact shared ▸ settled.1.submitted
      · exact shared ▸ settled.1.dequeued
      · rw [moves.point, Function.update_self] at going
        simp [stops] at going
  | notifyFollower =>
      have quiet := under rfl
      have settled := mirrors.settled quiet
      have same := (Option.some.inj performed).symm
      have moves : OtherMoves state next .destructor (.destructor .unlock) := own (same ▸ rfl)
      have shared : next.shared = state.shared := same ▸ rfl
      have granted := orderly.granted .destructor
      rw [here] at granted
      have stopped : LFThreadPool.machine.step pool .stop = some pool.stop := rfl
      refine ⟨_, Machine.reaches_of_step stopped, mirrors_of_quiet (moves.quiet quiet)
        ⟨by simpa [LFThreadPool.stop] using mirrors.stands.size, fun index bound outer => ?_⟩
        ⟨?_, ?_, ?_, ?_⟩ (fun _ => ?_) (unnotifies moves (by rw [shared]) rfl)⟩
      · have waiting : next.waiting = state.waiting.filter (·.2 ≠ .followerCv) := same ▸ rfl
        have awake : next.isBlocked (.thread index) = false := by
          by_contra blocked
          rw [Bool.not_eq_false] at blocked
          rcases isBlocked_iff.mp blocked with ⟨cv, still⟩
          rw [waiting, List.mem_filter] at still
          cases cv with
          | taskCv => exact orderly.stopped.woken .taskCv (by rw [here]; rfl) _ still.1
          | followerCv => simp at still
        rw [moves.thread] at outer
        have stood := mirrors.stands.outer index bound outer
        rw [moves.thread, awake]
        simp only [LFThreadPool.stop, List.getElem?_map, stood, Option.map_some]
        refine congrArg some ?_
        cases blocked : state.isBlocked (.thread index) with
        | false => exact wakeThread_standing_awake _
        | true =>
            rcases orderly.waiters.blockedOn blocked with ⟨cv, _, at_⟩
            exact wakeThread_standing at_
      · exact shared ▸ settled.1.queue
      · exact shared ▸ settled.1.leaderExists
      · exact shared ▸ settled.1.submitted
      · exact shared ▸ settled.1.dequeued
      · exact (shared ▸ granted : next.shared.stopping = true).symm

/-! ### Every statement -/

theorem Mirrors.spurious (mirrors : Mirrors threadCount state pool)
    (orderly : Orderly threadCount state) (party : PoolParty) :
    ∃ after, LFThreadPool.machine.Reaches pool after ∧
      Mirrors threadCount { state with waiting := state.waiting.filter (·.1 ≠ party) } after := by
  cases blocked : state.isBlocked party with
  | false =>
      have same : state.waiting.filter (·.1 ≠ party) = state.waiting := by
        rw [List.filter_eq_self]
        intro waits member
        rw [decide_eq_true_eq]
        rintro rfl
        rw [isBlocked_iff.mpr ⟨waits.2, member⟩] at blocked
        exact Bool.noConfusion blocked
      rw [same]
      exact ⟨pool, ⟨[], rfl⟩, mirrors⟩
  | true =>
      rcases isBlocked_iff.mp blocked with ⟨cv, waiting⟩
      rcases orderly.waits waiting with ⟨index, bound, rfl, at_⟩
      have stepped : LFThreadPool.machine.step pool (.spurious index) = some (pool.wake index) :=
        rfl
      refine ⟨_, Machine.reaches_of_step stepped, ?_, ?_, fun quiet => ?_, mirrors.unnotified⟩
      · refine mirrors.stands.wake orderly.waiters (fun _ => rfl) (by simp [LFThreadPool.wake])
          fun other _ => ?_
        by_cases same : other = index
        · subst same
          refine Or.inr ⟨blocked, ?_, by simp [LFThreadPool.wake]; rfl⟩
          simp [Monitor.State.isBlocked]
        · refine Or.inl ⟨?_, by simp [LFThreadPool.wake, Ne.symm same]⟩
          rw [Bool.eq_iff_iff, isBlocked_iff, isBlocked_iff]
          simp [same]
      · intro other inner threads sameThread choice
        have different : index ≠ other := by
          rintro rfl
          rw [uncommitted_of_blockedOn at_] at inner
          exact Bool.noConfusion inner
        have unmoved : (pool.wake index).threads[other]? = pool.threads[other]? := by
          simp [LFThreadPool.wake, different]
        exact mirrors.inner other inner threads (sameThread.trans unmoved) choice
      · rcases mirrors.settled quiet with ⟨⟨queue, leaderExists, submitted, dequeued⟩, stopping⟩
        exact ⟨⟨queue, leaderExists, submitted, dequeued⟩, stopping⟩

theorem Mirrors.step (mirrors : Mirrors threadCount state pool)
    (orderly : Orderly threadCount state)
    (accounted : Accounted tasks state.point state.shared) {label : Monitor.Label PoolParty}
    (stepped : (machine threadCount).step state label = some next) :
    ∃ after, LFThreadPool.machine.Reaches pool after ∧ Mirrors threadCount next after := by
  cases label with
  | spurious party =>
      rcases Option.some.inj stepped with rfl
      exact mirrors.spurious orderly party
  | run party woken =>
      simp only [machine, Monitor.machine, Monitor.State.step] at stepped
      split at stepped
      · simp at stepped
      · rename_i awake
        rw [Bool.not_eq_true] at awake
        have own := orderly.belongs party
        cases party with
        | thread index =>
            have bound : index < threadCount := by
              by_contra beyond
              rw [orderly.beyond index (Nat.le_of_not_lt beyond)] at stepped
              simp [code, Monitor.State.perform] at stepped
            exact mirrors.thread_step orderly awake bound rfl
              (acts_code (orderly.guarded.asserted (.thread index))) stepped
        | submit call =>
            cases here : state.point (.submit call) with
            | submit task at_ =>
                rw [here] at stepped
                exact mirrors.submit_step orderly accounted here awake stepped
            | _ => simp [here, PoolThreads.belongs] at own
        | destructor =>
            cases here : state.point .destructor with
            | destructor at_ =>
                rw [here] at stepped
                exact mirrors.destructor_step orderly here stepped
            | _ => simp [here, PoolThreads.belongs] at own

end Steps

/-! ## Runs -/

theorem mirrors_start (threadCount : ℕ) (tasks : ℕ → Job) :
    Mirrors threadCount (start threadCount tasks) (LFThreadPool.start threadCount) := by
  have quiet : Quiet (start threadCount tasks) := by
    intro index
    simp only [start]
    split <;> rfl
  refine mirrors_of_quiet quiet ⟨by simp [LFThreadPool.start], fun index bound _ => ?_⟩
    ⟨rfl, rfl, rfl, rfl⟩ (fun _ => rfl) rfl
  simp [LFThreadPool.start, start, bound, standing]

/-- When nobody has the mutex the pool is the summary of the statements. -/
theorem Mirrors.eq_summary {threadCount : ℕ} {state : PoolState Job} {pool : LFThreadPool Job}
    (mirrors : Mirrors threadCount state pool) (orderly : Orderly threadCount state)
    (free : state.owner = none) : pool = summary threadCount state := by
  have quiet := orderly.quiet_of_free free
  have going : stops (state.point .destructor) = false := by
    apply stops_of_outside
    by_contra within
    rw [Bool.not_eq_false] at within
    have owns := (orderly.guarded.exclusive .destructor).mpr within
    simp [free] at owns
  have threads : pool.threads = (List.range threadCount).map fun index =>
      standing (state.point (.thread index)) (state.isBlocked (.thread index)) := by
    apply List.ext_getElem?
    intro index
    by_cases bound : index < threadCount
    · rw [mirrors.stands.outer index bound (quiet index)]
      simp [bound]
    · have beyond : threadCount ≤ index := Nat.le_of_not_lt bound
      rw [List.getElem?_eq_none (mirrors.stands.size.trans_le beyond)]
      simp [beyond]
  rw [summary, ← threads, ← mirrors.unnotified]
  exact mirrors.eq_poolOf quiet going pool.threads

/-- However the statements of the threads, the calls of `submit` and the destructor interleave:
whenever nobody has the mutex, the pool is as a run of its steps can leave it. -/
theorem reaches_summary {threadCount : ℕ} {tasks : ℕ → Job} {state : PoolState Job}
    (reached : (machine threadCount).Reaches (start threadCount tasks) state)
    (free : state.owner = none) :
    LFThreadPool.machine.Reaches (LFThreadPool.start threadCount) (summary threadCount state) := by
  rcases (machine threadCount).exists_related (Mirrors threadCount)
    (fun reaches mirrors stepped =>
      mirrors.step (orderly_of_run reaches).1 (orderly_of_run reaches).2 stepped)
    (mirrors_start threadCount tasks) reached with ⟨pool, reaches, mirrors⟩
  rw [← mirrors.eq_summary (orderly_of_run reached).1 free]
  exact reaches

/-- The second thread follows when the first one has passed the task to `dealData`. -/
theorem reaches_summary_first : ∃ state,
    (machine 2).run (start 2 fun call => call) firstTask = some state ∧
      LFThreadPool.machine.Reaches (LFThreadPool.start 2) (summary 2 state) ∧
        (summary 2 state).hands = [some 0, none] := by
  have evaluated : ((machine 2).run (start 2 fun call => call) firstTask).any (fun state =>
      state.owner = none ∧ (summary 2 state).hands = [some 0, none]) = true := by
    decide +kernel
  rcases (Option.any_eq_true _ _).mp evaluated with ⟨state, reached, shape⟩
  simp only [decide_eq_true_eq] at shape
  exact ⟨state, reached, reaches_summary ⟨firstTask, reached⟩ shape.1, shape.2⟩

end PoolThreads

end InstanceMessage
