import InstanceMessage.Server.PoolThreads

/-!
# Where the tasks are

Every task that a call of `submit` has pushed is in the queue, in the hands of
the thread that has taken it, or has been passed to `dealData` by that thread,
in the order in which the calls pushed and once each.
-/

namespace InstanceMessage

open Library

namespace PoolThreads

variable {Job : Type}

def ofThread (index : ℕ) (tasks : List (ℕ × Job)) : List Job :=
  (tasks.filter (·.1 = index)).map Prod.snd

theorem ofThread_append_self (index : ℕ) (tasks : List (ℕ × Job)) (task : Job) :
    ofThread index (tasks ++ [(index, task)]) = ofThread index tasks ++ [task] := by
  simp [ofThread]

theorem ofThread_append_of_ne {index other : ℕ} (different : other ≠ index)
    (tasks : List (ℕ × Job)) (task : Job) :
    ofThread index (tasks ++ [(other, task)]) = ofThread index tasks := by
  simp [ofThread, different]

/-- A property of a point that the step keeps at the point of the party which moves. -/
theorem update_congr {Value : Type} {point : PoolParty → PoolPoint Job} {party : PoolParty}
    {target : PoolPoint Job} (property : PoolPoint Job → Value)
    (same : property target = property (point party)) (other : PoolParty) :
    property (Function.update point party target other) = property (point other) := by
  by_cases moved : other = party
  · rw [moved, Function.update_self, same]
  · rw [Function.update_of_ne moved]

/-- The queue and the records, with the points of the parties. -/
structure Accounted (tasks : ℕ → Job) (point : PoolParty → PoolPoint Job)
    (shared : PoolShared Job) : Prop where
  fifo : shared.dequeued.map Prod.snd ++ shared.taskQueueData = shared.pushed.map Prod.snd
  hands : ∀ index, ofThread index shared.dequeued =
    ofThread index shared.dealt ++ inHand (point (.thread index))
  submitted : ∀ call, submits (point (.submit call)) = some (tasks call)
  pushed : ∀ call, call ∈ shared.pushed.map Prod.fst ↔ hasPushed (point (.submit call)) = true
  once : (shared.pushed.map Prod.fst).Nodup
  own : ∀ entry ∈ shared.pushed, entry.2 = tasks entry.1

theorem accounted_start (threadCount : ℕ) (tasks : ℕ → Job) :
    Accounted tasks (start threadCount tasks).point {} := by
  refine ⟨rfl, fun index => ?_, fun call => rfl, fun call => ?_, .nil, by simp⟩
  · simp only [start]
    split <;> rfl
  · simp [start, hasPushed]

section Moves

variable {tasks : ℕ → Job} {point : PoolParty → PoolPoint Job} {shared : PoolShared Job}

theorem Accounted.keep (accounted : Accounted tasks point shared) {party : PoolParty}
    {target : PoolPoint Job} (keeps : Keeps (point party) target) :
    Accounted tasks (Function.update point party target) shared where
  fifo := accounted.fifo
  hands index := by
    rw [update_congr inHand keeps.hands]
    exact accounted.hands index
  submitted call := by
    rw [update_congr submits keeps.task]
    exact accounted.submitted call
  pushed call := by
    rw [update_congr hasPushed keeps.pushes]
    exact accounted.pushed call
  once := accounted.once
  own := accounted.own

/-- A thread moves from one point to another, and the tasks of others stay where they are. -/
theorem Accounted.moveThread (accounted : Accounted tasks point shared) {index : ℕ}
    {target : PoolPoint Job} {after : PoolShared Job}
    (fifo : after.dequeued.map Prod.snd ++ after.taskQueueData = after.pushed.map Prod.snd)
    (pushed : after.pushed = shared.pushed)
    (own : ofThread index after.dequeued = ofThread index after.dealt ++ inHand target)
    (others : ∀ other ≠ index, ofThread other after.dequeued = ofThread other shared.dequeued ∧
      ofThread other after.dealt = ofThread other shared.dealt) :
    Accounted tasks (Function.update point (.thread index) target) after where
  fifo := fifo
  hands other := by
    by_cases same : other = index
    · rw [same, Function.update_self]
      exact own
    · rw [Function.update_of_ne (by simpa using same), (others other same).1, (others other same).2]
      exact accounted.hands other
  submitted call := accounted.submitted call
  pushed call := by
    rw [pushed]
    exact accounted.pushed call
  once := pushed ▸ accounted.once
  own := pushed ▸ accounted.own

theorem Accounted.moves (accounted : Accounted tasks point shared) {party : PoolParty}
    {from_ target : PoolPoint Job} {after : PoolShared Job} (at_ : point party = from_)
    (moves : Moves party from_ shared target after) :
    Accounted tasks (Function.update point party target) after := by
  cases moves with
  | plain keeps => exact accounted.keep (at_ ▸ keeps)
  | elect keeps =>
      rcases accounted.keep (at_ ▸ keeps) with ⟨fifo, hands, submitted, pushed, once, own⟩
      exact ⟨fifo, hands, submitted, pushed, once, own⟩
  | @take index task rest callers shared queue =>
      have held := accounted.hands index
      rw [at_] at held
      apply accounted.moveThread
      · simp [← accounted.fifo, queue]
      · rfl
      · rw [ofThread_append_self, held]
        simp [inHand]
      · intro other different
        exact ⟨ofThread_append_of_ne different.symm _ _, rfl⟩
  | @resign index task callers shared =>
      have held := accounted.hands index
      rw [at_] at held
      exact accounted.moveThread accounted.fifo rfl held fun _ _ => ⟨rfl, rfl⟩
  | @deal index task callers shared =>
      have held := accounted.hands index
      rw [at_] at held
      apply accounted.moveThread
      · exact accounted.fifo
      · rfl
      · rw [ofThread_append_self, held]
        simp [inHand]
      · intro other different
        exact ⟨rfl, ofThread_append_of_ne different.symm _ _⟩
  | @push call task shared =>
      have unpushed : call ∉ shared.pushed.map Prod.fst := by
        rw [accounted.pushed call, at_]
        simp [hasPushed]
      have own : tasks call = task := by
        have submitted := accounted.submitted call
        rw [at_] at submitted
        exact (Option.some.inj submitted).symm
      refine ⟨?_, fun index => accounted.hands index, ?_, ?_, ?_, ?_⟩
      · simp only [List.map_append, ← List.append_assoc, accounted.fifo]
        rfl
      · intro other
        rw [update_congr submits (by rw [at_]; rfl)]
        exact accounted.submitted other
      · intro other
        by_cases same : other = call
        · simp [same, hasPushed]
        · rw [Function.update_of_ne (by simpa using same), ← accounted.pushed other]
          simp [same]
      · rw [List.map_append]
        apply List.nodup_append.mpr ⟨accounted.once, List.nodup_singleton _, ?_⟩
        intro first old second new same
        have again : first = call := same.trans (List.mem_singleton.mp new)
        exact unpushed (again ▸ old)
      · intro entry member
        rcases List.mem_append.mp member with old | new
        · exact accounted.own entry old
        · rw [List.mem_singleton.mp new]
          exact own.symm
  | stop =>
      have keeps : Keeps (point .destructor) (.destructor .notifyTask) := by
        rw [at_]
        exact ⟨rfl, rfl, rfl, le_rfl, id⟩
      rcases accounted.keep keeps with ⟨fifo, hands, submitted, pushed, once, own⟩
      exact ⟨fifo, hands, submitted, pushed, once, own⟩

end Moves

/-- What has become of the tasks that calls of `submit` have been given. -/
structure Conserved (tasks : ℕ → Job) (state : PoolState Job) : Prop where
  /-- Each call pushes once, and its own task. -/
  pushed : (state.shared.pushed.map Prod.fst).Nodup ∧
    ∀ entry ∈ state.shared.pushed, entry.2 = tasks entry.1
  /-- The tasks leave the queue in the order in which they were pushed. -/
  fifo : state.shared.dequeued.map Prod.snd ++ state.shared.taskQueueData =
    state.shared.pushed.map Prod.snd
  /-- A thread deals with what it has taken, in this order and once, up to what is in its hand. -/
  hands : ∀ index, ofThread index state.shared.dequeued =
    ofThread index state.shared.dealt ++ inHand (state.point (.thread index))
  outside : ∀ index task callers, state.point (.thread index) = .leaderLoop (.deal task) callers ∨
    state.point (.thread index) = .leaderLoop (.dealing task) callers →
      state.owner ≠ some (.thread index)
  thrown : ∀ call task, state.point (.submit call) = .submit task .throw ∨
    state.point (.submit call) = .submit task .thrown → call ∉ state.shared.pushed.map Prod.fst

/-- However threads, calls of `submit` and the destructor are interleaved, no task is lost,
duplicated or overtaken in the queue. -/
theorem tasks_conserved {threadCount : ℕ} {tasks : ℕ → Job} {final : PoolState Job}
    {labels : List (Monitor.Label PoolParty)}
    (reached : (machine threadCount).run (start threadCount tasks) labels = some final) :
    Conserved tasks final := by
  rcases invariant_of_run (Accounted tasks) (accounted_start threadCount tasks)
    (fun _ _ _ _ _ _ accounted at_ moves => accounted.moves at_ moves) reached with
    ⟨guarded, accounted⟩
  refine ⟨⟨accounted.once, accounted.own⟩, accounted.fifo, accounted.hands, ?_, ?_⟩
  · intro index task callers dealing owns
    have within := (guarded.exclusive _).mp owns
    rcases dealing with at_ | at_ <;> simp [at_, inside] at within
  · intro call task threw
    rw [accounted.pushed call]
    rcases threw with at_ | at_ <;> simp [at_, hasPushed]

/-- One thread leads and another one follows; the leader is woken for the task of the first call of
`submit`, wakes the other thread and passes the task to `dealData`. -/
def firstTask : List (Monitor.Label PoolParty) :=
  List.replicate 6 (.run (.thread 0) none) ++ List.replicate 5 (.run (.thread 1) none) ++
    List.replicate 6 (.run (.submit 0) none) ++
      [.run (.submit 0) (some (.thread 0)), .run (.submit 0) none] ++
        List.replicate 6 (.run (.thread 0) none) ++ [.run (.thread 0) (some (.thread 1))] ++
          List.replicate 2 (.run (.thread 0) none)

theorem tasks_conserved_first : ∃ final,
    (machine 2).run (start 2 fun call => call) firstTask = some final ∧
      final.shared.dealt = [(0, 0)] ∧ Conserved (fun call => call) final := by
  have evaluated : ((machine 2).run (start 2 fun call => call) firstTask).any (fun final =>
      final.shared.dealt = [(0, 0)]) = true := by
    decide +kernel
  rcases (Option.any_eq_true _ _).mp evaluated with ⟨final, reached, dealt⟩
  exact ⟨final, reached, by simpa using dealt, tasks_conserved reached⟩

end PoolThreads

end InstanceMessage
