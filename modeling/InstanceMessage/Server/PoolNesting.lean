import InstanceMessage.Server.PoolTasks

/-!
# How deep the loops nest

`leaderLoop` calls `followerLoop` after a task and `followerLoop` calls
`leaderLoop` when the thread is promoted; neither returns before the pool stops,
and their `while` loops are never repeated. So a thread has two more calls on
its stack for each task that it executes: never more than these, and as many as
that for a thread which always finds the next task itself.
-/

namespace InstanceMessage

open Library

namespace PoolThreads

variable {Job : Type}

/-! ## The bound -/

theorem length_le_count_leaderLoop {calls : List LoopCall} (alternate : calls.IsChain (· ≠ ·)) :
    calls.length ≤ 2 * calls.count .leaderLoop + 1 ∧
      (calls.head? = some .leaderLoop → calls.length ≤ 2 * calls.count .leaderLoop) := by
  induction calls with
  | nil => simp
  | cons call calls ih =>
      rcases ih alternate.tail with ⟨bound, sharp⟩
      cases call with
      | leaderLoop =>
          rw [List.count_cons_self, List.length_cons]
          exact ⟨by omega, fun _ => by omega⟩
      | followerLoop =>
          have below : calls.length ≤ 2 * calls.count .leaderLoop := by
            rcases calls with _ | ⟨caller, calls⟩
            · simp
            · cases caller with
              | leaderLoop => exact sharp rfl
              | followerLoop => simp at alternate
          rw [List.count_cons_of_ne (by simp), List.length_cons]
          exact ⟨by omega, by simp⟩

/-- Each loop has been entered from the other one, and no thread has more unfinished calls of
`leaderLoop` behind it than it has dealt with tasks. -/
structure Stacked (point : PoolParty → PoolPoint Job) (shared : PoolShared Job) : Prop where
  alternate : ∀ index, (point (.thread index)).activeCalls.IsChain (· ≠ ·)
  worked : ∀ index, worked (point (.thread index)) ≤ (ofThread index shared.dealt).length

theorem stacked_start (threadCount : ℕ) (tasks : ℕ → Job) :
    Stacked (start threadCount tasks).point {} := by
  constructor
  · intro index
    simp only [start]
    split <;> exact .nil
  · intro index
    simp only [start]
    split <;> exact le_rfl

section Moves

variable {point : PoolParty → PoolPoint Job} {shared after : PoolShared Job} {party : PoolParty}
  {target : PoolPoint Job}

theorem Stacked.keep (stacked : Stacked point shared)
    (worked_le : PoolThreads.worked target ≤ PoolThreads.worked (point party))
    (alternate : (point party).activeCalls.IsChain (· ≠ ·) → target.activeCalls.IsChain (· ≠ ·))
    (dealt : after.dealt = shared.dealt) : Stacked (Function.update point party target) after := by
  constructor
  · intro index
    by_cases moved : .thread index = party
    · rw [moved, Function.update_self]
      exact alternate (moved ▸ stacked.alternate index)
    · rw [Function.update_of_ne moved]
      exact stacked.alternate index
  · intro index
    rw [dealt]
    by_cases moved : .thread index = party
    · rw [moved, Function.update_self]
      exact worked_le.trans (moved ▸ stacked.worked index)
    · rw [Function.update_of_ne moved]
      exact stacked.worked index

theorem Stacked.moves (stacked : Stacked point shared) {from_ : PoolPoint Job}
    (at_ : point party = from_) (moves : Moves party from_ shared target after) :
    Stacked (Function.update point party target) after := by
  cases moves with
  | plain keeps | elect keeps =>
      rw [← at_] at keeps
      exact stacked.keep keeps.worked keeps.alternate rfl
  | take | resign => exact stacked.keep (by rw [at_]; exact le_rfl) (by rw [at_]; exact id) rfl
  | push | stop => exact stacked.keep (by rw [at_]; exact le_rfl) (by rw [at_]; exact id) rfl
  | @deal index task callers shared =>
      constructor
      · intro other
        by_cases same : other = index
        · rw [same, Function.update_self]
          have alternate := stacked.alternate index
          rw [at_] at alternate
          exact alternate
        · rw [Function.update_of_ne (by simpa using same)]
          exact stacked.alternate other
      · intro other
        by_cases same : other = index
        · have before := stacked.worked index
          rw [at_] at before
          rw [same, Function.update_self, ofThread_append_self, List.length_append]
          exact Nat.succ_le_succ before
        · rw [Function.update_of_ne (by simpa using same),
            ofThread_append_of_ne (Ne.symm same)]
          exact stacked.worked other

end Moves

theorem activeCalls_le_worked (point : PoolPoint Job)
    (alternate : point.activeCalls.IsChain (· ≠ ·)) :
    point.activeCalls.length ≤ 2 * worked point + 2 := by
  rcases length_le_count_leaderLoop alternate with ⟨bound, sharp⟩
  cases point with
  | leaderLoop at_ callers =>
      have top := sharp rfl
      have below : callers.count .leaderLoop ≤ worked (.leaderLoop at_ callers) := by
        cases at_ <;> simp [worked]
      simp only [PoolPoint.activeCalls, List.count_cons_self, List.length_cons] at top ⊢
      omega
  | followerLoop at_ callers =>
      simp only [PoolPoint.activeCalls, worked, List.length_cons] at bound ⊢
      rw [List.count_cons_of_ne (by simp)] at bound
      omega
  | _ => simp [PoolPoint.activeCalls]

/-- A thread that has passed some tasks to `dealData` has at most two calls more than twice as
many on its stack. -/
theorem activeCalls_le_dealt {threadCount : ℕ} {tasks : ℕ → Job} {final : PoolState Job}
    {labels : List (Monitor.Label PoolParty)}
    (reached : (machine threadCount).run (start threadCount tasks) labels = some final)
    (index : ℕ) :
    (final.point (.thread index)).activeCalls.length ≤
      2 * (ofThread index final.shared.dealt).length + 2 := by
  have stacked := (invariant_of_run Stacked (stacked_start threadCount tasks)
    (fun _ _ _ _ _ _ stacked at_ moves => stacked.moves at_ moves) reached).2
  have bound := activeCalls_le_worked _ (stacked.alternate index)
  have worked := stacked.worked index
  omega

/-! ## A thread that does all the work -/

section Alone

variable {threadCount : ℕ} {point : PoolParty → PoolPoint Job} {callers : List LoopCall}
  {pushed dequeued dealt : List (ℕ × Job)} {task : Job} {call : ℕ}

theorem reaches_submitted (waits : point (.submit call) = .submit task .lock) :
    (machine threadCount).Reaches
      ⟨⟨[], true, false, pushed, dequeued, dealt⟩, point, none, [(.thread 0, .taskCv)]⟩
      ⟨⟨[task], true, false, pushed ++ [(call, task)], dequeued, dealt⟩,
        Function.update point (.submit call) (.submit task .done), none, []⟩ := by
  have awake : ∀ waits ∈ [(PoolParty.thread 0, PoolCv.taskCv)], waits.1 ≠ .submit call := by simp
  have alone : ∀ waits ∈ ([] : List (PoolParty × PoolCv)), waits.1 ≠ .submit call := by simp
  apply Monitor.reaches_of_alone waits
  -- The first critical section.
  refine (Monitor.reaches_lock awake rfl).trans ?_
  refine (Monitor.reaches_assign awake rfl).trans ?_
  refine (Monitor.reaches_assign awake rfl).trans ?_
  refine (Monitor.reaches_unlock awake rfl).trans ?_
  -- The second one, in which the leader is woken.
  refine (Monitor.reaches_lock awake rfl).trans ?_
  refine (Monitor.reaches_assign awake rfl).trans ?_
  refine (Monitor.reaches_wake awake (List.mem_singleton_self _) rfl).trans ?_
  exact Monitor.reaches_unlock alone rfl

theorem reaches_dealt (waits : point (.thread 0) = .leaderLoop .blocked callers) :
    (machine threadCount).Reaches
      ⟨⟨[task], true, false, pushed, dequeued, dealt⟩, point, none, []⟩
      ⟨⟨[], true, false, pushed, dequeued ++ [(0, task)], dealt ++ [(0, task)]⟩,
        Function.update point (.thread 0)
          (.leaderLoop .blocked (.followerLoop :: .leaderLoop :: callers)),
        none, [(.thread 0, .taskCv)]⟩ := by
  have alone : ∀ waits ∈ ([] : List (PoolParty × PoolCv)), waits.1 ≠ .thread 0 := by simp
  apply Monitor.reaches_of_alone waits
  -- The leader takes the task.
  refine (Monitor.reaches_lock alone rfl).trans ?_
  refine (Monitor.reaches_assign alone rfl).trans ?_
  refine (Monitor.reaches_assign alone rfl).trans ?_
  refine (Monitor.reaches_assign alone rfl).trans ?_
  refine (Monitor.reaches_assign alone rfl).trans ?_
  refine (Monitor.reaches_assign alone rfl).trans ?_
  refine (Monitor.reaches_notifyOne alone (by simp) rfl).trans ?_
  -- It deals with it.
  refine (Monitor.reaches_unlock alone rfl).trans ?_
  refine (Monitor.reaches_assign alone rfl).trans ?_
  refine (Monitor.reaches_assign alone rfl).trans ?_
  refine (Monitor.reaches_lock alone rfl).trans ?_
  -- It becomes a follower, and the leader again.
  refine (Monitor.reaches_assign alone rfl).trans ?_
  refine (Monitor.reaches_assign alone rfl).trans ?_
  refine (Monitor.reaches_assign alone rfl).trans ?_
  refine (Monitor.reaches_assign alone rfl).trans ?_
  refine (Monitor.reaches_assign alone rfl).trans ?_
  refine (Monitor.reaches_assign alone rfl).trans ?_
  refine (Monitor.reaches_assign alone rfl).trans ?_
  exact Monitor.reaches_wait alone rfl

theorem reaches_resting {tasks : ℕ → Job} (positive : 0 < threadCount) :
    (machine threadCount).Reaches (start threadCount tasks)
      ⟨⟨[], true, false, [], [], []⟩,
        Function.update (start threadCount tasks).point (.thread 0) (.leaderLoop .blocked []),
        none, [(.thread 0, .taskCv)]⟩ := by
  have alone : ∀ waits ∈ ([] : List (PoolParty × PoolCv)), waits.1 ≠ .thread 0 := by simp
  have begins : (start threadCount tasks).point (.thread 0) = .threadLoop .lock := if_pos positive
  apply Monitor.reaches_of_alone begins
  refine (Monitor.reaches_lock alone rfl).trans ?_
  refine (Monitor.reaches_assign alone rfl).trans ?_
  refine (Monitor.reaches_assign alone rfl).trans ?_
  refine (Monitor.reaches_assign alone rfl).trans ?_
  refine (Monitor.reaches_assign alone rfl).trans ?_
  exact Monitor.reaches_wait alone rfl

/-- The first thread can execute any number of tasks, and has two calls on its stack for each. -/
theorem reaches_deep (tasks : ℕ → Job) (positive : 0 < threadCount) (done : ℕ) :
    ∃ point callers pushed dequeued dealt,
      (machine threadCount).Reaches (start threadCount tasks)
        ⟨⟨[], true, false, pushed, dequeued, dealt⟩, point, none, [(.thread 0, .taskCv)]⟩ ∧
      point (.thread 0) = .leaderLoop .blocked callers ∧ callers.length = 2 * done ∧
        ∀ call ≥ done, point (.submit call) = .submit (tasks call) .lock := by
  induction done with
  | zero =>
      refine ⟨_, [], [], [], [], reaches_resting positive, Function.update_self _ _ _, rfl, ?_⟩
      intro call _
      rfl
  | succ done ih =>
      rcases ih with ⟨point, callers, pushed, dequeued, dealt, reached, at_, deep, waiting⟩
      have submitted : (machine threadCount).Reaches
          ⟨⟨[], true, false, pushed, dequeued, dealt⟩, point, none, [(.thread 0, .taskCv)]⟩ _ :=
        reaches_submitted (waiting done le_rfl)
      have still : Function.update point (.submit done) (.submit (tasks done) .done) (.thread 0) =
          .leaderLoop .blocked callers := at_
      refine ⟨_, _, _, _, _, (reached.trans submitted).trans (reaches_dealt still),
        Function.update_self _ _ _, ?_, ?_⟩
      · simp only [List.length_cons, deep]
        omega
      · intro call later
        have other : PoolParty.submit call ≠ .submit done := by
          simp only [ne_eq, PoolParty.submit.injEq]
          omega
        rw [Function.update_of_ne (by simp), Function.update_of_ne other]
        exact waiting call (by omega)

end Alone

/-- A pool without threads runs nothing. -/
theorem finished_of_run {tasks : ℕ → Job} {final : PoolState Job}
    {labels : List (Monitor.Label PoolParty)}
    (reached : (machine 0).run (start 0 tasks) labels = some final) (index : ℕ) :
    final.point (.thread index) = .finished := by
  refine (machine 0).run_invariant_of_step
    (fun state => ∀ index, state.point (.thread index) = .finished) ?_ (fun _ => rfl) reached index
  intro before label after finished stepped other
  refine Monitor.invariant_of_moves
    (fun point _ => ∀ index, point (.thread index) = PoolPoint.finished) ?_ finished
    (Monitor.stepped_of_step stepped) other
  intro point shared party target ended goes index
  have moved : .thread index ≠ party := by
    rintro rfl
    simp [ended index, code, Monitor.Stmt.next] at goes
  rw [Function.update_of_ne moved]
  exact ended index

/-- No bound holds for the calls of the loops on the stacks of the threads, if there are any. -/
theorem nesting_bounded_iff (threadCount : ℕ) (tasks : ℕ → Job) :
    (∃ bound, ∀ labels final,
      (machine threadCount).run (start threadCount tasks) labels = some final →
        ∀ index, (final.point (.thread index)).activeCalls.length ≤ bound) ↔
      threadCount = 0 := by
  constructor
  · rintro ⟨bound, bounded⟩
    by_contra positive
    rcases reaches_deep tasks (Nat.pos_of_ne_zero positive) bound with
      ⟨point, callers, pushed, dequeued, dealt, ⟨labels, reached⟩, at_, deep, _⟩
    have within := bounded labels _ reached 0
    simp only [at_, PoolPoint.activeCalls, List.length_cons, deep] at within
    omega
  · rintro rfl
    refine ⟨0, fun labels final reached index => ?_⟩
    simp [finished_of_run reached index, PoolPoint.activeCalls]

/-- The pool of the server has four threads. -/
theorem nesting_bounded_fails : ¬∃ bound, ∀ labels final,
    (machine 4).run (start 4 fun call => call) labels = some final →
      ∀ index, (final.point (.thread index)).activeCalls.length ≤ bound := by
  rintro ⟨bound, bounded⟩
  rcases reaches_deep (fun call => call) (show 0 < 4 by decide) bound with
    ⟨point, callers, pushed, dequeued, dealt, ⟨labels, reached⟩, at_, deep, _⟩
  have within := bounded labels _ reached 0
  simp only [at_, PoolPoint.activeCalls, List.length_cons, deep] at within
  omega

end PoolThreads

end InstanceMessage
