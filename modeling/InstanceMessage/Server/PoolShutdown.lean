import InstanceMessage.Server.PoolParties

/-!
# The end of the pool

Once the destructor has set `stopping`, no task enters the queue and none leaves
it. Every party has then a number of statements left that only its point
decides: a thread returns from the calls on its stack one after the other.
Until the destructor returns somebody can go on, and when it has returned each
thread has dealt with what it has taken; what is still in the queue is dropped.
-/

namespace InstanceMessage

open Library

namespace PoolThreads

variable {Job : Type}

/-! ## What is left to perform -/

def threadRemaining : ThreadPoint → ℕ
  | .lock => 7
  | .test => 6
  | .elect => 5
  | .callLeader | .callFollower => 4
  | .unlock => 1

/-- Without the calls below it on the stack, which take one statement each. -/
def followerRemaining : FollowerPoint → ℕ
  | .ret => 2
  | .head | .test => 3
  | .predicate => 4
  | .blocked | .call => 5
  | .elect => 6

def leaderRemaining : LeaderPoint Job → ℕ
  | .ret => 2
  | .head | .test => 3
  | .predicate => 4
  | .blocked | .call => 5
  | .lock => 6
  | .dealing _ => 7
  | .deal _ => 8
  | .unlock _ => 9
  | .notify _ => 10
  | .clear _ => 11
  | .pop _ => 12
  | .front => 13

def submitRemaining : SubmitPoint → ℕ
  | .thrown | .done => 0
  | .throw | .finish => 1
  | .notifyTask | .notifyFollower => 2
  | .branch => 3
  | .relock => 4
  | .unlock => 5
  | .push => 6
  | .test => 7
  | .lock => 8

def destructorRemaining (threadCount : ℕ) : DestructorPoint → ℕ
  | .done => 0
  | .join index => threadCount - index + 1
  | .unlock => threadCount + 2
  | .notifyFollower => threadCount + 3
  | .notifyTask => threadCount + 4
  | .stop => threadCount + 5
  | .lock => threadCount + 6

/-- How many statements a party performs at most when the pool is stopping. -/
def remaining (threadCount : ℕ) : PoolPoint Job → ℕ
  | .threadLoop at_ => threadRemaining at_
  | .followerLoop at_ callers => callers.length + followerRemaining at_
  | .leaderLoop at_ callers => callers.length + leaderRemaining at_
  | .finished => 0
  | .submit _ at_ => submitRemaining at_
  | .destructor at_ => destructorRemaining threadCount at_

@[simp]
theorem remaining_returned (threadCount : ℕ) (callers : List LoopCall) :
    remaining threadCount (.returned callers : PoolPoint Job) = callers.length + 1 := by
  rcases callers with _ | ⟨call, callers⟩
  · rfl
  · cases call <;> rfl

section Remaining

variable {threadCount : ℕ} {party : PoolParty} {point target : PoolPoint Job}
  {shared after : PoolShared Job}

/-- Each statement leaves fewer, since no loop starts another round. -/
theorem remaining_lt (stopping : shared.stopping = true)
    (goes : (code threadCount party point shared).next = some target) :
    remaining threadCount target < remaining threadCount point := by
  cases party with
  | thread index =>
      cases point with
      | threadLoop at_ =>
          cases at_ <;> simp only [code, threadLoop] at goes
          all_goals (try split at goes) <;> rcases Option.some.inj goes with rfl
          all_goals simp [remaining, threadRemaining, followerRemaining, leaderRemaining]
      | followerLoop at_ callers =>
          cases at_ <;> simp only [code, followerLoop, stopping, if_true, Bool.true_or] at goes
          all_goals rcases Option.some.inj goes with rfl
          case ret =>
            exact (remaining_returned threadCount callers).trans_lt (Nat.lt_succ_self _)
          all_goals simp [remaining, followerRemaining, leaderRemaining]
      | leaderLoop at_ callers =>
          cases at_ <;> simp only [code, leaderLoop, stopping, if_true, Bool.true_or] at goes
          case front =>
            split at goes
            · simp [Monitor.Stmt.next] at goes
            · rcases Option.some.inj goes with rfl
              simp [remaining, leaderRemaining]
          all_goals rcases Option.some.inj goes with rfl
          case ret =>
            exact (remaining_returned threadCount callers).trans_lt (Nat.lt_succ_self _)
          all_goals simp [remaining, followerRemaining, leaderRemaining]
      | finished | submit | destructor => simp [code, Monitor.Stmt.next] at goes
  | submit call =>
      cases point with
      | submit task at_ =>
          cases at_ <;> simp only [code, submit] at goes
          case thrown | done => simp [Monitor.Stmt.next] at goes
          all_goals (try split at goes) <;> rcases Option.some.inj goes with rfl
          all_goals simp [remaining, submitRemaining]
      | _ => simp [code, Monitor.Stmt.next] at goes
  | destructor =>
      cases point with
      | destructor at_ =>
          cases at_ <;> simp only [code, destructor] at goes
          case done => simp [Monitor.Stmt.next] at goes
          case join index =>
            split at goes <;> rcases Option.some.inj goes with rfl
            all_goals simp only [remaining, destructorRemaining]
            all_goals omega
          all_goals rcases Option.some.inj goes with rfl
          all_goals simp [remaining, destructorRemaining]
      | _ => simp [code, Monitor.Stmt.next] at goes

/-! ## The queue is closed -/

/-- The pool is stopping, and no task has entered the queue or left it. -/
structure Closed (before after : PoolShared Job) : Prop where
  stopping : after.stopping = true
  queue : after.taskQueueData = before.taskQueueData
  pushed : after.pushed = before.pushed
  dequeued : after.dequeued = before.dequeued

theorem Closed.trans {middle : PoolShared Job} (first : Closed shared middle)
    (second : Closed middle after) : Closed shared after :=
  ⟨second.stopping, second.queue.trans first.queue, second.pushed.trans first.pushed,
    second.dequeued.trans first.dequeued⟩

/-- A thread takes a task, and a call of `submit` pushes its own, after a test of `stopping`. -/
theorem closed_of_moves (stopping : shared.stopping = true) (granted : granted point shared)
    (moves : Moves party point shared target after) : Closed shared after := by
  cases moves with
  | take =>
      have running : shared.stopping = false := granted
      simp [stopping] at running
  | push =>
      have running : shared.stopping = false := granted
      simp [stopping] at running
  | stop => exact ⟨rfl, rfl, rfl, rfl⟩
  | plain | elect | resign | deal => exact ⟨stopping, rfl, rfl, rfl⟩

end Remaining

section Run

variable {threadCount : ℕ} {tasks : ℕ → Job} {state next final : PoolState Job}
  {label : Monitor.Label PoolParty} {labels : List (Monitor.Label PoolParty)}

theorem Orderly.closed_of_step (orderly : Orderly threadCount state)
    (stopping : state.shared.stopping = true)
    (stepped : (machine threadCount).step state label = some next) :
    Closed state.shared next.shared := by
  rcases (Monitor.stepped_of_step stepped).moves with
    ⟨_, shared⟩ | ⟨party, target, goes, _, shared⟩
  · rw [shared]
    exact ⟨stopping, rfl, rfl, rfl⟩
  · rw [shared]
    exact closed_of_moves stopping (orderly.granted party)
      (moves_of_next (orderly.guarded.asserted party) goes)

theorem Orderly.closed_of_run (orderly : Orderly threadCount state)
    (stopping : state.shared.stopping = true)
    (continued : (machine threadCount).run state labels = some final) :
    Orderly threadCount final ∧ Closed state.shared final.shared := by
  refine (machine threadCount).run_invariant_of_step
    (fun later => Orderly threadCount later ∧ Closed state.shared later.shared) ?_
    ⟨orderly, stopping, rfl, rfl, rfl⟩ continued
  rintro later label next ⟨still, closed⟩ stepped
  exact ⟨still.step stepped, closed.trans (still.closed_of_step closed.stopping stepped)⟩

theorem Orderly.turns_le (orderly : Orderly threadCount state)
    (stopping : state.shared.stopping = true)
    (continued : (machine threadCount).run state labels = some final) (party : PoolParty) :
    Monitor.turns party labels + remaining threadCount (final.point party) ≤
      remaining threadCount (state.point party) := by
  refine Monitor.turns_le
    (fun later => Orderly threadCount later ∧ later.shared.stopping = true)
    ?_ ?_ ⟨orderly, stopping⟩ continued
  · rintro later label next ⟨still, stops⟩ stepped
    exact ⟨still.step stepped, (still.closed_of_step stops stepped).stopping⟩
  · rintro later target ⟨_, stops⟩ goes
    exact remaining_lt stops goes

/-! ## Somebody goes on -/

theorem awake_of_inside (guarded : Guarded state) {party : PoolParty}
    (within : inside (state.point party) = true) : state.isBlocked party = false := by
  by_contra blocked
  rw [Bool.not_eq_false] at blocked
  rcases isBlocked_iff.mp blocked with ⟨cv, waiting⟩
  have at_ := guarded.waits party cv waiting
  cases cv <;> rcases at_ with ⟨callers, same⟩ <;> simp [same, inside] at within

/-- Who has the mutex does not need anybody else. -/
theorem ready_of_inside {party : PoolParty} {point : PoolPoint Job} {shared : PoolShared Job}
    (own : belongs party point = true) (asserted : assertion point shared)
    (within : inside point = true) :
    Monitor.Ready (code threadCount) state (code threadCount party point shared) := by
  cases party with
  | thread index =>
      cases point with
      | threadLoop at_ =>
          cases at_ <;> simp only [code, threadLoop]
          case lock => simp [inside] at within
          all_goals (try split) <;> trivial
      | followerLoop at_ callers =>
          cases at_ <;> simp only [code, followerLoop]
          case blocked => simp [inside] at within
          all_goals (try split) <;> trivial
      | leaderLoop at_ callers =>
          cases at_ <;> simp only [code, leaderLoop]
          case blocked | lock => simp [inside] at within
          case front =>
            split
            · rename_i queue
              exact absurd queue asserted
            · trivial
          all_goals (try split) <;> trivial
      | finished => simp [inside] at within
      | submit | destructor => simp [belongs] at own
  | submit call =>
      cases point with
      | submit task at_ =>
          cases at_ <;> simp only [code, submit]
          case lock | thrown | relock | done => simp [inside] at within
          all_goals (try split) <;> trivial
      | _ => simp [belongs] at own
  | destructor =>
      cases point with
      | destructor at_ =>
          cases at_ <;> simp only [code, destructor]
          case lock | join | done => simp [inside] at within
          all_goals trivial
      | _ => simp [belongs] at own

/-- A thread without the mutex needs nothing else, unless it is finished. -/
theorem ready_of_outside {index : ℕ} {point : PoolPoint Job} {shared : PoolShared Job}
    (own : belongs (.thread index) point = true) (running : point ≠ .finished)
    (outside : inside point = false) (free : state.owner = none) :
    Monitor.Ready (code threadCount) state (code threadCount (.thread index) point shared) := by
  cases point with
  | threadLoop at_ =>
      cases at_ with
      | lock => exact free
      | _ => simp [inside] at outside
  | followerLoop at_ callers =>
      cases at_ with
      | blocked => exact free
      | _ => simp [inside] at outside
  | leaderLoop at_ callers =>
      cases at_ with
      | blocked | lock => exact free
      | deal | dealing => trivial
      | _ => simp [inside] at outside
  | finished => exact absurd rfl running
  | submit | destructor => simp [belongs] at own

/-- The party whose turn it is to go on before the destructor can return. -/
def Pending (threadCount : ℕ) (state : PoolState Job) (party : PoolParty) : Prop :=
  state.owner = some party ∨
    state.owner = none ∧ (party = .destructor ∨ ∃ index < threadCount, party = .thread index)

theorem Orderly.goesOn (orderly : Orderly threadCount state)
    (stopping : state.shared.stopping = true)
    (alive : state.point .destructor ≠ .destructor .done) :
    ∃ party woken next, Pending threadCount state party ∧
      (machine threadCount).step state (.run party woken) = some next := by
  cases owner : state.owner with
  | some party =>
      have within := (orderly.guarded.exclusive party).mp owner
      rcases Monitor.exists_step (awake_of_inside orderly.guarded within)
        (ready_of_inside (orderly.belongs party) (orderly.guarded.asserted party) within) with
        ⟨woken, next, stepped⟩
      exact ⟨party, woken, next, Or.inl owner, stepped⟩
  | none =>
      have outside (party : PoolParty) : inside (state.point party) = false := by
        by_contra within
        rw [Bool.not_eq_false] at within
        have owns := (orderly.guarded.exclusive party).mpr within
        simp [owner] at owns
      have flag := orderly.stopped.flag
      have own := orderly.belongs .destructor
      have released := outside .destructor
      rw [stopping] at flag
      cases point : state.point .destructor with
      | destructor at_ =>
          rw [point] at flag released alive
          cases at_ with
          | join index =>
              have awake (party : PoolParty) : state.isBlocked party = false := by
                by_contra blocked
                rw [Bool.not_eq_false] at blocked
                rcases isBlocked_iff.mp blocked with ⟨cv, waiting⟩
                refine orderly.stopped.woken cv ?_ party waiting
                rw [point]
                cases cv <;> rfl
              by_cases waits : index < threadCount ∧ state.point (.thread index) ≠ .finished
              · rcases Monitor.exists_step (awake (.thread index))
                  (ready_of_outside (orderly.belongs _) waits.2 (outside _) owner) with
                  ⟨woken, next, stepped⟩
                exact ⟨.thread index, woken, next,
                  Or.inr ⟨owner, Or.inr ⟨index, waits.1, rfl⟩⟩, stepped⟩
              · have ready : Monitor.Ready (code threadCount) state
                    (code threadCount .destructor (state.point .destructor) state.shared) := by
                  rw [point]
                  simp only [code, destructor]
                  split
                  · rename_i within
                    have finished : state.point (.thread index) = .finished := by
                      by_contra running
                      exact waits ⟨within, running⟩
                    simp [Monitor.Ready, finished, code, Monitor.Stmt.isHalt]
                  · trivial
                rcases Monitor.exists_step (awake .destructor) ready with ⟨woken, next, stepped⟩
                exact ⟨.destructor, woken, next, Or.inr ⟨owner, Or.inl rfl⟩, stepped⟩
          | done => exact absurd rfl alive
          | lock | stop => simp [hasStopped] at flag
          | notifyTask | notifyFollower | unlock => simp [inside] at released
      | _ => simp [point, PoolThreads.belongs] at own

end Run

/-! ## After the destructor has begun -/

/-- How a pool ends that was stopping in one state and has come to the other. -/
structure ShutsDown (threadCount : ℕ) (state final : PoolState Job)
    (labels : List (Monitor.Label PoolParty)) : Prop where
  closed : Closed state.shared final.shared
  turns : ∀ party, Monitor.turns party labels + remaining threadCount (final.point party) ≤
    remaining threadCount (state.point party)
  goesOn : final.point .destructor ≠ .destructor .done →
    ∃ party woken next, Pending threadCount final party ∧
      (machine threadCount).step final (.run party woken) = some next
  joined : final.point .destructor = .destructor .done →
    ∀ index, final.point (.thread index) = .finished ∧
      ofThread index final.shared.dealt = ofThread index final.shared.dequeued

/-- However the statements interleave once the pool is stopping: no task is pushed or taken any
more, each party performs a bounded number of statements, one of them can go on until the
destructor returns, and then the threads are finished and have dealt with what they took. -/
theorem shutsDown {threadCount : ℕ} {tasks : ℕ → Job} {state final : PoolState Job}
    {labels : List (Monitor.Label PoolParty)}
    (reached : (machine threadCount).Reaches (start threadCount tasks) state)
    (stopping : state.shared.stopping = true)
    (continued : (machine threadCount).run state labels = some final) :
    ShutsDown threadCount state final labels := by
  have orderly := (orderly_of_run reached).1
  have accounted := (orderly_of_run (reached.trans ⟨labels, continued⟩)).2
  rcases orderly.closed_of_run stopping continued with ⟨still, closed⟩
  refine ⟨closed, orderly.turns_le stopping continued, still.goesOn closed.stopping, ?_⟩
  intro done index
  have finished : final.point (.thread index) = .finished := by
    by_cases within : index < threadCount
    · apply still.stopped.joined index
      rw [done]
      exact within
    · exact still.beyond index (Nat.le_of_not_lt within)
  have hands := accounted.hands index
  rw [finished] at hands
  exact ⟨finished, by simpa [inHand] using hands.symm⟩

/-- A thread passes the first of two tasks to `dealData`, and the destructor sets `stopping`. -/
def stopsEarly : List (Monitor.Label PoolParty) :=
  List.replicate 6 (.run (.thread 0) none) ++ List.replicate 6 (.run (.submit 0) none) ++
    [.run (.submit 0) (some (.thread 0)), .run (.submit 0) none] ++
      List.replicate 4 (.run (.submit 1) none) ++ List.replicate 9 (.run (.thread 0) none) ++
        List.replicate 2 (.run .destructor none)

/-- The thread comes back and the destructor returns. -/
def returns : List (Monitor.Label PoolParty) :=
  List.replicate 3 (.run .destructor none) ++ List.replicate 7 (.run (.thread 0) none) ++
    List.replicate 2 (.run .destructor none)

theorem shutsDown_early : ∃ state final,
    (machine 1).run (start 1 fun call => call) stopsEarly = some state ∧
      (machine 1).run state returns = some final ∧
        final.point .destructor = .destructor .done ∧ final.shared.taskQueueData = [1] ∧
          ShutsDown 1 state final returns := by
  have evaluated : (((machine 1).run (start 1 fun call => call) stopsEarly).any fun state =>
      decide (state.shared.stopping = true) &&
        ((machine 1).run state returns).any fun final =>
          final.point .destructor = .destructor .done ∧ final.shared.taskQueueData = [1]) =
      true := by
    decide +kernel
  rcases (Option.any_eq_true _ _).mp evaluated with ⟨state, reached, rest⟩
  rcases (Bool.and_eq_true _ _).mp rest with ⟨stopping, ends⟩
  rcases (Option.any_eq_true _ _).mp ends with ⟨final, continued, shape⟩
  simp only [decide_eq_true_eq] at stopping shape
  exact ⟨state, final, reached, continued, shape.1, shape.2,
    shutsDown ⟨stopsEarly, reached⟩ stopping continued⟩

end PoolThreads

end InstanceMessage
