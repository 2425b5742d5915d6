import InstanceMessage.Server.PoolTasks

/-!
# What holds of the parties of the pool

Besides what the threads establish for themselves, `submit` and the destructor
establish facts under `mtx` on which they rely later. The destructor sets
`stopping` once and for all; from then on no thread begins to wait, so that its
notifications leave no thread waiting, and it goes on past a thread only when
that thread is finished.
-/

namespace InstanceMessage

open Library

namespace PoolThreads

variable {Job : Type}

/-! ## Under the mutex -/

def belongs : PoolParty → PoolPoint Job → Bool
  | .thread _, .threadLoop _ | .thread _, .followerLoop _ _ | .thread _, .leaderLoop _ _ => true
  | .thread _, .finished => true
  | .submit _, .submit _ _ => true
  | .destructor, .destructor _ => true
  | _, _ => false

/-- What the parties have established, beyond what leads a thread to its point. -/
def granted : PoolPoint Job → PoolShared Job → Prop
  | .leaderLoop .front _, shared | .leaderLoop (.pop _) _, shared => shared.stopping = false
  | .submit _ .push, shared => shared.stopping = false
  | .submit _ .notifyTask, shared => shared.leaderExists = true
  | .submit _ .notifyFollower, shared => shared.leaderExists = false
  | .destructor .notifyTask, shared | .destructor .notifyFollower, shared =>
      shared.stopping = true
  | _, _ => True

theorem granted_returned (callers : List LoopCall) (shared : PoolShared Job) :
    granted (.returned callers) shared := by
  rcases callers with _ | ⟨call, callers⟩
  · trivial
  · cases call <;> trivial

theorem belongs_returned (index : ℕ) (callers : List LoopCall) :
    belongs (.thread index) (.returned callers : PoolPoint Job) = true := by
  rcases callers with _ | ⟨call, callers⟩
  · rfl
  · cases call <;> rfl

section Granted

variable {threadCount : ℕ} {party : PoolParty} {point target : PoolPoint Job}
  {shared : PoolShared Job}

theorem belongs_of_next (goes : (code threadCount party point shared).next = some target) :
    belongs party target = true := by
  cases party with
  | thread index =>
      cases point with
      | threadLoop at_ =>
          cases at_ <;> simp only [code, threadLoop] at goes
          all_goals (try split at goes) <;> rcases Option.some.inj goes with rfl <;> rfl
      | followerLoop at_ callers =>
          cases at_ <;> simp only [code, followerLoop] at goes
          case ret =>
            rcases Option.some.inj goes with rfl
            exact belongs_returned index callers
          all_goals (try split at goes) <;> rcases Option.some.inj goes with rfl <;> rfl
      | leaderLoop at_ callers =>
          cases at_ <;> simp only [code, leaderLoop] at goes
          case ret =>
            rcases Option.some.inj goes with rfl
            exact belongs_returned index callers
          case front =>
            split at goes
            · simp [Monitor.Stmt.next] at goes
            · rcases Option.some.inj goes with rfl
              rfl
          all_goals (try split at goes) <;> rcases Option.some.inj goes with rfl <;> rfl
      | finished | submit | destructor => simp [code, Monitor.Stmt.next] at goes
  | submit call =>
      cases point with
      | submit task at_ =>
          cases at_ <;> simp only [code, submit] at goes
          case thrown | done => simp [Monitor.Stmt.next] at goes
          all_goals (try split at goes) <;> rcases Option.some.inj goes with rfl <;> rfl
      | _ => simp [code, Monitor.Stmt.next] at goes
  | destructor =>
      cases point with
      | destructor at_ =>
          cases at_ <;> simp only [code, destructor] at goes
          case done => simp [Monitor.Stmt.next] at goes
          all_goals (try split at goes) <;> rcases Option.some.inj goes with rfl <;> rfl
      | _ => simp [code, Monitor.Stmt.next] at goes

theorem granted_of_next (holds : granted point shared)
    (goes : (code threadCount party point shared).next = some target) :
    granted target ((code threadCount party point shared).after shared) := by
  cases party with
  | thread index =>
      cases point with
      | threadLoop at_ =>
          cases at_ <;> simp only [code, threadLoop] at goes
          all_goals (try split at goes) <;> rcases Option.some.inj goes with rfl <;> trivial
      | followerLoop at_ callers =>
          cases at_ <;> simp only [code, followerLoop] at goes
          case ret =>
            rcases Option.some.inj goes with rfl
            exact granted_returned callers _
          all_goals (try split at goes) <;> rcases Option.some.inj goes with rfl <;> trivial
      | leaderLoop at_ callers =>
          cases at_ with
          | ret =>
              rcases Option.some.inj goes with rfl
              exact granted_returned callers _
          | test =>
              simp only [code, leaderLoop] at goes ⊢
              split at goes <;> rcases Option.some.inj goes with rfl
              · trivial
              · rename_i running
                simp [running, granted, Monitor.Stmt.after]
          | front =>
              simp only [code, leaderLoop] at goes ⊢
              split at goes
              · simp [Monitor.Stmt.next] at goes
              · rename_i task rest queue
                rcases Option.some.inj goes with rfl
                exact holds
          | head | predicate =>
              simp only [code, leaderLoop] at goes
              split at goes <;> rcases Option.some.inj goes with rfl <;> trivial
          | _ => rcases Option.some.inj goes with rfl; trivial
      | finished | submit | destructor => simp [code, Monitor.Stmt.next] at goes
  | destructor =>
      cases point with
      | destructor at_ =>
          cases at_ with
          | join index =>
              simp only [code, destructor] at goes ⊢
              split at goes <;> rcases Option.some.inj goes with rfl <;> trivial
          | done => simp [code, destructor, Monitor.Stmt.next] at goes
          | notifyTask => rcases Option.some.inj goes with rfl; exact holds
          | stop => rcases Option.some.inj goes with rfl; rfl
          | _ => rcases Option.some.inj goes with rfl; trivial
      | _ => simp [code, Monitor.Stmt.next] at goes
  | submit call =>
      cases point with
      | submit task at_ =>
          cases at_ with
          | test =>
              simp only [code, submit] at goes ⊢
              split at goes <;> rcases Option.some.inj goes with rfl
              · trivial
              · rename_i running
                simp [running, granted, Monitor.Stmt.after]
          | branch =>
              simp only [code, submit] at goes ⊢
              split at goes <;> rcases Option.some.inj goes with rfl
              · rename_i exists_
                simp [exists_, granted, Monitor.Stmt.after]
              · rename_i vacant
                simp [vacant, granted, Monitor.Stmt.after]
          | thrown | done => simp [code, submit, Monitor.Stmt.next] at goes
          | _ => rcases Option.some.inj goes with rfl; trivial
      | _ => simp [code, Monitor.Stmt.next] at goes

theorem granted_outside (point : PoolPoint Job) (shared : PoolShared Job)
    (outside : inside point = false) : granted point shared := by
  cases point with
  | leaderLoop at_ callers => cases at_ <;> simp_all [inside, granted]
  | submit task at_ => cases at_ <;> simp_all [inside, granted]
  | destructor at_ => cases at_ <;> simp_all [inside, granted]
  | _ => trivial

theorem granted_congr (point : PoolPoint Job) (shared : PoolShared Job) (dealt : List (ℕ × Job)) :
    granted point { shared with dealt := dealt } ↔ granted point shared := by
  cases point with
  | leaderLoop at_ callers => cases at_ <;> rfl
  | submit task at_ => cases at_ <;> rfl
  | destructor at_ => cases at_ <;> rfl
  | _ => rfl

end Granted

/-! ## The destructor -/

def hasStopped : PoolPoint Job → Bool
  | .destructor .lock | .destructor .stop => false
  | .destructor _ => true
  | _ => false

def hasWoken : PoolCv → PoolPoint Job → Bool
  | .taskCv, .destructor .notifyFollower => true
  | _, .destructor .unlock | _, .destructor (.join _) | _, .destructor .done => true
  | _, _ => false

/-- The thread is one past which the destructor has gone. -/
def hasJoined (threadCount : ℕ) : PoolPoint Job → ℕ → Prop
  | .destructor (.join index), other => other < index
  | .destructor .done, other => other < threadCount
  | _, _ => False

/-- What the destructor has done. -/
structure Stopped (threadCount : ℕ) (state : PoolState Job) : Prop where
  flag : state.shared.stopping = hasStopped (state.point .destructor)
  woken : ∀ cv, hasWoken cv (state.point .destructor) = true →
    ∀ party, (party, cv) ∉ state.waiting
  joined : ∀ index, hasJoined threadCount (state.point .destructor) index →
    state.point (.thread index) = .finished

theorem stopped_start (threadCount : ℕ) (tasks : ℕ → Job) :
    Stopped threadCount (start threadCount tasks) where
  flag := rfl
  woken := by simp [start]
  joined := fun _ joined => joined.elim

theorem hasStopped_of_hasWoken {cv : PoolCv} {point : PoolPoint Job}
    (woken : hasWoken cv point = true) : hasStopped point = true := by
  cases point with
  | destructor at_ => cases cv <;> cases at_ <;> simp_all [hasWoken, hasStopped]
  | _ => cases cv <;> simp [hasWoken] at woken

section Destructor

variable {threadCount : ℕ} {party : PoolParty} {point target : PoolPoint Job}
  {shared after : PoolShared Job} {state next : PoolState Job}

/-- A thread that finds the pool stopping does not wait. -/
theorem not_wait_of_stopping (stopping : shared.stopping = true) {cv : PoolCv} :
    code threadCount party point shared ≠ .wait cv target := by
  intro waits
  cases party with
  | thread index =>
      cases point with
      | threadLoop at_ =>
          cases at_ <;> simp only [code, threadLoop] at waits
          all_goals (try split at waits) <;> simp at waits
      | followerLoop at_ callers =>
          cases at_ <;> simp only [code, followerLoop, stopping] at waits
          all_goals (try split at waits) <;> simp_all
      | leaderLoop at_ callers =>
          cases at_ <;> simp only [code, leaderLoop, stopping] at waits
          all_goals (try split at waits) <;> simp_all
      | _ => simp [code] at waits
  | submit call =>
      cases point with
      | submit task at_ =>
          cases at_ <;> simp only [code, submit] at waits
          all_goals (try split at waits) <;> simp at waits
      | _ => simp [code] at waits
  | destructor =>
      cases point with
      | destructor at_ =>
          cases at_ <;> simp only [code, destructor] at waits
          all_goals (try split at waits) <;> simp at waits
      | _ => simp [code] at waits

theorem stopping_of_moves {from_ : PoolPoint Job} (other : party ≠ .destructor)
    (moves : Moves party from_ shared target after) : after.stopping = shared.stopping := by
  cases moves with
  | stop => exact absurd rfl other
  | _ => rfl

theorem finished_of_isHalt {index : ℕ} (own : belongs (.thread index) point = true)
    (asserted : assertion point shared)
    (halts : (code threadCount (.thread index) point shared).isHalt = true) :
    point = .finished := by
  cases point with
  | finished => rfl
  | threadLoop at_ =>
      cases at_ <;> simp only [code, threadLoop] at halts
      all_goals (try split at halts) <;> simp [Monitor.Stmt.isHalt] at halts
  | followerLoop at_ callers =>
      cases at_ <;> simp only [code, followerLoop] at halts
      all_goals (try split at halts) <;> simp [Monitor.Stmt.isHalt] at halts
  | leaderLoop at_ callers =>
      cases at_ <;> simp only [code, leaderLoop] at halts
      case front =>
        split at halts
        · rename_i queue
          exact absurd queue asserted
        · simp [Monitor.Stmt.isHalt] at halts
      all_goals (try split at halts) <;> simp [Monitor.Stmt.isHalt] at halts
  | submit | destructor => simp [belongs] at own

theorem next_of_finished {index : ℕ} (finished : point = .finished) :
    (code threadCount (.thread index) point shared).next = none := by
  rw [finished]
  rfl

/-- What the others do leaves the work of the destructor done. -/
theorem Stopped.other {woken : Option PoolParty} (stopped : Stopped threadCount state)
    (guarded : Guarded state) (other : party ≠ .destructor)
    (stepped : (machine threadCount).step state (.run party woken) = some next) :
    Stopped threadCount next := by
  rcases Monitor.effect_of_run stepped with ⟨target, goes, point, shared, waits⟩
  have destructor : next.point .destructor = state.point .destructor := by
    rw [point, Function.update_of_ne other.symm]
  have flag : next.shared.stopping = state.shared.stopping := by
    rw [shared]
    exact stopping_of_moves other (moves_of_next (guarded.asserted party) goes)
  refine ⟨?_, fun cv woke party waiting => ?_, fun index joined => ?_⟩
  · rw [flag, destructor]
    exact stopped.flag
  · rw [destructor] at woke
    rcases waits with fewer | ⟨_, waits, _, _⟩
    · exact stopped.woken cv woke party (fewer.subset waiting)
    · have stopping := stopped.flag.trans (hasStopped_of_hasWoken woke)
      exact not_wait_of_stopping stopping waits
  · rw [destructor] at joined
    have finished := stopped.joined index joined
    have still : .thread index ≠ party := by
      rintro rfl
      rw [next_of_finished finished] at goes
      exact Option.some_ne_none _ goes.symm
    rw [point, Function.update_of_ne still, finished]

theorem Stopped.destructor {woken : Option PoolParty} (stopped : Stopped threadCount state)
    (own : belongs .destructor (state.point .destructor) = true)
    (belongs : ∀ index, belongs (.thread index) (state.point (.thread index)) = true)
    (asserted : ∀ index, assertion (state.point (.thread index)) state.shared)
    (stepped : (machine threadCount).step state (.run .destructor woken) = some next) :
    Stopped threadCount next := by
  rcases stopped with ⟨flag, woke, joined⟩
  simp only [machine, Monitor.machine, Monitor.State.step] at stepped
  split at stepped
  · simp at stepped
  · cases point : state.point .destructor with
    | destructor at_ =>
        rw [point] at stepped flag woke joined
        cases at_ with
        | lock =>
            rcases Option.ite_none_right_eq_some.mp stepped with ⟨_, same⟩
            rcases Option.some.inj same with rfl
            exact ⟨flag, fun cv woke => by simp [Monitor.State.goTo, hasWoken] at woke,
              fun index joined => by simp [Monitor.State.goTo, hasJoined] at joined⟩
        | stop =>
            rcases Option.some.inj stepped with rfl
            exact ⟨rfl, fun cv woke => by simp [Monitor.State.goTo, hasWoken] at woke,
              fun index joined => by simp [Monitor.State.goTo, hasJoined] at joined⟩
        | notifyTask =>
            rcases Option.some.inj stepped with rfl
            refine ⟨flag, fun cv woke party => ?_,
              fun index joined => by simp [Monitor.State.goTo, hasJoined] at joined⟩
            cases cv with
            | taskCv => simp
            | followerCv => simp [Monitor.State.goTo, hasWoken] at woke
        | notifyFollower =>
            rcases Option.some.inj stepped with rfl
            refine ⟨flag, fun cv _ party => ?_,
              fun index joined => by simp [Monitor.State.goTo, hasJoined] at joined⟩
            cases cv with
            | taskCv => simp [woke .taskCv rfl party]
            | followerCv => simp
        | unlock =>
            rcases Option.some.inj stepped with rfl
            exact ⟨flag, fun cv _ => woke cv (by cases cv <;> rfl),
              fun index joined => absurd joined (Nat.not_lt_zero index)⟩
        | join index =>
            simp only [code, PoolThreads.destructor] at stepped
            split at stepped
            · rcases Option.ite_none_right_eq_some.mp stepped with ⟨ended, same⟩
              rcases Option.some.inj same with rfl
              refine ⟨flag, fun cv _ => woke cv (by cases cv <;> rfl), fun other joins => ?_⟩
              rcases Nat.lt_succ_iff_lt_or_eq.mp joins with before | rfl
              · exact joined other before
              · exact finished_of_isHalt (belongs other) (asserted other) ended
            · rename_i past
              rcases Option.some.inj stepped with rfl
              refine ⟨flag, fun cv _ => woke cv (by cases cv <;> rfl), fun other joins => ?_⟩
              exact joined other (Nat.lt_of_lt_of_le joins (Nat.le_of_not_lt past))
        | done => simp [code, PoolThreads.destructor, Monitor.State.perform] at stepped
    | _ => simp [point, PoolThreads.belongs] at own

end Destructor

/-! ## Every run -/

/-- What holds of the parties in every run. -/
structure Orderly (threadCount : ℕ) (state : PoolState Job) : Prop where
  guarded : Guarded state
  granted : Monitor.Asserted granted state
  belongs : ∀ party, belongs party (state.point party) = true
  beyond : ∀ index ≥ threadCount, state.point (.thread index) = .finished
  once : Monitor.WaitsOnce state
  stopped : Stopped threadCount state

theorem orderly_start (threadCount : ℕ) (tasks : ℕ → Job) :
    Orderly threadCount (start threadCount tasks) where
  guarded := guarded_start threadCount tasks
  granted := fun party => granted_outside _ _ (by
    have free := exclusive_start threadCount tasks party
    simpa [start] using free)
  belongs := by
    intro party
    cases party with
    | thread index =>
        simp only [start]
        split <;> rfl
    | submit | destructor => rfl
  beyond := fun index beyond => by simp [start, beyond]
  once := by simp [Monitor.WaitsOnce, start]
  stopped := stopped_start threadCount tasks

theorem isBlocked_iff {state : PoolState Job} {party : PoolParty} :
    state.isBlocked party = true ↔ ∃ cv, (party, cv) ∈ state.waiting := by
  simp [Monitor.State.isBlocked]

section Orderly

variable {threadCount : ℕ}

theorem Stopped.step {state next : PoolState Job} {label : Monitor.Label PoolParty}
    (stopped : Stopped threadCount state) (guarded : Guarded state)
    (belongs : ∀ party, belongs party (state.point party) = true)
    (stepped : (machine threadCount).step state label = some next) :
    Stopped threadCount next := by
  cases label with
  | spurious other =>
      rcases Option.some.inj stepped with rfl
      exact ⟨stopped.flag, fun cv woke party waiting =>
        stopped.woken cv woke party (List.mem_of_mem_filter waiting), stopped.joined⟩
  | run party woken =>
      by_cases same : party = .destructor
      · subst same
        exact stopped.destructor (belongs .destructor) (fun index => belongs (.thread index))
          (fun index => guarded.asserted (.thread index)) stepped
      · exact stopped.other guarded same stepped

theorem Orderly.step {state next : PoolState Job} {label : Monitor.Label PoolParty}
    (orderly : Orderly threadCount state)
    (stepped : (machine threadCount).step state label = some next) :
    Orderly threadCount next := by
  have moved := Monitor.stepped_of_step stepped
  refine ⟨orderly.guarded.step stepped, ?_, ?_, ?_, orderly.once.step stepped,
    orderly.stopped.step orderly.guarded orderly.belongs stepped⟩
  · apply orderly.granted.step orderly.guarded.exclusive granted_outside
      (fun _ _ _ _ => granted_of_next) ?_ moved
    intro party point shared other outside granted
    rcases after_outside threadCount party shared outside with ⟨dealt, same⟩
    rw [same]
    exact (granted_congr other shared dealt).mpr granted
  · intro other
    rcases moved.moves with ⟨point, _⟩ | ⟨party, target, goes, point, _⟩
    · rw [point]
      exact orderly.belongs other
    · rw [point]
      by_cases same : other = party
      · rw [same, Function.update_self]
        exact belongs_of_next goes
      · rw [Function.update_of_ne same]
        exact orderly.belongs other
  · intro index beyond
    rcases moved.moves with ⟨point, _⟩ | ⟨party, target, goes, point, _⟩
    · rw [point]
      exact orderly.beyond index beyond
    · rw [point]
      by_cases same : .thread index = party
      · subst same
        rw [orderly.beyond index beyond] at goes
        simp [code, Monitor.Stmt.next] at goes
      · rw [Function.update_of_ne same]
        exact orderly.beyond index beyond

/-- Only a thread of the pool waits, and it waits where its point says. -/
theorem Orderly.waits {state : PoolState Job} (orderly : Orderly threadCount state)
    {party : PoolParty} {cv : PoolCv} (waiting : (party, cv) ∈ state.waiting) :
    ∃ index < threadCount, party = .thread index ∧
      blockedOn cv (state.point (.thread index)) := by
  have blocked := orderly.guarded.waits party cv waiting
  have own := orderly.belongs party
  cases party with
  | thread index =>
      refine ⟨index, ?_, rfl, blocked⟩
      by_contra beyond
      rw [orderly.beyond index (Nat.le_of_not_lt beyond)] at blocked
      cases cv <;> rcases blocked with ⟨callers, same⟩ <;> simp at same
  | submit | destructor =>
      cases cv <;> rcases blocked with ⟨callers, same⟩ <;> simp [same, PoolThreads.belongs] at own

theorem orderly_of_run {tasks : ℕ → Job} {state : PoolState Job}
    (reached : (machine threadCount).Reaches (start threadCount tasks) state) :
    Orderly threadCount state ∧ Accounted tasks state.point state.shared := by
  rcases reached with ⟨labels, run⟩
  refine ⟨(machine threadCount).run_invariant_of_step (Orderly threadCount)
    (fun orderly stepped => orderly.step stepped) (orderly_start threadCount tasks) run, ?_⟩
  exact (invariant_of_run (Accounted tasks) (accounted_start threadCount tasks)
    (fun _ _ _ _ _ _ accounted at_ moves => accounted.moves at_ moves) run).2

end Orderly

end PoolThreads

end InstanceMessage
