import InstanceMessage.Server.PoolTasks

/-!
# One leader

`leader_exists` is set by the thread that becomes the leader and cleared by the
same thread, so a thread that leads finds it set, and no two threads lead. While
the pool is not stopping, a leader leaves only by clearing it. As the leader is
the only thread in the wait on `task_cv`, a notification there cannot go astray.
-/

namespace InstanceMessage

open Library

namespace PoolThreads

variable {Job : Type}

/-- The flag, with the points of the parties. -/
structure Led (point : PoolParty → PoolPoint Job) (shared : PoolShared Job) : Prop where
  thread : ∀ party, leads (point party) = true → ∃ index, party = .thread index
  flagged : ∀ party, leads (point party) = true → shared.leaderExists = true
  single : ∀ party other, leads (point party) = true → leads (point other) = true → party = other
  filled : shared.stopping = false → shared.leaderExists = true →
    ∃ party, leads (point party) = true

theorem led_start (threadCount : ℕ) (tasks : ℕ → Job) :
    Led (start threadCount tasks).point {} := by
  have nobody (party : PoolParty) : leads ((start threadCount tasks).point party) = false := by
    cases party with
    | thread index =>
        simp only [start]
        split <;> rfl
    | submit | destructor => rfl
  refine ⟨?_, ?_, ?_, fun _ exists_ => by simp at exists_⟩
  all_goals simp [nobody]

section Moves

variable {point : PoolParty → PoolPoint Job} {shared after : PoolShared Job} {party : PoolParty}
  {target : PoolPoint Job}

/-- Nobody becomes the leader, and the leader does not leave. -/
theorem Led.keep (led : Led point shared) (role : leads target = leads (point party))
    (exists_ : after.leaderExists = shared.leaderExists)
    (stopping : after.stopping = false → shared.stopping = false) :
    Led (Function.update point party target) after := by
  have same (other : PoolParty) :
      leads (Function.update point party target other) = leads (point other) :=
    update_congr leads role other
  refine ⟨?_, ?_, ?_, ?_⟩
  · intro other leading
    rw [same] at leading
    exact led.thread other leading
  · intro other leading
    rw [same] at leading
    rw [exists_]
    exact led.flagged other leading
  · intro first second leading also
    rw [same] at leading also
    exact led.single first second leading also
  · intro running flag
    rcases led.filled (stopping running) (exists_ ▸ flag) with ⟨other, leading⟩
    exact ⟨other, (same other).trans leading⟩

/-- A thread does not lead any more, while the pool is stopping. -/
theorem Led.leave (led : Led point shared) (role : leads target = false)
    (stopping : shared.stopping = true) : Led (Function.update point party target) shared := by
  have before {other : PoolParty}
      (leading : leads (Function.update point party target other) = true) :
      leads (point other) = true := by
    by_cases moved : other = party
    · simp [moved, role] at leading
    · rwa [Function.update_of_ne moved] at leading
  refine ⟨fun other leading => led.thread other (before leading),
    fun other leading => led.flagged other (before leading),
    fun first second leading also => led.single first second (before leading) (before also), ?_⟩
  intro running
  simp [stopping] at running

theorem Led.moves (led : Led point shared) {from_ : PoolPoint Job} (at_ : point party = from_)
    (moves : Moves party from_ shared target after) :
    Led (Function.update point party target) after := by
  cases moves with
  | plain keeps role =>
      rcases role with same | ⟨leaves, stopping⟩
      · exact led.keep (by rw [at_, same]) rfl id
      · exact led.leave leaves stopping
  | @elect index from_ target shared keeps vacant role =>
      have nobody (other : PoolParty) : leads (point other) ≠ true := by
        intro leading
        simp [led.flagged other leading] at vacant
      have only {other : PoolParty}
          (leading : leads (Function.update point (.thread index) target other) = true) :
          other = .thread index := by
        by_contra moved
        rw [Function.update_of_ne moved] at leading
        exact nobody other leading
      refine ⟨fun other leading => ⟨index, only leading⟩, fun _ _ => rfl,
        fun first second leading also => (only leading).trans (only also).symm, ?_⟩
      intro _ _
      exact ⟨.thread index, by rw [Function.update_self, role]⟩
  | take => exact led.keep (by rw [at_]; rfl) rfl id
  | @resign index task callers shared =>
      have nobody (other : PoolParty) :
          leads (Function.update point (.thread index) (.leaderLoop (.notify task) callers) other) ≠
            true := by
        by_cases moved : other = .thread index
        · simp [moved, leads]
        · rw [Function.update_of_ne moved]
          intro leading
          exact moved (led.single other _ leading (by rw [at_]; rfl))
      refine ⟨?_, ?_, ?_, ?_⟩
      · exact fun other leading => absurd leading (nobody other)
      · exact fun other leading => absurd leading (nobody other)
      · exact fun other _ leading => absurd leading (nobody other)
      · exact fun _ flag => by simp at flag
  | deal | push => exact led.keep (by rw [at_]; rfl) rfl id
  | stop => exact led.keep (by rw [at_]; rfl) rfl fun running => by simp at running

end Moves

theorem leads_of_blockedOn {point : PoolPoint Job} (blocked : blockedOn .taskCv point) :
    leads point = true := by
  rcases blocked with ⟨callers, rfl⟩
  rfl

/-- While the pool is not stopping, `leader_exists` says whether one thread leads or none does. At
most one party waits on `task_cv`, and a notification there goes to the leader. -/
theorem one_leader {threadCount : ℕ} {tasks : ℕ → Job} {final : PoolState Job}
    {labels : List (Monitor.Label PoolParty)}
    (reached : (machine threadCount).run (start threadCount tasks) labels = some final) :
    (final.shared.stopping = false →
      (final.shared.leaderExists = true ↔
        ∃! index, leads (final.point (.thread index)) = true) ∧
      (final.shared.leaderExists = false → ∀ index, leads (final.point (.thread index)) = false)) ∧
    (∀ party other, (party, .taskCv) ∈ final.waiting → (other, .taskCv) ∈ final.waiting →
      party = other) ∧
    ∀ party woken target next,
      code threadCount party (final.point party) final.shared = .notifyOne .taskCv target →
        (machine threadCount).step final (.run party (some woken)) = some next →
          ∃ index, woken = .thread index ∧ leads (final.point woken) = true := by
  rcases invariant_of_run Led (led_start threadCount tasks)
    (fun _ _ _ _ _ _ led at_ moves => led.moves at_ moves) reached with ⟨guarded, led⟩
  have waits (party : PoolParty) (waiting : (party, .taskCv) ∈ final.waiting) :
      leads (final.point party) = true :=
    leads_of_blockedOn (guarded.waits party .taskCv waiting)
  refine ⟨fun running => ⟨⟨fun flag => ?_, ?_⟩, ?_⟩, ?_, ?_⟩
  · rcases led.filled running flag with ⟨party, leading⟩
    rcases led.thread party leading with ⟨index, rfl⟩
    refine ⟨index, leading, fun other also => ?_⟩
    exact PoolParty.thread.inj (led.single _ _ also leading)
  · rintro ⟨index, leading, _⟩
    exact led.flagged _ leading
  · intro vacant index
    apply Bool.eq_false_iff.mpr
    intro leading
    simp [led.flagged _ leading] at vacant
  · intro party other waiting also
    exact led.single party other (waits party waiting) (waits other also)
  · intro party woken target next notifies stepped
    have leading := waits woken (Monitor.waited_of_notifyOne notifies stepped)
    rcases led.thread woken leading with ⟨index, rfl⟩
    exact ⟨index, rfl, leading⟩

/-- The second thread becomes the leader. -/
theorem one_leader_first : ∃ final,
    (machine 2).run (start 2 fun call => call)
        (firstTask ++ List.replicate 4 (.run (.thread 1) none)) = some final ∧
      final.shared.leaderExists = true ∧
        ∃! index, leads (final.point (.thread index)) = true := by
  have evaluated : ((machine 2).run (start 2 fun call => call)
      (firstTask ++ List.replicate 4 (.run (.thread 1) none))).any (fun final =>
        final.shared.leaderExists = true ∧ final.shared.stopping = false) = true := by
    decide +kernel
  rcases (Option.any_eq_true _ _).mp evaluated with ⟨final, reached, shape⟩
  simp only [decide_eq_true_eq] at shape
  exact ⟨final, reached, shape.1, ((one_leader reached).1 shape.2).1.mp shape.1⟩

end PoolThreads

end InstanceMessage
