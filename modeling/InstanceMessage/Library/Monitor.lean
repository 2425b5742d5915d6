import InstanceMessage.Library.Machine
import Mathlib.Logic.Function.Basic

/-!
# Programs with a mutex and condition variables

Parties run programs over a shared state, one statement at a time and in any
order. There is one mutex; a party that waits on a condition variable gives it
back, and takes it again after a notification or a spurious wakeup.

Two rules cover most of what is true of such programs. When every statement
agrees with a marking of the program points that lie between taking the mutex
and giving it back, the owner of the mutex is the party at a marked point
(`Exclusive`). An assertion about the shared state holds at a marked point when
the statements of its own party lead to it, because the statements that other
parties perform without the mutex are the only ones that can interfere
(`Asserted`).
-/

namespace Library

namespace Monitor

universe u v w x

/-- What a party does at a program point. -/
inductive Stmt (Party : Type u) (Cv : Type v) (Point : Type w) (Shared : Type x)
  | lock (next : Point)
  | unlock (next : Point)
  | assign (shared : Shared) (next : Point)
  /-- Gives the mutex back; at the next point the party is to take it again. -/
  | wait (cv : Cv) (next : Point)
  | notifyOne (cv : Cv) (next : Point)
  | notifyAll (cv : Cv) (next : Point)
  /-- Waits for the end of another party. -/
  | join (other : Party) (next : Point)
  | halt

variable {Party : Type u} {Cv : Type v} {Point : Type w} {Shared : Type x}

namespace Stmt

def next : Stmt Party Cv Point Shared → Option Point
  | .lock next | .unlock next | .assign _ next | .wait _ next => some next
  | .notifyOne _ next | .notifyAll _ next | .join _ next => some next
  | .halt => none

/-- The shared state after the statement. -/
def after (shared : Shared) : Stmt Party Cv Point Shared → Shared
  | .assign shared _ => shared
  | _ => shared

def isHalt : Stmt Party Cv Point Shared → Bool
  | .halt => true
  | _ => false

/-- The statement takes the mutex and gives it back where the marking says so. -/
def Brackets (inside : Point → Bool) (point : Point) : Stmt Party Cv Point Shared → Prop
  | .lock next => inside point = false ∧ inside next = true
  | .unlock next | .wait _ next => inside point = true ∧ inside next = false
  | .assign _ next | .notifyOne _ next | .notifyAll _ next | .join _ next =>
      inside next = inside point
  | .halt => True

end Stmt

/-- The statement of each party at each of its program points. -/
abbrev Code (Party : Type u) (Cv : Type v) (Point : Type w) (Shared : Type x) :=
  Party → Point → Shared → Stmt Party Cv Point Shared

structure State (Party : Type u) (Cv : Type v) (Point : Type w) (Shared : Type x) where
  shared : Shared
  point : Party → Point
  owner : Option Party := none
  waiting : List (Party × Cv) := []

inductive Label (Party : Type u)
  /-- The party performs a statement; a `notifyOne` chooses a party that waits. -/
  | run (party : Party) (woken : Option Party)
  | spurious (party : Party)

variable [DecidableEq Party]

namespace State

def goTo (state : State Party Cv Point Shared) (party : Party) (next : Point) :
    State Party Cv Point Shared :=
  { state with point := Function.update state.point party next }

def isBlocked (state : State Party Cv Point Shared) (party : Party) : Bool :=
  state.waiting.any fun waits => waits.1 = party

variable [DecidableEq Cv]

def perform (code : Code Party Cv Point Shared) (state : State Party Cv Point Shared)
    (party : Party) (woken : Option Party) :
    Stmt Party Cv Point Shared → Option (State Party Cv Point Shared)
  | .lock next =>
      if state.owner = none then some { state.goTo party next with owner := some party } else none
  | .unlock next => some { state.goTo party next with owner := none }
  | .assign shared next => some { state.goTo party next with shared := shared }
  | .wait cv next =>
      some { state.goTo party next with owner := none, waiting := (party, cv) :: state.waiting }
  | .notifyOne cv next =>
      match woken with
      | some other =>
          if (other, cv) ∈ state.waiting then
            some { state.goTo party next with waiting := state.waiting.erase (other, cv) }
          else none
      | none =>
          if state.waiting.any fun waits => waits.2 = cv then none
          else some (state.goTo party next)
  | .notifyAll cv next =>
      some { state.goTo party next with waiting := state.waiting.filter (·.2 ≠ cv) }
  | .join other next =>
      if (code other (state.point other) state.shared).isHalt then some (state.goTo party next)
      else none
  | .halt => none

def step (code : Code Party Cv Point Shared) (state : State Party Cv Point Shared) :
    Label Party → Option (State Party Cv Point Shared)
  | .run party woken =>
      if state.isBlocked party then none
      else state.perform code party woken (code party (state.point party) state.shared)
  | .spurious party => some { state with waiting := state.waiting.filter (·.1 ≠ party) }

end State

def machine [DecidableEq Cv] (code : Code Party Cv Point Shared) :
    Machine (State Party Cv Point Shared) (Label Party) := ⟨State.step code⟩

/-! ## Steps -/

/-- The steps of the parties. -/
inductive Stepped (code : Code Party Cv Point Shared) (state : State Party Cv Point Shared) :
    State Party Cv Point Shared → Prop
  | lock {party : Party} {next : Point} (awake : state.isBlocked party = false)
      (stmt : code party (state.point party) state.shared = .lock next)
      (free : state.owner = none) :
      Stepped code state { state.goTo party next with owner := some party }
  | unlock {party : Party} {next : Point} (awake : state.isBlocked party = false)
      (stmt : code party (state.point party) state.shared = .unlock next) :
      Stepped code state { state.goTo party next with owner := none }
  | assign {party : Party} {next : Point} {shared : Shared} (awake : state.isBlocked party = false)
      (stmt : code party (state.point party) state.shared = .assign shared next) :
      Stepped code state { state.goTo party next with shared := shared }
  | wait {party : Party} {next : Point} {cv : Cv} (awake : state.isBlocked party = false)
      (stmt : code party (state.point party) state.shared = .wait cv next) :
      Stepped code state
        { state.goTo party next with owner := none, waiting := (party, cv) :: state.waiting }
  /-- A notification, or the end of a join. -/
  | wake {party : Party} {next : Point} {waiting : List (Party × Cv)}
      (awake : state.isBlocked party = false)
      (stmt : (∃ cv, code party (state.point party) state.shared = .notifyOne cv next) ∨
        (∃ cv, code party (state.point party) state.shared = .notifyAll cv next) ∨
          ∃ other, code party (state.point party) state.shared = .join other next)
      (fewer : waiting ⊆ state.waiting) :
      Stepped code state { state.goTo party next with waiting := waiting }
  | spurious {waiting : List (Party × Cv)} (fewer : waiting ⊆ state.waiting) :
      Stepped code state { state with waiting := waiting }

section Rules

variable {code : Code Party Cv Point Shared} {state next : State Party Cv Point Shared}

section Machine

variable [DecidableEq Cv] {label : Label Party}

theorem stepped_of_perform {party : Party} {woken : Option Party}
    {stmt : Stmt Party Cv Point Shared} (awake : state.isBlocked party = false)
    (same : code party (state.point party) state.shared = stmt)
    (performed : state.perform code party woken stmt = some next) : Stepped code state next := by
  cases stmt with
  | lock target =>
      rcases Option.ite_none_right_eq_some.mp performed with ⟨free, rest⟩
      exact Option.some.inj rest ▸ .lock awake same free
  | unlock target => exact Option.some.inj performed ▸ .unlock awake same
  | assign shared target => exact Option.some.inj performed ▸ .assign awake same
  | wait cv target => exact Option.some.inj performed ▸ .wait awake same
  | notifyOne cv target =>
      cases woken with
      | none =>
          simp only [State.perform] at performed
          split at performed
          · simp at performed
          · exact Option.some.inj performed ▸
              .wake awake (Or.inl ⟨cv, same⟩) (List.Subset.refl state.waiting)
      | some other =>
          rcases Option.ite_none_right_eq_some.mp performed with ⟨_, rest⟩
          exact Option.some.inj rest ▸ .wake awake (Or.inl ⟨cv, same⟩) List.erase_subset
  | notifyAll cv target =>
      exact Option.some.inj performed ▸
        .wake awake (Or.inr (Or.inl ⟨cv, same⟩)) (List.filter_subset_self _)
  | join other target =>
      rcases Option.ite_none_right_eq_some.mp performed with ⟨_, rest⟩
      exact Option.some.inj rest ▸
        .wake awake (Or.inr (Or.inr ⟨other, same⟩)) (List.Subset.refl state.waiting)
  | halt => simp [State.perform] at performed

theorem stepped_of_step (stepped : (machine code).step state label = some next) :
    Stepped code state next := by
  cases label with
  | run party woken =>
      simp only [machine, State.step] at stepped
      split at stepped
      · simp at stepped
      · rename_i awake
        exact stepped_of_perform (Bool.eq_false_iff.mpr awake) rfl stepped
  | spurious party => exact Option.some.inj stepped ▸ .spurious (List.filter_subset_self _)

/-- Who is woken has waited. -/
theorem waited_of_notifyOne {party woken : Party} {cv : Cv} {target : Point}
    (stmt : code party (state.point party) state.shared = .notifyOne cv target)
    (stepped : (machine code).step state (.run party (some woken)) = some next) :
    (woken, cv) ∈ state.waiting := by
  simp only [machine, State.step, stmt, State.perform] at stepped
  split at stepped
  · simp at stepped
  · exact (Option.ite_none_right_eq_some.mp stepped).1

/-! ## One party alone -/

section Alone

variable {point : Party → Point} {party : Party} {here target : Point} {shared after : Shared}
  {owner : Option Party} {waiting : List (Party × Cv)} {cv : Cv}

theorem step_alone {final : State Party Cv Point Shared} {stmt : Stmt Party Cv Point Shared}
    (woken : Option Party) (awake : ∀ waits ∈ waiting, waits.1 ≠ party)
    (same : code party here shared = stmt)
    (performed : State.perform code ⟨shared, Function.update point party here, owner, waiting⟩
      party woken stmt = some final) :
    (machine code).step ⟨shared, Function.update point party here, owner, waiting⟩
      (.run party woken) = some final := by
  have unblocked : State.isBlocked ⟨shared, Function.update point party here, owner, waiting⟩
      party = false := by
    simpa [State.isBlocked] using awake
  simpa [machine, State.step, unblocked, same] using performed

theorem reaches_lock (awake : ∀ waits ∈ waiting, waits.1 ≠ party)
    (stmt : code party here shared = .lock target) :
    (machine code).Reaches ⟨shared, Function.update point party here, none, waiting⟩
      ⟨shared, Function.update point party target, some party, waiting⟩ := by
  apply Machine.reaches_of_step (step_alone none awake stmt _)
  simp [State.perform, State.goTo]

theorem reaches_unlock (awake : ∀ waits ∈ waiting, waits.1 ≠ party)
    (stmt : code party here shared = .unlock target) :
    (machine code).Reaches ⟨shared, Function.update point party here, owner, waiting⟩
      ⟨shared, Function.update point party target, none, waiting⟩ := by
  apply Machine.reaches_of_step (step_alone none awake stmt _)
  simp [State.perform, State.goTo]

theorem reaches_assign (awake : ∀ waits ∈ waiting, waits.1 ≠ party)
    (stmt : code party here shared = .assign after target) :
    (machine code).Reaches ⟨shared, Function.update point party here, owner, waiting⟩
      ⟨after, Function.update point party target, owner, waiting⟩ := by
  apply Machine.reaches_of_step (step_alone none awake stmt _)
  simp [State.perform, State.goTo]

theorem reaches_wait (awake : ∀ waits ∈ waiting, waits.1 ≠ party)
    (stmt : code party here shared = .wait cv target) :
    (machine code).Reaches ⟨shared, Function.update point party here, owner, waiting⟩
      ⟨shared, Function.update point party target, none, (party, cv) :: waiting⟩ := by
  apply Machine.reaches_of_step (step_alone none awake stmt _)
  simp [State.perform, State.goTo]

/-- A notification that finds nobody. -/
theorem reaches_notifyOne (awake : ∀ waits ∈ waiting, waits.1 ≠ party)
    (nobody : ∀ waits ∈ waiting, waits.2 ≠ cv)
    (stmt : code party here shared = .notifyOne cv target) :
    (machine code).Reaches ⟨shared, Function.update point party here, owner, waiting⟩
      ⟨shared, Function.update point party target, owner, waiting⟩ := by
  apply Machine.reaches_of_step (step_alone none awake stmt _)
  have unheard : (waiting.any fun waits => waits.2 = cv) = false := by
    simpa using nobody
  simp [State.perform, State.goTo, unheard]

/-- A notification that wakes a party. -/
theorem reaches_wake {other : Party} (awake : ∀ waits ∈ waiting, waits.1 ≠ party)
    (waits : (other, cv) ∈ waiting) (stmt : code party here shared = .notifyOne cv target) :
    (machine code).Reaches ⟨shared, Function.update point party here, owner, waiting⟩
      ⟨shared, Function.update point party target, owner, waiting.erase (other, cv)⟩ := by
  apply Machine.reaches_of_step (step_alone (some other) awake stmt _)
  simp [State.perform, State.goTo, waits]

theorem reaches_of_alone {final : State Party Cv Point Shared} (at_ : point party = here)
    (alone : (machine code).Reaches ⟨shared, Function.update point party here, owner, waiting⟩
      final) :
    (machine code).Reaches ⟨shared, point, owner, waiting⟩ final := by
  rwa [← at_, Function.update_eq_self] at alone

end Alone

end Machine

/-- A party has gone from its point to the next, or none has. -/
theorem Stepped.moves (stepped : Stepped code state next) :
    (next.point = state.point ∧ next.shared = state.shared) ∨
      ∃ party target, (code party (state.point party) state.shared).next = some target ∧
        next.point = Function.update state.point party target ∧
          next.shared = (code party (state.point party) state.shared).after state.shared := by
  cases stepped with
  | lock _ stmt | unlock _ stmt | assign _ stmt | wait _ stmt =>
      exact Or.inr ⟨_, _, by rw [stmt]; rfl, rfl, by rw [stmt]; rfl⟩
  | wake _ stmt =>
      rcases stmt with ⟨cv, stmt⟩ | ⟨cv, stmt⟩ | ⟨other, stmt⟩ <;>
        exact Or.inr ⟨_, _, by rw [stmt]; rfl, rfl, by rw [stmt]; rfl⟩
  | spurious => exact Or.inl ⟨rfl, rfl⟩

/-- An invariant of the points and the shared state is one that every statement preserves. -/
theorem invariant_of_moves (invariant : (Party → Point) → Shared → Prop)
    (preserved : ∀ point shared party target, invariant point shared →
      (code party (point party) shared).next = some target →
        invariant (Function.update point party target)
          ((code party (point party) shared).after shared))
    (holds : invariant state.point state.shared) (stepped : Stepped code state next) :
    invariant next.point next.shared := by
  rcases stepped.moves with ⟨point, shared⟩ | ⟨party, target, goes, point, shared⟩
  · rw [point, shared]
    exact holds
  · rw [point, shared]
    exact preserved _ _ party target holds goes

/-! ## Mutual exclusion -/

/-- The owner of the mutex is the party at a marked point. -/
def Exclusive (inside : Point → Bool) (state : State Party Cv Point Shared) : Prop :=
  ∀ party, state.owner = some party ↔ inside (state.point party) = true

omit [DecidableEq Party] in
theorem Exclusive.eq_of_inside {inside : Point → Bool} (exclusive : Exclusive inside state)
    {party other : Party} (first : inside (state.point party) = true)
    (second : inside (state.point other) = true) : party = other := by
  have owner := (exclusive party).mpr first
  rw [(exclusive other).mpr second] at owner
  exact (Option.some.inj owner).symm

theorem Exclusive.step {inside : Point → Bool} (exclusive : Exclusive inside state)
    (brackets : ∀ party point shared, (code party point shared).Brackets inside point)
    (stepped : Stepped code state next) : Exclusive inside next := by
  have bracket (party : Party) := brackets party (state.point party) state.shared
  -- The mutex stays with its owner while the mark of the moving party stays the same.
  have kept {party : Party} {target : Point}
      (same : inside target = inside (state.point party)) (other : Party) :
      state.owner = some other ↔
        inside (Function.update state.point party target other) = true := by
    by_cases moved : other = party
    · rw [moved, Function.update_self, same]
      exact exclusive party
    · rw [Function.update_of_ne moved]
      exact exclusive other
  -- Giving it back leaves all parties at unmarked points.
  have released {party : Party} {target : Point} (marked : inside (state.point party) = true)
      (unmarked : inside target = false) (other : Party) :
      none = some other ↔ inside (Function.update state.point party target other) = true := by
    by_cases moved : other = party
    · simp [moved, unmarked]
    · rw [Function.update_of_ne moved]
      have outside : ¬inside (state.point other) = true :=
        fun within => moved (exclusive.eq_of_inside within marked)
      simp [outside]
  cases stepped with
  | @lock party target awake stmt free =>
      have marks := bracket party
      rw [stmt] at marks
      intro other
      by_cases moved : other = party
      · simp [State.goTo, moved, marks.2]
      · have outside : ¬inside (state.point other) = true := by
          rw [← exclusive other, free]
          simp
        simp [State.goTo, Function.update_of_ne moved, outside, Ne.symm moved]
  | @unlock party target awake stmt =>
      have marks := bracket party
      rw [stmt] at marks
      exact released marks.1 marks.2
  | @assign party target shared awake stmt =>
      have marks := bracket party
      rw [stmt] at marks
      exact kept marks
  | @wait party target cv awake stmt =>
      have marks := bracket party
      rw [stmt] at marks
      exact released marks.1 marks.2
  | @wake party target waiting awake stmt =>
      have marks := bracket party
      apply kept
      rcases stmt with ⟨cv, stmt⟩ | ⟨cv, stmt⟩ | ⟨other, stmt⟩
      all_goals
        rw [stmt] at marks
        exact marks
  | spurious => exact exclusive

/-! ## Assertions -/

/-- The assertion holds at the point of every party. -/
def Asserted (assertion : Point → Shared → Prop) (state : State Party Cv Point Shared) : Prop :=
  ∀ party, assertion (state.point party) state.shared

/-- What is asserted under the mutex needs no more than that the statements of each party lead
from assertion to assertion, and that those performed without the mutex leave them alone. -/
theorem Asserted.step {inside : Point → Bool} {assertion : Point → Shared → Prop}
    (exclusive : Exclusive inside state)
    (outside : ∀ point shared, inside point = false → assertion point shared)
    (leads : ∀ party point shared target, assertion point shared →
      (code party point shared).next = some target →
        assertion target ((code party point shared).after shared))
    (spares : ∀ party point shared other, inside point = false → assertion other shared →
      assertion other ((code party point shared).after shared))
    (asserted : Asserted assertion state) (stepped : Stepped code state next) :
    Asserted assertion next := by
  rcases stepped.moves with ⟨point, shared⟩ | ⟨party, target, goes, point, shared⟩
  · intro other
    rw [point, shared]
    exact asserted other
  · intro other
    rw [point, shared]
    by_cases moved : other = party
    · rw [moved, Function.update_self]
      exact leads party _ _ _ (asserted party) goes
    · rw [Function.update_of_ne moved]
      cases within : inside (state.point other) with
      | false => exact outside _ _ within
      | true =>
          apply spares _ _ _ _ _ (asserted other)
          exact Bool.eq_false_iff.mpr fun acting => moved (exclusive.eq_of_inside within acting)

/-! ## Waiting -/

/-- Who waits on a condition variable is where its waits lead. -/
def Waits (blocked : Cv → Point → Prop) (state : State Party Cv Point Shared) : Prop :=
  ∀ party cv, (party, cv) ∈ state.waiting → blocked cv (state.point party)

theorem Waits.step {blocked : Cv → Point → Prop}
    (leads : ∀ party point shared cv target, code party point shared = .wait cv target →
      blocked cv target)
    (waits : Waits blocked state) (stepped : Stepped code state next) : Waits blocked next := by
  -- Only a party that does not wait moves.
  have kept {party : Party} (awake : state.isBlocked party = false) (target : Point)
      (other : Party) (cv : Cv) (waiting : (other, cv) ∈ state.waiting) :
      blocked cv (Function.update state.point party target other) := by
    have different : other ≠ party := by
      intro same
      have blockedParty : state.isBlocked party = true :=
        List.any_eq_true.mpr ⟨(other, cv), waiting, by simp [same]⟩
      simp [awake] at blockedParty
    rw [Function.update_of_ne different]
    exact waits other cv waiting
  cases stepped with
  | lock awake | unlock awake | assign awake => exact kept awake _
  | @wait party target cv awake stmt =>
      intro other waited member
      rcases List.mem_cons.mp member with newest | old
      · rcases Prod.mk.inj newest with ⟨rfl, rfl⟩
        have arrives := leads _ _ _ _ _ stmt
        simpa [State.goTo] using arrives
      · exact kept awake target other waited old
  | wake awake stmt fewer => exact fun other cv member => kept awake _ other cv (fewer member)
  | spurious fewer => exact fun other cv member => waits other cv (fewer member)

/-! ## Who waits -/

/-- A party that performs a statement goes on to another point, and is added to those that wait
only if it waits. -/
theorem effect_of_run [DecidableEq Cv] {party : Party} {woken : Option Party}
    (stepped : (machine code).step state (.run party woken) = some next) :
    ∃ target, (code party (state.point party) state.shared).next = some target ∧
      next.point = Function.update state.point party target ∧
        next.shared = (code party (state.point party) state.shared).after state.shared ∧
          (next.waiting.Sublist state.waiting ∨
            ∃ cv, code party (state.point party) state.shared = .wait cv target ∧
              state.isBlocked party = false ∧ next.waiting = (party, cv) :: state.waiting) := by
  simp only [machine, State.step] at stepped
  split at stepped
  · simp at stepped
  · rename_i awake
    cases stmt : code party (state.point party) state.shared with
    | wait cv target =>
        rw [stmt] at stepped
        rcases Option.some.inj stepped with rfl
        exact ⟨target, rfl, rfl, rfl, Or.inr ⟨cv, rfl, Bool.eq_false_iff.mpr awake, rfl⟩⟩
    | lock target =>
        rw [stmt] at stepped
        rcases Option.ite_none_right_eq_some.mp stepped with ⟨_, same⟩
        exact Option.some.inj same ▸
          ⟨target, rfl, rfl, rfl, Or.inl (List.Sublist.refl state.waiting)⟩
    | unlock target | assign shared target =>
        rw [stmt] at stepped
        exact Option.some.inj stepped ▸
          ⟨target, rfl, rfl, rfl, Or.inl (List.Sublist.refl state.waiting)⟩
    | notifyOne cv target =>
        rw [stmt] at stepped
        simp only [State.perform] at stepped
        split at stepped
        · rcases Option.ite_none_right_eq_some.mp stepped with ⟨_, same⟩
          exact Option.some.inj same ▸ ⟨target, rfl, rfl, rfl, Or.inl List.erase_sublist⟩
        · rcases Option.ite_none_left_eq_some.mp stepped with ⟨_, same⟩
          exact Option.some.inj same ▸
            ⟨target, rfl, rfl, rfl, Or.inl (List.Sublist.refl state.waiting)⟩
    | notifyAll cv target =>
        rw [stmt] at stepped
        exact Option.some.inj stepped ▸ ⟨target, rfl, rfl, rfl, Or.inl List.filter_sublist⟩
    | join other target =>
        rw [stmt] at stepped
        rcases Option.ite_none_right_eq_some.mp stepped with ⟨_, same⟩
        exact Option.some.inj same ▸
          ⟨target, rfl, rfl, rfl, Or.inl (List.Sublist.refl state.waiting)⟩
    | halt =>
        rw [stmt] at stepped
        simp [State.perform] at stepped

/-- A party that waits does so once, on one condition variable. -/
def WaitsOnce (state : State Party Cv Point Shared) : Prop :=
  (state.waiting.map Prod.fst).Nodup

theorem WaitsOnce.step [DecidableEq Cv] {label : Label Party} (once : WaitsOnce state)
    (stepped : (machine code).step state label = some next) : WaitsOnce next := by
  cases label with
  | spurious party =>
      rcases Option.some.inj stepped with rfl
      exact once.sublist (List.filter_sublist.map Prod.fst)
  | run party woken =>
      rcases effect_of_run stepped with ⟨target, _, _, _, fewer | ⟨cv, _, awake, added⟩⟩
      · exact once.sublist (fewer.map Prod.fst)
      · rw [WaitsOnce, added]
        refine List.nodup_cons.mpr ⟨fun already => ?_, once⟩
        rcases List.mem_map.mp already with ⟨waits, member, same⟩
        have blocked : state.isBlocked party = true :=
          List.any_eq_true.mpr ⟨waits, member, by simp [same]⟩
        simp [awake] at blocked

/-! ## How far a party gets -/

/-- Nothing but the mutex, the end of another party or its own end keeps a party from performing
the statement. -/
def Ready (code : Code Party Cv Point Shared) (state : State Party Cv Point Shared) :
    Stmt Party Cv Point Shared → Prop
  | .lock _ => state.owner = none
  | .join other _ => (code other (state.point other) state.shared).isHalt = true
  | .halt => False
  | _ => True

theorem exists_step [DecidableEq Cv] {party : Party} (awake : state.isBlocked party = false)
    (ready : Ready code state (code party (state.point party) state.shared)) :
    ∃ woken next, (machine code).step state (.run party woken) = some next := by
  have steps (woken : Option Party) : (machine code).step state (.run party woken) =
      state.perform code party woken (code party (state.point party) state.shared) := by
    simp [machine, State.step, awake]
  cases stmt : code party (state.point party) state.shared with
  | lock target =>
      rw [stmt] at ready steps
      exact ⟨none, _, (steps none).trans (if_pos ready)⟩
  | join other target =>
      rw [stmt] at ready steps
      exact ⟨none, _, (steps none).trans (if_pos ready)⟩
  | notifyOne cv target =>
      rw [stmt] at steps
      cases heard : state.waiting.any fun waits => waits.2 = cv with
      | false =>
          refine ⟨none, state.goTo party target, (steps none).trans ?_⟩
          simp [State.perform, heard]
      | true =>
          rcases List.any_eq_true.mp heard with ⟨⟨other, on⟩, member, same⟩
          rcases of_decide_eq_true same with rfl
          exact ⟨some other, _, (steps (some other)).trans (if_pos member)⟩
  | halt =>
      rw [stmt] at ready
      exact ready.elim
  | unlock target | assign shared target | wait cv target | notifyAll cv target =>
      rw [stmt] at steps
      exact ⟨none, _, steps none⟩

/-- How many statements the party performs. -/
def turns (party : Party) (labels : List (Label Party)) : ℕ :=
  labels.countP fun label =>
    match label with
    | .run other _ => other = party
    | .spurious _ => false

/-- A party performs no more statements than a measure that each of them decreases. -/
theorem turns_le [DecidableEq Cv] (stable : State Party Cv Point Shared → Prop)
    {remaining : Point → ℕ} {party : Party} {final : State Party Cv Point Shared}
    {labels : List (Label Party)}
    (preserved : ∀ {state label next}, stable state →
      (machine code).step state label = some next → stable next)
    (decreases : ∀ {state target}, stable state →
      (code party (state.point party) state.shared).next = some target →
        remaining target < remaining (state.point party))
    (holds : stable state) (reached : (machine code).run state labels = some final) :
    turns party labels + remaining (final.point party) ≤ remaining (state.point party) := by
  induction labels generalizing state with
  | nil =>
      rcases Option.some.inj reached with rfl
      exact Nat.le_of_eq (Nat.zero_add _)
  | cons label labels ih =>
      rcases (machine code).run_cons_eq_some.mp reached with ⟨next, stepped, rest⟩
      have later := ih (preserved holds stepped) rest
      cases label with
      | spurious other =>
          rcases Option.some.inj stepped with rfl
          exact later
      | run other woken =>
          rcases effect_of_run stepped with ⟨target, goes, point, _, _⟩
          rw [point] at later
          by_cases same : other = party
          · subst same
            have less := decreases holds goes
            rw [Function.update_self] at later
            simp only [turns, List.countP_cons, decide_true, if_true] at later ⊢
            omega
          · rw [Function.update_of_ne (Ne.symm same)] at later
            simpa [turns, List.countP_cons, same] using later

end Rules

end Monitor

end Library
