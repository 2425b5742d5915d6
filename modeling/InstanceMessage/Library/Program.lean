import InstanceMessage.Library.Machine
import Mathlib.Data.List.Basic

/-!
# Programs of atomic actions

A handler which touches shared state only through a fixed set of atomic
actions is a tree: either it has returned, or it performs one action and goes
on with the answer. Between two actions of one program the actions of any
other program may take place, so a proof about all interleavings must not look
at the shared state between them; it looks at the tree and at the program's
own history of performed actions.

`Program.Obeys` is the rule for such proofs. A law says, for the history of
the actions that the program itself has performed (latest first), which action
may come next. Whatever the answers are, a program that obeys the law performs
no other action. The rules follow the shape of the program: `obeys_bind` for
sequencing, `obeys_perform` for a single action, and weakening of the
condition on return. `Program.Reaches` is the converse: what a program is still
going to do, as long as the environment answers as expected.
-/

namespace Library

universe u

/-- A program that returns a value after a finite number of atomic actions. -/
inductive Program (Act : Type) (Answer : Act → Type) (Result : Type u) : Type u
  | ret (value : Result)
  | act (action : Act) (next : Answer action → Program Act Answer Result)

structure Performed {Act : Type} (Answer : Act → Type) where
  action : Act
  answer : Answer action

theorem Performed.ne_of_action {Act : Type} {Answer : Act → Type} {action other : Act}
    {answer : Answer action} {otherAnswer : Answer other} (different : action ≠ other) :
    (⟨action, answer⟩ : Performed Answer) ≠ ⟨other, otherAnswer⟩ :=
  fun same => different (congrArg Performed.action same)

namespace Program

variable {Act : Type} {Answer : Act → Type} {Result Other : Type}

/-- Sequencing: the second program starts with the value that the first returned. -/
def bind (program : Program Act Answer Result)
    (rest : Result → Program Act Answer Other) : Program Act Answer Other :=
  match program with
  | .ret value => rest value
  | .act action next => .act action fun answer => (next answer).bind rest

instance : Monad (Program Act Answer) where
  pure := .ret
  bind := bind

def perform (action : Act) : Program Act Answer (Answer action) :=
  .act action .ret

@[simp]
theorem pure_eq (value : Result) :
    (pure value : Program Act Answer Result) = .ret value := rfl

@[simp]
theorem bind_ret (value : Result) (rest : Result → Program Act Answer Other) :
    ((.ret value : Program Act Answer Result) >>= rest) = rest value := rfl

@[simp]
theorem bind_act (action : Act) (next : Answer action → Program Act Answer Result)
    (rest : Result → Program Act Answer Other) :
    ((.act action next : Program Act Answer Result) >>= rest) =
      .act action fun answer => next answer >>= rest := rfl

@[simp]
theorem bind_perform (action : Act) (rest : Answer action → Program Act Answer Other) :
    ((perform action : Program Act Answer (Answer action)) >>= rest) = .act action rest := rfl

/-- Every action of the program is allowed by the law at the history it is performed in,
and the program returns only in histories which satisfy the condition on return. -/
def Obeys (law : List (Performed Answer) → Act → Prop)
    (onReturn : List (Performed Answer) → Result → Prop) :
    Program Act Answer Result → List (Performed Answer) → Prop
  | .ret value, history => onReturn history value
  | .act action next, history =>
      law history action ∧ ∀ answer, (next answer).Obeys law onReturn (⟨action, answer⟩ :: history)

variable {law : List (Performed Answer) → Act → Prop}

theorem obeys_bind {program : Program Act Answer Result}
    {rest : Result → Program Act Answer Other}
    {onReturn : List (Performed Answer) → Other → Prop} {history : List (Performed Answer)}
    (first : program.Obeys law (fun later value => (rest value).Obeys law onReturn later) history) :
    (program >>= rest).Obeys law onReturn history := by
  induction program generalizing history with
  | ret value => exact first
  | act action next ih => exact ⟨first.1, fun answer => ih answer (first.2 answer)⟩

theorem obeys_perform_bind {action : Act} {rest : Answer action → Program Act Answer Other}
    {onReturn : List (Performed Answer) → Other → Prop} {history : List (Performed Answer)}
    (allowed : law history action)
    (continues : ∀ answer, (rest answer).Obeys law onReturn (⟨action, answer⟩ :: history)) :
    ((perform action : Program Act Answer (Answer action)) >>= rest).Obeys law onReturn history :=
  ⟨allowed, continues⟩

/-- The action that the program performs next, unless it has returned. -/
def first : Program Act Answer Result → Option Act
  | .ret _ => none
  | .act action _ => some action

/-- Every action of the program, along every sequence of answers, satisfies the predicate. -/
def Only (allowed : Act → Prop) : Program Act Answer Result → Prop
  | .ret _ => True
  | .act action next => allowed action ∧ ∀ answer, (next answer).Only allowed

theorem only_bind {allowed : Act → Prop} {program : Program Act Answer Result}
    {rest : Result → Program Act Answer Other} (first : program.Only allowed)
    (continues : ∀ value, (rest value).Only allowed) : (program >>= rest).Only allowed := by
  induction program with
  | ret value => exact continues value
  | act action next ih => exact ⟨first.1, fun answer => ih answer (first.2 answer)⟩

theorem only_perform_bind {allowed : Act → Prop} {action : Act}
    {rest : Answer action → Program Act Answer Other} (here : allowed action)
    (continues : ∀ answer, (rest answer).Only allowed) :
    ((perform action : Program Act Answer (Answer action)) >>= rest).Only allowed :=
  ⟨here, continues⟩

theorem Only.mono {strong weak : Act → Prop} {program : Program Act Answer Result}
    (only : program.Only strong) (weaken : ∀ action, strong action → weak action) :
    program.Only weak := by
  induction program with
  | ret value => trivial
  | act action next ih => exact ⟨weaken _ only.1, fun answer => ih answer (only.2 answer)⟩

/-- A program that obeys a law obeys every weaker one. -/
theorem Obeys.mono {weak : List (Performed Answer) → Act → Prop}
    {onReturn returns : List (Performed Answer) → Result → Prop}
    {program : Program Act Answer Result} {history : List (Performed Answer)}
    (obeys : program.Obeys law onReturn history)
    (weaken : ∀ history action, law history action → weak history action)
    (whenReturned : ∀ history value, onReturn history value → returns history value) :
    program.Obeys weak returns history := by
  induction program generalizing history with
  | ret value => exact whenReturned _ _ obeys
  | act action next ih =>
      exact ⟨weaken _ _ obeys.1, fun answer => ih answer (obeys.2 answer)⟩

/-- What the law allows in no history is no action of a program that obeys it. -/
theorem Obeys.only {allowed : Act → Prop} {onReturn : List (Performed Answer) → Result → Prop}
    {program : Program Act Answer Result} {history : List (Performed Answer)}
    (obeys : program.Obeys law onReturn history)
    (permits : ∀ history action, law history action → allowed action) : program.Only allowed := by
  induction program generalizing history with
  | ret value => trivial
  | act action next ih =>
      exact ⟨permits _ _ obeys.1, fun answer => ih answer (obeys.2 answer)⟩

/-- A program obeys a law that allows all its actions while an invariant of the history holds. -/
theorem Only.obeys {allowed : Act → Prop} (invariant : List (Performed Answer) → Prop)
    {onReturn : List (Performed Answer) → Result → Prop} {program : Program Act Answer Result}
    {history : List (Performed Answer)} (only : program.Only allowed)
    (permits : ∀ history action, invariant history → allowed action → law history action)
    (keeps : ∀ history (performed : Performed Answer), invariant history →
      allowed performed.action → invariant (performed :: history))
    (returns : ∀ history value, invariant history → onReturn history value)
    (holds : invariant history) : program.Obeys law onReturn history := by
  induction program generalizing history with
  | ret value => exact returns _ _ holds
  | act action next ih =>
      exact ⟨permits _ _ holds only.1, fun answer =>
        ih answer (only.2 answer) (keeps _ ⟨action, answer⟩ holds only.1)⟩

/-- The program and everything that can be left of it satisfy the predicate. -/
def Everywhere (property : Program Act Answer Result → Prop) : Program Act Answer Result → Prop
  | .ret value => property (.ret value)
  | .act action next =>
      property (.act action next) ∧ ∀ answer, (next answer).Everywhere property

variable {property : Program Act Answer Result → Prop}

theorem Everywhere.here {program : Program Act Answer Result}
    (everywhere : program.Everywhere property) : property program := by
  cases program with
  | ret value => exact everywhere
  | act action next => exact everywhere.1

/-- Actions of which the predicate holds whatever follows can be passed over. -/
theorem everywhere_bind {property : Program Act Answer Other → Prop} {allowed : Act → Prop}
    (passes : ∀ action next, allowed action → property (.act action next))
    {program : Program Act Answer Result} {rest : Result → Program Act Answer Other}
    (first : program.Only allowed) (continues : ∀ value, (rest value).Everywhere property) :
    (program >>= rest).Everywhere property := by
  induction program with
  | ret value => exact continues value
  | act action next ih =>
      exact ⟨passes _ _ first.1, fun answer => ih answer (first.2 answer)⟩

theorem everywhere_perform_bind {property : Program Act Answer Other → Prop} {action : Act}
    {rest : Answer action → Program Act Answer Other}
    (here : property (.act action rest))
    (continues : ∀ answer, (rest answer).Everywhere property) :
    ((perform action : Program Act Answer (Answer action)) >>= rest).Everywhere property :=
  ⟨here, continues⟩

theorem Only.everywhere {allowed : Act → Prop} {program : Program Act Answer Result}
    (only : program.Only allowed) (returns : ∀ value, property (.ret value))
    (passes : ∀ action next, allowed action → property (.act action next)) :
    program.Everywhere property := by
  induction program with
  | ret value => exact returns value
  | act action next ih =>
      exact ⟨passes _ _ only.1, fun answer => ih answer (only.2 answer)⟩

/-! ## Once

A marked action that a program performs at most once is something it can give
away: before, the program may still perform it, and afterwards no longer.
-/

/-- On every path at most one action is marked. -/
def AtMostOnce (marked : Act → Prop) : Program Act Answer Result → Prop
  | .ret _ => True
  | .act action next => ∀ answer, (next answer).AtMostOnce marked ∧
      (marked action → (next answer).Only fun other => ¬marked other)

section AtMostOnce

variable {marked : Act → Prop}

theorem Only.atMostOnce {program : Program Act Answer Result}
    (spared : program.Only fun action => ¬marked action) : program.AtMostOnce marked := by
  induction program with
  | ret value => trivial
  | act action next ih =>
      exact fun answer => ⟨ih answer (spared.2 answer), fun _ => spared.2 answer⟩

theorem atMostOnce_bind {program : Program Act Answer Result}
    {rest : Result → Program Act Answer Other}
    (first : program.Only fun action => ¬marked action)
    (continues : ∀ value, (rest value).AtMostOnce marked) :
    (program >>= rest).AtMostOnce marked := by
  induction program with
  | ret value => exact continues value
  | act action next ih =>
      exact fun answer => ⟨ih answer (first.2 answer), fun hit => absurd hit first.1⟩

theorem atMostOnce_perform_bind {action : Act} {rest : Answer action → Program Act Answer Other}
    (spared : ¬marked action) (continues : ∀ answer, (rest answer).AtMostOnce marked) :
    ((perform action : Program Act Answer (Answer action)) >>= rest).AtMostOnce marked :=
  fun answer => ⟨continues answer, fun hit => absurd hit spared⟩

theorem atMostOnce_perform (action : Act) :
    (perform action : Program Act Answer (Answer action)).AtMostOnce marked :=
  fun _ => ⟨trivial, fun _ => trivial⟩

end AtMostOnce

/-! ## What a program is going to do

`Reaches` looks at the paths of a program on which all answers are granted: on
each of them the program comes to an action of the goal, or returns a value as
required. With `onReturn` false this is a promise, which the program keeps if
the environment grants all its answers.
-/

def Reaches (granted : (action : Act) → Answer action → Prop) (goal : Act → Prop)
    (onReturn : Result → Prop) : Program Act Answer Result → Prop
  | .ret value => onReturn value
  | .act action next => goal action ∨
      ∀ answer, granted action answer → (next answer).Reaches granted goal onReturn

section Reaches

variable {granted : (action : Act) → Answer action → Prop} {goal : Act → Prop}

theorem reaches_bind {program : Program Act Answer Result}
    {rest : Result → Program Act Answer Other} {onReturn : Other → Prop}
    (first : program.Reaches granted goal fun value => (rest value).Reaches granted goal onReturn) :
    (program >>= rest).Reaches granted goal onReturn := by
  induction program with
  | ret value => exact first
  | act action next ih =>
      rcases first with reached | continues
      · exact Or.inl reached
      · exact Or.inr fun answer grants => ih answer (continues answer grants)

theorem reaches_perform_bind {action : Act} {rest : Answer action → Program Act Answer Other}
    {onReturn : Other → Prop}
    (continues : ∀ answer, granted action answer → (rest answer).Reaches granted goal onReturn) :
    ((perform action : Program Act Answer (Answer action)) >>= rest).Reaches granted goal
      onReturn :=
  Or.inr continues

theorem Reaches.mono {onReturn returns : Result → Prop} {program : Program Act Answer Result}
    (reaches : program.Reaches granted goal onReturn)
    (weaken : ∀ value, onReturn value → returns value) :
    program.Reaches granted goal returns := by
  induction program with
  | ret value => exact weaken value reaches
  | act action next ih =>
      rcases reaches with reached | continues
      · exact Or.inl reached
      · exact Or.inr fun answer grants => ih answer (continues answer grants)

end Reaches

inductive Steps : Program Act Answer Result → Program Act Answer Result → Prop
  | act (action : Act) (next : Answer action → Program Act Answer Result)
      (answer : Answer action) : Steps (next answer) (.act action next)

/-- No program performs infinitely many actions. -/
theorem steps_wellFounded : WellFounded (@Steps Act Answer Result) := by
  refine ⟨fun program => ?_⟩
  induction program with
  | ret value => exact ⟨_, fun _ stepped => nomatch stepped⟩
  | act action next ih =>
      refine ⟨_, fun _ stepped => ?_⟩
      cases stepped with
      | act _ _ answer => exact ih answer

end Program

end Library
