import Mathlib.Data.List.Basic

/-!
# Labelled machines and their runs

A machine is given by one partial step function: the label resolves every
choice of the environment (which party moves, what an external call answers),
so a run is a list of labels and its final state is computed. A claim about
every interleaving quantifies over all lists of labels.

Properties of every reachable state are proved with `run_invariant`: it holds
initially, and every step from a state in which it holds preserves it. The
rule takes a condition on the steps of the run (`Meets`), so that the same
induction serves the results about the runs whose environment is restricted.
-/

namespace Library

universe u v

/-- A machine whose steps are determined by the state and the label. -/
structure Machine (State : Type u) (Label : Type v) where
  /-- The state after the label, when the label is enabled. -/
  step : State → Label → Option State

namespace Machine

variable {State : Type u} {Label : Type v} (machine : Machine State Label)

/-- The state reached by performing the labels in order. -/
def run : State → List Label → Option State
  | state, [] => some state
  | state, label :: labels => (machine.step state label).bind fun next => run next labels

/-- Every step of the run is taken from a state in which the condition allows it. -/
def Meets (condition : State → Label → Prop) : State → List Label → Prop
  | _, [] => True
  | state, label :: labels =>
      condition state label ∧
        ∀ next, machine.step state label = some next → Meets condition next labels

@[simp]
theorem run_nil (state : State) : machine.run state [] = some state := rfl

theorem run_cons_eq_some {state final : State} {label : Label} {labels : List Label} :
    machine.run state (label :: labels) = some final ↔
      ∃ next, machine.step state label = some next ∧ machine.run next labels = some final := by
  simp only [run, Option.bind_eq_some_iff]

theorem run_append_eq_some {state final : State} {first second : List Label} :
    machine.run state (first ++ second) = some final ↔
      ∃ middle, machine.run state first = some middle ∧
        machine.run middle second = some final := by
  induction first generalizing state with
  | nil => simp
  | cons label labels ih =>
      rw [List.cons_append, run_cons_eq_some]
      constructor
      · rintro ⟨next, stepped, rest⟩
        rcases ih.mp rest with ⟨middle, reached, remaining⟩
        exact ⟨middle, (machine.run_cons_eq_some).mpr ⟨next, stepped, reached⟩, remaining⟩
      · rintro ⟨middle, reached, remaining⟩
        rcases (machine.run_cons_eq_some).mp reached with ⟨next, stepped, rest⟩
        exact ⟨next, stepped, ih.mpr ⟨middle, rest, remaining⟩⟩

/-! ## What a run puts out -/

section Outputs

variable {Output : Type*} (emit : State → Label → List Output)

/-- What the steps of a run put out, in order. -/
def outputs : State → List Label → List Output
  | _, [] => []
  | state, label :: labels =>
      match machine.step state label with
      | none => []
      | some next => emit state label ++ outputs next labels

theorem outputs_cons {state next : State} {label : Label} {labels : List Label}
    (stepped : machine.step state label = some next) :
    machine.outputs emit state (label :: labels) =
      emit state label ++ machine.outputs emit next labels := by
  simp only [outputs, stepped]

theorem outputs_of_silent {labels : List Label} (silent : ∀ state, ∀ label ∈ labels,
    emit state label = []) (state : State) : machine.outputs emit state labels = [] := by
  induction labels generalizing state with
  | nil => rfl
  | cons label labels ih =>
      cases stepped : machine.step state label with
      | none => simp only [outputs, stepped]
      | some next =>
          rw [outputs_cons machine emit stepped, silent state label List.mem_cons_self,
            ih (fun other later member => silent other later (List.mem_cons_of_mem _ member)),
            List.append_nil]

theorem outputs_append {state middle : State} {first second : List Label}
    (reached : machine.run state first = some middle) :
    machine.outputs emit state (first ++ second) =
      machine.outputs emit state first ++ machine.outputs emit middle second := by
  induction first generalizing state with
  | nil =>
      have same : state = middle := Option.some.inj reached
      rw [same]
      rfl
  | cons label labels ih =>
      rcases machine.run_cons_eq_some.mp reached with ⟨next, stepped, rest⟩
      rw [List.cons_append, outputs_cons machine emit stepped, outputs_cons machine emit stepped,
        ih rest, List.append_assoc]

theorem outputs_labels {state final : State} {labels : List Label}
    (reached : machine.run state labels = some final) :
    machine.outputs (fun _ label => [label]) state labels = labels := by
  induction labels generalizing state with
  | nil => rfl
  | cons label labels ih =>
      rcases machine.run_cons_eq_some.mp reached with ⟨next, stepped, rest⟩
      rw [outputs_cons machine _ stepped, ih rest, List.singleton_append]

/-- Outputs that are computed from others step by step are computed from them all. -/
theorem outputs_flatMap {Other : Type*} (compute : Output → List Other) (state : State)
    (labels : List Label) :
    machine.outputs (fun before label => (emit before label).flatMap compute) state labels =
      (machine.outputs emit state labels).flatMap compute := by
  induction labels generalizing state with
  | nil => rfl
  | cons label labels ih =>
      cases stepped : machine.step state label with
      | none => simp only [outputs, stepped, List.flatMap_nil]
      | some next => simp only [outputs, stepped, List.flatMap_append, ih]

end Outputs

/-! ## Simulations -/

/-- Some run leads from the one state to the other. -/
def Reaches (state final : State) : Prop := ∃ labels, machine.run state labels = some final

variable {machine}

theorem Reaches.trans {state middle final : State} (first : machine.Reaches state middle)
    (second : machine.Reaches middle final) : machine.Reaches state final := by
  rcases first with ⟨labels, reached⟩
  rcases second with ⟨remaining, continued⟩
  exact ⟨labels ++ remaining, machine.run_append_eq_some.mpr ⟨middle, reached, continued⟩⟩

theorem reaches_of_step {state next : State} {label : Label}
    (stepped : machine.step state label = some next) : machine.Reaches state next :=
  ⟨[label], machine.run_cons_eq_some.mpr ⟨next, stepped, rfl⟩⟩

/-- A machine that matches every allowed step from a state in reach by steps that put out the same
matches every allowed run by one that does. -/
theorem exists_run_of_meets {condition : State → Label → Prop} {Peer : Type*}
    {PeerLabel : Type*} {Output : Type*} {peer : Machine Peer PeerLabel}
    (emit : State → Label → List Output) (peerEmit : Peer → PeerLabel → List Output)
    (related : State → Peer → Prop) {start final : State} {peerStart : Peer}
    (matches_ : ∀ {state label next} {other : Peer}, machine.Reaches start state →
      related state other → condition state label → machine.step state label = some next →
        ∃ peerLabels otherNext, peer.run other peerLabels = some otherNext ∧
          peer.outputs peerEmit other peerLabels = emit state label ∧ related next otherNext)
    (initially : related start peerStart) {labels : List Label}
    (meets : machine.Meets condition start labels)
    (reached : machine.run start labels = some final) :
    ∃ peerLabels other, peer.run peerStart peerLabels = some other ∧
      peer.outputs peerEmit peerStart peerLabels = machine.outputs emit start labels ∧
        related final other := by
  have from_ (labels : List Label) (state : State) (other : Peer)
      (reaches : machine.Reaches start state) (holds : related state other)
      (meets : machine.Meets condition state labels)
      (run : machine.run state labels = some final) :
      ∃ peerLabels otherFinal, peer.run other peerLabels = some otherFinal ∧
        peer.outputs peerEmit other peerLabels = machine.outputs emit state labels ∧
          related final otherFinal := by
    induction labels generalizing state other with
    | nil =>
        have same : state = final := Option.some.inj run
        exact ⟨[], other, rfl, rfl, same ▸ holds⟩
    | cons label labels ih =>
        rcases machine.run_cons_eq_some.mp run with ⟨next, stepped, rest⟩
        rcases matches_ reaches holds meets.1 stepped with
          ⟨first, otherNext, onward, here, holdsNext⟩
        rcases ih next otherNext (reaches.trans (reaches_of_step stepped)) holdsNext
          (meets.2 next stepped) rest with ⟨second, otherFinal, remaining, later, holdsFinal⟩
        refine ⟨first ++ second, otherFinal, peer.run_append_eq_some.mpr ⟨_, onward, remaining⟩,
          ?_, holdsFinal⟩
        rw [peer.outputs_append peerEmit onward, here, later,
          machine.outputs_cons emit stepped]
  exact from_ labels start peerStart ⟨[], rfl⟩ initially meets reached

/-- A machine that matches every allowed step from a state in reach matches every allowed run. -/
theorem exists_related_of_meets {condition : State → Label → Prop} {Peer : Type*}
    {PeerLabel : Type*} {peer : Machine Peer PeerLabel} (related : State → Peer → Prop)
    {start final : State} {peerStart : Peer}
    (matches_ : ∀ {state label next} {other : Peer}, machine.Reaches start state →
      related state other → condition state label → machine.step state label = some next →
        ∃ otherNext, peer.Reaches other otherNext ∧ related next otherNext)
    (initially : related start peerStart) {labels : List Label}
    (meets : machine.Meets condition start labels)
    (reached : machine.run start labels = some final) :
    ∃ other, peer.Reaches peerStart other ∧ related final other := by
  have matched {state next : State} {label : Label} {other : Peer}
      (reaches : machine.Reaches start state) (holds : related state other)
      (allowed : condition state label) (stepped : machine.step state label = some next) :
      ∃ peerLabels otherNext, peer.run other peerLabels = some otherNext ∧
        peer.outputs (fun _ _ => ([] : List Unit)) other peerLabels = [] ∧
          related next otherNext := by
    rcases matches_ reaches holds allowed stepped with ⟨otherNext, ⟨peerLabels, run⟩, still⟩
    exact ⟨peerLabels, otherNext, run, peer.outputs_of_silent _ (fun _ _ _ => rfl) other, still⟩
  rcases exists_run_of_meets (fun _ _ => []) (fun _ _ => []) related matched initially meets
    reached with ⟨peerLabels, other, run, _, holds⟩
  exact ⟨other, ⟨peerLabels, run⟩, holds⟩

variable (machine)

/-- A property preserved by every allowed step holds wherever an allowed run leads. -/
theorem run_invariant {condition : State → Label → Prop} (invariant : State → Prop)
    (preserved : ∀ {state label next}, invariant state → condition state label →
      machine.step state label = some next → invariant next)
    {state final : State} {labels : List Label} (initially : invariant state)
    (meets : machine.Meets condition state labels)
    (reached : machine.run state labels = some final) : invariant final := by
  induction labels generalizing state with
  | nil =>
      simp only [run_nil, Option.some.injEq] at reached
      exact reached ▸ initially
  | cons label labels ih =>
      rcases (machine.run_cons_eq_some).mp reached with ⟨next, stepped, rest⟩
      exact ih (preserved initially meets.1 stepped) (meets.2 next stepped) rest

theorem meets_cons {condition : State → Label → Prop} {state next : State} {label : Label}
    {labels : List Label} (stepped : machine.step state label = some next)
    (here : condition state label) (rest : machine.Meets condition next labels) :
    machine.Meets condition state (label :: labels) := by
  refine ⟨here, fun other same => ?_⟩
  rw [← Option.some.inj (stepped.symm.trans same)]
  exact rest

theorem meets_append {condition : State → Label → Prop} {state middle : State}
    {first second : List Label} (meets : machine.Meets condition state first)
    (reached : machine.run state first = some middle)
    (rest : machine.Meets condition middle second) :
    machine.Meets condition state (first ++ second) := by
  induction first generalizing state with
  | nil =>
      rw [← Option.some.inj reached] at rest
      exact rest
  | cons label first ih =>
      rcases machine.run_cons_eq_some.mp reached with ⟨next, stepped, remaining⟩
      exact machine.meets_cons stepped meets.1 (ih (meets.2 next stepped) remaining)

theorem meets_iff {condition : State → Label → Prop} {state : State} {labels : List Label} :
    machine.Meets condition state labels ↔
      ∀ before label after middle, labels = before ++ label :: after →
        machine.run state before = some middle → condition middle label := by
  induction labels generalizing state with
  | nil => simp [Meets]
  | cons label labels ih =>
      constructor
      · rintro ⟨here, rest⟩ before other after middle same reached
        cases before with
        | nil =>
            rcases Option.some.inj reached with rfl
            rcases List.cons.inj same with ⟨rfl, _⟩
            exact here
        | cons first before =>
            rcases List.cons.inj same with ⟨rfl, remaining⟩
            rcases machine.run_cons_eq_some.mp reached with ⟨next, stepped, reached⟩
            exact ih.mp (rest next stepped) before other after middle remaining reached
      · intro each
        refine ⟨each [] label labels state rfl rfl, fun next stepped => ih.mpr ?_⟩
        intro before other after middle same reached
        exact each (label :: before) other after middle (by rw [same, List.cons_append])
          (machine.run_cons_eq_some.mpr ⟨next, stepped, reached⟩)

theorem meets_of_forall_mem {condition : State → Label → Prop} {labels : List Label}
    (each : ∀ state, ∀ label ∈ labels, condition state label) (state : State) :
    machine.Meets condition state labels := by
  induction labels generalizing state with
  | nil => trivial
  | cons label labels ih =>
      exact ⟨each state label List.mem_cons_self, fun next _ =>
        ih (fun state other member => each state other (List.mem_cons_of_mem _ member)) next⟩

theorem meets_of_forall {condition : State → Label → Prop}
    (always : ∀ state label, condition state label) (state : State) (labels : List Label) :
    machine.Meets condition state labels := by
  apply machine.meets_of_forall_mem
  intro state label _
  exact always state label

variable {machine} in
/-- The same of all runs, when every step is matched. -/
theorem exists_related {Peer : Type*} {PeerLabel : Type*} {peer : Machine Peer PeerLabel}
    (related : State → Peer → Prop) {start final : State} {peerStart : Peer}
    (matches_ : ∀ {state label next} {other : Peer}, machine.Reaches start state →
      related state other → machine.step state label = some next →
        ∃ otherNext, peer.Reaches other otherNext ∧ related next otherNext)
    (initially : related start peerStart) (reached : machine.Reaches start final) :
    ∃ other, peer.Reaches peerStart other ∧ related final other := by
  rcases reached with ⟨labels, run⟩
  exact exists_related_of_meets related
    (fun reaches holds _ stepped => matches_ reaches holds stepped) initially
    (machine.meets_of_forall (fun _ _ => trivial) start labels) run

theorem meets_and {condition other : State → Label → Prop} {state : State} {labels : List Label}
    (first : machine.Meets condition state labels) (second : machine.Meets other state labels) :
    machine.Meets (fun state label => condition state label ∧ other state label) state labels :=
  machine.meets_iff.mpr fun before label after middle same reached =>
    ⟨machine.meets_iff.mp first before label after middle same reached,
      machine.meets_iff.mp second before label after middle same reached⟩

theorem meets_imp {condition weaker : State → Label → Prop}
    (imp : ∀ state label, condition state label → weaker state label) {state : State}
    {labels : List Label} (meets : machine.Meets condition state labels) :
    machine.Meets weaker state labels :=
  machine.meets_iff.mpr fun before label after middle same reached =>
    imp middle label (machine.meets_iff.mp meets before label after middle same reached)

def allSteps (test : State → Label → Bool) : State → List Label → Bool
  | _, [] => true
  | state, label :: labels =>
      test state label &&
        match machine.step state label with
        | none => true
        | some next => allSteps test next labels

theorem meets_of_allSteps {condition : State → Label → Prop} {test : State → Label → Bool}
    (sound : ∀ state label, test state label = true → condition state label)
    {state : State} {labels : List Label} (passed : machine.allSteps test state labels = true) :
    machine.Meets condition state labels := by
  induction labels generalizing state with
  | nil => trivial
  | cons label labels ih =>
      simp only [allSteps, Bool.and_eq_true] at passed
      refine ⟨sound _ _ passed.1, fun next stepped => ih ?_⟩
      simpa only [stepped] using passed.2

/-- The invariant rule for runs whose environment is unrestricted. -/
theorem run_invariant_of_step (invariant : State → Prop)
    (preserved : ∀ {state label next}, invariant state →
      machine.step state label = some next → invariant next)
    {state final : State} {labels : List Label} (initially : invariant state)
    (reached : machine.run state labels = some final) : invariant final :=
  machine.run_invariant invariant (fun holds _ stepped => preserved holds stepped) initially
    (machine.meets_of_forall (fun (_ : State) (_ : Label) => trivial) state labels) reached

variable {Output : Type*} (emit : State → Label → List Output) in
/-- A quantity that no step raises by more than it puts out is bounded by what the run puts out. -/
theorem le_of_outputs (quantity : State → ℕ) (counts : Output → Bool) (invariant : State → Prop)
    (preserved : ∀ {state label next}, invariant state → machine.step state label = some next →
      invariant next ∧ quantity next ≤ quantity state + (emit state label).countP counts)
    {state final : State} {labels : List Label} (initially : invariant state)
    (reached : machine.run state labels = some final) :
    quantity final ≤ quantity state + (machine.outputs emit state labels).countP counts := by
  induction labels generalizing state with
  | nil =>
      have same : state = final := Option.some.inj reached
      exact same ▸ Nat.le_add_right _ _
  | cons label labels ih =>
      rcases machine.run_cons_eq_some.mp reached with ⟨next, stepped, rest⟩
      rcases preserved initially stepped with ⟨holds, grows⟩
      have later := ih holds rest
      rw [outputs_cons machine emit stepped, List.countP_append]
      omega

/-- When every step moves a component as another machine does, or leaves it alone, every run
of the whole is a run of the component. -/
theorem exists_run_of_run {Part : Type*} {PartLabel : Type*} {part : Machine Part PartLabel}
    (project : State → Part)
    (moves : ∀ {state label next}, machine.step state label = some next →
      project next = project state ∨
        ∃ partLabel, part.step (project state) partLabel = some (project next))
    {state final : State} {labels : List Label} (reached : machine.run state labels = some final) :
    ∃ partLabels, part.run (project state) partLabels = some (project final) := by
  induction labels generalizing state with
  | nil =>
      have same : state = final := Option.some.inj reached
      subst same
      exact ⟨[], rfl⟩
  | cons label labels ih =>
      rcases machine.run_cons_eq_some.mp reached with ⟨next, stepped, rest⟩
      rcases ih rest with ⟨partLabels, continued⟩
      rcases moves stepped with same | ⟨partLabel, moved⟩
      · exact ⟨partLabels, same ▸ continued⟩
      · exact ⟨partLabel :: partLabels, part.run_cons_eq_some.mpr ⟨_, moved, continued⟩⟩

/-- The same for runs whose steps meet a condition, where an invariant of the whole decides
which condition the steps of the component meet, and a step puts out what that of the component
does. -/
theorem exists_meeting_run {Part : Type*} {PartLabel : Type*} {part : Machine Part PartLabel}
    {Output : Type*} (emit : State → Label → List Output)
    (partEmit : Part → PartLabel → List Output) (project : State → Part)
    (invariant : State → Prop) {condition : State → Label → Prop}
    {partCondition : Part → PartLabel → Prop}
    (moves : ∀ {state label next}, invariant state → condition state label →
      machine.step state label = some next → invariant next ∧
        ((project next = project state ∧ emit state label = []) ∨
          ∃ partLabel, partCondition (project state) partLabel ∧
            part.step (project state) partLabel = some (project next) ∧
              partEmit (project state) partLabel = emit state label))
    {state final : State} {labels : List Label} (initially : invariant state)
    (meets : machine.Meets condition state labels)
    (reached : machine.run state labels = some final) :
    ∃ partLabels, part.Meets partCondition (project state) partLabels ∧
      part.run (project state) partLabels = some (project final) ∧
        part.outputs partEmit (project state) partLabels = machine.outputs emit state labels := by
  induction labels generalizing state with
  | nil =>
      have same : state = final := Option.some.inj reached
      subst same
      exact ⟨[], trivial, rfl, rfl⟩
  | cons label labels ih =>
      rcases machine.run_cons_eq_some.mp reached with ⟨next, stepped, rest⟩
      rcases moves initially meets.1 stepped with ⟨invariantNext, moved⟩
      rcases ih invariantNext (meets.2 next stepped) rest with
        ⟨partLabels, partMeets, continued, same⟩
      rw [outputs_cons machine emit stepped, ← same]
      rcases moved with ⟨still, silent⟩ | ⟨partLabel, allowed, moved, here⟩
      · rw [still] at partMeets continued
        exact ⟨partLabels, partMeets, continued, by rw [silent, still, List.nil_append]⟩
      · refine ⟨partLabel :: partLabels, part.meets_cons moved allowed partMeets,
          part.run_cons_eq_some.mpr ⟨_, moved, continued⟩, ?_⟩
        rw [outputs_cons part partEmit moved, here]

end Machine

end Library
