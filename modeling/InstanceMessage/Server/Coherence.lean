import InstanceMessage.Server.Contract
import InstanceMessage.Server.Steps

/-!
# Every handler keeps to its law

In every reachable state the tasks have identities of their own, the log of
performed actions tells which packet each action belongs to, and every entry of
the log is allowed by the law of its packet at the history of that packet. A
property of what the server did, over whole runs, is then a property of the log.
-/

namespace InstanceMessage

open Library

/-- The actions performed for one packet, latest first. -/
def historyOf (log : List Entry) (tid : TaskId) : History :=
  (log.filter (·.tid = tid)).map Entry.performed

/-- The entry records an action for the packet of the task. -/
def Entry.OfTask (entry : Entry) (task : Task) : Prop :=
  entry.conn = task.conn ∧ entry.from_ = task.from_ ∧ entry.data = task.data

theorem historyOf_cons_self {entry : Entry} {log : List Entry} :
    historyOf (entry :: log) entry.tid = entry.performed :: historyOf log entry.tid := by
  simp [historyOf]

theorem historyOf_cons_of_ne {entry : Entry} {log : List Entry} {tid : TaskId}
    (different : entry.tid ≠ tid) : historyOf (entry :: log) tid = historyOf log tid := by
  simp [historyOf, different]

theorem mem_historyOf {performed : Performed Action.Answer} {log : List Entry} {tid : TaskId} :
    performed ∈ historyOf log tid ↔
      ∃ entry ∈ log, entry.tid = tid ∧ entry.performed = performed := by
  simp [historyOf, and_assoc]

namespace State

/-- The bookkeeping invariant of the running server. -/
structure Coherent (state : State) : Prop where
  taskFresh : ∀ task ∈ state.tasks, task.tid < state.nextTask
  distinct : (state.tasks.map Task.tid).Nodup
  logFresh : ∀ entry ∈ state.log, entry.tid < state.nextTask
  ofTask : ∀ task ∈ state.tasks, ∀ entry ∈ state.log, entry.tid = task.tid → entry.OfTask task
  samePacket : ∀ entry ∈ state.log, ∀ other ∈ state.log, entry.tid = other.tid →
    entry.conn = other.conn ∧ entry.from_ = other.from_ ∧ entry.data = other.data
  lawful : ∀ task ∈ state.tasks,
    Lawful task.data task.from_ task.prog (historyOf state.log task.tid)
  logLawful : ∀ newer entry older, state.log = newer ++ entry :: older →
    law entry.data entry.from_ (historyOf older entry.tid) entry.performed.action

theorem index_eq_of_tid_eq {tasks : List Task} {index position : ℕ} {task other : Task}
    (distinct : (tasks.map Task.tid).Nodup) (present : tasks[index]? = some task)
    (found : tasks[position]? = some other) (same : task.tid = other.tid) : index = position := by
  have atIndex : (tasks.map Task.tid)[index]? = some task.tid := by simp [present]
  have atPosition : (tasks.map Task.tid)[position]? = some task.tid := by simp [found, same]
  have bound := (List.getElem?_eq_some_iff.mp atIndex).1
  exact (List.getElem?_inj bound distinct).mp (atIndex.trans atPosition.symm)

/-- A packet's task is replaced at its position; the other tasks have other identities. -/
theorem mem_set_task {tasks : List Task} {index : ℕ} {task replaced other : Task}
    (distinct : (tasks.map Task.tid).Nodup) (present : tasks[index]? = some task)
    (member : other ∈ tasks.set index replaced) :
    other = replaced ∨ (other ∈ tasks ∧ other.tid ≠ task.tid) := by
  rcases List.mem_iff_getElem?.mp member with ⟨position, found⟩
  rw [List.getElem?_set] at found
  split at found
  · split at found
    · exact Or.inl (Option.some.inj found).symm
    · simp at found
  · rename_i elsewhere
    refine Or.inr ⟨List.mem_iff_getElem?.mpr ⟨position, found⟩, fun same => elsewhere ?_⟩
    exact index_eq_of_tid_eq distinct present found same.symm

theorem mem_tasks_of_advance_of_ne {state after : State} {index : ℕ} {task other : Task}
    {action : Action} {answer : action.Answer} {prog : Handler Unit}
    (distinct : (state.tasks.map Task.tid).Nodup) (frame : SameFrame state after)
    (present : state.tasks[index]? = some task)
    (member : other ∈ (after.advance index task action answer prog).tasks) :
    other = { task with prog := prog } ∨ (other ∈ state.tasks ∧ other.tid ≠ task.tid) := by
  apply mem_set_task distinct present
  rw [← frame.tasks]
  exact member

theorem map_tid_set {tasks : List Task} {index : ℕ} {task : Task} {prog : Handler Unit}
    (present : tasks[index]? = some task) :
    (tasks.set index { task with prog := prog }).map Task.tid = tasks.map Task.tid := by
  rw [List.map_set]
  apply List.ext_getElem?
  intro position
  rw [List.getElem?_set]
  split
  · rename_i same
    subst same
    split
    · simp [present]
    · rename_i outside
      exact (List.getElem?_eq_none (by omega)).symm
  · rfl

theorem coherent_start (tUser : List UserRow) (tFriend : List (ℤ × ℤ)) :
    (start tUser tFriend).Coherent where
  taskFresh := by simp [start]
  distinct := by simp [start]
  logFresh := by simp [start]
  ofTask := by simp [start]
  samePacket := by simp [start]
  lawful := by simp [start]
  logLawful := by simp [start]

theorem Coherent.congr {state after : State} (coherent : state.Coherent)
    (tasks : after.tasks = state.tasks) (log : after.log = state.log)
    (nextTask : after.nextTask = state.nextTask) : after.Coherent where
  taskFresh := by rw [tasks, nextTask]; exact coherent.taskFresh
  distinct := by rw [tasks]; exact coherent.distinct
  logFresh := by rw [log, nextTask]; exact coherent.logFresh
  ofTask := by rw [tasks, log]; exact coherent.ofTask
  samePacket := by rw [log]; exact coherent.samePacket
  lawful := by rw [tasks, log]; exact coherent.lawful
  logLawful := by rw [log]; exact coherent.logLawful

theorem Coherent.sublist {state : State} {tasks : List Task} (coherent : state.Coherent)
    (fewer : tasks.Sublist state.tasks) (halted : Bool) :
    ({ state with tasks := tasks, halted := halted } : State).Coherent where
  taskFresh := fun task member => coherent.taskFresh task (fewer.subset member)
  distinct := coherent.distinct.sublist (fewer.map Task.tid)
  logFresh := coherent.logFresh
  ofTask := fun task member => coherent.ofTask task (fewer.subset member)
  samePacket := coherent.samePacket
  lawful := fun task member => coherent.lawful task (fewer.subset member)
  logLawful := coherent.logLawful

/-- A new packet has no history, and its handler obeys the law from the start. -/
theorem Coherent.receive {state : State} (coherent : state.Coherent) (conn : ConnId)
    (data : Bytes) : (state.receive conn data).Coherent where
  taskFresh := by
    intro task member
    rcases List.mem_append.mp member with old | new
    · exact Nat.lt_succ_of_lt (coherent.taskFresh task old)
    · rw [List.mem_singleton.mp new]
      exact Nat.lt_succ_self _
  distinct := by
    simp only [State.receive, List.map_append, List.map_cons, List.map_nil]
    refine List.nodup_append.mpr ⟨coherent.distinct, List.nodup_singleton _, ?_⟩
    intro tid old other new
    rcases List.mem_map.mp old with ⟨task, member, rfl⟩
    rw [List.mem_singleton.mp new]
    exact (coherent.taskFresh task member).ne
  logFresh := fun entry member => Nat.lt_succ_of_lt (coherent.logFresh entry member)
  ofTask := by
    intro task member entry logged same
    rcases List.mem_append.mp member with old | new
    · exact coherent.ofTask task old entry logged same
    · rw [List.mem_singleton.mp new] at same
      exact absurd same (coherent.logFresh entry logged).ne
  samePacket := coherent.samePacket
  lawful := by
    intro task member
    rcases List.mem_append.mp member with old | new
    · exact coherent.lawful task old
    · rw [List.mem_singleton.mp new]
      exact dealData_lawful data _ _
  logLawful := coherent.logLawful

/-- The performed action was allowed, and what is left of the program obeys the law at the
longer history. -/
theorem Coherent.advance {state : State} (coherent : state.Coherent) {index : ℕ} {task : Task}
    {action : Action} {rest : action.Answer → Handler Unit} (answer : action.Answer)
    (present : state.tasks[index]? = some task) (next : task.prog = .act action rest) :
    (state.advance index task action answer (rest answer)).Coherent := by
  have member : task ∈ state.tasks := List.mem_of_getElem? present
  have obeys := coherent.lawful task member
  rw [next] at obeys
  refine ⟨?_, ?_, ?_, ?_, ?_, ?_, ?_⟩
  · intro other otherMem
    rcases mem_set_task coherent.distinct present otherMem with rfl | ⟨old, _⟩
    · exact coherent.taskFresh task member
    · exact coherent.taskFresh other old
  · simp only [State.advance, map_tid_set present]
    exact coherent.distinct
  · intro entry logged
    rcases List.mem_cons.mp logged with rfl | old
    · exact coherent.taskFresh task member
    · exact coherent.logFresh entry old
  · intro other otherMem entry logged same
    rcases mem_set_task coherent.distinct present otherMem with rfl | ⟨old, different⟩
    · rcases List.mem_cons.mp logged with rfl | earlier
      · exact ⟨rfl, rfl, rfl⟩
      · exact coherent.ofTask task member entry earlier same
    · rcases List.mem_cons.mp logged with rfl | earlier
      · exact absurd same.symm different
      · exact coherent.ofTask other old entry earlier same
  · intro entry logged other otherLogged same
    rcases List.mem_cons.mp logged with rfl | earlier <;>
      rcases List.mem_cons.mp otherLogged with rfl | otherEarlier
    · exact ⟨rfl, rfl, rfl⟩
    · rcases coherent.ofTask task member other otherEarlier same.symm with ⟨conn, handle, data⟩
      exact ⟨conn.symm, handle.symm, data.symm⟩
    · exact coherent.ofTask task member entry earlier same
    · exact coherent.samePacket entry earlier other otherEarlier same
  · intro other otherMem
    rcases mem_set_task coherent.distinct present otherMem with rfl | ⟨old, different⟩
    · simp only [State.advance]
      rw [historyOf_cons_self]
      exact obeys.2 answer
    · simp only [State.advance]
      rw [historyOf_cons_of_ne (Ne.symm different)]
      exact coherent.lawful other old
  · intro newer entry older split
    cases newer with
    | nil =>
        simp only [State.advance, List.nil_append, List.cons.injEq] at split
        rcases split with ⟨rfl, rfl⟩
        exact obeys.1
    | cons first newer =>
        simp only [State.advance, List.cons_append, List.cons.injEq] at split
        exact coherent.logLawful newer entry older split.2

theorem Coherent.step {state next : State} {event : Event} (coherent : state.Coherent)
    (stepped : state.step event = some next) : next.Coherent := by
  cases stepped_of_step stepped with
  | accept | list | closeSocket | eraseClient => exact coherent.congr rfl rfl rfl
  | receive => exact coherent.receive _ _
  | perform present next goesOn performed =>
      have frame := (performs_of_perform performed).sameFrame
      exact (coherent.congr frame.tasks frame.log frame.nextTask).advance _
        (frame.tasks ▸ present) next
  | halt => exact coherent.sublist (List.nil_sublist _) true
  | finish => exact coherent.sublist (List.eraseIdx_sublist _ _) _

theorem Coherent.historyOf_nextTask {state : State} (coherent : state.Coherent) :
    historyOf state.log state.nextTask = [] := by
  simp only [historyOf, List.map_eq_nil_iff, List.filter_eq_nil_iff, decide_eq_true_eq]
  exact fun entry logged => (coherent.logFresh entry logged).ne

section Obeys

variable {law : Bytes → Handle → History → Action → Prop}
  {onReturn : Bytes → Handle → History → Unit → Prop}

/-- What is left of every task obeys the law at the history of its packet. -/
def Obey (law : Bytes → Handle → History → Action → Prop)
    (onReturn : Bytes → Handle → History → Unit → Prop) (state : State) : Prop :=
  ∀ task ∈ state.tasks, task.prog.Obeys (law task.data task.from_)
    (onReturn task.data task.from_) (historyOf state.log task.tid)

/-- A law that the handlers obey from the start is obeyed in every reachable state. -/
theorem Obey.step
    (starts : ∀ data from_, (dealData data from_).Obeys (law data from_) (onReturn data from_) [])
    {state next : State} {event : Event} (obey : state.Obey law onReturn)
    (coherent : state.Coherent) (stepped : state.step event = some next) :
    next.Obey law onReturn := by
  cases stepped_of_step stepped with
  | accept | list | closeSocket | eraseClient => exact obey
  | @receive conn data =>
      intro task member
      rcases List.mem_append.mp member with old | new
      · exact obey task old
      · rw [List.mem_singleton.mp new]
        simp only [State.receive, coherent.historyOf_nextTask]
        exact starts _ _
  | @perform index outcome task action rest after answer present shape goesOn performed =>
      have frame := (performs_of_perform performed).sameFrame
      have acting := obey task (List.mem_of_getElem? present)
      rw [shape] at acting
      intro other member
      rw [log_advance frame]
      rcases mem_tasks_of_advance_of_ne coherent.distinct frame present member with
        rfl | ⟨old, different⟩
      · rw [historyOf_cons_self]
        exact acting.2 answer
      · rw [historyOf_cons_of_ne (Ne.symm different)]
        exact obey other old
  | halt => simp [Obey, State.halt]
  | finish => exact fun task member => obey task (List.mem_of_mem_eraseIdx member)

/-- Every entry of the log was allowed by the law when it was made. -/
def LogObeys (law : Bytes → Handle → History → Action → Prop) (state : State) : Prop :=
  ∀ newer entry older, state.log = newer ++ entry :: older →
    law entry.data entry.from_ (historyOf older entry.tid) entry.performed.action

theorem LogObeys.step {state next : State} {event : Event} (logObeys : state.LogObeys law)
    (obey : state.Obey law onReturn) (stepped : state.step event = some next) :
    next.LogObeys law := by
  cases stepped_of_step stepped with
  | accept | list | closeSocket | eraseClient | receive | halt | finish => exact logObeys
  | @perform index outcome task action rest after answer present shape goesOn performed =>
      have acting := obey task (List.mem_of_getElem? present)
      rw [shape] at acting
      intro newer entry older split
      rw [log_advance (performs_of_perform performed).sameFrame] at split
      cases newer with
      | nil =>
          rcases List.cons.inj split with ⟨rfl, rfl⟩
          exact acting.1
      | cons first newer => exact logObeys newer entry older (List.cons.inj split).2

end Obeys

end State

end InstanceMessage
