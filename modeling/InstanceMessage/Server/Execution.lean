import InstanceMessage.Server.Answers

/-!
# A handler while no other thread moves

`State.execute` performs the actions of one program one after another, with
the outcomes that the database chooses for them, until it has returned.
`run_of_execute` says that this is a run of the server in which only one task
moves. The results about a single call are proved with one inversion lemma for
each combinator: what the state and the history are when a part has returned.
-/

namespace InstanceMessage

open Library Handler

/-- The log of a task that has performed these actions. -/
def Task.entries (task : Task) (history : History) : List Entry :=
  history.map fun performed => ⟨task.tid, task.conn, task.from_, task.data, performed⟩

namespace State

/-- The state, the history (latest first) and the value with which the program returns, when the
outcomes are those of all its actions. -/
def execute {Result : Type} (state : State) (history : History) :
    Handler Result → List Outcome → Option (State × History × Result)
  | .ret value, [] => some (state, history, value)
  | .ret _, _ :: _ => none
  | .act _ _, [] => none
  | .act action rest, outcome :: outcomes =>
      (state.perform action outcome).bind fun (after, answer) =>
        execute after (⟨action, answer⟩ :: history) (rest answer) outcomes

section Execute

variable {Result Other : Type} {state final : State} {history later : History}
  {outcomes : List Outcome} {value : Result}

theorem execute_ret {returned : Result}
    (executed : state.execute history (.ret returned) outcomes = some (final, later, value)) :
    final = state ∧ later = history ∧ value = returned ∧ outcomes = [] := by
  cases outcomes with
  | nil =>
      simp only [execute, Option.some.injEq, Prod.mk.injEq] at executed
      exact ⟨executed.1.symm, executed.2.1.symm, executed.2.2.symm, rfl⟩
  | cons outcome outcomes => simp [execute] at executed

theorem execute_act {action : Action} {rest : action.Answer → Handler Result}
    (executed : state.execute history (.act action rest) outcomes = some (final, later, value)) :
    ∃ outcome remaining after answer, outcomes = outcome :: remaining ∧
      state.perform action outcome = some (after, answer) ∧
        after.execute (⟨action, answer⟩ :: history) (rest answer) remaining =
          some (final, later, value) := by
  cases outcomes with
  | nil => simp [execute] at executed
  | cons outcome remaining =>
      simp only [execute, Option.bind_eq_some_iff] at executed
      rcases executed with ⟨⟨after, answer⟩, performed, continued⟩
      exact ⟨outcome, remaining, after, answer, rfl, performed, continued⟩

theorem execute_act_of_perform {action : Action} {rest : action.Answer → Handler Result}
    {outcome : Outcome} {after : State} {answer : action.Answer}
    (performed : state.perform action outcome = some (after, answer)) :
    state.execute history (.act action rest) (outcome :: outcomes) =
      after.execute (⟨action, answer⟩ :: history) (rest answer) outcomes := by
  simp only [execute, performed, Option.bind_some]

/-- Sequencing splits the outcomes. -/
theorem execute_bind_iff {prog : Handler Other} {rest : Other → Handler Result} :
    state.execute history (prog >>= rest) outcomes = some (final, later, value) ↔
      ∃ first second middle between returned, outcomes = first ++ second ∧
        state.execute history prog first = some (middle, between, returned) ∧
          middle.execute between (rest returned) second = some (final, later, value) := by
  induction prog generalizing state history outcomes with
  | ret returned =>
      constructor
      · intro executed
        exact ⟨[], outcomes, state, history, returned, rfl, rfl, executed⟩
      · rintro ⟨first, second, middle, between, same, rfl, executed, continued⟩
        rcases execute_ret executed with ⟨rfl, rfl, rfl, rfl⟩
        exact continued
  | act action next ih =>
      constructor
      · intro executed
        rcases execute_act executed with
          ⟨outcome, remaining, after, answer, rfl, performed, continued⟩
        rcases (ih answer).mp continued with
          ⟨first, second, middle, between, returned, rfl, executed, rest⟩
        refine ⟨outcome :: first, second, middle, between, returned, rfl, ?_, rest⟩
        rw [execute_act_of_perform performed]
        exact executed
      · rintro ⟨first, second, middle, between, returned, rfl, executed, continued⟩
        rcases execute_act executed with
          ⟨outcome, remaining, after, answer, rfl, performed, rest⟩
        rw [Program.bind_act, List.cons_append, execute_act_of_perform performed]
        exact (ih answer).mpr ⟨remaining, second, middle, between, returned, rfl, rest, continued⟩

theorem execute_bind {prog : Handler Other} {rest : Other → Handler Result}
    (executed : state.execute history (prog >>= rest) outcomes = some (final, later, value)) :
    ∃ first second middle between returned, outcomes = first ++ second ∧
      state.execute history prog first = some (middle, between, returned) ∧
        middle.execute between (rest returned) second = some (final, later, value) :=
  execute_bind_iff.mp executed

theorem not_execute_abort {cause : Cause} {rest : Other → Handler Result} :
    state.execute history (Handler.abort cause >>= rest) outcomes ≠ some (final, later, value) := by
  intro executed
  rcases execute_act executed with ⟨outcome, remaining, after, answer, _⟩
  exact answer.elim

/-! ## Parts that every handler has -/

theorem execute_perform_bind {action : Action} {rest : action.Answer → Handler Result}
    (executed : state.execute history (Handler.perform action >>= rest) outcomes =
      some (final, later, value)) :
    ∃ outcome remaining after answer, outcomes = outcome :: remaining ∧
      state.perform action outcome = some (after, answer) ∧
        after.execute (⟨action, answer⟩ :: history) (rest answer) remaining =
          some (final, later, value) := execute_act executed

theorem execute_perform_bind_of {action : Action} {rest : action.Answer → Handler Result}
    {outcome : Outcome} {after : State} {answer : action.Answer}
    (performed : state.perform action outcome = some (after, answer)) :
    state.execute history (Handler.perform action >>= rest) (outcome :: outcomes) =
      after.execute (⟨action, answer⟩ :: history) (rest answer) outcomes :=
  execute_act_of_perform performed

theorem execute_field_bind {read : Option Other} {rest : Other → Handler Result}
    (executed : state.execute history (field read >>= rest) outcomes =
      some (final, later, value)) :
    ∃ found, read = some found ∧
      state.execute history (rest found) outcomes = some (final, later, value) := by
  cases read with
  | none => exact absurd executed not_execute_abort
  | some found => exact ⟨found, rfl, executed⟩

theorem execute_sprintfS_bind {size : ℕ} {text : Bytes} {rest : Bytes → Handler Result}
    (executed : state.execute history (sprintfS size text >>= rest) outcomes =
      some (final, later, value)) :
    text.length < size ∧
      state.execute history (rest text) outcomes = some (final, later, value) := by
  simp only [sprintfS] at executed
  split at executed
  · exact ⟨‹_›, executed⟩
  · exact absurd executed not_execute_abort

theorem execute_strcpyS_bind {size : ℕ} {text : Bytes} {rest : Bytes → Handler Result}
    (executed : state.execute history (strcpyS size text >>= rest) outcomes =
      some (final, later, value)) :
    text.length < size ∧
      state.execute history (rest text) outcomes = some (final, later, value) := by
  simp only [strcpyS] at executed
  split at executed
  · exact ⟨‹_›, executed⟩
  · exact absurd executed not_execute_abort

theorem execute_toInt_bind {text : Bytes} {rest : ℤ → Handler Result}
    (executed : state.execute history (toInt text >>= rest) outcomes =
      some (final, later, value)) :
    ∃ parsed, stoi text = some parsed ∧
      state.execute history (rest parsed) outcomes = some (final, later, value) := by
  simp only [toInt] at executed
  split at executed
  · exact ⟨_, ‹_›, executed⟩
  · exact absurd executed not_execute_abort

/-- The actions of an execution are actions of the program. -/
theorem execute_only {allowed : Action → Prop} {prog : Handler Result} (only : prog.Only allowed)
    (executed : state.execute history prog outcomes = some (final, later, value)) :
    ∃ performed : History, later = performed ++ history ∧
      ∀ step ∈ performed, allowed step.action := by
  induction prog generalizing state history outcomes with
  | ret returned =>
      rcases execute_ret executed with ⟨_, rfl, _⟩
      exact ⟨[], rfl, by simp⟩
  | act action rest ih =>
      rcases execute_act executed with ⟨_, _, _, answer, _, _, continued⟩
      rcases ih answer (only.2 answer) continued with ⟨performed, rfl, others⟩
      refine ⟨performed ++ [⟨action, answer⟩], by simp, fun step member => ?_⟩
      rcases List.mem_append.mp member with later | first
      · exact others step later
      · rw [List.mem_singleton.mp first]
        exact only.1

theorem suffix_of_execute {prog : Handler Result}
    (executed : state.execute history prog outcomes = some (final, later, value)) :
    history <:+ later := by
  have only : prog.Only fun _ => True := (obeys_anyAction prog []).only fun _ _ _ => trivial
  rcases execute_only only executed with ⟨performed, rfl, _⟩
  exact List.suffix_append _ _

end Execute

/-! ## Sends that change nothing else -/

/-- Only what is sent to the connections has changed. -/
def OnlySends (state after : State) : Prop :=
  ∃ sent queued, after = { state with sent := sent, queued := queued }

theorem OnlySends.refl (state : State) : state.OnlySends state := ⟨state.sent, state.queued, rfl⟩

theorem OnlySends.trans {state middle after : State} (first : state.OnlySends middle)
    (second : middle.OnlySends after) : state.OnlySends after := by
  rcases first with ⟨_, _, rfl⟩
  rcases second with ⟨sent, queued, rfl⟩
  exact ⟨sent, queued, rfl⟩

theorem OnlySends.mMapIdToSocket {state after : State} (sends : state.OnlySends after) :
    after.mMapIdToSocket = state.mMapIdToSocket := by
  rcases sends with ⟨_, _, rfl⟩
  rfl

theorem onlySends_sendData (state : State) (packet : Bytes) (clientId : Handle) (taken : Bool) :
    state.OnlySends (state.sendData packet clientId taken) :=
  exists_sendData_eq state packet clientId taken

theorem perform_socketOf {state : State} {id : ℤ} {socket : Handle}
    (entered : state.mMapIdToSocket id = some socket) (outcome : Outcome) :
    state.perform (.socketOf id) outcome = some (state, socket) := by
  have found : state.socketOf id = (state, socket) := by
    simp only [socketOf, entered]
  exact congrArg some found

/-- The guarded send: one packet for a user who is in the map, and none for anybody else. -/
theorem execute_sendIfOnline {state final : State} {history later : History}
    {outcomes : List Outcome} {id : ℤ} {packet : Bytes}
    (executed : state.execute history (sendIfOnline id packet) outcomes = some (final, later, ())) :
    state.OnlySends final ∧ sendsOf later =
      ((state.mMapIdToSocket id).map fun socket => (packet, socket)).toList ++ sendsOf history := by
  rcases execute_perform_bind executed with ⟨_, _, _, answer, _, counted, executed⟩
  rcases Prod.mk.inj (Option.some.inj counted) with ⟨rfl, rfl⟩
  cases entered : state.mMapIdToSocket id with
  | none =>
      simp only [entered, Option.isSome_none] at executed
      rcases execute_ret executed with ⟨rfl, rfl, _⟩
      exact ⟨.refl _, rfl⟩
  | some socket =>
      simp only [entered, Option.isSome_some] at executed
      rcases execute_perform_bind executed with ⟨outcome, _, _, found, _, looked, executed⟩
      rw [perform_socketOf entered] at looked
      rcases Prod.mk.inj (Option.some.inj looked) with ⟨rfl, rfl⟩
      rcases execute_act executed with ⟨_, _, _, _, _, sends, executed⟩
      rcases Prod.mk.inj (Option.some.inj sends) with ⟨rfl, _⟩
      rcases execute_ret executed with ⟨rfl, rfl, _⟩
      exact ⟨onlySends_sendData _ _ _ _, rfl⟩

/-! ## Programs that return -/

/-- The program returns after some outcomes of its actions. -/
def Finishes {Result : Type} (state : State) (history : History) (prog : Handler Result) : Prop :=
  ∃ outcomes result, state.execute history prog outcomes = some result

section Finishes

variable {Result Other : Type} {state after : State} {history : History}

theorem Finishes.ret (state : State) (history : History) (value : Result) :
    state.Finishes history (.ret value) := ⟨[], _, rfl⟩

theorem Finishes.perform {action : Action} {rest : action.Answer → Handler Result}
    {outcome : Outcome} {answer : action.Answer}
    (performed : state.perform action outcome = some (after, answer))
    (continues : after.Finishes (⟨action, answer⟩ :: history) (rest answer)) :
    state.Finishes history (Handler.perform action >>= rest) := by
  rcases continues with ⟨outcomes, result, executed⟩
  exact ⟨outcome :: outcomes, result, (execute_act_of_perform performed).trans executed⟩

theorem Finishes.bind {prog : Handler Other} {rest : Other → Handler Result}
    (first : state.Finishes history prog)
    (second : ∀ (middle : State) between value, middle.Finishes between (rest value)) :
    state.Finishes history (prog >>= rest) := by
  rcases first with ⟨_, ⟨middle, between, value⟩, executed⟩
  rcases second middle between value with ⟨_, ⟨final, later, returned⟩, continued⟩
  exact ⟨_, _, execute_bind_iff.mpr ⟨_, _, middle, between, value, rfl, executed, continued⟩⟩

theorem finishes_sendIfOnline (state : State) (history : History) (id : ℤ) (packet : Bytes) :
    state.Finishes history (sendIfOnline id packet) := by
  apply Finishes.perform (show state.perform (.count id) .internal = some (state, _) from rfl)
  split
  · apply Finishes.perform (show state.perform (.socketOf id) .internal =
      some ((state.socketOf id).1, (state.socketOf id).2) from rfl)
    exact ⟨[.internal], _, rfl⟩
  · exact .ret _ _ _

end Finishes

/-! ## Executions and runs of the server -/

def withTasks (state : State) (tasks : List Task) (log : List Entry) : State :=
  { state with tasks := tasks, log := log }

/-- No action reads or changes the tasks and the log. -/
theorem perform_withTasks {state after : State} {action : Action} {outcome : Outcome}
    {answer : action.Answer} (tasks : List Task) (log : List Entry)
    (performed : state.perform action outcome = some (after, answer)) :
    (state.withTasks tasks log).perform action outcome =
      some (after.withTasks tasks log, answer) := by
  have frame : (state.withTasks tasks log).perform action outcome =
      (state.perform action outcome).map fun (after, answer) =>
        (after.withTasks tasks log, answer) := by
    cases action with
    | select stmt nColumn =>
        cases outcome with
        | rows rows =>
            cases rows with
            | none => rfl
            | some rows =>
                simp only [perform]
                split <;> rfl
        | internal | updated | refused => rfl
    | update stmt =>
        cases outcome with
        | updated ok rowId => cases ok <;> cases stmt <;> rfl
        | internal | rows | refused => rfl
    | sendData packet clientId =>
        simp only [perform, sendData, withTasks]
        split
        · rfl
        · split <;> rfl
    | socketOf id =>
        simp only [perform, socketOf, withTasks]
        split <;> rfl
    | count | setSocket | erase | closesocket | exit | abort => rfl
  rw [frame, performed, Option.map_some]

theorem not_stops_of_perform {state : State} {action : Action} {outcome : Outcome}
    {result : State × action.Answer} (performed : state.perform action outcome = some result) :
    ¬action.Stops := by
  intro stops
  cases action with
  | exit | abort => simp [perform] at performed
  | _ => exact stops

theorem run_of_execute_withTasks {state final : State} {task : Task} {index : ℕ}
    {history later : History} {outcomes : List Outcome} (tasks : List Task)
    (log : List Entry) (running : state.halted = false) (present : tasks[index]? = some task)
    (executed : state.execute history task.prog outcomes = some (final, later, ())) :
    ∃ performed, later = performed ++ history ∧
      server.run (state.withTasks tasks log) (outcomes.map (.act index)) = some (final.withTasks
        (tasks.set index { task with prog := .ret () }) (task.entries performed ++ log)) := by
  induction outcomes generalizing state history task tasks log with
  | nil =>
      cases shape : task.prog with
      | act action rest => simp [shape, execute] at executed
      | ret value =>
          rw [shape] at executed
          rcases execute_ret executed with ⟨rfl, rfl, _, _⟩
          refine ⟨[], rfl, ?_⟩
          rcases List.getElem?_eq_some_iff.mp present with ⟨bound, same⟩
          have unchanged : tasks.set index { task with prog := .ret () } = tasks := by
            rw [← shape, ← same, List.set_getElem_self]
          rw [unchanged]
          rfl
  | cons outcome remaining ih =>
      cases shape : task.prog with
      | ret value => simp [shape, execute] at executed
      | act action rest =>
          rw [shape] at executed
          rcases execute_act executed with ⟨_, _, after, answer, split, performed, continued⟩
          rcases List.cons.inj split with ⟨rfl, rfl⟩
          have frame := (performs_of_perform performed).sameFrame
          have moved : (tasks.set index { task with prog := rest answer })[index]? =
              some { task with prog := rest answer } := by
            rw [List.getElem?_set_self (List.getElem?_eq_some_iff.mp present).1]
          have stepped : (state.withTasks tasks log).step (.act index outcome) =
              some (after.withTasks (tasks.set index { task with prog := rest answer })
                (task.entries [⟨action, answer⟩] ++ log)) := by
            have halted : (state.withTasks tasks log).halted = false := running
            have found : (state.withTasks tasks log).tasks[index]? = some task := present
            simp only [step, halted, act, found, shape, if_neg (not_stops_of_perform performed),
              perform_withTasks tasks log performed]
            rfl
          rcases ih _ _ (frame.halted.trans running) moved continued with ⟨more, rfl, reached⟩
          refine ⟨more ++ [⟨action, answer⟩], by simp, ?_⟩
          rw [List.map_cons, server.run_cons_eq_some]
          refine ⟨_, stepped, ?_⟩
          simpa [Task.entries] using reached

/-- An execution is a run of the server in which one task moves and nothing else happens. -/
theorem run_of_execute {state final : State} {task : Task} {index : ℕ} {history : History}
    {outcomes : List Outcome} (running : state.halted = false)
    (present : state.tasks[index]? = some task)
    (executed : state.execute [] task.prog outcomes = some (final, history, ())) :
    server.run state (outcomes.map (.act index)) = some (final.withTasks
      (state.tasks.set index { task with prog := .ret () })
      (task.entries history ++ state.log)) := by
  rcases run_of_execute_withTasks state.tasks state.log running present executed with
    ⟨performed, same, reached⟩
  rw [List.append_nil] at same
  subst same
  exact reached

end State

end InstanceMessage
