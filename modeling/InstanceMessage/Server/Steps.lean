import InstanceMessage.Server.Semantics

/-!
# What one step of the server can do

`Stepped` lists the possible steps with their guards and effects; a proof that
some property survives every step is a case analysis on it and never unfolds
the step function. The frame lemmas say what an action leaves unchanged, and
which single action can change each table.
-/

namespace InstanceMessage

open Library

namespace State

/-- The steps of a running server, with their guards and effects. -/
inductive Stepped (state : State) : Event → State → Prop
  | accept {socket : Handle} (free : state.sockets socket = none) :
      Stepped state (.accept socket) (state.accept socket)
  | list {conn : ConnId} (accepted : state.context conn = .accepted) :
      Stepped state (.list conn) (state.list conn)
  | receive {conn : ConnId} {data : Bytes} (receiving : state.context conn = .receiving)
      (nonempty : data ≠ []) (bounded : data.length ≤ 10 * 1024 * 1024) :
      Stepped state (.receive conn data) (state.receive conn data)
  | closeSocket {conn : ConnId} (receiving : state.context conn = .receiving) :
      Stepped state (.closeSocket conn) (state.closeSocket conn)
  | eraseClient {conn : ConnId} (closing : state.context conn = .closing) :
      Stepped state (.eraseClient conn) (state.eraseClient conn)
  | perform {index : ℕ} {outcome : Outcome} {task : Task} {action : Action}
      {rest : action.Answer → Handler Unit} {after : State} {answer : action.Answer}
      (present : state.tasks[index]? = some task) (next : task.prog = .act action rest)
      (goesOn : ¬action.Stops) (performed : state.perform action outcome = some (after, answer)) :
      Stepped state (.act index outcome) (after.advance index task action answer (rest answer))
  | halt {index : ℕ} {outcome : Outcome} {task : Task} {action : Action}
      {rest : action.Answer → Handler Unit}
      (present : state.tasks[index]? = some task) (next : task.prog = .act action rest)
      (stops : action.Stops) : Stepped state (.act index outcome) state.halt
  | finish {index : ℕ} {task : Task} (present : state.tasks[index]? = some task)
      (returned : task.prog = .ret ()) :
      Stepped state (.finish index) { state with tasks := state.tasks.eraseIdx index }

theorem returned_of_returned {state : State} {index : ℕ} (returned : state.returned index = true) :
    ∃ task, state.tasks[index]? = some task ∧ task.prog = .ret () := by
  simp only [State.returned] at returned
  split at returned
  · rename_i task present
    split at returned
    · rename_i shape
      exact ⟨task, present, shape⟩
    · simp at returned
  · simp at returned

theorem stepped_of_act {state next : State} {index : ℕ} {outcome : Outcome}
    (acted : state.act index outcome = some next) :
    Stepped state (.act index outcome) next := by
  simp only [act] at acted
  split at acted
  · simp at acted
  · rename_i task present
    split at acted
    · simp at acted
    · rename_i action rest shape
      split at acted
      · rename_i stops
        rcases Option.some.inj acted with rfl
        exact .halt present shape stops
      · rename_i goesOn
        rcases Option.map_eq_some_iff.mp acted with ⟨⟨after, answer⟩, performed, rfl⟩
        exact .perform present shape goesOn performed

theorem stepped_of_step {state next : State} {event : Event}
    (stepped : state.step event = some next) : Stepped state event next := by
  simp only [step] at stepped
  split at stepped
  · simp at stepped
  · cases event with
    | accept socket =>
        rcases Option.ite_none_right_eq_some.mp stepped with ⟨free, same⟩
        exact Option.some.inj same ▸ .accept free
    | list conn =>
        rcases Option.ite_none_right_eq_some.mp stepped with ⟨accepted, same⟩
        exact Option.some.inj same ▸ .list accepted
    | receive conn data =>
        rcases Option.ite_none_right_eq_some.mp stepped with ⟨⟨receiving, nonempty, bounded⟩, same⟩
        exact Option.some.inj same ▸ .receive receiving nonempty bounded
    | closeSocket conn =>
        rcases Option.ite_none_right_eq_some.mp stepped with ⟨receiving, same⟩
        exact Option.some.inj same ▸ .closeSocket receiving
    | eraseClient conn =>
        rcases Option.ite_none_right_eq_some.mp stepped with ⟨closing, same⟩
        exact Option.some.inj same ▸ .eraseClient closing
    | act index outcome => exact stepped_of_act stepped
    | finish index =>
        rcases Option.ite_none_right_eq_some.mp stepped with ⟨finished, same⟩
        rcases returned_of_returned finished with ⟨task, present, shape⟩
        exact Option.some.inj same ▸ .finish present shape

theorem not_halted_of_step {state next : State} {event : Event}
    (stepped : state.step event = some next) : state.halted = false := by
  simp only [step] at stepped
  split at stepped
  · simp at stepped
  · rename_i running
    simpa using running

/-! ## What an action leaves unchanged -/

/-- The parts of the state which no action of a handler changes. -/
structure SameFrame (state after : State) : Prop where
  tasks : after.tasks = state.tasks
  log : after.log = state.log
  nextTask : after.nextTask = state.nextTask
  nextConn : after.nextConn = state.nextConn
  handleOf : after.handleOf = state.handleOf
  context : after.context = state.context
  mClients : after.mClients = state.mClients
  halted : after.halted = state.halted

theorem SameFrame.refl (state : State) : SameFrame state state :=
  ⟨rfl, rfl, rfl, rfl, rfl, rfl, rfl, rfl⟩

theorem exists_sendData_eq (state : State) (data : Bytes) (clientId : Handle) (taken : Bool) :
    ∃ sent queued, state.sendData data clientId taken =
      { state with sent := sent, queued := queued } := by
  simp only [sendData]
  split
  · exact ⟨state.sent, state.queued, rfl⟩
  · split
    · exact ⟨state.sent, state.queued, rfl⟩
    · exact ⟨_, _, rfl⟩

theorem exists_socketOf_eq (state : State) (id : ℤ) :
    ∃ entries, (state.socketOf id).1 = { state with mMapIdToSocket := entries } := by
  simp only [socketOf]
  split
  · exact ⟨state.mMapIdToSocket, rfl⟩
  · exact ⟨_, rfl⟩

theorem sameFrame_sendData (state : State) (data : Bytes) (clientId : Handle) (taken : Bool) :
    SameFrame state (state.sendData data clientId taken) := by
  rcases state.exists_sendData_eq data clientId taken with ⟨sent, queued, same⟩
  rw [same]
  exact ⟨rfl, rfl, rfl, rfl, rfl, rfl, rfl, rfl⟩

theorem sameFrame_socketOf (state : State) (id : ℤ) :
    SameFrame state (state.socketOf id).1 := by
  rcases state.exists_socketOf_eq id with ⟨entries, same⟩
  rw [same]
  exact ⟨rfl, rfl, rfl, rfl, rfl, rfl, rfl, rfl⟩

theorem sameFrame_updated (state : State) (rowId : ℤ) (stmt : Stmt) :
    SameFrame state (state.updated rowId stmt) := by
  cases stmt <;> exact ⟨rfl, rfl, rfl, rfl, rfl, rfl, rfl, rfl⟩

/-- The effect of each action, with its answer. -/
inductive Performs (state : State) : (action : Action) → State → action.Answer → Prop
  | count (id : ℤ) : Performs state (.count id) state (state.mMapIdToSocket id).isSome
  | socketOf (id : ℤ) :
      Performs state (.socketOf id) (state.socketOf id).1 (state.socketOf id).2
  | setSocket (id : ℤ) (socket : Handle) : Performs state (.setSocket id socket)
      { state with mMapIdToSocket := Function.update state.mMapIdToSocket id (some socket) } ()
  | erase (id : ℤ) : Performs state (.erase id)
      { state with mMapIdToSocket := Function.update state.mMapIdToSocket id none } ()
  | closesocket (socket : Handle) : Performs state (.closesocket socket)
      { state with sockets := Function.update state.sockets socket none } ()
  | selected (stmt : Stmt) (nColumn : ℕ) (rows : List (List Bytes))
      (shape : ∀ row ∈ rows, row.length = nColumn) :
      Performs state (.select stmt nColumn) state (some rows.flatten)
  | selectFailed (stmt : Stmt) (nColumn : ℕ) : Performs state (.select stmt nColumn) state none
  | updated (stmt : Stmt) (rowId : ℤ) :
      Performs state (.update stmt) (state.updated rowId stmt) true
  | updateFailed (stmt : Stmt) : Performs state (.update stmt) state false
  | sendData (data : Bytes) (clientId : Handle) (taken : Bool) :
      Performs state (.sendData data clientId) (state.sendData data clientId taken) ()

theorem performs_of_perform {state after : State} {action : Action} {outcome : Outcome}
    {answer : action.Answer} (performed : state.perform action outcome = some (after, answer)) :
    Performs state action after answer := by
  cases action with
  | select stmt nColumn =>
      cases outcome with
      | rows rows =>
          cases rows with
          | none =>
              rcases Prod.mk.inj (Option.some.inj performed) with ⟨rfl, rfl⟩
              exact .selectFailed stmt nColumn
          | some rows =>
              rcases Option.ite_none_right_eq_some.mp performed with ⟨shape, same⟩
              rcases Prod.mk.inj (Option.some.inj same) with ⟨rfl, rfl⟩
              exact .selected stmt nColumn rows (by simpa using shape)
      | internal | updated | refused => simp [perform] at performed
  | update stmt =>
      cases outcome with
      | updated ok rowId =>
          cases ok <;> obtain ⟨rfl, rfl⟩ := Prod.mk.inj (Option.some.inj performed)
          · exact .updateFailed stmt
          · exact .updated stmt rowId
      | internal | rows | refused => simp [perform] at performed
  | exit code => simp [perform] at performed
  | abort cause => simp [perform] at performed
  | count id =>
      rcases Prod.mk.inj (Option.some.inj performed) with ⟨rfl, rfl⟩
      exact .count id
  | socketOf id =>
      have same : state.socketOf id = (after, answer) := Option.some.inj performed
      have same : (state.socketOf id).1 = after := congrArg Prod.fst same
      subst same
      have same : (state.socketOf id).2 = answer := congrArg Prod.snd same
      subst same
      exact .socketOf id
  | setSocket id socket =>
      rcases Prod.mk.inj (Option.some.inj performed) with ⟨rfl, rfl⟩
      exact .setSocket id socket
  | erase id =>
      rcases Prod.mk.inj (Option.some.inj performed) with ⟨rfl, rfl⟩
      exact .erase id
  | closesocket socket =>
      rcases Prod.mk.inj (Option.some.inj performed) with ⟨rfl, rfl⟩
      exact .closesocket socket
  | sendData data clientId =>
      rcases Prod.mk.inj (Option.some.inj performed) with ⟨rfl, rfl⟩
      exact .sendData data clientId outcome.takes

theorem Performs.eq_sendData {state after : State} {packet : Bytes} {clientId : Handle}
    {answer : (Action.sendData packet clientId).Answer}
    (performs : Performs state (.sendData packet clientId) after answer) :
    ∃ taken, after = state.sendData packet clientId taken := by
  cases performs with
  | sendData _ _ taken => exact ⟨taken, rfl⟩

theorem updated_of_perform {state after : State} {stmt : Stmt} {outcome : Outcome} {ok : Bool}
    (performed : state.perform (.update stmt) outcome = some (after, ok)) :
    ∃ rowId, outcome = .updated ok rowId := by
  cases outcome with
  | updated answered rowId =>
      cases answered <;> exact ⟨rowId, by rw [(Prod.mk.inj (Option.some.inj performed)).2]⟩
  | internal | rows | refused => simp [perform] at performed

theorem Performs.sameFrame {state after : State} {action : Action} {answer : action.Answer}
    (performs : Performs state action after answer) : SameFrame state after := by
  cases performs with
  | count | selected | selectFailed | updateFailed => exact .refl _
  | socketOf id => exact sameFrame_socketOf state id
  | setSocket | erase | closesocket => exact ⟨rfl, rfl, rfl, rfl, rfl, rfl, rfl, rfl⟩
  | updated stmt rowId => exact sameFrame_updated state rowId stmt
  | sendData data clientId taken => exact sameFrame_sendData state data clientId taken

/-! ## Which action changes a table -/

/-- Only `closesocket` changes what a handle stands for. -/
theorem Performs.sockets {state after : State} {action : Action} {answer : action.Answer}
    (performs : Performs state action after answer) (socket : Handle) :
    after.sockets socket = state.sockets socket ∨
      (action = .closesocket socket ∧ after.sockets socket = none) := by
  cases performs with
  | count | setSocket | erase | selected | selectFailed | updateFailed => exact Or.inl rfl
  | socketOf id =>
      rcases state.exists_socketOf_eq id with ⟨entries, same⟩
      exact Or.inl (by rw [same])
  | updated stmt rowId => cases stmt <;> exact Or.inl rfl
  | sendData data clientId taken =>
      rcases state.exists_sendData_eq data clientId taken with ⟨sent, queued, same⟩
      exact Or.inl (by rw [same])
  | closesocket closed =>
      by_cases same : socket = closed
      · exact Or.inr ⟨by rw [same], by simp [same]⟩
      · exact Or.inl (by simp [Function.update_of_ne same])

/-- An entry of the map was there before, has just been written by a login, or is the zero of
a lookup that found nothing. -/
theorem Performs.entry {state after : State} {action : Action} {answer : action.Answer}
    (performs : Performs state action after answer) {id : ℤ} {socket : Handle}
    (entered : after.mMapIdToSocket id = some socket) :
    state.mMapIdToSocket id = some socket ∨ action = .setSocket id socket ∨
      (action = .socketOf id ∧ state.mMapIdToSocket id = none ∧ socket = 0) := by
  cases performs with
  | count | closesocket | selected | selectFailed | updateFailed => exact Or.inl entered
  | updated stmt rowId => cases stmt <;> exact Or.inl entered
  | sendData data clientId taken =>
      rcases state.exists_sendData_eq data clientId taken with ⟨sent, queued, same⟩
      rw [same] at entered
      exact Or.inl entered
  | erase gone =>
      by_cases same : id = gone
      · simp [same] at entered
      · exact Or.inl (by simpa [Function.update_of_ne same] using entered)
  | setSocket written value =>
      by_cases same : id = written
      · subst same
        have : value = socket := by simpa using entered
        exact Or.inr (Or.inl (by rw [this]))
      · exact Or.inl (by simpa [Function.update_of_ne same] using entered)
  | socketOf key =>
      simp only [State.socketOf] at entered
      split at entered
      · exact Or.inl entered
      · rename_i absent
        by_cases same : id = key
        · subst same
          have : socket = 0 := by simpa using entered.symm
          exact Or.inr (Or.inr ⟨rfl, absent, this⟩)
        · exact Or.inl (by simpa [Function.update_of_ne same] using entered)

/-- A lookup finds the entry, or answers the zero that it enters. -/
theorem Performs.found {state after : State} {action : Action} {answer : action.Answer}
    (performs : Performs state action after answer) {id : ℤ} {socket : Handle}
    (lookup : (⟨action, answer⟩ : Performed Action.Answer) = ⟨.socketOf id, socket⟩) :
    state.mMapIdToSocket id = some socket ∨ socket = 0 := by
  have same : action = .socketOf id := congrArg Performed.action lookup
  subst same
  have same : answer = socket := eq_of_heq (Performed.mk.inj lookup).2
  subst same
  cases performs
  simp only [State.socketOf]
  split
  · rename_i found
    exact Or.inl found
  · exact Or.inr rfl

/-- Only a successful insert changes the friend table, by its own row at the end. -/
theorem Performs.tFriend {state after : State} {action : Action} {answer : action.Answer}
    (performs : Performs state action after answer) :
    after.tFriend = state.tFriend ∨ ∃ idA idB, action = .update (.insertFriend idA idB) ∧
      after.tFriend = state.tFriend ++ [(idA, idB)] := by
  cases performs with
  | count | setSocket | erase | closesocket | selected | selectFailed | updateFailed =>
      exact Or.inl rfl
  | socketOf id =>
      rcases state.exists_socketOf_eq id with ⟨entries, same⟩
      exact Or.inl (by rw [same])
  | sendData data clientId taken =>
      rcases state.exists_sendData_eq data clientId taken with ⟨sent, queued, same⟩
      exact Or.inl (by rw [same])
  | updated stmt rowId =>
      cases stmt with
      | insertFriend idA idB => exact Or.inr ⟨idA, idB, rfl, rfl⟩
      | _ => exact Or.inl rfl

/-- Only a successful insert changes the account table, by its own row at the end. -/
theorem Performs.tUser {state after : State} {action : Action} {answer : action.Answer}
    (performs : Performs state action after answer) :
    (after.tUser = state.tUser ∧ ∀ name tel password,
        (⟨action, answer⟩ : Performed Action.Answer) ≠
          ⟨.update (.insertUser name tel password), true⟩) ∨
      ∃ name tel password rowId,
        (⟨action, answer⟩ : Performed Action.Answer) =
            ⟨.update (.insertUser name tel password), true⟩ ∧
          after.tUser = state.tUser ++ [⟨rowId, name, tel, password, defaultFeeling, 4⟩] := by
  cases performs with
  | count | setSocket | erase | closesocket | selected | selectFailed =>
      exact Or.inl ⟨rfl, fun _ _ _ => Performed.ne_of_action (by simp)⟩
  | socketOf id =>
      rcases state.exists_socketOf_eq id with ⟨entries, same⟩
      exact Or.inl ⟨by rw [same], fun _ _ _ => Performed.ne_of_action (by simp)⟩
  | sendData data clientId taken =>
      rcases state.exists_sendData_eq data clientId taken with ⟨sent, queued, same⟩
      exact Or.inl ⟨by rw [same], fun _ _ _ => Performed.ne_of_action (by simp)⟩
  | updateFailed stmt =>
      refine Or.inl ⟨rfl, fun name tel password same => ?_⟩
      rcases Performed.mk.inj same with ⟨sameAction, sameAnswer⟩
      cases sameAction
      exact Bool.noConfusion (eq_of_heq sameAnswer)
  | updated stmt rowId =>
      cases stmt with
      | insertUser name tel password => exact Or.inr ⟨name, tel, password, rowId, rfl, rfl⟩
      | _ => exact Or.inl ⟨rfl, fun _ _ _ => Performed.ne_of_action (by simp)⟩

/-- Only a send to a connection that is open and listed hands over a packet. -/
theorem Performs.sent {state after : State} {action : Action} {answer : action.Answer}
    (performs : Performs state action after answer) :
    after.sent = state.sent ∨ ∃ packet clientId socket conn,
      action = .sendData packet clientId ∧ state.mClients clientId = some socket ∧
        state.sockets socket = some conn ∧ after.sent = state.sent ++ [(conn, packet)] := by
  cases performs with
  | count | setSocket | erase | closesocket | selected | selectFailed | updateFailed =>
      exact Or.inl rfl
  | socketOf id =>
      rcases state.exists_socketOf_eq id with ⟨entries, same⟩
      exact Or.inl (by rw [same])
  | updated stmt rowId => cases stmt <;> exact Or.inl rfl
  | sendData packet clientId taken =>
      simp only [State.sendData]
      split
      · exact Or.inl rfl
      · rename_i socket listed
        split
        · exact Or.inl rfl
        · rename_i conn isOpen
          exact Or.inr ⟨packet, clientId, socket, conn, rfl, listed, isOpen, rfl⟩

theorem Performs.queues_of_ne_sendData {state after : State} {action : Action}
    {answer : action.Answer} (performs : Performs state action after answer)
    (other : ∀ packet clientId, action ≠ .sendData packet clientId) :
    after.sent = state.sent ∧ after.queued = state.queued := by
  cases performs with
  | count | setSocket | erase | closesocket | selected | selectFailed | updateFailed =>
      exact ⟨rfl, rfl⟩
  | socketOf id =>
      rcases state.exists_socketOf_eq id with ⟨entries, same⟩
      rw [same]
      exact ⟨rfl, rfl⟩
  | updated stmt rowId => cases stmt <;> exact ⟨rfl, rfl⟩
  | sendData packet clientId => exact absurd rfl (other packet clientId)

/-- What an action sends is one packet, which `WSASend` takes or refuses. -/
theorem Performs.queues {state after : State} {action : Action} {answer : action.Answer}
    (performs : Performs state action after answer) :
    (after.sent = state.sent ∧ after.queued = state.queued) ∨ ∃ last,
      after.sent = state.sent ++ [last] ∧
        (after.queued = state.queued ∨ after.queued = state.queued ++ [last]) := by
  cases performs with
  | sendData packet clientId taken =>
      simp only [State.sendData]
      split
      · exact Or.inl ⟨rfl, rfl⟩
      · split
        · exact Or.inl ⟨rfl, rfl⟩
        · refine Or.inr ⟨_, rfl, ?_⟩
          cases taken with
          | false => exact Or.inl (List.append_nil _)
          | true => exact Or.inr rfl
  | count | setSocket | erase | closesocket | selected | selectFailed | updateFailed =>
      exact Or.inl ⟨rfl, rfl⟩
  | socketOf id =>
      rcases state.exists_socketOf_eq id with ⟨entries, same⟩
      rw [same]
      exact Or.inl ⟨rfl, rfl⟩
  | updated stmt rowId => cases stmt <;> exact Or.inl ⟨rfl, rfl⟩

/-! ## The tasks and the log after an action -/

section Advance

variable {state after : State} {index : ℕ} {task other : Task} {action : Action}
  {answer : action.Answer} {prog : Handler Unit}

theorem log_advance (frame : SameFrame state after) :
    (after.advance index task action answer prog).log =
      ⟨task.tid, task.conn, task.from_, task.data, ⟨action, answer⟩⟩ :: state.log := by
  rw [← frame.log]
  rfl

/-- A task was there before, or is the one that has moved. -/
theorem mem_tasks_of_advance (frame : SameFrame state after)
    (member : other ∈ (after.advance index task action answer prog).tasks) :
    other ∈ state.tasks ∨ other = { task with prog := prog } := by
  rcases List.mem_or_eq_of_mem_set member with old | moved
  · exact Or.inl (frame.tasks ▸ old)
  · exact Or.inr moved

theorem mem_tasks_advance_self (frame : SameFrame state after)
    (present : state.tasks[index]? = some task) :
    { task with prog := prog } ∈ (after.advance index task action answer prog).tasks := by
  have bound : index < state.tasks.length := (List.getElem?_eq_some_iff.mp present).1
  apply List.mem_iff_getElem?.mpr
  refine ⟨index, ?_⟩
  simp only [advance, frame.tasks, List.getElem?_set_self bound]

theorem mem_tasks_advance_of_ne (frame : SameFrame state after) {position : ℕ}
    (elsewhere : index ≠ position) (found : state.tasks[position]? = some other) :
    other ∈ (after.advance index task action answer prog).tasks := by
  apply List.mem_iff_getElem?.mpr
  refine ⟨position, ?_⟩
  simp only [advance, frame.tasks, List.getElem?_set_ne elsewhere]
  exact found

end Advance

/-! ## What the database answers -/

/-- A select that succeeds finds the rows of the tables. -/
def Truthful (state : State) : Event → Prop
  | .act index (.rows (some rows)) =>
      ∀ task stmt nColumn (rest : (Action.select stmt nColumn).Answer → Handler Unit),
        state.tasks[index]? = some task → task.prog = .act (.select stmt nColumn) rest →
          rows = state.rows stmt
  | _ => True

theorem Truthful.found {state after : State} {index : ℕ} {outcome : Outcome} {task : Task}
    {stmt : Stmt} {nColumn : ℕ} {rest : (Action.select stmt nColumn).Answer → Handler Unit}
    {found : List Bytes} (truthful : state.Truthful (.act index outcome))
    (present : state.tasks[index]? = some task)
    (shape : task.prog = .act (.select stmt nColumn) rest)
    (performed : state.perform (.select stmt nColumn) outcome = some (after, some found)) :
    found = (state.rows stmt).flatten := by
  cases outcome with
  | rows answered =>
      cases answered with
      | none =>
          have failed : (none : Option (List Bytes)) = some found :=
            (Prod.mk.inj (Option.some.inj performed)).2
          exact nomatch failed
      | some rows =>
          rcases Option.ite_none_right_eq_some.mp performed with ⟨_, same⟩
          have answer : some rows.flatten = some found := (Prod.mk.inj (Option.some.inj same)).2
          rw [← Option.some.inj answer, truthful task stmt nColumn rest present shape]
  | internal | updated | refused => simp [perform] at performed

/-! ## Programs of the tasks -/

/-- A predicate of the remaining programs that the handlers start with and that every action
keeps holds of every task. -/
theorem programs_step {holds : Bytes → Handle → Handler Unit → Prop}
    (starts : ∀ data from_, holds data from_ (dealData data from_))
    (continues : ∀ data from_ action (rest : action.Answer → Handler Unit) answer,
      holds data from_ (.act action rest) → holds data from_ (rest answer))
    {state next : State} {event : Event}
    (all : ∀ task ∈ state.tasks, holds task.data task.from_ task.prog)
    (stepped : state.step event = some next) :
    ∀ task ∈ next.tasks, holds task.data task.from_ task.prog := by
  cases stepped_of_step stepped with
  | accept | list | closeSocket | eraseClient => exact all
  | receive =>
      intro task member
      rcases List.mem_append.mp member with old | new
      · exact all task old
      · rw [List.mem_singleton.mp new]
        exact starts _ _
  | @perform index outcome task action rest after answer present shape goesOn performed =>
      have acting := all task (List.mem_of_getElem? present)
      rw [shape] at acting
      intro other member
      rcases mem_tasks_of_advance (performs_of_perform performed).sameFrame member with old | rfl
      · exact all other old
      · exact continues _ _ _ _ _ acting
  | halt => simp [State.halt]
  | finish => exact fun task member => all task (List.mem_of_mem_eraseIdx member)

end State

end InstanceMessage
