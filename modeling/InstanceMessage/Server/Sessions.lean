import InstanceMessage.Server.Coherence

/-!
# Sessions and handles

Who has logged in on which connection, read off the log, and the facts about
connection identities and handle values that hold in every reachable state.
-/

namespace InstanceMessage

open Library

/-- The entry is the select of a login request, answered with the password of the request. -/
def Entry.Verifies (entry : Entry) (id : ℤ) : Prop :=
  packetType entry.data = some defLoginRq ∧ ∃ tel password idText rest,
    StruLoginRq.readTel entry.data = some tel ∧
      StruLoginRq.readPassword entry.data = some password ∧
        entry.performed = ⟨.select (.passIdByTel tel) 2, some (password :: idText :: rest)⟩ ∧
          stoi idText = some id

namespace State

/-- A login request with the right password for the user has arrived on the connection. -/
def LoggedInOn (state : State) (conn : ConnId) (id : ℤ) : Prop :=
  ∃ entry ∈ state.log, entry.conn = conn ∧ entry.Verifies id

theorem LoggedInOn.mono {state after : State} {conn : ConnId} {id : ℤ}
    (loggedIn : state.LoggedInOn conn id) (grows : state.log ⊆ after.log) :
    after.LoggedInOn conn id := by
  rcases loggedIn with ⟨entry, logged, onConn, verifies⟩
  exact ⟨entry, grows logged, onConn, verifies⟩

theorem log_subset_of_step {state next : State} {event : Event}
    (stepped : state.step event = some next) : state.log ⊆ next.log := by
  cases stepped_of_step stepped with
  | accept | list | receive | closeSocket | eraseClient | halt | finish =>
      exact List.Subset.refl _
  | perform present next goesOn performed =>
      rw [log_advance (performs_of_perform performed).sameFrame]
      exact List.subset_cons_self _ _

/-- The password match that a login request has seen is in the log. -/
theorem verifies_of_matched {state : State} (coherent : state.Coherent) {task : Task}
    {id : ℤ} (member : task ∈ state.tasks) (type : packetType task.data = some defLoginRq)
    (matched : PasswordMatched task.data (historyOf state.log task.tid) id) :
    ∃ entry ∈ state.log, entry.OfTask task ∧ entry.Verifies id := by
  rcases matched with ⟨tel, password, idText, rest, readTel, readPassword, selected, parsed⟩
  rcases mem_historyOf.mp selected with ⟨entry, logged, same, performed⟩
  have ofTask := coherent.ofTask task member entry logged same
  have data := ofTask.2.2
  exact ⟨entry, logged, ofTask, data ▸ type, tel, password, idText, rest, data ▸ readTel,
    data ▸ readPassword, performed, parsed⟩

theorem loggedInOn_of_matched {state : State} (coherent : state.Coherent) {task : Task}
    {id : ℤ} (member : task ∈ state.tasks) (type : packetType task.data = some defLoginRq)
    (matched : PasswordMatched task.data (historyOf state.log task.tid) id) :
    state.LoggedInOn task.conn id := by
  rcases verifies_of_matched coherent member type matched with ⟨entry, logged, ofTask, verifies⟩
  exact ⟨entry, logged, ofTask.1, verifies⟩

/-- Handles belong to accepted connections, and tasks to the handles of theirs. -/
structure Housed (state : State) : Prop where
  task : ∀ task ∈ state.tasks, task.conn < state.nextConn ∧ task.from_ = state.handleOf task.conn
  entry : ∀ entry ∈ state.log,
    entry.conn < state.nextConn ∧ entry.from_ = state.handleOf entry.conn
  context : ∀ conn, state.context conn ≠ .released → conn < state.nextConn
  socket : ∀ socket conn, state.sockets socket = some conn →
    conn < state.nextConn ∧ state.handleOf conn = socket
  client : ∀ clientId socket, state.mClients clientId = some socket → socket = clientId

theorem housed_start (tUser : List UserRow) (tFriend : List (ℤ × ℤ)) :
    (start tUser tFriend).Housed := by
  constructor <;> simp [start]

theorem Performs.housed {state after : State} {action : Action} {answer : action.Answer}
    (housed : state.Housed) (performs : Performs state action after answer) : after.Housed := by
  have frame := performs.sameFrame
  refine ⟨?_, ?_, ?_, ?_, ?_⟩
  · rw [frame.tasks, frame.nextConn, frame.handleOf]
    exact housed.task
  · rw [frame.log, frame.nextConn, frame.handleOf]
    exact housed.entry
  · rw [frame.context, frame.nextConn]
    exact housed.context
  · rw [frame.nextConn, frame.handleOf]
    intro socket conn isOpen
    apply housed.socket
    cases performs with
    | count | setSocket | erase | selected | selectFailed | updateFailed => exact isOpen
    | socketOf id =>
        rcases state.exists_socketOf_eq id with ⟨entries, same⟩
        rw [same] at isOpen
        exact isOpen
    | updated stmt rowId => cases stmt <;> exact isOpen
    | sendData data clientId taken =>
        rcases state.exists_sendData_eq data clientId taken with ⟨_, _, same⟩
        rw [same] at isOpen
        exact isOpen
    | closesocket closed =>
        by_cases same : socket = closed
        · simp [same] at isOpen
        · simpa [Function.update_of_ne same] using isOpen
  · rw [frame.mClients]
    exact housed.client

theorem Housed.step {state next : State} {event : Event} (housed : state.Housed)
    (stepped : state.step event = some next) : next.Housed := by
  cases stepped_of_step stepped with
  | @accept socket free =>
      refine ⟨?_, ?_, ?_, ?_, housed.client⟩
      · intro task member
        rcases housed.task task member with ⟨bound, handle⟩
        refine ⟨Nat.lt_succ_of_lt bound, ?_⟩
        simp only [State.accept, Function.update_of_ne bound.ne]
        exact handle
      · intro entry member
        rcases housed.entry entry member with ⟨bound, handle⟩
        refine ⟨Nat.lt_succ_of_lt bound, ?_⟩
        simp only [State.accept, Function.update_of_ne bound.ne]
        exact handle
      · intro conn inUse
        by_cases fresh : conn = state.nextConn
        · exact fresh ▸ Nat.lt_succ_self _
        · simp only [State.accept, Function.update_of_ne fresh] at inUse
          exact Nat.lt_succ_of_lt (housed.context conn inUse)
      · intro handle conn isOpen
        simp only [State.accept] at isOpen ⊢
        by_cases same : handle = socket
        · subst same
          simp only [Function.update_self, Option.some.injEq] at isOpen
          subst isOpen
          exact ⟨Nat.lt_succ_self _, Function.update_self _ _ _⟩
        · rw [Function.update_of_ne same] at isOpen
          rcases housed.socket handle conn isOpen with ⟨bound, belongs⟩
          exact ⟨Nat.lt_succ_of_lt bound, by rw [Function.update_of_ne bound.ne]; exact belongs⟩
  | @list conn accepted =>
      refine ⟨housed.task, housed.entry, ?_, housed.socket, ?_⟩
      · intro other inUse
        by_cases same : other = conn
        · exact same ▸ housed.context conn (by simp [accepted])
        · simp only [State.list, Function.update_of_ne same] at inUse
          exact housed.context other inUse
      · intro clientId socket listed
        simp only [State.list] at listed
        by_cases same : clientId = state.handleOf conn
        · subst same
          simpa using listed.symm
        · rw [Function.update_of_ne same] at listed
          exact housed.client clientId socket listed
  | @receive conn data receiving =>
      refine ⟨?_, housed.entry, housed.context, housed.socket, housed.client⟩
      intro task member
      rcases List.mem_append.mp member with old | new
      · exact housed.task task old
      · rw [List.mem_singleton.mp new]
        exact ⟨housed.context conn (by simp [receiving]), rfl⟩
  | @closeSocket conn receiving =>
      refine ⟨housed.task, housed.entry, ?_, ?_, housed.client⟩
      · intro other inUse
        by_cases same : other = conn
        · exact same ▸ housed.context conn (by simp [receiving])
        · simp only [State.closeSocket, Function.update_of_ne same] at inUse
          exact housed.context other inUse
      · intro socket other isOpen
        simp only [State.closeSocket] at isOpen
        by_cases same : socket = state.handleOf conn
        · simp [same] at isOpen
        · rw [Function.update_of_ne same] at isOpen
          exact housed.socket socket other isOpen
  | @eraseClient conn closing =>
      refine ⟨housed.task, housed.entry, ?_, housed.socket, ?_⟩
      · intro other inUse
        by_cases same : other = conn
        · simp [State.eraseClient, same] at inUse
        · simp only [State.eraseClient, Function.update_of_ne same] at inUse
          exact housed.context other inUse
      · intro clientId socket listed
        simp only [State.eraseClient] at listed
        by_cases same : clientId = state.handleOf conn
        · simp [same] at listed
        · rw [Function.update_of_ne same] at listed
          exact housed.client clientId socket listed
  | @perform index outcome task action rest after answer present next goesOn performed =>
      have performs := performs_of_perform performed
      have moved := Performs.housed housed performs
      have acting := housed.task task (List.mem_of_getElem? present)
      have frame := performs.sameFrame
      refine ⟨?_, ?_, moved.context, moved.socket, moved.client⟩
      · intro other member
        rcases List.mem_or_eq_of_mem_set member with old | rfl
        · exact moved.task other old
        · simp only [advance, frame.nextConn, frame.handleOf]
          exact acting
      · intro entry member
        rcases List.mem_cons.mp member with rfl | old
        · simp only [advance, frame.nextConn, frame.handleOf]
          exact acting
        · exact moved.entry entry old
  | halt => exact ⟨by simp [State.halt], housed.entry, housed.context, housed.socket, housed.client⟩
  | finish =>
      refine ⟨?_, housed.entry, housed.context, housed.socket, housed.client⟩
      intro task member
      exact housed.task task (List.mem_of_mem_eraseIdx member)

end State

end InstanceMessage
