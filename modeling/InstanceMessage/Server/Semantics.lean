import InstanceMessage.Library.Machine
import InstanceMessage.Server.Handlers
import Mathlib.Logic.Function.Basic
import Mathlib.Data.List.Nodup

/-!
# The running server

The state that the kernel, the network layer and the operating system share,
and the machine whose runs are all interleavings of accepts, received packets,
disconnects and handler actions.

A connection keeps its own identity although the operating system may give its
handle value to a later connection: `sockets` says which connection is open
under a handle value at present, `mClients` is the network layer's table.
`closeClient` closes the handle first and removes the table entry later, in two
steps. A received packet becomes a task whose program is `dealData`; a task
that has not moved is a packet that waits in the queue. Any number of tasks may
be in progress and any of them may move next, which includes every schedule of
the thread pool.

What MySQL answers is chosen by the event: `rows` is the outcome of a select
(`none` when it fails) and `updated` that of an insert. A statement is read as
it is meant: its texts have no quotes or backslashes, which nothing escapes, and
texts are equal when their bytes are. Whether `WSASend` takes a packet is chosen
by the event as well. Restrictions on these choices are conditions on runs. The
log is a history variable: every action a task has performed, latest first.
-/

namespace InstanceMessage

open Library

abbrev ConnId := ℕ

abbrev TaskId := ℕ

structure UserRow where
  id : ℤ
  name : Bytes
  tel : Bytes
  pass : Bytes
  feeling : Bytes
  iconId : ℤ
  deriving DecidableEq

/-- A received packet and what is left of its handling. -/
structure Task where
  tid : TaskId
  conn : ConnId
  from_ : Handle
  data : Bytes
  prog : Handler Unit

/-- An action that the handler of a packet has performed. -/
structure Entry where
  tid : TaskId
  conn : ConnId
  from_ : Handle
  data : Bytes
  performed : Performed Action.Answer

/-- The receive context of a connection, from `accept` to the end of `closeClient`. -/
inductive Context
  /-- Accepted, and not yet in `m_clients`. -/
  | accepted
  | receiving
  /-- Closed by `closeClient`, and not yet removed from `m_clients`. -/
  | closing
  | released
  deriving DecidableEq

structure State where
  nextConn : ConnId := 0
  handleOf : ConnId → Handle := fun _ => 0
  context : ConnId → Context := fun _ => .released
  sockets : Handle → Option ConnId := fun _ => none
  mClients : Handle → Option Handle := fun _ => none
  mMapIdToSocket : ℤ → Option Handle := fun _ => none
  tUser : List UserRow := []
  tFriend : List (ℤ × ℤ) := []
  nextTask : TaskId := 0
  tasks : List Task := []
  /-- What `sendData` has handed to `WSASend` for open connections, oldest first. -/
  sent : List (ConnId × Bytes) := []
  /-- What `WSASend` has taken of it. -/
  queued : List (ConnId × Bytes) := []
  log : List Entry := []
  halted : Bool := false

/-- What the database answers to a statement, or `WSASend` to a packet. -/
inductive Outcome
  | internal
  | rows (rows : Option (List (List Bytes)))
  | updated (ok : Bool) (rowId : ℤ)
  /-- `WSASend` fails at once. -/
  | refused

def Outcome.takes : Outcome → Bool
  | .refused => false
  | _ => true

inductive Event
  | accept (socket : Handle)
  /-- The accept loop enters the connection in `m_clients` and posts the first receive. -/
  | list (conn : ConnId)
  /-- A worker submits a packet of the connection to the pool. -/
  | receive (conn : ConnId) (data : Bytes)
  /-- `closeClient` calls `closesocket`. -/
  | closeSocket (conn : ConnId)
  /-- `closeClient` removes the handle from `m_clients`. -/
  | eraseClient (conn : ConnId)
  | act (index : ℕ) (outcome : Outcome)
  | finish (index : ℕ)

def Event.takes : Event → Bool
  | .act _ outcome => outcome.takes
  | _ => true

namespace State

def start (tUser : List UserRow) (tFriend : List (ℤ × ℤ)) : State :=
  { tUser := tUser, tFriend := tFriend }

/-- The rows that a select finds in the tables. -/
def rows (state : State) : Stmt → List (List Bytes)
  | .telByTel tel => (state.tUser.filter (·.tel = tel)).map fun row => [row.tel]
  | .nameByName name => (state.tUser.filter (·.name = name)).map fun row => [row.name]
  | .passIdByTel tel =>
      (state.tUser.filter (·.tel = tel)).map fun row => [row.pass, decimal row.id]
  | .friendIds id | .friendIdsOffline id =>
      (state.tFriend.filter (·.1 = id)).map fun row => [decimal row.2]
  | .userById id =>
      (state.tUser.filter (·.id = id)).map fun row => [row.name, row.feeling, decimal row.iconId]
  | .idByName name => (state.tUser.filter (·.name = name)).map fun row => [decimal row.id]
  | .insertUser _ _ _ | .insertFriend _ _ => []

def updated (state : State) (rowId : ℤ) : Stmt → State
  | .insertUser name tel password =>
      { state with tUser := state.tUser ++ [⟨rowId, name, tel, password, defaultFeeling, 4⟩] }
  | .insertFriend idA idB => { state with tFriend := state.tFriend ++ [(idA, idB)] }
  | _ => state

/-- `IOCPTcpServer::sendData`: nothing is sent to a handle that is not in `m_clients`, and
`WSASend` fails on a closed one. It may fail on an open one as well; the packet is then dropped
and the caller does not learn of it. -/
def sendData (state : State) (data : Bytes) (clientId : Handle) (taken : Bool) : State :=
  match state.mClients clientId with
  | none => state
  | some socket =>
      match state.sockets socket with
      | none => state
      | some conn => { state with
          sent := state.sent ++ [(conn, data)]
          queued := state.queued ++ if taken then [(conn, data)] else [] }

/-- `m_mapIdToSocket[id]`, which enters the value 0 for an absent key. -/
def socketOf (state : State) (id : ℤ) : State × Handle :=
  match state.mMapIdToSocket id with
  | some socket => (state, socket)
  | none =>
      ({ state with mMapIdToSocket := Function.update state.mMapIdToSocket id (some 0) }, 0)

def perform (state : State) : (action : Action) → Outcome → Option (State × action.Answer)
  | .count id, _ => some (state, (state.mMapIdToSocket id).isSome)
  | .socketOf id, _ => some (state.socketOf id)
  | .setSocket id socket, _ =>
      some ({ state with
        mMapIdToSocket := Function.update state.mMapIdToSocket id (some socket) }, ())
  | .erase id, _ =>
      some ({ state with mMapIdToSocket := Function.update state.mMapIdToSocket id none }, ())
  | .closesocket socket, _ =>
      some ({ state with sockets := Function.update state.sockets socket none }, ())
  | .select _ nColumn, .rows (some rows) =>
      if rows.all (·.length = nColumn) then some (state, some rows.flatten) else none
  | .select _ _, .rows none => some (state, none)
  | .update stmt, .updated true rowId => some (state.updated rowId stmt, true)
  | .update _, .updated false _ => some (state, false)
  | .sendData data clientId, outcome => some (state.sendData data clientId outcome.takes, ())
  | _, _ => none

/-- The process is gone, and its threads with it. -/
def halt (state : State) : State := { state with halted := true, tasks := [] }

/-- The state after a task's action, given the shared state after it and the answer. -/
def advance (after : State) (index : ℕ) (task : Task) (action : Action)
    (answer : action.Answer) (prog : Handler Unit) : State :=
  { after with
    tasks := after.tasks.set index { task with prog := prog }
    log := ⟨task.tid, task.conn, task.from_, task.data, ⟨action, answer⟩⟩ :: after.log }

def act (state : State) (index : ℕ) (outcome : Outcome) : Option State :=
  match state.tasks[index]? with
  | none => none
  | some task =>
      match task.prog with
      | .ret _ => none
      | .act action next =>
          if action.Stops then some state.halt
          else (state.perform action outcome).map fun (after, answer) =>
            after.advance index task action answer (next answer)

def accept (state : State) (socket : Handle) : State :=
  { state with
    nextConn := state.nextConn + 1
    handleOf := Function.update state.handleOf state.nextConn socket
    context := Function.update state.context state.nextConn .accepted
    sockets := Function.update state.sockets socket (some state.nextConn) }

def list (state : State) (conn : ConnId) : State :=
  { state with
    context := Function.update state.context conn .receiving
    mClients := Function.update state.mClients (state.handleOf conn) (some (state.handleOf conn)) }

def receive (state : State) (conn : ConnId) (data : Bytes) : State :=
  let from_ := state.handleOf conn
  { state with
    nextTask := state.nextTask + 1
    tasks := state.tasks ++ [⟨state.nextTask, conn, from_, data, dealData data from_⟩] }

def closeSocket (state : State) (conn : ConnId) : State :=
  { state with
    context := Function.update state.context conn .closing
    sockets := Function.update state.sockets (state.handleOf conn) none }

def eraseClient (state : State) (conn : ConnId) : State :=
  { state with
    context := Function.update state.context conn .released
    mClients := Function.update state.mClients (state.handleOf conn) none }

def returned (state : State) (index : ℕ) : Bool :=
  match state.tasks[index]? with
  | some task => match task.prog with
    | .ret _ => true
    | .act _ _ => false
  | none => false

/-- One event, when the server still runs and the event is possible. -/
def step (state : State) (event : Event) : Option State :=
  if state.halted then none
  else match event with
    | .accept socket =>
        if state.sockets socket = none then some (state.accept socket) else none
    | .list conn => if state.context conn = .accepted then some (state.list conn) else none
    | .receive conn data =>
        if state.context conn = .receiving ∧ data ≠ [] ∧ data.length ≤ 10 * 1024 * 1024 then
          some (state.receive conn data)
        else none
    | .closeSocket conn =>
        if state.context conn = .receiving then some (state.closeSocket conn) else none
    | .eraseClient conn =>
        if state.context conn = .closing then some (state.eraseClient conn) else none
    | .act index outcome => state.act index outcome
    | .finish index =>
        if state.returned index then some { state with tasks := state.tasks.eraseIdx index }
        else none

end State

def server : Machine State Event := ⟨State.step⟩

/-! ## Two accounts -/

def alice : UserRow := ⟨1, ascii "alice", ascii "123", ascii "secret", [], 4⟩

def bob : UserRow := ⟨2, ascii "bob", ascii "456", ascii "hidden", [], 4⟩

/-- A user without friends connects and logs in while no other packet is handled. -/
def logsIn (user : UserRow) (conn : ConnId) (socket : Handle) : List Event :=
  [.accept socket, .list conn, .receive conn (StruLoginRq.bytes ⟨user.tel, user.pass⟩),
    .act 0 (.rows (some [[user.pass, decimal user.id]])), .act 0 .internal, .act 0 .internal,
    .act 0 .internal, .act 0 (.rows (some [[user.name, user.feeling, decimal user.iconId]])),
    .act 0 .internal, .act 0 .internal, .act 0 .internal, .act 0 (.rows (some [])), .finish 0]

end InstanceMessage
