import InstanceMessage.Server.Requests
import InstanceMessage.Server.Sessions

/-!
# Closing a connection

A handle is closed on two paths: `closeClient` closes it when the peer has gone
and removes it from `m_clients` in a second step, and `dealOfflineRq` closes the
socket that the kernel's map holds for the user. Both keep only the handle
value, which the operating system may have given to a later connection.

The ledger adds what the handles stand for: which connection an entry of the
map was made for, and which one a handler has looked up. When `accept` returns
a value only after everything that still refers to it is gone, a reference is
always to the latest connection with its handle; when besides a value is closed
only while it is open, a close ends its own connection and no other.
-/

namespace InstanceMessage

open Library

/-! ## A handler closes what it has just looked up -/

def closingLaw (history : History) : Action → Prop
  | .closesocket socket => ∃ id older, history = ⟨.socketOf id, socket⟩ :: older
  | _ => True

theorem closingLaw_of_ne {action : Action} (other : ∀ socket, action ≠ .closesocket socket)
    (history : History) : closingLaw history action := by
  cases action with
  | closesocket socket => exact absurd rfl (other socket)
  | _ => trivial

theorem Quiet.closing {action : Action} (quiet : Quiet action) (history : History) :
    closingLaw history action := by
  apply closingLaw_of_ne
  rintro socket rfl
  exact quiet

theorem removeUser_closes (userId : ℤ) (history : History) :
    (removeUser userId).Obeys closingLaw (fun _ _ => True) history := by
  apply Program.obeys_perform_bind trivial
  intro (online : Bool)
  cases online with
  | false => trivial
  | true =>
      apply Program.obeys_perform_bind trivial
      intro (socket : Handle)
      exact Program.obeys_perform_bind ⟨userId, _, rfl⟩ fun _ => ⟨trivial, fun _ => trivial⟩

theorem dealOfflineRq_closes (data : Bytes) (from_ : Handle) (history : History) :
    (dealOfflineRq data from_).Obeys closingLaw (fun _ _ => True) history := by
  refine Program.obeys_bind (obeys_field trivial fun userId readUserId => ?_)
  refine Program.obeys_bind (obeys_sprintfS trivial ?_)
  apply Program.obeys_perform_bind trivial
  intro (found : Option (List Bytes))
  match found with
  | none => trivial
  | some lstStr =>
      apply Program.obeys_bind
      exact (quiet_notifyOffline data lstStr).obeys (fun _ => True)
        (fun history _ _ quiet => quiet.closing history) (fun _ _ _ _ => trivial)
        (fun later _ _ => removeUser_closes userId later) trivial

theorem dealData_closes (data : Bytes) (from_ : Handle) :
    (dealData data from_).Obeys closingLaw (fun _ _ => True) [] := by
  by_cases offline : packetType data = some defOfflineRq
  · rw [dealData_offlineRq offline]
    exact dealOfflineRq_closes data from_ []
  · apply (dealData_lawful data from_ []).mono
    · intro history action lawful
      apply closingLaw_of_ne
      rintro socket rfl
      exact offline lawful.1
    · exact fun _ _ _ => trivial

/-! ## The ledger -/

/-- The server with the number of times each handle has been closed since `accept` returned it,
the connections that have been closed, the connection that each entry of the map was made for,
and the one that each handler has looked up last. -/
structure Ledger where
  state : State
  closes : Handle → ℕ := fun _ => 0
  ended : ConnId → Bool := fun _ => false
  entered : ℤ → Option ConnId := fun _ => none
  meant : TaskId → Option ConnId := fun _ => none

namespace Ledger

/-- `closesocket` of a handle, meant for a connection. -/
def closed (ledger : Ledger) (socket : Handle) (conn : Option ConnId) : Ledger :=
  { ledger with
    closes := Function.update ledger.closes socket (ledger.closes socket + 1)
    ended := match conn with
      | some conn => Function.update ledger.ended conn true
      | none => ledger.ended }

@[simp]
theorem ended_closed (ledger : Ledger) (socket : Handle) (conn : ConnId) :
    (ledger.closed socket (some conn)).ended = Function.update ledger.ended conn true := rfl

@[simp]
theorem closes_closed (ledger : Ledger) (socket : Handle) (conn : Option ConnId) :
    (ledger.closed socket conn).closes =
      Function.update ledger.closes socket (ledger.closes socket + 1) := rfl

def note (ledger : Ledger) (task : Task) : Action → Ledger
  | .setSocket id _ =>
      { ledger with entered := Function.update ledger.entered id (some task.conn) }
  | .erase id => { ledger with entered := Function.update ledger.entered id none }
  | .socketOf id =>
      { ledger with meant := Function.update ledger.meant task.tid (ledger.entered id) }
  | .closesocket socket => ledger.closed socket (ledger.meant task.tid)
  | _ => ledger

def record (ledger : Ledger) : Event → Ledger
  | .accept socket => { ledger with closes := Function.update ledger.closes socket 0 }
  | .closeSocket conn => ledger.closed (ledger.state.handleOf conn) (some conn)
  | .act index _ =>
      match ledger.state.tasks[index]? with
      | some task =>
          match task.prog with
          | .act action _ => ledger.note task action
          | .ret _ => ledger
      | none => ledger
  | _ => ledger

def machine : Machine Ledger Event where
  step ledger event :=
    match ledger.state.step event with
    | some next => some { ledger.record event with state := next }
    | none => none

def start (tUser : List UserRow) (tFriend : List (ℤ × ℤ)) : Ledger :=
  { state := State.start tUser tFriend }

theorem exists_of_step {ledger next : Ledger} {event : Event}
    (stepped : machine.step ledger event = some next) :
    ∃ after, ledger.state.step event = some after ∧
      next = { ledger.record event with state := after } := by
  simp only [machine] at stepped
  split at stepped
  · rename_i after moved
    exact ⟨after, moved, (Option.some.inj stepped).symm⟩
  · simp at stepped

theorem record_act {ledger : Ledger} {index : ℕ} {outcome : Outcome} {task : Task}
    {action : Action} {rest : action.Answer → Handler Unit}
    (present : ledger.state.tasks[index]? = some task) (shape : task.prog = .act action rest) :
    ledger.record (.act index outcome) = ledger.note task action := by
  simp only [record, present, shape]

end Ledger

namespace State

/-- The connection is the latest one with the handle. -/
structure Latest (state : State) (conn : ConnId) (socket : Handle) : Prop where
  old : conn < state.nextConn
  handle : state.handleOf conn = socket
  last : ∀ other < state.nextConn, state.handleOf other = socket → other ≤ conn

/-- `accept` returns a value only when nothing refers to it any more: the receive loops of the
earlier connections have ended, no entry of the map holds it, and no handler in progress has
come from it or looked it up. A handle is closed only while it is open. -/
def Orderly (state : State) : Event → Prop
  | .accept socket => socket ≠ 0 ∧ (∀ id, state.mMapIdToSocket id ≠ some socket) ∧
      (∀ conn, state.context conn ≠ .released → state.handleOf conn ≠ socket) ∧
      ∀ task ∈ state.tasks, task.from_ ≠ socket ∧
        ∀ id, ¬LookedUp (historyOf state.log task.tid) id socket
  | .closeSocket conn => state.sockets (state.handleOf conn) ≠ none
  | .act index _ => ∀ (task : Task) (socket : Handle)
      (rest : (Action.closesocket socket).Answer → Handler Unit),
      state.tasks[index]? = some task → task.prog = .act (.closesocket socket) rest →
        state.sockets socket ≠ none
  | _ => True

section Latest

variable {state after : State} {conn other : ConnId} {socket : Handle}

theorem Latest.unique (latest : state.Latest conn socket)
    (otherLatest : state.Latest other socket) : conn = other :=
  Nat.le_antisymm (otherLatest.last conn latest.old latest.handle)
    (latest.last other otherLatest.old otherLatest.handle)

theorem Latest.congr (latest : state.Latest conn socket)
    (nextConn : after.nextConn = state.nextConn) (handleOf : after.handleOf = state.handleOf) :
    after.Latest conn socket where
  old := nextConn ▸ latest.old
  handle := handleOf ▸ latest.handle
  last := by
    rw [nextConn, handleOf]
    exact latest.last

theorem Latest.accept (latest : state.Latest conn socket) {accepted : Handle}
    (different : socket ≠ accepted) : (state.accept accepted).Latest conn socket where
  old := Nat.lt_succ_of_lt latest.old
  handle := (Function.update_of_ne latest.old.ne _ _).trans latest.handle
  last := by
    intro other old handle
    rcases Nat.lt_succ_iff_lt_or_eq.mp old with older | rfl
    · exact latest.last other older ((Function.update_of_ne older.ne _ _).symm.trans handle)
    · exact absurd (handle.symm.trans (Function.update_self _ _ _)) different

theorem latest_accepted (state : State) (socket : Handle) :
    (state.accept socket).Latest state.nextConn socket where
  old := Nat.lt_succ_self _
  handle := Function.update_self _ _ _
  last := fun _ old _ => Nat.le_of_lt_succ old

end Latest

end State

namespace Ledger

/-! ## References are to the latest connection -/

/-- A reference to a handle: the zero that a lookup without an entry gives, or the latest
connection with the handle. -/
def Refers (state : State) (socket : Handle) (conn : Option ConnId) : Prop :=
  socket = 0 ∨ ∃ known, conn = some known ∧ state.Latest known socket

theorem Refers.congr {state after : State} {socket : Handle} {conn : Option ConnId}
    (refers : Refers state socket conn) (nextConn : after.nextConn = state.nextConn)
    (handleOf : after.handleOf = state.handleOf) : Refers after socket conn := by
  rcases refers with zero | ⟨known, same, latest⟩
  · exact Or.inl zero
  · exact Or.inr ⟨known, same, latest.congr nextConn handleOf⟩

theorem Refers.accept {state : State} {socket accepted : Handle} {conn : Option ConnId}
    (refers : Refers state socket conn) (different : socket ≠ accepted) :
    Refers (state.accept accepted) socket conn := by
  rcases refers with zero | ⟨known, same, latest⟩
  · exact Or.inl zero
  · exact Or.inr ⟨known, same, latest.accept different⟩

/-- Whatever refers to a handle refers to the latest connection with it. -/
structure Current (ledger : Ledger) : Prop where
  nonzero : ∀ conn < ledger.state.nextConn, ledger.state.handleOf conn ≠ 0
  socket : ∀ socket conn, ledger.state.sockets socket = some conn →
    ledger.state.Latest conn socket
  context : ∀ conn, ledger.state.context conn ≠ .released →
    ledger.state.Latest conn (ledger.state.handleOf conn)
  task : ∀ task ∈ ledger.state.tasks, ledger.state.Latest task.conn task.from_
  entry : ∀ id socket, ledger.state.mMapIdToSocket id = some socket →
    Refers ledger.state socket (ledger.entered id)
  looked : ∀ task ∈ ledger.state.tasks, ∀ id socket older,
    historyOf ledger.state.log task.tid = ⟨.socketOf id, socket⟩ :: older →
      Refers ledger.state socket (ledger.meant task.tid)

section Current

variable {ledger next : Ledger} {event : Event}

theorem current_start (tUser : List UserRow) (tFriend : List (ℤ × ℤ)) :
    (start tUser tFriend).Current := by
  constructor <;> simp [start, State.start]

theorem Current.accept (current : ledger.Current) {socket : Handle}
    (free : ledger.state.sockets socket = none) (orderly : ledger.state.Orderly (.accept socket)) :
    Current { ledger.record (.accept socket) with state := ledger.state.accept socket } := by
  rcases orderly with ⟨nonzero, noEntry, noContext, noTask⟩
  constructor
  · intro conn old
    rcases Nat.lt_succ_iff_lt_or_eq.mp old with older | rfl
    · simp only [State.accept, Function.update_of_ne older.ne]
      exact current.nonzero conn older
    · simp only [State.accept, Function.update_self]
      exact nonzero
  · intro handle conn isOpen
    by_cases same : handle = socket
    · subst same
      have new : some ledger.state.nextConn = some conn :=
        (Function.update_self handle _ _).symm.trans isOpen
      rw [← Option.some.inj new]
      exact State.latest_accepted _ _
    · have old : ledger.state.sockets handle = some conn :=
        (Function.update_of_ne same _ _).symm.trans isOpen
      exact (current.socket handle conn old).accept same
  · intro conn inUse
    by_cases same : conn = ledger.state.nextConn
    · subst same
      have handle : (ledger.state.accept socket).handleOf ledger.state.nextConn = socket :=
        Function.update_self _ _ _
      rw [handle]
      exact State.latest_accepted _ _
    · have old : ledger.state.context conn ≠ .released :=
        (Function.update_of_ne same (Context.accepted) ledger.state.context) ▸ inUse
      have latest := current.context conn old
      have handle : (ledger.state.accept socket).handleOf conn = ledger.state.handleOf conn :=
        Function.update_of_ne same _ _
      rw [handle]
      exact latest.accept (noContext conn old)
  · intro task member
    exact (current.task task member).accept (noTask task member).1
  · intro id handle entered
    have different : handle ≠ socket := fun same => noEntry id (same ▸ entered)
    exact (current.entry id handle entered).accept different
  · intro task member id handle older latestLook
    have different : handle ≠ socket := by
      rintro rfl
      have look : historyOf ledger.state.log task.tid = ⟨.socketOf id, handle⟩ :: older :=
        latestLook
      exact (noTask task member).2 id (look ▸ List.mem_cons_self)
    exact (current.looked task member id handle older latestLook).accept different

/-- An action changes the references of its own handler, and the entry that it writes. -/
theorem Current.perform (current : ledger.Current) (coherent : ledger.state.Coherent) {index : ℕ}
    {outcome : Outcome} {task : Task} {action : Action} {rest : action.Answer → Handler Unit}
    {after : State} {answer : action.Answer} (present : ledger.state.tasks[index]? = some task)
    (shape : task.prog = .act action rest)
    (performed : ledger.state.perform action outcome = some (after, answer)) :
    Current { ledger.note task action with
      state := after.advance index task action answer (rest answer) } := by
  have performs := State.performs_of_perform performed
  have frame := performs.sameFrame
  have member := List.mem_of_getElem? present
  have lawful := coherent.lawful task member
  rw [shape] at lawful
  have latest {conn : ConnId} {socket : Handle} (latest : ledger.state.Latest conn socket) :
      (after.advance index task action answer (rest answer)).Latest conn socket :=
    latest.congr frame.nextConn frame.handleOf
  have refers {socket : Handle} {conn : Option ConnId} (refers : Refers ledger.state socket conn) :
      Refers (after.advance index task action answer (rest answer)) socket conn :=
    refers.congr frame.nextConn frame.handleOf
  have entered {id : ℤ} {socket : Handle} (other : ∀ value, action ≠ .setSocket id value)
      (kept : (ledger.note task action).entered id = ledger.entered id)
      (found : after.mMapIdToSocket id = some socket) :
      Refers ledger.state socket ((ledger.note task action).entered id) := by
    rw [kept]
    rcases performs.entry found with old | written | ⟨_, _, zero⟩
    · exact current.entry id socket old
    · exact absurd written (other socket)
    · exact Or.inl zero
  constructor
  · simp only [State.advance, frame.nextConn, frame.handleOf]
    exact current.nonzero
  · intro socket conn isOpen
    rcases performs.sockets socket with same | ⟨_, closed⟩
    · exact latest (current.socket socket conn (same ▸ isOpen))
    · exact absurd (closed.symm.trans isOpen) (by simp)
  · intro conn inUse
    have old : ledger.state.context conn ≠ .released := frame.context ▸ inUse
    have handle : (after.advance index task action answer (rest answer)).handleOf conn =
        ledger.state.handleOf conn := congrFun frame.handleOf conn
    rw [handle]
    exact latest (current.context conn old)
  · intro other otherMem
    rcases State.mem_tasks_of_advance frame otherMem with old | rfl
    · exact latest (current.task other old)
    · exact latest (current.task task member)
  · intro id socket found
    apply refers
    cases action with
    | setSocket written value =>
        by_cases same : id = written
        · subst same
          rcases Prod.mk.inj (Option.some.inj performed) with ⟨rfl, _⟩
          have new : some value = some socket := (Function.update_self id _ _).symm.trans found
          have from_ : value = task.from_ := lawful.1.2.1
          rw [← Option.some.inj new, from_]
          exact Or.inr ⟨task.conn, Function.update_self id _ _, current.task task member⟩
        · exact entered (by simpa using Ne.symm same) (Function.update_of_ne same _ _) found
    | erase gone =>
        by_cases same : id = gone
        · subst same
          rcases Prod.mk.inj (Option.some.inj performed) with ⟨rfl, _⟩
          have nothing : none = some socket := (Function.update_self id _ _).symm.trans found
          cases nothing
        · exact entered (by simp) (Function.update_of_ne same _ _) found
    | _ => exact entered (by simp) rfl found
  · intro other otherMem id socket older look
    apply refers
    have log : (after.advance index task action answer (rest answer)).log =
        ⟨task.tid, task.conn, task.from_, task.data, ⟨action, answer⟩⟩ :: ledger.state.log :=
      State.log_advance frame
    rcases State.mem_tasks_of_advance_of_ne coherent.distinct frame present otherMem
      with rfl | ⟨old, different⟩
    · have head : (⟨action, answer⟩ : Performed Action.Answer) = ⟨.socketOf id, socket⟩ := by
        simp only [log] at look
        rw [historyOf_cons_self] at look
        exact (List.cons.inj look).1
      have same : action = .socketOf id := congrArg Performed.action head
      rcases performs.found head with found | zero
      · subst same
        have meant : (ledger.note task (.socketOf id)).meant task.tid = ledger.entered id :=
          Function.update_self _ _ _
        rw [meant]
        exact current.entry id socket found
      · exact Or.inl zero
    · simp only [log] at look
      rw [historyOf_cons_of_ne (Ne.symm different)] at look
      have meant : (ledger.note task action).meant other.tid = ledger.meant other.tid := by
        cases action with
        | socketOf key => exact Function.update_of_ne different _ _
        | _ => rfl
      rw [meant]
      exact current.looked other old id socket older look

/-- A step that opens no handle and makes no new reference; a new task is one of a connection in
use that has done nothing yet. -/
theorem Current.move (current : ledger.Current) {ended : ConnId → Bool} {closes : Handle → ℕ}
    {after : State} (nextConn : after.nextConn = ledger.state.nextConn)
    (handleOf : after.handleOf = ledger.state.handleOf)
    (sockets : ∀ socket conn, after.sockets socket = some conn →
      ledger.state.sockets socket = some conn)
    (context : ∀ conn, after.context conn ≠ .released → ledger.state.context conn ≠ .released)
    (tasks : ∀ task ∈ after.tasks, task ∈ ledger.state.tasks ∨
      (ledger.state.Latest task.conn task.from_ ∧ historyOf ledger.state.log task.tid = []))
    (entries : after.mMapIdToSocket = ledger.state.mMapIdToSocket)
    (log : after.log = ledger.state.log) :
    Current ⟨after, closes, ended, ledger.entered, ledger.meant⟩ where
  nonzero := by
    rw [nextConn, handleOf]
    exact current.nonzero
  socket := fun socket conn isOpen =>
    (current.socket socket conn (sockets socket conn isOpen)).congr nextConn handleOf
  context := by
    intro conn inUse
    rw [handleOf]
    exact (current.context conn (context conn inUse)).congr nextConn handleOf
  task := by
    intro task member
    rcases tasks task member with old | ⟨latest, _⟩
    · exact (current.task task old).congr nextConn handleOf
    · exact latest.congr nextConn handleOf
  entry := by
    intro id socket entered
    exact (current.entry id socket (entries ▸ entered)).congr nextConn handleOf
  looked := by
    intro task member id socket older look
    simp only [log] at look
    rcases tasks task member with old | ⟨_, nothing⟩
    · exact (current.looked task old id socket older look).congr nextConn handleOf
    · rw [nothing] at look
      exact nomatch look

theorem context_of_update {state : State} {conn other : ConnId} {context : Context}
    (used : state.context conn ≠ .released)
    (inUse : Function.update state.context conn context other ≠ .released) :
    state.context other ≠ .released := by
  by_cases same : other = conn
  · exact same ▸ used
  · rwa [Function.update_of_ne same] at inUse

theorem Current.step (current : ledger.Current) (coherent : ledger.state.Coherent)
    (orderly : ledger.state.Orderly event) (stepped : machine.step ledger event = some next) :
    next.Current := by
  rcases exists_of_step stepped with ⟨after, moved, rfl⟩
  cases State.stepped_of_step moved with
  | @accept socket free => exact current.accept free orderly
  | @list conn accepted =>
      exact current.move rfl rfl (fun _ _ isOpen => isOpen)
        (fun _ => context_of_update (by simp [accepted])) (fun _ => Or.inl) rfl rfl
  | @receive conn data receiving nonempty bounded =>
      refine current.move rfl rfl (fun _ _ isOpen => isOpen) (fun _ inUse => inUse) ?_ rfl rfl
      intro task member
      rcases List.mem_append.mp member with old | new
      · exact Or.inl old
      · rw [List.mem_singleton.mp new]
        exact Or.inr ⟨current.context conn (by simp [receiving]), coherent.historyOf_nextTask⟩
  | @closeSocket conn receiving =>
      refine current.move rfl rfl ?_ (fun _ => context_of_update (by simp [receiving]))
        (fun _ => Or.inl) rfl rfl
      intro socket other isOpen
      by_cases same : socket = ledger.state.handleOf conn
      · simp [State.closeSocket, same] at isOpen
      · simpa only [State.closeSocket, Function.update_of_ne same] using isOpen
  | @eraseClient conn closing =>
      exact current.move rfl rfl (fun _ _ isOpen => isOpen)
        (fun _ => context_of_update (by simp [closing])) (fun _ => Or.inl) rfl rfl
  | @perform index outcome task action rest after answer present shape goesOn performed =>
      rw [record_act present shape]
      exact current.perform coherent present shape performed
  | @halt index outcome task action rest present shape stops =>
      rw [record_act present shape]
      have same : ledger.note task action = ledger := by
        cases action <;> first | rfl | exact stops.elim
      rw [same]
      exact current.move rfl rfl (fun _ _ isOpen => isOpen) (fun _ inUse => inUse)
        (by simp [State.halt]) rfl rfl
  | finish =>
      exact current.move rfl rfl (fun _ _ isOpen => isOpen) (fun _ inUse => inUse)
        (fun _ member => Or.inl (List.mem_of_mem_eraseIdx member)) rfl rfl

end Current

/-! ## A close ends its own connection -/

/-- A connection that no close was meant for is open, and listed from its entry on. -/
structure Kept (ledger : Ledger) : Prop where
  old : ∀ conn, ledger.ended conn = true → conn < ledger.state.nextConn
  isOpen : ∀ conn < ledger.state.nextConn, ledger.ended conn = false ↔
    ledger.state.sockets (ledger.state.handleOf conn) = some conn
  listed : ∀ conn < ledger.state.nextConn, ledger.ended conn = false →
    ledger.state.context conn ≠ .accepted →
      ledger.state.mClients (ledger.state.handleOf conn) = some (ledger.state.handleOf conn)
  left : ∀ conn < ledger.state.nextConn,
    ledger.state.context conn = .closing ∨ ledger.state.context conn = .released →
      ledger.ended conn = true
  once : ∀ socket, ledger.closes socket ≤ 1
  unclosed : ∀ socket, ledger.state.sockets socket ≠ none → ledger.closes socket = 0

section Kept

variable {ledger next : Ledger} {event : Event}

theorem kept_start (tUser : List UserRow) (tFriend : List (ℤ × ℤ)) :
    (start tUser tFriend).Kept := by
  constructor <;> simp [start, State.start]

/-- A close of an open handle, meant for the connection that is open under it. -/
theorem Kept.closed (kept : ledger.Kept) {conn : ConnId} {socket : Handle} {state : State}
    (latest : ledger.state.Latest conn socket)
    (open_ : ledger.state.sockets socket = some conn)
    (nextConn : state.nextConn = ledger.state.nextConn)
    (handleOf : state.handleOf = ledger.state.handleOf)
    (mClients : state.mClients = ledger.state.mClients)
    (sockets : state.sockets = Function.update ledger.state.sockets socket none)
    (context : ∀ other, other ≠ conn → state.context other = ledger.state.context other) :
    Kept { ledger.closed socket (some conn) with state := state } where
  old := by
    intro other ended
    rw [nextConn]
    by_cases same : other = conn
    · exact same ▸ latest.old
    · exact kept.old other ((Function.update_of_ne same _ _).symm.trans ended)
  isOpen := by
    intro other old
    simp only [ended_closed, nextConn, handleOf, sockets] at old ⊢
    by_cases same : other = conn
    · simp [same, latest.handle]
    · rw [Function.update_of_ne same, kept.isOpen other old]
      by_cases handle : ledger.state.handleOf other = socket
      · simp [handle, open_, Ne.symm same]
      · rw [Function.update_of_ne handle]
  listed := by
    intro other old ended entered
    simp only [ended_closed, nextConn, handleOf, mClients] at old ended entered ⊢
    by_cases same : other = conn
    · simp [same] at ended
    · rw [Function.update_of_ne same] at ended
      exact kept.listed other old ended (context other same ▸ entered)
  left := by
    intro other old gone
    simp only [ended_closed, nextConn] at old gone ⊢
    by_cases same : other = conn
    · simp [same]
    · rw [Function.update_of_ne same]
      exact kept.left other old (context other same ▸ gone)
  once := by
    intro other
    have first := kept.unclosed socket (by simp [open_])
    by_cases same : other = socket
    · simp [same, first]
    · simp only [closes_closed, Function.update_of_ne same]
      exact kept.once other
  unclosed := by
    intro other isOpen
    simp only [sockets] at isOpen
    by_cases same : other = socket
    · simp [same] at isOpen
    · rw [Function.update_of_ne same] at isOpen
      simp only [closes_closed, Function.update_of_ne same]
      exact kept.unclosed other isOpen

/-- A step that opens and closes no handle, lists no connection but the accepted ones, and
removes no entry of another open connection. -/
theorem Kept.move (kept : ledger.Kept) {entered : ℤ → Option ConnId}
    {meant : TaskId → Option ConnId} {after : State}
    (nextConn : after.nextConn = ledger.state.nextConn)
    (handleOf : after.handleOf = ledger.state.handleOf)
    (sockets : ∀ socket, after.sockets socket = ledger.state.sockets socket)
    (listed : ∀ conn < ledger.state.nextConn, ledger.ended conn = false →
      after.context conn ≠ .accepted →
        after.mClients (ledger.state.handleOf conn) = some (ledger.state.handleOf conn))
    (left : ∀ conn < ledger.state.nextConn,
      after.context conn = .closing ∨ after.context conn = .released → ledger.ended conn = true) :
    Kept ⟨after, ledger.closes, ledger.ended, entered, meant⟩ where
  old := by
    rw [nextConn]
    exact kept.old
  isOpen := by
    intro conn old
    simp only [nextConn, handleOf, sockets] at old ⊢
    exact kept.isOpen conn old
  listed := by
    rw [nextConn, handleOf]
    exact listed
  left := by
    rw [nextConn]
    exact left
  once := kept.once
  unclosed := fun socket isOpen => kept.unclosed socket (sockets socket ▸ isOpen)

theorem Kept.accept (kept : ledger.Kept) {socket : Handle}
    (free : ledger.state.sockets socket = none) :
    Kept { ledger.record (.accept socket) with state := ledger.state.accept socket } := by
  have new : ledger.ended ledger.state.nextConn = false := by
    by_contra ended
    exact Nat.lt_irrefl _ (kept.old _ (Bool.not_eq_false _ ▸ ended))
  have handleOf {conn : ConnId} (old : conn < ledger.state.nextConn) :
      (ledger.state.accept socket).handleOf conn = ledger.state.handleOf conn :=
    Function.update_of_ne old.ne _ _
  have context {conn : ConnId} (old : conn < ledger.state.nextConn) :
      (ledger.state.accept socket).context conn = ledger.state.context conn :=
    Function.update_of_ne old.ne _ _
  constructor
  · exact fun conn ended => Nat.lt_succ_of_lt (kept.old conn ended)
  · intro conn old
    rcases Nat.lt_succ_iff_lt_or_eq.mp old with older | rfl
    · simp only [record, handleOf older]
      rw [kept.isOpen conn older]
      by_cases same : ledger.state.handleOf conn = socket
      · simp [State.accept, same, free, Ne.symm older.ne]
      · simp only [State.accept, Function.update_of_ne same]
    · simp [record, new, State.accept]
  · intro conn old ended waiting
    rcases Nat.lt_succ_iff_lt_or_eq.mp old with older | rfl
    · simp only [handleOf older, context older] at waiting ⊢
      exact kept.listed conn older ended waiting
    · simp [State.accept] at waiting
  · intro conn old gone
    rcases Nat.lt_succ_iff_lt_or_eq.mp old with older | rfl
    · simp only [context older] at gone
      exact kept.left conn older gone
    · simp [State.accept] at gone
  · intro other
    by_cases same : other = socket
    · simp [record, same]
    · simp only [record, Function.update_of_ne same]
      exact kept.once other
  · intro other isOpen
    by_cases same : other = socket
    · simp [record, same]
    · simp only [record, State.accept, Function.update_of_ne same] at isOpen ⊢
      exact kept.unclosed other isOpen

theorem Kept.perform (kept : ledger.Kept) (current : ledger.Current)
    (obey : ledger.state.Obey (fun _ _ => closingLaw) fun _ _ _ _ => True) {index : ℕ}
    {outcome : Outcome} {task : Task} {action : Action} {rest : action.Answer → Handler Unit}
    {after : State} {answer : action.Answer}
    (orderly : ledger.state.Orderly (.act index outcome))
    (present : ledger.state.tasks[index]? = some task) (shape : task.prog = .act action rest)
    (performed : ledger.state.perform action outcome = some (after, answer)) :
    Kept { ledger.note task action with
      state := after.advance index task action answer (rest answer) } := by
  have performs := State.performs_of_perform performed
  have frame := performs.sameFrame
  have member := List.mem_of_getElem? present
  by_cases closes : ∃ socket, action = .closesocket socket
  · rcases closes with ⟨socket, rfl⟩
    have lawful := obey task member
    rw [shape] at lawful
    rcases lawful.1 with ⟨id, older, look⟩
    have isOpen := orderly task socket rest present shape
    rcases Option.ne_none_iff_exists'.mp isOpen with ⟨conn, open_⟩
    have latest := current.socket socket conn open_
    rcases current.looked task member id socket older look with zero | ⟨known, meant, knownLatest⟩
    · exact absurd (latest.handle.trans zero) (current.nonzero conn latest.old)
    · have same : known = conn := knownLatest.unique latest
      subst same
      rcases Prod.mk.inj (Option.some.inj performed) with ⟨rfl, _⟩
      simp only [note, meant]
      exact kept.closed latest open_ rfl rfl rfl rfl fun _ _ => rfl
  · simp only [not_exists] at closes
    have sockets (socket : Handle) : after.sockets socket = ledger.state.sockets socket := by
      rcases performs.sockets socket with same | ⟨closed, _⟩
      · exact same
      · exact absurd closed (closes socket)
    have noted : ledger.note task action = ⟨ledger.state, ledger.closes, ledger.ended,
        (ledger.note task action).entered, (ledger.note task action).meant⟩ := by
      cases action with
      | closesocket socket => exact absurd rfl (closes socket)
      | _ => rfl
    rw [noted]
    refine kept.move frame.nextConn frame.handleOf sockets ?_ ?_
    · simp only [State.advance, frame.context, frame.mClients]
      exact kept.listed
    · simp only [State.advance, frame.context]
      exact kept.left

theorem Kept.step (kept : ledger.Kept) (current : ledger.Current)
    (obey : ledger.state.Obey (fun _ _ => closingLaw) fun _ _ _ _ => True)
    (orderly : ledger.state.Orderly event) (stepped : machine.step ledger event = some next) :
    next.Kept := by
  rcases exists_of_step stepped with ⟨after, moved, rfl⟩
  cases State.stepped_of_step moved with
  | @accept socket free => exact kept.accept free
  | @list conn accepted =>
      refine kept.move rfl rfl (fun _ => rfl) ?_ ?_
      · intro other old ended waiting
        by_cases same : ledger.state.handleOf other = ledger.state.handleOf conn
        · simp [State.list, same]
        · have different : other ≠ conn := fun equal => same (equal ▸ rfl)
          simp only [State.list, Function.update_of_ne different] at waiting
          simp only [State.list, Function.update_of_ne same]
          exact kept.listed other old ended waiting
      · intro other old gone
        by_cases same : other = conn
        · simp [State.list, same] at gone
        · simp only [State.list, Function.update_of_ne same] at gone
          exact kept.left other old gone
  | @receive conn data receiving nonempty bounded =>
      exact kept.move rfl rfl (fun _ => rfl) kept.listed kept.left
  | @closeSocket conn receiving =>
      rcases Option.ne_none_iff_exists'.mp orderly with ⟨open_, isOpen⟩
      have latest := current.context conn (by simp [receiving])
      have same : open_ = conn := (current.socket _ _ isOpen).unique latest
      subst same
      exact kept.closed latest isOpen rfl rfl rfl rfl fun _ different =>
        Function.update_of_ne different _ _
  | @eraseClient conn closing =>
      have latest := current.context conn (by simp [closing])
      have ended : ledger.ended conn = true := kept.left conn latest.old (Or.inl closing)
      refine kept.move rfl rfl (fun _ => rfl) ?_ ?_
      · intro other old alive waiting
        have different : other ≠ conn := by
          rintro rfl
          simp [ended] at alive
        have handle : ledger.state.handleOf other ≠ ledger.state.handleOf conn := by
          intro same
          have isOpen := (kept.isOpen other old).mp alive
          exact different ((current.socket _ _ isOpen).unique (same ▸ latest))
        simp only [State.eraseClient, Function.update_of_ne different] at waiting
        simp only [State.eraseClient, Function.update_of_ne handle]
        exact kept.listed other old alive waiting
      · intro other old gone
        by_cases same : other = conn
        · exact same ▸ ended
        · simp only [State.eraseClient, Function.update_of_ne same] at gone
          exact kept.left other old gone
  | @perform index outcome task action rest after answer present shape goesOn performed =>
      rw [record_act present shape]
      exact kept.perform current obey orderly present shape performed
  | @halt index outcome task action rest present shape stops =>
      rw [record_act present shape]
      have same : ledger.note task action = ledger := by
        cases action <;> first | rfl | exact stops.elim
      rw [same]
      exact kept.move rfl rfl (fun _ => rfl) kept.listed kept.left
  | finish =>
      exact kept.move rfl rfl (fun _ => rfl) kept.listed kept.left

/-- In every run in which `accept` returns only values that nothing refers to any more, and a
handle is closed only while it is open, every handle is closed at most once before `accept`
returns it again, and a connection that no close was meant for is open and listed. -/
theorem closing_harms_nobody {tUser : List UserRow} {tFriend : List (ℤ × ℤ)} {events : List Event}
    {final : Ledger} (reached : machine.run (start tUser tFriend) events = some final)
    (orderly : machine.Meets (fun ledger event => ledger.state.Orderly event)
      (start tUser tFriend) events) :
    (∀ socket, final.closes socket ≤ 1) ∧
      ∀ conn < final.state.nextConn, final.ended conn = false →
        final.state.sockets (final.state.handleOf conn) = some conn ∧
          (final.state.context conn ≠ .accepted →
            final.state.mClients (final.state.handleOf conn) =
              some (final.state.handleOf conn)) := by
  have holds : final.state.Coherent ∧
      final.state.Obey (fun _ _ => closingLaw) (fun _ _ _ _ => True) ∧ final.Current ∧
        final.Kept := by
    refine machine.run_invariant (fun ledger => ledger.state.Coherent ∧
      ledger.state.Obey (fun _ _ => closingLaw) (fun _ _ _ _ => True) ∧ ledger.Current ∧
        ledger.Kept) ?_
      ⟨State.coherent_start _ _, by simp [start, State.start, State.Obey], current_start _ _,
        kept_start _ _⟩ orderly reached
    rintro ledger event next ⟨coherent, obey, current, kept⟩ allowed stepped
    rcases exists_of_step stepped with ⟨after, moved, same⟩
    have state : next.state = after := by rw [same]
    rw [state]
    exact ⟨coherent.step moved, obey.step dealData_closes coherent moved,
      current.step coherent allowed stepped, kept.step current obey allowed stepped⟩
  rcases holds with ⟨_, _, _, kept⟩
  refine ⟨kept.once, fun conn old alive => ⟨(kept.isOpen conn old).mp alive, ?_⟩⟩
  exact kept.listed conn old alive

/-! ## Handles that come back -/

/-- The value of a connection that has been closed and removed is returned again. -/
def comesBack : List Event :=
  [.accept 4, .list 0, .closeSocket 0, .eraseClient 0, .accept 4, .list 1]

theorem closing_harms_nobody_reused : ∃ final,
    machine.run (start [] []) comesBack = some final ∧ final.closes 4 ≤ 1 ∧
      final.state.sockets 4 = some 1 := by
  have orderly : machine.Meets (fun ledger event => ledger.state.Orderly event) (start [] [])
      comesBack := by
    refine machine.meets_cons rfl ?_ (machine.meets_cons rfl trivial (machine.meets_cons rfl ?_
      (machine.meets_cons rfl trivial (machine.meets_cons rfl ?_
        (machine.meets_cons rfl trivial trivial)))))
    · exact ⟨by decide, fun _ => nofun, fun _ inUse => absurd rfl inUse, nofun⟩
    · exact Option.some_ne_none 0
    · refine ⟨by decide, fun _ => nofun, fun conn inUse => ?_, nofun⟩
      cases conn with
      | zero => exact absurd rfl inUse
      | succ conn => exact absurd rfl inUse
  exact ⟨_, rfl, (closing_harms_nobody rfl orderly).1 4, rfl⟩

/-- Alice logs out, and her connection is closed by the kernel and by the network layer. -/
def closedTwice : List Event :=
  logsIn alice 0 4 ++ [.receive 0 (StruOfflineRq.bytes ⟨1⟩), .act 0 (.rows (some [])),
    .act 0 .internal, .act 0 .internal, .act 0 .internal, .act 0 .internal, .finish 0,
    .closeSocket 0]

/-- The value comes back before the connection that had it has been removed from `m_clients`. -/
def removedWithAnother : List Event :=
  [.accept 4, .list 0, .closeSocket 0, .accept 4, .list 1, .eraseClient 0]

/-- A logout closes the handle twice, and a slow removal delists a connection that is open. -/
theorem closing_harms : (∃ final, machine.run (start [alice] []) closedTwice = some final ∧
      final.state.handleOf 0 = 4 ∧ final.closes 4 = 2) ∧
    ∃ final, machine.run (start [] []) removedWithAnother = some final ∧
      final.ended 1 = false ∧ final.state.sockets 4 = some 1 ∧
        final.state.context 1 = .receiving ∧ final.state.mClients 4 = none := by
  constructor
  · have evaluated : (machine.run (start [alice] []) closedTwice).any (fun final =>
        final.state.handleOf 0 = 4 ∧ final.closes 4 = 2) = true := by
      decide +kernel
    rcases (Option.any_eq_true _ _).mp evaluated with ⟨final, reached, shape⟩
    exact ⟨final, reached, of_decide_eq_true shape⟩
  · exact ⟨_, rfl, rfl, rfl, rfl, rfl⟩

end Kept

end Ledger

end InstanceMessage
