import InstanceMessage.Server.Process
import InstanceMessage.Server.Sequence

/-!
# The process is the packet level service

What is known of the contexts is enough to match every step of the process by
steps of `Service`: a receive context in use is a connection that receives, and
a worker in `closeClient` is one that is being closed. The bytes of a body, who
has a context and what fails are not seen there.
-/

namespace InstanceMessage

open Library

/-! ## The contexts -/

/-- The buffer for a body is as long as the header has said. -/
def PerIo.Roomy (context : PerIo) : Prop :=
  context.opType = .opRecvBody →
    1 ≤ context.bodyLen ∧ context.bodyLen ≤ bodyLimit ∧ context.bodyBuf.length = context.bodyLen

theorem PerIo.Roomy.filled {context : PerIo} {received : Bytes} (roomy : context.Roomy)
    (fits : received.length ≤ context.requested) : (context.filled received).Roomy := by
  intro kind
  rw [PerIo.opType_filled] at kind
  rcases roomy kind with ⟨positive, bounded, room⟩
  simp only [PerIo.requested, kind] at fits
  rw [PerIo.filled_body kind]
  refine ⟨positive, bounded, ?_⟩
  rw [List.length_append, List.length_drop, room]
  exact Nat.add_sub_of_le fits

theorem PerIo.Roomy.looped {context changed : PerIo} {bytes : ℕ} {effect : Effect}
    (looped : Looped bytes context effect)
    (changes : effect = .recvBody changed ∨ ∃ task, effect = .submit task changed) :
    changed.Roomy := by
  cases looped with
  | recvBody header whole positive bounded =>
      rcases changes with same | ⟨task, same⟩
      · rcases Effect.recvBody.inj same with rfl
        exact fun _ => ⟨positive, bounded, List.length_replicate ..⟩
      · simp at same
  | submit body some whole =>
      rcases changes with same | ⟨task, same⟩
      · simp at same
      · rcases (Effect.submit.inj same).2 with rfl
        exact fun kind => by simp at kind
  | closeClient | release | nothing => simp at changes

/-- A send that has come to a worker has transferred something, and only a receive context goes
through `closeClient`. -/
def Stage.Tended (receiver : ContextId → Option Handle) : Stage → Prop
  | .handling pio received => receiver pio = none → received ≠ []
  | .closing pio | .erasing pio | .deleting pio => receiver pio ≠ none
  | .waiting | .exited => True

theorem Stage.Tended.mono {receiver later : ContextId → Option Handle} {stage : Stage}
    (tended : stage.Tended receiver) (kept : ∀ pio, receiver pio ≠ none → later pio ≠ none) :
    stage.Tended later := by
  cases stage with
  | handling pio received =>
      exact fun absent => tended (by_contra fun found => kept pio found absent)
  | closing pio | erasing pio | deleting pio => exact kept pio tended
  | waiting | exited => trivial

namespace IocpServer

/-- A send that is completed successfully has transferred a byte at least. -/
def Transfers (server : IocpServer) : IocpEvent → Prop
  | .dequeue _ pio received => server.receiver pio = none → received ≠ []
  | _ => True

structure Tended (server : IocpServer) : Prop where
  owned : server.Owned
  roomy : ∀ {pio context}, server.pios pio = some context → context.Roomy
  stages : ∀ {worker : ℕ} {stage}, server.workers[worker]? = some stage →
    stage.Tended server.receiver

theorem tended_start (workers : ℕ) : (start workers).Tended where
  owned := owned_start workers
  roomy found := by simp [start] at found
  stages present := by
    rcases List.mem_replicate.mp (List.mem_of_getElem? present) with ⟨_, rfl⟩
    trivial

section Step

variable {server next : IocpServer} {event : IocpEvent} {worker : ℕ} {old new : Stage}
  {pio : ContextId} {context changed : PerIo}

theorem Tended.become (tended : server.Tended) (owned : next.Owned)
    (workers : next.workers = server.workers.set worker new)
    (receivers : next.receiver = server.receiver)
    (roomy : ∀ {pio context}, next.pios pio = some context → context.Roomy)
    (stage : new.Tended server.receiver) : next.Tended where
  owned := owned
  roomy := roomy
  stages {other stage} present := by
    rw [receivers]
    rw [workers, List.getElem?_set] at present
    split at present
    · split at present
      · rcases Option.some.inj present with rfl
        exact stage
      · simp at present
    · exact tended.stages present

theorem roomy_update (roomy : ∀ {pio context}, server.pios pio = some context → context.Roomy)
    (fits : changed.Roomy) {other : ContextId} {found : PerIo}
    (present : Function.update server.pios pio (some changed) other = some found) :
    found.Roomy := by
  by_cases same : other = pio
  · rw [same, Function.update_self] at present
    exact Option.some.inj present ▸ fits
  · rw [Function.update_of_ne same] at present
    exact roomy present

/-- Only on a receive context does the body of the loop call `closeClient`. -/
theorem Tended.receives_of_closeClient (tended : server.Tended) {received : Bytes}
    (present : server.workers[worker]? = some (.handling pio received))
    (found : server.pios pio = some context)
    (closes : workerBody received.length context = .closeClient) :
    server.receiver pio ≠ none := by
  intro absent
  have some : received.length ≠ 0 := by
    simpa using tended.stages present absent
  cases kind : context.opType with
  | opRecvHeader | opRecvBody =>
      rw [receiver_of_isReceive found (by simp [PerIo.isReceive, kind])] at absent
      simp at absent
  | opSend =>
      simp only [workerBody, if_neg some, kind] at closes
      split at closes <;> simp at closes

theorem Tended.handled (tended : server.Tended) {received : Bytes} {posted : Bool}
    (present : server.workers[worker]? = some (.handling pio received))
    (found : server.pios pio = some context)
    (owned :
      (server.handled worker pio context posted (workerBody received.length context)).Owned) :
    (server.handled worker pio context posted (workerBody received.length context)).Tended := by
  have looped := looped_workerBody received.length context
  have receivers := receiver_handled server worker posted found looped
  cases effect : workerBody received.length context with
  | closeClient =>
      rw [effect] at owned receivers
      exact tended.become owned rfl receivers tended.roomy
        (tended.receives_of_closeClient present found effect)
  | recvBody changed =>
      rw [effect] at owned receivers looped
      have roomy : changed.Roomy := .looped looped (Or.inl rfl)
      cases posted with
      | true => exact tended.become owned rfl receivers (roomy_update tended.roomy roomy) trivial
      | false =>
          refine tended.become owned rfl receivers (roomy_update tended.roomy roomy) ?_
          cases looped with
          | recvBody header =>
              change server.receiver pio ≠ none
              rw [receiver_of_isReceive found (by simp [PerIo.isReceive, header])]
              simp
  | submit task changed =>
      rw [effect] at owned receivers looped
      have roomy : changed.Roomy := .looped looped (Or.inr ⟨task, rfl⟩)
      exact tended.become owned rfl receivers (roomy_update tended.roomy roomy) trivial
  | release | nothing =>
      rw [effect] at owned receivers
      exact tended.become owned rfl receivers tended.roomy trivial

theorem Tended.step (tended : server.Tended) (transfers : server.Transfers event)
    (stepped : server.step event = some next) : next.Tended := by
  have owned := tended.owned.step stepped
  cases stepped_of_step stepped with
  | accept idle => exact ⟨owned, tended.roomy, tended.stages⟩
  | @list client accepted =>
      refine ⟨owned, roomy_update tended.roomy (fun kind => by simp [PerIo.ofAccept] at kind),
        fun present => ?_⟩
      rw [receiver_list]
      refine (tended.stages present).mono fun other found => ?_
      by_cases same : other = server.nextPio
      · simp [same]
      · rwa [Function.update_of_ne same]
  | postFirst made => exact ⟨owned, tended.roomy, tended.stages⟩
  | @dequeue worker pio context received present found posted fits =>
      exact tended.become owned rfl (receiver_dequeue worker received found)
        (roomy_update tended.roomy ((tended.roomy found).filled fits)) transfers
  | dequeueFailed present posted => exact tended.become owned rfl rfl tended.roomy trivial
  | @handle worker pio context received posted present found =>
      have touched : (server.touch pio).Tended :=
        ⟨tended.owned.touch_of_handling present, tended.roomy, tended.stages⟩
      exact touched.handled present found owned
  | @closing worker pio context present found =>
      have receives : server.receiver pio ≠ none := tended.stages present
      exact tended.become owned rfl rfl tended.roomy receives
  | @erasing worker pio context present found =>
      have receives : server.receiver pio ≠ none := tended.stages present
      exact tended.become owned rfl rfl tended.roomy receives
  | deleting present => exact tended.become owned rfl rfl tended.roomy trivial
  | unsent => exact tended
  | @send data clientId socket posted =>
      refine ⟨owned, fun {other found} present => ?_, fun present => ?_⟩
      · rw [pios_send] at present
        exact roomy_update tended.roomy (fun kind => by simp [PerIo.ofSend] at kind) present
      · rw [tended.owned.receiver_send]
        rw [workers_send] at present
        exact tended.stages present
  | closesocket => exact ⟨owned, tended.roomy, tended.stages⟩

end Step

end IocpServer

/-! ## The connections -/

/-- The worker has the context and has not closed its connection. -/
def Stage.lives (pio : ContextId) : Stage → Bool
  | .handling held _ | .closing held => held = pio
  | .waiting | .erasing _ | .deleting _ | .exited => false

namespace IocpServer

/-- Somebody has the context, and its connection has not been closed by `closeClient`. -/
def Live (server : IocpServer) (pio : ContextId) : Prop :=
  0 < server.outstanding pio ∨ server.acceptor = .posting pio ∨
    ∃ (worker : ℕ) (stage : Stage), server.workers[worker]? = some stage ∧ stage.lives pio = true

/-- The connections of the packet level are those of the contexts. -/
structure Carries (server : IocpServer) (connOf : ContextId → ConnId) (state : State) : Prop where
  clients : state.mClients = server.mClients
  sockets : ∀ socket, (state.sockets socket).isSome = server.sockets socket
  number : ∀ {pio socket}, server.receiver pio = some socket →
    connOf pio < state.nextConn ∧ state.handleOf (connOf pio) = socket
  distinct : ∀ {first second}, server.receiver first ≠ none → server.receiver second ≠ none →
    connOf first = connOf second → first = second
  receiving : ∀ {pio}, server.receiver pio ≠ none → server.Live pio →
    state.context (connOf pio) = .receiving
  closing : ∀ {worker : ℕ} {pio}, server.workers[worker]? = some (.erasing pio) →
    state.context (connOf pio) = .closing
  /-- The connection accepted last has no context yet. -/
  entering : ∀ {client}, server.acceptor = .entering client →
    ∃ conn, state.nextConn = conn + 1 ∧ state.handleOf conn = client ∧
      state.context conn = .accepted ∧ ∀ pio, server.receiver pio ≠ none → connOf pio ≠ conn

section Step

variable {server next : IocpServer} {event : IocpEvent} {worker : ℕ} {old new : Stage}
  {pio : ContextId} {context changed : PerIo} {connOf : ContextId → ConnId} {state : State}

theorem carries_start (workers : ℕ) (tUser : List UserRow) (tFriend : List (ℤ × ℤ)) :
    (start workers).Carries (fun _ => 0) (.start tUser tFriend) where
  clients := rfl
  sockets _ := rfl
  number receives := by simp [receiver, start] at receives
  distinct receives := by simp [receiver, start] at receives
  receiving receives := by simp [receiver, start] at receives
  closing present := by
    rcases List.mem_replicate.mp (List.mem_of_getElem? present) with ⟨_, same⟩
    simp at same
  entering accepted := by simp [start] at accepted

theorem Owned.old_of_receives (owned : server.Owned) (receives : server.receiver pio ≠ none) :
    pio ≠ server.nextPio := by
  rcases Option.ne_none_iff_exists'.mp receives with ⟨_, receives⟩
  exact owned.old_of_receiver receives

/-- A worker that is past `closesocket` is the only one that has the context. -/
theorem Owned.not_live (owned : server.Owned) (present : server.workers[worker]? = some old)
    (holds : old.holds pio = true) (closed : old.lives pio = false) : ¬server.Live pio := by
  have held := holders_pos pio present holds
  have once := owned.once pio
  simp only [tokens] at once
  rintro (outstanding | posting | ⟨other, stage, presentOther, lives⟩)
  · omega
  · have counted : 0 < server.workers.countP (Stage.holds pio) :=
      List.countP_pos_iff.mpr ⟨old, List.mem_of_getElem? present, holds⟩
    simp only [holders, if_pos posting] at once
    omega
  · have holdsOther : stage.holds pio = true := by
      cases stage <;> simp_all [Stage.lives, Stage.holds]
    have same := owned.holder_unique present holds presentOther holdsOther
    rw [← same, present] at presentOther
    rw [Option.some.inj presentOther, lives] at closed
    exact Bool.noConfusion closed

/-- Nothing has happened to a connection. -/
theorem Carries.pass (carries : server.Carries connOf state)
    (clients : next.mClients = server.mClients) (sockets : next.sockets = server.sockets)
    (receivers : next.receiver = server.receiver)
    (live : ∀ pio, next.Live pio → server.Live pio)
    (closing : ∀ {worker : ℕ} {pio}, next.workers[worker]? = some (.erasing pio) →
      ∃ other : ℕ, server.workers[other]? = some (.erasing pio))
    (entering : ∀ {client}, next.acceptor = .entering client →
      server.acceptor = .entering client) :
    next.Carries connOf state where
  clients := carries.clients.trans clients.symm
  sockets := sockets ▸ carries.sockets
  number := receivers ▸ carries.number
  distinct := receivers ▸ carries.distinct
  receiving {pio} receives now := carries.receiving (receivers ▸ receives) (live pio now)
  closing present := by
    rcases closing present with ⟨other, before⟩
    exact carries.closing before
  entering accepted := receivers ▸ carries.entering (entering accepted)

/-- A context that is live after a step of a worker was so before. -/
theorem live_become (present : server.workers[worker]? = some old)
    (workers : next.workers = server.workers.set worker new)
    (acceptor : next.acceptor = server.acceptor)
    (outstanding : ∀ pio, 0 < next.outstanding pio →
      0 < server.outstanding pio ∨ old.lives pio = true)
    (lives : ∀ pio, new.lives pio = true → 0 < server.outstanding pio ∨ old.lives pio = true)
    (pio : ContextId) (live : next.Live pio) : server.Live pio := by
  have alive (before : 0 < server.outstanding pio ∨ old.lives pio = true) : server.Live pio :=
    before.imp id fun lived => Or.inr ⟨worker, old, present, lived⟩
  rcases live with posted | posting | ⟨other, stage, presentOther, lived⟩
  · exact alive (outstanding pio posted)
  · exact Or.inr (Or.inl (acceptor ▸ posting))
  · rw [workers, List.getElem?_set] at presentOther
    split at presentOther
    · split at presentOther
      · rcases Option.some.inj presentOther with rfl
        exact alive (lives pio lived)
      · simp at presentOther
    · exact Or.inr (Or.inr ⟨other, stage, presentOther, lived⟩)

theorem erasing_become (workers : next.workers = server.workers.set worker new)
    (stage : ∀ pio, new ≠ .erasing pio) {other : ℕ}
    (present : next.workers[other]? = some (.erasing pio)) :
    ∃ before : ℕ, server.workers[before]? = some (.erasing pio) := by
  rw [workers, List.getElem?_set] at present
  split at present
  · split at present
    · exact absurd (Option.some.inj present) (stage pio)
    · simp at present
  · exact ⟨other, present⟩

theorem Carries.become (carries : server.Carries connOf state)
    (present : server.workers[worker]? = some old)
    (workers : next.workers = server.workers.set worker new)
    (clients : next.mClients = server.mClients) (sockets : next.sockets = server.sockets)
    (receivers : next.receiver = server.receiver)
    (acceptor : next.acceptor = server.acceptor)
    (outstanding : ∀ pio, 0 < next.outstanding pio →
      0 < server.outstanding pio ∨ old.lives pio = true)
    (lives : ∀ pio, new.lives pio = true → 0 < server.outstanding pio ∨ old.lives pio = true)
    (stage : ∀ pio, new ≠ .erasing pio) : next.Carries connOf state :=
  carries.pass clients sockets receivers
    (live_become present workers acceptor outstanding lives) (erasing_become workers stage)
    fun accepted => acceptor ▸ accepted

/-- The tables of the connections are all that counts. -/
theorem Carries.congr {other : State} (carries : server.Carries connOf state)
    (nextConn : other.nextConn = state.nextConn) (handleOf : other.handleOf = state.handleOf)
    (context : other.context = state.context) (clients : other.mClients = state.mClients)
    (sockets : other.sockets = state.sockets) : server.Carries connOf other where
  clients := clients.trans carries.clients
  sockets := sockets ▸ carries.sockets
  number receives := by
    rw [nextConn, handleOf]
    exact carries.number receives
  distinct := carries.distinct
  receiving receives live := context ▸ carries.receiving receives live
  closing present := context ▸ carries.closing present
  entering accepted := by
    rw [nextConn, handleOf, context]
    exact carries.entering accepted

theorem Carries.handled (carries : server.Carries connOf state) {received : Bytes}
    {posted : Bool} (present : server.workers[worker]? = some (.handling pio received))
    (found : server.pios pio = some context) :
    (server.handled worker pio context posted
      (workerBody received.length context)).Carries connOf state := by
  have looped := looped_workerBody received.length context
  have receivers := receiver_handled server worker posted found looped
  have lived {other : ContextId} (same : other = pio) :
      (Stage.handling pio received).lives other = true := by simp [Stage.lives, same]
  have outstanding {next : IocpServer}
      (elsewhere : ∀ other ≠ pio, next.outstanding other = server.outstanding other)
      (other : ContextId) (posted : 0 < next.outstanding other) :
      0 < server.outstanding other ∨ (Stage.handling pio received).lives other = true := by
    by_cases same : other = pio
    · exact Or.inr (lived same)
    · exact Or.inl (elsewhere other same ▸ posted)
  cases effect : workerBody received.length context with
  | closeClient =>
      rw [effect] at receivers
      refine carries.become present rfl rfl rfl receivers rfl (fun _ => Or.inl) ?_ (by simp)
      exact fun other lives => Or.inr (lived (by simpa [Stage.lives, eq_comm] using lives))
  | recvBody changed =>
      rw [effect] at receivers
      cases posted with
      | true =>
          refine carries.become present rfl rfl rfl receivers rfl
            (outstanding fun other different => Function.update_of_ne different _ _) ?_ (by simp)
          simp [Stage.lives]
      | false =>
          refine carries.become present rfl rfl rfl receivers rfl (fun _ => Or.inl) ?_ (by simp)
          exact fun other lives => Or.inr (lived (by simpa [Stage.lives, eq_comm] using lives))
  | submit task changed =>
      rw [effect] at receivers
      refine carries.become present rfl rfl rfl receivers rfl
        (outstanding fun other different => Function.update_of_ne different _ _) ?_ (by simp)
      simp [Stage.lives]
  | release | nothing =>
      rw [effect] at receivers
      refine carries.become present rfl rfl rfl receivers rfl (fun _ => Or.inl) ?_ (by simp)
      simp [Stage.lives]

theorem Carries.dequeue (carries : server.Carries connOf state) {received : Bytes}
    (present : server.workers[worker]? = some .waiting) (found : server.pios pio = some context)
    (posted : 0 < server.outstanding pio) :
    (server.dequeue worker pio context received).Carries connOf state := by
  refine carries.become present rfl rfl rfl (receiver_dequeue worker received found) rfl ?_ ?_
    (by simp)
  · intro other still
    by_cases same : other = pio
    · exact Or.inl (same ▸ posted)
    · simp only [IocpServer.dequeue, Function.update_of_ne same] at still
      exact Or.inl still
  · intro other lives
    have same : pio = other := by simpa [Stage.lives] using lives
    exact Or.inl (same ▸ posted)

theorem Carries.dequeueFailed (carries : server.Carries connOf state)
    (present : server.workers[worker]? = some .waiting) :
    (server.dequeueFailed worker pio).Carries connOf state := by
  refine carries.become present rfl rfl rfl rfl rfl ?_ (by simp [Stage.lives]) (by simp)
  intro other still
  by_cases same : other = pio
  · simp only [IocpServer.dequeueFailed, same, Function.update_self] at still
    exact Or.inl (same ▸ (by omega))
  · simp only [IocpServer.dequeueFailed, Function.update_of_ne same] at still
    exact Or.inl still

theorem Carries.postFirst (carries : server.Carries connOf state) {posted : Bool}
    (made : server.acceptor = .posting pio) :
    Carries { (server.touch pio).post pio posted with acceptor := .listening } connOf state := by
  refine carries.pass rfl rfl rfl ?_ (fun {worker pio} present => ⟨worker, present⟩) (by simp)
  rintro other (still | posting | lived)
  · by_cases same : other = pio
    · exact Or.inr (Or.inl (same ▸ made))
    · simp only [post, IocpServer.touch, Function.update_of_ne same] at still
      exact Or.inl still
  · simp at posting
  · exact Or.inr (Or.inr lived)

theorem Carries.send (carries : server.Carries connOf state) (owned : server.Owned) (data : Bytes)
    (socket : Handle) (posted : Bool) :
    (server.send data socket posted).Carries connOf state := by
  have receivers := owned.receiver_send data socket posted
  refine ⟨?_, ?_, receivers ▸ carries.number, receivers ▸ carries.distinct, ?_, ?_, ?_⟩
  · rw [mClients_send]
    exact carries.clients
  · cases posted <;> exact carries.sockets
  · intro pio receives live
    rw [receivers] at receives
    apply carries.receiving receives
    have old := owned.old_of_receives receives
    rcases live with still | posting | lived
    · exact Or.inl (outstanding_send server data socket posted old ▸ still)
    · exact Or.inr (Or.inl (acceptor_send server data socket posted ▸ posting))
    · exact Or.inr (Or.inr (workers_send server data socket posted ▸ lived))
  · intro worker pio present
    rw [workers_send] at present
    exact carries.closing present
  · intro client accepted
    rw [acceptor_send] at accepted
    exact receivers ▸ carries.entering accepted

theorem Carries.sendData (carries : server.Carries connOf state) (owned : server.Owned)
    (data : Bytes) (clientId : Handle) (posted : Bool) :
    (server.sendData data clientId posted).Carries connOf state := by
  simp only [IocpServer.sendData]
  split
  · exact carries
  · exact carries.send owned _ _ _

theorem Carries.earlier (carries : server.Carries connOf state)
    (receives : server.receiver pio ≠ none) : connOf pio < state.nextConn := by
  rcases Option.ne_none_iff_exists'.mp receives with ⟨_, receives⟩
  exact (carries.number receives).1

/-- A connection is accepted. -/
theorem Carries.accept (carries : server.Carries connOf state) (tended : server.Tended)
    (client : Handle) : (server.accept client).Carries connOf (state.accept client) := by
  refine ⟨carries.clients, ?_, ?_, carries.distinct, ?_, ?_, ?_⟩
  · intro socket
    simp only [State.accept, IocpServer.accept]
    by_cases same : socket = client
    · simp [same]
    · rw [Function.update_of_ne same, Function.update_of_ne same]
      exact carries.sockets socket
  · intro pio socket receives
    have number := carries.number receives
    simp only [State.accept]
    rw [Function.update_of_ne (Nat.ne_of_lt number.1)]
    exact ⟨Nat.lt_succ_of_lt number.1, number.2⟩
  · intro pio receives live
    simp only [State.accept]
    rw [Function.update_of_ne (Nat.ne_of_lt (carries.earlier receives))]
    apply carries.receiving receives
    rcases live with still | posting | lived
    · exact Or.inl still
    · simp [IocpServer.accept] at posting
    · exact Or.inr (Or.inr lived)
  · intro worker pio present
    have receives : server.receiver pio ≠ none := tended.stages present
    simp only [State.accept]
    rw [Function.update_of_ne (Nat.ne_of_lt (carries.earlier receives))]
    exact carries.closing present
  · intro accepted same
    rcases Acceptor.entering.inj same with rfl
    refine ⟨state.nextConn, rfl, by simp [State.accept], by simp [State.accept], ?_⟩
    exact fun pio receives => Nat.ne_of_lt (carries.earlier receives)

/-- The connection accepted last is entered in `m_clients`, and its context is made. -/
theorem Carries.list (carries : server.Carries connOf state) (tended : server.Tended)
    {client : Handle} {conn : ConnId} (nextConn : state.nextConn = conn + 1)
    (handle : state.handleOf conn = client)
    (unlisted : ∀ pio, server.receiver pio ≠ none → connOf pio ≠ conn) :
    (server.list client).Carries (Function.update connOf server.nextPio conn)
      (state.list conn) := by
  refine ⟨?_, carries.sockets, ?_, ?_, ?_, ?_, ?_⟩
  · simp only [State.list, IocpServer.list, carries.clients, handle]
  · intro pio socket receives
    rw [receiver_list] at receives
    by_cases same : pio = server.nextPio
    · rw [same, Function.update_self] at receives
      rcases Option.some.inj receives with rfl
      rw [same, Function.update_self]
      exact ⟨nextConn ▸ Nat.lt_succ_self conn, handle⟩
    · rw [Function.update_of_ne same] at receives
      rw [Function.update_of_ne same]
      exact carries.number receives
  · intro first second receivesFirst receivesSecond same
    rw [receiver_list] at receivesFirst receivesSecond
    by_cases newFirst : first = server.nextPio <;> by_cases newSecond : second = server.nextPio
    · rw [newFirst, newSecond]
    · rw [Function.update_of_ne newSecond] at receivesSecond
      rw [newFirst, Function.update_self, Function.update_of_ne newSecond] at same
      exact absurd same.symm (unlisted second receivesSecond)
    · rw [Function.update_of_ne newFirst] at receivesFirst
      rw [newSecond, Function.update_self, Function.update_of_ne newFirst] at same
      exact absurd same (unlisted first receivesFirst)
    · rw [Function.update_of_ne newFirst] at receivesFirst
      rw [Function.update_of_ne newSecond] at receivesSecond
      rw [Function.update_of_ne newFirst, Function.update_of_ne newSecond] at same
      exact carries.distinct receivesFirst receivesSecond same
  · intro pio receives live
    rw [receiver_list] at receives
    simp only [State.list]
    by_cases same : pio = server.nextPio
    · rw [same, Function.update_self, Function.update_self]
    · rw [Function.update_of_ne same] at receives
      rw [Function.update_of_ne same, Function.update_of_ne (unlisted pio receives)]
      apply carries.receiving receives
      rcases live with still | posting | lived
      · exact Or.inl still
      · exact absurd (Acceptor.posting.inj posting).symm same
      · exact Or.inr (Or.inr lived)
  · intro worker pio present
    have receives : server.receiver pio ≠ none := tended.stages present
    have old := tended.owned.old_of_receives receives
    simp only [State.list]
    rw [Function.update_of_ne old, Function.update_of_ne (unlisted pio receives)]
    exact carries.closing present
  · intro accepted same
    simp [IocpServer.list] at same

/-- A worker goes on in `closeClient`, and its connection with it. -/
theorem Carries.goesOn (carries : server.Carries connOf state) (tended : server.Tended)
    (owned : next.Owned) (present : server.workers[worker]? = some old)
    (held : old.holds pio = true) (receives : server.receiver pio ≠ none)
    (workers : next.workers = server.workers.set worker new) (holds : new.holds pio = true)
    (closed : ∀ other, new.lives other = false) (receivers : next.receiver = server.receiver)
    (acceptor : next.acceptor = server.acceptor)
    (outstanding : next.outstanding = server.outstanding) {status : Context} {after : State}
    (context : after.context = Function.update state.context (connOf pio) status)
    (closing : ∀ other, new = .erasing other → other = pio ∧ status = .closing)
    (nextConn : after.nextConn = state.nextConn) (handleOf : after.handleOf = state.handleOf)
    (clients : after.mClients = next.mClients)
    (sockets : ∀ socket, (after.sockets socket).isSome = next.sockets socket) :
    next.Carries connOf after := by
  have entered : next.workers[worker]? = some new := by
    rw [workers, List.getElem?_set_self']
    simp [present]
  have elsewhere {other : ContextId} (receivesOther : server.receiver other ≠ none)
      (different : other ≠ pio) : after.context (connOf other) = state.context (connOf other) := by
    rw [context, Function.update_of_ne]
    exact fun same => different (carries.distinct receivesOther receives same)
  refine ⟨clients, sockets, ?_, receivers ▸ carries.distinct, ?_, ?_, ?_⟩
  · rw [receivers, nextConn, handleOf]
    exact carries.number
  · intro other receivesOther live
    rw [receivers] at receivesOther
    have different : other ≠ pio := by
      rintro rfl
      exact owned.not_live entered holds (closed other) live
    rw [elsewhere receivesOther different]
    apply carries.receiving receivesOther
    exact live_become present workers acceptor (fun _ => outstanding ▸ Or.inl)
      (fun _ lives => by simp [closed] at lives) other live
  · intro otherWorker other presentOther
    by_cases same : otherWorker = worker
    · rw [same, entered] at presentOther
      rcases closing other (Option.some.inj presentOther) with ⟨rfl, rfl⟩
      rw [context, Function.update_self]
    · rw [workers, List.getElem?_set_ne (Ne.symm same)] at presentOther
      have different : other ≠ pio := by
        rintro rfl
        exact same (tended.owned.holder_unique presentOther (by simp [Stage.holds]) present held)
      have receivesOther : server.receiver other ≠ none := tended.stages presentOther
      rw [elsewhere receivesOther different]
      exact carries.closing presentOther
  · intro client accepted
    rcases carries.entering (acceptor ▸ accepted) with ⟨conn, next, handle, waiting, unlisted⟩
    rw [nextConn, handleOf, receivers, context]
    refine ⟨conn, next, handle, ?_, unlisted⟩
    rw [Function.update_of_ne (Ne.symm (unlisted pio receives))]
    exact waiting

/-- The connection of a receive context, where `closeClient` has been called on it. -/
theorem Carries.receiver (carries : server.Carries connOf state)
    (receives : server.receiver pio ≠ none) (found : server.pios pio = some context) :
    state.handleOf (connOf pio) = context.sock := by
  rcases Option.ne_none_iff_exists'.mp receives with ⟨socket, receives⟩
  rw [(carries.number receives).2]
  rcases exists_of_receiver receives with ⟨same, foundSame, _, sock⟩
  rw [Option.some.inj (found.symm.trans foundSame)]
  exact sock.symm

theorem Carries.closeSocket (carries : server.Carries connOf state) (tended : server.Tended)
    (present : server.workers[worker]? = some (.closing pio))
    (found : server.pios pio = some context)
    (same : { (server.touch pio).become worker (.erasing pio) with
      sockets := Function.update server.sockets context.sock false } = next)
    (owned : next.Owned) :
    state.context (connOf pio) = .receiving ∧
      next.Carries connOf (state.closeSocket (connOf pio)) := by
  have receives : server.receiver pio ≠ none := tended.stages present
  have sock := carries.receiver receives found
  subst same
  refine ⟨carries.receiving receives
    (Or.inr (Or.inr ⟨worker, _, present, by simp [Stage.lives]⟩)), ?_⟩
  refine carries.goesOn tended owned present (by simp [Stage.holds]) receives rfl
    (by simp [Stage.holds]) (fun _ => rfl) rfl rfl rfl rfl ?_ rfl rfl carries.clients ?_
  · exact fun other same => ⟨(Stage.erasing.inj same).symm, rfl⟩
  · intro socket
    simp only [State.closeSocket, sock]
    by_cases closed : socket = context.sock
    · simp [closed]
    · rw [Function.update_of_ne closed, Function.update_of_ne closed]
      exact carries.sockets socket

theorem Carries.eraseClient (carries : server.Carries connOf state) (tended : server.Tended)
    (present : server.workers[worker]? = some (.erasing pio))
    (found : server.pios pio = some context)
    (same : { (server.touch pio).become worker (.deleting pio) with
      mClients := Function.update server.mClients context.sock none } = next)
    (owned : next.Owned) :
    state.context (connOf pio) = .closing ∧
      next.Carries connOf (state.eraseClient (connOf pio)) := by
  have receives : server.receiver pio ≠ none := tended.stages present
  have sock := carries.receiver receives found
  subst same
  refine ⟨carries.closing present, ?_⟩
  refine carries.goesOn tended owned present (by simp [Stage.holds]) receives rfl
    (by simp [Stage.holds]) (fun _ => rfl) rfl rfl rfl rfl (by simp) rfl rfl ?_ carries.sockets
  simp only [State.eraseClient, sock, carries.clients]

theorem Carries.deleting (carries : server.Carries connOf state)
    (present : server.workers[worker]? = some (.deleting pio)) :
    Carries (((server.touch pio).become worker .waiting).release pio) connOf state :=
  carries.become present rfl rfl rfl rfl rfl (fun _ => Or.inl) (by simp [Stage.lives]) (by simp)

end Step

end IocpServer

/-! ## The kernel -/

namespace State

/-- Everything of the kernel is the same; the tables of the connections may differ. -/
structure SameKernel (state other : State) : Prop where
  tables : SameTables state other
  nextConn : other.nextConn = state.nextConn
  nextTask : other.nextTask = state.nextTask
  tasks : other.tasks = state.tasks
  log : other.log = state.log
  halted : other.halted = state.halted

/-- The connections are the same, but for one that has been closed. -/
structure SameConnections (closed : Option Handle) (state after : State) : Prop where
  nextConn : after.nextConn = state.nextConn
  handleOf : after.handleOf = state.handleOf
  context : after.context = state.context
  mClients : after.mClients = state.mClients
  sockets : after.sockets =
    closed.elim state.sockets fun socket => Function.update state.sockets socket none

/-- The handle that the action closes. -/
def closedBy : Action → Option Handle
  | .closesocket socket => some socket
  | _ => none

section Kernel

variable {state other next after : State} {index : ℕ} {outcome : Outcome}

theorem Performs.sameConnections {action : Action} {answer : action.Answer}
    (performs : Performs state action after answer) :
    SameConnections (closedBy action) state after := by
  have frame := performs.sameFrame
  refine ⟨frame.nextConn, frame.handleOf, frame.context, frame.mClients, ?_⟩
  cases performs with
  | count | setSocket | erase | selected | selectFailed | updateFailed | closesocket => rfl
  | socketOf id =>
      rcases state.exists_socketOf_eq id with ⟨entries, same⟩
      rw [same]
      rfl
  | updated stmt rowId => cases stmt <;> rfl
  | sendData data clientId taken =>
      rcases state.exists_sendData_eq data clientId taken with ⟨_, _, same⟩
      rw [same]
      rfl

/-- An action does the same to the kernel wherever the connections are. -/
theorem SameKernel.act (same : SameKernel state other)
    (stepped : state.step (.act index outcome) = some next) :
    ∃ task action rest otherNext, state.tasks[index]? = some task ∧
      task.prog = .act action rest ∧ other.step (.act index outcome) = some otherNext ∧
        SameKernel next otherNext ∧ SameConnections (closedBy action) other otherNext := by
  have running : other.halted = false := same.halted.trans (not_halted_of_step stepped)
  have acts {task : Task} {action : Action} {rest : action.Answer → Handler Unit}
      (present : state.tasks[index]? = some task) (shape : task.prog = .act action rest) :
      other.step (.act index outcome) =
        if action.Stops then some other.halt
        else (other.perform action outcome).map fun performed =>
          performed.1.advance index task action performed.2 (rest performed.2) := by
    simp only [step, running, State.act, same.tasks, present, shape]
    rfl
  cases stepped_of_step stepped with
  | @perform _ _ task action rest after answer present shape goesOn performed =>
      rcases same.tables.perform performed with ⟨otherAfter, otherPerformed, tables⟩
      have frame := (performs_of_perform performed).sameFrame
      have otherPerforms := performs_of_perform otherPerformed
      rcases otherPerforms.sameConnections with ⟨nextConn, handleOf, context, mClients, sockets⟩
      refine ⟨task, action, rest, otherAfter.advance index task action answer (rest answer),
        present, shape, ?_, ⟨⟨tables.1, tables.2, tables.3⟩, ?_, ?_, ?_, ?_, ?_⟩,
        ⟨nextConn, handleOf, context, mClients, sockets⟩⟩
      · rw [acts present shape, if_neg goesOn, otherPerformed]
        rfl
      · exact nextConn.trans (same.nextConn.trans frame.nextConn.symm)
      · exact otherPerforms.sameFrame.nextTask.trans (same.nextTask.trans frame.nextTask.symm)
      · simp only [advance, frame.tasks, otherPerforms.sameFrame.tasks, same.tasks]
      · simp only [advance, frame.log, otherPerforms.sameFrame.log, same.log]
      · exact otherPerforms.sameFrame.halted.trans (same.halted.trans frame.halted.symm)
  | @halt _ _ task action rest present shape stops =>
      refine ⟨task, action, rest, other.halt, present, shape, ?_,
        ⟨⟨same.tables.1, same.tables.2, same.tables.3⟩, same.nextConn, same.nextTask, rfl,
          same.log, rfl⟩, ?_⟩
      · rw [acts present shape, if_pos stops]
      · cases action with
        | exit | abort => exact ⟨rfl, rfl, rfl, rfl, rfl⟩
        | _ => exact stops.elim

theorem SameKernel.finish (same : SameKernel state other)
    (stepped : state.step (.finish index) = some next) :
    ∃ otherNext, other.step (.finish index) = some otherNext ∧ SameKernel next otherNext ∧
      SameConnections none other otherNext := by
  have running : other.halted = false := same.halted.trans (not_halted_of_step stepped)
  cases stepped_of_step stepped with
  | finish present returned =>
      have returned : other.returned index = true := by
        simp only [State.returned, same.tasks, present, returned]
      refine ⟨{ other with tasks := other.tasks.eraseIdx index }, ?_,
        ⟨⟨same.tables.1, same.tables.2, same.tables.3⟩, same.nextConn, same.nextTask, ?_,
          same.log, same.halted⟩, ⟨rfl, rfl, rfl, rfl, rfl⟩⟩
      · simp [step, running, returned]
      · simp only [same.tasks]

end Kernel

end State

namespace Service

theorem acting_of_kernel {own peer : Service} (pool : peer.pool = own.pool)
    (same : State.SameKernel own.server peer.server) (event : ServiceEvent) :
    peer.acting event = own.acting event := by
  cases event with
  | act thread outcome => simp only [Service.acting, Service.position, pool, same.tasks]
  | _ => rfl

/-- A step of a pool thread does the same wherever the connections are. -/
theorem step_of_kernel {own peer next : Service} {event : ServiceEvent}
    (kernel : event.isKernel = true) (pool : peer.pool = own.pool)
    (same : State.SameKernel own.server peer.server) (stepped : own.step event = some next) :
    ∃ peerNext, service.step peer event = some peerNext ∧ peerNext.pool = next.pool ∧
      State.SameKernel next.server peerNext.server ∧
        State.SameConnections ((own.acting event).bind State.closedBy) peer.server
          peerNext.server := by
  have position (thread : ℕ) : peer.position thread = own.position thread := by
    simp only [Service.position, pool, same.tasks]
  have running : peer.server.halted = false := by
    rw [same.halted]
    by_contra halted
    simp [Service.step, halted] at stepped
  have going : own.server.halted = false := same.halted.symm.trans running
  have still : State.SameConnections none peer.server peer.server := ⟨rfl, rfl, rfl, rfl, rfl⟩
  simp only [Service.step, going] at stepped
  cases event with
  | network | receive => simp [ServiceEvent.isKernel] at kernel
  | notify woken =>
      rcases Option.map_eq_some_iff.mp stepped with ⟨after, notified, rfl⟩
      exact ⟨{ peer with pool := after }, by simp [service, Service.step, running, pool, notified],
        rfl, same, still⟩
  | run thread woken =>
      rcases Option.map_eq_some_iff.mp stepped with ⟨after, ran, rfl⟩
      exact ⟨{ peer with pool := after }, by simp [service, Service.step, running, pool, ran],
        rfl, same, still⟩
  | spurious thread =>
      rcases Option.some.inj stepped with rfl
      exact ⟨{ peer with pool := own.pool.wake thread },
        by simp [service, Service.step, running, pool], rfl, same, still⟩
  | act thread outcome =>
      rcases Option.bind_eq_some_iff.mp stepped with ⟨index, found, rest⟩
      rcases Option.map_eq_some_iff.mp rest with ⟨server, moved, rfl⟩
      rcases same.act moved with
        ⟨task, action, rest, otherNext, present, shape, otherMoved, kernelSame, connections⟩
      refine ⟨{ peer with server := otherNext }, ?_, pool, kernelSame, ?_⟩
      · simp [service, Service.step, running, position, found, otherMoved]
      · simpa [Service.acting, found, present, shape] using connections
  | dealt thread =>
      rcases Option.bind_eq_some_iff.mp stepped with ⟨index, found, rest⟩
      rcases Option.bind_eq_some_iff.mp rest with ⟨server, moved, rest⟩
      rcases Option.map_eq_some_iff.mp rest with ⟨after, returned, rfl⟩
      rcases same.finish moved with ⟨otherNext, otherMoved, kernelSame, connections⟩
      refine ⟨⟨otherNext, after⟩, ?_, rfl, kernelSame, connections⟩
      simp [service, Service.step, running, position, found, otherMoved, pool, returned]

end Service

/-! ## The process -/

theorem IocpServer.Carries.closesocket {server : IocpServer} {connOf : ContextId → ConnId}
    {state after : State} {socket : Handle} (carries : server.Carries connOf state)
    (connections : State.SameConnections (some socket) state after) :
    IocpServer.Carries { server with sockets := Function.update server.sockets socket false }
      connOf after where
  clients := connections.mClients.trans carries.clients
  sockets other := by
    rw [connections.sockets]
    by_cases same : other = socket
    · simp [same]
    · simpa [Function.update_of_ne same] using carries.sockets other
  number receives := by
    rw [connections.nextConn, connections.handleOf]
    exact carries.number receives
  distinct := carries.distinct
  receiving receives live := connections.context ▸ carries.receiving receives live
  closing present := connections.context ▸ carries.closing present
  entering accepted := by
    rw [connections.nextConn, connections.handleOf, connections.context]
    exact carries.entering accepted

namespace Process

def Transfers (process : Process) : ProcessEvent → Prop
  | .loop event => process.net.Transfers event
  | .kernel _ => True

/-- The service is the process without its contexts. -/
structure Mirrors (process : Process) (peer : Service) : Prop where
  pool : peer.pool = process.service.pool
  kernel : State.SameKernel process.service.server peer.server
  tended : process.net.Tended
  carries : process.net.Carries process.connOf peer.server

theorem mirrors_start (workers threadCount : ℕ) (tUser : List UserRow)
    (tFriend : List (ℤ × ℤ)) :
    (start workers threadCount tUser tFriend).Mirrors (.start threadCount tUser tFriend) where
  pool := rfl
  kernel := ⟨.refl _, rfl, rfl, rfl, rfl, rfl⟩
  tended := IocpServer.tended_start workers
  carries := IocpServer.carries_start workers tUser tFriend

/-- What the service does while the process makes a step. -/
inductive Moves (process : Process) (peer : Service) : ProcessEvent → Service → Prop
  | unseen {event : IocpEvent} (other : ∀ client, event ≠ .accept client) (unlisted : event ≠ .list)
      (quiet : process.net.submission event = none) : Moves process peer (.loop event) peer
  | accept {client : Handle} {peerNext : Service}
      (moved : InstanceMessage.service.step peer (.network (.accept client)) = some peerNext) :
      Moves process peer (.loop (.accept client)) peerNext
  | list {conn : ConnId} {peerNext : Service} (nextConn : peer.server.nextConn = conn + 1)
      (unlisted : ∀ pio, process.net.receiver pio ≠ none → process.connOf pio ≠ conn)
      (moved : InstanceMessage.service.step peer (.network (.list conn)) = some peerNext) :
      Moves process peer (.loop .list) peerNext
  | close {worker : ℕ} {event : Event} {peerNext : Service}
      (closes : ∃ conn, event = .closeSocket conn ∨ event = .eraseClient conn)
      (moved : InstanceMessage.service.step peer (.network event) = some peerNext) :
      Moves process peer (.loop (.closeClient worker)) peerNext
  | receive {worker : ℕ} {posted : Bool} {pio : ContextId} {task : TaskData} {peerNext : Service}
      (submits : process.net.submission (.handle worker posted) = some (pio, task))
      (moved : InstanceMessage.service.step peer
        (.receive (process.connOf pio) task.data) = some peerNext) :
      Moves process peer (.loop (.handle worker posted)) peerNext
  | kernel {event : ServiceEvent} {peerNext : Service}
      (kernel : event.isKernel = true)
      (same : peer.acting event = process.service.acting event)
      (moved : InstanceMessage.service.step peer event = some peerNext) :
      Moves process peer (.kernel event) peerNext

theorem Moves.reaches {process : Process} {peer peerNext : Service} {event : ProcessEvent}
    (moves : process.Moves peer event peerNext) :
    InstanceMessage.service.Reaches peer peerNext := by
  cases moves with
  | unseen => exact ⟨[], rfl⟩
  | accept moved | list _ _ moved | close _ moved | receive _ moved | kernel _ _ moved =>
      exact Machine.reaches_of_step moved

section Step

variable {before next : Process} {peer : Service} {net : IocpServer}

theorem Mirrors.running (mirrors : before.Mirrors peer)
    (going : before.service.server.halted = false) : peer.server.halted = false :=
  mirrors.kernel.halted.trans going

theorem Mirrors.kernelStep (mirrors : before.Mirrors peer) {event : ServiceEvent}
    (stepped : before.step (.kernel event) = some next) :
    ∃ peerNext, before.Moves peer (.kernel event) peerNext ∧ next.Mirrors peerNext := by
  simp only [step] at stepped
  split at stepped
  · simp at stepped
  · rcases Option.ite_none_right_eq_some.mp stepped with ⟨kernel, moved⟩
    rcases Option.bind_eq_some_iff.mp moved with ⟨after, acted, rest⟩
    rcases Service.step_of_kernel kernel mirrors.pool mirrors.kernel acted with
      ⟨peerNext, peerStepped, pool, same, connections⟩
    have acts := Service.acting_of_kernel mirrors.pool mirrors.kernel event
    refine ⟨peerNext, .kernel kernel acts peerStepped, ?_⟩
    -- Without a request the connections are as before.
    have unasked (closed : (before.service.acting event).bind State.closedBy = none) :
        before.net.Carries before.connOf peerNext.server := by
      rw [closed] at connections
      exact mirrors.carries.congr connections.nextConn connections.handleOf connections.context
        connections.mClients connections.sockets
    cases acting : before.service.acting event with
    | none =>
        simp only [acting, Option.bind_none] at rest
        rcases Option.some.inj rest with rfl
        exact ⟨pool, same, mirrors.tended, unasked (by rw [acting]; rfl)⟩
    | some action =>
        rw [acting] at connections unasked rest
        cases action with
        | closesocket socket =>
            rcases Option.map_eq_some_iff.mp rest with ⟨net, closed, rfl⟩
            have transfers : before.net.Transfers (.closesocket socket) := trivial
            have tended := mirrors.tended.step transfers closed
            rcases Option.some.inj closed with rfl
            exact ⟨pool, same, tended, mirrors.carries.closesocket connections⟩
        | sendData data clientId =>
            rcases Option.map_eq_some_iff.mp rest with ⟨net, sent, rfl⟩
            have transfers : before.net.Transfers (.sendData data clientId event.takes) := trivial
            have tended := mirrors.tended.step transfers sent
            rcases Option.some.inj sent with rfl
            exact ⟨pool, same, tended,
              (unasked rfl).sendData mirrors.tended.owned data clientId event.takes⟩
        | count | socketOf | setSocket | erase | select | update | exit | abort =>
            rcases Option.some.inj rest with rfl
            exact ⟨pool, same, mirrors.tended, unasked rfl⟩

/-- A step of the network that the packet level has, too. -/
theorem Mirrors.network (mirrors : before.Mirrors peer)
    (going : before.service.server.halted = false) {event : Event} {after : State}
    (network : event.isNetwork = true) (moved : peer.server.step event = some after) :
    InstanceMessage.service.step peer (.network event) = some { peer with server := after } := by
  simp [InstanceMessage.service, Service.step, mirrors.running going, network, moved]

theorem Mirrors.acceptStep (mirrors : before.Mirrors peer)
    (going : before.service.server.halted = false) {client : Handle}
    (stepped : before.net.step (.accept client) = some net) :
    ∃ peerNext, before.Moves peer (.loop (.accept client)) peerNext ∧
      (before.accepted net).Mirrors peerNext := by
  have transfers : before.net.Transfers (.accept client) := trivial
  have tended := mirrors.tended.step transfers stepped
  cases IocpServer.stepped_of_step stepped with
  | accept idle free =>
      have unused : peer.server.sockets client = none := by
        have isOpen := mirrors.carries.sockets client
        rw [free] at isOpen
        exact Option.not_isSome_iff_eq_none.mp (by simp [isOpen])
      have accepts : peer.server.step (.accept client) = some (peer.server.accept client) := by
        simp [State.step, mirrors.running going, unused]
      refine ⟨_, .accept (mirrors.network going rfl accepts), mirrors.pool, ?_, tended,
        mirrors.carries.accept mirrors.tended client⟩
      exact ⟨⟨mirrors.kernel.tables.1, mirrors.kernel.tables.2, mirrors.kernel.tables.3⟩,
        congrArg (· + 1) mirrors.kernel.nextConn, mirrors.kernel.nextTask, mirrors.kernel.tasks,
        mirrors.kernel.log, mirrors.kernel.halted⟩

theorem Mirrors.listStep (mirrors : before.Mirrors peer)
    (going : before.service.server.halted = false)
    (stepped : before.net.step .list = some net) :
    ∃ peerNext, before.Moves peer (.loop .list) peerNext ∧
      (before.listed net).Mirrors peerNext := by
  have transfers : before.net.Transfers .list := trivial
  have tended := mirrors.tended.step transfers stepped
  cases IocpServer.stepped_of_step stepped with
  | @list client accepted =>
      rcases mirrors.carries.entering accepted with ⟨conn, nextConn, handle, waiting, unlisted⟩
      have lists : peer.server.step (.list conn) = some (peer.server.list conn) := by
        simp [State.step, mirrors.running going, waiting]
      have last : before.service.server.nextConn - 1 = conn := by
        rw [← mirrors.kernel.nextConn, nextConn, Nat.add_sub_cancel]
      refine ⟨_, .list nextConn unlisted (mirrors.network going rfl lists), mirrors.pool, ?_,
        tended, ?_⟩
      · exact ⟨⟨mirrors.kernel.tables.1, mirrors.kernel.tables.2, mirrors.kernel.tables.3⟩,
          mirrors.kernel.nextConn, mirrors.kernel.nextTask, mirrors.kernel.tasks,
          mirrors.kernel.log, mirrors.kernel.halted⟩
      · simp only [listed, last]
        exact mirrors.carries.list mirrors.tended nextConn handle unlisted

/-- A worker submits a body, and the packet arrives. -/
theorem Mirrors.submitStep (mirrors : before.Mirrors peer)
    (going : before.service.server.halted = false) {worker : ℕ} {pio : ContextId}
    {context changed : PerIo} {received : Bytes} {task : TaskData}
    (present : before.net.workers[worker]? = some (.handling pio received))
    (found : before.net.pios pio = some context)
    (effect : workerBody received.length context = .submit task changed)
    (tended : net.Tended) (carries : net.Carries before.connOf peer.server)
    (submitted : before.submit net pio task = some next) :
    ∃ peerNext, InstanceMessage.service.step peer
      (.receive (before.connOf pio) task.data) = some peerNext ∧ next.Mirrors peerNext := by
  rcases Option.map_eq_some_iff.mp submitted with ⟨pool, pushed, rfl⟩
  have looped := looped_workerBody received.length context
  rw [effect] at looped
  cases looped with
  | submit body some whole =>
      have receives : before.net.receiver pio ≠ none := by
        rw [IocpServer.receiver_of_isReceive found (by simp [PerIo.isReceive, body])]
        simp
      rcases mirrors.tended.roomy found body with ⟨positive, bounded, room⟩
      have receiving : peer.server.context (before.connOf pio) = .receiving :=
        mirrors.carries.receiving receives
          (Or.inr (Or.inr ⟨worker, _, present, by simp [Stage.lives]⟩))
      have nonempty : context.bodyBuf ≠ [] := by
        intro empty
        simp only [empty, List.length_nil] at room
        omega
      have sock := mirrors.carries.receiver receives found
      have moved : peer.server.step (.receive (before.connOf pio) context.bodyBuf) =
          Option.some (peer.server.receive (before.connOf pio) context.bodyBuf) := by
        have fits : context.bodyBuf.length ≤ 10 * 1024 * 1024 := room.trans_le bounded
        simp [State.step, mirrors.running going, receiving, nonempty, fits]
      have peerPushed : peer.pool.push peer.server.nextTask = Option.some pool := by
        rw [mirrors.pool, mirrors.kernel.nextTask]
        exact pushed
      have received : InstanceMessage.service.step peer
          (.receive (before.connOf pio) context.bodyBuf) =
            Option.some ⟨peer.server.receive (before.connOf pio) context.bodyBuf, pool⟩ := by
        simp [InstanceMessage.service, Service.step, mirrors.running going, moved, peerPushed]
      refine ⟨_, received, rfl, ?_, tended, ?_⟩
      · refine ⟨⟨mirrors.kernel.tables.1, mirrors.kernel.tables.2, mirrors.kernel.tables.3⟩,
          mirrors.kernel.nextConn, congrArg (· + 1) mirrors.kernel.nextTask, ?_,
          mirrors.kernel.log, mirrors.kernel.halted⟩
        simp only [State.receive, mirrors.kernel.tasks, mirrors.kernel.nextTask, sock]
      · exact carries.congr rfl rfl rfl rfl rfl

theorem Mirrors.loopStep (mirrors : before.Mirrors peer) {event : IocpEvent}
    (transfers : before.net.Transfers event)
    (stepped : before.step (.loop event) = some next) :
    ∃ peerNext, before.Moves peer (.loop event) peerNext ∧ next.Mirrors peerNext := by
  simp only [step] at stepped
  split at stepped
  · simp at stepped
  · rename_i running
    have going : before.service.server.halted = false := Bool.eq_false_iff.mpr running
    rcases Option.ite_none_right_eq_some.mp stepped with ⟨loops, moved⟩
    rcases Option.bind_eq_some_iff.mp moved with ⟨net, netStepped, rest⟩
    have tended := mirrors.tended.step transfers netStepped
    -- The packet level does not see the step.
    have unseen (same : next = { before with net := net })
        (other : ∀ client, event ≠ .accept client) (unlisted : event ≠ .list)
        (quiet : before.net.submission event = none)
        (carries : net.Carries before.connOf peer.server) :
        ∃ peerNext, before.Moves peer (.loop event) peerNext ∧ next.Mirrors peerNext :=
      ⟨peer, .unseen other unlisted quiet, same ▸ ⟨mirrors.pool, mirrors.kernel, tended, carries⟩⟩
    cases event with
    | accept client =>
        rcases Option.some.inj rest with rfl
        exact mirrors.acceptStep going netStepped
    | list =>
        rcases Option.some.inj rest with rfl
        exact mirrors.listStep going netStepped
    | postFirst posted =>
        refine unseen (Option.some.inj rest).symm (by simp) (by simp) rfl ?_
        cases IocpServer.stepped_of_step netStepped with
        | postFirst made => exact mirrors.carries.postFirst made
    | dequeue worker pio received =>
        refine unseen (Option.some.inj rest).symm (by simp) (by simp) rfl ?_
        cases IocpServer.stepped_of_step netStepped with
        | dequeue present found posted fits => exact mirrors.carries.dequeue present found posted
    | dequeueFailed worker pio =>
        refine unseen (Option.some.inj rest).symm (by simp) (by simp) rfl ?_
        cases IocpServer.stepped_of_step netStepped with
        | dequeueFailed present posted => exact mirrors.carries.dequeueFailed present
    | handle worker posted =>
        cases IocpServer.stepped_of_step netStepped with
        | @handle _ pio context received _ present found =>
            have touched : (before.net.touch pio).Carries before.connOf peer.server :=
              mirrors.carries.pass rfl rfl rfl (fun _ live => live)
                (fun {worker pio} present => ⟨worker, present⟩) id
            have carries : ((before.net.touch pio).handled worker pio context posted
                (workerBody received.length context)).Carries before.connOf peer.server :=
              touched.handled present found
            cases effect : workerBody received.length context with
            | submit task changed =>
                have submits : before.net.submission (.handle worker posted) =
                    some (pio, task) := by
                  simp only [IocpServer.submission, present, found, effect]
                simp only [loop, submits] at rest
                rw [effect] at tended carries rest
                rcases mirrors.submitStep going present found effect tended carries rest with
                  ⟨peerNext, moved, still⟩
                exact ⟨peerNext, .receive submits moved, still⟩
            | closeClient | recvBody | release | nothing =>
                have quiet : before.net.submission (.handle worker posted) = none := by
                  simp only [IocpServer.submission, present, found, effect]
                simp only [loop, quiet] at rest
                exact unseen (Option.some.inj rest).symm (by simp) (by simp) quiet carries
    | closeClient worker =>
        have same : next = { before with net := net } := (Option.some.inj rest).symm
        cases IocpServer.stepped_of_step netStepped with
        | @closing _ pio context present found =>
            rcases mirrors.carries.closeSocket mirrors.tended present found rfl tended.owned with
              ⟨receiving, carries⟩
            have moved : peer.server.step (.closeSocket (before.connOf pio)) =
                some (peer.server.closeSocket (before.connOf pio)) := by
              simp [State.step, mirrors.running going, receiving]
            refine ⟨_, .close ⟨_, Or.inl rfl⟩ (mirrors.network going rfl moved),
              same ▸ ⟨mirrors.pool, ?_, tended, carries⟩⟩
            exact ⟨⟨mirrors.kernel.tables.1, mirrors.kernel.tables.2, mirrors.kernel.tables.3⟩,
              mirrors.kernel.nextConn, mirrors.kernel.nextTask, mirrors.kernel.tasks,
              mirrors.kernel.log, mirrors.kernel.halted⟩
        | @erasing _ pio context present found =>
            rcases mirrors.carries.eraseClient mirrors.tended present found rfl tended.owned with
              ⟨closing, carries⟩
            have moved : peer.server.step (.eraseClient (before.connOf pio)) =
                some (peer.server.eraseClient (before.connOf pio)) := by
              simp [State.step, mirrors.running going, closing]
            refine ⟨_, .close ⟨_, Or.inr rfl⟩ (mirrors.network going rfl moved),
              same ▸ ⟨mirrors.pool, ?_, tended, carries⟩⟩
            exact ⟨⟨mirrors.kernel.tables.1, mirrors.kernel.tables.2, mirrors.kernel.tables.3⟩,
              mirrors.kernel.nextConn, mirrors.kernel.nextTask, mirrors.kernel.tasks,
              mirrors.kernel.log, mirrors.kernel.halted⟩
        | deleting present =>
            exact unseen same (by simp) (by simp) rfl (mirrors.carries.deleting present)
    | sendData | closesocket => simp [IocpEvent.isLoop] at loops

theorem Mirrors.step (mirrors : before.Mirrors peer) {event : ProcessEvent}
    (transfers : before.Transfers event) (stepped : before.step event = some next) :
    ∃ peerNext, before.Moves peer event peerNext ∧ next.Mirrors peerNext := by
  cases event with
  | loop event => exact mirrors.loopStep transfers stepped
  | kernel event => exact mirrors.kernelStep stepped

end Step

/-- What the packet level shows of the process. -/
structure Shows (process : Process) (peer : Service) : Prop where
  pool : peer.pool = process.service.pool
  tasks : peer.server.tasks = process.service.server.tasks
  log : peer.server.log = process.service.server.log
  halted : peer.server.halted = process.service.server.halted
  mMapIdToSocket : peer.server.mMapIdToSocket = process.service.server.mMapIdToSocket
  tUser : peer.server.tUser = process.service.server.tUser
  tFriend : peer.server.tFriend = process.service.server.tFriend
  mClients : peer.server.mClients = process.net.mClients
  sockets : ∀ socket, (peer.server.sockets socket).isSome = process.net.sockets socket

/-- However the bytes of the connections arrive and whatever the operations do, as long as no send
is completed without a byte: the process goes through a run of the packet level service. -/
theorem reaches_service {workers threadCount : ℕ} {tUser : List UserRow}
    {tFriend : List (ℤ × ℤ)} {events : List ProcessEvent} {final : Process}
    (transfers : process.Meets Transfers (start workers threadCount tUser tFriend) events)
    (reached : process.run (start workers threadCount tUser tFriend) events = some final) :
    ∃ peer, InstanceMessage.service.Reaches (.start threadCount tUser tFriend) peer ∧
      final.Shows peer := by
  have matched {before next : Process} {peer : Service} {event : ProcessEvent}
      (mirrors : before.Mirrors peer) (allowed : before.Transfers event)
      (stepped : before.step event = some next) :
      ∃ peerNext, InstanceMessage.service.Reaches peer peerNext ∧ next.Mirrors peerNext := by
    rcases mirrors.step allowed stepped with ⟨peerNext, moves, still⟩
    exact ⟨peerNext, moves.reaches, still⟩
  rcases Machine.exists_related_of_meets Mirrors
    (fun _ mirrors allowed stepped => matched mirrors allowed stepped)
    (mirrors_start workers threadCount tUser tFriend) transfers reached with
    ⟨peer, reaches, mirrors⟩
  exact ⟨peer, reaches, mirrors.pool, mirrors.kernel.tasks, mirrors.kernel.log,
    mirrors.kernel.halted, mirrors.kernel.tables.1, mirrors.kernel.tables.2,
    mirrors.kernel.tables.3, mirrors.carries.clients, mirrors.carries.sockets⟩

/-- A connection is accepted, a login arrives on it header first, and no account is found for its
telephone number. -/
def failedLogin : List ProcessEvent :=
  let packet := StruLoginRq.bytes ⟨alice.tel, alice.pass⟩
  [.kernel (.run 0 none), .loop (.accept 5), .loop .list, .loop (.postFirst true),
    .loop (.dequeue 0 0 (int32 packet.length)), .loop (.handle 0 true),
    .loop (.dequeue 0 0 packet), .loop (.handle 0 true), .kernel (.notify (some 0)),
    .kernel (.run 0 none), .kernel (.act 0 (.rows (some []))),
    .kernel (.act 0 .internal), .kernel (.dealt 0)]

theorem reaches_service_login : ∃ final peer,
    process.run (start 1 1 [] []) failedLogin = some final ∧
      InstanceMessage.service.Reaches (.start 1 [] []) peer ∧ final.Shows peer ∧
        peer.server.log.length = 2 := by
  have evaluated : (process.run (start 1 1 [] []) failedLogin).any (fun final =>
      final.service.server.log.length = 2) = true := by
    decide +kernel
  have transfers : process.Meets Transfers (start 1 1 [] []) failedLogin := by
    apply process.meets_of_forall_mem
    intro state event member
    have header : int32 (StruLoginRq.bytes ⟨alice.tel, alice.pass⟩).length ≠ [] := by decide
    have packet : StruLoginRq.bytes ⟨alice.tel, alice.pass⟩ ≠ [] := by decide
    simp only [failedLogin, List.mem_cons, List.not_mem_nil, or_false] at member
    rcases member with rfl | rfl | rfl | rfl | rfl | rfl | rfl | rfl | rfl | rfl | rfl | rfl | rfl
    all_goals first | trivial | exact fun _ => header | exact fun _ => packet
  rcases (Option.any_eq_true _ _).mp evaluated with ⟨final, reached, logged⟩
  rcases reaches_service transfers reached with ⟨peer, reaches, shows⟩
  refine ⟨final, peer, reached, reaches, shows, ?_⟩
  rw [shows.log]
  exact of_decide_eq_true logged

end Process

end InstanceMessage
