import InstanceMessage.Server.IocpServer

/-!
# Abandoned connections

Who serves a connection that is listed in `m_clients`: its receive context is
outstanding, or one thread has it in hand. That is kept by every step except
those at which the context gets lost or doubled: the first receive, or that of
the next header, is refused and the result is dropped; a worker gets the failed
completion of the receive and leaves the loop; a connection is entered under a
handle that a context which is still to be released has.
-/

namespace InstanceMessage

open Library

/-- The bytes that the completion has transferred are the whole body. -/
def PerIo.Complete (context : PerIo) (bytes : ℕ) : Prop :=
  context.opType = .opRecvBody ∧ bytes ≠ 0 ∧ bytes = context.bodyLen

namespace IocpServer

/-- The connection whose receive context it is. -/
def receiver (server : IocpServer) (pio : ContextId) : Option Handle :=
  (server.pios pio).bind fun context => if context.isReceive then some context.sock else none

/-- The context is a receive context of the connection and not yet released. -/
def Receives (server : IocpServer) (socket : Handle) (pio : ContextId) : Prop :=
  server.receiver pio = some socket ∧ server.released pio = 0

/-- The context is a receive context of a connection that is listed. -/
def Serves (server : IocpServer) (pio : ContextId) : Prop :=
  ∃ socket, server.receiver pio = some socket ∧ server.mClients socket ≠ none

/-- Every connection that is listed has one receive context, which the kernel or one thread has;
contexts are released at most once and not touched after that. -/
structure NotAbandoned (server : IocpServer) : Prop where
  listed : ∀ socket, server.mClients socket ≠ none →
    ∃ pio, server.Receives socket pio ∧ (∀ other, server.Receives socket other → other = pio) ∧
      (server.outstanding pio = 1 ∧ server.holders pio = 0 ∨
        server.outstanding pio = 0 ∧ server.holders pio = 1)
  once : ∀ pio, server.released pio ≤ 1
  untouched : server.stale = []

/-- No receive of a listed connection fails where the result is dropped, and no handle is entered
that an unreleased receive context has. -/
def Careful (server : IocpServer) : IocpEvent → Prop
  | .list => ∀ client, server.acceptor = .entering client → ∀ pio, ¬server.Receives client pio
  | .postFirst posted => ∀ pio, server.acceptor = .posting pio → server.Serves pio → posted = true
  | .dequeueFailed _ pio => ¬server.Serves pio
  | .handle worker posted =>
      ∀ pio received context, server.workers[worker]? = some (.handling pio received) →
        server.pios pio = some context → context.Complete received.length →
        server.Serves pio → posted = true
  | .accept _ | .dequeue _ _ _ | .closeClient _ | .sendData _ _ _ | .closesocket _ => True

/-! ## The invariant -/

/-- How many have the context in hand, the kernel included. -/
def busy (server : IocpServer) (pio : ContextId) : ℕ :=
  server.outstanding pio + server.holders pio

structure Serving (server : IocpServer) : Prop where
  owned : server.Owned
  entered : ∀ {socket}, server.mClients socket ≠ none →
    ∃ pio, server.receiver pio = some socket ∧ server.busy pio = 1
  distinct : ∀ {first second socket}, server.Receives socket first →
    server.Receives socket second → first = second
  /-- The entry is erased before the context is deleted. -/
  deleting : ∀ {worker : ℕ} {pio : ContextId} {socket : Handle},
    server.workers[worker]? = some (.deleting pio) → server.receiver pio = some socket →
      server.mClients socket = none

section Step

variable {server next : IocpServer} {event : IocpEvent} {worker : ℕ} {old : Stage}
  {pio : ContextId} {socket : Handle} {context changed : PerIo}

theorem receiver_of_isReceive (found : server.pios pio = some context)
    (receives : context.isReceive = true) : server.receiver pio = some context.sock := by
  simp only [receiver, found, Option.bind_some, receives, if_true]

theorem receiver_of_send (found : server.pios pio = some context)
    (sent : context.opType = .opSend) : server.receiver pio = none := by
  simp [receiver, found, PerIo.isReceive, sent]

theorem exists_of_receiver (receiver : server.receiver pio = some socket) :
    ∃ context, server.pios pio = some context ∧ context.isReceive = true ∧
      context.sock = socket := by
  rcases Option.bind_eq_some_iff.mp receiver with ⟨context, found, same⟩
  rcases Option.ite_none_right_eq_some.mp same with ⟨receives, same⟩
  exact ⟨context, found, receives, Option.some.inj same⟩

theorem receiver_update (pios : next.pios = Function.update server.pios pio (some changed))
    (found : server.pios pio = some context) (kind : changed.isReceive = context.isReceive)
    (sock : changed.sock = context.sock) :
    next.receiver = server.receiver := by
  funext other
  simp only [receiver, pios]
  by_cases same : other = pio
  · rw [same, Function.update_self, found]
    simp only [Option.bind_some, kind, sock]
  · rw [Function.update_of_ne same]

theorem receiver_dequeue (worker : ℕ) (received : Bytes) (found : server.pios pio = some context) :
    (server.dequeue worker pio context received).receiver = server.receiver :=
  receiver_update rfl found (by simp [PerIo.isReceive]) (context.sock_filled received)

theorem receiver_list (server : IocpServer) (client : Handle) :
    (server.list client).receiver =
      Function.update server.receiver server.nextPio (some client) := by
  funext other
  simp only [receiver, IocpServer.list, put]
  by_cases same : other = server.nextPio
  · simp [same, PerIo.ofAccept, PerIo.isReceive]
  · rw [Function.update_of_ne same, Function.update_of_ne same]
    rfl

theorem Owned.receiver_send (owned : server.Owned) (data : Bytes) (socket : Handle)
    (posted : Bool) : (server.send data socket posted).receiver = server.receiver := by
  funext other
  by_cases same : other = server.nextPio
  · have absent := (owned.fresh server.nextPio le_rfl).2
    simp [receiver, pios_send, same, absent, PerIo.ofSend, PerIo.isReceive]
  · simp [receiver, pios_send, same]

theorem Owned.not_released (owned : server.Owned) (used : 0 < server.busy pio) :
    server.released pio = 0 := by
  have once := owned.once pio
  simp only [tokens, busy] at once used
  omega

theorem Owned.busy_next (owned : server.Owned) : server.busy server.nextPio = 0 := by
  have nothing := (owned.fresh server.nextPio le_rfl).1
  simp only [tokens, busy] at nothing ⊢
  omega

theorem Owned.old_of_receiver (owned : server.Owned)
    (receiver : server.receiver pio = some socket) : pio ≠ server.nextPio := by
  rintro rfl
  rcases exists_of_receiver receiver with ⟨context, found, _⟩
  simp [(owned.fresh server.nextPio le_rfl).2] at found

theorem busy_become (next : IocpServer) (present : server.workers[worker]? = some old)
    {new : Stage} (workers : next.workers = server.workers.set worker new)
    (acceptor : next.acceptor = server.acceptor) (pio : ContextId) :
    next.busy pio + server.outstanding pio + (old.holds pio).toNat =
      server.busy pio + next.outstanding pio + (new.holds pio).toNat := by
  have counted := countP_become present new pio
  simp only [busy, holders, workers, acceptor]
  omega

theorem Serving.notAbandoned (serving : server.Serving) : server.NotAbandoned where
  listed socket listed := by
    rcases serving.entered listed with ⟨pio, receiver, used⟩
    have kept : server.Receives socket pio :=
      ⟨receiver, serving.owned.not_released (by omega)⟩
    refine ⟨pio, kept, fun other receives => serving.distinct receives kept, ?_⟩
    simp only [busy] at used
    omega
  once pio := by
    have once := serving.owned.once pio
    simp only [tokens] at once
    omega
  untouched := serving.owned.untouched

/-- No receive context is made, no connection is entered, and the receive contexts of the listed
connections stay in someone's hand. -/
theorem Serving.pass (serving : server.Serving) (owned : next.Owned)
    (receivers : next.receiver = server.receiver)
    (released : ∀ pio, server.released pio ≤ next.released pio)
    (entries : ∀ socket, server.mClients socket = none → next.mClients socket = none)
    (kept : ∀ pio socket, server.receiver pio = some socket → next.mClients socket ≠ none →
      server.busy pio = 1 → next.busy pio = 1)
    (deleting : ∀ (worker : ℕ) (pio : ContextId) (socket : Handle),
      next.workers[worker]? = some (.deleting pio) → server.receiver pio = some socket →
      server.workers[worker]? = some (.deleting pio) ∨ next.mClients socket = none) :
    next.Serving where
  owned := owned
  entered {socket} listed := by
    have before : server.mClients socket ≠ none := fun absent => listed (entries socket absent)
    rcases serving.entered before with ⟨pio, receiver, used⟩
    exact ⟨pio, receivers ▸ receiver, kept pio socket receiver listed used⟩
  distinct {first second socket} firstReceives secondReceives := by
    have unreleased {pio : ContextId} (receives : next.Receives socket pio) :
        server.Receives socket pio :=
      ⟨receivers ▸ receives.1, Nat.le_zero.mp (receives.2 ▸ released pio)⟩
    exact serving.distinct (unreleased firstReceives) (unreleased secondReceives)
  deleting {worker pio socket} present receiver := by
    rw [receivers] at receiver
    rcases deleting worker pio socket present receiver with before | gone
    · exact entries socket (serving.deleting before receiver)
    · exact gone

/-- A worker moves on, and the receive contexts of listed connections stay in one hand. -/
theorem Serving.become (serving : server.Serving) (owned : next.Owned)
    (present : server.workers[worker]? = some old) {new : Stage}
    (workers : next.workers = server.workers.set worker new)
    (acceptor : next.acceptor = server.acceptor)
    (receivers : next.receiver = server.receiver)
    (released : ∀ pio, server.released pio ≤ next.released pio)
    (entries : ∀ socket, server.mClients socket = none → next.mClients socket = none)
    (kept : ∀ pio, (∃ socket, server.receiver pio = some socket ∧ next.mClients socket ≠ none) →
      next.outstanding pio + (new.holds pio).toNat =
        server.outstanding pio + (old.holds pio).toNat)
    (deleting : ∀ (pio : ContextId) (socket : Handle), new = .deleting pio →
      server.receiver pio = some socket → next.mClients socket = none) : next.Serving := by
  apply serving.pass owned receivers released entries
  · intro pio socket receiver listed used
    have moved := busy_become next present workers acceptor pio
    have same := kept pio ⟨socket, receiver, listed⟩
    omega
  · intro other pio socket now receiver
    rw [workers, List.getElem?_set] at now
    split at now
    · split at now
      · exact .inr (deleting pio socket (Option.some.inj now) receiver)
      · simp at now
    · exact .inl now

theorem Serving.list (serving : server.Serving) {client : Handle}
    (owned : (server.list client).Owned) (accepted : server.acceptor = .entering client)
    (careful : ∀ pio, ¬server.Receives client pio) : (server.list client).Serving := by
  have made := receiver_list server client
  constructor
  case owned => exact owned
  case entered =>
    intro socket listed
    by_cases same : socket = client
    · have nothing := serving.owned.busy_next
      refine ⟨server.nextPio, by rw [made, Function.update_self, same], ?_⟩
      simp only [busy, holders, IocpServer.list, put, if_true] at nothing ⊢
      omega
    · have before : server.mClients socket ≠ none := by
        simpa [IocpServer.list, Function.update_of_ne same] using listed
      rcases serving.entered before with ⟨pio, receiver, used⟩
      have old := serving.owned.old_of_receiver receiver
      refine ⟨pio, ?_, ?_⟩
      · rw [made, Function.update_of_ne old]
        exact receiver
      · simpa [busy, holders, IocpServer.list, put, accepted, Ne.symm old] using used
  case distinct =>
    have cases {pio : ContextId} {socket : Handle}
        (receives : (server.list client).Receives socket pio) :
        pio = server.nextPio ∧ socket = client ∨ server.Receives socket pio := by
      rcases receives with ⟨receiver, unreleased⟩
      by_cases same : pio = server.nextPio
      · rw [made, same, Function.update_self] at receiver
        exact .inl ⟨same, (Option.some.inj receiver).symm⟩
      · rw [made, Function.update_of_ne same] at receiver
        exact .inr ⟨receiver, unreleased⟩
    intro first second socket firstReceives secondReceives
    rcases cases firstReceives with ⟨rfl, rfl⟩ | firstBefore
    · rcases cases secondReceives with ⟨rfl, _⟩ | secondBefore
      · rfl
      · exact absurd secondBefore (careful second)
    · rcases cases secondReceives with ⟨rfl, rfl⟩ | secondBefore
      · exact absurd firstBefore (careful first)
      · exact serving.distinct firstBefore secondBefore
  case deleting =>
    intro worker pio socket present receiver
    have before : server.workers[worker]? = some (.deleting pio) := present
    have held := holders_pos pio before (by simp [Stage.holds])
    have used : 0 < server.busy pio := Nat.lt_of_lt_of_le held (Nat.le_add_left _ _)
    have different : pio ≠ server.nextPio := by
      rintro rfl
      exact absurd serving.owned.busy_next (Nat.ne_of_gt used)
    rw [made, Function.update_of_ne different] at receiver
    have other : socket ≠ client := by
      rintro rfl
      exact careful pio ⟨receiver, serving.owned.not_released used⟩
    simpa [IocpServer.list, Function.update_of_ne other] using
      serving.deleting before receiver

theorem receiver_handled (server : IocpServer) (worker : ℕ) (posted : Bool) {bytes : ℕ}
    {effect : Effect} (found : server.pios pio = some context)
    (looped : Looped bytes context effect) :
    (server.handled worker pio context posted effect).receiver = server.receiver := by
  cases looped with
  | closeClient => rfl
  | recvBody header whole positive bounded =>
      cases posted <;>
        exact receiver_update rfl found (by simp [PerIo.isReceive, header]) rfl
  | submit body some whole =>
      exact receiver_update rfl found (by simp [PerIo.isReceive, body]) rfl
  | release sent => rfl
  | nothing sent => rfl

/-- The next header is not asked for, and the worker drops the context. -/
theorem busy_refused (server : IocpServer) {received : Bytes}
    (present : server.workers[worker]? = some (.handling pio received)) (context : PerIo)
    (task : TaskData) (changed : PerIo) :
    (server.handled worker pio context false (.submit task changed)).busy pio + 1 =
      server.busy pio := by
  have moved := busy_become (server.handled worker pio context false (.submit task changed))
    present rfl rfl pio
  have kept : (server.handled worker pio context false (.submit task changed)).outstanding pio =
      server.outstanding pio := Function.update_self _ _ _
  simp only [kept, Stage.holds, decide_true, Bool.toNat_true, Bool.toNat_false] at moved
  omega

theorem Serving.handled (serving : server.Serving) {received : Bytes} {posted : Bool}
    {effect : Effect} (owned : (server.handled worker pio context posted effect).Owned)
    (present : server.workers[worker]? = some (.handling pio received))
    (found : server.pios pio = some context) (looped : Looped received.length context effect)
    (careful : context.Complete received.length → server.Serves pio → posted = true) :
    (server.handled worker pio context posted effect).Serving := by
  have free (other : ContextId) (different : other ≠ pio) :
      (Stage.handling pio received).holds other = false := by
    simp [Stage.holds, Ne.symm different]
  have receivers := receiver_handled server worker posted found looped
  cases looped with
  | closeClient =>
      refine serving.become owned present rfl rfl rfl (fun _ => le_rfl)
        (fun _ absent => absent) ?_ ?_
      · exact fun _ _ => rfl
      · exact fun _ _ other => Stage.noConfusion other
  | recvBody header whole positive bounded =>
      cases posted with
      | true =>
          refine serving.become owned present rfl rfl receivers (fun _ => le_rfl)
            (fun _ absent => absent) ?_ ?_
          · intro other _
            by_cases same : other = pio
            · simp [same, IocpServer.handled, post, put, IocpServer.become, Stage.holds]
            · simp [IocpServer.handled, post, put, IocpServer.become, Stage.holds, same,
                Ne.symm same]
          · exact fun _ _ other => Stage.noConfusion other
      | false =>
          refine serving.become owned present rfl rfl receivers (fun _ => le_rfl)
            (fun _ absent => absent) ?_ ?_
          · exact fun _ _ => rfl
          · exact fun _ _ other => Stage.noConfusion other
  | submit body some whole =>
      refine serving.become owned present rfl rfl receivers (fun _ => le_rfl)
        (fun _ absent => absent) ?_ ?_
      · intro other listed
        by_cases same : other = pio
        · subst same
          rcases careful ⟨body, some, whole⟩ listed with rfl
          simp [IocpServer.handled, post, put, report, IocpServer.become, Stage.holds]
        · simp [IocpServer.handled, post, put, report, IocpServer.become, Stage.holds, same,
            Ne.symm same]
      · exact fun _ _ other => Stage.noConfusion other
  | release sent =>
      refine serving.become owned present rfl rfl rfl (released_le_release server pio)
        (fun _ absent => absent) ?_ ?_
      · rintro other ⟨socket, receiver, _⟩
        have different : other ≠ pio := by
          rintro rfl
          simp [receiver_of_send found sent] at receiver
        rw [free other different]
        rfl
      · exact fun _ _ other => Stage.noConfusion other
  | nothing sent =>
      refine serving.become owned present rfl rfl rfl (fun _ => le_rfl)
        (fun _ absent => absent) ?_ ?_
      · rintro other ⟨socket, receiver, _⟩
        have different : other ≠ pio := by
          rintro rfl
          simp [receiver_of_send found sent] at receiver
        rw [free other different]
        rfl
      · exact fun _ _ other => Stage.noConfusion other

theorem Serving.step (serving : server.Serving) (careful : server.Careful event)
    (stepped : server.step event = some next) : next.Serving := by
  have owned := serving.owned.step stepped
  cases stepped_of_step stepped with
  | accept idle =>
      apply serving.pass owned rfl (fun _ => le_rfl) (fun _ absent => absent)
      · intro pio socket _ _ used
        simpa [busy, holders, IocpServer.accept, idle] using used
      · exact fun _ _ _ present _ => .inl present
  | @list client accepted => exact serving.list owned accepted (careful client accepted)
  | @postFirst pio posted made =>
      apply serving.pass owned rfl (fun _ => le_rfl) (fun _ absent => absent)
      · intro other socket receiver listed used
        by_cases same : other = pio
        · subst same
          rcases careful other made ⟨socket, receiver, listed⟩ with rfl
          simp [busy, holders, made, post, IocpServer.touch] at used ⊢
          omega
        · simpa [busy, holders, made, post, IocpServer.touch, same, Ne.symm same] using used
      · exact fun _ _ _ present _ => .inl present
  | @dequeue worker pio context received present found posted fits =>
      refine serving.become owned present rfl rfl (receiver_dequeue worker received found)
        (fun _ => le_rfl) (fun _ absent => absent) ?_ ?_
      · intro other _
        by_cases same : other = pio
        · simp [same, IocpServer.dequeue, put, IocpServer.touch, IocpServer.become, Stage.holds]
          omega
        · simp [IocpServer.dequeue, put, IocpServer.touch, IocpServer.become, Stage.holds, same,
            Ne.symm same]
      · exact fun _ _ other => Stage.noConfusion other
  | @dequeueFailed worker pio present posted =>
      refine serving.become owned present rfl rfl rfl (fun _ => le_rfl)
        (fun _ absent => absent) ?_ ?_
      · intro other listed
        have different : other ≠ pio := by
          rintro rfl
          exact careful listed
        simp [IocpServer.dequeueFailed, IocpServer.touch, IocpServer.become, Stage.holds, different]
      · exact fun _ _ other => Stage.noConfusion other
  | @handle worker pio context received posted present found =>
      have touched : (server.touch pio).Serving :=
        ⟨serving.owned.touch_of_handling present, serving.entered, serving.distinct,
          serving.deleting⟩
      apply touched.handled owned present found (looped_workerBody _ _)
      exact careful pio received context present found
  | @closing worker pio context present found =>
      refine serving.become owned present rfl rfl rfl (fun _ => le_rfl)
        (fun _ absent => absent) ?_ ?_
      · exact fun _ _ => rfl
      · exact fun _ _ other => Stage.noConfusion other
  | @erasing worker pio context present found =>
      have gone (socket : Handle) (absent : server.mClients socket = none ∨ socket = context.sock) :
          Function.update server.mClients context.sock none socket = none := by
        by_cases same : socket = context.sock
        · rw [same, Function.update_self]
        · rw [Function.update_of_ne same]
          exact absent.resolve_right same
      refine serving.become owned present rfl rfl rfl (fun _ => le_rfl)
        (fun socket absent => gone socket (.inl absent)) ?_ ?_
      · exact fun _ _ => rfl
      · intro other socket same receiver
        rcases Stage.deleting.inj same with rfl
        rcases exists_of_receiver receiver with ⟨again, foundAgain, _, sock⟩
        rcases Option.some.inj (found.symm.trans foundAgain) with rfl
        exact gone socket (.inr sock.symm)
  | @deleting worker pio present =>
      refine serving.become owned present rfl rfl rfl (released_le_release server pio)
        (fun _ absent => absent) ?_ ?_
      · rintro other ⟨socket, receiver, listed⟩
        have different : other ≠ pio := by
          rintro rfl
          exact listed (serving.deleting present receiver)
        simp [IocpServer.release, IocpServer.become, IocpServer.touch, Stage.holds,
          Ne.symm different]
      · exact fun _ _ other => Stage.noConfusion other
  | unsent => exact serving
  | @send data clientId socket posted =>
      apply serving.pass owned (serving.owned.receiver_send data socket posted)
      · intro pio
        by_cases same : pio = server.nextPio
        · have nothing := (serving.owned.fresh server.nextPio le_rfl).1
          simp only [tokens] at nothing
          rw [same]
          omega
        · rw [released_send server data socket posted same]
      · intro client absent
        rw [mClients_send]
        exact absent
      · intro pio client receiver listed used
        have old := serving.owned.old_of_receiver receiver
        simpa [busy, holders, outstanding_send server data socket posted old] using used
      · intro other pio client present receiver
        rw [workers_send] at present
        exact .inl present
  | closesocket =>
      exact serving.pass owned rfl (fun _ => le_rfl) (fun _ absent => absent)
        (fun _ _ _ _ used => used) (fun _ _ _ present _ => .inl present)

/-- A receive context stays that of its connection. -/
theorem Owned.receiver_of_step (owned : server.Owned) (stepped : server.step event = some next)
    (receives : server.receiver pio ≠ none) : next.receiver pio = server.receiver pio := by
  cases stepped_of_step stepped with
  | @list client accepted =>
      rcases Option.ne_none_iff_exists'.mp receives with ⟨socket, receiver⟩
      rw [receiver_list, Function.update_of_ne (owned.old_of_receiver receiver)]
  | dequeue present found posted fits => exact congrFun (receiver_dequeue _ _ found) pio
  | @handle worker held context received posted present found =>
      exact congrFun (receiver_handled (server.touch held) worker posted found
        (looped_workerBody _ _)) pio
  | send => exact congrFun (owned.receiver_send _ _ _) pio
  | accept | postFirst | dequeueFailed | closing | erasing | deleting | unsent | closesocket => rfl

/-! ## Lost connections -/

theorem NotAbandoned.busy_eq (notAbandoned : server.NotAbandoned)
    (receives : server.Receives socket pio) (listed : server.mClients socket ≠ none) :
    server.busy pio = 1 := by
  rcases notAbandoned.listed socket listed with ⟨kept, _, unique, used⟩
  rw [unique pio receives]
  simp only [busy]
  omega

theorem NotAbandoned.unique (notAbandoned : server.NotAbandoned) {first second : ContextId}
    (listed : server.mClients socket ≠ none) (firstReceives : server.Receives socket first)
    (secondReceives : server.Receives socket second) : first = second := by
  rcases notAbandoned.listed socket listed with ⟨kept, _, unique, _⟩
  rw [unique first firstReceives, unique second secondReceives]

/-- A listed connection is abandoned when its receive context gets out of every hand. -/
theorem Owned.not_serves_of_lost (owned : server.Owned) (notAbandoned : next.NotAbandoned)
    (receivers : next.receiver pio = server.receiver pio)
    (entries : next.mClients = server.mClients)
    (released : next.released = server.released) (lost : next.busy pio + 1 = server.busy pio) :
    ¬server.Serves pio := by
  rintro ⟨socket, receiver, listed⟩
  have unreleased : next.released pio = 0 := by
    rw [released]
    exact owned.not_released (by omega)
  have used := notAbandoned.busy_eq ⟨receivers.trans receiver, unreleased⟩ (entries ▸ listed)
  have once := owned.once pio
  simp only [tokens] at once
  simp only [busy] at used lost
  omega

/-- The steps that are not careful abandon a connection, or double its receive context. -/
theorem Owned.careful (owned : server.Owned) (stepped : server.step event = some next)
    (notAbandoned : next.NotAbandoned) : server.Careful event := by
  cases stepped_of_step stepped with
  | accept => trivial
  | @list client accepted =>
      intro other same pio receives
      rcases Acceptor.entering.inj (accepted.symm.trans same) with rfl
      have old := owned.old_of_receiver receives.1
      have before : (server.list client).Receives client pio := by
        refine ⟨?_, receives.2⟩
        rw [← receives.1]
        simp [receiver, IocpServer.list, put, old]
      have made : (server.list client).Receives client server.nextPio := by
        refine ⟨?_, ?_⟩
        · simp [receiver, IocpServer.list, put, PerIo.ofAccept, PerIo.isReceive]
        · have nothing := (owned.fresh server.nextPio le_rfl).1
          simp only [tokens] at nothing
          simp only [IocpServer.list, put]
          omega
      have listed : (server.list client).mClients client ≠ none := by
        simp [IocpServer.list]
      exact old (notAbandoned.unique listed before made)
  | @postFirst pio posted made =>
      intro other same serves
      rcases Acceptor.posting.inj (made.symm.trans same) with rfl
      by_contra refused
      rcases Bool.eq_false_of_not_eq_true refused with rfl
      refine owned.not_serves_of_lost notAbandoned rfl rfl rfl ?_ serves
      simp [busy, holders, made, post, IocpServer.touch]
      omega
  | dequeue => trivial
  | @dequeueFailed worker pio present posted =>
      apply owned.not_serves_of_lost notAbandoned rfl rfl rfl
      have moved := busy_become (server.dequeueFailed worker pio) present rfl rfl pio
      have taken : (server.dequeueFailed worker pio).outstanding pio = server.outstanding pio - 1 :=
        Function.update_self _ _ _
      simp only [taken, Stage.holds, Bool.toNat_false] at moved
      omega
  | @handle worker pio context received posted present found =>
      intro other bytes same presentAgain foundAgain complete serves
      rcases Option.some.inj (present.symm.trans presentAgain) with ⟨⟩
      rcases Option.some.inj (found.symm.trans foundAgain) with rfl
      by_contra refused
      rcases Bool.eq_false_of_not_eq_true refused with rfl
      rw [workerBody_body complete.1 complete.2.1, if_neg (by simp [complete.2.2])] at notAbandoned
      apply owned.not_serves_of_lost notAbandoned ?_ rfl rfl ?_ serves
      · exact congrFun (receiver_handled (server.touch pio) worker false found
          (.submit complete.1 complete.2.1 complete.2.2)) pio
      · exact busy_refused (server.touch pio) present _ _ _
  | closing => trivial
  | erasing => trivial
  | deleting => trivial
  | unsent => trivial
  | send => trivial
  | closesocket => trivial

end Step

theorem serving_start (workers : ℕ) : (start workers).Serving where
  owned := owned_start workers
  entered listed := absurd rfl listed
  distinct receives _ := by simp [Receives, receiver, start] at receives
  deleting present receiver := by simp [IocpServer.receiver, start] at receiver

/-- No connection is abandoned as long as no receive of a listed connection fails where the result
is dropped and no handle is entered too early, and only so. -/
theorem not_abandoned_iff {workers : ℕ} {events : List IocpEvent} {server : IocpServer}
    (reached : iocpServer.run (start workers) events = some server) :
    (∀ before after state, events = before ++ after →
      iocpServer.run (start workers) before = some state → state.NotAbandoned) ↔
        iocpServer.Meets Careful (start workers) events := by
  constructor
  · intro notAbandoned
    apply iocpServer.meets_iff.mpr
    intro before event after state same leads
    rw [same] at reached
    rcases iocpServer.run_append_eq_some.mp reached with ⟨again, leadsAgain, continued⟩
    rcases Option.some.inj (leads.symm.trans leadsAgain) with rfl
    rcases iocpServer.run_cons_eq_some.mp continued with ⟨next, stepped, _⟩
    apply (owned_of_run leads).careful stepped
    apply notAbandoned (before ++ [event]) after next (by rw [same, List.append_assoc]; rfl)
    exact iocpServer.run_append_eq_some.mpr
      ⟨state, leads, iocpServer.run_cons_eq_some.mpr ⟨next, stepped, rfl⟩⟩
  · intro meets before after state same leads
    apply Serving.notAbandoned
    apply iocpServer.run_invariant Serving (fun serving careful stepped =>
      serving.step careful stepped) (serving_start workers) ?_ leads
    apply iocpServer.meets_iff.mpr
    intro first event second middle split reachedMiddle
    apply iocpServer.meets_iff.mp meets first event (second ++ after) middle ?_ reachedMiddle
    rw [same, split, List.append_assoc]
    rfl

theorem not_abandoned_first :
    ∃ server, iocpServer.run (start 1) [.accept 4, .list, .postFirst true,
      .dequeue 0 0 [1, 0, 0, 0], .handle 0 true] = some server ∧
    ((∀ before after state, [.accept 4, .list, .postFirst true, .dequeue 0 0 [1, 0, 0, 0],
        .handle 0 true] = before ++ after →
      iocpServer.run (start 1) before = some state → state.NotAbandoned) ↔
        iocpServer.Meets Careful (start 1) [.accept 4, .list, .postFirst true,
          .dequeue 0 0 [1, 0, 0, 0], .handle 0 true]) := by
  have runs : (iocpServer.run (start 1) [.accept 4, .list, .postFirst true,
      .dequeue 0 0 [1, 0, 0, 0], .handle 0 true]).isSome = true := by decide
  rcases Option.isSome_iff_exists.mp runs with ⟨server, reached⟩
  exact ⟨server, reached, not_abandoned_iff reached⟩

/-- The first receive of a connection is refused, and the result is dropped. -/
theorem not_abandoned_fails : ¬∀ workers events server,
    iocpServer.run (start workers) events = some server → server.NotAbandoned := by
  intro claimed
  rcases (claimed 1 [.accept 4, .list, .postFirst false] _ rfl).listed 4 (by decide) with
    ⟨pio, _, _, used⟩
  simp [holders, IocpServer.accept, IocpServer.list, put, post, touch, start, Stage.holds] at used

end IocpServer

end InstanceMessage
