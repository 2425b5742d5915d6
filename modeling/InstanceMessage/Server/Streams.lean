import InstanceMessage.Server.Connections

/-!
# What is submitted for a connection

The receive context of a connection is used for headers and bodies in turn and
goes from worker to worker. Wherever it is, what has been submitted for the
connection is what the reference parse finds in the bytes that have arrived,
and while the context is in use it is in step with the stream: the bytes end
with a whole body, or with the header that the context has the length of.
-/

namespace InstanceMessage

open Library

/-- The longest body that a worker asks for. -/
def bodyLimit : ℕ := 10 * 1024 * 1024

/-- The body that is submitted for the connection. -/
def Report.body? (socket : Handle) : Report → Option Bytes
  | .submitted task => if task.from_ = socket then some task.data else none
  | .closed _ => none

def Report.socket : Report → Handle
  | .submitted task => task.from_
  | .closed socket => socket

/-- The later report is not of a task for a connection that the earlier one has closed. -/
def Report.Allows : Report → Report → Prop
  | .closed socket, .submitted task => task.from_ ≠ socket
  | _, _ => True

/-! ## The context and the stream -/

/-- The next bytes are to be received with the context. -/
inductive Reading (arrived : Bytes) (bodies : List Bytes) (context : PerIo) : Prop
  | header (kind : context.opType = .opRecvHeader) (buffer : context.headerBuf.length = 4)
      (parses : Parses bodyLimit arrived bodies)
  | body {front header : Bytes} (kind : context.opType = .opRecvBody)
      (buffer : context.headerBuf.length = 4) (parses : Parses bodyLimit front bodies)
      (same : arrived = front ++ header) (whole : header.length = 4)
      (length : context.bodyLen = ofLe header) (positive : 1 ≤ context.bodyLen)
      (bounded : context.bodyLen ≤ bodyLimit) (room : context.bodyBuf.length = context.bodyLen)

/-- The last bytes that have arrived are in the context's buffer. -/
def Handed (arrived : Bytes) (bodies : List Bytes) (context : PerIo) (received : Bytes) : Prop :=
  ∃ before awaiting, Reading before bodies awaiting ∧ context = awaiting.filled received ∧
    received.length ≤ awaiting.requested ∧ arrived = before ++ received

section Context

variable {arrived received : Bytes} {bodies : List Bytes} {context : PerIo}

theorem Reading.parsed (reading : Reading arrived bodies context) :
    bodies <+: parse bodyLimit arrived := by
  cases reading with
  | header kind buffer parses => exact parses.isPrefix List.prefix_rfl
  | body kind buffer parses same =>
      rw [same]
      exact parses.isPrefix (List.prefix_append _ _)

theorem Reading.handed (reading : Reading arrived bodies context)
    (fits : received.length ≤ context.requested) :
    Handed (arrived ++ received) bodies (context.filled received) received :=
  ⟨arrived, context, reading, rfl, fits, rfl⟩

theorem filled_of_length {front back : Bytes} (same : front.length = back.length) :
    front ++ back.drop front.length = front := by
  rw [same, List.drop_length, List.append_nil]

/-- A header has arrived, and the context is made ready for the body. -/
theorem Handed.recvBody (handed : Handed arrived bodies context received)
    (kind : context.opType = .opRecvHeader) (whole : received.length = 4)
    (positive : 1 ≤ ofLe context.headerBuf) (bounded : ofLe context.headerBuf ≤ bodyLimit) :
    Reading arrived bodies { context with
      opType := .opRecvBody, bodyLen := ofLe context.headerBuf
      bodyBuf := List.replicate (ofLe context.headerBuf) 0 } := by
  rcases handed with ⟨before, awaiting, reading, rfl, _, rfl⟩
  rw [PerIo.opType_filled] at kind
  cases reading with
  | header _ buffer parses =>
      have filled : (awaiting.filled received).headerBuf = received := by
        rw [PerIo.filled_header kind]
        exact filled_of_length (whole.trans buffer.symm)
      rw [filled] at positive bounded ⊢
      exact .body rfl whole parses rfl whole rfl positive bounded (List.length_replicate ..)
  | body again => simp [kind] at again

/-- A body has arrived and is submitted. -/
theorem Handed.submit (handed : Handed arrived bodies context received)
    (kind : context.opType = .opRecvBody) (whole : received.length = context.bodyLen) :
    Reading arrived (bodies ++ [context.bodyBuf])
      { context with opType := .opRecvHeader, bodyBuf := [] } ∧
    context.bodyLen = context.bodyBuf.length ∧ 1 ≤ context.bodyLen ∧
      context.bodyLen ≤ bodyLimit := by
  rcases handed with ⟨before, awaiting, reading, rfl, _, rfl⟩
  rw [PerIo.opType_filled] at kind
  rw [PerIo.bodyLen_filled] at whole ⊢
  cases reading with
  | header again => simp [kind] at again
  | @body front header _ buffer parses same entire length positive bounded room =>
      have filled : awaiting.filled received = { awaiting with bodyBuf := received } := by
        rw [PerIo.filled_body kind, filled_of_length (whole.trans room.symm)]
      rw [filled, same, List.append_assoc]
      refine ⟨.header rfl buffer ?_, whole.symm, positive, bounded⟩
      exact parses.append entire (whole.trans length) (whole ▸ positive) (whole ▸ bounded)

end Context

namespace IocpServer

/-! ## One context -/

/-- The bodies that have been submitted for the connection. -/
def submitted (reports : List Report) (socket : Handle) : List Bytes :=
  reports.filterMap (Report.body? socket)

/-- The kernel has the context, or the accept loop. -/
def Awaits (server : IocpServer) (pio : ContextId) : Prop :=
  0 < server.outstanding pio ∨ server.acceptor = .posting pio

/-- A worker has got the context with these bytes. -/
def Handles (server : IocpServer) (pio : ContextId) (received : Bytes) : Prop :=
  ∃ worker : ℕ, server.workers[worker]? = some (.handling pio received)

/-- What is known of a receive context and of what has been submitted for its connection. -/
structure Followed (server : IocpServer) (pio : ContextId) (context : PerIo) : Prop where
  awaits : server.Awaits pio →
    Reading (server.arrived context.sock) (submitted server.reports context.sock) context
  handles : ∀ received, server.Handles pio received →
    Handed (server.arrived context.sock) (submitted server.reports context.sock) context received
  parsed : submitted server.reports context.sock <+:
    parse bodyLimit (server.arrived context.sock)
  closed : .closed context.sock ∈ server.reports →
    ¬server.Awaits pio ∧ ∀ received, ¬server.Handles pio received

section Step

variable {server next : IocpServer} {event : IocpEvent} {worker : ℕ} {old new : Stage}
  {pio : ContextId} {socket : Handle} {context changed : PerIo}

theorem Owned.holder_unique (owned : server.Owned) {other : ℕ} {stage : Stage}
    (present : server.workers[worker]? = some old) (holds : old.holds pio = true)
    (presentOther : server.workers[other]? = some stage) (holdsOther : stage.holds pio = true) :
    worker = other := by
  by_contra different
  have counted := countP_become present .waiting pio
  have still : (server.workers.set worker .waiting)[other]? = some stage := by
    rw [List.getElem?_set_ne different]
    exact presentOther
  have left : 0 < (server.workers.set worker .waiting).countP (Stage.holds pio) :=
    List.countP_pos_iff.mpr ⟨stage, List.mem_of_getElem? still, holdsOther⟩
  have once := owned.once pio
  simp only [tokens, holders] at once
  rw [holds] at counted
  simp only [Stage.holds, Bool.toNat_true, Bool.toNat_false] at counted
  omega

theorem Owned.not_handles_of_awaits (owned : server.Owned) (awaits : server.Awaits pio)
    (received : Bytes) : ¬server.Handles pio received := by
  rintro ⟨worker, present⟩
  have counted : 0 < server.workers.countP (Stage.holds pio) :=
    List.countP_pos_iff.mpr ⟨_, List.mem_of_getElem? present, by simp [Stage.holds]⟩
  have once := owned.once pio
  simp only [tokens, holders] at once
  rcases awaits with outstanding | posting
  · omega
  · rw [if_pos posting] at once
    omega

theorem awaits_accept {client : Handle} (awaits : (server.accept client).Awaits pio) :
    server.Awaits pio := by
  rcases awaits with outstanding | posting
  · exact .inl outstanding
  · simp [IocpServer.accept] at posting

theorem awaits_list {client : Handle} (old : pio ≠ server.nextPio)
    (awaits : (server.list client).Awaits pio) : server.Awaits pio := by
  rcases awaits with outstanding | posting
  · exact .inl outstanding
  · exact absurd (Acceptor.posting.inj posting).symm old

theorem awaits_postFirst {held : ContextId} {posted : Bool}
    (made : server.acceptor = .posting held)
    (awaits : { (server.touch held).post held posted with acceptor := .listening }.Awaits pio) :
    server.Awaits pio := by
  by_cases same : pio = held
  · exact .inr (same ▸ made)
  · rcases awaits with outstanding | posting
    · exact .inl (by simpa [post, IocpServer.touch, same] using outstanding)
    · simp at posting

theorem awaits_dequeue {other : ContextId} {received : Bytes} (different : other ≠ pio)
    (awaits : (server.dequeue worker pio context received).Awaits other) : server.Awaits other := by
  simpa [Awaits, IocpServer.dequeue, put, IocpServer.touch, IocpServer.become, different]
    using awaits

theorem awaits_dequeueFailed {held : ContextId} (posted : 0 < server.outstanding held)
    (awaits : (server.dequeueFailed worker held).Awaits pio) : server.Awaits pio := by
  by_cases same : pio = held
  · exact .inl (same ▸ posted)
  · simpa [Awaits, IocpServer.dequeueFailed, IocpServer.touch, IocpServer.become, same]
      using awaits

theorem awaits_handled {other : ContextId} {posted : Bool} {effect : Effect}
    (different : other ≠ pio)
    (awaits : (server.handled worker pio context posted effect).Awaits other) :
    server.Awaits other := by
  cases effect with
  | closeClient | release | nothing => exact awaits
  | recvBody changed =>
      cases posted with
      | true => simpa [Awaits, IocpServer.handled, post, put, IocpServer.become, different]
          using awaits
      | false => exact awaits
  | submit task changed =>
      simpa [Awaits, IocpServer.handled, post, put, IocpServer.become, report, different]
        using awaits

theorem pios_of_send {data : Bytes} {posted : Bool}
    (found : (server.send data socket posted).pios pio = some context)
    (receives : context.isReceive = true) : server.pios pio = some context := by
  by_cases same : pio = server.nextPio
  · have sent : context = .ofSend socket data := by
      simpa [pios_send, same] using found.symm
    simp [sent, PerIo.ofSend, PerIo.isReceive] at receives
  · simpa [pios_send, same] using found

theorem awaits_send {data : Bytes} {posted : Bool} (old : pio ≠ server.nextPio)
    (awaits : (server.send data socket posted).Awaits pio) : server.Awaits pio := by
  simpa [Awaits, outstanding_send server data socket posted old] using awaits

/-- Nobody but the worker that has the context handles it, whatever that does next. -/
theorem Owned.handles_become (owned : server.Owned)
    (present : server.workers[worker]? = some old)
    (workers : next.workers = server.workers.set worker new) {received : Bytes}
    (handles : next.Handles pio received) :
    new = .handling pio received ∨ server.Handles pio received ∧ old.holds pio = false := by
  rcases handles with ⟨other, found⟩
  rw [workers, List.getElem?_set] at found
  split at found
  · split at found
    · exact .inl (Option.some.inj found)
    · simp at found
  · rename_i different
    refine .inr ⟨⟨other, found⟩, Bool.eq_false_of_not_eq_true fun holds => different ?_⟩
    exact owned.holder_unique present holds found (by simp [Stage.holds])

theorem Owned.handles_dequeue (owned : server.Owned) {other : ContextId} {received bytes : Bytes}
    (present : server.workers[worker]? = some .waiting)
    (handles : (server.dequeue worker pio context received).Handles other bytes) :
    other = pio ∧ bytes = received ∨ server.Handles other bytes := by
  rcases owned.handles_become present rfl handles with same | before
  · rcases Stage.handling.inj same with ⟨rfl, rfl⟩
    exact .inl ⟨rfl, rfl⟩
  · exact .inr before.1

theorem handles_of_dequeue (pio : ContextId) (context : PerIo) (received : Bytes)
    (present : server.workers[worker]? = some .waiting) :
    (server.dequeue worker pio context received).Handles pio received :=
  ⟨worker, List.getElem?_set_self (List.getElem?_eq_some_iff.mp present).1⟩

/-- Nothing happens on the connection, and nobody gets the context. -/
theorem Followed.frame (followed : server.Followed pio context)
    (awaits : next.Awaits pio → server.Awaits pio)
    (handles : ∀ received, next.Handles pio received → server.Handles pio received)
    (arrived : next.arrived context.sock = server.arrived context.sock)
    (same : submitted next.reports context.sock = submitted server.reports context.sock)
    (closed : .closed context.sock ∈ next.reports → .closed context.sock ∈ server.reports) :
    next.Followed pio context where
  awaits now := by
    rw [arrived, same]
    exact followed.awaits (awaits now)
  handles received now := by
    rw [arrived, same]
    exact followed.handles received (handles received now)
  parsed := by
    rw [arrived, same]
    exact followed.parsed
  closed now := by
    rcases followed.closed (closed now) with ⟨notAwaits, notHandles⟩
    exact ⟨fun later => notAwaits (awaits later),
      fun received later => notHandles received (handles received later)⟩

/-- A worker that has handled a context does not handle it any more. -/
theorem Owned.handles_handled (owned : server.Owned) {received : Bytes}
    (present : server.workers[worker]? = some (.handling pio received))
    (workers : next.workers = server.workers.set worker new)
    (done : ∀ other bytes, new ≠ .handling other bytes) :
    (∀ other bytes, next.Handles other bytes → server.Handles other bytes) ∧
      ∀ bytes, ¬next.Handles pio bytes := by
  constructor
  · intro other bytes handles
    rcases owned.handles_become present workers handles with same | before
    · exact absurd same (done other bytes)
    · exact before.1
  · intro bytes handles
    rcases owned.handles_become present workers handles with same | before
    · exact done pio bytes same
    · simp [Stage.holds] at before

/-- Nobody has the context who could submit anything from it. -/
theorem Followed.lost (notAwaits : ¬server.Awaits pio)
    (notHandles : ∀ received, ¬server.Handles pio received)
    (parsed : submitted server.reports context.sock <+:
      parse bodyLimit (server.arrived context.sock)) : server.Followed pio context where
  awaits awaits := absurd awaits notAwaits
  handles received handles := absurd handles (notHandles received)
  parsed := parsed
  closed _ := ⟨notAwaits, notHandles⟩

end Step

/-! ## All contexts -/

/-- No two receive contexts are of one connection, and each is in step with its stream. -/
structure Framed (server : IocpServer) : Prop where
  owned : server.Owned
  distinct : ∀ {first second socket}, server.receiver first = some socket →
    server.receiver second = some socket → first = second
  followed : ∀ {pio context}, server.pios pio = some context → context.isReceive = true →
    server.Followed pio context
  fresh : ∀ {socket}, (∀ pio, server.receiver pio ≠ some socket) →
    server.arrived socket = [] ∧ ∀ report ∈ server.reports, report.socket ≠ socket
  lengths : ∀ {task}, .submitted task ∈ server.reports →
    task.len = task.data.length ∧ 1 ≤ task.len ∧ task.len ≤ bodyLimit
  /-- Nothing is submitted for a connection after `closeClient`. -/
  order : server.reports.Pairwise Report.Allows

theorem submitted_of_silent {reports : List Report} {socket : Handle}
    (silent : ∀ report ∈ reports, report.socket ≠ socket) : submitted reports socket = [] := by
  apply List.filterMap_eq_nil_iff.mpr
  intro report member
  have other := silent report member
  cases report with
  | submitted task => exact if_neg other
  | closed socket => rfl

theorem submitted_append (first second : List Report) (socket : Handle) :
    submitted (first ++ second) socket = submitted first socket ++ submitted second socket :=
  List.filterMap_append

theorem submitted_closed (reports : List Report) (socket other : Handle) :
    submitted (reports ++ [.closed other]) socket = submitted reports socket := by
  rw [submitted_append]
  exact List.append_nil _

theorem submitted_task (reports : List Report) (task : TaskData) :
    submitted (reports ++ [.submitted task]) task.from_ =
      submitted reports task.from_ ++ [task.data] := by
  rw [submitted_append]
  simp [submitted, Report.body?]

section Run

variable {server next : IocpServer} {event : IocpEvent} {worker : ℕ} {old new : Stage}
  {pio : ContextId} {socket : Handle} {context changed : PerIo}

/-- Nothing arrives and nothing is reported. -/
theorem Framed.pass (framed : server.Framed) (owned : next.Owned)
    (receivers : next.receiver = server.receiver)
    (pios : ∀ pio context, next.pios pio = some context → context.isReceive = true →
      server.pios pio = some context)
    (awaits : ∀ pio, server.receiver pio ≠ none → next.Awaits pio → server.Awaits pio)
    (handles : ∀ pio received, server.receiver pio ≠ none → next.Handles pio received →
      server.Handles pio received)
    (arrived : next.arrived = server.arrived) (reports : next.reports = server.reports) :
    next.Framed where
  owned := owned
  distinct := by
    rw [receivers]
    exact framed.distinct
  followed {pio context} found receives := by
    have before := pios pio context found receives
    have receiver := receiver_of_isReceive before receives
    have some : server.receiver pio ≠ none := by
      simp [receiver]
    apply (framed.followed before receives).frame
    · exact awaits pio some
    · exact fun received => handles pio received some
    · rw [arrived]
    · rw [reports]
    · rw [reports]
      exact id
  fresh := by
    rw [receivers, arrived, reports]
    exact framed.fresh
  lengths := by
    rw [reports]
    exact framed.lengths
  order := by
    rw [reports]
    exact framed.order

/-- A worker goes on with something else than a completion. -/
theorem Framed.become (framed : server.Framed) (owned : next.Owned)
    (present : server.workers[worker]? = some old)
    (workers : next.workers = server.workers.set worker new)
    (done : ∀ other bytes, new ≠ .handling other bytes)
    (receivers : next.receiver = server.receiver) (pios : next.pios = server.pios)
    (awaits : ∀ pio, next.Awaits pio → server.Awaits pio)
    (arrived : next.arrived = server.arrived) (reports : next.reports = server.reports) :
    next.Framed := by
  apply framed.pass owned receivers ?_ (fun pio _ => awaits pio) ?_ arrived reports
  · intro pio context found _
    rw [← pios]
    exact found
  · intro pio received _ handles
    rcases framed.owned.handles_become present workers handles with same | before
    · exact absurd same (done pio received)
    · exact before.1

/-- Something happens on the connection of one receive context. -/
theorem Framed.move (framed : server.Framed) (owned : next.Owned)
    (receivers : next.receiver = server.receiver) (receiver : server.receiver pio = some socket)
    (here : ∀ context, next.pios pio = some context → context.isReceive = true →
      next.Followed pio context)
    (pios : ∀ other, other ≠ pio → next.pios other = server.pios other)
    (awaits : ∀ other, other ≠ pio → next.Awaits other → server.Awaits other)
    (handles : ∀ other received, other ≠ pio → next.Handles other received →
      server.Handles other received)
    (arrived : ∀ other, other ≠ socket → next.arrived other = server.arrived other)
    {more : List Report} (reports : next.reports = server.reports ++ more)
    (about : ∀ report ∈ more, report.socket = socket)
    (lengths : ∀ task, .submitted task ∈ more →
      task.len = task.data.length ∧ 1 ≤ task.len ∧ task.len ≤ bodyLimit)
    (order : (server.reports ++ more).Pairwise Report.Allows) : next.Framed where
  owned := owned
  distinct := by
    rw [receivers]
    exact framed.distinct
  followed {other context} found receives := by
    by_cases same : other = pio
    · rw [same] at found ⊢
      exact here context found receives
    · rw [pios other same] at found
      have different : context.sock ≠ socket := by
        intro shared
        apply same
        apply framed.distinct (receiver_of_isReceive found receives)
        rw [shared]
        exact receiver
      have others : ∀ report ∈ more, report.socket ≠ context.sock := by
        intro report member
        rw [about report member]
        exact different.symm
      apply (framed.followed found receives).frame (awaits other same)
        (fun received => handles other received same) (arrived _ different)
      · rw [reports, submitted_append, submitted_of_silent others, List.append_nil]
      · intro closed
        rw [reports] at closed
        rcases List.mem_append.mp closed with before | now
        · exact before
        · exact absurd rfl (others _ now)
  fresh {other} unused := by
    rw [receivers] at unused
    have different : other ≠ socket := by
      rintro rfl
      exact unused pio receiver
    rcases framed.fresh unused with ⟨nothing, silent⟩
    refine ⟨(arrived other different).trans nothing, ?_⟩
    intro report member
    rw [reports] at member
    rcases List.mem_append.mp member with before | now
    · exact silent report before
    · rw [about report now]
      exact different.symm
  lengths {task} member := by
    rw [reports] at member
    rcases List.mem_append.mp member with before | now
    · exact framed.lengths before
    · exact lengths task now
  order := by
    rw [reports]
    exact order

theorem Framed.list (framed : server.Framed) {client : Handle}
    (owned : (server.list client).Owned)
    (unused : ∀ pio, server.receiver pio ≠ some client) : (server.list client).Framed := by
  have made := receiver_list server client
  rcases framed.fresh unused with ⟨nothing, silent⟩
  have none : submitted server.reports client = [] := submitted_of_silent silent
  have before {pio : ContextId} {socket : Handle}
      (receiver : (server.list client).receiver pio = some socket) :
      pio = server.nextPio ∧ socket = client ∨
        pio ≠ server.nextPio ∧ server.receiver pio = some socket := by
    rw [made] at receiver
    by_cases same : pio = server.nextPio
    · rw [same, Function.update_self] at receiver
      exact .inl ⟨same, (Option.some.inj receiver).symm⟩
    · rw [Function.update_of_ne same] at receiver
      exact .inr ⟨same, receiver⟩
  constructor
  case owned => exact owned
  case distinct =>
    intro first second socket firstReceiver secondReceiver
    rcases before firstReceiver with ⟨firstNew, same⟩ | ⟨_, firstOld⟩
    · rcases before secondReceiver with ⟨secondNew, _⟩ | ⟨_, secondOld⟩
      · rw [firstNew, secondNew]
      · exact absurd (same ▸ secondOld) (unused second)
    · rcases before secondReceiver with ⟨_, same⟩ | ⟨_, secondOld⟩
      · exact absurd (same ▸ firstOld) (unused first)
      · exact framed.distinct firstOld secondOld
  case followed =>
    intro pio context found receives
    by_cases same : pio = server.nextPio
    · subst same
      have made : context = .ofAccept client := by
        simpa [IocpServer.list, put] using found.symm
      have awaits : (server.list client).Awaits server.nextPio := .inr rfl
      subst made
      refine ⟨fun _ => ?_, fun received handles => ?_, ?_, fun closed => ?_⟩
      · apply Reading.header rfl rfl
        simp only [IocpServer.list, put, PerIo.ofAccept, nothing, none]
        exact parses_nil bodyLimit
      · exact absurd handles (owned.not_handles_of_awaits awaits received)
      · simp only [IocpServer.list, put, PerIo.ofAccept, none]
        exact List.nil_prefix
      · exact absurd rfl (silent _ closed)
    · have old : server.pios pio = some context := by
        simpa [IocpServer.list, put, same] using found
      exact (framed.followed old receives).frame (awaits_list same) (fun _ handles => handles)
        rfl rfl id
  case fresh =>
    intro socket unusedStill
    apply framed.fresh
    intro pio receiver
    have different := framed.owned.old_of_receiver receiver
    apply unusedStill pio
    rw [made, Function.update_of_ne different]
    exact receiver
  case lengths => exact framed.lengths
  case order => exact framed.order

theorem Framed.dequeue (framed : server.Framed) {received : Bytes}
    (owned : (server.dequeue worker pio context received).Owned)
    (present : server.workers[worker]? = some .waiting) (found : server.pios pio = some context)
    (posted : 0 < server.outstanding pio) (fits : received.length ≤ context.requested) :
    (server.dequeue worker pio context received).Framed := by
  have receivers := receiver_dequeue worker received found
  by_cases receives : context.isReceive = true
  · have receiver := receiver_of_isReceive found receives
    have followed := framed.followed found receives
    have awaits : server.Awaits pio := .inl posted
    have arrives : (server.dequeue worker pio context received).arrived context.sock =
        server.arrived context.sock ++ received := by
      simp [IocpServer.dequeue, receives]
    have handles := handles_of_dequeue pio context received present
    refine framed.move owned receivers receiver ?_ (fun other different => ?_)
      (fun _ different => awaits_dequeue different)
      (fun other bytes different still => ?_) (fun other different => ?_)
      (List.append_nil _).symm (by simp) (by simp) (by simpa using framed.order)
    · intro filled same _
      have filled : filled = context.filled received := by
        simpa [IocpServer.dequeue, put, IocpServer.become] using same.symm
      subst filled
      refine ⟨fun again => ?_, fun bytes still => ?_, ?_, fun closed => ?_⟩
      · exact absurd handles (owned.not_handles_of_awaits again received)
      · rw [PerIo.sock_filled, arrives]
        rcases framed.owned.handles_dequeue present still with ⟨_, rfl⟩ | before
        · exact (followed.awaits awaits).handed fits
        · exact absurd before (framed.owned.not_handles_of_awaits awaits bytes)
      · rw [PerIo.sock_filled, arrives]
        exact followed.parsed.trans (parse_grows (List.prefix_append _ _))
      · rw [PerIo.sock_filled] at closed
        exact absurd awaits (followed.closed closed).1
    · exact Function.update_of_ne different _ _
    · rcases framed.owned.handles_dequeue present still with ⟨same, _⟩ | before
      · exact absurd same different
      · exact before
    · simp [IocpServer.dequeue, receives, different]
  · have sent (other : ContextId) (receive : server.receiver other ≠ none) : other ≠ pio := by
      rintro rfl
      simp [receiver, found, receives] at receive
    apply framed.pass owned receivers
    · intro other filled now receive
      have different : other ≠ pio := by
        apply sent other
        rw [← receivers, receiver_of_isReceive now receive]
        exact Option.some_ne_none _
      simpa [IocpServer.dequeue, put, IocpServer.become, IocpServer.touch, different] using now
    · exact fun other receive => awaits_dequeue (sent other receive)
    · intro other bytes receive handles
      rcases framed.owned.handles_dequeue present handles with ⟨same, _⟩ | before
      · exact absurd same (sent other receive)
      · exact before
    · exact if_neg receives
    · rfl

/-- A worker calls `closeClient` on the receive context that it has handled. -/
theorem Framed.close (framed : server.Framed) (owned : next.Owned) {received : Bytes}
    (present : server.workers[worker]? = some (.handling pio received))
    (workers : next.workers = server.workers.set worker (.closing pio))
    (receivers : next.receiver = server.receiver) (receiver : server.receiver pio = some socket)
    (pios : ∀ other, other ≠ pio → next.pios other = server.pios other)
    (awaits : ∀ other, next.Awaits other → server.Awaits other)
    (arrived : next.arrived = server.arrived)
    (reports : next.reports = server.reports ++ [.closed socket]) : next.Framed := by
  rcases framed.owned.handles_handled present workers (by simp) with ⟨handles, notHandles⟩
  refine framed.move owned receivers receiver ?_ pios (fun other _ => awaits other)
    (fun other bytes _ => handles other bytes) (fun other _ => by rw [arrived]) reports
    ?_ (by simp) ?_
  · intro changed found receives
    have sock : changed.sock = socket := by
      have same := receiver_of_isReceive found receives
      rw [receivers, receiver] at same
      exact (Option.some.inj same).symm
    apply Followed.lost
    · intro again
      exact framed.owned.not_handles_of_awaits (awaits pio again) received ⟨worker, present⟩
    · exact notHandles
    · rcases exists_of_receiver receiver with ⟨before, foundBefore, receivesBefore, sockBefore⟩
      have parsed := (framed.followed foundBefore receivesBefore).parsed
      rw [sockBefore] at parsed
      rw [sock, arrived, reports, submitted_closed]
      exact parsed
  · simp [Report.socket]
  · apply List.pairwise_append.mpr
    refine ⟨framed.order, List.pairwise_singleton _ _, ?_⟩
    intro earlier _ later member
    rcases List.mem_singleton.mp member with rfl
    cases earlier <;> trivial

/-- A worker has handled a receive context, which is or is not used for a further receive. -/
theorem Framed.receive (framed : server.Framed) (owned : next.Owned) {received : Bytes}
    (present : server.workers[worker]? = some (.handling pio received))
    (workers : next.workers = server.workers.set worker .waiting)
    (receivers : next.receiver = server.receiver) (receiver : server.receiver pio = some socket)
    (pios : next.pios = Function.update server.pios pio (some changed))
    (awaits : ∀ other, other ≠ pio → next.Awaits other → server.Awaits other)
    (arrived : next.arrived = server.arrived) {more : List Report}
    (reports : next.reports = server.reports ++ more)
    (reading : Reading (server.arrived socket) (submitted (server.reports ++ more) socket) changed)
    (about : ∀ report ∈ more, report.socket = socket) (kept : .closed socket ∉ more)
    (lengths : ∀ task, .submitted task ∈ more →
      task.len = task.data.length ∧ 1 ≤ task.len ∧ task.len ≤ bodyLimit)
    (order : (server.reports ++ more).Pairwise Report.Allows) : next.Framed := by
  rcases framed.owned.handles_handled present workers (by simp) with ⟨handles, notHandles⟩
  refine framed.move owned receivers receiver ?_
    (fun other different => by rw [pios, Function.update_of_ne different]) awaits
    (fun other bytes _ => handles other bytes) (fun other _ => by rw [arrived]) reports about
    lengths order
  intro now found receives
  rw [pios, Function.update_self] at found
  rcases Option.some.inj found with rfl
  have sock : changed.sock = socket := by
    have same := receiver_of_isReceive (by rw [pios, Function.update_self]) receives
    rw [receivers, receiver] at same
    exact (Option.some.inj same).symm
  constructor
  case awaits =>
    intro _
    rw [sock, arrived, reports]
    exact reading
  case handles => exact fun bytes again => absurd again (notHandles bytes)
  case parsed =>
    rw [sock, arrived, reports]
    exact reading.parsed
  case closed =>
    intro closed
    rw [sock, reports] at closed
    rcases List.mem_append.mp closed with before | now
    · rcases exists_of_receiver receiver with ⟨context, foundBefore, receivesBefore, sockBefore⟩
      rw [← sockBefore] at before
      have none := ((framed.followed foundBefore receivesBefore).closed before).2
      exact absurd ⟨worker, present⟩ (none received)
    · exact absurd now kept

/-- A worker that has the context looks at it. -/
theorem Framed.touch (framed : server.Framed) {received : Bytes}
    (present : server.workers[worker]? = some (.handling pio received)) :
    (server.touch pio).Framed :=
  framed.pass (framed.owned.touch_of_handling present) rfl (fun _ _ found _ => found)
    (fun _ _ awaits => awaits) (fun _ _ _ handles => handles) rfl rfl

theorem Framed.handled (framed : server.Framed) {received : Bytes} {posted : Bool}
    {effect : Effect} (owned : (server.handled worker pio context posted effect).Owned)
    (present : server.workers[worker]? = some (.handling pio received))
    (found : server.pios pio = some context) (looped : Looped received.length context effect) :
    (server.handled worker pio context posted effect).Framed := by
  have receivers := receiver_handled server worker posted found looped
  have handles : server.Handles pio received := ⟨worker, present⟩
  cases looped with
  | closeClient =>
      by_cases receives : context.isReceive = true
      · refine framed.close owned present rfl receivers (receiver_of_isReceive found receives)
          (fun _ _ => rfl) (fun _ awaits => awaits) rfl ?_
        exact if_pos receives
      · refine framed.become owned present rfl (by simp) receivers rfl (fun _ awaits => awaits)
          rfl ?_
        exact if_neg receives
  | recvBody header whole positive bounded =>
      have receives : context.isReceive = true := by
        simp [PerIo.isReceive, header]
      have followed := framed.followed found receives
      cases posted with
      | false =>
          refine framed.close owned present rfl receivers (receiver_of_isReceive found receives)
            (fun other different => Function.update_of_ne different _ _) (fun _ awaits => awaits)
            rfl ?_
          simp [IocpServer.handled, IocpServer.close, PerIo.isReceive, put, IocpServer.become]
      | true =>
          refine framed.receive owned present rfl receivers
            (receiver_of_isReceive found receives) rfl (fun _ => awaits_handled) rfl
            (List.append_nil _).symm ?_ (by simp) (by simp) (by simp) (by simpa using framed.order)
          rw [List.append_nil]
          exact (followed.handles received handles).recvBody header whole positive bounded
  | submit body some whole =>
      have receives : context.isReceive = true := by
        simp [PerIo.isReceive, body]
      have followed := framed.followed found receives
      rcases (followed.handles received handles).submit body whole with
        ⟨reading, length, positive, bounded⟩
      refine framed.receive owned present rfl receivers (receiver_of_isReceive found receives)
        rfl (fun _ => awaits_handled) rfl rfl ?_ ?_ (by simp) ?_ ?_
      · have reported := submitted_task server.reports
          ⟨context.bodyBuf, context.bodyLen, context.sock⟩
        exact reported.symm ▸ reading
      · simp [Report.socket]
      · intro task member
        rcases Report.submitted.inj (List.mem_singleton.mp member) with rfl
        exact ⟨length, positive, bounded⟩
      · apply List.pairwise_append.mpr
        refine ⟨framed.order, List.pairwise_singleton _ _, ?_⟩
        intro earlier before later member
        rcases List.mem_singleton.mp member with rfl
        cases earlier with
        | submitted task => trivial
        | closed socket =>
            rintro rfl
            exact (followed.closed before).2 received handles
  | release sent =>
      exact framed.become owned present rfl (by simp) receivers rfl (fun _ awaits => awaits) rfl rfl
  | nothing sent =>
      exact framed.become owned present rfl (by simp) receivers rfl (fun _ awaits => awaits) rfl rfl

/-- A connection is entered under a handle that no connection has had. -/
def NeverReused (server : IocpServer) : IocpEvent → Prop
  | .list => ∀ client, server.acceptor = .entering client → ∀ pio, server.receiver pio ≠ some client
  | _ => True

theorem Framed.step (framed : server.Framed) (never : server.NeverReused event)
    (stepped : server.step event = some next) : next.Framed := by
  have owned := framed.owned.step stepped
  cases stepped_of_step stepped with
  | accept idle =>
      exact framed.pass owned rfl (fun _ _ found _ => found) (fun _ _ => awaits_accept)
        (fun _ _ _ handles => handles) rfl rfl
  | @list client accepted => exact framed.list owned (never client accepted)
  | @postFirst pio posted made =>
      exact framed.pass owned rfl (fun _ _ found _ => found) (fun _ _ => awaits_postFirst made)
        (fun _ _ _ handles => handles) rfl rfl
  | dequeue present found posted fits => exact framed.dequeue owned present found posted fits
  | @dequeueFailed worker pio present posted =>
      exact framed.become owned present rfl (by simp) rfl rfl
        (fun _ => awaits_dequeueFailed posted) rfl rfl
  | @handle worker pio context received posted present found =>
      exact (framed.touch present).handled owned present found (looped_workerBody _ _)
  | @closing worker pio context present found =>
      exact framed.become owned present rfl (by simp) rfl rfl (fun _ awaits => awaits) rfl rfl
  | @erasing worker pio context present found =>
      exact framed.become owned present rfl (by simp) rfl rfl (fun _ awaits => awaits) rfl rfl
  | @deleting worker pio present =>
      exact framed.become owned present rfl (by simp) rfl rfl (fun _ awaits => awaits) rfl rfl
  | unsent => exact framed
  | @send data clientId socket posted =>
      apply framed.pass owned (framed.owned.receiver_send data socket posted)
      · exact fun _ _ => pios_of_send
      · intro pio receives awaits
        rcases Option.ne_none_iff_exists'.mp receives with ⟨client, receiver⟩
        exact awaits_send (framed.owned.old_of_receiver receiver) awaits
      · intro pio received _ handles
        simpa [Handles] using handles
      · exact arrived_send server data socket posted
      · exact reports_send server data socket posted
  | closesocket =>
      exact framed.pass owned rfl (fun _ _ found _ => found) (fun _ _ awaits => awaits)
        (fun _ _ _ handles => handles) rfl rfl

end Run

theorem framed_start (workers : ℕ) : (start workers).Framed where
  owned := owned_start workers
  distinct receiver _ := by simp [IocpServer.receiver, start] at receiver
  followed found _ := by simp [start] at found
  fresh _ := ⟨rfl, by simp [start]⟩
  lengths member := by simp [start] at member
  order := List.Pairwise.nil

/-- What is submitted for a connection is a prefix of what the reference parse finds in its stream,
every submitted length is a positive `int` and that of the body, and nothing is submitted for a
connection after `closeClient`. -/
theorem framing_sound {workers : ℕ} {events : List IocpEvent} {server : IocpServer}
    (reached : iocpServer.run (start workers) events = some server)
    (never : iocpServer.Meets NeverReused (start workers) events) :
    (∀ socket stream, server.arrived socket <+: stream →
      submitted server.reports socket <+: parse (10 * 1024 * 1024) stream) ∧
    (∀ task, .submitted task ∈ server.reports →
      0 < toInt32 task.len ∧ toInt32 task.len = task.data.length) ∧
    server.reports.Pairwise Report.Allows := by
  have framed : server.Framed := iocpServer.run_invariant Framed
    (fun framed never stepped => framed.step never stepped) (framed_start workers) never reached
  refine ⟨fun socket stream arrives => ?_, fun task member => ?_, framed.order⟩
  · apply List.IsPrefix.trans ?_ (parse_grows arrives)
    by_cases used : ∃ pio, server.receiver pio = some socket
    · rcases used with ⟨pio, receiver⟩
      rcases exists_of_receiver receiver with ⟨context, found, receives, rfl⟩
      exact (framed.followed found receives).parsed
    · have silent := (framed.fresh fun pio receiver => used ⟨pio, receiver⟩).2
      rw [submitted_of_silent silent]
      exact List.nil_prefix
  · rcases framed.lengths member with ⟨length, positive, bounded⟩
    simp only [bodyLimit] at bounded
    rw [← length, toInt32, if_pos (by omega)]
    omega

/-- A connection on which a packet of two bytes arrives. -/
def firstPacket : List IocpEvent :=
  [.accept 4, .list, .postFirst true, .dequeue 0 0 [2, 0, 0, 0], .handle 0 true,
    .dequeue 0 0 [7, 8], .handle 0 true]

theorem framing_sound_first :
    ∃ server, iocpServer.run (start 1) firstPacket = some server ∧
      (∀ socket stream, server.arrived socket <+: stream →
        submitted server.reports socket <+: parse (10 * 1024 * 1024) stream) ∧
      (∀ task, .submitted task ∈ server.reports →
        0 < toInt32 task.len ∧ toInt32 task.len = task.data.length) ∧
      server.reports.Pairwise Report.Allows := by
  have runs : (iocpServer.run (start 1) firstPacket).isSome = true := by decide
  rcases Option.isSome_iff_exists.mp runs with ⟨server, reached⟩
  have never : iocpServer.Meets NeverReused (start 1) firstPacket := by
    refine ⟨trivial, fun next accepted => ⟨?_, fun _ _ => ?_⟩⟩
    · intro client _ pio
      rcases Option.some.inj accepted with rfl
      simp [receiver, start, IocpServer.accept]
    · apply iocpServer.meets_of_forall_mem
      intro state event member
      simp only [List.mem_cons, List.not_mem_nil, or_false] at member
      rcases member with rfl | rfl | rfl | rfl | rfl <;> trivial
  exact ⟨server, reached, framing_sound reached never⟩

example : (iocpServer.run (start 1) firstPacket).map (submitted ·.reports 4) = some [[7, 8]] := by
  decide

end IocpServer

end InstanceMessage
