import InstanceMessage.Library.Machine
import InstanceMessage.Server.Iocp
import Mathlib.Logic.Function.Basic

/-!
# The contexts of the completion port

`IOCPTcpServer` with the accept loop, any number of workers, `sendData` and the
kernel, which completes the operations that have been posted in any order. A
context is made by the accept loop or by `sendData`, and from then on it is in
the hands of the accept loop, of one worker or of the kernel until it is
released. A worker goes through `closeClient` in three steps, and the others may
act between them. Whether a `WSARecv` or `WSASend` is accepted is chosen by the
event, and so is which operations fail.

A released context keeps its content here, and `stale` records every later
access to it, so that such accesses are not excluded by the model.
-/

namespace InstanceMessage

open Library

abbrev ContextId := ℕ

inductive Stage
  | waiting
  /-- A successful completion of the context has transferred these bytes. -/
  | handling (pio : ContextId) (received : Bytes)
  /-- In `closeClient`, before `closesocket`. -/
  | closing (pio : ContextId)
  /-- In `closeClient`, before the entry is erased. -/
  | erasing (pio : ContextId)
  /-- In `closeClient`, before the context is deleted. -/
  | deleting (pio : ContextId)
  | exited
  deriving DecidableEq

/-- Where the accept loop is. -/
inductive Acceptor
  | listening
  /-- `accept` has returned the handle. -/
  | entering (client : Handle)
  /-- The receive context has been made, and nothing is posted on it yet. -/
  | posting (pio : ContextId)
  deriving DecidableEq

/-- What is recorded about the connection with a handle. -/
inductive Report
  | submitted (task : TaskData)
  /-- A worker has called `closeClient` on the receive context. -/
  | closed (socket : Handle)
  deriving DecidableEq

def PerIo.isReceive (context : PerIo) : Bool := context.opType ≠ .opSend

structure IocpServer where
  workers : List Stage
  acceptor : Acceptor := .listening
  nextPio : ContextId := 0
  pios : ContextId → Option PerIo := fun _ => none
  /-- How many operations on the context have been posted and not yet dequeued. -/
  outstanding : ContextId → ℕ := fun _ => 0
  /-- How often the context has been released. -/
  released : ContextId → ℕ := fun _ => 0
  stale : List ContextId := []
  sockets : Handle → Bool := fun _ => false
  mClients : Handle → Option Handle := fun _ => none
  /-- The bytes that have arrived on the connection with the handle. -/
  arrived : Handle → Bytes := fun _ => []
  reports : List Report := []

inductive IocpEvent
  | accept (client : Handle)
  /-- The accept loop enters the handle in `m_clients`, and makes the context. -/
  | list
  /-- The accept loop posts the first receive. -/
  | postFirst (posted : Bool)
  /-- The worker gets a successful completion, possibly of no bytes. -/
  | dequeue (worker : ℕ) (pio : ContextId) (received : Bytes)
  | dequeueFailed (worker : ℕ) (pio : ContextId)
  /-- The worker goes through the body of the loop. -/
  | handle (worker : ℕ) (posted : Bool)
  /-- The worker goes on in `closeClient`. -/
  | closeClient (worker : ℕ)
  | sendData (data : Bytes) (clientId : Handle) (posted : Bool)
  | closesocket (socket : Handle)

def Stage.holds (pio : ContextId) : Stage → Bool
  | .handling held _ | .closing held | .erasing held | .deleting held => held = pio
  | .waiting | .exited => false

namespace IocpServer

def start (workers : ℕ) : IocpServer := { workers := List.replicate workers .waiting }

/-- The context is read or written. -/
def touch (server : IocpServer) (pio : ContextId) : IocpServer :=
  { server with
    stale := if 0 < server.released pio then server.stale ++ [pio] else server.stale }

/-- An operation on the context is posted, and accepted or not. -/
def post (server : IocpServer) (pio : ContextId) (posted : Bool) : IocpServer :=
  { server with
    outstanding :=
      Function.update server.outstanding pio (server.outstanding pio + posted.toNat) }

def release (server : IocpServer) (pio : ContextId) : IocpServer :=
  { server with released := Function.update server.released pio (server.released pio + 1) }

def become (server : IocpServer) (worker : ℕ) (stage : Stage) : IocpServer :=
  { server with workers := server.workers.set worker stage }

def put (server : IocpServer) (pio : ContextId) (context : PerIo) : IocpServer :=
  { server with pios := Function.update server.pios pio (some context) }

def report (server : IocpServer) (report : Report) : IocpServer :=
  { server with reports := server.reports ++ [report] }

/-- The worker calls `closeClient`. -/
def close (server : IocpServer) (worker : ℕ) (pio : ContextId) (context : PerIo) :
    IocpServer :=
  { server.become worker (.closing pio) with
    reports :=
      if context.isReceive then server.reports ++ [.closed context.sock] else server.reports }

def accept (server : IocpServer) (client : Handle) : IocpServer :=
  { server with
    acceptor := .entering client
    sockets := Function.update server.sockets client true }

def list (server : IocpServer) (client : Handle) : IocpServer :=
  { server.put server.nextPio (.ofAccept client) with
    acceptor := .posting server.nextPio
    nextPio := server.nextPio + 1
    mClients := Function.update server.mClients client (some client) }

/-- The kernel fills the buffer, and the worker gets the context. -/
def dequeue (server : IocpServer) (worker : ℕ) (pio : ContextId) (context : PerIo)
    (received : Bytes) : IocpServer :=
  { ((server.touch pio).put pio (context.filled received)).become worker
      (.handling pio received) with
    outstanding := Function.update server.outstanding pio (server.outstanding pio - 1)
    arrived :=
      if context.isReceive then
        Function.update server.arrived context.sock (server.arrived context.sock ++ received)
      else server.arrived }

def dequeueFailed (server : IocpServer) (worker : ℕ) (pio : ContextId) : IocpServer :=
  { (server.touch pio).become worker .exited with
    outstanding := Function.update server.outstanding pio (server.outstanding pio - 1) }

/-- The effect of the loop's body; `posted` says whether the receive that it posts is accepted. -/
def handled (server : IocpServer) (worker : ℕ) (pio : ContextId) (context : PerIo)
    (posted : Bool) : Effect → IocpServer
  | .closeClient => server.close worker pio context
  | .recvBody context =>
      if posted then ((server.put pio context).become worker .waiting).post pio true
      else (server.put pio context).close worker pio context
  | .submit task context =>
      (((server.put pio context).report (.submitted task)).become worker .waiting).post pio posted
  | .release => (server.become worker .waiting).release pio
  | .nothing => server.become worker .waiting

/-- A context is made for the send, and released at once if the send is refused. -/
def send (server : IocpServer) (data : Bytes) (socket : Handle) (posted : Bool) :
    IocpServer :=
  let made : IocpServer := { server.put server.nextPio (.ofSend socket data) with
    nextPio := server.nextPio + 1 }
  if posted then made.post server.nextPio true else made.release server.nextPio

/-- `sendData`: nothing for a handle that is not in `m_clients`. -/
def sendData (server : IocpServer) (data : Bytes) (clientId : Handle) (posted : Bool) :
    IocpServer :=
  match server.mClients clientId with
  | none => server
  | some socket => server.send data socket posted

def step (server : IocpServer) : IocpEvent → Option IocpServer
  | .accept client =>
      if server.acceptor = .listening ∧ server.sockets client = false then
        some (server.accept client)
      else none
  | .list =>
      match server.acceptor with
      | .entering client => some (server.list client)
      | _ => none
  | .postFirst posted =>
      match server.acceptor with
      | .posting pio => some { (server.touch pio).post pio posted with acceptor := .listening }
      | _ => none
  | .dequeue worker pio received =>
      match server.workers[worker]?, server.pios pio with
      | some .waiting, some context =>
          if 0 < server.outstanding pio ∧ received.length ≤ context.requested then
            some (server.dequeue worker pio context received)
          else none
      | _, _ => none
  | .dequeueFailed worker pio =>
      match server.workers[worker]? with
      | some .waiting =>
          if 0 < server.outstanding pio then some (server.dequeueFailed worker pio) else none
      | _ => none
  | .handle worker posted =>
      match server.workers[worker]? with
      | some (.handling pio received) =>
          match server.pios pio with
          | some context => some ((server.touch pio).handled worker pio context posted
              (workerBody received.length context))
          | none => none
      | _ => none
  | .closeClient worker =>
      match server.workers[worker]? with
      | some (.closing pio) =>
          (server.pios pio).map fun context =>
            { (server.touch pio).become worker (.erasing pio) with
              sockets := Function.update server.sockets context.sock false }
      | some (.erasing pio) =>
          (server.pios pio).map fun context =>
            { (server.touch pio).become worker (.deleting pio) with
              mClients := Function.update server.mClients context.sock none }
      | some (.deleting pio) =>
          some (((server.touch pio).become worker .waiting).release pio)
      | _ => none
  | .sendData data clientId posted => some (server.sendData data clientId posted)
  | .closesocket socket =>
      some { server with sockets := Function.update server.sockets socket false }

section Send

variable (server : IocpServer) (data : Bytes) (socket : Handle) (posted : Bool)

@[simp]
theorem workers_send : (server.send data socket posted).workers = server.workers := by
  cases posted <;> rfl

@[simp]
theorem acceptor_send : (server.send data socket posted).acceptor = server.acceptor := by
  cases posted <;> rfl

@[simp]
theorem mClients_send : (server.send data socket posted).mClients = server.mClients := by
  cases posted <;> rfl

@[simp]
theorem arrived_send : (server.send data socket posted).arrived = server.arrived := by
  cases posted <;> rfl

@[simp]
theorem reports_send : (server.send data socket posted).reports = server.reports := by
  cases posted <;> rfl

theorem pios_send : (server.send data socket posted).pios =
    Function.update server.pios server.nextPio (some (.ofSend socket data)) := by
  cases posted <;> rfl

theorem outstanding_send {pio : ContextId} (old : pio ≠ server.nextPio) :
    (server.send data socket posted).outstanding pio = server.outstanding pio := by
  cases posted with
  | false => rfl
  | true => exact Function.update_of_ne old _ _

theorem released_send {pio : ContextId} (old : pio ≠ server.nextPio) :
    (server.send data socket posted).released pio = server.released pio := by
  cases posted with
  | false => exact Function.update_of_ne old _ _
  | true => rfl

theorem released_le_release (pio other : ContextId) :
    server.released other ≤ (server.release pio).released other := by
  by_cases same : other = pio
  · simp [same, release]
  · simp [same, release]

end Send

/-! ## Steps -/

/-- The steps of the network layer. -/
inductive Stepped (server : IocpServer) : IocpEvent → IocpServer → Prop
  | accept {client : Handle} (idle : server.acceptor = .listening)
      (free : server.sockets client = false) :
      Stepped server (.accept client) (server.accept client)
  | list {client : Handle} (accepted : server.acceptor = .entering client) :
      Stepped server .list (server.list client)
  | postFirst {pio : ContextId} {posted : Bool} (made : server.acceptor = .posting pio) :
      Stepped server (.postFirst posted)
        { (server.touch pio).post pio posted with acceptor := .listening }
  | dequeue {worker : ℕ} {pio : ContextId} {context : PerIo} {received : Bytes}
      (present : server.workers[worker]? = some .waiting) (found : server.pios pio = some context)
      (posted : 0 < server.outstanding pio) (fits : received.length ≤ context.requested) :
      Stepped server (.dequeue worker pio received) (server.dequeue worker pio context received)
  | dequeueFailed {worker : ℕ} {pio : ContextId}
      (present : server.workers[worker]? = some .waiting) (posted : 0 < server.outstanding pio) :
      Stepped server (.dequeueFailed worker pio) (server.dequeueFailed worker pio)
  | handle {worker : ℕ} {pio : ContextId} {context : PerIo} {received : Bytes} {posted : Bool}
      (present : server.workers[worker]? = some (.handling pio received))
      (found : server.pios pio = some context) :
      Stepped server (.handle worker posted) ((server.touch pio).handled worker pio context posted
        (workerBody received.length context))
  | closing {worker : ℕ} {pio : ContextId} {context : PerIo}
      (present : server.workers[worker]? = some (.closing pio))
      (found : server.pios pio = some context) :
      Stepped server (.closeClient worker) { (server.touch pio).become worker (.erasing pio) with
        sockets := Function.update server.sockets context.sock false }
  | erasing {worker : ℕ} {pio : ContextId} {context : PerIo}
      (present : server.workers[worker]? = some (.erasing pio))
      (found : server.pios pio = some context) :
      Stepped server (.closeClient worker) { (server.touch pio).become worker (.deleting pio) with
        mClients := Function.update server.mClients context.sock none }
  | deleting {worker : ℕ} {pio : ContextId}
      (present : server.workers[worker]? = some (.deleting pio)) :
      Stepped server (.closeClient worker) (((server.touch pio).become worker .waiting).release pio)
  | unsent {data : Bytes} {clientId : Handle} {posted : Bool} :
      Stepped server (.sendData data clientId posted) server
  | send {data : Bytes} {clientId socket : Handle} {posted : Bool} :
      Stepped server (.sendData data clientId posted) (server.send data socket posted)
  | closesocket {socket : Handle} :
      Stepped server (.closesocket socket)
        { server with sockets := Function.update server.sockets socket false }

theorem stepped_of_step {server next : IocpServer} {event : IocpEvent}
    (stepped : server.step event = some next) : Stepped server event next := by
  cases event with
  | accept client =>
      rcases Option.ite_none_right_eq_some.mp stepped with ⟨⟨idle, free⟩, same⟩
      exact Option.some.inj same ▸ .accept idle free
  | list =>
      simp only [step] at stepped
      split at stepped
      · rename_i accepted
        exact Option.some.inj stepped ▸ .list accepted
      · simp at stepped
  | postFirst posted =>
      simp only [step] at stepped
      split at stepped
      · rename_i made
        exact Option.some.inj stepped ▸ .postFirst made
      · simp at stepped
  | dequeue worker pio received =>
      simp only [step] at stepped
      split at stepped
      · rename_i present found
        rcases Option.ite_none_right_eq_some.mp stepped with ⟨free, same⟩
        exact Option.some.inj same ▸ .dequeue present found free.1 free.2
      · simp at stepped
  | dequeueFailed worker pio =>
      simp only [step] at stepped
      split at stepped
      · rename_i present
        rcases Option.ite_none_right_eq_some.mp stepped with ⟨posted, same⟩
        exact Option.some.inj same ▸ .dequeueFailed present posted
      · simp at stepped
  | handle worker posted =>
      simp only [step] at stepped
      split at stepped
      · rename_i present
        split at stepped
        · rename_i found
          exact Option.some.inj stepped ▸ .handle present found
        · simp at stepped
      · simp at stepped
  | closeClient worker =>
      simp only [step] at stepped
      split at stepped
      · rename_i present
        rcases Option.map_eq_some_iff.mp stepped with ⟨context, found, rfl⟩
        exact .closing present found
      · rename_i present
        rcases Option.map_eq_some_iff.mp stepped with ⟨context, found, rfl⟩
        exact .erasing present found
      · rename_i present
        exact Option.some.inj stepped ▸ .deleting present
      · simp at stepped
  | sendData data clientId posted =>
      rcases Option.some.inj stepped with rfl
      simp only [sendData]
      split
      · exact .unsent
      · exact .send
  | closesocket socket => exact Option.some.inj stepped ▸ .closesocket

end IocpServer

def iocpServer : Machine IocpServer IocpEvent := ⟨IocpServer.step⟩

namespace IocpServer

/-! ## Who has a context -/

/-- How many threads have the context in hand: the accept loop, or workers. -/
def holders (server : IocpServer) (pio : ContextId) : ℕ :=
  server.workers.countP (Stage.holds pio) + if server.acceptor = .posting pio then 1 else 0

/-- The operations on the context, the threads that have it in hand, and its releases. -/
def tokens (server : IocpServer) (pio : ContextId) : ℕ :=
  server.outstanding pio + server.holders pio + server.released pio

/-- A context is in one hand, of the kernel or a thread, until it is released, and is not touched
any more. -/
structure Owned (server : IocpServer) : Prop where
  once : ∀ pio, server.tokens pio ≤ 1
  fresh : ∀ pio, server.nextPio ≤ pio → server.tokens pio = 0 ∧ server.pios pio = none
  untouched : server.stale = []

theorem owned_start (workers : ℕ) : (start workers).Owned where
  once pio := by simp [tokens, holders, start, Stage.holds, List.countP_replicate]
  fresh pio := by simp [tokens, holders, start, Stage.holds, List.countP_replicate]
  untouched := rfl

section Step

variable {server next : IocpServer} {event : IocpEvent} {worker : ℕ} {old : Stage}

theorem countP_become (present : server.workers[worker]? = some old) (new : Stage)
    (pio : ContextId) :
    (server.workers.set worker new).countP (Stage.holds pio) + (old.holds pio).toNat =
      server.workers.countP (Stage.holds pio) + (new.holds pio).toNat := by
  rcases List.getElem?_eq_some_iff.mp present with ⟨bound, same⟩
  have positive : (old.holds pio).toNat ≤ server.workers.countP (Stage.holds pio) := by
    cases holds : old.holds pio with
    | false => exact Nat.zero_le _
    | true => exact List.countP_pos_iff.mpr ⟨old, List.mem_of_getElem? present, holds⟩
  rw [List.countP_set bound, same]
  cases oldHolds : old.holds pio <;> cases newHolds : new.holds pio <;>
    simp only [oldHolds, Bool.toNat_true, Bool.toNat_false, if_true, if_false,
      Bool.false_eq_true] at positive ⊢ <;> omega

theorem holders_pos {stage : Stage} (pio : ContextId)
    (present : server.workers[worker]? = some stage) (holds : stage.holds pio = true) :
    0 < server.holders pio := by
  have counted : 0 < server.workers.countP (Stage.holds pio) :=
    List.countP_pos_iff.mpr ⟨stage, List.mem_of_getElem? present, holds⟩
  simp only [holders]
  omega

theorem Owned.stale_touch (owned : server.Owned) {pio : ContextId}
    (used : 0 < server.outstanding pio + server.holders pio) : (server.touch pio).stale = [] := by
  have once := owned.once pio
  simp only [tokens] at once
  simp only [touch]
  rw [if_neg (by omega)]
  exact owned.untouched

/-- No context is made, and none gets into a second hand. -/
theorem Owned.pass (owned : server.Owned) (le : ∀ pio, next.tokens pio ≤ server.tokens pio)
    (nextPio : next.nextPio = server.nextPio)
    (pios : ∀ pio, server.pios pio = none → next.pios pio = none) (untouched : next.stale = []) :
    next.Owned where
  once pio := (le pio).trans (owned.once pio)
  fresh pio later := by
    rcases owned.fresh pio (nextPio ▸ later) with ⟨nothing, absent⟩
    exact ⟨Nat.le_zero.mp (nothing ▸ le pio), pios pio absent⟩
  untouched := untouched

/-- A context is made and is in one hand. -/
theorem Owned.make (owned : server.Owned) (made : next.tokens server.nextPio = 1)
    (others : ∀ pio, pio ≠ server.nextPio →
      next.tokens pio = server.tokens pio ∧ next.pios pio = server.pios pio)
    (nextPio : next.nextPio = server.nextPio + 1) (untouched : next.stale = server.stale) :
    next.Owned where
  once pio := by
    by_cases same : pio = server.nextPio
    · rw [same, made]
    · rw [(others pio same).1]
      exact owned.once pio
  fresh pio later := by
    rw [nextPio] at later
    have old : pio ≠ server.nextPio := Nat.ne_of_gt later
    rw [(others pio old).1, (others pio old).2]
    exact owned.fresh pio (Nat.le_of_succ_le later)
  untouched := untouched.trans owned.untouched

theorem update_ne_none {pios : ContextId → Option PerIo} {pio other : ContextId}
    {context before : PerIo} (found : pios pio = some before) (absent : pios other = none) :
    Function.update pios pio (some context) other = none := by
  have different : other ≠ pio := by
    rintro rfl
    simp [found] at absent
  rw [Function.update_of_ne different]
  exact absent

/-- A worker moves on, and at most one context changes hands with it. -/
theorem Owned.become (owned : server.Owned) (pio : ContextId)
    (present : server.workers[worker]? = some old) {new : Stage}
    (workers : next.workers = server.workers.set worker new)
    (acceptor : next.acceptor = server.acceptor) (nextPio : next.nextPio = server.nextPio)
    (pios : ∀ other, server.pios other = none → next.pios other = none)
    (untouched : next.stale = [])
    (elsewhere : ∀ other, other ≠ pio → next.outstanding other = server.outstanding other ∧
      next.released other = server.released other ∧ new.holds other = old.holds other)
    (here : next.outstanding pio + (new.holds pio).toNat + next.released pio ≤
      server.outstanding pio + (old.holds pio).toNat + server.released pio) :
    next.Owned := by
  apply owned.pass ?_ nextPio pios untouched
  intro other
  have counted := countP_become present new other
  simp only [tokens, holders, workers, acceptor]
  by_cases same : other = pio
  · subst same
    omega
  · rcases elsewhere other same with ⟨outstanding, released, holds⟩
    rw [outstanding, released]
    rw [holds] at counted
    omega

theorem Owned.handled (owned : server.Owned) {pio : ContextId} {context : PerIo}
    {received : Bytes} {posted : Bool} {effect : Effect}
    (present : server.workers[worker]? = some (.handling pio received))
    (found : server.pios pio = some context) :
    (server.handled worker pio context posted effect).Owned := by
  have free (other : ContextId) (different : other ≠ pio) :
      (Stage.handling pio received).holds other = false := by
    simp [Stage.holds, Ne.symm different]
  cases effect with
  | closeClient =>
      refine owned.become pio present rfl rfl rfl (fun _ absent => absent) owned.untouched ?_ ?_
      · exact fun other different => ⟨rfl, rfl, rfl⟩
      · exact le_rfl
  | recvBody changed =>
      cases posted with
      | true =>
          refine owned.become pio present rfl rfl rfl (fun _ => update_ne_none found)
            owned.untouched ?_ ?_
          · intro other different
            exact ⟨Function.update_of_ne different _ _, rfl, (free other different).symm⟩
          · simp [IocpServer.handled, post, put, IocpServer.become, Stage.holds]
      | false =>
          refine owned.become pio present rfl rfl rfl (fun _ => update_ne_none found)
            owned.untouched ?_ ?_
          · exact fun other different => ⟨rfl, rfl, rfl⟩
          · exact le_rfl
  | submit task changed =>
      refine owned.become pio present rfl rfl rfl (fun _ => update_ne_none found)
        owned.untouched ?_ ?_
      · intro other different
        exact ⟨Function.update_of_ne different _ _, rfl, (free other different).symm⟩
      · cases posted <;>
          simp [IocpServer.handled, post, put, report, IocpServer.become, Stage.holds]
  | release =>
      refine owned.become pio present rfl rfl rfl (fun _ absent => absent) owned.untouched ?_ ?_
      · intro other different
        exact ⟨rfl, Function.update_of_ne different _ _, (free other different).symm⟩
      · simp [IocpServer.handled, IocpServer.release, IocpServer.become, Stage.holds]
        omega
  | nothing =>
      refine owned.become pio present rfl rfl rfl (fun _ absent => absent) owned.untouched ?_ ?_
      · exact fun other different => ⟨rfl, rfl, (free other different).symm⟩
      · simp [IocpServer.handled, IocpServer.become, Stage.holds]

/-- A context that is in someone's hand is not released. -/
theorem Owned.touch (owned : server.Owned) (pio : ContextId)
    (used : 0 < server.outstanding pio + server.holders pio) : (server.touch pio).Owned where
  once := owned.once
  fresh := owned.fresh
  untouched := owned.stale_touch used

theorem Owned.touch_of_handling (owned : server.Owned) {pio : ContextId} {received : Bytes}
    (present : server.workers[worker]? = some (.handling pio received)) :
    (server.touch pio).Owned := by
  have held := holders_pos pio present (by simp [Stage.holds])
  exact owned.touch pio (by omega)

theorem Owned.step (owned : server.Owned) (stepped : server.step event = some next) :
    next.Owned := by
  cases stepped_of_step stepped with
  | accept idle =>
      refine owned.pass (fun pio => ?_) rfl (fun _ absent => absent) owned.untouched
      simp [tokens, holders, IocpServer.accept, idle]
  | @list client accepted =>
      rcases owned.fresh server.nextPio le_rfl with ⟨nothing, _⟩
      simp only [tokens, holders] at nothing
      apply owned.make
      · simp only [tokens, holders, IocpServer.list, put, if_true]
        omega
      · intro pio old
        refine ⟨?_, Function.update_of_ne old _ _⟩
        simp [tokens, holders, IocpServer.list, put, accepted, Ne.symm old]
      · rfl
      · rfl
  | @postFirst pio posted made =>
      have held : 0 < server.holders pio := by
        simp [holders, made]
      apply owned.pass
      · intro other
        by_cases same : other = pio
        · subst same
          cases posted with
          | false => simp [tokens, holders, made, post, IocpServer.touch]
          | true => simp [tokens, holders, made, post, IocpServer.touch]; omega
        · simp [tokens, holders, made, post, IocpServer.touch, Function.update_of_ne same]
      · rfl
      · exact fun _ absent => absent
      · exact owned.stale_touch (by omega)
  | @dequeue worker pio context received present found posted fits =>
      refine owned.become pio present rfl rfl rfl (fun _ => update_ne_none found)
        (owned.stale_touch (by omega)) ?_ ?_
      · intro other different
        exact ⟨Function.update_of_ne different _ _, rfl, by simp [Stage.holds, Ne.symm different]⟩
      · simp [IocpServer.dequeue, Stage.holds, IocpServer.become, put, IocpServer.touch]
        omega
  | @dequeueFailed worker pio present posted =>
      refine owned.become pio present rfl rfl rfl (fun _ absent => absent)
        (owned.stale_touch (by omega)) ?_ ?_
      · intro other different
        exact ⟨Function.update_of_ne different _ _, rfl, rfl⟩
      · simp [IocpServer.dequeueFailed, Stage.holds, IocpServer.become, IocpServer.touch]
  | @handle worker pio context received posted present found =>
      exact (owned.touch_of_handling present).handled present found
  | @closing worker pio context present found =>
      have held := holders_pos pio present (by simp [Stage.holds])
      refine owned.become pio present rfl rfl rfl (fun _ absent => absent)
        (owned.stale_touch (by omega)) ?_ ?_
      · exact fun other different => ⟨rfl, rfl, rfl⟩
      · exact le_rfl
  | @erasing worker pio context present found =>
      have held := holders_pos pio present (by simp [Stage.holds])
      refine owned.become pio present rfl rfl rfl (fun _ absent => absent)
        (owned.stale_touch (by omega)) ?_ ?_
      · exact fun other different => ⟨rfl, rfl, rfl⟩
      · exact le_rfl
  | @deleting worker pio present =>
      have held := holders_pos pio present (by simp [Stage.holds])
      refine owned.become pio present rfl rfl rfl (fun _ absent => absent)
        (owned.stale_touch (by omega)) ?_ ?_
      · intro other different
        exact ⟨rfl, Function.update_of_ne different _ _, by simp [Stage.holds, Ne.symm different]⟩
      · simp [IocpServer.release, IocpServer.become, IocpServer.touch, Stage.holds]
        omega
  | unsent => exact owned
  | @send data clientId socket posted =>
      rcases owned.fresh server.nextPio le_rfl with ⟨nothing, _⟩
      simp only [tokens, holders] at nothing
      apply owned.make
      · cases posted with
        | false => simp [tokens, holders, IocpServer.send, IocpServer.release, put]; omega
        | true => simp [tokens, holders, IocpServer.send, post, put]; omega
      · intro pio old
        cases posted <;>
          simp [tokens, holders, IocpServer.send, post, IocpServer.release, put, old]
      · cases posted <;> rfl
      · cases posted <;> rfl
  | closesocket =>
      exact ⟨owned.once, owned.fresh, owned.untouched⟩

end Step

/-- In every run a context is released at most once and is not touched after that. -/
theorem owned_of_run {workers : ℕ} {server : IocpServer} {events : List IocpEvent}
    (reached : iocpServer.run (start workers) events = some server) : server.Owned :=
  iocpServer.run_invariant_of_step Owned (fun owned stepped => owned.step stepped)
    (owned_start workers) reached

end IocpServer

end InstanceMessage
