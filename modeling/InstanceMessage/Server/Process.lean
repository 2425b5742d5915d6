import InstanceMessage.Server.Service
import InstanceMessage.Server.Streams

/-!
# The server process

The workers of `IOCPTcpServer` with their contexts, the thread pool and the
handlers in one machine: bytes arrive on the connections, a worker that has a
whole body submits it to the pool, and what a handler sends or closes is done
by the network layer. The kernel's tables, its tasks and the pool are those of
`Service`; the connections are those of `IocpServer`, and the tables that
`Service` has for them stay empty.
-/

namespace InstanceMessage

open Library

/-- A step of the accept loop or of a worker. -/
def IocpEvent.isLoop : IocpEvent → Bool
  | .accept _ | .list | .postFirst _ | .dequeue _ _ _ | .dequeueFailed _ _ | .handle _ _ => true
  | .closeClient _ => true
  | .sendData _ _ _ | .closesocket _ => false

/-- A step of a pool thread, or of a submit call that has pushed its task. -/
def ServiceEvent.isKernel : ServiceEvent → Bool
  | .notify _ | .run _ _ | .spurious _ | .act _ _ | .dealt _ => true
  | .network _ | .receive _ _ => false

/-- `WSASend` takes what the step sends. -/
def ServiceEvent.takes : ServiceEvent → Bool
  | .act _ outcome => outcome.takes
  | _ => true

/-- What a handler asks of the network layer; `posted` says whether `WSASend` takes a packet. -/
def Action.request (posted : Bool) : Action → Option IocpEvent
  | .sendData data clientId => some (.sendData data clientId posted)
  | .closesocket socket => some (.closesocket socket)
  | _ => none

/-- What the worker submits when it goes through the body of its loop. -/
def IocpServer.submission (server : IocpServer) : IocpEvent → Option (ContextId × TaskData)
  | .handle worker _ =>
      match server.workers[worker]? with
      | some (.handling pio received) =>
          match server.pios pio with
          | some context =>
              match workerBody received.length context with
              | .submit task _ => some (pio, task)
              | _ => none
          | none => none
      | _ => none
  | _ => none

/-- The action that the thread performs next. -/
def Service.acting (service : Service) : ServiceEvent → Option Action
  | .act thread _ =>
      (service.position thread).bind fun index =>
        service.server.tasks[index]?.bind fun task =>
          match task.prog with
          | .act action _ => some action
          | .ret _ => none
  | _ => none

structure Process where
  net : IocpServer
  service : Service
  /-- The connection for which the receive context has been made. -/
  connOf : ContextId → ConnId := fun _ => 0

inductive ProcessEvent
  | loop (event : IocpEvent)
  | kernel (event : ServiceEvent)

namespace Process

def start (workers threadCount : ℕ) (tUser : List UserRow) (tFriend : List (ℤ × ℤ)) : Process :=
  { net := .start workers, service := .start threadCount tUser tFriend }

/-- A connection has been accepted. -/
def accepted (process : Process) (net : IocpServer) : Process :=
  { process with
    net := net
    service := { process.service with
      server := { process.service.server with nextConn := process.service.server.nextConn + 1 } } }

/-- The context of the connection accepted last has been made. -/
def listed (process : Process) (net : IocpServer) : Process :=
  { process with
    net := net
    connOf :=
      Function.update process.connOf process.net.nextPio (process.service.server.nextConn - 1) }

/-- A packet has been submitted to the pool. -/
def submit (process : Process) (net : IocpServer) (pio : ContextId) (task : TaskData) :
    Option Process :=
  let server := process.service.server
  (process.service.pool.push server.nextTask).map fun pool =>
    { process with
      net := net
      service := ⟨{ server with
        nextTask := server.nextTask + 1
        tasks := server.tasks ++ [⟨server.nextTask, process.connOf pio, task.from_, task.data,
          dealData task.data task.from_⟩] }, pool⟩ }

def loop (process : Process) (event : IocpEvent) (net : IocpServer) : Option Process :=
  match event with
  | .accept _ => some (process.accepted net)
  | .list => some (process.listed net)
  | _ =>
      match process.net.submission event with
      | none => some { process with net := net }
      | some (pio, task) => process.submit net pio task

def step (process : Process) (event : ProcessEvent) : Option Process :=
  if process.service.server.halted then none
  else match event with
    | .loop event =>
        if event.isLoop then (process.net.step event).bind (process.loop event) else none
    | .kernel event =>
        if event.isKernel then
          (process.service.step event).bind fun service =>
            match (process.service.acting event).bind (Action.request event.takes) with
            | none => some { process with service := service }
            | some request =>
                (process.net.step request).map fun net =>
                  { process with net := net, service := service }
        else none

end Process

def process : Machine Process ProcessEvent := ⟨Process.step⟩

end InstanceMessage
