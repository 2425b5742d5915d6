import InstanceMessage.Client.Downlink
import InstanceMessage.Server.ProcessRefinement
import InstanceMessage.System

/-!
# The server process and its clients

The process of the server, with its workers and their contexts, and a client at
the other end of every connection. Between them there is nothing but bytes. What
a kernel sends goes on its way as `TcpClient::sendData` writes it, and a worker
that gets a completion of a receive takes some of it. What `WSASend` takes for an
open connection comes to the receiving thread of its client, which cuts it
into packets; these wait in the event loop for `slot_transmitData`.

A client is numbered by the connection that `accept` is going to return for it,
and may write before it does.
-/

namespace InstanceMessage

open Library

/-- The handle that `accept` returns in the step. -/
def ProcessEvent.opened : ProcessEvent → Option Handle
  | .loop (.accept client) => some client
  | _ => none

namespace Process

/-- The bytes that a worker receives in the step, and their connection. -/
def arrival (process : Process) : ProcessEvent → Option (ConnId × Bytes)
  | .loop (.dequeue _ pio received) =>
      (process.net.receiver pio).map fun _ => (process.connOf pio, received)
  | _ => none

/-- What a handler sends in the step to a handle in `m_clients`, and whether `WSASend` takes it. -/
def sending (process : Process) : ProcessEvent → Option (Handle × Bytes × Bool)
  | .kernel event =>
      match process.service.acting event with
      | some (.sendData data clientId) =>
          (process.net.mClients clientId).map fun socket => (socket, data, event.takes)
      | _ => none
  | _ => none

end Process

structure Deployment where
  process : Process
  client : ConnId → CKernel := fun _ => {}
  /-- The connection that is open under the handle. -/
  connected : Handle → Option ConnId := fun _ => none
  /-- What the client has written and no worker has received. -/
  uplink : ConnId → Bytes := fun _ => []
  /-- The receiving thread of the client; its `rest` is on the way. -/
  receiver : ConnId → RecvData := fun _ => .start []
  /-- How many of the packets that the thread has handed over the client has dealt with. -/
  dealt : ConnId → ℕ := fun _ => 0

inductive DeploymentEvent
  | server (event : ProcessEvent)
  | user (conn : ConnId) (action : UserAction)
  /-- A `recv` of the receiving thread returns so many bytes. -/
  | recv (conn : ConnId) (bytes : ℕ)
  | recvFails (conn : ConnId)
  /-- The event loop of the client takes the next packet. -/
  | transmitData (conn : ConnId)

namespace Deployment

def start (workers threadCount : ℕ) (tUser : List UserRow) (tFriend : List (ℤ × ℤ)) :
    Deployment := { process := .start workers threadCount tUser tFriend }

/-- A handle stays that of its connection until it is closed; `accept` opens a new one. -/
def connect (deployment : Deployment) (event : ProcessEvent) (process : Process) :
    Handle → Option ConnId := fun socket =>
  if process.net.sockets socket then
    if event.opened = some socket then some deployment.process.service.server.nextConn
    else deployment.connected socket
  else none

def send (deployment : Deployment) (socket : Handle) (data : Bytes) (posted : Bool) :
    Deployment :=
  match deployment.connected socket, posted with
  | some conn, true =>
      { deployment with
        receiver := Function.update deployment.receiver conn
          ((deployment.receiver conn).arrive (IocpTcpServer.sendData data)) }
  | _, _ => deployment

/-- What the step of the process takes from a client or gives to one. -/
def carry (deployment : Deployment) (event : ProcessEvent) : Option Deployment :=
  match deployment.process.arrival event, deployment.process.sending event with
  | some (conn, received), _ =>
      if received <+: deployment.uplink conn then
        some { deployment with
          uplink := Function.update deployment.uplink conn
            ((deployment.uplink conn).drop received.length) }
      else none
  | none, some (socket, data, posted) => some (deployment.send socket data posted)
  | none, none => some deployment

def step (qt : Qt) (deployment : Deployment) : DeploymentEvent → Option Deployment
  | .server event =>
      (deployment.process.step event).bind fun process =>
        (deployment.carry event).map fun carried =>
          { carried with process := process, connected := deployment.connect event process }
  | .user conn action =>
      ((deployment.client conn).act qt action).map fun (kernel, packet) =>
        { deployment with
          client := Function.update deployment.client conn kernel
          uplink := Function.update deployment.uplink conn
            (deployment.uplink conn ++ TcpClient.stream packet.toList) }
  | .recv conn bytes =>
      if (deployment.client conn).exited then none
      else ((deployment.receiver conn).recv bytes).map fun receiver =>
        { deployment with receiver := Function.update deployment.receiver conn receiver }
  | .recvFails conn =>
      if (deployment.client conn).exited then none
      else some { deployment with
        receiver := Function.update deployment.receiver conn (deployment.receiver conn).fail }
  | .transmitData conn =>
      ((deployment.receiver conn).transmitted[deployment.dealt conn]?).bind fun packet =>
        ((deployment.client conn).slotTransmitData qt packet).map fun kernel =>
          { deployment with
            client := Function.update deployment.client conn kernel
            dealt := Function.update deployment.dealt conn (deployment.dealt conn + 1) }

/-- What the operating systems are relied on for. A send that has come to a worker has transferred
a byte; a client gets the four bytes of a length in one piece, and its connection ends between two
packets. -/
def Orderly (deployment : Deployment) : DeploymentEvent → Prop
  | .server event => deployment.process.Transfers event
  | .recv conn bytes => (deployment.receiver conn).phase = .length → bytes = 4
  | .recvFails conn => (deployment.receiver conn).phase = .length
  | .user _ _ | .transmitData _ => True

end Deployment

def deployment (qt : Qt) : Machine Deployment DeploymentEvent := ⟨Deployment.step qt⟩

end InstanceMessage
