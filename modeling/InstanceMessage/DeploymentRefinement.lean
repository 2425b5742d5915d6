import InstanceMessage.Deployment
import InstanceMessage.Legibility
import InstanceMessage.Server.Uplinks

/-!
# The deployed program is the system of packets

`System` has packets where the deployment has bytes. A step of the deployment is
matched by a run of it in which the users do the same. The streams decide which
packet is meant: one that is submitted is the first one in flight on its
connection, and one that a receiving thread hands over is the next one queued to
its client.
-/

namespace InstanceMessage

open Library

/-! ## What a pool thread does to the connections -/

namespace State

/-- What has been queued when the action, if there is one, has been performed. -/
def queuedBy (state : State) (taken : Bool) : Option Action → List (ConnId × Bytes)
  | some (.sendData data clientId) => (state.sendData data clientId taken).queued
  | _ => state.queued

theorem queued_of_perform {state after : State} {action : Action} {outcome : Outcome}
    {answer : action.Answer} (performed : state.perform action outcome = some (after, answer)) :
    after.queued = state.queuedBy outcome.takes (some action) := by
  cases action with
  | sendData =>
      rcases Prod.mk.inj (Option.some.inj performed) with ⟨rfl, _⟩
      rfl
  | _ => exact ((performs_of_perform performed).queues_of_ne_sendData (by simp)).2

theorem eq_of_accept {state next : State} {client : Handle}
    (stepped : state.step (.accept client) = some next) : next = state.accept client := by
  cases stepped_of_step stepped with
  | accept => rfl

theorem eq_of_list {state next : State} {conn : ConnId}
    (stepped : state.step (.list conn) = some next) : next = state.list conn := by
  cases stepped_of_step stepped with
  | list => rfl

theorem eq_of_receive {state next : State} {conn : ConnId} {data : Bytes}
    (stepped : state.step (.receive conn data) = some next) : next = state.receive conn data := by
  cases stepped_of_step stepped with
  | receive => rfl

/-- `closeClient` opens no handle and queues nothing. -/
theorem closes_of_step {state next : State} {conn : ConnId} {event : Event}
    (closes : event = .closeSocket conn ∨ event = .eraseClient conn)
    (stepped : state.step event = some next) :
    event.isReceive = false ∧ next.queued = state.queued ∧
      ∀ socket, next.sockets socket = none ∨ next.sockets socket = state.sockets socket := by
  rcases closes with rfl | rfl
  · cases stepped_of_step stepped with
    | closeSocket =>
        refine ⟨rfl, rfl, fun socket => ?_⟩
        by_cases same : socket = state.handleOf conn
        · exact Or.inl (by simp [State.closeSocket, same])
        · exact Or.inr (Function.update_of_ne same _ _)
  · cases stepped_of_step stepped with
    | eraseClient => exact ⟨rfl, rfl, fun socket => Or.inr rfl⟩

/-- An action opens no handle. -/
theorem SameConnections.kept {state after : State} {closed : Option Handle}
    (connections : SameConnections closed state after) (socket : Handle) :
    after.sockets socket = none ∨ after.sockets socket = state.sockets socket := by
  rw [connections.sockets]
  cases closed with
  | none => exact Or.inr rfl
  | some gone =>
      by_cases same : socket = gone
      · exact Or.inl (by simp [same])
      · exact Or.inr (Function.update_of_ne same _ _)

end State

namespace Service

variable {service next : Service} {event : ServiceEvent}

/-- A step of a pool thread leaves the server as it is, performs an action, or finishes a task. -/
theorem server_of_kernel (kernel : event.isKernel = true)
    (stepped : InstanceMessage.service.step service event = some next) :
    (service.acting event = none ∧ next.server = service.server) ∨
    (∃ thread outcome index, event = .act thread outcome ∧
      service.position thread = some index ∧
        service.server.step (.act index outcome) = some next.server) ∨
    ∃ index, service.acting event = none ∧
      service.server.step (.finish index) = some next.server := by
  have running : ¬service.server.halted = true := by
    intro halted
    simp [InstanceMessage.service, Service.step, halted] at stepped
  simp only [InstanceMessage.service, Service.step, if_neg running] at stepped
  cases event with
  | network | receive => simp [ServiceEvent.isKernel] at kernel
  | notify | run =>
      rcases Option.map_eq_some_iff.mp stepped with ⟨_, _, rfl⟩
      exact Or.inl ⟨rfl, rfl⟩
  | spurious => exact Or.inl ⟨rfl, Option.some.inj stepped ▸ rfl⟩
  | act thread outcome =>
      rcases Option.bind_eq_some_iff.mp stepped with ⟨index, found, rest⟩
      rcases Option.map_eq_some_iff.mp rest with ⟨after, moved, rfl⟩
      exact Or.inr (Or.inl ⟨thread, outcome, index, rfl, found, moved⟩)
  | dealt thread =>
      rcases Option.bind_eq_some_iff.mp stepped with ⟨index, _, rest⟩
      rcases Option.bind_eq_some_iff.mp rest with ⟨after, moved, rest⟩
      rcases Option.map_eq_some_iff.mp rest with ⟨_, _, rfl⟩
      exact Or.inr (Or.inr ⟨index, rfl, moved⟩)

/-- A step of a pool thread is at most one of the server, and receives nothing. -/
theorem exists_run_of_kernel (kernel : event.isKernel = true)
    (stepped : InstanceMessage.service.step service event = some next) :
    ∃ events : List Event, (∀ event ∈ events, event.isReceive = false) ∧
      InstanceMessage.server.run service.server events = some next.server := by
  rcases server_of_kernel kernel stepped with
    ⟨_, same⟩ | ⟨_, outcome, index, _, _, moved⟩ | ⟨index, _, moved⟩
  · exact ⟨[], by simp, congrArg some same.symm⟩
  · exact ⟨[.act index outcome], by simp [Event.isReceive],
      InstanceMessage.server.run_cons_eq_some.mpr ⟨_, moved, rfl⟩⟩
  · exact ⟨[.finish index], by simp [Event.isReceive],
      InstanceMessage.server.run_cons_eq_some.mpr ⟨_, moved, rfl⟩⟩

theorem server_of_network {event : Event}
    (stepped : InstanceMessage.service.step service (.network event) = some next) :
    service.server.step event = some next.server := by
  rcases Option.ite_none_left_eq_some.mp stepped with ⟨_, stepped⟩
  rcases Option.ite_none_right_eq_some.mp stepped with ⟨_, mapped⟩
  rcases Option.map_eq_some_iff.mp mapped with ⟨server, moved, rfl⟩
  exact moved

theorem server_of_receive {conn : ConnId} {data : Bytes}
    (stepped : InstanceMessage.service.step service (.receive conn data) = some next) :
    service.server.step (.receive conn data) = some next.server := by
  rcases Option.ite_none_left_eq_some.mp stepped with ⟨_, stepped⟩
  rcases Option.bind_eq_some_iff.mp stepped with ⟨server, moved, rest⟩
  rcases Option.map_eq_some_iff.mp rest with ⟨_, _, rfl⟩
  exact moved

theorem queued_of_kernel (kernel : event.isKernel = true)
    (stepped : InstanceMessage.service.step service event = some next) :
    next.server.queued = service.server.queuedBy event.takes (service.acting event) := by
  rcases server_of_kernel kernel stepped with
    ⟨silent, same⟩ | ⟨thread, outcome, index, rfl, found, moved⟩ | ⟨index, silent, moved⟩
  · rw [silent, same]
    rfl
  · generalize next.server = after at moved
    cases State.stepped_of_step moved with
    | @perform _ _ task action rest after answer present shape goesOn performed =>
        have acting : service.acting (.act thread outcome) = some action := by
          simp [Service.acting, found, present, shape]
        rw [acting]
        have queued := State.queued_of_perform performed
        exact queued
    | @halt _ _ task action rest present shape stops =>
        have acting : service.acting (.act thread outcome) = some action := by
          simp [Service.acting, found, present, shape]
        rw [acting]
        cases action with
        | exit | abort => rfl
        | _ => exact stops.elim
  · rw [silent]
    generalize next.server = after at moved
    cases State.stepped_of_step moved with
    | finish => rfl

theorem connections_of_kernel (kernel : event.isKernel = true)
    (stepped : InstanceMessage.service.step service event = some next) :
    State.SameConnections ((service.acting event).bind State.closedBy) service.server
      next.server := by
  have same : State.SameKernel service.server service.server :=
    ⟨.refl _, rfl, rfl, rfl, rfl, rfl⟩
  rcases step_of_kernel kernel rfl same stepped with ⟨other, otherStepped, _, _, connections⟩
  rw [Option.some.inj (stepped.symm.trans otherStepped)]
  exact connections

end Service

/-! ## What a step of the process does to the contexts -/

namespace Process

variable {before next : Process}

theorem net_of_loop {event : IocpEvent} (unlisted : event ≠ .list)
    (stepped : before.step (.loop event) = some next) :
    before.net.step event = some next.net ∧ next.connOf = before.connOf := by
  rcases Option.ite_none_left_eq_some.mp stepped with ⟨_, stepped⟩
  rcases Option.ite_none_right_eq_some.mp stepped with ⟨_, moved⟩
  rcases Option.bind_eq_some_iff.mp moved with ⟨net, netStepped, rest⟩
  simp only [loop] at rest
  split at rest
  · rcases Option.some.inj rest with rfl
    exact ⟨netStepped, rfl⟩
  · exact absurd rfl unlisted
  · split at rest
    · rcases Option.some.inj rest with rfl
      exact ⟨netStepped, rfl⟩
    · rcases Option.map_eq_some_iff.mp rest with ⟨pool, _, rfl⟩
      exact ⟨netStepped, rfl⟩

theorem eq_of_list (stepped : before.step (.loop .list) = some next) :
    ∃ client, before.net.step .list = some (before.net.list client) ∧
      next = before.listed (before.net.list client) := by
  rcases Option.ite_none_left_eq_some.mp stepped with ⟨_, stepped⟩
  rcases Option.ite_none_right_eq_some.mp stepped with ⟨_, moved⟩
  rcases Option.bind_eq_some_iff.mp moved with ⟨net, netStepped, rest⟩
  have same := (Option.some.inj rest).symm
  cases IocpServer.stepped_of_step netStepped with
  | list accepted => exact ⟨_, netStepped, same⟩

theorem net_of_kernel {event : ServiceEvent} (stepped : before.step (.kernel event) = some next) :
    next.connOf = before.connOf ∧ (next.net = before.net ∨
      ∃ action request, Action.request event.takes action = some request ∧
        before.net.step request = some next.net) := by
  rcases Option.ite_none_left_eq_some.mp stepped with ⟨_, stepped⟩
  rcases Option.ite_none_right_eq_some.mp stepped with ⟨_, moved⟩
  rcases Option.bind_eq_some_iff.mp moved with ⟨service, _, rest⟩
  split at rest
  · rcases Option.some.inj rest with rfl
    exact ⟨rfl, Or.inl rfl⟩
  · rename_i request asked
    rcases Option.map_eq_some_iff.mp rest with ⟨net, netStepped, rfl⟩
    rcases Option.bind_eq_some_iff.mp asked with ⟨action, _, same⟩
    exact ⟨rfl, Or.inr ⟨action, request, same, netStepped⟩⟩

/-- A handler's request has nothing to do with the receive contexts. -/
theorem feeds_of_kernel {event : ServiceEvent} {uplinks : ContextId → Uplink}
    (feeds : before.net.Feeds uplinks) (owned : before.net.Owned)
    (stepped : before.step (.kernel event) = some next) : next.net.Feeds uplinks := by
  rcases (net_of_kernel stepped).2 with same | ⟨action, request, asked, moved⟩
  · rw [same]
    exact feeds
  · have asks : (∃ data clientId posted, request = .sendData data clientId posted) ∨
        ∃ socket, request = .closesocket socket := by
      cases action with
      | sendData data clientId =>
          exact Or.inl ⟨data, clientId, event.takes, (Option.some.inj asked).symm⟩
      | closesocket socket => exact Or.inr ⟨socket, (Option.some.inj asked).symm⟩
      | _ => simp [Action.request] at asked
    rcases asks with ⟨data, clientId, posted, rfl⟩ | ⟨socket, rfl⟩
    · exact feeds.step owned moved (by simp) (by simp) rfl
    · exact feeds.step owned moved (by simp) (by simp) rfl

/-- A receive context stays one, and that of its connection. -/
def Keeps (before next : Process) : Prop :=
  ∀ pio, before.net.receiver pio ≠ none →
    next.net.receiver pio ≠ none ∧ next.connOf pio = before.connOf pio

/-- A connection without a context had none before. -/
theorem Keeps.unlisted (keeps : before.Keeps next) {conn : ConnId}
    (unlisted : ∀ pio, next.net.receiver pio ≠ none → next.connOf pio ≠ conn) :
    ∀ pio, before.net.receiver pio ≠ none → before.connOf pio ≠ conn := by
  intro pio receives
  rcases keeps pio receives with ⟨still, same⟩
  rw [← same]
  exact unlisted pio still

theorem keeps_of_step {event : ProcessEvent} (owned : before.net.Owned)
    (stepped : before.step event = some next) : before.Keeps next := by
  intro pio receives
  cases event with
  | loop event =>
      by_cases lists : event = .list
      · subst lists
        rcases eq_of_list stepped with ⟨client, netStepped, rfl⟩
        refine ⟨?_, Function.update_of_ne (owned.old_of_receives receives) _ _⟩
        rw [listed, owned.receiver_of_step netStepped receives]
        exact receives
      · rcases net_of_loop lists stepped with ⟨netStepped, connOf⟩
        rw [owned.receiver_of_step netStepped receives, connOf]
        exact ⟨receives, rfl⟩
  | kernel event =>
      rcases net_of_kernel stepped with ⟨connOf, same | ⟨_, request, _, netStepped⟩⟩
      · rw [same, connOf]
        exact ⟨receives, rfl⟩
      · rw [owned.receiver_of_step netStepped receives, connOf]
        exact ⟨receives, rfl⟩

end Process

theorem Process.Mirrors.server {process : Process} {peer : Service}
    (mirrors : process.Mirrors peer) : process.Mirrors ⟨peer.server, process.service.pool⟩ := by
  rw [← mirrors.pool]
  exact mirrors

theorem ProcessEvent.opened_loop {event : IocpEvent} (other : ∀ client, event ≠ .accept client) :
    (ProcessEvent.loop event).opened = none := by
  cases event with
  | accept client => exact absurd rfl (other client)
  | _ => rfl

/-! ## Packets of one connection -/

theorem packetsOf_map (conn other : ConnId) (bodies : List Bytes) :
    packetsOf other (bodies.map fun data => (conn, data)) =
      if conn = other then bodies else [] := by
  by_cases same : conn = other <;>
    simp [packetsOf, same, List.filter_map, Function.comp_def]

/-- The first packet of the connection is found, and the others are left. -/
theorem takeFirst_of_packetsOf {conn : ConnId} {packets : List (ConnId × Bytes)} {data : Bytes}
    {waiting : List Bytes} (first : packetsOf conn packets = data :: waiting) :
    ∃ rest, takeFirst conn packets = some (data, rest) ∧ packetsOf conn rest = waiting ∧
      ∀ other, other ≠ conn → packetsOf other rest = packetsOf other packets := by
  induction packets with
  | nil => simp [packetsOf] at first
  | cons packet packets ih =>
      rcases packet with ⟨sender, sent⟩
      by_cases same : sender = conn
      · subst same
        have found : sent = data ∧ packetsOf sender packets = waiting := by
          simpa [packetsOf] using first
        rcases found with ⟨rfl, rfl⟩
        refine ⟨packets, by simp [takeFirst], rfl, fun other different => ?_⟩
        simp only [packetsOf, List.filter_cons, decide_eq_false (Ne.symm different),
          Bool.false_eq_true, if_false]
      · have later : packetsOf conn packets = data :: waiting := by
          simpa [packetsOf, same] using first
        rcases ih later with ⟨rest, found, left, others⟩
        refine ⟨(sender, sent) :: rest, by simp [takeFirst, same, found], ?_, ?_⟩
        · simpa [packetsOf, same] using left
        · intro other different
          have still := others other different
          by_cases its : sender = other
          · simpa [packetsOf, its] using still
          · simpa [packetsOf, its] using still

namespace System

theorem run_of_server_run (qt : Qt) {before : System} {after : State} {events : List Event}
    (silent : ∀ event ∈ events, event.isReceive = false)
    (moved : InstanceMessage.server.run before.server events = some after) :
    (system qt).run before (events.map .server) = some { before with server := after } := by
  induction events generalizing before with
  | nil => rw [List.map_nil, Machine.run_nil, ← Option.some.inj moved]
  | cons event events ih =>
      rcases InstanceMessage.server.run_cons_eq_some.mp moved with ⟨middle, stepped, rest⟩
      have quiet := silent event List.mem_cons_self
      refine (system qt).run_cons_eq_some.mpr ⟨{ before with server := middle }, ?_,
        ih (fun later member => silent later (List.mem_cons_of_mem _ member)) rest⟩
      simp [system, System.step, quiet, show before.server.step event = some middle from stepped]

end System

/-! ## The streams and the packets -/

/-- What a client may send is no empty packet, and none that a worker would not ask for. -/
theorem length_of_conforming {data : Bytes} (conforms : conforming data = true) :
    1 ≤ data.length ∧ data.length ≤ bodyLimit := by
  simp only [conforming] at conforms
  split at conforms
  · simp at conforms
  · split_ifs at conforms
    · rw [(of_decide_eq_true conforms).1]
      decide
    · rw [(of_decide_eq_true conforms).1]
      decide
    · rw [of_decide_eq_true conforms]
      decide
    · rw [of_decide_eq_true conforms]
      decide
    · rw [(of_decide_eq_true conforms).1]
      decide
    · rw [of_decide_eq_true conforms]
      decide

theorem Sendable.lengths {packet : Bytes} (sendable : Sendable packet) :
    1 ≤ packet.length ∧ packet.length < 2147483648 := by
  rcases sendable with ⟨⟨type, typed, _⟩, bounded⟩
  refine ⟨?_, by omega⟩
  by_contra short
  have empty : packet = [] := List.eq_nil_of_length_eq_zero (by omega)
  have untyped : packetType [] = none := by decide
  rw [empty, untyped] at typed
  simp at typed

/-- What a user does, and the kernel of his client at that time. -/
structure UserDeed where
  conn : ConnId
  kernel : CKernel
  action : UserAction

def System.deeds (system : System) : SystemEvent → List UserDeed
  | .user conn action => [⟨conn, system.client conn, action⟩]
  | _ => []

theorem System.deeds_map_server (qt : Qt) (state : System) (events : List Event) :
    (system qt).outputs System.deeds state (events.map .server) = [] := by
  refine (system qt).outputs_of_silent _ (fun before label member => ?_) state
  rcases List.mem_map.mp member with ⟨event, _, rfl⟩
  rfl

namespace Deployment

def deeds (deployment : Deployment) : DeploymentEvent → List UserDeed
  | .user conn action => [⟨conn, deployment.client conn, action⟩]
  | _ => []

/-- The stream of the connection, with the packets that it stands for. -/
def uplinkOf (deployment : Deployment) (system : System) (conn : ConnId) : Uplink where
  coming := deployment.uplink conn
  submitted := packetsOf conn system.received
  waiting := packetsOf conn system.inFlight

/-- The system of packets is the deployment without its bytes. -/
structure Stands (deployment : Deployment) (system : System) : Prop where
  mirrors : deployment.process.Mirrors ⟨system.server, deployment.process.service.pool⟩
  client : system.client = deployment.client
  delivered : system.delivered = deployment.dealt
  connected : deployment.connected = system.server.sockets
  feeds : deployment.process.net.Feeds fun pio =>
    deployment.uplinkOf system (deployment.process.connOf pio)
  /-- Nothing has come from a connection for which no context has been made. -/
  unlisted : ∀ conn, (∀ pio, deployment.process.net.receiver pio ≠ none →
      deployment.process.connOf pio ≠ conn) →
    packetsOf conn system.received = [] ∧
      deployment.uplink conn = encode (packetsOf conn system.inFlight)
  sends : ∀ conn, RecvData.Follows (system.server.queuedTo conn) (deployment.receiver conn)
  legible : system.AllLegible
  conforms : system.AllConforming

theorem stands_start (workers threadCount : ℕ) (tUser : List UserRow)
    (tFriend : List (ℤ × ℤ)) :
    (start workers threadCount tUser tFriend).Stands (.start tUser tFriend) where
  mirrors := Process.mirrors_start workers threadCount tUser tFriend
  client := rfl
  delivered := rfl
  connected := rfl
  feeds := IocpServer.feeds_start workers _
  unlisted _ _ := ⟨rfl, rfl⟩
  sends _ := RecvData.follows_start
  legible := System.allLegible_start tUser tFriend
  conforms := System.allConforming_start tUser tFriend

section Client

variable {qt : Qt} {deployment next : Deployment} {state : System} {conn : ConnId}

/-- A user of a client does something. -/
theorem Stands.user (stands : deployment.Stands state) {action : UserAction}
    (stepped : deployment.step qt (.user conn action) = some next) :
    ∃ after, (system qt).step state (.user conn action) = some after ∧ next.Stands after := by
  rcases Option.map_eq_some_iff.mp stepped with ⟨⟨kernel, packet⟩, acted, rfl⟩
  have moved : state.step qt (.user conn action) = some { state with
      client := Function.update state.client conn kernel
      inFlight := state.inFlight ++ packet.toList.map fun data => (conn, data) } := by
    simp [System.step, stands.client, acted]
  have conforms := stands.conforms.step stands.legible.ranged (System.stepped_of_step moved)
  have written : TcpClient.stream packet.toList = encode packet.toList := by
    apply TcpClient.stream_eq_encode
    intro data member
    have sent : (conn, data) ∈ state.inFlight ++ packet.toList.map fun data => (conn, data) :=
      List.mem_append_right _ (List.mem_map_of_mem member)
    exact (length_of_conforming (conforms _ (List.mem_append_right _ sent))).1
  have longer (other : ConnId) : packetsOf other (state.inFlight ++
      packet.toList.map fun data => (conn, data)) =
        packetsOf other state.inFlight ++ if conn = other then packet.toList else [] := by
    rw [packetsOf_append, packetsOf_map]
  have coming (other : ConnId) : Function.update deployment.uplink conn
      (deployment.uplink conn ++ TcpClient.stream packet.toList) other =
        deployment.uplink other ++ encode (if conn = other then packet.toList else []) := by
    by_cases same : other = conn
    · subst same
      rw [Function.update_self, written, if_pos rfl]
    · rw [Function.update_of_ne same, if_neg (Ne.symm same)]
      exact (List.append_nil _).symm
  refine ⟨_, moved, stands.mirrors, ?_, stands.delivered, stands.connected, ?_, ?_, stands.sends,
    stands.legible.step moved, conforms⟩
  · simp only [stands.client]
  · have feeds := stands.feeds.write fun pio =>
      if conn = deployment.process.connOf pio then packet.toList else []
    refine feeds.congr fun pio _ => ?_
    simp only [uplinkOf, coming, longer]
  · intro other unlisted
    rcases stands.unlisted other unlisted with ⟨nothing, all⟩
    refine ⟨nothing, ?_⟩
    simp only [coming, longer, encode_append, all]

/-- What is queued are packets that a handler has made, or has passed on. -/
theorem Stands.lengths (stands : deployment.Stands state) :
    ∀ packet ∈ state.server.queuedTo conn, 1 ≤ packet.length ∧ packet.length < 2147483648 :=
  fun _ member => (stands.legible.sendable member).lengths

/-- The receiving thread of a client goes on. -/
theorem Stands.receive (stands : deployment.Stands state) {receiver : RecvData}
    (follows : ∀ sent : List Bytes,
      (∀ packet ∈ sent, 1 ≤ packet.length ∧ packet.length < 2147483648) →
        RecvData.Follows sent (deployment.receiver conn) → RecvData.Follows sent receiver) :
    Stands { deployment with receiver := Function.update deployment.receiver conn receiver }
      state := by
  refine ⟨stands.mirrors, stands.client, stands.delivered, stands.connected, stands.feeds,
    stands.unlisted, fun other => ?_, stands.legible, stands.conforms⟩
  by_cases same : other = conn
  · subst same
    simp only [Function.update_self]
    exact follows _ stands.lengths (stands.sends other)
  · simpa only [Function.update_of_ne same] using stands.sends other

/-- The kernel of a client takes a packet. -/
theorem Stands.transmitData (stands : deployment.Stands state)
    (stepped : deployment.step qt (.transmitData conn) = some next) :
    ∃ after, (system qt).step state (.deliver conn) = some after ∧ next.Stands after := by
  rcases Option.bind_eq_some_iff.mp stepped with ⟨packet, handed, rest⟩
  rcases Option.map_eq_some_iff.mp rest with ⟨kernel, handled, rfl⟩
  have queued : (state.server.queuedTo conn)[state.delivered conn]? = some packet := by
    rcases (stands.sends conn).transmitted_isPrefix with ⟨coming, whole⟩
    rw [← stands.delivered] at handed
    have inside := (List.getElem?_eq_some_iff.mp handed).1
    rw [← whole, List.getElem?_append_left inside]
    exact handed
  have moved : state.step qt (.deliver conn) = some { state with
      client := Function.update state.client conn kernel
      delivered := Function.update state.delivered conn (state.delivered conn + 1) } := by
    simp [System.step, queued, stands.client, handled]
  refine ⟨_, moved, stands.mirrors, ?_, ?_, stands.connected, stands.feeds, stands.unlisted,
    stands.sends, stands.legible.step moved, stands.conforms⟩
  · simp only [stands.client]
  · simp only [stands.delivered]

end Client

section Server

variable {qt : Qt} {deployment next : Deployment} {state : System} {process : Process}
  {server : State}

/-- The handles that are open are those of the same connections. -/
theorem connect_eq {event : ProcessEvent}
    (isOpen : ∀ socket, (server.sockets socket).isSome = process.net.sockets socket)
    (opened : ∀ socket, event.opened = some socket →
      server.sockets socket = some deployment.process.service.server.nextConn)
    (kept : ∀ socket, event.opened ≠ some socket →
      server.sockets socket = none ∨ server.sockets socket = deployment.connected socket) :
    deployment.connect event process = server.sockets := by
  funext socket
  simp only [connect, ← isOpen]
  cases found : server.sockets socket with
  | none => rfl
  | some conn =>
      simp only [Option.isSome_some, if_true]
      by_cases new : event.opened = some socket
      · rw [if_pos new, ← opened socket new, found]
      · rw [if_neg new]
        rcases kept socket new with absent | same
        · simp [found] at absent
        · rw [← same, found]

/-- The same packets are on the way. -/
theorem Stands.become (stands : deployment.Stands state) {connected : Handle → Option ConnId}
    (mirrors : process.Mirrors ⟨server, process.service.pool⟩)
    (connects : connected = server.sockets)
    (feeds : process.net.Feeds fun pio => deployment.uplinkOf state (process.connOf pio))
    (queue : server.queued = state.server.queued) (keeps : deployment.process.Keeps process)
    (legible : System.AllLegible { state with server := server }) :
    Stands { deployment with process := process, connected := connected }
      { state with server := server } where
  mirrors := mirrors
  client := stands.client
  delivered := stands.delivered
  connected := connects
  feeds := feeds
  unlisted conn unlisted := stands.unlisted conn (keeps.unlisted unlisted)
  sends conn := by
    have same : server.queuedTo conn = state.server.queuedTo conn := by
      simp only [State.queuedTo, queue]
    rw [same]
    exact stands.sends conn
  legible := legible
  conforms := stands.conforms

theorem carry_loop {event : IocpEvent}
    (silent : ∀ worker pio received, event ≠ .dequeue worker pio received) :
    deployment.carry (.loop event) = some deployment := by
  cases event with
  | dequeue => exact absurd rfl (silent _ _ _)
  | _ => rfl

/-- The streams of other receive contexts are other ones. -/
theorem Stands.elsewhere (stands : deployment.Stands state) {pio other : ContextId}
    (receives : deployment.process.net.receiver pio ≠ none)
    (receivesOther : deployment.process.net.receiver other ≠ none) (different : other ≠ pio) :
    deployment.process.connOf other ≠ deployment.process.connOf pio :=
  fun same => different (stands.mirrors.carries.distinct receivesOther receives same)

/-- A worker gets a completion. -/
theorem Stands.dequeue (stands : deployment.Stands state) {worker : ℕ} {pio : ContextId}
    {received : Bytes} {carried : Deployment}
    (stepped : deployment.process.net.step (.dequeue worker pio received) = some process.net)
    (connOf : process.connOf = deployment.process.connOf)
    (keeps : deployment.process.Keeps process)
    (mirrors : process.Mirrors ⟨state.server, process.service.pool⟩)
    (carries : deployment.carry (.loop (.dequeue worker pio received)) = some carried)
    {connected : Handle → Option ConnId} (connects : connected = state.server.sockets) :
    Stands { carried with process := process, connected := connected } state := by
  have owned := stands.mirrors.tended.owned
  have ownedNext := mirrors.tended.owned
  cases receiver : deployment.process.net.receiver pio with
  | none =>
      have same : deployment.carry (.loop (.dequeue worker pio received)) = some deployment := by
        simp [carry, Process.arrival, Process.sending, receiver]
      rcases Option.some.inj (same.symm.trans carries) with rfl
      rcases stands.feeds.arrive owned ownedNext stepped (fun receives => absurd receiver receives)
        with ⟨_, feeds⟩
      refine stands.become mirrors connects ?_ rfl keeps stands.legible
      rw [connOf]
      rwa [Function.update_eq_self] at feeds
  | some socket =>
      have receives : deployment.process.net.receiver pio ≠ none := by
        simp [receiver]
      have arrival : deployment.process.arrival (.loop (.dequeue worker pio received)) =
          some (deployment.process.connOf pio, received) := by
        simp [Process.arrival, receiver]
      simp only [carry, arrival, Option.ite_none_right_eq_some, Option.some.injEq] at carries
      rcases carries with ⟨⟨rest, coming⟩, rfl⟩
      have left : (deployment.uplink (deployment.process.connOf pio)).drop received.length =
          rest := by
        rw [← coming, List.drop_left]
      rcases stands.feeds.arrive owned ownedNext stepped (fun _ => coming.symm) with
        ⟨receivers, feeds⟩
      refine ⟨mirrors, stands.client, stands.delivered, connects, ?_, ?_, stands.sends,
        stands.legible, stands.conforms⟩
      · refine feeds.congr fun other receivesOther => ?_
        rw [receivers] at receivesOther
        rw [connOf]
        by_cases same : other = pio
        · subst same
          simp only [uplinkOf, Function.update_self, left]
        · have different := stands.elsewhere receives receivesOther same
          simp only [uplinkOf, Function.update_of_ne same, Function.update_of_ne different]
      · intro conn unlisted
        have unlisted := keeps.unlisted unlisted
        simpa only [Function.update_of_ne (unlisted pio receives).symm] using
          stands.unlisted conn unlisted

variable (qt) in
/-- A worker submits the next packet that the client has written. -/
theorem Stands.submit (stands : deployment.Stands state) {worker : ℕ} {posted : Bool}
    {pio : ContextId} {task : TaskData}
    (stepped : deployment.process.net.step (.handle worker posted) = some process.net)
    (connOf : process.connOf = deployment.process.connOf)
    (keeps : deployment.process.Keeps process)
    (mirrors : process.Mirrors ⟨server, process.service.pool⟩)
    (submits : deployment.process.net.submission (.handle worker posted) = some (pio, task))
    (moved : state.server.step (.receive (deployment.process.connOf pio) task.data) = some server)
    {connected : Handle → Option ConnId} (connects : connected = server.sockets) :
    ∃ after, (system qt).step state (.receive (deployment.process.connOf pio)) = some after ∧
      Stands { deployment with process := process, connected := connected } after := by
  have lengths (packet : Bytes) (member : packet ∈
      packetsOf (deployment.process.connOf pio) state.received ++
        packetsOf (deployment.process.connOf pio) state.inFlight) :
      1 ≤ packet.length ∧ packet.length ≤ bodyLimit := by
    rw [← packetsOf_append] at member
    exact length_of_conforming (stands.conforms _ (mem_packetsOf.mp member))
  rcases stands.feeds.submits stands.mirrors.tended.owned stepped submits lengths with
    ⟨receives, receivers, waiting, first, feeds⟩
  rcases takeFirst_of_packetsOf first with ⟨rest, found, left, others⟩
  rcases takeFirst_eq_some found with ⟨front, back, whole, remaining⟩
  have performed : state.step qt (.receive (deployment.process.connOf pio)) = some { state with
      server := server, inFlight := rest
      received := state.received ++ [(deployment.process.connOf pio, task.data)] } := by
    simp [System.step, found, moved]
  have legible := stands.legible.step performed
  have elsewhere {conn : ConnId} (different : conn ≠ deployment.process.connOf pio) :
      packetsOf conn (state.received ++ [(deployment.process.connOf pio, task.data)]) =
        packetsOf conn state.received := by
    rw [packetsOf_append]
    simp [packetsOf, Ne.symm different]
  refine ⟨_, performed, ?_⟩
  cases State.stepped_of_step moved with
  | receive =>
      refine ⟨mirrors, stands.client, stands.delivered, connects, ?_, ?_, stands.sends, legible,
        stands.conforms.step stands.legible.ranged (System.stepped_of_step performed)⟩
      · refine feeds.congr fun other receivesOther => ?_
        rw [receivers] at receivesOther
        rw [connOf]
        by_cases same : other = pio
        · subst same
          rw [Function.update_self]
          simp only [uplinkOf, left, packetsOf_append]
          simp [packetsOf]
        · have different := stands.elsewhere receives receivesOther same
          rw [Function.update_of_ne same]
          simp only [uplinkOf, elsewhere different, others _ different]
      · intro conn unlisted
        have unlisted := keeps.unlisted unlisted
        have different : conn ≠ deployment.process.connOf pio := (unlisted pio receives).symm
        rw [elsewhere different, others conn different]
        exact stands.unlisted conn unlisted

/-- The context of a connection is made, and its client may have written already. -/
theorem Stands.list (stands : deployment.Stands state) {conn : ConnId}
    (stepped : deployment.process.step (.loop .list) = some process)
    (mirrors : process.Mirrors ⟨server, process.service.pool⟩)
    (nextConn : state.server.nextConn = conn + 1)
    (unlisted : ∀ pio, deployment.process.net.receiver pio ≠ none →
      deployment.process.connOf pio ≠ conn)
    (moved : state.server.step (.list conn) = some server)
    (legible : System.AllLegible { state with server := server })
    {connected : Handle → Option ConnId} (connects : connected = server.sockets) :
    Stands { deployment with process := process, connected := connected }
      { state with server := server } := by
  have keeps := Process.keeps_of_step stands.mirrors.tended.owned stepped
  rcases Process.eq_of_list stepped with ⟨client, _, rfl⟩
  have last : deployment.process.service.server.nextConn - 1 = conn := by
    rw [← stands.mirrors.kernel.nextConn, nextConn, Nat.add_sub_cancel]
  rcases stands.unlisted conn unlisted with ⟨nothing, written⟩
  have feeds := stands.feeds.list mirrors.tended.owned
    (show (deployment.uplinkOf state conn).submitted = [] from nothing) written
  refine stands.become mirrors connects (feeds.congr fun other _ => ?_) ?_ keeps legible
  · by_cases same : other = deployment.process.net.nextPio
    · subst same
      simp only [Process.listed, Function.update_self, last]
    · simp only [Process.listed, Function.update_of_ne same]
  · rw [State.eq_of_list moved]
    rfl

/-- What a handler does is of no consequence for the streams, or it sends a packet to a client. -/
theorem Stands.carry_kernel (stands : deployment.Stands state) {event : ServiceEvent}
    {carried : Deployment} (carries : deployment.carry (.kernel event) = some carried) :
    carried = deployment ∧
        state.server.queuedBy event.takes (deployment.process.service.acting event) =
          state.server.queued ∨
      ∃ data conn, event.takes = true ∧
        carried = { deployment with
          receiver := Function.update deployment.receiver conn
            ((deployment.receiver conn).arrive (IocpTcpServer.sendData data)) } ∧
          state.server.queuedBy event.takes (deployment.process.service.acting event) =
            state.server.queued ++ [(conn, data)] := by
  have clients : state.server.mClients = deployment.process.net.mClients :=
    stands.mirrors.carries.clients
  simp only [carry, Process.arrival] at carries
  cases acting : deployment.process.service.acting event with
  | none =>
      have silent : deployment.process.sending (.kernel event) = none := by
        simp only [Process.sending, acting]
      simp only [silent, Option.some.injEq] at carries
      exact Or.inl ⟨carries.symm, rfl⟩
  | some action =>
      cases action with
      | sendData data clientId =>
          have sending : deployment.process.sending (.kernel event) =
              (deployment.process.net.mClients clientId).map
                fun socket => (socket, data, event.takes) := by
            simp only [Process.sending, acting]
          cases listed : deployment.process.net.mClients clientId with
          | none =>
              simp only [sending, listed, Option.map_none, Option.some.injEq] at carries
              refine Or.inl ⟨carries.symm, ?_⟩
              simp only [State.queuedBy, State.sendData, clients, listed]
          | some socket =>
              simp only [sending, listed, Option.map_some, Option.some.injEq] at carries
              cases connected : deployment.connected socket with
              | none =>
                  refine Or.inl ⟨?_, ?_⟩
                  · rw [← carries]
                    simp only [send, connected]
                  · simp only [State.queuedBy, State.sendData, clients, listed,
                      ← stands.connected, connected]
              | some conn =>
                  cases taken : event.takes with
                  | false =>
                      refine Or.inl ⟨?_, ?_⟩
                      · rw [← carries]
                        simp only [send, connected, taken]
                      · simp [State.queuedBy, State.sendData, clients, listed,
                          ← stands.connected, connected]
                  | true =>
                      refine Or.inr ⟨data, conn, rfl, ?_, ?_⟩
                      · rw [← carries]
                        simp only [send, connected, taken]
                      · simp [State.queuedBy, State.sendData, clients, listed,
                          ← stands.connected, connected]
      | _ =>
          have silent : deployment.process.sending (.kernel event) = none := by
            simp only [Process.sending, acting]
          simp only [silent, Option.some.injEq] at carries
          exact Or.inl ⟨carries.symm, rfl⟩

/-- A pool thread goes on. -/
theorem Stands.kernel (stands : deployment.Stands state) {event : ServiceEvent}
    {carried : Deployment} (stepped : deployment.process.step (.kernel event) = some process)
    (mirrors : process.Mirrors ⟨server, process.service.pool⟩)
    (queue : server.queued =
      state.server.queuedBy event.takes (deployment.process.service.acting event))
    (carries : deployment.carry (.kernel event) = some carried)
    (legible : System.AllLegible { state with server := server })
    {connected : Handle → Option ConnId} (connects : connected = server.sockets) :
    Stands { carried with process := process, connected := connected }
      { state with server := server } := by
  have feeds := Process.feeds_of_kernel stands.feeds stands.mirrors.tended.owned stepped
  rw [← (Process.net_of_kernel stepped).1] at feeds
  have keeps := Process.keeps_of_step stands.mirrors.tended.owned stepped
  rcases stands.carry_kernel carries with ⟨rfl, nothing⟩ | ⟨data, conn, _, rfl, more⟩
  · exact stands.become mirrors connects feeds (queue.trans nothing) keeps legible
  · refine ⟨mirrors, stands.client, stands.delivered, connects, feeds,
      fun other unlisted => stands.unlisted other (keeps.unlisted unlisted), fun other => ?_,
      legible, stands.conforms⟩
    have queued : server.queuedTo other =
        state.server.queuedTo other ++ if conn = other then [data] else [] := by
      rw [State.queuedTo, queue, more, packetsOf_append, packetsOf_singleton]
      rfl
    rw [queued]
    by_cases same : conn = other
    · subst same
      simpa only [if_true, Function.update_self] using (stands.sends conn).arrive data
    · simpa only [if_neg same, List.append_nil, Function.update_of_ne (Ne.symm same)] using
        stands.sends other

/-- A step of the server process is matched by steps in which no user does anything. -/
theorem Stands.serve (stands : deployment.Stands state) {event : ProcessEvent}
    (orderly : deployment.Orderly (.server event))
    (stepped : deployment.step qt (.server event) = some next) :
    ∃ labels after, (system qt).run state labels = some after ∧
      (system qt).outputs System.deeds state labels = [] ∧ next.Stands after := by
  rcases Option.bind_eq_some_iff.mp stepped with ⟨process, processStepped, rest⟩
  rcases Option.map_eq_some_iff.mp rest with ⟨carried, carries, rfl⟩
  rcases stands.mirrors.step orderly processStepped with ⟨peerNext, moves, mirrored⟩
  have mirrors := mirrored.server
  have isOpen := mirrors.carries.sockets
  have number : state.server.nextConn = deployment.process.service.server.nextConn :=
    stands.mirrors.kernel.nextConn
  have keeps := Process.keeps_of_step stands.mirrors.tended.owned processStepped
  have still (socket : Handle) : state.server.sockets socket = deployment.connected socket := by
    rw [stands.connected]
  have performed {event : Event} (silent : event.isReceive = false)
      (moved : state.server.step event = some peerNext.server) :
      (system qt).run state [.server event] = some { state with server := peerNext.server } := by
    have moved : InstanceMessage.server.run state.server [event] = some peerNext.server :=
      InstanceMessage.server.run_cons_eq_some.mpr ⟨_, moved, rfl⟩
    exact System.run_of_server_run qt (by simpa using silent) moved
  cases moves with
  | @unseen event other unlisted quiet =>
      have closed := ProcessEvent.opened_loop other
      have connects : deployment.connect (.loop event) process = state.server.sockets :=
        connect_eq isOpen (by simp [closed]) fun socket _ => Or.inr (still socket)
      rcases Process.net_of_loop unlisted processStepped with ⟨netStepped, connOf⟩
      refine ⟨[], state, rfl, rfl, ?_⟩
      by_cases arrives : ∃ worker pio received, event = .dequeue worker pio received
      · rcases arrives with ⟨worker, pio, received, rfl⟩
        exact stands.dequeue netStepped connOf keeps mirrors carries connects
      · have silent (worker : ℕ) (pio : ContextId) (received : Bytes) :
            event ≠ .dequeue worker pio received :=
          fun same => arrives ⟨worker, pio, received, same⟩
        rcases Option.some.inj ((carry_loop silent).symm.trans carries) with rfl
        have feeds := stands.feeds.step stands.mirrors.tended.owned netStepped unlisted silent quiet
        rw [← connOf] at feeds
        exact stands.become mirrors connects feeds rfl keeps stands.legible
  | @accept client _ moved =>
      rcases Option.some.inj ((carry_loop (by simp)).symm.trans carries) with rfl
      have moved := Service.server_of_network moved
      have made := State.eq_of_accept moved
      have sockets : peerNext.server.sockets =
          Function.update state.server.sockets client (some state.server.nextConn) := by
        rw [made]
        rfl
      have connects : deployment.connect (.loop (.accept client)) process =
          peerNext.server.sockets := by
        refine connect_eq isOpen (fun socket opened => ?_) fun socket other => Or.inr ?_
        · rcases Option.some.inj opened with rfl
          rw [sockets, Function.update_self, number]
        · have other : socket ≠ client := fun same => other (congrArg some same.symm)
          rw [sockets, Function.update_of_ne other]
          exact still socket
      have performed := performed rfl moved
      rcases Process.net_of_loop (by simp) processStepped with ⟨netStepped, connOf⟩
      have feeds := stands.feeds.step stands.mirrors.tended.owned netStepped (by simp) (by simp) rfl
      rw [← connOf] at feeds
      have queue : peerNext.server.queued = state.server.queued := by
        rw [made]
        rfl
      exact ⟨_, _, performed, System.deeds_map_server qt state [_],
        stands.become mirrors connects feeds queue keeps (stands.legible.run performed)⟩
  | @list conn _ nextConn unlisted moved =>
      rcases Option.some.inj ((carry_loop (by simp)).symm.trans carries) with rfl
      have moved := Service.server_of_network moved
      have connects : deployment.connect (.loop .list) process = peerNext.server.sockets := by
        refine connect_eq isOpen (by simp [ProcessEvent.opened]) fun socket _ => Or.inr ?_
        rw [State.eq_of_list moved]
        exact still socket
      have performed := performed rfl moved
      exact ⟨_, _, performed, System.deeds_map_server qt state [_],
        stands.list processStepped mirrors nextConn unlisted moved (stands.legible.run performed)
          connects⟩
  | @close worker event _ closes moved =>
      rcases Option.some.inj ((carry_loop (by simp)).symm.trans carries) with rfl
      rcases closes with ⟨conn, closes⟩
      have moved := Service.server_of_network moved
      rcases State.closes_of_step closes moved with ⟨silent, queue, kept⟩
      have connects : deployment.connect (.loop (.closeClient worker)) process =
          peerNext.server.sockets :=
        connect_eq isOpen (by simp [ProcessEvent.opened]) fun socket _ =>
          (kept socket).imp id fun same => same.trans (still socket)
      have performed := performed silent moved
      rcases Process.net_of_loop (by simp) processStepped with ⟨netStepped, connOf⟩
      have feeds := stands.feeds.step stands.mirrors.tended.owned netStepped (by simp) (by simp) rfl
      rw [← connOf] at feeds
      refine ⟨_, _, performed, System.deeds_map_server qt state [_],
        stands.become mirrors connects feeds queue keeps (stands.legible.run performed)⟩
  | @receive worker posted pio task _ submits moved =>
      rcases Option.some.inj ((carry_loop (by simp)).symm.trans carries) with rfl
      have moved := Service.server_of_receive moved
      rcases Process.net_of_loop (by simp) processStepped with ⟨netStepped, connOf⟩
      have connects : deployment.connect (.loop (.handle worker posted)) process =
          peerNext.server.sockets := by
        refine connect_eq isOpen (by simp [ProcessEvent.opened]) fun socket _ => Or.inr ?_
        rw [State.eq_of_receive moved]
        exact still socket
      rcases stands.submit qt netStepped connOf keeps mirrors submits moved connects with
        ⟨after, performed, stillStands⟩
      refine ⟨[_], after, (system qt).run_cons_eq_some.mpr ⟨_, performed, rfl⟩, ?_, stillStands⟩
      exact (system qt).outputs_cons _ performed
  | @kernel event _ kernel same moved =>
      have connections := Service.connections_of_kernel kernel moved
      have queue := Service.queued_of_kernel kernel moved
      rw [same] at queue
      have connects : deployment.connect (.kernel event) process = peerNext.server.sockets :=
        connect_eq isOpen (by simp [ProcessEvent.opened]) fun socket _ =>
          (connections.kept socket).imp id fun kept => kept.trans (still socket)
      rcases Service.exists_run_of_kernel kernel moved with ⟨events, silent, serverMoved⟩
      have performed := System.run_of_server_run qt silent serverMoved
      exact ⟨_, _, performed, System.deeds_map_server qt state events,
        stands.kernel processStepped mirrors queue carries
          (stands.legible.run performed) connects⟩

end Server

theorem Stands.step {qt : Qt} {before next : Deployment} {state : System} {event : DeploymentEvent}
    (stands : before.Stands state) (orderly : before.Orderly event)
    (stepped : before.step qt event = some next) :
    ∃ labels after, (system qt).run state labels = some after ∧
      (system qt).outputs System.deeds state labels = before.deeds event ∧ next.Stands after := by
  cases event with
  | server event => exact stands.serve orderly stepped
  | user conn action =>
      rcases stands.user stepped with ⟨after, performed, still⟩
      refine ⟨[_], after, (system qt).run_cons_eq_some.mpr ⟨_, performed, rfl⟩, ?_, still⟩
      rw [(system qt).outputs_cons _ performed]
      simp only [System.deeds, deeds, stands.client]
      rfl
  | recv conn bytes =>
      rcases Option.ite_none_left_eq_some.mp stepped with ⟨_, stepped⟩
      rcases Option.map_eq_some_iff.mp stepped with ⟨receiver, received, rfl⟩
      exact ⟨[], state, rfl, rfl,
        stands.receive fun sent lengths follows => follows.recv lengths orderly received⟩
  | recvFails conn =>
      rcases Option.ite_none_left_eq_some.mp stepped with ⟨_, same⟩
      rcases Option.some.inj same with rfl
      exact ⟨[], state, rfl, rfl, stands.receive fun sent _ follows => follows.fail orderly⟩
  | transmitData conn =>
      rcases stands.transmitData stepped with ⟨after, performed, still⟩
      refine ⟨[_], after, (system qt).run_cons_eq_some.mpr ⟨_, performed, rfl⟩, ?_, still⟩
      exact (system qt).outputs_cons _ performed

/-- A run is matched by a run in which the users do the same. -/
theorem Stands.run {qt : Qt} {before final : Deployment} {state : System}
    {events : List DeploymentEvent} (stands : before.Stands state)
    (orderly : (deployment qt).Meets Orderly before events)
    (reached : (deployment qt).run before events = some final) :
    ∃ systemEvents after, (system qt).run state systemEvents = some after ∧
      (system qt).outputs System.deeds state systemEvents =
        (deployment qt).outputs deeds before events ∧ final.Stands after :=
  Machine.exists_run_of_meets deeds System.deeds Stands
    (fun _ stands allowed stepped => Stands.step stands allowed stepped) stands orderly reached

/-- What the system of packets shows of the deployment. -/
structure Shows (deployment : Deployment) (system : System) : Prop where
  client : system.client = deployment.client
  delivered : system.delivered = deployment.dealt
  /-- A receiving thread hands over what has been queued to its client. -/
  handed : ∀ conn, (deployment.receiver conn).transmitted <+: system.server.queuedTo conn
  tasks : system.server.tasks = deployment.process.service.server.tasks
  log : system.server.log = deployment.process.service.server.log
  halted : system.server.halted = deployment.process.service.server.halted
  mMapIdToSocket : system.server.mMapIdToSocket = deployment.process.service.server.mMapIdToSocket
  tUser : system.server.tUser = deployment.process.service.server.tUser
  tFriend : system.server.tFriend = deployment.process.service.server.tFriend
  mClients : system.server.mClients = deployment.process.net.mClients
  sockets : system.server.sockets = deployment.connected

theorem Stands.shown {deployment : Deployment} {state : System}
    (stands : deployment.Stands state) : deployment.Shows state where
  client := stands.client
  delivered := stands.delivered
  handed conn := (stands.sends conn).transmitted_isPrefix
  tasks := stands.mirrors.kernel.tasks
  log := stands.mirrors.kernel.log
  halted := stands.mirrors.kernel.halted
  mMapIdToSocket := stands.mirrors.kernel.tables.1
  tUser := stands.mirrors.kernel.tables.2
  tFriend := stands.mirrors.kernel.tables.3
  mClients := stands.mirrors.carries.clients
  sockets := stands.connected.symm

/-- Whatever is interleaved and however the streams are cut, the deployed program goes through a
run of the system of packets in which the users do the same to the same kernels. -/
theorem reaches_system {qt : Qt} {workers threadCount : ℕ} {tUser : List UserRow}
    {tFriend : List (ℤ × ℤ)} {events : List DeploymentEvent} {final : Deployment}
    (orderly : (deployment qt).Meets Orderly (start workers threadCount tUser tFriend) events)
    (reached : (deployment qt).run (start workers threadCount tUser tFriend) events = some final) :
    ∃ systemEvents state, (system qt).run (.start tUser tFriend) systemEvents = some state ∧
      (system qt).outputs System.deeds (.start tUser tFriend) systemEvents =
        (deployment qt).outputs deeds (start workers threadCount tUser tFriend) events ∧
          final.Shows state := by
  rcases (stands_start workers threadCount tUser tFriend).run orderly reached with
    ⟨systemEvents, state, performed, same, stands⟩
  exact ⟨systemEvents, state, performed, same, stands.shown⟩

/-- Alice logs in: her packet arrives header first, and the reply to it comes in three pieces. -/
def aliceLogsIn : List DeploymentEvent :=
  let packet := StruLoginRq.bytes ⟨alice.tel, alice.pass⟩
  let outcomes : List Outcome := [.rows (some [[alice.pass, decimal alice.id]]), .internal,
    .internal, .internal, .rows (some [[alice.name, alice.feeling, decimal alice.iconId]]),
    .internal, .internal, .internal, .rows (some [])]
  [.server (.kernel (.run 0 none)),
    .user 0 (.loginMassage (System.asciiQt.toUnicode alice.tel)
      (System.asciiQt.toUnicode alice.pass)),
    .server (.loop (.accept 5)), .server (.loop .list), .server (.loop (.postFirst true)),
    .server (.loop (.dequeue 0 0 (int32 packet.length))), .server (.loop (.handle 0 true)),
    .server (.loop (.dequeue 0 0 packet)), .server (.loop (.handle 0 true)),
    .server (.kernel (.notify (some 0))), .server (.kernel (.run 0 none))] ++
  outcomes.map (fun outcome => .server (.kernel (.act 0 outcome))) ++
  [.server (.kernel (.dealt 0)), .recv 0 4, .recv 0 5, .recv 0 7, .transmitData 0]

/-- A test that finds that a step is orderly. -/
def orderly (deployment : Deployment) : DeploymentEvent → Bool
  | .server (.loop (.dequeue _ _ received)) => received ≠ []
  | .server _ => true
  | .recv conn bytes => (deployment.receiver conn).phase ≠ .length ∨ bytes = 4
  | .recvFails _ => false
  | .user _ _ | .transmitData _ => true

theorem orderly_sound (deployment : Deployment) (event : DeploymentEvent)
    (passed : deployment.orderly event = true) : deployment.Orderly event := by
  cases event with
  | user | transmitData => trivial
  | recvFails => simp [orderly] at passed
  | recv conn bytes =>
      intro between
      simpa [orderly, between] using passed
  | server event =>
      cases event with
      | kernel event => trivial
      | loop event =>
          cases event with
          | dequeue worker pio received => exact fun _ => of_decide_eq_true passed
          | _ => trivial

theorem reaches_system_login : ∃ final systemEvents state,
    (deployment System.asciiQt).run (start 1 1 [alice] []) aliceLogsIn = some final ∧
      (system System.asciiQt).run (.start [alice] []) systemEvents = some state ∧
        (system System.asciiQt).outputs System.deeds (.start [alice] []) systemEvents =
          (deployment System.asciiQt).outputs deeds (start 1 1 [alice] []) aliceLogsIn ∧
            final.Shows state ∧ (state.client 0).mUserId = alice.id := by
  have evaluated : ((deployment System.asciiQt).run (start 1 1 [alice] []) aliceLogsIn).any
      (fun final => (final.client 0).mUserId = alice.id) = true := by
    decide +kernel
  have passed : (deployment System.asciiQt).allSteps orderly (start 1 1 [alice] [])
      aliceLogsIn = true := by
    decide +kernel
  rcases (Option.any_eq_true _ _).mp evaluated with ⟨final, reached, known⟩
  rcases reaches_system ((deployment System.asciiQt).meets_of_allSteps orderly_sound passed)
    reached with ⟨systemEvents, state, performed, same, shown⟩
  refine ⟨final, systemEvents, state, reached, performed, same, shown, ?_⟩
  rw [shown.client]
  exact of_decide_eq_true known

end Deployment

end InstanceMessage
