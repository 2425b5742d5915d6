import InstanceMessage.Client.CKernel
import InstanceMessage.Server.Deliveries

/-!
# The server with its clients

Every connection is that of a client which runs `CKernel`. A packet that a
client has sent is in flight until the server receives it; the packets of one
connection arrive in the order in which they were sent, those of different
connections in any order, and a packet may never arrive. What `WSASend` has
taken for a connection reaches its client in order as well, and may stop at any
point.
`received` is a history variable: the packets that the server has received, of
which the one at position `tid` is that of the task `tid`.

A run of the whole is a run of the server, so all that holds for arbitrary
clients holds here.
-/

namespace InstanceMessage

open Library

structure System where
  server : State
  client : ConnId → CKernel := fun _ => {}
  /-- How many of the packets queued to it the client has got. -/
  delivered : ConnId → ℕ := fun _ => 0
  inFlight : List (ConnId × Bytes) := []
  received : List (ConnId × Bytes) := []

inductive SystemEvent
  /-- A step of the server other than the receipt of a packet. -/
  | server (event : Event)
  /-- The server receives the next packet of the connection. -/
  | receive (conn : ConnId)
  /-- The client gets the next packet that is queued to it. -/
  | deliver (conn : ConnId)
  | user (conn : ConnId) (action : UserAction)

def Event.isReceive : Event → Bool
  | .receive _ _ => true
  | _ => false

def takeFirst (conn : ConnId) :
    List (ConnId × Bytes) → Option (Bytes × List (ConnId × Bytes))
  | [] => none
  | (sender, data) :: rest =>
      if sender = conn then some (data, rest)
      else (takeFirst conn rest).map fun (found, others) => (found, (sender, data) :: others)

namespace System

def start (tUser : List UserRow) (tFriend : List (ℤ × ℤ)) : System :=
  { server := .start tUser tFriend }

def step (qt : Qt) (system : System) : SystemEvent → Option System
  | .server event =>
      if event.isReceive then none
      else (system.server.step event).map fun server => { system with server := server }
  | .receive conn =>
      (takeFirst conn system.inFlight).bind fun (data, rest) =>
        (system.server.step (.receive conn data)).map fun server =>
          { system with
            server := server, inFlight := rest, received := system.received ++ [(conn, data)] }
  | .deliver conn =>
      ((system.server.queuedTo conn)[system.delivered conn]?).bind fun packet =>
        ((system.client conn).slotTransmitData qt packet).map fun kernel =>
          { system with
            client := Function.update system.client conn kernel
            delivered := Function.update system.delivered conn (system.delivered conn + 1) }
  | .user conn action =>
      ((system.client conn).act qt action).map fun (kernel, packet) =>
        { system with
          client := Function.update system.client conn kernel
          inFlight := system.inFlight ++ packet.toList.map fun data => (conn, data) }

end System

def system (qt : Qt) : Machine System SystemEvent := ⟨System.step qt⟩

/-! ## Steps -/

theorem takeFirst_eq_some {conn : ConnId} {data : Bytes} {packets rest : List (ConnId × Bytes)}
    (found : takeFirst conn packets = some (data, rest)) :
    ∃ front back, packets = front ++ (conn, data) :: back ∧ rest = front ++ back := by
  induction packets generalizing rest with
  | nil => simp [takeFirst] at found
  | cons packet packets ih =>
      rcases packet with ⟨sender, sent⟩
      simp only [takeFirst] at found
      split at found
      · rename_i same
        rcases Prod.mk.inj (Option.some.inj found) with ⟨rfl, rfl⟩
        exact ⟨[], packets, by simp [same], rfl⟩
      · rcases Option.map_eq_some_iff.mp found with ⟨⟨later, others⟩, foundLater, same⟩
        rcases Prod.mk.inj same with ⟨rfl, rfl⟩
        rcases ih foundLater with ⟨front, back, whole, remaining⟩
        exact ⟨(sender, sent) :: front, back, by simp [whole], by simp [remaining]⟩

namespace System

/-- The steps of the system. -/
inductive Stepped (system : System) : SystemEvent → System → Prop
  | server {event : Event} {server : State} (other : event.isReceive = false)
      (stepped : system.server.step event = some server) :
      Stepped system (.server event) { system with server := server }
  | receive {conn : ConnId} {data : Bytes} {front back : List (ConnId × Bytes)} {server : State}
      (waiting : system.inFlight = front ++ (conn, data) :: back)
      (stepped : system.server.step (.receive conn data) = some server) :
      Stepped system (.receive conn) { system with
        server := server
        inFlight := front ++ back
        received := system.received ++ [(conn, data)] }
  | deliver {conn : ConnId} {packet : Bytes} {kernel : CKernel}
      (queued : (system.server.queuedTo conn)[system.delivered conn]? = some packet)
      (handles : (system.client conn).Handles packet kernel) :
      Stepped system (.deliver conn) { system with
        client := Function.update system.client conn kernel
        delivered := Function.update system.delivered conn (system.delivered conn + 1) }
  | user {conn : ConnId} {action : UserAction} {kernel : CKernel} {packet : Option Bytes}
      (acts : (system.client conn).Acts action kernel packet) :
      Stepped system (.user conn action) { system with
        client := Function.update system.client conn kernel
        inFlight := system.inFlight ++ packet.toList.map fun data => (conn, data) }

theorem stepped_of_step {qt : Qt} {before after : System} {event : SystemEvent}
    (stepped : before.step qt event = some after) : Stepped before event after := by
  cases event with
  | server event =>
      rcases Option.ite_none_left_eq_some.mp stepped with ⟨other, moved⟩
      rcases Option.map_eq_some_iff.mp moved with ⟨server, served, rfl⟩
      exact .server (by simpa using other) served
  | receive conn =>
      rcases Option.bind_eq_some_iff.mp stepped with ⟨⟨data, rest⟩, found, moved⟩
      rcases Option.map_eq_some_iff.mp moved with ⟨server, served, rfl⟩
      rcases takeFirst_eq_some found with ⟨front, back, waiting, rfl⟩
      exact .receive waiting served
  | deliver conn =>
      rcases Option.bind_eq_some_iff.mp stepped with ⟨packet, queued, moved⟩
      rcases Option.map_eq_some_iff.mp moved with ⟨kernel, transmitted, rfl⟩
      exact .deliver queued (CKernel.handles_of_slotTransmitData transmitted)
  | user conn action =>
      rcases Option.map_eq_some_iff.mp stepped with ⟨⟨kernel, packet⟩, acted, rfl⟩
      exact .user (CKernel.acts_of_act acted)

/-- The clients choose among the runs of the server and add none. -/
theorem server_run_of_run {qt : Qt} {before after : System} {events : List SystemEvent}
    (reached : (system qt).run before events = some after) :
    ∃ serverEvents, InstanceMessage.server.run before.server serverEvents = some after.server := by
  refine (system qt).exists_run_of_run System.server ?_ reached
  intro state event next stepped
  cases stepped_of_step stepped with
  | server other moved => exact Or.inr ⟨_, moved⟩
  | receive waiting moved => exact Or.inr ⟨.receive _ _, moved⟩
  | deliver | user => exact Or.inl rfl

theorem queuedTo_sublist_of_run {qt : Qt} {tUser : List UserRow} {tFriend : List (ℤ × ℤ)}
    {events : List SystemEvent} {final : System}
    (reached : (system qt).run (start tUser tFriend) events = some final) (conn : ConnId) :
    (final.server.queuedTo conn).Sublist (final.server.sentTo conn) := by
  rcases server_run_of_run reached with ⟨serverEvents, served⟩
  exact packetsOf_sublist conn (State.queued_sublist_of_run served)

/-! ## What has come to a client -/

/-- The packets that have come to the client. -/
def came (system : System) (conn : ConnId) : List Bytes :=
  (system.server.queuedTo conn).take (system.delivered conn)

/-- No client has got more than what is queued to it. -/
def Within (system : System) : Prop :=
  ∀ conn, system.delivered conn ≤ (system.server.queuedTo conn).length

theorem Within.length_came {system : System} (within : system.Within) (conn : ConnId) :
    (system.came conn).length = system.delivered conn :=
  List.length_take_of_le (within conn)

section Step

variable {before after : System} {event : SystemEvent}

theorem Within.step (within : before.Within) (stepped : Stepped before event after) :
    after.Within := by
  intro conn
  cases stepped with
  | server other moved =>
      exact (within conn).trans (State.queuedTo_prefix_of_step conn moved).length_le
  | receive waiting moved =>
      exact (within conn).trans (State.queuedTo_prefix_of_step conn moved).length_le
  | @deliver receiver packet kernel queued handles =>
      by_cases same : conn = receiver
      · subst same
        simp only [Function.update_self]
        exact (List.getElem?_eq_some_iff.mp queued).1
      · simp only [Function.update_of_ne same]
        exact within conn
  | user => exact within conn

theorem take_queuedTo_deliver {conn : ConnId} {packet : Bytes}
    (queued : (before.server.queuedTo conn)[before.delivered conn]? = some packet) :
    (before.server.queuedTo conn).take (before.delivered conn + 1) =
      (before.server.queuedTo conn).take (before.delivered conn) ++ [packet] := by
  rw [List.take_add_one, queued]
  rfl

end Step

theorem ranged_start (tUser : List UserRow) (tFriend : List (ℤ × ℤ)) (conn : ConnId) :
    ((start tUser tFriend).client conn).Ranged :=
  ⟨show IsInt32 0 by decide, by simp [start], by simp [start]⟩

theorem ranged_step {before after : System} {event : SystemEvent}
    (ranged : ∀ conn, (before.client conn).Ranged) (stepped : Stepped before event after)
    (conn : ConnId) : (after.client conn).Ranged := by
  have updated {mover : ConnId} {kernel : CKernel} (moved : kernel.Ranged) :
      (Function.update before.client mover kernel conn).Ranged := by
    by_cases same : conn = mover
    · rw [same, Function.update_self]
      exact moved
    · rw [Function.update_of_ne same]
      exact ranged conn
  cases stepped with
  | server | receive => exact ranged conn
  | deliver queued handles => exact updated ((ranged _).handles handles)
  | user acts => exact updated ((ranged _).acts acts)

/-- All packets for the server conform. -/
def AllConforming (system : System) : Prop :=
  ∀ packet ∈ system.received ++ system.inFlight, conforming packet.2 = true

theorem allConforming_start (tUser : List UserRow) (tFriend : List (ℤ × ℤ)) :
    (start tUser tFriend).AllConforming := by
  simp [AllConforming, start]

theorem AllConforming.step {before after : System} {event : SystemEvent}
    (conform : before.AllConforming) (ranged : ∀ conn, (before.client conn).Ranged)
    (stepped : Stepped before event after) : after.AllConforming := by
  cases stepped with
  | server | deliver => exact conform
  | receive waiting =>
      intro packet member
      apply conform
      rw [waiting]
      simp only [List.mem_append, List.mem_cons, List.not_mem_nil, or_false] at member ⊢
      tauto
  | @user conn action kernel sent acts =>
      intro packet member
      rw [← List.append_assoc] at member
      rcases List.mem_append.mp member with old | new
      · exact conform packet old
      · rcases List.mem_map.mp new with ⟨data, present, rfl⟩
        exact (ranged conn).conforming_of_acts acts (by simpa using present)

end System

end InstanceMessage
