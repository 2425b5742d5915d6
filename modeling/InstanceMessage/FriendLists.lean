import InstanceMessage.Client.FriendList
import InstanceMessage.Consent
import InstanceMessage.Server.Introductions

/-!
# Friend lists are complete and sound

The server with clients that show what they receive. What comes to the server
is arbitrary here: a packet need not have been sent by a client of this kind,
so the runs include those of `system`, and the results hold whoever agrees to
whatever. The statements of the handlers are read as they are meant, which they
are when the texts in the packets have no quotes and no backslashes.

A friendship reaches the two clients on different ways, from the list that is
read after a login or an agreement, or from the friend who comes online. When
no handler is in progress and a client has got its packets, all of them have
come, and nothing else. A client has got all its packets when it has got every
packet that `sendData` has been called with for it, so `WSASend` has refused
none of them.
-/

namespace InstanceMessage

open Library

structure Reception where
  server : State
  client : ConnId → CKernel := fun _ => {}
  /-- How many of the packets queued to it the client has got. -/
  delivered : ConnId → ℕ := fun _ => 0

inductive ReceptionEvent
  | server (event : Event)
  /-- The client gets the next packet that is queued to it. -/
  | deliver (conn : ConnId)
  | user (conn : ConnId) (action : UserAction)

namespace Reception

def start (tUser : List UserRow) (tFriend : List (ℤ × ℤ)) : Reception :=
  { server := .start tUser tFriend }

def step (qt : Qt) (reception : Reception) : ReceptionEvent → Option Reception
  | .server event =>
      (reception.server.step event).map fun server => { reception with server := server }
  | .deliver conn =>
      ((reception.server.queuedTo conn)[reception.delivered conn]?).bind fun packet =>
        ((reception.client conn).slotTransmitData qt packet).map fun kernel =>
          { reception with
            client := Function.update reception.client conn kernel
            delivered := Function.update reception.delivered conn (reception.delivered conn + 1) }
  | .user conn action =>
      ((reception.client conn).act qt action).map fun (kernel, _) =>
        { reception with client := Function.update reception.client conn kernel }

end Reception

def reception (qt : Qt) : Machine Reception ReceptionEvent := ⟨Reception.step qt⟩

namespace System

/-- Every run of the server with its clients is one of this machine. -/
theorem reception_run_of_run {qt : Qt} {before after : System} {events : List SystemEvent}
    (reached : (system qt).run before events = some after) :
    ∃ receptionEvents, (reception qt).run ⟨before.server, before.client, before.delivered⟩
      receptionEvents = some ⟨after.server, after.client, after.delivered⟩ := by
  refine (system qt).exists_run_of_run
    (fun system : System => (⟨system.server, system.client, system.delivered⟩ : Reception)) ?_
    reached
  intro state event next stepped
  cases event with
  | server event =>
      rcases Option.ite_none_left_eq_some.mp stepped with ⟨_, moved⟩
      rcases Option.map_eq_some_iff.mp moved with ⟨server, served, rfl⟩
      exact Or.inr ⟨.server event, Option.map_eq_some_iff.mpr ⟨server, served, rfl⟩⟩
  | receive conn =>
      rcases Option.bind_eq_some_iff.mp stepped with ⟨⟨data, rest⟩, _, moved⟩
      rcases Option.map_eq_some_iff.mp moved with ⟨server, served, rfl⟩
      exact Or.inr ⟨.server (.receive conn data), Option.map_eq_some_iff.mpr ⟨server, served, rfl⟩⟩
  | deliver conn =>
      rcases Option.bind_eq_some_iff.mp stepped with ⟨packet, queued, moved⟩
      rcases Option.map_eq_some_iff.mp moved with ⟨kernel, transmitted, rfl⟩
      refine Or.inr ⟨.deliver conn, Option.bind_eq_some_iff.mpr ⟨packet, queued, ?_⟩⟩
      exact Option.map_eq_some_iff.mpr ⟨kernel, transmitted, rfl⟩
  | user conn action =>
      rcases Option.map_eq_some_iff.mp stepped with ⟨⟨kernel, packet⟩, acted, rfl⟩
      exact Or.inr ⟨.user conn action, Option.map_eq_some_iff.mpr ⟨(kernel, packet), acted, rfl⟩⟩

end System

/-! ## What a client shows -/

/-- The client of a connection shows what has come to it. -/
structure Lists (server : State) (conn : ConnId) (came : List Bytes) (kernel : CKernel) : Prop where
  acquainted : Acquainted server conn came kernel
  keys : kernel.SameKeys
  status : ∀ account, (∀ id, server.LoggedInOn conn id → id = account) → ∀ id,
    kernel.status id = if id = account then none else statusIn id came

namespace Lists

variable {server : State} {conn : ConnId} {came : List Bytes} {kernel next : CKernel}

theorem serve {after : State} {event : Event} (lists : Lists server conn came kernel)
    (moved : server.step event = some after) : Lists after conn came kernel := by
  refine ⟨lists.acquainted.serve moved, lists.keys, fun account single id => ?_⟩
  apply lists.status account
  intro other loggedIn
  exact single other (loggedIn.mono (State.log_subset_of_step moved))

/-- Information about a friend finds the client with its user, since his login reply has come
before it. -/
theorem deliver {qt : Qt} {position : ℕ} {packet : Bytes}
    (lists : Lists server conn ((server.sentTo conn).take position) kernel)
    (queued : server.Queued) (introduced : server.Introduced)
    (found : (server.sentTo conn)[position]? = some packet)
    (transmitted : CKernel.slotTransmitData qt kernel packet = some next) :
    Lists server conn ((server.sentTo conn).take position ++ [packet]) next := by
  have shows := CKernel.shows_of_slotTransmitData transmitted
  have preceded (type : packetType packet = some defAddFriendRq) :
      ∃ reply ∈ (server.sentTo conn).take position, grantsLogin reply = true := by
    rcases queued.request conn position packet found type with ⟨id, greeted⟩
    exact ⟨_, greeted, grantsLogin_loginSuccess id⟩
  refine ⟨lists.acquainted.deliver queued (List.mem_of_getElem? found) preceded
    (CKernel.handles_of_slotTransmitData transmitted), shows.keys lists.keys,
    fun account single id => ?_⟩
  have before := lists.status account single id
  rw [statusIn_append_singleton, shows.status]
  cases told : tells id packet with
  | false =>
      simp only [Bool.false_eq_true, false_and, if_false, before]
      split
      · exact statusAfter_of_not_tells told
      · rfl
  | true =>
      have own : kernel.mUserId = account := by
        rcases introduced.greeted conn position packet found (packetType_of_tells told) with
          ⟨_, greeted, known, rfl⟩
        exact single _ (lists.acquainted.shown
          (lists.acquainted.welcomed _ greeted (grantsLogin_loginSuccess known)))
      simp only [true_and, own, before]
      split
      · rfl
      · simp [statusAfter, told]

theorem act {qt : Qt} {action : UserAction} {packet : Option Bytes}
    (lists : Lists server conn came kernel)
    (acted : kernel.act qt action = some (next, packet)) : Lists server conn came next := by
  rcases CKernel.lists_of_act acted with ⟨forms, dialogs⟩
  refine ⟨lists.acquainted.act (CKernel.acts_of_act acted), ?_, ?_⟩
  · intro id
    rw [forms, dialogs]
    exact lists.keys id
  · intro account single id
    rw [CKernel.status, forms]
    exact lists.status account single id

end Lists

namespace Reception

/-- The conditions on the environment: no handle value comes twice, and all statements succeed. -/
def Regular (reception : Reception) : ReceptionEvent → Prop
  | .server event => reception.server.FreshHandle event ∧ reception.server.Succeeds event
  | _ => True

/-- The packets that have come to the client. -/
def came (reception : Reception) (conn : ConnId) : List Bytes :=
  (reception.server.queuedTo conn).take (reception.delivered conn)

/-- A client that has been refused nothing shows what has come to it. -/
structure Consistent (reception : Reception) : Prop where
  informed : reception.server.WellInformed
  within : ∀ conn, reception.delivered conn ≤ (reception.server.queuedTo conn).length
  lists : ∀ conn, reception.server.queuedTo conn = reception.server.sentTo conn →
    Lists reception.server conn (reception.came conn) (reception.client conn)

theorem consistent_start (tUser : List UserRow) {tFriend : List (ℤ × ℤ)}
    (symmetric : ∀ idA idB, (idA, idB) ∈ tFriend → (idB, idA) ∈ tFriend) :
    (start tUser tFriend).Consistent where
  informed := State.wellInformed_start tUser symmetric
  within := fun _ => Nat.zero_le _
  lists := by
    intro conn _
    refine ⟨?_, fun id => rfl, fun account single id => ?_⟩
    · constructor <;> simp [start, came]
    · split
      · rfl
      · rfl

theorem Consistent.step {qt : Qt} {before after : Reception} {event : ReceptionEvent}
    (consistent : before.Consistent) (regular : before.Regular event)
    (stepped : before.step qt event = some after) : after.Consistent := by
  have delivers := consistent.informed.delivers
  cases event with
  | server event =>
      rcases Option.map_eq_some_iff.mp stepped with ⟨server, moved, rfl⟩
      refine ⟨consistent.informed.step regular.1 regular.2 moved, fun conn => ?_,
        fun conn same => ?_⟩
      · exact (consistent.within conn).trans (State.queuedTo_prefix_of_step conn moved).length_le
      · have before := State.queuedTo_eq_of_step delivers.taken moved same
        simp only [came, State.take_queuedTo_of_step (consistent.within conn) moved]
        exact (consistent.lists conn before).serve moved
  | deliver mover =>
      rcases Option.bind_eq_some_iff.mp stepped with ⟨packet, found, moved⟩
      rcases Option.map_eq_some_iff.mp moved with ⟨kernel, transmitted, rfl⟩
      refine ⟨consistent.informed, fun conn => ?_, fun conn same => ?_⟩
      · by_cases own : conn = mover
        · subst own
          simp only [Function.update_self]
          exact (List.getElem?_eq_some_iff.mp found).1
        · simp only [Function.update_of_ne own]
          exact consistent.within conn
      · have lists := consistent.lists conn same
        by_cases own : conn = mover
        · subst own
          simp only [came, Function.update_self, List.take_add_one, found, Option.toList_some]
          simp only [came] at lists
          rw [same] at lists found ⊢
          exact lists.deliver delivers.queued consistent.informed.introduced found transmitted
        · simp only [came, Function.update_of_ne own]
          exact lists
  | user mover action =>
      rcases Option.map_eq_some_iff.mp stepped with ⟨⟨kernel, packet⟩, acted, rfl⟩
      refine ⟨consistent.informed, consistent.within, fun conn same => ?_⟩
      have lists := consistent.lists conn same
      by_cases own : conn = mover
      · subst own
        simp only [came, Function.update_self]
        exact lists.act acted
      · simp only [came, Function.update_of_ne own]
        exact lists

/-- A client that has got all packets of its connection shows them. -/
theorem Consistent.lists_of_processed {reception : Reception} (consistent : reception.Consistent)
    {conn : ConnId}
    (processed : reception.delivered conn = (reception.server.sentTo conn).length) :
    Lists reception.server conn (reception.server.sentTo conn) (reception.client conn) := by
  have same : reception.server.queuedTo conn = reception.server.sentTo conn :=
    (packetsOf_sublist conn consistent.informed.delivers.taken).eq_of_length_le
      (processed ▸ consistent.within conn)
  have lists := consistent.lists conn same
  rwa [came, processed, same, List.take_length] at lists

/-- Friend lists are complete and sound. In a run from a symmetric table in which all statements
succeed, no handle value comes twice, the process does not end and every connection logs in to
one account at most, whenever no handler is in progress and the client on a user's connection has
got all its packets: the users with a form are his friends other than himself, and so are those
with a chat window. -/
theorem friend_lists {qt : Qt} {tUser : List UserRow} {tFriend : List (ℤ × ℤ)}
    {events : List ReceptionEvent} {final : Reception}
    (symmetric : ∀ idA idB, (idA, idB) ∈ tFriend → (idB, idA) ∈ tFriend)
    (reached : (InstanceMessage.reception qt).run (start tUser tFriend) events = some final)
    (regular : (InstanceMessage.reception qt).Meets Regular (start tUser tFriend) events)
    (running : final.server.halted = false)
    (single : ∀ conn id other, final.server.LoggedInOn conn id →
      final.server.LoggedInOn conn other → id = other)
    (idle : final.server.tasks = []) {id : ℤ} {socket : Handle} {conn : ConnId}
    (entered : final.server.mMapIdToSocket id = some socket)
    (isOpen : final.server.sockets socket = some conn)
    (processed : final.delivered conn = (final.server.sentTo conn).length) (friendId : ℤ) :
    (((final.client conn).mMapIdtoForm.lookup friendId).isSome = true ↔
      friendId ≠ id ∧ (id, friendId) ∈ final.server.tFriend) ∧
    (((final.client conn).mMapIdToDialog.lookup friendId).isSome = true ↔
      friendId ≠ id ∧ (id, friendId) ∈ final.server.tFriend) := by
  have consistent : final.Consistent := (InstanceMessage.reception qt).run_invariant Consistent
    (fun consistent regular stepped => consistent.step regular stepped)
    (consistent_start tUser symmetric) regular reached
  have informed := consistent.informed
  have connected := informed.listed.connected informed.delivers entered isOpen
  have account (other : ℤ) (loggedIn : final.server.LoggedInOn conn other) : other = id :=
    single conn other id loggedIn (informed.loggedInOn entered isOpen)
  have lists := consistent.lists_of_processed processed
  have forms : ((final.client conn).mMapIdtoForm.lookup friendId).isSome = true ↔
      friendId ≠ id ∧ (id, friendId) ∈ final.server.tFriend := by
    have shown := lists.status id account friendId
    have status : ((final.client conn).status friendId).isSome =
        ((final.client conn).mMapIdtoForm.lookup friendId).isSome := Option.isSome_map
    rw [← status, shown]
    split
    · rename_i own
      simp [own]
    · rename_i different
      rw [isSome_statusIn, List.any_eq_true]
      exact (informed.told_iff running idle connected account different).trans
        (by simp [different])
  exact ⟨forms, by rw [lists.keys friendId]; exact forms⟩

/-! ## Two users become friends -/

/-- The accounts of the connections, latest login first. -/
def logins (log : List Entry) : List (ConnId × ℤ) :=
  log.filterMap fun entry =>
    match entry.performed with
    | ⟨.select (.passIdByTel _) _, (some (_ :: idText :: _) : Option (List Bytes))⟩ =>
        (stoi idText).map fun id => (entry.conn, id)
    | _ => none

theorem mem_logins {state : State} {conn : ConnId} {id : ℤ} (loggedIn : state.LoggedInOn conn id) :
    (conn, id) ∈ logins state.log := by
  rcases loggedIn with ⟨entry, logged, rfl, _, tel, password, idText, rest, _, _, selected, parsed⟩
  refine List.mem_filterMap.mpr ⟨entry, logged, ?_⟩
  simp [selected, parsed]

/-- Two logins on two connections. -/
theorem single_of_logins {state : State} (accounts : logins state.log = [(1, 2), (0, 1)])
    (conn : ConnId) (id other : ℤ) (loggedIn : state.LoggedInOn conn id)
    (again : state.LoggedInOn conn other) : id = other := by
  have first := mem_logins loggedIn
  have second := mem_logins again
  rw [accounts] at first second
  simp only [List.mem_cons, Prod.mk.injEq, List.not_mem_nil, or_false] at first second
  rcases first with ⟨rfl, rfl⟩ | ⟨rfl, rfl⟩
  · exact (show other = 2 by simpa using second).symm
  · exact (show other = 1 by simpa using second).symm

def regular (reception : Reception) : ReceptionEvent → Bool
  | .server (.accept socket) => socket ≠ 0 ∧
      (List.range reception.server.nextConn).all fun conn => reception.server.handleOf conn ≠ socket
  | .server (.act index outcome) =>
      match reception.server.tasks[index]? with
      | some task =>
          match task.prog with
          | .act (.select stmt _) _ =>
              match outcome with
              | .rows (some rows) => rows = reception.server.rows stmt
              | _ => false
          | .act (.update _) _ =>
              match outcome with
              | .updated true _ => true
              | _ => false
          | _ => true
      | none => true
  | _ => true

theorem regular_sound (reception : Reception) (event : ReceptionEvent)
    (passed : reception.regular event = true) : reception.Regular event := by
  cases event with
  | server event =>
      cases event with
      | accept socket =>
          simp only [regular, decide_eq_true_eq, List.all_eq_true, List.mem_range] at passed
          exact ⟨passed, trivial⟩
      | act index outcome =>
          refine ⟨trivial, fun task action rest present shape => ?_⟩
          simp only [regular, present, shape] at passed
          cases action with
          | select stmt nColumn =>
              cases outcome with
              | rows rows => cases rows <;> simp_all [State.AnsweredWell]
              | _ => simp at passed
          | update stmt =>
              cases outcome with
              | updated ok rowId => cases ok <;> simp_all [State.AnsweredWell]
              | _ => simp at passed
          | _ => trivial
      | _ => exact ⟨trivial, trivial⟩
  | _ => trivial

def bobAgreesOnline : List Event :=
  [.receive 1 (StruAddFriendRs.bytes ⟨defAddFriendSuccess, 1, 2, []⟩), .act 0 (.updated true 0),
    .act 0 (.updated true 0), .act 0 .internal,
    .act 0 (.rows (some [[ascii "alice", [], decimal 4]])), .act 0 .internal, .act 0 .internal,
    .act 0 .internal, .act 0 (.rows (some [[decimal 2]])), .act 0 .internal,
    .act 0 (.rows (some [[ascii "bob", [], decimal 4]])), .act 0 .internal, .act 0 .internal,
    .act 0 .internal, .act 0 .internal, .act 0 .internal, .act 0 .internal, .act 0 .internal,
    .act 0 .internal, .act 0 .internal, .finish 0]

def becomeFriends : List ReceptionEvent :=
  (logsIn alice 0 4 ++ logsIn bob 1 8 ++ bobAgreesOnline).map .server ++
    List.replicate 5 (.deliver 0) ++ List.replicate 3 (.deliver 1)

theorem friend_lists_agreed : ∃ final,
    (InstanceMessage.reception System.asciiQt).run (start [alice, bob] []) becomeFriends =
      some final ∧
    final.server.tFriend = [(1, 2), (2, 1)] ∧
      ∀ friendId,
        (((final.client 0).mMapIdtoForm.lookup friendId).isSome = true ↔
          friendId ≠ 1 ∧ (1, friendId) ∈ final.server.tFriend) ∧
        (((final.client 0).mMapIdToDialog.lookup friendId).isSome = true ↔
          friendId ≠ 1 ∧ (1, friendId) ∈ final.server.tFriend) := by
  have evaluated : ((InstanceMessage.reception System.asciiQt).run (start [alice, bob] [])
      becomeFriends).any (fun final => final.server.halted = false ∧ final.server.tasks.isEmpty ∧
        final.server.tFriend = [(1, 2), (2, 1)] ∧ final.server.mMapIdToSocket 1 = some 4 ∧
          final.server.sockets 4 = some 0 ∧
            final.delivered 0 = (final.server.sentTo 0).length ∧
              logins final.server.log = [(1, 2), (0, 1)]) = true := by
    decide +kernel
  have passed : (InstanceMessage.reception System.asciiQt).allSteps regular
      (start [alice, bob] []) becomeFriends = true := by
    decide +kernel
  rcases (Option.any_eq_true _ _).mp evaluated with ⟨final, reached, shape⟩
  simp only [decide_eq_true_eq, List.isEmpty_iff] at shape
  rcases shape with ⟨running, idle, rows, entered, isOpen, processed, accounts⟩
  exact ⟨final, reached, rows, friend_lists (by simp) reached
    ((InstanceMessage.reception System.asciiQt).meets_of_allSteps regular_sound passed) running
    (single_of_logins accounts) idle entered isOpen processed⟩

end Reception

end InstanceMessage
