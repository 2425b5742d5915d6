import InstanceMessage.Server.Sessions

/-!
# On whose behalf a packet acts

The handlers take the acting user from the packet: none of them compares
`userId` with the entry of that user, and `from` serves for replies only. What
they do keep to holds for every client: a socket is closed and an entry removed
only by an offline request, for the user it names and the socket that his entry
had when the handler looked it up; a packet that is passed on is the received
one, and it goes to the socket that the handler has looked up for the user whom
the packet addresses; user information goes to the user who has logged in or
found a friend with the packet, and to his friends; and every socket found in
the map is the handle of a connection on which that user has logged in, or the
zero of a lookup that found nothing.
-/

namespace InstanceMessage

open Library

namespace State

/-- The user has logged in on a connection with this handle. -/
def LoggedInAt (state : State) (id : ℤ) (socket : Handle) : Prop :=
  ∃ entry ∈ state.log, entry.from_ = socket ∧ entry.Verifies id

/-- The handler of the same packet has got the socket from the entry of the user, and the user
has logged in on a connection with this handle, unless he had no entry. -/
def FoundFor (state : State) (entry : Entry) (id : ℤ) (socket : Handle) : Prop :=
  LookedUp (historyOf state.log entry.tid) id socket ∧ (socket = 0 ∨ state.LoggedInAt id socket)

/-- What an action of a handler does to users and sockets, it does for those named in the
packet. -/
def ActsAsNamed (state : State) (entry : Entry) : Action → Prop
  | .closesocket socket => packetType entry.data = some defOfflineRq ∧
      ∃ userId, StruOfflineRq.readUserId entry.data = some userId ∧
        state.FoundFor entry userId socket
  | .erase id => packetType entry.data = some defOfflineRq ∧
      StruOfflineRq.readUserId entry.data = some id
  | .sendData packet clientId =>
      (clientId = entry.from_ ∧ Reply entry.data (historyOf state.log entry.tid) packet) ∨
        ∃ id, state.FoundFor entry id clientId ∧
          Delivered entry.data (historyOf state.log entry.tid) id packet
  | _ => True

/-- Sockets found in the map belong to connections on which the user has logged in. -/
structure Provenance (state : State) : Prop where
  entered : ∀ id socket, state.mMapIdToSocket id = some socket →
    socket = 0 ∨ state.LoggedInAt id socket
  found : ∀ entry ∈ state.log, ∀ id (socket : Handle),
    entry.performed = (⟨.socketOf id, socket⟩ : Performed Action.Answer) →
      socket = 0 ∨ state.LoggedInAt id socket

theorem LoggedInAt.mono {state after : State} {id : ℤ} {socket : Handle}
    (loggedIn : state.LoggedInAt id socket) (grows : state.log ⊆ after.log) :
    after.LoggedInAt id socket := by
  rcases loggedIn with ⟨entry, logged, handle, verifies⟩
  exact ⟨entry, grows logged, handle, verifies⟩

theorem loggedInAt_of_matched {state : State} (coherent : state.Coherent) {task : Task}
    {id : ℤ} (member : task ∈ state.tasks) (type : packetType task.data = some defLoginRq)
    (matched : PasswordMatched task.data (historyOf state.log task.tid) id) :
    state.LoggedInAt id task.from_ := by
  rcases verifies_of_matched coherent member type matched with ⟨entry, logged, ofTask, verifies⟩
  exact ⟨entry, logged, ofTask.2.1, verifies⟩

theorem provenance_start (tUser : List UserRow) (tFriend : List (ℤ × ℤ)) :
    (start tUser tFriend).Provenance := by
  constructor <;> simp [start]

theorem Provenance.step {state next : State} {event : Event} (provenance : state.Provenance)
    (coherent : state.Coherent) (stepped : state.step event = some next) : next.Provenance := by
  have grows := log_subset_of_step stepped
  cases stepped_of_step stepped with
  | accept | list | receive | closeSocket | eraseClient | halt | finish =>
      exact ⟨provenance.entered, provenance.found⟩
  | @perform index outcome task action rest after answer present shape goesOn performed =>
      have performs := performs_of_perform performed
      have member := List.mem_of_getElem? present
      have lawful := coherent.lawful task member
      rw [shape] at lawful
      constructor
      · intro id socket entered
        rcases performs.entry entered with old | rfl | ⟨_, _, zero⟩
        · rcases provenance.entered id socket old with zero | loggedIn
          · exact Or.inl zero
          · exact Or.inr (loggedIn.mono grows)
        · rcases lawful.1 with ⟨type, rfl, matched, _⟩
          exact Or.inr ((loggedInAt_of_matched coherent member type matched).mono grows)
        · exact Or.inl zero
      · intro entry logged id socket lookup
        rw [log_advance performs.sameFrame] at logged
        rcases List.mem_cons.mp logged with rfl | old
        · rcases performs.found lookup with found | zero
          · rcases provenance.entered id socket found with zero | loggedIn
            · exact Or.inl zero
            · exact Or.inr (loggedIn.mono grows)
          · exact Or.inl zero
        · rcases provenance.found entry old id socket lookup with zero | loggedIn
          · exact Or.inl zero
          · exact Or.inr (loggedIn.mono grows)

theorem Provenance.foundFor {state : State} (provenance : state.Provenance) {entry : Entry}
    {id : ℤ} {socket : Handle} (lookedUp : LookedUp (historyOf state.log entry.tid) id socket) :
    state.FoundFor entry id socket := by
  rcases mem_historyOf.mp lookedUp with ⟨other, logged, _, performed⟩
  exact ⟨lookedUp, provenance.found other logged id socket performed⟩

theorem actsAsNamed {state : State} (coherent : state.Coherent) (provenance : state.Provenance)
    {entry : Entry} (logged : entry ∈ state.log) :
    state.ActsAsNamed entry entry.performed.action := by
  rcases List.append_of_mem logged with ⟨newer, older, split⟩
  have lawful := coherent.logLawful newer entry older split
  have grows : historyOf older entry.tid ⊆ historyOf state.log entry.tid := by
    intro performed member
    rcases mem_historyOf.mp member with ⟨other, otherLogged, same, did⟩
    refine mem_historyOf.mpr ⟨other, ?_, same, did⟩
    rw [split]
    exact List.mem_append_right _ (List.mem_cons_of_mem _ otherLogged)
  cases acts : entry.performed.action with
  | closesocket socket =>
      rw [acts] at lawful
      rcases lawful with ⟨type, userId, named, lookedUp⟩
      exact ⟨type, userId, named, provenance.foundFor (grows lookedUp)⟩
  | erase id =>
      rw [acts] at lawful
      exact ⟨lawful.1, lawful.2.1⟩
  | sendData packet clientId =>
      rw [acts] at lawful
      rcases lawful with ⟨own, reply⟩ | ⟨id, lookedUp, delivered⟩
      · exact Or.inl ⟨own, reply.mono grows⟩
      · exact Or.inr ⟨id, provenance.foundFor (grows lookedUp), delivered.mono grows⟩
  | _ => trivial

/-- Every packet acts for the users it names: in every run, whatever a handler closes, removes or
passes on is what its packet names, and an entry that maps to the handle of a connection, if no
other connection has had this handle, is that of a user who has logged in on it. -/
theorem packets_act_as_named {tUser : List UserRow} {tFriend : List (ℤ × ℤ)}
    {events : List Event} {final : State}
    (reached : server.run (start tUser tFriend) events = some final) :
    (∀ entry ∈ final.log, final.ActsAsNamed entry entry.performed.action) ∧
      ∀ conn userId, final.mMapIdToSocket userId = some (final.handleOf conn) →
        final.handleOf conn ≠ 0 →
          (∀ other < final.nextConn, final.handleOf other = final.handleOf conn → other = conn) →
            final.LoggedInOn conn userId := by
  have invariant : final.Coherent ∧ final.Housed ∧ final.Provenance := by
    refine server.run_invariant_of_step
      (fun state => state.Coherent ∧ state.Housed ∧ state.Provenance) ?_
      ⟨coherent_start _ _, housed_start _ _, provenance_start _ _⟩ reached
    intro state event next holds stepped
    rcases holds with ⟨coherent, housed, provenance⟩
    exact ⟨coherent.step stepped, housed.step stepped, provenance.step coherent stepped⟩
  rcases invariant with ⟨coherent, housed, provenance⟩
  refine ⟨fun entry logged => actsAsNamed coherent provenance logged, ?_⟩
  intro conn userId entered nonzero alone
  rcases provenance.entered userId _ entered with zero | ⟨entry, logged, handle, verifies⟩
  · exact absurd zero nonzero
  · rcases housed.entry entry logged with ⟨bound, belongs⟩
    exact ⟨entry, logged, alone entry.conn bound (belongs.symm.trans handle), verifies⟩

def malloryActs : List Event :=
  logsIn alice 0 4 ++ [.accept 8, .list 1,
    .receive 1 (StruChatRq.bytes ⟨2, 1, ascii "hello"⟩), .act 0 .internal, .act 0 .internal,
    .act 0 .internal, .finish 0,
    .receive 1 (StruOfflineRq.bytes ⟨1⟩), .act 0 (.rows (some [])), .act 0 .internal,
    .act 0 .internal, .act 0 .internal, .act 0 .internal, .finish 0]

theorem packets_act_as_named_mallory : ∃ final,
    server.run (start [alice, bob] []) malloryActs = some final ∧
      ∀ entry ∈ final.log, final.ActsAsNamed entry entry.performed.action := by
  have evaluated : (server.run (start [alice, bob] []) malloryActs).isSome = true := by
    decide +kernel
  rcases Option.isSome_iff_exists.mp evaluated with ⟨final, reached⟩
  exact ⟨final, reached, (packets_act_as_named reached).1⟩

def packetFor (clientId : Handle) : Action → Option Bytes
  | .sendData packet socket => if socket = clientId then some packet else none
  | _ => none

def asksPassword : Action → Bool
  | .select (.passIdByTel _) _ => true
  | _ => false

/-- The socket that closes and the entry that goes are not those of the sender, and the message
is not from the user it names. -/
theorem packets_act_for_others : ∃ final,
    server.run (start [alice, bob] []) malloryActs = some final ∧
      (∀ id, ¬final.LoggedInOn 1 id) ∧
        (∃ entry ∈ final.log, entry.conn = 1 ∧ entry.from_ = 8 ∧
          entry.performed.action = .closesocket 4) ∧
          (∃ entry ∈ final.log, entry.conn = 1 ∧ entry.performed.action = .erase 1) ∧
            ∃ entry ∈ final.log, entry.conn = 1 ∧
              (packetFor 4 entry.performed.action).bind StruChatRq.readUserId = some 2 := by
  have evaluated : (server.run (start [alice, bob] []) malloryActs).any (fun final =>
      (final.log.all fun entry => entry.conn ≠ 1 ∨ ¬asksPassword entry.performed.action) ∧
      (final.log.any fun entry => entry.conn = 1 ∧ entry.from_ = 8 ∧
        entry.performed.action = .closesocket 4) ∧
      (final.log.any fun entry => entry.conn = 1 ∧ entry.performed.action = .erase 1) ∧
      final.log.any fun entry => entry.conn = 1 ∧
        (packetFor 4 entry.performed.action).bind StruChatRq.readUserId = some 2) = true := by
    decide +kernel
  rcases (Option.any_eq_true _ _).mp evaluated with ⟨final, reached, shape⟩
  simp only [decide_eq_true_eq, List.all_eq_true, List.any_eq_true] at shape
  rcases shape with ⟨never, closes, erases, writes⟩
  refine ⟨final, reached, ?_, closes, erases, writes⟩
  rintro id ⟨entry, logged, onConn, _, tel, password, idText, rest, _, _, performed, _⟩
  rcases never entry logged with other | quiet
  · exact other onConn
  · rw [performed] at quiet
    exact quiet rfl

end State

end InstanceMessage
