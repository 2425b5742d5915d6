import InstanceMessage.Server.Answers
import InstanceMessage.Server.Deliveries

/-!
# The login reply comes first

When `WSASend` fails at once, `sendData` frees its buffers and returns like
after a success, so its caller enters the user in the map as if he had his login
reply, and he is told about himself and about others without it. As long as no
successful login reply is refused, and no connection has the handle 0 that
`m_mapIdToSocket[id]` enters for an absent user, everything that a connection
gets from other users, and all user information, comes after a login reply to
it.
-/

namespace InstanceMessage

open Library

/-- A packet that `WSASend` takes, with the request whose handler sends it. -/
structure Sending where
  conn : ConnId
  packet : Bytes
  request : Bytes
  deriving DecidableEq

/-- User information, and what handlers pass on. An answer to a request for friendship has the
type of the server's own refusals; it is the handler of an answer that passes answers on. -/
def Sending.presumesLogin (sending : Sending) : Bool :=
  packetType sending.packet = some defUserInfo ∨ packetType sending.packet = some defChatRq ∨
    packetType sending.packet = some defAddFriendRq ∨
      packetType sending.packet = some defOfflineRq ∨
        (packetType sending.packet = some defAddFriendRs ∧
          packetType sending.request = some defAddFriendRs)

/-- Before every packet that presumes a login, a login has been granted on its connection. -/
def LoginFirst (queued : List Sending) : Prop :=
  ∀ earlier sending later, queued = earlier ++ sending :: later → sending.presumesLogin = true →
    ∃ reply ∈ earlier, reply.conn = sending.conn ∧ grantsLogin reply.packet = true

/-- The same for the packets of one connection. -/
theorem LoginFirst.preceded {sendings : List Sending} (first : LoginFirst sendings)
    {queued : List (ConnId × Bytes)}
    (same : sendings.map (fun sending => (sending.conn, sending.packet)) = queued)
    {conn : ConnId} {position : ℕ} {packet : Bytes}
    (type : packetType packet = some defAddFriendRq)
    (found : (packetsOf conn queued)[position]? = some packet) :
    ∃ reply ∈ (packetsOf conn queued).take position, grantsLogin reply = true := by
  have own : packetsOf conn queued = (sendings.filter (·.conn = conn)).map (·.packet) := by
    simp [packetsOf, ← same, List.filter_map, Function.comp_def]
  rw [own, List.getElem?_map] at found
  rcases Option.map_eq_some_iff.mp found with ⟨sending, present, rfl⟩
  rcases List.getElem?_eq_some_iff.mp present with ⟨bound, atPosition⟩
  have split := List.take_append_drop position (sendings.filter (·.conn = conn))
  rw [List.drop_eq_getElem_cons bound, atPosition] at split
  -- the filtered list is cut before the request, and so is the whole one
  rcases List.filter_eq_append_iff.mp split.symm with ⟨before, rest, whole, front, back⟩
  rcases List.filter_eq_cons_iff.mp back with ⟨others, later, cut, foreign, ofConn, _⟩
  have presumes : sending.presumesLogin = true := by simp [Sending.presumesLogin, type]
  rcases first (before ++ others) sending later (by simp [whole, cut]) presumes with
    ⟨reply, earlier, toConn, grants⟩
  have ofSame : sending.conn = conn := of_decide_eq_true ofConn
  refine ⟨reply.packet, ?_, grants⟩
  rw [own, ← List.map_take, ← front]
  refine List.mem_map_of_mem (List.mem_filter.mpr ⟨?_, decide_eq_true (toConn.trans ofSame)⟩)
  rcases List.mem_append.mp earlier with inFront | between
  · exact inFront
  · exact absurd (decide_eq_true (toConn.trans ofSame)) (foreign reply between)

theorem LoginFirst.append {queued : List Sending} {last : Sending} (first : LoginFirst queued)
    (granted : last.presumesLogin = true →
      ∃ reply ∈ queued, reply.conn = last.conn ∧ grantsLogin reply.packet = true) :
    LoginFirst (queued ++ [last]) := by
  intro earlier sending later split presumes
  rcases List.eq_nil_or_concat later with rfl | ⟨between, newest, rfl⟩
  · rcases List.append_inj' split rfl with ⟨rfl, same⟩
    rcases List.cons.inj same with ⟨rfl, _⟩
    exact granted presumes
  · rw [List.concat_eq_append, ← List.cons_append, ← List.append_assoc] at split
    rcases List.append_inj' split rfl with ⟨inside, _⟩
    exact first earlier sending between inside presumes

/-- The server's own replies presume no login. -/
theorem Reply.not_presumesLogin {data packet : Bytes} {history : History} {conn : ConnId}
    (reply : Reply data history packet) :
    (Sending.mk conn packet data).presumesLogin = false := by
  have info : packetType packet ≠ some defUserInfo := reply.packetType_ne_of_notMem (by decide)
  have chat : packetType packet ≠ some defChatRq := reply.packetType_ne_of_notMem (by decide)
  have request : packetType packet ≠ some defAddFriendRq := reply.packetType_ne
  have offline : packetType packet ≠ some defOfflineRq := reply.packetType_ne_of_notMem (by decide)
  simp only [Sending.presumesLogin, info, chat, request, offline, reply.packetType_data_ne,
    and_false, or_false, decide_false]

/-! ## The queues of the network layer -/

namespace State

/-- What `WSASend` takes in the event. -/
def sendings (state next : State) : Event → List Sending
  | .act index _ =>
      match state.tasks[index]? with
      | some task =>
          (next.queued.drop state.queued.length).map fun packet => ⟨packet.1, packet.2, task.data⟩
      | none => []
  | _ => []

/-- The event is a `sendData` of the packet. -/
def Sends (state : State) (packet : Bytes) : Event → Prop
  | .act index _ => ∃ task clientId rest, state.tasks[index]? = some task ∧
      task.prog = .act (.sendData packet clientId) rest
  | _ => False

/-- `WSASend` does not refuse to send a successful login reply. -/
def TakesLogin (state : State) (event : Event) : Prop :=
  ∀ packet, state.Sends packet event → grantsLogin packet = true → event.takes = true

/-- What an event sends, and to whom. -/
theorem sendings_of_step {state next : State} {event : Event} (housed : state.Housed)
    (stepped : state.step event = some next) :
    (next.sent = state.sent ∧ next.queued = state.queued ∧ state.sendings next event = []) ∨
      ∃ task ∈ state.tasks, ∃ packet conn, ∃ rest : Unit → Handler Unit,
        task.prog = .act (.sendData packet (state.handleOf conn)) rest ∧
        state.Sends packet event ∧ conn < state.nextConn ∧ state.Reachable conn ∧
          next.sent = state.sent ++ [(conn, packet)] ∧
            next.queued = state.queued ++ (if event.takes then [(conn, packet)] else []) ∧
              state.sendings next event =
                if event.takes then [⟨conn, packet, task.data⟩] else [] := by
  cases stepped_of_step stepped with
  | accept | list | receive | closeSocket | eraseClient | finish => exact Or.inl ⟨rfl, rfl, rfl⟩
  | @halt index outcome task action rest present shape stops =>
      simp [sendings, present, State.halt]
  | @perform index outcome task action rest after answer present shape goesOn performed =>
      rcases (performs_of_perform performed).handed housed with
        same | ⟨packet, conn, rfl, bound, reachable, appended⟩
      · have still := queued_eq_of_step stepped same
        refine Or.inl ⟨same, still, ?_⟩
        simp only [sendings, present, still, List.drop_length, List.map_nil]
      · rcases Prod.mk.inj (Option.some.inj performed) with ⟨rfl, _⟩
        have queued := queued_sendData reachable packet outcome.takes
        refine Or.inr ⟨task, List.mem_of_getElem? present, packet, conn, rest, shape,
          ⟨task, _, rest, present, shape⟩, bound, reachable, appended, queued, ?_⟩
        simp only [sendings, present, advance, queued, List.drop_left, Event.takes]
        by_cases taken : outcome.takes = true <;> simp [taken]

end State

/-- The server, and what has been queued with the requests for which it has been. -/
structure Outbound where
  server : State
  queued : List Sending := []

namespace Outbound

def start (tUser : List UserRow) (tFriend : List (ℤ × ℤ)) : Outbound :=
  { server := .start tUser tFriend }

def step (outbound : Outbound) (event : Event) : Option Outbound :=
  (outbound.server.step event).map fun next =>
    ⟨next, outbound.queued ++ outbound.server.sendings next event⟩

end Outbound

def outbound : Machine Outbound Event := ⟨Outbound.step⟩

namespace Outbound

/-- `accept` returns a handle value that it has not returned before and that is not 0, and
`WSASend` does not refuse to send a successful login reply. -/
def Regular (outbound : Outbound) (event : Event) : Prop :=
  outbound.server.FreshHandle event ∧ outbound.server.TakesLogin event

/-- Login replies that have been sent are queued, and come first. -/
structure Greets (outbound : Outbound) : Prop where
  delivers : outbound.server.Delivers
  same : outbound.queued.map (fun sending => (sending.conn, sending.packet)) =
    outbound.server.queued
  queued : ∀ conn, outbound.server.Greeted conn →
    ∃ reply ∈ outbound.queued, reply.conn = conn ∧ grantsLogin reply.packet = true
  first : LoginFirst outbound.queued

theorem greets_start (tUser : List UserRow) (tFriend : List (ℤ × ℤ)) :
    (start tUser tFriend).Greets where
  delivers := State.delivers_start tUser tFriend
  same := rfl
  queued := by simp [start, State.start, State.Greeted]
  first := by simp [start, LoginFirst]

theorem Greets.preceded {outbound : Outbound} (greets : outbound.Greets) {conn : ConnId}
    {position : ℕ} {packet : Bytes} (type : packetType packet = some defAddFriendRq)
    (found : (outbound.server.queuedTo conn)[position]? = some packet) :
    ∃ reply ∈ (outbound.server.queuedTo conn).take position, grantsLogin reply = true :=
  greets.first.preceded greets.same type found

/-- A packet that presumes a login goes to a user whose socket has been looked up. -/
theorem Greets.greeted_of_presumesLogin {outbound : Outbound} (greets : outbound.Greets)
    {task : Task} {packet : Bytes} {conn : ConnId} {rest : Unit → Handler Unit}
    (member : task ∈ outbound.server.tasks)
    (shape : task.prog = .act (.sendData packet (outbound.server.handleOf conn)) rest)
    (bound : conn < outbound.server.nextConn) (reachable : outbound.server.Reachable conn)
    (presumes : (Sending.mk conn packet task.data).presumesLogin = true) :
    outbound.server.Greeted conn := by
  have delivers := greets.delivers
  have lawful := delivers.coherent.lawful task member
  rw [shape] at lawful
  rcases lawful.1 with ⟨_, reply⟩ | ⟨id, lookedUp, _⟩
  · exact absurd (reply.not_presumesLogin ▸ presumes) Bool.false_ne_true
  · exact State.greeted_of_lookedUp delivers.greeting delivers.unshared bound reachable lookedUp

theorem Greets.step {before after : Outbound} {event : Event} (greets : before.Greets)
    (regular : before.Regular event) (stepped : before.step event = some after) :
    after.Greets := by
  rcases regular with ⟨fresh, takes⟩
  rcases Option.map_eq_some_iff.mp stepped with ⟨next, moved, rfl⟩
  have delivers := greets.delivers.step fresh moved
  rcases State.sendings_of_step greets.delivers.housed moved with
    ⟨same, still, nothing⟩ | ⟨task, member, packet, conn, rest, shape, sends, bound, reachable,
      appended, queued, sending⟩
  · refine ⟨delivers, ?_, ?_, ?_⟩
    · simpa [nothing, still] using greets.same
    · intro conn greeted
      simpa [nothing] using greets.queued conn (by simpa only [State.Greeted, same] using greeted)
    · simpa [nothing] using greets.first
  · have granted (other : ConnId) (greeted : next.Greeted other) :
        (∃ reply ∈ before.queued, reply.conn = other ∧ grantsLogin reply.packet = true) ∨
          (conn = other ∧ grantsLogin packet = true) := by
      rcases greeted with ⟨id, sent⟩
      rw [appended] at sent
      rcases List.mem_append.mp sent with old | new
      · exact Or.inl (greets.queued other ⟨id, old⟩)
      · rcases Prod.mk.inj (List.mem_singleton.mp new) with ⟨rfl, rfl⟩
        exact Or.inr ⟨rfl, grantsLogin_loginSuccess id⟩
    cases taken : event.takes with
    | false =>
        simp only [taken, Bool.false_eq_true, if_false, List.append_nil] at sending queued
        refine ⟨delivers, ?_, ?_, ?_⟩
        · simpa [sending, queued] using greets.same
        · intro other greeted
          rcases granted other greeted with known | ⟨_, grants⟩
          · simpa [sending] using known
          · exact absurd (taken ▸ takes packet sends grants) Bool.false_ne_true
        · simpa [sending] using greets.first
    | true =>
        simp only [taken, if_true] at sending queued
        simp only [sending]
        refine ⟨delivers, ?_, ?_, greets.first.append fun presumes => ?_⟩
        · simp only [List.map_append, greets.same, queued, List.map_cons, List.map_nil]
        · intro other greeted
          rcases granted other greeted with ⟨reply, known, toOther⟩ | ⟨same, grants⟩
          · exact ⟨reply, List.mem_append_left _ known, toOther⟩
          · exact ⟨_, List.mem_append_right _ (List.mem_singleton_self _), same, grants⟩
        · exact greets.queued conn
            (greets.greeted_of_presumesLogin member shape bound reachable presumes)

/-- A connection is told nothing about users before its login reply, while handles other than 0
are used once and `WSASend` refuses no such reply. -/
theorem login_reply_first {tUser : List UserRow} {tFriend : List (ℤ × ℤ)} {final : Outbound}
    {events : List Event} (regular : outbound.Meets Regular (start tUser tFriend) events)
    (reached : outbound.run (start tUser tFriend) events = some final) :
    LoginFirst final.queued :=
  (outbound.run_invariant Greets Greets.step (greets_start tUser tFriend) regular reached).first

/-! ## Alice logs in -/

def isRegular (outbound : Outbound) (event : Event) : Bool :=
  match event with
  | .accept socket => socket ≠ 0 ∧
      (List.range outbound.server.nextConn).all fun conn => outbound.server.handleOf conn ≠ socket
  | _ => event.takes

theorem isRegular_sound (outbound : Outbound) (event : Event)
    (passed : outbound.isRegular event = true) : outbound.Regular event := by
  cases event with
  | accept socket =>
      simp only [isRegular, decide_eq_true_eq, List.all_eq_true, List.mem_range] at passed
      exact ⟨passed, fun packet sends => sends.elim⟩
  | _ => exact ⟨trivial, fun _ _ _ => passed⟩

theorem login_reply_first_login : ∃ final,
    outbound.run (start [alice] []) (logsIn alice 0 4) = some final ∧
      final.queued.map (·.presumesLogin) = [false, true] ∧ LoginFirst final.queued := by
  have evaluated : (outbound.run (start [alice] []) (logsIn alice 0 4)).any
      (fun final => final.queued.map (·.presumesLogin) = [false, true]) = true := by
    decide +kernel
  have passed : outbound.allSteps isRegular (start [alice] []) (logsIn alice 0 4) = true := by
    decide +kernel
  rcases (Option.any_eq_true _ _).mp evaluated with ⟨final, reached, shape⟩
  exact ⟨final, reached, by simpa using shape,
    login_reply_first (outbound.meets_of_allSteps isRegular_sound passed) reached⟩

/-- `WSASend` refuses the login reply of the only connection, and takes what follows. -/
theorem login_reply_first_fails : ∃ final,
    outbound.run (start [alice] []) ((logsIn alice 0 4).set 4 (.act 0 .refused)) = some final ∧
      ¬LoginFirst final.queued := by
  have evaluated : (outbound.run (start [alice] []) ((logsIn alice 0 4).set 4
      (.act 0 .refused))).any (fun final => final.queued.map (·.presumesLogin) = [true]) =
        true := by
    decide +kernel
  rcases (Option.any_eq_true _ _).mp evaluated with ⟨final, reached, shape⟩
  simp only [decide_eq_true_eq, List.map_eq_singleton_iff] at shape
  rcases shape with ⟨sending, only, presumes⟩
  refine ⟨final, reached, fun first => ?_⟩
  rcases first [] sending [] only presumes with ⟨reply, earlier, _⟩
  simp at earlier

end Outbound

end InstanceMessage
