import InstanceMessage.Agreements
import InstanceMessage.Server.LoginFirst

/-!
# Friendship needs a request and a consent

The server ties no answer to a request: it adds the rows that an answer with
result success names, whoever sends it. It is the clients which answer only
what they have been asked, once, and in the name of the user who has logged in.
Followed along a run: what a client answers is counted by its open questions
and by the requests that have reached it, these by the requests that handlers
have passed on; and the ids in its packets are those of successful login
replies on its connection.
-/

namespace InstanceMessage

open Library

/-- The packet answers a request of the user. -/
def answers (userId : ℤ) (packet : Bytes) : Bool :=
  packetType packet = some defAddFriendRs ∧ StruAddFriendRs.readFriendId packet = some userId

def answersFrom (conn : ConnId) (userId : ℤ) (packet : ConnId × Bytes) : Bool :=
  packet.1 = conn && answers userId packet.2

/-- The log shows that the user has logged in on the connection. -/
def LoggedInBy (log : List Entry) (conn : ConnId) (id : ℤ) : Prop :=
  ∃ entry ∈ log, entry.conn = conn ∧ entry.Verifies id

theorem answers_of_plain {userId : ℤ} {packet : Bytes} (plain : CKernel.Plain packet) :
    answers userId packet = false := by
  simp [answers, plain.2]

/-! ## Whom a client takes its user for -/

/-- The client of a connection, to which these packets have come, knows its user. -/
structure Acquainted (server : State) (conn : ConnId) (came : List Bytes) (kernel : CKernel) :
    Prop where
  shown : kernel.friendListShown = true → server.LoggedInOn conn kernel.mUserId
  welcomed : ∀ reply ∈ came, grantsLogin reply = true → kernel.friendListShown = true
  questions : ∀ rs ∈ kernel.questions, server.LoggedInOn conn rs.userId

namespace Acquainted

variable {server : State} {conn : ConnId} {came : List Bytes} {kernel next : CKernel}

theorem serve {after : State} {event : Event} (acquainted : Acquainted server conn came kernel)
    (moved : server.step event = some after) : Acquainted after conn came kernel := by
  have grows := State.log_subset_of_step moved
  exact ⟨fun shown => (acquainted.shown shown).mono grows, acquainted.welcomed,
    fun rs member => (acquainted.questions rs member).mono grows⟩

/-- A request finds the user logged in, since the login reply has come before it. -/
theorem deliver {packet : Bytes} (acquainted : Acquainted server conn came kernel)
    (queued : server.Queued) (sent : packet ∈ server.sentTo conn)
    (preceded : packetType packet = some defAddFriendRq →
      ∃ reply ∈ came, grantsLogin reply = true)
    (handles : kernel.Handles packet next) : Acquainted server conn (came ++ [packet]) next := by
  have welcomed (reply : Bytes) (present : reply ∈ came ++ [packet])
      (grants : grantsLogin reply = true) : kernel.friendListShown = true ∨ packet = reply := by
    rcases List.mem_append.mp present with old | new
    · exact Or.inl (acquainted.welcomed reply old grants)
    · exact Or.inr (List.mem_singleton.mp new).symm
  cases handles with
  | login type result readId =>
      exact ⟨fun _ => queued.login conn packet sent type result _ readId, fun _ _ _ => rfl,
        acquainted.questions⟩
  | question type readUserId =>
      have shown : kernel.friendListShown = true := by
        rcases preceded type with ⟨reply, present, grants⟩
        exact acquainted.welcomed reply present grants
      refine ⟨acquainted.shown, fun _ _ _ => shown, fun rs member => ?_⟩
      rcases List.mem_cons.mp member with rfl | old
      · exact acquainted.shown shown
      · exact acquainted.questions rs old
  | other request login user questions =>
      refine ⟨?_, fun reply present grants => ?_, questions ▸ acquainted.questions⟩
      · rw [user.friendListShown, user.mUserId]
        exact acquainted.shown
      · rcases welcomed reply present grants with shown | rfl
        · exact user.friendListShown.trans shown
        · exact absurd (of_decide_eq_true grants) login

theorem act {action : UserAction} {packet : Option Bytes}
    (acquainted : Acquainted server conn came kernel)
    (acts : kernel.Acts action next packet) : Acquainted server conn came next := by
  cases acts with
  | plain user fewer =>
      refine ⟨?_, ?_, fun rs member => acquainted.questions rs (fewer.subset member)⟩
      · rw [user.friendListShown, user.mUserId]
        exact acquainted.shown
      · rw [user.friendListShown]
        exact acquainted.welcomed
  | asks => exact acquainted
  | answers asked =>
      refine ⟨acquainted.shown, acquainted.welcomed, fun rs member =>
        acquainted.questions rs ?_⟩
      rw [asked]
      exact List.mem_cons_of_mem _ member

end Acquainted

/-! ## The ids in the packets of a client -/

/-- The packet speaks for a user who has logged in on its connection. -/
structure Signed (server : State) (packet : ConnId × Bytes) : Prop where
  asks : ∀ userId, asks userId packet.2 = true → server.LoggedInOn packet.1 userId
  answers : packetType packet.2 = some defAddFriendRs →
    ∀ userId, StruAddFriendRs.readUserId packet.2 = some userId →
      server.LoggedInOn packet.1 userId

theorem Signed.mono {server after : State} {packet : ConnId × Bytes} (signed : Signed server packet)
    (grows : server.log ⊆ after.log) : Signed after packet :=
  ⟨fun userId asked => (signed.asks userId asked).mono grows,
    fun type userId read => (signed.answers type userId read).mono grows⟩

theorem signed_of_acts {server : State} {conn : ConnId} {came : List Bytes}
    {kernel next : CKernel} {action : UserAction} {packet : Option Bytes} {data : Bytes}
    (acquainted : Acquainted server conn came kernel) (ranged : kernel.Ranged)
    (acts : kernel.Acts action next packet) (sent : packet = some data) :
    Signed server (conn, data) := by
  cases acts with
  | plain user fewer plain =>
      have silent := plain data sent
      exact ⟨fun userId asked => absurd (packetType_of_asks asked) silent.1,
        fun type => absurd type silent.2⟩
  | asks rq own shown =>
      rcases Option.some.inj sent with rfl
      refine ⟨fun userId asked => ?_, fun type => ?_⟩
      · have read : StruAddFriendRq.readUserId rq.bytes = some rq.userId :=
          StruAddFriendRq.readUserId_bytes rq (own ▸ ranged.mUserId)
        obtain rfl : rq.userId = userId :=
          Option.some.inj (read.symm.trans (of_decide_eq_true asked).2)
        exact own ▸ acquainted.shown shown
      · rw [packetType_addFriendRq] at type
        exact absurd type (by decide)
  | @answers agrees rs questions asked =>
      rcases Option.some.inj sent with rfl
      have open_ : rs ∈ kernel.questions := asked ▸ List.mem_cons_self
      refine ⟨fun userId asked => ?_, fun _ userId read => ?_⟩
      · have type := packetType_of_asks asked
        rw [packetType_addFriendRs] at type
        exact absurd type (by decide)
      · have own := StruAddFriendRs.readUserId_bytes { rs with
          result := if agrees then defAddFriendSuccess else defAddFriendRefuse }
          (ranged.questions rs open_).2
        have same : rs.userId = userId := Option.some.inj (own.symm.trans read)
        subst same
        exact acquainted.questions rs open_

/-! ## Requests, questions and answers -/

/-- The open questions about requests of the user. -/
def CKernel.asked (kernel : CKernel) (userId : ℤ) : ℕ :=
  kernel.questions.countP fun rs => rs.friendId = userId

theorem asked_of_handles {kernel next : CKernel} {packet : Bytes}
    (handles : kernel.Handles packet next) (userId : ℤ) :
    next.asked userId ≤ kernel.asked userId + [packet].countP (asks userId) := by
  cases handles with
  | login => exact Nat.le_add_right _ _
  | other request login user questions =>
      rw [CKernel.asked, questions]
      exact Nat.le_add_right _ _
  | @question friendId friendName type readUserId =>
      simp only [CKernel.asked, List.countP_cons, List.countP_nil, asks, type, readUserId,
        Option.some.injEq, true_and, decide_eq_true_eq]
      omega

theorem asked_of_acts {kernel next : CKernel} {action : UserAction} {packet : Option Bytes}
    (ranged : kernel.Ranged) (acts : kernel.Acts action next packet) (userId : ℤ) :
    packet.toList.countP (answers userId) + next.asked userId ≤ kernel.asked userId := by
  cases acts with
  | plain user fewer plain =>
      have none_ : packet.toList.countP (answers userId) = 0 :=
        List.countP_eq_zero.mpr fun data member => by
          simp [answers_of_plain (plain data (by simpa using member))]
      rw [none_, Nat.zero_add]
      exact fewer.sublist.countP_le
  | asks rq =>
      simp [answers, defAddFriendRq, defAddFriendRs]
  | @answers agrees rs questions asked =>
      have read := StruAddFriendRs.readFriendId_bytes { rs with
        result := if agrees then defAddFriendSuccess else defAddFriendRefuse }
        (ranged.questions rs (asked ▸ List.mem_cons_self)).1
      simp only [Option.toList_some, List.countP_cons, List.countP_nil, CKernel.asked, asked,
        answers, packetType_addFriendRs, read, Option.some.injEq, true_and, decide_eq_true_eq]
      omega

namespace System

/-- The answers of a client and its open questions do not outnumber the requests that have come
to it. -/
def Balanced (system : System) : Prop :=
  ∀ conn userId, system.received.countP (answersFrom conn userId) +
    system.inFlight.countP (answersFrom conn userId) + (system.client conn).asked userId ≤
      (system.came conn).countP (asks userId)

def AllAcquainted (system : System) : Prop :=
  ∀ conn, Acquainted system.server conn (system.came conn) (system.client conn)

/-- While no login reply is refused, every client knows its user. -/
theorem AllAcquainted.step {before after : System} {event : SystemEvent}
    {sendings : List Sending} (acquainted : before.AllAcquainted) (within : before.Within)
    (greets : (Outbound.mk before.server sendings).Greets)
    (stepped : Stepped before event after) : after.AllAcquainted := by
  intro conn
  cases stepped with
  | server other moved =>
      simp only [came, State.take_queuedTo_of_step (within conn) moved]
      exact (acquainted conn).serve moved
  | receive waiting moved =>
      simp only [came, State.take_queuedTo_of_step (within conn) moved]
      exact (acquainted conn).serve moved
  | @deliver mover packet kernel found handles =>
      by_cases same : conn = mover
      · subst same
        have sent : packet ∈ before.server.sentTo conn :=
          (packetsOf_sublist conn greets.delivers.taken).subset (List.mem_of_getElem? found)
        simp only [came, Function.update_self, take_queuedTo_deliver found]
        exact (acquainted conn).deliver greets.delivers.queued sent
          (fun type => greets.preceded type found) handles
      · simp only [came, Function.update_of_ne same]
        exact acquainted conn
  | @user mover action kernel packet acts =>
      by_cases same : conn = mover
      · subst same
        simp only [Function.update_self]
        exact (acquainted conn).act acts
      · simp only [Function.update_of_ne same]
        exact acquainted conn

theorem Balanced.step {before after : System} {event : SystemEvent} (balanced : before.Balanced)
    (within : before.Within) (ranged : ∀ conn, (before.client conn).Ranged)
    (stepped : Stepped before event after) : after.Balanced := by
  intro conn userId
  have now := balanced conn userId
  cases stepped with
  | server other moved =>
      simp only [came, State.take_queuedTo_of_step (within conn) moved]
      exact now
  | receive waiting moved =>
      simp only [came, State.take_queuedTo_of_step (within conn) moved, waiting,
        List.countP_append, List.countP_cons, List.countP_nil] at now ⊢
      omega
  | @deliver mover packet kernel found handles =>
      by_cases same : conn = mover
      · subst same
        have grows := asked_of_handles handles userId
        simp only [came, Function.update_self, take_queuedTo_deliver found,
          List.countP_append] at now ⊢
        omega
      · simp only [came, Function.update_of_ne same]
        exact now
  | @user mover action kernel packet acts =>
      have sent : (packet.toList.map fun data => (mover, data)).countP (answersFrom conn userId) =
          if mover = conn then packet.toList.countP (answers userId) else 0 := by
        by_cases same : mover = conn <;>
          simp [List.countP_map, answersFrom, Function.comp_def, same]
      simp only [List.countP_append, sent]
      by_cases same : conn = mover
      · subst same
        have moves := asked_of_acts (ranged conn) acts userId
        simp only [came, Function.update_self, if_true] at now ⊢
        omega
      · simp only [came, Function.update_of_ne same, if_neg (Ne.symm same)] at now ⊢
        omega

/-- All packets of clients are signed. -/
def AllSigned (system : System) : Prop :=
  ∀ packet, packet ∈ system.received ∨ packet ∈ system.inFlight → Signed system.server packet

theorem AllSigned.step {before after : System} {event : SystemEvent} (signed : before.AllSigned)
    (acquainted : before.AllAcquainted) (ranged : ∀ conn, (before.client conn).Ranged)
    (stepped : Stepped before event after) : after.AllSigned := by
  intro packet member
  cases stepped with
  | server other moved => exact (signed packet member).mono (State.log_subset_of_step moved)
  | receive waiting moved =>
      refine (signed packet ?_).mono (State.log_subset_of_step moved)
      rw [waiting]
      simp only [List.mem_append, List.mem_cons, List.not_mem_nil, or_false] at member ⊢
      tauto
  | deliver => exact signed packet member
  | @user conn action kernel sent acts =>
      rcases member with old | old
      · exact signed packet (Or.inl old)
      · rcases List.mem_append.mp old with waiting | new
        · exact signed packet (Or.inr waiting)
        · rcases List.mem_map.mp new with ⟨data, isSent, rfl⟩
          exact signed_of_acts (acquainted conn) (ranged conn) acts (Option.mem_toList.mp isSent)

/-- A task is that of the packet at its number. -/
structure Tracked (system : System) : Prop where
  count : system.received.length = system.server.nextTask
  task : ∀ task ∈ system.server.tasks, system.received[task.tid]? = some (task.conn, task.data)
  entry : ∀ entry ∈ system.server.log,
    system.received[entry.tid]? = some (entry.conn, entry.data)

theorem Tracked.step {before after : System} {event : SystemEvent} (tracked : before.Tracked)
    (stepped : Stepped before event after) : after.Tracked := by
  cases stepped with
  | @server event server other moved =>
      cases State.stepped_of_step moved with
      | accept | list | closeSocket | eraseClient =>
          exact ⟨tracked.count, tracked.task, tracked.entry⟩
      | receive => simp [Event.isReceive] at other
      | halt => exact ⟨tracked.count, by simp [State.halt], tracked.entry⟩
      | finish =>
          refine ⟨tracked.count, fun task member => ?_, tracked.entry⟩
          exact tracked.task task (List.mem_of_mem_eraseIdx member)
      | @perform index outcome task action rest after answer present shape goesOn performed =>
          have frame := (State.performs_of_perform performed).sameFrame
          have acting := tracked.task task (List.mem_of_getElem? present)
          refine ⟨?_, fun moved member => ?_, fun entry member => ?_⟩
          · simpa only [State.advance, frame.nextTask] using tracked.count
          · rcases State.mem_tasks_of_advance frame member with old | rfl
            · exact tracked.task moved old
            · exact acting
          · rw [State.log_advance frame] at member
            rcases List.mem_cons.mp member with rfl | old
            · exact acting
            · exact tracked.entry entry old
  | @receive conn data front back server waiting moved =>
      have still {tid : TaskId} {packet : ConnId × Bytes}
          (found : before.received[tid]? = some packet) :
          (before.received ++ [(conn, data)])[tid]? = some packet :=
        List.getElem?_append_left (List.getElem?_eq_some_iff.mp found).1 ▸ found
      cases State.stepped_of_step moved with
      | receive =>
          refine ⟨by simp [State.receive, tracked.count], fun task member => ?_,
            fun entry member => still (tracked.entry entry member)⟩
          rcases List.mem_append.mp member with old | new
          · exact still (tracked.task task old)
          · rw [List.mem_singleton.mp new]
            simp [← tracked.count]
  | deliver | user => exact ⟨tracked.count, tracked.task, tracked.entry⟩

end System

/-! ## Rows and the agreement to them -/

/-- The row that the entry adds is that of an agreement, which has arrived on a connection of the
user who agrees; before it the handler of a packet from a connection of the other user has
passed his request on to that connection, to which no more answers have arrived than
requests have been passed on. -/
def Consented (socket : Handle) (received : List (ConnId × Bytes)) (older : List Entry)
    (entry : Entry) (row : ℤ × ℤ) : Prop :=
  ∃ friendId userId, (row = (friendId, userId) ∨ row = (userId, friendId)) ∧
    packetType entry.data = some defAddFriendRs ∧
      StruAddFriendRs.readResult entry.data = some defAddFriendSuccess ∧
        StruAddFriendRs.readFriendId entry.data = some friendId ∧
          StruAddFriendRs.readUserId entry.data = some userId ∧
            LoggedInBy older entry.conn userId ∧
              (∃ request ∈ older, request.performed.action = .sendData request.data socket ∧
                asks friendId request.data = true ∧ LoggedInBy older request.conn friendId) ∧
                (received.take (entry.tid + 1)).countP (answersFrom entry.conn friendId) ≤
                  older.countP (Entry.forwards socket friendId)

theorem Consented.extend {socket : Handle} {received later : List (ConnId × Bytes)}
    {older : List Entry} {entry : Entry} {row : ℤ × ℤ}
    (consented : Consented socket received older entry row) (bound : entry.tid < received.length) :
    Consented socket (received ++ later) older entry row := by
  have within : entry.tid + 1 ≤ received.length := bound
  rw [Consented, List.take_append_of_le_length within]
  exact consented

namespace State

theorem data_of_forwards {state : State} (coherent : state.Coherent) {entry : Entry}
    {socket : Handle} {userId : ℤ} (logged : entry ∈ state.log)
    (forwards : entry.forwards socket userId = true) :
    entry.performed.action = .sendData entry.data socket ∧ asks userId entry.data = true := by
  rcases List.append_of_mem logged with ⟨newer, older, split⟩
  have lawful := coherent.logLawful newer entry older split
  simp only [Entry.forwards] at forwards
  split at forwards
  · rename_i packet clientId sends
    simp only [Bool.and_eq_true, decide_eq_true_eq] at forwards
    rcases forwards with ⟨rfl, asked⟩
    rw [sends] at lawful
    rcases lawful with ⟨_, reply⟩ | ⟨_, _, delivered⟩
    · exact absurd (packetType_of_asks asked) reply.packetType_ne
    · cases delivered with
      | passedOn => exact ⟨sends, asked⟩
      | told =>
          have type := packetType_of_asks asked
          rw [packetType_userInfo] at type
          exact absurd type (by decide)
  · simp at forwards

/-- A step leaves the log as it is, or adds the action of a task. -/
theorem log_cases {state next : State} {event : Event} (stepped : state.step event = some next) :
    next.log = state.log ∨ ∃ task ∈ state.tasks, ∃ action rest, ∃ answer : action.Answer,
      task.prog = .act action rest ∧
        next.log = ⟨task.tid, task.conn, task.from_, task.data, ⟨action, answer⟩⟩ :: state.log := by
  cases stepped_of_step stepped with
  | accept | list | receive | closeSocket | eraseClient | halt | finish => exact Or.inl rfl
  | @perform index outcome task action rest after answer present shape goesOn performed =>
      refine Or.inr ⟨task, List.mem_of_getElem? present, action, rest, answer, shape, ?_⟩
      exact log_advance (performs_of_perform performed).sameFrame

end State

namespace System

/-- The server and its clients keep to the protocol. -/
structure Honest (system : System) : Prop where
  greets : ∃ sendings, (Outbound.mk system.server sendings).Greets
  within : system.Within
  ranged : ∀ conn, (system.client conn).Ranged
  acquainted : system.AllAcquainted
  balanced : system.Balanced
  signed : system.AllSigned
  tracked : system.Tracked

theorem Honest.delivers {system : System} (honest : system.Honest) : system.server.Delivers := by
  rcases honest.greets with ⟨sendings, greets⟩
  exact greets.delivers

/-- When a handler adds a row, there are a consent and a request. -/
theorem Honest.consented {system : System} (honest : system.Honest) {task : Task} {idA idB : ℤ}
    {rest : (Action.update (.insertFriend idA idB)).Answer → Handler Unit}
    {answer : (Action.update (.insertFriend idA idB)).Answer} (member : task ∈ system.server.tasks)
    (shape : task.prog = .act (.update (.insertFriend idA idB)) rest) :
    Consented (system.server.handleOf task.conn) system.received system.server.log
      ⟨task.tid, task.conn, task.from_, task.data, ⟨_, answer⟩⟩ (idA, idB) := by
  have lawful := honest.delivers.coherent.lawful task member
  rw [shape] at lawful
  rcases lawful.1 with ⟨type, success, friendId, userId, readFriendId, readUserId, row⟩
  have tracked := honest.tracked.task task member
  have received := List.mem_of_getElem? tracked
  have signed := honest.signed _ (Or.inl received)
  have bound := (honest.delivers.housed.task task member).1
  have answered : answersFrom task.conn friendId (task.conn, task.data) = true := by
    simp [answersFrom, answers, type, readFriendId]
  have counted : system.received.countP (answersFrom task.conn friendId) ≤
      system.server.log.countP
        (Entry.forwards (system.server.handleOf task.conn) friendId) := by
    have balanced := honest.balanced task.conn friendId
    have come := ((List.take_sublist (system.delivered task.conn) _).trans
      (packetsOf_sublist task.conn honest.delivers.taken)).countP_le (p := asks friendId)
    have passed := honest.delivers.queued.counted task.conn bound friendId
    exact (Nat.le_of_add_right_le (Nat.le_of_add_right_le balanced)).trans (come.trans passed)
  have some_ : 0 < system.received.countP (answersFrom task.conn friendId) :=
    List.countP_pos_iff.mpr ⟨_, received, answered⟩
  refine ⟨friendId, userId, ?_, type, success, readFriendId, readUserId, ?_, ?_, ?_⟩
  · rcases row with ⟨rfl, rfl⟩ | ⟨rfl, rfl⟩
    · exact Or.inl rfl
    · exact Or.inr rfl
  · exact signed.answers type userId readUserId
  · rcases List.countP_pos_iff.mp (some_.trans_le counted) with ⟨request, logged, forwards⟩
    rcases State.data_of_forwards honest.delivers.coherent logged forwards with ⟨sends, asked⟩
    have arrived := List.mem_of_getElem? (honest.tracked.entry request logged)
    exact ⟨request, logged, sends, asked, (honest.signed _ (Or.inl arrived)).asks friendId asked⟩
  · exact ((List.take_sublist _ _).countP_le).trans counted

def FreshHandles (system : System) : SystemEvent → Prop
  | .server event => system.server.FreshHandle event
  | _ => True

/-- No handle value comes twice, and no successful login reply is refused. -/
def Regular (system : System) : SystemEvent → Prop
  | .server event => system.server.FreshHandle event ∧ system.server.TakesLogin event
  | _ => True

theorem Regular.freshHandles {system : System} {event : SystemEvent}
    (regular : system.Regular event) : system.FreshHandles event := by
  cases event with
  | server => exact regular.1
  | _ => trivial

theorem Honest.serve {system : System} {event : Event} {server : State} (honest : system.Honest)
    (regular : system.server.FreshHandle event ∧ system.server.TakesLogin event)
    (moved : system.server.step event = some server) :
    ∃ sendings, (Outbound.mk server sendings).Greets := by
  rcases honest.greets with ⟨sendings, greets⟩
  exact ⟨_, greets.step regular (Option.map_eq_some_iff.mpr ⟨server, moved, rfl⟩)⟩

theorem Honest.step {before after : System} {event : SystemEvent} (honest : before.Honest)
    (regular : before.Regular event) (stepped : Stepped before event after) : after.Honest where
  greets := by
    cases stepped with
    | server other moved => exact honest.serve regular moved
    | @receive conn data front back server waiting moved =>
        have regular : before.server.FreshHandle (.receive conn data) ∧
            before.server.TakesLogin (.receive conn data) := ⟨trivial, fun _ sends => sends.elim⟩
        exact honest.serve regular moved
    | deliver | user => exact honest.greets
  within := honest.within.step stepped
  ranged := ranged_step honest.ranged stepped
  acquainted := by
    rcases honest.greets with ⟨sendings, greets⟩
    exact honest.acquainted.step honest.within greets stepped
  balanced := honest.balanced.step honest.within honest.ranged stepped
  signed := honest.signed.step honest.acquainted honest.ranged stepped
  tracked := honest.tracked.step stepped

/-- All rows that have been added were agreed to. -/
def AllConsented (system : System) : Prop :=
  ∀ newer entry older, system.server.log = newer ++ entry :: older → ∀ idA idB,
    entry.performed.action = .update (.insertFriend idA idB) →
      Consented (system.server.handleOf entry.conn) system.received older entry (idA, idB)

theorem AllConsented.serve {before : System} {event : Event} {server : State}
    (consented : before.AllConsented) (honest : before.Honest)
    (moved : before.server.step event = some server) (later : List (ConnId × Bytes))
    {newer older : List Entry} {entry : Entry} (split : server.log = newer ++ entry :: older)
    {idA idB : ℤ} (inserts : entry.performed.action = .update (.insertFriend idA idB)) :
    Consented (server.handleOf entry.conn) (before.received ++ later) older entry (idA, idB) := by
  have old {newer : List Entry} (before_ : before.server.log = newer ++ entry :: older) :
      Consented (server.handleOf entry.conn) (before.received ++ later) older entry (idA, idB) := by
    have logged : entry ∈ before.server.log := by simp [before_]
    have handle := (State.handleOf_of_step (honest.delivers.housed.entry entry logged).1 moved).2
    rw [handle]
    exact (consented newer entry older before_ idA idB inserts).extend
      (List.getElem?_eq_some_iff.mp (honest.tracked.entry entry logged)).1
  rcases State.log_cases moved with same | ⟨task, member, action, rest, answer, shape, added⟩
  · exact old (same ▸ split)
  · rw [added] at split
    cases newer with
    | nil =>
        rcases List.cons.inj split with ⟨rfl, rfl⟩
        have same : action = .update (.insertFriend idA idB) := inserts
        subst same
        have bound := (honest.delivers.housed.task task member).1
        have handle := (State.handleOf_of_step bound moved).2
        rw [handle]
        exact (honest.consented member shape).extend
          (List.getElem?_eq_some_iff.mp (honest.tracked.task task member)).1
    | cons first newer => exact old (List.cons.inj split).2

theorem AllConsented.step {before after : System} {event : SystemEvent}
    (consented : before.AllConsented) (honest : before.Honest)
    (stepped : Stepped before event after) : after.AllConsented := by
  intro newer entry older split idA idB inserts
  cases stepped with
  | server other moved =>
      have same := consented.serve honest moved [] split inserts
      rwa [List.append_nil] at same
  | receive waiting moved => exact consented.serve honest moved _ split inserts
  | deliver | user => exact consented newer entry older split idA idB inserts

def isRegular (system : System) : SystemEvent → Bool
  | .server event => (Outbound.mk system.server []).isRegular event
  | _ => true

theorem isRegular_sound (system : System) (event : SystemEvent)
    (passed : system.isRegular event = true) : system.Regular event := by
  cases event with
  | server event => exact Outbound.isRegular_sound (Outbound.mk system.server []) event passed
  | _ => trivial

end System

end InstanceMessage
