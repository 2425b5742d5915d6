import InstanceMessage.Server.Sessions

/-!
# What is sent to a connection

While no handle value is used twice, what the server sends to a connection is
meant for it: a successful login reply goes to the connection on which the user
has logged in, and no request for friendship is sent to a connection before a
successful login reply. The latter holds although the reply and the request are
sent by different handlers: the reply is sent before the socket is entered in
the map, the request after it has been found there, and a connection that can
no longer be reached cannot be reached again. It is about what `sendData` hands
to `WSASend`; what is queued is a sublist of it.
-/

namespace InstanceMessage

open Library

/-- The packet is a request of the user for friendship. -/
def asks (userId : ℤ) (packet : Bytes) : Bool :=
  packetType packet = some defAddFriendRq ∧ StruAddFriendRq.readUserId packet = some userId

/-- The handler passes on a request of the user to the socket. -/
def Entry.forwards (socket : Handle) (userId : ℤ) (entry : Entry) : Bool :=
  match entry.performed.action with
  | .sendData packet clientId => clientId = socket && asks userId packet
  | _ => false

/-- The packet is a login reply with result success. -/
def grantsLogin (packet : Bytes) : Bool :=
  packetType packet = some defLoginRs ∧ StruLoginRs.readResult packet = some defLoginSuccess

theorem grantsLogin_loginSuccess (id : ℤ) : grantsLogin (loginSuccess id) = true := by
  have range : IsInt32 defLoginSuccess := by decide
  have result : StruLoginRs.readResult (loginSuccess id) = some defLoginSuccess :=
    StruLoginRs.readResult_bytes { result := defLoginSuccess, id := id } range
  have type : packetType (loginSuccess id) = some defLoginRs := packetType_loginRs _
  exact decide_eq_true ⟨type, result⟩

theorem packetType_of_asks {userId : ℤ} {packet : Bytes} (asked : asks userId packet = true) :
    packetType packet = some defAddFriendRq := (of_decide_eq_true asked).1

theorem Reply.login_of_read {data packet : Bytes} {history : History} {id : ℤ}
    (reply : Reply data history packet) (type : packetType packet = some defLoginRs)
    (result : StruLoginRs.readResult packet = some defLoginSuccess)
    (readId : StruLoginRs.readId packet = some id) :
    packetType data = some defLoginRq ∧ PasswordMatched data history id := by
  cases reply with
  | register _ rs => exact absurd (packetType_registerRs rs ▸ type) (by decide)
  | loginFailed _ rs failed range =>
      rw [StruLoginRs.readResult_bytes rs range] at result
      exact absurd (Option.some.inj result) failed
  | @login known requested range matched =>
      have same : StruLoginRs.readId (loginSuccess known) = some known :=
        StruLoginRs.readId_bytes _ range
      have same : known = id := Option.some.inj (same.symm.trans readId)
      subst same
      exact ⟨requested, matched⟩
  | addFriendFailed _ rs => exact absurd (packetType_addFriendRs rs ▸ type) (by decide)
  | chatFailed _ rs => exact absurd (packetType_chatRs rs ▸ type) (by decide)

/-! ## Packets of one connection -/

def packetsOf (conn : ConnId) (packets : List (ConnId × Bytes)) : List Bytes :=
  (packets.filter (·.1 = conn)).map Prod.snd

theorem packetsOf_append (conn : ConnId) (first second : List (ConnId × Bytes)) :
    packetsOf conn (first ++ second) = packetsOf conn first ++ packetsOf conn second := by
  simp only [packetsOf, List.filter_append, List.map_append]

theorem packetsOf_singleton (conn other : ConnId) (packet : Bytes) :
    packetsOf other [(conn, packet)] = if conn = other then [packet] else [] := by
  by_cases same : conn = other <;> simp [packetsOf, same]

theorem mem_packetsOf {conn : ConnId} {packets : List (ConnId × Bytes)} {data : Bytes} :
    data ∈ packetsOf conn packets ↔ (conn, data) ∈ packets := by
  simp [packetsOf]

theorem packetsOf_sublist {first second : List (ConnId × Bytes)} (conn : ConnId)
    (sublist : first.Sublist second) : (packetsOf conn first).Sublist (packetsOf conn second) :=
  (sublist.filter _).map _

namespace State

/-- What has been handed to `WSASend` for the connection. -/
def sentTo (state : State) (conn : ConnId) : List Bytes := packetsOf conn state.sent

/-- What `WSASend` has taken for the connection. -/
def queuedTo (state : State) (conn : ConnId) : List Bytes := packetsOf conn state.queued

/-- `accept` returns a handle value that is not 0 and that no connection has had. -/
def FreshHandle (state : State) : Event → Prop
  | .accept socket => socket ≠ 0 ∧ ∀ conn < state.nextConn, state.handleOf conn ≠ socket
  | _ => True

/-- Different connections have different handles. -/
structure Unshared (state : State) : Prop where
  nonzero : ∀ conn < state.nextConn, state.handleOf conn ≠ 0
  injective : ∀ conn < state.nextConn, ∀ other < state.nextConn,
    state.handleOf conn = state.handleOf other → conn = other

theorem unshared_start (tUser : List UserRow) (tFriend : List (ℤ × ℤ)) :
    (start tUser tFriend).Unshared := by
  constructor <;> simp [start]

theorem Unshared.step {state next : State} {event : Event} (unshared : state.Unshared)
    (fresh : state.FreshHandle event) (stepped : state.step event = some next) :
    next.Unshared := by
  cases stepped_of_step stepped with
  | @accept socket free =>
      rcases fresh with ⟨nonzero, unused⟩
      have handleOf {conn : ConnId} (old : conn < state.nextConn) :
          (state.accept socket).handleOf conn = state.handleOf conn :=
        Function.update_of_ne old.ne _ _
      have newHandle : (state.accept socket).handleOf state.nextConn = socket :=
        Function.update_self _ _ _
      constructor
      · intro conn bound
        rcases Nat.lt_succ_iff_lt_or_eq.mp bound with old | rfl
        · rw [handleOf old]
          exact unshared.nonzero conn old
        · rw [newHandle]
          exact nonzero
      · intro conn bound other otherBound same
        rcases Nat.lt_succ_iff_lt_or_eq.mp bound with old | rfl <;>
          rcases Nat.lt_succ_iff_lt_or_eq.mp otherBound with otherOld | rfl
        · rw [handleOf old, handleOf otherOld] at same
          exact unshared.injective conn old other otherOld same
        · rw [handleOf old, newHandle] at same
          exact absurd same (unused conn old)
        · rw [handleOf otherOld, newHandle] at same
          exact absurd same.symm (unused other otherOld)
        · rfl
  | perform present shape goesOn performed =>
      have frame := (performs_of_perform performed).sameFrame
      refine ⟨?_, ?_⟩
      · simpa only [advance, frame.nextConn, frame.handleOf] using unshared.nonzero
      · simpa only [advance, frame.nextConn, frame.handleOf] using unshared.injective
  | list | receive | closeSocket | eraseClient | halt | finish =>
      exact ⟨unshared.nonzero, unshared.injective⟩

theorem mem_sentTo {state : State} {conn : ConnId} {packet : Bytes} :
    packet ∈ state.sentTo conn ↔ (conn, packet) ∈ state.sent := mem_packetsOf

theorem sentTo_of_append {state after : State} {conn : ConnId} {packet : Bytes}
    (appended : after.sent = state.sent ++ [(conn, packet)]) (other : ConnId) :
    after.sentTo other = state.sentTo other ++ if conn = other then [packet] else [] := by
  rw [sentTo, appended, packetsOf_append, packetsOf_singleton]
  rfl

/-! ## The login reply comes first -/

def Greeted (state : State) (conn : ConnId) : Prop := ∃ id, (conn, loginSuccess id) ∈ state.sent

theorem Greeted.mono {state after : State} {conn : ConnId} (greeted : state.Greeted conn)
    (grows : state.sent ⊆ after.sent) : after.Greeted conn := by
  rcases greeted with ⟨id, queued⟩
  exact ⟨id, grows queued⟩

theorem Performs.sent_subset {state after : State} {action : Action} {answer : action.Answer}
    (performs : Performs state action after answer) : state.sent ⊆ after.sent := by
  rcases performs.sent with same | ⟨_, _, _, _, _, _, _, appended⟩
  · rw [same]
    exact List.Subset.refl _
  · rw [appended]
    exact List.subset_append_left _ _

theorem sent_subset_of_step {state next : State} {event : Event}
    (stepped : state.step event = some next) : state.sent ⊆ next.sent := by
  cases stepped_of_step stepped with
  | accept | list | receive | closeSocket | eraseClient | halt | finish =>
      exact List.Subset.refl _
  | perform present shape goesOn performed => exact (performs_of_perform performed).sent_subset

section Step

variable {state next : State} {event : Event} {conn : ConnId}

theorem handleOf_of_step (old : conn < state.nextConn) (stepped : state.step event = some next) :
    conn < next.nextConn ∧ next.handleOf conn = state.handleOf conn := by
  cases stepped_of_step stepped with
  | accept => exact ⟨Nat.lt_succ_of_lt old, Function.update_of_ne old.ne _ _⟩
  | perform present shape goesOn performed =>
      have frame := (performs_of_perform performed).sameFrame
      exact ⟨by simpa only [advance, frame.nextConn] using old,
        by simp only [advance, frame.handleOf]⟩
  | list | receive | closeSocket | eraseClient | halt | finish => exact ⟨old, rfl⟩

/-- A connection is entered in `m_clients` once. -/
theorem context_of_step (old : conn < state.nextConn) (listed : state.context conn ≠ .accepted)
    (stepped : state.step event = some next) : next.context conn ≠ .accepted := by
  cases stepped_of_step stepped with
  | accept => simpa only [State.accept, Function.update_of_ne old.ne] using listed
  | @list accepted waiting =>
      have different : conn ≠ accepted := fun same => listed (same ▸ waiting)
      simpa only [State.list, Function.update_of_ne different] using listed
  | @closeSocket closed =>
      by_cases same : conn = closed
      · simp [State.closeSocket, same]
      · simpa only [State.closeSocket, Function.update_of_ne same] using listed
  | @eraseClient closed =>
      by_cases same : conn = closed
      · simp [State.eraseClient, same]
      · simpa only [State.eraseClient, Function.update_of_ne same] using listed
  | perform present shape goesOn performed =>
      simpa only [advance, (performs_of_perform performed).sameFrame.context] using listed
  | receive | halt | finish => exact listed

/-- What is sent to the connection's handle reaches the connection. -/
def Reachable (state : State) (conn : ConnId) : Prop :=
  state.sockets (state.handleOf conn) = some conn ∧
    state.mClients (state.handleOf conn) = some (state.handleOf conn)

theorem sent_sendData (reachable : state.Reachable conn) (packet : Bytes) (taken : Bool) :
    (state.sendData packet (state.handleOf conn) taken).sent =
      state.sent ++ [(conn, packet)] := by
  simp [sendData, reachable.1, reachable.2]

theorem queued_sendData (reachable : state.Reachable conn) (packet : Bytes) (taken : Bool) :
    (state.sendData packet (state.handleOf conn) taken).queued =
      state.queued ++ if taken then [(conn, packet)] else [] := by
  simp [sendData, reachable.1, reachable.2]

/-- A connection that cannot be reached does not come back. -/
theorem reachable_of_step (housed : state.Housed) (unshared : state.Unshared)
    (fresh : state.FreshHandle event) (old : conn < state.nextConn)
    (listed : state.context conn ≠ .accepted) (stepped : state.step event = some next)
    (reachable : next.Reachable conn) : state.Reachable conn := by
  rcases reachable with ⟨isOpen, inTable⟩
  rw [(handleOf_of_step old stepped).2] at isOpen inTable
  cases stepped_of_step stepped with
  | @accept opened free =>
      refine ⟨?_, inTable⟩
      simpa only [State.accept, Function.update_of_ne (fresh.2 conn old)] using isOpen
  | @list accepted waiting =>
      have different : conn ≠ accepted := fun same => listed (same ▸ waiting)
      have other : state.handleOf conn ≠ state.handleOf accepted := fun same => different <|
        unshared.injective conn old accepted (housed.context accepted (by simp [waiting])) same
      refine ⟨isOpen, ?_⟩
      simpa only [State.list, Function.update_of_ne other] using inTable
  | @closeSocket closed receiving =>
      refine ⟨?_, inTable⟩
      by_cases same : state.handleOf conn = state.handleOf closed
      · simp [State.closeSocket, same] at isOpen
      · simpa only [State.closeSocket, Function.update_of_ne same] using isOpen
  | @eraseClient closed closing =>
      refine ⟨isOpen, ?_⟩
      by_cases same : state.handleOf conn = state.handleOf closed
      · simp [State.eraseClient, same] at inTable
      · simpa only [State.eraseClient, Function.update_of_ne same] using inTable
  | perform present shape goesOn performed =>
      have performs := performs_of_perform performed
      simp only [advance, performs.sameFrame.mClients] at isOpen inTable
      rcases performs.sockets (state.handleOf conn) with same | ⟨_, closed⟩
      · exact ⟨same ▸ isOpen, inTable⟩
      · simp [closed] at isOpen
  | receive | halt | finish => exact ⟨isOpen, inTable⟩

/-- The socket is that of a connection which has been greeted or cannot be reached, or zero. -/
def Greets (state : State) (socket : Handle) : Prop :=
  socket = 0 ∨ ∃ conn < state.nextConn, state.handleOf conn = socket ∧
    state.context conn ≠ .accepted ∧ (state.Reachable conn → state.Greeted conn)

theorem Greets.step {socket : Handle} (greets : state.Greets socket) (housed : state.Housed)
    (unshared : state.Unshared) (fresh : state.FreshHandle event)
    (stepped : state.step event = some next) : next.Greets socket := by
  rcases greets with zero | ⟨conn, old, handle, listed, greeted⟩
  · exact Or.inl zero
  rcases handleOf_of_step old stepped with ⟨bound, kept⟩
  refine Or.inr ⟨conn, bound, kept.trans handle, context_of_step old listed stepped, ?_⟩
  intro reachable
  exact (greeted (reachable_of_step housed unshared fresh old listed stepped reachable)).mono
    (sent_subset_of_step stepped)

end Step

/-- Every socket that handlers enter, find or have replied to is that of a greeted connection. -/
structure Greeting (state : State) : Prop where
  taskListed : ∀ task ∈ state.tasks, state.context task.conn ≠ .accepted
  entered : ∀ id socket, state.mMapIdToSocket id = some socket → state.Greets socket
  found : ∀ entry ∈ state.log, ∀ id (socket : Handle),
    entry.performed = (⟨.socketOf id, socket⟩ : Performed Action.Answer) → state.Greets socket
  replied : ∀ entry ∈ state.log, ∀ id,
    entry.performed.action = .sendData (loginSuccess id) entry.from_ → state.Greets entry.from_

theorem greeting_start (tUser : List UserRow) (tFriend : List (ℤ × ℤ)) :
    (start tUser tFriend).Greeting := by
  constructor <;> simp [start]

theorem Greeting.step {state next : State} {event : Event} (greeting : state.Greeting)
    (coherent : state.Coherent) (housed : state.Housed) (unshared : state.Unshared)
    (fresh : state.FreshHandle event) (stepped : state.step event = some next) :
    next.Greeting := by
  have still {socket : Handle} (greets : state.Greets socket) : next.Greets socket :=
    greets.step housed unshared fresh stepped
  have listed (task : Task) (member : task ∈ state.tasks) : next.context task.conn ≠ .accepted :=
    context_of_step (housed.task task member).1 (greeting.taskListed task member) stepped
  have entered (id : ℤ) (socket : Handle) (old : state.mMapIdToSocket id = some socket) :=
    still (greeting.entered id socket old)
  have found (entry : Entry) (logged : entry ∈ state.log) (id : ℤ) (socket : Handle)
      (lookup : entry.performed = (⟨.socketOf id, socket⟩ : Performed Action.Answer)) :=
    still (greeting.found entry logged id socket lookup)
  have replied (entry : Entry) (logged : entry ∈ state.log) (id : ℤ)
      (reply : entry.performed.action = .sendData (loginSuccess id) entry.from_) :=
    still (greeting.replied entry logged id reply)
  cases stepped_of_step stepped with
  | accept | list | closeSocket | eraseClient => exact ⟨listed, entered, found, replied⟩
  | halt => exact ⟨by simp [State.halt], entered, found, replied⟩
  | receive receiving =>
      refine ⟨fun task member => ?_, entered, found, replied⟩
      rcases List.mem_append.mp member with old | new
      · exact listed task old
      · rw [List.mem_singleton.mp new]
        simp [State.receive, receiving]
  | finish =>
      exact ⟨fun task member => listed task (List.mem_of_mem_eraseIdx member), entered, found,
        replied⟩
  | @perform index outcome task action rest after answer present shape goesOn performed =>
      have performs := performs_of_perform performed
      have frame := performs.sameFrame
      have member := List.mem_of_getElem? present
      have lawful := coherent.lawful task member
      rw [shape] at lawful
      refine ⟨fun other moved => ?_, fun id socket now => ?_, ?_, ?_⟩
      · rcases mem_tasks_of_advance frame moved with old | rfl
        · exact listed other old
        · exact listed task member
      · rcases performs.entry now with old | rfl | ⟨_, _, zero⟩
        · exact entered id socket old
        · rcases lawful.1 with ⟨_, rfl, _, sent⟩
          rcases mem_historyOf.mp sent with ⟨entry, logged, same, did⟩
          have own := (coherent.ofTask task member entry logged same).2.1
          have greets := replied entry logged id (by rw [did, own])
          exact own ▸ greets
        · exact Or.inl zero
      · intro entry logged id socket lookup
        rw [log_advance frame] at logged
        rcases List.mem_cons.mp logged with rfl | old
        · rcases performs.found lookup with present | zero
          · exact entered id socket present
          · exact Or.inl zero
        · exact found entry old id socket lookup
      · intro entry logged id reply
        rw [log_advance frame] at logged
        rcases List.mem_cons.mp logged with rfl | old
        · rcases housed.task task member with ⟨bound, own⟩
          rcases handleOf_of_step bound stepped with ⟨still, kept⟩
          refine Or.inr ⟨task.conn, still, kept.trans own.symm, listed task member, ?_⟩
          intro reachable
          have before := reachable_of_step housed unshared fresh bound
            (greeting.taskListed task member) stepped reachable
          have same : action = .sendData (loginSuccess id) task.from_ := reply
          subst same
          cases performs
          refine ⟨id, ?_⟩
          simp only [advance, own, sent_sendData before]
          simp
        · exact replied entry old id reply

/-! ## The queues -/

/-- What is sent to a connection, against the log. -/
structure Queued (state : State) : Prop where
  bounded : ∀ conn packet, (conn, packet) ∈ state.sent → conn < state.nextConn
  login : ∀ conn, ∀ packet ∈ state.sentTo conn, packetType packet = some defLoginRs →
    StruLoginRs.readResult packet = some defLoginSuccess →
      ∀ id, StruLoginRs.readId packet = some id → state.LoggedInOn conn id
  request : ∀ conn position packet, (state.sentTo conn)[position]? = some packet →
    packetType packet = some defAddFriendRq →
      ∃ id, loginSuccess id ∈ (state.sentTo conn).take position
  counted : ∀ conn < state.nextConn, ∀ userId,
    (state.sentTo conn).countP (asks userId) ≤
      state.log.countP (Entry.forwards (state.handleOf conn) userId)

theorem queued_start (tUser : List UserRow) (tFriend : List (ℤ × ℤ)) :
    (start tUser tFriend).Queued := by
  constructor <;> simp [start, sentTo, packetsOf]

theorem Performs.handed {state after : State} {action : Action} {answer : action.Answer}
    (performs : Performs state action after answer) (housed : state.Housed) :
    after.sent = state.sent ∨ ∃ packet conn, action = .sendData packet (state.handleOf conn) ∧
      conn < state.nextConn ∧ state.Reachable conn ∧
        after.sent = state.sent ++ [(conn, packet)] := by
  rcases performs.sent with same | ⟨packet, clientId, socket, conn, sends, listed, isOpen, appended⟩
  · exact Or.inl same
  · rcases housed.client clientId socket listed with rfl
    rcases housed.socket socket conn isOpen with ⟨bound, rfl⟩
    exact Or.inr ⟨packet, conn, sends, bound, ⟨isOpen, listed⟩, appended⟩

section Send

variable {state : State} {task : Task} {conn : ConnId} {packet : Bytes}

/-- A login reply goes to the connection of the login. -/
theorem loggedInOn_of_send (coherent : state.Coherent) (housed : state.Housed)
    (unshared : state.Unshared) (member : task ∈ state.tasks) (bound : conn < state.nextConn)
    (lawful : law task.data task.from_ (historyOf state.log task.tid)
      (.sendData packet (state.handleOf conn)))
    (type : packetType packet = some defLoginRs)
    (result : StruLoginRs.readResult packet = some defLoginSuccess) {id : ℤ}
    (readId : StruLoginRs.readId packet = some id) : state.LoggedInOn conn id := by
  rcases lawful with ⟨own, reply⟩ | ⟨_, _, delivered⟩
  · rcases reply.login_of_read type result readId with ⟨requested, matched⟩
    rcases housed.task task member with ⟨taskBound, from_⟩
    rcases unshared.injective conn bound task.conn taskBound (own.trans from_) with rfl
    exact loggedInOn_of_matched coherent member requested matched
  · exact absurd type delivered.packetType_ne

/-- What is sent to a socket that has been looked up comes to a greeted connection. -/
theorem greeted_of_lookedUp (greeting : state.Greeting) (unshared : state.Unshared)
    (bound : conn < state.nextConn) (reachable : state.Reachable conn) {id : ℤ}
    (lookedUp : LookedUp (historyOf state.log task.tid) id (state.handleOf conn)) :
    state.Greeted conn := by
  rcases mem_historyOf.mp lookedUp with ⟨entry, logged, _, lookup⟩
  rcases greeting.found entry logged id _ lookup with zero | ⟨other, otherBound, same, _, greeted⟩
  · exact absurd zero (unshared.nonzero conn bound)
  · rcases unshared.injective other otherBound conn bound same with rfl
    exact greeted reachable

/-- A request is passed on to a connection that has been greeted. -/
theorem greeted_of_send (greeting : state.Greeting) (unshared : state.Unshared)
    (bound : conn < state.nextConn) (reachable : state.Reachable conn)
    (lawful : law task.data task.from_ (historyOf state.log task.tid)
      (.sendData packet (state.handleOf conn)))
    (type : packetType packet = some defAddFriendRq) : state.Greeted conn := by
  rcases lawful with ⟨_, reply⟩ | ⟨id, lookedUp, _⟩
  · exact absurd type reply.packetType_ne
  · exact greeted_of_lookedUp greeting unshared bound reachable lookedUp

end Send

theorem Queued.append {state next : State} (queued : state.Queued) {conn : ConnId}
    {packet : Bytes} (appended : next.sent = state.sent ++ [(conn, packet)])
    (nextConn : next.nextConn = state.nextConn) (handleOf : next.handleOf = state.handleOf)
    {entry : Entry} (log : next.log = entry :: state.log) (bound : conn < state.nextConn)
    (sends : entry.performed.action = .sendData packet (state.handleOf conn))
    (login : packetType packet = some defLoginRs →
      StruLoginRs.readResult packet = some defLoginSuccess →
        ∀ id, StruLoginRs.readId packet = some id → state.LoggedInOn conn id)
    (request : packetType packet = some defAddFriendRq → state.Greeted conn) : next.Queued := by
  have grows : state.log ⊆ next.log := log ▸ List.subset_cons_self _ _
  have queue := sentTo_of_append appended
  refine ⟨?_, ?_, ?_, ?_⟩
  · intro other sent member
    rw [appended] at member
    rw [nextConn]
    rcases List.mem_append.mp member with old | new
    · exact queued.bounded other sent old
    · rcases Prod.mk.inj (List.mem_singleton.mp new) with ⟨rfl, rfl⟩
      exact bound
  · intro other sent member type result id readId
    rw [queue] at member
    rcases List.mem_append.mp member with old | new
    · exact (queued.login other sent old type result id readId).mono grows
    · split at new
      · rename_i same
        rcases List.mem_singleton.mp new with rfl
        exact same ▸ (login type result id readId).mono grows
      · simp at new
  · intro other position sent found type
    rw [queue] at found ⊢
    by_cases inside : position < (state.sentTo other).length
    · rw [List.getElem?_append_left inside] at found
      rw [List.take_append_of_le_length inside.le]
      exact queued.request other position sent found type
    · rw [List.getElem?_append_right (by omega)] at found
      split at found
      · rename_i same
        subst same
        have newest : sent = packet := List.mem_singleton.mp (List.mem_of_getElem? found)
        rcases request (newest ▸ type) with ⟨id, greeted⟩
        refine ⟨id, ?_⟩
        rw [List.take_append, List.take_of_length_le (not_lt.mp inside)]
        exact List.mem_append_left _ (mem_sentTo.mpr greeted)
      · simp at found
  · intro other otherBound userId
    rw [nextConn] at otherBound
    have before := queued.counted other otherBound userId
    rw [queue, log, handleOf, List.countP_append, List.countP_cons]
    split
    · rename_i same
      subst same
      simp only [Entry.forwards, sends, List.countP_singleton, decide_true, Bool.true_and]
      omega
    · simp only [List.countP_nil]
      omega

theorem Queued.step {state next : State} {event : Event} (queued : state.Queued)
    (coherent : state.Coherent) (housed : state.Housed) (unshared : state.Unshared)
    (greeting : state.Greeting) (stepped : state.step event = some next) : next.Queued := by
  cases stepped_of_step stepped with
  | list | receive | closeSocket | eraseClient | halt | finish =>
      exact ⟨queued.bounded, queued.login, queued.request, queued.counted⟩
  | @accept socket =>
      refine ⟨fun conn packet member => Nat.lt_succ_of_lt (queued.bounded conn packet member),
        queued.login, queued.request, fun conn bound userId => ?_⟩
      rcases Nat.lt_succ_iff_lt_or_eq.mp bound with old | rfl
      · have before := queued.counted conn old userId
        rwa [← (handleOf_of_step old stepped).2] at before
      · have empty : state.sentTo state.nextConn = [] := by
          apply List.eq_nil_iff_forall_not_mem.mpr
          intro packet member
          exact absurd (queued.bounded _ _ (mem_sentTo.mp member)) (lt_irrefl _)
        have same : (state.accept socket).sentTo state.nextConn =
            state.sentTo state.nextConn := rfl
        rw [same, empty]
        exact Nat.zero_le _
  | @perform index outcome task action rest after answer present shape goesOn performed =>
      have performs := performs_of_perform performed
      have frame := performs.sameFrame
      have member := List.mem_of_getElem? present
      have lawful := coherent.lawful task member
      rw [shape] at lawful
      have grows := log_subset_of_step stepped
      rcases performs.handed housed with same | ⟨packet, conn, rfl, bound, reachable, appended⟩
      · have queue (conn : ConnId) : (after.advance index task action answer
            (rest answer)).sentTo conn = state.sentTo conn := by
          simp only [sentTo, advance, same]
        refine ⟨?_, ?_, ?_, ?_⟩
        · simpa only [advance, same, frame.nextConn] using queued.bounded
        · intro conn packet member type result id readId
          rw [queue] at member
          exact (queued.login conn packet member type result id readId).mono grows
        · simpa only [queue] using queued.request
        · intro conn bound userId
          simp only [advance, frame.nextConn] at bound
          have before := queued.counted conn bound userId
          rw [queue]
          simp only [advance, frame.log, frame.handleOf, List.countP_cons]
          omega
      · exact queued.append appended frame.nextConn frame.handleOf
          (log_advance frame) bound rfl
          (fun type result id readId =>
            loggedInOn_of_send coherent housed unshared member bound lawful.1 type result readId)
          (greeted_of_send greeting unshared bound reachable lawful.1)

/-- A step sends nothing, or hands over one packet, which is taken or refused. -/
theorem queues_of_step {state next : State} {event : Event}
    (stepped : state.step event = some next) :
    (next.sent = state.sent ∧ next.queued = state.queued) ∨ ∃ last,
      next.sent = state.sent ++ [last] ∧
        (next.queued = state.queued ∨ next.queued = state.queued ++ [last]) := by
  cases stepped_of_step stepped with
  | accept | list | receive | closeSocket | eraseClient | halt | finish => exact Or.inl ⟨rfl, rfl⟩
  | perform present shape goesOn performed => exact (performs_of_perform performed).queues

theorem queued_eq_of_step {state next : State} {event : Event}
    (stepped : state.step event = some next) (same : next.sent = state.sent) :
    next.queued = state.queued := by
  rcases queues_of_step stepped with ⟨_, queued⟩ | ⟨last, appended, _⟩
  · exact queued
  · simp [same] at appended

theorem sentTo_prefix_of_step {state next : State} {event : Event} (conn : ConnId)
    (stepped : state.step event = some next) : state.sentTo conn <+: next.sentTo conn := by
  rcases queues_of_step stepped with ⟨same, _⟩ | ⟨last, appended, _⟩
  · simp only [sentTo, same, List.prefix_rfl]
  · rw [sentTo, sentTo, appended, packetsOf_append]
    exact List.prefix_append _ _

theorem queuedTo_prefix_of_step {state next : State} {event : Event} (conn : ConnId)
    (stepped : state.step event = some next) : state.queuedTo conn <+: next.queuedTo conn := by
  rcases queues_of_step stepped with ⟨_, same⟩ | ⟨last, _, same | appended⟩
  · simp only [queuedTo, same, List.prefix_rfl]
  · simp only [queuedTo, same, List.prefix_rfl]
  · rw [queuedTo, queuedTo, appended, packetsOf_append]
    exact List.prefix_append _ _

/-- What is queued has been sent. -/
theorem queued_sublist_of_step {state next : State} {event : Event}
    (sublist : state.queued.Sublist state.sent) (stepped : state.step event = some next) :
    next.queued.Sublist next.sent := by
  rcases queues_of_step stepped with ⟨sent, queued⟩ | ⟨last, sent, queued | queued⟩
  · rwa [sent, queued]
  · rw [sent, queued]
    exact sublist.trans (List.sublist_append_left _ _)
  · rw [sent, queued]
    exact sublist.append (List.Sublist.refl _)

theorem queued_sublist_of_run {tUser : List UserRow} {tFriend : List (ℤ × ℤ)}
    {events : List Event} {final : State}
    (reached : server.run (start tUser tFriend) events = some final) :
    final.queued.Sublist final.sent :=
  server.run_invariant_of_step (fun state => state.queued.Sublist state.sent)
    (fun sublist stepped => queued_sublist_of_step sublist stepped) (List.Sublist.refl _) reached

theorem take_queuedTo_of_step {state next : State} {event : Event} {conn : ConnId}
    {delivered : ℕ} (within : delivered ≤ (state.queuedTo conn).length)
    (stepped : state.step event = some next) :
    (next.queuedTo conn).take delivered = (state.queuedTo conn).take delivered := by
  rcases queuedTo_prefix_of_step conn stepped with ⟨later, appended⟩
  rw [← appended, List.take_append_of_le_length within]

/-- What has been refused is not made up for. -/
theorem queuedTo_eq_of_step {state next : State} {event : Event} {conn : ConnId}
    (taken : state.queued.Sublist state.sent) (stepped : state.step event = some next)
    (same : next.queuedTo conn = next.sentTo conn) :
    state.queuedTo conn = state.sentTo conn := by
  rcases queues_of_step stepped with ⟨sent, queued⟩ | ⟨last, sent, queued | queued⟩
  · rwa [queuedTo, sentTo, queued, sent] at same
  · rw [queuedTo, sentTo, queued, sent, packetsOf_append] at same
    have atMost := (packetsOf_sublist conn taken).length_le
    have nothing : packetsOf conn [last] = [] := by
      have lengths := congrArg List.length same
      rw [List.length_append] at lengths
      exact List.length_eq_zero_iff.mp (by omega)
    rwa [nothing, List.append_nil] at same
  · rw [queuedTo, sentTo, queued, sent, packetsOf_append, packetsOf_append] at same
    exact List.append_cancel_right same

/-- The server keeps track of its connections and of what it queues to them. -/
structure Delivers (state : State) : Prop where
  coherent : state.Coherent
  housed : state.Housed
  unshared : state.Unshared
  greeting : state.Greeting
  queued : state.Queued
  taken : state.queued.Sublist state.sent

theorem delivers_start (tUser : List UserRow) (tFriend : List (ℤ × ℤ)) :
    (start tUser tFriend).Delivers :=
  ⟨coherent_start _ _, housed_start _ _, unshared_start _ _, greeting_start _ _, queued_start _ _,
    List.Sublist.refl _⟩

theorem Delivers.step {state next : State} {event : Event} (delivers : state.Delivers)
    (fresh : state.FreshHandle event) (stepped : state.step event = some next) :
    next.Delivers := by
  rcases delivers with ⟨coherent, housed, unshared, greeting, queued, taken⟩
  exact ⟨coherent.step stepped, housed.step stepped, unshared.step fresh stepped,
    greeting.step coherent housed unshared fresh stepped,
    queued.step coherent housed unshared greeting stepped, queued_sublist_of_step taken stepped⟩

end State

end InstanceMessage
