import InstanceMessage.FriendLists
import InstanceMessage.Server.Departures

/-!
# Presence

Whether a friend is shown online is decided by the last packet about him that
has been queued to the connection: user information, which a handler has put
together from the map some time before, or the departure, which his own handler
passes on some time before it removes his entry. Between the two moments other
handlers write the entry, send and finish.

`Current` holds of every state of a run whose actions come in time: a user with
an entry is going to be told about the friend, or what he has been told agrees
with the friend's entry and with what the handlers in progress are going to do
to it. When no handler is in progress, nothing is going to be done.
-/

namespace InstanceMessage

open Library

theorem statusAfter_of_departs {id : ℤ} {status : Option ℤ} {packet : Bytes}
    (silent : tells id packet = false) (leaves : departs id packet = true) :
    statusAfter id status packet ≠ some defStatusOnline := by
  simp only [statusAfter, silent, leaves, Bool.false_eq_true, if_false, if_true]
  cases status with
  | none => simp
  | some shown => simp [defStatusOffline, defStatusOnline]

theorem statusAfter_of_tells {id : ℤ} {status : Option ℤ} {packet : Bytes}
    (told : tells id packet = true) :
    statusAfter id status packet = some defStatusOnline ↔
      StruUserInfo.readStatus packet = some defStatusOnline := by
  simp only [statusAfter, told, if_true]
  cases StruUserInfo.readStatus packet with
  | none => simp [defStatusOffline, defStatusOnline]
  | some shown => simp

namespace State

theorem Agrees.of_iff {state : State} {id friendId : ℤ} {entry : Handle} {status other : Option ℤ}
    (agrees : state.Agrees id friendId entry status)
    (same : other = some defStatusOnline ↔ status = some defStatusOnline) :
    state.Agrees id friendId entry other :=
  ⟨fun shown => agrees.online (same.mp shown),
    fun shown => agrees.offline fun before => shown (same.mpr before)⟩

/-- A user with an entry is going to be told about each friend, or has been told what agrees. -/
def Current (state : State) : Prop :=
  ∀ id friendId conn, state.Connected id conn → state.Friends id friendId →
    state.WillTell id friendId (state.handleOf conn) ∨
      state.Agrees id friendId (state.handleOf conn) (statusIn friendId (state.sentTo conn))

section Step

variable {state next after : State} {event : Event} {id friendId : ℤ} {conn : ConnId}
  {index : ℕ} {outcome : Outcome} {task : Task} {action : Action}
  {rest : action.Answer → Handler Unit} {answer : action.Answer}

/-- Only a packet about the friend, sent to the connection, changes the status that is shown. -/
theorem statusIn_advance (performs : Performs state action after answer) (housed : state.Housed)
    (silent : ¬TellsOf friendId (state.handleOf conn) action)
    (stays : ¬DepartsOf friendId (state.handleOf conn) action) :
    statusIn friendId ((after.advance index task action answer (rest answer)).sentTo conn) =
      statusIn friendId (state.sentTo conn) := by
  rcases performs.handed housed with same | ⟨packet, other, rfl, bound, reachable, appended⟩
  · simp only [sentTo, advance, same]
  · have queue : (after.advance index task (.sendData packet (state.handleOf other)) answer
        (rest answer)).sentTo conn = _ := sentTo_of_append appended conn
    rw [queue]
    split
    · rename_i same
      subst same
      have told : tells friendId packet = false :=
        Bool.eq_false_iff.mpr fun told => silent ⟨packet, rfl, told⟩
      have leaves : departs friendId packet = false :=
        Bool.eq_false_iff.mpr fun leaves => stays ⟨packet, rfl, leaves⟩
      simp [statusAfter, told, leaves]
    · rw [List.append_nil]

theorem statusIn_sendData {packet : Bytes} {prog : Handler Unit}
    {answer : (Action.sendData packet (state.handleOf conn)).Answer}
    (performs : Performs state (.sendData packet (state.handleOf conn)) after answer)
    (reachable : state.Reachable conn) :
    statusIn friendId ((after.advance index task (.sendData packet (state.handleOf conn)) answer
        prog).sentTo conn) =
      statusAfter friendId (statusIn friendId (state.sentTo conn)) packet := by
  rcases performs.eq_sendData with ⟨taken, rfl⟩
  have queue : ((state.sendData packet (state.handleOf conn) taken).advance index task
      (.sendData packet (state.handleOf conn)) answer prog).sentTo conn = _ :=
    sentTo_of_append (sent_sendData reachable packet taken) conn
  rw [queue, if_pos rfl, statusIn_append_singleton]

/-- What a handler sends about the friend in time agrees, or he is told about again. -/
theorem current_of_tells (performs : Performs state action after answer)
    (connected : state.Connected id conn) (friends : state.Friends id friendId)
    (inTime : state.ActsInTime index task action rest) (parts : Parts (.act action rest))
    (sends : TellsOf friendId (state.handleOf conn) action) :
    (after.advance index task action answer (rest answer)).WillTell id friendId
        (state.handleOf conn) ∨
      (after.advance index task action answer (rest answer)).Agrees id friendId
        (state.handleOf conn)
        (statusIn friendId
          ((after.advance index task action answer (rest answer)).sentTo conn)) := by
  rcases sends with ⟨packet, rfl, told⟩
  have frame := performs.sameFrame
  rcases inTime id friendId conn rfl connected friends told with again | agrees
  · exact Or.inl (pending_advance frame again)
  · have sameMap : after.mMapIdToSocket = state.mMapIdToSocket := by
      rcases performs.eq_sendData with ⟨taken, rfl⟩
      rcases state.exists_sendData_eq packet (state.handleOf conn) taken with ⟨_, _, same⟩
      rw [same]
    have keeps := parts.2 (packetType_of_tells told) friendId
    refine Or.inr ((agrees.advance frame sameMap keeps).of_iff ?_)
    rw [statusIn_sendData performs connected.reachable]
    exact statusAfter_of_tells told

/-- A friend who is shown what agrees is shown what agrees after an action that neither tells about
him nor enters him. -/
theorem agrees_perform (agrees : state.Agrees id friendId (state.handleOf conn)
      (statusIn friendId (state.sentTo conn)))
    (connected : state.Connected id conn) (housed : state.Housed)
    (performs : Performs state action after answer) (present : state.tasks[index]? = some task)
    (shape : task.prog = .act action rest)
    (grants : Grants id friendId (state.handleOf conn) action answer)
    (still : state.mMapIdToSocket friendId ≠ none → StillEntered friendId action answer)
    (inTime : state.ActsInTime index task action rest) (parts : Parts (.act action rest))
    (silent : ¬TellsOf friendId (state.handleOf conn) action)
    (unwritten : ∀ socket, action ≠ .setSocket friendId socket) :
    (after.advance index task action answer (rest answer)).Agrees id friendId
      (state.handleOf conn)
      (statusIn friendId
        ((after.advance index task action answer (rest answer)).sentTo conn)) := by
  by_cases departs : DepartsOf friendId (state.handleOf conn) action
  · rcases departs with ⟨packet, rfl, leaves⟩
    have told : tells friendId packet = false :=
      Bool.eq_false_iff.mpr fun told => silent ⟨packet, rfl, told⟩
    rw [statusIn_sendData performs connected.reachable]
    constructor
    · intro shown
      exact absurd shown (statusAfter_of_departs told leaves)
    · intro _ _
      exact ⟨_, mem_tasks_advance_self performs.sameFrame present, parts.1 friendId leaves⟩
  · rw [statusIn_advance performs housed silent departs]
    constructor
    · intro shown
      exact (agrees.online shown).perform performs present shape grants parts departs
    · intro shown entered
      exact leaves_perform (agrees.offline shown) performs present shape inTime still unwritten
        entered

theorem Current.perform (current : state.Current) (delivers : state.Delivers)
    (announced : ∀ task ∈ state.tasks, task.prog.Everywhere Announces)
    (parts : ∀ task ∈ state.tasks, task.prog.Everywhere Parts)
    (fresh : state.FreshHandle (.act index outcome))
    (succeeds : state.Succeeds (.act index outcome)) (timely : state.Timely (.act index outcome))
    (present : state.tasks[index]? = some task) (shape : task.prog = .act action rest)
    (performed : state.perform action outcome = some (after, answer))
    (stepped : state.step (.act index outcome) =
      some (after.advance index task action answer (rest answer))) :
    (after.advance index task action answer (rest answer)).Current := by
  have performs := performs_of_perform performed
  have frame := performs.sameFrame
  have member := List.mem_of_getElem? present
  have parting := (parts task member).here
  rw [shape] at parting
  have inTime := timely task action rest present shape
  intro id friendId conn connected friends
  have handle : (after.advance index task action answer (rest answer)).handleOf conn =
      state.handleOf conn := congrFun frame.handleOf conn
  rw [handle]
  rcases known_or_announced delivers announced fresh present shape performs stepped connected
    friends with ⟨before, old⟩ | announces
  · have well := succeeds task action rest present shape
    have grants := grants_of_perform performed well before.entered old
    by_cases sends : TellsOf friendId (state.handleOf conn) action
    · exact current_of_tells performs before old inTime parting sends
    by_cases writes : ∃ socket, action = .setSocket friendId socket
    · rcases writes with ⟨socket, rfl⟩
      have announces := (announced task member).here
      rw [shape] at announces
      exact Or.inl ⟨_, mem_tasks_advance_self frame present,
        (announces id (state.handleOf conn)).2⟩
    have unwritten (socket : Handle) (same : action = .setSocket friendId socket) : False :=
      writes ⟨socket, same⟩
    rcases current id friendId conn before old with pending | agrees
    · rcases pending.perform frame present shape grants with told | still
      · exact absurd told sends
      · exact Or.inl still
    · exact Or.inr (agrees_perform agrees before delivers.housed performs present shape grants
        (stillEntered_of_perform performed well) inTime parting sends unwritten)
  · exact Or.inl announces

theorem Current.step (current : state.Current) (delivers : state.Delivers)
    (announced : ∀ task ∈ state.tasks, task.prog.Everywhere Announces)
    (parts : ∀ task ∈ state.tasks, task.prog.Everywhere Parts) (fresh : state.FreshHandle event)
    (succeeds : state.Succeeds event) (timely : state.Timely event)
    (stepped : state.step event = some next) (running : next.halted = false) : next.Current := by
  have kept (sameMap : next.mMapIdToSocket = state.mMapIdToSocket)
      (sameRows : next.tFriend = state.tFriend) (sameSent : next.sent = state.sent)
      (keeps : ∀ task ∈ state.tasks, task.prog ≠ .ret () → task ∈ next.tasks)
      (starts : ∀ task ∈ next.tasks, task ∈ state.tasks ∨
        ∃ data from_, task.prog = dealData data from_) : next.Current := by
    intro id friendId conn connected friends
    rcases connected.before delivers fresh stepped (by rw [sameMap]) with ⟨before, handle⟩
    have old : state.Friends id friendId := ⟨sameRows ▸ friends.row, sameRows ▸ friends.reverse⟩
    have queue : next.sentTo conn = state.sentTo conn := by simp only [sentTo, sameSent]
    rw [handle, queue]
    rcases current id friendId conn before old with pending | agrees
    · exact Or.inl (pending.of_tasks keeps)
    · refine Or.inr (agrees.of_tasks sameMap keeps fun task member => ?_)
      rcases starts task member with there | ⟨data, from_, new⟩
      · exact Or.inl there
      · rw [new]
        exact Or.inr (dealData_warns data from_ id friendId _)
  cases stepped_of_step stepped with
  | accept | list | closeSocket | eraseClient =>
      exact kept rfl rfl rfl (fun _ member _ => member) fun _ member => Or.inl member
  | receive =>
      refine kept rfl rfl rfl (fun _ member _ => List.mem_append_left _ member) ?_
      intro task member
      rcases List.mem_append.mp member with old | new
      · exact Or.inl old
      · exact Or.inr ⟨_, _, by rw [List.mem_singleton.mp new]⟩
  | perform present shape goesOn performed =>
      exact current.perform delivers announced parts fresh succeeds timely present shape performed
        stepped
  | halt => simp [State.halt] at running
  | finish present returned =>
      exact kept rfl rfl rfl
        (fun _ member acts => mem_eraseIdx_of_not_returned present returned member acts)
        fun _ member => Or.inl (List.mem_of_mem_eraseIdx member)

end Step

end State

namespace Reception

def Timely (reception : Reception) : ReceptionEvent → Prop
  | .server event => reception.server.Timely event
  | _ => True

structure Presented (reception : Reception) : Prop where
  consistent : reception.Consistent
  parts : ∀ task ∈ reception.server.tasks, task.prog.Everywhere Parts
  current : reception.server.halted = false → reception.server.Current

theorem presented_start (tUser : List UserRow) {tFriend : List (ℤ × ℤ)}
    (symmetric : ∀ idA idB, (idA, idB) ∈ tFriend → (idB, idA) ∈ tFriend) :
    (start tUser tFriend).Presented where
  consistent := consistent_start tUser symmetric
  parts := by simp [start, State.start]
  current := by
    intro _ id friendId conn connected
    have nothing : none = some ((State.start tUser tFriend).handleOf conn) := connected.entered
    cases nothing

theorem Presented.step {qt : Qt} {before after : Reception} {event : ReceptionEvent}
    (presented : before.Presented) (regular : before.Regular event) (timely : before.Timely event)
    (stepped : before.step qt event = some after) : after.Presented := by
  have consistent := presented.consistent.step regular stepped
  cases event with
  | server event =>
      rcases Option.map_eq_some_iff.mp stepped with ⟨server, moved, rfl⟩
      have informed := presented.consistent.informed
      refine ⟨consistent, ?_, fun running => ?_⟩
      · exact State.programs_step (fun data from_ => dealData_parts data from_)
          (fun _ _ _ _ answer everywhere => everywhere.2 answer) presented.parts moved
      · exact (presented.current (State.not_halted_of_step moved)).step informed.delivers
          informed.announced presented.parts regular.1 regular.2 timely moved running
  | deliver conn =>
      rcases Option.bind_eq_some_iff.mp stepped with ⟨packet, _, moved⟩
      rcases Option.map_eq_some_iff.mp moved with ⟨kernel, _, rfl⟩
      exact ⟨consistent, presented.parts, presented.current⟩
  | user conn action =>
      rcases Option.map_eq_some_iff.mp stepped with ⟨⟨kernel, packet⟩, _, rfl⟩
      exact ⟨consistent, presented.parts, presented.current⟩

/-- Presence converges. In a run from a symmetric table in which all statements succeed, no handle
value comes twice, the process does not end and all actions come in time, whenever no handler is
in progress and the client on a user's connection has got all its packets: it shows a friend
online if and only if he has an entry in the map. -/
theorem presence_converges {qt : Qt} {tUser : List UserRow} {tFriend : List (ℤ × ℤ)}
    {events : List ReceptionEvent} {final : Reception}
    (symmetric : ∀ idA idB, (idA, idB) ∈ tFriend → (idB, idA) ∈ tFriend)
    (reached : (InstanceMessage.reception qt).run (start tUser tFriend) events = some final)
    (meets : (InstanceMessage.reception qt).Meets
      (fun state event => state.Regular event ∧ state.Timely event) (start tUser tFriend) events)
    (running : final.server.halted = false)
    (single : ∀ conn id other, final.server.LoggedInOn conn id →
      final.server.LoggedInOn conn other → id = other)
    (idle : final.server.tasks = []) {id : ℤ} {socket : Handle} {conn : ConnId}
    (entered : final.server.mMapIdToSocket id = some socket)
    (isOpen : final.server.sockets socket = some conn)
    (processed : final.delivered conn = (final.server.sentTo conn).length) {friendId : ℤ}
    (different : friendId ≠ id) (friends : (id, friendId) ∈ final.server.tFriend) :
    (final.client conn).status friendId = some defStatusOnline ↔
      (final.server.mMapIdToSocket friendId).isSome = true := by
  have presented : final.Presented := (InstanceMessage.reception qt).run_invariant Presented
    (fun presented meets stepped => presented.step meets.1 meets.2 stepped)
    (presented_start tUser symmetric) meets reached
  have informed := presented.consistent.informed
  have connected := informed.listed.connected informed.delivers entered isOpen
  have account (other : ℤ) (loggedIn : final.server.LoggedInOn conn other) : other = id :=
    single conn other id loggedIn (informed.loggedInOn entered isOpen)
  have reverse : (friendId, id) ∈ final.server.tFriend := by
    rcases (informed.paired running).reverse (id, friendId) friends with
      swapped | ⟨task, taskMem, _⟩
    · exact swapped
    · simp [idle] at taskMem
  have shown := (presented.consistent.lists_of_processed processed).status id account friendId
  rw [if_neg different] at shown
  rw [shown, Option.isSome_iff_ne_none]
  have finished {granted : (action : Action) → action.Answer → Prop} {goal : Action → Prop}
      (pending : final.server.Pending granted goal) : False := by
    rcases pending with ⟨task, taskMem, _⟩
    simp [idle] at taskMem
  rcases presented.current running id friendId conn connected ⟨friends, reverse⟩ with
    pending | agrees
  · exact (finished pending).elim
  · constructor
    · intro online
      exact (agrees.online online).entered
    · intro present
      by_contra offline
      exact finished (agrees.offline offline present)

/-! ## A friend comes online -/

/-- The condition of a step in time, for a server on which one packet is handled at a time. -/
def timely (reception : Reception) : ReceptionEvent → Bool
  | .server (.act index _) =>
      match reception.server.tasks[index]? with
      | some task =>
          match task.prog with
          | .act (.socketOf id) _ => (reception.server.mMapIdToSocket id).isSome
          | .act (.sendData packet _) _ => packetType packet ≠ some defUserInfo ∨
              reception.server.tasks.length = 1 ∧ ∀ friendId ∈ StruUserInfo.readId packet,
                (StruUserInfo.readStatus packet = some defStatusOnline ↔
                  (reception.server.mMapIdToSocket friendId).isSome = true)
          | _ => true
      | none => true
  | _ => true

theorem timely_sound (reception : Reception) (event : ReceptionEvent)
    (passed : reception.timely event = true) : reception.Timely event := by
  cases event with
  | server event =>
      cases event with
      | act index outcome =>
          intro task action rest present shape
          simp only [timely, present, shape] at passed
          cases action with
          | socketOf id =>
              intro absent
              simp [absent] at passed
          | sendData packet clientId =>
              intro id friendId conn _ _ _ told
              simp only [packetType_of_tells told, readId_of_tells told, ne_eq, not_true_eq_false,
                false_or, Option.mem_def, Option.some.injEq, forall_eq',
                decide_eq_true_eq] at passed
              rcases passed with ⟨alone, right⟩
              have first : index < 1 := alone ▸ (List.getElem?_eq_some_iff.mp present).1
              have nobody : (reception.server.others index).tasks = [] := by
                apply List.eq_nil_of_length_eq_zero
                rw [State.others, List.length_eraseIdx_of_lt (by omega), alone]
              right
              constructor
              · intro online
                refine ⟨Option.isSome_iff_ne_none.mp (right.mp online), ?_⟩
                simp [nobody]
              · intro offline entered
                exact absurd (right.mpr (Option.isSome_iff_ne_none.mpr entered)) offline
          | _ => trivial
      | _ => trivial
  | _ => trivial

/-- The answers to the handler of a login with one friend in the list; `online` are those that it
gets while it passes the user's information on to the friend. -/
def loginOutcomes (user friend : UserRow) (online : List Outcome) : List Outcome :=
  [.rows (some [[user.pass, decimal user.id]]), .internal, .internal, .internal,
    .rows (some [[user.name, user.feeling, decimal user.iconId]]), .internal, .internal, .internal,
    .rows (some [[decimal friend.id]]), .internal,
    .rows (some [[friend.name, friend.feeling, decimal friend.iconId]]), .internal, .internal,
    .internal, .internal] ++ online

def aliceThenBob : List Event :=
  [.accept 4, .list 0, .receive 0 (StruLoginRq.bytes ⟨alice.tel, alice.pass⟩)] ++
    (loginOutcomes alice bob []).map (.act 0) ++
    [.finish 0, .accept 8, .list 1, .receive 1 (StruLoginRq.bytes ⟨bob.tel, bob.pass⟩)] ++
    (loginOutcomes bob alice [.internal, .internal]).map (.act 0) ++ [.finish 0]

theorem presence_converges_online : ∃ final,
    (InstanceMessage.reception System.asciiQt).run (start [alice, bob] [(1, 2), (2, 1)])
        (aliceThenBob.map .server ++ List.replicate 4 (.deliver 0)) = some final ∧
      (final.server.mMapIdToSocket 2).isSome = true ∧
        ((final.client 0).status 2 = some defStatusOnline ↔
          (final.server.mMapIdToSocket 2).isSome = true) := by
  have evaluated : ((InstanceMessage.reception System.asciiQt).run
      (start [alice, bob] [(1, 2), (2, 1)])
      (aliceThenBob.map .server ++ List.replicate 4 (.deliver 0))).any (fun final =>
        final.server.halted = false ∧ final.server.tasks.isEmpty ∧
          final.server.tFriend = [(1, 2), (2, 1)] ∧ final.server.mMapIdToSocket 1 = some 4 ∧
            (final.server.mMapIdToSocket 2).isSome = true ∧ final.server.sockets 4 = some 0 ∧
              final.delivered 0 = (final.server.sentTo 0).length ∧
                logins final.server.log = [(1, 2), (0, 1)]) = true := by
    decide +kernel
  have passed : (InstanceMessage.reception System.asciiQt).allSteps
      (fun state event => state.regular event && state.timely event)
      (start [alice, bob] [(1, 2), (2, 1)])
      (aliceThenBob.map .server ++ List.replicate 4 (.deliver 0)) = true := by
    decide +kernel
  rcases (Option.any_eq_true _ _).mp evaluated with ⟨final, reached, shape⟩
  simp only [decide_eq_true_eq, List.isEmpty_iff] at shape
  rcases shape with ⟨running, idle, rows, entered, present, isOpen, processed, accounts⟩
  have sound (state : Reception) (event : ReceptionEvent)
      (passes : (state.regular event && state.timely event) = true) :
      state.Regular event ∧ state.Timely event := by
    rcases (Bool.and_eq_true _ _).mp passes with ⟨regular, timely⟩
    exact ⟨regular_sound state event regular, timely_sound state event timely⟩
  have symmetric (idA idB : ℤ) (row : (idA, idB) ∈ [((1 : ℤ), (2 : ℤ)), (2, 1)]) :
      (idB, idA) ∈ [((1 : ℤ), (2 : ℤ)), (2, 1)] := by
    simp only [List.mem_cons, Prod.mk.injEq, List.not_mem_nil, or_false] at row ⊢
    omega
  exact ⟨final, reached, present, presence_converges symmetric reached
    ((InstanceMessage.reception System.asciiQt).meets_of_allSteps sound passed) running
    (single_of_logins accounts) idle entered isOpen processed (by decide) (by simp [rows])⟩

end Reception

namespace System

/-- A user whose client is started connects and sends his number and password. -/
def connects (user : UserRow) (conn : ConnId) (socket : Handle) : List SystemEvent :=
  [.server (.accept socket), .server (.list conn),
    .user conn (.loginMassage (asciiQt.toUnicode user.tel) (asciiQt.toUnicode user.pass)),
    .receive conn]

def performs (index : ℕ) (outcomes : List Outcome) : List SystemEvent :=
  outcomes.map fun outcome => .server (.act index outcome)

/-- Bob's handler has looked for Alice and is about to remove him when she logs in. -/
def bobLeaves : List SystemEvent :=
  connects bob 0 8 ++ performs 0 (Reception.loginOutcomes bob alice []) ++
    [.server (.finish 0), .deliver 0, .deliver 0, .deliver 0, .user 0 .offlien, .receive 0] ++
    performs 0 [.rows (some [[decimal 1]]), .internal, .internal, .internal, .internal] ++
    connects alice 1 4 ++ performs 1 (Reception.loginOutcomes alice bob [.internal, .internal]) ++
    [.server (.finish 1)] ++ performs 0 [.internal] ++
    [.server (.finish 0), .deliver 1, .deliver 1, .deliver 1]

def regular (system : System) : SystemEvent → Bool
  | .server event => Reception.regular ⟨system.server, system.client, system.delivered⟩
      (.server event)
  | _ => true

/-- Alice has read the map before Bob was removed, and nothing is going to tell her. -/
theorem presence_converges_fails : ∃ final,
    (system asciiQt).run (start [alice, bob] [(1, 2), (2, 1)]) bobLeaves = some final ∧
      (system asciiQt).Meets (fun state event => ∀ served, event = .server served →
        state.server.FreshHandle served ∧ state.server.Succeeds served)
        (start [alice, bob] [(1, 2), (2, 1)]) bobLeaves ∧
      final.server.halted = false ∧ final.server.tasks = [] ∧ final.inFlight = [] ∧
      (∀ conn < 2, final.delivered conn = (final.server.sentTo conn).length) ∧
      final.server.mMapIdToSocket 1 = some 4 ∧ final.server.sockets 4 = some 1 ∧
      (1, 2) ∈ final.server.tFriend ∧ (final.client 1).status 2 = some defStatusOnline ∧
      final.server.mMapIdToSocket 2 = none := by
  have evaluated : ((system asciiQt).run (start [alice, bob] [(1, 2), (2, 1)]) bobLeaves).any
      (fun final => final.server.halted = false ∧ final.server.tasks.isEmpty ∧
        final.inFlight = [] ∧
          (∀ conn < 2, final.delivered conn = (final.server.sentTo conn).length) ∧
            final.server.mMapIdToSocket 1 = some 4 ∧ final.server.sockets 4 = some 1 ∧
              (1, 2) ∈ final.server.tFriend ∧
                (final.client 1).status 2 = some defStatusOnline ∧
                  final.server.mMapIdToSocket 2 = none) = true := by
    decide +kernel
  have passed : (system asciiQt).allSteps regular (start [alice, bob] [(1, 2), (2, 1)])
      bobLeaves = true := by
    decide +kernel
  rcases (Option.any_eq_true _ _).mp evaluated with ⟨final, reached, shape⟩
  simp only [decide_eq_true_eq, List.isEmpty_iff] at shape
  refine ⟨final, reached, (system asciiQt).meets_of_allSteps ?_ passed, shape⟩
  rintro state event passes served rfl
  exact Reception.regular_sound ⟨state.server, state.client, state.delivered⟩ (.server served)
    passes

end System

end InstanceMessage
