import InstanceMessage.Server.Authority
import InstanceMessage.Server.Deliveries
import InstanceMessage.Server.FriendPairs
import InstanceMessage.Server.Telling

/-!
# What connections have been told

A user with an entry has been told about each of his friends, or a handler in
progress is going to tell him: `Complete` holds of every state although the
entry, the two rows and the messages are the work of different handlers. What
keeps it is that the handler which makes the last of the three that are needed,
the entry or a row, announces it afterwards. Conversely a connection has been
told only about users whose friendship with its account is in the table, and
not before its login reply (`Introduced`).
-/

namespace InstanceMessage

open Library

namespace State

/-- What a statement is answered when it succeeds. -/
def AnsweredWell (state : State) (outcome : Outcome) : Action → Prop
  | .select stmt _ => outcome = .rows (some (state.rows stmt))
  | .update _ => ∃ rowId, outcome = .updated true rowId
  | _ => True

/-- All statements succeed, and a select finds the rows of the tables. -/
def Succeeds (state : State) : Event → Prop
  | .act index outcome => ∀ task action rest, state.tasks[index]? = some task →
      task.prog = .act action rest → state.AnsweredWell outcome action
  | _ => True

/-- The packet has been queued to the connection, or one like it. -/
def Told (state : State) (conn : ConnId) (id : ℤ) : Prop :=
  ∃ packet ∈ state.sentTo conn, tells id packet = true

theorem Told.step {state next : State} {event : Event} {conn : ConnId} {id : ℤ}
    (told : state.Told conn id) (stepped : state.step event = some next) : next.Told conn id := by
  rcases told with ⟨packet, queued, informs⟩
  exact ⟨packet, (sentTo_prefix_of_step conn stepped).subset queued, informs⟩

/-! ## What handlers in progress are going to do -/

/-- A handler in progress comes to an action of the goal as long as its answers are granted. -/
def Pending (state : State) (granted : (action : Action) → action.Answer → Prop)
    (goal : Action → Prop) : Prop :=
  ∃ task ∈ state.tasks, task.prog.Reaches granted goal fun _ => False

section Pending

variable {state next after : State} {granted : (action : Action) → action.Answer → Prop}
  {goal : Action → Prop}

theorem Pending.of_tasks (pending : state.Pending granted goal)
    (keeps : ∀ task ∈ state.tasks, task.prog ≠ .ret () → task ∈ next.tasks) :
    next.Pending granted goal := by
  rcases pending with ⟨task, member, reaches⟩
  refine ⟨task, keeps task member fun returned => ?_, reaches⟩
  rw [returned] at reaches
  exact reaches

theorem mem_eraseIdx_of_not_returned {index : ℕ} {task other : Task}
    (present : state.tasks[index]? = some task) (returned : task.prog = .ret ())
    (member : other ∈ state.tasks) (acts : other.prog ≠ .ret ()) :
    other ∈ state.tasks.eraseIdx index := by
  rcases List.mem_iff_getElem?.mp member with ⟨position, found⟩
  refine List.mem_eraseIdx_iff_getElem?.mpr ⟨position, ?_, found⟩
  rintro rfl
  have same : task = other := Option.some.inj (present.symm.trans found)
  subst same
  exact acts returned

/-- An action leaves to the others what they are going to do, and its own handler comes nearer
to the goal or to its end. -/
theorem Pending.perform {index : ℕ} {task : Task} {action : Action}
    {rest : action.Answer → Handler Unit} {answer : action.Answer} (frame : SameFrame state after)
    (pending : state.Pending granted goal) (present : state.tasks[index]? = some task)
    (shape : task.prog = .act action rest) (grants : granted action answer) :
    goal action ∨ (after.advance index task action answer (rest answer)).Pending granted goal := by
  rcases pending with ⟨other, member, reaches⟩
  rcases List.mem_iff_getElem?.mp member with ⟨position, found⟩
  by_cases same : index = position
  · subst same
    have same : task = other := Option.some.inj (present.symm.trans found)
    subst same
    rw [shape] at reaches
    rcases reaches with reached | continues
    · exact Or.inl reached
    · exact Or.inr ⟨_, mem_tasks_advance_self frame present, continues answer grants⟩
  · exact Or.inr ⟨other, mem_tasks_advance_of_ne frame same found, reaches⟩

end Pending

/-! ## Friends with entries -/

/-- The user's entry is the handle of the connection, which can be reached. -/
structure Connected (state : State) (id : ℤ) (conn : ConnId) : Prop where
  entered : state.mMapIdToSocket id = some (state.handleOf conn)
  reachable : state.Reachable conn

structure Friends (state : State) (id friendId : ℤ) : Prop where
  row : (id, friendId) ∈ state.tFriend
  reverse : (friendId, id) ∈ state.tFriend

theorem mem_flatten_friendIds {state : State} {id friendId : ℤ}
    (row : (id, friendId) ∈ state.tFriend) :
    decimal friendId ∈ (state.rows (.friendIds id)).flatten := by
  refine List.mem_flatten.mpr ⟨[decimal friendId], ?_, List.mem_singleton.mpr rfl⟩
  refine List.mem_map.mpr ⟨(id, friendId), ?_, rfl⟩
  exact List.mem_filter.mpr ⟨row, by simp⟩

/-- The state grants what is granted about friends of whom one has an entry. -/
theorem grants_of_perform {state after : State} {action : Action} {outcome : Outcome}
    {answer : action.Answer} {id friendId : ℤ} {socket : Handle}
    (performed : state.perform action outcome = some (after, answer))
    (well : state.AnsweredWell outcome action)
    (entered : state.mMapIdToSocket id = some socket) (friends : state.Friends id friendId) :
    Grants id friendId socket action answer := by
  cases action with
  | count key =>
      rintro rfl
      have same : (state.mMapIdToSocket key).isSome = answer :=
        (Prod.mk.inj (Option.some.inj performed)).2
      rw [← same, entered]
      rfl
  | socketOf key =>
      rintro rfl
      have same : (state.socketOf key).2 = answer := congrArg Prod.snd (Option.some.inj performed)
      rw [← same, State.socketOf, entered]
  | select stmt nColumn =>
      have answered : outcome = .rows (some (state.rows stmt)) := well
      subst answered
      rcases Option.ite_none_right_eq_some.mp performed with ⟨_, same⟩
      have found : some (state.rows stmt).flatten = answer :=
        (Prod.mk.inj (Option.some.inj same)).2
      subst found
      cases stmt with
      | friendIds key =>
          refine ⟨_, rfl, ?_, ?_⟩
          · rintro rfl
            exact mem_flatten_friendIds friends.row
          · rintro rfl
            exact mem_flatten_friendIds friends.reverse
      | friendIdsOffline key =>
          refine ⟨_, rfl, ?_⟩
          rintro rfl
          exact mem_flatten_friendIds friends.reverse
      | _ => trivial
  | update stmt =>
      rcases well with ⟨rowId, rfl⟩
      exact ((Prod.mk.inj (Option.some.inj performed)).2).symm
  | _ => trivial

/-- A user with an entry has been told about each friend, or is going to be. -/
def Complete (state : State) : Prop :=
  ∀ id friendId conn, state.Connected id conn → state.Friends id friendId →
    state.Told conn friendId ∨
      state.Pending (Grants id friendId (state.handleOf conn))
        (TellsOf friendId (state.handleOf conn))

section Step

variable {state next : State} {event : Event} {id friendId : ℤ} {conn : ConnId}

/-- A connection with an unchanged entry was there before. -/
theorem Connected.before (delivers : state.Delivers) (fresh : state.FreshHandle event)
    (stepped : state.step event = some next) (connected : next.Connected id conn)
    (same : next.mMapIdToSocket id = state.mMapIdToSocket id) :
    state.Connected id conn ∧ next.handleOf conn = state.handleOf conn := by
  have later := delivers.step fresh stepped
  have bound := (later.housed.socket _ conn connected.reachable.1).1
  rcases delivers.greeting.entered id _ (same.symm.trans connected.entered) with
    zero | ⟨other, old, handle, listed, _⟩
  · exact absurd zero (later.unshared.nonzero conn bound)
  · rcases handleOf_of_step old stepped with ⟨otherBound, kept⟩
    rcases later.unshared.injective other otherBound conn bound (kept.trans handle) with rfl
    refine ⟨⟨?_, ?_⟩, kept⟩
    · rw [← same, connected.entered, kept]
    · exact reachable_of_step delivers.housed delivers.unshared fresh old listed stepped
        connected.reachable

/-- A packet sent to a user's entry reaches his connection. -/
theorem told_of_tellsOf {after : State} {index : ℕ} {task : Task} {action : Action}
    {answer : action.Answer} {prog : Handler Unit} (reachable : state.Reachable conn)
    (performs : Performs state action after answer)
    (sends : TellsOf friendId (state.handleOf conn) action) :
    (after.advance index task action answer prog).Told conn friendId := by
  rcases sends with ⟨packet, rfl, informs⟩
  cases performs
  refine ⟨packet, mem_sentTo.mpr ?_, informs⟩
  simp only [advance, sent_sendData reachable]
  exact List.mem_append_right _ List.mem_cons_self

/-- Two users who have just become friends have been made so by the insert. -/
theorem Performs.friends {after : State} {action : Action} {answer : action.Answer}
    (performs : Performs state action after answer) (friends : after.Friends id friendId)
    (new : ¬state.Friends id friendId) :
    ∃ idA idB, (⟨action, answer⟩ : Performed Action.Answer) =
        ⟨.update (.insertFriend idA idB), true⟩ ∧
      ((idA = id ∧ idB = friendId) ∨ (idA = friendId ∧ idB = id)) := by
  have changed : after.tFriend ≠ state.tFriend :=
    fun same => new ⟨same ▸ friends.row, same ▸ friends.reverse⟩
  rcases performs.tFriend with same | ⟨idA, idB, rfl, added⟩
  · exact absurd same changed
  · refine ⟨idA, idB, ?_, ?_⟩
    · cases performs with
      | updated stmt rowId => rfl
      | updateFailed stmt => exact absurd rfl changed
    · have row := friends.row
      have reverse := friends.reverse
      rw [added, List.mem_append, List.mem_singleton, Prod.mk.injEq] at row reverse
      rcases row with old | ⟨rfl, rfl⟩
      · rcases reverse with oldReverse | ⟨rfl, rfl⟩
        · exact absurd ⟨old, oldReverse⟩ new
        · exact Or.inr ⟨rfl, rfl⟩
      · exact Or.inl ⟨rfl, rfl⟩

/-- Two friends of whom one has an entry were so before the action, or its handler is going to
tell him about the other. -/
theorem known_or_announced {after : State} {index : ℕ} {outcome : Outcome} {task : Task}
    {action : Action} {rest : action.Answer → Handler Unit} {answer : action.Answer}
    (delivers : state.Delivers)
    (announced : ∀ task ∈ state.tasks, task.prog.Everywhere Announces)
    (fresh : state.FreshHandle (.act index outcome))
    (present : state.tasks[index]? = some task) (shape : task.prog = .act action rest)
    (performs : Performs state action after answer)
    (stepped : state.step (.act index outcome) =
      some (after.advance index task action answer (rest answer)))
    (connected : (after.advance index task action answer (rest answer)).Connected id conn)
    (friends : (after.advance index task action answer (rest answer)).Friends id friendId) :
    (state.Connected id conn ∧ state.Friends id friendId) ∨
      (after.advance index task action answer (rest answer)).Pending
        (Grants id friendId (state.handleOf conn)) (TellsOf friendId (state.handleOf conn)) := by
  have frame := performs.sameFrame
  have announces := (announced task (List.mem_of_getElem? present)).here
  rw [shape] at announces
  have moved : { task with prog := rest answer } ∈
      (after.advance index task action answer (rest answer)).tasks :=
    mem_tasks_advance_self frame present
  have handle : (after.advance index task action answer (rest answer)).handleOf conn =
      state.handleOf conn := congrFun frame.handleOf conn
  have now : after.mMapIdToSocket id = some (state.handleOf conn) := handle ▸ connected.entered
  rcases performs.entry now with entered | written | ⟨_, _, zero⟩
  · have before := (connected.before delivers fresh stepped (now.trans entered.symm)).1
    by_cases old : state.Friends id friendId
    · exact Or.inl ⟨before, old⟩
    · rcases performs.friends ⟨friends.row, friends.reverse⟩ old with ⟨idA, idB, inserted, pair⟩
      rcases Performed.mk.inj inserted with ⟨sameAction, sameAnswer⟩
      subst sameAction
      rcases eq_of_heq sameAnswer with rfl
      have tellsEach := announces (state.handleOf conn)
      rcases pair with ⟨rfl, rfl⟩ | ⟨rfl, rfl⟩
      · exact Or.inr ⟨_, moved, tellsEach.1⟩
      · exact Or.inr ⟨_, moved, tellsEach.2⟩
  · subst written
    exact Or.inr ⟨_, moved, (announces friendId (state.handleOf conn)).1⟩
  · have later := delivers.step fresh stepped
    have bound := (later.housed.socket _ conn connected.reachable.1).1
    exact absurd (handle.trans zero) (later.unshared.nonzero conn bound)

theorem Complete.perform {after : State} {index : ℕ} {outcome : Outcome} {task : Task}
    {action : Action} {rest : action.Answer → Handler Unit} {answer : action.Answer}
    (complete : state.Complete) (delivers : state.Delivers)
    (announced : ∀ task ∈ state.tasks, task.prog.Everywhere Announces)
    (fresh : state.FreshHandle (.act index outcome))
    (succeeds : state.Succeeds (.act index outcome))
    (present : state.tasks[index]? = some task) (shape : task.prog = .act action rest)
    (performed : state.perform action outcome = some (after, answer))
    (stepped : state.step (.act index outcome) =
      some (after.advance index task action answer (rest answer))) :
    (after.advance index task action answer (rest answer)).Complete := by
  have performs := performs_of_perform performed
  have frame := performs.sameFrame
  intro id friendId conn connected friends
  have handle : (after.advance index task action answer (rest answer)).handleOf conn =
      state.handleOf conn := congrFun frame.handleOf conn
  rw [handle]
  rcases known_or_announced delivers announced fresh present shape performs stepped connected
    friends with ⟨before, old⟩ | announces
  · rcases complete id friendId conn before old with told | pending
    · exact Or.inl (told.step stepped)
    · have grants := grants_of_perform performed (succeeds task action rest present shape)
        before.entered old
      rcases pending.perform frame present shape grants with sends | still
      · exact Or.inl (told_of_tellsOf before.reachable performs sends)
      · exact Or.inr still
  · exact Or.inr announces

theorem Complete.step (complete : state.Complete) (delivers : state.Delivers)
    (announced : ∀ task ∈ state.tasks, task.prog.Everywhere Announces)
    (fresh : state.FreshHandle event) (succeeds : state.Succeeds event)
    (stepped : state.step event = some next) (running : next.halted = false) : next.Complete := by
  have kept (sameMap : next.mMapIdToSocket = state.mMapIdToSocket)
      (sameRows : next.tFriend = state.tFriend)
      (keeps : ∀ task ∈ state.tasks, task.prog ≠ .ret () → task ∈ next.tasks) :
      next.Complete := by
    intro id friendId conn connected friends
    rcases connected.before delivers fresh stepped (by rw [sameMap]) with ⟨before, handle⟩
    have old : state.Friends id friendId := ⟨sameRows ▸ friends.row, sameRows ▸ friends.reverse⟩
    rw [handle]
    rcases complete id friendId conn before old with told | pending
    · exact Or.inl (told.step stepped)
    · exact Or.inr (pending.of_tasks keeps)
  cases stepped_of_step stepped with
  | accept | list | closeSocket | eraseClient => exact kept rfl rfl fun _ member _ => member
  | receive => exact kept rfl rfl fun _ member _ => List.mem_append_left _ member
  | perform present shape goesOn performed =>
      exact complete.perform delivers announced fresh succeeds present shape performed stepped
  | halt => simp [State.halt] at running
  | finish present returned =>
      exact kept rfl rfl fun _ member acts =>
        mem_eraseIdx_of_not_returned present returned member acts

end Step

/-! ## No strangers -/

/-- Before every packet of the kind there is a first one. -/
def Preceded (kind first : Bytes → Prop) (packets : List Bytes) : Prop :=
  ∀ position packet, packets[position]? = some packet → kind packet →
    ∃ earlier ∈ packets.take position, first earlier

theorem Preceded.append {kind first : Bytes → Prop} {packets : List Bytes} {packet : Bytes}
    (preceded : Preceded kind first packets)
    (last : kind packet → ∃ earlier ∈ packets, first earlier) :
    Preceded kind first (packets ++ [packet]) := by
  intro position found present ofKind
  by_cases inside : position < packets.length
  · rw [List.getElem?_append_left inside] at present
    rw [List.take_append_of_le_length inside.le]
    exact preceded position found present ofKind
  · rw [List.getElem?_append_right (by omega)] at present
    have same : found = packet := List.mem_singleton.mp (List.mem_of_getElem? present)
    rcases last (same ▸ ofKind) with ⟨earlier, member, isFirst⟩
    refine ⟨earlier, ?_, isFirst⟩
    rw [List.take_append, List.take_of_length_le (not_lt.mp inside)]
    exact List.mem_append_left _ member

/-- The packet is about the account of the connection, or about one of its friends. -/
def Concerns (state : State) (conn : ConnId) (packet : Bytes) : Prop :=
  ∃ id about, state.LoggedInOn conn id ∧ tells about packet = true ∧
    (about = id ∨ (id, about) ∈ state.tFriend ∨ (about, id) ∈ state.tFriend)

/-- The lists that handlers have read are in the table, and what connections have been told
concerns them and comes after a login reply. -/
structure Introduced (state : State) : Prop where
  list : ∀ entry ∈ state.log, ∀ id texts,
    entry.performed = (⟨.select (.friendIds id) 1, some texts⟩ : Performed Action.Answer) →
      ∀ front ∈ texts, ∃ friendId, front = decimal friendId ∧ (id, friendId) ∈ state.tFriend
  told : ∀ conn, ∀ packet ∈ state.sentTo conn, packetType packet = some defUserInfo →
    state.Concerns conn packet
  greeted : ∀ conn, Preceded (fun packet => packetType packet = some defUserInfo)
    (fun packet => ∃ id, packet = loginSuccess id) (state.sentTo conn)

theorem introduced_start (tUser : List UserRow) (tFriend : List (ℤ × ℤ)) :
    (start tUser tFriend).Introduced := by
  constructor <;> simp [start, sentTo, packetsOf, Preceded]

section Step

variable {state next : State} {event : Event} {conn : ConnId}

theorem tFriend_subset_of_step (stepped : state.step event = some next) :
    state.tFriend ⊆ next.tFriend := by
  cases stepped_of_step stepped with
  | accept | list | receive | closeSocket | eraseClient | halt | finish =>
      exact List.Subset.refl _
  | perform present shape goesOn performed =>
      rcases (performs_of_perform performed).tFriend with same | ⟨idA, idB, _, added⟩
      · simp only [advance, same]
        exact List.Subset.refl _
      · simp only [advance, added]
        exact List.subset_append_left _ _

theorem Concerns.step {packet : Bytes} (concerns : state.Concerns conn packet)
    (stepped : state.step event = some next) : next.Concerns conn packet := by
  rcases concerns with ⟨id, about, loggedIn, informs, related⟩
  have grows := tFriend_subset_of_step stepped
  refine ⟨id, about, loggedIn.mono (log_subset_of_step stepped), informs, ?_⟩
  rcases related with same | row | reverse
  · exact Or.inl same
  · exact Or.inr (Or.inl (grows row))
  · exact Or.inr (Or.inr (grows reverse))

theorem loggedInOn_of_loggedInAt (delivers : state.Delivers) (bound : conn < state.nextConn)
    {id : ℤ} (loggedIn : state.LoggedInAt id (state.handleOf conn)) :
    state.LoggedInOn conn id := by
  rcases loggedIn with ⟨entry, logged, handle, verifies⟩
  rcases delivers.housed.entry entry logged with ⟨entryBound, belongs⟩
  refine ⟨entry, logged, ?_, verifies⟩
  exact delivers.unshared.injective _ entryBound _ bound (belongs.symm.trans handle)

/-- What the handler of a task has read about lists is in the table. -/
theorem Introduced.mem_of_inList (introduced : state.Introduced) {task : Task} {id friendId : ℤ}
    (inList : InList (historyOf state.log task.tid) id friendId) :
    (id, friendId) ∈ state.tFriend := by
  rcases inList with ⟨texts, front, selected, member, parsed⟩
  rcases mem_historyOf.mp selected with ⟨entry, logged, _, performed⟩
  rcases introduced.list entry logged id texts performed front member with ⟨named, rfl, row⟩
  rcases eq_of_stoi_decimal parsed with rfl
  exact row

/-- A user who is told about somebody has been introduced to him. -/
theorem concerns_of_send (introduced : state.Introduced) (delivers : state.Delivers)
    (provenance : state.Provenance) {task : Task} {packet : Bytes} (bound : conn < state.nextConn)
    (tactful : tellLaw (historyOf state.log task.tid) (.sendData packet (state.handleOf conn)))
    (type : packetType packet = some defUserInfo) :
    state.Concerns conn packet ∧ ∃ id, LookedUp (historyOf state.log task.tid) id
      (state.handleOf conn) := by
  rcases tactful type with ⟨info, id, presented, rfl, lookedUp, introduces⟩
  rcases mem_historyOf.mp lookedUp with ⟨entry, logged, _, lookup⟩
  refine ⟨?_, id, lookedUp⟩
  rcases provenance.found entry logged id _ lookup with zero | loggedIn
  · exact absurd zero (delivers.unshared.nonzero conn bound)
  · refine ⟨id, info.id, loggedInOn_of_loggedInAt delivers bound loggedIn,
      tells_userInfo introduces.range, ?_⟩
    rcases introduces.same_or_inList with same | ofId | ofFriend
    · exact Or.inl same
    · exact Or.inr (Or.inl (introduced.mem_of_inList ofId))
    · exact Or.inr (Or.inr (introduced.mem_of_inList ofFriend))

theorem Introduced.step (introduced : state.Introduced) (delivers : state.Delivers)
    (provenance : state.Provenance)
    (tactful : state.Obey (fun _ _ => tellLaw) fun _ _ _ _ => True)
    (succeeds : state.Succeeds event) (stepped : state.step event = some next) :
    next.Introduced := by
  have grows := tFriend_subset_of_step stepped
  have list (entry : Entry) (logged : entry ∈ state.log) (id : ℤ) (texts : List Bytes)
      (read : entry.performed =
        (⟨.select (.friendIds id) 1, some texts⟩ : Performed Action.Answer))
      (front : Bytes) (member : front ∈ texts) :
      ∃ friendId, front = decimal friendId ∧ (id, friendId) ∈ next.tFriend := by
    rcases introduced.list entry logged id texts read front member with ⟨friendId, named, row⟩
    exact ⟨friendId, named, grows row⟩
  have told (conn : ConnId) (packet : Bytes) (queued : packet ∈ state.sentTo conn)
      (type : packetType packet = some defUserInfo) : next.Concerns conn packet :=
    (introduced.told conn packet queued type).step stepped
  cases stepped_of_step stepped with
  | accept | list | receive | closeSocket | eraseClient | halt | finish =>
      exact ⟨list, told, introduced.greeted⟩
  | @perform index outcome task action rest after answer present shape goesOn performed =>
      have performs := performs_of_perform performed
      have frame := performs.sameFrame
      have obeys := tactful task (List.mem_of_getElem? present)
      rw [shape] at obeys
      constructor
      · intro entry logged id texts read front member
        rw [log_advance frame] at logged
        rcases List.mem_cons.mp logged with rfl | old
        · have same : action = .select (.friendIds id) 1 := congrArg Performed.action read
          subst same
          have same : answer = some texts := eq_of_heq (Performed.mk.inj read).2
          subst same
          have well := succeeds task _ rest present shape
          have answered : outcome = .rows (some (state.rows (.friendIds id))) := well
          subst answered
          rcases Option.ite_none_right_eq_some.mp performed with ⟨_, same⟩
          rcases Prod.mk.inj (Option.some.inj same) with ⟨rfl, found⟩
          rw [← Option.some.inj found] at member
          rcases List.mem_flatten.mp member with ⟨row, rowMem, inRow⟩
          rcases List.mem_map.mp rowMem with ⟨pair, pairMem, rfl⟩
          rcases List.mem_filter.mp pairMem with ⟨present, ofId⟩
          have same : pair.1 = id := by simpa using ofId
          exact ⟨pair.2, List.mem_singleton.mp inRow, same ▸ present⟩
        · exact list entry old id texts read front member
      · intro other packet queued type
        rcases performs.handed delivers.housed with
          same | ⟨sent, conn, rfl, bound, reachable, appended⟩
        · apply told other packet ?_ type
          simpa only [sentTo, advance, same] using queued
        · have queue : (after.advance index task (.sendData sent (state.handleOf conn)) answer
              (rest answer)).sentTo other = _ := sentTo_of_append appended other
          rw [queue] at queued
          rcases List.mem_append.mp queued with old | new
          · exact told other packet old type
          · split at new
            · rename_i same
              subst same
              rcases List.mem_singleton.mp new with rfl
              exact (concerns_of_send introduced delivers provenance bound obeys.1 type).1.step
                stepped
            · simp at new
      · intro other
        rcases performs.handed delivers.housed with
          same | ⟨sent, conn, rfl, bound, reachable, appended⟩
        · simpa only [sentTo, advance, same] using introduced.greeted other
        · have queue : (after.advance index task (.sendData sent (state.handleOf conn)) answer
              (rest answer)).sentTo other = _ := sentTo_of_append appended other
          rw [queue]
          split
          · rename_i same
            subst same
            refine (introduced.greeted conn).append fun type => ?_
            rcases (concerns_of_send introduced delivers provenance bound obeys.1 type).2 with
              ⟨id, lookedUp⟩
            rcases greeted_of_lookedUp delivers.greeting delivers.unshared bound reachable
              lookedUp with ⟨known, greeted⟩
            exact ⟨_, mem_sentTo.mpr greeted, known, rfl⟩
          · rw [List.append_nil]
            exact introduced.greeted other

end Step

/-! ## Open handles -/

/-- The connection of an open handle is accepted or receiving, and a receiving one is listed. -/
structure Listed (state : State) : Prop where
  isOpen : ∀ socket conn, state.sockets socket = some conn →
    state.context conn = .accepted ∨ state.context conn = .receiving
  listed : ∀ conn, state.context conn = .receiving →
    state.mClients (state.handleOf conn) = some (state.handleOf conn)

theorem listed_start (tUser : List UserRow) (tFriend : List (ℤ × ℤ)) :
    (start tUser tFriend).Listed := by
  constructor <;> simp [start]

theorem Listed.step {state next : State} {event : Event} (listed : state.Listed)
    (housed : state.Housed) (unshared : state.Unshared) (stepped : state.step event = some next) :
    next.Listed := by
  cases stepped_of_step stepped with
  | receive | halt | finish => exact ⟨listed.isOpen, listed.listed⟩
  | @accept socket free =>
      constructor
      · intro handle conn isOpen
        by_cases same : handle = socket
        · subst same
          simp only [State.accept, Function.update_self, Option.some.injEq] at isOpen
          subst isOpen
          exact Or.inl (Function.update_self _ _ _)
        · simp only [State.accept, Function.update_of_ne same] at isOpen ⊢
          rw [Function.update_of_ne (housed.socket handle conn isOpen).1.ne]
          exact listed.isOpen handle conn isOpen
      · intro conn receiving
        by_cases new : conn = state.nextConn
        · simp [State.accept, new] at receiving
        · simp only [State.accept, Function.update_of_ne new] at receiving ⊢
          exact listed.listed conn receiving
  | @list conn accepted =>
      constructor
      · intro handle other isOpen
        by_cases same : other = conn
        · exact Or.inr (by simp [State.list, same])
        · simp only [State.list, Function.update_of_ne same]
          exact listed.isOpen handle other isOpen
      · intro other receiving
        by_cases same : other = conn
        · simp [State.list, same]
        · simp only [State.list, Function.update_of_ne same] at receiving ⊢
          by_cases shared : state.handleOf other = state.handleOf conn
          · simp [shared]
          · rw [Function.update_of_ne shared]
            exact listed.listed other receiving
  | @closeSocket conn receiving =>
      constructor
      · intro handle other isOpen
        by_cases closed : handle = state.handleOf conn
        · simp [State.closeSocket, closed] at isOpen
        · simp only [State.closeSocket, Function.update_of_ne closed] at isOpen ⊢
          have different : other ≠ conn := by
            rintro rfl
            exact closed (housed.socket handle other isOpen).2.symm
          rw [Function.update_of_ne different]
          exact listed.isOpen handle other isOpen
      · intro other still
        by_cases same : other = conn
        · simp [State.closeSocket, same] at still
        · simp only [State.closeSocket, Function.update_of_ne same] at still ⊢
          exact listed.listed other still
  | @eraseClient conn closing =>
      constructor
      · intro handle other isOpen
        have different : other ≠ conn := by
          rintro rfl
          simpa [closing] using listed.isOpen handle other isOpen
        simp only [State.eraseClient, Function.update_of_ne different]
        exact listed.isOpen handle other isOpen
      · intro other still
        by_cases same : other = conn
        · simp [State.eraseClient, same] at still
        · simp only [State.eraseClient, Function.update_of_ne same] at still ⊢
          have different : state.handleOf other ≠ state.handleOf conn := fun shared => same <|
            unshared.injective other (housed.context other (by simp [still])) conn
              (housed.context conn (by simp [closing])) shared
          rw [Function.update_of_ne different]
          exact listed.listed other still
  | perform present shape goesOn performed =>
      have performs := performs_of_perform performed
      have frame := performs.sameFrame
      constructor
      · intro handle conn isOpen
        simp only [advance, frame.context]
        rcases performs.sockets handle with same | ⟨_, closed⟩
        · exact listed.isOpen handle conn (same ▸ isOpen)
        · exact absurd (closed.symm.trans isOpen) (by simp)
      · intro conn receiving
        simp only [advance, frame.context, frame.mClients, frame.handleOf] at receiving ⊢
        exact listed.listed conn receiving

/-- An entry that is an open handle is that of a connection which can be reached. -/
theorem Listed.connected {state : State} (listed : state.Listed) (delivers : state.Delivers)
    {id : ℤ} {socket : Handle} {conn : ConnId} (entered : state.mMapIdToSocket id = some socket)
    (isOpen : state.sockets socket = some conn) : state.Connected id conn := by
  rcases delivers.housed.socket socket conn isOpen with ⟨bound, rfl⟩
  refine ⟨entered, isOpen, ?_⟩
  rcases delivers.greeting.entered id _ entered with zero | ⟨other, old, handle, notAccepted, _⟩
  · exact absurd zero (delivers.unshared.nonzero conn bound)
  · rcases delivers.unshared.injective other old conn bound handle with rfl
    rcases listed.isOpen _ other isOpen with accepted | receiving
    · exact absurd accepted notAccepted
    · exact listed.listed other receiving

/-! ## The server as a whole -/

/-- The server has told, and is going to tell, users about their friends and nobody else. -/
structure WellInformed (state : State) : Prop where
  delivers : state.Delivers
  provenance : state.Provenance
  listed : state.Listed
  announced : ∀ task ∈ state.tasks, task.prog.Everywhere Announces
  tactful : state.Obey (fun _ _ => tellLaw) fun _ _ _ _ => True
  pairs : state.Obey (fun _ _ => pairLaw) fun _ _ later _ => PairDone later
  introduced : state.Introduced
  complete : state.halted = false → state.Complete
  paired : state.halted = false → state.Paired

theorem wellInformed_start (tUser : List UserRow) {tFriend : List (ℤ × ℤ)}
    (symmetric : ∀ idA idB, (idA, idB) ∈ tFriend → (idB, idA) ∈ tFriend) :
    (start tUser tFriend).WellInformed where
  delivers := delivers_start tUser tFriend
  provenance := provenance_start tUser tFriend
  listed := listed_start tUser tFriend
  announced := by simp [start]
  tactful := by simp [start, Obey]
  pairs := by simp [start, Obey]
  introduced := introduced_start tUser tFriend
  complete := by
    intro _ id friendId conn connected
    have nothing : none = some ((start tUser tFriend).handleOf conn) := connected.entered
    cases nothing
  paired := fun _ => ⟨fun row member => Or.inl (symmetric _ _ member), by simp [start]⟩

section Step

variable {state next : State} {event : Event}

/-- When all statements succeed and the process does not end, both rows of a pair are written. -/
theorem completesPairs_of_succeeds
    (pairs : state.Obey (fun _ _ => pairLaw) fun _ _ later _ => PairDone later)
    (succeeds : state.Succeeds event) (stepped : state.step event = some next)
    (running : next.halted = false) : state.CompletesPairs event := by
  cases event with
  | act index outcome =>
      intro task action rest present shape
      constructor
      · rintro row rowId rfl half
        have obeys := pairs task (List.mem_of_getElem? present)
        rw [shape] at obeys
        have inserts : action = .update (.insertFriend row.2 row.1) := obeys.1 row half
        have well := succeeds task action rest present shape
        subst inserts
        rcases well with ⟨_, failed⟩
        simp at failed
      · intro stops
        cases stepped_of_step stepped with
        | perform found acts goesOn =>
            have same : task = _ := Option.some.inj (present.symm.trans found)
            subst same
            rcases Program.act.inj (shape.symm.trans acts) with ⟨rfl, _⟩
            exact absurd stops goesOn
        | halt => simp [State.halt] at running
  | _ => trivial

theorem WellInformed.step (informed : state.WellInformed) (fresh : state.FreshHandle event)
    (succeeds : state.Succeeds event) (stepped : state.step event = some next) :
    next.WellInformed where
  delivers := informed.delivers.step fresh stepped
  provenance := informed.provenance.step informed.delivers.coherent stepped
  listed := informed.listed.step informed.delivers.housed informed.delivers.unshared stepped
  announced := programs_step (fun data from_ => dealData_announces data from_)
    (fun _ _ _ _ answer everywhere => everywhere.2 answer) informed.announced stepped
  tactful := informed.tactful.step dealData_tactful
    informed.delivers.coherent stepped
  pairs := informed.pairs.step dealData_pairs informed.delivers.coherent stepped
  introduced := informed.introduced.step informed.delivers informed.provenance informed.tactful
    succeeds stepped
  complete := fun running => (informed.complete (not_halted_of_step stepped)).step
    informed.delivers informed.announced fresh succeeds stepped running
  paired := fun running => (informed.paired (not_halted_of_step stepped)).step
    informed.delivers.coherent informed.pairs
    (completesPairs_of_succeeds informed.pairs succeeds stepped running) stepped

/-- The user of an entry that is an open handle has logged in on its connection. -/
theorem WellInformed.loggedInOn (informed : state.WellInformed) {id : ℤ} {socket : Handle}
    {conn : ConnId} (entered : state.mMapIdToSocket id = some socket)
    (isOpen : state.sockets socket = some conn) : state.LoggedInOn conn id := by
  rcases informed.delivers.housed.socket socket conn isOpen with ⟨bound, rfl⟩
  rcases informed.provenance.entered id _ entered with zero | loggedInAt
  · exact absurd zero (informed.delivers.unshared.nonzero conn bound)
  · exact loggedInOn_of_loggedInAt informed.delivers bound loggedInAt

/-- When no handler is in progress, the connection of a user has been told about his friends and
about nobody else. -/
theorem WellInformed.told_iff (informed : state.WellInformed) (running : state.halted = false)
    (idle : state.tasks = []) {id friendId : ℤ} {conn : ConnId}
    (connected : state.Connected id conn)
    (single : ∀ other, state.LoggedInOn conn other → other = id)
    (different : friendId ≠ id) :
    state.Told conn friendId ↔ (id, friendId) ∈ state.tFriend := by
  have reverse (row : ℤ × ℤ) (member : row ∈ state.tFriend) : row.swap ∈ state.tFriend := by
    rcases (informed.paired running).reverse row member with swapped | ⟨task, taskMem, _⟩
    · exact swapped
    · simp [idle] at taskMem
  constructor
  · rintro ⟨packet, queued, told⟩
    rcases informed.introduced.told conn packet queued (packetType_of_tells told) with
      ⟨account, about, loggedIn, informs, related⟩
    rcases single account loggedIn with rfl
    have same : about = friendId :=
      Option.some.inj ((readId_of_tells informs).symm.trans (readId_of_tells told))
    subst same
    rcases related with same | row | row
    · exact absurd same different
    · exact row
    · exact reverse _ row
  · intro row
    rcases informed.complete running id friendId conn connected ⟨row, reverse _ row⟩ with
      told | ⟨task, taskMem, _⟩
    · exact told
    · simp [idle] at taskMem

end Step

end State

end InstanceMessage
