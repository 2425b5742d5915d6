import InstanceMessage.Server.Introductions

/-!
# What handlers do when a user leaves

The handler of an offline request passes the request on to the user's friends,
whom it reads first, and removes his entry afterwards. So from its start it is
going to notify every friend with an entry, and once it has notified one it is
going to remove the entry. No other handler notifies or removes anybody, and a
handler that tells about users removes none.

Whether a status is still right when it is sent is another matter: `Agrees`
says what a status must be, and `Timely` that the statuses which handlers send
are such, or are going to be sent again.
-/

namespace InstanceMessage

open Library Handler

/-! ## Notified first, removed afterwards -/

/-- The action notifies the socket that the user leaves. -/
def DepartsOf (friendId : ℤ) (socket : Handle) (action : Action) : Prop :=
  ∃ packet, action = .sendData packet socket ∧ departs friendId packet = true

/-- The answers that a handler gets while the user has an entry and all statements succeed. -/
def StillEntered (id : ℤ) : (action : Action) → action.Answer → Prop
  | .count key, (online : Bool) => key = id → online = true
  | .select _ _, (found : Option (List Bytes)) => found ≠ none
  | _, _ => True

/-- A program that notifies of a departure is going to remove the entry, one that removes an entry
has nothing left to do, and one that tells about users removes nobody. -/
def Parts : Handler Unit → Prop
  | .act (.sendData packet _) rest =>
      (∀ id, departs id packet = true →
        (rest ()).Reaches (StillEntered id) (fun action => action = .erase id) fun _ => False) ∧
      (packetType packet = some defUserInfo → ∀ id, (rest ()).Only fun action => action ≠ .erase id)
  | .act (.erase _) rest => rest () = .ret ()
  | _ => True

/-- The action neither removes an entry nor notifies of a departure. -/
def Remains : Action → Prop
  | .erase _ => False
  | .sendData packet _ => packetType packet ≠ some defOfflineRq
  | _ => True

theorem Remains.ne_erase {action : Action} (remains : Remains action) (id : ℤ) :
    action ≠ .erase id := by
  rintro rfl
  exact remains

theorem everywhere_parts_of_remains {prog : Handler Unit} (only : prog.Only Remains) :
    prog.Everywhere Parts := by
  induction prog with
  | ret value => trivial
  | act action next ih =>
      refine ⟨?_, fun answer => ih answer (only.2 answer)⟩
      cases action with
      | sendData packet clientId =>
          refine ⟨fun id leaves => ?_, fun _ id => (only.2 ()).mono fun _ remains =>
            remains.ne_erase id⟩
          have other : packetType packet ≠ some defOfflineRq := only.1
          simp [not_departs_of_type other] at leaves
      | erase id => exact only.1.elim
      | _ => trivial

section Departures

variable {data : Bytes} {from_ : Handle}

theorem dealData_remains (other : packetType data ≠ some defOfflineRq) :
    (dealData data from_).Only Remains := by
  apply (dealData_lawful data from_ []).only
  intro history action lawful
  cases action with
  | erase id => exact other lawful.1
  | sendData packet clientId =>
      rcases lawful with ⟨_, reply⟩ | ⟨_, _, delivered⟩
      · exact reply.packetType_ne_of_notMem (by decide)
      · cases delivered with
        | passedOn => exact other
        | told =>
            rw [Remains, packetType_userInfo]
            decide
  | _ => trivial

/-! ## The handler of an offline request -/

section Reaches

variable {granted : (action : Action) → action.Answer → Prop} {goal : Action → Prop}
  {id friendId : ℤ} {entry : Handle} {lstStr : List Bytes} {onReturn : Unit → Prop}

theorem reaches_past_notifyOffline (continues : onReturn ()) :
    (notifyOffline data lstStr).Reaches granted goal onReturn := by
  induction lstStr with
  | nil => exact continues
  | cons front lstStr ih =>
      refine Program.reaches_bind (reaches_toInt fun friendId _ => ?_)
      exact Program.reaches_bind (reaches_past_sendIfOnline ih)

/-- A friend in the list who has an entry is notified. -/
theorem reaches_notifyOffline (listed : decimal id ∈ lstStr)
    (sends : goal (.sendData data entry)) :
    (notifyOffline data lstStr).Reaches (Grants id friendId entry) goal onReturn := by
  induction lstStr with
  | nil => simp at listed
  | cons front lstStr ih =>
      refine Program.reaches_bind (reaches_toInt fun next parsed => ?_)
      rcases List.mem_cons.mp listed with rfl | later
      · rcases eq_of_stoi_decimal parsed with rfl
        exact Program.reaches_bind (reaches_sendIfOnline sends)
      · exact Program.reaches_bind (reaches_past_sendIfOnline (ih later))

theorem reaches_removeUser :
    (removeUser id).Reaches (StillEntered id) (fun action => action = .erase id) onReturn := by
  apply Program.reaches_perform_bind
  intro (online : Bool) here
  have yes : online = true := here rfl
  subst yes
  apply Program.reaches_perform_bind
  intro socket _
  apply Program.reaches_perform_bind
  intro _ _
  exact Or.inl rfl

end Reaches

theorem removeUser_parts (userId : ℤ) : (removeUser userId).Everywhere Parts := by
  apply Program.everywhere_perform_bind trivial
  intro (online : Bool)
  cases online with
  | false => trivial
  | true =>
      apply Program.everywhere_perform_bind trivial
      intro socket
      apply Program.everywhere_perform_bind trivial
      intro _
      exact ⟨rfl, fun _ => trivial⟩

/-- After each friend who is notified the removal is still to come. -/
theorem notifyOffline_parts (type : packetType data = some defOfflineRq) {userId : ℤ}
    (readUserId : StruOfflineRq.readUserId data = some userId) (lstStr : List Bytes) :
    (notifyOffline data lstStr >>= fun _ => removeUser userId).Everywhere Parts := by
  induction lstStr with
  | nil => exact removeUser_parts userId
  | cons front lstStr ih =>
      simp only [notifyOffline, toInt]
      cases stoi front with
      | none => exact ⟨trivial, fun answer => answer.elim⟩
      | some friendId =>
          simp only [Program.bind_ret]
          refine ⟨trivial, fun (online : Bool) => ?_⟩
          cases online with
          | false => exact ih
          | true =>
              refine ⟨trivial, fun socket => ⟨⟨fun id leaves => ?_, fun told => ?_⟩, fun _ => ih⟩⟩
              · have same : userId = id :=
                  Option.some.inj (readUserId.symm.trans (of_decide_eq_true leaves).2)
                subst same
                exact Program.reaches_bind (reaches_past_notifyOffline reaches_removeUser)
              · exact absurd (type.symm.trans told) (by decide)

theorem dealOfflineRq_parts (type : packetType data = some defOfflineRq) :
    (dealOfflineRq data from_).Everywhere Parts := by
  cases readUserId : StruOfflineRq.readUserId data with
  | none =>
      simp only [dealOfflineRq, Received.dealOfflineRq, field_of_unread readUserId]
      exact ⟨trivial, fun answer => answer.elim⟩
  | some userId =>
      simp only [dealOfflineRq, Received.dealOfflineRq, field_of_read readUserId, liftM_handler,
        data_received, Program.bind_ret, sprintfS]
      split
      · apply Program.everywhere_perform_bind trivial
        intro (found : Option (List Bytes))
        rcases found with _ | lstStr
        · trivial
        · exact notifyOffline_parts type readUserId lstStr
      · exact ⟨trivial, fun answer => answer.elim⟩

theorem dealData_parts (data : Bytes) (from_ : Handle) :
    (dealData data from_).Everywhere Parts := by
  by_cases offline : packetType data = some defOfflineRq
  · rw [dealData_offlineRq offline]
    exact dealOfflineRq_parts offline
  · exact everywhere_parts_of_remains (dealData_remains offline)

theorem reaches_dealOfflineRq (type : packetType data = some defOfflineRq) {id friendId : ℤ}
    {entry : Handle} (readUserId : StruOfflineRq.readUserId data = some friendId) :
    (dealOfflineRq data from_).Reaches (Grants id friendId entry) (DepartsOf friendId entry)
      fun _ => False := by
  simp only [dealOfflineRq, Received.dealOfflineRq, field_of_read readUserId, liftM_handler,
    data_received, Program.bind_ret]
  refine Program.reaches_bind (reaches_sprintfS ?_)
  apply Program.reaches_perform_bind
  intro (found : Option (List Bytes)) read
  rcases read with ⟨texts, rfl, listed⟩
  apply Program.reaches_bind
  exact reaches_notifyOffline (listed rfl) ⟨data, rfl, decide_eq_true ⟨type, readUserId⟩⟩

end Departures

/-- The program does not remove the user's entry before it has notified his friend. -/
def Warns (id friendId : ℤ) (entry : Handle) (prog : Handler Unit) : Prop :=
  (prog.Only fun action => action ≠ .erase friendId) ∨
    prog.Reaches (Grants id friendId entry) (DepartsOf friendId entry) fun _ => False

theorem dealData_warns (data : Bytes) (from_ : Handle) (id friendId : ℤ) (entry : Handle) :
    Warns id friendId entry (dealData data from_) := by
  by_cases offline : packetType data = some defOfflineRq ∧
      StruOfflineRq.readUserId data = some friendId
  · rw [dealData_offlineRq offline.1]
    exact Or.inr (reaches_dealOfflineRq offline.1 offline.2)
  · left
    apply (dealData_lawful data from_ []).only
    rintro history action lawful rfl
    exact offline ⟨lawful.1, lawful.2.1⟩

namespace State

/-! ## Statuses that are right -/

/-- A handler in progress is going to remove the user's entry. -/
def Leaves (state : State) (id : ℤ) : Prop :=
  state.Pending (StillEntered id) fun action => action = .erase id

/-- The user has an entry, which nobody removes before his friend has been notified. -/
structure Stays (state : State) (id friendId : ℤ) (entry : Handle) : Prop where
  entered : state.mMapIdToSocket friendId ≠ none
  warns : ∀ task ∈ state.tasks, Warns id friendId entry task.prog

/-- The status of the second user is the one that the first, with the entry, should be shown: a
user who stays is online, and one who is not has no entry or is going to lose it. -/
structure Agrees (state : State) (id friendId : ℤ) (entry : Handle) (status : Option ℤ) :
    Prop where
  online : status = some defStatusOnline → state.Stays id friendId entry
  offline : status ≠ some defStatusOnline → state.mMapIdToSocket friendId ≠ none →
    state.Leaves friendId

/-- A handler in progress is going to tell the first user, with the entry, about the second. -/
abbrev WillTell (state : State) (id friendId : ℤ) (entry : Handle) : Prop :=
  state.Pending (Grants id friendId entry) (TellsOf friendId entry)

/-- The state with another program for the task. -/
def resume (state : State) (index : ℕ) (task : Task) (prog : Handler Unit) : State :=
  { state with tasks := state.tasks.set index { task with prog := prog } }

/-- The state without the task. -/
def others (state : State) (index : ℕ) : State :=
  { state with tasks := state.tasks.eraseIdx index }

/-- The action comes in time: a status agrees with what the other handlers in progress are going
to do, or is going to be sent once more, and `operator[]` enters no user unless he is going to be
removed. -/
def ActsInTime (state : State) (index : ℕ) (task : Task) :
    (action : Action) → (action.Answer → Handler Unit) → Prop
  | .socketOf id, (rest : Handle → Handler Unit) => state.mMapIdToSocket id = none →
      (state.resume index task (rest 0)).Leaves id
  | .sendData packet clientId, rest => ∀ id friendId conn, clientId = state.handleOf conn →
      state.Connected id conn → state.Friends id friendId → tells friendId packet = true →
        (state.resume index task (rest ())).WillTell id friendId clientId ∨
          (state.others index).Agrees id friendId clientId (StruUserInfo.readStatus packet)
  | _, _ => True

def Timely (state : State) : Event → Prop
  | .act index _ => ∀ task action rest, state.tasks[index]? = some task →
      task.prog = .act action rest → state.ActsInTime index task action rest
  | _ => True

section Agrees

variable {state next after : State} {id friendId : ℤ} {entry : Handle} {status : Option ℤ}
  {index : ℕ} {task other : Task} {action : Action} {rest : action.Answer → Handler Unit}
  {answer : action.Answer}

/-- An entry that was there still is, or has been removed by the action. -/
theorem Performs.keeps_entry (performs : Performs state action after answer)
    (entered : state.mMapIdToSocket id ≠ none) :
    after.mMapIdToSocket id ≠ none ∨ action = .erase id := by
  cases performs with
  | count | closesocket | selected | selectFailed | updateFailed => exact Or.inl entered
  | updated stmt rowId => cases stmt <;> exact Or.inl entered
  | sendData packet clientId taken =>
      rcases state.exists_sendData_eq packet clientId taken with ⟨_, _, same⟩
      rw [same]
      exact Or.inl entered
  | erase gone =>
      by_cases same : id = gone
      · exact Or.inr (by rw [same])
      · exact Or.inl (by simpa [Function.update_of_ne same] using entered)
  | setSocket written value =>
      left
      by_cases same : id = written
      · simp [same]
      · simpa [Function.update_of_ne same] using entered
  | socketOf key =>
      left
      simp only [State.socketOf]
      split
      · exact entered
      · by_cases same : id = key
        · simp [same]
        · simpa [Function.update_of_ne same] using entered

theorem stillEntered_of_perform {outcome : Outcome}
    (performed : state.perform action outcome = some (after, answer))
    (well : state.AnsweredWell outcome action) (entered : state.mMapIdToSocket id ≠ none) :
    StillEntered id action answer := by
  cases action with
  | count key =>
      rintro rfl
      have same : (state.mMapIdToSocket key).isSome = answer :=
        (Prod.mk.inj (Option.some.inj performed)).2
      exact same ▸ Option.isSome_iff_ne_none.mpr entered
  | select stmt nColumn =>
      have answered : outcome = .rows (some (state.rows stmt)) := well
      subst answered
      rcases Option.ite_none_right_eq_some.mp performed with ⟨_, same⟩
      have found : some (state.rows stmt).flatten = answer :=
        (Prod.mk.inj (Option.some.inj same)).2
      subst found
      exact Option.some_ne_none _
  | _ => trivial

theorem pending_advance {granted : (action : Action) → action.Answer → Prop}
    {goal : Action → Prop} (frame : SameFrame state after) {prog : Handler Unit}
    (pending : (state.resume index task prog).Pending granted goal) :
    (after.advance index task action answer prog).Pending granted goal := by
  simpa only [Pending, resume, advance, frame.tasks] using pending

theorem mem_others_of_advance (frame : SameFrame state after) {prog : Handler Unit}
    (member : other ∈ (after.advance index task action answer prog).tasks) :
    other ∈ (state.others index).tasks ∨ other = { task with prog := prog } := by
  rcases List.mem_iff_getElem?.mp member with ⟨position, found⟩
  simp only [advance, frame.tasks, List.getElem?_set] at found
  split at found
  · split at found
    · exact Or.inr (Option.some.inj found).symm
    · simp at found
  · rename_i elsewhere
    exact Or.inl (List.mem_eraseIdx_iff_getElem?.mpr ⟨position, Ne.symm elsewhere, found⟩)

/-- What the other handlers agree with they still agree with when the sender goes on, which
removes nobody. -/
theorem Agrees.advance (agrees : (state.others index).Agrees id friendId entry status)
    (frame : SameFrame state after) (same : after.mMapIdToSocket = state.mMapIdToSocket)
    (keeps : (rest answer).Only fun action => action ≠ .erase friendId) :
    (after.advance index task action answer (rest answer)).Agrees id friendId entry status := by
  constructor
  · intro shown
    rcases agrees.online shown with ⟨entered, warns⟩
    refine ⟨same ▸ entered, fun other member => ?_⟩
    rcases mem_others_of_advance frame member with old | rfl
    · exact warns other old
    · exact Or.inl keeps
  · intro shown entered
    rcases agrees.offline shown (same ▸ entered) with ⟨other, member, reaches⟩
    rcases List.mem_eraseIdx_iff_getElem?.mp member with ⟨position, elsewhere, found⟩
    exact ⟨other, mem_tasks_advance_of_ne frame (Ne.symm elsewhere) found, reaches⟩

/-- Other steps bring new handlers, which warn, and finish handlers that have returned. -/
theorem Agrees.of_tasks (agrees : state.Agrees id friendId entry status)
    (same : next.mMapIdToSocket = state.mMapIdToSocket)
    (keeps : ∀ task ∈ state.tasks, task.prog ≠ .ret () → task ∈ next.tasks)
    (starts : ∀ task ∈ next.tasks, task ∈ state.tasks ∨ Warns id friendId entry task.prog) :
    next.Agrees id friendId entry status := by
  constructor
  · intro shown
    rcases agrees.online shown with ⟨entered, warns⟩
    refine ⟨same ▸ entered, fun task member => ?_⟩
    rcases starts task member with old | warned
    · exact warns task old
    · exact warned
  · intro shown entered
    exact (agrees.offline shown (same ▸ entered)).of_tasks keeps

/-- A user who stays does so until his friend is notified. -/
theorem Stays.perform (stays : state.Stays id friendId entry)
    (performs : Performs state action after answer) (present : state.tasks[index]? = some task)
    (shape : task.prog = .act action rest) (grants : Grants id friendId entry action answer)
    (parts : Parts (.act action rest)) (silent : ¬DepartsOf friendId entry action) :
    (after.advance index task action answer (rest answer)).Stays id friendId entry := by
  have acting := stays.warns task (List.mem_of_getElem? present)
  rw [shape] at acting
  have moves : action ≠ .erase friendId ∧ Warns id friendId entry (rest answer) := by
    rcases acting with only | departs | continues
    · exact ⟨only.1, Or.inl (only.2 answer)⟩
    · exact absurd departs silent
    · have reaches := continues answer grants
      refine ⟨?_, Or.inr reaches⟩
      rintro rfl
      have returned : rest answer = .ret () := parts
      rw [returned] at reaches
      exact reaches
  constructor
  · rcases performs.keeps_entry stays.entered with entered | erases
    · exact entered
    · exact absurd erases moves.1
  · intro other member
    rcases mem_tasks_of_advance performs.sameFrame member with old | rfl
    · exact stays.warns other old
    · exact moves.2

/-- Who is shown offline and has an entry is going to lose it, whatever a handler does other than
to enter him. -/
theorem leaves_perform (leaves : state.mMapIdToSocket friendId ≠ none → state.Leaves friendId)
    (performs : Performs state action after answer) (present : state.tasks[index]? = some task)
    (shape : task.prog = .act action rest) (inTime : state.ActsInTime index task action rest)
    (still : state.mMapIdToSocket friendId ≠ none → StillEntered friendId action answer)
    (unwritten : ∀ socket, action ≠ .setSocket friendId socket)
    (entered : after.mMapIdToSocket friendId ≠ none) :
    (after.advance index task action answer (rest answer)).Leaves friendId := by
  rcases Option.ne_none_iff_exists'.mp entered with ⟨socket, now⟩
  rcases performs.entry now with old | written | ⟨rfl, absent, _⟩
  · have before : state.mMapIdToSocket friendId ≠ none := by simp [old]
    rcases (leaves before).perform performs.sameFrame present shape (still before) with
      erases | later
    · subst erases
      cases performs
      simp at entered
    · exact later
  · exact absurd written (unwritten socket)
  · have answered : answer = (0 : Handle) := by
      cases performs
      simp only [State.socketOf, absent]
      rfl
    subst answered
    exact pending_advance performs.sameFrame (inTime absent)

end Agrees

end State

end InstanceMessage
