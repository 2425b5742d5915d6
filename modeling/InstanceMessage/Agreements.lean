import InstanceMessage.Server.FriendPairs
import InstanceMessage.System

/-!
# Agreements and the rows they add

An answer with result success is an agreement: its handler adds two rows to
`t_friend` and looks at nothing else. `rowsToCome` counts down the rows which
the handler of a packet may still add; the rows of a state are those of the
table and all that are going to come from handlers in progress and from
packets in flight. No step adds to them except an agreement, so a friendship
is in the table twice, or with oneself, only if a user agrees to one that is
there already, or on its way, or with himself.
-/

namespace InstanceMessage

open Library

/-- The rows that an agreement is going to add, in this order. -/
def agreement (data : Bytes) : List (ℤ × ℤ) :=
  if packetType data = some defAddFriendRs ∧
      StruAddFriendRs.readResult data = some defAddFriendSuccess then
    match StruAddFriendRs.readFriendId data, StruAddFriendRs.readUserId data with
    | some friendId, some userId => [(friendId, userId), (userId, friendId)]
    | _, _ => []
  else []

def isFriendInsert : Action → Bool
  | .update (.insertFriend _ _) => true
  | _ => false

/-- The rows that the handler of the packet may still add. -/
def rowsToCome (data : Bytes) (history : History) : List (ℤ × ℤ) :=
  (agreement data).drop (history.countP fun performed => isFriendInsert performed.action)

/-- Rows are added one after the other, as the packet says. -/
def insertLaw (data : Bytes) (history : History) (action : Action) : Prop :=
  ∀ idA idB, action = .update (.insertFriend idA idB) →
    (rowsToCome data history).head? = some (idA, idB)

theorem rowsToCome_cons_of_noFriend {data : Bytes} {performed : Performed Action.Answer}
    {history : History} (other : isFriendInsert performed.action = false) :
    rowsToCome data (performed :: history) = rowsToCome data history := by
  simp [rowsToCome, other]

theorem rowsToCome_cons_insert {data : Bytes} {idA idB : ℤ}
    {inserted : (Action.update (.insertFriend idA idB)).Answer} {history : History} :
    rowsToCome data (⟨.update (.insertFriend idA idB), inserted⟩ :: history) =
      (rowsToCome data history).tail := by
  simp [rowsToCome, isFriendInsert, List.tail_drop]

theorem agreement_of_read {data : Bytes} {friendId userId : ℤ}
    (type : packetType data = some defAddFriendRs)
    (result : StruAddFriendRs.readResult data = some defAddFriendSuccess)
    (readFriendId : StruAddFriendRs.readFriendId data = some friendId)
    (readUserId : StruAddFriendRs.readUserId data = some userId) :
    agreement data = [(friendId, userId), (userId, friendId)] := by
  simp [agreement, type, result, readFriendId, readUserId]

theorem agreement_of_type {data : Bytes} (other : packetType data ≠ some defAddFriendRs) :
    agreement data = [] := by
  simp [agreement, other]

section Handlers

theorem insertLaw_of_noFriend {data : Bytes} {action : Action} (other : NoFriend action)
    (history : History) : insertLaw data history action :=
  fun idA idB same => absurd same (other idA idB)

theorem insertLaw_abort {data : Bytes} (history : History) (cause : Cause) :
    insertLaw data history (.abort cause) :=
  insertLaw_of_noFriend (fun _ _ => by simp) history

theorem obeys_insertLaw_of_noFriend {data : Bytes} {Value : Type} {prog : Handler Value}
    (only : prog.Only NoFriend) (history : History) :
    prog.Obeys (insertLaw data) (fun _ _ => True) history :=
  only.obeys (fun _ => True) (fun _ _ _ other => insertLaw_of_noFriend other _)
    (fun _ _ _ _ => trivial) (fun _ _ _ => trivial) trivial

theorem dealAddFriendRs_inserts {data : Bytes} {from_ : Handle}
    (type : packetType data = some defAddFriendRs) :
    (dealAddFriendRs data from_).Obeys (insertLaw data) (fun _ _ => True) [] := by
  refine Program.obeys_bind (obeys_field (insertLaw_abort _ _) fun result readResult => ?_)
  refine Program.obeys_bind (obeys_field (insertLaw_abort _ _) fun friendId readFriendId => ?_)
  split
  · rename_i success
    refine Program.obeys_bind (obeys_field (insertLaw_abort _ _) fun userId readUserId => ?_)
    have rows := agreement_of_read type (success ▸ readResult) readFriendId readUserId
    have rangeA : IsInt32 friendId := isInt32_of_readInt32 readFriendId
    have rangeB : IsInt32 userId := isInt32_of_readInt32 readUserId
    have room : 1024 ≤ 1024 * 2 := by decide
    simp only [Handler.sprintfS_text (.insertFriend friendId userId) ⟨rangeA, rangeB⟩ room,
      Handler.sprintfS_text (.insertFriend userId friendId) ⟨rangeB, rangeA⟩ room,
      Program.bind_ret]
    refine Program.obeys_perform_bind ?_ fun (first : Bool) => ?_
    · rintro idA idB ⟨⟩
      simp [rowsToCome, rows]
    cases first with
    | false => trivial
    | true =>
        refine Program.obeys_perform_bind ?_ fun (second : Bool) => ?_
        · rintro idA idB ⟨⟩
          simp [rowsToCome, isFriendInsert, rows]
        cases second with
        | false => trivial
        | true =>
            refine obeys_insertLaw_of_noFriend ?_ _
            exact (Program.only_bind (quiet_getUserInfoAndFriendInfo _) fun _ =>
              quiet_sendIfOnline _ _).mono fun _ => Quiet.noFriend
  · exact obeys_insertLaw_of_noFriend ((quiet_sendIfOnline _ _).mono fun _ => Quiet.noFriend) _

theorem dealData_inserts (data : Bytes) (from_ : Handle) :
    (dealData data from_).Obeys (insertLaw data) (fun _ _ => True) [] := by
  by_cases answers : packetType data = some defAddFriendRs
  · rw [dealData_addFriendRs answers]
    exact dealAddFriendRs_inserts answers
  · have only : (dealData data from_).Only NoFriend := by
      apply (dealData_lawful data from_ []).only
      intro history action lawful idA idB same
      subst same
      exact answers lawful.1
    exact obeys_insertLaw_of_noFriend only _

end Handlers

namespace State

/-- The rows of the table, and those that handlers in progress may still add. -/
def friendRows (state : State) : List (ℤ × ℤ) :=
  state.tFriend ++
    state.tasks.flatMap fun task => rowsToCome task.data (historyOf state.log task.tid)

theorem friendRows_receive {state : State} (coherent : state.Coherent) (conn : ConnId)
    (data : Bytes) : (state.receive conn data).friendRows = state.friendRows ++ agreement data := by
  have fresh : rowsToCome data (historyOf state.log state.nextTask) = agreement data := by
    rw [coherent.historyOf_nextTask]
    rfl
  simp [friendRows, State.receive, fresh]

theorem exists_split_of_getElem? {tasks : List Task} {index : ℕ} {task : Task}
    (present : tasks[index]? = some task) : ∃ front back, tasks = front ++ task :: back ∧
      (∀ moved, tasks.set index moved = front ++ moved :: back) ∧
        tasks.eraseIdx index = front ++ back := by
  rcases List.getElem?_eq_some_iff.mp present with ⟨bound, found⟩
  refine ⟨tasks.take index, tasks.drop (index + 1), ?_, fun moved => ?_, ?_⟩
  · rw [← found, List.getElem_cons_drop, List.take_append_drop]
  · exact List.set_eq_take_append_cons_drop.trans (if_pos bound)
  · exact List.eraseIdx_eq_take_drop_succ ..

theorem exists_insert_of_isFriendInsert {action : Action} (inserts : isFriendInsert action = true) :
    ∃ idA idB, action = .update (.insertFriend idA idB) := by
  cases action with
  | update stmt =>
      cases stmt with
      | insertFriend idA idB => exact ⟨idA, idB, rfl⟩
      | _ => simp [isFriendInsert] at inserts
  | _ => simp [isFriendInsert] at inserts

/-- An action moves a row from those to come into the table, or drops it. -/
theorem Performs.count_rows {state after : State} {action : Action} {answer : action.Answer}
    (performs : Performs state action after answer) {data : Bytes} {history : History}
    (lawful : insertLaw data history action) (row : ℤ × ℤ) :
    after.tFriend.count row + (rowsToCome data (⟨action, answer⟩ :: history)).count row ≤
      state.tFriend.count row + (rowsToCome data history).count row := by
  cases kind : isFriendInsert action with
  | false =>
      rw [rowsToCome_cons_of_noFriend kind]
      rcases performs.tFriend with same | ⟨idA, idB, rfl, _⟩
      · rw [same]
      · simp [isFriendInsert] at kind
  | true =>
      rcases exists_insert_of_isFriendInsert kind with ⟨idA, idB, rfl⟩
      rcases List.head?_eq_some_iff.mp (lawful idA idB rfl) with ⟨others, rows⟩
      rw [rowsToCome_cons_insert, rows, List.tail_cons, List.count_cons]
      rcases performs.tFriend with same | ⟨first, second, insert, added⟩
      · rw [same]
        omega
      · obtain ⟨rfl, rfl⟩ : idA = first ∧ idB = second := by simpa using insert
        rw [added, List.count_append, List.count_singleton]
        omega

/-- The tasks beside the one that moves may still add what they could before. -/
theorem flatMap_rowsToCome_cons (log : List Entry) (entry : Entry) {tasks : List Task}
    (others : ∀ task ∈ tasks, task.tid ≠ entry.tid) :
    (tasks.flatMap fun task => rowsToCome task.data (historyOf (entry :: log) task.tid)) =
      tasks.flatMap fun task => rowsToCome task.data (historyOf log task.tid) := by
  apply List.flatMap_congr
  intro task member
  rw [historyOf_cons_of_ne (others task member).symm]

theorem count_friendRows_perform {state after : State} {index : ℕ} {outcome : Outcome}
    {task : Task} {action : Action} {rest : action.Answer → Handler Unit} {answer : action.Answer}
    (coherent : state.Coherent)
    (obey : state.Obey (fun data _ => insertLaw data) fun _ _ _ _ => True)
    (present : state.tasks[index]? = some task) (shape : task.prog = .act action rest)
    (performed : state.perform action outcome = some (after, answer)) (row : ℤ × ℤ) :
    (after.advance index task action answer (rest answer)).friendRows.count row ≤
      state.friendRows.count row := by
  have performs := performs_of_perform performed
  have frame := performs.sameFrame
  have obeys := obey task (List.mem_of_getElem? present)
  rw [shape] at obeys
  have moves := performs.count_rows obeys.1 row
  rcases exists_split_of_getElem? present with ⟨front, back, whole, replaced, _⟩
  have distinct := coherent.distinct
  rw [whole, List.map_append, List.map_cons, List.nodup_append, List.nodup_cons] at distinct
  rcases distinct with ⟨_, ⟨notBehind, _⟩, notBefore⟩
  have before (other : Task) (member : other ∈ front) : other.tid ≠ task.tid :=
    notBefore _ (List.mem_map_of_mem member) _ List.mem_cons_self
  have behind (other : Task) (member : other ∈ back) : other.tid ≠ task.tid :=
    fun same => notBehind (same ▸ List.mem_map_of_mem member)
  let entry : Entry := ⟨task.tid, task.conn, task.from_, task.data, ⟨action, answer⟩⟩
  have later : (after.advance index task action answer (rest answer)).friendRows =
      after.tFriend ++
        ((front.flatMap fun task => rowsToCome task.data (historyOf state.log task.tid)) ++
          (rowsToCome task.data (⟨action, answer⟩ :: historyOf state.log task.tid) ++
            back.flatMap fun task => rowsToCome task.data (historyOf state.log task.tid))) := by
    have own : historyOf (entry :: state.log) task.tid =
      ⟨action, answer⟩ :: historyOf state.log task.tid := historyOf_cons_self
    rw [← flatMap_rowsToCome_cons state.log entry before,
      ← flatMap_rowsToCome_cons state.log entry behind, ← own]
    simp only [friendRows, advance, frame.tasks, frame.log, replaced, List.flatMap_append,
      List.flatMap_cons, entry]
  rw [later]
  simp only [friendRows, whole, List.flatMap_append, List.flatMap_cons, List.count_append]
  omega

/-- No step adds rows to those of the state but the receipt of an agreement. -/
theorem count_friendRows_step {state next : State} {event : Event} (coherent : state.Coherent)
    (obey : state.Obey (fun data _ => insertLaw data) fun _ _ _ _ => True)
    (other : event.isReceive = false) (stepped : state.step event = some next) (row : ℤ × ℤ) :
    next.friendRows.count row ≤ state.friendRows.count row := by
  cases stepped_of_step stepped with
  | accept | list | closeSocket | eraseClient => exact le_of_eq (by rfl)
  | receive => simp [Event.isReceive] at other
  | perform present shape goesOn performed =>
      exact count_friendRows_perform coherent obey present shape performed row
  | halt => simp [friendRows, State.halt]
  | finish present returned =>
      rcases exists_split_of_getElem? present with ⟨front, back, whole, _, erased⟩
      simp only [friendRows, erased]
      simp only [whole, List.flatMap_append, List.flatMap_cons, List.count_append]
      omega

end State

/-! ## Agreements in flight -/

theorem agreement_bytes (rs : StruAddFriendRs) (range : IsInt32 rs.result)
    (rangeA : IsInt32 rs.friendId) (rangeB : IsInt32 rs.userId) :
    agreement rs.bytes = if rs.result = defAddFriendSuccess then
      [(rs.friendId, rs.userId), (rs.userId, rs.friendId)] else [] := by
  have readResult := StruAddFriendRs.readResult_bytes rs range
  by_cases success : rs.result = defAddFriendSuccess
  · rw [if_pos success]
    exact agreement_of_read (packetType_addFriendRs rs) (success ▸ readResult)
      (StruAddFriendRs.readFriendId_bytes rs rangeA) (StruAddFriendRs.readUserId_bytes rs rangeB)
  · simp only [agreement, readResult, Option.some.injEq, success, and_false, if_false]

theorem agreement_answer {rs : StruAddFriendRs} (rangeA : IsInt32 rs.friendId)
    (rangeB : IsInt32 rs.userId) (agrees : Bool) :
    agreement (StruAddFriendRs.bytes { rs with
      result := if agrees then defAddFriendSuccess else defAddFriendRefuse }) =
        if agrees then [(rs.friendId, rs.userId), (rs.userId, rs.friendId)] else [] := by
  have range : IsInt32 (if agrees then defAddFriendSuccess else defAddFriendRefuse) := by
    cases agrees <;> decide
  refine (agreement_bytes { rs with
    result := if agrees then defAddFriendSuccess else defAddFriendRefuse } range rangeA
      rangeB).trans ?_
  cases agrees <;> rfl

/-- No friendship is there twice, and none with oneself. -/
def Distinct (rows : List (ℤ × ℤ)) : Prop := rows.Nodup ∧ ∀ row ∈ rows, row.1 ≠ row.2

theorem Distinct.of_count_le {rows later : List (ℤ × ℤ)} (distinct : Distinct rows)
    (fewer : ∀ row, later.count row ≤ rows.count row) : Distinct later := by
  refine ⟨List.nodup_iff_count_le_one.mpr fun row => ?_, fun row member => ?_⟩
  · exact (fewer row).trans (List.nodup_iff_count_le_one.mp distinct.1 row)
  · have present := (List.count_pos_iff.mpr member).trans_le (fewer row)
    exact distinct.2 row (List.count_pos_iff.mp present)

theorem Distinct.append_pair {rows : List (ℤ × ℤ)} {idA idB : ℤ} (distinct : Distinct rows)
    (different : idA ≠ idB) (newA : (idA, idB) ∉ rows) (newB : (idB, idA) ∉ rows) :
    Distinct (rows ++ [(idA, idB), (idB, idA)]) := by
  refine ⟨List.nodup_append.mpr ⟨distinct.1, by simp [different], ?_⟩, ?_⟩
  · rintro row old other new rfl
    rcases List.mem_pair.mp new with rfl | rfl
    · exact newA old
    · exact newB old
  · intro row member
    rcases List.mem_append.mp member with old | new
    · exact distinct.2 row old
    · rcases List.mem_pair.mp new with rfl | rfl
      · exact different
      · exact different.symm

namespace System

/-- The rows of the table, and those that agreements may still add. -/
def friendRows (system : System) : List (ℤ × ℤ) :=
  system.server.friendRows ++ system.inFlight.flatMap fun packet => agreement packet.2

/-- A user who agrees does so with another user, who is not his friend yet and with whom no
other agreement is in progress or on its way. -/
def AgreesAnew (system : System) : SystemEvent → Prop
  | .user conn (.answer true) => ∀ rs questions,
      (system.client conn).questions = rs :: questions →
        rs.friendId ≠ rs.userId ∧ (rs.friendId, rs.userId) ∉ system.friendRows ∧
          (rs.userId, rs.friendId) ∉ system.friendRows
  | _ => True

theorem distinct_step {before after : System} {event : SystemEvent}
    (coherent : before.server.Coherent)
    (obey : before.server.Obey (fun data _ => insertLaw data) fun _ _ _ _ => True)
    (ranged : ∀ conn, (before.client conn).Ranged) (distinct : Distinct before.friendRows)
    (anew : before.AgreesAnew event) (stepped : Stepped before event after) :
    Distinct after.friendRows := by
  cases stepped with
  | server other moved =>
      apply distinct.of_count_le
      intro row
      simp only [friendRows, List.count_append]
      have := State.count_friendRows_step coherent obey other moved row
      omega
  | @receive conn data front back server waiting moved =>
      apply distinct.of_count_le
      intro row
      obtain rfl : before.server.receive conn data = server := by
        cases State.stepped_of_step moved with
        | receive => rfl
      simp only [friendRows, State.friendRows_receive coherent, waiting, List.flatMap_append,
        List.flatMap_cons, List.count_append]
      omega
  | deliver => exact distinct
  | @user conn action kernel packet acts =>
      have appended : ∀ rows, (packet.toList.flatMap agreement) = rows →
          Distinct (before.friendRows ++ rows) → Distinct (System.friendRows { before with
            client := Function.update before.client conn kernel
            inFlight := before.inFlight ++ packet.toList.map fun data => (conn, data) }) := by
        rintro rows rfl holds
        simpa [friendRows, List.flatMap_append, List.flatMap_map] using holds
      cases acts with
      | plain user fewer plain =>
          refine appended [] ?_ (by simpa using distinct)
          apply List.flatMap_eq_nil_iff.mpr
          intro data member
          exact agreement_of_type (plain data (by simpa using member)).2
      | asks rq =>
          refine appended [] ?_ (by simpa using distinct)
          simpa using agreement_of_type (by rw [packetType_addFriendRq]; decide)
      | @answers agrees rs questions asked =>
          rcases (ranged conn).questions rs (asked ▸ List.mem_cons_self) with ⟨rangeA, rangeB⟩
          apply appended _ (by simpa using agreement_answer rangeA rangeB agrees)
          cases agrees with
          | false => simpa using distinct
          | true =>
              rcases anew rs questions asked with ⟨different, newA, newB⟩
              exact distinct.append_pair different newA newB

/-- No duplicate and no self friendship: in a run with clients of this kind, from a table without
them, if users agree only anew, the table has no row twice and no user is his own friend. -/
theorem friends_distinct {qt : Qt} {tUser : List UserRow} {tFriend : List (ℤ × ℤ)}
    {events : List SystemEvent} {final : System} (initially : Distinct tFriend)
    (reached : (system qt).run (start tUser tFriend) events = some final)
    (anew : (system qt).Meets AgreesAnew (start tUser tFriend) events) :
    final.server.tFriend.Nodup ∧ ∀ id, (id, id) ∉ final.server.tFriend := by
  have distinct : Distinct final.friendRows := by
    refine ((system qt).run_invariant (fun state => state.server.Coherent ∧
      state.server.Obey (fun data _ => insertLaw data) (fun _ _ _ _ => True) ∧
        (∀ conn, (state.client conn).Ranged) ∧ Distinct state.friendRows) ?_
      ⟨State.coherent_start _ _, by simp [start, State.start, State.Obey],
        ranged_start tUser tFriend, ?_⟩ anew reached).2.2.2
    · rintro state event next ⟨coherent, obey, ranged, distinct⟩ allowed stepped
      have steps := stepped_of_step stepped
      refine ⟨?_, ?_, ranged_step ranged steps,
        distinct_step coherent obey ranged distinct allowed steps⟩
      · cases steps with
        | server other moved | receive waiting moved => exact coherent.step moved
        | deliver | user => exact coherent
      · cases steps with
        | server other moved | receive waiting moved =>
            exact obey.step dealData_inserts coherent moved
        | deliver | user => exact obey
    · simpa [friendRows, State.friendRows, start, State.start] using initially
  have table : Distinct final.server.tFriend := by
    apply distinct.of_count_le
    intro row
    simp only [friendRows, State.friendRows, List.count_append]
    omega
  exact ⟨table.1, fun id member => table.2 (id, id) member rfl⟩

/-! ## Two clients -/

/-- The conversions on text that is ASCII. -/
def asciiQt : Qt where
  toUnicode := List.map fun byte => UInt16.ofNat byte.toNat
  fromUnicode := List.map fun unit => UInt8.ofNat unit.toNat
  toStdString := List.map fun unit => UInt8.ofNat unit.toNat
  fromUtf8 := List.map fun byte => UInt16.ofNat byte.toNat

/-- The actions of a handler, with what the environment answers, until it returns. -/
def deals (outcomes : List Outcome) : List SystemEvent :=
  outcomes.map (fun outcome => .server (.act 0 outcome)) ++ [.server (.finish 0)]

def arrives (user : UserRow) (conn : ConnId) (socket : Handle) : List SystemEvent :=
  [.server (.accept socket), .server (.list conn),
    .user conn (.loginMassage (asciiQt.toUnicode user.tel) (asciiQt.toUnicode user.pass)),
    .receive conn] ++
  deals [.rows (some [[user.pass, decimal user.id]]), .internal, .internal, .internal,
    .rows (some [[user.name, user.feeling, decimal user.iconId]]), .internal, .internal, .internal,
    .rows (some [])] ++
  [.deliver conn, .deliver conn]

/-- The server looks the friend up by name and passes the request on to him. -/
def forwards (friend : UserRow) : List SystemEvent :=
  deals [.rows (some [[decimal friend.id]]), .internal, .internal, .internal]

def inserts (index : ℕ) : List SystemEvent :=
  [.server (.act index (.updated true 0)), .server (.act index (.updated true 0))]

def aliceAndBob : List SystemEvent :=
  arrives alice 0 4 ++ arrives bob 1 8 ++
    [.user 0 (.addFriend (asciiQt.toUnicode bob.name)), .receive 0] ++ forwards bob ++
      [.deliver 1, .user 1 (.answer true), .receive 1] ++ inserts 0

/-- Alice and Bob ask each other before either answers, and both agree. -/
def crossing : List SystemEvent :=
  arrives alice 0 4 ++ arrives bob 1 8 ++
    [.user 0 (.addFriend (asciiQt.toUnicode bob.name)),
      .user 1 (.addFriend (asciiQt.toUnicode alice.name)), .receive 0] ++ forwards bob ++
        .receive 1 :: forwards alice ++
          [.deliver 1, .deliver 0, .user 1 (.answer true), .user 0 (.answer true), .receive 1,
            .receive 0] ++ inserts 0 ++ inserts 1

def agreesAnew (system : System) : SystemEvent → Bool
  | .user conn (.answer true) =>
      match (system.client conn).questions with
      | rs :: _ => rs.friendId ≠ rs.userId ∧ (rs.friendId, rs.userId) ∉ system.friendRows ∧
          (rs.userId, rs.friendId) ∉ system.friendRows
      | [] => true
  | _ => true

theorem agreesAnew_sound (system : System) (event : SystemEvent)
    (passed : system.agreesAnew event = true) : system.AgreesAnew event := by
  cases event with
  | user conn action =>
      cases action with
      | answer agrees =>
          cases agrees with
          | true =>
              intro rs questions asked
              simpa [agreesAnew, asked] using passed
          | false => trivial
      | _ => trivial
  | _ => trivial

theorem friends_distinct_agreed : ∃ final,
    (system asciiQt).run (start [alice, bob] []) aliceAndBob = some final ∧
      final.server.tFriend = [(1, 2), (2, 1)] ∧ final.server.tFriend.Nodup := by
  have evaluated : ((system asciiQt).run (start [alice, bob] []) aliceAndBob).any (fun final =>
      final.server.tFriend = [(1, 2), (2, 1)]) = true := by
    decide +kernel
  have passed : (system asciiQt).allSteps agreesAnew (start [alice, bob] []) aliceAndBob =
      true := by
    decide +kernel
  rcases (Option.any_eq_true _ _).mp evaluated with ⟨final, reached, rows⟩
  exact ⟨final, reached, by simpa using rows, (friends_distinct ⟨.nil, by simp⟩ reached
    ((system asciiQt).meets_of_allSteps agreesAnew_sound passed)).1⟩

/-- Requests that cross make Alice and Bob friends twice. -/
theorem friends_distinct_fails : ∃ final,
    (system asciiQt).run (start [alice, bob] []) crossing = some final ∧
      final.server.tFriend = [(1, 2), (2, 1), (2, 1), (1, 2)] := by
  have evaluated : ((system asciiQt).run (start [alice, bob] []) crossing).any (fun final =>
      final.server.tFriend = [(1, 2), (2, 1), (2, 1), (1, 2)]) = true := by
    decide +kernel
  rcases (Option.any_eq_true _ _).mp evaluated with ⟨final, reached, rows⟩
  exact ⟨final, reached, by simpa using rows⟩

end System

end InstanceMessage
