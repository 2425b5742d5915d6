import InstanceMessage.Server.Coherence

/-!
# The friend table stays symmetric

`dealAddFriendRs` writes a friendship as two rows with two statements, and
returns early when one of them fails. After a successful first insert the table
holds a row without its reverse until the second one; the half-written pair is
read off the history of the packet (`halfPair`).

The invariant: the reverse of every row is in the table too, or some handler
has yet to write it. It survives every step except a second insert that fails
for a row not yet there, and an end of the process between the two inserts.
-/

namespace InstanceMessage

open Library

/-- The row of a first insert that has succeeded and whose reverse has not been tried yet. -/
def halfPair : History → Option (ℤ × ℤ)
  | [] => none
  | ⟨.update (.insertFriend idA idB), (inserted : Bool)⟩ :: older =>
      match halfPair older with
      | some _ => none
      | none => if inserted then some (idA, idB) else none
  | _ :: older => halfPair older

/-- After a first insert the handler goes on with the insert of the reverse row. -/
def pairLaw (history : History) (action : Action) : Prop :=
  ∀ row, halfPair history = some row → action = .update (.insertFriend row.2 row.1)

/-- A handler does not return between its two inserts. -/
def PairDone (history : History) : Prop := halfPair history = none

def NoFriend (action : Action) : Prop := ∀ idA idB, action ≠ .update (.insertFriend idA idB)

theorem halfPair_cons_of_noFriend {performed : Performed Action.Answer} {older : History}
    (other : NoFriend performed.action) : halfPair (performed :: older) = halfPair older := by
  rcases performed with ⟨action, answer⟩
  cases action with
  | update stmt =>
      cases stmt with
      | insertFriend idA idB => exact absurd rfl (other idA idB)
      | _ => rfl
  | _ => rfl

theorem halfPair_first (idA idB : ℤ) (inserted : Bool) {older : History} (done : PairDone older) :
    halfPair (⟨.update (.insertFriend idA idB), inserted⟩ :: older) =
      if inserted then some (idA, idB) else none := by
  simp only [halfPair, show halfPair older = none from done]

theorem halfPair_second (idA idB : ℤ) (inserted : Bool) {row : ℤ × ℤ} {older : History}
    (half : halfPair older = some row) :
    halfPair (⟨.update (.insertFriend idA idB), inserted⟩ :: older) = none := by
  simp only [halfPair, half]

theorem pairLaw_of_done {history : History} (done : PairDone history) (action : Action) :
    pairLaw history action := by
  intro row half
  rw [show halfPair history = none from done] at half
  simp at half

section Handlers

variable {history : History}

/-- A program without inserts of friendships obeys the law and leaves no half-written pair. -/
theorem obeys_pairLaw_of_noFriend {Value : Type} {prog : Handler Value} (only : prog.Only NoFriend)
    (done : PairDone history) : prog.Obeys pairLaw (fun later _ => PairDone later) history :=
  only.obeys PairDone (fun _ _ done _ => pairLaw_of_done done _)
    (fun _ _ done other => (halfPair_cons_of_noFriend other).trans done) (fun _ _ done => done) done

theorem Quiet.noFriend {action : Action} (quiet : Quiet action) : NoFriend action := by
  rintro idA idB rfl
  exact quiet

theorem obeys_pairLaw_of_quiet {Value : Type} {prog : Handler Value} (quiet : prog.Only Quiet)
    (done : PairDone history) : prog.Obeys pairLaw (fun later _ => PairDone later) history :=
  obeys_pairLaw_of_noFriend (quiet.mono fun _ => Quiet.noFriend) done

theorem dealAddFriendRs_pairs (data : Bytes) (from_ : Handle) (done : PairDone history) :
    (dealAddFriendRs data from_).Obeys pairLaw (fun later _ => PairDone later) history := by
  refine Program.obeys_bind (obeys_field (pairLaw_of_done done _) fun result _ => ?_)
  refine Program.obeys_bind (obeys_field (pairLaw_of_done done _) fun friendId readFriendId => ?_)
  split
  · refine Program.obeys_bind (obeys_field (pairLaw_of_done done _) fun userId readUserId => ?_)
    have rangeA : IsInt32 friendId := isInt32_of_readInt32 readFriendId
    have rangeB : IsInt32 userId := isInt32_of_readInt32 readUserId
    have room : 1024 ≤ 1024 * 2 := by decide
    simp only [Handler.sprintfS_text (.insertFriend friendId userId) ⟨rangeA, rangeB⟩ room,
      Handler.sprintfS_text (.insertFriend userId friendId) ⟨rangeB, rangeA⟩ room,
      Program.bind_ret]
    apply Program.obeys_perform_bind (pairLaw_of_done done _)
    intro (first : Bool)
    have half := halfPair_first friendId userId first done
    cases first with
    | false => exact half
    | true =>
        refine Program.obeys_perform_bind ?_ fun (second : Bool) => ?_
        · intro row named
          have same : (friendId, userId) = row := Option.some.inj (half.symm.trans named)
          subst same
          rfl
        · have finished : PairDone (⟨.update (.insertFriend userId friendId), second⟩ ::
              ⟨.update (.insertFriend friendId userId), true⟩ :: history) :=
            halfPair_second userId friendId second half
          cases second with
          | false => exact finished
          | true =>
              refine obeys_pairLaw_of_quiet ?_ finished
              exact Program.only_bind (quiet_getUserInfoAndFriendInfo _) fun _ =>
                quiet_sendIfOnline _ _
  · exact obeys_pairLaw_of_quiet (quiet_sendIfOnline _ _) done

theorem dealData_pairs (data : Bytes) (from_ : Handle) :
    (dealData data from_).Obeys pairLaw (fun later _ => PairDone later) [] := by
  by_cases answers : packetType data = some defAddFriendRs
  · rw [dealData_addFriendRs answers]
    exact dealAddFriendRs_pairs data from_ rfl
  · refine obeys_pairLaw_of_noFriend ?_ rfl
    apply (dealData_lawful data from_ []).only
    intro history action lawful idA idB same
    subst same
    exact answers lawful.1

end Handlers

namespace State

/-- The handler of the task has written the row and not yet tried its reverse. -/
def HasHalf (state : State) (task : Task) (row : ℤ × ℤ) : Prop :=
  halfPair (historyOf state.log task.tid) = some row

/-- The reverse of every row is there or still to be written, and half-written rows are there. -/
structure Paired (state : State) : Prop where
  reverse : ∀ row ∈ state.tFriend,
    row.swap ∈ state.tFriend ∨ ∃ task ∈ state.tasks, state.HasHalf task row
  written : ∀ task ∈ state.tasks, ∀ row, state.HasHalf task row → row ∈ state.tFriend

/-- A step that leaves no row without its reverse for good: a second insert fails only for a row
that is there already, and the process does not end between the two inserts of a new pair. -/
def CompletesPairs (state : State) : Event → Prop
  | .act index outcome => ∀ task action rest, state.tasks[index]? = some task →
      task.prog = .act action rest →
        (∀ row rowId, outcome = .updated false rowId → state.HasHalf task row →
          row.swap ∈ state.tFriend) ∧
        (action.Stops → ∀ other ∈ state.tasks, ∀ row, state.HasHalf other row →
          row.swap ∈ state.tFriend)
  | _ => True

section Step

variable {state after : State} {index : ℕ} {task : Task} {action : Action}
  {rest : action.Answer → Handler Unit} {answer : action.Answer}

theorem hasHalf_advance_self (frame : SameFrame state after) {prog : Handler Unit} {row : ℤ × ℤ} :
    (after.advance index task action answer prog).HasHalf { task with prog := prog } row ↔
      halfPair (⟨action, answer⟩ :: historyOf state.log task.tid) = some row := by
  rw [HasHalf, log_advance frame]
  exact historyOf_cons_self ▸ Iff.rfl

theorem hasHalf_advance_of_ne (frame : SameFrame state after) {prog : Handler Unit} {other : Task}
    (different : other.tid ≠ task.tid) {row : ℤ × ℤ} :
    (after.advance index task action answer prog).HasHalf other row ↔ state.HasHalf other row := by
  rw [HasHalf, HasHalf, log_advance frame, historyOf_cons_of_ne (Ne.symm different)]

/-- An action keeps the pairs when it does so for its own packet and only adds rows. -/
theorem Paired.advance (paired : state.Paired) (coherent : state.Coherent)
    (frame : SameFrame state after) (present : state.tasks[index]? = some task)
    (grows : state.tFriend ⊆ after.tFriend)
    (own : ∀ row, state.HasHalf task row → row.swap ∈ after.tFriend ∨
      halfPair (⟨action, answer⟩ :: historyOf state.log task.tid) = some row)
    (new : ∀ row ∈ after.tFriend, row ∈ state.tFriend ∨ row.swap ∈ after.tFriend ∨
      halfPair (⟨action, answer⟩ :: historyOf state.log task.tid) = some row)
    (half : ∀ row, halfPair (⟨action, answer⟩ :: historyOf state.log task.tid) = some row →
      row ∈ after.tFriend) :
    (after.advance index task action answer (rest answer)).Paired := by
  have stays : { task with prog := rest answer } ∈
      (after.advance index task action answer (rest answer)).tasks :=
    mem_tasks_advance_self frame present
  constructor
  · intro row member
    rcases new row member with old | swapped | pending
    · rcases paired.reverse row old with swapped | ⟨other, otherMem, pending⟩
      · exact Or.inl (grows swapped)
      · rcases List.mem_iff_getElem?.mp otherMem with ⟨position, found⟩
        by_cases same : index = position
        · subst same
          have same : task = other := Option.some.inj (present.symm.trans found)
          subst same
          rcases own row pending with swapped | pending
          · exact Or.inl swapped
          · exact Or.inr ⟨_, stays, (hasHalf_advance_self frame).mpr pending⟩
        · have different : other.tid ≠ task.tid := by
            intro sameTid
            exact same (index_eq_of_tid_eq coherent.distinct present found sameTid.symm)
          exact Or.inr ⟨other, mem_tasks_advance_of_ne frame same found,
            (hasHalf_advance_of_ne frame different).mpr pending⟩
    · exact Or.inl swapped
    · exact Or.inr ⟨_, stays, (hasHalf_advance_self frame).mpr pending⟩
  · intro other member row pending
    rcases mem_tasks_of_advance_of_ne coherent.distinct frame present member
      with rfl | ⟨old, different⟩
    · exact half row ((hasHalf_advance_self frame).mp pending)
    · exact grows (paired.written other old row
        ((hasHalf_advance_of_ne frame different).mp pending))

theorem Paired.perform {outcome : Outcome} (paired : state.Paired) (coherent : state.Coherent)
    (obey : state.Obey (fun _ _ => pairLaw) fun _ _ later _ => PairDone later)
    (completes : state.CompletesPairs (.act index outcome))
    (present : state.tasks[index]? = some task) (shape : task.prog = .act action rest)
    (performed : state.perform action outcome = some (after, answer)) :
    (after.advance index task action answer (rest answer)).Paired := by
  have performs := performs_of_perform performed
  have frame := performs.sameFrame
  have obeys := obey task (List.mem_of_getElem? present)
  rw [shape] at obeys
  by_cases other : NoFriend action
  · have same : after.tFriend = state.tFriend := by
      rcases performs.tFriend with same | ⟨idA, idB, insert, _⟩
      · exact same
      · exact absurd insert (other idA idB)
    have kept : halfPair (⟨action, answer⟩ :: historyOf state.log task.tid) =
        halfPair (historyOf state.log task.tid) := halfPair_cons_of_noFriend other
    refine paired.advance coherent frame present ?_ ?_ ?_ ?_
    · rw [same]
      exact List.Subset.refl _
    · exact fun row pending => Or.inr (kept.trans pending)
    · exact fun row member => Or.inl (same ▸ member)
    · intro row pending
      rw [same]
      exact paired.written task (List.mem_of_getElem? present) row (kept.symm.trans pending)
  · simp only [NoFriend, not_forall, not_not] at other
    rcases other with ⟨idA, idB, rfl⟩
    cases half : halfPair (historyOf state.log task.tid) with
    | none =>
        have later (inserted : Bool) := halfPair_first idA idB inserted half
        cases performs with
        | updated stmt rowId =>
            refine paired.advance coherent frame present (List.subset_append_left _ _) ?_ ?_ ?_
            · intro row pending
              simp [HasHalf, half] at pending
            · intro row member
              rcases List.mem_append.mp member with old | added
              · exact Or.inl old
              · rcases List.mem_singleton.mp added with rfl
                exact Or.inr (Or.inr (later true))
            · intro row pending
              have same : (idA, idB) = row := Option.some.inj ((later true).symm.trans pending)
              subst same
              exact List.mem_append_right _ (List.mem_singleton.mpr rfl)
        | updateFailed stmt =>
            refine paired.advance coherent frame present (List.Subset.refl _) ?_ ?_ ?_
            · intro row pending
              simp [HasHalf, half] at pending
            · exact fun row member => Or.inl member
            · intro row pending
              have : none = some row := (later false).symm.trans pending
              simp at this
    | some first =>
        have reversed := obeys.1 first half
        simp only [Action.update.injEq, Stmt.insertFriend.injEq] at reversed
        rcases reversed with ⟨rfl, rfl⟩
        have later (inserted : Bool) := halfPair_second first.2 first.1 inserted half
        have there := paired.written task (List.mem_of_getElem? present) first half
        have noHalf (inserted : Bool) (row : ℤ × ℤ) (pending : halfPair
            (⟨.update (.insertFriend first.2 first.1), inserted⟩ ::
              historyOf state.log task.tid) = some row) : False := by
          have : none = some row := (later inserted).symm.trans pending
          simp at this
        cases performs with
        | updated stmt rowId =>
            refine paired.advance coherent frame present (List.subset_append_left _ _) ?_ ?_
              fun row pending => (noHalf true row pending).elim
            · intro row pending
              have same : first = row := Option.some.inj (half.symm.trans pending)
              subst same
              exact Or.inl (List.mem_append_right _ (List.mem_singleton.mpr rfl))
            · intro row member
              rcases List.mem_append.mp member with old | added
              · exact Or.inl old
              · rcases List.mem_singleton.mp added with rfl
                exact Or.inr (Or.inl (List.mem_append_left _ there))
        | updateFailed stmt =>
            rcases updated_of_perform performed with ⟨rowId, failed⟩
            refine paired.advance coherent frame present (List.Subset.refl _) ?_
              (fun row member => Or.inl member) fun row pending => (noHalf false row pending).elim
            exact fun row pending =>
              Or.inl ((completes task _ rest present shape).1 row rowId failed pending)

theorem not_hasHalf_of_returned
    (obey : state.Obey (fun _ _ => pairLaw) fun _ _ later _ => PairDone later)
    (member : task ∈ state.tasks) (returned : task.prog = .ret ()) (row : ℤ × ℤ) :
    ¬state.HasHalf task row := by
  intro pending
  have done := obey task member
  rw [returned] at done
  have : none = some row := Eq.trans (Eq.symm done) pending
  simp at this

theorem Paired.step {next : State} {event : Event} (paired : state.Paired)
    (coherent : state.Coherent)
    (obey : state.Obey (fun _ _ => pairLaw) fun _ _ later _ => PairDone later)
    (completes : state.CompletesPairs event) (stepped : state.step event = some next) :
    next.Paired := by
  cases stepped_of_step stepped with
  | accept | list | closeSocket | eraseClient => exact ⟨paired.reverse, paired.written⟩
  | receive =>
      constructor
      · intro row member
        rcases paired.reverse row member with swapped | ⟨task, taskMem, pending⟩
        · exact Or.inl swapped
        · exact Or.inr ⟨task, List.mem_append_left _ taskMem, pending⟩
      · intro task member row pending
        rcases List.mem_append.mp member with old | new
        · exact paired.written task old row pending
        · rw [List.mem_singleton.mp new] at pending
          simp [HasHalf, State.receive, coherent.historyOf_nextTask, halfPair] at pending
  | perform present shape goesOn performed =>
      exact paired.perform coherent obey completes present shape performed
  | @halt index outcome task action rest present shape stops =>
      constructor
      · intro row member
        rcases paired.reverse row member with swapped | ⟨other, otherMem, pending⟩
        · exact Or.inl swapped
        · exact Or.inl ((completes task action rest present shape).2 stops other otherMem row
            pending)
      · simp [State.halt]
  | @finish index task present returned =>
      constructor
      · intro row member
        rcases paired.reverse row member with swapped | ⟨other, otherMem, pending⟩
        · exact Or.inl swapped
        · rcases List.mem_iff_getElem?.mp otherMem with ⟨position, found⟩
          have elsewhere : position ≠ index := by
            rintro rfl
            have same : task = other := Option.some.inj (present.symm.trans found)
            subst same
            exact not_hasHalf_of_returned obey otherMem returned row pending
          exact Or.inr ⟨other,
            List.mem_eraseIdx_iff_getElem?.mpr ⟨position, elsewhere, found⟩, pending⟩
      · exact fun other member => paired.written other (List.mem_of_mem_eraseIdx member)

end Step

/-- The friend table stays symmetric: in a run from a symmetric table, if a second insert fails
only for a row that is there already and the process does not end between two inserts, the table
is symmetric whenever no handler is in progress. -/
theorem friends_symmetric {tUser : List UserRow} {tFriend : List (ℤ × ℤ)} {events : List Event}
    {final : State} (symmetric : ∀ idA idB, (idA, idB) ∈ tFriend → (idB, idA) ∈ tFriend)
    (reached : server.run (start tUser tFriend) events = some final)
    (completes : server.Meets CompletesPairs (start tUser tFriend) events)
    (quiescent : final.tasks = []) (idA idB : ℤ) :
    (idA, idB) ∈ final.tFriend ↔ (idB, idA) ∈ final.tFriend := by
  have paired : final.Paired := by
    refine (server.run_invariant (fun state => state.Coherent ∧
      state.Obey (fun _ _ => pairLaw) (fun _ _ later _ => PairDone later) ∧ state.Paired) ?_
      ⟨coherent_start _ _, by simp [start, Obey], ?_⟩ completes reached).2.2
    · intro state event next holds allowed stepped
      rcases holds with ⟨coherent, obey, paired⟩
      exact ⟨coherent.step stepped, obey.step dealData_pairs coherent stepped,
        paired.step coherent obey allowed stepped⟩
    · exact ⟨fun row member => Or.inl (symmetric _ _ member), by simp [start]⟩
  have reverse (row : ℤ × ℤ) (member : row ∈ final.tFriend) : row.swap ∈ final.tFriend := by
    rcases paired.reverse row member with swapped | ⟨task, taskMem, _⟩
    · exact swapped
    · simp [quiescent] at taskMem
  exact ⟨reverse _, reverse _⟩

def bobAgrees : List Event :=
  logsIn alice 0 4 ++ [.accept 8, .list 1,
    .receive 1 (StruAddFriendRs.bytes ⟨defAddFriendSuccess, 1, 2, []⟩), .act 0 (.updated true 0)]

def aliceIsTold : List Event :=
  [.act 0 (.updated true 0), .act 0 .internal,
    .act 0 (.rows (some [[ascii "alice", [], decimal 4]])),
    .act 0 .internal, .act 0 .internal, .act 0 .internal, .act 0 (.rows (some [[decimal 2]])),
    .act 0 .internal, .act 0 (.rows (some [[ascii "bob", [], decimal 4]])), .act 0 .internal,
    .act 0 .internal, .act 0 .internal, .act 0 .internal, .act 0 .internal, .act 0 .internal,
    .act 0 .internal, .finish 0]

def goesWell (state : State) : Event → Bool
  | .act _ (.updated false _) => false
  | .act index _ =>
      match state.tasks[index]? with
      | some task =>
          match task.prog with
          | .act action _ => !decide action.Stops
          | .ret _ => true
      | none => true
  | _ => true

theorem goesWell_sound (state : State) (event : Event) (passed : state.goesWell event = true) :
    state.CompletesPairs event := by
  cases event with
  | act index outcome =>
      intro task action rest present shape
      constructor
      · rintro row rowId rfl
        simp [goesWell] at passed
      · intro stops
        cases outcome with
        | updated ok rowId => cases ok <;> simp [goesWell, present, shape, stops] at passed
        | _ => simp [goesWell, present, shape, stops] at passed
  | _ => trivial

theorem friends_symmetric_agreed : ∃ final,
    server.run (start [alice, bob] []) (bobAgrees ++ aliceIsTold) = some final ∧
      final.tFriend = [(1, 2), (2, 1)] ∧
        ∀ idA idB, (idA, idB) ∈ final.tFriend ↔ (idB, idA) ∈ final.tFriend := by
  have evaluated : (server.run (start [alice, bob] []) (bobAgrees ++ aliceIsTold)).any
      (fun final => final.tasks.isEmpty ∧ final.tFriend = [(1, 2), (2, 1)]) = true := by
    decide +kernel
  have passed : server.allSteps goesWell (start [alice, bob] []) (bobAgrees ++ aliceIsTold) =
      true := by
    decide +kernel
  rcases (Option.any_eq_true _ _).mp evaluated with ⟨final, reached, shape⟩
  simp only [decide_eq_true_eq, List.isEmpty_iff] at shape
  exact ⟨final, reached, shape.2, friends_symmetric (by simp) reached
    (server.meets_of_allSteps goesWell_sound passed) shape.1⟩

/-- When the second insert fails, the first row stays. -/
theorem friends_symmetric_fails : ∃ final,
    server.run (start [alice, bob] []) (bobAgrees ++ [.act 0 (.updated false 0), .finish 0]) =
      some final ∧ final.tasks = [] ∧ (1, 2) ∈ final.tFriend ∧ (2, 1) ∉ final.tFriend := by
  have evaluated : (server.run (start [alice, bob] [])
      (bobAgrees ++ [.act 0 (.updated false 0), .finish 0])).any
      (fun final => final.tasks.isEmpty ∧ final.tFriend = [(1, 2)]) = true := by
    decide +kernel
  rcases (Option.any_eq_true _ _).mp evaluated with ⟨final, reached, shape⟩
  simp only [decide_eq_true_eq, List.isEmpty_iff] at shape
  exact ⟨final, reached, shape.1, by simp [shape.2], by simp [shape.2]⟩

end State

end InstanceMessage
