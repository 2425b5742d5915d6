import InstanceMessage.Server.Execution

/-!
# What a logout leaves behind

`dealOfflineRq` while no other thread moves, for every state of the kernel and
every answer of the friend query. With an answer, whatever the list of ids, it
sends the packet to each friend in the list who is in the map, and closes and
removes the user. When the query fails it returns before that: the user stays in
the map, and online for his friends, although his client is gone.
-/

namespace InstanceMessage

open Library Handler

/-- The user is out: his socket is closed, and his entry is the only one that is gone. -/
structure LoggedOut (state final : State) (history : History) (userId : ℤ) : Prop where
  closed : ∀ socket, state.mMapIdToSocket userId = some socket →
    (⟨.closesocket socket, ()⟩ : Performed Action.Answer) ∈ history ∧ final.sockets socket = none
  removed : final.mMapIdToSocket userId = none
  others : ∀ id, id ≠ userId → final.mMapIdToSocket id = state.mMapIdToSocket id

/-- A copy of the packet for every row whose friend is in the map. -/
def notices (state : State) (data : Bytes) (texts : List Bytes) : List (Bytes × Handle) :=
  (texts.filterMap stoi).filterMap fun friendId =>
    (state.mMapIdToSocket friendId).map fun socket => (data, socket)

namespace State

section Logout

variable {state final : State} {history later : History} {outcomes : List Outcome} {data : Bytes}
  {from_ : Handle} {userId : ℤ}

/-- The loop sends a copy for each row, in the order of the rows, and leaves the map alone. -/
theorem execute_notifyOffline {lstStr : List Bytes}
    (executed : state.execute history (notifyOffline data lstStr) outcomes =
      some (final, later, ())) :
    state.OnlySends final ∧
      sendsOf later = (notices state data lstStr).reverse ++ sendsOf history := by
  induction lstStr generalizing state history outcomes with
  | nil =>
      rcases execute_ret executed with ⟨rfl, rfl, _⟩
      exact ⟨.refl _, rfl⟩
  | cons front lstStr ih =>
      rcases execute_toInt_bind executed with ⟨friendId, parsed, executed⟩
      rcases execute_bind executed with ⟨_, _, middle, between, _, _, sends, executed⟩
      rcases execute_sendIfOnline sends with ⟨firstSends, firstSent⟩
      rcases ih executed with ⟨restSends, restSent⟩
      refine ⟨firstSends.trans restSends, ?_⟩
      have sameMap : middle.mMapIdToSocket = state.mMapIdToSocket := by
        rcases firstSends with ⟨_, _, rfl⟩
        rfl
      rw [restSent, firstSent]
      cases entered : state.mMapIdToSocket friendId <;>
        simp [notices, sameMap, parsed, entered]

theorem execute_removeUser {socket : Handle} (entered : state.mMapIdToSocket userId = some socket)
    (executed : state.execute history (removeUser userId) outcomes = some (final, later, ())) :
    final = { state with
        sockets := Function.update state.sockets socket none
        mMapIdToSocket := Function.update state.mMapIdToSocket userId none } ∧
      (⟨.closesocket socket, ()⟩ : Performed Action.Answer) ∈ later ∧
        sendsOf later = sendsOf history := by
  rcases execute_perform_bind executed with ⟨_, _, _, _, _, counted, executed⟩
  rcases Prod.mk.inj (Option.some.inj counted) with ⟨rfl, rfl⟩
  simp only [entered, Option.isSome_some] at executed
  rcases execute_perform_bind executed with ⟨outcome, _, _, _, _, looked, executed⟩
  rw [perform_socketOf entered] at looked
  rcases Prod.mk.inj (Option.some.inj looked) with ⟨rfl, rfl⟩
  rcases execute_perform_bind executed with ⟨_, _, _, _, _, closes, executed⟩
  rcases Prod.mk.inj (Option.some.inj closes) with ⟨rfl, _⟩
  rcases execute_perform_bind executed with ⟨_, _, _, _, _, erases, executed⟩
  rcases Prod.mk.inj (Option.some.inj erases) with ⟨rfl, _⟩
  rcases execute_ret executed with ⟨rfl, rfl, _⟩
  exact ⟨rfl, List.mem_cons_of_mem _ List.mem_cons_self, rfl⟩

/-- The handler returns at once when the query fails, and goes through both of its parts
otherwise. -/
theorem execute_dealOfflineRq {answer : Option (List (List Bytes))}
    (readUserId : StruOfflineRq.readUserId data = some userId)
    (executed : state.execute [] (dealOfflineRq data from_) (.rows answer :: outcomes) =
      some (final, history, ())) :
    (answer = none ∧ final = state) ∨
      ∃ rows middle between first second, answer = some rows ∧
        state.execute [⟨.select (.friendIdsOffline userId) 1, some rows.flatten⟩]
            (notifyOffline data rows.flatten) first = some (middle, between, ()) ∧
          middle.execute between (removeUser userId) second = some (final, history, ()) := by
  rcases execute_field_bind executed with ⟨found, read, executed⟩
  rcases Option.some.inj (readUserId.symm.trans read) with rfl
  rcases execute_sprintfS_bind executed with ⟨_, executed⟩
  rcases execute_perform_bind executed with ⟨_, _, _, found, same, selected, executed⟩
  rcases (List.cons.inj same).1 with rfl
  cases answer with
  | none =>
      rcases Prod.mk.inj (Option.some.inj selected) with ⟨rfl, rfl⟩
      rcases execute_ret executed with ⟨rfl, _⟩
      exact Or.inl ⟨rfl, rfl⟩
  | some rows =>
      rcases Option.ite_none_right_eq_some.mp selected with ⟨_, same⟩
      rcases Prod.mk.inj (Option.some.inj same) with ⟨rfl, rfl⟩
      rcases execute_bind executed with ⟨first, second, middle, between, _, _, loop, removal⟩
      exact Or.inr ⟨rows, middle, between, first, second, rfl, loop, removal⟩

/-- A logout does everything that it should exactly when the friend query succeeds. -/
theorem logs_out_iff {answer : Option (List (List Bytes))} {socket : Handle}
    (readUserId : StruOfflineRq.readUserId data = some userId)
    (entered : state.mMapIdToSocket userId = some socket)
    (executed : state.execute [] (dealOfflineRq data from_) (.rows answer :: outcomes) =
      some (final, history, ())) :
    (LoggedOut state final history userId ∧
        ∀ rows, answer = some rows → (sendsOf history).reverse = notices state data rows.flatten) ↔
      answer ≠ none := by
  rcases execute_dealOfflineRq readUserId executed with
    ⟨rfl, rfl⟩ | ⟨rows, middle, between, first, second, rfl, loop, removal⟩
  · refine ⟨fun logsOut => ?_, fun succeeds => absurd rfl succeeds⟩
    have removed := logsOut.1.removed
    simp [entered] at removed
  · refine ⟨fun _ => by simp, fun _ => ?_⟩
    rcases execute_notifyOffline loop with ⟨⟨sent, queued, rfl⟩, sends⟩
    have kept : ({ state with sent := sent, queued := queued } : State).mMapIdToSocket userId =
        some socket := entered
    rcases execute_removeUser kept removal with ⟨rfl, closes, sameSends⟩
    refine ⟨⟨?_, Function.update_self _ _ _, ?_⟩, ?_⟩
    · intro found sameEntry
      rcases Option.some.inj (entered.symm.trans sameEntry) with rfl
      exact ⟨closes, Function.update_self _ _ _⟩
    · intro id other
      exact Function.update_of_ne other _ _
    · intro found same
      rcases Option.some.inj same with rfl
      rw [sameSends, sends]
      simp [sendsOf]

/-! ## The handler returns -/

theorem finishes_notifyOffline {friendIds : List ℤ} (range : ∀ id ∈ friendIds, IsInt32 id) :
    state.Finishes history (notifyOffline data (friendIds.map decimal)) := by
  induction friendIds generalizing state history with
  | nil => exact .ret _ _ _
  | cons friendId friendIds ih =>
      have parsed : toInt (decimal friendId) = .ret friendId := by
        simp only [toInt, stoi_decimal (range friendId List.mem_cons_self)]
      simp only [List.map_cons, notifyOffline, parsed, Program.bind_ret]
      refine .bind (finishes_sendIfOnline _ _ _ _) fun middle between _ => ?_
      exact ih fun id member => range id (List.mem_cons_of_mem _ member)

theorem finishes_removeUser (state : State) (history : History) (userId : ℤ) :
    state.Finishes history (removeUser userId) := by
  apply Finishes.perform (show state.perform (.count userId) .internal = some (state, _) from rfl)
  split
  · apply Finishes.perform (show state.perform (.socketOf userId) .internal =
      some ((state.socketOf userId).1, (state.socketOf userId).2) from rfl)
    exact ⟨[.internal, .internal], _, rfl⟩
  · exact .ret _ _ _

/-- Whatever friends the query names, the handler returns. -/
theorem dealOfflineRq_returns {friendIds : List ℤ} (range : ∀ id ∈ friendIds, IsInt32 id)
    (readUserId : StruOfflineRq.readUserId data = some userId) :
    ∃ outcomes final later, state.execute [] (dealOfflineRq data from_)
      (.rows (some (friendIds.map fun id => [decimal id])) :: outcomes) =
        some (final, later, ()) := by
  have fits : IsInt32 userId := isInt32_of_readInt32 readUserId
  have rows : (friendIds.map fun id => [decimal id]).flatten = friendIds.map decimal := by
    induction friendIds with
    | nil => rfl
    | cons id friendIds ih =>
        simp [ih fun other member => range other (List.mem_cons_of_mem _ member)]
  have selected : state.perform (.select (.friendIdsOffline userId) 1)
      (.rows (some (friendIds.map fun id => [decimal id]))) =
        some (state, some (friendIds.map decimal)) := by
    rw [← rows]
    exact if_pos (by simp)
  have finishes : State.Finishes state [⟨.select (.friendIdsOffline userId) 1,
      some (friendIds.map decimal)⟩] (notifyOffline data (friendIds.map decimal) >>= fun _ =>
        removeUser userId) := by
    refine (finishes_notifyOffline range).bind fun middle between _ => ?_
    exact finishes_removeUser middle between userId
  rcases finishes with ⟨outcomes, ⟨final, later, _⟩, executed⟩
  refine ⟨outcomes, final, later, ?_⟩
  simp only [dealOfflineRq, Received.dealOfflineRq, field_of_read readUserId, liftM_handler,
    data_received, Program.bind_ret,
    sprintfS_text (.friendIdsOffline userId) fits (show 1024 ≤ 2 * 1024 by decide)]
  exact (execute_act_of_perform selected).trans executed

end Logout

/-- Alice is online on handle 4 and Bob on handle 8. -/
def bothOnline : State :=
  { start [alice, bob] [(1, 2), (2, 1)] with
    sockets := fun socket => if socket = 4 then some 0 else if socket = 8 then some 1 else none
    mClients := fun socket => if socket = 4 ∨ socket = 8 then some socket else none
    mMapIdToSocket := fun id => if id = 1 then some 4 else if id = 2 then some 8 else none }

/-- Bob is named twice, and Alice herself once. -/
theorem logs_out_iff_repeated : ∃ outcomes final history,
    bothOnline.execute [] (dealOfflineRq (StruOfflineRq.bytes ⟨1⟩) 4)
        (.rows (some [[decimal 2], [decimal 1], [decimal 2]]) :: outcomes) =
      some (final, history, ()) ∧
    LoggedOut bothOnline final history 1 := by
  have evaluated : (bothOnline.execute [] (dealOfflineRq (StruOfflineRq.bytes ⟨1⟩) 4)
      (.rows (some [[decimal 2], [decimal 1], [decimal 2]]) ::
        List.replicate 13 .internal)).isSome = true := by
    decide +kernel
  rcases Option.isSome_iff_exists.mp evaluated with ⟨⟨final, history, _⟩, executed⟩
  have readUserId : StruOfflineRq.readUserId (StruOfflineRq.bytes ⟨1⟩) = some 1 := by decide
  have entered : bothOnline.mMapIdToSocket 1 = some 4 := rfl
  refine ⟨_, final, history, executed, ?_⟩
  exact ((logs_out_iff readUserId entered executed).mpr (by simp)).1

/-- The query fails, and Alice stays in the map. -/
theorem logs_out_fails : ∃ final history,
    bothOnline.execute [] (dealOfflineRq (StruOfflineRq.bytes ⟨1⟩) 4) [.rows none] =
        some (final, history, ()) ∧
      final.mMapIdToSocket 1 = some 4 ∧ ¬LoggedOut bothOnline final history 1 := by
  have evaluated : (bothOnline.execute [] (dealOfflineRq (StruOfflineRq.bytes ⟨1⟩) 4)
      [.rows none]).any (fun result => result.1.mMapIdToSocket 1 = some 4) = true := by
    decide +kernel
  rcases (Option.any_eq_true _ _).mp evaluated with ⟨⟨final, history, _⟩, executed, stays⟩
  have stays : final.mMapIdToSocket 1 = some 4 := by simpa using stays
  refine ⟨final, history, executed, stays, fun logsOut => ?_⟩
  simp [logsOut.removed] at stays

end State

end InstanceMessage
