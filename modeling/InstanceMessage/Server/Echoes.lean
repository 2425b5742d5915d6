import InstanceMessage.Server.Execution

/-!
# The name in a failed request of friendship

`dealAddFriendRq` answers a request that fails with the name that the user has
asked for, so that his client can say whose request it was. When no such user
exists the name is copied by `strcpy_s`; when he is offline it is handed to
`sprintf_s` as the format. The two agree on the names without a percent sign:
`%%` loses a byte, and any other conversion has no argument.
-/

namespace InstanceMessage

open Library Handler

/-- The percent sign. -/
def percent : UInt8 := 37

/-- A format without a percent sign is printed as it is, and one with a percent sign is not
printed or gets shorter. -/
theorem formatText_cases (format : Bytes) :
    (percent ∉ format ∧ formatText format = some format) ∨
      (percent ∈ format ∧ ∀ text, formatText format = some text → text.length < format.length) := by
  fun_induction formatText format with
  | case1 rest ih =>
      refine Or.inr ⟨List.mem_cons_self, fun text printed => ?_⟩
      rcases Option.map_eq_some_iff.mp printed with ⟨printedRest, found, rfl⟩
      rcases ih with ⟨_, same⟩ | ⟨_, shorter⟩
      · rw [Option.some.inj (found.symm.trans same)]
        simp
      · have := shorter printedRest found
        simp only [List.length_cons]
        omega
  | case2 => exact Or.inr ⟨List.mem_cons_self, by simp⟩
  | case3 byte rest noPair noPercent ih =>
      have plain : percent ≠ byte := fun same => noPercent same.symm
      rcases ih with ⟨none, same⟩ | ⟨some, shorter⟩
      · refine Or.inl ⟨?_, by rw [same, Option.map_some]⟩
        simpa [plain] using none
      · refine Or.inr ⟨List.mem_cons_of_mem _ some, fun text printed => ?_⟩
        rcases Option.map_eq_some_iff.mp printed with ⟨printedRest, found, rfl⟩
        simpa using shorter printedRest found
  | case4 => exact Or.inl ⟨by simp, rfl⟩

namespace State

/-- The query by name ends in one of the two failures: no such user, or a user who is offline. -/
inductive RequestFails (state : State) : List (List Bytes) → Prop
  | notExists : RequestFails state []
  | offlien {idText : Bytes} {rows : List (List Bytes)} {friendId : ℤ}
      (parsed : stoi idText = some friendId) (absent : state.mMapIdToSocket friendId = none) :
      RequestFails state ([idText] :: rows)

/-- The handler returns, and has sent one packet, to the sender of the request: an answer with
exactly the name that he has asked for. -/
def Echoes (state : State) (data : Bytes) (from_ : Handle) (rows : List (List Bytes))
    (name : Bytes) : Prop :=
  ∃ outcomes final history reply,
    state.execute [] (dealAddFriendRq data from_) (.rows (some rows) :: outcomes) =
        some (final, history, ()) ∧
      sendsOf history = [(reply, from_)] ∧ packetType reply = some defAddFriendRs ∧
        StruAddFriendRs.readFriendName reply = some name

variable {state : State} {data name : Bytes} {from_ : Handle} {rows : List (List Bytes)}

theorem mem_of_formatText {format text : Bytes} (printed : formatText format = some text)
    {byte : UInt8} (member : byte ∈ text) : byte ∈ format := by
  fun_induction formatText format generalizing text with
  | case1 rest ih =>
      rcases Option.map_eq_some_iff.mp printed with ⟨printedRest, found, rfl⟩
      rcases List.mem_cons.mp member with rfl | later
      · exact List.mem_cons_self
      · exact List.mem_cons_of_mem _ (List.mem_cons_of_mem _ (ih found later))
  | case2 => simp at printed
  | case3 first rest noPair noPercent ih =>
      rcases Option.map_eq_some_iff.mp printed with ⟨printedRest, found, rfl⟩
      rcases List.mem_cons.mp member with rfl | later
      · exact List.mem_cons_self
      · exact List.mem_cons_of_mem _ (ih found later)
  | case4 => exact Option.some.inj printed ▸ member

theorem echoes_of_sendData (outcomes : List Outcome) (history : History) (result : ℤ)
    (fits : FitsArray defNameMaxLength name) (silent : sendsOf history = [])
    (ends : state.execute [] (dealAddFriendRq data from_)
        (.rows (some rows) :: (outcomes ++ [.internal])) =
      state.execute history (Handler.sendData (StruAddFriendRs.bytes
        { result := result, friendName := name }) from_) [.internal]) :
    state.Echoes data from_ rows name := by
  refine ⟨_, _, _, StruAddFriendRs.bytes { result := result, friendName := name }, ends.trans rfl,
    ?_, packetType_addFriendRs _, StruAddFriendRs.readFriendName_bytes fits⟩
  simpa [sendsOf] using silent

section Branches

variable (readFriendName : StruAddFriendRq.readFriendName data = some name)
include readFriendName

/-- The copy of the first branch. -/
theorem echoes_notExists (short : name.length < defNameMaxLength) :
    state.Echoes data from_ [] name := by
  have fits : FitsArray defNameMaxLength name := ⟨not_mem_of_cString readFriendName, short⟩
  apply echoes_of_sendData [] [⟨.select (.idByName name) 1, some []⟩] defAddFriendNotExists fits rfl
  simp only [dealAddFriendRq, Received.dealAddFriendRq, field_of_read readFriendName,
    liftM_handler, data_received, Program.bind_ret,
    sprintfS_text (.idByName name) short (le_refl 1024)]
  refine (execute_perform_bind_of (show state.perform (.select (.idByName name) 1)
    (.rows (some [])) = some (state, some []) from rfl)).trans ?_
  simp only [strcpyS_of_lt short, Program.bind_ret]
  rfl

/-- The print of the second branch. -/
theorem echoes_offlien {idText : Bytes} {friendId : ℤ} (short : name.length < defNameMaxLength)
    (single : ∀ row ∈ [idText] :: rows, row.length = 1) (parsed : stoi idText = some friendId)
    (absent : state.mMapIdToSocket friendId = none) (plain : percent ∉ name) :
    state.Echoes data from_ ([idText] :: rows) name := by
  have fits : FitsArray defNameMaxLength name := ⟨not_mem_of_cString readFriendName, short⟩
  have selected : state.perform (.select (.idByName name) 1) (.rows (some ([idText] :: rows))) =
      some (state, some ([idText] :: rows).flatten) := if_pos (by simpa using single)
  have counted : state.perform (.count friendId) .internal = some (state, false) := by
    have offline : (state.mMapIdToSocket friendId).isSome = false := by simp [absent]
    exact congrArg (fun online => some (state, online)) offline
  have printed : formatText name = some name := by
    rcases formatText_cases name with ⟨_, same⟩ | ⟨some, _⟩
    · exact same
    · exact absurd some plain
  apply echoes_of_sendData [.internal] [⟨.count friendId, false⟩,
    ⟨.select (.idByName name) 1, some ([idText] :: rows).flatten⟩] defAddFriendOfflien fits rfl
  simp only [dealAddFriendRq, Received.dealAddFriendRq, field_of_read readFriendName,
    liftM_handler, data_received, Program.bind_ret,
    sprintfS_text (.idByName name) short (le_refl 1024)]
  refine (execute_perform_bind_of selected).trans ?_
  simp only [List.flatten_cons, List.cons_append, toInt, parsed, Program.bind_ret]
  refine (execute_perform_bind_of counted).trans ?_
  simp only [formatS, printed, sprintfS_of_lt short, Program.bind_ret]
  rfl

/-- What the second branch sends is what the name prints. -/
theorem formatText_of_echoes {idText : Bytes} {friendId : ℤ}
    (parsed : stoi idText = some friendId) (absent : state.mMapIdToSocket friendId = none)
    (echoes : state.Echoes data from_ ([idText] :: rows) name) :
    ∃ text, formatText name = some text ∧ text.length < defNameMaxLength ∧
      StruAddFriendRs.readFriendName (StruAddFriendRs.bytes
        { result := defAddFriendOfflien, friendName := text }) = some name := by
  rcases echoes with ⟨outcomes, final, history, reply, executed, sends, _, read⟩
  rcases execute_field_bind executed with ⟨found, readFound, executed⟩
  rcases Option.some.inj (readFriendName.symm.trans readFound) with rfl
  rcases execute_sprintfS_bind executed with ⟨_, executed⟩
  rcases execute_perform_bind executed with ⟨_, _, _, found, same, selected, executed⟩
  rcases (List.cons.inj same).1 with rfl
  rcases Option.ite_none_right_eq_some.mp selected with ⟨_, same⟩
  rcases Prod.mk.inj (Option.some.inj same) with ⟨rfl, rfl⟩
  rcases execute_toInt_bind executed with ⟨found, parsedFound, executed⟩
  rcases Option.some.inj (parsed.symm.trans parsedFound) with rfl
  rcases execute_perform_bind executed with ⟨_, _, _, online, _, counted, executed⟩
  rcases Prod.mk.inj (Option.some.inj counted) with ⟨rfl, rfl⟩
  simp only [absent, Option.isSome_none, formatS] at executed
  cases printed : formatText name with
  | none =>
      rw [printed] at executed
      exact absurd executed not_execute_abort
  | some text =>
      rw [printed] at executed
      rcases execute_sprintfS_bind executed with ⟨fits, executed⟩
      rcases execute_act executed with ⟨_, _, _, _, _, _, executed⟩
      rcases execute_ret executed with ⟨_, rfl, _⟩
      rcases List.cons.inj sends with ⟨same, _⟩
      rw [← (Prod.mk.inj same).1] at read
      exact ⟨text, rfl, fits, read⟩

end Branches

/-- Both failures echo the name exactly when the user does not exist or the name has no percent
sign. -/
theorem echoes_iff (readFriendName : StruAddFriendRq.readFriendName data = some name)
    (short : name.length < defNameMaxLength) (single : ∀ row ∈ rows, row.length = 1)
    (fails : state.RequestFails rows) :
    state.Echoes data from_ rows name ↔ rows = [] ∨ percent ∉ name := by
  cases fails with
  | notExists => exact ⟨fun _ => Or.inl rfl, fun _ => echoes_notExists readFriendName short⟩
  | offlien parsed absent =>
      constructor
      · intro echoes
        refine Or.inr fun signed => ?_
        rcases formatText_of_echoes readFriendName parsed absent echoes with
          ⟨text, printed, fits, read⟩
        rcases formatText_cases name with ⟨none, _⟩ | ⟨_, shorter⟩
        · exact none signed
        have noNul := not_mem_of_cString readFriendName
        rw [StruAddFriendRs.readFriendName_bytes
          ⟨fun member => noNul (mem_of_formatText printed member), fits⟩] at read
        have same : text = name := Option.some.inj read
        exact absurd (shorter text printed) (by simp [same])
      · rintro (empty | plain)
        · simp at empty
        · exact echoes_offlien readFriendName short single parsed absent plain

/-- Alice asks for a user with this name. -/
def asksFor (name : Bytes) : Bytes := StruAddFriendRq.bytes ⟨1, ascii "alice", name⟩

/-- Bob is offline. -/
theorem echoes_iff_bob :
    (start [alice, bob] []).RequestFails [[decimal 2]] ∧
      (start [alice, bob] []).Echoes (asksFor (ascii "bob")) 4 [[decimal 2]] (ascii "bob") := by
  have fails : (start [alice, bob] []).RequestFails [[decimal 2]] :=
    .offlien (stoi_decimal (by decide)) rfl
  exact ⟨fails, (echoes_iff (by decide) (by decide) (by simp) fails).mpr (Or.inr (by decide))⟩

def percents : UserRow := ⟨2, ascii "50%%", ascii "456", ascii "hidden", [], 4⟩

/-- The user `50%%` is offline, and the reply is about `50%`. -/
theorem echoes_fails :
    (start [alice, percents] []).RequestFails [[decimal 2]] ∧
      ¬(start [alice, percents] []).Echoes (asksFor (ascii "50%%")) 4 [[decimal 2]]
        (ascii "50%%") := by
  have parsed : stoi (decimal 2) = some 2 := stoi_decimal (by decide)
  refine ⟨.offlien parsed rfl, fun echoes => ?_⟩
  rcases formatText_of_echoes (by decide) parsed rfl echoes with ⟨text, printed, _, read⟩
  have same : text = ascii "50%" := Option.some.inj (printed.symm.trans (by decide))
  subst same
  exact absurd read (by decide)

end State

end InstanceMessage
