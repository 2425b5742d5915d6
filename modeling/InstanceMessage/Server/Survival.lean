import InstanceMessage.Server.Coherence

/-!
# Which packets the server survives

A conforming packet is one of the six requests at full size with its texts
terminated inside their arrays. MySQL is expected to answer with rows of the
shape that the tables give: ids and icons are decimal `int`s, names and
signatures fit their fields.

Two places of the handlers count on a user being online and end the process
where he is not: `getUserInfoAndFriendInfo` calls `exit`, and `dealAddFriendRq`
takes the name of an offline friend as the format of `sprintf_s`. Everywhere
else a conforming packet is handled to the end.
-/

namespace InstanceMessage

open Library

/-! ## Typed rows -/

/-- A row of the shape that the tables give. -/
def typedRow : Stmt → List Bytes → Bool
  | .passIdByTel _, [_, id] => (stoi id).isSome
  | .friendIds _, [id] | .friendIdsOffline _, [id] | .idByName _, [id] => (stoi id).isSome
  | .userById _, [name, feeling, iconId] =>
      name.length < defNameMaxLength ∧ feeling.length < defFeelingMaxLength ∧
        (stoi iconId).isSome
  | .telByTel _, _ | .nameByName _, _ => true
  | _, _ => false

/-! ## Handlers that go on to their end -/

/-- What a handler may rely on: MySQL answers with typed rows, and nobody is missing from the map
where the handler would end the process without him. -/
def Expected : Performed Action.Answer → Option Action → Prop
  | ⟨.select stmt _, (found : Option (List Bytes))⟩, _ => ∀ fields, found = some fields →
      ∃ rows : List (List Bytes), fields = rows.flatten ∧ ∀ row ∈ rows, typedRow stmt row = true
  | ⟨.count _, (online : Bool)⟩, next =>
      online = false → ∀ action, next = some action → ¬action.Stops
  | _, _ => True

/-- Whatever the program is answered as expected, it does not end the process. -/
def Survives {Value : Type} (onReturn : Value → Prop) : Handler Value → Prop
  | .ret value => onReturn value
  | .act action next => ¬action.Stops ∧
      ∀ answer, Expected ⟨action, answer⟩ (next answer).first → Survives onReturn (next answer)

theorem Expected.of_bind {Value Other : Type} {performed : Performed Action.Answer}
    {program : Handler Value} {rest : Value → Handler Other}
    (expected : Expected performed (program >>= rest).first) :
    Expected performed program.first := by
  cases program with
  | act action next => exact expected
  | ret value =>
      rcases performed with ⟨action, answer⟩
      cases action with
      | select stmt nColumn => exact expected
      | count id => exact fun _ action next => by simp [Program.first] at next
      | _ => trivial

section Rules

variable {Value Other : Type}

theorem survives_bind {program : Handler Value} {rest : Value → Handler Other}
    {onReturn : Other → Prop}
    (survives : Survives (fun value => Survives onReturn (rest value)) program) :
    Survives onReturn (program >>= rest) := by
  induction program with
  | ret value => exact survives
  | act action next ih =>
      exact ⟨survives.1, fun answer expected =>
        ih answer (survives.2 answer (Expected.of_bind expected))⟩

theorem survives_mono {strong weak : Value → Prop} {program : Handler Value}
    (survives : Survives strong program) (weaken : ∀ value, strong value → weak value) :
    Survives weak program := by
  induction program with
  | ret value => exact weaken _ survives
  | act action next ih =>
      exact ⟨survives.1, fun answer expected => ih answer (survives.2 answer expected)⟩

theorem survives_then {program : Handler Value} {rest : Value → Handler Other}
    {onReturn : Other → Prop} (survives : Survives (fun _ => True) program)
    (continues : ∀ value, Survives onReturn (rest value)) :
    Survives onReturn (program >>= rest) :=
  survives_bind (survives_mono survives fun value _ => continues value)

theorem survives_perform_bind {action : Action} {rest : action.Answer → Handler Other}
    {onReturn : Other → Prop} (goesOn : ¬action.Stops)
    (continues : ∀ answer, Expected ⟨action, answer⟩ (rest answer).first →
      Survives onReturn (rest answer)) :
    Survives onReturn (Handler.perform action >>= rest) :=
  ⟨goesOn, continues⟩

theorem survives_field {read : Option Value} {value : Value} {onReturn : Value → Prop}
    (found : read = some value) (continues : onReturn value) :
    Survives onReturn (Handler.field read) := by
  subst found
  exact continues

theorem survives_sprintfS {size : ℕ} {text : Bytes} {onReturn : Bytes → Prop}
    (small : text.length < size) (continues : onReturn text) :
    Survives onReturn (Handler.sprintfS size text) := by
  rw [Handler.sprintfS_of_lt small]
  exact continues

theorem survives_text {size : ℕ} {stmt : Stmt} {rest : Bytes → Handler Value}
    {onReturn : Value → Prop} (fits : stmt.Fits) (room : 1024 ≤ size)
    (continues : Survives onReturn (rest stmt.text)) :
    Survives onReturn (Handler.sprintfS size stmt.text >>= rest) := by
  rw [Handler.sprintfS_text stmt fits room]
  exact continues

theorem survives_strcpyS {size : ℕ} {text : Bytes} {onReturn : Bytes → Prop}
    (small : text.length < size) (continues : onReturn text) :
    Survives onReturn (Handler.strcpyS size text) := by
  rw [Handler.strcpyS_of_lt small]
  exact continues

theorem survives_toInt {text : Bytes} {onReturn : ℤ → Prop} (typed : (stoi text).isSome = true)
    (continues : ∀ value, IsInt32 value → onReturn value) :
    Survives onReturn (Handler.toInt text) := by
  rcases Option.isSome_iff_exists.mp typed with ⟨value, parsed⟩
  simp only [Handler.toInt, parsed]
  exact continues value (isInt32_of_stoi parsed)

theorem survives_sendData (packet : Bytes) (clientId : Handle) :
    Survives (fun _ => True) (Handler.sendData packet clientId) :=
  ⟨fun stops => stops, fun _ _ => trivial⟩

theorem survives_sendIfOnline (id : ℤ) (packet : Bytes) :
    Survives (fun _ => True) (sendIfOnline id packet) := by
  refine survives_perform_bind (fun stops => stops) ?_
  intro (online : Bool) _
  cases online with
  | false => trivial
  | true =>
      refine survives_perform_bind (fun stops => stops) ?_
      intro socket _
      exact survives_sendData packet socket

end Rules

/-! ## User information -/

theorem typed_userById {id : ℤ} {rows : List (List Bytes)} {name feeling iconId : Bytes}
    (typed : ∀ row ∈ rows, typedRow (.userById id) row = true)
    (fields : [name, feeling, iconId] = rows.flatten) :
    name.length < defNameMaxLength ∧ feeling.length < defFeelingMaxLength ∧
      (stoi iconId).isSome = true := by
  cases rows with
  | nil => simp at fields
  | cons row rows =>
      have shape := typed row List.mem_cons_self
      match row with
      | [first, second, third] =>
          simp only [List.flatten_cons, List.cons_append, List.nil_append, List.cons.injEq]
            at fields
          rcases fields with ⟨rfl, rfl, rfl, _⟩
          simpa [typedRow] using shape
      | [] | [_] | [_, _] | _ :: _ :: _ :: _ :: _ => simp [typedRow] at shape

theorem typed_passIdByTel {tel : Bytes} {rows : List (List Bytes)} {first : Bytes}
    {rest : List Bytes} (typed : ∀ row ∈ rows, typedRow (.passIdByTel tel) row = true)
    (fields : first :: rest = rows.flatten) :
    ∃ idText more, rest = idText :: more ∧ (stoi idText).isSome = true := by
  cases rows with
  | nil => simp at fields
  | cons row rows =>
      have shape := typed row List.mem_cons_self
      match row with
      | [password, idText] =>
          simp only [List.flatten_cons, List.cons_append, List.cons.injEq] at fields
          exact ⟨idText, rows.flatten, fields.2, shape⟩
      | [] | [_] | _ :: _ :: _ :: _ => simp [typedRow] at shape

inductive SelectsIds : Stmt → Prop
  | friendIds (id : ℤ) : SelectsIds (.friendIds id)
  | friendIdsOffline (id : ℤ) : SelectsIds (.friendIdsOffline id)
  | idByName (name : Bytes) : SelectsIds (.idByName name)

theorem SelectsIds.typedRow {stmt : Stmt} (ids : SelectsIds stmt) {row : List Bytes}
    (typed : typedRow stmt row = true) : ∃ text, row = [text] ∧ (stoi text).isSome = true := by
  cases ids <;> match row with
  | [text] => exact ⟨text, rfl, typed⟩
  | [] | _ :: _ :: _ => simp [InstanceMessage.typedRow] at typed

theorem SelectsIds.fields {stmt : Stmt} (ids : SelectsIds stmt) {rows : List (List Bytes)}
    (typed : ∀ row ∈ rows, InstanceMessage.typedRow stmt row = true) :
    ∀ text ∈ rows.flatten, (stoi text).isSome = true := by
  intro text member
  rcases List.mem_flatten.mp member with ⟨row, rowMem, inRow⟩
  rcases ids.typedRow (typed row rowMem) with ⟨only, rfl, parses⟩
  rw [List.mem_singleton.mp inRow]
  exact parses

theorem survives_getInfoById {id : ℤ} (range : IsInt32 id) (info : StruUserInfo) :
    Survives (fun _ => True) (getInfoById id info) := by
  refine survives_perform_bind (fun stops => stops) ?_
  intro (online : Bool) _
  refine survives_text range (by decide) ?_
  refine survives_perform_bind (fun stops => stops)
    fun (found : Option (List Bytes)) (expected : Expected ⟨.select _ _, found⟩ _) => ?_
  split
  · rename_i name feeling iconId
    rcases expected _ rfl with ⟨rows, fields, typed⟩
    rcases typed_userById typed fields with ⟨shortName, shortFeeling, parses⟩
    refine survives_bind (survives_strcpyS shortName ?_)
    refine survives_bind (survives_strcpyS shortFeeling ?_)
    exact survives_bind (survives_toInt parses fun _ _ => trivial)
  · trivial

theorem survives_sendFriendInfos {id : ℤ} {userInfo : StruUserInfo} {lstStr : List Bytes}
    (typed : ∀ text ∈ lstStr, (stoi text).isSome = true) (friendInfo : StruUserInfo) :
    Survives (fun _ => True) (sendFriendInfos id userInfo lstStr friendInfo) := by
  induction lstStr generalizing friendInfo with
  | nil => trivial
  | cons front lstStr ih =>
      have decimal := typed front List.mem_cons_self
      refine survives_bind (survives_toInt decimal fun friendId range => ?_)
      apply survives_then (survives_getInfoById range friendInfo)
      intro found
      apply survives_then (survives_sendIfOnline _ _)
      intro _
      apply survives_then (survives_sendIfOnline _ _)
      intro _
      exact ih (fun text member => typed text (List.mem_cons_of_mem _ member)) found

theorem survives_getUserInfoAndFriendInfo {id : ℤ} (range : IsInt32 id) :
    Survives (fun _ => True) (getUserInfoAndFriendInfo id) := by
  apply survives_then (survives_getInfoById range {})
  intro userInfo
  refine survives_perform_bind (fun stops => stops)
    fun (online : Bool) (expected : Expected ⟨.count _, online⟩ _) => ?_
  cases online with
  | false => exact absurd trivial (expected rfl (.exit 0) rfl)
  | true =>
      refine survives_perform_bind (fun stops => stops) ?_
      intro socket _
      refine survives_perform_bind (fun stops => stops) ?_
      intro _ _
      refine survives_text range (by decide) ?_
      refine survives_perform_bind (fun stops => stops)
        fun (found : Option (List Bytes)) (expected : Expected ⟨.select _ _, found⟩ _) => ?_
      cases found with
      | none => trivial
      | some lstStr =>
          rcases expected _ rfl with ⟨rows, rfl, typed⟩
          exact survives_sendFriendInfos ((SelectsIds.friendIds id).fields typed) {}

/-! ## The handlers -/

theorem length_formatText {format text : Bytes} (formatted : formatText format = some text) :
    text.length ≤ format.length := by
  induction format using formatText.induct generalizing text with
  | case1 rest ih =>
      simp only [formatText, Option.map_eq_some_iff] at formatted
      rcases formatted with ⟨tail, parsed, rfl⟩
      have := ih parsed
      simp only [List.length_cons]
      omega
  | case2 rest other => simp [formatText] at formatted
  | case3 byte rest other another ih =>
      simp only [formatText, Option.map_eq_some_iff] at formatted
      rcases formatted with ⟨tail, parsed, rfl⟩
      have := ih parsed
      simp only [List.length_cons]
      omega
  | case4 =>
      rcases Option.some.inj formatted with rfl
      simp

section Handlers

variable {data : Bytes} {from_ : Handle}

theorem dealRegisterRq_survives (tel : fits defTelLength (StruRegisterRq.readTel data) = true)
    (password : fits defPasswordMaxLength (StruRegisterRq.readPassword data) = true)
    (name : fits defNameMaxLength (StruRegisterRq.readName data) = true) :
    Survives (fun _ => True) (dealRegisterRq data from_) := by
  rcases fits_iff tel with ⟨tel, readTel, shortTel⟩
  rcases fits_iff password with ⟨password, readPassword, shortPassword⟩
  rcases fits_iff name with ⟨name, readName, shortName⟩
  refine survives_bind (survives_field readTel ?_)
  refine survives_text shortTel (by decide) ?_
  refine survives_perform_bind (fun stops => stops) ?_
  intro (found : Option (List Bytes)) _
  match found with
  | none => trivial
  | some (_ :: _) => exact survives_sendData _ _
  | some [] =>
      refine survives_bind (survives_field readName ?_)
      refine survives_text shortName (by decide) ?_
      refine survives_perform_bind (fun stops => stops) ?_
      intro (taken : Option (List Bytes)) _
      match taken with
      | none => trivial
      | some (_ :: _) => exact survives_sendData _ _
      | some [] =>
          refine survives_bind (survives_field readPassword ?_)
          refine survives_text ⟨shortName, shortTel, shortPassword⟩ (by decide) ?_
          refine survives_perform_bind (fun stops => stops) ?_
          intro (inserted : Bool) _
          cases inserted with
          | false => trivial
          | true => exact survives_sendData _ _

theorem dealLoginRq_survives (tel : fits defTelLength (StruLoginRq.readTel data) = true)
    (password : fits defPasswordMaxLength (StruLoginRq.readPassword data) = true) :
    Survives (fun _ => True) (dealLoginRq data from_) := by
  rcases fits_iff tel with ⟨tel, readTel, shortTel⟩
  rcases fits_iff password with ⟨rqPassword, readPassword, _⟩
  refine survives_bind (survives_field readTel ?_)
  refine survives_bind (survives_field readPassword ?_)
  refine survives_text shortTel (by decide) ?_
  refine survives_perform_bind (fun stops => stops)
    fun (found : Option (List Bytes)) (expected : Expected ⟨.select _ _, found⟩ _) => ?_
  match found with
  | none => trivial
  | some [] => exact survives_sendData _ _
  | some (first :: rest) =>
      rcases expected _ rfl with ⟨rows, fields, typed⟩
      rcases typed_passIdByTel typed fields with ⟨idText, more, rfl, parses⟩
      refine survives_bind (survives_toInt parses fun id range => ?_)
      split
      · refine survives_perform_bind (fun stops => stops) ?_
        intro _ _
        refine survives_perform_bind (fun stops => stops) ?_
        intro _ _
        exact survives_getUserInfoAndFriendInfo range
      · exact survives_sendData _ _

theorem survives_notifyOffline {lstStr : List Bytes}
    (typed : ∀ text ∈ lstStr, (stoi text).isSome = true) :
    Survives (fun _ => True) (notifyOffline data lstStr) := by
  induction lstStr with
  | nil => trivial
  | cons front lstStr ih =>
      refine survives_bind (survives_toInt (typed front List.mem_cons_self) fun friendId _ => ?_)
      apply survives_then (survives_sendIfOnline _ _)
      intro _
      exact ih fun text member => typed text (List.mem_cons_of_mem _ member)

theorem dealOfflineRq_survives (full : data.length = 8) :
    Survives (fun _ => True) (dealOfflineRq data from_) := by
  rcases readInt32_of_le data 4 (by omega) with ⟨userId, readUserId⟩
  refine survives_bind (survives_field readUserId ?_)
  refine survives_text (isInt32_of_readInt32 readUserId) (by decide) ?_
  refine survives_perform_bind (fun stops => stops)
    fun (found : Option (List Bytes)) (expected : Expected ⟨.select _ _, found⟩ _) => ?_
  cases found with
  | none => trivial
  | some lstStr =>
      rcases expected _ rfl with ⟨rows, rfl, typed⟩
      apply survives_then
        (survives_notifyOffline ((SelectsIds.friendIdsOffline userId).fields typed))
      intro _
      refine survives_perform_bind (fun stops => stops) ?_
      intro (online : Bool) _
      cases online with
      | false => trivial
      | true =>
          refine survives_perform_bind (fun stops => stops) ?_
          intro socket _
          exact survives_perform_bind (fun stops => stops) fun _ _ =>
            ⟨fun stops => stops, fun _ _ => trivial⟩

theorem dealChatRq_survives (full : data.length = 12 + defContentMaxLength) :
    Survives (fun _ => True) (dealChatRq data from_) := by
  rcases readInt32_of_le data 8 (by omega) with ⟨friendId, readFriendId⟩
  refine survives_bind (survives_field readFriendId ?_)
  refine survives_perform_bind (fun stops => stops) ?_
  intro (online : Bool) _
  cases online with
  | false => exact survives_sendData _ _
  | true => exact survives_perform_bind (fun stops => stops) fun _ _ => survives_sendData _ _

theorem dealAddFriendRq_survives
    (name : fits defNameMaxLength (StruAddFriendRq.readFriendName data) = true) :
    Survives (fun _ => True) (dealAddFriendRq data from_) := by
  rcases fits_iff name with ⟨friendName, readFriendName, short⟩
  refine survives_bind (survives_field readFriendName ?_)
  refine survives_text short (by decide) ?_
  refine survives_perform_bind (fun stops => stops)
    fun (found : Option (List Bytes)) (expected : Expected ⟨.select _ _, found⟩ _) => ?_
  match found with
  | none => trivial
  | some [] => exact survives_bind (survives_strcpyS short (survives_sendData _ _))
  | some (idText :: rest) =>
      rcases expected _ rfl with ⟨rows, fields, typed⟩
      have parses := (SelectsIds.idByName friendName).fields typed idText
        (fields ▸ List.mem_cons_self)
      refine survives_bind (survives_toInt parses fun friendId _ => ?_)
      refine survives_perform_bind (fun stops => stops)
        fun (online : Bool) (found : Expected ⟨.count _, online⟩ _) => ?_
      cases online with
      | true => exact survives_perform_bind (fun stops => stops) fun _ _ => survives_sendData _ _
      | false =>
          cases formatted : formatText friendName with
          | none =>
              simp only [formatS, formatted] at found
              exact absurd trivial (found rfl (.abort .invalidParameter) rfl)
          | some text =>
              have shorter := length_formatText formatted
              simp only [formatS, formatted]
              exact survives_bind (survives_sprintfS (by omega) (survives_sendData _ _))

theorem dealAddFriendRs_survives (full : data.length = 16 + defNameMaxLength) :
    Survives (fun _ => True) (dealAddFriendRs data from_) := by
  rcases readInt32_of_le data 4 (by omega) with ⟨result, readResult⟩
  rcases readInt32_of_le data 8 (by omega) with ⟨friendId, readFriendId⟩
  rcases readInt32_of_le data 12 (by omega) with ⟨userId, readUserId⟩
  have rangeA := isInt32_of_readInt32 readFriendId
  have rangeB := isInt32_of_readInt32 readUserId
  refine survives_bind (survives_field readResult ?_)
  refine survives_bind (survives_field readFriendId ?_)
  split
  · refine survives_bind (survives_field readUserId ?_)
    refine survives_text ⟨rangeA, rangeB⟩ (by decide) ?_
    refine survives_perform_bind (fun stops => stops) ?_
    intro (first : Bool) _
    cases first with
    | false => trivial
    | true =>
        refine survives_text ⟨rangeB, rangeA⟩ (by decide) ?_
        refine survives_perform_bind (fun stops => stops) ?_
        intro (second : Bool) _
        cases second with
        | false => trivial
        | true =>
            exact survives_then (survives_getUserInfoAndFriendInfo rangeA)
              fun _ => survives_sendIfOnline _ _
  · exact survives_sendIfOnline _ _

/-- A conforming packet is handled to the end as long as its handler is answered as expected. -/
theorem dealData_survives (conforms : conforming data = true) :
    Survives (fun _ => True) (dealData data from_) := by
  simp only [conforming] at conforms
  cases readType : packetType data with
  | none => simp [readType] at conforms
  | some type =>
      simp only [readType] at conforms
      refine survives_bind (survives_field readType ?_)
      simp only
      split
      · cases entered : Received.mArrFun Handler (type - defProtocolBase - 1) with
        | none => trivial
        | some pf =>
            rcases mArrFun_cases entered with ⟨rfl, rfl⟩ | ⟨rfl, rfl⟩ | ⟨rfl, rfl⟩ | ⟨rfl, rfl⟩ |
              ⟨rfl, rfl⟩ | ⟨rfl, rfl⟩
            · rw [if_pos rfl] at conforms
              rcases of_decide_eq_true conforms with ⟨_, tel, password, name⟩
              exact dealRegisterRq_survives tel password name
            · rw [if_neg (by decide), if_pos rfl] at conforms
              rcases of_decide_eq_true conforms with ⟨_, tel, password⟩
              exact dealLoginRq_survives tel password
            · rw [if_neg (by decide), if_neg (by decide), if_pos rfl] at conforms
              exact dealOfflineRq_survives (of_decide_eq_true conforms)
            · rw [if_neg (by decide), if_neg (by decide), if_neg (by decide), if_pos rfl]
                at conforms
              exact dealChatRq_survives (of_decide_eq_true conforms)
            · rw [if_neg (by decide), if_neg (by decide), if_neg (by decide), if_neg (by decide),
                if_pos rfl] at conforms
              exact dealAddFriendRq_survives (of_decide_eq_true conforms).2
            · rw [if_neg (by decide), if_neg (by decide), if_neg (by decide), if_neg (by decide),
                if_neg (by decide), if_pos rfl] at conforms
              exact dealAddFriendRs_survives (of_decide_eq_true conforms)
      · trivial

end Handlers

/-! ## Every run -/

namespace State

/-- What is assumed of clients and of MySQL: packets conform, and rows have the shape that the
tables give. -/
def Conforms (state : State) : Event → Prop
  | .receive _ data => conforming data = true
  | .act index (.rows (some rows)) => ∀ task stmt nColumn rest,
      state.tasks[index]? = some task → task.prog = .act (.select stmt nColumn) rest →
        ∀ row ∈ rows, typedRow stmt row = true
  | _ => True

/-- Where a handler would end the process for a user who is not online, he is. -/
def FindsOnline (state : State) : Event → Prop
  | .act index _ => ∀ task id rest, state.tasks[index]? = some task →
      task.prog = .act (.count id) rest → state.mMapIdToSocket id = none →
        ∀ action, (rest false).first = some action → ¬action.Stops
  | _ => True

/-- Every handler goes on to its end as long as it is answered as expected. -/
def Surviving (state : State) : Prop :=
  state.halted = false ∧ ∀ task ∈ state.tasks, Survives (fun _ => True) task.prog

section Step

variable {state after : State} {index : ℕ} {task : Task} {action : Action}
  {rest : action.Answer → Handler Unit} {answer : action.Answer} {outcome : Outcome}

/-- What the state and MySQL answer is what the handlers rely on. -/
theorem expected_of_perform (conforms : state.Conforms (.act index outcome))
    (finds : state.FindsOnline (.act index outcome)) (present : state.tasks[index]? = some task)
    (shape : task.prog = .act action rest)
    (performed : state.perform action outcome = some (after, answer)) :
    Expected ⟨action, answer⟩ (rest answer).first := by
  cases action with
  | select stmt nColumn =>
      intro fields found
      cases outcome with
      | rows rows =>
          cases rows with
          | none =>
              rcases Prod.mk.inj (Option.some.inj performed) with ⟨-, rfl⟩
              simp at found
          | some rows =>
              rcases Option.ite_none_right_eq_some.mp performed with ⟨_, same⟩
              rcases Prod.mk.inj (Option.some.inj same) with ⟨-, rfl⟩
              exact ⟨rows, (Option.some.inj found).symm,
                conforms task stmt nColumn rest present shape⟩
      | internal | updated | refused => simp [State.perform] at performed
  | count id =>
      rcases Prod.mk.inj (Option.some.inj performed) with ⟨-, rfl⟩
      intro absent next stopping
      have missing : state.mMapIdToSocket id = none := by
        simpa using absent
      simp only [missing, Option.isSome_none] at stopping
      exact finds task id rest present shape missing next stopping
  | _ => trivial

theorem Surviving.step {next : State} {event : Event} (surviving : state.Surviving)
    (conforms : state.Conforms event) (finds : state.FindsOnline event)
    (stepped : state.step event = some next) : next.Surviving := by
  rcases surviving with ⟨running, survives⟩
  cases stepped_of_step stepped with
  | accept | list | closeSocket | eraseClient => exact ⟨running, survives⟩
  | receive =>
      refine ⟨running, fun task member => ?_⟩
      rcases List.mem_append.mp member with old | new
      · exact survives task old
      · rw [List.mem_singleton.mp new]
        exact dealData_survives conforms
  | @perform index outcome task action rest after answer present shape goesOn performed =>
      have frame := (performs_of_perform performed).sameFrame
      have acting := survives task (List.mem_of_getElem? present)
      rw [shape] at acting
      refine ⟨frame.halted.trans running, fun other member => ?_⟩
      rcases mem_tasks_of_advance frame member with old | rfl
      · exact survives other old
      · exact acting.2 answer (expected_of_perform conforms finds present shape performed)
  | @halt index outcome task action rest present shape stops =>
      have acting := survives task (List.mem_of_getElem? present)
      rw [shape] at acting
      exact absurd stops acting.1
  | finish => exact ⟨running, fun task member => survives task (List.mem_of_mem_eraseIdx member)⟩

theorem perform_isSome (state : State) (goesOn : ¬action.Stops) :
    ∃ outcome result, state.perform action outcome = some result := by
  cases action with
  | select stmt nColumn => exact ⟨.rows none, _, rfl⟩
  | update stmt => exact ⟨.updated false 0, _, rfl⟩
  | exit code => exact absurd trivial goesOn
  | abort cause => exact absurd trivial goesOn
  | _ => exact ⟨.internal, _, rfl⟩

theorem act_isSome (running : state.halted = false) (present : state.tasks[index]? = some task)
    (shape : task.prog = .act action rest) (goesOn : ¬action.Stops) :
    ∃ outcome next, state.step (.act index outcome) = some next := by
  rcases state.perform_isSome goesOn with ⟨outcome, ⟨after, answer⟩, performed⟩
  refine ⟨outcome, after.advance index task action answer (rest answer), ?_⟩
  simp [State.step, running, State.act, present, shape, goesOn, performed]

end Step

/-- No conforming packet stops the server: in a run of conforming clients in which no handler
misses the user whom it takes for online, the process is alive, no handler is about to end it,
and every handler returns after finitely many actions, of which the next can be taken. -/
theorem server_survives {tUser : List UserRow} {tFriend : List (ℤ × ℤ)} {events : List Event}
    {final : State} (reached : server.run (start tUser tFriend) events = some final)
    (meets : server.Meets (fun state event => state.Conforms event ∧ state.FindsOnline event)
      (start tUser tFriend) events) :
    final.halted = false ∧ ∀ index task, final.tasks[index]? = some task →
      Acc Program.Steps task.prog ∧ (task.prog = .ret () ∨
        ∃ action rest, task.prog = .act action rest ∧ ¬action.Stops ∧
          ∃ outcome next, final.step (.act index outcome) = some next) := by
  have surviving : final.Surviving :=
    server.run_invariant Surviving
      (fun holds keeps stepped => holds.step keeps.1 keeps.2 stepped)
      ⟨rfl, by simp [start]⟩ meets reached
  refine ⟨surviving.1, fun index task present => ⟨Program.steps_wellFounded.apply _, ?_⟩⟩
  have survives := surviving.2 task (List.mem_of_getElem? present)
  cases shape : task.prog with
  | ret value => exact Or.inl rfl
  | act action rest =>
      rw [shape] at survives
      exact Or.inr ⟨action, rest, rfl, survives.1,
        act_isSome surviving.1 present shape survives.1⟩

/-! ## A friend request, answered in time and too late -/

def conformsOnline (state : State) : Event → Bool
  | .receive _ data => conforming data
  | .act index outcome =>
      match state.tasks[index]? with
      | some task =>
          match task.prog, outcome with
          | .act (.select stmt _) _, .rows (some rows) => rows.all (typedRow stmt)
          | .act (.count id) rest, _ => (state.mMapIdToSocket id).isSome ||
              match (rest false).first with
              | some action => !decide action.Stops
              | none => true
          | _, _ => true
      | none => true
  | _ => true

theorem conformsOnline_sound (state : State) (event : Event)
    (passed : state.conformsOnline event = true) :
    state.Conforms event ∧ state.FindsOnline event := by
  cases event with
  | receive conn data => exact ⟨passed, trivial⟩
  | act index outcome =>
      constructor
      · cases outcome with
        | rows rows =>
            cases rows with
            | none => trivial
            | some rows =>
                intro task stmt nColumn rest present shape
                simpa [conformsOnline, present, shape] using passed
        | _ => trivial
      · intro task id rest present shape missing action stopping stops
        simp [conformsOnline, present, shape, missing, stopping, stops] at passed
  | _ => exact ⟨trivial, trivial⟩

def aliceAsksBob : List Event :=
  logsIn alice 0 4 ++ logsIn bob 1 8 ++
    [.receive 0 (StruAddFriendRq.bytes ⟨1, ascii "alice", ascii "bob"⟩),
      .act 0 (.rows (some [[decimal 2]])), .act 0 .internal, .act 0 .internal, .act 0 .internal,
      .finish 0]

def aliceLeaves : List Event :=
  [.receive 0 (StruOfflineRq.bytes ⟨1⟩), .act 0 (.rows (some [])), .act 0 .internal,
    .act 0 .internal, .act 0 .internal, .act 0 .internal, .finish 0]

def bobAnswers : List Event :=
  [.receive 1 (StruAddFriendRs.bytes ⟨defAddFriendSuccess, 1, 2, ascii "bob"⟩),
    .act 0 (.updated true 0), .act 0 (.updated true 0), .act 0 .internal,
    .act 0 (.rows (some [[ascii "alice", [], decimal 4]])), .act 0 .internal]

theorem server_survives_answer : ∃ final,
    server.run (start [alice, bob] []) (aliceAsksBob ++ bobAnswers) = some final ∧
      final.tasks.length = 1 ∧ final.halted = false := by
  have evaluated : (server.run (start [alice, bob] []) (aliceAsksBob ++ bobAnswers)).any
      (fun final => final.tasks.length = 1) = true := by
    decide +kernel
  have passed : server.allSteps conformsOnline (start [alice, bob] [])
      (aliceAsksBob ++ bobAnswers) = true := by
    decide +kernel
  rcases (Option.any_eq_true _ _).mp evaluated with ⟨final, reached, one⟩
  exact ⟨final, reached, by simpa using one, (server_survives reached
    (server.meets_of_allSteps conformsOnline_sound passed)).1⟩

/-- When the requester has logged off before the friend agrees, the answer ends the process. -/
theorem answer_stops_server : ∃ final,
    server.run (start [alice, bob] []) (aliceAsksBob ++ aliceLeaves ++ bobAnswers ++
      [.act 0 .internal]) = some final ∧ final.halted = true := by
  have evaluated : (server.run (start [alice, bob] []) (aliceAsksBob ++ aliceLeaves ++
      bobAnswers ++ [.act 0 .internal])).any (fun final => final.halted) = true := by
    decide +kernel
  exact (Option.any_eq_true _ _).mp evaluated

end State

end InstanceMessage
