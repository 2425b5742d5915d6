import InstanceMessage.Server.Requests

/-!
# What the handlers read of a packet

`dealData` casts the received bytes to a structure without a look at their
number, so whether a field lies inside them depends on the peer. Here the text
of the handlers is taken with every access to a field as a step of its own. Run
on received bytes it is the handlers of the kernel, and the accesses that it
makes, along every branch and for every answer of the database, are those of a
table: for each request the fields that its handler uses.
-/

namespace InstanceMessage

open Library Handler

namespace Field

/-- The field lies inside the received bytes; a text ends inside its own array. -/
def Inside (data : Bytes) : Field → Prop
  | .int offset => offset + 4 ≤ data.length
  | .text offset size => (0 : UInt8) ∈ (data.drop offset).take size

instance (data : Bytes) (field : Field) : Decidable (field.Inside data) := by
  cases field <;> simp only [Inside] <;> infer_instance

theorem exists_read_of_inside {data : Bytes} {field : Field} (inside : field.Inside data) :
    ∃ value, field.read data = some value := by
  cases field with
  | int offset => exact readInt32_of_le data offset inside
  | text offset size =>
      have ends : (0 : UInt8) ∈ data.drop offset := List.mem_of_mem_take inside
      exact ⟨_, if_pos ends⟩

theorem mem_take_zero_iff (bytes : Bytes) (size : ℕ) :
    (0 : UInt8) ∈ bytes.take size ↔
      (0 : UInt8) ∈ bytes ∧ (bytes.takeWhile (· ≠ 0)).length < size := by
  induction bytes generalizing size with
  | nil => simp
  | cons byte rest ih =>
      cases size with
      | zero => simp
      | succ size =>
          by_cases ends : byte = 0
          · simp [ends]
          · have others : (0 : UInt8) ≠ byte := fun same => ends same.symm
            rw [List.takeWhile_cons_of_pos (by simpa using ends)]
            simp [ih, others]

/-- A text is inside its array when it is shorter than the array. -/
theorem inside_text_iff {data : Bytes} {offset size : ℕ} :
    (Field.text offset size).Inside data ↔
      ∃ text, cString data offset = some text ∧ text.length < size := by
  rw [Inside, mem_take_zero_iff, cString]
  constructor
  · rintro ⟨ends, short⟩
    exact ⟨_, if_pos ends, short⟩
  · rintro ⟨text, read, short⟩
    rcases Option.ite_none_right_eq_some.mp read with ⟨ends, same⟩
    rw [Option.some.inj same]
    exact ⟨ends, short⟩

end Field

/-! ## Accesses as steps -/

/-- A step of a handler: it reads a field of the packet, or performs an action. -/
inductive Access
  | read (place : Field)
  | act (action : Action)

namespace Access

abbrev Answer : Access → Type
  | .read place => place.Value
  | .act action => action.Answer

end Access

abbrev Decoder := Program Access Access.Answer

namespace Decoder

variable {Result Other : Type}

def access (place : Field) : Decoder place.Value := Program.perform (Access.read place)

/-- A part of a handler that does not look at the packet. -/
def lift : Handler Result → Decoder Result
  | .ret value => .ret value
  | .act action next => .act (.act action) fun answer => lift (next answer)

/-- The handler of given received bytes. -/
def run (data : Bytes) : Decoder Result → Handler Result
  | .ret value => .ret value
  | .act (.act action) next => .act action fun answer => run data (next answer)
  | .act (.read place) next =>
      match place.read data with
      | some value => run data (next value)
      | none => abort .outOfBounds

/-- Every field that is read from the received bytes lies inside them, whatever the actions
answer. -/
def Stays (data : Bytes) : Decoder Result → Prop
  | .ret _ => True
  | .act (.act _) next => ∀ answer, Stays data (next answer)
  | .act (.read place) next =>
      place.Inside data ∧ ∀ value, place.read data = some value → Stays data (next value)

theorem run_access_bind (data : Bytes) (place : Field)
    (rest : place.Value → Decoder Result) :
    run data (access place >>= rest) = Handler.field (place.read data) >>= fun value =>
      run data (rest value) := by
  have shape : (access place >>= rest) = Program.act (Access.read place) rest := rfl
  rw [shape, run]
  cases place.read data with
  | none =>
      show abort .outOfBounds = Program.act (.abort .outOfBounds) _
      rw [abort]
      congr 1
      funext answer
      exact nomatch answer
  | some value => rfl

theorem run_lift_bind (data : Bytes) (part : Handler Other) (rest : Other → Decoder Result) :
    run data (lift part >>= rest) = part >>= fun value => run data (rest value) := by
  induction part with
  | ret value => rfl
  | act action next ih =>
      have others : (fun answer => run data (lift (next answer) >>= rest)) =
          fun answer => next answer >>= fun value => run data (rest value) := funext ih
      exact congrArg (Program.act action) others

theorem run_lift (data : Bytes) (part : Handler Result) : run data (lift part) = part := by
  induction part with
  | ret value => rfl
  | act action next ih =>
      have others : (fun answer => run data (lift (next answer))) = next := funext ih
      exact congrArg (Program.act action) others

theorem stays_lift (data : Bytes) (part : Handler Result) : Stays data (lift part) := by
  induction part with
  | ret value => trivial
  | act action next ih => exact ih

theorem stays_lift_bind {data : Bytes} {part : Handler Other} {rest : Other → Decoder Result}
    (continues : ∀ value, Stays data (rest value)) : Stays data (lift part >>= rest) := by
  induction part with
  | ret value => exact continues value
  | act action next ih => exact ih

end Decoder

open Decoder

/-! ## The handlers with their accesses -/

instance : MonadLift Handler Decoder := ⟨lift⟩

/-- Received bytes of which every access is recorded. -/
def accessed (data : Bytes) : Received Decoder := ⟨data, access⟩

/-- `dealData` with its accesses. -/
def decodeData (data : Bytes) (from_ : Handle) : Decoder Unit := (accessed data).dealData from_

section Run

variable (data : Bytes) (from_ : Handle)

theorem run_dealRegisterRq :
    run data ((accessed data).dealRegisterRq from_) = dealRegisterRq data from_ := by
  refine (run_access_bind _ _ _).trans (bind_congr fun tel => ?_)
  refine (run_lift_bind _ _ _).trans (bind_congr fun _ => ?_)
  refine (run_lift_bind _ _ _).trans (bind_congr fun (found : Option (List Bytes)) => ?_)
  match found with
  | none => rfl
  | some (_ :: _) => exact run_lift _ _
  | some [] =>
      refine (run_access_bind _ _ _).trans (bind_congr fun name => ?_)
      refine (run_lift_bind _ _ _).trans (bind_congr fun _ => ?_)
      refine (run_lift_bind _ _ _).trans (bind_congr fun (taken : Option (List Bytes)) => ?_)
      match taken with
      | none => rfl
      | some (_ :: _) => exact run_lift _ _
      | some [] => exact (run_access_bind _ _ _).trans (bind_congr fun _ => run_lift _ _)

theorem run_dealLoginRq :
    run data ((accessed data).dealLoginRq from_) = dealLoginRq data from_ := by
  refine (run_access_bind _ _ _).trans (bind_congr fun tel => ?_)
  exact (run_access_bind _ _ _).trans (bind_congr fun rqPassword => run_lift _ _)

theorem run_dealOfflineRq :
    run data ((accessed data).dealOfflineRq from_) = dealOfflineRq data from_ :=
  (run_access_bind _ _ _).trans (bind_congr fun _ => run_lift _ _)

theorem run_dealChatRq :
    run data ((accessed data).dealChatRq from_) = dealChatRq data from_ :=
  (run_access_bind _ _ _).trans (bind_congr fun _ => run_lift _ _)

theorem run_dealAddFriendRq :
    run data ((accessed data).dealAddFriendRq from_) = dealAddFriendRq data from_ :=
  (run_access_bind _ _ _).trans (bind_congr fun _ => run_lift _ _)

theorem run_dealAddFriendRs :
    run data ((accessed data).dealAddFriendRs from_) = dealAddFriendRs data from_ := by
  refine (run_access_bind _ _ _).trans (bind_congr fun result => ?_)
  refine (run_access_bind _ _ _).trans (bind_congr fun friendId => ?_)
  split
  · exact (run_access_bind _ _ _).trans (bind_congr fun userId => run_lift _ _)
  · exact run_lift _ _

theorem run_mArrFun (index : ℤ) :
    (Received.mArrFun Decoder index).map (fun pf => run data (pf (accessed data) from_)) =
      (Received.mArrFun Handler index).map fun pf => pf (received data) from_ := by
  simp only [Received.mArrFun]
  split_ifs
  · exact congrArg some (run_dealRegisterRq data from_)
  · exact congrArg some (run_dealLoginRq data from_)
  · exact congrArg some (run_dealOfflineRq data from_)
  · exact congrArg some (run_dealChatRq data from_)
  · exact congrArg some (run_dealAddFriendRq data from_)
  · exact congrArg some (run_dealAddFriendRs data from_)
  · rfl

/-- On received bytes the steps are those of the kernel. -/
theorem run_decodeData : run data (decodeData data from_) = dealData data from_ := by
  refine (run_access_bind _ _ _).trans (bind_congr fun type => ?_)
  simp only
  split
  · have same := run_mArrFun data from_ (type - defProtocolBase - 1)
    cases decoded : Received.mArrFun Decoder (type - defProtocolBase - 1) with
    | none =>
        rw [decoded, Option.map_none, eq_comm, Option.map_eq_none_iff] at same
        rw [same]
        rfl
    | some pf =>
        rw [decoded, Option.map_some, eq_comm, Option.map_eq_some_iff] at same
        rcases same with ⟨handler, entered, same⟩
        rw [entered]
        exact same.symm
  · rfl

end Run

/-! ## Which fields are read -/

/-- The fields that the handler of a request uses. -/
def fieldsOf (data : Bytes) (type : ℤ) : List Field :=
  if type = defRegisterRq then
    [.text 4 defTelLength, .text 36 defNameMaxLength, .text 16 defPasswordMaxLength]
  else if type = defLoginRq then [.text 4 defTelLength, .text 16 defPasswordMaxLength]
  else if type = defOfflineRq then [.int 4]
  else if type = defChatRq then [.int 8]
  else if type = defAddFriendRq then [.text 28 defNameMaxLength]
  else if type = defAddFriendRs then
    if StruAddFriendRs.readResult data = some defAddFriendSuccess then [.int 4, .int 8, .int 12]
    else [.int 4, .int 8]
  else []

namespace Decoder

variable {data : Bytes} {Result : Type}

theorem stays_access_bind_iff {place : Field} {rest : place.Value → Decoder Result} :
    Stays data (access place >>= rest) ↔
      place.Inside data ∧ ∀ value, place.read data = some value → Stays data (rest value) :=
  Iff.rfl

/-- Nothing is read any more after the access. -/
theorem stays_access_lift_iff {place : Field} {rest : place.Value → Handler Result} :
    Stays data (access place >>= fun value => lift (rest value)) ↔ place.Inside data := by
  rw [stays_access_bind_iff]
  exact and_iff_left fun value _ => stays_lift data (rest value)

end Decoder

section Stays

variable {data : Bytes} {from_ : Handle}

theorem stays_dealRegisterRq_iff :
    Stays data ((accessed data).dealRegisterRq from_) ↔
      ∀ place ∈ fieldsOf data defRegisterRq, place.Inside data := by
  have table : fieldsOf data defRegisterRq =
      [.text 4 defTelLength, .text 36 defNameMaxLength, .text 16 defPasswordMaxLength] := rfl
  simp only [table, List.mem_cons, List.not_mem_nil, or_false, forall_eq_or_imp, forall_eq]
  constructor
  · intro stays
    rcases stays_access_bind_iff.mp stays with ⟨telInside, afterTel⟩
    rcases Field.inside_text_iff.mp telInside with ⟨tel, readTel, shortTel⟩
    have afterTel := afterTel tel readTel
    rw [sprintfS_text (.telByTel tel) shortTel (by decide)] at afterTel
    -- Both selects may find nothing, and then the next field is read.
    rcases stays_access_bind_iff.mp (afterTel (some [])) with ⟨nameInside, afterName⟩
    rcases Field.inside_text_iff.mp nameInside with ⟨name, readName, shortName⟩
    have afterName := afterName name readName
    rw [sprintfS_text (.nameByName name) shortName (by decide)] at afterName
    exact ⟨telInside, nameInside, (afterName (some [])).1⟩
  · rintro ⟨telInside, nameInside, passwordInside⟩
    refine ⟨telInside, fun tel _ => ?_⟩
    apply stays_lift_bind
    intro _
    apply stays_lift_bind
    intro (found : Option (List Bytes))
    match found with
    | none => trivial
    | some (_ :: _) => exact stays_lift _ _
    | some [] =>
        refine ⟨nameInside, fun name _ => ?_⟩
        apply stays_lift_bind
        intro _
        apply stays_lift_bind
        intro (taken : Option (List Bytes))
        match taken with
        | none => trivial
        | some (_ :: _) => exact stays_lift _ _
        | some [] => exact stays_access_lift_iff.mpr passwordInside

theorem stays_dealLoginRq_iff :
    Stays data ((accessed data).dealLoginRq from_) ↔
      ∀ place ∈ fieldsOf data defLoginRq, place.Inside data := by
  have table : fieldsOf data defLoginRq =
      [.text 4 defTelLength, .text 16 defPasswordMaxLength] := rfl
  simp only [table, List.mem_cons, List.not_mem_nil, or_false, forall_eq_or_imp, forall_eq]
  constructor
  · rintro ⟨telInside, afterTel⟩
    rcases Field.exists_read_of_inside telInside with ⟨tel, readTel⟩
    exact ⟨telInside, (afterTel tel readTel).1⟩
  · rintro ⟨telInside, passwordInside⟩
    exact ⟨telInside, fun tel _ => stays_access_lift_iff.mpr passwordInside⟩

theorem stays_dealAddFriendRs_iff :
    Stays data ((accessed data).dealAddFriendRs from_) ↔
      ∀ place ∈ fieldsOf data defAddFriendRs, place.Inside data := by
  have table : fieldsOf data defAddFriendRs =
      if StruAddFriendRs.readResult data = some defAddFriendSuccess then [.int 4, .int 8, .int 12]
      else [.int 4, .int 8] := rfl
  rw [table]
  refine stays_access_bind_iff.trans ?_
  constructor
  · rintro ⟨resultInside, afterResult⟩
    rcases Field.exists_read_of_inside resultInside with ⟨result, readResult⟩
    rcases afterResult result readResult with ⟨friendInside, afterFriend⟩
    rcases Field.exists_read_of_inside friendInside with ⟨friendId, readFriend⟩
    have afterFriend := afterFriend friendId readFriend
    have same : StruAddFriendRs.readResult data = some result := readResult
    simp only [same, Option.some.injEq]
    split_ifs at afterFriend ⊢ with agreed
    · simp only [List.mem_cons, List.not_mem_nil, or_false, forall_eq_or_imp, forall_eq]
      exact ⟨resultInside, friendInside, afterFriend.1⟩
    · simp only [List.mem_cons, List.not_mem_nil, or_false, forall_eq_or_imp, forall_eq]
      exact ⟨resultInside, friendInside⟩
  · intro inside
    have both : (Field.int 4).Inside data ∧ (Field.int 8).Inside data := by
      split_ifs at inside <;> exact ⟨inside _ (by simp), inside _ (by simp)⟩
    refine ⟨both.1, fun result readResult => ⟨both.2, fun friendId _ => ?_⟩⟩
    have same : StruAddFriendRs.readResult data = some result := readResult
    simp only [same, Option.some.injEq] at inside
    split_ifs at inside ⊢
    · exact stays_access_lift_iff.mpr (inside _ (by simp))
    · exact stays_lift _ _

theorem stays_mArrFun_iff {type : ℤ} :
    (∀ pf, Received.mArrFun Decoder (type - defProtocolBase - 1) = some pf →
      Stays data (pf (accessed data) from_)) ↔ ∀ place ∈ fieldsOf data type, place.Inside data := by
  have sameIndex (other : ℤ) :
      type - defProtocolBase - 1 = other - defProtocolBase - 1 ↔ type = other := by omega
  have entry (handler : Received Decoder → Handle → Decoder Unit) :
      (∀ pf, some handler = some pf → Stays data (pf (accessed data) from_)) ↔
        Stays data (handler (accessed data) from_) := by
    simp only [Option.some.injEq, forall_eq']
  simp only [Received.mArrFun, sameIndex]
  by_cases register : type = defRegisterRq
  · rw [if_pos register, register]
    exact (entry _).trans stays_dealRegisterRq_iff
  by_cases login : type = defLoginRq
  · rw [if_neg register, if_pos login, login]
    exact (entry _).trans stays_dealLoginRq_iff
  by_cases offline : type = defOfflineRq
  · rw [if_neg register, if_neg login, if_pos offline, offline]
    exact (entry _).trans (stays_access_lift_iff.trans List.forall_mem_singleton.symm)
  by_cases chat : type = defChatRq
  · rw [if_neg register, if_neg login, if_neg offline, if_pos chat, chat]
    exact (entry _).trans (stays_access_lift_iff.trans List.forall_mem_singleton.symm)
  by_cases addFriendRq : type = defAddFriendRq
  · rw [if_neg register, if_neg login, if_neg offline, if_neg chat, if_pos addFriendRq,
      addFriendRq]
    exact (entry _).trans (stays_access_lift_iff.trans List.forall_mem_singleton.symm)
  by_cases addFriendRs : type = defAddFriendRs
  · rw [if_neg register, if_neg login, if_neg offline, if_neg chat, if_neg addFriendRq,
      if_pos addFriendRs, addFriendRs]
    exact (entry _).trans stays_dealAddFriendRs_iff
  · rw [if_neg register, if_neg login, if_neg offline, if_neg chat, if_neg addFriendRq,
      if_neg addFriendRs, fieldsOf, if_neg register, if_neg login, if_neg offline, if_neg chat,
      if_neg addFriendRq, if_neg addFriendRs]
    exact iff_of_true (fun _ none => nomatch none) (List.forall_mem_nil _)

/-- No request has an index outside the table. -/
theorem fieldsOf_of_outside {type : ℤ}
    (outside : ¬(0 ≤ type - defProtocolBase - 1 ∧ type - defProtocolBase - 1 < defArrryFunLength)) :
    fieldsOf data type = [] := by
  have other {request : ℤ} (listed : 0 ≤ request - defProtocolBase - 1 ∧
      request - defProtocolBase - 1 < defArrryFunLength) : type ≠ request := by
    rintro rfl
    exact outside listed
  rw [fieldsOf, if_neg (other (by decide)), if_neg (other (by decide)), if_neg (other (by decide)),
    if_neg (other (by decide)), if_neg (other (by decide)), if_neg (other (by decide))]

theorem stays_decodeData_iff :
    Stays data (decodeData data from_) ↔ (Field.int 0).Inside data ∧
      ∀ type, packetType data = some type →
        ∀ place ∈ fieldsOf data type, place.Inside data := by
  refine stays_access_bind_iff.trans ?_
  apply and_congr_right
  intro _
  apply forall_congr'
  intro type
  apply imp_congr_right
  intro _
  simp only
  split
  · rw [← @stays_mArrFun_iff data from_]
    cases Received.mArrFun Decoder (type - defProtocolBase - 1) with
    | none => exact iff_of_true trivial fun _ none => nomatch none
    | some pf => simp only [Option.some.injEq, forall_eq']
  · rename_i outside
    rw [fieldsOf_of_outside outside]
    exact iff_of_true trivial (List.forall_mem_nil _)

end Stays

/-- What is read of received bytes lies inside them, and ends inside its array, exactly when
the type word does and then all the fields that the handler of that type uses. -/
theorem decoding_stays_inside (data : Bytes) (from_ : Handle) :
    run data (decodeData data from_) = dealData data from_ ∧
      (Stays data (decodeData data from_) ↔ (Field.int 0).Inside data ∧
        ∀ type, packetType data = some type →
          ∀ place ∈ fieldsOf data type, place.Inside data) :=
  ⟨run_decodeData data from_, stays_decodeData_iff⟩

/-- A registration that ends after its type word. -/
def bareRegisterRq : Bytes := int32 defRegisterRq

/-- A login whose phone number fills its array. -/
def fullTelLoginRq : Bytes :=
  int32 defLoginRq ++ List.replicate 12 49 ++ charArray 20 (ascii "pw")

/-- The first is read past its end, the second's number runs into the password. -/
theorem decoding_leaves_packet :
    bareRegisterRq ≠ [] ∧ bareRegisterRq.length ≤ 10 * 1024 * 1024 ∧
      ¬Stays bareRegisterRq (decodeData bareRegisterRq 0) ∧
      dealData bareRegisterRq 0 = abort .outOfBounds ∧
    fullTelLoginRq ≠ [] ∧ fullTelLoginRq.length ≤ 10 * 1024 * 1024 ∧
      ¬Stays fullTelLoginRq (decodeData fullTelLoginRq 0) ∧
      StruLoginRq.readTel fullTelLoginRq = some (ascii "111111111111pw") := by
  refine ⟨by decide, by decide, ?_, ?_, by decide, by decide, ?_, by decide⟩
  · intro stays
    have inside := (stays_decodeData_iff.mp stays).2 defRegisterRq (by decide)
      (.text 4 defTelLength) (by decide)
    revert inside
    decide
  · have type : packetType bareRegisterRq = some defRegisterRq := by decide
    have noTel : StruRegisterRq.readTel bareRegisterRq = none := by decide
    rw [dealData_registerRq type, dealRegisterRq, Received.dealRegisterRq, field_of_unread noTel]
    simp only [abort, Program.bind_act]
    congr 1
    funext answer
    cases answer
  · intro stays
    have inside := (stays_decodeData_iff.mp stays).2 defLoginRq (by decide)
      (.text 4 defTelLength) (by decide)
    revert inside
    decide

end InstanceMessage
