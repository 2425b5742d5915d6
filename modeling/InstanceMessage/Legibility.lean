import InstanceMessage.Agreements
import InstanceMessage.Server.Decoding

/-!
# What the clients read of a packet

The handlers of the client cast the received bytes to a structure as those of
the server do. A client reads in one place what the server does not look at: the
text of a chat message, and both names of a request for friendship, which the
server passes on as they came. Here each type of packet has a table of the
fields that its handler in the client reads, and a packet whose fields all lie
inside it, texts with their end inside their own arrays, is handled to the end.

Everything that the server sends to clients of this kind is of this form: its
own replies and the user information because texts have been copied to their
arrays with `strcpy_s` or `sprintf_s`, the packets that it passes on because the
clients that wrote them have done so.
-/

namespace InstanceMessage

open Library

/-! ## Legible packets -/

/-- The fields that the handler of a packet from the server reads. -/
def CKernel.fieldsOf (type : ℤ) : List Field :=
  if type = defRegisterRs then [.int 4]
  else if type = defLoginRs then [.int 8, .int 4]
  else if type = defUserInfo then
    [.text 16 defNameMaxLength, .text 36 defFeelingMaxLength, .int 4, .int 8, .int 12]
  else if type = defOfflineRq then [.int 4]
  else if type = defChatRq then [.int 4, .text 12 defContentMaxLength]
  else if type = defChatRs then [.int 4]
  else if type = defAddFriendRq then
    [.int 4, .text 28 defNameMaxLength, .text 8 defNameMaxLength]
  else if type = defAddFriendRs then [.text 16 defNameMaxLength, .int 4]
  else []

/-- The packet has a type, and what a client reads of it lies inside it. -/
def Legible (packet : Bytes) : Prop :=
  ∃ type, packetType packet = some type ∧ ∀ field ∈ CKernel.fieldsOf type, field.Inside packet

namespace Field

variable {data front rest text : Bytes} {offset size : ℕ}

theorem exists_int_of_inside (inside : (int offset).Inside data) :
    ∃ value, readInt32 data offset = some value :=
  readInt32_of_le data offset inside

theorem exists_text_of_inside (inside : (Field.text offset size).Inside data) :
    ∃ found, cString data offset = some found :=
  (inside_text_iff.mp inside).imp fun _ read => read.1

/-- Bytes in front of an array do not matter for whether its text ends in it. -/
theorem inside_append {length : ℕ} (same : front.length = length) (offset : ℕ)
    (inside : (Field.text offset size).Inside rest) :
    (Field.text (offset + length) size).Inside (front ++ rest) := by
  rcases inside_text_iff.mp inside with ⟨found, read, short⟩
  exact inside_text_iff.mpr ⟨found, (cString_append same offset).trans read, short⟩

theorem inside_charArray (short : text.length < size) :
    (Field.text 0 size).Inside (charArray size text ++ rest) := by
  have full : (charArray size text).length = size := by
    simp only [charArray, List.length_append, List.length_replicate]
    omega
  have whole : ((charArray size text ++ rest).drop 0).take size = charArray size text :=
    List.take_left' full
  rw [Inside, whole, charArray]
  refine List.mem_append_right _ (List.mem_replicate.mpr ⟨?_, rfl⟩)
  omega

end Field

/-! ## The handlers of the client -/

namespace CKernel

variable {qt : Qt} {kernel : CKernel} {data : Bytes}

theorem exists_dealRegisterRs (inside : ∀ field ∈ fieldsOf defRegisterRs, field.Inside data) :
    ∃ next, kernel.dealRegisterRs data = some next := by
  rcases Field.exists_int_of_inside (inside (.int 4) (by decide)) with ⟨result, readResult⟩
  exact ⟨kernel, by simp [dealRegisterRs, StruRegisterRs.readResult, readResult]⟩

theorem exists_dealLoginRs (inside : ∀ field ∈ fieldsOf defLoginRs, field.Inside data) :
    ∃ next, kernel.dealLoginRs data = some next := by
  rcases Field.exists_int_of_inside (inside (.int 8) (by decide)) with ⟨id, readId⟩
  rcases Field.exists_int_of_inside (inside (.int 4) (by decide)) with ⟨result, readResult⟩
  simp only [dealLoginRs, StruLoginRs.readId, readId, StruLoginRs.readResult, readResult,
    Option.bind_eq_bind, Option.bind_some]
  split
  · exact ⟨_, rfl⟩
  · exact ⟨_, rfl⟩

theorem exists_dealUserInfo (inside : ∀ field ∈ fieldsOf defUserInfo, field.Inside data) :
    ∃ next, dealUserInfo qt kernel data = some next := by
  rcases Field.exists_text_of_inside (inside (.text 16 defNameMaxLength) (by decide)) with
    ⟨name, readName⟩
  rcases Field.exists_text_of_inside (inside (.text 36 defFeelingMaxLength) (by decide)) with
    ⟨feeling, readFeeling⟩
  rcases Field.exists_int_of_inside (inside (.int 4) (by decide)) with ⟨id, readId⟩
  rcases Field.exists_int_of_inside (inside (.int 8) (by decide)) with ⟨iconId, readIconId⟩
  rcases Field.exists_int_of_inside (inside (.int 12) (by decide)) with ⟨status, readStatus⟩
  simp only [dealUserInfo, StruUserInfo.readName, readName, StruUserInfo.readFeeling, readFeeling,
    StruUserInfo.readId, readId, StruUserInfo.readIconId, readIconId, StruUserInfo.readStatus,
    readStatus, Option.bind_eq_bind, Option.bind_some]
  split
  · exact ⟨_, rfl⟩
  · split
    · exact ⟨_, rfl⟩
    · exact ⟨_, rfl⟩

theorem exists_dealOfflineRq (inside : ∀ field ∈ fieldsOf defOfflineRq, field.Inside data) :
    ∃ next, kernel.dealOfflineRq data = some next := by
  rcases Field.exists_int_of_inside (inside (.int 4) (by decide)) with ⟨userId, readUserId⟩
  simp only [dealOfflineRq, StruOfflineRq.readUserId, Field.read, readUserId, Option.bind_eq_bind,
    Option.bind_some]
  split
  · exact ⟨_, rfl⟩
  · exact ⟨_, rfl⟩

theorem exists_dealChatRq (inside : ∀ field ∈ fieldsOf defChatRq, field.Inside data) :
    ∃ next, dealChatRq qt kernel data = some next := by
  rcases Field.exists_int_of_inside (inside (.int 4) (by decide)) with ⟨userId, readUserId⟩
  rcases Field.exists_text_of_inside (inside (.text 12 defContentMaxLength) (by decide)) with
    ⟨content, readContent⟩
  simp only [dealChatRq, StruChatRq.readUserId, readUserId, StruChatRq.readContent, readContent,
    Option.bind_eq_bind, Option.bind_some]
  split
  · exact ⟨_, rfl⟩
  · exact ⟨_, rfl⟩

theorem exists_dealChatRs (inside : ∀ field ∈ fieldsOf defChatRs, field.Inside data) :
    ∃ next, kernel.dealChatRs data = some next := by
  rcases Field.exists_int_of_inside (inside (.int 4) (by decide)) with ⟨friendId, readFriendId⟩
  simp only [dealChatRs, StruChatRs.readFriendId, readFriendId, Option.bind_eq_bind,
    Option.bind_some]
  split
  · exact ⟨_, rfl⟩
  · exact ⟨_, rfl⟩

/-- The name that is copied for the answer fits, since it ends inside an array of the same size. -/
theorem exists_dealAddFriendRq (inside : ∀ field ∈ fieldsOf defAddFriendRq, field.Inside data) :
    ∃ next, kernel.dealAddFriendRq data = some next := by
  rcases Field.exists_int_of_inside (inside (.int 4) (by decide)) with ⟨userId, readUserId⟩
  rcases Field.inside_text_iff.mp (inside (.text 28 defNameMaxLength) (by decide)) with
    ⟨friendName, readFriendName, short⟩
  rcases Field.exists_text_of_inside (inside (.text 8 defNameMaxLength) (by decide)) with
    ⟨userName, readUserName⟩
  have copies : strcpyS defNameMaxLength friendName = some (friendName.takeWhile (· ≠ 0)) :=
    if_pos ((List.takeWhile_prefix _).length_le.trans_lt short)
  simp only [dealAddFriendRq, StruAddFriendRq.readUserId, Field.read, readUserId,
    StruAddFriendRq.readFriendName, readFriendName, StruAddFriendRq.readUserName, readUserName,
    copies, Option.bind_eq_bind, Option.bind_some]
  exact ⟨_, rfl⟩

theorem exists_dealAddFriendRs (inside : ∀ field ∈ fieldsOf defAddFriendRs, field.Inside data) :
    ∃ next, kernel.dealAddFriendRs data = some next := by
  rcases Field.exists_text_of_inside (inside (.text 16 defNameMaxLength) (by decide)) with
    ⟨friendName, readFriendName⟩
  rcases Field.exists_int_of_inside (inside (.int 4) (by decide)) with ⟨result, readResult⟩
  exact ⟨kernel, by simp [dealAddFriendRs, StruAddFriendRs.readFriendName, readFriendName,
    StruAddFriendRs.readResult, Field.read, readResult]⟩

/-- A running client handles every legible packet. -/
theorem exists_slotTransmitData (legible : Legible data) (running : kernel.exited = false) :
    ∃ next, kernel.slotTransmitData qt data = some next := by
  rcases legible with ⟨type, typed, inside⟩
  simp only [slotTransmitData, running, Bool.false_eq_true, if_false, typed, Option.bind_eq_bind,
    Option.bind_some]
  split
  · cases entered : mFunArrry qt (type - defProtocolBase - 1) with
    | none => exact ⟨kernel, rfl⟩
    | some pf =>
        rcases mFunArrry_cases entered with ⟨rfl, rfl⟩ | ⟨rfl, rfl⟩ | ⟨rfl, rfl⟩ | ⟨rfl, rfl⟩ |
          ⟨rfl, rfl⟩ | ⟨rfl, rfl⟩ | ⟨rfl, rfl⟩ | ⟨rfl, rfl⟩
        · exact exists_dealRegisterRs inside
        · exact exists_dealLoginRs inside
        · exact exists_dealUserInfo inside
        · exact exists_dealOfflineRq inside
        · exact exists_dealChatRq inside
        · exact exists_dealChatRs inside
        · exact exists_dealAddFriendRq inside
        · exact exists_dealAddFriendRs inside
  · exact ⟨kernel, rfl⟩

/-- A packet does not end the process of a client. -/
theorem exited_of_mFunArrry {qt : Qt} {kernel next : CKernel} {data : Bytes} {type : ℤ}
    {pf : CKernel → Bytes → Option CKernel}
    (entered : mFunArrry qt (type - defProtocolBase - 1) = some pf)
    (handled : pf kernel data = some next) : next.exited = kernel.exited := by
  rcases mFunArrry_cases entered with ⟨_, rfl⟩ | ⟨_, rfl⟩ | ⟨_, rfl⟩ | ⟨_, rfl⟩ | ⟨_, rfl⟩ |
    ⟨_, rfl⟩ | ⟨_, rfl⟩ | ⟨_, rfl⟩
  · rcases Option.bind_eq_some_iff.mp handled with ⟨_, _, same⟩
    exact Option.some.inj same ▸ rfl
  · simp only [dealLoginRs, Option.bind_eq_bind, Option.bind_eq_some_iff] at handled
    rcases handled with ⟨_, _, _, _, handled⟩
    split at handled
    · exact Option.some.inj handled ▸ rfl
    · exact Option.some.inj handled ▸ rfl
  · simp only [dealUserInfo, Option.bind_eq_bind, Option.bind_eq_some_iff] at handled
    rcases handled with ⟨_, _, _, _, _, _, _, _, handled⟩
    split at handled
    · exact Option.some.inj handled ▸ rfl
    · rcases Option.bind_eq_some_iff.mp handled with ⟨_, _, shown⟩
      split at shown
      · exact Option.some.inj shown ▸ rfl
      · exact Option.some.inj shown ▸ rfl
  · rcases Option.bind_eq_some_iff.mp handled with ⟨_, _, shown⟩
    split at shown
    · exact Option.some.inj shown ▸ rfl
    · exact Option.some.inj shown ▸ rfl
  · rcases Option.bind_eq_some_iff.mp handled with ⟨_, _, shown⟩
    split at shown
    · rcases Option.bind_eq_some_iff.mp shown with ⟨_, _, same⟩
      exact Option.some.inj same ▸ rfl
    · exact Option.some.inj shown ▸ rfl
  · rcases Option.bind_eq_some_iff.mp handled with ⟨_, _, shown⟩
    split at shown
    · exact Option.some.inj shown ▸ rfl
    · exact Option.some.inj shown ▸ rfl
  · simp only [dealAddFriendRq, Option.bind_eq_bind, Option.bind_eq_some_iff] at handled
    rcases handled with ⟨_, _, _, _, _, _, _, _, same⟩
    exact Option.some.inj same ▸ rfl
  · rcases Option.bind_eq_some_iff.mp handled with ⟨_, _, rest⟩
    rcases Option.bind_eq_some_iff.mp rest with ⟨_, _, same⟩
    exact Option.some.inj same ▸ rfl

theorem exited_of_slotTransmitData {qt : Qt} {kernel next : CKernel} {data : Bytes}
    (transmitted : slotTransmitData qt kernel data = some next) :
    kernel.exited = false ∧ next.exited = false := by
  rcases Option.ite_none_left_eq_some.mp transmitted with ⟨running, read⟩
  have running : kernel.exited = false := by simpa using running
  refine ⟨running, Eq.trans ?_ running⟩
  rcases Option.bind_eq_some_iff.mp read with ⟨type, typed, handled⟩
  simp only at handled
  split at handled
  · split at handled
    · rename_i pf entered
      exact exited_of_mFunArrry entered handled
    · exact Option.some.inj handled ▸ rfl
  · exact Option.some.inj handled ▸ rfl

end CKernel

/-! ## Written packets -/

theorem legible_registerRs (rs : StruRegisterRs) : Legible rs.bytes := by
  refine ⟨defRegisterRs, packetType_registerRs rs, fun field listed => ?_⟩
  rcases List.mem_singleton.mp listed with rfl
  exact le_refl 8

theorem legible_loginRs (rs : StruLoginRs) : Legible rs.bytes := by
  refine ⟨defLoginRs, packetType_loginRs rs, fun field listed => ?_⟩
  have listed : field ∈ [Field.int 8, .int 4] := listed
  have full : rs.bytes.length = 12 := rfl
  simp only [List.mem_cons, List.not_mem_nil, or_false] at listed
  rcases listed with rfl | rfl <;> simp [Field.Inside, full]

theorem legible_chatRs (rs : StruChatRs) : Legible rs.bytes := by
  refine ⟨defChatRs, packetType_chatRs rs, fun field listed => ?_⟩
  rcases List.mem_singleton.mp listed with rfl
  exact Nat.le_add_right 8 4

theorem legible_addFriendRs {rs : StruAddFriendRs}
    (short : rs.friendName.length < defNameMaxLength) : Legible rs.bytes := by
  refine ⟨defAddFriendRs, packetType_addFriendRs rs, fun field listed => ?_⟩
  have listed : field ∈ [Field.text 16 defNameMaxLength, .int 4] := listed
  simp only [List.mem_cons, List.not_mem_nil, or_false] at listed
  rcases listed with rfl | rfl
  · apply Field.inside_append (length_int32 _) 12
    apply Field.inside_append (length_int32 _) 8
    apply Field.inside_append (length_int32 _) 4
    apply Field.inside_append (length_int32 _) 0
    exact Field.inside_charArray short
  · simp only [Field.Inside, StruAddFriendRs.bytes, List.length_append, length_int32]
    omega

/-- Both texts of the user information have been copied to their arrays. -/
structure StruUserInfo.Copied (info : StruUserInfo) : Prop where
  name : info.name.length < defNameMaxLength
  feeling : info.feeling.length < defFeelingMaxLength

theorem legible_userInfo {info : StruUserInfo} (copied : info.Copied) : Legible info.bytes := by
  refine ⟨defUserInfo, packetType_userInfo info, fun field listed => ?_⟩
  have listed : field ∈ [Field.text 16 defNameMaxLength, .text 36 defFeelingMaxLength, .int 4,
      .int 8, .int 12] := listed
  have named : (charArray defNameMaxLength info.name).length = 20 := by
    have short : info.name.length < 20 := copied.name
    simp only [charArray, List.length_append, List.length_replicate, defNameMaxLength]
    omega
  simp only [List.mem_cons, List.not_mem_nil, or_false] at listed
  rcases listed with rfl | rfl | rfl | rfl | rfl
  · apply Field.inside_append (length_int32 _) 12
    apply Field.inside_append (length_int32 _) 8
    apply Field.inside_append (length_int32 _) 4
    apply Field.inside_append (length_int32 _) 0
    exact Field.inside_charArray copied.name
  · apply Field.inside_append (length_int32 _) 32
    apply Field.inside_append (length_int32 _) 28
    apply Field.inside_append (length_int32 _) 24
    apply Field.inside_append (length_int32 _) 20
    apply Field.inside_append named 0
    exact Field.inside_charArray copied.feeling
  all_goals
    simp only [Field.Inside, StruUserInfo.bytes, List.length_append, length_int32]
    omega

theorem legible_offlineRq (rq : StruOfflineRq) : Legible rq.bytes := by
  refine ⟨defOfflineRq, packetType_offlineRq rq, fun field listed => ?_⟩
  rcases List.mem_singleton.mp listed with rfl
  exact le_refl 8

theorem legible_chatRq {rq : StruChatRq} (fits : FitsArray defContentMaxLength rq.content) :
    Legible rq.bytes := by
  refine ⟨defChatRq, packetType_chatRq rq, fun field listed => ?_⟩
  have listed : field ∈ [Field.int 4, .text 12 defContentMaxLength] := listed
  simp only [List.mem_cons, List.not_mem_nil, or_false] at listed
  rcases listed with rfl | rfl
  · rw [Field.Inside, StruChatRq.length_bytes fits]
    omega
  · exact Field.inside_text_iff.mpr ⟨_, StruChatRq.readContent_bytes fits, fits.short⟩

theorem StruAddFriendRq.Fits.legible {rq : StruAddFriendRq} (fits : rq.Fits) :
    Legible rq.bytes := by
  refine ⟨defAddFriendRq, packetType_addFriendRq rq, fun field listed => ?_⟩
  have listed : field ∈ [Field.int 4, .text 28 defNameMaxLength, .text 8 defNameMaxLength] :=
    listed
  simp only [List.mem_cons, List.not_mem_nil, or_false] at listed
  rcases listed with rfl | rfl | rfl
  · rw [Field.Inside, fits.length_bytes]
    omega
  · exact Field.inside_text_iff.mpr ⟨_, fits.read_bytes.2, fits.friendName.short⟩
  · exact Field.inside_text_iff.mpr ⟨_, fits.read_bytes.1, fits.userName.short⟩

/-- Requests which the server answers itself are not read by clients. -/
theorem legible_of_unread {packet : Bytes} {type : ℤ} (typed : packetType packet = some type)
    (unread : CKernel.fieldsOf type = []) : Legible packet :=
  ⟨type, typed, by simp [unread]⟩

/-! ## What the clients send -/

/-- Whatever the user does, a client writes packets that other clients can read. -/
theorem CKernel.Ranged.legible_of_act {qt : Qt} {kernel next : CKernel} {action : UserAction}
    {packet : Bytes} (ranged : kernel.Ranged)
    (acted : kernel.act qt action = some (next, some packet)) : Legible packet := by
  simp only [act] at acted
  split at acted
  · simp at acted
  · cases action with
    | registerMassage name tel password =>
        simp only [slotRegisterMassage, Option.bind_eq_bind, Option.ite_none_left_eq_some,
          Option.bind_eq_some_iff, Option.some.injEq, Prod.mk.injEq] at acted
        rcases acted with ⟨_, name, _, tel, _, password, _, _, rfl⟩
        exact legible_of_unread (packetType_registerRq _) rfl
    | loginMassage tel password =>
        simp only [slotLoginMassage, Option.bind_eq_bind, Option.ite_none_left_eq_some,
          Option.bind_eq_some_iff, Option.some.injEq, Prod.mk.injEq] at acted
        rcases acted with ⟨_, tel, _, password, _, _, rfl⟩
        exact legible_of_unread (packetType_loginRq _) rfl
    | closeProcess => simp at acted
    | offlien =>
        simp only [slotOfflien, Option.ite_none_right_eq_some, Option.some.injEq,
          Prod.mk.injEq] at acted
        rcases acted with ⟨_, _, rfl⟩
        exact legible_offlineRq _
    | sendMessage friendId content =>
        simp only [slotSendMessage, Option.bind_eq_bind, Option.ite_none_right_eq_some,
          Option.bind_eq_some_iff, Option.some.injEq, Prod.mk.injEq] at acted
        rcases acted with ⟨_, content, copyContent, _, rfl⟩
        exact legible_chatRq (fitsArray_of_strcpyS copyContent)
    | addFriend name =>
        rcases Option.ite_none_right_eq_some.mp acted with ⟨_, slot⟩
        simp only [slotAddFriend, Option.bind_eq_bind] at slot
        split at slot
        · simp at slot
        split at slot
        · simp at slot
        split at slot
        · simp at slot
        simp only [Option.bind_eq_some_iff, Option.some.injEq, Prod.mk.injEq] at slot
        rcases slot with ⟨friendName, copyFriendName, userName, copyUserName, _, rfl⟩
        exact StruAddFriendRq.Fits.legible
          ⟨fitsArray_of_strcpyS copyUserName, fitsArray_of_strcpyS copyFriendName⟩
    | answer agrees =>
        simp only [answer] at acted
        split at acted
        · simp at acted
        · rename_i rs questions asked
          simp only [Option.some.injEq, Prod.mk.injEq] at acted
          rcases acted with ⟨_, rfl⟩
          exact legible_addFriendRs (ranged.names rs (asked ▸ List.mem_cons_self)).short

/-! ## What the server sends -/

/-- The clients can read the packet, and it is no longer than what the server receives. -/
structure Sendable (packet : Bytes) : Prop where
  legible : Legible packet
  bounded : packet.length ≤ 10 * 1024 * 1024

theorem sendable_registerRs (rs : StruRegisterRs) : Sendable rs.bytes :=
  ⟨legible_registerRs rs, by simp [StruRegisterRs.bytes]⟩

theorem sendable_loginRs (rs : StruLoginRs) : Sendable rs.bytes :=
  ⟨legible_loginRs rs, by simp [StruLoginRs.bytes]⟩

theorem sendable_chatRs (rs : StruChatRs) : Sendable rs.bytes :=
  ⟨legible_chatRs rs, by simp [StruChatRs.bytes]⟩

theorem length_charArray_le {size : ℕ} {text : Bytes} (short : text.length < size) :
    (charArray size text).length ≤ size := by
  simp only [charArray, List.length_append, List.length_replicate]
  omega

theorem sendable_addFriendRs {rs : StruAddFriendRs}
    (short : rs.friendName.length < defNameMaxLength) : Sendable rs.bytes := by
  refine ⟨legible_addFriendRs short, ?_⟩
  have named := length_charArray_le short
  simp only [StruAddFriendRs.bytes, List.length_append, length_int32, List.length_nil,
    defNameMaxLength] at named ⊢
  omega

theorem sendable_userInfo {info : StruUserInfo} (copied : info.Copied) : Sendable info.bytes := by
  refine ⟨legible_userInfo copied, ?_⟩
  have named := length_charArray_le copied.name
  have felt := length_charArray_le copied.feeling
  simp only [StruUserInfo.bytes, List.length_append, length_int32, List.length_nil,
    defNameMaxLength, defFeelingMaxLength] at named felt ⊢
  omega

/-- A packet that the action sends may be sent. -/
def SendsLegible : Action → Prop
  | .sendData packet _ => Sendable packet
  | _ => True

/-- Everything that the handler sends may be sent, and what it returns is as required. -/
abbrev Legibly {Value : Type} (onReturn : Value → Prop) (prog : Handler Value)
    (history : History) : Prop :=
  prog.Obeys (fun _ action => SendsLegible action) (fun _ value => onReturn value) history

section Handlers

variable {data : Bytes} {from_ : Handle} {history : History}

theorem legibly_bind {Value Other : Type} {between : Other → Prop} {onReturn : Value → Prop}
    {first : Handler Other} {rest : Other → Handler Value} (sends : Legibly between first history)
    (continues : ∀ later value, between value → Legibly onReturn (rest value) later) :
    Legibly onReturn (first >>= rest) history :=
  Program.obeys_bind (sends.mono (fun _ _ allowed => allowed) continues)

theorem legibly_strcpyS (size : ℕ) (text : Bytes) :
    Legibly (fun copied => copied.length < size) (Handler.strcpyS size text) history := by
  simp only [Handler.strcpyS]
  split
  · assumption
  · exact obeys_abort trivial

/-- The output for a format is as short as the buffer asks. -/
theorem legibly_formatS (size : ℕ) (format : Bytes) :
    Legibly (fun text => text.length < size) (formatS size format) history := by
  simp only [formatS]
  split
  · simp only [Handler.sprintfS]
    split
    · assumption
    · exact obeys_abort trivial
  · exact obeys_abort trivial

theorem legibly_sendIfOnline (id : ℤ) {packet : Bytes} (sendable : Sendable packet) :
    Legibly (fun _ => True) (sendIfOnline id packet) history := by
  refine Program.obeys_perform_bind trivial fun (online : Bool) => ?_
  cases online with
  | false => trivial
  | true => exact Program.obeys_perform_bind trivial fun socket => ⟨sendable, fun _ => trivial⟩

/-- What the structure held before has been copied to its arrays as well. -/
theorem legibly_getInfoById (id : ℤ) {info : StruUserInfo} (copied : info.Copied) :
    Legibly StruUserInfo.Copied (getInfoById id info) history := by
  refine Program.obeys_perform_bind trivial fun (online : Bool) => ?_
  refine Program.obeys_bind (obeys_sprintfS trivial ?_)
  refine Program.obeys_perform_bind trivial fun (found : Option (List Bytes)) => ?_
  split
  · refine legibly_bind (legibly_strcpyS _ _) fun _ name shortName => ?_
    refine legibly_bind (legibly_strcpyS _ _) fun _ feeling shortFeeling => ?_
    exact Program.obeys_bind (obeys_toInt trivial fun iconId _ => ⟨shortName, shortFeeling⟩)
  · exact ⟨copied.name, copied.feeling⟩

theorem legibly_sendFriendInfos (id : ℤ) {userInfo : StruUserInfo} (own : userInfo.Copied)
    (lstStr : List Bytes) {friendInfo : StruUserInfo} (copied : friendInfo.Copied) :
    Legibly (fun _ => True) (sendFriendInfos id userInfo lstStr friendInfo) history := by
  induction lstStr generalizing friendInfo history with
  | nil => trivial
  | cons front lstStr ih =>
      refine Program.obeys_bind (obeys_toInt trivial fun friendId _ => ?_)
      refine legibly_bind (legibly_getInfoById friendId copied) fun _ found foundCopied => ?_
      refine legibly_bind (legibly_sendIfOnline id (sendable_userInfo foundCopied)) fun _ _ _ => ?_
      exact legibly_bind (legibly_sendIfOnline friendId (sendable_userInfo own)) fun _ _ _ =>
        ih foundCopied

theorem legibly_getUserInfoAndFriendInfo (id : ℤ) :
    Legibly (fun _ => True) (getUserInfoAndFriendInfo id) history := by
  have empty : ({} : StruUserInfo).Copied := ⟨Nat.succ_pos 19, Nat.succ_pos 99⟩
  refine legibly_bind (legibly_getInfoById id empty) fun _ userInfo own => ?_
  refine Program.obeys_perform_bind trivial fun (online : Bool) => ?_
  cases online with
  | false => exact obeys_exit trivial
  | true =>
      refine Program.obeys_perform_bind trivial fun socket => ?_
      refine Program.obeys_perform_bind (sendable_userInfo own) fun _ => ?_
      refine Program.obeys_bind (obeys_sprintfS trivial ?_)
      refine Program.obeys_perform_bind trivial fun (found : Option (List Bytes)) => ?_
      cases found with
      | none => trivial
      | some lstStr => exact legibly_sendFriendInfos id own lstStr empty

theorem legibly_reply {packet : Bytes} (sendable : Sendable packet) :
    Legibly (fun _ => True) (Handler.sendData packet from_) history :=
  ⟨sendable, fun _ => trivial⟩

theorem legibly_forward {id : ℤ} (sendable : Sendable data) :
    Legibly (fun _ => True)
      (do let socket ← Handler.socketOf id; Handler.sendData data socket) history :=
  Program.obeys_perform_bind trivial fun _ => ⟨sendable, fun _ => trivial⟩

theorem dealRegisterRq_legibly : Legibly (fun _ => True) (dealRegisterRq data from_) history := by
  refine Program.obeys_bind (obeys_field trivial fun tel _ => ?_)
  refine Program.obeys_bind (obeys_sprintfS trivial ?_)
  apply Program.obeys_perform_bind trivial
  intro (found : Option (List Bytes))
  match found with
  | none => trivial
  | some (_ :: _) => exact legibly_reply (sendable_registerRs _)
  | some [] =>
      refine Program.obeys_bind (obeys_field trivial fun name _ => ?_)
      refine Program.obeys_bind (obeys_sprintfS trivial ?_)
      apply Program.obeys_perform_bind trivial
      intro (taken : Option (List Bytes))
      match taken with
      | none => trivial
      | some (_ :: _) => exact legibly_reply (sendable_registerRs _)
      | some [] =>
          refine Program.obeys_bind (obeys_field trivial fun password _ => ?_)
          refine Program.obeys_bind (obeys_sprintfS trivial ?_)
          apply Program.obeys_perform_bind trivial
          intro (inserted : Bool)
          cases inserted with
          | false => trivial
          | true => exact legibly_reply (sendable_registerRs _)

theorem dealLoginRq_legibly : Legibly (fun _ => True) (dealLoginRq data from_) history := by
  refine Program.obeys_bind (obeys_field trivial fun tel _ => ?_)
  refine Program.obeys_bind (obeys_field trivial fun rqPassword _ => ?_)
  refine Program.obeys_bind (obeys_sprintfS trivial ?_)
  apply Program.obeys_perform_bind trivial
  intro (found : Option (List Bytes))
  match found with
  | none => trivial
  | some [] => exact legibly_reply (sendable_loginRs _)
  | some [_] => exact obeys_abort trivial
  | some (password :: idText :: rest) =>
      refine Program.obeys_bind (obeys_toInt trivial fun id _ => ?_)
      split
      · refine Program.obeys_perform_bind (sendable_loginRs _) fun _ => ?_
        refine Program.obeys_perform_bind trivial fun _ => ?_
        exact legibly_getUserInfoAndFriendInfo id
      · exact legibly_reply (sendable_loginRs _)

theorem legibly_notifyOffline (lstStr : List Bytes) (sendable : Sendable data) :
    Legibly (fun _ => True) (notifyOffline data lstStr) history := by
  induction lstStr generalizing history with
  | nil => trivial
  | cons front lstStr ih =>
      refine Program.obeys_bind (obeys_toInt trivial fun friendId _ => ?_)
      exact legibly_bind (legibly_sendIfOnline friendId sendable) fun _ _ _ => ih

theorem legibly_removeUser (userId : ℤ) :
    Legibly (fun _ => True) (removeUser userId) history := by
  refine Program.obeys_perform_bind trivial fun (online : Bool) => ?_
  cases online with
  | false => trivial
  | true =>
      refine Program.obeys_perform_bind trivial fun socket => ?_
      exact Program.obeys_perform_bind trivial fun _ => ⟨trivial, fun _ => trivial⟩

theorem dealOfflineRq_legibly (sendable : Sendable data) :
    Legibly (fun _ => True) (dealOfflineRq data from_) history := by
  refine Program.obeys_bind (obeys_field trivial fun userId _ => ?_)
  refine Program.obeys_bind (obeys_sprintfS trivial ?_)
  apply Program.obeys_perform_bind trivial
  intro (found : Option (List Bytes))
  match found with
  | none => trivial
  | some lstStr =>
      exact legibly_bind (legibly_notifyOffline lstStr sendable) fun _ _ _ =>
        legibly_removeUser userId

theorem dealChatRq_legibly (sendable : Sendable data) :
    Legibly (fun _ => True) (dealChatRq data from_) history := by
  refine Program.obeys_bind (obeys_field trivial fun friendId _ => ?_)
  apply Program.obeys_perform_bind trivial
  intro (online : Bool)
  cases online with
  | false => exact legibly_reply (sendable_chatRs _)
  | true => exact legibly_forward sendable

theorem dealAddFriendRq_legibly (sendable : Sendable data) :
    Legibly (fun _ => True) (dealAddFriendRq data from_) history := by
  refine Program.obeys_bind (obeys_field trivial fun friendName _ => ?_)
  refine Program.obeys_bind (obeys_sprintfS trivial ?_)
  apply Program.obeys_perform_bind trivial
  intro (found : Option (List Bytes))
  match found with
  | none => trivial
  | some [] =>
      refine legibly_bind (legibly_strcpyS _ _) fun _ name short => ?_
      exact legibly_reply (sendable_addFriendRs short)
  | some (idText :: _) =>
      refine Program.obeys_bind (obeys_toInt trivial fun friendId _ => ?_)
      apply Program.obeys_perform_bind trivial
      intro (online : Bool)
      cases online with
      | true => exact legibly_forward sendable
      | false =>
          refine legibly_bind (legibly_formatS _ _) fun _ name short => ?_
          exact legibly_reply (sendable_addFriendRs short)

theorem dealAddFriendRs_legibly (sendable : Sendable data) :
    Legibly (fun _ => True) (dealAddFriendRs data from_) history := by
  refine Program.obeys_bind (obeys_field trivial fun result _ => ?_)
  refine Program.obeys_bind (obeys_field trivial fun friendId _ => ?_)
  split
  · refine Program.obeys_bind (obeys_field trivial fun userId _ => ?_)
    refine Program.obeys_bind (obeys_sprintfS trivial ?_)
    apply Program.obeys_perform_bind trivial
    intro (first : Bool)
    cases first with
    | false => trivial
    | true =>
        refine Program.obeys_bind (obeys_sprintfS trivial ?_)
        apply Program.obeys_perform_bind trivial
        intro (second : Bool)
        cases second with
        | false => trivial
        | true =>
            exact legibly_bind (legibly_getUserInfoAndFriendInfo friendId) fun _ _ _ =>
              legibly_sendIfOnline friendId sendable
  · exact legibly_sendIfOnline friendId sendable

/-- The handler of a packet that may be sent sends such packets only. -/
theorem dealData_legibly (sendable : Sendable data) :
    Legibly (fun _ => True) (dealData data from_) history := by
  refine Program.obeys_bind (obeys_field trivial fun type readType => ?_)
  simp only
  split
  · cases entered : Received.mArrFun Handler (type - defProtocolBase - 1) with
    | none => trivial
    | some pf =>
        rcases mArrFun_cases entered with ⟨rfl, rfl⟩ | ⟨rfl, rfl⟩ | ⟨rfl, rfl⟩ | ⟨rfl, rfl⟩ |
          ⟨rfl, rfl⟩ | ⟨rfl, rfl⟩
        · exact dealRegisterRq_legibly
        · exact dealLoginRq_legibly
        · exact dealOfflineRq_legibly sendable
        · exact dealChatRq_legibly sendable
        · exact dealAddFriendRq_legibly sendable
        · exact dealAddFriendRs_legibly sendable
  · trivial

end Handlers

/-! ## Every run -/

/-- All that the handlers have sent and are going to send may be sent. -/
structure State.SentLegible (state : State) : Prop where
  tasks : ∀ task ∈ state.tasks, task.prog.Only SendsLegible
  sent : ∀ packet ∈ state.sent, Sendable packet.2
  taken : state.queued.Sublist state.sent

theorem State.SentLegible.step {state next : State} {event : Event} (legible : state.SentLegible)
    (received : ∀ conn data, event = .receive conn data → Legible data)
    (stepped : state.step event = some next) : next.SentLegible := by
  have taken := queued_sublist_of_step legible.taken stepped
  cases stepped_of_step stepped with
  | accept | list | closeSocket | eraseClient => exact ⟨legible.tasks, legible.sent, taken⟩
  | halt => exact ⟨by simp [State.halt], legible.sent, taken⟩
  | finish =>
      exact ⟨fun task member => legible.tasks task (List.mem_of_mem_eraseIdx member), legible.sent,
        taken⟩
  | @receive conn data receiving nonempty bounded =>
      refine ⟨fun task member => ?_, legible.sent, taken⟩
      rcases List.mem_append.mp member with old | new
      · exact legible.tasks task old
      · rw [List.mem_singleton.mp new]
        have sends : Legibly (fun _ => True) (dealData data (state.handleOf conn)) [] :=
          dealData_legibly ⟨received conn data rfl, bounded⟩
        exact sends.only fun _ _ allowed => allowed
  | @perform index outcome task action rest after answer present shape goesOn performed =>
      have performs := performs_of_perform performed
      have acting := legible.tasks task (List.mem_of_getElem? present)
      rw [shape] at acting
      refine ⟨fun other member => ?_, fun packet member => ?_, taken⟩
      · rcases mem_tasks_of_advance performs.sameFrame member with old | rfl
        · exact legible.tasks other old
        · exact acting.2 answer
      · have member : packet ∈ after.sent := member
        rcases performs.sent with same | ⟨sent, clientId, socket, conn, sends, _, _, appended⟩
        · exact legible.sent packet (same ▸ member)
        · rw [appended] at member
          rcases List.mem_append.mp member with old | new
          · exact legible.sent packet old
          · rw [List.mem_singleton.mp new]
            have allowed := acting.1
            rw [sends] at allowed
            exact allowed

namespace System

/-- Everything on its way to the server or to a client is legible to the clients. -/
structure AllLegible (system : System) : Prop where
  ranged : ∀ conn, (system.client conn).Ranged
  inFlight : ∀ packet ∈ system.inFlight, Legible packet.2
  server : system.server.SentLegible

theorem allLegible_start (tUser : List UserRow) (tFriend : List (ℤ × ℤ)) :
    (start tUser tFriend).AllLegible where
  ranged := ranged_start tUser tFriend
  inFlight := by simp [start]
  server := ⟨by simp [start, State.start], by simp [start, State.start], List.Sublist.refl _⟩

theorem AllLegible.sendable {system : System} (legible : system.AllLegible) {conn : ConnId}
    {packet : Bytes} (queued : packet ∈ system.server.queuedTo conn) : Sendable packet :=
  legible.server.sent (conn, packet) (legible.server.taken.subset (mem_packetsOf.mp queued))

theorem inFlight_step {qt : Qt} {before after : System} {event : SystemEvent}
    (legible : before.AllLegible) (stepped : before.step qt event = some after) :
    ∀ packet ∈ after.inFlight, Legible packet.2 := by
  cases event with
  | user conn action =>
      rcases Option.map_eq_some_iff.mp stepped with ⟨⟨kernel, sent⟩, acted, rfl⟩
      intro packet member
      rcases List.mem_append.mp member with old | new
      · exact legible.inFlight packet old
      · rcases List.mem_map.mp new with ⟨data, present, rfl⟩
        rcases Option.mem_toList.mp present with rfl
        exact (legible.ranged conn).legible_of_act acted
  | server event =>
      cases stepped_of_step stepped with
      | server => exact legible.inFlight
  | deliver conn =>
      cases stepped_of_step stepped with
      | deliver => exact legible.inFlight
  | receive conn =>
      cases stepped_of_step stepped with
      | receive waiting =>
          intro packet member
          apply legible.inFlight
          rw [waiting]
          rcases List.mem_append.mp member with earlier | later
          · exact List.mem_append_left _ earlier
          · exact List.mem_append_right _ (List.mem_cons_of_mem _ later)

theorem AllLegible.step {qt : Qt} {before after : System} {event : SystemEvent}
    (legible : before.AllLegible) (stepped : before.step qt event = some after) :
    after.AllLegible := by
  have steps := stepped_of_step stepped
  refine ⟨ranged_step legible.ranged steps, inFlight_step legible stepped, ?_⟩
  cases steps with
  | server other moved =>
      refine legible.server.step ?_ moved
      rintro conn data rfl
      simp [Event.isReceive] at other
  | @receive conn data front back server waiting moved =>
      refine legible.server.step ?_ moved
      intro receiver packet same
      rw [← (Event.receive.inj same).2]
      apply legible.inFlight (conn, data)
      rw [waiting]
      exact List.mem_append_right _ List.mem_cons_self
  | deliver | user => exact legible.server

theorem AllLegible.run {qt : Qt} {before after : System} {events : List SystemEvent}
    (legible : before.AllLegible) (reached : (system qt).run before events = some after) :
    after.AllLegible :=
  (system qt).run_invariant_of_step AllLegible (fun holds stepped => holds.step stepped) legible
    reached

/-- No packet stops a client: in every run of the server with clients of this kind, whatever the
users do, the statements answer and the interleaving is, the fields that a client reads of a packet
queued to it lie inside the packet, and a client that still runs can take the next one. -/
theorem clients_survive {qt : Qt} {tUser : List UserRow} {tFriend : List (ℤ × ℤ)}
    {events : List SystemEvent} {final : System}
    (reached : (system qt).run (start tUser tFriend) events = some final) (conn : ConnId) :
    (∀ packet ∈ final.server.sentTo conn, Legible packet) ∧
      ((final.client conn).exited = false →
        final.delivered conn < (final.server.queuedTo conn).length →
          ∃ next, final.step qt (.deliver conn) = some next) := by
  have legible := (allLegible_start tUser tFriend).run reached
  refine ⟨fun packet sent => ?_, fun running more => ?_⟩
  · exact (legible.server.sent (conn, packet) (State.mem_sentTo.mp sent)).legible
  have next := List.getElem?_eq_getElem more
  have readable := (legible.sendable (List.mem_of_getElem? next)).legible
  have handles : ∃ kernel, (final.client conn).slotTransmitData qt _ = some kernel :=
    CKernel.exists_slotTransmitData readable running
  rcases handles with ⟨kernel, handled⟩
  simp only [System.step, next, Option.bind_some, handled, Option.map_some]
  exact ⟨_, rfl⟩

/-- Bob has got his friend list and the request of Alice. -/
theorem clients_survive_agreed : ∃ final,
    (system asciiQt).run (start [alice, bob] []) aliceAndBob = some final ∧
      final.delivered 1 = 3 ∧ ∀ packet ∈ final.server.sentTo 1, Legible packet := by
  have evaluated : ((system asciiQt).run (start [alice, bob] []) aliceAndBob).any (fun final =>
      final.delivered 1 = 3) = true := by
    decide +kernel
  rcases (Option.any_eq_true _ _).mp evaluated with ⟨final, reached, got⟩
  exact ⟨final, reached, by simpa using got, (clients_survive reached 1).1⟩

end System

end InstanceMessage
