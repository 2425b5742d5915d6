import InstanceMessage.Protocol

/-!
# The client kernel

`CKernel` of the client: what it does with a packet from the server, and what
it sends when its user acts. Message boxes, labels and pictures have no part in
what is sent and are left out; whether the friend list is shown is kept,
because only its buttons lead to the requests of a user who has logged in.

`dealAddFriendRq` waits in a modal message box for the user's answer, and other
packets and slots are handled meanwhile. The boxes that are open form a stack,
of which the user can answer the latest.

The text conversions of Qt are a parameter. A violated constraint of `strcpy_s`
ends the client process, and a field outside the received bytes leaves it
without a next step; both are `none`.
-/

namespace InstanceMessage

open Library

/-- A `QString`, as UTF-16 code units. -/
abbrev QString := List UInt16

/-- The text conversions of Qt that the client uses. -/
structure Qt where
  /-- `QTextCodec::toUnicode` of the codec `gb2312`. -/
  toUnicode : Bytes → QString
  /-- `QTextCodec::fromUnicode` of the codec `gb2312`. -/
  fromUnicode : QString → Bytes
  /-- `QString::toStdString` -/
  toStdString : QString → Bytes
  /-- The conversion of a C string to a `QString`. -/
  fromUtf8 : Bytes → QString

structure FriendForm where
  mId : ℤ
  mName : QString
  mFeeling : QString
  mIconId : ℤ
  mStatus : ℤ
  deriving DecidableEq

def FriendForm.setFriendOffline (form : FriendForm) : FriendForm :=
  { form with mStatus := defStatusOffline }

/-- What a chat window shows of the friend, without the time. -/
inductive ChatLine
  | content (content : QString)
  | friendOffline
  deriving DecidableEq

structure ChatDialog where
  mId : ℤ
  mName : QString
  tbChat : List ChatLine := []
  deriving DecidableEq

def ChatDialog.setChatContent (dialog : ChatDialog) (content : QString) : ChatDialog :=
  { dialog with tbChat := dialog.tbChat ++ [.content content] }

def ChatDialog.showFriendOffline (dialog : ChatDialog) : ChatDialog :=
  { dialog with tbChat := dialog.tbChat ++ [.friendOffline] }

/-- `map[id] = value` of a `QMap` as a list of its entries. -/
def assign {Value : Type} (map : List (ℤ × Value)) (id : ℤ) (value : Value) : List (ℤ × Value) :=
  (id, value) :: map.filter fun entry => entry.1 ≠ id

structure CKernel where
  mUserId : ℤ := 0
  mUsername : QString := []
  mMapIdtoForm : List (ℤ × FriendForm) := []
  mMapIdToDialog : List (ℤ × ChatDialog) := []
  /-- `m_pFriendList` is shown in place of `m_pLoginDlg`. -/
  friendListShown : Bool := false
  /-- What the open boxes of `dealAddFriendRq` are going to send, latest first, but for the
  result. -/
  questions : List StruAddFriendRs := []
  /-- `slot_closeProcess` has been called. -/
  exited : Bool := false
  deriving DecidableEq

inductive UserAction
  | registerMassage (name tel password : QString)
  | loginMassage (tel password : QString)
  | closeProcess
  | offlien
  | sendMessage (friendId : ℤ) (content : QString)
  /-- The user has entered a name in the box of `slot_addFriend`. -/
  | addFriend (name : QString)
  /-- The user answers the latest question. -/
  | answer (agrees : Bool)
  deriving DecidableEq

namespace CKernel

/-- `strcpy_s` from a C string into an array of a given size. -/
def strcpyS (size : ℕ) (text : Bytes) : Option Bytes :=
  let text := text.takeWhile (· ≠ 0)
  if text.length < size then some text else none

theorem fitsArray_of_strcpyS {size : ℕ} {text copied : Bytes}
    (copies : strcpyS size text = some copied) : FitsArray size copied := by
  rcases Option.ite_none_right_eq_some.mp copies with ⟨short, same⟩
  rcases Option.some.inj same with rfl
  refine ⟨fun member => ?_, short⟩
  simpa using List.mem_takeWhile_imp member

/-! ## Packets from the server -/

/-- A message box. -/
def dealRegisterRs (kernel : CKernel) (data : Bytes) : Option CKernel := do
  let _ ← StruRegisterRs.readResult data
  some kernel

def dealLoginRs (kernel : CKernel) (data : Bytes) : Option CKernel := do
  let id ← StruLoginRs.readId data
  let result ← StruLoginRs.readResult data
  if result = defLoginSuccess then
    some { kernel with mUserId := id, friendListShown := true }
  else
    some kernel

def dealUserInfo (qt : Qt) (kernel : CKernel) (data : Bytes) : Option CKernel := do
  let name := qt.toUnicode (← StruUserInfo.readName data)
  let feeling := qt.toUnicode (← StruUserInfo.readFeeling data)
  let id ← StruUserInfo.readId data
  let iconId ← StruUserInfo.readIconId data
  if id = kernel.mUserId then
    some { kernel with mUsername := name }
  else
    let status ← StruUserInfo.readStatus data
    let forms := assign kernel.mMapIdtoForm id ⟨id, name, feeling, iconId, status⟩
    match kernel.mMapIdtoForm.lookup id with
    | some _ => some { kernel with mMapIdtoForm := forms }
    | none => some { kernel with
        mMapIdtoForm := forms
        mMapIdToDialog := assign kernel.mMapIdToDialog id { mId := id, mName := name } }

def dealOfflineRq (kernel : CKernel) (data : Bytes) : Option CKernel := do
  let userId ← StruOfflineRq.readUserId data
  match kernel.mMapIdtoForm.lookup userId with
  | some form => some { kernel with
      mMapIdtoForm := assign kernel.mMapIdtoForm userId form.setFriendOffline }
  | none => some kernel

def dealChatRq (qt : Qt) (kernel : CKernel) (data : Bytes) : Option CKernel := do
  let userId ← StruChatRq.readUserId data
  match kernel.mMapIdToDialog.lookup userId with
  | some dialog =>
      let content ← StruChatRq.readContent data
      let shown := dialog.setChatContent (qt.fromUtf8 content)
      some { kernel with mMapIdToDialog := assign kernel.mMapIdToDialog userId shown }
  | none => some kernel

def dealChatRs (kernel : CKernel) (data : Bytes) : Option CKernel := do
  let friendId ← StruChatRs.readFriendId data
  match kernel.mMapIdToDialog.lookup friendId with
  | some dialog => some { kernel with
      mMapIdToDialog := assign kernel.mMapIdToDialog friendId dialog.showFriendOffline }
  | none => some kernel

/-- `dealAddFriendRq` up to the question. -/
def dealAddFriendRq (kernel : CKernel) (data : Bytes) : Option CKernel := do
  let friendId ← StruAddFriendRq.readUserId data
  let friendName ← strcpyS defNameMaxLength (← StruAddFriendRq.readFriendName data)
  let _ ← StruAddFriendRq.readUserName data
  some { kernel with
    questions := { friendId := friendId, userId := kernel.mUserId, friendName := friendName } ::
      kernel.questions }

/-- A message box. -/
def dealAddFriendRs (kernel : CKernel) (data : Bytes) : Option CKernel := do
  let _ ← StruAddFriendRs.readFriendName data
  let _ ← StruAddFriendRs.readResult data
  some kernel

/-- The table that `initFunArr` fills. -/
def mFunArrry (qt : Qt) (index : ℤ) : Option (CKernel → Bytes → Option CKernel) :=
  if index = defRegisterRs - defProtocolBase - 1 then some dealRegisterRs
  else if index = defLoginRs - defProtocolBase - 1 then some dealLoginRs
  else if index = defUserInfo - defProtocolBase - 1 then some (dealUserInfo qt)
  else if index = defOfflineRq - defProtocolBase - 1 then some dealOfflineRq
  else if index = defChatRq - defProtocolBase - 1 then some (dealChatRq qt)
  else if index = defChatRs - defProtocolBase - 1 then some dealChatRs
  else if index = defAddFriendRq - defProtocolBase - 1 then some dealAddFriendRq
  else if index = defAddFriendRs - defProtocolBase - 1 then some dealAddFriendRs
  else none

def slotTransmitData (qt : Qt) (kernel : CKernel) (data : Bytes) : Option CKernel :=
  if kernel.exited then none
  else do
    let type ← packetType data
    let index := type - defProtocolBase - 1
    if 0 ≤ index ∧ index < defArrryFunLength then
      match mFunArrry qt index with
      | some pf => pf kernel data
      | none => some kernel
    else
      some kernel

/-! ## Actions of the user -/

def slotRegisterMassage (qt : Qt) (kernel : CKernel) (name tel password : QString) :
    Option (CKernel × Option Bytes) := do
  let name ← strcpyS defNameMaxLength (qt.fromUnicode name)
  let tel ← strcpyS defTelLength (qt.toStdString tel)
  let password ← strcpyS defPasswordMaxLength (qt.toStdString password)
  some (kernel, some (StruRegisterRq.bytes ⟨tel, password, name⟩))

def slotLoginMassage (qt : Qt) (kernel : CKernel) (tel password : QString) :
    Option (CKernel × Option Bytes) := do
  let tel ← strcpyS defTelLength (qt.toStdString tel)
  let password ← strcpyS defPasswordMaxLength (qt.toStdString password)
  some (kernel, some (StruLoginRq.bytes ⟨tel, password⟩))

def slotCloseProcess (kernel : CKernel) : CKernel :=
  { kernel with exited := true, questions := [] }

def slotOfflien (kernel : CKernel) : Option (CKernel × Option Bytes) :=
  some (kernel.slotCloseProcess, some (StruOfflineRq.bytes ⟨kernel.mUserId⟩))

def slotSendMessage (qt : Qt) (kernel : CKernel) (friendId : ℤ) (content : QString) :
    Option (CKernel × Option Bytes) := do
  let content ← strcpyS defContentMaxLength (qt.toStdString content)
  some (kernel, some (StruChatRq.bytes ⟨kernel.mUserId, friendId, content⟩))

/-- `slot_addFriend` with the name that the user has entered. -/
def slotAddFriend (qt : Qt) (kernel : CKernel) (name : QString) :
    Option (CKernel × Option Bytes) :=
  if name.all (· = 32) then some (kernel, none)
  else if name = kernel.mUsername then some (kernel, none)
  else if kernel.mMapIdtoForm.any fun entry => name = entry.2.mName then some (kernel, none)
  else do
    let friendName ← strcpyS defNameMaxLength (qt.fromUnicode name)
    let userName ← strcpyS defNameMaxLength (qt.toStdString kernel.mUsername)
    some (kernel, some (StruAddFriendRq.bytes ⟨kernel.mUserId, userName, friendName⟩))

/-- `dealAddFriendRq` from the answer on. -/
def answer (kernel : CKernel) (agrees : Bool) : Option (CKernel × Option Bytes) :=
  match kernel.questions with
  | [] => none
  | rs :: questions =>
      some ({ kernel with questions := questions }, some (StruAddFriendRs.bytes { rs with
        result := if agrees then defAddFriendSuccess else defAddFriendRefuse }))

/-- An action of the user, with the packet that it sends. The login window and the friend list
are never shown together, and messages come from the chat windows. -/
def act (qt : Qt) (kernel : CKernel) (action : UserAction) : Option (CKernel × Option Bytes) :=
  if kernel.exited then none
  else match action with
    | .registerMassage name tel password =>
        if kernel.friendListShown then none else slotRegisterMassage qt kernel name tel password
    | .loginMassage tel password =>
        if kernel.friendListShown then none else slotLoginMassage qt kernel tel password
    | .closeProcess =>
        if kernel.friendListShown then none else some (kernel.slotCloseProcess, none)
    | .offlien => if kernel.friendListShown then kernel.slotOfflien else none
    | .sendMessage friendId content =>
        if (kernel.mMapIdToDialog.lookup friendId).isSome then
          slotSendMessage qt kernel friendId content
        else none
    | .addFriend name => if kernel.friendListShown then slotAddFriend qt kernel name else none
    | .answer agrees => kernel.answer agrees

/-! ## What the kernel does with requests and answers -/

/-- A packet other than a request or an answer about friendship. -/
def Plain (packet : Bytes) : Prop :=
  packetType packet ≠ some defAddFriendRq ∧ packetType packet ≠ some defAddFriendRs

structure SameUser (kernel next : CKernel) : Prop where
  mUserId : next.mUserId = kernel.mUserId
  friendListShown : next.friendListShown = kernel.friendListShown

/-- What an action of the user sends. -/
inductive Acts (kernel : CKernel) : UserAction → CKernel → Option Bytes → Prop
  | plain {action : UserAction} {next : CKernel} {packet : Option Bytes}
      (user : kernel.SameUser next) (fewer : next.questions <:+ kernel.questions)
      (plain : ∀ data, packet = some data → Plain data)
      (conforms : ∀ data, packet = some data → conforming data = true) :
      Acts kernel action next packet
  | asks {name : QString} (rq : StruAddFriendRq) (own : rq.userId = kernel.mUserId)
      (shown : kernel.friendListShown = true) (fits : rq.Fits) :
      Acts kernel (.addFriend name) kernel (some rq.bytes)
  | answers {agrees : Bool} {rs : StruAddFriendRs} {questions : List StruAddFriendRs}
      (asked : kernel.questions = rs :: questions) :
      Acts kernel (.answer agrees) { kernel with questions := questions }
        (some (StruAddFriendRs.bytes { rs with
          result := if agrees then defAddFriendSuccess else defAddFriendRefuse }))

theorem SameUser.refl (kernel : CKernel) : kernel.SameUser kernel := ⟨rfl, rfl⟩

theorem Acts.plain_of_type {kernel next : CKernel} {action : UserAction} {packet : Option Bytes}
    {data : Bytes} {type : ℤ} (same : kernel = next) (sent : some data = packet)
    (typed : packetType data = some type)
    (other : type ≠ defAddFriendRq ∧ type ≠ defAddFriendRs) (conforms : conforming data = true) :
    Acts kernel action next packet := by
  subst same
  have only (found : Bytes) (same : packet = some found) : data = found :=
    Option.some.inj (sent.trans same)
  refine .plain (.refl _) (List.suffix_refl _) ?_ ?_
  · intro found same
    rw [← only found same, Plain, typed]
    simpa using other
  · intro found same
    rw [← only found same]
    exact conforms

theorem acts_of_act {qt : Qt} {kernel next : CKernel} {action : UserAction}
    {packet : Option Bytes} (acted : kernel.act qt action = some (next, packet)) :
    Acts kernel action next packet := by
  simp only [act] at acted
  split at acted
  · simp at acted
  · cases action with
    | registerMassage name tel password =>
        simp only [slotRegisterMassage, Option.bind_eq_bind, Option.ite_none_left_eq_some,
          Option.bind_eq_some_iff, Option.some.injEq, Prod.mk.injEq] at acted
        rcases acted with ⟨_, name, copyName, tel, copyTel, password, copyPassword, same, sent⟩
        apply Acts.plain_of_type same sent (packetType_registerRq _) (by decide)
        apply StruRegisterRq.Fits.conforming
        exact ⟨fitsArray_of_strcpyS copyTel, fitsArray_of_strcpyS copyPassword,
          fitsArray_of_strcpyS copyName⟩
    | loginMassage tel password =>
        simp only [slotLoginMassage, Option.bind_eq_bind, Option.ite_none_left_eq_some,
          Option.bind_eq_some_iff, Option.some.injEq, Prod.mk.injEq] at acted
        rcases acted with ⟨_, tel, copyTel, password, copyPassword, same, sent⟩
        apply Acts.plain_of_type same sent (packetType_loginRq _) (by decide)
        apply StruLoginRq.Fits.conforming
        exact ⟨fitsArray_of_strcpyS copyTel, fitsArray_of_strcpyS copyPassword⟩
    | closeProcess =>
        simp only [Option.ite_none_left_eq_some, Option.some.injEq, Prod.mk.injEq] at acted
        rcases acted with ⟨_, rfl, rfl⟩
        exact .plain ⟨rfl, rfl⟩ (List.nil_suffix) (by simp) (by simp)
    | offlien =>
        simp only [slotOfflien, Option.ite_none_right_eq_some, Option.some.injEq,
          Prod.mk.injEq] at acted
        rcases acted with ⟨_, rfl, rfl⟩
        refine .plain ⟨rfl, rfl⟩ (List.nil_suffix) ?_ ?_
        · intro data same
          rw [← Option.some.inj same, Plain, packetType_offlineRq]
          decide
        · intro data same
          rw [← Option.some.inj same]
          exact StruOfflineRq.conforming _
    | sendMessage friendId content =>
        simp only [slotSendMessage, Option.bind_eq_bind, Option.ite_none_right_eq_some,
          Option.bind_eq_some_iff, Option.some.injEq, Prod.mk.injEq] at acted
        rcases acted with ⟨_, content, copyContent, same, sent⟩
        apply Acts.plain_of_type same sent (packetType_chatRq _) (by decide)
        exact StruChatRq.conforming (fitsArray_of_strcpyS copyContent)
    | addFriend name =>
        rcases Option.ite_none_right_eq_some.mp acted with ⟨shown, slot⟩
        have silent : some (kernel, none) = some (next, packet) →
            Acts kernel (.addFriend name) next packet := by
          intro same
          rcases Prod.mk.inj (Option.some.inj same) with ⟨rfl, rfl⟩
          exact .plain (.refl _) (List.suffix_refl _) (by simp) (by simp)
        simp only [slotAddFriend] at slot
        split at slot
        · exact silent slot
        split at slot
        · exact silent slot
        split at slot
        · exact silent slot
        simp only [Option.bind_eq_bind, Option.bind_eq_some_iff, Option.some.injEq,
          Prod.mk.injEq] at slot
        rcases slot with ⟨friendName, copyFriendName, userName, copyUserName, rfl, rfl⟩
        exact .asks _ rfl shown
          ⟨fitsArray_of_strcpyS copyUserName, fitsArray_of_strcpyS copyFriendName⟩
    | answer agrees =>
        simp only [answer] at acted
        split at acted
        · simp at acted
        · rename_i rs questions asked
          rcases Prod.mk.inj (Option.some.inj acted) with ⟨rfl, rfl⟩
          exact .answers asked

/-- What a packet from the server changes. -/
inductive Handles (kernel : CKernel) (data : Bytes) : CKernel → Prop
  | login {id : ℤ} (type : packetType data = some defLoginRs)
      (result : StruLoginRs.readResult data = some defLoginSuccess)
      (readId : StruLoginRs.readId data = some id) :
      Handles kernel data { kernel with mUserId := id, friendListShown := true }
  | question {friendId : ℤ} {friendName : Bytes} (type : packetType data = some defAddFriendRq)
      (readUserId : StruAddFriendRq.readUserId data = some friendId)
      (fits : FitsArray defNameMaxLength friendName) :
      Handles kernel data { kernel with
        questions := { friendId := friendId, userId := kernel.mUserId, friendName := friendName } ::
          kernel.questions }
  | other {next : CKernel} (request : packetType data ≠ some defAddFriendRq)
      (login : ¬(packetType data = some defLoginRs ∧
        StruLoginRs.readResult data = some defLoginSuccess))
      (user : kernel.SameUser next) (questions : next.questions = kernel.questions) :
      Handles kernel data next

/-- The kernel has changed forms and dialogs at most. -/
structure OnlyWindows (kernel next : CKernel) : Prop where
  user : kernel.SameUser next
  questions : next.questions = kernel.questions

theorem OnlyWindows.refl (kernel : CKernel) : kernel.OnlyWindows kernel := ⟨.refl _, rfl⟩

theorem onlyWindows_of_dealRegisterRs {kernel next : CKernel} {data : Bytes}
    (handled : kernel.dealRegisterRs data = some next) : kernel.OnlyWindows next := by
  rcases Option.bind_eq_some_iff.mp handled with ⟨result, _, same⟩
  exact Option.some.inj same ▸ .refl _

theorem onlyWindows_of_dealOfflineRq {kernel next : CKernel} {data : Bytes}
    (handled : kernel.dealOfflineRq data = some next) : kernel.OnlyWindows next := by
  rcases Option.bind_eq_some_iff.mp handled with ⟨userId, _, shown⟩
  split at shown
  · exact Option.some.inj shown ▸ ⟨⟨rfl, rfl⟩, rfl⟩
  · exact Option.some.inj shown ▸ .refl _

theorem onlyWindows_of_dealChatRq {qt : Qt} {kernel next : CKernel} {data : Bytes}
    (handled : dealChatRq qt kernel data = some next) : kernel.OnlyWindows next := by
  rcases Option.bind_eq_some_iff.mp handled with ⟨userId, _, shown⟩
  split at shown
  · rcases Option.bind_eq_some_iff.mp shown with ⟨content, _, same⟩
    exact Option.some.inj same ▸ ⟨⟨rfl, rfl⟩, rfl⟩
  · exact Option.some.inj shown ▸ .refl _

theorem onlyWindows_of_dealChatRs {kernel next : CKernel} {data : Bytes}
    (handled : kernel.dealChatRs data = some next) : kernel.OnlyWindows next := by
  rcases Option.bind_eq_some_iff.mp handled with ⟨friendId, _, shown⟩
  split at shown
  · exact Option.some.inj shown ▸ ⟨⟨rfl, rfl⟩, rfl⟩
  · exact Option.some.inj shown ▸ .refl _

theorem onlyWindows_of_dealAddFriendRs {kernel next : CKernel} {data : Bytes}
    (handled : kernel.dealAddFriendRs data = some next) : kernel.OnlyWindows next := by
  rcases Option.bind_eq_some_iff.mp handled with ⟨friendName, _, rest⟩
  rcases Option.bind_eq_some_iff.mp rest with ⟨result, _, same⟩
  exact Option.some.inj same ▸ .refl _

theorem onlyWindows_of_dealUserInfo {qt : Qt} {kernel next : CKernel} {data : Bytes}
    (handled : dealUserInfo qt kernel data = some next) : kernel.OnlyWindows next := by
  simp only [dealUserInfo, Option.bind_eq_bind, Option.bind_eq_some_iff] at handled
  rcases handled with ⟨name, _, feeling, _, id, _, iconId, _, handled⟩
  split at handled
  · exact Option.some.inj handled ▸ ⟨⟨rfl, rfl⟩, rfl⟩
  · rcases Option.bind_eq_some_iff.mp handled with ⟨status, _, shown⟩
    split at shown
    · exact Option.some.inj shown ▸ ⟨⟨rfl, rfl⟩, rfl⟩
    · exact Option.some.inj shown ▸ ⟨⟨rfl, rfl⟩, rfl⟩

theorem mFunArrry_cases {qt : Qt} {type : ℤ} {pf : CKernel → Bytes → Option CKernel}
    (entered : mFunArrry qt (type - defProtocolBase - 1) = some pf) :
    (type = defRegisterRs ∧ pf = dealRegisterRs) ∨ (type = defLoginRs ∧ pf = dealLoginRs) ∨
      (type = defUserInfo ∧ pf = dealUserInfo qt) ∨ (type = defOfflineRq ∧ pf = dealOfflineRq) ∨
        (type = defChatRq ∧ pf = dealChatRq qt) ∨ (type = defChatRs ∧ pf = dealChatRs) ∨
          (type = defAddFriendRq ∧ pf = dealAddFriendRq) ∨
            (type = defAddFriendRs ∧ pf = dealAddFriendRs) := by
  simp only [mFunArrry, sub_left_inj] at entered
  split at entered
  · exact .inl ⟨‹_›, (Option.some.inj entered).symm⟩
  split at entered
  · exact .inr (.inl ⟨‹_›, (Option.some.inj entered).symm⟩)
  split at entered
  · exact .inr (.inr (.inl ⟨‹_›, (Option.some.inj entered).symm⟩))
  split at entered
  · exact .inr (.inr (.inr (.inl ⟨‹_›, (Option.some.inj entered).symm⟩)))
  split at entered
  · exact .inr (.inr (.inr (.inr (.inl ⟨‹_›, (Option.some.inj entered).symm⟩))))
  split at entered
  · exact .inr (.inr (.inr (.inr (.inr (.inl ⟨‹_›, (Option.some.inj entered).symm⟩)))))
  split at entered
  · exact .inr (.inr (.inr (.inr (.inr (.inr (.inl ⟨‹_›, (Option.some.inj entered).symm⟩))))))
  split at entered
  · exact .inr (.inr (.inr (.inr (.inr (.inr (.inr ⟨‹_›, (Option.some.inj entered).symm⟩))))))
  · simp at entered

/-- All packets but replies to logins and requests of friendship concern windows only. -/
theorem onlyWindows_of_mFunArrry {qt : Qt} {type : ℤ} {pf : CKernel → Bytes → Option CKernel}
    {kernel next : CKernel} {data : Bytes}
    (entered : mFunArrry qt (type - defProtocolBase - 1) = some pf)
    (handled : pf kernel data = some next) (login : type ≠ defLoginRs)
    (request : type ≠ defAddFriendRq) : kernel.OnlyWindows next := by
  rcases mFunArrry_cases entered with ⟨rfl, rfl⟩ | ⟨rfl, rfl⟩ | ⟨rfl, rfl⟩ | ⟨rfl, rfl⟩ |
    ⟨rfl, rfl⟩ | ⟨rfl, rfl⟩ | ⟨rfl, rfl⟩ | ⟨rfl, rfl⟩
  · exact onlyWindows_of_dealRegisterRs handled
  · exact absurd rfl login
  · exact onlyWindows_of_dealUserInfo handled
  · exact onlyWindows_of_dealOfflineRq handled
  · exact onlyWindows_of_dealChatRq handled
  · exact onlyWindows_of_dealChatRs handled
  · exact absurd rfl request
  · exact onlyWindows_of_dealAddFriendRs handled

theorem handles_of_dealLoginRs {kernel next : CKernel} {data : Bytes}
    (typed : packetType data = some defLoginRs) (handled : kernel.dealLoginRs data = some next) :
    Handles kernel data next := by
  simp only [dealLoginRs, Option.bind_eq_bind, Option.bind_eq_some_iff] at handled
  rcases handled with ⟨id, readId, result, readResult, handled⟩
  split at handled
  · rename_i success
    rcases Option.some.inj handled with rfl
    exact .login typed (success ▸ readResult) readId
  · rename_i failed
    rcases Option.some.inj handled with rfl
    refine .other ?_ ?_ (.refl _) rfl
    · rw [typed]
      decide
    · rw [readResult]
      exact fun both => failed (Option.some.inj both.2)

theorem handles_of_dealAddFriendRq {kernel next : CKernel} {data : Bytes}
    (typed : packetType data = some defAddFriendRq)
    (handled : kernel.dealAddFriendRq data = some next) : Handles kernel data next := by
  simp only [dealAddFriendRq, Option.bind_eq_bind, Option.bind_eq_some_iff] at handled
  rcases handled with ⟨friendId, readUserId, text, _, friendName, copies, userName, _, same⟩
  exact Option.some.inj same ▸ .question typed readUserId (fitsArray_of_strcpyS copies)

theorem handles_of_slotTransmitData {qt : Qt} {kernel next : CKernel} {data : Bytes}
    (transmitted : slotTransmitData qt kernel data = some next) : Handles kernel data next := by
  rcases Option.ite_none_left_eq_some.mp transmitted with ⟨_, read⟩
  rcases Option.bind_eq_some_iff.mp read with ⟨type, typed, handled⟩
  by_cases login : type = defLoginRs
  · subst login
    exact handles_of_dealLoginRs typed handled
  by_cases request : type = defAddFriendRq
  · subst request
    exact handles_of_dealAddFriendRq typed handled
  have windows : kernel.OnlyWindows next := by
    simp only at handled
    split at handled
    · split at handled
      · rename_i pf entered
        exact onlyWindows_of_mFunArrry entered handled login request
      · exact Option.some.inj handled ▸ .refl _
    · exact Option.some.inj handled ▸ .refl _
  refine .other ?_ ?_ windows.user windows.questions
  · rw [typed]
    simpa using request
  · rw [typed]
    simp [login]

/-- The ids that the kernel keeps have been read from packets, and the names that it is going to
send have been copied to their arrays. -/
structure Ranged (kernel : CKernel) : Prop where
  mUserId : IsInt32 kernel.mUserId
  questions : ∀ rs ∈ kernel.questions, IsInt32 rs.friendId ∧ IsInt32 rs.userId
  names : ∀ rs ∈ kernel.questions, FitsArray defNameMaxLength rs.friendName

theorem Ranged.handles {kernel next : CKernel} {data : Bytes} (ranged : kernel.Ranged)
    (handles : kernel.Handles data next) : next.Ranged := by
  cases handles with
  | login type result readId =>
      exact ⟨isInt32_of_readInt32 readId, ranged.questions, ranged.names⟩
  | question type readUserId fits =>
      refine ⟨ranged.mUserId, fun rs member => ?_, fun rs member => ?_⟩
      · rcases List.mem_cons.mp member with rfl | old
        · exact ⟨isInt32_of_readInt32 readUserId, ranged.mUserId⟩
        · exact ranged.questions rs old
      · rcases List.mem_cons.mp member with rfl | old
        · exact fits
        · exact ranged.names rs old
  | other request login user questions =>
      exact ⟨user.mUserId ▸ ranged.mUserId, questions ▸ ranged.questions, questions ▸ ranged.names⟩

theorem Ranged.of_subset {kernel next : CKernel} (ranged : kernel.Ranged)
    (mUserId : next.mUserId = kernel.mUserId) (fewer : next.questions ⊆ kernel.questions) :
    next.Ranged := by
  refine ⟨mUserId ▸ ranged.mUserId, ?_, ?_⟩
  · intro rs member
    exact ranged.questions rs (fewer member)
  · intro rs member
    exact ranged.names rs (fewer member)

theorem Ranged.acts {kernel next : CKernel} {action : UserAction} {packet : Option Bytes}
    (ranged : kernel.Ranged) (acts : kernel.Acts action next packet) : next.Ranged := by
  cases acts with
  | plain user fewer => exact ranged.of_subset user.mUserId fewer.subset
  | asks => exact ranged
  | answers asked =>
      refine ranged.of_subset rfl ?_
      rw [asked]
      exact List.subset_cons_self _ _

/-- What the kernel sends conforms. -/
theorem Ranged.conforming_of_acts {kernel next : CKernel} {action : UserAction}
    {packet : Option Bytes} {data : Bytes} (ranged : kernel.Ranged)
    (acts : kernel.Acts action next packet) (sent : packet = some data) :
    conforming data = true := by
  cases acts with
  | plain user fewer plain conforms => exact conforms data sent
  | asks rq own shown fits =>
      rw [← Option.some.inj sent]
      exact fits.conforming
  | @answers agrees rs questions asked =>
      rw [← Option.some.inj sent]
      apply StruAddFriendRs.conforming
      exact ranged.names rs (asked ▸ List.mem_cons_self)

end CKernel

end InstanceMessage
