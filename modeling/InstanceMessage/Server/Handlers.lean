import InstanceMessage.Library.Program
import InstanceMessage.Protocol
import InstanceMessage.Server.Sql

/-!
# Handlers of the server kernel

`Ckernel::dealData` and the handlers it selects, as programs of atomic
actions. An action is one access to `m_mapIdToSocket` (`count`, `operator[]`,
assignment through `operator[]`, `erase`), one SQL statement, one call of
`IOCPTcpServer::sendData`, one `closesocket`, or an end of the process: the
source's own `exit`, or an abort for a cause that C++ leaves without a normal
continuation. Between two actions the pool's other threads may run.

A handler casts the received bytes to a structure and reads a field where it
uses it; a field outside the received bytes, or a text without a NUL in them,
is the abort `outOfBounds`. The handlers are written over the way in which
fields are read, so that one text tells what is done with given bytes and which
fields are accessed; `liftM` marks a part that looks at no field.
-/

namespace InstanceMessage

open Library

/-- A `SOCKET` value, which is also the client id of the network layer. -/
abbrev Handle := ℕ

inductive Cause
  /-- A read outside the received bytes, or `front` of an empty list. -/
  | outOfBounds
  /-- A violated constraint of `strcpy_s` or `sprintf_s`. -/
  | invalidParameter
  | exception
  deriving DecidableEq

/-- The atomic actions of the handlers. -/
inductive Action
  | count (id : ℤ)
  | socketOf (id : ℤ)
  | setSocket (id : ℤ) (socket : Handle)
  | erase (id : ℤ)
  | closesocket (socket : Handle)
  | select (stmt : Stmt) (nColumn : ℕ)
  | update (stmt : Stmt)
  | sendData (data : Bytes) (clientId : Handle)
  | exit (code : ℤ)
  | abort (cause : Cause)
  deriving DecidableEq

namespace Action

/-- What an action answers; `exit` and `abort` never do. -/
def Answer : Action → Type
  | .count _ => Bool
  | .socketOf _ => Handle
  | .select _ _ => Option (List Bytes)
  | .update _ => Bool
  | .exit _ | .abort _ => Empty
  | .setSocket _ _ | .erase _ | .closesocket _ | .sendData _ _ => Unit

def Stops : Action → Prop
  | .exit _ | .abort _ => True
  | _ => False

instance : DecidablePred Stops := fun action => by
  cases action <;> simp only [Stops] <;> infer_instance

end Action

abbrev Handler := Program Action Action.Answer

/-! ## Actions as programs -/

namespace Handler

def perform (action : Action) : Handler action.Answer := Program.perform action

def abort {Result : Type} (cause : Cause) : Handler Result :=
  .act (.abort cause) fun answer => nomatch answer

def exit {Result : Type} (code : ℤ) : Handler Result :=
  .act (.exit code) fun answer => nomatch answer

/-- `m_mapIdToSocket.count(id) > 0` -/
def count (id : ℤ) : Handler Bool := perform (.count id)

/-- `m_mapIdToSocket[id]` as a value -/
def socketOf (id : ℤ) : Handler Handle := perform (.socketOf id)

/-- `m_mapIdToSocket[id] = socket` -/
def setSocket (id : ℤ) (socket : Handle) : Handler Unit := perform (.setSocket id socket)

/-- `m_mapIdToSocket.erase(id)` -/
def erase (id : ℤ) : Handler Unit := perform (.erase id)

def closesocket (socket : Handle) : Handler Unit := perform (.closesocket socket)

/-- `SQLselect`: the fields of the result rows, row by row, or `none` when it returns `false`. -/
def sqlSelect (stmt : Stmt) (nColumn : ℕ) : Handler (Option (List Bytes)) :=
  perform (.select stmt nColumn)

/-- `SQLupdate` -/
def sqlUpdate (stmt : Stmt) : Handler Bool := perform (.update stmt)

/-- `m_iocpServer->sendData` -/
def sendData (data : Bytes) (clientId : Handle) : Handler Unit :=
  perform (.sendData data clientId)

/-- A field of the structure to which the received bytes are cast. -/
def field {Value : Type} (read : Option Value) : Handler Value :=
  match read with
  | some value => .ret value
  | none => abort .outOfBounds

/-- `sprintf_s` into a buffer of a given size. -/
@[irreducible]
def sprintfS (size : ℕ) (text : Bytes) : Handler Bytes :=
  if text.length < size then .ret text else abort .invalidParameter

/-- `strcpy_s` into an array of a given size. -/
@[irreducible]
def strcpyS (size : ℕ) (text : Bytes) : Handler Bytes :=
  if text.length < size then .ret text else abort .invalidParameter

theorem sprintfS_of_lt {size : ℕ} {text : Bytes} (fits : text.length < size) :
    sprintfS size text = .ret text := by
  simp only [sprintfS, fits, if_true]

theorem sprintfS_text {size : ℕ} (stmt : Stmt) (fits : stmt.Fits) (room : 1024 ≤ size) :
    sprintfS size stmt.text = .ret stmt.text :=
  sprintfS_of_lt ((stmt.length_text fits).trans_le room)

theorem strcpyS_of_lt {size : ℕ} {text : Bytes} (fits : text.length < size) :
    strcpyS size text = .ret text := by
  simp only [strcpyS, fits, if_true]

/-- `std::stoi`, whose exceptions nothing catches. -/
def toInt (text : Bytes) : Handler ℤ :=
  match stoi text with
  | some value => .ret value
  | none => abort .exception

end Handler

open Handler

/-- The output of `sprintf_s` for a format string without arguments: `%%` gives one `%`, and
any other conversion has no argument to print. -/
def formatText : Bytes → Option Bytes
  | 37 :: 37 :: rest => (formatText rest).map (37 :: ·)
  | 37 :: _ => none
  | byte :: rest => (formatText rest).map (byte :: ·)
  | [] => some []

/-- `sprintf_s(dst, size, format)` with a received text as the format. -/
def formatS (size : ℕ) (format : Bytes) : Handler Bytes :=
  match formatText format with
  | some text => sprintfS size text
  | none => abort .invalidParameter

/-- The guarded send that the handlers repeat:
`if (m_mapIdToSocket.count(id) > 0) sendData(data, len, m_mapIdToSocket[id])`. -/
def sendIfOnline (id : ℤ) (data : Bytes) : Handler Unit := do
  if ← count id then
    let socket ← socketOf id
    sendData data socket
  else
    pure ()

/-! ## User information -/

/-- The structure keeps what it held wherever a query fails or has no single row. -/
def getInfoById (id : ℤ) (info : StruUserInfo) : Handler StruUserInfo := do
  let online ← count id
  let info := { info with
    id := id, status := if online then defStatusOnline else defStatusOffline }
  let _ ← sprintfS (8 * 1024) (Stmt.userById id).text
  match ← sqlSelect (.userById id) 3 with
  | some [name, feeling, iconId] =>
      let name ← strcpyS defNameMaxLength name
      let feeling ← strcpyS defFeelingMaxLength feeling
      let iconId ← toInt iconId
      pure { info with name := name, feeling := feeling, iconId := iconId }
  | _ => pure info

/-- The loop of `getUserInfoAndFriendInfo` over the friends' ids; `friendInfo` is the structure
which it reuses for every friend. -/
def sendFriendInfos (id : ℤ) (userInfo : StruUserInfo) :
    List Bytes → StruUserInfo → Handler Unit
  | [], _ => pure ()
  | front :: lstStr, friendInfo => do
      let friendId ← toInt front
      let friendInfo ← getInfoById friendId friendInfo
      sendIfOnline id friendInfo.bytes
      sendIfOnline friendId userInfo.bytes
      sendFriendInfos id userInfo lstStr friendInfo

def getUserInfoAndFriendInfo (id : ℤ) : Handler Unit := do
  let userInfo ← getInfoById id {}
  if ← count id then
    let socket ← socketOf id
    sendData userInfo.bytes socket
    let _ ← sprintfS (8 * 1024) (Stmt.friendIds id).text
    match ← sqlSelect (.friendIds id) 1 with
    | none => pure ()
    | some lstStr => sendFriendInfos id userInfo lstStr {}
  else
    Handler.exit 0

/-! ## Request handlers -/

/-- The loop of `dealOfflineRq` over the friends' ids. -/
def notifyOffline (data : Bytes) : List Bytes → Handler Unit
  | [] => pure ()
  | front :: lstStr => do
      let friendId ← toInt front
      sendIfOnline friendId data
      notifyOffline data lstStr

/-- The end of `dealOfflineRq`: the user's socket is closed and his entry removed. -/
def removeUser (userId : ℤ) : Handler Unit := do
  if ← count userId then
    let socket ← socketOf userId
    closesocket socket
    erase userId
  else
    pure ()

/-- Received bytes as a handler has them: it passes them on as they are, and reads fields of the
structure to which it casts them. -/
structure Received (M : Type → Type) where
  data : Bytes
  field (place : Field) : M place.Value

namespace Received

section Handlers

variable {M : Type → Type} [Monad M] [MonadLiftT Handler M]

def dealRegisterRq (buf : Received M) (from_ : Handle) : M Unit := do
  let tel ← buf.field StruRegisterRq.telField
  let _ ← sprintfS 2064 (Stmt.telByTel tel).text
  match ← sqlSelect (.telByTel tel) 1 with
  | none => pure ()
  | some (_ :: _) => sendData (StruRegisterRs.bytes ⟨defRegisterTelExists⟩) from_
  | some [] =>
      let name ← buf.field StruRegisterRq.nameField
      let _ ← sprintfS 2064 (Stmt.nameByName name).text
      match ← sqlSelect (.nameByName name) 1 with
      | none => pure ()
      | some (_ :: _) => sendData (StruRegisterRs.bytes ⟨defRegisterNameExists⟩) from_
      | some [] =>
          let password ← buf.field StruRegisterRq.passwordField
          liftM (m := Handler) do
            let _ ← sprintfS 2064 (Stmt.insertUser name tel password).text
            if ← sqlUpdate (.insertUser name tel password) then
              sendData (StruRegisterRs.bytes ⟨defRigisterSuccess⟩) from_
            else
              pure ()

def dealLoginRq (buf : Received M) (from_ : Handle) : M Unit := do
  let tel ← buf.field StruLoginRq.telField
  let rqPassword ← buf.field StruLoginRq.passwordField
  liftM (m := Handler) do
    let _ ← sprintfS (2 * 1024) (Stmt.passIdByTel tel).text
    match ← sqlSelect (.passIdByTel tel) 2 with
    | none => pure ()
    | some [] => sendData (StruLoginRs.bytes { result := defLoginTelNotRegister }) from_
    | some [_] => abort .outOfBounds
    | some (password :: idText :: _) =>
        let id ← toInt idText
        if password = rqPassword then
          sendData (StruLoginRs.bytes { result := defLoginSuccess, id := id }) from_
          setSocket id from_
          getUserInfoAndFriendInfo id
        else
          sendData (StruLoginRs.bytes { result := defLoginPasswordError }) from_

def dealOfflineRq (buf : Received M) (_from : Handle) : M Unit := do
  let userId ← buf.field StruOfflineRq.userIdField
  liftM (m := Handler) do
    let _ ← sprintfS (2 * 1024) (Stmt.friendIdsOffline userId).text
    match ← sqlSelect (.friendIdsOffline userId) 1 with
    | none => pure ()
    | some lstStr =>
        notifyOffline buf.data lstStr
        removeUser userId

def dealChatRq (buf : Received M) (from_ : Handle) : M Unit := do
  let friendId ← buf.field StruChatRq.friendIdField
  liftM (m := Handler) do
    if ← count friendId then
      let socket ← socketOf friendId
      sendData buf.data socket
    else
      sendData (StruChatRs.bytes { result := defSendError, friendId := friendId }) from_

def dealAddFriendRq (buf : Received M) (from_ : Handle) : M Unit := do
  let friendName ← buf.field StruAddFriendRq.friendNameField
  liftM (m := Handler) do
    let _ ← sprintfS 1024 (Stmt.idByName friendName).text
    match ← sqlSelect (.idByName friendName) 1 with
    | none => pure ()
    | some [] =>
        let name ← strcpyS defNameMaxLength friendName
        sendData (StruAddFriendRs.bytes
          { result := defAddFriendNotExists, friendName := name }) from_
    | some (idText :: _) =>
        let friendId ← toInt idText
        if ← count friendId then
          let socket ← socketOf friendId
          sendData buf.data socket
        else
          let name ← formatS defNameMaxLength friendName
          sendData (StruAddFriendRs.bytes
            { result := defAddFriendOfflien, friendName := name }) from_

def dealAddFriendRs (buf : Received M) (_from : Handle) : M Unit := do
  let result ← buf.field StruAddFriendRs.resultField
  let friendId ← buf.field StruAddFriendRs.friendIdField
  if result = defAddFriendSuccess then
    let userId ← buf.field StruAddFriendRs.userIdField
    liftM (m := Handler) do
      let _ ← sprintfS (1024 * 2) (Stmt.insertFriend friendId userId).text
      if ← sqlUpdate (.insertFriend friendId userId) then
        let _ ← sprintfS (1024 * 2) (Stmt.insertFriend userId friendId).text
        if ← sqlUpdate (.insertFriend userId friendId) then
          getUserInfoAndFriendInfo friendId
          sendIfOnline friendId buf.data
        else
          pure ()
      else
        pure ()
  else
    sendIfOnline friendId buf.data

/-! ## Dispatch -/

variable (M) in
/-- The table that `initFunArrry` fills. -/
def mArrFun (index : ℤ) : Option (Received M → Handle → M Unit) :=
  if index = defRegisterRq - defProtocolBase - 1 then some dealRegisterRq
  else if index = defLoginRq - defProtocolBase - 1 then some dealLoginRq
  else if index = defOfflineRq - defProtocolBase - 1 then some dealOfflineRq
  else if index = defChatRq - defProtocolBase - 1 then some dealChatRq
  else if index = defAddFriendRq - defProtocolBase - 1 then some dealAddFriendRq
  else if index = defAddFriendRs - defProtocolBase - 1 then some dealAddFriendRs
  else none

def dealData (buf : Received M) (from_ : Handle) : M Unit := do
  let type : ℤ ← buf.field typeField
  let index := type - defProtocolBase - 1
  if 0 ≤ index ∧ index < defArrryFunLength then
    match mArrFun M index with
    | some pf => pf buf from_
    | none => pure ()
  else
    pure ()

end Handlers

end Received

/-! ## The handlers of given bytes -/

def received (data : Bytes) : Received Handler := ⟨data, fun place => field (place.read data)⟩

@[simp]
theorem data_received (data : Bytes) : (received data).data = data := rfl

@[simp]
theorem liftM_handler {Result : Type} (part : Handler Result) :
    (liftM part : Handler Result) = part := rfl

theorem field_of_read {data : Bytes} {place : Field} {value : place.Value}
    (read : place.read data = some value) : (received data).field place = .ret value := by
  simp only [received, read]
  rfl

theorem field_of_unread {data : Bytes} {place : Field} (unread : place.read data = none) :
    (received data).field place = abort .outOfBounds := by
  simp only [received, unread]
  rfl

section Given

variable (data : Bytes) (from_ : Handle)

def dealRegisterRq : Handler Unit := (received data).dealRegisterRq from_
def dealLoginRq : Handler Unit := (received data).dealLoginRq from_
def dealOfflineRq : Handler Unit := (received data).dealOfflineRq from_
def dealChatRq : Handler Unit := (received data).dealChatRq from_
def dealAddFriendRq : Handler Unit := (received data).dealAddFriendRq from_
def dealAddFriendRs : Handler Unit := (received data).dealAddFriendRs from_
def dealData : Handler Unit := (received data).dealData from_

end Given

/-! ## The handler of a request -/

section Dispatch

variable {data : Bytes} {from_ : Handle}

theorem dealData_registerRq (type : packetType data = some defRegisterRq) :
    dealData data from_ = dealRegisterRq data from_ := by
  rw [dealData, Received.dealData, field_of_read type]
  rfl

theorem dealData_loginRq (type : packetType data = some defLoginRq) :
    dealData data from_ = dealLoginRq data from_ := by
  rw [dealData, Received.dealData, field_of_read type]
  rfl

theorem dealData_addFriendRq (type : packetType data = some defAddFriendRq) :
    dealData data from_ = dealAddFriendRq data from_ := by
  rw [dealData, Received.dealData, field_of_read type]
  rfl

theorem dealData_chatRq (type : packetType data = some defChatRq) :
    dealData data from_ = dealChatRq data from_ := by
  rw [dealData, Received.dealData, field_of_read type]
  rfl

theorem dealData_offlineRq (type : packetType data = some defOfflineRq) :
    dealData data from_ = dealOfflineRq data from_ := by
  rw [dealData, Received.dealData, field_of_read type]
  rfl

theorem dealData_addFriendRs (type : packetType data = some defAddFriendRs) :
    dealData data from_ = dealAddFriendRs data from_ := by
  rw [dealData, Received.dealData, field_of_read type]
  rfl

end Dispatch

end InstanceMessage
