import InstanceMessage.Library.Bytes

/-!
# Packets

The constants and the packet structures of `config.h`, which the client and
the server share. Every structure consists of `int` fields and of character
arrays whose sizes are multiples of four, so it has no padding: its bytes are
the concatenation of its fields. A structure is written with `bytes`; received
data is cast to a structure in place, so each field has its own reader, which
answers `none` when the field does not lie inside the received data.
-/

namespace InstanceMessage

open Library

/-! ## Constants -/

def defTelLength : ℕ := 12
def defPasswordMaxLength : ℕ := 20
def defNameMaxLength : ℕ := 20
def defFeelingMaxLength : ℕ := 100
def defContentMaxLength : ℕ := 8 * 1024
def defArrryFunLength : ℤ := 10

def defProtocolBase : ℤ := 1000
def defRegisterRq : ℤ := defProtocolBase + 1
def defRegisterRs : ℤ := defProtocolBase + 2
def defLoginRq : ℤ := defProtocolBase + 3
def defLoginRs : ℤ := defProtocolBase + 4
def defAddFriendRq : ℤ := defProtocolBase + 5
def defAddFriendRs : ℤ := defProtocolBase + 6
def defUserInfo : ℤ := defProtocolBase + 7
def defChatRq : ℤ := defProtocolBase + 8
def defChatRs : ℤ := defProtocolBase + 9
def defOfflineRq : ℤ := defProtocolBase + 10

def defRigisterSuccess : ℤ := 0
def defRegisterTelExists : ℤ := 1
def defRegisterNameExists : ℤ := 2
def defLoginSuccess : ℤ := 0
def defLoginTelNotRegister : ℤ := 1
def defLoginPasswordError : ℤ := 3
def defAddFriendSuccess : ℤ := 0
def defAddFriendNotExists : ℤ := 1
def defAddFriendOfflien : ℤ := 2
def defAddFriendRefuse : ℤ := 3
def defStatusOnline : ℤ := 0
def defStatusOffline : ℤ := 1
def defSendError : ℤ := 1

/-! ## Fields -/

/-- A field of a structure to which received bytes are cast. -/
inductive Field
  | int (offset : ℕ)
  /-- A character array of the given size, used as a C string. -/
  | text (offset size : ℕ)
  deriving DecidableEq

namespace Field

abbrev Value : Field → Type
  | .int _ => ℤ
  | .text _ _ => Bytes

def read (data : Bytes) : (field : Field) → Option field.Value
  | .int offset => readInt32 data offset
  | .text offset _ => cString data offset

end Field

/-- The type word of a packet, its first field. -/
abbrev typeField : Field := .int 0

def packetType (data : Bytes) : Option ℤ := typeField.read data

/-! ## Structures -/

structure StruRegisterRq where
  tel : Bytes := []
  password : Bytes := []
  name : Bytes := []
  deriving DecidableEq

namespace StruRegisterRq

def bytes (rq : StruRegisterRq) : Bytes :=
  int32 defRegisterRq ++ (charArray defTelLength rq.tel ++
    (charArray defPasswordMaxLength rq.password ++ (charArray defNameMaxLength rq.name ++ [])))

abbrev telField : Field := .text 4 defTelLength
abbrev passwordField : Field := .text 16 defPasswordMaxLength
abbrev nameField : Field := .text 36 defNameMaxLength

def readTel (data : Bytes) : Option Bytes := telField.read data
def readPassword (data : Bytes) : Option Bytes := passwordField.read data
def readName (data : Bytes) : Option Bytes := nameField.read data

end StruRegisterRq

structure StruRegisterRs where
  result : ℤ := defRegisterNameExists
  deriving DecidableEq

namespace StruRegisterRs

def bytes (rs : StruRegisterRs) : Bytes := int32 defRegisterRs ++ (int32 rs.result ++ [])

def readResult (data : Bytes) : Option ℤ := readInt32 data 4

end StruRegisterRs

structure StruLoginRq where
  tel : Bytes := []
  password : Bytes := []
  deriving DecidableEq

namespace StruLoginRq

def bytes (rq : StruLoginRq) : Bytes :=
  int32 defLoginRq ++ (charArray defTelLength rq.tel ++
    (charArray defPasswordMaxLength rq.password ++ []))

abbrev telField : Field := .text 4 defTelLength
abbrev passwordField : Field := .text 16 defPasswordMaxLength

def readTel (data : Bytes) : Option Bytes := telField.read data
def readPassword (data : Bytes) : Option Bytes := passwordField.read data

end StruLoginRq

structure StruLoginRs where
  result : ℤ := defLoginPasswordError
  id : ℤ := 0
  deriving DecidableEq

namespace StruLoginRs

def bytes (rs : StruLoginRs) : Bytes :=
  int32 defLoginRs ++ (int32 rs.result ++ (int32 rs.id ++ []))

def readResult (data : Bytes) : Option ℤ := readInt32 data 4
def readId (data : Bytes) : Option ℤ := readInt32 data 8

end StruLoginRs

structure StruAddFriendRq where
  userId : ℤ := 0
  userName : Bytes := []
  friendName : Bytes := []
  deriving DecidableEq

namespace StruAddFriendRq

def bytes (rq : StruAddFriendRq) : Bytes :=
  int32 defAddFriendRq ++ (int32 rq.userId ++ (charArray defNameMaxLength rq.userName ++
    (charArray defNameMaxLength rq.friendName ++ [])))

abbrev friendNameField : Field := .text 28 defNameMaxLength

def readUserId (data : Bytes) : Option ℤ := readInt32 data 4
def readUserName (data : Bytes) : Option Bytes := cString data 8
def readFriendName (data : Bytes) : Option Bytes := friendNameField.read data

end StruAddFriendRq

structure StruAddFriendRs where
  result : ℤ := defAddFriendRefuse
  friendId : ℤ := 0
  userId : ℤ := 0
  friendName : Bytes := []
  deriving DecidableEq

namespace StruAddFriendRs

def bytes (rs : StruAddFriendRs) : Bytes :=
  int32 defAddFriendRs ++ (int32 rs.result ++ (int32 rs.friendId ++ (int32 rs.userId ++
    (charArray defNameMaxLength rs.friendName ++ []))))

abbrev resultField : Field := .int 4
abbrev friendIdField : Field := .int 8
abbrev userIdField : Field := .int 12

def readResult (data : Bytes) : Option ℤ := resultField.read data
def readFriendId (data : Bytes) : Option ℤ := friendIdField.read data
def readUserId (data : Bytes) : Option ℤ := userIdField.read data
def readFriendName (data : Bytes) : Option Bytes := cString data 16

end StruAddFriendRs

structure StruUserInfo where
  id : ℤ := 0
  iconId : ℤ := 0
  status : ℤ := defStatusOffline
  name : Bytes := []
  feeling : Bytes := []
  deriving DecidableEq

namespace StruUserInfo

def bytes (info : StruUserInfo) : Bytes :=
  int32 defUserInfo ++ (int32 info.id ++ (int32 info.iconId ++ (int32 info.status ++
    (charArray defNameMaxLength info.name ++ (charArray defFeelingMaxLength info.feeling ++ [])))))

def readId (data : Bytes) : Option ℤ := readInt32 data 4
def readIconId (data : Bytes) : Option ℤ := readInt32 data 8
def readStatus (data : Bytes) : Option ℤ := readInt32 data 12
def readName (data : Bytes) : Option Bytes := cString data 16
def readFeeling (data : Bytes) : Option Bytes := cString data 36

end StruUserInfo

structure StruChatRq where
  userId : ℤ := 0
  friendId : ℤ := 0
  content : Bytes := []
  deriving DecidableEq

namespace StruChatRq

def bytes (rq : StruChatRq) : Bytes :=
  int32 defChatRq ++ (int32 rq.userId ++ (int32 rq.friendId ++
    (charArray defContentMaxLength rq.content ++ [])))

abbrev friendIdField : Field := .int 8

def readUserId (data : Bytes) : Option ℤ := readInt32 data 4
def readFriendId (data : Bytes) : Option ℤ := friendIdField.read data
def readContent (data : Bytes) : Option Bytes := cString data 12

end StruChatRq

structure StruChatRs where
  friendId : ℤ := 0
  result : ℤ := defSendError
  deriving DecidableEq

namespace StruChatRs

def bytes (rs : StruChatRs) : Bytes :=
  int32 defChatRs ++ (int32 rs.friendId ++ (int32 rs.result ++ []))

def readFriendId (data : Bytes) : Option ℤ := readInt32 data 4

end StruChatRs

structure StruOfflineRq where
  userId : ℤ := 0
  deriving DecidableEq

namespace StruOfflineRq

def bytes (rq : StruOfflineRq) : Bytes := int32 defOfflineRq ++ (int32 rq.userId ++ [])

abbrev userIdField : Field := .int 4

def readUserId (data : Bytes) : Option ℤ := userIdField.read data

end StruOfflineRq

/-! ## Type words of written structures -/

theorem packetType_int32_append {type : ℤ} (range : IsInt32 type) (rest : Bytes) :
    packetType (int32 type ++ rest) = some type :=
  readInt32_zero range rest

@[simp]
theorem packetType_registerRs (rs : StruRegisterRs) :
    packetType rs.bytes = some defRegisterRs :=
  packetType_int32_append (by decide) _

@[simp]
theorem packetType_loginRs (rs : StruLoginRs) : packetType rs.bytes = some defLoginRs :=
  packetType_int32_append (by decide) _

@[simp]
theorem packetType_addFriendRs (rs : StruAddFriendRs) :
    packetType rs.bytes = some defAddFriendRs :=
  packetType_int32_append (by decide) _

@[simp]
theorem packetType_userInfo (info : StruUserInfo) : packetType info.bytes = some defUserInfo :=
  packetType_int32_append (by decide) _

@[simp]
theorem packetType_chatRs (rs : StruChatRs) : packetType rs.bytes = some defChatRs :=
  packetType_int32_append (by decide) _

@[simp]
theorem packetType_addFriendRq (rq : StruAddFriendRq) :
    packetType rq.bytes = some defAddFriendRq :=
  packetType_int32_append (by decide) _

@[simp]
theorem packetType_loginRq (rq : StruLoginRq) : packetType rq.bytes = some defLoginRq :=
  packetType_int32_append (by decide) _

@[simp]
theorem packetType_registerRq (rq : StruRegisterRq) : packetType rq.bytes = some defRegisterRq :=
  packetType_int32_append (by decide) _

@[simp]
theorem packetType_chatRq (rq : StruChatRq) : packetType rq.bytes = some defChatRq :=
  packetType_int32_append (by decide) _

@[simp]
theorem packetType_offlineRq (rq : StruOfflineRq) : packetType rq.bytes = some defOfflineRq :=
  packetType_int32_append (by decide) _

/-! ## Fields of written structures -/

theorem StruLoginRs.readResult_bytes (rs : StruLoginRs) (range : IsInt32 rs.result) :
    readResult rs.bytes = some rs.result := by
  apply (readInt32_append (length_int32 _) 0).trans
  exact readInt32_zero range _

theorem StruLoginRs.readId_bytes (rs : StruLoginRs) (range : IsInt32 rs.id) :
    readId rs.bytes = some rs.id := by
  apply (readInt32_append (length_int32 _) 4).trans
  apply (readInt32_append (length_int32 _) 0).trans
  exact readInt32_zero range _

theorem StruUserInfo.readId_bytes (info : StruUserInfo) (range : IsInt32 info.id) :
    readId info.bytes = some info.id := by
  apply (readInt32_append (length_int32 _) 0).trans
  exact readInt32_zero range _

theorem StruAddFriendRq.readUserId_bytes (rq : StruAddFriendRq) (range : IsInt32 rq.userId) :
    readUserId rq.bytes = some rq.userId := by
  apply (readInt32_append (length_int32 _) 0).trans
  exact readInt32_zero range _

theorem StruAddFriendRs.readResult_bytes (rs : StruAddFriendRs) (range : IsInt32 rs.result) :
    readResult rs.bytes = some rs.result := by
  show readInt32 rs.bytes 4 = _
  apply (readInt32_append (length_int32 _) 0).trans
  exact readInt32_zero range _

theorem StruAddFriendRs.readFriendId_bytes (rs : StruAddFriendRs) (range : IsInt32 rs.friendId) :
    readFriendId rs.bytes = some rs.friendId := by
  show readInt32 rs.bytes 8 = _
  apply (readInt32_append (length_int32 _) 4).trans
  apply (readInt32_append (length_int32 _) 0).trans
  exact readInt32_zero range _

theorem StruAddFriendRs.readUserId_bytes (rs : StruAddFriendRs) (range : IsInt32 rs.userId) :
    readUserId rs.bytes = some rs.userId := by
  show readInt32 rs.bytes 12 = _
  apply (readInt32_append (length_int32 _) 8).trans
  apply (readInt32_append (length_int32 _) 4).trans
  apply (readInt32_append (length_int32 _) 0).trans
  exact readInt32_zero range _

theorem StruAddFriendRs.readFriendName_bytes {rs : StruAddFriendRs}
    (fits : FitsArray defNameMaxLength rs.friendName) :
    readFriendName rs.bytes = some rs.friendName := by
  apply (cString_append (length_int32 _) 12).trans
  apply (cString_append (length_int32 _) 8).trans
  apply (cString_append (length_int32 _) 4).trans
  apply (cString_append (length_int32 _) 0).trans
  exact fits.cString_zero _

/-! ## Packets about a user -/

/-- The packet is information about the user. -/
def tells (id : ℤ) (packet : Bytes) : Bool :=
  packetType packet = some defUserInfo ∧ StruUserInfo.readId packet = some id

theorem tells_userInfo {info : StruUserInfo} (range : IsInt32 info.id) :
    tells info.id info.bytes = true :=
  decide_eq_true ⟨packetType_userInfo info, StruUserInfo.readId_bytes info range⟩

theorem packetType_of_tells {id : ℤ} {packet : Bytes} (told : tells id packet = true) :
    packetType packet = some defUserInfo := (of_decide_eq_true told).1

theorem readId_of_tells {id : ℤ} {packet : Bytes} (told : tells id packet = true) :
    StruUserInfo.readId packet = some id := (of_decide_eq_true told).2

/-- The packet says that the user goes offline. -/
def departs (id : ℤ) (packet : Bytes) : Bool :=
  packetType packet = some defOfflineRq ∧ StruOfflineRq.readUserId packet = some id

theorem not_tells_of_type {id : ℤ} {packet : Bytes} (other : packetType packet ≠ some defUserInfo) :
    tells id packet = false := by
  simp [tells, other]

theorem not_departs_of_type {id : ℤ} {packet : Bytes}
    (other : packetType packet ≠ some defOfflineRq) : departs id packet = false := by
  simp [departs, other]

/-! ## Written requests -/

namespace StruRegisterRq

structure Fits (rq : StruRegisterRq) : Prop where
  tel : FitsArray defTelLength rq.tel
  password : FitsArray defPasswordMaxLength rq.password
  name : FitsArray defNameMaxLength rq.name

theorem Fits.length_bytes {rq : StruRegisterRq} (fits : rq.Fits) :
    rq.bytes.length = 4 + defTelLength + 2 * defPasswordMaxLength := by
  simp only [bytes, List.length_append, length_int32, fits.tel.length_charArray,
    fits.password.length_charArray, fits.name.length_charArray, List.length_nil]
  rfl

/-- The server reads the texts that the client has written. -/
theorem Fits.read_bytes {rq : StruRegisterRq} (fits : rq.Fits) :
    readTel rq.bytes = some rq.tel ∧ readPassword rq.bytes = some rq.password ∧
      readName rq.bytes = some rq.name := by
  refine ⟨?_, ?_, ?_⟩
  · apply (cString_append (length_int32 _) 0).trans
    exact fits.tel.cString_zero _
  · apply (cString_append (length_int32 _) 12).trans
    apply (cString_append fits.tel.length_charArray 0).trans
    exact fits.password.cString_zero _
  · apply (cString_append (length_int32 _) 32).trans
    apply (cString_append fits.tel.length_charArray 20).trans
    apply (cString_append fits.password.length_charArray 0).trans
    exact fits.name.cString_zero _

end StruRegisterRq

namespace StruLoginRq

structure Fits (rq : StruLoginRq) : Prop where
  tel : FitsArray defTelLength rq.tel
  password : FitsArray defPasswordMaxLength rq.password

theorem Fits.length_bytes {rq : StruLoginRq} (fits : rq.Fits) :
    rq.bytes.length = 4 + defTelLength + defPasswordMaxLength := by
  simp only [bytes, List.length_append, length_int32, fits.tel.length_charArray,
    fits.password.length_charArray, List.length_nil]
  rfl

theorem Fits.read_bytes {rq : StruLoginRq} (fits : rq.Fits) :
    readTel rq.bytes = some rq.tel ∧ readPassword rq.bytes = some rq.password := by
  constructor
  · apply (cString_append (length_int32 _) 0).trans
    exact fits.tel.cString_zero _
  · apply (cString_append (length_int32 _) 12).trans
    apply (cString_append fits.tel.length_charArray 0).trans
    exact fits.password.cString_zero _

end StruLoginRq

namespace StruAddFriendRq

structure Fits (rq : StruAddFriendRq) : Prop where
  userName : FitsArray defNameMaxLength rq.userName
  friendName : FitsArray defNameMaxLength rq.friendName

theorem Fits.length_bytes {rq : StruAddFriendRq} (fits : rq.Fits) :
    rq.bytes.length = 8 + 2 * defNameMaxLength := by
  simp only [bytes, List.length_append, length_int32, fits.userName.length_charArray,
    fits.friendName.length_charArray, List.length_nil]
  rfl

theorem Fits.read_bytes {rq : StruAddFriendRq} (fits : rq.Fits) :
    readUserName rq.bytes = some rq.userName ∧ readFriendName rq.bytes = some rq.friendName := by
  constructor
  · apply (cString_append (length_int32 _) 4).trans
    apply (cString_append (length_int32 _) 0).trans
    exact fits.userName.cString_zero _
  · apply (cString_append (length_int32 _) 24).trans
    apply (cString_append (length_int32 _) 20).trans
    apply (cString_append fits.userName.length_charArray 0).trans
    exact fits.friendName.cString_zero _

end StruAddFriendRq

theorem StruAddFriendRs.length_bytes {rs : StruAddFriendRs}
    (fits : FitsArray defNameMaxLength rs.friendName) :
    rs.bytes.length = 16 + defNameMaxLength := by
  simp only [bytes, List.length_append, length_int32, fits.length_charArray, List.length_nil]
  rfl

theorem StruChatRq.length_bytes {rq : StruChatRq}
    (fits : FitsArray defContentMaxLength rq.content) :
    rq.bytes.length = 12 + defContentMaxLength := by
  simp only [bytes, List.length_append, length_int32, fits.length_charArray, List.length_nil]
  omega

theorem StruChatRq.readContent_bytes {rq : StruChatRq}
    (fits : FitsArray defContentMaxLength rq.content) : readContent rq.bytes = some rq.content := by
  apply (cString_append (length_int32 _) 8).trans
  apply (cString_append (length_int32 _) 4).trans
  apply (cString_append (length_int32 _) 0).trans
  exact fits.cString_zero _

/-! ## Conforming requests -/

/-- A text that ends inside its array. -/
def fits (size : ℕ) : Option Bytes → Bool
  | some text => text.length < size
  | none => false

theorem fits_iff {size : ℕ} {read : Option Bytes} (holds : fits size read = true) :
    ∃ text, read = some text ∧ text.length < size := by
  cases read with
  | none => simp [fits] at holds
  | some text => exact ⟨text, rfl, by simpa [fits] using holds⟩

/-- One of the six requests at full size, whose texts, as far as the server reads them, end inside
their arrays. -/
def conforming (data : Bytes) : Bool :=
  match packetType data with
  | none => false
  | some type =>
      if type = defRegisterRq then
        data.length = 4 + defTelLength + 2 * defPasswordMaxLength ∧
          fits defTelLength (StruRegisterRq.readTel data) ∧
            fits defPasswordMaxLength (StruRegisterRq.readPassword data) ∧
              fits defNameMaxLength (StruRegisterRq.readName data)
      else if type = defLoginRq then
        data.length = 4 + defTelLength + defPasswordMaxLength ∧
          fits defTelLength (StruLoginRq.readTel data) ∧
            fits defPasswordMaxLength (StruLoginRq.readPassword data)
      else if type = defOfflineRq then data.length = 8
      else if type = defChatRq then data.length = 12 + defContentMaxLength
      else if type = defAddFriendRq then
        data.length = 8 + 2 * defNameMaxLength ∧
          fits defNameMaxLength (StruAddFriendRq.readFriendName data)
      else if type = defAddFriendRs then data.length = 16 + defNameMaxLength
      else false

theorem StruRegisterRq.Fits.conforming {rq : StruRegisterRq} (fits : rq.Fits) :
    conforming rq.bytes = true := by
  rcases fits.read_bytes with ⟨readTel, readPassword, readName⟩
  simp only [InstanceMessage.conforming, packetType_registerRq, if_true, fits.length_bytes, readTel,
    readPassword, readName, InstanceMessage.fits, fits.tel.short, fits.password.short,
    fits.name.short, decide_true, and_self]

theorem StruLoginRq.Fits.conforming {rq : StruLoginRq} (fits : rq.Fits) :
    conforming rq.bytes = true := by
  have other : defLoginRq ≠ defRegisterRq := by decide
  rcases fits.read_bytes with ⟨readTel, readPassword⟩
  simp only [InstanceMessage.conforming, packetType_loginRq, if_neg other, if_true,
    fits.length_bytes, readTel, readPassword, InstanceMessage.fits, fits.tel.short,
    fits.password.short, decide_true, and_self]

theorem StruOfflineRq.conforming (rq : StruOfflineRq) : conforming rq.bytes = true := by
  simp only [InstanceMessage.conforming, packetType_offlineRq]
  rfl

theorem StruChatRq.conforming {rq : StruChatRq} (fits : FitsArray defContentMaxLength rq.content) :
    conforming rq.bytes = true := by
  simp only [InstanceMessage.conforming, packetType_chatRq, length_bytes fits]
  rfl

theorem StruAddFriendRq.Fits.conforming {rq : StruAddFriendRq} (fits : rq.Fits) :
    conforming rq.bytes = true := by
  simp only [InstanceMessage.conforming, packetType_addFriendRq, fits.length_bytes,
    fits.read_bytes.2, InstanceMessage.fits, fits.friendName.short]
  rfl

theorem StruAddFriendRs.conforming {rs : StruAddFriendRs}
    (fits : FitsArray defNameMaxLength rs.friendName) : conforming rs.bytes = true := by
  simp only [InstanceMessage.conforming, packetType_addFriendRs, length_bytes fits]
  rfl

end InstanceMessage
