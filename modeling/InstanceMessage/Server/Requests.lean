import InstanceMessage.Server.Handlers

/-!
# Requests whose texts end inside their arrays

The handlers of the requests that carry texts, for received data in which every
text has its terminator inside its own array. Then no field is out of bounds
and every statement fits its buffer, so what is left of a handler is its SQL
statements and its answers.
-/

namespace InstanceMessage

open Library Handler

/-- The texts of the request, read from received data. -/
structure StruRegisterRq.ReadFrom (rq : StruRegisterRq) (data : Bytes) : Prop where
  readTel : readTel data = some rq.tel
  readPassword : readPassword data = some rq.password
  readName : readName data = some rq.name
  tel : rq.tel.length < defTelLength
  password : rq.password.length < defPasswordMaxLength
  name : rq.name.length < defNameMaxLength

structure StruLoginRq.ReadFrom (rq : StruLoginRq) (data : Bytes) : Prop where
  readTel : readTel data = some rq.tel
  readPassword : readPassword data = some rq.password
  tel : rq.tel.length < defTelLength
  password : rq.password.length < defPasswordMaxLength

/-- Of an add-friend request the server reads the friend's name only. -/
structure StruAddFriendRq.ReadFrom (rq : StruAddFriendRq) (data : Bytes) : Prop where
  readFriendName : readFriendName data = some rq.friendName
  friendName : rq.friendName.length < defNameMaxLength

theorem StruRegisterRq.Fits.readFrom {rq : StruRegisterRq} (fits : rq.Fits) :
    rq.ReadFrom rq.bytes := by
  rcases fits.read_bytes with ⟨tel, password, name⟩
  exact ⟨tel, password, name, fits.tel.short, fits.password.short, fits.name.short⟩

theorem StruLoginRq.Fits.readFrom {rq : StruLoginRq} (fits : rq.Fits) :
    rq.ReadFrom rq.bytes := by
  rcases fits.read_bytes with ⟨tel, password⟩
  exact ⟨tel, password, fits.tel.short, fits.password.short⟩

theorem StruAddFriendRq.Fits.readFrom {rq : StruAddFriendRq} (fits : rq.Fits) :
    rq.ReadFrom rq.bytes := ⟨fits.read_bytes.2, fits.friendName.short⟩

/-! ## What is left of the handlers -/

/-- The registration, once all its texts have been read. -/
def register (rq : StruRegisterRq) (from_ : Handle) : Handler Unit := do
  match ← sqlSelect (.telByTel rq.tel) 1 with
  | none => pure ()
  | some (_ :: _) => sendData (StruRegisterRs.bytes ⟨defRegisterTelExists⟩) from_
  | some [] =>
      match ← sqlSelect (.nameByName rq.name) 1 with
      | none => pure ()
      | some (_ :: _) => sendData (StruRegisterRs.bytes ⟨defRegisterNameExists⟩) from_
      | some [] =>
          if ← sqlUpdate (.insertUser rq.name rq.tel rq.password) then
            sendData (StruRegisterRs.bytes ⟨defRigisterSuccess⟩) from_
          else
            pure ()

theorem dealRegisterRq_eq {rq : StruRegisterRq} {data : Bytes} (read : rq.ReadFrom data)
    (from_ : Handle) : dealRegisterRq data from_ = register rq from_ := by
  have telText : sprintfS 2064 (Stmt.telByTel rq.tel).text = .ret _ :=
    sprintfS_text _ read.tel (by decide)
  have nameText : sprintfS 2064 (Stmt.nameByName rq.name).text = .ret _ :=
    sprintfS_text _ read.name (by decide)
  have insertText : sprintfS 2064 (Stmt.insertUser rq.name rq.tel rq.password).text = .ret _ :=
    sprintfS_text _ ⟨read.name, read.tel, read.password⟩ (by decide)
  simp only [dealRegisterRq, Received.dealRegisterRq, field_of_read read.readTel,
    field_of_read read.readName, field_of_read read.readPassword, liftM_handler, telText, nameText,
    insertText, Program.bind_ret]
  rfl

/-- The login, once its texts have been read. -/
def login (rq : StruLoginRq) (from_ : Handle) : Handler Unit := do
  match ← sqlSelect (.passIdByTel rq.tel) 2 with
  | none => pure ()
  | some [] => sendData (StruLoginRs.bytes { result := defLoginTelNotRegister }) from_
  | some [_] => abort .outOfBounds
  | some (password :: idText :: _) =>
      let id ← toInt idText
      if password = rq.password then
        sendData (StruLoginRs.bytes { result := defLoginSuccess, id := id }) from_
        setSocket id from_
        getUserInfoAndFriendInfo id
      else
        sendData (StruLoginRs.bytes { result := defLoginPasswordError }) from_

theorem dealLoginRq_eq {rq : StruLoginRq} {data : Bytes} (read : rq.ReadFrom data)
    (from_ : Handle) : dealLoginRq data from_ = login rq from_ := by
  have telText : sprintfS (2 * 1024) (Stmt.passIdByTel rq.tel).text = .ret _ :=
    sprintfS_text _ read.tel (by decide)
  simp only [dealLoginRq, Received.dealLoginRq, field_of_read read.readTel,
    field_of_read read.readPassword, liftM_handler, telText, Program.bind_ret]
  rfl

/-- The search for a friend, once his name has been read. -/
def addFriend (data friendName : Bytes) (from_ : Handle) : Handler Unit := do
  match ← sqlSelect (.idByName friendName) 1 with
  | none => pure ()
  | some [] =>
      sendData (StruAddFriendRs.bytes
        { result := defAddFriendNotExists, friendName := friendName }) from_
  | some (idText :: _) =>
      let friendId ← toInt idText
      if ← count friendId then
        let socket ← socketOf friendId
        sendData data socket
      else
        let name ← formatS defNameMaxLength friendName
        sendData (StruAddFriendRs.bytes
          { result := defAddFriendOfflien, friendName := name }) from_

theorem dealAddFriendRq_eq {rq : StruAddFriendRq} {data : Bytes} (read : rq.ReadFrom data)
    (from_ : Handle) : dealAddFriendRq data from_ = addFriend data rq.friendName from_ := by
  have nameText : sprintfS 1024 (Stmt.idByName rq.friendName).text = .ret _ :=
    sprintfS_text _ read.friendName (by decide)
  simp only [dealAddFriendRq, Received.dealAddFriendRq, field_of_read read.readFriendName,
    liftM_handler, nameText, strcpyS_of_lt read.friendName, Program.bind_ret]
  rfl

end InstanceMessage
