import InstanceMessage.Server.Handlers

/-!
# What the handlers may do

The law that every handler obeys, whatever the shared state answers: for each
action, what the handler must have seen in its own packet and done before. An
entry of `m_mapIdToSocket` is written only by a login whose password matched
and whose reply has been sent; it is removed, and its socket closed, only by an
offline request that names the user; replies go to the sender of the request,
and other packets to the socket that the handler has looked up for their
addressee; rows of `t_friend` are those an answer with result success names.
`dealData_lawful` is the only result that looks at the text of the handlers; the
results about runs use the law.
-/

namespace InstanceMessage

open Library

abbrev History := List (Performed Action.Answer)

/-- The handler has looked up the socket of a user in the map. -/
def LookedUp (history : History) (id : ℤ) (socket : Handle) : Prop :=
  (⟨.socketOf id, socket⟩ : Performed Action.Answer) ∈ history

/-- The stored password of the account with the requested number, whose id this is, is the
password in the login request. -/
def PasswordMatched (data : Bytes) (history : History) (id : ℤ) : Prop :=
  ∃ tel password idText rest,
    StruLoginRq.readTel data = some tel ∧ StruLoginRq.readPassword data = some password ∧
      (⟨.select (.passIdByTel tel) 2, some (password :: idText :: rest)⟩ :
        Performed Action.Answer) ∈ history ∧ stoi idText = some id

def loginSuccess (id : ℤ) : Bytes :=
  StruLoginRs.bytes { result := defLoginSuccess, id := id }

/-- The handler has sent the successful login reply to the sender of the request. -/
def Replied (from_ : Handle) (history : History) (id : ℤ) : Prop :=
  (⟨.sendData (loginSuccess id) from_, ()⟩ : Performed Action.Answer) ∈ history

/-- The replies that the server makes itself, for the sender of the request. -/
inductive Reply (data : Bytes) (history : History) : Bytes → Prop
  | register (type : packetType data = some defRegisterRq) (rs : StruRegisterRs) :
      Reply data history rs.bytes
  | loginFailed (type : packetType data = some defLoginRq) (rs : StruLoginRs)
      (failed : rs.result ≠ defLoginSuccess) (range : IsInt32 rs.result) :
      Reply data history rs.bytes
  | login {id : ℤ} (type : packetType data = some defLoginRq) (range : IsInt32 id)
      (matched : PasswordMatched data history id) : Reply data history (loginSuccess id)
  | addFriendFailed (type : packetType data = some defAddFriendRq) (rs : StruAddFriendRs)
      (failed : rs.result ≠ defAddFriendSuccess) (range : IsInt32 rs.result) :
      Reply data history rs.bytes
  | chatFailed (type : packetType data = some defChatRq) (rs : StruChatRs) :
      Reply data history rs.bytes

/-- The user to whom a received packet is passed on: a friend of the user who leaves, the user
with the wanted name, or the one whom the packet names as the friend. -/
inductive PassedTo (data : Bytes) (history : History) (id : ℤ) : Prop
  | offlineRq {userId : ℤ} {texts : List Bytes} {front : Bytes}
      (type : packetType data = some defOfflineRq)
      (named : StruOfflineRq.readUserId data = some userId)
      (listed : (⟨.select (.friendIdsOffline userId) 1, some texts⟩ :
        Performed Action.Answer) ∈ history)
      (member : front ∈ texts) (parsed : stoi front = some id)
  | chatRq (type : packetType data = some defChatRq)
      (named : StruChatRq.readFriendId data = some id)
  | addFriendRq {name idText : Bytes} {texts : List Bytes}
      (type : packetType data = some defAddFriendRq)
      (named : StruAddFriendRq.readFriendName data = some name)
      (found : (⟨.select (.idByName name) 1, some (idText :: texts)⟩ :
        Performed Action.Answer) ∈ history)
      (parsed : stoi idText = some id)
  | addFriendRs (type : packetType data = some defAddFriendRs)
      (named : StruAddFriendRs.readFriendId data = some id)

/-- The user who has logged in with this packet, or who has found a friend with it. -/
inductive Presents (data : Bytes) (history : History) (id : ℤ) : Prop
  | login (type : packetType data = some defLoginRq) (matched : PasswordMatched data history id)
  | friend (type : packetType data = some defAddFriendRs)
      (success : StruAddFriendRs.readResult data = some defAddFriendSuccess)
      (named : StruAddFriendRs.readFriendId data = some id)

/-- The handler has read that a user is in the friend list of another. -/
def InList (history : History) (id friendId : ℤ) : Prop :=
  ∃ texts front, (⟨.select (.friendIds id) 1, some texts⟩ : Performed Action.Answer) ∈ history ∧
    front ∈ texts ∧ stoi front = some friendId

/-- The handler has looked whether the user has an entry, and the status says so. -/
def Seen (history : History) (info : StruUserInfo) : Prop :=
  ∃ online : Bool, (⟨.count info.id, online⟩ : Performed Action.Answer) ∈ history ∧
    info.status = if online then defStatusOnline else defStatusOffline

/-- What a handler that presents a user has done before it tells somebody about somebody: it
tells the user about himself and his friends, and his friends about him. -/
structure Introduces (history : History) (presented : ℤ) (info : StruUserInfo) (id : ℤ) :
    Prop where
  range : IsInt32 info.id
  seen : Seen history info
  related : (id = presented ∧ (info.id = presented ∨ InList history presented info.id)) ∨
    (info.id = presented ∧ InList history presented id)

/-- What is sent to a user whose socket has been looked up: a received packet whose addressee he
is, or user information. -/
inductive Delivered (data : Bytes) (history : History) (id : ℤ) : Bytes → Prop
  | passedOn (addressee : PassedTo data history id) : Delivered data history id data
  | told {presented : ℤ} {info : StruUserInfo} (presents : Presents data history presented)
      (introduces : Introduces history presented info id) :
      Delivered data history id info.bytes

/-- The rows of `t_friend` that the packet asks for. -/
def Befriends (data : Bytes) (idA idB : ℤ) : Prop :=
  packetType data = some defAddFriendRs ∧
    StruAddFriendRs.readResult data = some defAddFriendSuccess ∧
      ∃ friendId userId, StruAddFriendRs.readFriendId data = some friendId ∧
        StruAddFriendRs.readUserId data = some userId ∧
          ((idA = friendId ∧ idB = userId) ∨ (idA = userId ∧ idB = friendId))

/-- The law of the handler of a packet: which action may follow a history of its own. -/
def law (data : Bytes) (from_ : Handle) (history : History) : Action → Prop
  | .setSocket id socket =>
      packetType data = some defLoginRq ∧ socket = from_ ∧ PasswordMatched data history id ∧
        Replied from_ history id
  | .closesocket socket =>
      packetType data = some defOfflineRq ∧
        ∃ userId, StruOfflineRq.readUserId data = some userId ∧ LookedUp history userId socket
  | .erase id =>
      packetType data = some defOfflineRq ∧ StruOfflineRq.readUserId data = some id ∧
        ∃ socket, LookedUp history id socket ∧
          (⟨.closesocket socket, ()⟩ : Performed Action.Answer) ∈ history
  | .sendData packet clientId =>
      (clientId = from_ ∧ Reply data history packet) ∨
        ∃ id, LookedUp history id clientId ∧ Delivered data history id packet
  | .update (.insertFriend idA idB) => Befriends data idA idB
  | .update (.insertUser _ _ _) => packetType data = some defRegisterRq
  | _ => True

/-! ## Parts that only read and send -/

/-- The action neither writes a table nor closes a socket. -/
def Quiet : Action → Prop
  | .setSocket _ _ | .erase _ | .closesocket _ | .update _ => False
  | _ => True

/-- The action reads what users are told about each other, or tells them packets of a kind. -/
def Informs (tells : Bytes → Prop) : Action → Prop
  | .sendData packet _ => tells packet
  | .count _ | .socketOf _ | .exit _ | .abort _ => True
  | .select (.userById _) _ | .select (.friendIds _) _ => True
  | _ => False

def IsUserInfo (packet : Bytes) : Prop := ∃ info : StruUserInfo, packet = info.bytes

/-- The action reads what users are told about each other. -/
abbrev Reads : Action → Prop := Informs fun _ => False

section Informs

variable {Value : Type} {tells : Bytes → Prop}

theorem Informs.quiet {action : Action} (informs : Informs tells action) : Quiet action := by
  cases action <;> trivial

theorem informs_abort (cause : Cause) :
    (Handler.abort cause : Handler Value).Only (Informs tells) :=
  ⟨trivial, fun answer => nomatch answer⟩

theorem informs_sprintfS (size : ℕ) (text : Bytes) :
    (Handler.sprintfS size text).Only (Informs tells) := by
  simp only [Handler.sprintfS]
  split
  · trivial
  · exact informs_abort _

theorem informs_strcpyS (size : ℕ) (text : Bytes) :
    (Handler.strcpyS size text).Only (Informs tells) := by
  simp only [Handler.strcpyS]
  split
  · trivial
  · exact informs_abort _

theorem informs_toInt (text : Bytes) : (Handler.toInt text).Only (Informs tells) := by
  simp only [Handler.toInt]
  split
  · trivial
  · exact informs_abort _

theorem informs_formatS (size : ℕ) (format : Bytes) :
    (formatS size format).Only (Informs tells) := by
  simp only [formatS]
  split
  · exact informs_sprintfS _ _
  · exact informs_abort _

theorem informs_sendIfOnline (id : ℤ) {packet : Bytes} (told : tells packet) :
    (sendIfOnline id packet).Only (Informs tells) := by
  apply Program.only_perform_bind trivial
  intro (online : Bool)
  cases online with
  | false => trivial
  | true => exact Program.only_perform_bind trivial fun socket => ⟨told, fun _ => trivial⟩

theorem informs_getInfoById (id : ℤ) (info : StruUserInfo) :
    (getInfoById id info).Only (Informs tells) := by
  apply Program.only_perform_bind trivial
  intro online
  apply Program.only_bind (informs_sprintfS _ _)
  intro _
  apply Program.only_perform_bind trivial
  intro (found : Option (List Bytes))
  split
  · apply Program.only_bind (informs_strcpyS _ _)
    intro _
    exact Program.only_bind (informs_strcpyS _ _) fun _ =>
      Program.only_bind (informs_toInt _) fun _ => trivial
  · trivial

theorem informs_sendFriendInfos (id : ℤ) (userInfo : StruUserInfo) (lstStr : List Bytes)
    (friendInfo : StruUserInfo) :
    (sendFriendInfos id userInfo lstStr friendInfo).Only (Informs IsUserInfo) := by
  induction lstStr generalizing friendInfo with
  | nil => trivial
  | cons front lstStr ih =>
      apply Program.only_bind (informs_toInt _)
      intro friendId
      apply Program.only_bind (informs_getInfoById _ _)
      intro found
      apply Program.only_bind (informs_sendIfOnline _ ⟨found, rfl⟩)
      intro _
      exact Program.only_bind (informs_sendIfOnline _ ⟨userInfo, rfl⟩) fun _ => ih found

theorem informs_getUserInfoAndFriendInfo (id : ℤ) :
    (getUserInfoAndFriendInfo id).Only (Informs IsUserInfo) := by
  apply Program.only_bind (informs_getInfoById _ _)
  intro userInfo
  apply Program.only_perform_bind trivial
  intro (online : Bool)
  cases online with
  | false => exact ⟨trivial, fun answer => nomatch answer⟩
  | true =>
      apply Program.only_perform_bind trivial
      intro socket
      refine Program.only_perform_bind ⟨userInfo, rfl⟩ ?_
      intro _
      apply Program.only_bind (informs_sprintfS _ _)
      intro _
      apply Program.only_perform_bind trivial
      intro (found : Option (List Bytes))
      cases found with
      | none => trivial
      | some lstStr => exact informs_sendFriendInfos _ _ _ _

theorem informs_notifyOffline (data : Bytes) (lstStr : List Bytes) :
    (notifyOffline data lstStr).Only (Informs (· = data)) := by
  induction lstStr with
  | nil => trivial
  | cons front lstStr ih =>
      apply Program.only_bind (informs_toInt _)
      intro friendId
      exact Program.only_bind (informs_sendIfOnline _ rfl) fun _ => ih

end Informs

theorem quiet_field {Value : Type} (read : Option Value) : (Handler.field read).Only Quiet := by
  cases read with
  | none => exact ⟨trivial, fun answer => nomatch answer⟩
  | some value => trivial

theorem quiet_sprintfS (size : ℕ) (text : Bytes) : (Handler.sprintfS size text).Only Quiet :=
  (informs_sprintfS size text).mono fun _ (informs : Informs IsUserInfo _) => informs.quiet

theorem quiet_sendIfOnline (id : ℤ) (packet : Bytes) : (sendIfOnline id packet).Only Quiet :=
  (informs_sendIfOnline id rfl).mono fun _ (informs : Informs (packet = ·) _) => informs.quiet

theorem quiet_getUserInfoAndFriendInfo (id : ℤ) : (getUserInfoAndFriendInfo id).Only Quiet :=
  (informs_getUserInfoAndFriendInfo id).mono fun _ => Informs.quiet

theorem quiet_notifyOffline (data : Bytes) (lstStr : List Bytes) :
    (notifyOffline data lstStr).Only Quiet :=
  (informs_notifyOffline data lstStr).mono fun _ => Informs.quiet

/-! ## The law only needs what has been done -/

theorem PasswordMatched.mono {data : Bytes} {history later : History} {id : ℤ}
    (matched : PasswordMatched data history id) (grows : history ⊆ later) :
    PasswordMatched data later id := by
  rcases matched with ⟨tel, password, idText, rest, readTel, readPassword, selected, parsed⟩
  exact ⟨tel, password, idText, rest, readTel, readPassword, grows selected, parsed⟩

theorem InList.mono {history later : History} {id friendId : ℤ}
    (inList : InList history id friendId) (grows : history ⊆ later) : InList later id friendId := by
  rcases inList with ⟨texts, front, selected, member, parsed⟩
  exact ⟨texts, front, grows selected, member, parsed⟩

theorem Seen.mono {history later : History} {info : StruUserInfo} (seen : Seen history info)
    (grows : history ⊆ later) : Seen later info := by
  rcases seen with ⟨online, counted, status⟩
  exact ⟨online, grows counted, status⟩

theorem PassedTo.mono {data : Bytes} {history later : History} {id : ℤ}
    (passed : PassedTo data history id) (grows : history ⊆ later) : PassedTo data later id := by
  cases passed with
  | offlineRq type named listed member parsed =>
      exact .offlineRq type named (grows listed) member parsed
  | chatRq type named => exact .chatRq type named
  | addFriendRq type named found parsed => exact .addFriendRq type named (grows found) parsed
  | addFriendRs type named => exact .addFriendRs type named

theorem Presents.mono {data : Bytes} {history later : History} {id : ℤ}
    (presents : Presents data history id) (grows : history ⊆ later) : Presents data later id := by
  cases presents with
  | login type matched => exact .login type (matched.mono grows)
  | friend type success named => exact .friend type success named

theorem Introduces.mono {history later : History} {presented id : ℤ} {info : StruUserInfo}
    (introduces : Introduces history presented info id) (grows : history ⊆ later) :
    Introduces later presented info id := by
  refine ⟨introduces.range, introduces.seen.mono grows, ?_⟩
  rcases introduces.related with ⟨same, own | inList⟩ | ⟨own, inList⟩
  · exact Or.inl ⟨same, Or.inl own⟩
  · exact Or.inl ⟨same, Or.inr (inList.mono grows)⟩
  · exact Or.inr ⟨own, inList.mono grows⟩

theorem Delivered.mono {data packet : Bytes} {history later : History} {id : ℤ}
    (delivered : Delivered data history id packet) (grows : history ⊆ later) :
    Delivered data later id packet := by
  cases delivered with
  | passedOn addressee => exact .passedOn (addressee.mono grows)
  | told presents introduces => exact .told (presents.mono grows) (introduces.mono grows)

/-- One of the two users is told about himself, or is in the list of the other. -/
theorem Introduces.same_or_inList {history : History} {presented id : ℤ} {info : StruUserInfo}
    (introduces : Introduces history presented info id) :
    info.id = id ∨ InList history id info.id ∨ InList history info.id id := by
  rcases introduces.related with ⟨rfl, own | inList⟩ | ⟨rfl, inList⟩
  · exact Or.inl own
  · exact Or.inr (Or.inl inList)
  · exact Or.inr (Or.inr inList)

theorem Reply.mono {data packet : Bytes} {history later : History}
    (reply : Reply data history packet) (grows : history ⊆ later) :
    Reply data later packet := by
  cases reply with
  | register type rs => exact .register type rs
  | loginFailed type rs failed range => exact .loginFailed type rs failed range
  | login type range matched => exact .login type range (matched.mono grows)
  | addFriendFailed type rs failed range => exact .addFriendFailed type rs failed range
  | chatFailed type rs => exact .chatFailed type rs

/-! ## Types of what the server sends -/

/-- The replies have four types. -/
theorem Reply.packetType_ne_of_notMem {data packet : Bytes} {history : History} {type : ℤ}
    (reply : Reply data history packet)
    (other : type ∉ [defRegisterRs, defLoginRs, defAddFriendRs, defChatRs]) :
    packetType packet ≠ some type := by
  simp only [List.mem_cons, List.not_mem_nil, or_false, not_or] at other
  rcases other with ⟨register, login, addFriend, chat⟩
  cases reply with
  | register => simpa [packetType_registerRs] using Ne.symm register
  | loginFailed => simpa [packetType_loginRs] using Ne.symm login
  | login => simpa [loginSuccess, packetType_loginRs] using Ne.symm login
  | addFriendFailed => simpa [packetType_addFriendRs] using Ne.symm addFriend
  | chatFailed => simpa [packetType_chatRs] using Ne.symm chat

/-- The server makes no replies to an answer. -/
theorem Reply.packetType_data_ne {data packet : Bytes} {history : History}
    (reply : Reply data history packet) : packetType data ≠ some defAddFriendRs := by
  cases reply with
  | register type | loginFailed type | login type | addFriendFailed type | chatFailed type =>
      rw [type]
      decide

theorem Reply.packetType_ne {data packet : Bytes} {history : History}
    (reply : Reply data history packet) : packetType packet ≠ some defAddFriendRq :=
  reply.packetType_ne_of_notMem (by decide)

/-- What is passed on has one of four types. -/
theorem PassedTo.packetType_ne_of_notMem {data : Bytes} {history : History} {id type : ℤ}
    (passed : PassedTo data history id)
    (other : type ∉ [defOfflineRq, defChatRq, defAddFriendRq, defAddFriendRs]) :
    packetType data ≠ some type := by
  simp only [List.mem_cons, List.not_mem_nil, or_false, not_or] at other
  rcases other with ⟨offline, chat, request, answer⟩
  cases passed with
  | offlineRq own => simpa [own] using Ne.symm offline
  | chatRq own => simpa [own] using Ne.symm chat
  | addFriendRq own => simpa [own] using Ne.symm request
  | addFriendRs own => simpa [own] using Ne.symm answer

theorem Delivered.packetType_ne {data packet : Bytes} {history : History} {id : ℤ}
    (delivered : Delivered data history id packet) : packetType packet ≠ some defLoginRs := by
  cases delivered with
  | passedOn addressee => exact addressee.packetType_ne_of_notMem (by decide)
  | told =>
      rw [packetType_userInfo]
      decide

/-! ## Rules for the parts of a handler -/

section AnyLaw

variable {permits : History → Action → Prop} {history : History} {Value : Type}
  {onReturn : History → Value → Prop}

theorem obeys_abort {cause : Cause} (allowed : permits history (.abort cause)) :
    (Handler.abort cause : Handler Value).Obeys permits onReturn history :=
  ⟨allowed, fun answer => nomatch answer⟩

theorem obeys_exit {code : ℤ} (allowed : permits history (.exit code)) :
    (Handler.exit code : Handler Value).Obeys permits onReturn history :=
  ⟨allowed, fun answer => nomatch answer⟩

theorem obeys_field {read : Option Value} (allowed : permits history (.abort .outOfBounds))
    (continues : ∀ value, read = some value → onReturn history value) :
    (Handler.field read).Obeys permits onReturn history := by
  cases read with
  | none => exact obeys_abort allowed
  | some value => exact continues value rfl

theorem obeys_toInt {text : Bytes} {onReturn : History → ℤ → Prop}
    (allowed : permits history (.abort .exception))
    (continues : ∀ value, stoi text = some value → onReturn history value) :
    (Handler.toInt text).Obeys permits onReturn history := by
  simp only [Handler.toInt]
  cases parsed : stoi text with
  | none => exact obeys_abort allowed
  | some value => exact continues value parsed

theorem obeys_sprintfS {size : ℕ} {text : Bytes} {onReturn : History → Bytes → Prop}
    (allowed : permits history (.abort .invalidParameter)) (continues : onReturn history text) :
    (Handler.sprintfS size text).Obeys permits onReturn history := by
  simp only [Handler.sprintfS]
  split
  · exact continues
  · exact obeys_abort allowed

theorem obeys_strcpyS {size : ℕ} {text : Bytes} {onReturn : History → Bytes → Prop}
    (allowed : permits history (.abort .invalidParameter)) (continues : onReturn history text) :
    (Handler.strcpyS size text).Obeys permits onReturn history := by
  simp only [Handler.strcpyS]
  split
  · exact continues
  · exact obeys_abort allowed

theorem obeys_formatS {size : ℕ} {format : Bytes} {onReturn : History → Bytes → Prop}
    (allowed : permits history (.abort .invalidParameter))
    (continues : ∀ text, onReturn history text) :
    (formatS size format).Obeys permits onReturn history := by
  simp only [formatS]
  split
  · exact obeys_sprintfS allowed (continues _)
  · exact obeys_abort allowed

theorem obeys_sendIfOnline {id : ℤ} {packet : Bytes} {onReturn : History → Unit → Prop}
    (reads : ∀ history action, Reads action → permits history action)
    (sends : ∀ later socket, history ⊆ later → LookedUp later id socket →
      permits later (.sendData packet socket))
    (continues : ∀ later, history ⊆ later → onReturn later ()) :
    (sendIfOnline id packet).Obeys permits onReturn history := by
  refine Program.obeys_perform_bind (reads _ _ trivial) fun online => ?_
  cases online with
  | false => exact continues _ (List.subset_cons_self _ _)
  | true =>
      refine Program.obeys_perform_bind (reads _ _ trivial) fun socket => ?_
      have grows : history ⊆ ⟨.socketOf id, socket⟩ :: ⟨.count id, true⟩ :: history := by
        intro performed member
        simp [member]
      refine ⟨sends _ socket grows List.mem_cons_self, fun _ => ?_⟩
      exact continues _ fun _ member => List.mem_cons_of_mem _ (grows member)

theorem obeys_getInfoById {id : ℤ} {info : StruUserInfo} {onReturn : History → StruUserInfo → Prop}
    (reads : ∀ history action, Reads action → permits history action)
    (continues : ∀ later found, history ⊆ later → found.id = id → Seen later found →
      onReturn later found) :
    (getInfoById id info).Obeys permits onReturn history := by
  refine Program.obeys_perform_bind (reads _ _ trivial) fun (online : Bool) => ?_
  refine Program.obeys_bind (obeys_sprintfS (reads _ _ trivial) ?_)
  refine Program.obeys_perform_bind (reads _ _ trivial) fun (found : Option (List Bytes)) => ?_
  have grows : history ⊆ ⟨.select (.userById id) 3, found⟩ :: ⟨.count id, online⟩ :: history := by
    intro performed member
    simp [member]
  have seen (info : StruUserInfo) (same : info.id = id)
      (status : info.status = if online then defStatusOnline else defStatusOffline) :
      Seen (⟨.select (.userById id) 3, found⟩ :: ⟨.count id, online⟩ :: history) info :=
    ⟨online, same ▸ List.mem_cons_of_mem _ List.mem_cons_self, status⟩
  split
  · refine Program.obeys_bind (obeys_strcpyS (reads _ _ trivial) ?_)
    refine Program.obeys_bind (obeys_strcpyS (reads _ _ trivial) ?_)
    exact Program.obeys_bind (obeys_toInt (reads _ _ trivial) fun _ _ =>
      continues _ _ grows rfl (seen _ rfl rfl))
  · exact continues _ _ grows rfl (seen _ rfl rfl)

theorem obeys_sendFriendInfos {id : ℤ} {userInfo : StruUserInfo} {lstStr texts : List Bytes}
    {friendInfo : StruUserInfo} {onReturn : History → Unit → Prop}
    (reads : ∀ history action, Reads action → permits history action)
    (sends : ∀ later info friendId socket, history ⊆ later → LookedUp later friendId socket →
      Introduces later id info friendId → permits later (.sendData info.bytes socket))
    (own : userInfo.id = id) (range : IsInt32 id) (seen : Seen history userInfo)
    (listed : (⟨.select (.friendIds id) 1, some texts⟩ : Performed Action.Answer) ∈ history)
    (within : lstStr ⊆ texts) (continues : ∀ later, history ⊆ later → onReturn later ()) :
    (sendFriendInfos id userInfo lstStr friendInfo).Obeys permits onReturn history := by
  induction lstStr generalizing history friendInfo with
  | nil => exact continues _ (List.Subset.refl _)
  | cons front lstStr ih =>
      refine Program.obeys_bind (obeys_toInt (reads _ _ trivial) fun friendId parsed => ?_)
      have inList : InList history id friendId :=
        ⟨texts, front, listed, within List.mem_cons_self, parsed⟩
      refine Program.obeys_bind
        (obeys_getInfoById reads fun informed found grewFirst same seenFriend => ?_)
      subst same
      refine Program.obeys_bind (obeys_sendIfOnline reads (fun later socket grew lookedUp => ?_)
        fun told grewSecond => ?_)
      · have grewLater : history ⊆ later := fun _ member => grew (grewFirst member)
        exact sends later found id socket grewLater lookedUp ⟨isInt32_of_stoi parsed,
          seenFriend.mono grew, Or.inl ⟨rfl, Or.inr (inList.mono grewLater)⟩⟩
      have grewTold : history ⊆ told := fun _ member => grewSecond (grewFirst member)
      refine Program.obeys_bind (obeys_sendIfOnline reads (fun later socket grew lookedUp => ?_)
        fun notified grewThird => ?_)
      · have grewLater : history ⊆ later := fun _ member => grew (grewTold member)
        exact sends later userInfo found.id socket grewLater lookedUp ⟨own ▸ range,
          seen.mono grewLater, Or.inr ⟨own, inList.mono grewLater⟩⟩
      have grew : history ⊆ notified := fun _ member => grewThird (grewTold member)
      exact ih
        (fun later info friendId socket more =>
          sends later info friendId socket fun _ member => more (grew member))
        (seen.mono grew) (grew listed) (fun _ member => within (List.mem_cons_of_mem _ member))
        fun later more => continues later fun _ member => more (grew member)

/-- Whatever the handler tells users about each other, it has looked at before. -/
theorem obeys_getUserInfoAndFriendInfo {id : ℤ} {onReturn : History → Unit → Prop}
    (reads : ∀ history action, Reads action → permits history action)
    (sends : ∀ later info friendId socket, history ⊆ later → LookedUp later friendId socket →
      Introduces later id info friendId → permits later (.sendData info.bytes socket))
    (range : IsInt32 id) (continues : ∀ later, history ⊆ later → onReturn later ()) :
    (getUserInfoAndFriendInfo id).Obeys permits onReturn history := by
  refine Program.obeys_bind (obeys_getInfoById reads fun informed userInfo grew own seen => ?_)
  refine Program.obeys_perform_bind (reads _ _ trivial) fun online => ?_
  cases online with
  | false => exact obeys_exit (reads _ _ trivial)
  | true =>
      refine Program.obeys_perform_bind (reads _ _ trivial) fun socket => ?_
      have grewMap : informed ⊆ ⟨.socketOf id, socket⟩ :: ⟨.count id, true⟩ :: informed := by
        intro performed member
        simp [member]
      have grewFound : history ⊆ _ := fun _ member => grewMap (grew member)
      refine Program.obeys_perform_bind (sends _ userInfo id socket grewFound List.mem_cons_self
        ⟨own ▸ range, seen.mono grewMap, Or.inl ⟨rfl, Or.inl own⟩⟩) fun _ => ?_
      refine Program.obeys_bind (obeys_sprintfS (reads _ _ trivial) ?_)
      refine Program.obeys_perform_bind (reads _ _ trivial) fun (found : Option (List Bytes)) => ?_
      have grewList : informed ⊆ ⟨.select (.friendIds id) 1, found⟩ ::
          ⟨.sendData userInfo.bytes socket, ()⟩ :: ⟨.socketOf id, socket⟩ ::
            ⟨.count id, true⟩ :: informed := by
        intro performed member
        simp [member]
      have grows : history ⊆ _ := fun _ member => grewList (grew member)
      cases found with
      | none => exact continues _ grows
      | some lstStr =>
          refine obeys_sendFriendInfos reads (fun later info friendId socket more => ?_) own range
            (seen.mono grewList) List.mem_cons_self (List.Subset.refl _) fun later more => ?_
          · exact sends later info friendId socket fun _ member => more (grows member)
          · exact continues later fun _ member => more (grows member)

end AnyLaw

theorem law_of_reads {data : Bytes} {from_ : Handle} (history : History) (action : Action)
    (reads : Reads action) : law data from_ history action := by
  cases action with
  | update stmt => exact reads.elim
  | sendData packet clientId => exact reads.elim
  | setSocket id socket => exact reads.elim
  | erase id => exact reads.elim
  | closesocket socket => exact reads.elim
  | _ => trivial

theorem law_of_passedTo {data : Bytes} {from_ socket : Handle} {history : History} {id : ℤ}
    (passed : PassedTo data history id) (lookedUp : LookedUp history id socket) :
    law data from_ history (.sendData data socket) := Or.inr ⟨id, lookedUp, .passedOn passed⟩

/-! ## The handlers -/

section Handlers

variable {data : Bytes} {from_ : Handle} {history : History}

/-- The handler obeys its law, whatever it is answered. -/
abbrev Lawful (data : Bytes) (from_ : Handle) (prog : Handler Unit) (history : History) : Prop :=
  prog.Obeys (law data from_) (fun _ _ => True) history

theorem lawful_reply {packet : Bytes} (reply : Reply data history packet) :
    Lawful data from_ (Handler.sendData packet from_) history :=
  ⟨Or.inl ⟨rfl, reply⟩, fun _ => trivial⟩

theorem lawful_forward {id : ℤ} (passed : PassedTo data history id) :
    Lawful data from_ (do let socket ← Handler.socketOf id; Handler.sendData data socket)
      history := by
  apply Program.obeys_perform_bind trivial
  intro socket
  have passed := passed.mono (List.subset_cons_self ⟨.socketOf id, socket⟩ _)
  exact ⟨law_of_passedTo passed List.mem_cons_self, fun _ => trivial⟩

theorem lawful_sendIfOnline {id : ℤ} (passed : PassedTo data history id) :
    Lawful data from_ (sendIfOnline id data) history :=
  obeys_sendIfOnline law_of_reads
    (fun _ _ grows lookedUp => law_of_passedTo (passed.mono grows) lookedUp) fun _ _ => trivial

/-- The user is presented by the handler. -/
theorem obeys_getUserInfoAndFriendInfo_of_presents {id : ℤ} {onReturn : History → Unit → Prop}
    (presents : Presents data history id) (range : IsInt32 id)
    (continues : ∀ later, history ⊆ later → onReturn later ()) :
    (getUserInfoAndFriendInfo id).Obeys (law data from_) onReturn history :=
  obeys_getUserInfoAndFriendInfo law_of_reads
    (fun _ _ friendId _ grows lookedUp introduces =>
      Or.inr ⟨friendId, lookedUp, .told (presents.mono grows) introduces⟩) range continues

theorem dealRegisterRq_lawful (type : packetType data = some defRegisterRq) :
    Lawful data from_ (dealRegisterRq data from_) history := by
  refine Program.obeys_bind (obeys_field trivial fun tel _ => ?_)
  refine Program.obeys_bind (obeys_sprintfS trivial ?_)
  apply Program.obeys_perform_bind trivial
  intro (found : Option (List Bytes))
  match found with
  | none => trivial
  | some (_ :: _) => exact lawful_reply (.register type ⟨defRegisterTelExists⟩)
  | some [] =>
      refine Program.obeys_bind (obeys_field trivial fun name _ => ?_)
      refine Program.obeys_bind (obeys_sprintfS trivial ?_)
      apply Program.obeys_perform_bind trivial
      intro (taken : Option (List Bytes))
      match taken with
      | none => trivial
      | some (_ :: _) => exact lawful_reply (.register type _)
      | some [] =>
          refine Program.obeys_bind (obeys_field trivial fun password _ => ?_)
          refine Program.obeys_bind (obeys_sprintfS trivial ?_)
          apply Program.obeys_perform_bind type
          intro (inserted : Bool)
          cases inserted with
          | false => trivial
          | true => exact lawful_reply (.register type _)

theorem dealLoginRq_lawful (type : packetType data = some defLoginRq) :
    Lawful data from_ (dealLoginRq data from_) history := by
  refine Program.obeys_bind (obeys_field trivial fun tel readTel => ?_)
  refine Program.obeys_bind (obeys_field trivial fun rqPassword readPassword => ?_)
  refine Program.obeys_bind (obeys_sprintfS trivial ?_)
  apply Program.obeys_perform_bind trivial
  intro (found : Option (List Bytes))
  match found with
  | none => trivial
  | some [] => exact lawful_reply (.loginFailed type _ (by decide) (by decide))
  | some [_] => exact obeys_abort trivial
  | some (password :: idText :: rest) =>
      refine Program.obeys_bind (obeys_toInt trivial fun id parsed => ?_)
      split
      · rename_i same
        subst same
        have matched : PasswordMatched data
            (⟨.select (.passIdByTel tel) 2, some (password :: idText :: rest)⟩ :: history) id :=
          ⟨tel, password, idText, rest, readTel, readPassword, List.mem_cons_self, parsed⟩
        refine Program.obeys_perform_bind
          (Or.inl ⟨rfl, .login type (isInt32_of_stoi parsed) matched⟩) fun _ => ?_
        refine Program.obeys_perform_bind
          ⟨type, rfl, matched.mono (List.subset_cons_self _ _), List.mem_cons_self⟩ fun _ => ?_
        have presents : Presents data _ id := .login type matched
        refine obeys_getUserInfoAndFriendInfo_of_presents (presents.mono ?_)
          (isInt32_of_stoi parsed) fun _ _ => trivial
        exact fun _ member => List.mem_cons_of_mem _ (List.mem_cons_of_mem _ member)
      · exact lawful_reply (.loginFailed type _ (by decide) (by decide))

theorem obeys_notifyOffline {userId : ℤ} {lstStr texts : List Bytes}
    {onReturn : History → Unit → Prop} (type : packetType data = some defOfflineRq)
    (readUserId : StruOfflineRq.readUserId data = some userId)
    (listed : (⟨.select (.friendIdsOffline userId) 1, some texts⟩ :
      Performed Action.Answer) ∈ history)
    (within : lstStr ⊆ texts) (continues : ∀ later, onReturn later ()) :
    (notifyOffline data lstStr).Obeys (law data from_) onReturn history := by
  induction lstStr generalizing history with
  | nil => exact continues _
  | cons front lstStr ih =>
      refine Program.obeys_bind (obeys_toInt trivial fun friendId parsed => ?_)
      have passed : PassedTo data history friendId :=
        .offlineRq type readUserId listed (within List.mem_cons_self) parsed
      exact Program.obeys_bind (obeys_sendIfOnline law_of_reads
        (fun _ _ grows lookedUp => law_of_passedTo (passed.mono grows) lookedUp)
          fun later grows => ih (grows listed) fun _ member =>
            within (List.mem_cons_of_mem _ member))

theorem removeUser_lawful {userId : ℤ} (type : packetType data = some defOfflineRq)
    (readUserId : StruOfflineRq.readUserId data = some userId) :
    Lawful data from_ (removeUser userId) history := by
  apply Program.obeys_perform_bind trivial
  intro (online : Bool)
  cases online with
  | false => trivial
  | true =>
      apply Program.obeys_perform_bind trivial
      intro socket
      apply Program.obeys_perform_bind ⟨type, userId, readUserId, List.mem_cons_self⟩
      intro _
      refine ⟨⟨type, readUserId, socket, ?_, List.mem_cons_self⟩, fun _ => trivial⟩
      exact List.mem_cons_of_mem _ List.mem_cons_self

theorem dealOfflineRq_lawful (type : packetType data = some defOfflineRq) :
    Lawful data from_ (dealOfflineRq data from_) history := by
  refine Program.obeys_bind (obeys_field trivial fun userId readUserId => ?_)
  refine Program.obeys_bind (obeys_sprintfS trivial ?_)
  apply Program.obeys_perform_bind trivial
  intro (found : Option (List Bytes))
  match found with
  | none => trivial
  | some lstStr =>
      exact Program.obeys_bind (obeys_notifyOffline type readUserId List.mem_cons_self
        (List.Subset.refl _) fun _ => removeUser_lawful type readUserId)

theorem dealChatRq_lawful (type : packetType data = some defChatRq) :
    Lawful data from_ (dealChatRq data from_) history := by
  refine Program.obeys_bind (obeys_field trivial fun friendId readFriendId => ?_)
  apply Program.obeys_perform_bind trivial
  intro (online : Bool)
  cases online with
  | false => exact lawful_reply (.chatFailed type _)
  | true => exact lawful_forward (.chatRq type readFriendId)

theorem dealAddFriendRq_lawful (type : packetType data = some defAddFriendRq) :
    Lawful data from_ (dealAddFriendRq data from_) history := by
  refine Program.obeys_bind (obeys_field trivial fun friendName readFriendName => ?_)
  refine Program.obeys_bind (obeys_sprintfS trivial ?_)
  apply Program.obeys_perform_bind trivial
  intro (found : Option (List Bytes))
  match found with
  | none => trivial
  | some [] =>
      refine Program.obeys_bind (obeys_strcpyS trivial ?_)
      have refuses : defAddFriendNotExists ≠ defAddFriendSuccess := by decide
      have isInt : IsInt32 defAddFriendNotExists := by decide
      exact lawful_reply (.addFriendFailed type _ refuses isInt)
  | some (idText :: _) =>
      refine Program.obeys_bind (obeys_toInt trivial fun friendId parsed => ?_)
      apply Program.obeys_perform_bind trivial
      intro (online : Bool)
      cases online with
      | true =>
          exact lawful_forward (.addFriendRq type readFriendName
            (List.mem_cons_of_mem _ List.mem_cons_self) parsed)
      | false =>
          refine Program.obeys_bind (obeys_formatS trivial fun name => ?_)
          have refuses : defAddFriendOfflien ≠ defAddFriendSuccess := by decide
          have isInt : IsInt32 defAddFriendOfflien := by decide
          exact lawful_reply (.addFriendFailed type _ refuses isInt)

theorem dealAddFriendRs_lawful (type : packetType data = some defAddFriendRs) :
    Lawful data from_ (dealAddFriendRs data from_) history := by
  refine Program.obeys_bind (obeys_field trivial fun result readResult => ?_)
  refine Program.obeys_bind (obeys_field trivial fun friendId readFriendId => ?_)
  have forwards (later : History) : Lawful data from_ (sendIfOnline friendId data) later :=
    lawful_sendIfOnline (.addFriendRs type readFriendId)
  split
  · rename_i success
    subst success
    refine Program.obeys_bind (obeys_field trivial fun userId readUserId => ?_)
    have befriends {idA idB : ℤ} (pair : (idA = friendId ∧ idB = userId) ∨
        (idA = userId ∧ idB = friendId)) : Befriends data idA idB :=
      ⟨type, readResult, friendId, userId, readFriendId, readUserId, pair⟩
    refine Program.obeys_bind (obeys_sprintfS trivial ?_)
    apply Program.obeys_perform_bind (befriends (Or.inl ⟨rfl, rfl⟩))
    intro (first : Bool)
    cases first with
    | false => trivial
    | true =>
        refine Program.obeys_bind (obeys_sprintfS trivial ?_)
        apply Program.obeys_perform_bind (befriends (Or.inr ⟨rfl, rfl⟩))
        intro (second : Bool)
        cases second with
        | false => trivial
        | true =>
            exact Program.obeys_bind (obeys_getUserInfoAndFriendInfo_of_presents
              (.friend type readResult readFriendId) (isInt32_of_readInt32 readFriendId)
              fun later _ => forwards later)
  · exact forwards history

theorem mArrFun_cases {type : ℤ} {pf : Received Handler → Handle → Handler Unit}
    (entered : Received.mArrFun Handler (type - defProtocolBase - 1) = some pf) :
    (type = defRegisterRq ∧ pf = Received.dealRegisterRq) ∨
      (type = defLoginRq ∧ pf = Received.dealLoginRq) ∨
        (type = defOfflineRq ∧ pf = Received.dealOfflineRq) ∨
          (type = defChatRq ∧ pf = Received.dealChatRq) ∨
            (type = defAddFriendRq ∧ pf = Received.dealAddFriendRq) ∨
              (type = defAddFriendRs ∧ pf = Received.dealAddFriendRs) := by
  simp only [Received.mArrFun, sub_left_inj] at entered
  split at entered
  · exact .inl ⟨‹_›, (Option.some.inj entered).symm⟩
  split at entered
  · exact .inr (.inl ⟨‹_›, (Option.some.inj entered).symm⟩)
  split at entered
  · exact .inr (.inr (.inl ⟨‹_›, (Option.some.inj entered).symm⟩))
  split at entered
  · exact .inr (.inr (.inr (.inl ⟨‹_›, (Option.some.inj entered).symm⟩)))
  split at entered
  · exact .inr (.inr (.inr (.inr (.inl ⟨‹_›, (Option.some.inj entered).symm⟩))))
  split at entered
  · exact .inr (.inr (.inr (.inr (.inr ⟨‹_›, (Option.some.inj entered).symm⟩))))
  · simp at entered

/-- Every handler obeys the law, in every environment. -/
theorem dealData_lawful (data : Bytes) (from_ : Handle) (history : History) :
    Lawful data from_ (dealData data from_) history := by
  refine Program.obeys_bind (obeys_field trivial fun type readType => ?_)
  simp only
  split
  · cases entered : Received.mArrFun Handler (type - defProtocolBase - 1) with
    | none => trivial
    | some pf =>
        rcases mArrFun_cases entered with ⟨rfl, rfl⟩ | ⟨rfl, rfl⟩ | ⟨rfl, rfl⟩ | ⟨rfl, rfl⟩ |
          ⟨rfl, rfl⟩ | ⟨rfl, rfl⟩
        · exact dealRegisterRq_lawful readType
        · exact dealLoginRq_lawful readType
        · exact dealOfflineRq_lawful readType
        · exact dealChatRq_lawful readType
        · exact dealAddFriendRq_lawful readType
        · exact dealAddFriendRs_lawful readType
  · trivial

end Handlers

end InstanceMessage
