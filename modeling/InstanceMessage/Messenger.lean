import InstanceMessage.Protocol
import Mathlib.Data.List.Count
import Mathlib.Logic.Function.Basic

/-!
# What the server is for

A messenger: users have accounts with numbers and names of their own, some of
them are online at an address, and friendship is mutual. What must not be lost
is part of the state, so an operation that loses it cannot be written down.

`Messenger.Serves` says what a packet leads to: the next state, and what is
done in which order. It knows nothing of SQL, of threads and buffers, or of how
the server finds what it needs.
-/

namespace InstanceMessage

open Library

structure Account where
  name : Bytes
  tel : Bytes
  pass : Bytes
  feeling : Bytes
  iconId : ℤ
  deriving DecidableEq

inductive Notice
  | register (rs : StruRegisterRs)
  | login (rs : StruLoginRs)
  | userInfo (info : StruUserInfo)
  | chat (rs : StruChatRs)
  | addFriend (rs : StruAddFriendRs)
  /-- The packet of the request itself. -/
  | forward (data : Bytes)
  deriving DecidableEq

def Notice.bytes : Notice → Bytes
  | .register rs => rs.bytes
  | .login rs => rs.bytes
  | .userInfo info => info.bytes
  | .chat rs => rs.bytes
  | .addFriend rs => rs.bytes
  | .forward data => data

inductive Deed (Address : Type)
  | tell (address : Address) (notice : Notice)
  | hangUp (address : Address)
  deriving DecidableEq

/-! ## The state of the messenger -/

/-- No account has this text in the field. -/
def Free (account : ℤ → Option Account) (field : Account → Bytes) (text : Bytes) : Prop :=
  ∀ id found, account id = some found → field found ≠ text

/-- Different users have different texts in the field. -/
def Own (account : ℤ → Option Account) (field : Account → Bytes) : Prop :=
  ∀ id other found another, account id = some found → account other = some another →
    field found = field another → id = other

theorem Own.update {account : ℤ → Option Account} {field : Account → Bytes}
    (own : Own account field) (id : ℤ) {new : Account} (free : Free account field (field new)) :
    Own (Function.update account id (some new)) field := by
  intro first second found another hasFirst hasSecond same
  rcases eq_or_ne first id with rfl | old <;> rcases eq_or_ne second first with rfl | different
  · rfl
  · rw [Function.update_self, Option.some.injEq] at hasFirst
    rw [Function.update_of_ne different] at hasSecond
    exact absurd (hasFirst ▸ same.symm) (free second another hasSecond)
  · rfl
  · rw [Function.update_of_ne old] at hasFirst
    rcases eq_or_ne second id with rfl | older
    · rw [Function.update_self, Option.some.injEq] at hasSecond
      exact absurd (hasSecond ▸ same) (free first found hasFirst)
    · rw [Function.update_of_ne older] at hasSecond
      exact own first second found another hasFirst hasSecond same

structure Messenger (Address : Type) where
  account : ℤ → Option Account
  /-- The friends of a user, in the order in which they have become friends. -/
  friends : ℤ → List ℤ
  online : ℤ → Option Address
  ownTel : Own account Account.tel
  ownName : Own account Account.name
  mutual_ : ∀ id other, (friends id).count other = (friends other).count id
  registered : ∀ id, (online id).isSome → (account id).isSome

namespace Messenger

variable {Address : Type} (messenger : Messenger Address)

/-! ## Operations -/

def enrol (id : ℤ) (new : Account) (tel : Free messenger.account Account.tel new.tel)
    (name : Free messenger.account Account.name new.name) : Messenger Address :=
  { messenger with
    account := Function.update messenger.account id (some new)
    ownTel := messenger.ownTel.update id tel
    ownName := messenger.ownName.update id name
    registered := by
      intro user isOnline
      rcases eq_or_ne user id with rfl | other
      · simp
      · rw [Function.update_of_ne other]
        exact messenger.registered user isOnline }

def logIn (id : ℤ) (address : Address) (known : (messenger.account id).isSome) :
    Messenger Address :=
  { messenger with
    online := Function.update messenger.online id (some address)
    registered := by
      intro user isOnline
      rcases eq_or_ne user id with rfl | other
      · exact known
      · rw [Function.update_of_ne other] at isOnline
        exact messenger.registered user isOnline }

def logOut (id : ℤ) : Messenger Address :=
  { messenger with
    online := Function.update messenger.online id none
    registered := by
      intro user isOnline
      rcases eq_or_ne user id with rfl | other
      · simp at isOnline
      · rw [Function.update_of_ne other] at isOnline
        exact messenger.registered user isOnline }

/-- The friends of the user when these two become friends. -/
def friendsWith (friends : ℤ → List ℤ) (friendId userId id : ℤ) : List ℤ :=
  friends id ++ ((if id = friendId then [userId] else []) ++
    (if id = userId then [friendId] else []))

theorem count_friendsWith (friends : ℤ → List ℤ) (friendId userId id other : ℤ) :
    (friendsWith friends friendId userId id).count other = (friends id).count other +
      ((if id = friendId ∧ other = userId then 1 else 0) +
        (if id = userId ∧ other = friendId then 1 else 0)) := by
  have count (asked : Prop) [Decidable asked] (added : ℤ) :
      (if asked then [added] else []).count other = if asked ∧ other = added then 1 else 0 := by
    by_cases holds : asked
    · simp [holds, List.count_singleton, @eq_comm _ other]
    · simp [holds]
  simp only [friendsWith, List.count_append, count]

def befriend (friendId userId : ℤ) : Messenger Address :=
  { messenger with
    friends := friendsWith messenger.friends friendId userId
    mutual_ := by
      intro id other
      simp only [count_friendsWith, messenger.mutual_ id other, and_comm, add_comm] }

/-! ## What users are told about each other -/

def status (id : ℤ) : ℤ :=
  if (messenger.online id).isSome then defStatusOnline else defStatusOffline

/-- The user's card: number, picture, status, name and feeling. -/
def card (id : ℤ) (account : Account) : StruUserInfo :=
  ⟨id, account.iconId, messenger.status id, account.name, account.feeling⟩

/-- The card shows a registered user as he is. What it shows of a user without an account is
left open. -/
def Shows (id : ℤ) (info : StruUserInfo) : Prop :=
  ∀ account, messenger.account id = some account → info = messenger.card id account

/-- The user at the address gets his own card and those of his friends, and each friend who is
online gets the user's. -/
inductive Introductions (address : Address) (own : StruUserInfo) :
    List ℤ → List (Deed Address) → Prop
  | nil : Introductions address own [] []
  | cons {friendId : ℤ} {friendIds : List ℤ} {info : StruUserInfo} {deeds : List (Deed Address)}
      (shows_ : messenger.Shows friendId info)
      (others : Introductions address own friendIds deeds) :
      Introductions address own (friendId :: friendIds)
        (.tell address (.userInfo info) ::
          ((messenger.online friendId).map fun other => .tell other (.userInfo own)).toList ++
            deeds)

/-- The user's friends who are online get the packet. -/
def farewells (id : ℤ) (data : Bytes) : List (Deed Address) :=
  (messenger.friends id).filterMap fun friendId =>
    (messenger.online friendId).map fun address => .tell address (.forward data)

/-! ## Requests -/

/-- What a packet from the address leads to. -/
inductive Serves (from_ : Address) (data : Bytes) : Messenger Address → List (Deed Address) → Prop
  | telExists {tel : Bytes} {id : ℤ} {account : Account}
      (type : packetType data = some defRegisterRq) (asked : StruRegisterRq.readTel data = some tel)
      (known : messenger.account id = some account) (taken : account.tel = tel) :
      Serves from_ data messenger [.tell from_ (.register ⟨defRegisterTelExists⟩)]
  | nameExists {tel name : Bytes} {id : ℤ} {account : Account}
      (type : packetType data = some defRegisterRq) (asked : StruRegisterRq.readTel data = some tel)
      (named : StruRegisterRq.readName data = some name)
      (free : Free messenger.account Account.tel tel)
      (known : messenger.account id = some account) (taken : account.name = name) :
      Serves from_ data messenger [.tell from_ (.register ⟨defRegisterNameExists⟩)]
  | registered {id : ℤ} {new : Account} (type : packetType data = some defRegisterRq)
      (asked : StruRegisterRq.readTel data = some new.tel)
      (named : StruRegisterRq.readName data = some new.name)
      (password : StruRegisterRq.readPassword data = some new.pass)
      (fresh : messenger.account id = none) (telFree : Free messenger.account Account.tel new.tel)
      (nameFree : Free messenger.account Account.name new.name) :
      Serves from_ data (messenger.enrol id new telFree nameFree)
        [.tell from_ (.register ⟨defRigisterSuccess⟩)]
  | notRegistered {tel : Bytes} (type : packetType data = some defLoginRq)
      (asked : StruLoginRq.readTel data = some tel)
      (free : Free messenger.account Account.tel tel) :
      Serves from_ data messenger [.tell from_ (.login { result := defLoginTelNotRegister })]
  | wrongPassword {password : Bytes} {id : ℤ} {account : Account}
      (type : packetType data = some defLoginRq)
      (asked : StruLoginRq.readTel data = some account.tel)
      (given : StruLoginRq.readPassword data = some password)
      (known : messenger.account id = some account) (other : account.pass ≠ password) :
      Serves from_ data messenger [.tell from_ (.login { result := defLoginPasswordError })]
  | loggedIn {id : ℤ} {account : Account} {deeds : List (Deed Address)}
      (type : packetType data = some defLoginRq)
      (asked : StruLoginRq.readTel data = some account.tel)
      (given : StruLoginRq.readPassword data = some account.pass)
      (known : messenger.account id = some account) (isKnown : (messenger.account id).isSome)
      (introduced : (messenger.logIn id from_ isKnown).Introductions from_
        ((messenger.logIn id from_ isKnown).card id account) (messenger.friends id) deeds) :
      Serves from_ data (messenger.logIn id from_ isKnown)
        (.tell from_ (.login { result := defLoginSuccess, id := id }) ::
          .tell from_ (.userInfo ((messenger.logIn id from_ isKnown).card id account)) :: deeds)
  | leftOnline {userId : ℤ} {address : Address} (type : packetType data = some defOfflineRq)
      (asked : StruOfflineRq.readUserId data = some userId)
      (online : messenger.online userId = some address) :
      Serves from_ data (messenger.logOut userId)
        (messenger.farewells userId data ++ [.hangUp address])
  | leftOffline {userId : ℤ} (type : packetType data = some defOfflineRq)
      (asked : StruOfflineRq.readUserId data = some userId)
      (offline : messenger.online userId = none) :
      Serves from_ data messenger (messenger.farewells userId data)
  | delivered {friendId : ℤ} {address : Address} (type : packetType data = some defChatRq)
      (asked : StruChatRq.readFriendId data = some friendId)
      (online : messenger.online friendId = some address) :
      Serves from_ data messenger [.tell address (.forward data)]
  | undelivered {friendId : ℤ} (type : packetType data = some defChatRq)
      (asked : StruChatRq.readFriendId data = some friendId)
      (offline : messenger.online friendId = none) :
      Serves from_ data messenger
        [.tell from_ (.chat { result := defSendError, friendId := friendId })]
  | unknownName {friendName : Bytes} (type : packetType data = some defAddFriendRq)
      (asked : StruAddFriendRq.readFriendName data = some friendName)
      (free : Free messenger.account Account.name friendName) :
      Serves from_ data messenger
        [.tell from_ (.addFriend { result := defAddFriendNotExists, friendName := friendName })]
  | asked {id : ℤ} {account : Account} {address : Address}
      (type : packetType data = some defAddFriendRq)
      (asked : StruAddFriendRq.readFriendName data = some account.name)
      (known : messenger.account id = some account)
      (online : messenger.online id = some address) :
      Serves from_ data messenger [.tell address (.forward data)]
  /-- A name with a percent sign need not come back as it is. -/
  | away {text : Bytes} {id : ℤ} {account : Account} (type : packetType data = some defAddFriendRq)
      (asked : StruAddFriendRq.readFriendName data = some account.name)
      (known : messenger.account id = some account) (offline : messenger.online id = none)
      (echoes : 37 ∉ account.name → text = account.name) :
      Serves from_ data messenger
        [.tell from_ (.addFriend { result := defAddFriendOfflien, friendName := text })]
  | agreed {friendId userId : ℤ} {address : Address} {account : Account}
      {deeds : List (Deed Address)} (type : packetType data = some defAddFriendRs)
      (answer : StruAddFriendRs.readResult data = some defAddFriendSuccess)
      (asked : StruAddFriendRs.readFriendId data = some friendId)
      (answers : StruAddFriendRs.readUserId data = some userId)
      (online : messenger.online friendId = some address)
      (known : messenger.account friendId = some account)
      (introduced : (messenger.befriend friendId userId).Introductions address
        (messenger.card friendId account) ((messenger.befriend friendId userId).friends friendId)
        deeds) :
      Serves from_ data (messenger.befriend friendId userId)
        (.tell address (.userInfo (messenger.card friendId account)) :: deeds ++
          [.tell address (.forward data)])
  | refused {result friendId : ℤ} (type : packetType data = some defAddFriendRs)
      (answer : StruAddFriendRs.readResult data = some result)
      (other : result ≠ defAddFriendSuccess)
      (asked : StruAddFriendRs.readFriendId data = some friendId) :
      Serves from_ data messenger
        ((messenger.online friendId).map fun address => .tell address (.forward data)).toList
  | unknown {type : ℤ} (typed : packetType data = some type)
      (other : type ∉ [defRegisterRq, defLoginRq, defOfflineRq, defChatRq, defAddFriendRq,
        defAddFriendRs]) :
      Serves from_ data messenger []

/-! ## Packets one after the other -/

/-- A packet with the address from which it comes, and what is done about it. -/
structure Exchange (Address : Type) where
  packet : Bytes × Address
  deeds : List (Deed Address)

/-- What the packets lead to, each in the state that the ones before it have left. -/
inductive Served : Messenger Address → List (Exchange Address) → Messenger Address → Prop
  | nil (messenger : Messenger Address) : Served messenger [] messenger
  | cons {messenger next final : Messenger Address} {exchange : Exchange Address}
      {exchanges : List (Exchange Address)}
      (serves : messenger.Serves exchange.packet.2 exchange.packet.1 next exchange.deeds)
      (served : Served next exchanges final) :
      Served messenger (exchange :: exchanges) final

end Messenger

end InstanceMessage
