import InstanceMessage.Messenger
import InstanceMessage.Server.Echoes
import InstanceMessage.Server.Sequence

/-!
# The server is a messenger

The tables and the map of the server stand for a messenger (`State.Represents`),
and what a handler does between two quiet states is what the messenger does
with the packet, with the same notices in the same order. There is one lemma for
each function of the kernel. A run that handles one packet after the other is
then a run of the messenger, over the packets in the order in which they have
arrived.
-/

namespace InstanceMessage

open Library Handler

def UserRow.account (row : UserRow) : Account :=
  ⟨row.name, row.tel, row.pass, row.feeling, row.iconId⟩

def Deed.action : Deed Handle → Action
  | .tell address notice => .sendData notice.bytes address
  | .hangUp address => .closesocket address

namespace State

theorem mem_of_filter_eq_cons {Item : Type} {items others : List Item} {item : Item}
    {test : Item → Prop} [DecidablePred test] (filtered : items.filter test = item :: others) :
    item ∈ items ∧ test item := by
  have listed : item ∈ items.filter test := filtered ▸ List.mem_cons_self
  simpa using listed

/-- The tables and the map stand for the messenger's accounts, friends and addresses. -/
structure Represents (state : State) (messenger : Messenger Handle) : Prop where
  ids : (state.tUser.map UserRow.id).Nodup
  account : ∀ id account, messenger.account id = some account ↔
    ∃ row ∈ state.tUser, row.id = id ∧ row.account = account
  friends : ∀ id, messenger.friends id = (state.tFriend.filter (·.1 = id)).map Prod.snd
  online : messenger.online = state.mMapIdToSocket

section Represents

variable {state other final : State} {messenger : Messenger Handle} {history later : History}

theorem Represents.congr (represents : state.Represents messenger) (same : SameTables state other) :
    other.Represents messenger where
  ids := same.tUser ▸ represents.ids
  account := same.tUser ▸ represents.account
  friends := same.tFriend ▸ represents.friends
  online := same.mMapIdToSocket ▸ represents.online

theorem Represents.known (represents : state.Represents messenger) {row : UserRow}
    (member : row ∈ state.tUser) : messenger.account row.id = some row.account :=
  (represents.account row.id row.account).mpr ⟨row, member, rfl, rfl⟩

/-- A column of the users holds a text when an account has it. -/
theorem Represents.free_iff (represents : state.Represents messenger) (field : Account → Bytes)
    (column : UserRow → Bytes) (sameField : ∀ row : UserRow, field row.account = column row)
    (text : Bytes) :
    Free messenger.account field text ↔ state.tUser.filter (fun row => column row = text) = [] := by
  simp only [List.filter_eq_nil_iff, decide_eq_true_eq]
  constructor
  · intro free row member taken
    exact free row.id row.account (represents.known member) (by rw [sameField, taken])
  · intro free id account known taken
    rcases (represents.account id account).mp known with ⟨row, member, rfl, rfl⟩
    exact free row member (by rw [← sameField, taken])

/-- The rows with the id of a user are his row. -/
theorem Represents.filter_id (represents : state.Represents messenger) {row : UserRow}
    (member : row ∈ state.tUser) : state.tUser.filter (·.id = row.id) = [row] := by
  have unique := represents.ids
  generalize state.tUser = rows at member unique
  induction rows with
  | nil => simp at member
  | cons first rows ih =>
      rw [List.map_cons, List.nodup_cons] at unique
      rcases List.mem_cons.mp member with rfl | behind
      · rw [List.filter_cons_of_pos (by simp), List.cons.injEq, List.filter_eq_nil_iff]
        refine ⟨rfl, fun other others => ?_⟩
        rw [decide_eq_true_eq]
        exact fun same => unique.1 (same ▸ List.mem_map_of_mem others)
      · rw [List.filter_cons_of_neg, ih behind unique.2]
        rw [decide_eq_true_eq]
        exact fun same => unique.1 (same ▸ List.mem_map_of_mem behind)

/-! ## Functions that the handlers share -/

theorem deals_getInfoById (represents : state.Represents messenger) {id : ℤ}
    {info shown : StruUserInfo}
    (deals : Deals state history (getInfoById id info) final later shown) :
    final = state ∧ deedsOf later = deedsOf history ∧ messenger.Shows id shown := by
  have deals := deals.of_count.of_sprintfS.of_select
  simp only [rows] at deals
  have status : (if (state.mMapIdToSocket id).isSome then defStatusOnline else defStatusOffline) =
      messenger.status id := by
    rw [Messenger.status, represents.online]
  rcases found : state.tUser.filter (·.id = id) with _ | ⟨row, others⟩
  · simp only [found, List.map_nil, List.flatten_nil] at deals
    rcases deals.of_ret with ⟨rfl, rfl, rfl⟩
    refine ⟨rfl, by simp [deedsOf_cons, Action.IsDeed], fun account known => ?_⟩
    rcases (represents.account id account).mp known with ⟨row, member, rfl, rfl⟩
    simp [represents.filter_id member] at found
  · rcases mem_of_filter_eq_cons found with ⟨member, rfl⟩
    rw [represents.filter_id member] at found
    rcases List.cons.inj found with ⟨_, rfl⟩
    simp only [represents.filter_id member, List.map_cons, List.map_nil, List.flatten_cons,
      List.flatten_nil, List.append_nil] at deals
    rcases deals.of_strcpyS.of_strcpyS.of_toInt with ⟨iconId, parsed, goesOn⟩
    rcases goesOn.of_ret with ⟨rfl, rfl, rfl⟩
    refine ⟨rfl, by simp [deedsOf_cons, Action.IsDeed], fun account known => ?_⟩
    rw [represents.known member, Option.some.injEq] at known
    rw [← known, eq_of_stoi_decimal parsed, status]
    rfl

theorem deals_sendData {data : Bytes} {clientId : Handle}
    (deals : Deals state history (Handler.sendData data clientId) final later ()) :
    SameTables state final ∧ deedsOf later = deedsOf history ++ [.sendData data clientId] := by
  rcases deals.of_act with ⟨_, _, _, _, performed, returns⟩
  rcases Prod.mk.inj (Option.some.inj performed) with ⟨rfl, rfl⟩
  rcases returns.of_ret with ⟨rfl, rfl, _⟩
  exact ⟨.sendData state data clientId _, by simp [deedsOf_cons, Action.IsDeed]⟩

theorem deals_sendIfOnline (represents : state.Represents messenger) {id : ℤ} {data : Bytes}
    (deals : Deals state history (sendIfOnline id data) final later ()) :
    SameTables state final ∧ deedsOf later = deedsOf history ++
      ((messenger.online id).map fun address => Action.sendData data address).toList := by
  have deals := deals.of_count
  rw [represents.online]
  cases entered : state.mMapIdToSocket id with
  | none =>
      simp only [entered, Option.isSome_none, Bool.false_eq_true, if_false] at deals
      rcases deals.of_ret with ⟨rfl, rfl, _⟩
      exact ⟨.refl _, by simp [deedsOf_cons, Action.IsDeed]⟩
  | some socket =>
      simp only [entered, Option.isSome_some, if_true] at deals
      rcases deals_sendData (deals.of_socketOf entered) with ⟨same, deed⟩
      exact ⟨same, by simp [deed, deedsOf_cons, Action.IsDeed]⟩

theorem deals_sendFriendInfos (represents : state.Represents messenger) {id : ℤ} {address : Handle}
    (online : messenger.online id = some address) {own info : StruUserInfo} {friendIds : List ℤ}
    (deals : Deals state history (sendFriendInfos id own (friendIds.map decimal) info) final later
      ()) :
    SameTables state final ∧ ∃ deeds, messenger.Introductions address own friendIds deeds ∧
      deedsOf later = deedsOf history ++ deeds.map Deed.action := by
  induction friendIds generalizing state history info with
  | nil =>
      rcases deals.of_ret with ⟨rfl, rfl, _⟩
      exact ⟨.refl _, [], .nil, by simp⟩
  | cons friendId friendIds ih =>
      rcases Deals.of_toInt deals with ⟨parsed, read, getting⟩
      rw [eq_of_stoi_decimal read] at getting
      rcases getting.of_bind with ⟨_, _, shown, getsInfo, toOwn⟩
      rcases deals_getInfoById represents getsInfo with ⟨rfl, noDeed, shows_⟩
      rcases toOwn.of_bind with ⟨_, _, ⟨⟩, tellsOwn, toFriend⟩
      rcases deals_sendIfOnline represents tellsOwn with ⟨sameOwn, ownDeed⟩
      rcases toFriend.of_bind with ⟨_, _, ⟨⟩, tellsFriend, others⟩
      have represented := represents.congr sameOwn
      rcases deals_sendIfOnline represented tellsFriend with ⟨sameFriend, friendDeed⟩
      rcases ih (represented.congr sameFriend) others with ⟨same, deeds, introduces, deedsLater⟩
      refine ⟨sameOwn.trans (sameFriend.trans same), _, .cons shows_ introduces, ?_⟩
      rw [deedsLater, friendDeed, ownDeed, noDeed, online]
      cases messenger.online friendId <;> simp [Deed.action, Notice.bytes]

/-- Without an entry in the map the server exits. -/
theorem deals_getUserInfoAndFriendInfo (represents : state.Represents messenger) {id : ℤ}
    (deals : Deals state history (getUserInfoAndFriendInfo id) final later ()) :
    ∃ address own deeds, messenger.online id = some address ∧ messenger.Shows id own ∧
      messenger.Introductions address own (messenger.friends id) deeds ∧ SameTables state final ∧
        deedsOf later = deedsOf history ++
          (.tell address (.userInfo own) :: deeds).map Deed.action := by
  rcases deals.of_bind with ⟨middle, between, own, getsInfo, counts⟩
  rcases deals_getInfoById represents getsInfo with ⟨rfl, noDeed, shows_⟩
  have counted := counts.of_count
  cases entered : middle.mMapIdToSocket id with
  | none =>
      simp only [entered, Option.isSome_none, Bool.false_eq_true, if_false] at counted
      rcases counted.of_act with ⟨_, _, answer, _⟩
      exact answer.elim
  | some socket =>
      simp only [entered, Option.isSome_some, if_true] at counted
      have online : messenger.online id = some socket := by rw [represents.online, entered]
      rcases (counted.of_socketOf entered).of_sendData with ⟨taken, lists⟩
      have lists := lists.of_sprintfS.of_select
      have same := SameTables.sendData middle own.bytes socket taken
      have column : ((middle.sendData own.bytes socket taken).rows (.friendIds id)).flatten =
          (messenger.friends id).map decimal := by
        rw [same.rows, represents.friends, rows, ← List.flatMap_def, ← List.map_eq_flatMap,
          List.map_map]
        rfl
      simp only [column] at lists
      rcases deals_sendFriendInfos (represents.congr same) online lists with
        ⟨others, deeds, introduces, deedsLater⟩
      refine ⟨socket, own, deeds, online, shows_, introduces, same.trans others, ?_⟩
      rw [deedsLater]
      simp [deedsOf_cons, Action.IsDeed, noDeed, Deed.action, Notice.bytes]

theorem deals_notifyOffline (represents : state.Represents messenger) {data : Bytes}
    {friendIds : List ℤ}
    (deals : Deals state history (notifyOffline data (friendIds.map decimal)) final later ()) :
    SameTables state final ∧ deedsOf later = deedsOf history ++
      (friendIds.filterMap fun friendId =>
        (messenger.online friendId).map fun address =>
          Deed.tell address (.forward data)).map Deed.action := by
  induction friendIds generalizing state history with
  | nil =>
      rcases deals.of_ret with ⟨rfl, rfl, _⟩
      exact ⟨.refl _, by simp⟩
  | cons friendId friendIds ih =>
      rcases Deals.of_toInt deals with ⟨parsed, read, telling⟩
      rw [eq_of_stoi_decimal read] at telling
      rcases telling.of_bind with ⟨_, _, ⟨⟩, tells, others⟩
      rcases deals_sendIfOnline represents tells with ⟨sameFirst, firstDeed⟩
      rcases ih (represents.congr sameFirst) others with ⟨same, deedsLater⟩
      refine ⟨sameFirst.trans same, ?_⟩
      rw [deedsLater, firstDeed]
      cases entered : messenger.online friendId <;>
        simp [entered, Deed.action, Notice.bytes]

theorem deals_removeUser {userId : ℤ}
    (deals : Deals state history (removeUser userId) final later ()) :
    final.tUser = state.tUser ∧ final.tFriend = state.tFriend ∧
      (state.mMapIdToSocket userId = none ∧ final.mMapIdToSocket = state.mMapIdToSocket ∧
          deedsOf later = deedsOf history ∨
        ∃ socket, state.mMapIdToSocket userId = some socket ∧
          final.mMapIdToSocket = Function.update state.mMapIdToSocket userId none ∧
          deedsOf later = deedsOf history ++ [.closesocket socket]) := by
  have counting := deals.of_count
  cases entered : state.mMapIdToSocket userId with
  | none =>
      simp only [entered, Option.isSome_none, Bool.false_eq_true, if_false] at counting
      rcases counting.of_ret with ⟨rfl, rfl, _⟩
      exact ⟨rfl, rfl, Or.inl ⟨rfl, rfl, by simp [deedsOf_cons, Action.IsDeed]⟩⟩
  | some socket =>
      simp only [entered, Option.isSome_some, if_true] at counting
      rcases (counting.of_socketOf entered).of_act with ⟨_, _, _, _, closed, erasing⟩
      rcases Prod.mk.inj (Option.some.inj closed) with ⟨rfl, _⟩
      rcases erasing.of_act with ⟨_, _, _, _, erased, returning⟩
      rcases Prod.mk.inj (Option.some.inj erased) with ⟨rfl, _⟩
      rcases returning.of_ret with ⟨rfl, rfl, _⟩
      exact ⟨rfl, rfl, Or.inr ⟨socket, rfl, rfl, by simp [deedsOf_cons, Action.IsDeed]⟩⟩

end Represents

/-! ## Handlers -/

/-- The messenger can do what the server has done about the packet. -/
def Matched (messenger : Messenger Handle) (data : Bytes) (from_ : Handle) (final : State)
    (history : History) : Prop :=
  ∃ next deeds, messenger.Serves from_ data next deeds ∧ final.Represents next ∧
    deedsOf history = deeds.map Deed.action

section Handlers

variable {state final : State} {messenger : Messenger Handle} {history : History} {data : Bytes}
  {from_ : Handle}

theorem Matched.of_sendData (represents : state.Represents messenger) {before : History}
    {address : Handle} {notice : Notice} (silent : deedsOf before = [])
    (serves : messenger.Serves from_ data messenger [.tell address notice])
    (deals : Deals state before (Handler.sendData notice.bytes address) final history ()) :
    Matched messenger data from_ final history := by
  rcases deals_sendData deals with ⟨same, deed⟩
  exact ⟨messenger, _, serves, represents.congr same, by rw [deed, silent]; rfl⟩

theorem Represents.enrol (represents : state.Represents messenger) {rowId : ℤ}
    {name tel : Bytes} (password : Bytes) (fresh : ∀ row ∈ state.tUser, row.id ≠ rowId)
    (telFree : Free messenger.account Account.tel tel)
    (nameFree : Free messenger.account Account.name name) :
    messenger.account rowId = none ∧
      (state.updated rowId (.insertUser name tel password)).Represents
        (messenger.enrol rowId ⟨name, tel, password, defaultFeeling, 4⟩ telFree nameFree) := by
  refine ⟨?_, ?_, ?_, represents.friends, represents.online⟩
  · rw [Option.eq_none_iff_forall_ne_some]
    intro account known
    rcases (represents.account rowId account).mp known with ⟨row, member, same, _⟩
    exact fresh row member same
  · simp only [State.updated, List.map_append, List.map_cons, List.map_nil]
    refine List.nodup_append.mpr ⟨represents.ids, List.nodup_singleton _, ?_⟩
    intro id old other new
    rcases List.mem_map.mp old with ⟨row, member, rfl⟩
    rw [List.mem_singleton.mp new]
    exact fresh row member
  · intro id account
    simp only [State.updated, Messenger.enrol, List.mem_append, List.mem_singleton]
    rcases eq_or_ne id rowId with rfl | other
    · rw [Function.update_self, Option.some.injEq]
      constructor
      · rintro rfl
        exact ⟨_, Or.inr rfl, rfl, rfl⟩
      · rintro ⟨row, old | rfl, same, rfl⟩
        · exact absurd same (fresh row old)
        · rfl
    · rw [Function.update_of_ne other, represents.account]
      constructor
      · rintro ⟨row, member, same, rfl⟩
        exact ⟨row, Or.inl member, same, rfl⟩
      · rintro ⟨row, old | rfl, same, rfl⟩
        · exact ⟨row, old, same, rfl⟩
        · exact absurd same.symm other

theorem matched_dealRegisterRq (represents : state.Represents messenger)
    (type : packetType data = some defRegisterRq)
    (deals : Deals state [] (dealRegisterRq data from_) final history ()) :
    Matched messenger data from_ final history := by
  rcases Deals.of_field deals with ⟨tel, (readTel : StruRegisterRq.readTel data = _), prints⟩
  have telFree := represents.free_iff Account.tel UserRow.tel (fun _ => rfl) tel
  have answered := prints.of_sprintfS.of_select
  rcases withTel : state.tUser.filter (·.tel = tel) with _ | ⟨row, others⟩
  · simp only [rows, withTel, List.map_nil, List.flatten_nil] at answered
    rcases Deals.of_field answered with
      ⟨name, (readName : StruRegisterRq.readName data = _), prints⟩
    have nameFree := represents.free_iff Account.name UserRow.name (fun _ => rfl) name
    have answered := prints.of_sprintfS.of_select
    rcases withName : state.tUser.filter (·.name = name) with _ | ⟨row, others⟩
    · simp only [rows, withName, List.map_nil, List.flatten_nil] at answered
      rcases Deals.of_field answered with ⟨password,
        (readPassword : StruRegisterRq.readPassword data = _), prints⟩
      rcases prints.of_sprintfS.of_update with ⟨rowId, ⟨_, fresh⟩, replies⟩
      rcases represents.enrol password fresh (telFree.mpr withTel)
        (nameFree.mpr withName) with ⟨unused, enrolled⟩
      rcases deals_sendData replies with ⟨same, deed⟩
      refine ⟨_, _, .registered type readTel readName readPassword unused _ _,
        enrolled.congr same, ?_⟩
      rw [deed]
      simp [deedsOf_cons, Action.IsDeed, Deed.action, Notice.bytes]
    · rcases mem_of_filter_eq_cons withName with ⟨member, same⟩
      simp only [rows, withName, List.map_cons, List.flatten_cons, List.cons_append] at answered
      exact .of_sendData represents (by simp [deedsOf_cons, Action.IsDeed])
        (.nameExists type readTel readName (telFree.mpr withTel) (represents.known member)
          same) answered
  · rcases mem_of_filter_eq_cons withTel with ⟨member, same⟩
    simp only [rows, withTel, List.map_cons, List.flatten_cons, List.cons_append] at answered
    exact .of_sendData represents (by simp [deedsOf_cons, Action.IsDeed])
      (.telExists type readTel (represents.known member) same) answered

theorem Represents.logIn (represents : state.Represents messenger) {id : ℤ} (socket : Handle)
    (known : (messenger.account id).isSome) :
    Represents { state with
      mMapIdToSocket := Function.update state.mMapIdToSocket id (some socket) }
      (messenger.logIn id socket known) where
  ids := represents.ids
  account := represents.account
  friends := represents.friends
  online := by simp only [Messenger.logIn, represents.online]

theorem Represents.logOut (represents : state.Represents messenger) (id : ℤ)
    (sameUsers : final.tUser = state.tUser) (sameFriends : final.tFriend = state.tFriend)
    (erased : final.mMapIdToSocket = Function.update state.mMapIdToSocket id none) :
    final.Represents (messenger.logOut id) where
  ids := sameUsers ▸ represents.ids
  account := sameUsers ▸ represents.account
  friends := sameFriends ▸ represents.friends
  online := by simp only [Messenger.logOut, represents.online, erased]

theorem matched_dealLoginRq (represents : state.Represents messenger)
    (type : packetType data = some defLoginRq)
    (deals : Deals state [] (dealLoginRq data from_) final history ()) :
    Matched messenger data from_ final history := by
  rcases Deals.of_field deals with ⟨tel, (readTel : StruLoginRq.readTel data = _), reads⟩
  rcases Deals.of_field reads with ⟨password,
    (readPassword : StruLoginRq.readPassword data = _), prints⟩
  have answered := prints.of_sprintfS.of_select
  rcases withTel : state.tUser.filter (·.tel = tel) with _ | ⟨row, others⟩
  · simp only [rows, withTel, List.map_nil, List.flatten_nil] at answered
    have free := (represents.free_iff Account.tel UserRow.tel (fun _ => rfl) tel).mpr withTel
    exact .of_sendData represents (by simp [deedsOf_cons, Action.IsDeed])
      (.notRegistered type readTel free) answered
  · rcases mem_of_filter_eq_cons withTel with ⟨member, rfl⟩
    have known := represents.known member
    simp only [rows, withTel, List.map_cons, List.flatten_cons, List.cons_append] at answered
    rcases Deals.of_toInt answered with ⟨id, parsed, compares⟩
    have same : id = row.id := eq_of_stoi_decimal parsed
    subst same
    by_cases matched : row.pass = password
    · subst matched
      have isKnown : (messenger.account row.id).isSome := by rw [known]; rfl
      rw [if_pos rfl] at compares
      rcases compares.of_sendData with ⟨taken, replied⟩
      have same := SameTables.sendData state
        (StruLoginRs.bytes { result := defLoginSuccess, id := row.id }) from_ taken
      rcases replied.of_act with ⟨_, _, _, _, entered, introducing⟩
      rcases Prod.mk.inj (Option.some.inj entered) with ⟨rfl, _⟩
      have loggedIn := (represents.congr same).logIn from_ isKnown
      rcases deals_getUserInfoAndFriendInfo loggedIn introducing with
        ⟨address, own, deeds, online, shows_, introduces, sameLater, deedsLater⟩
      have here : address = from_ := by
        have updated := Function.update_self row.id (some from_) messenger.online
        exact Option.some.inj (online.symm.trans updated)
      subst here
      rw [shows_ row.account known] at introduces deedsLater
      refine ⟨_, _, .loggedIn type readTel readPassword known isKnown introduces,
        loggedIn.congr sameLater, ?_⟩
      rw [deedsLater]
      simp [deedsOf_cons, Action.IsDeed, Deed.action, Notice.bytes]
    · rw [if_neg matched] at compares
      exact .of_sendData represents (by simp [deedsOf_cons, Action.IsDeed])
        (.wrongPassword type readTel readPassword known matched) compares

theorem matched_dealOfflineRq (represents : state.Represents messenger)
    (type : packetType data = some defOfflineRq)
    (deals : Deals state [] (dealOfflineRq data from_) final history ()) :
    Matched messenger data from_ final history := by
  rcases Deals.of_field deals with ⟨userId, readUserId, prints⟩
  have lists := prints.of_sprintfS.of_select
  have column : (state.rows (.friendIdsOffline userId)).flatten =
      (messenger.friends userId).map decimal := by
    rw [represents.friends, rows, ← List.flatMap_def, ← List.map_eq_flatMap, List.map_map]
    rfl
  simp only [column] at lists
  rcases lists.of_bind with ⟨middle, between, ⟨⟩, notifies, removes⟩
  rcases deals_notifyOffline represents notifies with ⟨same, farewells⟩
  rcases deals_removeUser removes with ⟨sameUsers, sameFriends, left⟩
  have represented := represents.congr same
  have online := congrFun represented.online userId
  rcases left with ⟨absent, sameMap, noDeed⟩ | ⟨socket, present, erased, closed⟩
  · refine ⟨messenger, _, .leftOffline type readUserId (online.trans absent),
      represented.congr ⟨sameMap, sameUsers, sameFriends⟩, ?_⟩
    rw [noDeed, farewells]
    simp [deedsOf_cons, Action.IsDeed, Messenger.farewells]
  · refine ⟨_, _, .leftOnline type readUserId (online.trans present),
      represented.logOut userId sameUsers sameFriends erased, ?_⟩
    rw [closed, farewells]
    simp [deedsOf_cons, Action.IsDeed, Messenger.farewells, Deed.action]

theorem matched_dealChatRq (represents : state.Represents messenger)
    (type : packetType data = some defChatRq)
    (deals : Deals state [] (dealChatRq data from_) final history ()) :
    Matched messenger data from_ final history := by
  rcases Deals.of_field deals with ⟨friendId, readFriendId, counts⟩
  have counted := counts.of_count
  cases entered : state.mMapIdToSocket friendId with
  | none =>
      simp only [entered, Option.isSome_none, Bool.false_eq_true, if_false] at counted
      have offline : messenger.online friendId = none := by rw [represents.online, entered]
      exact .of_sendData represents (by simp [deedsOf_cons, Action.IsDeed])
        (.undelivered type readFriendId offline) counted
  | some socket =>
      simp only [entered, Option.isSome_some, if_true] at counted
      have online : messenger.online friendId = some socket := by rw [represents.online, entered]
      exact .of_sendData represents (by simp [deedsOf_cons, Action.IsDeed])
        (.delivered type readFriendId online) (counted.of_socketOf entered)

theorem matched_dealAddFriendRq (represents : state.Represents messenger)
    (type : packetType data = some defAddFriendRq)
    (deals : Deals state [] (dealAddFriendRq data from_) final history ()) :
    Matched messenger data from_ final history := by
  rcases Deals.of_field deals with ⟨friendName,
    (readFriendName : StruAddFriendRq.readFriendName data = _), prints⟩
  have answered := prints.of_sprintfS.of_select
  rcases withName : state.tUser.filter (·.name = friendName) with _ | ⟨row, others⟩
  · simp only [rows, withName, List.map_nil, List.flatten_nil] at answered
    have free :=
      (represents.free_iff Account.name UserRow.name (fun _ => rfl) friendName).mpr withName
    exact .of_sendData represents (by simp [deedsOf_cons, Action.IsDeed])
      (.unknownName type readFriendName free) answered.of_strcpyS
  · rcases mem_of_filter_eq_cons withName with ⟨member, rfl⟩
    have known := represents.known member
    simp only [rows, withName, List.map_cons, List.flatten_cons, List.cons_append] at answered
    rcases Deals.of_toInt answered with ⟨friendId, parsed, counts⟩
    have same : friendId = row.id := eq_of_stoi_decimal parsed
    subst same
    have counted := counts.of_count
    cases entered : state.mMapIdToSocket row.id with
    | none =>
        simp only [entered, Option.isSome_none, Bool.false_eq_true, if_false] at counted
        have offline : messenger.online row.id = none := by rw [represents.online, entered]
        rcases counted.of_formatS with ⟨text, printed, replies⟩
        have echoes : 37 ∉ row.name → text = row.name := by
          intro noPercent
          rcases formatText_cases row.name with ⟨_, same⟩ | ⟨hasPercent, _⟩
          · exact Option.some.inj (printed.symm.trans same)
          · exact absurd hasPercent noPercent
        exact .of_sendData represents (by simp [deedsOf_cons, Action.IsDeed])
          (.away type readFriendName known offline echoes) replies
    | some socket =>
        simp only [entered, Option.isSome_some, if_true] at counted
        have online : messenger.online row.id = some socket := by rw [represents.online, entered]
        exact .of_sendData represents (by simp [deedsOf_cons, Action.IsDeed])
          (.asked type readFriendName known online) (counted.of_socketOf entered)

theorem Represents.befriend (represents : state.Represents messenger) (friendId userId : ℤ) :
    Represents { state with tFriend := state.tFriend ++ [(friendId, userId)] ++
      [(userId, friendId)] } (messenger.befriend friendId userId) where
  ids := represents.ids
  account := represents.account
  friends := by
    intro id
    simp only [Messenger.befriend, Messenger.friendsWith, represents.friends,
      List.filter_append, List.map_append, List.append_assoc]
    congr 1
    by_cases asked : friendId = id <;> by_cases answers : userId = id <;>
      simp [asked, answers, @eq_comm _ id]
  online := represents.online

theorem matched_dealAddFriendRs (represents : state.Represents messenger)
    (type : packetType data = some defAddFriendRs)
    (deals : Deals state [] (dealAddFriendRs data from_) final history ()) :
    Matched messenger data from_ final history := by
  rcases Deals.of_field deals with ⟨result, readResult, reads⟩
  rcases Deals.of_field reads with ⟨friendId, readFriendId, answers⟩
  by_cases agreed : result = defAddFriendSuccess
  · subst agreed
    rw [if_pos rfl] at answers
    rcases Deals.of_field answers with ⟨userId, readUserId, prints⟩
    rcases prints.of_sprintfS.of_update with ⟨_, _, prints⟩
    rw [if_pos rfl] at prints
    rcases prints.of_sprintfS.of_update with ⟨_, _, introducing⟩
    rw [if_pos rfl] at introducing
    rcases introducing.of_bind with ⟨middle, between, ⟨⟩, introduces, tells⟩
    have befriended := represents.befriend friendId userId
    rcases deals_getUserInfoAndFriendInfo befriended introduces with
      ⟨address, own, deeds, online, shows_, introduced, same, deedsBetween⟩
    rcases deals_sendIfOnline (befriended.congr same) tells with ⟨sameLater, deedsLater⟩
    have isOnline : messenger.online friendId = some address := online
    have registered := messenger.registered friendId (by rw [isOnline]; rfl)
    rcases Option.isSome_iff_exists.mp registered with ⟨account, known⟩
    have sameCard : (messenger.befriend friendId userId).card friendId account =
        messenger.card friendId account := rfl
    rw [shows_ account known, sameCard] at introduced deedsBetween
    refine ⟨_, _, .agreed type readResult readFriendId readUserId isOnline known introduced,
      befriended.congr (same.trans sameLater), ?_⟩
    rw [deedsLater, deedsBetween, online]
    simp [deedsOf_cons, Action.IsDeed, Deed.action, Notice.bytes]
  · rw [if_neg agreed] at answers
    rcases deals_sendIfOnline represents answers with ⟨same, deedsLater⟩
    refine ⟨messenger, _, .refused type readResult agreed readFriendId, represents.congr same, ?_⟩
    rw [deedsLater]
    cases messenger.online friendId <;> simp [Deed.action, Notice.bytes]

/-- Whatever the packet is. -/
theorem matched_dealData (represents : state.Represents messenger)
    (deals : Deals state [] (dealData data from_) final history ()) :
    Matched messenger data from_ final history := by
  rcases Deals.of_field deals with ⟨type, typed, dispatched⟩
  by_cases requested : type ∈ [defRegisterRq, defLoginRq, defOfflineRq, defChatRq, defAddFriendRq,
    defAddFriendRs]
  · simp only [List.mem_cons, List.not_mem_nil, or_false] at requested
    rcases requested with rfl | rfl | rfl | rfl | rfl | rfl
    · exact matched_dealRegisterRq represents typed (dealData_registerRq typed ▸ deals)
    · exact matched_dealLoginRq represents typed (dealData_loginRq typed ▸ deals)
    · exact matched_dealOfflineRq represents typed (dealData_offlineRq typed ▸ deals)
    · exact matched_dealChatRq represents typed (dealData_chatRq typed ▸ deals)
    · exact matched_dealAddFriendRq represents typed (dealData_addFriendRq typed ▸ deals)
    · exact matched_dealAddFriendRs represents typed (dealData_addFriendRs typed ▸ deals)
  · have ignored : final = state ∧ history = [] := by
      simp only at dispatched
      split at dispatched
      · cases entered : Received.mArrFun Handler (type - defProtocolBase - 1) with
        | none =>
            simp only [entered] at dispatched
            exact ⟨dispatched.of_ret.1, dispatched.of_ret.2.1⟩
        | some pf =>
            refine absurd ?_ requested
            rcases mArrFun_cases entered with ⟨rfl, _⟩ | ⟨rfl, _⟩ | ⟨rfl, _⟩ | ⟨rfl, _⟩ |
              ⟨rfl, _⟩ | ⟨rfl, _⟩ <;> simp
      · exact ⟨dispatched.of_ret.1, dispatched.of_ret.2.1⟩
    rcases ignored with ⟨rfl, rfl⟩
    exact ⟨messenger, [], .unknown typed requested, represents, rfl⟩

end Handlers

/-! ## Well formed tables -/

/-- Ids, phone numbers and names are unique, friendship is mutual, and only registered users are
online. -/
structure WellFormed (state : State) : Prop where
  ids : (state.tUser.map UserRow.id).Nodup
  tels : (state.tUser.map UserRow.tel).Nodup
  names : (state.tUser.map UserRow.name).Nodup
  mutual_ : ∀ id other, state.tFriend.count (id, other) = state.tFriend.count (other, id)
  registered : ∀ id, (state.mMapIdToSocket id).isSome → ∃ row ∈ state.tUser, row.id = id

theorem count_friends (tFriend : List (ℤ × ℤ)) (id other : ℤ) :
    ((tFriend.filter (·.1 = id)).map Prod.snd).count other = tFriend.count (id, other) := by
  induction tFriend with
  | nil => rfl
  | cons row tFriend ih =>
      rcases row with ⟨idA, idB⟩
      by_cases same : idA = id <;> by_cases sameOther : idB = other <;>
        simp [same, sameOther, ih]

section WellFormed

variable {state : State} {messenger : Messenger Handle}

theorem Represents.nodup (represents : state.Represents messenger) (field : Account → Bytes)
    (column : UserRow → Bytes) (sameField : ∀ row : UserRow, field row.account = column row)
    (own : Own messenger.account field) : (state.tUser.map column).Nodup := by
  refine (List.nodup_map_iff_inj_on represents.ids.of_map).mpr ?_
  intro row member other otherMember same
  have sameId := own row.id other.id row.account other.account (represents.known member)
    (represents.known otherMember) (by rw [sameField, sameField, same])
  exact List.inj_on_of_nodup_map represents.ids member otherMember sameId

theorem Represents.wellFormed (represents : state.Represents messenger) : state.WellFormed where
  ids := represents.ids
  tels := represents.nodup Account.tel UserRow.tel (fun _ => rfl) messenger.ownTel
  names := represents.nodup Account.name UserRow.name (fun _ => rfl) messenger.ownName
  mutual_ := by
    intro id other
    have agree := messenger.mutual_ id other
    rwa [represents.friends, represents.friends, count_friends, count_friends] at agree
  registered := by
    intro id isOnline
    rw [← represents.online] at isOnline
    rcases Option.isSome_iff_exists.mp (messenger.registered id isOnline) with ⟨account, known⟩
    rcases (represents.account id account).mp known with ⟨row, member, same, _⟩
    exact ⟨row, member, same⟩

/-- The account in the first row with the id. -/
def accountOf (tUser : List UserRow) (id : ℤ) : Option Account :=
  (tUser.find? (·.id = id)).map UserRow.account

theorem accountOf_eq_some_iff (ids : (state.tUser.map UserRow.id).Nodup) (id : ℤ)
    (account : Account) : accountOf state.tUser id = some account ↔
      ∃ row ∈ state.tUser, row.id = id ∧ row.account = account := by
  rw [accountOf, Option.map_eq_some_iff]
  constructor
  · rintro ⟨row, found, same⟩
    exact ⟨row, List.mem_of_find?_eq_some found, by simpa using List.find?_some found, same⟩
  · rintro ⟨row, member, same, ofRow⟩
    have isThere : (state.tUser.find? (·.id = id)).isSome :=
      List.find?_isSome.mpr ⟨row, member, by simpa using same⟩
    rcases Option.isSome_iff_exists.mp isThere with ⟨first, found⟩
    have firstId : first.id = id := by simpa using List.find?_some found
    have sameRow : first = row := List.inj_on_of_nodup_map ids
      (List.mem_of_find?_eq_some found) member (firstId.trans same.symm)
    exact ⟨row, sameRow ▸ found, ofRow⟩

theorem own_of_nodup (ids : (state.tUser.map UserRow.id).Nodup) (field : Account → Bytes)
    (column : UserRow → Bytes) (sameField : ∀ row : UserRow, field row.account = column row)
    (unique : (state.tUser.map column).Nodup) : Own (accountOf state.tUser) field := by
  intro id other found another hasFound hasAnother same
  rcases (accountOf_eq_some_iff ids id found).mp hasFound with ⟨row, member, rfl, rfl⟩
  rcases (accountOf_eq_some_iff ids other another).mp hasAnother with ⟨last, lastMem, rfl, rfl⟩
  rw [sameField, sameField] at same
  rw [List.inj_on_of_nodup_map unique member lastMem same]

/-- Well formed tables stand for a messenger. -/
theorem WellFormed.represents (wellFormed : state.WellFormed) :
    ∃ messenger, state.Represents messenger := by
  refine ⟨{
    account := accountOf state.tUser
    friends := fun id => (state.tFriend.filter (·.1 = id)).map Prod.snd
    online := state.mMapIdToSocket
    ownTel := own_of_nodup wellFormed.ids Account.tel UserRow.tel (fun _ => rfl) wellFormed.tels
    ownName := own_of_nodup wellFormed.ids Account.name UserRow.name (fun _ => rfl) wellFormed.names
    mutual_ := ?_
    registered := ?_ }, wellFormed.ids, accountOf_eq_some_iff wellFormed.ids, fun _ => rfl, rfl⟩
  · intro id other
    rw [count_friends, count_friends, wellFormed.mutual_]
  · intro id isOnline
    rcases wellFormed.registered id isOnline with ⟨row, member, same⟩
    exact Option.isSome_iff_exists.mpr
      ⟨row.account,
        (accountOf_eq_some_iff wellFormed.ids id row.account).mpr ⟨row, member, same, rfl⟩⟩

end WellFormed

/-! ## Runs -/

theorem served_of_follows {first last : State} {messenger : Messenger Handle} {visits : List Visit}
    (represents : first.Represents messenger) (follows : Follows first visits last) :
    ∃ exchanges final, messenger.Served exchanges final ∧ last.Represents final ∧
      exchanges.map Messenger.Exchange.packet = visits.map Visit.packet ∧
        exchanges.map (fun exchange => exchange.deeds.map Deed.action) =
          visits.map fun visit => deedsOf visit.history := by
  induction visits generalizing first messenger with
  | nil => exact ⟨[], messenger, .nil messenger, represents.congr follows, rfl, rfl⟩
  | cons visit visits ih =>
      rcases matched_dealData (represents.congr follows.1) visit.deals with
        ⟨next, deeds, serves, represented, actions⟩
      rcases ih represented follows.2 with ⟨exchanges, final, served, lasts, packets, others⟩
      refine ⟨⟨visit.packet, deeds⟩ :: exchanges, final, .cons serves served, lasts, ?_, ?_⟩
      · rw [List.map_cons, List.map_cons, packets]
      · rw [List.map_cons, List.map_cons, others, actions]

/-- In every run that handles one packet after the other and whose statements succeed as they are
meant, the packets that have been handled are the first that have arrived, each has been dealt with
as the messenger does, and between two packets the tables stand for the messenger. -/
theorem served_of_run {tUser : List UserRow} {tFriend : List (ℤ × ℤ)} {events : List Event}
    {state : State} (wellFormed : (start tUser tFriend).WellFormed)
    (serial : server.Meets Serial (start tUser tFriend) events)
    (lucky : server.Meets Lucky (start tUser tFriend) events)
    (reached : server.run (start tUser tFriend) events = some state)
    (running : state.halted = false) :
    ∃ messenger exchanges final, (start tUser tFriend).Represents messenger ∧
      messenger.Served exchanges final ∧
      exchanges.map Messenger.Exchange.packet ++ state.tasks.map Task.packet =
        server.outputs arrival (start tUser tFriend) events ∧
      exchanges.length + state.tasks.length = state.nextTask ∧
      (∀ tid exchange, exchanges[tid]? = some exchange →
        deedsOf (historyOf state.log tid) = exchange.deeds.map Deed.action) ∧
      (state.Idle → state.Represents final) := by
  rcases wellFormed.represents with ⟨messenger, represents⟩
  rcases (tidy_start tUser tFriend).run serial lucky reached running with
    ⟨visits, quiet, tidy, packets⟩
  rw [List.nil_append] at tidy
  rcases served_of_follows represents tidy.follows with
    ⟨exchanges, final, served, represented, samePackets, actions⟩
  refine ⟨messenger, exchanges, final, represents, served, ?_, ?_, ?_,
    fun idle => represented.congr (tidy.idle idle)⟩
  · rw [samePackets, packets]
    simp [start]
  · have lengths := congrArg List.length samePackets
    rw [List.length_map, List.length_map] at lengths
    rw [lengths, tidy.received]
  · intro tid exchange found
    have atTid := congrArg (·[tid]?) actions
    simp only [List.getElem?_map, found, Option.map_some] at atTid
    rcases Option.map_eq_some_iff.mp atTid.symm with ⟨visit, visited, same⟩
    rw [tidy.logged tid visit visited, same]

def lucky (state : State) : Event → Bool
  | .act index outcome =>
      match state.tasks[index]? with
      | some task =>
          match task.prog with
          | .act (.select stmt _) _ =>
              match outcome with
              | .rows (some rows) => rows = state.rows stmt
              | _ => false
          | .act (.update stmt) _ =>
              match outcome with
              | .updated true rowId => state.answers (.update stmt) (.updated true rowId)
              | _ => false
          | _ => true
      | none => true
  | _ => true

theorem holds_of_lucky (state : State) (event : Event) (passed : state.lucky event = true) :
    state.Lucky event := by
  cases event with
  | act index outcome =>
      intro task action rest present shape
      simp only [lucky, present, shape] at passed
      cases action with
      | select stmt nColumn =>
          cases outcome with
          | rows rows =>
              cases rows with
              | none => simp at passed
              | some rows =>
                  have same : rows = state.rows stmt := by simpa using passed
                  subst same
                  exact ⟨rfl, rfl⟩
          | _ => simp at passed
      | update stmt =>
          cases outcome with
          | updated ok rowId =>
              cases ok with
              | false => simp at passed
              | true => exact ⟨⟨rowId, rfl⟩, (answers_eq_true_iff _ _ _).mp passed⟩
          | _ => simp at passed
      | _ => exact ⟨trivial, trivial⟩
  | _ => trivial

theorem wellFormed_alice_bob : (start [alice, bob] []).WellFormed where
  ids := by decide
  tels := by decide
  names := by decide
  mutual_ := by simp [start]
  registered := by simp [start]

def carolRegisters : StruRegisterRq := ⟨ascii "789", ascii "buried", ascii "carol"⟩

/-- Alice logs in and Bob's message arrives before Carol has been registered. -/
def orderly : List Event :=
  logsIn alice 0 4 ++ [.receive 0 (StruRegisterRq.bytes carolRegisters), .act 0 (.rows (some [])),
    .receive 0 (StruChatRq.bytes ⟨2, 1, ascii "hello"⟩), .act 0 (.rows (some [])),
    .act 0 (.updated true 3), .act 0 .internal, .finish 0]

theorem served_of_run_orderly : ∃ state messenger exchanges final,
    server.run (start [alice, bob] []) orderly = some state ∧
      (start [alice, bob] []).Represents messenger ∧ messenger.Served exchanges final ∧
        exchanges.length = 2 ∧ state.Represents final := by
  have evaluated : (server.run (start [alice, bob] []) orderly).any (fun state =>
      state.halted = false ∧ state.nextTask = 3 ∧ state.tasks.length = 1 ∧
        state.tasks.all fun task => (historyOf state.log task.tid).isEmpty) = true := by
    decide +kernel
  have passed : server.allSteps lucky (start [alice, bob] []) orderly = true := by
    decide +kernel
  have serial : server.Meets Serial (start [alice, bob] []) orderly := by
    apply server.meets_of_forall_mem
    intro state event member
    simp only [orderly, logsIn, List.cons_append, List.nil_append, List.mem_cons,
      List.not_mem_nil, or_false] at member
    rcases member with rfl | rfl | rfl | rfl | rfl | rfl | rfl | rfl | rfl | rfl | rfl | rfl |
      rfl | rfl | rfl | rfl | rfl | rfl | rfl | rfl <;> trivial
  rcases (Option.any_eq_true _ _).mp evaluated with ⟨state, reached, shape⟩
  simp only [decide_eq_true_eq] at shape
  rcases shape with ⟨running, received, waiting, idle⟩
  rcases served_of_run wellFormed_alice_bob serial
    (server.meets_of_allSteps holds_of_lucky passed) reached running with
    ⟨messenger, exchanges, final, represents, served, _, numbered, _, quiet⟩
  rw [received, waiting] at numbered
  refine ⟨state, messenger, exchanges, final, reached, represents, served, Nat.succ.inj numbered,
    quiet ?_⟩
  simpa [Idle] using idle

end State

end InstanceMessage
