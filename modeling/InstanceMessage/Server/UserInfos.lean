import InstanceMessage.Server.Execution

/-!
# Whose information a USER_INFO packet carries

`getUserInfoAndFriendInfo` fills one structure again and again, once for every
friend. `getInfoById` sets the id first and the name, the signature and the icon
only when its query finds exactly one row, so after any other answer the
structure has the id of one friend and what it held of another.

`Profile` is what the query fills. The packets are right as long as a query that
finds no single row comes before all queries that do, or by coincidence.
-/

namespace InstanceMessage

open Library Handler

/-- The fields that `getInfoById` takes from `t_user`, with their initial values. -/
structure Profile where
  name : Bytes := []
  feeling : Bytes := []
  iconId : ℤ := 0
  deriving DecidableEq

def UserRow.profile (row : UserRow) : Profile := ⟨row.name, row.feeling, row.iconId⟩

def StruUserInfo.profile (info : StruUserInfo) : Profile := ⟨info.name, info.feeling, info.iconId⟩

/-- The profile is the initial one or that of a row with the id. -/
def ProfileOf (tUser : List UserRow) (id : ℤ) (profile : Profile) : Prop :=
  profile = {} ∨ ∃ row ∈ tUser, row.id = id ∧ row.profile = profile

/-- The packet's fields are the initial ones, or all from one row with the packet's id. -/
def Described (tUser : List UserRow) (packet : Bytes) : Prop :=
  ∃ id name feeling iconId, StruUserInfo.readId packet = some id ∧
    StruUserInfo.readName packet = some name ∧ StruUserInfo.readFeeling packet = some feeling ∧
      StruUserInfo.readIconId packet = some iconId ∧ ProfileOf tUser id ⟨name, feeling, iconId⟩

/-- The queries about users in a history with their answers, oldest first. -/
def userQueries (history : History) : List (ℤ × Option (List Bytes)) :=
  (history.filterMap fun performed =>
    match performed with
    | ⟨.select (.userById id) _, (answer : Option (List Bytes))⟩ => some (id, answer)
    | _ => none).reverse

/-- What the structure holds after the answer to a query. -/
def Profile.after (held : Profile) : Option (List Bytes) → Profile
  | some [name, feeling, iconText] => ⟨name, feeling, (stoi iconText).getD 0⟩
  | _ => held

def findsOne : Option (List Bytes) → Bool
  | some [_, _, _] => true
  | _ => false

/-- When the query about a user finds no single row, what the structure holds is his own. -/
def NeverStale (tUser : List UserRow) : Profile → List (ℤ × Option (List Bytes)) → Prop
  | _, [] => True
  | held, (id, answer) :: queries =>
      (findsOne answer = false → ProfileOf tUser id held) ∧
        NeverStale tUser (held.after answer) queries

theorem findsOne_of_ne {answer : Option (List Bytes)}
    (other : ∀ name feeling iconText, answer ≠ some [name, feeling, iconText]) :
    findsOne answer = false := by
  rcases answer with _ | _ | ⟨name, _ | ⟨feeling, _ | ⟨iconText, _ | ⟨more, rest⟩⟩⟩⟩
  · rfl
  · rfl
  · rfl
  · rfl
  · exact absurd rfl (other name feeling iconText)
  · rfl

theorem exists_of_findsOne {answer : Option (List Bytes)} (one : findsOne answer = true) :
    ∃ name feeling iconText, answer = some [name, feeling, iconText] := by
  by_contra none
  rw [findsOne_of_ne fun name feeling iconText same =>
    none ⟨name, feeling, iconText, same⟩] at one
  exact absurd one (by simp)

theorem after_of_findsNone {held : Profile} {answer : Option (List Bytes)}
    (none : findsOne answer = false) : held.after answer = held := by
  simp only [Profile.after]
  split
  · simp [findsOne] at none
  · rfl

/-! ## The structure and its packet -/

/-- The fields have the values that their C types can have. -/
structure StruUserInfo.Fits (info : StruUserInfo) : Prop where
  id : IsInt32 info.id
  iconId : IsInt32 info.iconId
  name : FitsArray defNameMaxLength info.name
  feeling : FitsArray defFeelingMaxLength info.feeling

theorem StruUserInfo.Fits.read_bytes {info : StruUserInfo} (fits : info.Fits) :
    readName info.bytes = some info.name ∧ readFeeling info.bytes = some info.feeling ∧
      readIconId info.bytes = some info.iconId := by
  refine ⟨?_, ?_, ?_⟩
  · apply (cString_append (length_int32 _) 12).trans
    apply (cString_append (length_int32 _) 8).trans
    apply (cString_append (length_int32 _) 4).trans
    apply (cString_append (length_int32 _) 0).trans
    exact fits.name.cString_zero _
  · apply (cString_append (length_int32 _) 32).trans
    apply (cString_append (length_int32 _) 28).trans
    apply (cString_append (length_int32 _) 24).trans
    apply (cString_append (length_int32 _) 20).trans
    apply (cString_append fits.name.length_charArray 0).trans
    exact fits.feeling.cString_zero _
  · apply (readInt32_append (length_int32 _) 4).trans
    apply (readInt32_append (length_int32 _) 0).trans
    exact readInt32_zero fits.iconId _

theorem described_iff {tUser : List UserRow} {info : StruUserInfo} (fits : info.Fits) :
    Described tUser info.bytes ↔ ProfileOf tUser info.id info.profile := by
  rcases fits.read_bytes with ⟨readName, readFeeling, readIconId⟩
  have readId := StruUserInfo.readId_bytes info fits.id
  constructor
  · rintro ⟨id, name, feeling, iconId, readsId, readsName, readsFeeling, readsIconId, own⟩
    rw [readName] at readsName
    rw [readFeeling] at readsFeeling
    rw [readIconId] at readsIconId
    rw [readId] at readsId
    rcases Option.some.inj readsId with rfl
    rcases Option.some.inj readsName with rfl
    rcases Option.some.inj readsFeeling with rfl
    rcases Option.some.inj readsIconId with rfl
    exact own
  · exact fun own => ⟨_, _, _, _, readId, readName, readFeeling, readIconId, own⟩

namespace State

section Executions

variable {state final : State} {history later : History} {outcomes : List Outcome} {id : ℤ}

/-- One call of `getInfoById`: one query, no packet, and the structure as its answer leaves it. -/
theorem execute_getInfoById {info filled : StruUserInfo}
    (executed : state.execute history (getInfoById id info) outcomes =
      some (final, later, filled)) :
    ∃ answer, final = state ∧ filled.id = id ∧ filled.profile = info.profile.after answer ∧
      sendsOf later = sendsOf history ∧ userQueries later = userQueries history ++ [(id, answer)] ∧
        ∀ name feeling iconText, answer = some [name, feeling, iconText] →
          name.length < defNameMaxLength ∧ feeling.length < defFeelingMaxLength ∧
            ∃ iconId, stoi iconText = some iconId := by
  rcases execute_perform_bind executed with ⟨_, _, _, online, _, counted, executed⟩
  rcases Prod.mk.inj (Option.some.inj counted) with ⟨rfl, rfl⟩
  rcases execute_sprintfS_bind executed with ⟨_, executed⟩
  rcases execute_perform_bind executed with
    ⟨_, _, after, (answer : Option (List Bytes)), _, selected, executed⟩
  have same : after = state := by
    cases performs_of_perform selected <;> rfl
  subst same
  refine ⟨answer, ?_⟩
  have queried : userQueries (⟨.select (.userById id) 3, answer⟩ ::
      ⟨.count id, (after.mMapIdToSocket id).isSome⟩ :: history) =
        userQueries history ++ [(id, answer)] := by
    simp [userQueries]
  split at executed
  · rename_i name feeling iconText
    rcases execute_strcpyS_bind executed with ⟨shortName, executed⟩
    rcases execute_strcpyS_bind executed with ⟨shortFeeling, executed⟩
    rcases execute_toInt_bind executed with ⟨iconId, parsed, executed⟩
    rcases execute_ret executed with ⟨rfl, rfl, rfl, _⟩
    refine ⟨rfl, rfl, ?_, rfl, queried, ?_⟩
    · simp [StruUserInfo.profile, Profile.after, parsed]
    · intro otherName otherFeeling otherText same
      simp only [Option.some.injEq, List.cons.injEq, and_true] at same
      rcases same with ⟨rfl, rfl, rfl⟩
      exact ⟨shortName, shortFeeling, iconId, parsed⟩
  · rename_i noRow
    rcases execute_ret executed with ⟨rfl, rfl, rfl, _⟩
    refine ⟨rfl, rfl, ?_, rfl, queried, ?_⟩
    · exact (after_of_findsNone (findsOne_of_ne noRow)).symm
    · intro name feeling iconText same
      exact (noRow _ _ _ same).elim

/-- The queries that succeed have found what `t_user` holds. -/
def Queried (tUser : List UserRow) (history : History) : Prop :=
  ∀ id found, (id, some found) ∈ userQueries history →
    found = ((tUser.filter (·.id = id)).map fun row =>
      [row.name, row.feeling, decimal row.iconId]).flatten

theorem Queried.of_suffix {tUser : List UserRow} {earlier later : History}
    (queried : Queried tUser later) (first : earlier <:+ later) : Queried tUser earlier := by
  rcases first with ⟨performed, rfl⟩
  intro id found member
  apply queried id found
  simp only [userQueries, List.filterMap_append, List.reverse_append, List.mem_append]
  exact Or.inl member

/-- The columns come from MySQL as C strings. -/
def CStrings (tUser : List UserRow) : Prop :=
  ∀ row ∈ tUser, (0 : UInt8) ∉ row.name ∧ (0 : UInt8) ∉ row.feeling

/-- A query that has found one row has found the user's own. -/
theorem row_of_found {tUser : List UserRow} {name feeling iconText : Bytes}
    (found : [name, feeling, iconText] = ((tUser.filter (·.id = id)).map fun row =>
      [row.name, row.feeling, decimal row.iconId]).flatten) :
    ∃ row ∈ tUser, row.id = id ∧ row.name = name ∧ row.feeling = feeling ∧
      decimal row.iconId = iconText := by
  cases rows : tUser.filter (·.id = id) with
  | nil => simp [rows] at found
  | cons row others =>
      have member : row ∈ tUser.filter (·.id = id) := rows ▸ List.mem_cons_self
      rcases List.mem_filter.mp member with ⟨listed, sameId⟩
      rw [rows] at found
      simp only [List.map_cons, List.flatten_cons, List.cons_append, List.cons.injEq] at found
      exact ⟨row, listed, by simpa using sameId, found.1.symm, found.2.1.symm, found.2.2.1.symm⟩

/-- What a call of `getInfoById` leaves in the structure fits, and is the user's own profile if
the query has found one row. -/
theorem getInfoById_fills {tUser : List UserRow} {info filled : StruUserInfo} (range : IsInt32 id)
    (texts : CStrings tUser) (fits : info.Fits)
    (executed : state.execute history (getInfoById id info) outcomes =
      some (final, later, filled)) (queried : Queried tUser later) :
    ∃ answer, final = state ∧ filled.id = id ∧ filled.profile = info.profile.after answer ∧
      sendsOf later = sendsOf history ∧ userQueries later = userQueries history ++ [(id, answer)] ∧
        filled.Fits ∧ (findsOne answer = true → ProfileOf tUser id filled.profile) := by
  rcases execute_getInfoById executed with
    ⟨answer, same, sameId, profile, sends, queries, shape⟩
  refine ⟨answer, same, sameId, profile, sends, queries, ?_⟩
  by_cases one : findsOne answer = true
  · rcases exists_of_findsOne one with ⟨name, feeling, iconText, rfl⟩
    rcases shape name feeling iconText rfl with ⟨shortName, shortFeeling, iconId, parsed⟩
    rcases row_of_found (queried id [name, feeling, iconText] (by simp [queries])) with
      ⟨row, listed, own, rfl, rfl, rfl⟩
    rcases texts row listed with ⟨noNulName, noNulFeeling⟩
    have sameIcon : iconId = row.iconId := eq_of_stoi_decimal parsed
    simp only [Profile.after, parsed, Option.getD_some, sameIcon] at profile
    rcases Profile.mk.inj profile with ⟨sameName, sameFeeling, sameIconId⟩
    refine ⟨⟨sameId ▸ range, ?_, ?_, ?_⟩, fun _ => ?_⟩
    · rw [sameIconId, ← sameIcon]
      exact isInt32_of_stoi parsed
    · rw [sameName]
      exact ⟨noNulName, shortName⟩
    · rw [sameFeeling]
      exact ⟨noNulFeeling, shortFeeling⟩
    · exact Or.inr ⟨row, listed, own, profile.symm⟩
  · rw [after_of_findsNone (by simpa using one)] at profile
    rcases Profile.mk.inj profile with ⟨sameName, sameFeeling, sameIconId⟩
    refine ⟨⟨sameId ▸ range, ?_, ?_, ?_⟩, fun found => absurd found one⟩
    · exact sameIconId ▸ fits.iconId
    · exact sameName ▸ fits.name
    · exact sameFeeling ▸ fits.feeling

theorem userQueries_of_sendIfOnline {packet : Bytes}
    (executed : state.execute history (sendIfOnline id packet) outcomes = some (final, later, ())) :
    userQueries later = userQueries history := by
  have only : (sendIfOnline id packet).Only fun action => ∀ stmt nColumn,
      action ≠ .select stmt nColumn := by
    apply Program.only_perform_bind (by simp)
    intro online
    split
    · exact ⟨by simp, fun _ => ⟨by simp, fun _ => trivial⟩⟩
    · trivial
  rcases execute_only only executed with ⟨performed, rfl, others⟩
  clear executed only
  induction performed with
  | nil => rfl
  | cons step performed ih =>
      have before := ih fun other member => others other (List.mem_cons_of_mem _ member)
      have other := others step List.mem_cons_self
      rcases step with ⟨action, answer⟩
      cases action with
      | select stmt nColumn => exact absurd rfl (other stmt nColumn)
      | _ => simpa [userQueries] using before

/-- The loop of `getUserInfoAndFriendInfo`: its packets are right exactly if its queries leave
nothing stale in the structure. -/
theorem described_sendFriendInfos {tUser : List UserRow} {own : ℤ} {socket : Handle}
    {userInfo friendInfo : StruUserInfo} {lstStr : List Bytes}
    (online : state.mMapIdToSocket own = some socket) (texts : CStrings tUser)
    (right : Described tUser userInfo.bytes) (fits : friendInfo.Fits)
    (executed : state.execute history (sendFriendInfos own userInfo lstStr friendInfo) outcomes =
      some (final, later, ())) (queried : Queried tUser later) :
    ∃ sends queries, sendsOf later = sends ++ sendsOf history ∧
      userQueries later = userQueries history ++ queries ∧
        ((∀ sent ∈ sends, Described tUser sent.1) ↔
          NeverStale tUser friendInfo.profile queries) := by
  induction lstStr generalizing state history outcomes friendInfo with
  | nil =>
      rcases execute_ret executed with ⟨rfl, rfl, _⟩
      exact ⟨[], [], rfl, by simp, by simp [NeverStale]⟩
  | cons front lstStr ih =>
      rcases execute_toInt_bind executed with ⟨friendId, parsed, executed⟩
      rcases execute_bind executed with ⟨_, _, _, between, filled, _, fills, executed⟩
      rcases execute_bind executed with ⟨_, _, second, toOwn, _, _, sendsOwn, executed⟩
      rcases execute_bind executed with ⟨_, _, third, toFriend, _, _, sendsFriend, remaining⟩
      have earlier : Queried tUser between := queried.of_suffix
        (((suffix_of_execute sendsOwn).trans (suffix_of_execute sendsFriend)).trans
          (suffix_of_execute remaining))
      rcases getInfoById_fills (isInt32_of_stoi parsed) texts fits fills earlier with
        ⟨answer, rfl, sameId, profile, sends, queries, filledFits, one⟩
      rcases execute_sendIfOnline sendsOwn with ⟨ownSends, sentOwn⟩
      rcases execute_sendIfOnline sendsFriend with ⟨friendSends, sentFriend⟩
      have stillOnline : third.mMapIdToSocket own = some socket := by
        rw [(ownSends.trans friendSends).mMapIdToSocket]
        exact online
      rcases ih stillOnline filledFits remaining with
        ⟨more, others, sentRest, queriesRest, restIff⟩
      refine ⟨more ++ (((second.mMapIdToSocket friendId).map fun entry =>
        (userInfo.bytes, entry)).toList ++ [(filled.bytes, socket)]), (friendId, answer) :: others,
        ?_, ?_, ?_⟩
      · rw [sentRest, sentFriend, sentOwn, sends, online]
        simp
      · rw [queriesRest, userQueries_of_sendIfOnline sendsFriend,
          userQueries_of_sendIfOnline sendsOwn, queries]
        simp
      · have toFriends : ∀ sent ∈ ((second.mMapIdToSocket friendId).map fun entry =>
            (userInfo.bytes, entry)).toList, Described tUser sent.1 := by
          intro sent member
          rcases Option.mem_map.mp (Option.mem_toList.mp member) with ⟨entry, _, rfl⟩
          exact right
        have own : Described tUser filled.bytes ↔
            (findsOne answer = false → ProfileOf tUser friendId friendInfo.profile) := by
          rw [described_iff filledFits, sameId, profile]
          cases found : findsOne answer with
          | true => exact ⟨fun _ => by simp, fun _ => profile ▸ one found⟩
          | false => simp [after_of_findsNone found]
        rw [NeverStale, ← own, ← profile, ← restIff]
        constructor
        · intro all
          exact ⟨all (filled.bytes, socket) (by simp),
            fun sent member => all sent (by simp [member])⟩
        · rintro ⟨first, rest⟩ sent member
          rcases List.mem_append.mp member with later | now
          · exact rest sent later
          rcases List.mem_append.mp now with toFriend | toOwn
          · exact toFriends sent toFriend
          · rw [List.mem_singleton.mp toOwn]
            exact first

/-- In an execution that returns, no packet mixes two users exactly if no query about a friend that
finds no single row meets what an earlier one has left of somebody else. -/
theorem infos_described_iff (range : IsInt32 id) (texts : CStrings state.tUser)
    (executed : state.execute [] (getUserInfoAndFriendInfo id) outcomes =
      some (final, history, ())) (queried : Queried state.tUser history) :
    (∀ sent ∈ sendsOf history, Described state.tUser sent.1) ↔
      NeverStale state.tUser {} (userQueries history).tail := by
  rcases execute_bind executed with ⟨_, _, _, between, userInfo, _, fills, executed⟩
  have blank : ({} : StruUserInfo).Fits :=
    ⟨by decide, by decide, ⟨by simp, by decide⟩, ⟨by simp, by decide⟩⟩
  rcases getInfoById_fills range texts blank fills
      (queried.of_suffix (suffix_of_execute executed)) with
    ⟨answer, same, sameId, profile, sends, queries, fits, one⟩
  have right : Described state.tUser userInfo.bytes := by
    rw [described_iff fits, sameId]
    cases found : findsOne answer with
    | true => exact one found
    | false =>
        rw [profile, after_of_findsNone found]
        exact Or.inl rfl
  rw [same] at executed
  rcases execute_perform_bind executed with ⟨_, _, _, _, _, counted, executed⟩
  rcases Prod.mk.inj (Option.some.inj counted) with ⟨rfl, rfl⟩
  cases online : state.mMapIdToSocket id with
  | none =>
      simp only [online, Option.isSome_none] at executed
      rcases execute_act executed with ⟨_, _, _, answer, _⟩
      exact answer.elim
  | some socket =>
      simp only [online, Option.isSome_some] at executed
      rcases execute_perform_bind executed with ⟨outcome, _, _, found, _, looked, executed⟩
      rw [perform_socketOf online] at looked
      rcases Prod.mk.inj (Option.some.inj looked) with ⟨rfl, rfl⟩
      rcases execute_perform_bind executed with ⟨sending, _, _, _, _, sent, executed⟩
      rcases Prod.mk.inj (Option.some.inj sent) with ⟨rfl, rfl⟩
      rcases execute_sprintfS_bind executed with ⟨_, executed⟩
      rcases execute_perform_bind executed with
        ⟨_, _, after, (friends : Option (List Bytes)), _, selected, executed⟩
      have unchanged : after = state.sendData userInfo.bytes socket sending.takes := by
        cases performs_of_perform selected <;> rfl
      have sent (answered : Option (List Bytes)) : sendsOf (⟨.select (.friendIds id) 1, answered⟩ ::
          ⟨.sendData userInfo.bytes socket, ()⟩ :: ⟨.socketOf id, socket⟩ ::
            ⟨.count id, true⟩ :: between) = [(userInfo.bytes, socket)] := by
        simpa [sendsOf] using sends
      have asked (answered : Option (List Bytes)) : userQueries
          (⟨.select (.friendIds id) 1, answered⟩ ::
          ⟨.sendData userInfo.bytes socket, ()⟩ :: ⟨.socketOf id, socket⟩ ::
            ⟨.count id, true⟩ :: between) = [(id, answer)] := by
        simpa [userQueries] using queries
      cases friends with
      | none =>
          rcases execute_ret executed with ⟨_, rfl, _⟩
          rw [sent none, asked none]
          simpa [NeverStale] using right
      | some lstStr =>
          have online : after.mMapIdToSocket id = some socket := by
            rw [unchanged, (onlySends_sendData _ _ _ _).mMapIdToSocket]
            exact online
          rcases described_sendFriendInfos online texts right blank executed queried with
            ⟨more, others, sentRest, queriesRest, iff⟩
          rw [sentRest, queriesRest, sent (some lstStr), asked (some lstStr)]
          refine Iff.trans ⟨fun all sent member => all sent (by simp [member]), ?_⟩ iff
          intro all sent member
          rcases List.mem_append.mp member with later | first
          · exact all sent later
          · rw [List.mem_singleton.mp first]
            exact right

end Executions

def carol : UserRow := ⟨3, ascii "carol", ascii "789", ascii "covert", [], 4⟩

/-- Alice is online and asks about her friends, Bob and Carol. -/
def aliceOnline : State :=
  { start [alice, bob, carol] [(1, 2), (2, 1), (1, 3), (3, 1)] with
    mMapIdToSocket := fun id => if id = 1 then some 4 else none }

def answersWith (friends : List (ℤ × Option UserRow)) : List Outcome :=
  [.internal, .rows (some [[alice.name, alice.feeling, decimal alice.iconId]]), .internal,
    .internal, .internal, .rows (some (friends.map fun friend_ => [decimal friend_.1]))] ++
    friends.flatMap fun friend_ =>
      [.internal, .rows (friend_.2.map fun row => [[row.name, row.feeling, decimal row.iconId]]),
        .internal, .internal, .internal, .internal]

/-- The query about Carol fails, and comes first. -/
theorem infos_described_iff_first : ∃ final history,
    aliceOnline.execute [] (getUserInfoAndFriendInfo 1) (answersWith [(3, none), (2, some bob)]) =
        some (final, history, ()) ∧
      ∀ sent ∈ sendsOf history, Described aliceOnline.tUser sent.1 := by
  have evaluated : (aliceOnline.execute [] (getUserInfoAndFriendInfo 1)
      (answersWith [(3, none), (2, some bob)])).any (fun result => userQueries result.2.1 =
        [(1, some [alice.name, alice.feeling, decimal alice.iconId]), (3, none),
          (2, some [bob.name, bob.feeling, decimal bob.iconId])]) = true := by
    decide +kernel
  rcases (Option.any_eq_true _ _).mp evaluated with ⟨⟨final, history, _⟩, executed, queries⟩
  have queries : userQueries history = [(1, some [alice.name, alice.feeling, decimal alice.iconId]),
    (3, none), (2, some [bob.name, bob.feeling, decimal bob.iconId])] := by simpa using queries
  refine ⟨final, history, executed, ?_⟩
  refine (infos_described_iff (by decide) ?_ executed ?_).mpr ?_
  · simp [CStrings, aliceOnline, start]
    decide
  · intro id found member
    simp only [queries, List.mem_cons, Prod.mk.injEq, Option.some.injEq, reduceCtorEq, and_false,
      List.not_mem_nil, or_false, false_or] at member
    rcases member with ⟨rfl, rfl⟩ | ⟨rfl, rfl⟩
    · rfl
    · rfl
  · rw [queries]
    simp [NeverStale, findsOne, ProfileOf]

/-- The query about Carol fails after that about Bob, and Alice gets his name under her id. -/
theorem infos_described_fails : ∃ final history packet socket,
    aliceOnline.execute [] (getUserInfoAndFriendInfo 1) (answersWith [(2, some bob), (3, none)]) =
        some (final, history, ()) ∧
      (packet, socket) ∈ sendsOf history ∧ StruUserInfo.readId packet = some 3 ∧
        StruUserInfo.readName packet = some bob.name ∧ ¬Described aliceOnline.tUser packet := by
  have evaluated : (aliceOnline.execute [] (getUserInfoAndFriendInfo 1)
      (answersWith [(2, some bob), (3, none)])).any (fun result =>
        (sendsOf result.2.1).any fun sent =>
          StruUserInfo.readId sent.1 = some 3 ∧ StruUserInfo.readName sent.1 = some bob.name) =
            true := by
    decide +kernel
  rcases (Option.any_eq_true _ _).mp evaluated with ⟨⟨final, history, _⟩, executed, mixed⟩
  rcases List.any_eq_true.mp mixed with ⟨⟨packet, socket⟩, sent, reads⟩
  rcases of_decide_eq_true reads with ⟨readId, readName⟩
  refine ⟨final, history, packet, socket, executed, sent, readId, readName, ?_⟩
  rintro ⟨id, name, feeling, iconId, readsId, readsName, _, _, own⟩
  rcases Option.some.inj (readId.symm.trans readsId) with rfl
  rcases Option.some.inj (readName.symm.trans readsName) with rfl
  rcases own with blank | ⟨row, listed, sameId, sameProfile⟩
  · have empty : bob.name = [] := congrArg Profile.name blank
    exact absurd empty (by decide)
  · have sameName : row.name = bob.name := congrArg Profile.name sameProfile
    have rows : ∀ row ∈ [alice, bob, carol], row.id = 3 → row.name ≠ bob.name := by decide
    exact rows row listed sameId sameName

end State

end InstanceMessage
