import InstanceMessage.Server.Contract
import InstanceMessage.Server.Requests

/-!
# What handlers tell users about each other

Two facts about the handlers, one for each direction. A handler sends user
information only about a user whose entry it has looked for, and only to that
user or to one whom it has read to be his friend. And a handler that enters a
user in the map, or adds two users to each other's lists, is going to tell each
of them about the other: it reads the list after the entry or the rows are
there, and it looks for both entries afterwards.

The second fact is about paths: `Grants` are the answers that a handler gets
while one of two friends has an entry and all statements succeed.
-/

namespace InstanceMessage

open Library Handler

/-! ## Only about friends, and only to friends -/

/-- User information is that of a user who has been introduced. -/
def tellLaw (history : History) : Action → Prop
  | .sendData packet clientId => packetType packet = some defUserInfo →
      ∃ (info : StruUserInfo) (id presented : ℤ), packet = info.bytes ∧
        LookedUp history id clientId ∧ Introduces history presented info id
  | _ => True

theorem tellLaw_of_law {data : Bytes} {from_ : Handle} {history : History} {action : Action}
    (lawful : law data from_ history action) : tellLaw history action := by
  cases action with
  | sendData packet clientId =>
      intro type
      rcases lawful with ⟨_, reply⟩ | ⟨id, lookedUp, delivered⟩
      · exact absurd type (reply.packetType_ne_of_notMem (by decide))
      · cases delivered with
        | passedOn addressee => exact absurd type (addressee.packetType_ne_of_notMem (by decide))
        | @told presented info _ introduces =>
            exact ⟨info, id, presented, rfl, lookedUp, introduces⟩
  | _ => trivial

/-- The handler of every packet tells users only about themselves and their friends. -/
theorem dealData_tactful (data : Bytes) (from_ : Handle) :
    (dealData data from_).Obeys tellLaw (fun _ _ => True) [] :=
  (dealData_lawful data from_ []).mono (fun _ _ lawful => tellLaw_of_law lawful)
    fun _ _ returned => returned

/-! ## Each of two friends about the other -/

/-- The answers that a handler gets while the user has the socket as his entry, the two users are
friends, and all statements succeed. -/
def Grants (id friendId : ℤ) (entry : Handle) : (action : Action) → action.Answer → Prop
  | .count key, (online : Bool) => key = id → online = true
  | .socketOf key, (socket : Handle) => key = id → socket = entry
  | .select (.friendIds key) _, (found : Option (List Bytes)) => ∃ texts, found = some texts ∧
      (key = id → decimal friendId ∈ texts) ∧ (key = friendId → decimal id ∈ texts)
  | .select (.friendIdsOffline key) _, (found : Option (List Bytes)) =>
      ∃ texts, found = some texts ∧ (key = friendId → decimal id ∈ texts)
  | .update _, (done : Bool) => done = true
  | _, _ => True

/-- The action tells the socket about the user. -/
def TellsOf (friendId : ℤ) (socket : Handle) (action : Action) : Prop :=
  ∃ packet, action = .sendData packet socket ∧ tells friendId packet = true

section Reaches

variable {granted : (action : Action) → action.Answer → Prop} {goal : Action → Prop}
  {Value : Type}

theorem reaches_abort {cause : Cause} {onReturn : Value → Prop} :
    (abort cause : Handler Value).Reaches granted goal onReturn :=
  Or.inr fun answer => nomatch answer

theorem reaches_exit {code : ℤ} {onReturn : Value → Prop} :
    (Handler.exit code : Handler Value).Reaches granted goal onReturn :=
  Or.inr fun answer => nomatch answer

theorem reaches_sprintfS {size : ℕ} {text : Bytes} {onReturn : Bytes → Prop}
    (continues : onReturn text) : (sprintfS size text).Reaches granted goal onReturn := by
  simp only [sprintfS]
  split
  · exact continues
  · exact reaches_abort

theorem reaches_strcpyS {size : ℕ} {text : Bytes} {onReturn : Bytes → Prop}
    (continues : onReturn text) : (strcpyS size text).Reaches granted goal onReturn := by
  simp only [strcpyS]
  split
  · exact continues
  · exact reaches_abort

theorem reaches_toInt {text : Bytes} {onReturn : ℤ → Prop}
    (continues : ∀ value, stoi text = some value → onReturn value) :
    (toInt text).Reaches granted goal onReturn := by
  simp only [toInt]
  cases parsed : stoi text with
  | none => exact reaches_abort
  | some value => exact continues value parsed

theorem reaches_past_sendIfOnline {id : ℤ} {packet : Bytes} {onReturn : Unit → Prop}
    (continues : onReturn ()) : (sendIfOnline id packet).Reaches granted goal onReturn := by
  apply Program.reaches_perform_bind
  intro (online : Bool) _
  cases online with
  | false => exact continues
  | true =>
      apply Program.reaches_perform_bind
      intro socket _
      exact Or.inr fun _ _ => continues

theorem reaches_getInfoById {id : ℤ} {info : StruUserInfo} {onReturn : StruUserInfo → Prop}
    (continues : ∀ found : StruUserInfo, found.id = id → onReturn found) :
    (getInfoById id info).Reaches granted goal onReturn := by
  apply Program.reaches_perform_bind
  intro (online : Bool) _
  refine Program.reaches_bind (reaches_sprintfS ?_)
  apply Program.reaches_perform_bind
  intro (found : Option (List Bytes)) _
  split
  · refine Program.reaches_bind (reaches_strcpyS ?_)
    refine Program.reaches_bind (reaches_strcpyS ?_)
    exact Program.reaches_bind (reaches_toInt fun _ _ => continues _ rfl)
  · exact continues _ rfl

end Reaches

section Friends

variable {id friendId : ℤ} {entry : Handle} {goal : Action → Prop} {onReturn : Unit → Prop}

/-- A packet for a user with an entry is sent to it. -/
theorem reaches_sendIfOnline {packet : Bytes} (sends : goal (.sendData packet entry)) :
    (sendIfOnline id packet).Reaches (Grants id friendId entry) goal onReturn := by
  apply Program.reaches_perform_bind
  intro (online : Bool) here
  have yes : online = true := here rfl
  subst yes
  apply Program.reaches_perform_bind
  intro socket found
  have same : socket = entry := found rfl
  subst same
  exact Or.inl sends

/-- The loop over one user's friends tells about him, or tells him about the friend. -/
theorem reaches_sendFriendInfos {own : ℤ} {userInfo friendInfo : StruUserInfo}
    {lstStr : List Bytes} (same : userInfo.id = own)
    (sends : ∀ info : StruUserInfo, info.id = friendId → IsInt32 friendId →
      goal (.sendData info.bytes entry))
    (pair : (own = id ∧ decimal friendId ∈ lstStr) ∨
      (own = friendId ∧ IsInt32 friendId ∧ decimal id ∈ lstStr)) :
    (sendFriendInfos own userInfo lstStr friendInfo).Reaches (Grants id friendId entry) goal
      onReturn := by
  induction lstStr generalizing friendInfo with
  | nil => simp at pair
  | cons front lstStr ih =>
      refine Program.reaches_bind (reaches_toInt fun next parsed => ?_)
      refine Program.reaches_bind (reaches_getInfoById fun found named => ?_)
      rcases pair with ⟨rfl, listed⟩ | ⟨rfl, range, listed⟩
      · rcases List.mem_cons.mp listed with rfl | later
        · rcases eq_of_stoi_decimal parsed with rfl
          exact Program.reaches_bind
            (reaches_sendIfOnline (sends found named (isInt32_of_stoi parsed)))
        · refine Program.reaches_bind (reaches_past_sendIfOnline ?_)
          refine Program.reaches_bind (reaches_past_sendIfOnline ?_)
          exact ih (Or.inl ⟨rfl, later⟩)
      · refine Program.reaches_bind (reaches_past_sendIfOnline ?_)
        rcases List.mem_cons.mp listed with rfl | later
        · rcases eq_of_stoi_decimal parsed with rfl
          exact Program.reaches_bind (reaches_sendIfOnline (sends userInfo same range))
        · refine Program.reaches_bind (reaches_past_sendIfOnline ?_)
          exact ih (Or.inr ⟨rfl, range, later⟩)

/-- Whichever of the two friends the information is collected for, the one with the entry is told
about the other. -/
theorem reaches_getUserInfoAndFriendInfo {own : ℤ} (range : IsInt32 own)
    (sends : ∀ info : StruUserInfo, info.id = friendId → IsInt32 friendId →
      goal (.sendData info.bytes entry))
    (either : own = id ∨ own = friendId) :
    (getUserInfoAndFriendInfo own).Reaches (Grants id friendId entry) goal onReturn := by
  refine Program.reaches_bind (reaches_getInfoById fun userInfo same => ?_)
  apply Program.reaches_perform_bind
  intro (online : Bool) _
  cases online with
  | false => exact reaches_exit
  | true =>
      apply Program.reaches_perform_bind
      intro socket _
      apply Program.reaches_perform_bind
      intro _ _
      refine Program.reaches_bind (reaches_sprintfS ?_)
      apply Program.reaches_perform_bind
      intro (found : Option (List Bytes)) read
      rcases read with ⟨texts, rfl, ofId, ofFriend⟩
      apply reaches_sendFriendInfos same sends
      rcases either with rfl | rfl
      · exact Or.inl ⟨rfl, ofId rfl⟩
      · exact Or.inr ⟨rfl, range, ofFriend rfl⟩

end Friends

/-- The program is going to tell each of the two users about the other. -/
def TellsEach (idA idB : ℤ) (prog : Handler Unit) : Prop :=
  ∀ entry, (prog.Reaches (Grants idA idB entry) (TellsOf idB entry) fun _ => False) ∧
    prog.Reaches (Grants idB idA entry) (TellsOf idA entry) fun _ => False

theorem tellsOf_userInfo {friendId : ℤ} {socket : Handle} (info : StruUserInfo)
    (same : info.id = friendId) (range : IsInt32 friendId) :
    TellsOf friendId socket (.sendData info.bytes socket) := by
  subst same
  exact ⟨_, rfl, tells_userInfo range⟩

theorem tellsEach_getUserInfoAndFriendInfo {own idA idB : ℤ} (range : IsInt32 own)
    (either : own = idA ∨ own = idB) : TellsEach idA idB (getUserInfoAndFriendInfo own) := by
  intro entry
  constructor
  · exact reaches_getUserInfoAndFriendInfo range tellsOf_userInfo either
  · exact reaches_getUserInfoAndFriendInfo range tellsOf_userInfo either.symm

theorem TellsEach.bind {idA idB : ℤ} {prog : Handler Unit} (tellsEach : TellsEach idA idB prog)
    (rest : Unit → Handler Unit) : TellsEach idA idB (prog >>= rest) := by
  intro entry
  rcases tellsEach entry with ⟨toA, toB⟩
  constructor
  · exact Program.reaches_bind (toA.mono fun _ never => never.elim)
  · exact Program.reaches_bind (toB.mono fun _ never => never.elim)

/-- A program that enters a user is going to tell him and his friends about each other, and one
that adds a friendship, the two friends. -/
def Announces : Handler Unit → Prop
  | .act (.setSocket id _) rest => ∀ friendId, TellsEach id friendId (rest ())
  | .act (.update (.insertFriend idA idB)) rest => TellsEach idA idB (rest true)
  | _ => True

section Announces

variable {data : Bytes} {from_ : Handle}

theorem announces_of_quiet {action : Action} {rest : action.Answer → Handler Unit}
    (quiet : Quiet action) : Announces (.act action rest) := by
  cases action with
  | setSocket id socket => exact quiet.elim
  | update stmt => exact quiet.elim
  | _ => trivial

theorem everywhere_announces_of_quiet {prog : Handler Unit} (quiet : prog.Only Quiet) :
    prog.Everywhere Announces :=
  quiet.everywhere (fun _ => trivial) fun _ _ => announces_of_quiet

theorem dealLoginRq_announces : (dealLoginRq data from_).Everywhere Announces := by
  have passes (action : Action) (rest : action.Answer → Handler Unit) (quiet : Quiet action) :
      Announces (.act action rest) := announces_of_quiet quiet
  refine Program.everywhere_bind passes (quiet_field _) fun tel => ?_
  refine Program.everywhere_bind passes (quiet_field _) fun rqPassword => ?_
  refine Program.everywhere_bind passes (quiet_sprintfS _ _) fun _ => ?_
  apply Program.everywhere_perform_bind trivial
  intro (found : Option (List Bytes))
  rcases found with _ | _ | ⟨password, _ | ⟨idText, rest⟩⟩
  · trivial
  · exact ⟨trivial, fun _ => trivial⟩
  · exact ⟨trivial, fun answer => answer.elim⟩
  simp only [toInt]
  cases parsed : stoi idText with
  | none => exact ⟨trivial, fun answer => answer.elim⟩
  | some id =>
      simp only [Program.bind_ret]
      split
      · apply Program.everywhere_perform_bind trivial
        intro _
        refine Program.everywhere_perform_bind (fun friendId => ?_) fun _ => ?_
        · exact tellsEach_getUserInfoAndFriendInfo (isInt32_of_stoi parsed) (Or.inl rfl)
        · exact everywhere_announces_of_quiet (quiet_getUserInfoAndFriendInfo id)
      · exact ⟨trivial, fun _ => trivial⟩

theorem dealAddFriendRs_announces : (dealAddFriendRs data from_).Everywhere Announces := by
  have passes (action : Action) (rest : action.Answer → Handler Unit) (quiet : Quiet action) :
      Announces (.act action rest) := announces_of_quiet quiet
  refine Program.everywhere_bind passes (quiet_field _) fun result => ?_
  cases readFriendId : StruAddFriendRs.readFriendId data with
  | none =>
      simp only [field_of_unread readFriendId]
      exact ⟨trivial, fun answer => nomatch answer⟩
  | some friendId =>
      have rangeA : IsInt32 friendId := isInt32_of_readInt32 readFriendId
      simp only [field_of_read readFriendId, liftM_handler, data_received, Program.bind_ret]
      split
      · cases readUserId : StruAddFriendRs.readUserId data with
        | none =>
            simp only [field_of_unread readUserId]
            exact ⟨trivial, fun answer => nomatch answer⟩
        | some userId =>
            have rangeB : IsInt32 userId := isInt32_of_readInt32 readUserId
            have room : 1024 ≤ 1024 * 2 := by decide
            simp only [field_of_read readUserId,
              sprintfS_text (.insertFriend friendId userId) ⟨rangeA, rangeB⟩ room,
              sprintfS_text (.insertFriend userId friendId) ⟨rangeB, rangeA⟩ room,
              Program.bind_ret]
            have tellsEach {idA idB : ℤ} (either : friendId = idA ∨ friendId = idB) :
                TellsEach idA idB (getUserInfoAndFriendInfo friendId >>= fun _ =>
                  sendIfOnline friendId data) :=
              (tellsEach_getUserInfoAndFriendInfo rangeA either).bind _
            refine Program.everywhere_perform_bind ?_ fun (first : Bool) => ?_
            · intro entry
              rcases @tellsEach friendId userId (Or.inl rfl) entry with ⟨toFriend, toUser⟩
              constructor <;> apply Program.reaches_perform_bind <;>
                intro (second : Bool) (done : second = true) <;> subst done
              · exact toFriend
              · exact toUser
            cases first with
            | false => trivial
            | true =>
                refine Program.everywhere_perform_bind (tellsEach (Or.inr rfl))
                  fun (second : Bool) => ?_
                cases second with
                | false => trivial
                | true =>
                    apply everywhere_announces_of_quiet
                    exact Program.only_bind (quiet_getUserInfoAndFriendInfo _) fun _ =>
                      quiet_sendIfOnline _ _
      · exact everywhere_announces_of_quiet (quiet_sendIfOnline _ _)

theorem dealData_announces (data : Bytes) (from_ : Handle) :
    (dealData data from_).Everywhere Announces := by
  by_cases logsIn : packetType data = some defLoginRq
  · rw [dealData_loginRq logsIn]
    exact dealLoginRq_announces
  by_cases agrees : packetType data = some defAddFriendRs
  · rw [dealData_addFriendRs agrees]
    exact dealAddFriendRs_announces
  have only : (dealData data from_).Only fun action =>
      (∀ id socket, action ≠ .setSocket id socket) ∧
        ∀ idA idB, action ≠ .update (.insertFriend idA idB) := by
    apply (dealData_lawful data from_ []).only
    intro history action lawful
    constructor
    · rintro id socket rfl
      exact logsIn lawful.1
    · rintro idA idB rfl
      exact agrees lawful.1
  refine only.everywhere (fun _ => trivial) fun action next other => ?_
  cases action with
  | setSocket id socket => exact absurd rfl (other.1 id socket)
  | update stmt =>
      cases stmt with
      | insertFriend idA idB => exact absurd rfl (other.2 idA idB)
      | _ => trivial
  | _ => trivial

end Announces

end InstanceMessage
