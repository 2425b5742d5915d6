import InstanceMessage.Server.Registration
import InstanceMessage.Server.Serving

/-!
# Accounts over whole histories

When registrations and logins are handled one after the other, the account
table is exactly what the successful registrations have made of it, and the
answer to each request is determined by the registrations before it.

A registration adds a row only when neither column holds its value, so both
columns stay free of double values; that is why the first two texts of the
flattened answer to a login's query are those of the one row with the number.

Texts are compared byte by byte, in the statements as they are meant; texts
without quotes and backslashes are read that way (`queries_read_as_intended`).
-/

namespace InstanceMessage

open Library

def StruRegisterRq.row (rq : StruRegisterRq) (id : ℤ) : UserRow :=
  ⟨id, rq.name, rq.tel, rq.password, defaultFeeling, 4⟩

/-! ## Uninterrupted handlers -/

section Served

variable {state after : State} {from_ : Handle} {history : History} {outcomes : List Outcome}

/-- The ways a registration can go, with the table after it and the whole history. -/
inductive RegisterServed (rq : StruRegisterRq) (from_ : Handle) (tUser : List UserRow) :
    List UserRow → History → Prop
  | telFails : RegisterServed rq from_ tUser tUser [⟨.select (.telByTel rq.tel) 1, none⟩]
  | telExists {texts : List Bytes} (used : rq.tel ∈ tUser.map UserRow.tel) :
      RegisterServed rq from_ tUser tUser
        [⟨.sendData (StruRegisterRs.bytes ⟨defRegisterTelExists⟩) from_, ()⟩,
          ⟨.select (.telByTel rq.tel) 1, some texts⟩]
  | nameFails : RegisterServed rq from_ tUser tUser
      [⟨.select (.nameByName rq.name) 1, none⟩, ⟨.select (.telByTel rq.tel) 1, some []⟩]
  | nameExists {texts : List Bytes} (free : rq.tel ∉ tUser.map UserRow.tel)
      (used : rq.name ∈ tUser.map UserRow.name) :
      RegisterServed rq from_ tUser tUser
        [⟨.sendData (StruRegisterRs.bytes ⟨defRegisterNameExists⟩) from_, ()⟩,
          ⟨.select (.nameByName rq.name) 1, some texts⟩, ⟨.select (.telByTel rq.tel) 1, some []⟩]
  | insertFails : RegisterServed rq from_ tUser tUser
      [⟨.update (.insertUser rq.name rq.tel rq.password), false⟩,
        ⟨.select (.nameByName rq.name) 1, some []⟩, ⟨.select (.telByTel rq.tel) 1, some []⟩]
  | inserted {id : ℤ} (range : IsInt32 id) (telFree : rq.tel ∉ tUser.map UserRow.tel)
      (nameFree : rq.name ∉ tUser.map UserRow.name) :
      RegisterServed rq from_ tUser (tUser ++ [rq.row id])
        [⟨.sendData registerSuccess from_, ()⟩,
          ⟨.update (.insertUser rq.name rq.tel rq.password), true⟩,
          ⟨.select (.nameByName rq.name) 1, some []⟩, ⟨.select (.telByTel rq.tel) 1, some []⟩]

theorem tUser_sendData (state : State) (packet : Bytes) (clientId : Handle) (taken : Bool) :
    (state.sendData packet clientId taken).tUser = state.tUser := by
  rcases state.exists_sendData_eq packet clientId taken with ⟨_, _, same⟩
  rw [same]

/-- A select on a column finds nothing exactly when the value is not there. -/
theorem flatten_rows_eq_nil_iff (state : State) (key : AccountKey) (value : Bytes) :
    (state.rows (key.query value)).flatten = [] ↔ value ∉ state.tUser.map key.ofRow := by
  constructor
  · exact State.not_mem_of_rows
  · intro absent
    rw [State.rows_query, List.flatten_eq_nil_iff]
    intro texts listed
    rcases List.mem_map.mp listed with ⟨row, found, rfl⟩
    rcases List.mem_filter.mp found with ⟨member, same⟩
    exact absurd (List.mem_map.mpr ⟨row, member, of_decide_eq_true same⟩) absent

theorem mem_of_flatten_rows {state : State} (key : AccountKey) {value text : Bytes}
    {texts : List Bytes} (found : (state.rows (key.query value)).flatten = text :: texts) :
    value ∈ state.tUser.map key.ofRow := by
  by_contra absent
  rw [(flatten_rows_eq_nil_iff state key value).mpr absent] at found
  exact nomatch found

theorem serve_register {rq : StruRegisterRq}
    (served : State.serve (register rq from_) state [] outcomes = some (after, history))
    (fair : State.Fair (register rq from_) state outcomes) :
    RegisterServed rq from_ state.tUser after.tUser history := by
  rcases State.serve_select served fair with ⟨found, outcomes, answered, fair, served⟩
  rcases answered with rfl | rfl
  · rcases Prod.mk.inj (State.serve_ret served).2 with ⟨rfl, rfl⟩
    exact .telFails
  cases telFound : (state.rows (.telByTel rq.tel)).flatten with
  | cons text texts =>
      rw [telFound] at served
      rcases State.serve_sendData served with ⟨_, _, served⟩
      rcases Prod.mk.inj (State.serve_ret served).2 with ⟨rfl, rfl⟩
      rw [tUser_sendData]
      exact .telExists (mem_of_flatten_rows .tel telFound)
  | nil =>
      rw [telFound] at served fair
      have telFree := (flatten_rows_eq_nil_iff state .tel rq.tel).mp telFound
      rcases State.serve_select served fair with ⟨found, outcomes, answered, fair, served⟩
      rcases answered with rfl | rfl
      · rcases Prod.mk.inj (State.serve_ret served).2 with ⟨rfl, rfl⟩
        exact .nameFails
      cases nameFound : (state.rows (.nameByName rq.name)).flatten with
      | cons text texts =>
          rw [nameFound] at served
          rcases State.serve_sendData served with ⟨_, _, served⟩
          rcases Prod.mk.inj (State.serve_ret served).2 with ⟨rfl, rfl⟩
          rw [tUser_sendData]
          exact .nameExists telFree (mem_of_flatten_rows .name nameFound)
      | nil =>
          rw [nameFound] at served fair
          have nameFree := (flatten_rows_eq_nil_iff state .name rq.name).mp nameFound
          rcases State.serve_insertUser served fair with ⟨ok, middle, outcomes, changed, _, insert⟩
          rcases changed with ⟨rfl, same⟩ | ⟨rfl, id, range, same⟩
          · rcases Prod.mk.inj (State.serve_ret insert).2 with ⟨rfl, rfl⟩
            rw [same]
            exact .insertFails
          · rcases State.serve_sendData insert with ⟨_, _, told⟩
            rcases Prod.mk.inj (State.serve_ret told).2 with ⟨rfl, rfl⟩
            rw [tUser_sendData, same]
            exact .inserted range telFree nameFree

def telNotRegister : Bytes := StruLoginRs.bytes { result := defLoginTelNotRegister }

def passwordError : Bytes := StruLoginRs.bytes { result := defLoginPasswordError }

/-- The ways a login can go, with the whole history; after a success it only tells about users. -/
inductive LoginServed (rq : StruLoginRq) (from_ : Handle) (tUser : List UserRow) : History → Prop
  | fails : LoginServed rq from_ tUser [⟨.select (.passIdByTel rq.tel) 2, none⟩]
  | notRegistered (free : rq.tel ∉ tUser.map UserRow.tel) :
      LoginServed rq from_ tUser
        [⟨.sendData telNotRegister from_, ()⟩, ⟨.select (.passIdByTel rq.tel) 2, some []⟩]
  | mismatch {row : UserRow} {texts : List Bytes} (member : row ∈ tUser) (tel : row.tel = rq.tel)
      (other : row.pass ≠ rq.password) :
      LoginServed rq from_ tUser
        [⟨.sendData passwordError from_, ()⟩, ⟨.select (.passIdByTel rq.tel) 2, some texts⟩]
  | matched {row : UserRow} {texts : List Bytes} {newer : History} (member : row ∈ tUser)
      (tel : row.tel = rq.tel) (same : row.pass = rq.password)
      (tells : ∀ packet clientId, (⟨.sendData packet clientId, ()⟩ : Performed Action.Answer) ∈
        newer → IsUserInfo packet) :
      LoginServed rq from_ tUser (newer ++ [⟨.sendData (loginSuccess row.id) from_, ()⟩,
        ⟨.select (.passIdByTel rq.tel) 2, some texts⟩])

/-- What a successful login does after its reply: it enters the socket and tells about users. -/
def Enters : Action → Prop
  | .setSocket _ _ => True
  | action => Informs IsUserInfo action

theorem Informs.enters {action : Action} (informs : Informs IsUserInfo action) :
    Enters action := by
  cases action <;> trivial

theorem serve_login {rq : StruLoginRq}
    (range : ∀ row ∈ state.tUser, IsInt32 row.id)
    (served : State.serve (login rq from_) state [] outcomes = some (after, history))
    (fair : State.Fair (login rq from_) state outcomes) :
    LoginServed rq from_ state.tUser history := by
  rcases State.serve_select served fair with ⟨found, outcomes, answered, fair, served⟩
  rcases answered with rfl | rfl
  · rcases Prod.mk.inj (State.serve_ret served).2 with ⟨rfl, rfl⟩
    exact .fails
  cases rows : state.tUser.filter (·.tel = rq.tel) with
  | nil =>
      have nothing : (state.rows (.passIdByTel rq.tel)).flatten = [] := by
        simp only [State.rows, rows, List.map_nil, List.flatten_nil]
      rw [nothing] at served
      rcases State.serve_sendData served with ⟨_, _, told⟩
      rcases Prod.mk.inj (State.serve_ret told).2 with ⟨rfl, rfl⟩
      refine .notRegistered fun used => ?_
      rcases List.mem_map.mp used with ⟨row, member, tel⟩
      exact List.filter_eq_nil_iff.mp rows row member (decide_eq_true tel)
  | cons row others =>
      have found : row ∈ state.tUser.filter (·.tel = rq.tel) := rows ▸ List.mem_cons_self
      rcases List.mem_filter.mp found with ⟨member, tel⟩
      have tel : row.tel = rq.tel := of_decide_eq_true tel
      have texts : (state.rows (.passIdByTel rq.tel)).flatten = row.pass :: decimal row.id ::
          (others.map fun row => [row.pass, decimal row.id]).flatten := by
        simp only [State.rows, rows, List.map_cons, List.flatten_cons, List.cons_append,
          List.nil_append]
      have parsed : Handler.toInt (decimal row.id) = .ret row.id := by
        simp only [Handler.toInt, stoi_decimal (range row member)]
      rw [texts] at served
      have goesOn : State.serve (Handler.toInt (decimal row.id) >>= fun id =>
          if row.pass = rq.password then do
            Handler.sendData (loginSuccess id) from_
            Handler.setSocket id from_
            getUserInfoAndFriendInfo id
          else Handler.sendData passwordError from_) state
          [⟨.select (.passIdByTel rq.tel) 2, some (row.pass :: decimal row.id ::
            (others.map fun row => [row.pass, decimal row.id]).flatten)⟩] outcomes =
            some (after, history) := served
      rw [parsed, Program.bind_ret] at goesOn
      by_cases same : row.pass = rq.password
      · rw [if_pos same] at goesOn
        rcases State.serve_sendData goesOn with ⟨_, _, told⟩
        have only : (do Handler.setSocket row.id from_; getUserInfoAndFriendInfo row.id :
            Handler Unit).Only Enters :=
          ⟨trivial, fun _ => (informs_getUserInfoAndFriendInfo row.id).mono
            fun _ => Informs.enters⟩
        rcases State.serve_only only told with ⟨newer, rfl, enters⟩
        refine .matched member tel same ?_
        intro packet clientId sent
        exact enters _ sent
      · rw [if_neg same] at goesOn
        rcases State.serve_sendData goesOn with ⟨_, _, told⟩
        rcases Prod.mk.inj (State.serve_ret told).2 with ⟨rfl, rfl⟩
        exact .mismatch member tel same

end Served

/-! ## The answers and the history they depend on -/

namespace Exchange

def Answered (exchange : Exchange) (packet : Bytes) : Prop :=
  (⟨.sendData packet exchange.from_, ()⟩ : Performed Action.Answer) ∈ exchange.history

/-- No statement of the handler has failed. -/
def Succeeded (exchange : Exchange) : Prop :=
  (∀ stmt nColumn, (⟨.select stmt nColumn, none⟩ : Performed Action.Answer) ∉ exchange.history) ∧
    ∀ stmt, (⟨.update stmt, false⟩ : Performed Action.Answer) ∉ exchange.history

def AsksRegister (exchange : Exchange) (rq : StruRegisterRq) : Prop :=
  packetType exchange.data = some defRegisterRq ∧ rq.ReadFrom exchange.data

def AsksLogin (exchange : Exchange) (rq : StruLoginRq) : Prop :=
  packetType exchange.data = some defLoginRq ∧ rq.ReadFrom exchange.data

/-- A successful registration, and the id that its account got. -/
def Registered (exchange : Exchange) (rq : StruRegisterRq) (id : ℤ) : Prop :=
  exchange.AsksRegister rq ∧ exchange.Answered registerSuccess ∧
    ∃ row ∈ exchange.added, row.id = id

end Exchange

/-- Some successful registration before has got an account of the kind. -/
def RegisteredBefore (earlier : List Exchange) (kind : StruRegisterRq → ℤ → Prop) : Prop :=
  ∃ old ∈ earlier, ∃ rq id, old.Registered rq id ∧ kind rq id

/-- The answer to a registration whose statements succeed. -/
structure RegisterRight (earlier : List Exchange) (exchange : Exchange) (rq : StruRegisterRq) :
    Prop where
  success : exchange.Answered registerSuccess ↔
    ¬RegisteredBefore earlier fun old _ => old.tel = rq.tel ∨ old.name = rq.name
  telExists : exchange.Answered (StruRegisterRs.bytes ⟨defRegisterTelExists⟩) ↔
    RegisteredBefore earlier fun old _ => old.tel = rq.tel
  nameExists : exchange.Answered (StruRegisterRs.bytes ⟨defRegisterNameExists⟩) ↔
    (¬RegisteredBefore earlier fun old _ => old.tel = rq.tel) ∧
      RegisteredBefore earlier fun old _ => old.name = rq.name

/-- The answer to a login whose statements succeed. -/
structure LoginRight (earlier : List Exchange) (exchange : Exchange) (rq : StruLoginRq) :
    Prop where
  success : ∀ id, IsInt32 id → (exchange.Answered (loginSuccess id) ↔
    RegisteredBefore earlier fun old oldId =>
      oldId = id ∧ old.tel = rq.tel ∧ old.password = rq.password)
  telNotRegister : exchange.Answered telNotRegister ↔
    ¬RegisteredBefore earlier fun old _ => old.tel = rq.tel
  passwordError : exchange.Answered passwordError ↔
    (RegisteredBefore earlier fun old _ => old.tel = rq.tel) ∧
      ¬RegisteredBefore earlier fun old _ => old.tel = rq.tel ∧ old.password = rq.password

/-- The table is what the successful registrations have made of it. -/
structure Desk.Kept (desk : Desk) : Prop where
  rows : ∀ row, row ∈ desk.state.tUser ↔
    ∃ old ∈ desk.past, ∃ rq, old.Registered rq row.id ∧ row = rq.row row.id
  unique : ∀ key : AccountKey, (desk.state.tUser.map key.ofRow).Nodup
  range : ∀ row ∈ desk.state.tUser, IsInt32 row.id

section Right

variable {desk : Desk} {after : List UserRow} {exchange : Exchange}

/-- What earlier registrations have got is what the table holds. -/
theorem Desk.Kept.registeredBefore_iff (kept : desk.Kept) (kind : UserRow → Prop) :
    (RegisteredBefore desk.past fun rq id => kind (rq.row id)) ↔
      ∃ row ∈ desk.state.tUser, kind row := by
  constructor
  · rintro ⟨old, member, rq, id, registered, holds⟩
    exact ⟨rq.row id, (kept.rows _).mpr ⟨old, member, rq, registered, rfl⟩, holds⟩
  · rintro ⟨row, member, holds⟩
    rcases (kept.rows row).mp member with ⟨old, listed, rq, registered, same⟩
    exact ⟨old, listed, rq, row.id, registered, same ▸ holds⟩

theorem Desk.Kept.usedBefore_iff (kept : desk.Kept) (key : AccountKey) (value : Bytes) :
    (RegisteredBefore desk.past fun rq _ => key.ofInsert rq.name rq.tel = value) ↔
      value ∈ desk.state.tUser.map key.ofRow := by
  rw [List.mem_map]
  cases key with
  | tel => exact kept.registeredBefore_iff fun row => row.tel = value
  | name => exact kept.registeredBefore_iff fun row => row.name = value

theorem registeredBefore_or (earlier : List Exchange) (kind other : StruRegisterRq → ℤ → Prop) :
    (RegisteredBefore earlier fun rq id => kind rq id ∨ other rq id) ↔
      RegisteredBefore earlier kind ∨ RegisteredBefore earlier other := by
  simp only [RegisteredBefore, and_or_left, exists_or]

/-- A handler that has sent one packet has answered this one only. -/
theorem answered_iff {packet : Bytes} {statements : History}
    (history : exchange.history = ⟨.sendData packet exchange.from_, ()⟩ :: statements)
    (silent : ∀ performed ∈ statements, ∀ other clientId,
      performed.action ≠ .sendData other clientId) (other : Bytes) :
    exchange.Answered other ↔ other = packet := by
  simp only [Exchange.Answered, history, List.mem_cons]
  constructor
  · rintro (here | earlier)
    · exact (Action.sendData.inj (congrArg Performed.action here)).1
    · exact absurd rfl (silent _ earlier other exchange.from_)
  · rintro rfl
    exact Or.inl rfl

/-- A successful login answers once, and tells about users after that. -/
theorem answered_iff_of_tells {packet : Bytes} {newer : History}
    {statement : Performed Action.Answer}
    (history : exchange.history =
      newer ++ [⟨.sendData packet exchange.from_, ()⟩, statement])
    (silent : ∀ other clientId, statement.action ≠ .sendData other clientId)
    (tells : ∀ packet clientId,
      (⟨.sendData packet clientId, ()⟩ : Performed Action.Answer) ∈ newer → IsUserInfo packet)
    {other : Bytes} (reply : packetType other ≠ some defUserInfo) :
    exchange.Answered other ↔ other = packet := by
  simp only [Exchange.Answered, history, List.mem_append, List.mem_cons, List.not_mem_nil, or_false]
  constructor
  · rintro (later | here | earlier)
    · rcases tells _ _ later with ⟨info, rfl⟩
      exact absurd (packetType_userInfo info) reply
    · exact (Action.sendData.inj (congrArg Performed.action here)).1
    · exact absurd (congrArg Performed.action earlier).symm (silent other exchange.from_)
  · rintro rfl
    exact Or.inr (Or.inl rfl)

theorem RegisterServed.right {rq : StruRegisterRq} (kept : desk.Kept)
    (served : RegisterServed rq exchange.from_ desk.state.tUser after exchange.history)
    (succeeded : exchange.Succeeded) : RegisterRight desk.past exchange rq := by
  have tel : (RegisteredBefore desk.past fun old _ => old.tel = rq.tel) ↔
      rq.tel ∈ desk.state.tUser.map UserRow.tel := kept.usedBefore_iff .tel rq.tel
  have name : (RegisteredBefore desk.past fun old _ => old.name = rq.name) ↔
      rq.name ∈ desk.state.tUser.map UserRow.name := kept.usedBefore_iff .name rq.name
  have either := registeredBefore_or desk.past (fun old _ => old.tel = rq.tel)
    fun old _ => old.name = rq.name
  have otherTel : registerSuccess ≠ StruRegisterRs.bytes ⟨defRegisterTelExists⟩ := by decide
  have otherName : registerSuccess ≠ StruRegisterRs.bytes ⟨defRegisterNameExists⟩ := by decide
  have different : StruRegisterRs.bytes ⟨defRegisterTelExists⟩ ≠
    StruRegisterRs.bytes ⟨defRegisterNameExists⟩ := by decide
  generalize shape : exchange.history = history at served
  cases served with
  | telFails => exact absurd (shape ▸ List.mem_cons_self) (succeeded.1 _ _)
  | nameFails => exact absurd (shape ▸ List.mem_cons_self) (succeeded.1 _ _)
  | insertFails => exact absurd (shape ▸ List.mem_cons_self) (succeeded.2 _)
  | telExists used =>
      have answered := answered_iff shape (by simp)
      constructor
      · simp only [answered, either, tel, used, otherTel, true_or, not_true]
      · simp only [answered, tel, used]
      · simp only [answered, tel, used, different.symm, not_true, false_and]
  | nameExists free used =>
      have answered := answered_iff shape (by simp)
      constructor
      · simp only [answered, either, name, used, otherName, or_true, not_true]
      · simp only [answered, tel, free, different]
      · simp only [answered, tel, name, free, used, not_false_eq_true, and_self]
  | inserted range telFree nameFree =>
      have answered := answered_iff shape (by simp)
      constructor
      · simp only [answered, either, tel, name, telFree, nameFree, or_self, not_false_eq_true]
      · simp only [answered, tel, telFree, otherTel.symm]
      · simp only [answered, name, nameFree, otherName.symm, and_false]

theorem loginSuccess_eq_iff {id other : ℤ} (range : IsInt32 id) (otherRange : IsInt32 other) :
    loginSuccess id = loginSuccess other ↔ id = other := by
  constructor
  · intro same
    have read := congrArg StruLoginRs.readId same
    have first : StruLoginRs.readId (loginSuccess id) = some id :=
      StruLoginRs.readId_bytes _ range
    have second : StruLoginRs.readId (loginSuccess other) = some other :=
      StruLoginRs.readId_bytes _ otherRange
    exact Option.some.inj (first.symm.trans (read.trans second))
  · rintro rfl
    rfl

/-- A login is answered a success by no packet that says otherwise. -/
theorem loginSuccess_ne (id : ℤ) {rs : StruLoginRs} (range : IsInt32 rs.result)
    (failed : rs.result ≠ defLoginSuccess) : loginSuccess id ≠ rs.bytes := by
  intro same
  have read := congrArg StruLoginRs.readResult same
  have success : StruLoginRs.readResult (loginSuccess id) = some defLoginSuccess :=
    StruLoginRs.readResult_bytes _ (show IsInt32 defLoginSuccess by decide)
  rw [rs.readResult_bytes range, success] at read
  exact failed (Option.some.inj read).symm

/-- In a table without double numbers a number determines its row. -/
theorem Desk.Kept.row_unique (kept : desk.Kept) {row other : UserRow}
    (member : row ∈ desk.state.tUser) (otherMember : other ∈ desk.state.tUser)
    (tel : row.tel = other.tel) : row = other :=
  List.inj_on_of_nodup_map (kept.unique .tel) member otherMember tel

theorem LoginServed.right {rq : StruLoginRq} (kept : desk.Kept)
    (served : LoginServed rq exchange.from_ desk.state.tUser exchange.history)
    (succeeded : exchange.Succeeded) : LoginRight desk.past exchange rq := by
  have tel : (RegisteredBefore desk.past fun old _ => old.tel = rq.tel) ↔
      rq.tel ∈ desk.state.tUser.map UserRow.tel := kept.usedBefore_iff .tel rq.tel
  have both : (RegisteredBefore desk.past fun old _ =>
      old.tel = rq.tel ∧ old.password = rq.password) ↔
        ∃ row ∈ desk.state.tUser, row.tel = rq.tel ∧ row.pass = rq.password :=
    kept.registeredBefore_iff fun row => row.tel = rq.tel ∧ row.pass = rq.password
  have account (id : ℤ) : (RegisteredBefore desk.past fun old oldId =>
      oldId = id ∧ old.tel = rq.tel ∧ old.password = rq.password) ↔
        ∃ row ∈ desk.state.tUser, row.id = id ∧ row.tel = rq.tel ∧ row.pass = rq.password :=
    kept.registeredBefore_iff fun row => row.id = id ∧ row.tel = rq.tel ∧ row.pass = rq.password
  have notTel (id : ℤ) : loginSuccess id ≠ telNotRegister :=
    loginSuccess_ne id (by decide) (by decide)
  have notPassword (id : ℤ) : loginSuccess id ≠ passwordError :=
    loginSuccess_ne id (by decide) (by decide)
  have different : telNotRegister ≠ passwordError := by decide
  generalize shape : exchange.history = history at served
  cases served with
  | fails => exact absurd (shape ▸ List.mem_cons_self) (succeeded.1 _ _)
  | notRegistered free =>
      have answered := answered_iff shape (by simp)
      have nobody (row : UserRow) (member : row ∈ desk.state.tUser) : row.tel ≠ rq.tel :=
        fun same => free (List.mem_map.mpr ⟨row, member, same⟩)
      constructor
      · intro id range
        simp only [answered, account, notTel, false_iff, not_exists, not_and]
        exact fun row member _ same => absurd same (nobody row member)
      · simp only [answered, tel, free, not_false_eq_true]
      · simp only [answered, different.symm, tel, free, false_and]
  | @mismatch row texts member sameTel other =>
      have answered := answered_iff shape (by simp)
      have nobody (known : UserRow) (found : known ∈ desk.state.tUser)
          (same : known.tel = rq.tel) : known.pass ≠ rq.password :=
        kept.row_unique found member (same.trans sameTel.symm) ▸ other
      have used : rq.tel ∈ desk.state.tUser.map UserRow.tel :=
        List.mem_map.mpr ⟨row, member, sameTel⟩
      constructor
      · intro id range
        simp only [answered, account, notPassword, false_iff, not_exists, not_and]
        exact fun known found _ same => nobody known found same
      · simp only [answered, different, tel, used, not_true]
      · simp only [answered, tel, used, both, true_and, true_iff, not_exists, not_and]
        exact nobody
  | @matched row texts newer member sameTel same tells =>
      have loginRs (rs : StruLoginRs) : packetType rs.bytes ≠ some defUserInfo := by
        rw [packetType_loginRs]
        decide
      have answered (rs : StruLoginRs) :=
        answered_iff_of_tells shape (by simp) tells (loginRs rs)
      have used : rq.tel ∈ desk.state.tUser.map UserRow.tel :=
        List.mem_map.mpr ⟨row, member, sameTel⟩
      constructor
      · intro id range
        have answeredId : exchange.Answered (loginSuccess id) ↔ id = row.id :=
          (answered _).trans (loginSuccess_eq_iff range (kept.range row member))
        rw [answeredId, account]
        constructor
        · rintro rfl
          exact ⟨row, member, rfl, sameTel, same⟩
        · rintro ⟨known, found, rfl, knownTel, _⟩
          rw [kept.row_unique found member (knownTel.trans sameTel.symm)]
      · have answeredTel :
            exchange.Answered telNotRegister ↔ telNotRegister = loginSuccess row.id := answered _
        simp only [answeredTel, (notTel row.id).symm, tel, used, not_true]
      · have answeredPassword : exchange.Answered passwordError ↔
            passwordError = loginSuccess row.id := answered _
        rw [answeredPassword, both]
        simp only [(notPassword row.id).symm, false_iff, not_and, not_not]
        exact fun _ => ⟨row, member, sameTel, same⟩

end Right

/-! ## The history of the desk -/

/-- The request is a registration or a login whose texts end inside their arrays, and the
database answers what it may. -/
def Desk.Plain (desk : Desk) : Turn → Prop
  | .network _ => True
  | .request conn data outcomes =>
      ((∃ rq, packetType data = some defRegisterRq ∧ StruRegisterRq.ReadFrom rq data) ∨
        ∃ rq, packetType data = some defLoginRq ∧ StruLoginRq.ReadFrom rq data) ∧
      State.Fair (dealData data (desk.state.handleOf conn)) desk.state outcomes

/-- Every request has had the answer that the registrations before it determine. -/
def Desk.Told (desk : Desk) : Prop :=
  ∀ later exchange earlier, desk.past = later ++ exchange :: earlier → exchange.Succeeded →
    (∀ rq, exchange.AsksRegister rq → RegisterRight earlier exchange rq) ∧
      ∀ rq, exchange.AsksLogin rq → LoginRight earlier exchange rq

section History

variable {desk next : Desk} {turn : Turn} {tFriend : List (ℤ × ℤ)} {data : Bytes}

theorem StruRegisterRq.ReadFrom.unique {rq other : StruRegisterRq} (read : rq.ReadFrom data)
    (otherRead : other.ReadFrom data) : rq = other := by
  have tel := Option.some.inj (read.readTel.symm.trans otherRead.readTel)
  have password := Option.some.inj (read.readPassword.symm.trans otherRead.readPassword)
  have name := Option.some.inj (read.readName.symm.trans otherRead.readName)
  cases rq
  cases other
  simp only at tel password name
  rw [tel, password, name]

theorem kept_start (tFriend : List (ℤ × ℤ)) : (Desk.mk (State.start [] tFriend) []).Kept where
  rows := by simp [State.start]
  unique := by simp [State.start]
  range := by simp [State.start]

/-- A request that adds no account leaves the table and what it is made of. -/
theorem Desk.Kept.unchanged (kept : desk.Kept) {after : State} {exchange : Exchange}
    (same : after.tUser = desk.state.tUser) (added : exchange.added = []) :
    (Desk.mk after (exchange :: desk.past)).Kept where
  rows := by
    intro row
    simp only [same, kept.rows row, List.exists_mem_cons_iff]
    constructor
    · exact Or.inr
    · rintro (⟨rq, ⟨_, _, new, listed, _⟩, _⟩ | earlier)
      · simp [added] at listed
      · exact earlier
  unique := by
    simp only [same]
    exact kept.unique
  range := by
    simp only [same]
    exact kept.range

theorem Desk.Kept.inserted (kept : desk.Kept) {after : State} {exchange : Exchange}
    {rq : StruRegisterRq} {id : ℤ} (grown : after.tUser = desk.state.tUser ++ [rq.row id])
    (added : exchange.added = [rq.row id]) (asks : exchange.AsksRegister rq)
    (answered : exchange.Answered registerSuccess) (range : IsInt32 id)
    (free : ∀ key : AccountKey, key.ofRow (rq.row id) ∉ desk.state.tUser.map key.ofRow) :
    (Desk.mk after (exchange :: desk.past)).Kept where
  rows := by
    intro row
    simp only [grown, List.mem_append, List.mem_singleton, kept.rows row, List.exists_mem_cons_iff]
    constructor
    · rintro (earlier | rfl)
      · exact Or.inr earlier
      · exact Or.inl ⟨rq, ⟨asks, answered, _, added ▸ List.mem_singleton.mpr rfl, rfl⟩, rfl⟩
    · rintro (⟨other, ⟨otherAsks, _, new, listed, sameId⟩, same⟩ | earlier)
      · rw [added, List.mem_singleton] at listed
        have sameRq : rq = other := asks.2.unique otherAsks.2
        have ids : row.id = id := sameId.symm.trans (congrArg UserRow.id listed)
        rw [same, ← sameRq, ids]
        exact Or.inr rfl
      · exact Or.inl earlier
  unique := by
    intro key
    simp only [grown, List.map_append, List.map_cons, List.map_nil]
    refine List.nodup_append.mpr ⟨kept.unique key, List.nodup_singleton _, ?_⟩
    rintro value old other new rfl
    exact free key (List.mem_singleton.mp new ▸ old)
  range := by
    intro row member
    simp only [grown, List.mem_append, List.mem_singleton] at member
    rcases member with old | rfl
    · exact kept.range row old
    · exact range

theorem Desk.Kept.step (kept : desk.Kept) (plain : desk.Plain turn)
    (stepped : desk.step turn = some next) : next.Kept := by
  cases Desk.stepped_of_step stepped with
  | network network moved =>
      have same := State.tUser_of_network network moved
      exact ⟨by simp only [same]; exact kept.rows, by simp only [same]; exact kept.unique,
        by simp only [same]; exact kept.range⟩
  | @request conn data outcomes after history running receiving nonempty bounded served =>
      rcases plain with ⟨⟨rq, type, read⟩ | ⟨rq, type, read⟩, fair⟩
      · rw [dealData_registerRq type, dealRegisterRq_eq read] at served fair
        have result := serve_register served fair
        generalize grown : after.tUser = table at result
        cases result with
        | telFails | telExists | nameFails | nameExists | insertFails =>
            exact kept.unchanged grown (by simp)
        | inserted range telFree nameFree =>
            refine kept.inserted grown (by simp) ⟨type, read⟩ List.mem_cons_self range ?_
            intro key
            cases key with
            | tel => exact telFree
            | name => exact nameFree
      · have only : (dealData data (desk.state.handleOf conn)).Only fun action =>
            ∀ name tel password, action ≠ .update (.insertUser name tel password) := by
          apply (dealData_lawful data _ []).only
          rintro history _ lawful name tel password rfl
          have registers : packetType data = some defRegisterRq := lawful
          rw [type] at registers
          exact absurd registers (by decide)
        have same := State.tUser_of_serve only served
        exact kept.unchanged same (by simp [same])

theorem Desk.Told.step (told : desk.Told) (kept : desk.Kept) (plain : desk.Plain turn)
    (stepped : desk.step turn = some next) : next.Told := by
  cases Desk.stepped_of_step stepped with
  | network network moved => exact told
  | @request conn data outcomes after history running receiving nonempty bounded served =>
      intro later exchange earlier split succeeded
      cases later with
      | cons first later => exact told later exchange earlier (List.cons.inj split).2 succeeded
      | nil =>
          rcases List.cons.inj split with ⟨rfl, rfl⟩
          constructor
          · rintro rq ⟨type, read⟩
            have fair := plain.2
            rw [dealData_registerRq type, dealRegisterRq_eq read] at served fair
            exact (serve_register served fair).right kept succeeded
          · rintro rq ⟨type, read⟩
            have fair := plain.2
            rw [dealData_loginRq type, dealLoginRq_eq read] at served fair
            exact (serve_login kept.range served fair).right kept succeeded

/-- Accounts over whole histories: both columns stay free of double values, and every request
whose statements succeed has had the answer that the successful registrations before it
determine. -/
theorem answers_over_history {turns : List Turn} {final : Desk}
    (plain : Desk.machine.Meets Desk.Plain ⟨State.start [] tFriend, []⟩ turns)
    (reached : Desk.machine.run ⟨State.start [] tFriend, []⟩ turns = some final) :
    (final.state.tUser.map UserRow.tel).Nodup ∧ (final.state.tUser.map UserRow.name).Nodup ∧
      ∀ later exchange earlier, final.past = later ++ exchange :: earlier → exchange.Succeeded →
        (∀ rq, exchange.AsksRegister rq → RegisterRight earlier exchange rq) ∧
          ∀ rq, exchange.AsksLogin rq → LoginRight earlier exchange rq := by
  have holds : final.Kept ∧ final.Told := by
    refine Desk.machine.run_invariant (fun desk => desk.Kept ∧ desk.Told) ?_
      ⟨kept_start tFriend, by simp [Desk.Told]⟩ plain reached
    rintro desk turn next ⟨kept, told⟩ allowed stepped
    exact ⟨kept.step allowed stepped, told.step kept allowed stepped⟩
  exact ⟨holds.1.unique .tel, holds.1.unique .name, holds.2⟩

end History

/-! ## Three requests of Alice -/

def readsTexts (data : Bytes) : Bool :=
  if packetType data = some defRegisterRq then
    match StruRegisterRq.readTel data, StruRegisterRq.readPassword data,
      StruRegisterRq.readName data with
    | some tel, some password, some name => tel.length < defTelLength ∧
        password.length < defPasswordMaxLength ∧ name.length < defNameMaxLength
    | _, _, _ => false
  else if packetType data = some defLoginRq then
    match StruLoginRq.readTel data, StruLoginRq.readPassword data with
    | some tel, some password => tel.length < defTelLength ∧ password.length < defPasswordMaxLength
    | _, _ => false
  else false

def Desk.isPlain (desk : Desk) : Turn → Bool
  | .network _ => true
  | .request conn data outcomes => readsTexts data &&
      State.isFair (dealData data (desk.state.handleOf conn)) desk.state outcomes

theorem Desk.isPlain_sound (desk : Desk) (turn : Turn) (passed : desk.isPlain turn = true) :
    desk.Plain turn := by
  cases turn with
  | network event => trivial
  | request conn data outcomes =>
      rcases Bool.and_eq_true_iff.mp passed with ⟨texts, fair⟩
      refine ⟨?_, State.fair_of_isFair fair⟩
      simp only [readsTexts] at texts
      split at texts
      · rename_i type
        split at texts
        · rename_i tel password name readTel readPassword readName
          rcases of_decide_eq_true texts with ⟨telShort, passwordShort, nameShort⟩
          exact Or.inl ⟨⟨tel, password, name⟩, type, readTel, readPassword, readName, telShort,
            passwordShort, nameShort⟩
        · simp at texts
      · split at texts
        · rename_i type
          split at texts
          · rename_i tel password readTel readPassword
            rcases of_decide_eq_true texts with ⟨telShort, passwordShort⟩
            exact Or.inr ⟨⟨tel, password⟩, type, readTel, readPassword, telShort, passwordShort⟩
          · simp at texts
        · simp at texts

/-- Alice registers, tries it again, and logs in. -/
def aliceVisits : List Turn :=
  [.network (.accept 4), .network (.list 0),
    .request 0 (State.registration alice)
      [.rows (some []), .rows (some []), .updated true 1, .internal],
    .request 0 (State.registration alice) [.rows (some [[alice.tel]]), .internal],
    .request 0 (StruLoginRq.bytes ⟨alice.tel, alice.pass⟩)
      [.rows (some [[alice.pass, decimal 1]]), .internal, .internal, .internal,
        .rows (some [[alice.name, defaultFeeling, decimal 4]]), .internal, .internal, .internal,
        .rows (some [])]]

theorem answers_over_history_alice : ∃ final,
    Desk.machine.run ⟨State.start [] [], []⟩ aliceVisits = some final ∧ final.past.length = 3 ∧
      ∀ later exchange earlier, final.past = later ++ exchange :: earlier → exchange.Succeeded →
        ∀ rq, exchange.AsksLogin rq → LoginRight earlier exchange rq := by
  have evaluated : (Desk.machine.run ⟨State.start [] [], []⟩ aliceVisits).any
      (fun final => final.past.length = 3) = true := by
    decide +kernel
  have passed : Desk.machine.allSteps Desk.isPlain ⟨State.start [] [], []⟩ aliceVisits = true := by
    decide +kernel
  rcases (Option.any_eq_true _ _).mp evaluated with ⟨final, reached, shape⟩
  refine ⟨final, reached, by simpa using shape, ?_⟩
  intro later exchange earlier split succeeded
  exact ((answers_over_history (Desk.machine.meets_of_allSteps Desk.isPlain_sound passed)
    reached).2.2 later exchange earlier split succeeded).2

end InstanceMessage
