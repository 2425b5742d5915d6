import InstanceMessage.Library.SqlText
import InstanceMessage.Server.Contract
import InstanceMessage.Server.Requests

/-!
# What MySQL reads

The templates of the server's statements put the texts of a request between
quotes as they are. Each statement is the text of a template, so it is read as
intended exactly when the texts in it are verbatim. For the three requests that
carry texts this is a condition on the texts of the request alone, since a
handler reaches each of its statements whatever they contain.
-/

namespace InstanceMessage

open Library SqlText

/-! ## The statements as templates -/

namespace Stmt

def template : Stmt → Template
  | .telByTel tel =>
      { head := ascii "select tel from t_user where tel=", fields := [(tel, [])] }
  | .nameByName name =>
      { head := ascii "select name from t_user where name=", fields := [(name, [])] }
  | .insertUser name tel password =>
      { head := ascii "insert into t_user (name,tel,pass,feeling,iconid) values (",
        fields := [(name, ascii ","), (tel, ascii ","), (password, ascii ","),
          (defaultFeeling, ascii ",4)")] }
  | .passIdByTel tel =>
      { head := ascii "select pass,id from t_user where tel=", fields := [(tel, [])] }
  | .friendIds id => { head := ascii "select idB from t_friend where idA=" ++ decimal id }
  | .friendIdsOffline id =>
      { head := ascii "select idB from t_friend where idA=" ++ decimal id, ending := [] }
  | .userById id =>
      { head := ascii "select name,feeling,iconid from t_user where id=" ++ decimal id }
  | .idByName name =>
      { head := ascii "select id from t_user where name=", fields := [(name, [])] }
  | .insertFriend idA idB =>
      { head := ascii "insert into t_friend values (" ++ decimal idA ++ ascii "," ++
          decimal idB ++ ascii ")" }

/-- The texts of the request that the statement contains. -/
def texts : Stmt → List Bytes
  | .telByTel tel | .passIdByTel tel => [tel]
  | .nameByName name | .idByName name => [name]
  | .insertUser name tel password => [name, tel, password]
  | .friendIds _ | .friendIdsOffline _ | .userById _ | .insertFriend _ _ => []

theorem text_template (stmt : Stmt) : stmt.template.text = stmt.text := by
  cases stmt <;>
    simp [template, Template.text, fieldsText, text, ascii, quote, semicolon]

theorem isCode_of_isDigit {byte : UInt8} (digit : Library.isDigit byte = true) :
    isCode byte = true := by
  have different (other : UInt8) (notDigit : Library.isDigit other = false) : byte ≠ other := by
    rintro rfl
    rw [digit] at notDigit
    exact Bool.noConfusion notDigit
  simp only [isCode, isSpecial, Bool.and_eq_true, Bool.not_eq_true', Bool.or_eq_false_iff,
    decide_eq_false_iff_not, decide_eq_true_eq]
  exact ⟨⟨different quote rfl, different backslash rfl⟩, different semicolon rfl⟩

theorem isCode_decimal (value : ℤ) : ∀ byte ∈ decimal value, isCode byte = true := by
  intro byte member
  simp only [decimal] at member
  split at member
  · rcases List.mem_cons.mp member with rfl | digit
    · rfl
    · exact isCode_of_isDigit (isDigit_decimalNat digit)
  · exact isCode_of_isDigit (isDigit_decimalNat member)

theorem isCode_of_all {text : Bytes} (all : text.all isCode = true) :
    ∀ byte ∈ text, isCode byte = true := List.all_eq_true.mp all

theorem isCode_append {front rest : Bytes} (first : ∀ byte ∈ front, isCode byte = true)
    (second : ∀ byte ∈ rest, isCode byte = true) : ∀ byte ∈ front ++ rest, isCode byte = true := by
  intro byte member
  rcases List.mem_append.mp member with old | new
  · exact first byte old
  · exact second byte new

theorem proper_template (stmt : Stmt) : stmt.template.Proper := by
  have oneText (head text : Bytes) (begins : head ≠ [])
      (isCode_ : ∀ byte ∈ head, isCode byte = true) :
      Template.Proper { head := head, fields := [(text, [])] } :=
    ⟨begins, isCode_, ⟨by simp, Or.inr rfl, trivial⟩, by simp⟩
  have noText (front : Bytes) (id : ℤ) (begins : front ≠ [])
      (isCode_ : ∀ byte ∈ front, isCode byte = true) (ending : Bytes)
      (separators : ∀ byte ∈ ending, byte = semicolon) :
      Template.Proper { head := front ++ decimal id, ending := ending } :=
    ⟨by simp [begins], isCode_append isCode_ (isCode_decimal id), trivial, separators⟩
  cases stmt with
  | telByTel | nameByName | passIdByTel | idByName =>
      exact oneText _ _ (by decide) (isCode_of_all (by decide))
  | friendIds id | friendIdsOffline id | userById id =>
      exact noText _ id (by decide) (isCode_of_all (by decide)) _ (by simp)
  | insertUser name tel password =>
      refine ⟨by simp [template, ascii], isCode_of_all (by simp only [template]; decide), ?_,
        by simp [template]⟩
      exact ⟨isCode_of_all (by decide), Or.inl (by decide), isCode_of_all (by decide),
        Or.inl (by decide), isCode_of_all (by decide), Or.inl (by decide),
        isCode_of_all (by decide), Or.inr rfl, trivial⟩
  | insertFriend idA idB =>
      refine ⟨by simp [template, ascii], ?_, trivial, by simp [template]⟩
      apply isCode_append
      · apply isCode_append
        · apply isCode_append
          · apply isCode_append
            · exact isCode_of_all (by decide)
            · exact isCode_decimal idA
          · exact isCode_of_all (by decide)
        · exact isCode_decimal idB
      · exact isCode_of_all (by decide)

/-- MySQL reads the statement's text as one statement, the one that its template stands for. -/
def Intended (stmt : Stmt) : Prop := statements stmt.text = some [stmt.template.shape]

theorem intended_iff (stmt : Stmt) :
    stmt.Intended ↔ ∀ text ∈ stmt.texts, verbatim text = true := by
  rw [Intended, ← text_template, Template.statements_text_iff stmt.proper_template]
  have constant : verbatim defaultFeeling = true := by decide
  cases stmt <;> simp [template, texts, constant]

end Stmt

/-- The SQL text that the action sends is read as intended. -/
def Action.Intended : Action → Prop
  | .select stmt _ | .update stmt => stmt.Intended
  | _ => True

/-! ## The handlers -/

theorem register_intended_iff (rq : StruRegisterRq) (from_ : Handle) :
    (register rq from_).Only Action.Intended ↔
      verbatim rq.tel = true ∧ verbatim rq.password = true ∧ verbatim rq.name = true := by
  constructor
  · intro only
    have telQuery : (Stmt.telByTel rq.tel).Intended := only.1
    have inserts : (Stmt.insertUser rq.name rq.tel rq.password).Intended :=
      ((only.2 (some [])).2 (some [])).1
    have verbatims := (Stmt.intended_iff _).mp inserts
    simp only [Stmt.texts, List.mem_cons, List.not_mem_nil, or_false, forall_eq_or_imp,
      forall_eq] at verbatims
    exact ⟨verbatims.2.1, verbatims.2.2, verbatims.1⟩
  · rintro ⟨tel, password, name⟩
    refine Program.only_perform_bind ?_ ?_
    · exact (Stmt.intended_iff _).mpr (by simpa [Stmt.texts] using tel)
    intro (found : Option (List Bytes))
    match found with
    | none => trivial
    | some (_ :: _) => exact ⟨trivial, fun _ => trivial⟩
    | some [] =>
        refine Program.only_perform_bind ?_ ?_
        · exact (Stmt.intended_iff _).mpr (by simpa [Stmt.texts] using name)
        intro (taken : Option (List Bytes))
        match taken with
        | none => trivial
        | some (_ :: _) => exact ⟨trivial, fun _ => trivial⟩
        | some [] =>
            refine Program.only_perform_bind ?_ ?_
            · exact (Stmt.intended_iff _).mpr (by simp [Stmt.texts, tel, password, name])
            intro (inserted : Bool)
            cases inserted with
            | false => trivial
            | true => exact ⟨trivial, fun _ => trivial⟩

theorem Informs.intended {tells : Bytes → Prop} {action : Action}
    (informs : Informs tells action) : action.Intended := by
  cases action with
  | select stmt nColumn =>
      cases stmt with
      | friendIds | userById => exact (Stmt.intended_iff _).mpr (by simp [Stmt.texts])
      | _ => trivial
  | update stmt => exact informs.elim
  | _ => trivial

theorem intended_toInt (text : Bytes) : (Handler.toInt text).Only Action.Intended :=
  (informs_toInt text).mono fun _ (informs : Informs IsUserInfo _) => informs.intended

theorem intended_formatS (size : ℕ) (format : Bytes) :
    (formatS size format).Only Action.Intended :=
  (informs_formatS size format).mono fun _ (informs : Informs IsUserInfo _) => informs.intended

theorem login_intended_iff (rq : StruLoginRq) (from_ : Handle) :
    (login rq from_).Only Action.Intended ↔ verbatim rq.tel = true := by
  constructor
  · intro only
    have query : (Stmt.passIdByTel rq.tel).Intended := only.1
    simpa [Stmt.texts] using (Stmt.intended_iff _).mp query
  · intro tel
    refine Program.only_perform_bind ?_ ?_
    · exact (Stmt.intended_iff _).mpr (by simpa [Stmt.texts] using tel)
    intro (found : Option (List Bytes))
    match found with
    | none => trivial
    | some [] => exact ⟨trivial, fun _ => trivial⟩
    | some [_] => exact ⟨trivial, fun answer => nomatch answer⟩
    | some (password :: idText :: _) =>
        apply Program.only_bind (intended_toInt _)
        intro id
        split
        · refine ⟨trivial, fun _ => ⟨trivial, fun _ => ?_⟩⟩
          exact (informs_getUserInfoAndFriendInfo id).mono fun _ => Informs.intended
        · exact ⟨trivial, fun _ => trivial⟩

theorem addFriend_intended_iff (data friendName : Bytes) (from_ : Handle) :
    (addFriend data friendName from_).Only Action.Intended ↔ verbatim friendName = true := by
  constructor
  · intro only
    have query : (Stmt.idByName friendName).Intended := only.1
    simpa [Stmt.texts] using (Stmt.intended_iff _).mp query
  · intro name
    refine Program.only_perform_bind ?_ ?_
    · exact (Stmt.intended_iff _).mpr (by simpa [Stmt.texts] using name)
    intro (found : Option (List Bytes))
    match found with
    | none => trivial
    | some [] => exact ⟨trivial, fun _ => trivial⟩
    | some (idText :: _) =>
        apply Program.only_bind (intended_toInt _)
        intro friendId
        refine Program.only_perform_bind trivial ?_
        intro (online : Bool)
        cases online with
        | true => exact ⟨trivial, fun _ => ⟨trivial, fun _ => trivial⟩⟩
        | false =>
            apply Program.only_bind (intended_formatS _ _)
            intro name
            exact ⟨trivial, fun _ => trivial⟩

/-- Statements that are read as intended have the same text only if their texts agree. -/
theorem Stmt.texts_inj {stmt other : Stmt} (intended : stmt.Intended)
    (otherIntended : other.Intended) (same : stmt.text = other.text) :
    stmt.texts = other.texts := by
  have shapes : stmt.template.shape = other.template.shape := by
    rw [Intended, same, otherIntended] at intended
    exact (List.singleton_inj.mp (Option.some.inj intended)).symm
  have fields := congrArg contents shapes
  rw [Template.contents_shape, Template.contents_shape] at fields
  cases stmt <;> cases other <;> simp_all [template, texts]

/-- The SQL texts of a request are read as the intended statements exactly when the request's
texts are verbatim, and then equal SQL texts come from equal texts only. -/
theorem queries_read_as_intended (data : Bytes) (from_ : Handle) :
    ((∀ rq : StruRegisterRq, rq.ReadFrom data →
        ((dealRegisterRq data from_).Only Action.Intended ↔
          verbatim rq.tel = true ∧ verbatim rq.password = true ∧ verbatim rq.name = true)) ∧
      (∀ rq : StruLoginRq, rq.ReadFrom data →
        ((dealLoginRq data from_).Only Action.Intended ↔ verbatim rq.tel = true)) ∧
      (∀ rq : StruAddFriendRq, rq.ReadFrom data →
        ((dealAddFriendRq data from_).Only Action.Intended ↔ verbatim rq.friendName = true))) ∧
    ∀ stmt other : Stmt, stmt.Intended → other.Intended → stmt.text = other.text →
      stmt.texts = other.texts := by
  refine ⟨⟨?_, ?_, ?_⟩, fun _ _ => Stmt.texts_inj⟩
  · intro rq read
    rw [dealRegisterRq_eq read]
    exact register_intended_iff rq from_
  · intro rq read
    rw [dealLoginRq_eq read]
    exact login_intended_iff rq from_
  · intro rq read
    rw [dealAddFriendRq_eq read]
    exact addFriend_intended_iff data rq.friendName from_

/-- A registration, a login and a search with texts of letters and digits. -/
theorem queries_read_as_intended_alice :
    (dealRegisterRq (StruRegisterRq.bytes ⟨ascii "123", ascii "pw", ascii "alice"⟩) 5).Only
        Action.Intended ∧
      (dealLoginRq (StruLoginRq.bytes ⟨ascii "123", ascii "pw"⟩) 5).Only Action.Intended ∧
      (dealAddFriendRq (StruAddFriendRq.bytes { friendName := ascii "bob" }) 5).Only
        Action.Intended ∧
      (Stmt.idByName (ascii "bob")).texts = (Stmt.idByName (ascii "bob")).texts := by
  have registers : StruRegisterRq.Fits ⟨ascii "123", ascii "pw", ascii "alice"⟩ :=
    ⟨⟨by decide, by decide⟩, ⟨by decide, by decide⟩, ⟨by decide, by decide⟩⟩
  have logsIn : StruLoginRq.Fits ⟨ascii "123", ascii "pw"⟩ :=
    ⟨⟨by decide, by decide⟩, ⟨by decide, by decide⟩⟩
  have searches : StruAddFriendRq.Fits { friendName := ascii "bob" } :=
    ⟨⟨by decide, by decide⟩, ⟨by decide, by decide⟩⟩
  have bob : (Stmt.idByName (ascii "bob")).Intended :=
    (Stmt.intended_iff _).mpr (by simp only [Stmt.texts]; decide)
  refine ⟨?_, ?_, ?_, (queries_read_as_intended [] 5).2 _ _ bob bob rfl⟩
  · exact ((queries_read_as_intended _ 5).1.1 _ registers.readFrom).mpr (by decide)
  · exact ((queries_read_as_intended _ 5).1.2.1 _ logsIn.readFrom).mpr (by decide)
  · exact ((queries_read_as_intended _ 5).1.2.2 _ searches.readFrom).mpr (by decide)

/-- A tel that ends its literal and goes on with a condition that always holds. -/
def anyTel : StruLoginRq := { tel := ascii "' or '1'='1", password := ascii "x" }

/-- A name that ends its statement and adds another one. -/
def dropTable : StruAddFriendRq := { friendName := ascii "';drop table t;'" }

theorem anyTel_changes_query :
    anyTel.ReadFrom anyTel.bytes ∧
      ¬(dealLoginRq anyTel.bytes 0).Only Action.Intended ∧
      statements (Stmt.passIdByTel anyTel.tel).text =
        some [(ascii "select pass,id from t_user where tel=").map .code ++
          [.literal []] ++ (ascii " or ").map .code ++ [.literal (ascii "1")] ++
            (ascii "=").map .code ++ [.literal (ascii "1")]] ∧
      dropTable.ReadFrom dropTable.bytes ∧
      ¬(dealAddFriendRq dropTable.bytes 0).Only Action.Intended ∧
      (statements (Stmt.idByName dropTable.friendName).text).map List.length = some 3 := by
  have readTel : anyTel.ReadFrom anyTel.bytes :=
    StruLoginRq.Fits.readFrom ⟨⟨by decide, by decide⟩, ⟨by decide, by decide⟩⟩
  have readName : dropTable.ReadFrom dropTable.bytes :=
    StruAddFriendRq.Fits.readFrom ⟨⟨by decide, by decide⟩, ⟨by decide, by decide⟩⟩
  refine ⟨readTel, ?_, by decide +kernel, readName, ?_, by decide +kernel⟩
  · rw [dealLoginRq_eq readTel, login_intended_iff]
    decide
  · rw [dealAddFriendRq_eq readName, addFriend_intended_iff]
    decide

end InstanceMessage
