import InstanceMessage.Library.Bytes

/-!
# SQL statements of the server

The statements that the handlers build with `sprintf_s`, one constructor for
each template, and the text that each template gives. The handlers pass texts
to MySQL; the text only decides here whether it fits the handler's buffer.
-/

namespace InstanceMessage

open Library

/-- The statements that the handlers send to the database. -/
inductive Stmt
  | telByTel (tel : Bytes)
  | nameByName (name : Bytes)
  | insertUser (name tel password : Bytes)
  | passIdByTel (tel : Bytes)
  | friendIds (id : ℤ)
  | friendIdsOffline (id : ℤ)
  | userById (id : ℤ)
  | idByName (name : Bytes)
  | insertFriend (idA idB : ℤ)
  deriving DecidableEq

/-- The signature of a new user, in the source's GB2312 encoding. -/
def defaultFeeling : Bytes := [213, 253, 212, 218, 179, 212, 183, 185]

/-- The text that `sprintf_s` builds for the statement. -/
def Stmt.text : Stmt → Bytes
  | .telByTel tel => ascii "select tel from t_user where tel='" ++ tel ++ ascii "';"
  | .nameByName name => ascii "select name from t_user where name='" ++ name ++ ascii "';"
  | .insertUser name tel password =>
      ascii "insert into t_user (name,tel,pass,feeling,iconid) values ('" ++ name ++
        ascii "','" ++ tel ++ ascii "','" ++ password ++ ascii "','" ++ defaultFeeling ++
        ascii "',4);"
  | .passIdByTel tel => ascii "select pass,id from t_user where tel='" ++ tel ++ ascii "';"
  | .friendIds id => ascii "select idB from t_friend where idA=" ++ decimal id ++ ascii ";"
  | .friendIdsOffline id => ascii "select idB from t_friend where idA=" ++ decimal id
  | .userById id =>
      ascii "select name,feeling,iconid from t_user where id=" ++ decimal id ++ ascii ";"
  | .idByName name => ascii "select id from t_user where name='" ++ name ++ ascii "';"
  | .insertFriend idA idB =>
      ascii "insert into t_friend values (" ++ decimal idA ++ ascii "," ++ decimal idB ++
        ascii ");"

/-- The values in the statement fit the fields that they come from. -/
def Stmt.Fits : Stmt → Prop
  | .telByTel tel | .passIdByTel tel => tel.length < 12
  | .nameByName name | .idByName name => name.length < 20
  | .insertUser name tel password => name.length < 20 ∧ tel.length < 12 ∧ password.length < 20
  | .friendIds id | .friendIdsOffline id | .userById id => IsInt32 id
  | .insertFriend idA idB => IsInt32 idA ∧ IsInt32 idB

/-- Texts that fit give statements that fit, even the smallest of the handlers' buffers. -/
theorem Stmt.length_text (stmt : Stmt) (fits : stmt.Fits) : stmt.text.length < 1024 := by
  cases stmt with
  | telByTel | passIdByTel | nameByName | idByName =>
      simp only [Fits] at fits
      simp [text, ascii]
      omega
  | insertUser =>
      simp only [Fits] at fits
      simp [text, ascii, defaultFeeling]
      omega
  | friendIds | friendIdsOffline | userById =>
      have bound := length_decimal_le fits
      simp [text, ascii]
      omega
  | insertFriend =>
      have first := length_decimal_le fits.1
      have second := length_decimal_le fits.2
      simp [text, ascii]
      omega

end InstanceMessage
