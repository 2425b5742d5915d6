import InstanceMessage.Client.CKernel
import InstanceMessage.Library.TextCodec

/-!
# What the dialogs accept

The checks of `LoginDialog` and `ChatDialog`, which count UTF-16 units, and the
fields of the packets that the kernel then fills, which count bytes. A text
that a dialog accepts can be sent if its bytes in the charset of the field fit
into it, GB2312 for the nicknames that are looked up and UTF-8 for the others.

Of Qt it is assumed that the text conversions are those of UTF-8 and of a
two-byte character set.
-/

namespace InstanceMessage

open Library

/-- Qt converts between texts and UTF-8, and with the codec `gb2312`. -/
structure Qt.Codecs (qt : Qt) (gb2312 : DoubleByte) : Prop where
  utf8 : utf8.Converts qt.toStdString qt.fromUtf8
  gb2312 : gb2312.codec.Converts qt.fromUnicode qt.toUnicode

/-! ## The dialogs -/

/-- `remove( " " )` leaves nothing. -/
def blank (text : QString) : Bool := text.all (· = 32)

def LoginDialog.onPbCommitLoginClicked (tel password : QString) : Option UserAction :=
  if blank tel ∨ blank password then none
  else if tel.length ≠ 11 ∨ password.length ≥ 20 then none
  else some (.loginMassage tel password)

def LoginDialog.onPbCommitRegisterClicked (name tel password : QString) : Option UserAction :=
  if blank name ∨ blank tel ∨ blank password then none
  else if name.length ≥ 20 ∨ tel.length ≠ 11 ∨ password.length ≥ 20 then none
  else some (.registerMassage name tel password)

/-- The text of the edit window, plain and as HTML. -/
def ChatDialog.onPbSendClicked (dialog : ChatDialog) (plain html : QString) : Option UserAction :=
  if blank plain then none else some (.sendMessage dialog.mId html)

/-- What the user enters. -/
inductive UserEntry
  | register (name tel password : QString)
  | login (tel password : QString)
  | addFriend (name : QString)
  | send (dialog : ChatDialog) (plain html : QString)

/-- The field, decoded, is the text, if the charset has codes for it. -/
def Carries (codec : TextCodec) (decode : Bytes → QString) (field : Option Bytes)
    (text : QString) : Prop :=
  codec.Represents text → field.map decode = some text

namespace CKernel

/-- Registration accepts the nickname: the dialog does, and the request can be built. -/
def Registered (qt : Qt) (name : QString) : Prop :=
  ∃ (kernel : CKernel) (tel password : QString) (packet : Bytes),
    LoginDialog.onPbCommitRegisterClicked name tel password =
      some (.registerMassage name tel password) ∧
    kernel.slotRegisterMassage qt name tel password = some (kernel, some packet)

/-- The entry passes the checks of the dialog, and of `slot_addFriend`. -/
def Passes (qt : Qt) (kernel : CKernel) : UserEntry → Prop
  | .register name tel password =>
      LoginDialog.onPbCommitRegisterClicked name tel password =
        some (.registerMassage name tel password)
  | .login tel password =>
      LoginDialog.onPbCommitLoginClicked tel password = some (.loginMassage tel password)
  | .addFriend name =>
      blank name = false ∧ name ≠ kernel.mUsername ∧
        (kernel.mMapIdtoForm.any fun entry => name = entry.2.mName) = false ∧
        Registered qt kernel.mUsername
  | .send dialog plain html =>
      dialog.onPbSendClicked plain html = some (.sendMessage dialog.mId html)

/-- The slot builds its packet, and the texts can be read from it. -/
def Sends (qt : Qt) (gb2312 : DoubleByte) (kernel : CKernel) : UserEntry → Prop
  | .register name tel password =>
      ∃ packet, kernel.slotRegisterMassage qt name tel password = some (kernel, some packet) ∧
        Carries gb2312.codec qt.toUnicode (StruRegisterRq.readName packet) name ∧
        Carries utf8 qt.fromUtf8 (StruRegisterRq.readTel packet) tel ∧
        Carries utf8 qt.fromUtf8 (StruRegisterRq.readPassword packet) password
  | .login tel password =>
      ∃ packet, kernel.slotLoginMassage qt tel password = some (kernel, some packet) ∧
        Carries utf8 qt.fromUtf8 (StruLoginRq.readTel packet) tel ∧
        Carries utf8 qt.fromUtf8 (StruLoginRq.readPassword packet) password
  | .addFriend name =>
      ∃ packet, kernel.slotAddFriend qt name = some (kernel, some packet) ∧
        Carries gb2312.codec qt.toUnicode (StruAddFriendRq.readFriendName packet) name ∧
        Carries utf8 qt.fromUtf8 (StruAddFriendRq.readUserName packet) kernel.mUsername
  | .send dialog _ html =>
      ∃ packet, kernel.slotSendMessage qt dialog.mId html = some (kernel, some packet) ∧
        Carries utf8 qt.fromUtf8 (StruChatRq.readContent packet) html

/-- Every text fits into its field in the charset of the field. -/
def Fits (gb2312 : DoubleByte) (kernel : CKernel) : UserEntry → Prop
  | .register name tel password =>
      gb2312.codec.Fits defNameMaxLength name ∧ utf8.Fits defTelLength tel ∧
        utf8.Fits defPasswordMaxLength password
  | .login tel password => utf8.Fits defTelLength tel ∧ utf8.Fits defPasswordMaxLength password
  | .addFriend name =>
      gb2312.codec.Fits defNameMaxLength name ∧ utf8.Fits defNameMaxLength kernel.mUsername
  | .send _ _ html => utf8.Fits defContentMaxLength html

/-! ## One field -/

section Field

variable {codec : TextCodec} {encode : QString → Bytes} {decode : Bytes → QString}

theorem strcpyS_encode (converts : codec.Converts encode decode) (size : ℕ) (text : QString) :
    strcpyS size (encode text) =
      if codec.size (text.takeWhile (· ≠ 0)) < size then
        some (codec.encode (text.takeWhile (· ≠ 0)))
      else none := by
  simp only [strcpyS, converts.encode_eq, codec.takeWhile_encode, codec.length_encode]

/-- What `strcpy_s` copies can be read back exactly when the text fits. -/
theorem copies_iff_fits (converts : codec.Converts encode decode) {size : ℕ} {text : QString} :
    (∃ copied, strcpyS size (encode text) = some copied ∧
      (codec.Represents text → decode copied = text)) ↔ codec.Fits size text := by
  rw [strcpyS_encode converts]
  constructor
  · rintro ⟨copied, copies, reads⟩
    rcases Option.ite_none_right_eq_some.mp copies with ⟨short, same⟩
    refine ⟨short, fun represents member => ?_⟩
    have whole := reads represents
    rw [← Option.some.inj same, converts.decode_encode _ (codec.represents_takeWhile represents)]
      at whole
    rw [← whole] at member
    simpa using List.mem_takeWhile_imp member
  · rintro ⟨short, noNul⟩
    refine ⟨_, if_pos short, fun represents => ?_⟩
    rw [TextCodec.takeWhile_of_not_mem (noNul represents)]
    exact converts.decode_encode text represents

theorem carries_some {copied : Bytes} {text : QString} :
    Carries codec decode (some copied) text ↔ (codec.Represents text → decode copied = text) := by
  simp [Carries]

end Field

/-! ## The slots -/

section Slots

variable {qt : Qt} {gb2312 : DoubleByte} (kernel : CKernel)

theorem sends_register_iff (codecs : qt.Codecs gb2312) (name tel password : QString) :
    kernel.Sends qt gb2312 (.register name tel password) ↔
      kernel.Fits gb2312 (.register name tel password) := by
  simp only [Sends, Fits, ← copies_iff_fits codecs.gb2312, ← copies_iff_fits codecs.utf8]
  constructor
  · rintro ⟨packet, sent, carriesName, carriesTel, carriesPassword⟩
    simp only [slotRegisterMassage, Option.bind_eq_bind, Option.bind_eq_some_iff] at sent
    rcases sent with ⟨nameCopy, copiesName, telCopy, copiesTel, passwordCopy, copiesPassword, same⟩
    have written := (Prod.mk.inj (Option.some.inj same)).2
    rcases Option.some.inj written with rfl
    have fits : StruRegisterRq.Fits ⟨telCopy, passwordCopy, nameCopy⟩ :=
      ⟨fitsArray_of_strcpyS copiesTel, fitsArray_of_strcpyS copiesPassword,
        fitsArray_of_strcpyS copiesName⟩
    rcases fits.read_bytes with ⟨readTel, readPassword, readName⟩
    rw [readName] at carriesName
    rw [readTel] at carriesTel
    rw [readPassword] at carriesPassword
    exact ⟨⟨nameCopy, copiesName, carries_some.mp carriesName⟩,
      ⟨telCopy, copiesTel, carries_some.mp carriesTel⟩,
      ⟨passwordCopy, copiesPassword, carries_some.mp carriesPassword⟩⟩
  · rintro ⟨⟨nameCopy, copiesName, readsName⟩, ⟨telCopy, copiesTel, readsTel⟩,
      ⟨passwordCopy, copiesPassword, readsPassword⟩⟩
    have fits : StruRegisterRq.Fits ⟨telCopy, passwordCopy, nameCopy⟩ :=
      ⟨fitsArray_of_strcpyS copiesTel, fitsArray_of_strcpyS copiesPassword,
        fitsArray_of_strcpyS copiesName⟩
    rcases fits.read_bytes with ⟨readTel, readPassword, readName⟩
    refine ⟨StruRegisterRq.bytes ⟨telCopy, passwordCopy, nameCopy⟩, ?_, ?_, ?_, ?_⟩
    · simp [slotRegisterMassage, copiesName, copiesTel, copiesPassword]
    · rw [readName]
      exact carries_some.mpr readsName
    · rw [readTel]
      exact carries_some.mpr readsTel
    · rw [readPassword]
      exact carries_some.mpr readsPassword

theorem sends_login_iff (codecs : qt.Codecs gb2312) (tel password : QString) :
    kernel.Sends qt gb2312 (.login tel password) ↔
      kernel.Fits gb2312 (.login tel password) := by
  simp only [Sends, Fits, ← copies_iff_fits codecs.utf8]
  constructor
  · rintro ⟨packet, sent, carriesTel, carriesPassword⟩
    simp only [slotLoginMassage, Option.bind_eq_bind, Option.bind_eq_some_iff] at sent
    rcases sent with ⟨telCopy, copiesTel, passwordCopy, copiesPassword, same⟩
    have written := (Prod.mk.inj (Option.some.inj same)).2
    rcases Option.some.inj written with rfl
    have fits : StruLoginRq.Fits ⟨telCopy, passwordCopy⟩ :=
      ⟨fitsArray_of_strcpyS copiesTel, fitsArray_of_strcpyS copiesPassword⟩
    rcases fits.read_bytes with ⟨readTel, readPassword⟩
    rw [readTel] at carriesTel
    rw [readPassword] at carriesPassword
    exact ⟨⟨telCopy, copiesTel, carries_some.mp carriesTel⟩,
      ⟨passwordCopy, copiesPassword, carries_some.mp carriesPassword⟩⟩
  · rintro ⟨⟨telCopy, copiesTel, readsTel⟩, ⟨passwordCopy, copiesPassword, readsPassword⟩⟩
    have fits : StruLoginRq.Fits ⟨telCopy, passwordCopy⟩ :=
      ⟨fitsArray_of_strcpyS copiesTel, fitsArray_of_strcpyS copiesPassword⟩
    rcases fits.read_bytes with ⟨readTel, readPassword⟩
    refine ⟨StruLoginRq.bytes ⟨telCopy, passwordCopy⟩, ?_, ?_, ?_⟩
    · simp [slotLoginMassage, copiesTel, copiesPassword]
    · rw [readTel]
      exact carries_some.mpr readsTel
    · rw [readPassword]
      exact carries_some.mpr readsPassword

theorem slotAddFriend_of_passes {name : QString} (passes : kernel.Passes qt (.addFriend name)) :
    kernel.slotAddFriend qt name =
      (strcpyS defNameMaxLength (qt.fromUnicode name)).bind fun friendName =>
        (strcpyS defNameMaxLength (qt.toStdString kernel.mUsername)).bind fun userName =>
          some (kernel, some (StruAddFriendRq.bytes ⟨kernel.mUserId, userName, friendName⟩)) := by
  rcases passes with ⟨notBlank, other, notFriend, _⟩
  simp only [blank] at notBlank
  simp [slotAddFriend, notBlank, other, notFriend]

theorem sends_addFriend_iff (codecs : qt.Codecs gb2312) {name : QString}
    (passes : kernel.Passes qt (.addFriend name)) :
    kernel.Sends qt gb2312 (.addFriend name) ↔ kernel.Fits gb2312 (.addFriend name) := by
  simp only [Sends, Fits, ← copies_iff_fits codecs.gb2312, ← copies_iff_fits codecs.utf8,
    kernel.slotAddFriend_of_passes passes]
  constructor
  · rintro ⟨packet, sent, carriesFriend, carriesUser⟩
    simp only [Option.bind_eq_some_iff] at sent
    rcases sent with ⟨friendCopy, copiesFriend, userCopy, copiesUser, same⟩
    have written := (Prod.mk.inj (Option.some.inj same)).2
    rcases Option.some.inj written with rfl
    have fits : StruAddFriendRq.Fits ⟨kernel.mUserId, userCopy, friendCopy⟩ :=
      ⟨fitsArray_of_strcpyS copiesUser, fitsArray_of_strcpyS copiesFriend⟩
    rcases fits.read_bytes with ⟨readUser, readFriend⟩
    rw [readFriend] at carriesFriend
    rw [readUser] at carriesUser
    exact ⟨⟨friendCopy, copiesFriend, carries_some.mp carriesFriend⟩,
      ⟨userCopy, copiesUser, carries_some.mp carriesUser⟩⟩
  · rintro ⟨⟨friendCopy, copiesFriend, readsFriend⟩, ⟨userCopy, copiesUser, readsUser⟩⟩
    have fits : StruAddFriendRq.Fits ⟨kernel.mUserId, userCopy, friendCopy⟩ :=
      ⟨fitsArray_of_strcpyS copiesUser, fitsArray_of_strcpyS copiesFriend⟩
    rcases fits.read_bytes with ⟨readUser, readFriend⟩
    refine ⟨StruAddFriendRq.bytes ⟨kernel.mUserId, userCopy, friendCopy⟩, ?_, ?_, ?_⟩
    · simp [copiesFriend, copiesUser]
    · rw [readFriend]
      exact carries_some.mpr readsFriend
    · rw [readUser]
      exact carries_some.mpr readsUser

theorem sends_send_iff (codecs : qt.Codecs gb2312) (dialog : ChatDialog) (plain html : QString) :
    kernel.Sends qt gb2312 (.send dialog plain html) ↔
      kernel.Fits gb2312 (.send dialog plain html) := by
  simp only [Sends, Fits, ← copies_iff_fits codecs.utf8]
  constructor
  · rintro ⟨packet, sent, carries⟩
    simp only [slotSendMessage, Option.bind_eq_bind, Option.bind_eq_some_iff] at sent
    rcases sent with ⟨copied, copies, same⟩
    have written := (Prod.mk.inj (Option.some.inj same)).2
    rcases Option.some.inj written with rfl
    rw [StruChatRq.readContent_bytes (fitsArray_of_strcpyS copies)] at carries
    exact ⟨copied, copies, carries_some.mp carries⟩
  · rintro ⟨copied, copies, reads⟩
    refine ⟨StruChatRq.bytes ⟨kernel.mUserId, dialog.mId, copied⟩, ?_, ?_⟩
    · simp [slotSendMessage, copies]
    · rw [StruChatRq.readContent_bytes (fitsArray_of_strcpyS copies)]
      exact carries_some.mpr reads

/-- What the dialogs accept can be sent exactly when every text, in bytes, fits into its field. -/
theorem accepted_sends_iff {entry : UserEntry} (codecs : qt.Codecs gb2312)
    (passes : kernel.Passes qt entry) :
    kernel.Sends qt gb2312 entry ↔ kernel.Fits gb2312 entry := by
  cases entry with
  | register name tel password => exact kernel.sends_register_iff codecs name tel password
  | login tel password => exact kernel.sends_login_iff codecs tel password
  | addFriend name => exact kernel.sends_addFriend_iff codecs passes
  | send dialog plain html => exact kernel.sends_send_iff codecs dialog plain html

/-- ASCII entries that the login dialog accepts can be sent. -/
theorem fits_register_of_plain {name tel password : QString}
    (passes : kernel.Passes qt (.register name tel password)) (plainName : TextCodec.Plain name)
    (plainTel : TextCodec.Plain tel) (plainPassword : TextCodec.Plain password) :
    kernel.Fits gb2312 (.register name tel password) := by
  simp only [Passes, LoginDialog.onPbCommitRegisterClicked, Option.ite_none_left_eq_some]
    at passes
  rcases passes with ⟨_, lengths, _⟩
  refine ⟨plainName.fits (gb2312.size_codec_of_plain plainName) ?_,
    plainTel.fits (size_utf8_of_plain plainTel) ?_,
    plainPassword.fits (size_utf8_of_plain plainPassword) ?_⟩
  · simp only [defNameMaxLength]
    omega
  · simp only [defTelLength]
    omega
  · simp only [defPasswordMaxLength]
    omega

theorem fits_login_of_plain {tel password : QString}
    (passes : kernel.Passes qt (.login tel password)) (plainTel : TextCodec.Plain tel)
    (plainPassword : TextCodec.Plain password) : kernel.Fits gb2312 (.login tel password) := by
  simp only [Passes, LoginDialog.onPbCommitLoginClicked, Option.ite_none_left_eq_some] at passes
  rcases passes with ⟨_, lengths, _⟩
  refine ⟨plainTel.fits (size_utf8_of_plain plainTel) ?_,
    plainPassword.fits (size_utf8_of_plain plainPassword) ?_⟩
  · simp only [defTelLength]
    omega
  · simp only [defPasswordMaxLength]
    omega

end Slots

end CKernel

/-! ## Conversions -/

/-- The conversions for a character set, without what they do with bytes that are no text. -/
def Qt.standard (gb2312 : DoubleByte) : Qt where
  toUnicode := gb2312.decode
  fromUnicode := gb2312.codec.encode
  toStdString := utf8.encode
  fromUtf8 bytes :=
    match bytes.toByteArray.utf8Decode? with
    | some characters => characters.toList.flatMap utf16
    | none => []

theorem Qt.codecs_standard (gb2312 : DoubleByte) : (Qt.standard gb2312).Codecs gb2312 where
  utf8 :=
    { encode_eq := fun _ => rfl
      decode_encode := fun text represents => by
        have decoded : (utf8.encode text).toByteArray.utf8Decode? =
            some (characters text).toArray := List.utf8Decode?_utf8Encode
        simp only [standard, decoded]
        exact represents }
  gb2312 :=
    { encode_eq := fun _ => rfl
      decode_encode := fun _ represents => gb2312.decode_encode represents }

/-- ASCII and one letter, with the code that it has in GB2312. -/
def oneLetter : DoubleByte where
  code unit := if unit = 0x540D then some (0xC3, 0xFB) else none
  letter _ _ := 0x540D
  nonASCII {unit first second} code := by
    rcases Option.ite_none_right_eq_some.mp code with ⟨_, same⟩
    rcases Prod.mk.inj (Option.some.inj same) with ⟨rfl, rfl⟩
    decide
  letter_code {unit first second} code := (Option.ite_none_right_eq_some.mp code).1.symm

namespace CKernel

theorem accepted_sends_login :
    let kernel : CKernel := {}
    let entry : UserEntry := .login (List.replicate 11 49) [112, 119]
    kernel.Sends (.standard oneLetter) oneLetter entry ↔ kernel.Fits oneLetter entry :=
  accepted_sends_iff {} (Qt.codecs_standard oneLetter) rfl

/-- A nickname of nine letters takes 18 bytes when it is registered, and 27 as the name of the user
who asks for a friendship. -/
theorem accepted_sends_fails : ¬∀ (gb2312 : DoubleByte) (qt : Qt) (kernel : CKernel)
    (entry : UserEntry), qt.Codecs gb2312 → kernel.Passes qt entry →
      kernel.Sends qt gb2312 entry := by
  intro claimed
  have registered : Registered (.standard oneLetter) (List.replicate 9 0x540D) :=
    ⟨{}, List.replicate 11 49, [112, 119], _, rfl, rfl⟩
  rcases claimed oneLetter (.standard oneLetter) { mUsername := List.replicate 9 0x540D }
    (.addFriend [98, 111, 98]) (Qt.codecs_standard oneLetter)
    ⟨rfl, by decide, rfl, registered⟩ with ⟨packet, sent, _⟩
  have refused : slotAddFriend (.standard oneLetter) { mUsername := List.replicate 9 0x540D }
      [98, 111, 98] = none := by decide
  rw [refused] at sent
  simp at sent

end CKernel

end InstanceMessage
