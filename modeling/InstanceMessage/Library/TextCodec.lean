import InstanceMessage.Library.Bytes

/-!
# Text encodings

Texts as UTF-16 code units, and their encodings as bytes: UTF-8, and the
encodings that write ASCII as it is and other characters as two bytes. What a
reader sees of a C string is the front of it up to the first NUL, so every
encoding here says what becomes of that front.
-/

namespace Library

/-- An encoding of texts. -/
structure TextCodec where
  encode : List UInt16 → Bytes
  /-- The number of bytes of the encoded text. -/
  size : List UInt16 → ℕ
  /-- The text consists of characters that have a code. -/
  Represents : List UInt16 → Prop
  length_encode : ∀ text, (encode text).length = size text
  takeWhile_encode : ∀ text, (encode text).takeWhile (· ≠ 0) = encode (text.takeWhile (· ≠ 0))
  represents_takeWhile : ∀ {text}, Represents text → Represents (text.takeWhile (· ≠ 0))

namespace TextCodec

/-- The functions convert texts to the encoding and back. -/
structure Converts (codec : TextCodec) (encode : List UInt16 → Bytes)
    (decode : Bytes → List UInt16) : Prop where
  encode_eq : ∀ text, encode text = codec.encode text
  decode_encode : ∀ text, codec.Represents text → decode (codec.encode text) = text

/-- As a C string the text fits into an array of the size, and it is not cut off in front of a NUL
if it could be read back. -/
def Fits (codec : TextCodec) (size : ℕ) (text : List UInt16) : Prop :=
  codec.size (text.takeWhile (· ≠ 0)) < size ∧ (codec.Represents text → 0 ∉ text)

theorem takeWhile_of_not_mem {text : List UInt16} (noNul : 0 ∉ text) :
    text.takeWhile (· ≠ 0) = text := by
  apply List.takeWhile_eq_self_iff.mpr
  intro unit member
  exact decide_eq_true (ne_of_mem_of_not_mem member noNul)

/-- A text of ASCII characters other than NUL. -/
def Plain (text : List UInt16) : Prop := ∀ unit ∈ text, unit ≠ 0 ∧ unit < 128

theorem Plain.fits {codec : TextCodec} {size : ℕ} {text : List UInt16} (plain : Plain text)
    (bytes : codec.size text = text.length) (short : text.length < size) :
    codec.Fits size text := by
  have noNul : 0 ∉ text := fun member => (plain 0 member).1 rfl
  refine ⟨?_, fun _ => noNul⟩
  rw [takeWhile_of_not_mem noNul, bytes]
  exact short

end TextCodec

/-- An encoding that writes the characters one by one can be cut off where the text can. -/
theorem takeWhile_flatMap {α β : Type*} {keep : α → Bool} {keepOut : β → Bool} {write : α → List β}
    (keeps : ∀ a, keep a = true → ∀ b ∈ write a, keepOut b = true)
    (stops : ∀ a, keep a = false → ∃ b rest, write a = b :: rest ∧ keepOut b = false)
    (items : List α) :
    (items.flatMap write).takeWhile keepOut = (items.takeWhile keep).flatMap write := by
  induction items with
  | nil => rfl
  | cons item items ih =>
      rw [List.flatMap_cons]
      cases kept : keep item with
      | true =>
          rw [List.takeWhile_append_of_pos (keeps item kept), ih, List.takeWhile_cons_of_pos kept,
            List.flatMap_cons]
      | false =>
          rcases stops item kept with ⟨first, rest, written, stop⟩
          rw [written, List.cons_append, List.takeWhile_cons_of_neg (by simp [stop]),
            List.takeWhile_cons_of_neg (by simp [kept]), List.flatMap_nil]

/-! ## UTF-16 -/

def isHigh (unit : UInt16) : Bool := 0xD800 ≤ unit ∧ unit < 0xDC00

def isLow (unit : UInt16) : Bool := 0xDC00 ≤ unit ∧ unit < 0xE000

/-- The character of a unit; half of a surrogate pair stands for a question mark. -/
def single (unit : UInt16) : Char :=
  if isHigh unit ∨ isLow unit then '?' else Char.ofNat unit.toNat

def surrogates (high low : UInt16) : Char :=
  Char.ofNat (0x10000 + (high.toNat - 0xD800) * 0x400 + (low.toNat - 0xDC00))

/-- The characters of a text. -/
def characters : List UInt16 → List Char
  | [] => []
  | [unit] => [single unit]
  | unit :: next :: rest =>
      if isHigh unit ∧ isLow next then surrogates unit next :: characters rest
      else single unit :: characters (next :: rest)

def utf16 (character : Char) : List UInt16 :=
  if character.toNat < 0x10000 then [UInt16.ofNat character.toNat]
  else [UInt16.ofNat (0xD800 + (character.toNat - 0x10000) / 0x400),
    UInt16.ofNat (0xDC00 + (character.toNat - 0x10000) % 0x400)]

theorem toNat_ofNat {value : ℕ} (valid : value.isValidChar) : (Char.ofNat value).toNat = value := by
  rw [Char.ofNat, dif_pos valid]
  rfl

theorem toNat_single {unit : UInt16} (alone : ¬(isHigh unit = true ∨ isLow unit = true)) :
    (single unit).toNat = unit.toNat := by
  have bound := unit.toNat_lt
  rw [single, if_neg alone, toNat_ofNat]
  simp only [isHigh, isLow, decide_eq_true_eq, UInt16.le_iff_toNat_le, UInt16.lt_iff_toNat_lt]
    at alone
  simp only [Nat.isValidChar]
  simp at alone
  omega

theorem single_eq_nul_iff {unit : UInt16} : single unit = '\x00' ↔ unit = 0 := by
  constructor
  · intro same
    by_cases half : isHigh unit = true ∨ isLow unit = true
    · rw [single, if_pos half] at same
      simp at same
    · have zero := toNat_single half
      rw [same] at zero
      exact UInt16.toNat_inj.mp zero.symm
  · rintro rfl
    rfl

theorem toNat_surrogates {high low : UInt16} (first : isHigh high = true)
    (second : isLow low = true) : (surrogates high low).toNat =
      0x10000 + (high.toNat - 0xD800) * 0x400 + (low.toNat - 0xDC00) := by
  rw [surrogates, toNat_ofNat]
  simp only [isHigh, isLow, decide_eq_true_eq, UInt16.le_iff_toNat_le, UInt16.lt_iff_toNat_lt]
    at first second
  simp only [Nat.isValidChar]
  simp at first second
  omega

theorem eq_nul_of_mem_utf16 {character : Char} (member : 0 ∈ utf16 character) :
    character = '\x00' := by
  have bound : character.toNat < 0x110000 := by
    rcases character.valid with low | ⟨_, high⟩
    · exact low.trans (by decide)
    · exact high
  apply Char.toNat_inj.mp
  simp only [utf16] at member
  split at member
  · have zero := congrArg UInt16.toNat (List.mem_singleton.mp member)
    simp only [UInt16.toNat_ofNat', UInt16.toNat_zero] at zero
    change character.toNat = 0
    omega
  · simp only [List.mem_cons, List.not_mem_nil, or_false] at member
    rcases member with first | second
    · have zero := congrArg UInt16.toNat first
      simp only [UInt16.toNat_ofNat', UInt16.toNat_zero] at zero
      omega
    · have zero := congrArg UInt16.toNat second
      simp only [UInt16.toNat_ofNat', UInt16.toNat_zero] at zero
      omega

theorem zero_ne_ofNat {value : ℕ} (nonzero : 0 < value % 256) : 0 ≠ UInt8.ofNat value := by
  intro same
  have zero := congrArg UInt8.toNat same
  simp only [UInt8.toNat_ofNat', UInt8.toNat_zero] at zero
  omega

theorem eq_nul_of_mem_utf8 {character : Char} (member : 0 ∈ String.utf8EncodeChar character) :
    character = '\x00' := by
  by_contra other
  have positive : 0 < character.val.toNat :=
    Nat.pos_of_ne_zero fun zero => other (Char.toNat_inj.mp zero)
  simp only [String.utf8EncodeChar] at member
  split at member
  · rcases List.mem_singleton.mp member with same
    exact zero_ne_ofNat (by omega) same
  · split at member
    · simp only [List.mem_cons, List.not_mem_nil, or_false] at member
      rcases member with same | same <;> exact zero_ne_ofNat (by omega) same
    · split at member
      · simp only [List.mem_cons, List.not_mem_nil, or_false] at member
        rcases member with same | same | same <;> exact zero_ne_ofNat (by omega) same
      · simp only [List.mem_cons, List.not_mem_nil, or_false] at member
        rcases member with same | same | same | same <;> exact zero_ne_ofNat (by omega) same

/-- The characters in front of the first NUL. -/
theorem characters_takeWhile (text : List UInt16) :
    characters (text.takeWhile (· ≠ 0)) = (characters text).takeWhile (· ≠ '\x00') := by
  fun_induction characters text with
  | case1 => rfl
  | case2 unit =>
      by_cases zero : unit = 0
      · subst zero
        rfl
      · have other := mt single_eq_nul_iff.mp zero
        simp [zero, other, characters]
  | case3 unit next rest pair ih =>
      have first : unit ≠ 0 := by
        rintro rfl
        exact absurd pair.1 (by decide)
      have second : next ≠ 0 := by
        rintro rfl
        exact absurd pair.2 (by decide)
      have other : surrogates unit next ≠ '\x00' := by
        intro same
        have zero := toNat_surrogates pair.1 pair.2
        rw [same] at zero
        exact absurd zero (by change 0 ≠ _; omega)
      rw [List.takeWhile_cons_of_pos (by simpa using first),
        List.takeWhile_cons_of_pos (by simpa using second),
        List.takeWhile_cons_of_pos (by simpa using other), characters, if_pos pair, ih]
  | case4 unit next rest alone ih =>
      by_cases zero : unit = 0
      · subst zero
        rfl
      · have other := mt single_eq_nul_iff.mp zero
        have kept : (single unit :: characters (next :: rest)).takeWhile (· ≠ '\x00') =
            single unit :: (characters (next :: rest)).takeWhile (· ≠ '\x00') :=
          List.takeWhile_cons_of_pos (by simpa using other)
        rw [List.takeWhile_cons_of_pos (by simpa using zero), kept, ← ih]
        by_cases nul : next = 0
        · simp [nul, characters]
        · rw [List.takeWhile_cons_of_pos (by simpa using nul), characters, if_neg alone]

/-! ## UTF-8 -/

/-- UTF-8 has a code for every text without halves of surrogate pairs. -/
def utf8 : TextCodec where
  encode text := (characters text).flatMap String.utf8EncodeChar
  size text := ((characters text).map Char.utf8Size).sum
  Represents text := (characters text).flatMap utf16 = text
  length_encode text := by
    simp [List.length_flatMap]
  takeWhile_encode text := by
    rw [characters_takeWhile]
    apply takeWhile_flatMap
    · intro character kept byte member
      apply decide_eq_true
      rintro rfl
      exact of_decide_eq_true kept (eq_nul_of_mem_utf8 member)
    · intro character nul
      rcases of_decide_eq_false nul |> not_not.mp with rfl
      exact ⟨0, [], rfl, rfl⟩
  represents_takeWhile {text} represents := by
    rw [characters_takeWhile]
    have cut : ((characters text).flatMap utf16).takeWhile (· ≠ 0) =
        ((characters text).takeWhile (· ≠ '\x00')).flatMap utf16 := by
      apply takeWhile_flatMap
      · intro character kept unit member
        apply decide_eq_true
        rintro rfl
        exact of_decide_eq_true kept (eq_nul_of_mem_utf16 member)
      · intro character nul
        rcases of_decide_eq_false nul |> not_not.mp with rfl
        exact ⟨0, [], rfl, rfl⟩
    rw [← cut, represents]

theorem utf8Size_single {unit : UInt16} (low : unit < 128) : (single unit).utf8Size = 1 := by
  have bound : unit.toNat < 128 := UInt16.lt_iff_toNat_lt.mp low
  have alone : ¬(isHigh unit = true ∨ isLow unit = true) := by
    simp [isHigh, isLow, UInt16.le_iff_toNat_le, UInt16.lt_iff_toNat_lt]
    omega
  have value := toNat_single alone
  have least : (single unit).val ≤ 0x7F := by
    rw [UInt32.le_iff_toNat_le]
    change (single unit).toNat ≤ 127
    omega
  exact if_pos least

theorem characters_cons {unit : UInt16} (low : unit < 128) (rest : List UInt16) :
    characters (unit :: rest) = single unit :: characters rest := by
  have alone : ¬isHigh unit = true := by
    have bound : unit.toNat < 128 := UInt16.lt_iff_toNat_lt.mp low
    simp [isHigh, UInt16.le_iff_toNat_le]
    omega
  cases rest with
  | nil => rfl
  | cons next rest => exact if_neg fun pair => alone pair.1

theorem size_utf8_of_plain {text : List UInt16} (plain : TextCodec.Plain text) :
    utf8.size text = text.length := by
  induction text with
  | nil => rfl
  | cons unit rest ih =>
      have low := (plain unit List.mem_cons_self).2
      have sizes := ih fun other member => plain other (List.mem_cons_of_mem _ member)
      simp only [utf8] at sizes ⊢
      rw [characters_cons low, List.map_cons, List.sum_cons, utf8Size_single low, sizes,
        List.length_cons, Nat.add_comm]

/-! ## Two-byte codes -/

/-- A character set with a two-byte code for each of its characters that is not ASCII. -/
structure DoubleByte where
  code : UInt16 → Option (UInt8 × UInt8)
  letter : UInt8 → UInt8 → UInt16
  nonASCII : ∀ {unit first second}, code unit = some (first, second) → 128 ≤ first ∧ 128 ≤ second
  letter_code : ∀ {unit first second}, code unit = some (first, second) →
    letter first second = unit

namespace DoubleByte

variable (set : DoubleByte)

def Represents (text : List UInt16) : Prop :=
  ∀ unit ∈ text, unit < 128 ∨ (set.code unit).isSome = true

/-- ASCII stays as it is, and a question mark stands for what has no code. -/
def encodeUnit (unit : UInt16) : Bytes :=
  if unit < 128 then [unit.toUInt8]
  else
    match set.code unit with
    | some (first, second) => [first, second]
    | none => [63]

def unitSize (unit : UInt16) : ℕ := if unit < 128 ∨ set.code unit = none then 1 else 2

def decode : Bytes → List UInt16
  | [] => []
  | [byte] => [byte.toUInt16]
  | first :: second :: rest =>
      if first < 128 then first.toUInt16 :: decode (second :: rest)
      else set.letter first second :: decode rest

theorem toUInt16_toUInt8 {unit : UInt16} (low : unit < 128) : unit.toUInt8.toUInt16 = unit := by
  have bound : unit.toNat < 128 := UInt16.lt_iff_toNat_lt.mp low
  apply UInt16.toNat_inj.mp
  rw [UInt8.toNat_toUInt16, UInt16.toNat_toUInt8]
  omega

theorem encodeUnit_of_code {unit : UInt16} {first second : UInt8} (high : ¬unit < 128)
    (code : set.code unit = some (first, second)) : set.encodeUnit unit = [first, second] := by
  simp only [encodeUnit, if_neg high, code]

theorem length_encodeUnit (unit : UInt16) : (set.encodeUnit unit).length = set.unitSize unit := by
  by_cases low : unit < 128
  · simp [encodeUnit, unitSize, low]
  · cases code : set.code unit with
    | none => simp [encodeUnit, unitSize, low, code]
    | some bytes => simp [encodeUnit, unitSize, low, code]

theorem zero_notMem_encodeUnit {unit : UInt16} (other : unit ≠ 0) : 0 ∉ set.encodeUnit unit := by
  by_cases low : unit < 128
  · intro member
    simp only [encodeUnit, if_pos low, List.mem_singleton] at member
    apply other
    rw [← toUInt16_toUInt8 low, ← member]
    rfl
  · cases code : set.code unit with
    | none => simp [encodeUnit, low, code]
    | some bytes =>
        rcases bytes with ⟨first, second⟩
        rcases set.nonASCII code with ⟨firstHigh, secondHigh⟩
        rw [set.encodeUnit_of_code low code]
        intro member
        simp only [List.mem_cons, List.not_mem_nil, or_false] at member
        rcases member with rfl | rfl
        · exact absurd firstHigh (by decide)
        · exact absurd secondHigh (by decide)

theorem decode_ascii {byte : UInt8} (low : byte < 128) (rest : Bytes) :
    set.decode (byte :: rest) = byte.toUInt16 :: set.decode rest := by
  cases rest with
  | nil => rfl
  | cons second rest => exact if_pos low

theorem decode_encodeUnit {unit : UInt16} (has : unit < 128 ∨ (set.code unit).isSome = true)
    (rest : Bytes) : set.decode (set.encodeUnit unit ++ rest) = unit :: set.decode rest := by
  by_cases low : unit < 128
  · have ascii : unit.toUInt8 < 128 := by
      rw [UInt8.lt_iff_toNat_lt, ← UInt8.toNat_toUInt16, toUInt16_toUInt8 low]
      exact UInt16.lt_iff_toNat_lt.mp low
    simp only [encodeUnit, if_pos low]
    rw [List.singleton_append, set.decode_ascii ascii, toUInt16_toUInt8 low]
  · rcases Option.isSome_iff_exists.mp (has.resolve_left low) with ⟨⟨first, second⟩, code⟩
    have high : ¬first < 128 := by
      simpa using (set.nonASCII code).1
    rw [set.encodeUnit_of_code low code, List.cons_append, List.singleton_append, decode,
      if_neg high, set.letter_code code]

theorem decode_encode {text : List UInt16} (represents : set.Represents text) :
    set.decode (text.flatMap set.encodeUnit) = text := by
  induction text with
  | nil => rfl
  | cons unit rest ih =>
      rw [List.flatMap_cons, set.decode_encodeUnit (represents unit List.mem_cons_self),
        ih fun unit member => represents unit (List.mem_cons_of_mem _ member)]

def codec : TextCodec where
  encode text := text.flatMap set.encodeUnit
  size text := (text.map set.unitSize).sum
  Represents := set.Represents
  length_encode text := by
    simp [List.length_flatMap, set.length_encodeUnit]
  takeWhile_encode text := by
    apply takeWhile_flatMap
    · intro unit kept byte member
      apply decide_eq_true
      rintro rfl
      exact set.zero_notMem_encodeUnit (of_decide_eq_true kept) member
    · intro unit nul
      rcases of_decide_eq_false nul |> not_not.mp with rfl
      exact ⟨0, [], rfl, rfl⟩
  represents_takeWhile represents unit member :=
    represents unit ((List.takeWhile_sublist _).subset member)

theorem size_codec_of_plain {text : List UInt16} (plain : TextCodec.Plain text) :
    set.codec.size text = text.length := by
  have ones : text.map set.unitSize = text.map fun _ => 1 := by
    apply List.map_congr_left
    intro unit member
    exact if_pos (.inl (plain unit member).2)
  simp [codec, ones]

end DoubleByte

end Library
