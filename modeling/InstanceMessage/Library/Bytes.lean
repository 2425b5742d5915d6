import Mathlib.Data.List.Basic
import Mathlib.Data.List.TakeWhile
import Mathlib.Tactic.Ring

/-!
# Bytes of C data

The representation, as byte lists, of the C data that travels in packets:
32-bit little-endian integers, character arrays that hold a NUL-terminated
text, and decimal numbers in texts. Reading past the end of the data is
`none`; so is a text without a terminator. Each writer is inverse to its
reader at any offset of a larger block of bytes.
-/

namespace Library

abbrev Bytes := List UInt8

def ascii (text : String) : Bytes := text.toList.map fun char => UInt8.ofNat char.toNat

/-- The four bytes of an unsigned word, least significant first. -/
def le32 (word : ℕ) : Bytes :=
  [UInt8.ofNat word, UInt8.ofNat (word / 256), UInt8.ofNat (word / 65536),
    UInt8.ofNat (word / 16777216)]

/-- The number that a sequence of bytes denotes, least significant first. -/
def ofLe : Bytes → ℕ
  | [] => 0
  | byte :: rest => byte.toNat + 256 * ofLe rest

/-- The values of a signed 32-bit integer. -/
def IsInt32 (value : ℤ) : Prop := -2147483648 ≤ value ∧ value < 2147483648

instance (value : ℤ) : Decidable (IsInt32 value) := inferInstanceAs (Decidable (_ ∧ _))

def toInt32 (word : ℕ) : ℤ := if word < 2147483648 then word else word - 4294967296

def int32 (value : ℤ) : Bytes := le32 (value % 4294967296).toNat

/-- The signed 32-bit integer at an offset, when its four bytes lie inside the data. -/
def readInt32 (data : Bytes) (offset : ℕ) : Option ℤ :=
  let word := (data.drop offset).take 4
  if word.length = 4 then some (toInt32 (ofLe word)) else none

/-- The text that starts at an offset and ends before the next NUL, when there is one. -/
def cString (data : Bytes) (offset : ℕ) : Option Bytes :=
  if (0 : UInt8) ∈ data.drop offset then some ((data.drop offset).takeWhile (· ≠ 0)) else none

/-- A character array of a given size that holds a text, filled up with NUL. -/
def charArray (size : ℕ) (text : Bytes) : Bytes := text ++ List.replicate (size - text.length) 0

/-- A text that a character array of the given size can hold. -/
structure FitsArray (size : ℕ) (text : Bytes) : Prop where
  noNul : (0 : UInt8) ∉ text
  short : text.length < size

@[simp]
theorem length_int32 (value : ℤ) : (int32 value).length = 4 := rfl

theorem FitsArray.length_charArray {size : ℕ} {text : Bytes} (fits : FitsArray size text) :
    (charArray size text).length = size := by
  have short := fits.short
  simp only [charArray, List.length_append, List.length_replicate]
  omega

theorem ofLe_lt (bytes : Bytes) : ofLe bytes < 256 ^ bytes.length := by
  induction bytes with
  | nil => simp [ofLe]
  | cons byte rest ih =>
      have byteBound := byte.toNat_lt
      rw [List.length_cons, pow_succ, ofLe]
      omega

theorem ofLe_le32 {word : ℕ} (bound : word < 4294967296) : ofLe (le32 word) = word := by
  simp only [le32, ofLe, UInt8.toNat_ofNat']
  omega

theorem toInt32_ofLe_int32 {value : ℤ} (range : IsInt32 value) :
    toInt32 (ofLe (int32 value)) = value := by
  rcases range with ⟨lower, upper⟩
  rw [int32, ofLe_le32 (by omega), toInt32]
  split <;> omega

theorem isInt32_toInt32 {word : ℕ} (bound : word < 4294967296) : IsInt32 (toInt32 word) := by
  simp only [IsInt32, toInt32]
  split <;> omega

theorem isInt32_of_readInt32 {data : Bytes} {offset : ℕ} {value : ℤ}
    (read : readInt32 data offset = some value) : IsInt32 value := by
  simp only [readInt32] at read
  split at read
  · rename_i full
    rcases Option.some.inj read with rfl
    have bound := ofLe_lt ((data.drop offset).take 4)
    rw [full] at bound
    exact isInt32_toInt32 (by omega)
  · simp at read

theorem readInt32_of_le (data : Bytes) (offset : ℕ) (room : offset + 4 ≤ data.length) :
    ∃ value, readInt32 data offset = some value := by
  have full : ((data.drop offset).take 4).length = 4 := by
    rw [List.length_take, List.length_drop]
    omega
  simp [readInt32, full]

theorem readInt32_zero {value : ℤ} (range : IsInt32 value) (rest : Bytes) :
    readInt32 (int32 value ++ rest) 0 = some value := by
  have word : ((int32 value ++ rest).drop 0).take 4 = int32 value :=
    List.take_left' (length_int32 value)
  simp only [readInt32, word, length_int32, if_true, toInt32_ofLe_int32 range]

/-- Bytes in front do not matter for what is read behind them. -/
theorem readInt32_append {front rest : Bytes} {size : ℕ} (length : front.length = size)
    (offset : ℕ) : readInt32 (front ++ rest) (offset + size) = readInt32 rest offset := by
  subst length
  rw [Nat.add_comm]
  simp only [readInt32, List.drop_length_add_append]

theorem cString_append {front rest : Bytes} {size : ℕ} (length : front.length = size)
    (offset : ℕ) : cString (front ++ rest) (offset + size) = cString rest offset := by
  subst length
  rw [Nat.add_comm]
  simp only [cString, List.drop_length_add_append]

theorem not_mem_of_cString {data text : Bytes} {offset : ℕ}
    (read : cString data offset = some text) : (0 : UInt8) ∉ text := by
  intro member
  rcases Option.ite_none_right_eq_some.mp read with ⟨_, same⟩
  rw [← Option.some.inj same] at member
  simpa using List.mem_takeWhile_imp member

/-- A text is read up to the first byte that fills its array. -/
theorem FitsArray.cString_zero {size : ℕ} {text : Bytes} (fits : FitsArray size text)
    (rest : Bytes) : cString (charArray size text ++ rest) 0 = some text := by
  have short := fits.short
  obtain ⟨pad, padded⟩ : ∃ pad, size - text.length = pad + 1 := ⟨size - text.length - 1, by omega⟩
  have nonzero : ∀ byte ∈ text, decide (byte ≠ 0) = true := by
    intro byte member
    simp only [decide_eq_true_eq]
    rintro rfl
    exact fits.noNul member
  simp only [cString, charArray, padded, List.replicate_succ, List.drop_zero, List.append_assoc,
    List.cons_append, List.mem_append, List.mem_cons, true_or, or_true, if_true]
  rw [List.takeWhile_append_of_pos nonzero]
  simp

def decimalNat (value : ℕ) : Bytes :=
  (Nat.toDigits 10 value).map fun char => UInt8.ofNat char.toNat

/-- The text that `%d` prints. -/
def decimal (value : ℤ) : Bytes :=
  if value < 0 then 45 :: decimalNat value.natAbs else decimalNat value.natAbs

def isDigit (byte : UInt8) : Bool := 48 ≤ byte && byte ≤ 57

def isSpace (byte : UInt8) : Bool := byte = 32 || (9 ≤ byte && byte ≤ 13)

def digitsValue (digits : Bytes) : ℕ :=
  digits.foldl (fun value digit => 10 * value + (digit.toNat - 48)) 0

/-- The signed value of a digit sequence, when there is a digit and the value fits an `int`. -/
def checkedInt (negative : Bool) (digits : Bytes) : Option ℤ :=
  let value : ℤ := if negative then -(digitsValue digits : ℤ) else digitsValue digits
  if digits ≠ [] ∧ IsInt32 value then some value else none

/-- `std::stoi`: white space, a sign and a maximal sequence of digits. Without a digit, or
when the value does not fit an `int`, it throws. -/
def stoi (text : Bytes) : Option ℤ :=
  match text.dropWhile isSpace with
  | 45 :: rest => checkedInt true (rest.takeWhile isDigit)
  | 43 :: rest => checkedInt false (rest.takeWhile isDigit)
  | rest => checkedInt false (rest.takeWhile isDigit)

example : stoi (decimal (-2147483648)) = some (-2147483648) := by decide

theorem isInt32_of_checkedInt {negative : Bool} {digits : Bytes} {value : ℤ}
    (checked : checkedInt negative digits = some value) : IsInt32 value := by
  simp only [checkedInt, Option.ite_none_right_eq_some, Option.some.injEq] at checked
  exact checked.2 ▸ checked.1.2

theorem isInt32_of_stoi {text : Bytes} {value : ℤ} (parsed : stoi text = some value) :
    IsInt32 value := by
  simp only [stoi] at parsed
  split at parsed <;> exact isInt32_of_checkedInt parsed

theorem isDigit_decimalNat {value : ℕ} {byte : UInt8} (member : byte ∈ decimalNat value) :
    isDigit byte = true := by
  rcases List.mem_map.mp member with ⟨char, digit, rfl⟩
  have isDigit := Nat.isDigit_of_mem_toDigits (by omega) (by omega) digit
  simp only [Char.isDigit, Bool.and_eq_true, decide_eq_true_eq] at isDigit
  have lower : 48 ≤ char.toNat := by simpa using UInt32.le_iff_toNat_le.mp isDigit.1
  have upper : char.toNat ≤ 57 := by simpa using UInt32.le_iff_toNat_le.mp isDigit.2
  simp only [Library.isDigit, Bool.and_eq_true, decide_eq_true_eq, UInt8.le_iff_toNat_le,
    UInt8.toNat_ofNat']
  constructor
  · show 48 ≤ _
    omega
  · show _ ≤ 57
    omega

theorem digitsValue_decimalNat (value : ℕ) : digitsValue (decimalNat value) = value := by
  have read := Nat.ofDigitChars_ten_toDigits (n := value)
  rw [Nat.ofDigitChars_eq_foldl] at read
  rw [digitsValue, decimalNat, List.foldl_map]
  refine Eq.trans ?_ read
  apply List.foldl_ext _ _ _
  intro sofar char digit
  have isDigit := Nat.isDigit_of_mem_toDigits (by omega) (by omega) digit
  simp only [Char.isDigit, Bool.and_eq_true, decide_eq_true_eq] at isDigit
  have upper : char.toNat ≤ 57 := by simpa using UInt32.le_iff_toNat_le.mp isDigit.2
  have small : (UInt8.ofNat char.toNat).toNat = char.toNat := by
    rw [UInt8.toNat_ofNat']
    omega
  rw [small]
  rfl

theorem decimalNat_ne_nil (value : ℕ) : decimalNat value ≠ [] := by
  simp [decimalNat, Nat.toDigits_ne_nil]

theorem takeWhile_decimalNat (value : ℕ) :
    (decimalNat value).takeWhile isDigit = decimalNat value :=
  List.takeWhile_eq_self_iff.mpr fun _ member => isDigit_decimalNat member

/-- `stoi` reads back what `%d` prints, when it fits an `int`. -/
theorem stoi_decimal_eq (value : ℤ) :
    stoi (decimal value) = if IsInt32 value then some value else none := by
  by_cases negative : value < 0
  · have whole : -((value.natAbs : ℕ) : ℤ) = value := by omega
    have noSpace : (decimal value).dropWhile isSpace = 45 :: decimalNat value.natAbs := by
      simp only [decimal, negative, if_true]
      exact List.dropWhile_cons_of_neg (by decide)
    generalize value.natAbs = magnitude at whole noSpace
    simp [stoi, noSpace, checkedInt, takeWhile_decimalNat, digitsValue_decimalNat,
      decimalNat_ne_nil, whole]
  · have whole : ((value.natAbs : ℕ) : ℤ) = value := by omega
    have allDigits (byte : UInt8) (member : byte ∈ decimalNat value.natAbs) :
        isDigit byte = true := isDigit_decimalNat member
    have noSpace : (decimal value).dropWhile isSpace = decimalNat value.natAbs := by
      simp only [decimal, negative, if_false]
      cases digits : decimalNat value.natAbs with
      | nil => rfl
      | cons first rest =>
          apply List.dropWhile_cons_of_neg
          have digit := allDigits first (by simp [digits])
          simp only [isDigit, isSpace, Bool.and_eq_true, Bool.or_eq_true, decide_eq_true_eq,
            UInt8.le_iff_toNat_le, ← UInt8.toNat_inj] at digit ⊢
          simp only [UInt8.reduceToNat] at digit ⊢
          omega
    simp only [stoi, noSpace]
    split
    · rename_i digits
      exact absurd (allDigits 45 (by simp [digits])) (by decide)
    · rename_i digits
      exact absurd (allDigits 43 (by simp [digits])) (by decide)
    · simp [checkedInt, takeWhile_decimalNat, digitsValue_decimalNat, decimalNat_ne_nil, whole]

theorem stoi_decimal {value : ℤ} (range : IsInt32 value) : stoi (decimal value) = some value :=
  (stoi_decimal_eq value).trans (if_pos range)

theorem eq_of_stoi_decimal {value parsed : ℤ} (read : stoi (decimal value) = some parsed) :
    parsed = value := by
  rw [stoi_decimal_eq] at read
  rcases Option.ite_none_right_eq_some.mp read with ⟨_, same⟩
  exact (Option.some.inj same).symm

/-- The decimal text of an `int` has at most eleven characters. -/
theorem length_decimal_le {value : ℤ} (range : IsInt32 value) : (decimal value).length ≤ 11 := by
  rcases range with ⟨lower, upper⟩
  have digits : (Nat.toDigits 10 value.natAbs).length ≤ 10 :=
    (Nat.length_toDigits_le_iff (by omega) (by omega)).mpr (by omega)
  simp only [decimal, decimalNat]
  split
  · rw [List.length_cons, List.length_map]
    omega
  · rw [List.length_map]
    omega

end Library
