import InstanceMessage.Library.Bytes

/-!
# Texts of SQL statements

How MySQL reads the text of a query, as far as string literals and statement
separators go. Inside a single-quoted literal a doubled quote denotes one
quote, and a backslash together with the next byte denotes what `unescape`
says. Outside of literals every other byte stands for itself, and a semicolon
ends a statement.

A template is code with texts between quotes. The texts are read back as what
was put in exactly when they are `verbatim`: when no text contains a quote, and
a backslash in it only before a `%` or a `_`, where both bytes are kept. A text
that is not verbatim is either cut at one of its own quotes, or read as fewer
bytes than it has, and then the literal runs past its closing quote.
-/

namespace Library

namespace SqlText

def quote : UInt8 := 39

def backslash : UInt8 := 92

def semicolon : UInt8 := 59

/-- What a backslash and the byte after it denote inside a literal. -/
def unescape (byte : UInt8) : Bytes :=
  if byte = 48 then [0]
  else if byte = 98 then [8]
  else if byte = 116 then [9]
  else if byte = 110 then [10]
  else if byte = 114 then [13]
  else if byte = 90 then [26]
  else if byte = 37 ∨ byte = 95 then [backslash, byte]
  else [byte]

/-- The rest of a literal whose opening quote has been read, and the text that follows it. -/
def readLiteral : Bytes → Option (Bytes × Bytes)
  | [] => none
  | [byte] => if byte = quote then some ([], []) else none
  | byte :: next :: rest =>
      if byte = quote then
        if next = quote then (readLiteral rest).map (Prod.map (quote :: ·) id)
        else some ([], next :: rest)
      else if byte = backslash then (readLiteral rest).map (Prod.map (unescape next ++ ·) id)
      else (readLiteral (next :: rest)).map (Prod.map (byte :: ·) id)

inductive Token
  | code (byte : UInt8)
  | literal (content : Bytes)
  | separator
  deriving DecidableEq

/-- The tokens of a text, unless a literal in it is not closed. -/
def lex : ℕ → Bytes → Option (List Token)
  | _, [] => some []
  | 0, _ :: _ => none
  | fuel + 1, byte :: rest =>
      if byte = quote then
        (readLiteral rest).bind fun (content, after) =>
          (lex fuel after).map (.literal content :: ·)
      else if byte = semicolon then (lex fuel rest).map (.separator :: ·)
      else (lex fuel rest).map (.code byte :: ·)

def tokens (text : Bytes) : Option (List Token) := lex text.length text

/-- The tokens before the first separator, and those of the later statements. -/
def split : List Token → List Token × List (List Token)
  | [] => ([], [])
  | token :: rest =>
      if token = .separator then ([], (split rest).1 :: (split rest).2)
      else (token :: (split rest).1, (split rest).2)

/-- The statements of a text; empty ones do not count. -/
def statements (text : Bytes) : Option (List (List Token)) :=
  (tokens text).map fun all => ((split all).1 :: (split all).2).filter (· ≠ [])

/-! ## Literals -/

/-- A text that between quotes denotes itself. -/
def verbatim : Bytes → Bool
  | [] => true
  | [byte] => byte ≠ quote && byte ≠ backslash
  | byte :: next :: rest =>
      if byte = quote then false
      else if byte = backslash then (next = 37 || next = 95) && verbatim rest
      else verbatim (next :: rest)

def isSpecial (byte : UInt8) : Bool := byte = quote || byte = backslash

/-- An escape keeps both its bytes, or denotes a byte that can be special only as a special
byte's escape. -/
theorem unescape_cases (byte : UInt8) :
    ((byte = 37 ∨ byte = 95) ∧ unescape byte = [backslash, byte]) ∨
      ¬(byte = 37 ∨ byte = 95) ∧
        ∃ denoted, unescape byte = [denoted] ∧ (isSpecial denoted = true → byte = denoted) := by
  simp only [unescape]
  split_ifs with zero backspace tab newline return_ control kept
  all_goals first
    | exact Or.inl ⟨kept, rfl⟩
    | refine Or.inr ⟨?_, _, rfl, ?_⟩
  all_goals first
    | exact kept
    | (intro _; rfl)
    | (subst_vars; decide)

theorem readLiteral_quote_of_ne {rest : Bytes} (apart : rest.head? ≠ some quote) :
    readLiteral (quote :: rest) = some ([], rest) := by
  cases rest with
  | nil => rfl
  | cons next rest =>
      have different : next ≠ quote := by simpa using apart
      simp only [readLiteral, if_true, if_neg different]

theorem readLiteral_quote_quote (rest : Bytes) :
    readLiteral (quote :: quote :: rest) =
      (readLiteral rest).map (Prod.map (quote :: ·) id) := by
  simp only [readLiteral, if_true]

theorem readLiteral_backslash (next : UInt8) (rest : Bytes) :
    readLiteral (backslash :: next :: rest) =
      (readLiteral rest).map (Prod.map (unescape next ++ ·) id) := by
  have different : backslash ≠ quote := by decide
  simp only [readLiteral, if_true, if_neg different]

theorem readLiteral_of_not_special {byte : UInt8} (plain : isSpecial byte = false)
    (rest : Bytes) :
    readLiteral (byte :: rest) = (readLiteral rest).map (Prod.map (byte :: ·) id) := by
  simp only [isSpecial, Bool.or_eq_false_iff, decide_eq_false_iff_not] at plain
  cases rest with
  | nil => simp only [readLiteral, if_neg plain.1, Option.map_none]
  | cons next rest => simp only [readLiteral, if_neg plain.1, if_neg plain.2]

theorem unescape_ne_nil (byte : UInt8) : unescape byte ≠ [] := by
  rcases unescape_cases byte with ⟨_, kept⟩ | ⟨_, denoted, same, _⟩
  · simp [kept]
  · simp [same]

theorem verbatim_of_not_special {byte : UInt8} (plain : isSpecial byte = false) (rest : Bytes) :
    verbatim (byte :: rest) = verbatim rest := by
  simp only [isSpecial, Bool.or_eq_false_iff, decide_eq_false_iff_not] at plain
  cases rest with
  | nil => simp [verbatim, plain.1, plain.2]
  | cons next rest => simp only [verbatim, if_neg plain.1, if_neg plain.2]

/-- A verbatim text is read back, and its literal ends at the closing quote. -/
theorem readLiteral_of_verbatim {text rest : Bytes} (kept : verbatim text = true)
    (apart : rest.head? ≠ some quote) :
    readLiteral (text ++ quote :: rest) = some (text, rest) := by
  induction text using verbatim.induct with
  | case1 => exact readLiteral_quote_of_ne apart
  | case2 byte =>
      simp only [verbatim, Bool.and_eq_true, decide_eq_true_eq] at kept
      have plain : isSpecial byte = false := by simp [isSpecial, kept]
      rw [List.singleton_append, readLiteral_of_not_special plain,
        readLiteral_quote_of_ne apart]
      rfl
  | case3 next rest' => simp [verbatim] at kept
  | case4 next rest' different ih =>
      simp only [verbatim, if_neg different, if_true, Bool.and_eq_true] at kept
      rcases kept with ⟨pair, kept⟩
      have escaped : next = 37 ∨ next = 95 := by simpa using pair
      have denotes : unescape next = [backslash, next] := by
        rcases unescape_cases next with ⟨_, same⟩ | ⟨neither, _⟩
        · exact same
        · exact absurd escaped neither
      rw [List.cons_append, List.cons_append, readLiteral_backslash, ih kept, denotes]
      rfl
  | case5 byte next rest' notQuote notBackslash ih =>
      have plain : isSpecial byte = false := by simp [isSpecial, notQuote, notBackslash]
      rw [verbatim_of_not_special plain] at kept
      rw [List.cons_append, readLiteral_of_not_special plain, ih kept]
      rfl

/-- What is read from a text begins with the text's first byte, or that byte is special. -/
theorem readLiteral_eq_some {text content rest : Bytes}
    (read : readLiteral text = some (content, rest)) :
    (∃ after, text = quote :: after ∧ content = []) ∨
      (∃ after left, text = quote :: quote :: after ∧ content = quote :: left ∧
        readLiteral after = some (left, rest)) ∨
      (∃ next after left, text = backslash :: next :: after ∧ content = unescape next ++ left ∧
        readLiteral after = some (left, rest)) ∨
      ∃ byte after left, text = byte :: after ∧ isSpecial byte = false ∧
        content = byte :: left ∧ readLiteral after = some (left, rest) := by
  cases text with
  | nil => simp [readLiteral] at read
  | cons byte after =>
      by_cases special : isSpecial byte = true
      · have either : byte = quote ∨ byte = backslash := by simpa [isSpecial] using special
        rcases either with rfl | rfl
        · by_cases doubled : after.head? = some quote
          · rcases after with _ | ⟨next, after⟩
            · simp at doubled
            · rcases Option.some.inj doubled with rfl
              rw [readLiteral_quote_quote] at read
              rcases Option.map_eq_some_iff.mp read with ⟨⟨left, rest'⟩, before, same⟩
              rcases Prod.mk.inj same with ⟨rfl, rfl⟩
              exact Or.inr (Or.inl ⟨after, left, rfl, rfl, before⟩)
          · rw [readLiteral_quote_of_ne doubled] at read
            rcases Prod.mk.inj (Option.some.inj read) with ⟨rfl, rfl⟩
            exact Or.inl ⟨after, rfl, rfl⟩
        · rcases after with _ | ⟨next, after⟩
          · simp [readLiteral, backslash, quote] at read
          · rw [readLiteral_backslash] at read
            rcases Option.map_eq_some_iff.mp read with ⟨⟨left, rest'⟩, before, same⟩
            rcases Prod.mk.inj same with ⟨rfl, rfl⟩
            exact Or.inr (Or.inr (Or.inl ⟨next, after, left, rfl, rfl, before⟩))
      · have plain : isSpecial byte = false := Bool.eq_false_iff.mpr special
        rw [readLiteral_of_not_special plain] at read
        rcases Option.map_eq_some_iff.mp read with ⟨⟨left, rest'⟩, before, same⟩
        rcases Prod.mk.inj same with ⟨rfl, rfl⟩
        exact Or.inr (Or.inr (Or.inr ⟨byte, after, left, rfl, plain, rfl, before⟩))

/-- A literal that is ahead of its target by special bytes never denotes it: it stays ahead,
each byte that it denotes costs it two special ones, and the closing quote stands before a
byte that is not special. -/
theorem readLiteral_ne_of_ahead {target ahead text rest after : Bytes}
    (apart : ∀ byte ∈ rest.head?, isSpecial byte = false)
    (lead : ahead ≠ []) (special : ∀ byte ∈ ahead, isSpecial byte = true)
    (same : ahead ++ text = target ++ quote :: rest) :
    readLiteral text ≠ some (target, after) := by
  induction target generalizing ahead text with
  | nil =>
      intro read
      rcases ahead with _ | ⟨first, ahead⟩
      · exact lead rfl
      rcases List.cons.inj same with ⟨_, behind⟩
      rcases ahead with _ | ⟨second, ahead⟩
      · have begins : text = rest := behind
        rcases readLiteral_eq_some read with ⟨more, shape, _⟩ | ⟨_, _, _, content, _⟩ |
          ⟨next, _, _, _, content, _⟩ | ⟨_, _, _, _, _, content, _⟩
        · have stays := apart quote (by simp [← begins, shape])
          exact absurd stays (by decide)
        · exact List.cons_ne_nil _ _ content.symm
        · exact unescape_ne_nil next (List.append_eq_nil_iff.mp content.symm).1
        · exact List.cons_ne_nil _ _ content.symm
      · have begins : second :: (ahead ++ text) = rest := behind
        have stays := apart second (by simp [← begins])
        rw [special second (by simp)] at stays
        exact Bool.false_ne_true stays.symm
  | cons byte target ih =>
      intro read
      rcases ahead with _ | ⟨first, ahead⟩
      · exact lead rfl
      rcases List.cons.inj same with ⟨rfl, behind⟩
      have firstSpecial := special first List.mem_cons_self
      have goesOn {one two : UInt8} {more : Bytes} (shape : text = one :: two :: more)
          (oneSpecial : isSpecial one = true) (twoSpecial : isSpecial two = true) :
          readLiteral more ≠ some (target, after) := by
        apply @ih (ahead ++ [one, two]) more
        · simp
        · intro byte member
          rcases List.mem_append.mp member with old | new
          · exact special byte (List.mem_cons_of_mem _ old)
          · simp only [List.mem_cons, List.not_mem_nil, or_false] at new
            rcases new with rfl | rfl
            · exact oneSpecial
            · exact twoSpecial
        · simpa [shape] using behind
      rcases readLiteral_eq_some read with ⟨_, _, content⟩ | ⟨more, left, shape, content, further⟩ |
        ⟨next, more, left, shape, content, further⟩ | ⟨other, _, _, _, plain, content, _⟩
      · exact List.cons_ne_nil _ _ content
      · rcases List.cons.inj content with ⟨_, rfl⟩
        exact goesOn shape rfl rfl further
      · rcases unescape_cases next with ⟨pair, kept⟩ | ⟨_, denoted, kept, escapes⟩
        · -- Both bytes are kept, so the target's next byte is not special, yet it is ahead.
          rw [kept] at content
          rcases List.cons.inj content with ⟨_, rfl⟩
          have plain : isSpecial next = false := by
            rcases pair with rfl | rfl <;> decide
          have ahead_ : isSpecial next = true := by
            rw [shape] at behind
            rcases ahead with _ | ⟨second, ahead⟩
            · rw [← (List.cons.inj behind).1]
              rfl
            · rw [← (List.cons.inj behind).1]
              exact special second (by simp)
          rw [plain] at ahead_
          exact Bool.false_ne_true ahead_
        · rw [kept, List.singleton_append] at content
          rcases List.cons.inj content with ⟨rfl, rfl⟩
          have escaped := escapes firstSpecial
          exact goesOn shape rfl (escaped ▸ firstSpecial) further
      · rcases List.cons.inj content with ⟨rfl, _⟩
        rw [plain] at firstSpecial
        exact Bool.false_ne_true firstSpecial

/-- A text that is read back although it begins with a special byte begins with an escape
that keeps both its bytes. -/
theorem exists_kept_of_special {byte : UInt8} {tail rest after : Bytes}
    (apart : ∀ byte ∈ rest.head?, isSpecial byte = false) (special : isSpecial byte = true)
    (read : readLiteral (byte :: (tail ++ quote :: rest)) = some (byte :: tail, after)) :
    byte = backslash ∧ ∃ next left, (next = 37 ∨ next = 95) ∧ tail = next :: left ∧
      readLiteral (left ++ quote :: rest) = some (left, after) := by
  have notAhead {one : UInt8} {more : Bytes} (shape : tail ++ quote :: rest = one :: more)
      (oneSpecial : isSpecial one = true) : readLiteral more ≠ some (tail, after) := by
    apply readLiteral_ne_of_ahead apart (List.cons_ne_nil one [])
    · intro byte member
      rw [List.mem_singleton.mp member]
      exact oneSpecial
    · exact shape.symm
  rcases readLiteral_eq_some read with ⟨_, _, content⟩ | ⟨more, left, shape, content, further⟩ |
    ⟨next, more, left, shape, content, further⟩ | ⟨other, _, _, _, plain, content, _⟩
  · exact absurd content (List.cons_ne_nil _ _)
  · rcases List.cons.inj content with ⟨_, rfl⟩
    exact absurd further (notAhead (List.cons.inj shape).2 rfl)
  · rcases List.cons.inj shape with ⟨rfl, continues⟩
    rcases unescape_cases next with ⟨pair, kept⟩ | ⟨_, denoted, kept, escapes⟩
    · rw [kept] at content
      have begins : tail = next :: left := (List.cons.inj content).2
      rw [begins] at continues
      have remains : left ++ quote :: rest = more := (List.cons.inj continues).2
      exact ⟨rfl, next, left, pair, begins, remains ▸ further⟩
    · rw [kept, List.singleton_append] at content
      rcases List.cons.inj content with ⟨rfl, rfl⟩
      have escaped := escapes special
      exact absurd further (notAhead continues (escaped ▸ special))
  · rcases List.cons.inj content with ⟨rfl, _⟩
    rw [plain] at special
    exact absurd special Bool.false_ne_true

/-- Only a verbatim text is read back as it is. -/
theorem verbatim_of_readLiteral {text rest after : Bytes}
    (apart : ∀ byte ∈ rest.head?, isSpecial byte = false)
    (read : readLiteral (text ++ quote :: rest) = some (text, after)) : verbatim text = true := by
  induction text using verbatim.induct with
  | case1 => rfl
  | case2 byte =>
      by_cases special : isSpecial byte = true
      · rcases exists_kept_of_special apart special read with ⟨_, _, _, _, shape, _⟩
        exact absurd shape.symm (List.cons_ne_nil _ _)
      · rw [verbatim_of_not_special (Bool.eq_false_iff.mpr special)]
        rfl
  | case3 next rest' =>
      rcases exists_kept_of_special apart rfl read with ⟨same, _⟩
      exact absurd same (by decide)
  | case4 next rest' different ih =>
      rcases exists_kept_of_special apart rfl read with ⟨_, kept, left, pair, shape, further⟩
      rcases List.cons.inj shape with ⟨rfl, rfl⟩
      simp only [verbatim, if_neg different, if_true, Bool.and_eq_true]
      exact ⟨by simpa using pair, ih further⟩
  | case5 byte next rest' notQuote notBackslash ih =>
      have plain : isSpecial byte = false := by simp [isSpecial, notQuote, notBackslash]
      rw [verbatim_of_not_special plain]
      rw [List.cons_append, readLiteral_of_not_special plain] at read
      rcases Option.map_eq_some_iff.mp read with ⟨⟨left, _⟩, before, same⟩
      rcases Prod.mk.inj same with ⟨content, rfl⟩
      rw [(List.cons.inj content).2] at before
      exact ih before

/-! ## Templates -/

/-- The code of a statement, with texts between quotes in it. -/
structure Template where
  /-- The code in front of the first text. -/
  head : Bytes
  /-- The texts, each with the code behind it. -/
  fields : List (Bytes × Bytes) := []
  /-- The separators at the end. -/
  ending : Bytes := [semicolon]

def fieldsText (ending : Bytes) : List (Bytes × Bytes) → Bytes
  | [] => ending
  | (text, code) :: rest => quote :: (text ++ quote :: (code ++ fieldsText ending rest))

def fieldsShape : List (Bytes × Bytes) → List Token
  | [] => []
  | (text, code) :: rest => .literal text :: (code.map .code ++ fieldsShape rest)

namespace Template

def text (template : Template) : Bytes :=
  template.head ++ fieldsText template.ending template.fields

/-- The statement that the template stands for: its code, and a literal for each text. -/
def shape (template : Template) : List Token :=
  template.head.map .code ++ fieldsShape template.fields

end Template

def isCode (byte : UInt8) : Bool := !isSpecial byte && byte ≠ semicolon

/-- Nothing but code stands between two texts, and it is not empty. -/
def Separated : List (Bytes × Bytes) → Prop
  | [] => True
  | (_, code) :: rest =>
      (∀ byte ∈ code, isCode byte = true) ∧ (code ≠ [] ∨ rest = []) ∧ Separated rest

structure Template.Proper (template : Template) : Prop where
  begins : template.head ≠ []
  head : ∀ byte ∈ template.head, isCode byte = true
  fields : Separated template.fields
  ending : ∀ byte ∈ template.ending, byte = semicolon

theorem not_special_of_isCode {byte : UInt8} (code : isCode byte = true) :
    isSpecial byte = false ∧ byte ≠ quote ∧ byte ≠ semicolon := by
  simp only [isCode, isSpecial, Bool.and_eq_true, Bool.not_eq_true', Bool.or_eq_false_iff,
    decide_eq_false_iff_not, decide_eq_true_eq] at code ⊢
  exact ⟨code.1, code.1.1, code.2⟩

theorem lex_code {code : Bytes} (isCode_ : ∀ byte ∈ code, isCode byte = true) (fuel : ℕ)
    (rest : Bytes) :
    lex (code.length + fuel) (code ++ rest) = (lex fuel rest).map (code.map .code ++ ·) := by
  induction code with
  | nil => simp
  | cons byte code ih =>
      rcases not_special_of_isCode (isCode_ byte List.mem_cons_self) with ⟨_, notQuote, notEnd⟩
      have others := ih fun byte member => isCode_ byte (List.mem_cons_of_mem _ member)
      rw [List.length_cons, Nat.add_right_comm, List.cons_append, lex, if_neg notQuote,
        if_neg notEnd, others, Option.map_map]
      rfl

theorem lex_separators {ending : Bytes} (separators : ∀ byte ∈ ending, byte = semicolon)
    {fuel : ℕ} (enough : ending.length ≤ fuel) :
    lex fuel ending = some (ending.map fun _ => .separator) := by
  induction ending generalizing fuel with
  | nil => cases fuel <;> rfl
  | cons byte ending ih =>
      rcases fuel with _ | fuel
      · simp at enough
      have isEnd := separators byte List.mem_cons_self
      have notQuote : byte ≠ quote := by
        rw [isEnd]
        decide
      have others := @ih (fun byte member => separators byte (List.mem_cons_of_mem _ member)) fuel
        (by simpa using enough)
      rw [lex, if_neg notQuote, if_pos isEnd, others]
      rfl

theorem split_code (code : Bytes) (rest : List Token) :
    split (code.map .code ++ rest) = (code.map .code ++ (split rest).1, (split rest).2) := by
  induction code with
  | nil => rfl
  | cons byte code ih => simp [split, ih]

theorem split_literal (content : Bytes) (rest : List Token) :
    split (.literal content :: rest) = (.literal content :: (split rest).1, (split rest).2) := by
  simp [split]

theorem split_separators (ending : Bytes) :
    (split (ending.map fun _ => .separator)).1 = [] ∧
      ∀ statement ∈ (split (ending.map fun _ => .separator)).2, statement = [] := by
  induction ending with
  | nil => simp [split]
  | cons byte ending ih =>
      rw [List.map_cons, split, if_pos rfl]
      refine ⟨rfl, ?_⟩
      intro statement member
      rcases List.mem_cons.mp member with rfl | later
      · exact ih.1
      · exact ih.2 statement later

theorem split_fieldsShape (fields : List (Bytes × Bytes)) (rest : List Token) :
    split (fieldsShape fields ++ rest) =
      (fieldsShape fields ++ (split rest).1, (split rest).2) := by
  induction fields with
  | nil => rfl
  | cons field fields ih =>
      rw [fieldsShape, List.cons_append, List.append_assoc, split_literal, split_code, ih]
      simp

/-- What follows a closing quote is not special. -/
theorem Separated.apart {text code ending : Bytes} {rest : List (Bytes × Bytes)}
    (separated : Separated ((text, code) :: rest))
    (separators : ∀ byte ∈ ending, byte = semicolon) :
    ∀ byte ∈ (code ++ fieldsText ending rest).head?, isSpecial byte = false := by
  rcases separated with ⟨isCode_, between, _⟩
  intro byte follows
  cases code with
  | cons first code =>
      rcases Option.some.inj follows with rfl
      exact (not_special_of_isCode (isCode_ first List.mem_cons_self)).1
  | nil =>
      rcases between with nonempty | rfl
      · exact absurd rfl nonempty
      · have isEnd := separators byte (List.mem_of_mem_head? follows)
        rw [isEnd]
        rfl

theorem lex_fieldsText {ending : Bytes} {fields : List (Bytes × Bytes)}
    (separators : ∀ byte ∈ ending, byte = semicolon) (separated : Separated fields)
    (kept : ∀ field ∈ fields, verbatim field.1 = true) {fuel : ℕ}
    (enough : (fieldsText ending fields).length ≤ fuel) :
    lex fuel (fieldsText ending fields) =
      some (fieldsShape fields ++ ending.map fun _ => .separator) := by
  induction fields generalizing fuel with
  | nil => exact lex_separators separators enough
  | cons field fields ih =>
      rcases field with ⟨text, code⟩
      have apart := separated.apart separators
      have notQuote : (code ++ fieldsText ending fields).head? ≠ some quote := by
        intro quoted
        exact absurd (apart quote quoted) (by decide)
      rcases fuel with _ | fuel
      · simp [fieldsText] at enough
      simp only [fieldsText, List.length_cons, List.length_append] at enough
      rw [fieldsText, lex, if_pos rfl,
        readLiteral_of_verbatim (kept _ List.mem_cons_self) notQuote, Option.bind_some]
      obtain ⟨more, rfl⟩ : ∃ more, fuel = code.length + more := ⟨fuel - code.length, by omega⟩
      have others := @ih separated.2.2
        (fun field member => kept field (List.mem_cons_of_mem _ member)) more (by omega)
      simp only [lex_code separated.1, others, fieldsShape, Option.map_some, List.cons_append,
        List.append_assoc]

theorem verbatim_of_lex {ending : Bytes} {fields : List (Bytes × Bytes)} {all : List Token}
    (separators : ∀ byte ∈ ending, byte = semicolon) (separated : Separated fields) {fuel : ℕ}
    (enough : (fieldsText ending fields).length ≤ fuel)
    (read : lex fuel (fieldsText ending fields) = some all)
    (intended : (split all).1 = fieldsShape fields) :
    ∀ field ∈ fields, verbatim field.1 = true := by
  induction fields generalizing fuel all with
  | nil => simp
  | cons field fields ih =>
      rcases field with ⟨text, code⟩
      have apart := separated.apart separators
      have notQuote : (code ++ fieldsText ending fields).head? ≠ some quote := by
        intro quoted
        exact absurd (apart quote quoted) (by decide)
      rcases fuel with _ | fuel
      · simp [fieldsText] at enough
      simp only [fieldsText, List.length_cons, List.length_append] at enough
      rw [fieldsText, lex, if_pos rfl] at read
      rcases Option.bind_eq_some_iff.mp read with ⟨⟨content, after⟩, literal, read⟩
      rcases Option.map_eq_some_iff.mp read with ⟨later, following, rfl⟩
      rw [split_literal, fieldsShape] at intended
      rcases List.cons.inj intended with ⟨same, behind⟩
      rcases Token.literal.inj same with rfl
      have kept := verbatim_of_readLiteral apart literal
      rw [readLiteral_of_verbatim kept notQuote] at literal
      rcases Prod.mk.inj (Option.some.inj literal) with ⟨_, rfl⟩
      obtain ⟨more, rfl⟩ : ∃ more, fuel = code.length + more := ⟨fuel - code.length, by omega⟩
      rw [lex_code separated.1] at following
      rcases Option.map_eq_some_iff.mp following with ⟨last, further, rfl⟩
      rw [split_code] at behind
      have others := ih separated.2.2 (by omega) further (List.append_cancel_left behind)
      intro field member
      rcases List.mem_cons.mp member with rfl | member
      · exact kept
      · exact others field member

/-- What the literals among the tokens denote. -/
def contents (tokens : List Token) : List Bytes :=
  tokens.filterMap fun
    | .literal content => some content
    | _ => none

theorem contents_fieldsShape (fields : List (Bytes × Bytes)) :
    contents (fieldsShape fields) = fields.map Prod.fst := by
  induction fields with
  | nil => rfl
  | cons field fields ih =>
      rw [fieldsShape, contents, List.filterMap_cons, List.filterMap_append, ← contents, ← contents,
        ih]
      simp [contents]

theorem Template.contents_shape (template : Template) :
    contents template.shape = template.fields.map Prod.fst := by
  rw [shape, contents, List.filterMap_append, ← contents, ← contents, contents_fieldsShape]
  simp [contents]

/-- A template is read as the statement that it stands for, and as nothing else, exactly when
all its texts are verbatim. -/
theorem Template.statements_text_iff {template : Template} (proper : template.Proper) :
    statements template.text = some [template.shape] ↔
      ∀ field ∈ template.fields, verbatim field.1 = true := by
  have lexed : tokens template.text =
      (lex (fieldsText template.ending template.fields).length
        (fieldsText template.ending template.fields)).map (template.head.map .code ++ ·) := by
    rw [tokens, Template.text, List.length_append, lex_code proper.head]
  constructor
  · intro read
    rcases Option.map_eq_some_iff.mp read with ⟨all, whole, single⟩
    rw [lexed] at whole
    rcases Option.map_eq_some_iff.mp whole with ⟨later, read, rfl⟩
    apply verbatim_of_lex proper.ending proper.fields (Nat.le_refl _) read
    rw [split_code] at single
    have nonempty : template.head.map Token.code ++ (split later).1 ≠ [] := by
      simp [proper.begins]
    rw [List.filter_cons_of_pos (by simpa only [decide_eq_true_eq] using nonempty)] at single
    exact List.append_cancel_left (List.cons.inj single).1
  · intro kept
    rcases split_separators template.ending with ⟨none_, empty⟩
    rw [statements, lexed,
      lex_fieldsText proper.ending proper.fields kept (Nat.le_refl _), Option.map_some,
      Option.map_some, split_code, split_fieldsShape, none_, List.append_nil]
    have nonempty : template.shape ≠ [] := by simp [Template.shape, proper.begins]
    have single :
        (split (template.ending.map fun _ => Token.separator)).2.filter (· ≠ []) = [] := by
      apply List.filter_eq_nil_iff.mpr
      intro statement member
      simp [empty statement member]
    rw [← Template.shape,
      List.filter_cons_of_pos (by simpa only [decide_eq_true_eq] using nonempty), single]

end SqlText

end Library
