import InstanceMessage.Server.Semantics

/-!
# Queries on the shared connection

The calls of `CMySql::SelectMySql` and `CMySql::UpdateMySql` that pool threads
make at the same time. There is one `CMySql` object: one connection, one
`m_results` and one `m_record`. Every call of the client library and every read
or write of a member is a step of its own, and any call may take the next step.

A query's result stays pending on the connection until `mysql_store_result`
returns it, and a query fails while one is pending; so the object that a call
gets from `mysql_store_result` is always its own. It then puts the object in
`m_results`, where it looks again before each row, and each row in `m_record`,
where it looks for each column. What it finds there is its own as long as no
other call writes the member in between.
-/

namespace InstanceMessage

open Library

abbrev SqlRow := List (Option Bytes)

/-- The members of the shared object; the results are numbered as they are stored, each with
the rows that have not been fetched from it. -/
structure CMySql where
  pending : Option (List SqlRow) := none
  stored : List (List SqlRow) := []
  mResults : Option ℕ := none
  mRecord : Option SqlRow := none
  deriving DecidableEq

inductive SqlKind
  | select (nColumn : ℕ)
  | update
  deriving DecidableEq

def SqlKind.nColumn : SqlKind → ℕ
  | .select nColumn => nColumn
  | .update => 0

/-- What a call does next. -/
inductive SqlPlace
  | query
  | store
  /-- Assigns `m_results`. -/
  | writeResults
  /-- Compares `m_results` with `NULL`. -/
  | testResults
  /-- Reads `m_results`, to fetch from it. -/
  | readResults
  | fetch (results : Option ℕ)
  /-- Assigns `m_record`. -/
  | writeRecord
  /-- Tests `m_record`, the condition of the loop. -/
  | testRecord
  /-- Tests `m_record[i]`. -/
  | testColumn (i : ℕ)
  /-- Copies `m_record[i]` to the list. -/
  | pushColumn (i : ℕ)
  | returned (ok : Bool)
  /-- A null pointer or a column that does not exist has been used. -/
  | undefined
  deriving DecidableEq

structure SqlCall where
  kind : SqlKind
  place : SqlPlace := .query
  lstStr : List Bytes := []
  /-- What `mysql_store_result` returned to this call. -/
  result : Option ℕ := none
  /-- What `mysql_fetch_row` returned last to this call. -/
  record : Option SqlRow := none
  /-- The rows of the statement that this call has issued. -/
  answered : List SqlRow := []
  deriving DecidableEq

/-- What the database answers to a query, and the library to `mysql_store_result`. -/
inductive SqlAnswer
  | failed
  | done
  | rows (rows : List SqlRow)

namespace SqlCall

def goTo (call : SqlCall) (place : SqlPlace) : SqlCall := { call with place := place }

/-- The loop over the columns, at column `i`. -/
def atColumn (call : SqlCall) (i : ℕ) : SqlCall :=
  call.goTo (if i < call.kind.nColumn then .testColumn i else .readResults)

def push (call : SqlCall) (i : ℕ) (text : Bytes) : SqlCall :=
  { call with lstStr := call.lstStr ++ [text] }.atColumn (i + 1)

def query (sql : CMySql) (call : SqlCall) : SqlAnswer → Option (CMySql × SqlCall)
  | .failed => some (sql, call.goTo (.returned false))
  | .rows rows =>
      match call.kind with
      | .select _ =>
          if sql.pending = none then
            some ({ sql with pending := some rows },
              { call with answered := rows }.goTo .store)
          else none
      | .update => none
  | .done =>
      match call.kind with
      | .select _ => none
      | .update => if sql.pending = none then some (sql, call.goTo (.returned true)) else none

def store (sql : CMySql) (call : SqlCall) : SqlAnswer → Option (CMySql × SqlCall)
  | .failed => some ({ sql with pending := none }, { call with result := none }.goTo .writeResults)
  | .done =>
      match sql.pending with
      | some rows =>
          some ({ sql with pending := none, stored := sql.stored ++ [rows] },
            { call with result := some sql.stored.length }.goTo .writeResults)
      | none => some (sql, { call with result := none }.goTo .writeResults)
  | .rows _ => none

def fetch (sql : CMySql) (call : SqlCall) : Option ℕ → Option (CMySql × SqlCall)
  | none => some (sql, call.goTo .undefined)
  | some results =>
      match sql.stored[results]? with
      | some (row :: rest) =>
          some ({ sql with stored := sql.stored.set results rest },
            { call with record := some row }.goTo .writeRecord)
      | some [] => some (sql, { call with record := none }.goTo .writeRecord)
      | none => none

def testColumn (sql : CMySql) (call : SqlCall) (i : ℕ) : SqlCall :=
  match sql.mRecord with
  | none => call.goTo .undefined
  | some row =>
      match row[i]? with
      | none => call.goTo .undefined
      | some none => call.push i []
      | some (some _) => call.goTo (.pushColumn i)

def pushColumn (sql : CMySql) (call : SqlCall) (i : ℕ) : SqlCall :=
  match sql.mRecord with
  | none => call.goTo .undefined
  | some row =>
      match row[i]? with
      | some (some text) => call.push i text
      | _ => call.goTo .undefined

/-- The next step of a call. -/
def move (sql : CMySql) (call : SqlCall) (answer : SqlAnswer) : Option (CMySql × SqlCall) :=
  match call.place with
  | .query => call.query sql answer
  | .store => call.store sql answer
  | .writeResults => some ({ sql with mResults := call.result }, call.goTo .testResults)
  | .testResults =>
      some (sql, call.goTo (if sql.mResults = none then .returned false else .readResults))
  | .readResults => some (sql, call.goTo (.fetch sql.mResults))
  | .fetch results => call.fetch sql results
  | .writeRecord => some ({ sql with mRecord := call.record }, call.goTo .testRecord)
  | .testRecord =>
      some (sql, if sql.mRecord = none then call.goTo (.returned true) else call.atColumn 0)
  | .testColumn i => some (sql, call.testColumn sql i)
  | .pushColumn i => some (sql, call.pushColumn sql i)
  | .returned _ | .undefined => none

end SqlCall

/-- The shared object and the calls that have been made on it. -/
structure SqlThreads where
  sql : CMySql := {}
  calls : List SqlCall := []
  deriving DecidableEq

inductive SqlEvent
  | call (kind : SqlKind)
  | move (index : ℕ) (answer : SqlAnswer)

namespace SqlThreads

def step (threads : SqlThreads) : SqlEvent → Option SqlThreads
  | .call kind => some { threads with calls := threads.calls ++ [{ kind := kind }] }
  | .move index answer =>
      match threads.calls[index]? with
      | none => none
      | some call => (call.move threads.sql answer).map fun (sql, moved) =>
          ⟨sql, threads.calls.set index moved⟩

def machine : Machine SqlThreads SqlEvent := ⟨step⟩

end SqlThreads

/-! ## Who still looks at the members -/

namespace SqlCall

/-- The call has assigned `m_results` and still reads it. -/
def readsResults (sql : CMySql) (call : SqlCall) : Bool :=
  match call.place with
  | .testResults | .readResults | .testColumn _ | .pushColumn _ => true
  | .fetch _ =>
      match call.result with
      | some results => sql.stored[results]? ≠ some []
      | none => true
  | .writeRecord | .testRecord => call.record.isSome
  | _ => false

/-- The call has assigned `m_record` and still reads it. -/
def readsRecord (call : SqlCall) : Bool :=
  match call.place with
  | .testRecord | .testColumn _ | .pushColumn _ => true
  | _ => false

end SqlCall

/-- A call assigns a member only when no other call still reads what it has put there. -/
def Exclusive (threads : SqlThreads) : SqlEvent → Prop
  | .call _ => True
  | .move index _ => ∀ call, threads.calls[index]? = some call →
      ∀ other position, position ≠ index → threads.calls[position]? = some other →
        (call.place = .writeResults → other.readsResults threads.sql = false) ∧
          (call.place = .writeRecord → other.readsRecord = false)

/-- The list that `SelectMySql` owes for rows of the result. -/
def flatRows (nColumn : ℕ) (rows : List SqlRow) : List Bytes :=
  rows.flatMap fun row => (row.take nColumn).map fun text => text.getD []

namespace SqlCall

/-! ## What a call finds -/

/-- These rows of the call's statement have been fetched, the others are in its object. -/
def Fetched (sql : CMySql) (call : SqlCall) (fetched : List SqlRow) : Prop :=
  ∃ results left, call.result = some results ∧ sql.stored[results]? = some left ∧
    call.answered = fetched ++ left

/-- The list holds the rows before the one in `m_record`. -/
def Between (sql : CMySql) (call : SqlCall) (fetched : List SqlRow) : Prop :=
  call.Fetched sql (fetched ++ call.record.toList) ∧
    call.lstStr = flatRows call.kind.nColumn fetched ∧
      match call.record with
      | none => call.answered = fetched
      | some _ => sql.mResults = call.result

/-- The list holds the rows before the one in `m_record`, and the first columns of that one. -/
def Inside (sql : CMySql) (call : SqlCall) (i : ℕ) (fetched : List SqlRow) (row : SqlRow) : Prop :=
  call.Fetched sql (fetched ++ [row]) ∧ call.record = some row ∧ sql.mRecord = some row ∧
    sql.mResults = call.result ∧ i < call.kind.nColumn ∧
      call.lstStr = flatRows call.kind.nColumn fetched ++
        (row.take i).map fun text => text.getD []

/-- What holds of a call at each of its steps when it finds only its own result and rows. -/
def Owns (sql : CMySql) (call : SqlCall) : Prop :=
  match call.place with
  | .query => call.lstStr = [] ∧ call.result = none
  | .store => call.lstStr = [] ∧ call.result = none ∧ sql.pending = some call.answered
  | .writeResults => call.lstStr = [] ∧ (call.result = none ∨ call.Fetched sql [])
  | .testResults =>
      call.lstStr = [] ∧ sql.mResults = call.result ∧
        (call.result = none ∨ call.Fetched sql [])
  | .readResults =>
      ∃ fetched, call.Fetched sql fetched ∧ call.lstStr = flatRows call.kind.nColumn fetched ∧
        sql.mResults = call.result
  | .fetch results =>
      ∃ fetched, call.Fetched sql fetched ∧ call.lstStr = flatRows call.kind.nColumn fetched ∧
        results = call.result ∧ (sql.mResults = call.result ∨ call.answered = fetched)
  | .writeRecord => ∃ fetched, call.Between sql fetched
  | .testRecord => sql.mRecord = call.record ∧ ∃ fetched, call.Between sql fetched
  | .testColumn i | .pushColumn i => ∃ fetched row, call.Inside sql i fetched row
  | .returned true =>
      call.kind = .update ∨ call.lstStr = flatRows call.kind.nColumn call.answered
  | .returned false | .undefined => True

variable {sql after : CMySql} {call moved : SqlCall}

theorem Fetched.frame {fetched : List SqlRow} (holds : call.Fetched sql fetched)
    (object : ∀ results, call.result = some results →
      after.stored[results]? = sql.stored[results]?) : call.Fetched after fetched := by
  rcases holds with ⟨results, left, own, stored, answered⟩
  exact ⟨results, left, own, (object results own).trans stored, answered⟩

/-- A step of another call does no harm where it leaves alone what this call still reads. -/
theorem Owns.frame (owns : call.Owns sql)
    (pending : call.place = .store → after.pending = sql.pending)
    (results : call.readsResults sql = true → after.mResults = sql.mResults)
    (record : call.readsRecord = true → after.mRecord = sql.mRecord)
    (object : ∀ results, call.result = some results →
      after.stored[results]? = sql.stored[results]?) : call.Owns after := by
  have between {fetched : List SqlRow} (holds : call.Between sql fetched)
      (reads : call.record.isSome = true → after.mResults = sql.mResults) :
      call.Between after fetched := by
    rcases holds with ⟨progress, list, rest⟩
    refine ⟨progress.frame object, list, ?_⟩
    cases found : call.record with
    | none => simpa only [found] using rest
    | some row =>
        simp only [found] at rest ⊢
        exact (reads (by rw [found]; rfl)).trans rest
  have inside {i : ℕ} {fetched : List SqlRow} {row : SqlRow} (holds : call.Inside sql i fetched row)
      (readsResults : after.mResults = sql.mResults) (readsRecord : after.mRecord = sql.mRecord) :
      call.Inside after i fetched row := by
    rcases holds with ⟨progress, own, found, holder, bound, list⟩
    exact ⟨progress.frame object, own, readsRecord.trans found, readsResults.trans holder, bound,
      list⟩
  have first (holds : call.result = none ∨ call.Fetched sql []) :
      call.result = none ∨ call.Fetched after [] := holds.imp_right fun progress =>
    progress.frame object
  cases place : call.place with
  | query => simpa only [Owns, place] using owns
  | store =>
      simp only [Owns, place] at owns ⊢
      exact ⟨owns.1, owns.2.1, (pending place).trans owns.2.2⟩
  | writeResults =>
      simp only [Owns, place] at owns ⊢
      exact ⟨owns.1, first owns.2⟩
  | testResults =>
      simp only [Owns, place] at owns ⊢
      exact ⟨owns.1, (results (by simp [readsResults, place])).trans owns.2.1, first owns.2.2⟩
  | readResults =>
      simp only [Owns, place] at owns ⊢
      rcases owns with ⟨fetched, progress, list, holder⟩
      exact ⟨fetched, progress.frame object, list,
        (results (by simp [readsResults, place])).trans holder⟩
  | fetch value =>
      simp only [Owns, place] at owns ⊢
      rcases owns with ⟨fetched, progress, list, read, holder⟩
      refine ⟨fetched, progress.frame object, list, read, ?_⟩
      rcases progress with ⟨own, left, result, stored, answered⟩
      cases left with
      | nil => exact Or.inr (by simpa using answered)
      | cons row left =>
          have reads : call.readsResults sql = true := by
            simp [readsResults, place, result, stored]
          rcases holder with holder | whole
          · exact Or.inl ((results reads).trans holder)
          · exact Or.inr whole
  | writeRecord =>
      simp only [Owns, place] at owns ⊢
      rcases owns with ⟨fetched, holds⟩
      exact ⟨fetched,
        between holds fun reads => results (by simpa [readsResults, place] using reads)⟩
  | testRecord =>
      simp only [Owns, place] at owns ⊢
      rcases owns with ⟨found, fetched, holds⟩
      refine ⟨(record (by simp [readsRecord, place])).trans found, fetched, ?_⟩
      exact between holds fun reads => results (by simpa [readsResults, place] using reads)
  | testColumn i | pushColumn i =>
      simp only [Owns, place] at owns ⊢
      rcases owns with ⟨fetched, row, holds⟩
      exact ⟨fetched, row, inside holds (results (by simp [readsResults, place]))
        (record (by simp [readsRecord, place]))⟩
  | returned ok =>
      cases ok with
      | true => simpa only [Owns, place] using owns
      | false => simp only [Owns, place]
  | undefined => simp only [Owns, place]

theorem flatRows_append (nColumn : ℕ) (fetched : List SqlRow) (row : SqlRow) :
    flatRows nColumn (fetched ++ [row]) =
      flatRows nColumn fetched ++ (row.take nColumn).map fun text => text.getD [] := by
  simp [flatRows]

/-! ## The steps of a call that finds its own -/

theorem owns_query {answer : SqlAnswer} (owns : call.Owns sql) (place : call.place = .query)
    (moves : call.query sql answer = some (after, moved)) : moved.Owns after := by
  simp only [Owns, place] at owns
  simp only [query] at moves
  split at moves
  · rcases Prod.mk.inj (Option.some.inj moves) with ⟨rfl, rfl⟩
    trivial
  · split at moves
    · split at moves
      · rcases Prod.mk.inj (Option.some.inj moves) with ⟨rfl, rfl⟩
        exact ⟨owns.1, owns.2, rfl⟩
      · simp at moves
    · simp at moves
  · split at moves
    · simp at moves
    · rename_i kind
      split at moves
      · rcases Prod.mk.inj (Option.some.inj moves) with ⟨rfl, rfl⟩
        exact Or.inl kind
      · simp at moves

theorem owns_store {answer : SqlAnswer} (owns : call.Owns sql) (place : call.place = .store)
    (moves : call.store sql answer = some (after, moved)) : moved.Owns after := by
  simp only [Owns, place] at owns
  rcases owns with ⟨list, _, pending⟩
  simp only [store, pending] at moves
  split at moves
  · rcases Prod.mk.inj (Option.some.inj moves) with ⟨rfl, rfl⟩
    exact ⟨list, Or.inl rfl⟩
  · rcases Prod.mk.inj (Option.some.inj moves) with ⟨rfl, rfl⟩
    refine ⟨list, Or.inr ⟨_, _, rfl, ?_, rfl⟩⟩
    exact List.getElem?_concat_length
  · simp at moves

/-- Fetching takes the next of the call's own rows. -/
theorem owns_fetch {results : Option ℕ} (owns : call.Owns sql) (place : call.place = .fetch results)
    (moves : call.fetch sql results = some (after, moved)) : moved.Owns after := by
  simp only [Owns, place] at owns
  rcases owns with ⟨fetched, ⟨own, left, result, stored, answered⟩, list, rfl, holder⟩
  rw [result] at moves
  simp only [fetch, stored] at moves
  split at moves
  · rename_i row rest rows
    rcases Option.some.inj rows with rfl
    rcases Prod.mk.inj (Option.some.inj moves) with ⟨rfl, rfl⟩
    have bound : own < sql.stored.length := (List.getElem?_eq_some_iff.mp stored).1
    refine ⟨fetched, ⟨own, rest, result, List.getElem?_set_self bound, ?_⟩, list, ?_⟩
    · show call.answered = (fetched ++ [row]) ++ rest
      rw [answered, List.append_assoc, List.singleton_append]
    · rcases holder with holder | whole
      · exact holder
      · simp [whole] at answered
  · rename_i rows
    rcases Option.some.inj rows with rfl
    rcases Prod.mk.inj (Option.some.inj moves) with ⟨rfl, rfl⟩
    have whole : call.answered = fetched := by rw [answered, List.append_nil]
    refine ⟨fetched, ⟨own, [], result, stored, ?_⟩, list, whole⟩
    show call.answered = (fetched ++ []) ++ []
    rw [whole, List.append_nil, List.append_nil]
  · simp at moves

/-- The loop over the columns goes on, or the whole row is in the list. -/
theorem owns_atColumn {i : ℕ} {fetched : List SqlRow} {row : SqlRow}
    (progress : call.Fetched sql (fetched ++ [row])) (record : call.record = some row)
    (found : sql.mRecord = some row) (holder : sql.mResults = call.result)
    (bound : i ≤ call.kind.nColumn)
    (list : call.lstStr = flatRows call.kind.nColumn fetched ++
      (row.take i).map fun text => text.getD []) : (call.atColumn i).Owns sql := by
  simp only [atColumn]
  split
  · rename_i more
    exact ⟨fetched, row, progress, record, found, holder, more, list⟩
  · rename_i last
    have whole : i = call.kind.nColumn := by omega
    subst whole
    exact ⟨fetched ++ [row], progress, list.trans (flatRows_append _ _ _).symm, holder⟩

theorem owns_push {i : ℕ} {fetched : List SqlRow} {row : SqlRow} {column : Option Bytes}
    (inside : call.Inside sql i fetched row) (copied : row[i]? = some column) :
    (call.push i (column.getD [])).Owns sql := by
  rcases inside with ⟨progress, record, found, holder, bound, list⟩
  refine @owns_atColumn sql { call with lstStr := call.lstStr ++ [column.getD []] } (i + 1) fetched
    row progress record found holder bound ?_
  show call.lstStr ++ [column.getD []] = _
  rw [list, List.take_add_one, copied]
  simp

theorem owns_move {answer : SqlAnswer} (owns : call.Owns sql)
    (moves : call.move sql answer = some (after, moved)) : moved.Owns after := by
  simp only [move] at moves
  split at moves
  · rename_i place
    exact owns_query owns place moves
  · rename_i place
    exact owns_store owns place moves
  · rename_i place
    rcases Prod.mk.inj (Option.some.inj moves) with ⟨rfl, rfl⟩
    simp only [Owns, place] at owns
    exact ⟨owns.1, rfl, owns.2⟩
  · rename_i place
    rcases Prod.mk.inj (Option.some.inj moves) with ⟨rfl, rfl⟩
    simp only [Owns, place] at owns
    rcases owns with ⟨list, holder, kept⟩
    by_cases failed : sql.mResults = none
    · rw [if_pos failed]
      trivial
    · rw [if_neg failed]
      rcases kept with none_ | progress
      · exact absurd (holder.trans none_) failed
      · exact ⟨[], progress, list, holder⟩
  · rename_i place
    rcases Prod.mk.inj (Option.some.inj moves) with ⟨rfl, rfl⟩
    simp only [Owns, place] at owns
    rcases owns with ⟨fetched, progress, list, holder⟩
    exact ⟨fetched, progress, list, holder, Or.inl holder⟩
  · rename_i results place
    exact owns_fetch owns place moves
  · rename_i place
    rcases Prod.mk.inj (Option.some.inj moves) with ⟨rfl, rfl⟩
    simp only [Owns, place] at owns
    exact ⟨rfl, owns⟩
  · rename_i place
    rcases Prod.mk.inj (Option.some.inj moves) with ⟨rfl, rfl⟩
    simp only [Owns, place] at owns
    rcases owns with ⟨found, fetched, progress, list, rest⟩
    cases record : call.record with
    | none =>
        rw [if_pos (found.trans record)]
        simp only [record] at rest
        exact Or.inr (rest.symm ▸ list)
    | some row =>
        rw [if_neg (by simp [found, record])]
        simp only [record] at rest progress
        exact owns_atColumn progress record (found.trans record) rest (Nat.zero_le _)
          (by simpa using list)
  · rename_i i place
    rcases Prod.mk.inj (Option.some.inj moves) with ⟨rfl, rfl⟩
    simp only [Owns, place] at owns
    rcases owns with ⟨fetched, row, inside⟩
    simp only [testColumn, inside.2.2.1]
    split
    · trivial
    · rename_i column
      exact owns_push inside column
    · exact ⟨fetched, row, inside⟩
  · rename_i i place
    rcases Prod.mk.inj (Option.some.inj moves) with ⟨rfl, rfl⟩
    simp only [Owns, place] at owns
    rcases owns with ⟨fetched, row, inside⟩
    simp only [pushColumn, inside.2.2.1]
    split
    · rename_i column
      exact owns_push inside column
    · trivial
  · simp at moves
  · simp at moves

/-! ## What a step changes for the other calls -/

/-- The effect of a step of a call on the shared object. -/
structure Effect (sql : CMySql) (call : SqlCall) (after : CMySql) (moved : SqlCall) : Prop where
  pending : after.pending = sql.pending ∨ call.place = .store ∨ sql.pending = none
  results : after.mResults = sql.mResults ∨ call.place = .writeResults
  record : after.mRecord = sql.mRecord ∨ call.place = .writeRecord
  stored : ∀ results < sql.stored.length, call.result ≠ some results →
    after.stored[results]? = sql.stored[results]?
  grows : sql.stored.length ≤ after.stored.length
  result : moved.result = call.result ∨ moved.result = none ∨
    (moved.result = some sql.stored.length ∧ sql.stored.length < after.stored.length)
  storing : moved.place = .store → sql.pending = none

/-- A step that stays among the fields of the call. -/
theorem effect_of_same (result : moved.result = call.result) (place : moved.place ≠ .store) :
    Effect sql call sql moved :=
  ⟨Or.inl rfl, Or.inl rfl, Or.inl rfl, fun _ _ _ => rfl, Nat.le_refl _, Or.inl result,
    fun storing => absurd storing place⟩

theorem atColumn_ne_store (call : SqlCall) (i : ℕ) : (call.atColumn i).place ≠ .store := by
  simp only [atColumn, goTo]
  split <;> simp

theorem effect_testColumn (i : ℕ) : Effect sql call sql (call.testColumn sql i) := by
  simp only [testColumn]
  split
  · exact effect_of_same rfl (by simp [goTo])
  · split
    · exact effect_of_same rfl (by simp [goTo])
    · exact effect_of_same rfl (atColumn_ne_store _ _)
    · exact effect_of_same rfl (by simp [goTo])

theorem effect_pushColumn (i : ℕ) : Effect sql call sql (call.pushColumn sql i) := by
  simp only [pushColumn]
  split
  · exact effect_of_same rfl (by simp [goTo])
  · split
    · exact effect_of_same rfl (atColumn_ne_store _ _)
    · exact effect_of_same rfl (by simp [goTo])

theorem effect_query {answer : SqlAnswer} (moves : call.query sql answer = some (after, moved)) :
    Effect sql call after moved := by
  simp only [query] at moves
  split at moves
  · rcases Prod.mk.inj (Option.some.inj moves) with ⟨rfl, rfl⟩
    exact effect_of_same rfl (by simp [goTo])
  · split at moves
    · split at moves
      · rename_i none_
        rcases Prod.mk.inj (Option.some.inj moves) with ⟨rfl, rfl⟩
        exact ⟨Or.inr (Or.inr none_), Or.inl rfl, Or.inl rfl, fun _ _ _ => rfl, Nat.le_refl _,
          Or.inl rfl, fun _ => none_⟩
      · simp at moves
    · simp at moves
  · split at moves
    · simp at moves
    · split at moves
      · rcases Prod.mk.inj (Option.some.inj moves) with ⟨rfl, rfl⟩
        exact effect_of_same rfl (by simp [goTo])
      · simp at moves

theorem effect_store {answer : SqlAnswer} (place : call.place = .store)
    (moves : call.store sql answer = some (after, moved)) : Effect sql call after moved := by
  simp only [store] at moves
  split at moves
  · rcases Prod.mk.inj (Option.some.inj moves) with ⟨rfl, rfl⟩
    exact ⟨Or.inr (Or.inl place), Or.inl rfl, Or.inl rfl, fun _ _ _ => rfl, Nat.le_refl _,
      Or.inr (Or.inl rfl), by simp [goTo]⟩
  · split at moves
    · rcases Prod.mk.inj (Option.some.inj moves) with ⟨rfl, rfl⟩
      refine ⟨Or.inr (Or.inl place), Or.inl rfl, Or.inl rfl, ?_, by simp, ?_, by simp [goTo]⟩
      · intro results bound _
        exact List.getElem?_append_left bound
      · exact Or.inr (Or.inr ⟨rfl, by simp⟩)
    · rcases Prod.mk.inj (Option.some.inj moves) with ⟨rfl, rfl⟩
      exact ⟨Or.inl rfl, Or.inl rfl, Or.inl rfl, fun _ _ _ => rfl, Nat.le_refl _,
        Or.inr (Or.inl rfl), by simp [goTo]⟩
  · simp at moves

theorem effect_fetch {results : Option ℕ} (owns : call.Owns sql)
    (place : call.place = .fetch results)
    (moves : call.fetch sql results = some (after, moved)) : Effect sql call after moved := by
  simp only [Owns, place] at owns
  rcases owns with ⟨fetched, _, _, rfl, _⟩
  cases result : call.result with
  | none =>
      rw [result] at moves
      rcases Prod.mk.inj (Option.some.inj moves) with ⟨rfl, rfl⟩
      exact effect_of_same rfl (by simp [goTo])
  | some own =>
      rw [result] at moves
      simp only [fetch] at moves
      split at moves
      · rcases Prod.mk.inj (Option.some.inj moves) with ⟨rfl, rfl⟩
        refine ⟨Or.inl rfl, Or.inl rfl, Or.inl rfl, ?_, by simp, Or.inl rfl, by simp [goTo]⟩
        intro results _ other
        have different : own ≠ results := by
          rintro rfl
          exact other result
        exact List.getElem?_set_ne different
      · rcases Prod.mk.inj (Option.some.inj moves) with ⟨rfl, rfl⟩
        exact effect_of_same rfl (by simp [goTo])
      · simp at moves

theorem effect_move {answer : SqlAnswer} (owns : call.Owns sql)
    (moves : call.move sql answer = some (after, moved)) : Effect sql call after moved := by
  simp only [move] at moves
  split at moves
  · exact effect_query moves
  · rename_i place
    exact effect_store place moves
  · rename_i place
    rcases Prod.mk.inj (Option.some.inj moves) with ⟨rfl, rfl⟩
    exact ⟨Or.inl rfl, Or.inr place, Or.inl rfl, fun _ _ _ => rfl, Nat.le_refl _, Or.inl rfl,
      by simp [goTo]⟩
  · rcases Prod.mk.inj (Option.some.inj moves) with ⟨rfl, rfl⟩
    refine effect_of_same rfl ?_
    simp only [goTo]
    split <;> simp
  · rcases Prod.mk.inj (Option.some.inj moves) with ⟨rfl, rfl⟩
    exact effect_of_same rfl (by simp [goTo])
  · rename_i results place
    exact effect_fetch owns place moves
  · rename_i place
    rcases Prod.mk.inj (Option.some.inj moves) with ⟨rfl, rfl⟩
    exact ⟨Or.inl rfl, Or.inl rfl, Or.inr place, fun _ _ _ => rfl, Nat.le_refl _, Or.inl rfl,
      by simp [goTo]⟩
  · rcases Prod.mk.inj (Option.some.inj moves) with ⟨rfl, rfl⟩
    split
    · exact effect_of_same rfl (by simp [goTo])
    · exact effect_of_same rfl (atColumn_ne_store _ _)
  · rcases Prod.mk.inj (Option.some.inj moves) with ⟨rfl, rfl⟩
    exact effect_testColumn _
  · rcases Prod.mk.inj (Option.some.inj moves) with ⟨rfl, rfl⟩
    exact effect_pushColumn _
  · simp at moves
  · simp at moves

end SqlCall

/-! ## Runs -/

namespace SqlThreads

/-- Every call finds its own, and no two calls share a result. -/
structure Tidy (threads : SqlThreads) : Prop where
  owns : ∀ call ∈ threads.calls, call.Owns threads.sql
  bound : ∀ call ∈ threads.calls, ∀ results, call.result = some results →
    results < threads.sql.stored.length
  apart : ∀ (i j : ℕ) (one two : SqlCall), i ≠ j → threads.calls[i]? = some one →
    threads.calls[j]? = some two → ∀ results, one.result = some results → two.result ≠ some results
  oneStore : ∀ (i j : ℕ) (one two : SqlCall), threads.calls[i]? = some one →
    threads.calls[j]? = some two → one.place = .store → two.place = .store → i = j

/-- After a step a call is the one that has moved, or another one, as before. -/
theorem getElem?_moved {calls : List SqlCall} {index position : ℕ} {moved other : SqlCall}
    (found : (calls.set index moved)[position]? = some other) :
    (position = index ∧ other = moved) ∨ (position ≠ index ∧ calls[position]? = some other) := by
  rw [List.getElem?_set] at found
  split at found
  · rename_i same
    split at found
    · exact Or.inl ⟨same.symm, (Option.some.inj found).symm⟩
    · simp at found
  · rename_i different
    exact Or.inr ⟨fun same => different same.symm, found⟩

theorem Tidy.move {threads : SqlThreads} {index : ℕ} {call moved : SqlCall} {after : CMySql}
    (tidy : threads.Tidy) (present : threads.calls[index]? = some call)
    (exclusive : ∀ other position, position ≠ index → threads.calls[position]? = some other →
      (call.place = .writeResults → other.readsResults threads.sql = false) ∧
        (call.place = .writeRecord → other.readsRecord = false))
    (owns : moved.Owns after) (effect : call.Effect threads.sql after moved) :
    Tidy ⟨after, threads.calls.set index moved⟩ := by
  have others (other : SqlCall) (position : ℕ) (different : position ≠ index)
      (found : threads.calls[position]? = some other) : other.Owns after := by
    have member := List.mem_of_getElem? found
    rcases exclusive other position different found with ⟨results, record⟩
    apply (tidy.owns other member).frame
    · intro storing
      have holds := tidy.owns other member
      simp only [SqlCall.Owns, storing] at holds
      rcases effect.pending with same | storingToo | none_
      · exact same
      · exact absurd (tidy.oneStore _ _ _ _ found present storing storingToo) different
      · rw [none_] at holds
        simp at holds
    · intro reads
      rcases effect.results with same | writes
      · exact same
      · rw [results writes] at reads
        exact absurd reads Bool.false_ne_true
    · intro reads
      rcases effect.record with same | writes
      · exact same
      · rw [record writes] at reads
        exact absurd reads Bool.false_ne_true
    · intro object result
      exact effect.stored object (tidy.bound other member object result)
        (tidy.apart _ _ _ _ different found present object result)
  have bound (other : SqlCall) (results : ℕ) (position : ℕ)
      (found : threads.calls[position]? = some other) (result : other.result = some results) :
      results < threads.sql.stored.length :=
    tidy.bound other (List.mem_of_getElem? found) results result
  constructor
  · intro other member
    rcases List.mem_iff_getElem?.mp member with ⟨position, found⟩
    rcases getElem?_moved found with ⟨_, rfl⟩ | ⟨different, before⟩
    · exact owns
    · exact others other position different before
  · intro other member results result
    rcases List.mem_iff_getElem?.mp member with ⟨position, found⟩
    rcases getElem?_moved found with ⟨_, rfl⟩ | ⟨different, before⟩
    · rcases effect.result with same | none_ | ⟨fresh, room⟩
      · exact (bound call results index present (same ▸ result)).trans_le effect.grows
      · simp [none_] at result
      · rw [fresh] at result
        exact Option.some.inj result ▸ room
    · exact (bound other results position before result).trans_le effect.grows
  · intro i j one two different foundOne foundTwo results result same
    rcases getElem?_moved foundOne with ⟨here, rfl⟩ | ⟨notHere, beforeOne⟩ <;>
      rcases getElem?_moved foundTwo with ⟨there, rfl⟩ | ⟨notThere, beforeTwo⟩
    · exact different (here.trans there.symm)
    · rcases effect.result with kept | none_ | ⟨fresh, _⟩
      · exact tidy.apart _ _ _ _ (here ▸ different) present beforeTwo results (kept ▸ result) same
      · simp [none_] at result
      · rw [fresh] at result
        have small := bound two results j beforeTwo same
        rw [← Option.some.inj result] at small
        exact absurd small (Nat.lt_irrefl _)
    · rcases effect.result with kept | none_ | ⟨fresh, _⟩
      · exact tidy.apart _ _ _ _ (there ▸ different) beforeOne present results result (kept ▸ same)
      · simp [none_] at same
      · rw [fresh] at same
        have small := bound one results i beforeOne result
        rw [← Option.some.inj same] at small
        exact absurd small (Nat.lt_irrefl _)
    · exact tidy.apart _ _ _ _ different beforeOne beforeTwo results result same
  · intro i j one two foundOne foundTwo storesOne storesTwo
    have clash (other : SqlCall) (position : ℕ)
        (found : threads.calls[position]? = some other) (stores : other.place = .store)
        (storing : moved.place = .store) : False := by
      have holds := tidy.owns other (List.mem_of_getElem? found)
      simp only [SqlCall.Owns, stores] at holds
      rw [effect.storing storing] at holds
      simp at holds
    rcases getElem?_moved foundOne with ⟨here, rfl⟩ | ⟨notHere, beforeOne⟩ <;>
      rcases getElem?_moved foundTwo with ⟨there, rfl⟩ | ⟨notThere, beforeTwo⟩
    · exact here.trans there.symm
    · exact (clash two j beforeTwo storesTwo storesOne).elim
    · exact (clash one i beforeOne storesOne storesTwo).elim
    · exact tidy.oneStore _ _ _ _ beforeOne beforeTwo storesOne storesTwo

theorem getElem?_called {calls : List SqlCall} {position : ℕ} {new other : SqlCall}
    (found : (calls ++ [new])[position]? = some other) :
    calls[position]? = some other ∨ (position = calls.length ∧ other = new) := by
  rcases Nat.lt_or_ge position calls.length with early | late
  · rw [List.getElem?_append_left early] at found
    exact Or.inl found
  · rw [List.getElem?_append_right late] at found
    rcases List.getElem?_eq_some_iff.mp found with ⟨bound, same⟩
    simp only [List.length_singleton] at bound
    refine Or.inr ⟨by omega, ?_⟩
    rw [← same]
    simp

/-- A new call has neither a result nor a place among the others. -/
theorem Tidy.call {threads : SqlThreads} (tidy : threads.Tidy) (kind : SqlKind) :
    Tidy { threads with calls := threads.calls ++ [{ kind := kind }] } := by
  constructor
  · intro other member
    rcases List.mem_append.mp member with old | new
    · exact tidy.owns other old
    · rw [List.mem_singleton.mp new]
      exact ⟨rfl, rfl⟩
  · intro other member results result
    rcases List.mem_append.mp member with old | new
    · exact tidy.bound other old results result
    · rw [List.mem_singleton.mp new] at result
      simp at result
  · intro i j one two different foundOne foundTwo results result same
    rcases getElem?_called foundOne with beforeOne | ⟨_, rfl⟩
    · rcases getElem?_called foundTwo with beforeTwo | ⟨_, rfl⟩
      · exact tidy.apart _ _ _ _ different beforeOne beforeTwo results result same
      · simp at same
    · simp at result
  · intro i j one two foundOne foundTwo storesOne storesTwo
    rcases getElem?_called foundOne with beforeOne | ⟨_, rfl⟩
    · rcases getElem?_called foundTwo with beforeTwo | ⟨_, rfl⟩
      · exact tidy.oneStore _ _ _ _ beforeOne beforeTwo storesOne storesTwo
      · simp at storesTwo
    · simp at storesOne

theorem Tidy.step {threads next : SqlThreads} {event : SqlEvent} (tidy : threads.Tidy)
    (exclusive : Exclusive threads event) (stepped : threads.step event = some next) :
    next.Tidy := by
  cases event with
  | call kind => exact Option.some.inj stepped ▸ tidy.call kind
  | move index answer =>
      simp only [SqlThreads.step] at stepped
      split at stepped
      · simp at stepped
      · rename_i call present
        rcases Option.map_eq_some_iff.mp stepped with ⟨⟨after, moved⟩, moves, rfl⟩
        have owns := tidy.owns call (List.mem_of_getElem? present)
        exact tidy.move present (exclusive call present) (SqlCall.owns_move owns moves)
          (SqlCall.effect_move owns moves)

theorem tidy_start : Tidy {} := by
  constructor <;> simp

/-- In a run in which no call overwrites a member that another one still reads, every
`SelectMySql` that returns `true` has filled its list with the rows of its own statement. -/
theorem results_not_mixed {events : List SqlEvent} {threads : SqlThreads}
    (exclusive : machine.Meets Exclusive {} events)
    (reached : machine.run {} events = some threads) :
    ∀ call ∈ threads.calls, ∀ nColumn, call.kind = .select nColumn →
      call.place = .returned true → call.lstStr = flatRows nColumn call.answered := by
  have tidy : threads.Tidy :=
    machine.run_invariant Tidy (fun tidy exclusive stepped => Tidy.step tidy exclusive stepped)
      tidy_start exclusive reached
  intro call member nColumn kind place
  have owns := tidy.owns call member
  simp only [SqlCall.Owns, place, kind] at owns
  rcases owns with update | filled
  · exact nomatch update
  · exact filled

/-! ## The calls as single steps of the server -/

/-- Such a call answers what the server's machine lets a select answer in one step. -/
theorem perform_select_of_filled {call : SqlCall} {nColumn : ℕ} (state : State) (stmt : Stmt)
    (filled : call.lstStr = flatRows nColumn call.answered)
    (shape : ∀ row ∈ call.answered, row.length = nColumn) :
    state.perform (.select stmt nColumn)
        (.rows (some (call.answered.map fun row => row.map fun text => text.getD []))) =
      some (state, some call.lstStr) := by
  have flat : (call.answered.map fun row => row.map fun text => text.getD []).flatten =
      call.lstStr := by
    rw [filled, flatRows, List.flatMap_def]
    congr 1
    apply List.map_congr_left
    intro row member
    rw [← shape row member, List.take_length]
  have columns : (call.answered.map fun row => row.map fun text => text.getD []).all
      (·.length = nColumn) = true := by
    apply List.all_eq_true.mpr
    intro row member
    rcases List.mem_map.mp member with ⟨own, found, rfl⟩
    rw [List.length_map, shape own found]
    exact decide_eq_true rfl
  rw [State.perform, if_pos columns, flat]
  rfl

/-! ## Two selects -/

/-- One select has its row before the other one starts. -/
def selectsInTurn : List SqlEvent :=
  [.call (.select 1), .call (.select 1), .move 0 (.rows [[some (ascii "alice")]])] ++
    List.replicate 13 (.move 0 .done) ++ [.move 1 (.rows [[none]])] ++
      List.replicate 12 (.move 1 .done)

/-- The second select stores its result before the first one has fetched from its own. -/
def selectsAtOnce : List SqlEvent :=
  [.call (.select 1), .call (.select 1), .move 0 (.rows [[some (ascii "alice")]]), .move 0 .done,
    .move 0 .done, .move 0 .done, .move 1 (.rows [[some (ascii "bob")]]), .move 1 .done,
    .move 1 .done] ++ List.replicate 10 (.move 0 .done)

/-- The first select has been asked for Alice and returns Bob's row. -/
theorem results_mixed_at_once : ∃ threads call,
    machine.run {} selectsAtOnce = some threads ∧ threads.calls[0]? = some call ∧
      call.kind = .select 1 ∧ call.place = .returned true ∧
      call.answered = [[some (ascii "alice")]] ∧ call.lstStr = [ascii "bob"] ∧
      call.lstStr ≠ flatRows 1 call.answered := by
  refine ⟨_, _, rfl, rfl, rfl, rfl, rfl, rfl, by decide⟩

def isExclusive (threads : SqlThreads) : SqlEvent → Bool
  | .call _ => true
  | .move index _ =>
      match threads.calls[index]? with
      | none => true
      | some call => (List.range threads.calls.length).all fun position =>
          match threads.calls[position]? with
          | none => true
          | some other => position = index ||
              ((call.place ≠ .writeResults || !other.readsResults threads.sql) &&
                (call.place ≠ .writeRecord || !other.readsRecord))

theorem isExclusive_sound (threads : SqlThreads) (event : SqlEvent)
    (passed : isExclusive threads event = true) : Exclusive threads event := by
  cases event with
  | call kind => trivial
  | move index answer =>
      intro call present other position different found
      have bound : position < threads.calls.length := (List.getElem?_eq_some_iff.mp found).1
      simp only [isExclusive, present] at passed
      have holds := List.all_eq_true.mp passed position (List.mem_range.mpr bound)
      simp only [found, Bool.or_eq_true, decide_eq_true_eq, different, false_or, Bool.and_eq_true,
        Bool.not_eq_true'] at holds
      constructor
      · intro writes
        exact holds.1.resolve_left fun no => no writes
      · intro writes
        exact holds.2.resolve_left fun no => no writes

theorem results_not_mixed_in_turn : ∃ threads,
    machine.run {} selectsInTurn = some threads ∧
      (∀ call ∈ threads.calls, call.place = .returned true) ∧
      ∀ call ∈ threads.calls, ∀ nColumn, call.kind = .select nColumn →
        call.place = .returned true → call.lstStr = flatRows nColumn call.answered := by
  have passed : machine.allSteps isExclusive {} selectsInTurn = true := by decide +kernel
  refine ⟨_, rfl, by decide, ?_⟩
  exact results_not_mixed (machine.meets_of_allSteps isExclusive_sound passed) rfl

end SqlThreads

end InstanceMessage
