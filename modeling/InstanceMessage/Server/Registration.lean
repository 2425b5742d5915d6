import InstanceMessage.Server.Coherence
import InstanceMessage.Server.Requests

/-!
# Registrations at the same time

`dealRegisterRq` looks for the phone number, then for the name, and then inserts
the account, in three statements without a lock between them. No constraint of
the table backs it up, so two handlers can both find the number free.

What a handler has seen is read off its history: it inserts only after both
selects have found nothing, and answers a success only after its insert. The
selects spoke the truth when they were made, so an insert keeps the table
unique when no other registration has inserted the same number or the same name
since then.
-/

namespace InstanceMessage

open Library

/-! ## What the handler has seen -/

def registerSuccess : Bytes := StruRegisterRs.bytes ⟨defRigisterSuccess⟩

/-- The two columns of `t_user` in which no value may be there twice. -/
inductive AccountKey
  | tel
  | name
  deriving DecidableEq

namespace AccountKey

def ofRow : AccountKey → UserRow → Bytes
  | .tel => UserRow.tel
  | .name => UserRow.name

/-- The value that an insert of a name and a number writes. -/
def ofInsert : AccountKey → Bytes → Bytes → Bytes
  | .tel, _, number => number
  | .name, value, _ => value

def query : AccountKey → Bytes → Stmt
  | .tel => .telByTel
  | .name => .nameByName

def read (data : Bytes) : AccountKey → Option Bytes
  | .tel => StruRegisterRq.readTel data
  | .name => StruRegisterRq.readName data

end AccountKey

/-- The history holds the insert of the account that the packet asks for. -/
def Registered (data : Bytes) (history : History) : Prop :=
  ∃ name tel password, (∀ key : AccountKey, key.read data = some (key.ofInsert name tel)) ∧
    (⟨.update (.insertUser name tel password), true⟩ : Performed Action.Answer) ∈ history

/-- An account is inserted after its number and its name have been found free, and a success
is answered after the insert. -/
def registerLaw (data : Bytes) (history : History) : Action → Prop
  | .update (.insertUser name tel _) =>
      ∀ key : AccountKey, (⟨.select (key.query (key.ofInsert name tel)) 1, some []⟩ :
        Performed Action.Answer) ∈ history
  | .sendData packet _ =>
      packetType data = some defRegisterRq → packet = registerSuccess → Registered data history
  | _ => True

section Handlers

variable {data : Bytes} {from_ : Handle} {history : History} {Value : Type}

/-- Another answer than a success needs nothing. -/
theorem registers_refuse {packet : Bytes} (refuses : packet ≠ registerSuccess) :
    (Handler.sendData packet from_).Obeys (registerLaw data) (fun _ _ => True) history :=
  ⟨fun _ success => absurd success refuses, fun _ => trivial⟩

theorem dealRegisterRq_registers :
    (dealRegisterRq data from_).Obeys (registerLaw data) (fun _ _ => True) history := by
  refine Program.obeys_bind (obeys_field trivial fun tel readTel => ?_)
  refine Program.obeys_bind (obeys_sprintfS trivial ?_)
  apply Program.obeys_perform_bind trivial
  intro (found : Option (List Bytes))
  match found with
  | none => trivial
  | some (_ :: _) => exact registers_refuse (by decide)
  | some [] =>
      refine Program.obeys_bind (obeys_field trivial fun name readName => ?_)
      refine Program.obeys_bind (obeys_sprintfS trivial ?_)
      apply Program.obeys_perform_bind trivial
      intro (taken : Option (List Bytes))
      match taken with
      | none => trivial
      | some (_ :: _) => exact registers_refuse (by decide)
      | some [] =>
          refine Program.obeys_bind (obeys_field trivial fun password _ => ?_)
          refine Program.obeys_bind (obeys_sprintfS trivial ?_)
          refine Program.obeys_perform_bind ?_ ?_
          · intro key
            cases key with
            | tel => exact List.mem_cons_of_mem _ List.mem_cons_self
            | name => exact List.mem_cons_self
          intro (inserted : Bool)
          cases inserted with
          | false => trivial
          | true =>
              refine ⟨fun _ _ => ⟨name, tel, password, ?_, List.mem_cons_self⟩, fun _ => trivial⟩
              intro key
              cases key with
              | tel => exact readTel
              | name => exact readName

theorem dealData_registers (data : Bytes) (from_ : Handle) :
    (dealData data from_).Obeys (registerLaw data) (fun _ _ => True) [] := by
  by_cases registers : packetType data = some defRegisterRq
  · rw [dealData_registerRq registers]
    exact dealRegisterRq_registers
  · apply (dealData_lawful data from_ []).mono
    · intro history action lawful
      cases action with
      | update stmt =>
          cases stmt with
          | insertUser name tel password => exact absurd lawful registers
          | _ => trivial
      | sendData packet clientId => exact fun type => absurd type registers
      | _ => trivial
    · exact fun _ _ _ => trivial

end Handlers

/-! ## Inserted accounts -/

/-- The account that an entry of the log has inserted, with the packet's number. -/
structure Insertion where
  tid : TaskId
  name : Bytes
  tel : Bytes

def AccountKey.ofInsertion (key : AccountKey) (insertion : Insertion) : Bytes :=
  key.ofInsert insertion.name insertion.tel

def Entry.insertion (entry : Entry) : Option Insertion :=
  match entry.performed with
  | ⟨.update (.insertUser name tel _), (inserted : Bool)⟩ =>
      if inserted then some ⟨entry.tid, name, tel⟩ else none
  | _ => none

theorem Entry.insertion_eq_none {entry : Entry} (other : ∀ name tel password,
    entry.performed ≠ ⟨.update (.insertUser name tel password), true⟩) :
    entry.insertion = none := by
  simp only [Entry.insertion]
  split
  · rename_i name tel password inserted performed
    split
    · rename_i ok
      exact absurd performed (ok ▸ other name tel password)
    · rfl
  · rfl

/-- The accounts that have been inserted, latest first. -/
def insertions (log : List Entry) : List Insertion := log.filterMap Entry.insertion

/-- The values of a column: those of the table at the start, and the inserted ones. -/
def AccountKey.values (key : AccountKey) (tUser : List UserRow) (log : List Entry) : List Bytes :=
  (insertions log).map key.ofInsertion ++ tUser.map key.ofRow

/-- The handler of a registration has called `sendData` with a success. -/
def Entry.Succeeds (entry : Entry) : Prop :=
  packetType entry.data = some defRegisterRq ∧
    ∃ clientId, entry.performed = ⟨.sendData registerSuccess clientId, ()⟩

namespace State

/-- No other registration has inserted the number, or the name, of this one since its handler
found it free. -/
def Unraced (state : State) : Event → Prop
  | .act index (.updated true _) =>
      ∀ task name tel password
        (rest : (Action.update (.insertUser name tel password)).Answer → Handler Unit),
        state.tasks[index]? = some task →
          task.prog = .act (.update (.insertUser name tel password)) rest →
            ∀ (key : AccountKey) (newer : List Entry) (entry : Entry) (older : List Entry),
              state.log = newer ++ entry :: older → entry.tid = task.tid →
                entry.performed.action = .select (key.query (key.ofInsert name tel)) 1 →
                  key.ofInsert name tel ∉ (insertions newer).map key.ofInsertion
  | _ => True

theorem rows_query (state : State) (key : AccountKey) (value : Bytes) :
    state.rows (key.query value) =
      (state.tUser.filter (key.ofRow · = value)).map fun row => [key.ofRow row] := by
  cases key <;> rfl

/-- A select that finds nothing tells that the value is not in the column. -/
theorem not_mem_of_rows {state : State} {key : AccountKey} {value : Bytes}
    (nothing : (state.rows (key.query value)).flatten = []) :
    value ∉ state.tUser.map key.ofRow := by
  intro member
  rcases List.mem_map.mp member with ⟨row, found, rfl⟩
  have listed : [key.ofRow row] ∈ state.rows (key.query (key.ofRow row)) := by
    rw [rows_query]
    exact List.mem_map.mpr ⟨row, List.mem_filter.mpr ⟨found, by simp⟩, rfl⟩
  have empty := List.flatten_eq_nil_iff.mp nothing _ listed
  simp at empty

/-- The table at the start and the log tell what is in the table, and what was there when a
handler found a value free. -/
structure Accounted (tUser : List UserRow) (state : State) : Prop where
  table : ∀ key : AccountKey,
    (state.tUser.map key.ofRow).Perm (key.values tUser state.log)
  free : ∀ (key : AccountKey) value newer entry older, state.log = newer ++ entry :: older →
    entry.performed = ⟨.select (key.query value) 1, some []⟩ → value ∉ key.values tUser older
  unique : ∀ key : AccountKey, (key.values tUser state.log).Nodup

section Step

variable {tUser : List UserRow} {state after next : State} {index : ℕ} {outcome : Outcome}
  {task : Task} {action : Action} {rest : action.Answer → Handler Unit} {answer : action.Answer}

theorem accounted_start (unique : ∀ key : AccountKey, (tUser.map key.ofRow).Nodup)
    (tFriend : List (ℤ × ℤ)) : (start tUser tFriend).Accounted tUser where
  table := fun _ => List.Perm.refl _
  free := by simp [start]
  unique := unique

theorem Accounted.congr (accounted : state.Accounted tUser) (table : after.tUser = state.tUser)
    (log : after.log = state.log) : after.Accounted tUser where
  table := by rw [table, log]; exact accounted.table
  free := by rw [log]; exact accounted.free
  unique := by rw [log]; exact accounted.unique

/-- What a handler finds free is not in the table. -/
theorem Accounted.free_step (accounted : state.Accounted tUser)
    (truthful : state.Truthful (.act index outcome)) (present : state.tasks[index]? = some task)
    (shape : task.prog = .act action rest)
    (performed : state.perform action outcome = some (after, answer)) {key : AccountKey}
    {value : Bytes} (nothing : (⟨action, answer⟩ : Performed Action.Answer) =
      ⟨.select (key.query value) 1, some []⟩) : value ∉ key.values tUser state.log := by
  have same : action = .select (key.query value) 1 := congrArg Performed.action nothing
  subst same
  have same : answer = some [] := eq_of_heq (Performed.mk.inj nothing).2
  subst same
  have empty := truthful.found present shape performed
  intro member
  exact not_mem_of_rows empty.symm ((accounted.table key).mem_iff.mpr member)

/-- The values of a column, when the log is split at an entry that inserts nothing. -/
theorem mem_values_append {key : AccountKey} {value : Bytes} {newer older : List Entry}
    {entry : Entry} (inserts : entry.insertion = none) :
    value ∈ key.values tUser (newer ++ entry :: older) ↔
      value ∈ (insertions newer).map key.ofInsertion ∨ value ∈ key.values tUser older := by
  simp only [AccountKey.values, insertions, List.filterMap_append, List.filterMap_cons, inserts,
    List.map_append, List.mem_append, or_assoc]

/-- A handler that inserts has found both values free, and nobody has inserted them since. -/
theorem Accounted.fresh (accounted : state.Accounted tUser)
    (obey : state.Obey (fun data _ => registerLaw data) fun _ _ _ _ => True)
    {rowId : ℤ} (unraced : state.Unraced (.act index (.updated true rowId)))
    (present : state.tasks[index]? = some task) {name tel password : Bytes}
    {rest : (Action.update (.insertUser name tel password)).Answer → Handler Unit}
    (shape : task.prog = .act (.update (.insertUser name tel password)) rest) (key : AccountKey) :
    key.ofInsert name tel ∉ key.values tUser state.log := by
  have obeys := obey task (List.mem_of_getElem? present)
  rw [shape] at obeys
  rcases mem_historyOf.mp (obeys.1 key) with ⟨entry, logged, own, looked⟩
  rcases List.append_of_mem logged with ⟨newer, older, split⟩
  have inserts : entry.insertion = none := by
    simp only [Entry.insertion, looked]
  rw [split, mem_values_append inserts]
  rintro (newly | before)
  · exact unraced task name tel password rest present shape key newer entry older split own
      (by rw [looked]) newly
  · exact accounted.free key _ newer entry older split looked before

theorem Accounted.perform (accounted : state.Accounted tUser)
    (obey : state.Obey (fun data _ => registerLaw data) fun _ _ _ _ => True)
    (truthful : state.Truthful (.act index outcome)) (unraced : state.Unraced (.act index outcome))
    (present : state.tasks[index]? = some task) (shape : task.prog = .act action rest)
    (performed : state.perform action outcome = some (after, answer)) :
    (after.advance index task action answer (rest answer)).Accounted tUser := by
  have performs := performs_of_perform performed
  have log : (after.advance index task action answer (rest answer)).log =
      ⟨task.tid, task.conn, task.from_, task.data, ⟨action, answer⟩⟩ :: state.log :=
    log_advance performs.sameFrame
  have free : ∀ (key : AccountKey) value newer entry older,
      (after.advance index task action answer (rest answer)).log = newer ++ entry :: older →
        entry.performed = ⟨.select (key.query value) 1, some []⟩ →
          value ∉ key.values tUser older := by
    intro key value newer entry older split looked
    rw [log] at split
    cases newer with
    | nil =>
        rcases List.cons.inj split with ⟨rfl, rfl⟩
        exact accounted.free_step truthful present shape performed looked
    | cons first newer =>
        exact accounted.free key value newer entry older (List.cons.inj split).2 looked
  rcases performs.tUser with ⟨same, other⟩ | ⟨name, tel, password, _, insert, added⟩
  · have kept : insertions (after.advance index task action answer (rest answer)).log =
        insertions state.log := by
      rw [log]
      have inserts : Entry.insertion ⟨task.tid, task.conn, task.from_, task.data,
          ⟨action, answer⟩⟩ = none := Entry.insertion_eq_none other
      simp only [insertions, List.filterMap_cons, inserts]
    refine ⟨fun key => ?_, free, fun key => ?_⟩
    · simp only [AccountKey.values, kept]
      exact same ▸ accounted.table key
    · simp only [AccountKey.values, kept]
      exact accounted.unique key
  · have same : action = .update (.insertUser name tel password) := congrArg Performed.action insert
    subst same
    have same : answer = true := eq_of_heq (Performed.mk.inj insert).2
    subst same
    rcases updated_of_perform performed with ⟨rowId, rfl⟩
    have grown (key : AccountKey) {later : List Entry} (logged : later =
        ⟨task.tid, task.conn, task.from_, task.data,
          ⟨.update (.insertUser name tel password), true⟩⟩ :: state.log) :
        key.values tUser later = key.ofInsert name tel :: key.values tUser state.log := by
      rw [logged]
      rfl
    refine ⟨fun key => ?_, free, fun key => ?_⟩
    · rw [grown key log]
      have table : (after.tUser.map key.ofRow).Perm
          (key.ofInsert name tel :: state.tUser.map key.ofRow) := by
        rw [added, List.map_append]
        cases key <;> exact List.perm_append_singleton _ _
      exact table.trans ((accounted.table key).cons _)
    · rw [grown key log]
      exact List.nodup_cons.mpr
        ⟨accounted.fresh obey unraced present shape key, accounted.unique key⟩

theorem Accounted.step {event : Event} (accounted : state.Accounted tUser)
    (obey : state.Obey (fun data _ => registerLaw data) fun _ _ _ _ => True)
    (truthful : state.Truthful event) (unraced : state.Unraced event)
    (stepped : state.step event = some next) : next.Accounted tUser := by
  cases stepped_of_step stepped with
  | accept | list | receive | closeSocket | eraseClient | halt | finish =>
      exact accounted.congr rfl rfl
  | perform present shape goesOn performed =>
      exact accounted.perform obey truthful unraced present shape performed

end Step

/-! ## Unique accounts -/

/-- A success that has been answered comes after an insert of the same packet. -/
theorem Registered.of_succeeds {state : State}
    (logObeys : state.LogObeys fun data _ => registerLaw data) {entry : Entry}
    (logged : entry ∈ state.log) (succeeds : entry.Succeeds) :
    ∃ insertion ∈ insertions state.log, insertion.tid = entry.tid ∧
      ∀ key : AccountKey, key.read entry.data = some (key.ofInsertion insertion) := by
  rcases succeeds with ⟨registers, clientId, sends⟩
  rcases List.append_of_mem logged with ⟨newer, older, split⟩
  have lawful := logObeys newer entry older split
  rw [sends] at lawful
  rcases lawful registers rfl with ⟨name, tel, password, read, inserted⟩
  rcases mem_historyOf.mp inserted with ⟨insert, earlier, own, performed⟩
  refine ⟨⟨entry.tid, name, tel⟩, ?_, rfl, read⟩
  apply List.mem_filterMap.mpr
  refine ⟨insert, ?_, by simp only [Entry.insertion, performed, own, if_true]⟩
  rw [split]
  exact List.mem_append_right _ (List.mem_cons_of_mem _ earlier)

/-- In every run in which no other registration inserts a number or a name between a handler's
finding it free and its insert, no two accounts have the same number or the same name, and no two
requests with the same number or the same name are answered with a success. -/
theorem accounts_unique {tUser : List UserRow} {tFriend : List (ℤ × ℤ)} {events : List Event}
    {final : State} (unique : ∀ key : AccountKey, (tUser.map key.ofRow).Nodup)
    (reached : server.run (start tUser tFriend) events = some final)
    (meets : server.Meets (fun state event => state.Truthful event ∧ state.Unraced event)
      (start tUser tFriend) events) (key : AccountKey) :
    (final.tUser.map key.ofRow).Nodup ∧
      ∀ first ∈ final.log, ∀ second ∈ final.log, first.Succeeds → second.Succeeds →
        key.read first.data = key.read second.data → first.tid = second.tid := by
  have holds : final.Coherent ∧ final.Obey (fun data _ => registerLaw data) (fun _ _ _ _ => True) ∧
      final.LogObeys (fun data _ => registerLaw data) ∧ final.Accounted tUser := by
    refine server.run_invariant (fun state => state.Coherent ∧
      state.Obey (fun data _ => registerLaw data) (fun _ _ _ _ => True) ∧
      state.LogObeys (fun data _ => registerLaw data) ∧ state.Accounted tUser) ?_
      ⟨coherent_start _ _, by simp [start, Obey], by simp [start, LogObeys],
        accounted_start unique _⟩ meets reached
    intro state event next holds allowed stepped
    rcases holds with ⟨coherent, obey, logObeys, accounted⟩
    exact ⟨coherent.step stepped, obey.step dealData_registers coherent stepped,
      logObeys.step obey stepped, accounted.step obey allowed.1 allowed.2 stepped⟩
  rcases holds with ⟨_, _, logObeys, accounted⟩
  refine ⟨(accounted.table key).nodup_iff.mpr (accounted.unique key), ?_⟩
  intro first firstLogged second secondLogged firstSucceeds secondSucceeds same
  rcases Registered.of_succeeds logObeys firstLogged firstSucceeds with
    ⟨one, oneInserted, oneTid, oneRead⟩
  rcases Registered.of_succeeds logObeys secondLogged secondSucceeds with
    ⟨other, otherInserted, otherTid, otherRead⟩
  have values : key.ofInsertion one = key.ofInsertion other := by
    apply Option.some.inj
    rw [← oneRead key, ← otherRead key, same]
  have distinct : ((insertions final.log).map key.ofInsertion).Nodup :=
    (List.nodup_append.mp (accounted.unique key)).1
  have equal : one = other :=
    List.inj_on_of_nodup_map distinct oneInserted otherInserted values
  rw [← oneTid, ← otherTid, equal]

/-! ## Registrations in turn, and at once -/

def registration (user : UserRow) : Bytes :=
  StruRegisterRq.bytes ⟨user.tel, user.pass, user.name⟩

/-- Both selects of a registration find nothing. -/
def findsFree (index : ℕ) : List Event :=
  [.act index (.rows (some [])), .act index (.rows (some []))]

/-- The insert of a registration succeeds, and its sender is told. -/
def isInserted (index : ℕ) (rowId : ℤ) : List Event :=
  [.act index (.updated true rowId), .act index .internal]

def truthful (state : State) : Event → Bool
  | .act index (.rows (some rows)) =>
      match state.tasks[index]? with
      | some task =>
          match task.prog with
          | .act (.select stmt _) _ => rows = state.rows stmt
          | _ => true
      | none => true
  | _ => true

theorem truthful_sound (state : State) (event : Event) (passed : state.truthful event = true) :
    state.Truthful event := by
  cases event with
  | act index outcome =>
      cases outcome with
      | rows rows =>
          cases rows with
          | none => trivial
          | some rows =>
              intro task stmt nColumn rest present shape
              simpa only [truthful, present, shape, decide_eq_true_eq] using passed
      | _ => trivial
  | _ => trivial

/-- Nobody has inserted the values at all. -/
def unraced (state : State) : Event → Bool
  | .act index (.updated true _) =>
      match state.tasks[index]? with
      | some task =>
          match task.prog with
          | .act (.update (.insertUser name tel _)) _ =>
              (insertions state.log).all fun insertion =>
                insertion.name ≠ name ∧ insertion.tel ≠ tel
          | _ => true
      | none => true
  | _ => true

theorem unraced_sound (state : State) (event : Event) (passed : state.unraced event = true) :
    state.Unraced event := by
  cases event with
  | act index outcome =>
      cases outcome with
      | updated ok rowId =>
          cases ok with
          | false => trivial
          | true =>
              intro task name tel password rest present shape key newer entry older split _ _ raced
              rcases List.mem_map.mp raced with ⟨insertion, inserted, same⟩
              have listed : insertion ∈ insertions state.log := by
                rw [split, insertions, List.filterMap_append]
                exact List.mem_append_left _ inserted
              simp only [unraced, present, shape, List.all_eq_true, decide_eq_true_eq] at passed
              rcases passed insertion listed with ⟨otherName, otherTel⟩
              cases key with
              | tel => exact otherTel same
              | name => exact otherName same
      | _ => trivial
  | _ => trivial

def inTurn : List Event :=
  [.accept 4, .list 0, .receive 0 (registration alice)] ++ findsFree 0 ++ isInserted 0 1 ++
    [.finish 0, .receive 0 (registration bob)] ++ findsFree 0 ++ isInserted 0 2

theorem accounts_unique_in_turn : ∃ final, server.run (start [] []) inTurn = some final ∧
    final.tUser.length = 2 ∧ ∀ key : AccountKey, (final.tUser.map key.ofRow).Nodup := by
  have evaluated : (server.run (start [] []) inTurn).any
      (fun final => final.tUser.length = 2) = true := by
    decide +kernel
  have passed : server.allSteps (fun state event => state.truthful event && state.unraced event)
      (start [] []) inTurn = true := by
    decide +kernel
  rcases (Option.any_eq_true _ _).mp evaluated with ⟨final, reached, shape⟩
  refine ⟨final, reached, by simpa using shape, fun key => ?_⟩
  refine (accounts_unique (by simp) reached (server.meets_of_allSteps ?_ passed) key).1
  intro state event both
  rcases Bool.and_eq_true_iff.mp both with ⟨spoke, alone⟩
  exact ⟨truthful_sound state event spoke, unraced_sound state event alone⟩

/-- Alice registers twice at the same time, and both handlers find her number and name free. -/
def atOnce : List Event :=
  [.accept 4, .list 0, .receive 0 (registration alice), .accept 8, .list 1,
    .receive 1 (registration alice)] ++ findsFree 0 ++ findsFree 1 ++ isInserted 0 1 ++
    isInserted 1 2

/-- Both registrations are answered with a success, and the table holds her account twice. -/
theorem accounts_doubled : ∃ final, server.run (start [] []) atOnce = some final ∧
    server.Meets Truthful (start [] []) atOnce ∧
    (∀ key : AccountKey, ¬(final.tUser.map key.ofRow).Nodup) ∧
      final.sent = [(0, registerSuccess), (1, registerSuccess)] := by
  have evaluated : (server.run (start [] []) atOnce).any (fun final =>
      ¬(final.tUser.map UserRow.tel).Nodup ∧ ¬(final.tUser.map UserRow.name).Nodup ∧
        final.sent = [(0, registerSuccess), (1, registerSuccess)]) = true := by
    decide +kernel
  have passed : server.allSteps truthful (start [] []) atOnce = true := by decide +kernel
  rcases (Option.any_eq_true _ _).mp evaluated with ⟨final, reached, shape⟩
  rcases of_decide_eq_true shape with ⟨tels, names, sent⟩
  refine ⟨final, reached, server.meets_of_allSteps truthful_sound passed, fun key => ?_, sent⟩
  cases key with
  | tel => exact tels
  | name => exact names

end State

end InstanceMessage
