import InstanceMessage.Server.Introductions
import InstanceMessage.Server.Serving

/-!
# Handlers one after the other

`State.Deals` is the big-step reading of a handler: it starts in one state and
returns in another, with no other event between and with all its statements
succeeding. `Serial` describes the runs in which a packet is only looked at when
the handlers of all earlier packets have returned; what else may happen between
two actions of a handler are the steps of the network layer and the receipt of
more packets. Those do not touch the tables, so what such a run does to them is
what the handlers do one after the other (`Tidy`).
-/

namespace InstanceMessage

open Library Handler

/-- The actions that can be seen from outside. -/
def Action.IsDeed : Action → Bool
  | .sendData _ _ | .closesocket _ => true
  | _ => false

/-- What a handler has sent and closed, oldest first. -/
def deedsOf (history : History) : List Action :=
  ((history.map Performed.action).filter Action.IsDeed).reverse

@[simp]
theorem deedsOf_nil : deedsOf [] = [] := rfl

theorem deedsOf_cons (performed : Performed Action.Answer) (history : History) :
    deedsOf (performed :: history) =
      deedsOf history ++ if performed.action.IsDeed then [performed.action] else [] := by
  cases deed : performed.action.IsDeed <;> simp [deedsOf, deed]

def Task.packet (task : Task) : Bytes × Handle := (task.data, task.from_)

namespace State

/-- The statement succeeds: a select finds the rows of the tables, and a new account gets an id
that no other has. -/
structure Honest (state : State) (outcome : Outcome) (action : Action) : Prop where
  well : state.AnsweredWell outcome action
  answers : state.Answers action outcome

inductive Deals {Result : Type} :
    State → History → Handler Result → State → History → Result → Prop
  | ret (state : State) (history : History) (value : Result) :
      Deals state history (.ret value) state history value
  | act {state after final : State} {history later : History} {action : Action}
      {outcome : Outcome} {answer : action.Answer} {rest : action.Answer → Handler Result}
      {value : Result} (honest : state.Honest outcome action)
      (performed : state.perform action outcome = some (after, answer))
      (goesOn : Deals after (⟨action, answer⟩ :: history) (rest answer) final later value) :
      Deals state history (.act action rest) final later value

section Deals

variable {Result Other : Type} {state final : State} {history later : History} {value : Result}

theorem Deals.of_ret {returned : Result}
    (deals : Deals state history (.ret returned) final later value) :
    final = state ∧ later = history ∧ value = returned := by
  cases deals
  exact ⟨rfl, rfl, rfl⟩

theorem Deals.of_act {action : Action} {rest : action.Answer → Handler Result}
    (deals : Deals state history (.act action rest) final later value) :
    ∃ outcome after answer, state.Honest outcome action ∧
      state.perform action outcome = some (after, answer) ∧
        Deals after (⟨action, answer⟩ :: history) (rest answer) final later value := by
  cases deals with
  | act honest performed goesOn => exact ⟨_, _, _, honest, performed, goesOn⟩

theorem Deals.of_bind {prog : Handler Other} {rest : Other → Handler Result}
    (deals : Deals state history (prog >>= rest) final later value) :
    ∃ middle between returned, Deals state history prog middle between returned ∧
      Deals middle between (rest returned) final later value := by
  induction prog generalizing state history with
  | ret returned => exact ⟨state, history, returned, .ret _ _ _, deals⟩
  | act action next ih =>
      rcases deals.of_act with ⟨outcome, after, answer, honest, performed, goesOn⟩
      rcases ih answer goesOn with ⟨middle, between, returned, first, second⟩
      exact ⟨middle, between, returned, .act honest performed first, second⟩

theorem not_deals_abort {cause : Cause} {rest : Other → Handler Result} :
    ¬Deals state history (Handler.abort cause >>= rest) final later value := by
  intro deals
  rcases deals.of_act with ⟨_, _, answer, _⟩
  exact answer.elim

/-! ## Parts of a handler -/

theorem Deals.of_field {read : Option Other} {rest : Other → Handler Result}
    (deals : Deals state history (field read >>= rest) final later value) :
    ∃ found, read = some found ∧ Deals state history (rest found) final later value := by
  cases read with
  | none => exact (not_deals_abort deals).elim
  | some found => exact ⟨found, rfl, deals⟩

theorem Deals.of_sprintfS {size : ℕ} {text : Bytes} {rest : Bytes → Handler Result}
    (deals : Deals state history (sprintfS size text >>= rest) final later value) :
    Deals state history (rest text) final later value := by
  simp only [sprintfS] at deals
  split at deals
  · exact deals
  · exact (not_deals_abort deals).elim

theorem Deals.of_strcpyS {size : ℕ} {text : Bytes} {rest : Bytes → Handler Result}
    (deals : Deals state history (strcpyS size text >>= rest) final later value) :
    Deals state history (rest text) final later value := by
  simp only [strcpyS] at deals
  split at deals
  · exact deals
  · exact (not_deals_abort deals).elim

theorem Deals.of_formatS {size : ℕ} {format : Bytes} {rest : Bytes → Handler Result}
    (deals : Deals state history (formatS size format >>= rest) final later value) :
    ∃ text, formatText format = some text ∧
      Deals state history (rest text) final later value := by
  simp only [formatS] at deals
  split at deals
  · exact ⟨_, ‹_›, deals.of_sprintfS⟩
  · exact (not_deals_abort deals).elim

theorem Deals.of_toInt {text : Bytes} {rest : ℤ → Handler Result}
    (deals : Deals state history (toInt text >>= rest) final later value) :
    ∃ parsed, stoi text = some parsed ∧
      Deals state history (rest parsed) final later value := by
  simp only [toInt] at deals
  split at deals
  · exact ⟨_, ‹_›, deals⟩
  · exact (not_deals_abort deals).elim

theorem Deals.of_count {id : ℤ} {rest : Bool → Handler Result}
    (deals : Deals state history (count id >>= rest) final later value) :
    Deals state (⟨.count id, (state.mMapIdToSocket id).isSome⟩ :: history)
      (rest (state.mMapIdToSocket id).isSome) final later value := by
  rcases deals.of_act with ⟨_, _, _, _, performed, goesOn⟩
  rcases Prod.mk.inj (Option.some.inj performed) with ⟨rfl, rfl⟩
  exact goesOn

theorem Deals.of_socketOf {id : ℤ} {socket : Handle} {rest : Handle → Handler Result}
    (entered : state.mMapIdToSocket id = some socket)
    (deals : Deals state history (Handler.socketOf id >>= rest) final later value) :
    Deals state (⟨.socketOf id, socket⟩ :: history) (rest socket) final later value := by
  rcases deals.of_act with ⟨_, _, _, _, performed, goesOn⟩
  have found : state.socketOf id = (state, socket) := by
    simp only [State.socketOf, entered]
  rcases Prod.mk.inj (found.symm.trans (Option.some.inj performed)) with ⟨rfl, rfl⟩
  exact goesOn

theorem Deals.of_select {stmt : Stmt} {nColumn : ℕ}
    {rest : Option (List Bytes) → Handler Result}
    (deals : Deals state history (sqlSelect stmt nColumn >>= rest) final later value) :
    Deals state (⟨.select stmt nColumn, some (state.rows stmt).flatten⟩ :: history)
      (rest (some (state.rows stmt).flatten)) final later value := by
  rcases deals.of_act with ⟨outcome, _, _, honest, performed, goesOn⟩
  have answered : outcome = .rows (some (state.rows stmt)) := honest.well
  subst answered
  rcases Option.ite_none_right_eq_some.mp performed with ⟨_, same⟩
  rcases Prod.mk.inj (Option.some.inj same) with ⟨rfl, rfl⟩
  exact goesOn

theorem Deals.of_update {stmt : Stmt} {rest : Bool → Handler Result}
    (deals : Deals state history (sqlUpdate stmt >>= rest) final later value) :
    ∃ rowId, state.Answers (.update stmt) (.updated true rowId) ∧
      Deals (state.updated rowId stmt) (⟨.update stmt, true⟩ :: history) (rest true) final later
        value := by
  rcases deals.of_act with ⟨outcome, _, _, honest, performed, goesOn⟩
  rcases honest.well with ⟨rowId, rfl⟩
  have same : some (state.updated rowId stmt, true) = some (_, _) := performed
  rcases Prod.mk.inj (Option.some.inj same) with ⟨rfl, rfl⟩
  exact ⟨rowId, honest.answers, goesOn⟩

theorem Deals.of_sendData {packet : Bytes} {clientId : Handle} {rest : Unit → Handler Result}
    (deals : Deals state history (Handler.sendData packet clientId >>= rest) final later value) :
    ∃ taken, Deals (state.sendData packet clientId taken)
      (⟨.sendData packet clientId, ()⟩ :: history) (rest ()) final later value := by
  rcases deals.of_act with ⟨outcome, _, _, _, performed, goesOn⟩
  rcases Prod.mk.inj (Option.some.inj performed) with ⟨rfl, _⟩
  exact ⟨outcome.takes, goesOn⟩

end Deals

/-! ## What the handlers share -/

/-- The map and the tables are the same. -/
structure SameTables (state other : State) : Prop where
  mMapIdToSocket : other.mMapIdToSocket = state.mMapIdToSocket
  tUser : other.tUser = state.tUser
  tFriend : other.tFriend = state.tFriend

namespace SameTables

variable {state other after : State}

theorem refl (state : State) : SameTables state state := ⟨rfl, rfl, rfl⟩

theorem trans {third : State} (first : SameTables state other) (second : SameTables other third) :
    SameTables state third :=
  ⟨second.mMapIdToSocket.trans first.mMapIdToSocket, second.tUser.trans first.tUser,
    second.tFriend.trans first.tFriend⟩

theorem symm (same : SameTables state other) : SameTables other state :=
  ⟨same.mMapIdToSocket.symm, same.tUser.symm, same.tFriend.symm⟩

theorem rows (same : SameTables state other) (stmt : Stmt) : other.rows stmt = state.rows stmt := by
  cases stmt <;> simp only [State.rows, same.tUser, same.tFriend]

theorem honest {outcome : Outcome} {action : Action} (same : SameTables state other)
    (honest : state.Honest outcome action) : other.Honest outcome action := by
  refine ⟨?_, ?_⟩
  · have well := honest.well
    cases action with
    | select stmt nColumn =>
        have found : outcome = .rows (some (state.rows stmt)) := well
        rw [← same.rows stmt] at found
        exact found
    | update stmt => exact well
    | _ => trivial
  · have answers := honest.answers
    cases action with
    | select stmt nColumn =>
        cases outcome with
        | rows rows =>
            cases rows with
            | none => trivial
            | some rows => exact (answers : rows = state.rows stmt).trans (same.rows stmt).symm
        | internal | updated | refused => trivial
    | update stmt =>
        cases stmt with
        | insertUser name tel password =>
            cases outcome with
            | updated ok rowId =>
                cases ok with
                | false => trivial
                | true =>
                    have fresh : IsInt32 rowId ∧ ∀ row ∈ state.tUser, row.id ≠ rowId := answers
                    exact ⟨fresh.1, same.tUser ▸ fresh.2⟩
            | internal | rows | refused => trivial
        | _ => trivial
    | _ => trivial

theorem sendData (state : State) (packet : Bytes) (clientId : Handle) (taken : Bool) :
    SameTables state (state.sendData packet clientId taken) := by
  rcases state.exists_sendData_eq packet clientId taken with ⟨_, _, same⟩
  rw [same]
  exact ⟨rfl, rfl, rfl⟩

/-- An action does the same to the tables and answers the same, wherever the tables are. -/
theorem perform {action : Action} {outcome : Outcome} {answer : action.Answer}
    (same : SameTables state other)
    (performed : state.perform action outcome = some (after, answer)) :
    ∃ otherAfter, other.perform action outcome = some (otherAfter, answer) ∧
      SameTables after otherAfter := by
  rcases same with ⟨sameMap, sameUsers, sameFriends⟩
  cases action with
  | count id =>
      rcases Prod.mk.inj (Option.some.inj performed) with ⟨rfl, rfl⟩
      exact ⟨other, by simp only [State.perform, sameMap], sameMap, sameUsers, sameFriends⟩
  | socketOf id =>
      have found : state.socketOf id = (after, answer) := Option.some.inj performed
      cases entered : state.mMapIdToSocket id with
      | some socket =>
          simp only [State.socketOf, entered] at found
          rcases found with ⟨rfl, rfl⟩
          refine ⟨other, ?_, sameMap, sameUsers, sameFriends⟩
          simp only [State.perform, State.socketOf, sameMap, entered]
          rfl
      | none =>
          simp only [State.socketOf, entered] at found
          rcases found with ⟨rfl, rfl⟩
          refine ⟨{ other with mMapIdToSocket := Function.update other.mMapIdToSocket id (some 0) },
            ?_, by simp only [sameMap], sameUsers, sameFriends⟩
          simp only [State.perform, State.socketOf, sameMap, entered]
          rfl
  | setSocket id socket =>
      rcases Prod.mk.inj (Option.some.inj performed) with ⟨rfl, rfl⟩
      exact ⟨_, rfl, by simp only [sameMap], sameUsers, sameFriends⟩
  | erase id =>
      rcases Prod.mk.inj (Option.some.inj performed) with ⟨rfl, rfl⟩
      exact ⟨_, rfl, by simp only [sameMap], sameUsers, sameFriends⟩
  | closesocket socket =>
      rcases Prod.mk.inj (Option.some.inj performed) with ⟨rfl, rfl⟩
      exact ⟨_, rfl, sameMap, sameUsers, sameFriends⟩
  | sendData packet clientId =>
      rcases Prod.mk.inj (Option.some.inj performed) with ⟨rfl, rfl⟩
      have before := sendData state packet clientId outcome.takes
      have after := sendData other packet clientId outcome.takes
      refine ⟨_, rfl, ?_, ?_, ?_⟩
      · rw [after.mMapIdToSocket, before.mMapIdToSocket, sameMap]
      · rw [after.tUser, before.tUser, sameUsers]
      · rw [after.tFriend, before.tFriend, sameFriends]
  | select stmt nColumn =>
      cases outcome with
      | rows rows =>
          cases rows with
          | none =>
              rcases Prod.mk.inj (Option.some.inj performed) with ⟨rfl, rfl⟩
              exact ⟨other, rfl, sameMap, sameUsers, sameFriends⟩
          | some rows =>
              rcases Option.ite_none_right_eq_some.mp performed with ⟨shape, found⟩
              rcases Prod.mk.inj (Option.some.inj found) with ⟨rfl, rfl⟩
              exact ⟨other, if_pos shape, sameMap, sameUsers, sameFriends⟩
      | internal | updated | refused => simp [State.perform] at performed
  | update stmt =>
      cases outcome with
      | updated ok rowId =>
          cases ok <;> obtain ⟨rfl, rfl⟩ := Prod.mk.inj (Option.some.inj performed)
          · exact ⟨other, rfl, sameMap, sameUsers, sameFriends⟩
          · refine ⟨_, rfl, ?_⟩
            cases stmt with
            | insertUser | insertFriend =>
                refine ⟨sameMap, ?_, ?_⟩ <;> simp only [State.updated, sameUsers, sameFriends]
            | _ => exact ⟨sameMap, sameUsers, sameFriends⟩
      | internal | rows | refused => simp [State.perform] at performed
  | exit code => simp [State.perform] at performed
  | abort cause => simp [State.perform] at performed

theorem network {event : Event} {next : State} (network : event.Network)
    (stepped : state.step event = some next) : SameTables state next := by
  cases stepped_of_step stepped with
  | accept | list | closeSocket | eraseClient => exact ⟨rfl, rfl, rfl⟩
  | receive | perform | halt | finish => exact network.elim

end SameTables

/-! ## Runs in which one packet is handled after the other -/

/-- Only the packet that has waited longest is looked at. -/
def Serial (_ : State) : Event → Prop
  | .act index _ | .finish index => index = 0
  | _ => True

/-- All statements succeed. -/
def Lucky (state : State) : Event → Prop
  | .act index outcome => ∀ task action rest, state.tasks[index]? = some task →
      task.prog = .act action rest → state.Honest outcome action
  | _ => True

/-- The packet that comes with the event, with the handle from which it comes. -/
def arrival (state : State) : Event → List (Bytes × Handle)
  | .receive conn data => [(data, state.handleOf conn)]
  | _ => []

/-- A packet that has been handled, with the states in which its handler began and returned. -/
structure Visit where
  packet : Bytes × Handle
  before : State
  after : State
  history : History
  deals : Deals before [] (dealData packet.1 packet.2) after history ()

/-- Each visit begins with the tables as the one before has left them. -/
def Follows : State → List Visit → State → Prop
  | first, [], last => SameTables first last
  | first, visit :: visits, last => SameTables first visit.before ∧ Follows visit.after visits last

theorem Follows.append {first : State} {visits : List Visit} (visit : Visit)
    (follows : Follows first visits visit.before) :
    Follows first (visits ++ [visit]) visit.after := by
  induction visits generalizing first with
  | nil => exact ⟨follows, .refl _⟩
  | cons earlier visits ih => exact ⟨follows.1, ih follows.2⟩

/-- The handler of the packet has come this far since the tables were as they are in `quiet`. -/
structure Begun (quiet state : State) (task : Task) : Prop where
  deals : ∃ ghost, SameTables ghost state ∧ ∀ final later,
    Deals ghost (historyOf state.log task.tid) task.prog final later () →
      Deals quiet [] (dealData task.data task.from_) final later ()

/-- Nothing has been done about the packet. -/
structure Waits (state : State) (task : Task) : Prop where
  untouched : task.prog = dealData task.data task.from_
  unlogged : historyOf state.log task.tid = []

/-- No handler is in progress: nothing has been done about the packets that wait. -/
def Idle (state : State) : Prop := ∀ task ∈ state.tasks, historyOf state.log task.tid = []

/-- After these visits the tables were as they are in `quiet`, and since then at most the packet
that has waited longest has been looked at. -/
structure Tidy (first : State) (visits : List Visit) (quiet state : State) : Prop where
  coherent : state.Coherent
  follows : Follows first visits quiet
  logged : ∀ tid visit, visits[tid]? = some visit → historyOf state.log tid = visit.history
  numbered : state.tasks.map Task.tid = List.range' visits.length state.tasks.length
  received : state.nextTask = visits.length + state.tasks.length
  idle : state.Idle → SameTables quiet state
  begun : ∀ task, state.tasks.head? = some task → Begun quiet state task
  waits : ∀ task ∈ state.tasks.tail, Waits state task

theorem tidy_start (tUser : List UserRow) (tFriend : List (ℤ × ℤ)) :
    Tidy (start tUser tFriend) [] (start tUser tFriend) (start tUser tFriend) where
  coherent := coherent_start tUser tFriend
  follows := .refl _
  logged := by simp
  numbered := rfl
  received := rfl
  idle := fun _ => .refl _
  begun := by simp [start]
  waits := by simp [start]

theorem Waits.begun {quiet state : State} {task : Task} (waits : Waits state task)
    (same : SameTables quiet state) : Begun quiet state task := by
  refine ⟨quiet, same, fun final later deals => ?_⟩
  rwa [waits.unlogged, waits.untouched] at deals

section Step

variable {first quiet state next : State} {visits : List Visit} {task : Task}

theorem Begun.congr (begun : Begun quiet state task) (same : SameTables state next)
    (log : next.log = state.log) : Begun quiet next task := by
  rcases begun.deals with ⟨ghost, sameTables, goesOn⟩
  refine ⟨ghost, sameTables.trans same, ?_⟩
  rwa [log]

theorem Waits.congr (waits : Waits state task) (log : next.log = state.log) :
    Waits next task := by
  refine ⟨waits.untouched, ?_⟩
  rw [log]
  exact waits.unlogged

theorem Tidy.network {event : Event} (tidy : Tidy first visits quiet state)
    (network : event.Network) (stepped : state.step event = some next) :
    Tidy first visits quiet next ∧ next.tasks = state.tasks := by
  have same := SameTables.network network stepped
  have kept : next.tasks = state.tasks ∧ next.log = state.log ∧
      next.nextTask = state.nextTask := by
    cases stepped_of_step stepped with
    | accept | list | closeSocket | eraseClient => exact ⟨rfl, rfl, rfl⟩
    | receive | perform | halt | finish => exact network.elim
  rcases kept with ⟨tasks, log, nextTask⟩
  refine ⟨⟨tidy.coherent.step stepped, tidy.follows, ?_, ?_, ?_, ?_, ?_, ?_⟩, tasks⟩
  · rw [log]
    exact tidy.logged
  · rw [tasks]
    exact tidy.numbered
  · rw [tasks, nextTask]
    exact tidy.received
  · intro idle
    rw [Idle, tasks, log] at idle
    exact (tidy.idle idle).trans same
  · intro task head
    exact (tidy.begun task (tasks ▸ head)).congr same log
  · intro task behind
    exact (tidy.waits task (tasks ▸ behind)).congr log

theorem Tidy.receive (tidy : Tidy first visits quiet state) (conn : ConnId) (data : Bytes) :
    Tidy first visits quiet (state.receive conn data) := by
  have waits : Waits (state.receive conn data)
      ⟨state.nextTask, conn, state.handleOf conn, data, dealData data (state.handleOf conn)⟩ :=
    ⟨rfl, tidy.coherent.historyOf_nextTask⟩
  refine ⟨tidy.coherent.receive conn data, tidy.follows, tidy.logged, ?_, ?_, ?_, ?_, ?_⟩
  · simp only [State.receive, List.map_append, List.map_cons, List.map_nil, List.length_append,
      List.length_singleton]
    rw [tidy.numbered, tidy.received, List.range'_1_concat]
  · simp only [State.receive, List.length_append, List.length_singleton]
    rw [tidy.received, Nat.add_assoc]
  · intro idle
    have same := tidy.idle fun task member => idle task (List.mem_append_left _ member)
    exact ⟨same.mMapIdToSocket, same.tUser, same.tFriend⟩
  · intro task head
    cases tasks : state.tasks with
    | nil =>
        simp only [State.receive, tasks, List.nil_append, List.head?_cons,
          Option.some.injEq] at head
        subst head
        rcases tidy.idle (by simp [Idle, tasks]) with ⟨sameMap, sameUsers, sameFriends⟩
        exact waits.begun ⟨sameMap, sameUsers, sameFriends⟩
    | cons front others =>
        simp only [State.receive, tasks, List.cons_append, List.head?_cons,
          Option.some.injEq] at head
        subst head
        exact (tidy.begun front (by rw [tasks, List.head?_cons])).congr ⟨rfl, rfl, rfl⟩ rfl
  · intro task behind
    cases tasks : state.tasks with
    | nil => simp [State.receive, tasks] at behind
    | cons front others =>
        simp only [State.receive, tasks, List.cons_append, List.tail_cons] at behind
        rcases List.mem_append.mp behind with old | new
        · exact (tidy.waits task (by rwa [tasks, List.tail_cons])).congr rfl
        · rw [List.mem_singleton.mp new]
          exact waits

theorem Tidy.head_tid {others : List Task} (tidy : Tidy first visits quiet state)
    (tasks : state.tasks = task :: others) :
    task.tid = visits.length ∧
      others.map Task.tid = List.range' (visits.length + 1) others.length := by
  have numbered := tidy.numbered
  simp only [tasks, List.map_cons, List.length_cons, List.range'_succ] at numbered
  exact List.cons.inj numbered

/-- The handler does to the tables what it does to those from which it has come without
anything between. -/
theorem Tidy.perform {others : List Task} {action : Action} {outcome : Outcome}
    {rest : action.Answer → Handler Unit} {after : State} {answer : action.Answer}
    (tidy : Tidy first visits quiet state) (tasks : state.tasks = task :: others)
    (shape : task.prog = .act action rest) (honest : state.Honest outcome action)
    (performed : state.perform action outcome = some (after, answer))
    (stepped : state.step (.act 0 outcome) =
      some (after.advance 0 task action answer (rest answer))) :
    Tidy first visits quiet (after.advance 0 task action answer (rest answer)) := by
  have frame := (performs_of_perform performed).sameFrame
  rcases tidy.head_tid tasks with ⟨number, numbers⟩
  have newTasks : (after.advance 0 task action answer (rest answer)).tasks =
      { task with prog := rest answer } :: others := by
    simp only [advance, frame.tasks, tasks, List.set_cons_zero]
  refine ⟨tidy.coherent.step stepped, tidy.follows, ?_, ?_, ?_, ?_, ?_, ?_⟩
  · intro tid visit found
    have earlier : tid < visits.length := (List.getElem?_eq_some_iff.mp found).1
    rw [log_advance frame, historyOf_cons_of_ne]
    · exact tidy.logged tid visit found
    · exact number.trans_ne earlier.ne'
  · rw [newTasks, List.map_cons, List.length_cons, List.range'_succ, numbers, number]
  · have received := tidy.received
    rw [tasks, List.length_cons] at received
    rw [newTasks, List.length_cons, ← received]
    exact frame.nextTask
  · intro idle
    have silent := idle { task with prog := rest answer } (newTasks ▸ List.mem_cons_self)
    rw [log_advance frame, historyOf_cons_self] at silent
    simp at silent
  · intro acted head
    rw [newTasks, List.head?_cons, Option.some.injEq] at head
    subst head
    rcases (tidy.begun task (by rw [tasks, List.head?_cons])).deals with ⟨ghost, same, goesOn⟩
    rcases (SameTables.symm same).perform performed with ⟨ghostAfter, ghostPerformed, sameAfter⟩
    rcases SameTables.symm sameAfter with ⟨sameMap, sameUsers, sameFriends⟩
    refine ⟨ghostAfter, ⟨sameMap, sameUsers, sameFriends⟩, fun final later deals => ?_⟩
    apply goesOn final later
    rw [log_advance frame, historyOf_cons_self] at deals
    rw [shape]
    exact .act ((SameTables.symm same).honest honest) ghostPerformed deals
  · intro waiting behind
    rw [newTasks, List.tail_cons] at behind
    have waits := tidy.waits waiting (by rwa [tasks, List.tail_cons])
    refine ⟨waits.untouched, ?_⟩
    have later : waiting.tid ∈ others.map Task.tid := List.mem_map_of_mem behind
    rw [numbers, List.mem_range'_1] at later
    rw [log_advance frame, historyOf_cons_of_ne]
    · exact waits.unlogged
    · exact number.trans_ne (Nat.lt_of_succ_le later.1).ne

theorem Tidy.finish {others : List Task} (tidy : Tidy first visits quiet state)
    (tasks : state.tasks = task :: others) (returned : task.prog = .ret ()) :
    ∃ visit, visit.packet = task.packet ∧
      Tidy first (visits ++ [visit]) visit.after { state with tasks := others } := by
  rcases tidy.head_tid tasks with ⟨number, numbers⟩
  rcases (tidy.begun task (by rw [tasks, List.head?_cons])).deals with ⟨ghost, same, goesOn⟩
  have left : SameTables ghost { state with tasks := others } :=
    ⟨same.mMapIdToSocket, same.tUser, same.tFriend⟩
  let visit : Visit := ⟨task.packet, quiet, ghost, historyOf state.log task.tid,
    goesOn ghost _ (returned ▸ Deals.ret _ _ _)⟩
  have waits (waiting : Task) (behind : waiting ∈ others) :
      Waits { state with tasks := others } waiting :=
    (tidy.waits waiting (by rwa [tasks, List.tail_cons])).congr rfl
  refine ⟨visit, rfl, ?_, tidy.follows.append visit, ?_, ?_, ?_, fun _ => left, ?_, ?_⟩
  · exact tidy.coherent.sublist (tasks ▸ List.sublist_cons_self task others) state.halted
  · intro tid other found
    rcases Nat.lt_or_ge tid visits.length with old | new
    · rw [List.getElem?_append_left old] at found
      exact tidy.logged tid other found
    · rw [List.getElem?_append_right new, List.getElem?_singleton] at found
      rcases Option.ite_none_right_eq_some.mp found with ⟨last, same⟩
      have latest : task.tid = tid :=
        number.trans (Nat.le_antisymm new (Nat.le_of_sub_eq_zero last))
      rw [← latest, ← Option.some.inj same]
  · rw [List.length_append, List.length_singleton]
    exact numbers
  · have received := tidy.received
    rw [tasks, List.length_cons] at received
    rw [List.length_append, List.length_singleton, Nat.add_assoc, Nat.add_comm 1]
    exact received
  · intro waiting head
    exact (waits waiting (List.mem_of_mem_head? head)).begun left
  · exact fun waiting behind => waits waiting (List.mem_of_mem_tail behind)

/-- The packets handled so far and those that wait are the ones that have arrived, in order. -/
theorem Tidy.step {event : Event} (tidy : Tidy first visits quiet state)
    (serial : state.Serial event) (lucky : state.Lucky event)
    (stepped : state.step event = some next) (running : next.halted = false) :
    ∃ more quietNext, Tidy first (visits ++ more) quietNext next ∧
      more.map Visit.packet ++ next.tasks.map Task.packet =
        state.tasks.map Task.packet ++ state.arrival event := by
  have ofNetwork (network : event.Network) (arrival : state.arrival event = []) :
      ∃ more quietNext, Tidy first (visits ++ more) quietNext next ∧
        more.map Visit.packet ++ next.tasks.map Task.packet =
          state.tasks.map Task.packet ++ state.arrival event := by
    rcases tidy.network network stepped with ⟨tidyNext, tasks⟩
    exact ⟨[], quiet, by rwa [List.append_nil], by simp [arrival, tasks]⟩
  cases stepped_of_step stepped with
  | accept | list | closeSocket | eraseClient => exact ofNetwork trivial rfl
  | @receive conn data =>
      refine ⟨[], quiet, by simpa using tidy.receive conn data, ?_⟩
      simp [State.receive, State.arrival, Task.packet]
  | @perform index outcome task action rest after answer present shape goesOn performed =>
      have atHead : index = 0 := serial
      subst atHead
      cases tasks : state.tasks with
      | nil => simp [tasks] at present
      | cons front others =>
          have same : front = task := by simpa [tasks] using present
          subst same
          have honest := lucky front action rest present shape
          refine ⟨[], quiet, by simpa using tidy.perform tasks shape honest performed stepped, ?_⟩
          have frame := (performs_of_perform performed).sameFrame
          simp [advance, frame.tasks, tasks, State.arrival, Task.packet]
  | halt => simp [State.halt] at running
  | @finish index task present returned =>
      have atHead : index = 0 := serial
      subst atHead
      cases tasks : state.tasks with
      | nil => simp [tasks] at present
      | cons front others =>
          have same : front = task := by simpa [tasks] using present
          subst same
          rcases tidy.finish tasks returned with ⟨visit, packet, tidyNext⟩
          refine ⟨[visit], visit.after, by simpa using tidyNext, ?_⟩
          simp [packet, State.arrival]

theorem Tidy.run {events : List Event} (tidy : Tidy first visits quiet state)
    (serial : server.Meets Serial state events) (lucky : server.Meets Lucky state events)
    (reached : server.run state events = some next) (running : next.halted = false) :
    ∃ more quietNext, Tidy first (visits ++ more) quietNext next ∧
      more.map Visit.packet ++ next.tasks.map Task.packet =
        state.tasks.map Task.packet ++ server.outputs arrival state events := by
  induction events generalizing state visits quiet with
  | nil =>
      have same : state = next := Option.some.inj reached
      subst same
      exact ⟨[], quiet, by rwa [List.append_nil], by simp [Machine.outputs]⟩
  | cons event events ih =>
      rcases server.run_cons_eq_some.mp reached with ⟨middle, stepped, rest⟩
      have goesOn : middle.halted = false := by
        cases events with
        | nil => exact Option.some.inj rest ▸ running
        | cons other others =>
            rcases server.run_cons_eq_some.mp rest with ⟨_, later, _⟩
            exact not_halted_of_step later
      rcases tidy.step serial.1 lucky.1 stepped goesOn with ⟨now, quietMiddle, tidyMiddle, packets⟩
      rcases ih tidyMiddle (serial.2 middle stepped) (lucky.2 middle stepped) rest with
        ⟨more, quietNext, tidyNext, morePackets⟩
      refine ⟨now ++ more, quietNext, by rwa [← List.append_assoc], ?_⟩
      rw [List.map_append, List.append_assoc, morePackets, ← List.append_assoc, packets,
        server.outputs_cons arrival stepped, List.append_assoc]

end Step

end State

end InstanceMessage
