import InstanceMessage.Server.Coherence

/-!
# Packets handled one after the other

What a handler does when no other handler runs beside it: `serve` performs its
actions one by one, with one outcome for each, and collects its history. The
result is the one that the running server reaches when it receives the packet
while no task is in progress and lets no other event happen until the handler
has returned.
-/

namespace InstanceMessage

open Library

/-- The event belongs to the network layer, not to a packet. -/
def Event.Network : Event → Prop
  | .receive _ _ | .act _ _ | .finish _ => False
  | _ => True

instance : DecidablePred Event.Network := fun event => by
  cases event <;> simp only [Event.Network] <;> infer_instance

namespace State

/-- The state and the history, latest first, after an uninterrupted handler. -/
def serve : Handler Unit → State → History → List Outcome → Option (State × History)
  | .ret _, state, history, [] => some (state, history)
  | .act action rest, state, history, outcome :: outcomes =>
      if action.Stops then
        if outcomes.isEmpty then some (state.halt, history) else none
      else
        match state.perform action outcome with
        | some (after, answer) => serve (rest answer) after (⟨action, answer⟩ :: history) outcomes
        | none => none
  | _, _, _, _ => none

/-- What the database may answer: a select that succeeds finds the rows of the tables, and an
account gets an id that no other account has. -/
def Answers (state : State) : Action → Outcome → Prop
  | .select stmt _, .rows (some rows) => rows = state.rows stmt
  | .update (.insertUser _ _ _), .updated true rowId =>
      IsInt32 rowId ∧ ∀ row ∈ state.tUser, row.id ≠ rowId
  | _, _ => True

def Fair : Handler Unit → State → List Outcome → Prop
  | .act action rest, state, outcome :: outcomes =>
      state.Answers action outcome ∧ ∀ after answer,
        state.perform action outcome = some (after, answer) → Fair (rest answer) after outcomes
  | _, _, _ => True

def answers (state : State) : Action → Outcome → Bool
  | .select stmt _, .rows (some rows) => decide (rows = state.rows stmt)
  | .update (.insertUser _ _ _), .updated true rowId =>
      decide (IsInt32 rowId) && state.tUser.all (fun row => row.id ≠ rowId)
  | _, _ => true

theorem answers_eq_true_iff (state : State) (action : Action) (outcome : Outcome) :
    state.answers action outcome = true ↔ state.Answers action outcome := by
  unfold answers Answers
  split <;> simp

instance (state : State) (action : Action) (outcome : Outcome) :
    Decidable (state.Answers action outcome) :=
  decidable_of_iff _ (answers_eq_true_iff state action outcome)

def isFair : Handler Unit → State → List Outcome → Bool
  | .act action rest, state, outcome :: outcomes =>
      decide (state.Answers action outcome) &&
        match state.perform action outcome with
        | some (after, answer) => isFair (rest answer) after outcomes
        | none => true
  | _, _, _ => true

theorem fair_of_isFair {prog : Handler Unit} {state : State} {outcomes : List Outcome}
    (passed : isFair prog state outcomes = true) : Fair prog state outcomes := by
  induction prog generalizing state outcomes with
  | ret value => trivial
  | act action rest ih =>
      cases outcomes with
      | nil => trivial
      | cons outcome outcomes =>
          simp only [isFair, Bool.and_eq_true] at passed
          rcases passed with ⟨answers, goesOn⟩
          refine ⟨of_decide_eq_true answers, fun after answer performed => ih answer ?_⟩
          simpa only [performed] using goesOn

section Serve

variable {state after : State} {action : Action} {rest : action.Answer → Handler Unit}
  {prog : Handler Unit} {history later : History} {outcomes : List Outcome}
  {result : State × History}

/-- An uninterrupted handler ends the process, or performs its action and goes on. -/
theorem serve_act (served : serve (.act action rest) state history outcomes = some result) :
    (action.Stops ∧ (∃ outcome, outcomes = [outcome]) ∧ result = (state.halt, history)) ∨
      ∃ outcome remaining after answer, outcomes = outcome :: remaining ∧ ¬action.Stops ∧
        state.perform action outcome = some (after, answer) ∧
          serve (rest answer) after (⟨action, answer⟩ :: history) remaining = some result := by
  cases outcomes with
  | nil => simp [serve] at served
  | cons outcome outcomes =>
      simp only [serve] at served
      split at served
      · rename_i stops
        rcases Option.ite_none_right_eq_some.mp served with ⟨last, same⟩
        rw [List.isEmpty_iff.mp last]
        exact Or.inl ⟨stops, ⟨outcome, rfl⟩, (Option.some.inj same).symm⟩
      · rename_i goesOn
        split at served
        · rename_i after answer performed
          exact Or.inr ⟨outcome, outcomes, after, answer, rfl, goesOn, performed, served⟩
        · simp at served

theorem serve_ret (served : serve (.ret ()) state history outcomes = some result) :
    outcomes = [] ∧ result = (state, history) := by
  cases outcomes with
  | nil => exact ⟨rfl, (Option.some.inj served).symm⟩
  | cons => simp [serve] at served

/-- A handler that only performs actions of a kind adds only such actions to its history. -/
theorem serve_only {allowed : Action → Prop} (only : prog.Only allowed)
    (served : serve prog state history outcomes = some (after, later)) :
    ∃ newer, later = newer ++ history ∧ ∀ performed ∈ newer, allowed performed.action := by
  induction prog generalizing state history outcomes with
  | ret value =>
      have same := (serve_ret served).2
      exact ⟨[], congrArg Prod.snd same, by simp⟩
  | act action rest ih =>
      rcases serve_act served with
        ⟨_, _, same⟩ | ⟨outcome, remaining, middle, answer, _, _, _, served⟩
      · exact ⟨[], congrArg Prod.snd same, by simp⟩
      · rcases ih answer (only.2 answer) served with ⟨newer, split, all⟩
        refine ⟨newer ++ [⟨action, answer⟩], by simp [split], ?_⟩
        intro performed member
        rcases List.mem_append.mp member with new | here
        · exact all performed new
        · rw [List.mem_singleton.mp here]
          exact only.1

/-- Without inserts of accounts the account table stays as it is. -/
theorem tUser_of_serve
    (only : prog.Only fun action =>
      ∀ name tel password, action ≠ .update (.insertUser name tel password))
    (served : serve prog state history outcomes = some (after, later)) :
    after.tUser = state.tUser := by
  induction prog generalizing state history outcomes with
  | ret value => exact congrArg (fun result => result.1.tUser) (serve_ret served).2
  | act action rest ih =>
      rcases serve_act served with ⟨_, _, same⟩ | ⟨outcome, remaining, middle, answer, _, _,
        performed, served⟩
      · exact congrArg (fun result => result.1.tUser) same
      · rcases (performs_of_perform performed).tUser with ⟨same, _⟩ | ⟨name, tel, password, _,
          insert, _⟩
        · exact (ih answer (only.2 answer) served).trans same
        · exact absurd (congrArg Performed.action insert) (only.1 name tel password)

theorem tUser_of_network {event : Event} (network : event.Network)
    (stepped : state.step event = some after) : after.tUser = state.tUser := by
  cases stepped_of_step stepped with
  | accept | list | closeSocket | eraseClient => rfl
  | receive | perform | halt | finish => exact network.elim

end Serve

/-! ## One action of an uninterrupted handler -/

section Actions

variable {state : State} {history : History} {outcomes : List Outcome} {result : State × History}

theorem serve_select {stmt : Stmt} {nColumn : ℕ}
    {rest : (Action.select stmt nColumn).Answer → Handler Unit}
    (served : serve (.act (.select stmt nColumn) rest) state history outcomes = some result)
    (fair : Fair (.act (.select stmt nColumn) rest) state outcomes) :
    ∃ (found : Option (List Bytes)) (remaining : List Outcome),
      (found = none ∨ found = some (state.rows stmt).flatten) ∧
        Fair (rest found) state remaining ∧
          serve (rest found) state (⟨.select stmt nColumn, found⟩ :: history) remaining =
            some result := by
  rcases serve_act served with ⟨stops, _⟩ | ⟨outcome, remaining, after, answer, rfl, _, performed,
    served⟩
  · exact stops.elim
  · have goesOn := fair.2 after answer performed
    cases outcome with
    | rows rows =>
        cases rows with
        | none =>
            rcases Prod.mk.inj (Option.some.inj performed) with ⟨rfl, rfl⟩
            exact ⟨none, remaining, Or.inl rfl, goesOn, served⟩
        | some rows =>
            have same : rows = state.rows stmt := fair.1
            rcases Option.ite_none_right_eq_some.mp performed with ⟨_, found⟩
            rcases Prod.mk.inj (Option.some.inj found) with ⟨rfl, rfl⟩
            exact ⟨some rows.flatten, remaining, Or.inr (by rw [same]), goesOn, served⟩
    | internal | updated | refused => simp [perform] at performed

theorem serve_insertUser {name tel password : Bytes}
    {rest : (Action.update (.insertUser name tel password)).Answer → Handler Unit}
    (served : serve (.act (.update (.insertUser name tel password)) rest) state history outcomes =
      some result)
    (fair : Fair (.act (.update (.insertUser name tel password)) rest) state outcomes) :
    ∃ (ok : Bool) (after : State) (remaining : List Outcome),
      (ok = false ∧ after = state ∨ ok = true ∧ ∃ rowId, IsInt32 rowId ∧
        after = state.updated rowId (.insertUser name tel password)) ∧
        Fair (rest ok) after remaining ∧
          serve (rest ok) after (⟨.update (.insertUser name tel password), ok⟩ :: history)
            remaining = some result := by
  rcases serve_act served with ⟨stops, _⟩ | ⟨outcome, remaining, after, answer, rfl, _, performed,
    served⟩
  · exact stops.elim
  · have goesOn := fair.2 after answer performed
    cases outcome with
    | updated ok rowId =>
        cases ok with
        | false =>
            rcases Prod.mk.inj (Option.some.inj performed) with ⟨rfl, rfl⟩
            exact ⟨false, _, remaining, Or.inl ⟨rfl, rfl⟩, goesOn, served⟩
        | true =>
            have range : IsInt32 rowId := fair.1.1
            rcases Prod.mk.inj (Option.some.inj performed) with ⟨rfl, rfl⟩
            exact ⟨true, _, remaining, Or.inr ⟨rfl, rowId, range, rfl⟩, goesOn, served⟩
    | internal | rows | refused => simp [perform] at performed

theorem serve_sendData {packet : Bytes} {clientId : Handle}
    {rest : (Action.sendData packet clientId).Answer → Handler Unit}
    (served : serve (.act (.sendData packet clientId) rest) state history outcomes = some result) :
    ∃ taken remaining, serve (rest ()) (state.sendData packet clientId taken)
      (⟨.sendData packet clientId, ()⟩ :: history) remaining = some result := by
  rcases serve_act served with ⟨stops, _⟩ | ⟨outcome, remaining, after, answer, rfl, _, performed,
    served⟩
  · exact stops.elim
  · rcases Prod.mk.inj (Option.some.inj performed) with ⟨rfl, rfl⟩
    exact ⟨outcome.takes, remaining, served⟩

end Actions

/-! ## The run of the server -/

/-- The state with other tasks and another history. -/
def during (state : State) (tasks : List Task) (nextTask : TaskId) (log : List Entry) : State :=
  { state with tasks := tasks, nextTask := nextTask, log := log }

section Run

variable {state after : State} {tasks : List Task} {nextTask : TaskId} {log : List Entry}

theorem socketOf_during (id : ℤ) : (state.during tasks nextTask log).socketOf id =
    ((state.socketOf id).1.during tasks nextTask log, (state.socketOf id).2) := by
  cases found : state.mMapIdToSocket id <;> simp only [socketOf, during, found]

theorem sendData_during (data : Bytes) (clientId : Handle) (taken : Bool) :
    (state.during tasks nextTask log).sendData data clientId taken =
      (state.sendData data clientId taken).during tasks nextTask log := by
  cases listed : state.mClients clientId with
  | none => simp only [sendData, during, listed]
  | some socket =>
      cases open_ : state.sockets socket <;> simp only [sendData, during, listed, open_]

theorem updated_during (rowId : ℤ) (stmt : Stmt) :
    (state.during tasks nextTask log).updated rowId stmt =
      (state.updated rowId stmt).during tasks nextTask log := by
  cases stmt <;> rfl

/-- The actions of the handlers neither see nor change the bookkeeping. -/
theorem perform_during {action : Action} {outcome : Outcome} {answer : action.Answer}
    (performed : state.perform action outcome = some (after, answer)) :
    (state.during tasks nextTask log).perform action outcome =
      some (after.during tasks nextTask log, answer) := by
  cases action with
  | count | setSocket | erase | closesocket =>
      rcases Prod.mk.inj (Option.some.inj performed) with ⟨rfl, rfl⟩
      rfl
  | socketOf id =>
      rcases Prod.mk.inj (Option.some.inj performed) with ⟨rfl, rfl⟩
      simp only [perform, socketOf_during]
      rfl
  | sendData data clientId =>
      rcases Prod.mk.inj (Option.some.inj performed) with ⟨rfl, rfl⟩
      simp only [perform, sendData_during]
  | select stmt nColumn =>
      cases outcome with
      | rows rows =>
          cases rows with
          | none =>
              rcases Prod.mk.inj (Option.some.inj performed) with ⟨rfl, rfl⟩
              rfl
          | some rows =>
              rcases Option.ite_none_right_eq_some.mp performed with ⟨shape, same⟩
              rcases Prod.mk.inj (Option.some.inj same) with ⟨rfl, rfl⟩
              simp only [perform, shape, if_true]
      | internal | updated | refused => simp [perform] at performed
  | update stmt =>
      cases outcome with
      | updated ok rowId =>
          cases ok <;> obtain ⟨rfl, rfl⟩ := Prod.mk.inj (Option.some.inj performed)
          · rfl
          · simp only [perform, updated_during]
      | internal | rows | refused => simp [perform] at performed
  | exit code => simp [perform] at performed
  | abort cause => simp [perform] at performed

theorem step_during {task : Task} {action : Action} {rest : action.Answer → Handler Unit}
    {outcome : Outcome} {answer : action.Answer} (running : state.halted = false)
    (goesOn : ¬action.Stops) (performed : state.perform action outcome = some (after, answer)) :
    (state.during [{ task with prog := .act action rest }] nextTask log).step (.act 0 outcome) =
      some (after.during [{ task with prog := rest answer }] nextTask
        (⟨task.tid, task.conn, task.from_, task.data, ⟨action, answer⟩⟩ :: log)) := by
  have acts : (state.during [{ task with prog := .act action rest }] nextTask log).perform action
      outcome = some (_, answer) := perform_during performed
  have frame := (performs_of_perform performed).sameFrame
  have going : (state.during [{ task with prog := .act action rest }] nextTask log).halted =
      false := running
  simp only [step, going, Bool.false_eq_true, if_false, act]
  simp only [during, List.getElem?_cons_zero, goesOn, if_false] at acts ⊢
  simp only [acts]
  rfl

theorem step_halt_during {task : Task} {action : Action} {rest : action.Answer → Handler Unit}
    {outcome : Outcome} (running : state.halted = false) (stops : action.Stops) :
    (state.during [{ task with prog := .act action rest }] nextTask log).step (.act 0 outcome) =
      some (state.halt.during [] nextTask log) := by
  have going : (state.during [{ task with prog := .act action rest }] nextTask log).halted =
      false := running
  simp only [step, going, Bool.false_eq_true, if_false, act]
  simp only [during, List.getElem?_cons_zero, stops, if_true]
  rfl

/-- The actions of an uninterrupted handler are steps of the server, and its history is the
history of its packet. -/
theorem run_of_serve {task : Task} {prog : Handler Unit} {history later : History}
    {outcomes : List Outcome} (running : state.halted = false)
    (served : serve prog state history outcomes = some (after, later))
    (own : historyOf log task.tid = history) : ∃ log',
      historyOf log' task.tid = later ∧
        (∀ tid, tid ≠ task.tid → historyOf log' tid = historyOf log tid) ∧
        server.run (state.during [{ task with prog := prog }] nextTask log)
            (outcomes.map (Event.act 0)) =
          some (after.during (if after.halted then [] else [{ task with prog := .ret () }])
            nextTask log') := by
  induction prog generalizing state history log outcomes with
  | ret value =>
      rcases serve_ret served with ⟨rfl, same⟩
      rcases Prod.mk.inj same with ⟨rfl, rfl⟩
      refine ⟨log, own, fun _ _ => rfl, ?_⟩
      simp only [running, Bool.false_eq_true, if_false]
      rfl
  | act action rest ih =>
      rcases serve_act served with ⟨stops, ⟨outcome, rfl⟩, same⟩ |
        ⟨outcome, remaining, middle, answer, rfl, goesOn, performed, served⟩
      · rcases Prod.mk.inj same with ⟨rfl, rfl⟩
        exact ⟨log, own, fun _ _ => rfl,
          server.run_cons_eq_some.mpr ⟨_, step_halt_during running stops, rfl⟩⟩
      · have frame := (performs_of_perform performed).sameFrame
        have goes : middle.halted = false := frame.halted.trans running
        have grown : historyOf (⟨task.tid, task.conn, task.from_, task.data, ⟨action, answer⟩⟩ ::
            log) task.tid = ⟨action, answer⟩ :: history := by
          rw [← own]
          exact historyOf_cons_self
        rcases ih answer goes served grown with ⟨log', whole, others, reached⟩
        refine ⟨log', whole, fun tid different => ?_, ?_⟩
        · exact (others tid different).trans (historyOf_cons_of_ne (Ne.symm different))
        exact server.run_cons_eq_some.mpr ⟨_, step_during running goesOn performed, reached⟩

theorem step_network_during {event : Event} (network : event.Network)
    (stepped : state.step event = some after) :
    (state.during [] nextTask log).step event = some (after.during [] nextTask log) := by
  have running := not_halted_of_step stepped
  have going : (state.during [] nextTask log).halted = false := running
  simp only [step, running, going, Bool.false_eq_true, if_false] at stepped ⊢
  cases event with
  | receive | act | finish => exact network.elim
  | accept | list | closeSocket | eraseClient =>
      rcases Option.ite_none_right_eq_some.mp stepped with ⟨guard, same⟩
      rcases Option.some.inj same with rfl
      exact if_pos guard

/-- The whole visit: the packet is received, handled, and its task removed. -/
theorem run_visit {conn : ConnId} {data : Bytes} {outcomes : List Outcome} {history : History}
    (running : state.halted = false) (receiving : state.context conn = .receiving)
    (nonempty : data ≠ []) (bounded : data.length ≤ 10 * 1024 * 1024)
    (served : serve (dealData data (state.handleOf conn)) state [] outcomes = some (after, history))
    (new : historyOf log nextTask = []) : ∃ events log',
      historyOf log' nextTask = history ∧
        (∀ tid, tid ≠ nextTask → historyOf log' tid = historyOf log tid) ∧
        server.run (state.during [] nextTask log) events =
          some (after.during [] (nextTask + 1) log') := by
  have received : (state.during [] nextTask log).step (.receive conn data) =
      some (state.during [⟨nextTask, conn, state.handleOf conn, data,
        dealData data (state.handleOf conn)⟩] (nextTask + 1) log) := by
    have going : (state.during [] nextTask log).halted = false := running
    simp only [step, going, Bool.false_eq_true, if_false]
    exact if_pos ⟨receiving, nonempty, bounded⟩
  let task : Task := ⟨nextTask, conn, state.handleOf conn, data, .ret ()⟩
  have own : historyOf log task.tid = [] := new
  rcases run_of_serve running served own with ⟨log', whole, others, reached⟩
  cases halted : after.halted with
  | true =>
      refine ⟨.receive conn data :: outcomes.map (Event.act 0), log', whole, others, ?_⟩
      rw [halted] at reached
      exact server.run_cons_eq_some.mpr ⟨_, received, reached⟩
  | false =>
      refine ⟨.receive conn data :: (outcomes.map (Event.act 0) ++ [.finish 0]), log', whole,
        others, ?_⟩
      rw [halted] at reached
      apply server.run_cons_eq_some.mpr
      refine ⟨_, received, server.run_append_eq_some.mpr ⟨_, reached, ?_⟩⟩
      apply server.run_cons_eq_some.mpr
      refine ⟨_, ?_, rfl⟩
      have going (tasks : List Task) : (after.during tasks (nextTask + 1) log').halted = false :=
        halted
      have finished : (after.during [⟨nextTask, conn, state.handleOf conn, data, .ret ()⟩]
          (nextTask + 1) log').returned 0 = true := rfl
      exact (if_neg (by simp [going])).trans (if_pos finished)

end Run

end State

/-! ## A server that handles one packet after the other -/

/-- A packet that has been handled, with what its handler did and the accounts it added. -/
structure Exchange where
  data : Bytes
  from_ : Handle
  history : History
  added : List UserRow

/-- A server that handles one packet after the other, and what it has handled, latest first. -/
structure Desk where
  state : State
  past : List Exchange := []

inductive Turn
  | network (event : Event)
  | request (conn : ConnId) (data : Bytes) (outcomes : List Outcome)

namespace Desk

def request (desk : Desk) (conn : ConnId) (data : Bytes) (outcomes : List Outcome) :
    Option Desk :=
  let from_ := desk.state.handleOf conn
  match State.serve (dealData data from_) desk.state [] outcomes with
  | some (after, history) =>
      some ⟨after, ⟨data, from_, history, after.tUser.drop desk.state.tUser.length⟩ :: desk.past⟩
  | none => none

def step (desk : Desk) : Turn → Option Desk
  | .network event =>
      if event.Network then
        match desk.state.step event with
        | some after => some ⟨after, desk.past⟩
        | none => none
      else none
  | .request conn data outcomes =>
      if desk.state.halted = false ∧ desk.state.context conn = .receiving ∧ data ≠ [] ∧
          data.length ≤ 10 * 1024 * 1024 then
        desk.request conn data outcomes
      else none

def machine : Machine Desk Turn := ⟨step⟩

/-- The steps of the desk, with their guards and effects. -/
inductive Stepped (desk : Desk) : Turn → Desk → Prop
  | network {event : Event} {after : State} (network : event.Network)
      (stepped : desk.state.step event = some after) :
      Stepped desk (.network event) ⟨after, desk.past⟩
  | request {conn : ConnId} {data : Bytes} {outcomes : List Outcome} {after : State}
      {history : History} (running : desk.state.halted = false)
      (receiving : desk.state.context conn = .receiving) (nonempty : data ≠ [])
      (bounded : data.length ≤ 10 * 1024 * 1024)
      (served : State.serve (dealData data (desk.state.handleOf conn)) desk.state [] outcomes =
        some (after, history)) :
      Stepped desk (.request conn data outcomes) ⟨after, ⟨data, desk.state.handleOf conn, history,
        after.tUser.drop desk.state.tUser.length⟩ :: desk.past⟩

theorem stepped_of_step {desk next : Desk} {turn : Turn} (stepped : desk.step turn = some next) :
    desk.Stepped turn next := by
  cases turn with
  | network event =>
      rcases Option.ite_none_right_eq_some.mp stepped with ⟨network, same⟩
      split at same
      · rename_i after moved
        exact Option.some.inj same ▸ .network network moved
      · simp at same
  | request conn data outcomes =>
      rcases Option.ite_none_right_eq_some.mp stepped with
        ⟨⟨running, receiving, nonempty, bounded⟩, same⟩
      simp only [request] at same
      split at same
      · rename_i after history served
        exact Option.some.inj same ▸ .request running receiving nonempty bounded served
      · simp at same

/-- The server has reached the state of the desk, with the same histories. -/
def Simulated (start : State) (desk : Desk) : Prop :=
  ∃ events nextTask log, server.run start events = some (desk.state.during [] nextTask log) ∧
    ∀ exchange ∈ desk.past, ∃ tid < nextTask, historyOf log tid = exchange.history

/-- Whatever the desk does, the running server can do. -/
theorem run_server {tUser : List UserRow} {tFriend : List (ℤ × ℤ)} {turns : List Turn}
    {final : Desk} (reached : machine.run ⟨State.start tUser tFriend, []⟩ turns = some final) :
    final.Simulated (State.start tUser tFriend) := by
  refine machine.run_invariant_of_step (Simulated _) ?_ ⟨[], 0, [], rfl, by simp⟩ reached
  intro desk turn next simulated stepped
  rcases simulated with ⟨events, nextTask, log, led, histories⟩
  cases stepped_of_step stepped with
  | @network event after network moved =>
      refine ⟨events ++ [event], nextTask, log, ?_, histories⟩
      apply server.run_append_eq_some.mpr
      refine ⟨_, led, server.run_cons_eq_some.mpr ⟨_, ?_, rfl⟩⟩
      exact State.step_network_during network moved
  | @request conn data outcomes after history running receiving nonempty bounded served =>
      have coherent : (desk.state.during [] nextTask log).Coherent :=
        server.run_invariant_of_step State.Coherent
          (fun coherent stepped => State.Coherent.step coherent stepped)
          (State.coherent_start tUser tFriend) led
      rcases State.run_visit running receiving nonempty bounded served
        coherent.historyOf_nextTask with ⟨visit, log', whole, others, visited⟩
      refine ⟨events ++ visit, nextTask + 1, log', ?_, ?_⟩
      · exact server.run_append_eq_some.mpr ⟨_, led, visited⟩
      · intro exchange member
        rcases List.mem_cons.mp member with rfl | earlier
        · exact ⟨nextTask, Nat.lt_succ_self _, whole⟩
        · rcases histories exchange earlier with ⟨tid, older, same⟩
          exact ⟨tid, Nat.lt_succ_of_lt older, (others tid older.ne).trans same⟩

end Desk

end InstanceMessage
