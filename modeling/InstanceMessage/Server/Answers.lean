import InstanceMessage.Server.Coherence
import InstanceMessage.Server.Requests

/-!
# One answer to each request

A handler of a registration, a login, a search for a friend or a chat message
calls `sendData` with one reply for the sender, or, for the last two, passes
the request on to the friend. It returns without either only when a statement
fails that the answer depends on. After a successful login the handler goes on
and tells users about each other, which answers no request.

Where a packet goes is decided when `sendData` is called: `Call` keeps the
connection that the client id stands for at that moment, and whether `WSASend`
takes the packet. Calls are counted, as the handlers do not learn of a refusal;
what has been queued are the packets of the calls that were taken.
-/

namespace InstanceMessage

open Library

/-! ## What a handler has sent -/

/-- The calls of `sendData` in a history, latest first. -/
def sendsOf (history : History) : List (Bytes × Handle) :=
  history.filterMap fun performed =>
    match performed.action with
    | .sendData packet clientId => some (packet, clientId)
    | _ => none

/-- The statements whose failure leaves a request without an answer. -/
def Stmt.Decides : Stmt → Prop
  | .telByTel _ | .nameByName _ | .insertUser _ _ _ | .passIdByTel _ | .idByName _ => True
  | _ => False

/-- The action is a statement that an answer depends on, and it has failed. -/
def Fails : Performed Action.Answer → Prop
  | ⟨.select stmt _, (found : Option (List Bytes))⟩ => stmt.Decides ∧ found = none
  | ⟨.update stmt, (ok : Bool)⟩ => stmt.Decides ∧ ok = false
  | _ => False

def DecidingFails (history : History) : Prop := ∃ performed ∈ history, Fails performed

/-- The type of the reply to a request. -/
def replyType (data : Bytes) : Option ℤ :=
  if packetType data = some defRegisterRq then some defRegisterRs
  else if packetType data = some defLoginRq then some defLoginRs
  else if packetType data = some defAddFriendRq then some defAddFriendRs
  else if packetType data = some defChatRq then some defChatRs
  else none

/-- What a handler that has returned has sent. -/
inductive AnsweredOnce (data : Bytes) (from_ : Handle) (history : History) : Prop
  | failed (fails : DecidingFails history) (silent : sendsOf history = [])
  | replied {reply : Bytes} {later : List (Bytes × Handle)} (decided : ¬DecidingFails history)
      (matching : packetType reply = replyType data)
      (sends : sendsOf history = later ++ [(reply, from_)])
      (tells : ∀ sent ∈ later, IsUserInfo sent.1)
  | forwarded {id : ℤ} {socket : Handle} (decided : ¬DecidingFails history)
      (addressee : PassedTo data history id) (looked : LookedUp history id socket)
      (sends : sendsOf history = [(data, socket)])

section Handlers

variable {data : Bytes} {from_ : Handle}

/-- The law that allows every action. -/
def anyAction (_history : History) (_action : Action) : Prop := True

/-- The handler sends one packet at its end, after statements that have not failed. -/
theorem answered_of_reply {history : History} {packet : Bytes}
    (matching : packetType packet = replyType data) (silent : sendsOf history = [])
    (decided : ¬DecidingFails history) :
    (Handler.sendData packet from_).Obeys anyAction
      (fun later _ => AnsweredOnce data from_ later) history := by
  refine ⟨trivial, fun _ => ?_⟩
  apply AnsweredOnce.replied ?_ matching (show sendsOf _ = [] ++ [(packet, from_)] from ?_)
    (by simp)
  · simpa [DecidingFails, Fails] using decided
  · simpa [sendsOf] using silent

theorem dealRegisterRq_answers (type : packetType data = some defRegisterRq) :
    (dealRegisterRq data from_).Obeys anyAction (fun later _ => AnsweredOnce data from_ later)
      [] := by
  have matching (rs : StruRegisterRs) : packetType rs.bytes = replyType data := by
    simp only [packetType_registerRs, replyType, type, if_true]
  refine Program.obeys_bind (obeys_field trivial fun tel readTel => ?_)
  refine Program.obeys_bind (obeys_sprintfS trivial ?_)
  apply Program.obeys_perform_bind trivial
  intro (found : Option (List Bytes))
  match found with
  | none => exact .failed ⟨_, List.mem_cons_self, trivial, rfl⟩ rfl
  | some (_ :: _) => exact answered_of_reply (matching _) rfl (by simp [DecidingFails, Fails])
  | some [] =>
      refine Program.obeys_bind (obeys_field trivial fun name readName => ?_)
      refine Program.obeys_bind (obeys_sprintfS trivial ?_)
      apply Program.obeys_perform_bind trivial
      intro (taken : Option (List Bytes))
      match taken with
      | none => exact .failed ⟨_, List.mem_cons_self, trivial, rfl⟩ rfl
      | some (_ :: _) => exact answered_of_reply (matching _) rfl (by simp [DecidingFails, Fails])
      | some [] =>
          refine Program.obeys_bind (obeys_field trivial fun password _ => ?_)
          refine Program.obeys_bind (obeys_sprintfS trivial ?_)
          apply Program.obeys_perform_bind trivial
          intro (inserted : Bool)
          cases inserted with
          | false => exact .failed ⟨_, List.mem_cons_self, trivial, rfl⟩ rfl
          | true => exact answered_of_reply (matching _) rfl (by simp [DecidingFails, Fails])

theorem Informs.not_fails {tells : Bytes → Prop} {performed : Performed Action.Answer}
    (informs : Informs tells performed.action) : ¬Fails performed := by
  rcases performed with ⟨action, answer⟩
  cases action with
  | select stmt nColumn =>
      cases stmt with
      | userById | friendIds => exact fun fails => fails.1
      | _ => exact informs.elim
  | update stmt => exact informs.elim
  | _ => exact id

/-- After its reply a login tells users about each other, and sends nothing else. -/
theorem getUserInfoAndFriendInfo_answers {reply : Bytes} {answered : History} (id : ℤ)
    (matching : packetType reply = replyType data) (sends : sendsOf answered = [(reply, from_)])
    (decided : ¬DecidingFails answered) :
    (getUserInfoAndFriendInfo id).Obeys anyAction
      (fun later _ => AnsweredOnce data from_ later) answered := by
  refine (informs_getUserInfoAndFriendInfo id).obeys (fun history =>
    ¬DecidingFails history ∧ ∃ later, sendsOf history = later ++ [(reply, from_)] ∧
      ∀ sent ∈ later, IsUserInfo sent.1) (fun _ _ _ _ => trivial) ?_ ?_
      ⟨decided, [], sends, by simp⟩
  · rintro history performed ⟨before, later, split, tells⟩ informs
    refine ⟨?_, ?_⟩
    · rintro ⟨failed, member, fails⟩
      rcases List.mem_cons.mp member with rfl | earlier
      · exact informs.not_fails fails
      · exact before ⟨failed, earlier, fails⟩
    · rcases performed with ⟨action, answer⟩
      cases action with
      | sendData packet clientId =>
          refine ⟨(packet, clientId) :: later, by simp [sendsOf, ← split], ?_⟩
          intro sent member
          rcases List.mem_cons.mp member with rfl | earlier
          · exact informs
          · exact tells sent earlier
      | _ => exact ⟨later, by simpa [sendsOf] using split, tells⟩
  · rintro history _ ⟨before, later, split, tells⟩
    exact .replied before matching split tells

theorem dealLoginRq_answers (type : packetType data = some defLoginRq) :
    (dealLoginRq data from_).Obeys anyAction (fun later _ => AnsweredOnce data from_ later)
      [] := by
  have matching (rs : StruLoginRs) : packetType rs.bytes = replyType data := by
    have other : (defLoginRq : ℤ) ≠ defRegisterRq := by decide
    simp [packetType_loginRs, replyType, type, other]
  refine Program.obeys_bind (obeys_field trivial fun tel readTel => ?_)
  refine Program.obeys_bind (obeys_field trivial fun rqPassword readPassword => ?_)
  refine Program.obeys_bind (obeys_sprintfS trivial ?_)
  apply Program.obeys_perform_bind trivial
  intro (found : Option (List Bytes))
  match found with
  | none => exact .failed ⟨_, List.mem_cons_self, trivial, rfl⟩ rfl
  | some [] => exact answered_of_reply (matching _) rfl (by simp [DecidingFails, Fails])
  | some [_] => exact obeys_abort trivial
  | some (password :: idText :: rest) =>
      refine Program.obeys_bind (obeys_toInt trivial fun id parsed => ?_)
      split
      · refine ⟨trivial, fun _ => ⟨trivial, fun _ => ?_⟩⟩
        exact getUserInfoAndFriendInfo_answers id (matching _) rfl
          (by simp [DecidingFails, Fails])
      · exact answered_of_reply (matching _) rfl (by simp [DecidingFails, Fails])

theorem dealChatRq_answers (type : packetType data = some defChatRq) :
    (dealChatRq data from_).Obeys anyAction (fun later _ => AnsweredOnce data from_ later) [] := by
  have matching (rs : StruChatRs) : packetType rs.bytes = replyType data := by
    rw [packetType_chatRs, replyType, type]
    rfl
  refine Program.obeys_bind (obeys_field trivial fun friendId readFriendId => ?_)
  apply Program.obeys_perform_bind trivial
  intro (online : Bool)
  cases online with
  | false => exact answered_of_reply (matching _) rfl (by simp [DecidingFails, Fails])
  | true =>
      apply Program.obeys_perform_bind trivial
      intro (socket : Handle)
      refine ⟨trivial, fun _ => .forwarded ?_ (.chatRq type readFriendId) ?_ rfl⟩
      · simp [DecidingFails, Fails]
      · exact List.mem_cons_of_mem _ List.mem_cons_self

theorem dealAddFriendRq_answers (type : packetType data = some defAddFriendRq) :
    (dealAddFriendRq data from_).Obeys anyAction (fun later _ => AnsweredOnce data from_ later)
      [] := by
  have matching (rs : StruAddFriendRs) : packetType rs.bytes = replyType data := by
    rw [packetType_addFriendRs, replyType, type]
    rfl
  refine Program.obeys_bind (obeys_field trivial fun friendName readFriendName => ?_)
  refine Program.obeys_bind (obeys_sprintfS trivial ?_)
  apply Program.obeys_perform_bind trivial
  intro (found : Option (List Bytes))
  match found with
  | none => exact .failed ⟨_, List.mem_cons_self, trivial, rfl⟩ rfl
  | some [] =>
      refine Program.obeys_bind (obeys_strcpyS trivial ?_)
      exact answered_of_reply (matching _) rfl (by simp [DecidingFails, Fails])
  | some (idText :: texts) =>
      refine Program.obeys_bind (obeys_toInt trivial fun friendId parsed => ?_)
      apply Program.obeys_perform_bind trivial
      intro (online : Bool)
      cases online with
      | false =>
          refine Program.obeys_bind (obeys_formatS trivial fun name => ?_)
          exact answered_of_reply (matching _) rfl (by simp [DecidingFails, Fails])
      | true =>
          apply Program.obeys_perform_bind trivial
          intro (socket : Handle)
          have found : PassedTo data [⟨.select (.idByName friendName) 1, some (idText :: texts)⟩]
              friendId := .addFriendRq type readFriendName List.mem_cons_self parsed
          refine ⟨trivial, fun _ => .forwarded ?_ (found.mono ?_) ?_ rfl⟩
          · simp [DecidingFails, Fails]
          · intro performed member
            simp [member]
          · exact List.mem_cons_of_mem _ List.mem_cons_self

theorem obeys_anyAction {Value : Type} (prog : Handler Value) (history : History) :
    prog.Obeys anyAction (fun _ _ => True) history := by
  induction prog generalizing history with
  | ret value => trivial
  | act action rest ih => exact ⟨trivial, fun answer => ih answer _⟩

/-- Every handler of such a request answers once. -/
theorem dealData_answers (data : Bytes) (from_ : Handle) :
    (dealData data from_).Obeys anyAction
      (fun later _ => replyType data ≠ none → AnsweredOnce data from_ later) [] := by
  have requested {prog : Handler Unit} (dispatched : dealData data from_ = prog)
      (answers : prog.Obeys anyAction (fun later _ => AnsweredOnce data from_ later) []) :
      (dealData data from_).Obeys anyAction
        (fun later _ => replyType data ≠ none → AnsweredOnce data from_ later) [] :=
    dispatched ▸ answers.mono (fun _ _ _ => trivial) fun _ _ answered _ => answered
  by_cases register : packetType data = some defRegisterRq
  · exact requested (dealData_registerRq register) (dealRegisterRq_answers register)
  by_cases login : packetType data = some defLoginRq
  · exact requested (dealData_loginRq login) (dealLoginRq_answers login)
  by_cases addFriend : packetType data = some defAddFriendRq
  · exact requested (dealData_addFriendRq addFriend) (dealAddFriendRq_answers addFriend)
  by_cases chat : packetType data = some defChatRq
  · exact requested (dealData_chatRq chat) (dealChatRq_answers chat)
  refine (obeys_anyAction _ _).mono (fun _ _ _ => trivial) fun _ _ _ request => absurd ?_ request
  simp only [replyType, register, login, addFriend, chat, if_false]

end Handlers

/-! ## Where the packets go -/

/-- The connection that a packet for the client id reaches at present: the handle is in
`m_clients`, and its socket is open. -/
def State.receiver (state : State) (clientId : Handle) : Option ConnId :=
  (state.mClients clientId).bind state.sockets

/-- A call of `sendData` for a received packet, with the connection for which it hands the packet
to `WSASend`. -/
structure Call where
  tid : TaskId
  conn : ConnId
  from_ : Handle
  packet : Bytes
  clientId : Handle
  receiver : Option ConnId
  /-- `WSASend` does not fail at once. -/
  taken : Bool

def Call.sent (call : Call) : Option (ConnId × Bytes) :=
  call.receiver.map fun conn => (conn, call.packet)

def Call.queued (call : Call) : Option (ConnId × Bytes) := if call.taken then call.sent else none

def State.call (state : State) : Event → Option Call
  | .act index outcome =>
      match state.tasks[index]? with
      | some task =>
          match task.prog with
          | .act (.sendData packet clientId) _ =>
              some ⟨task.tid, task.conn, task.from_, packet, clientId, state.receiver clientId,
                outcome.takes⟩
          | _ => none
      | none => none
  | _ => none

/-- The server with the calls of `sendData` that its handlers have made, latest first. -/
structure Audit where
  state : State
  calls : List Call := []

namespace Audit

def machine : Machine Audit Event where
  step audit event :=
    match audit.state.step event with
    | some next => some ⟨next, (audit.state.call event).toList ++ audit.calls⟩
    | none => none

def callsOf (audit : Audit) (tid : TaskId) : List Call := audit.calls.filter (·.tid = tid)

theorem exists_of_step {audit next : Audit} {event : Event}
    (stepped : machine.step audit event = some next) :
    audit.state.step event = some next.state ∧
      next.calls = (audit.state.call event).toList ++ audit.calls := by
  simp only [machine] at stepped
  split at stepped
  · rename_i after moved
    rcases Option.some.inj stepped with rfl
    exact ⟨moved, rfl⟩
  · simp at stepped

end Audit

section SendData

variable (state : State) (packet : Bytes) (clientId : Handle) (taken : Bool)

theorem State.sent_sendData_receiver : (state.sendData packet clientId taken).sent =
    state.sent ++ ((state.receiver clientId).map fun conn => (conn, packet)).toList := by
  cases listed : state.mClients clientId with
  | none => simp [State.sendData, State.receiver, listed]
  | some socket =>
      cases opened : state.sockets socket <;>
        simp [State.sendData, State.receiver, listed, opened]

theorem State.queued_sendData_receiver : (state.sendData packet clientId taken).queued =
    state.queued ++ (if taken then (state.receiver clientId).map fun conn => (conn, packet)
      else none).toList := by
  cases listed : state.mClients clientId with
  | none => simp [State.sendData, State.receiver, listed]
  | some socket =>
      cases opened : state.sockets socket <;> cases taken <;>
        simp [State.sendData, State.receiver, listed, opened]

end SendData

section Calls

variable {state after : State} {index : ℕ} {outcome : Outcome} {task : Task} {action : Action}
  {rest : action.Answer → Handler Unit} {answer : action.Answer}

theorem State.call_sendData {packet : Bytes} {clientId : Handle}
    {rest : (Action.sendData packet clientId).Answer → Handler Unit}
    (present : state.tasks[index]? = some task)
    (shape : task.prog = .act (.sendData packet clientId) rest) :
    state.call (.act index outcome) = some ⟨task.tid, task.conn, task.from_, packet, clientId,
      state.receiver clientId, outcome.takes⟩ := by
  simp only [State.call, present, shape]

theorem State.call_eq_none (present : state.tasks[index]? = some task)
    (shape : task.prog = .act action rest)
    (other : ∀ packet clientId, action ≠ .sendData packet clientId) :
    state.call (.act index outcome) = none := by
  simp only [State.call, present, shape]
  split
  · rename_i packet clientId next same
    exact absurd (Program.act.inj same).1 (other packet clientId)
  · rfl

end Calls

namespace Audit

/-- What the calls have handed over and queued, in their order, are the queues of the server. -/
structure Queued (audit : Audit) : Prop where
  sent : audit.state.sent = audit.calls.reverse.filterMap Call.sent
  queued : audit.state.queued = audit.calls.reverse.filterMap Call.queued

/-- The sender of the packet can be reached whenever its handler moves. -/
def SenderStays (tid : TaskId) (audit : Audit) : Event → Prop
  | .act index _ => ∀ task : Task, audit.state.tasks[index]? = some task → task.tid = tid →
      audit.state.receiver task.from_ = some task.conn
  | _ => True

/-- The calls for the packet are those of its history, and those for the sender reach him. -/
structure Tallied (audit : Audit) (tid : TaskId) : Prop where
  sends : (audit.callsOf tid).map (fun call => (call.packet, call.clientId)) =
    sendsOf (historyOf audit.state.log tid)
  known : ∀ call ∈ audit.callsOf tid, ∃ entry ∈ audit.state.log, entry.tid = tid ∧
    entry.conn = call.conn ∧ entry.from_ = call.from_
  own : ∀ call ∈ audit.callsOf tid, call.clientId = call.from_ → call.receiver = some call.conn

/-- What a step of the server adds to the calls, to the log and to what has been sent. -/
inductive Moved (audit next : Audit) : Event → Prop
  | quiet {event : Event} (calls : next.calls = audit.calls)
      (log : next.state.log = audit.state.log) (sent : next.state.sent = audit.state.sent)
      (queued : next.state.queued = audit.state.queued) : Moved audit next event
  | other {index : ℕ} {outcome : Outcome} {task : Task} {action : Action}
      {answer : action.Answer} (silent : ∀ packet clientId, action ≠ .sendData packet clientId)
      (calls : next.calls = audit.calls)
      (log : next.state.log =
        ⟨task.tid, task.conn, task.from_, task.data, ⟨action, answer⟩⟩ :: audit.state.log)
      (sent : next.state.sent = audit.state.sent)
      (queued : next.state.queued = audit.state.queued) : Moved audit next (.act index outcome)
  | sends {index : ℕ} {outcome : Outcome} {task : Task} {packet : Bytes} {clientId : Handle}
      (present : audit.state.tasks[index]? = some task)
      (calls : next.calls = ⟨task.tid, task.conn, task.from_, packet, clientId,
        audit.state.receiver clientId, outcome.takes⟩ :: audit.calls)
      (log : next.state.log = ⟨task.tid, task.conn, task.from_, task.data,
        ⟨.sendData packet clientId, ()⟩⟩ :: audit.state.log)
      (sent : next.state.sent = audit.state.sent ++
        ((audit.state.receiver clientId).map fun conn => (conn, packet)).toList)
      (queued : next.state.queued = audit.state.queued ++ (if outcome.takes then
        (audit.state.receiver clientId).map fun conn => (conn, packet) else none).toList) :
      Moved audit next (.act index outcome)

theorem moved_of_step {audit next : Audit} {event : Event}
    (stepped : machine.step audit event = some next) : audit.Moved next event := by
  rcases exists_of_step stepped with ⟨moved, calls⟩
  rcases next with ⟨state, nextCalls⟩
  simp only at moved calls
  subst calls
  cases State.stepped_of_step moved with
  | accept | list | receive | closeSocket | eraseClient | finish => exact .quiet rfl rfl rfl rfl
  | @halt index outcome task action rest present shape stops =>
      have silent : audit.state.call (.act index outcome) = none := by
        apply State.call_eq_none present shape
        rintro packet clientId rfl
        exact stops
      exact .quiet (by simp only [silent]; rfl) rfl rfl rfl
  | @perform index outcome task action rest after answer present shape goesOn performed =>
      have performs := State.performs_of_perform performed
      have log : (after.advance index task action answer (rest answer)).log =
          ⟨task.tid, task.conn, task.from_, task.data, ⟨action, answer⟩⟩ :: audit.state.log :=
        State.log_advance performs.sameFrame
      by_cases sends : ∃ packet clientId, action = .sendData packet clientId
      · rcases sends with ⟨packet, clientId, rfl⟩
        rcases Prod.mk.inj (Option.some.inj performed) with ⟨rfl, _⟩
        refine .sends present ?_ log (audit.state.sent_sendData_receiver packet clientId _)
          (audit.state.queued_sendData_receiver packet clientId _)
        simp only [State.call_sendData present shape]
        rfl
      · simp only [not_exists] at sends
        have quiet := performs.queues_of_ne_sendData sends
        refine .other sends ?_ log quiet.1 quiet.2
        simp only [State.call_eq_none present shape sends]
        rfl

theorem filterMap_singleton {Item Image : Type} (image : Item → Option Image) (item : Item) :
    [item].filterMap image = (image item).toList := by
  cases found : image item <;> simp [found]

theorem Queued.step {audit next : Audit} {event : Event} (queued : audit.Queued)
    (stepped : machine.step audit event = some next) : next.Queued := by
  cases moved_of_step stepped with
  | quiet calls log sent taken | other silent calls log sent taken =>
      exact ⟨by rw [sent, calls, queued.sent], by rw [taken, calls, queued.queued]⟩
  | sends present calls log sent taken =>
      constructor
      · rw [sent, calls, queued.sent, List.reverse_cons, List.filterMap_append,
          filterMap_singleton]
        rfl
      · rw [taken, calls, queued.queued, List.reverse_cons, List.filterMap_append,
          filterMap_singleton]
        rfl

theorem sendsOf_cons_of_silent {performed : Performed Action.Answer} {history : History}
    (silent : ∀ packet clientId, performed.action ≠ .sendData packet clientId) :
    sendsOf (performed :: history) = sendsOf history := by
  rcases performed with ⟨action, answer⟩
  cases action with
  | sendData packet clientId => exact absurd rfl (silent packet clientId)
  | _ => rfl

theorem Tallied.step {audit next : Audit} {tid : TaskId} {event : Event}
    (tallied : audit.Tallied tid) (stays : audit.SenderStays tid event)
    (stepped : machine.step audit event = some next) : next.Tallied tid := by
  cases moved_of_step stepped with
  | quiet calls log sent _ =>
      exact ⟨by rw [callsOf, calls, log]; exact tallied.sends,
        by rw [callsOf, calls, log]; exact tallied.known,
        by rw [callsOf, calls]; exact tallied.own⟩
  | @other index outcome task action answer silent calls log sent _ =>
      refine ⟨?_, ?_, by rw [callsOf, calls]; exact tallied.own⟩
      · rw [callsOf, calls, log]
        refine tallied.sends.trans ?_
        by_cases same : task.tid = tid
        · subst same
          rw [historyOf_cons_self, sendsOf_cons_of_silent silent]
        · rw [historyOf_cons_of_ne same]
      · rw [callsOf, calls, log]
        intro call made
        rcases tallied.known call made with ⟨entry, logged, same⟩
        exact ⟨entry, List.mem_cons_of_mem _ logged, same⟩
  | @sends index outcome task packet clientId present calls log sent _ =>
      by_cases same : task.tid = tid
      · subst same
        have grown : next.callsOf task.tid = ⟨task.tid, task.conn, task.from_, packet, clientId,
            audit.state.receiver clientId, outcome.takes⟩ :: audit.callsOf task.tid := by
          simp [callsOf, calls]
        constructor
        · rw [grown, log, historyOf_cons_self, List.map_cons, tallied.sends]
          rfl
        · intro call made
          rw [log]
          rcases List.mem_cons.mp (grown ▸ made) with rfl | earlier
          · exact ⟨_, List.mem_cons_self, rfl, rfl, rfl⟩
          · rcases tallied.known call earlier with ⟨entry, logged, same⟩
            exact ⟨entry, List.mem_cons_of_mem _ logged, same⟩
        · intro call made
          rcases List.mem_cons.mp (grown ▸ made) with rfl | earlier
          · intro (own : clientId = task.from_)
            exact own ▸ stays task present rfl
          · exact tallied.own call earlier
      · have kept : next.callsOf tid = audit.callsOf tid := by
          simp [callsOf, calls, same]
        refine ⟨?_, ?_, by rw [kept]; exact tallied.own⟩
        · rw [kept, log, historyOf_cons_of_ne same]
          exact tallied.sends
        · rw [kept, log]
          intro call made
          rcases tallied.known call made with ⟨entry, logged, same⟩
          exact ⟨entry, List.mem_cons_of_mem _ logged, same⟩

end Audit

/-! ## One answer -/

/-- The call hands a reply to the packet of the task to `WSASend`, for its sender. -/
def Call.replies (task : Task) (call : Call) : Bool :=
  call.receiver = some task.conn ∧ packetType call.packet = replyType task.data

def Call.forwards (task : Task) (call : Call) : Bool := call.packet = task.data

/-- A reply is no request, and what users are told about each other is neither. -/
theorem replyType_ne {data : Bytes} (request : replyType data ≠ none) :
    replyType data ≠ some defUserInfo ∧ packetType data ≠ some defUserInfo ∧
      packetType data ≠ replyType data := by
  by_cases register : packetType data = some defRegisterRq
  · have same : replyType data = some defRegisterRs := by
      rw [replyType, register]
      rfl
    rw [same, register]
    decide
  by_cases login : packetType data = some defLoginRq
  · have same : replyType data = some defLoginRs := by
      rw [replyType, login]
      rfl
    rw [same, login]
    decide
  by_cases addFriend : packetType data = some defAddFriendRq
  · have same : replyType data = some defAddFriendRs := by
      rw [replyType, addFriend]
      rfl
    rw [same, addFriend]
    decide
  by_cases chat : packetType data = some defChatRq
  · have same : replyType data = some defChatRs := by
      rw [replyType, chat]
      rfl
    rw [same, chat]
    decide
  · refine absurd ?_ request
    simp only [replyType, register, login, addFriend, chat, if_false]

section OneAnswer

variable {task : Task} {calls : List Call}

theorem countP_of_replied {reply : Bytes} {later : List (Bytes × Handle)}
    (request : replyType task.data ≠ none)
    (matching : packetType reply = replyType task.data)
    (sends : calls.map (fun call => (call.packet, call.clientId)) = later ++ [(reply, task.from_)])
    (tells : ∀ sent ∈ later, IsUserInfo sent.1)
    (own : ∀ call ∈ calls, call.clientId = task.from_ → call.receiver = some task.conn) :
    calls.countP (Call.replies task) = 1 ∧ calls.countP (Call.forwards task) = 0 := by
  rcases replyType_ne request with ⟨notInfo, dataNotInfo, other⟩
  rcases List.map_eq_append_iff.mp sends with ⟨before, last, rfl, told, final⟩
  rcases List.map_eq_singleton_iff.mp final with ⟨call, rfl, same⟩
  rcases Prod.mk.inj same with ⟨packet, clientId⟩
  have infos (call : Call) (member : call ∈ before) :
      packetType call.packet = some defUserInfo := by
    have listed : (call.packet, call.clientId) ∈ later := by
      rw [← told]
      exact List.mem_map.mpr ⟨call, member, rfl⟩
    rcases tells _ listed with ⟨info, isInfo⟩
    simp only at isInfo
    rw [isInfo, packetType_userInfo]
  have noReply : before.countP (Call.replies task) = 0 := by
    simp only [List.countP_eq_zero, Call.replies, decide_eq_true_eq, not_and]
    intro call member _ isReply
    exact notInfo (isReply ▸ infos call member)
  have noForward : before.countP (Call.forwards task) = 0 := by
    simp only [List.countP_eq_zero, Call.forwards, decide_eq_true_eq]
    intro call member forwarded
    exact dataNotInfo (forwarded ▸ infos call member)
  have reaches := own call (List.mem_append_right _ (List.mem_singleton.mpr rfl)) clientId
  have isReply : call.replies task = true := by simp [Call.replies, reaches, packet, matching]
  have isNoForward : call.forwards task = false := by
    simp only [Call.forwards, packet, decide_eq_false_iff_not]
    rintro rfl
    exact other matching
  constructor
  · simp only [List.countP_append, noReply, List.countP_singleton, isReply, if_true]
  · simp only [List.countP_append, noForward, List.countP_singleton, isNoForward,
      Bool.false_eq_true, if_false]

/-- One answer to each request. When a handler returns whose sender could be reached whenever it
moved, either a statement has failed that the answer depends on, and `sendData` has not been
called; or it has been called with one reply for the sender; or it has been called once, with the
request as it is and the socket that the kernel's map held for the addressee. -/
theorem one_answer {tUser : List UserRow} {tFriend : List (ℤ × ℤ)} {events : List Event}
    {final : Audit}
    (reached : Audit.machine.run ⟨State.start tUser tFriend, []⟩ events = some final)
    (stays : Audit.machine.Meets (Audit.SenderStays task.tid) ⟨State.start tUser tFriend, []⟩
      events)
    (member : task ∈ final.state.tasks) (returned : task.prog = .ret ())
    (request : replyType task.data ≠ none) :
    final.Queued ∧
      ((DecidingFails (historyOf final.state.log task.tid) ∧ final.callsOf task.tid = []) ∨
        (¬DecidingFails (historyOf final.state.log task.tid) ∧
          (((final.callsOf task.tid).countP (Call.replies task) = 1 ∧
              (final.callsOf task.tid).countP (Call.forwards task) = 0) ∨
            ((final.callsOf task.tid).countP (Call.replies task) = 0 ∧
              ∃ call id, final.callsOf task.tid = [call] ∧ call.packet = task.data ∧
                PassedTo task.data (historyOf final.state.log task.tid) id ∧
                  LookedUp (historyOf final.state.log task.tid) id call.clientId)))) := by
  have holds : final.state.Coherent ∧ final.state.Obey (fun _ _ => anyAction)
      (fun data from_ history _ => replyType data ≠ none → AnsweredOnce data from_ history) ∧
        final.Tallied task.tid ∧ final.Queued := by
    refine Audit.machine.run_invariant (fun audit => audit.state.Coherent ∧
      audit.state.Obey (fun _ _ => anyAction) (fun data from_ history _ =>
        replyType data ≠ none → AnsweredOnce data from_ history) ∧
          audit.Tallied task.tid ∧ audit.Queued) ?_
      ⟨State.coherent_start _ _, by simp [State.start, State.Obey], ⟨rfl, by simp [Audit.callsOf],
        by simp [Audit.callsOf]⟩, ⟨rfl, rfl⟩⟩ stays reached
    rintro audit event next ⟨coherent, obey, tallied, queued⟩ allowed stepped
    have moved := (Audit.exists_of_step stepped).1
    exact ⟨coherent.step moved, obey.step dealData_answers coherent moved,
      tallied.step allowed stepped, queued.step stepped⟩
  rcases holds with ⟨coherent, obey, tallied, queued⟩
  refine ⟨queued, ?_⟩
  have answered := obey task member
  rw [returned] at answered
  have own (call : Call) (made : call ∈ final.callsOf task.tid)
      (forSender : call.clientId = task.from_) : call.receiver = some task.conn := by
    rcases tallied.known call made with ⟨entry, logged, tid, conn, from_⟩
    rcases coherent.ofTask task member entry logged tid with ⟨sameConn, sameFrom, _⟩
    rw [tallied.own call made (forSender.trans (sameFrom.symm.trans from_)), ← conn, sameConn]
  cases answered request with
  | failed fails silent =>
      refine Or.inl ⟨fails, List.map_eq_nil_iff.mp (tallied.sends.trans silent)⟩
  | replied decided matching sends tells =>
      exact Or.inr ⟨decided, Or.inl
        (countP_of_replied request matching (tallied.sends.trans sends) tells own)⟩
  | @forwarded id socket decided addressee looked sends =>
      rcases List.map_eq_singleton_iff.mp (tallied.sends.trans sends) with ⟨call, only, same⟩
      rcases Prod.mk.inj same with ⟨packet, rfl⟩
      refine Or.inr ⟨decided, Or.inr ⟨?_, call, id, only, packet, addressee, looked⟩⟩
      have noReply : call.replies task = false := by
        simp only [Call.replies, packet, decide_eq_false_iff_not, not_and]
        exact fun _ => (replyType_ne request).2.2
      simp only [only, List.countP_singleton, noReply, Bool.false_eq_true, if_false]

end OneAnswer

/-! ## A message that arrives, and two requests without an answer -/

def senderStays (tid : TaskId) (audit : Audit) : Event → Bool
  | .act index _ =>
      match audit.state.tasks[index]? with
      | some task =>
          task.tid ≠ tid || audit.state.receiver task.from_ = some task.conn
      | none => true
  | _ => true

theorem senderStays_sound (tid : TaskId) (audit : Audit) (event : Event)
    (passed : senderStays tid audit event = true) : audit.SenderStays tid event := by
  cases event with
  | act index outcome =>
      intro task present same
      simpa only [senderStays, present, same, ne_eq, not_true, decide_false, Bool.false_or,
        decide_eq_true_eq] using passed
  | _ => trivial

/-- The handler of the first task has returned, and it is that of a request. -/
def Audit.hasServed (audit : Audit) (tid : TaskId) (type : ℤ) : Bool :=
  audit.state.returned 0 && match audit.state.tasks[0]? with
    | some task => task.tid = tid ∧ replyType task.data = some type
    | none => false

theorem exists_of_hasServed {audit : Audit} {tid : TaskId} {type : ℤ}
    (served : audit.hasServed tid type = true) : ∃ task ∈ audit.state.tasks,
      task.prog = .ret () ∧ task.tid = tid ∧ replyType task.data = some type := by
  rcases Bool.and_eq_true_iff.mp served with ⟨finished, request⟩
  rcases State.returned_of_returned finished with ⟨task, present, returned⟩
  simp only [present, decide_eq_true_eq] at request
  exact ⟨task, List.mem_of_getElem? present, returned, request⟩

/-- Bob writes to Alice. -/
def bobWrites : List Event :=
  [.accept 8, .list 1, .receive 1 (StruChatRq.bytes ⟨2, 1, ascii "hi"⟩), .act 0 .internal,
    .act 0 .internal, .act 0 .internal]

theorem one_answer_online : ∃ final task,
    Audit.machine.run ⟨State.start [alice, bob] [], []⟩ (logsIn alice 0 4 ++ bobWrites) =
        some final ∧ task ∈ final.state.tasks ∧
      final.callsOf task.tid ≠ [] ∧ ((final.callsOf task.tid).countP (Call.replies task) = 1 ∨
        ∃ call, final.callsOf task.tid = [call] ∧ call.packet = task.data) := by
  have evaluated : (Audit.machine.run ⟨State.start [alice, bob] [], []⟩
      (logsIn alice 0 4 ++ bobWrites)).any (fun final => final.hasServed 1 defChatRs &&
        !(final.callsOf 1).isEmpty) = true := by
    decide +kernel
  have passed : Audit.machine.allSteps (senderStays 1) ⟨State.start [alice, bob] [], []⟩
      (logsIn alice 0 4 ++ bobWrites) = true := by
    decide +kernel
  rcases (Option.any_eq_true _ _).mp evaluated with ⟨final, reached, shape⟩
  rcases Bool.and_eq_true_iff.mp shape with ⟨served, sent⟩
  rcases exists_of_hasServed served with ⟨task, member, returned, tid, type⟩
  have some_ : final.callsOf task.tid ≠ [] := by
    intro nothing
    rw [tid] at nothing
    simp [nothing] at sent
  refine ⟨final, task, reached, member, some_, ?_⟩
  have stays : Audit.machine.Meets (Audit.SenderStays task.tid)
      ⟨State.start [alice, bob] [], []⟩ (logsIn alice 0 4 ++ bobWrites) :=
    Audit.machine.meets_of_allSteps (tid ▸ senderStays_sound 1) passed
  rcases (one_answer reached stays member returned (by simp [type])).2 with
    ⟨_, nothing⟩ | ⟨_, ⟨replied, _⟩ | ⟨_, call, _, only, packet, _⟩⟩
  · exact absurd nothing some_
  · exact Or.inl replied
  · exact Or.inr ⟨call, only, packet⟩

/-- A registration whose first statement fails. -/
def registrationFails : List Event :=
  [.accept 4, .list 0,
    .receive 0 (StruRegisterRq.bytes ⟨ascii "123", ascii "secret", ascii "alice"⟩),
    .act 0 (.rows none)]

/-- Alice's connection is gone, and the kernel's map still holds her socket. -/
def aliceIsGone : List Event := logsIn alice 0 4 ++ [.closeSocket 0, .eraseClient 0]

/-- A registration is not answered when its statement fails, and a message for Alice is lost. -/
theorem one_answer_fails :
    (∃ final task, Audit.machine.run ⟨State.start [] [], []⟩ registrationFails = some final ∧
      Audit.machine.Meets (Audit.SenderStays task.tid) ⟨State.start [] [], []⟩ registrationFails ∧
      task ∈ final.state.tasks ∧ task.prog = .ret () ∧
        replyType task.data = some defRegisterRs ∧ final.callsOf task.tid = []) ∧
    ∃ final task, Audit.machine.run ⟨State.start [alice, bob] [], []⟩ (aliceIsGone ++ bobWrites) =
        some final ∧
      Audit.machine.Meets (Audit.SenderStays task.tid) ⟨State.start [alice, bob] [], []⟩
        (aliceIsGone ++ bobWrites) ∧
      task ∈ final.state.tasks ∧ task.prog = .ret () ∧ replyType task.data = some defChatRs ∧
        ∀ call ∈ final.callsOf task.tid, call.receiver = none := by
  constructor
  · have evaluated : (Audit.machine.run ⟨State.start [] [], []⟩ registrationFails).any
        (fun final => final.hasServed 0 defRegisterRs && (final.callsOf 0).isEmpty) = true := by
      decide +kernel
    have passed : Audit.machine.allSteps (senderStays 0) ⟨State.start [] [], []⟩
        registrationFails = true := by
      decide +kernel
    rcases (Option.any_eq_true _ _).mp evaluated with ⟨final, reached, shape⟩
    rcases Bool.and_eq_true_iff.mp shape with ⟨served, silent⟩
    rcases exists_of_hasServed served with ⟨task, member, returned, tid, type⟩
    refine ⟨final, task, reached, ?_, member, returned, type, ?_⟩
    · exact Audit.machine.meets_of_allSteps (tid ▸ senderStays_sound 0) passed
    · exact tid ▸ List.isEmpty_iff.mp silent
  · have evaluated : (Audit.machine.run ⟨State.start [alice, bob] [], []⟩
        (aliceIsGone ++ bobWrites)).any (fun final => final.hasServed 1 defChatRs &&
          (final.callsOf 1).all (·.receiver = none)) = true := by
      decide +kernel
    have passed : Audit.machine.allSteps (senderStays 1) ⟨State.start [alice, bob] [], []⟩
        (aliceIsGone ++ bobWrites) = true := by
      decide +kernel
    rcases (Option.any_eq_true _ _).mp evaluated with ⟨final, reached, shape⟩
    rcases Bool.and_eq_true_iff.mp shape with ⟨served, lost⟩
    rcases exists_of_hasServed served with ⟨task, member, returned, tid, type⟩
    refine ⟨final, task, reached, ?_, member, returned, type, ?_⟩
    · exact Audit.machine.meets_of_allSteps (tid ▸ senderStays_sound 1) passed
    · rw [tid]
      simpa only [List.all_eq_true, decide_eq_true_eq] using lost

end InstanceMessage
