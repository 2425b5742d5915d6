import InstanceMessage.Agreements
import InstanceMessage.Server.Authority

/-!
# Chat messages in the server

A handler passes a chat message on with one `sendData` at most, and no handler
sends a chat message other than its own packet. So the copies of a message that
the server has sent, together with those that handlers in progress may still
send, are never more than the times it has been received. While no handle value
is used twice, a copy comes to a connection on which the user has logged in whom
the message names as the friend.
-/

namespace InstanceMessage

open Library

/-- The action sends one of the chosen packets. -/
def SendsChosen (chosen : Bytes → Bool) : Action → Prop
  | .sendData packet _ => chosen packet = true
  | _ => False

/-- Only chat messages are chosen. -/
def OfChats (chosen : Bytes → Bool) : Prop :=
  ∀ packet, chosen packet = true → packetType packet = some defChatRq

/-! ## What the handlers send -/

/-- A chat message that is sent is the packet itself, for the socket of the friend it names. -/
def chatLaw (data : Bytes) (history : History) : Action → Prop
  | .sendData packet clientId => packetType packet = some defChatRq → packet = data ∧
      ∃ friendId, StruChatRq.readFriendId data = some friendId ∧
        LookedUp history friendId clientId
  | _ => True

section Handlers

variable {data : Bytes} {from_ : Handle} {history : History} {chosen : Bytes → Bool}

theorem chatLaw_of_law {action : Action} (lawful : law data from_ history action) :
    chatLaw data history action := by
  cases action with
  | sendData packet clientId =>
      intro type
      rcases lawful with ⟨_, reply⟩ | ⟨id, lookedUp, delivered⟩
      · exact absurd type (reply.packetType_ne_of_notMem (by decide))
      · cases delivered with
        | told =>
            rw [packetType_userInfo] at type
            exact absurd type (by decide)
        | passedOn addressee =>
            refine ⟨rfl, id, ?_, lookedUp⟩
            cases addressee with
            | chatRq _ named => exact named
            | offlineRq other | addFriendRq other | addFriendRs other =>
                rw [type] at other
                exact absurd other (by decide)
  | _ => trivial

theorem dealData_chatLaw : (dealData data from_).Obeys (chatLaw data) (fun _ _ => True) history :=
  (dealData_lawful data from_ history).mono (fun _ _ lawful => chatLaw_of_law lawful)
    fun _ _ returned => returned

theorem dealChatRq_atMostOnce : (dealChatRq data from_).AtMostOnce (SendsChosen chosen) := by
  have reads : (Handler.field (StruChatRq.readFriendId data)).Only
      fun action => ¬SendsChosen chosen action := by
    cases StruChatRq.readFriendId data with
    | none => exact ⟨fun sends => sends, fun answer => nomatch answer⟩
    | some friendId => trivial
  refine Program.atMostOnce_bind reads fun friendId => ?_
  refine Program.atMostOnce_perform_bind (fun sends => sends) fun (online : Bool) => ?_
  cases online with
  | false => exact Program.atMostOnce_perform _
  | true =>
      exact Program.atMostOnce_perform_bind (fun sends => sends) fun _ =>
        Program.atMostOnce_perform _

/-- A handler sends no chosen message but its own packet. -/
theorem dealData_spares (ofChats : OfChats chosen) (other : chosen data = false) :
    (dealData data from_).Only fun action => ¬SendsChosen chosen action := by
  have sending : (dealData data from_).Obeys (chatLaw data) (fun _ _ => True) [] :=
    dealData_chatLaw
  refine sending.only fun history action lawful sends => ?_
  cases action with
  | sendData packet clientId =>
      have same := (lawful (ofChats packet sends)).1
      have sends : chosen packet = true := sends
      rw [same, other] at sends
      exact absurd sends (by decide)
  | _ => exact sends.elim

theorem dealData_atMostOnce (ofChats : OfChats chosen) :
    (dealData data from_).AtMostOnce (SendsChosen chosen) := by
  cases own : chosen data with
  | true =>
      rw [dealData_chatRq (ofChats data own)]
      exact dealChatRq_atMostOnce
  | false => exact (dealData_spares ofChats own).atMostOnce

end Handlers

/-! ## Copies of a message -/

/-- The packet that the event hands to the pool. -/
def Event.packets : Event → List Bytes
  | .receive _ data => [data]
  | _ => []

namespace State

variable {chosen : Bytes → Bool} {state next : State} {event : Event}

/-- What is left of every task sends at most one chosen message. -/
def Frugal (chosen : Bytes → Bool) (state : State) : Prop :=
  ∀ task ∈ state.tasks, task.prog.AtMostOnce (SendsChosen chosen)

theorem Frugal.step (frugal : state.Frugal chosen) (ofChats : OfChats chosen)
    (stepped : state.step event = some next) : next.Frugal chosen := by
  cases stepped_of_step stepped with
  | accept | list | closeSocket | eraseClient => exact frugal
  | halt => simp [Frugal, State.halt]
  | finish => exact fun task member => frugal task (List.mem_of_mem_eraseIdx member)
  | receive =>
      intro task member
      rcases List.mem_append.mp member with old | new
      · exact frugal task old
      · rw [List.mem_singleton.mp new]
        exact dealData_atMostOnce ofChats
  | @perform index outcome task action rest after answer present shape goesOn performed =>
      have acting := frugal task (List.mem_of_getElem? present)
      rw [shape] at acting
      intro other member
      rcases mem_tasks_of_advance (performs_of_perform performed).sameFrame member with old | rfl
      · exact frugal other old
      · exact (acting answer).1

open Classical in
/-- One for a program that may still send a chosen message. -/
noncomputable def toSend (chosen : Bytes → Bool) (prog : Handler Unit) : ℕ :=
  if prog.Only fun action => ¬SendsChosen chosen action then 0 else 1

theorem toSend_eq_zero {prog : Handler Unit}
    (spared : prog.Only fun action => ¬SendsChosen chosen action) : toSend chosen prog = 0 :=
  if_pos spared

theorem toSend_le_one (chosen : Bytes → Bool) (prog : Handler Unit) : toSend chosen prog ≤ 1 := by
  simp only [toSend]
  split <;> omega

/-- The chosen messages that have been sent, and those that handlers may still send. -/
noncomputable def copies (chosen : Bytes → Bool) (state : State) : ℕ :=
  state.sent.countP (fun packet => chosen packet.2) +
    (state.tasks.map fun task => toSend chosen task.prog).sum

/-- Sending a chosen message uses up what the program may send. -/
theorem Performs.copies_le {after : State} {action : Action} {answer : action.Answer}
    {rest : action.Answer → Handler Unit} (performs : Performs state action after answer)
    (frugal : Program.AtMostOnce (SendsChosen chosen) (.act action rest)) :
    after.sent.countP (fun packet => chosen packet.2) + toSend chosen (rest answer) ≤
      state.sent.countP (fun packet => chosen packet.2) +
        toSend chosen (.act action rest) := by
  have fewer : toSend chosen (rest answer) ≤ toSend chosen (.act action rest) := by
    by_cases spared : (Program.act action rest : Handler Unit).Only
        fun action => ¬SendsChosen chosen action
    · rw [toSend_eq_zero (spared.2 answer)]
      exact Nat.zero_le _
    · rw [toSend, toSend, if_neg spared]
      exact toSend_le_one chosen (rest answer)
  rcases performs.sent with same | ⟨packet, clientId, socket, conn, rfl, _, _, appended⟩
  · rw [same]
    exact Nat.add_le_add_left fewer _
  · rw [appended, List.countP_append, List.countP_singleton]
    split
    · rename_i hit
      have spent : toSend chosen (rest answer) = 0 := toSend_eq_zero ((frugal answer).2 hit)
      have may : toSend chosen (.act (.sendData packet clientId) rest) = 1 :=
        if_neg fun spared => spared.1 hit
      omega
    · omega

/-- Only the receipt of a chosen message makes more of them. -/
theorem copies_step (frugal : state.Frugal chosen) (ofChats : OfChats chosen)
    (stepped : state.step event = some next) :
    next.copies chosen ≤ state.copies chosen + event.packets.countP chosen := by
  cases stepped_of_step stepped with
  | accept | list | closeSocket | eraseClient => exact Nat.le_add_right _ _
  | halt =>
      simp only [copies, State.halt, List.map_nil, List.sum_nil]
      omega
  | finish present returned =>
      rcases exists_split_of_getElem? present with ⟨front, back, whole, _, erased⟩
      simp only [copies, erased]
      simp only [whole, List.map_append, List.map_cons, List.sum_append, List.sum_cons]
      omega
  | @receive conn data =>
      have new : toSend chosen (dealData data (state.handleOf conn)) ≤ [data].countP chosen := by
        rw [List.countP_singleton]
        cases own : chosen data with
        | true => exact toSend_le_one _ _
        | false => exact (toSend_eq_zero (dealData_spares ofChats own)).le
      simp only [copies, State.receive, Event.packets, List.map_append, List.map_cons,
        List.map_nil, List.sum_append, List.sum_cons, List.sum_nil]
      omega
  | @perform index outcome task action rest after answer present shape goesOn performed =>
      have performs := performs_of_perform performed
      have acting := frugal task (List.mem_of_getElem? present)
      rw [shape] at acting
      have moves := performs.copies_le acting
      rcases exists_split_of_getElem? present with ⟨front, back, whole, replaced, _⟩
      simp only [copies, State.advance, performs.sameFrame.tasks, replaced, List.map_append,
        List.map_cons, List.sum_append, List.sum_cons]
      simp only [whole, shape, List.map_append, List.map_cons, List.sum_append, List.sum_cons]
      omega

/-! ## The addressee -/

/-- A chat message that is queued to a connection names a user who has logged in on it. -/
def Addressed (state : State) : Prop :=
  ∀ conn packet, (conn, packet) ∈ state.sent → packetType packet = some defChatRq →
    ∃ friendId, StruChatRq.readFriendId packet = some friendId ∧ state.LoggedInOn conn friendId

theorem loggedInOn_of_lookedUp {task : Task} {conn : ConnId} {id : ℤ} (housed : state.Housed)
    (unshared : state.Unshared) (provenance : state.Provenance) (bound : conn < state.nextConn)
    (lookedUp : LookedUp (historyOf state.log task.tid) id (state.handleOf conn)) :
    state.LoggedInOn conn id := by
  rcases mem_historyOf.mp lookedUp with ⟨lookup, logged, _, performed⟩
  rcases provenance.found lookup logged id _ performed with zero | ⟨entry, verified, own, verifies⟩
  · exact absurd zero (unshared.nonzero conn bound)
  · rcases housed.entry entry verified with ⟨entryBound, handle⟩
    have same := unshared.injective entry.conn entryBound conn bound (handle.symm.trans own)
    exact ⟨entry, verified, same, verifies⟩

theorem Addressed.step (addressed : state.Addressed) (delivers : state.Delivers)
    (provenance : state.Provenance)
    (obey : state.Obey (fun data _ => chatLaw data) fun _ _ _ _ => True)
    (stepped : state.step event = some next) : next.Addressed := by
  have grows := log_subset_of_step stepped
  have still (conn : ConnId) (packet : Bytes) (old : (conn, packet) ∈ state.sent)
      (type : packetType packet = some defChatRq) : ∃ friendId,
        StruChatRq.readFriendId packet = some friendId ∧ next.LoggedInOn conn friendId := by
    rcases addressed conn packet old type with ⟨friendId, names, loggedIn⟩
    exact ⟨friendId, names, loggedIn.mono grows⟩
  cases stepped_of_step stepped with
  | accept | list | receive | closeSocket | eraseClient | halt | finish => exact still
  | @perform index outcome task action rest after answer present shape goesOn performed =>
      have obeys := obey task (List.mem_of_getElem? present)
      rw [shape] at obeys
      intro conn packet queued type
      have member : (conn, packet) ∈ after.sent := queued
      rcases (performs_of_perform performed).handed delivers.housed with
        same | ⟨sent, receiver, rfl, bound, _, appended⟩
      · exact still conn packet (same ▸ member) type
      · rw [appended] at member
        rcases List.mem_append.mp member with old | new
        · exact still conn packet old type
        · rcases Prod.mk.inj (List.mem_singleton.mp new) with ⟨rfl, rfl⟩
          rcases obeys.1 type with ⟨rfl, friendId, names, lookedUp⟩
          exact ⟨friendId, names, (loggedInOn_of_lookedUp delivers.housed delivers.unshared
            provenance bound lookedUp).mono grows⟩

end State

end InstanceMessage
