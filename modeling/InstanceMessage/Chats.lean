import InstanceMessage.Client.ChatWindows
import InstanceMessage.Consent
import InstanceMessage.FriendLists
import InstanceMessage.Legibility
import InstanceMessage.Server.Chats
import Mathlib.Algebra.BigOperators.Group.Finset.Piecewise
import Mathlib.Algebra.Order.BigOperators.Group.Finset

/-!
# Conversations

From the line that a user types to the chat window of his friend: the client
writes a chat message, the network and the pool of the server bring it to a
handler, the handler passes it on to the connection of the friend, and the
friend's client shows it. On the way messages can be overtaken and lost, since
tasks run at the same time and a queue may stop at any point. But none is made
up and none is shown twice, however the parties interleave, and a client shows
everything that reaches it from the packet on that enters the friend in its
list. While no handle value is used twice, a message reaches only connections on
which the user has logged in for whom it was typed.
-/

namespace InstanceMessage

open Library

/-! ## Messages of a client -/

namespace CKernel

/-- What a client writes when its user enters a line in the window of a friend. -/
def lineOf (qt : Qt) (kernel : CKernel) : UserAction → Option StruChatRq
  | .sendMessage friendId content =>
      (strcpyS defContentMaxLength (qt.toStdString content)).map fun content =>
        { userId := kernel.mUserId, friendId := friendId, content := content }
  | _ => none

/-- A client writes no chat messages but the lines that its user enters. -/
theorem lineOf_of_act {qt : Qt} {kernel next : CKernel} {action : UserAction} {packet : Bytes}
    (acted : kernel.act qt action = some (next, some packet))
    (chat : packetType packet = some defChatRq) :
    ∃ line, kernel.lineOf qt action = some line ∧ packet = line.bytes ∧
      line.userId = kernel.mUserId ∧ FitsArray defContentMaxLength line.content ∧
        (kernel.mMapIdToDialog.lookup line.friendId).isSome = true := by
  have other {type : ℤ} (typed : packetType packet = some type) (different : type ≠ defChatRq) :
      False := different (Option.some.inj (typed.symm.trans chat))
  rcases Option.ite_none_left_eq_some.mp acted with ⟨_, acts⟩
  cases action with
  | registerMassage name tel password =>
      simp only [slotRegisterMassage, Option.bind_eq_bind, Option.ite_none_left_eq_some,
        Option.bind_eq_some_iff, Option.some.injEq, Prod.mk.injEq] at acts
      rcases acts with ⟨_, _, _, _, _, _, _, _, rfl⟩
      exact (other (packetType_registerRq _) (by decide)).elim
  | loginMassage tel password =>
      simp only [slotLoginMassage, Option.bind_eq_bind, Option.ite_none_left_eq_some,
        Option.bind_eq_some_iff, Option.some.injEq, Prod.mk.injEq] at acts
      rcases acts with ⟨_, _, _, _, _, _, rfl⟩
      exact (other (packetType_loginRq _) (by decide)).elim
  | closeProcess => simp at acts
  | offlien =>
      simp only [slotOfflien, Option.ite_none_right_eq_some, Option.some.injEq,
        Prod.mk.injEq] at acts
      rcases acts with ⟨_, _, rfl⟩
      exact (other (packetType_offlineRq _) (by decide)).elim
  | sendMessage friendId content =>
      simp only [slotSendMessage, Option.bind_eq_bind, Option.ite_none_right_eq_some,
        Option.bind_eq_some_iff, Option.some.injEq, Prod.mk.injEq] at acts
      rcases acts with ⟨window, content, copies, _, rfl⟩
      refine ⟨⟨kernel.mUserId, friendId, content⟩, ?_, rfl, rfl, fitsArray_of_strcpyS copies,
        window⟩
      simp [lineOf, copies]
  | addFriend name =>
      rcases Option.ite_none_right_eq_some.mp acts with ⟨_, slot⟩
      simp only [slotAddFriend] at slot
      split at slot
      · simp at slot
      split at slot
      · simp at slot
      split at slot
      · simp at slot
      simp only [Option.bind_eq_bind, Option.bind_eq_some_iff, Option.some.injEq,
        Prod.mk.injEq] at slot
      rcases slot with ⟨_, _, _, _, _, rfl⟩
      exact (other (packetType_addFriendRq _) (by decide)).elim
  | answer agrees =>
      simp only [answer] at acts
      split at acts
      · simp at acts
      · simp only [Option.some.injEq, Prod.mk.injEq] at acts
        rcases acts with ⟨_, rfl⟩
        exact (other (packetType_addFriendRs _) (by decide)).elim

end CKernel

theorem StruChatRq.readUserId_bytes {line : StruChatRq} (range : IsInt32 line.userId) :
    readUserId line.bytes = some line.userId := by
  apply (readInt32_append (length_int32 _) 0).trans
  exact readInt32_zero range _

theorem StruChatRq.readFriendId_bytes {line : StruChatRq} (range : IsInt32 line.friendId) :
    readFriendId line.bytes = some line.friendId := by
  show readInt32 line.bytes 8 = _
  apply (readInt32_append (length_int32 _) 4).trans
  apply (readInt32_append (length_int32 _) 0).trans
  exact readInt32_zero range _

/-- A written message is shown in the name of its user, with what he has entered. -/
theorem chatFrom_bytes {qt : Qt} {line : StruChatRq} (range : IsInt32 line.userId)
    (fits : FitsArray defContentMaxLength line.content) (userId : ℤ) :
    chatFrom qt userId line.bytes =
      if line.userId = userId then some (qt.fromUtf8 line.content) else none := by
  rw [chatFrom, packetType_chatRq, StruChatRq.readUserId_bytes range,
    StruChatRq.readContent_bytes fits]
  simp

/-- The friend's id lies in front of the text. -/
theorem readFriendId_of_legible {packet : Bytes} (legible : Legible packet)
    (chat : packetType packet = some defChatRq) :
    ∃ friendId, StruChatRq.readFriendId packet = some friendId := by
  rcases legible with ⟨type, typed, inside⟩
  rcases Option.some.inj (typed.symm.trans chat) with rfl
  have ends : (0 : UInt8) ∈ (packet.drop 12).take defContentMaxLength :=
    inside (.text 12 defContentMaxLength) (by decide)
  have more : 0 < (packet.drop 12).length := List.length_pos_of_mem (List.mem_of_mem_take ends)
  rw [List.length_drop] at more
  exact readInt32_of_le packet 8 (by omega)

namespace System

/-- The lines that the users enter. -/
def typed (qt : Qt) (system : System) : SystemEvent → List StruChatRq
  | .user conn action => ((system.client conn).lineOf qt action).toList
  | _ => []

/-! ## Copies on their way -/

/-- The chosen messages that are in flight, have been sent or may still be sent. -/
noncomputable def copies (chosen : Bytes → Bool) (system : System) : ℕ :=
  system.inFlight.countP (fun packet => chosen packet.2) + system.server.copies chosen

/-- What the copies of chosen messages are counted by. -/
structure Accounted (chosen : Bytes → Bool) (system : System) : Prop where
  ranged : ∀ conn, (system.client conn).Ranged
  windowed : ∀ conn, (system.client conn).Windowed
  frugal : system.server.Frugal chosen

section Copies

variable {qt : Qt} {chosen : Bytes → Bool} {before after : System} {event : SystemEvent}

theorem accounted_start (tUser : List UserRow) (tFriend : List (ℤ × ℤ)) :
    (start tUser tFriend).Accounted chosen :=
  ⟨ranged_start tUser tFriend, fun _ => CKernel.windowed_start,
    by simp [State.Frugal, start, State.start]⟩

theorem windowed_step (windowed : ∀ conn, (before.client conn).Windowed)
    (stepped : before.step qt event = some after) (conn : ConnId) :
    (after.client conn).Windowed := by
  have updated {mover : ConnId} {kernel : CKernel} (moved : kernel.Windowed) :
      (Function.update before.client mover kernel conn).Windowed := by
    by_cases same : conn = mover
    · rw [same, Function.update_self]
      exact moved
    · rw [Function.update_of_ne same]
      exact windowed conn
  cases event with
  | server event =>
      cases stepped_of_step stepped with
      | server => exact windowed conn
  | receive receiver =>
      cases stepped_of_step stepped with
      | receive => exact windowed conn
  | deliver receiver =>
      rcases Option.bind_eq_some_iff.mp stepped with ⟨packet, queued, moved⟩
      rcases Option.map_eq_some_iff.mp moved with ⟨kernel, transmitted, rfl⟩
      exact updated ((windowed receiver).transmit transmitted).1
  | user sender action =>
      rcases Option.map_eq_some_iff.mp stepped with ⟨⟨kernel, packet⟩, acted, rfl⟩
      exact updated ((windowed sender).act acted)

theorem Accounted.step (accounted : before.Accounted chosen) (ofChats : OfChats chosen)
    (stepped : before.step qt event = some after) : after.Accounted chosen := by
  have steps := stepped_of_step stepped
  refine ⟨ranged_step accounted.ranged steps, windowed_step accounted.windowed stepped, ?_⟩
  cases steps with
  | server other moved => exact accounted.frugal.step ofChats moved
  | receive waiting moved => exact accounted.frugal.step ofChats moved
  | deliver | user => exact accounted.frugal

/-- Only a line that a user enters makes more copies of a message. -/
theorem copies_step (accounted : before.Accounted chosen) (ofChats : OfChats chosen)
    {counts : StruChatRq → Bool}
    (counted : ∀ line : StruChatRq, IsInt32 line.userId → IsInt32 line.friendId →
      FitsArray defContentMaxLength line.content → chosen line.bytes = true → counts line = true)
    (stepped : before.step qt event = some after) :
    after.copies chosen ≤ before.copies chosen + (before.typed qt event).countP counts := by
  cases event with
  | server event =>
      cases stepped_of_step stepped with
      | server other moved =>
          have none_ : event.packets = [] := by
            cases event with
            | receive => simp [Event.isReceive] at other
            | _ => rfl
          have copied := State.copies_step accounted.frugal ofChats moved
          rw [none_, List.countP_nil] at copied
          exact (Nat.add_le_add_left copied _).trans (Nat.le_add_right _ _)
  | receive conn =>
      cases stepped_of_step stepped with
      | @receive _ data front back server waiting moved =>
          have copied := State.copies_step accounted.frugal ofChats moved
          simp only [Event.packets, List.countP_singleton] at copied
          simp only [System.copies, waiting, List.countP_append, List.countP_cons]
          omega
  | deliver conn =>
      cases stepped_of_step stepped with
      | deliver => exact Nat.le_add_right _ _
  | user conn action =>
      rcases Option.map_eq_some_iff.mp stepped with ⟨⟨kernel, packet⟩, acted, rfl⟩
      have written : (packet.toList.map fun data => (conn, data)).countP
          (fun packet => chosen packet.2) ≤
            (before.typed qt (.user conn action)).countP counts := by
        cases packet with
        | none => exact Nat.zero_le _
        | some data =>
            simp only [Option.toList_some, List.map_cons, List.map_nil, List.countP_singleton]
            split
            · rename_i hit
              rcases CKernel.lineOf_of_act acted (ofChats data hit) with
                ⟨line, entered, rfl, own, fits, window⟩
              have ids : IsInt32 line.userId := own ▸ (accounted.ranged conn).mUserId
              have holds := counted line ids ((accounted.windowed conn).range _ window) fits hit
              simp [typed, entered, holds]
            · exact Nat.zero_le _
      simp only [System.copies, List.countP_append]
      omega

end Copies

/-- No message is made up or duplicated on its way: of any kind, the server has queued at most as
many as have been entered. -/
theorem countP_sent_le {qt : Qt} {tUser : List UserRow} {tFriend : List (ℤ × ℤ)}
    {events : List SystemEvent} {final : System} {chosen : Bytes → Bool}
    {counts : StruChatRq → Bool} (ofChats : OfChats chosen)
    (counted : ∀ line : StruChatRq, IsInt32 line.userId → IsInt32 line.friendId →
      FitsArray defContentMaxLength line.content → chosen line.bytes = true → counts line = true)
    (reached : (system qt).run (start tUser tFriend) events = some final) :
    final.server.sent.countP (fun packet => chosen packet.2) ≤
      ((system qt).outputs (typed qt) (start tUser tFriend) events).countP counts := by
  have bounded := (system qt).le_of_outputs (typed qt) (copies chosen) counts (Accounted chosen)
    (fun accounted stepped =>
      ⟨accounted.step ofChats stepped, copies_step accounted ofChats counted stepped⟩)
    (accounted_start tUser tFriend) reached
  have nothing : (start tUser tFriend).copies chosen = 0 := by
    simp [copies, State.copies, start, State.start]
  have part : final.server.sent.countP (fun packet => chosen packet.2) ≤ final.copies chosen :=
    (Nat.le_add_right _ _).trans (Nat.le_add_left _ _)
  omega

/-! ## What the windows show -/

section Windows

variable {qt : Qt} {before after : System} {event : SystemEvent}

/-- A step leaves alone what has come to a client and what its windows show, or the client
handles one more packet. -/
inductive Comes (qt : Qt) (conn : ConnId) (before after : System) : Prop
  | quiet (same : after.came conn = before.came conn)
      (windows : (after.client conn).mMapIdToDialog = (before.client conn).mMapIdToDialog)
  | packet (packet : Bytes) (appended : after.came conn = before.came conn ++ [packet])
      (transmitted : (before.client conn).slotTransmitData qt packet = some (after.client conn))

theorem comes_of_step (within : before.Within) (stepped : before.step qt event = some after)
    (conn : ConnId) : Comes qt conn before after := by
  cases event with
  | server event =>
      cases stepped_of_step stepped with
      | server other moved =>
          exact .quiet (State.take_queuedTo_of_step (within conn) moved) rfl
  | receive receiver =>
      cases stepped_of_step stepped with
      | receive waiting moved =>
          exact .quiet (State.take_queuedTo_of_step (within conn) moved) rfl
  | deliver receiver =>
      rcases Option.bind_eq_some_iff.mp stepped with ⟨packet, queued, moved⟩
      rcases Option.map_eq_some_iff.mp moved with ⟨kernel, transmitted, rfl⟩
      by_cases same : conn = receiver
      · subst same
        refine .packet packet ?_ (by simp only [Function.update_self]; exact transmitted)
        simp only [came, Function.update_self]
        exact take_queuedTo_deliver queued
      · refine .quiet ?_ ?_
        · simp only [came, Function.update_of_ne same]
        · simp only [Function.update_of_ne same]
  | user sender action =>
      rcases Option.map_eq_some_iff.mp stepped with ⟨⟨kernel, packet⟩, acted, rfl⟩
      refine .quiet rfl ?_
      by_cases same : conn = sender
      · subst same
        simp only [Function.update_self]
        exact (CKernel.lists_of_act acted).2
      · simp only [Function.update_of_ne same]

/-- A client shows nothing but what has come to it, in this order. -/
structure Displays (qt : Qt) (system : System) : Prop where
  windowed : ∀ conn, (system.client conn).Windowed
  within : system.Within
  heard : ∀ conn id, ((system.client conn).heard id).Sublist
    ((system.came conn).filterMap (chatFrom qt id))

theorem displays_start (tUser : List UserRow) (tFriend : List (ℤ × ℤ)) :
    (start tUser tFriend).Displays qt :=
  ⟨fun _ => CKernel.windowed_start, fun _ => Nat.zero_le _,
    fun _ _ => List.nil_sublist _⟩

theorem Displays.step (displays : before.Displays qt)
    (stepped : before.step qt event = some after) : after.Displays qt := by
  refine ⟨windowed_step displays.windowed stepped,
    displays.within.step (stepped_of_step stepped), fun conn id => ?_⟩
  cases comes_of_step displays.within stepped conn with
  | quiet same windows =>
      rw [same, CKernel.heard_congr windows]
      exact displays.heard conn id
  | packet packet appended transmitted =>
      rw [appended, List.filterMap_append,
        CKernel.hears_of_slotTransmitData (displays.windowed conn).keys transmitted id]
      refine (displays.heard conn id).append ?_
      split
      · cases shown : chatFrom qt id packet <;> simp [shown]
      · exact List.nil_sublist _

/-- The client shows, beyond what it has shown before, exactly what has come since. -/
structure Records (qt : Qt) (conn : ConnId) (id : ℤ) (earlier : List QString) (skipped : ℕ)
    (system : System) : Prop where
  displays : system.Displays qt
  listed : ((system.client conn).mMapIdToDialog.lookup id).isSome = true
  bound : skipped ≤ system.delivered conn
  heard : (system.client conn).heard id =
    earlier ++ ((system.came conn).drop skipped).filterMap (chatFrom qt id)

theorem Records.step {conn : ConnId} {id : ℤ} {earlier : List QString} {skipped : ℕ}
    (records : before.Records qt conn id earlier skipped)
    (stepped : before.step qt event = some after) :
    after.Records qt conn id earlier skipped := by
  have displays := records.displays.step stepped
  have before_ := records.displays.within.length_came conn
  have after_ := displays.within.length_came conn
  have bound := records.bound
  cases comes_of_step records.displays.within stepped conn with
  | quiet same windows =>
      refine ⟨displays, windows ▸ records.listed, ?_, ?_⟩
      · rw [same] at after_
        omega
      · rw [CKernel.heard_congr windows, same]
        exact records.heard
  | packet packet appended transmitted =>
      have windowed := records.displays.windowed conn
      refine ⟨displays, (windowed.transmit transmitted).2 id records.listed, ?_, ?_⟩
      · rw [appended, List.length_append, List.length_singleton] at after_
        omega
      · rw [CKernel.hears_of_slotTransmitData windowed.keys transmitted id,
          if_pos records.listed, records.heard, appended, List.drop_append_of_le_length (by omega),
          List.filterMap_append, List.append_assoc]
        cases shown : chatFrom qt id packet <;> simp [shown]

end Windows

/-- Chat windows lose nothing and repeat nothing: once a user is in the friend list of a client, his
window shows, after what it showed then, the contents of exactly those chat messages in his name
that have come since, in the order in which the server has queued them. -/
theorem chat_windows_exact {qt : Qt} {tUser : List UserRow} {tFriend : List (ℤ × ℤ)}
    {events later : List SystemEvent} {middle final : System} {conn : ConnId} {id : ℤ}
    (reached : (system qt).run (start tUser tFriend) events = some middle)
    (listed : ((middle.client conn).mMapIdtoForm.lookup id).isSome = true)
    (continued : (system qt).run middle later = some final) :
    (final.client conn).heard id = (middle.client conn).heard id ++
      ((final.came conn).drop (middle.delivered conn)).filterMap (chatFrom qt id) := by
  have displays : middle.Displays qt := (system qt).run_invariant_of_step (Displays qt)
    (fun holds stepped => holds.step stepped) (displays_start tUser tFriend) reached
  have none_ : (middle.came conn).drop (middle.delivered conn) = [] :=
    List.drop_eq_nil_of_le (displays.within.length_came conn).le
  have initially : middle.Records qt conn id ((middle.client conn).heard id)
      (middle.delivered conn) := by
    refine ⟨displays, ?_, le_refl _, ?_⟩
    · rw [(displays.windowed conn).keys id]
      exact listed
    · rw [none_, List.filterMap_nil, List.append_nil]
  have records := (system qt).run_invariant_of_step
    (Records qt conn id ((middle.client conn).heard id) (middle.delivered conn))
    (fun holds stepped => holds.step stepped) initially continued
  exact records.heard

/-! ## From the keyboard to the window -/

/-- What is queued to some of the connections is part of what is queued. -/
theorem sum_countP_sentTo_le (chosen : Bytes → Bool) (conns : Finset ConnId) (state : State) :
    ∑ conn ∈ conns, (state.sentTo conn).countP chosen ≤
      state.sent.countP fun packet => chosen packet.2 := by
  have parts (sent : List (ConnId × Bytes)) :
      ∑ conn ∈ conns, ((sent.filter (·.1 = conn)).map Prod.snd).countP chosen ≤
        sent.countP fun packet => chosen packet.2 := by
    induction sent with
    | nil => simp
    | cons packet sent ih =>
        have each (conn : ConnId) :
            (((packet :: sent).filter (·.1 = conn)).map Prod.snd).countP chosen =
              ((sent.filter (·.1 = conn)).map Prod.snd).countP chosen +
                if packet.1 = conn then (if chosen packet.2 then 1 else 0) else 0 := by
          by_cases same : packet.1 = conn
          · simp [same, List.countP_cons]
          · simp [same]
        have once : ∑ conn ∈ conns, (if packet.1 = conn then
            (if chosen packet.2 then 1 else 0) else 0) ≤ if chosen packet.2 then 1 else 0 := by
          rw [Finset.sum_ite_eq]
          split
          · exact le_refl _
          · exact Nat.zero_le _
        simp only [each, Finset.sum_add_distrib, List.countP_cons]
        omega
  exact parts state.sent

/-- A friend's line is shown at most as often as it has been entered for one of the users whom
the messages queued to these clients name. -/
theorem sum_count_heard_le {qt : Qt} {tUser : List UserRow} {tFriend : List (ℤ × ℤ)}
    {events : List SystemEvent} {final : System} (conns : Finset ConnId) (userId : ℤ)
    (text : QString) (addressed : ℤ → Bool)
    (reached : (system qt).run (start tUser tFriend) events = some final)
    (named : ∀ conn ∈ conns, ∀ packet ∈ final.server.sentTo conn,
      packetType packet = some defChatRq →
        (StruChatRq.readFriendId packet).any addressed = true) :
    ∑ conn ∈ conns, ((final.client conn).heard userId).count text ≤
      ((system qt).outputs (typed qt) (start tUser tFriend) events).countP fun line =>
        line.userId = userId ∧ qt.fromUtf8 line.content = text ∧
          addressed line.friendId = true := by
  have displays : final.Displays qt := (system qt).run_invariant_of_step (Displays qt)
    (fun holds stepped => holds.step stepped) (displays_start tUser tFriend) reached
  let chosen : Bytes → Bool := fun packet => decide (chatFrom qt userId packet = some text) &&
    (StruChatRq.readFriendId packet).any addressed
  have ofChats : OfChats chosen := by
    intro packet hit
    simp only [chosen, Bool.and_eq_true, decide_eq_true_eq] at hit
    exact packetType_of_chatFrom hit.1
  have shown (conn : ConnId) (member : conn ∈ conns) :
      ((final.client conn).heard userId).count text ≤
        (final.server.sentTo conn).countP chosen := by
    calc ((final.client conn).heard userId).count text
        ≤ ((final.came conn).filterMap (chatFrom qt userId)).count text :=
          (displays.heard conn userId).count_le text
      _ = (final.came conn).countP fun packet => chatFrom qt userId packet == some text :=
          List.count_filterMap
      _ ≤ (final.server.sentTo conn).countP fun packet => chatFrom qt userId packet == some text :=
          ((List.take_sublist _ _).trans (queuedTo_sublist_of_run reached conn)).countP_le
      _ ≤ (final.server.sentTo conn).countP chosen := by
          apply List.countP_mono_left
          intro packet queued hit
          have hit : chatFrom qt userId packet = some text := by simpa using hit
          simp [chosen, hit, named conn member packet queued (packetType_of_chatFrom hit)]
  refine ((Finset.sum_le_sum shown).trans (sum_countP_sentTo_le chosen conns _)).trans ?_
  refine countP_sent_le ofChats (fun line ids friend fits hit => ?_) reached
  simp only [chosen, Bool.and_eq_true, decide_eq_true_eq] at hit
  rcases hit with ⟨entered, known⟩
  rw [chatFrom_bytes ids fits] at entered
  rw [StruChatRq.readFriendId_bytes friend] at known
  split at entered
  · rename_i own
    simpa [own, Option.some.inj entered] using known
  · simp at entered

theorem sum_count_heard_le_typed {qt : Qt} {tUser : List UserRow} {tFriend : List (ℤ × ℤ)}
    {events : List SystemEvent} {final : System} (conns : Finset ConnId) (userId : ℤ)
    (text : QString) (reached : (system qt).run (start tUser tFriend) events = some final) :
    ∑ conn ∈ conns, ((final.client conn).heard userId).count text ≤
      ((system qt).outputs (typed qt) (start tUser tFriend) events).countP fun line =>
        line.userId = userId ∧ qt.fromUtf8 line.content = text := by
  have legible := (allLegible_start tUser tFriend).run reached
  have bounded := sum_count_heard_le conns userId text (fun _ => true) reached
  simp only [and_true] at bounded
  apply bounded
  intro conn member packet queued chat
  have readable := (legible.server.sent (conn, packet) (State.mem_sentTo.mp queued)).legible
  rcases readFriendId_of_legible readable chat with ⟨friendId, names⟩
  rw [names, Option.any_some]

/-- While handles are fresh, a message reaches only connections of the user it is for. -/
structure Addressing (system : System) : Prop where
  delivers : system.server.Delivers
  provenance : system.server.Provenance
  obey : system.server.Obey (fun data _ => chatLaw data) fun _ _ _ _ => True
  addressed : system.server.Addressed

theorem addressing_start (tUser : List UserRow) (tFriend : List (ℤ × ℤ)) :
    (start tUser tFriend).Addressing where
  delivers := State.delivers_start tUser tFriend
  provenance := State.provenance_start tUser tFriend
  obey := by simp [State.Obey, start, State.start]
  addressed := by simp [State.Addressed, start, State.start]

theorem Addressing.step {before after : System} {event : SystemEvent}
    (addressing : before.Addressing) (fresh : before.FreshHandles event)
    (stepped : Stepped before event after) : after.Addressing := by
  have serve {event : Event} {server : State} (unused : before.server.FreshHandle event)
      (moved : before.server.step event = some server) :
      server.Delivers ∧ server.Provenance ∧
        server.Obey (fun data _ => chatLaw data) (fun _ _ _ _ => True) ∧ server.Addressed := by
    have coherent := addressing.delivers.coherent
    exact ⟨addressing.delivers.step unused moved, addressing.provenance.step coherent moved,
      addressing.obey.step (fun _ _ => dealData_chatLaw) coherent moved,
      addressing.addressed.step addressing.delivers addressing.provenance addressing.obey moved⟩
  cases stepped with
  | server other moved =>
      rcases serve fresh moved with ⟨delivers, provenance, obey, addressed⟩
      exact ⟨delivers, provenance, obey, addressed⟩
  | @receive conn data front back server waiting moved =>
      have unused : before.server.FreshHandle (.receive conn data) := trivial
      rcases serve unused moved with ⟨delivers, provenance, obey, addressed⟩
      exact ⟨delivers, provenance, obey, addressed⟩
  | deliver | user =>
      exact ⟨addressing.delivers, addressing.provenance, addressing.obey, addressing.addressed⟩

/-- What is shown has been entered: in every run, the windows of any clients show a line in the name
of a user at most as often as a client of his has been told to send it. In a run in which no
handle value comes twice, it has been told so in the window of one of the users who have
logged in on the connections of these clients. -/
theorem chats_genuine {qt : Qt} {tUser : List UserRow} {tFriend : List (ℤ × ℤ)}
    {events : List SystemEvent} {final : System} (conns : Finset ConnId) (userId : ℤ)
    (text : QString) (reached : (system qt).run (start tUser tFriend) events = some final) :
    (∑ conn ∈ conns, ((final.client conn).heard userId).count text ≤
      ((system qt).outputs (typed qt) (start tUser tFriend) events).countP fun line =>
        line.userId = userId ∧ qt.fromUtf8 line.content = text) ∧
    ((system qt).Meets FreshHandles (start tUser tFriend) events → ∀ addressed : ℤ → Bool,
      (∀ conn ∈ conns, ∀ id, final.server.LoggedInOn conn id → addressed id = true) →
        ∑ conn ∈ conns, ((final.client conn).heard userId).count text ≤
          ((system qt).outputs (typed qt) (start tUser tFriend) events).countP fun line =>
            line.userId = userId ∧ qt.fromUtf8 line.content = text ∧
              addressed line.friendId = true) := by
  constructor
  · exact sum_count_heard_le_typed conns userId text reached
  · intro fresh addressed named
    have addressing : final.Addressing := (system qt).run_invariant Addressing
      (fun holds unused stepped => holds.step unused (stepped_of_step stepped))
      (addressing_start tUser tFriend) fresh reached
    refine sum_count_heard_le conns userId text addressed reached ?_
    intro conn member packet queued chat
    rcases addressing.addressed conn packet (State.mem_sentTo.mp queued) chat with
      ⟨friendId, names, loggedIn⟩
    rw [names, Option.any_some]
    exact named conn member friendId loggedIn

/-! ## Alice writes to Bob -/

/-- Bob logs in while Alice is online, and both are told of each other. -/
def bobFindsAlice : List SystemEvent :=
  arrives alice 0 4 ++
  [.server (.accept 8), .server (.list 1),
    .user 1 (.loginMassage (asciiQt.toUnicode bob.tel) (asciiQt.toUnicode bob.pass)),
    .receive 1] ++
  deals ([.rows (some [[bob.pass, decimal bob.id]]), .internal, .internal, .internal,
    .rows (some [[bob.name, bob.feeling, decimal bob.iconId]]), .internal, .internal, .internal,
    .rows (some [[decimal alice.id]]), .internal,
    .rows (some [[alice.name, alice.feeling, decimal alice.iconId]])] ++
      List.replicate 6 .internal) ++
  [.deliver 1, .deliver 1, .deliver 1, .deliver 0]

def greeting : QString := asciiQt.toUnicode (ascii "hi")

/-- One line for Bob. -/
def aliceGreetsBob : List SystemEvent :=
  [.user 0 (.sendMessage bob.id greeting), .receive 0] ++
    deals [.internal, .internal, .internal] ++ [.deliver 1]

theorem chat_windows_exact_greeting : ∃ middle final,
    (system asciiQt).run (start [alice, bob] []) bobFindsAlice = some middle ∧
      (system asciiQt).run middle aliceGreetsBob = some final ∧
        (middle.client 1).heard alice.id = [] ∧ (final.client 1).heard alice.id = [greeting] ∧
          ((final.came 1).drop 3).filterMap (chatFrom asciiQt alice.id) = [greeting] := by
  have evaluated : ((system asciiQt).run (start [alice, bob] []) bobFindsAlice).any (fun middle =>
      ((middle.client 1).mMapIdtoForm.lookup alice.id).isSome ∧ middle.delivered 1 = 3 ∧
        (middle.client 1).heard alice.id = [] ∧
        ((system asciiQt).run middle aliceGreetsBob).any fun final =>
          (final.client 1).heard alice.id = [greeting]) = true := by
    decide +kernel
  rcases (Option.any_eq_true _ _).mp evaluated with ⟨middle, reached, shape⟩
  simp only [decide_eq_true_eq] at shape
  rcases shape with ⟨listed, got, silent, after⟩
  rcases (Option.any_eq_true _ _).mp after with ⟨final, continued, shown⟩
  have shown : (final.client 1).heard alice.id = [greeting] := of_decide_eq_true shown
  have exact_ := chat_windows_exact reached listed continued
  rw [silent, List.nil_append, got, shown] at exact_
  exact ⟨middle, final, reached, continued, silent, shown, exact_.symm⟩

theorem chats_genuine_greeting : ∃ final,
    (system asciiQt).run (start [alice, bob] []) (bobFindsAlice ++ aliceGreetsBob) = some final ∧
      (final.client 1).heard alice.id = [greeting] ∧
        1 ≤ ((system asciiQt).outputs (typed asciiQt) (start [alice, bob] [])
          (bobFindsAlice ++ aliceGreetsBob)).countP fun line => line.userId = alice.id ∧
            asciiQt.fromUtf8 line.content = greeting ∧ (line.friendId == bob.id) = true := by
  have evaluated : ((system asciiQt).run (start [alice, bob] [])
      (bobFindsAlice ++ aliceGreetsBob)).any (fun final =>
        (final.client 1).heard alice.id = [greeting] ∧
          Reception.logins final.server.log = [(1, bob.id), (0, alice.id)]) = true := by
    decide +kernel
  have passed : (system asciiQt).allSteps isRegular (start [alice, bob] [])
      (bobFindsAlice ++ aliceGreetsBob) = true := by
    decide +kernel
  rcases (Option.any_eq_true _ _).mp evaluated with ⟨final, reached, shape⟩
  simp only [decide_eq_true_eq] at shape
  rcases shape with ⟨shown, accounts⟩
  have bounded := (chats_genuine {1} alice.id greeting reached).2
    ((system asciiQt).meets_of_allSteps
      (fun system event passes => (isRegular_sound system event passes).freshHandles) passed)
    (· == bob.id) ?_
  · rw [Finset.sum_singleton, shown, List.count_singleton_self] at bounded
    exact ⟨final, reached, shown, bounded⟩
  · intro conn member id loggedIn
    rcases Finset.mem_singleton.mp member with rfl
    have known := Reception.mem_logins loggedIn
    rw [accounts] at known
    simpa using known

end System

end InstanceMessage
