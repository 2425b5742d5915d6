import InstanceMessage.Chats
import InstanceMessage.DeploymentRefinement

/-!
# What the users get of the deployed program

The deployed program is a system of packets in which the users do the same to
the same clients. What holds of every run of that system thus holds of the
program with its bytes: no client is stopped by what the server writes, every
client can catch up with it, and the windows show no line that has not been
entered.
-/

namespace InstanceMessage

open Library

/-- The line that the user enters. -/
def UserDeed.line (qt : Qt) (deed : UserDeed) : Option StruChatRq :=
  deed.kernel.lineOf qt deed.action

theorem System.outputs_typed (qt : Qt) (state : System) (events : List SystemEvent) :
    (system qt).outputs (System.typed qt) state events =
      ((system qt).outputs System.deeds state events).flatMap fun deed =>
        (deed.line qt).toList := by
  have same : System.typed qt = fun before event =>
      (System.deeds before event).flatMap fun deed => (deed.line qt).toList := by
    funext before event
    cases event <;> simp [System.typed, System.deeds, UserDeed.line]
  rw [same]
  exact (system qt).outputs_flatMap System.deeds _ state events

namespace RecvData

theorem Follows.phase_ne_crashed {sent : List Bytes} {state : RecvData}
    (follows : Follows sent state) : state.phase ≠ .crashed := by
  cases follows with
  | length | content => simp [atLength, atContent]
  | done ended =>
      rw [ended]
      simp

end RecvData

namespace Deployment

variable {qt : Qt} {workers threadCount : ℕ} {tUser : List UserRow} {tFriend : List (ℤ × ℤ)}
  {events : List DeploymentEvent} {before final : Deployment} {conn : ConnId}

/-! ## Safety of the clients -/

/-- What a receiving thread has handed over has been queued to its client. -/
theorem Stands.legible_of_handed {state : System} (stands : before.Stands state) {packet : Bytes}
    (handed : packet ∈ (before.receiver conn).transmitted) : Legible packet :=
  (stands.legible.sendable ((stands.sends conn).transmitted_isPrefix.subset handed)).legible

variable (qt) in
/-- A client that runs can take a packet that has been handed over to it. -/
theorem Stands.exists_transmitData {state : System} (stands : before.Stands state)
    (running : (before.client conn).exited = false)
    (more : before.dealt conn < (before.receiver conn).transmitted.length) :
    ∃ next, before.step qt (.transmitData conn) = some next := by
  have next := List.getElem?_eq_getElem more
  have readable := stands.legible_of_handed (List.mem_of_getElem? next)
  have handles : ∃ kernel, (before.client conn).slotTransmitData qt _ = some kernel :=
    CKernel.exists_slotTransmitData readable running
  rcases handles with ⟨kernel, handled⟩
  simp only [Deployment.step, next, Option.bind_some, handled, Option.map_some]
  exact ⟨_, rfl⟩

/-- No length and no packet stops a client: the receiving threads allocate no buffer of a negative
size, the fields that a client reads of a packet handed over to it lie inside the packet, and a
client that still runs can take the next one. -/
theorem receivers_survive
    (orderly : (deployment qt).Meets Orderly (start workers threadCount tUser tFriend) events)
    (reached : (deployment qt).run (start workers threadCount tUser tFriend) events = some final)
    (conn : ConnId) :
    (final.receiver conn).phase ≠ .crashed ∧
      (∀ packet ∈ (final.receiver conn).transmitted, Legible packet) ∧
        ((final.client conn).exited = false →
          final.dealt conn < (final.receiver conn).transmitted.length →
            ∃ next, final.step qt (.transmitData conn) = some next) := by
  rcases (stands_start workers threadCount tUser tFriend).run orderly reached with
    ⟨_, state, _, _, stands⟩
  exact ⟨(stands.sends conn).phase_ne_crashed, fun packet handed => stands.legible_of_handed handed,
    fun running more => stands.exists_transmitData qt running more⟩

/-- Alice's client has received her own user info, and has not taken it yet. -/
def aliceReceives : List DeploymentEvent := aliceLogsIn ++ [.recv 0 4, .recv 0 136]

theorem receivers_survive_login : ∃ final next,
    (deployment System.asciiQt).run (start 1 1 [alice] []) aliceReceives = some final ∧
      (final.receiver 0).transmitted.length = 2 ∧
        final.step System.asciiQt (.transmitData 0) = some next := by
  have evaluated : ((deployment System.asciiQt).run (start 1 1 [alice] []) aliceReceives).any
      (fun final => (final.receiver 0).transmitted.length = 2 ∧ final.dealt 0 = 1 ∧
        (final.client 0).exited = false) = true := by
    decide +kernel
  have passed : (deployment System.asciiQt).allSteps orderly (start 1 1 [alice] [])
      aliceReceives = true := by
    decide +kernel
  rcases (Option.any_eq_true _ _).mp evaluated with ⟨final, reached, shape⟩
  rcases of_decide_eq_true shape with ⟨got, taken, running⟩
  have survives := receivers_survive
    ((deployment System.asciiQt).meets_of_allSteps orderly_sound passed) reached 0
  rcases survives.2.2 running (by omega) with ⟨next, stepped⟩
  exact ⟨final, next, reached, got, stepped⟩

/-! ## Progress of a client -/

variable (qt) in
/-- The receiving thread of a client goes on by itself. -/
theorem run_recv (running : (before.client conn).exited = false) {sizes : List ℕ}
    {receiver : RecvData} (pieces : recvData.Meets RecvData.InOne (before.receiver conn) sizes)
    (received : recvData.run (before.receiver conn) sizes = some receiver) :
    (deployment qt).Meets Orderly before (sizes.map (.recv conn)) ∧
      (deployment qt).run before (sizes.map (.recv conn)) =
        some { before with receiver := Function.update before.receiver conn receiver } := by
  induction sizes generalizing before with
  | nil =>
      rcases Option.some.inj received with rfl
      refine ⟨trivial, ?_⟩
      rw [Function.update_eq_self]
      rfl
  | cons bytes sizes ih =>
      rcases recvData.run_cons_eq_some.mp received with ⟨next, stepped, rest⟩
      let middle : Deployment :=
        { before with receiver := Function.update before.receiver conn next }
      have moved : (deployment qt).step before (.recv conn bytes) = some middle := by
        have stepped : (before.receiver conn).recv bytes = some next := stepped
        simp [deployment, step, running, stepped, middle]
      have here : middle.receiver conn = next := Function.update_self ..
      have remaining := pieces.2 next stepped
      rw [← here] at rest remaining
      rcases @ih middle running remaining rest with ⟨orderly, run⟩
      refine ⟨(deployment qt).meets_cons moved pieces.1 orderly, ?_⟩
      refine (deployment qt).run_cons_eq_some.mpr ⟨middle, moved, ?_⟩
      simpa only [middle, Function.update_idem] using run

variable (qt) in
/-- The event loop of a client that runs takes all that has been handed over. -/
theorem Stands.exists_takes {state : System} (stands : before.Stands state)
    (running : (before.client conn).exited = false) {count : ℕ}
    (waiting : (before.receiver conn).transmitted.length - before.dealt conn = count) :
    ∃ last, (deployment qt).Meets Orderly before (List.replicate count (.transmitData conn)) ∧
      (deployment qt).run before (List.replicate count (.transmitData conn)) = some last ∧
        last.receiver = before.receiver ∧
          (before.receiver conn).transmitted.length ≤ last.dealt conn := by
  induction count generalizing before state with
  | zero => exact ⟨before, trivial, rfl, rfl, Nat.sub_eq_zero_iff_le.mp waiting⟩
  | succ count ih =>
      rcases stands.exists_transmitData qt running (by omega) with ⟨next, stepped⟩
      rcases stands.transmitData stepped with ⟨after, _, still⟩
      rcases Option.bind_eq_some_iff.mp stepped with ⟨packet, _, rest⟩
      rcases Option.map_eq_some_iff.mp rest with ⟨kernel, handled, rfl⟩
      have goesOn := (CKernel.exited_of_slotTransmitData handled).2
      rcases ih still (by simpa using goesOn) (by simp; omega) with
        ⟨last, orderly, run, receivers, dealt⟩
      exact ⟨last, (deployment qt).meets_cons stepped trivial orderly,
        (deployment qt).run_cons_eq_some.mpr ⟨_, stepped, run⟩, receivers, dealt⟩

/-- The client has received and taken all that has been sent to it. -/
structure CaughtUp (deployment : Deployment) (conn : ConnId) : Prop where
  rest : (deployment.receiver conn).rest = []
  between : (deployment.receiver conn).phase = .length
  dealt : (deployment.receiver conn).transmitted.length ≤ deployment.dealt conn

theorem Stands.length_queuedTo_le {state : System} (stands : before.Stands state)
    (caughtUp : before.CaughtUp conn) :
    (state.server.queuedTo conn).length ≤ state.delivered conn := by
  rw [← (stands.sends conn).transmitted_eq caughtUp.between caughtUp.rest, stands.delivered]
  exact caughtUp.dealt

/-- A client can always catch up: while it runs and its connection lasts, its two threads alone
can bring it to a state in which nothing is on its way and no packet waits; it then has got
everything that `WSASend` has taken for it. -/
theorem clients_catch_up
    (orderly : (deployment qt).Meets Orderly (start workers threadCount tUser tFriend) events)
    (reached : (deployment qt).run (start workers threadCount tUser tFriend) events = some final)
    (running : (final.client conn).exited = false)
    (lasts : (final.receiver conn).phase ≠ .done) :
    ∃ later last, (∀ event ∈ later, event = .transmitData conn ∨
        ∃ bytes, event = .recv conn bytes) ∧
      (deployment qt).Meets Orderly final later ∧ (deployment qt).run final later = some last ∧
        last.CaughtUp conn ∧ ∃ systemEvents state,
          (system qt).run (.start tUser tFriend) systemEvents = some state ∧ last.Shows state ∧
            state.delivered conn = (state.server.queuedTo conn).length := by
  rcases (stands_start workers threadCount tUser tFriend).run orderly reached with
    ⟨systemEvents, state, performed, _, stands⟩
  rcases (stands.sends conn).exists_run stands.lengths lasts with ⟨sizes, pieces, received⟩
  rcases run_recv qt running pieces received with ⟨receives, run⟩
  rcases stands.run receives run with ⟨firstEvents, middle, first, _, standsMiddle⟩
  rcases standsMiddle.exists_takes qt (show (final.client conn).exited = false from running)
    rfl with ⟨last, takes, taken, receivers, dealt⟩
  rcases standsMiddle.run takes taken with ⟨secondEvents, after, second, _, standsLast⟩
  have receiver : last.receiver conn = .atLength [] (state.server.queuedTo conn) := by
    rw [receivers]
    exact Function.update_self ..
  have caughtUp : last.CaughtUp conn := by
    rw [← receivers] at dealt
    exact ⟨by rw [receiver]; rfl, by rw [receiver]; rfl, dealt⟩
  have whole : (system qt).run (.start tUser tFriend)
      (systemEvents ++ firstEvents ++ secondEvents) = some after := by
    refine (system qt).run_append_eq_some.mpr ⟨middle, ?_, second⟩
    exact (system qt).run_append_eq_some.mpr ⟨state, performed, first⟩
  refine ⟨_, last, ?_, (deployment qt).meets_append receives run takes,
    (deployment qt).run_append_eq_some.mpr ⟨_, run, taken⟩, caughtUp, _, after, whole,
    standsLast.shown, ?_⟩
  · intro event member
    rcases List.mem_append.mp member with receives | takes
    · rcases List.mem_map.mp receives with ⟨bytes, _, rfl⟩
      exact Or.inr ⟨bytes, rfl⟩
    · exact Or.inl (List.eq_of_mem_replicate takes)
  · have displays : after.Displays qt := (system qt).run_invariant_of_step (System.Displays qt)
      (fun holds stepped => holds.step stepped) (System.displays_start tUser tFriend) whole
    exact le_antisymm (displays.within conn) (standsLast.length_queuedTo_le caughtUp)

theorem clients_catch_up_login : ∃ final later last,
    (deployment System.asciiQt).run (start 1 1 [alice] []) aliceLogsIn = some final ∧
      (final.receiver 0).rest ≠ [] ∧
        (deployment System.asciiQt).run final later = some last ∧ last.CaughtUp 0 := by
  have evaluated : ((deployment System.asciiQt).run (start 1 1 [alice] []) aliceLogsIn).any
      (fun final => (final.client 0).exited = false ∧ (final.receiver 0).phase = .length ∧
        (final.receiver 0).rest ≠ []) = true := by
    decide +kernel
  have passed : (deployment System.asciiQt).allSteps orderly (start 1 1 [alice] [])
      aliceLogsIn = true := by
    decide +kernel
  rcases (Option.any_eq_true _ _).mp evaluated with ⟨final, reached, shape⟩
  rcases of_decide_eq_true shape with ⟨running, between, coming⟩
  have lasts : (final.receiver 0).phase ≠ .done := by
    rw [between]
    decide
  rcases clients_catch_up ((deployment System.asciiQt).meets_of_allSteps orderly_sound passed)
    reached running lasts with ⟨later, last, _, _, continued, caughtUp, _⟩
  exact ⟨final, later, last, reached, coming, continued, caughtUp⟩

/-! ## Chat windows -/

/-- The lines that the users enter. -/
def typed (qt : Qt) (deployment : Deployment) (event : DeploymentEvent) : List StruChatRq :=
  (deployment.deeds event).flatMap fun deed => (deed.line qt).toList

/-- What is shown has been entered: the windows of any clients show a line in the name of a user at
most as often as a client of his has been told to send it. -/
theorem windows_genuine
    (orderly : (deployment qt).Meets Orderly (start workers threadCount tUser tFriend) events)
    (reached : (deployment qt).run (start workers threadCount tUser tFriend) events = some final)
    (conns : Finset ConnId) (userId : ℤ) (text : QString) :
    ∑ conn ∈ conns, ((final.client conn).heard userId).count text ≤
      ((deployment qt).outputs (typed qt) (start workers threadCount tUser tFriend) events).countP
        fun line => line.userId = userId ∧ qt.fromUtf8 line.content = text := by
  rcases (stands_start workers threadCount tUser tFriend).run orderly reached with
    ⟨systemEvents, state, performed, same, stands⟩
  have lines : (deployment qt).outputs (typed qt) (start workers threadCount tUser tFriend)
      events = (system qt).outputs (System.typed qt) (.start tUser tFriend) systemEvents := by
    rw [System.outputs_typed, same]
    exact (deployment qt).outputs_flatMap deeds _ _ events
  rw [lines, ← stands.client]
  exact System.sum_count_heard_le_typed conns userId text performed

/-! ## Alice writes to Bob -/

/-- The one pool thread deals with the packet that comes to the receive context. -/
def comes (pio : ContextId) (packet : Bytes) (outcomes : List Outcome) : List DeploymentEvent :=
  [.server (.kernel (.run 0 none)),
    .server (.loop (.dequeue 0 pio (int32 packet.length))), .server (.loop (.handle 0 true)),
    .server (.loop (.dequeue 0 pio packet)), .server (.loop (.handle 0 true)),
    .server (.kernel (.notify (some 0))), .server (.kernel (.run 0 none))] ++
  outcomes.map (fun outcome => .server (.kernel (.act 0 outcome))) ++
  [.server (.kernel (.dealt 0))]

/-- The client receives a packet of this length and takes it. -/
def takes (conn : ConnId) (length : ℕ) : List DeploymentEvent :=
  [.recv conn 4, .recv conn length, .transmitData conn]

/-- Bob logs in while Alice is online, and both are told of each other. -/
def bobFindsAlice : List DeploymentEvent :=
  aliceLogsIn ++ takes 0 136 ++
  [.server (.loop (.accept 8)), .server (.loop .list), .server (.loop (.postFirst true)),
    .user 1 (.loginMassage (System.asciiQt.toUnicode bob.tel)
      (System.asciiQt.toUnicode bob.pass))] ++
  comes 3 (StruLoginRq.bytes ⟨bob.tel, bob.pass⟩)
    ([.rows (some [[bob.pass, decimal bob.id]]), .internal, .internal, .internal,
      .rows (some [[bob.name, bob.feeling, decimal bob.iconId]]), .internal, .internal, .internal,
      .rows (some [[decimal alice.id]]), .internal,
      .rows (some [[alice.name, alice.feeling, decimal alice.iconId]])] ++
        List.replicate 6 .internal) ++
  takes 0 136 ++ takes 1 12 ++ takes 1 136 ++ takes 1 136

/-- One line for Bob, which his client gets in two pieces. -/
def aliceGreetsBob : List DeploymentEvent :=
  .user 0 (.sendMessage bob.id System.greeting) ::
    comes 0 (StruChatRq.bytes ⟨alice.id, bob.id, ascii "hi"⟩)
      [.internal, .internal, .internal] ++
    [.recv 1 4, .recv 1 4104, .recv 1 4100, .transmitData 1]

theorem windows_genuine_greeting : ∃ final,
    (deployment System.asciiQt).run (start 1 1 [alice, bob] [])
        (bobFindsAlice ++ aliceGreetsBob) = some final ∧
      (final.client 1).heard alice.id = [System.greeting] ∧
        1 ≤ ((deployment System.asciiQt).outputs (typed System.asciiQt)
          (start 1 1 [alice, bob] []) (bobFindsAlice ++ aliceGreetsBob)).countP fun line =>
            line.userId = alice.id ∧ System.asciiQt.fromUtf8 line.content = System.greeting := by
  have evaluated : ((deployment System.asciiQt).run (start 1 1 [alice, bob] [])
      (bobFindsAlice ++ aliceGreetsBob)).any (fun final =>
        (final.client 1).heard alice.id = [System.greeting]) = true := by
    decide +kernel
  have passed : (deployment System.asciiQt).allSteps orderly (start 1 1 [alice, bob] [])
      (bobFindsAlice ++ aliceGreetsBob) = true := by
    decide +kernel
  rcases (Option.any_eq_true _ _).mp evaluated with ⟨final, reached, shown⟩
  have shown : (final.client 1).heard alice.id = [System.greeting] := of_decide_eq_true shown
  have bounded := windows_genuine
    ((deployment System.asciiQt).meets_of_allSteps orderly_sound passed) reached {1} alice.id
    System.greeting
  rw [Finset.sum_singleton, shown, List.count_singleton_self] at bounded
  exact ⟨final, reached, shown, bounded⟩

end Deployment

end InstanceMessage
