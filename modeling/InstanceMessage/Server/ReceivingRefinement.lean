import InstanceMessage.Server.Receiving
import InstanceMessage.Server.Streams

/-!
# One connection among the others

What the workers do with the receive context of one connection, whichever of
them do it and whatever happens in between, is a run of the receiving of that
connection alone. Its completions are those that have transferred something, in
the order in which the workers handle them.
-/

namespace InstanceMessage

open Library

namespace IocpServer

/-- The size of the completion of the connection's receive context that the worker handles; nothing
for one that has transferred nothing. -/
def completions (client : Handle) (server : IocpServer) : IocpEvent → List ℕ
  | .handle worker _ =>
      match server.workers[worker]? with
      | some (.handling pio received) =>
          if server.receiver pio = some client ∧ received ≠ [] then [received.length] else []
      | _ => []
  | _ => []

/-- What arrives on the connection goes on with the stream. -/
def Continues (client : Handle) (stream : Bytes) (server : IocpServer) : IocpEvent → Prop
  | .dequeue _ pio received =>
      server.receiver pio = some client → server.arrived client ++ received <+: stream
  | _ => True

/-- The receive context of the connection, seen alone. -/
structure Watched (client : Handle) (stream : Bytes) (server : IocpServer) (state : Receiving) :
    Prop where
  arrives : server.arrived client <+: stream
  submitted : submitted server.reports client = state.submitted.map TaskData.data
  closed : state.closed = true → .closed client ∈ server.reports
  unlisted : (∀ pio, server.receiver pio ≠ some client) → state = .start client stream
  awaits : ∀ pio, server.receiver pio = some client → server.Awaits pio →
    state.closed = false ∧ server.pios pio = some state.pio ∧
      stream = server.arrived client ++ state.rest
  handles : ∀ pio received, server.receiver pio = some client → server.Handles pio received →
    state.closed = false ∧ server.pios pio = some (state.pio.filled received) ∧
      received.length ≤ state.pio.requested ∧
        ∃ before, server.arrived client = before ++ received ∧ stream = before ++ state.rest

section Step

variable {server next : IocpServer} {event : IocpEvent} {worker : ℕ} {old new : Stage}
  {pio : ContextId} {context : PerIo} {client : Handle} {stream received : Bytes}
  {state : Receiving}

/-- Nothing happens on the connection, and nobody gets its context. -/
theorem Watched.frame (watched : server.Watched client stream state)
    (receivers : ∀ pio, next.receiver pio = some client ↔ server.receiver pio = some client)
    (kept : ∀ pio, server.receiver pio = some client → next.pios pio = server.pios pio ∧
      (next.Awaits pio → server.Awaits pio) ∧
        ∀ received, next.Handles pio received → server.Handles pio received)
    (arrived : next.arrived client = server.arrived client) {more : List Report}
    (reports : next.reports = server.reports ++ more)
    (nothing : IocpServer.submitted more client = []) : next.Watched client stream state where
  arrives := by
    rw [arrived]
    exact watched.arrives
  submitted := by
    rw [reports, submitted_append, nothing, List.append_nil]
    exact watched.submitted
  closed closed := by
    rw [reports]
    exact List.mem_append_left _ (watched.closed closed)
  unlisted unlisted := watched.unlisted fun pio receiver =>
    unlisted pio ((receivers pio).mpr receiver)
  awaits pio receiver awaits := by
    have before := (receivers pio).mp receiver
    rcases kept pio before with ⟨pios, awaited, _⟩
    rw [pios, arrived]
    exact watched.awaits pio before (awaited awaits)
  handles pio received receiver handles := by
    have before := (receivers pio).mp receiver
    rcases kept pio before with ⟨pios, _, handled⟩
    rw [pios, arrived]
    exact watched.handles pio received before (handled received handles)

/-- A worker goes on with something else than a completion of the connection's context. -/
theorem Watched.become (watched : server.Watched client stream state) (owned : server.Owned)
    (present : server.workers[worker]? = some old)
    (workers : next.workers = server.workers.set worker new)
    (done : ∀ other bytes, new ≠ .handling other bytes)
    (receivers : next.receiver = server.receiver)
    (kept : ∀ pio, server.receiver pio = some client →
      next.pios pio = server.pios pio ∧ (next.Awaits pio → server.Awaits pio))
    (arrived : next.arrived = server.arrived) {more : List Report}
    (reports : next.reports = server.reports ++ more)
    (nothing : IocpServer.submitted more client = []) : next.Watched client stream state := by
  refine watched.frame (fun pio => by rw [receivers]) (fun pio receiver => ?_) (by rw [arrived])
    reports nothing
  rcases kept pio receiver with ⟨pios, awaits⟩
  refine ⟨pios, awaits, fun received handles => ?_⟩
  rcases owned.handles_become present workers handles with same | before
  · exact absurd same (done pio received)
  · exact before.1

/-- A worker has handled the connection's context. -/
theorem Watched.handle (watched : server.Watched client stream state) (framed : server.Framed)
    (present : server.workers[worker]? = some (.handling pio received))
    (receiver : server.receiver pio = some client)
    (workers : next.workers = server.workers.set worker new)
    (done : ∀ other bytes, new ≠ .handling other bytes)
    (receivers : next.receiver = server.receiver) (arrived : next.arrived = server.arrived)
    {more : List Report} (reports : next.reports = server.reports ++ more) {later : Receiving}
    (submits : later.submitted.map TaskData.data =
      state.submitted.map TaskData.data ++ IocpServer.submitted more client)
    (closes : later.closed = true → .closed client ∈ more)
    (awaits : next.Awaits pio → later.closed = false ∧ next.pios pio = some later.pio ∧
      stream = server.arrived client ++ later.rest) : next.Watched client stream later := by
  have only {other : ContextId} (again : next.receiver other = some client) : other = pio :=
    framed.distinct (receivers ▸ again) receiver
  constructor
  case arrives =>
    rw [arrived]
    exact watched.arrives
  case submitted => rw [reports, submitted_append, watched.submitted, submits]
  case closed =>
    intro closed
    rw [reports]
    exact List.mem_append_right _ (closes closed)
  case unlisted => exact fun unlisted => absurd (receivers ▸ receiver) (unlisted pio)
  case awaits =>
    intro other again awaited
    rw [arrived, only again]
    exact awaits (only again ▸ awaited)
  case handles =>
    intro other bytes again handles
    rw [only again] at handles
    exact absurd handles ((framed.owned.handles_handled present workers done).2 bytes)

theorem Watched.list (watched : server.Watched client stream state) (framed : server.Framed)
    (owned : (server.list client).Owned)
    (unused : ∀ pio, server.receiver pio ≠ some client) :
    (server.list client).Watched client stream state := by
  have made := receiver_list server client
  have only {pio : ContextId} (receiver : (server.list client).receiver pio = some client) :
      pio = server.nextPio := by
    by_contra different
    rw [made, Function.update_of_ne different] at receiver
    exact unused pio receiver
  have nothing : server.arrived client = [] := (framed.fresh unused).1
  have fresh := watched.unlisted unused
  constructor
  case arrives => exact watched.arrives
  case submitted => exact watched.submitted
  case closed => exact watched.closed
  case unlisted =>
    intro unlisted
    exact absurd (by rw [made, Function.update_self]) (unlisted server.nextPio)
  case awaits =>
    intro pio receiver _
    rw [only receiver, fresh]
    refine ⟨rfl, Function.update_self _ _ _, ?_⟩
    change stream = server.arrived client ++ stream
    rw [nothing, List.nil_append]
  case handles =>
    intro pio received receiver handles
    rw [only receiver] at handles
    exact absurd handles (owned.not_handles_of_awaits (.inr rfl) received)

theorem Watched.dequeue (watched : server.Watched client stream state) (framed : server.Framed)
    (owned : (server.dequeue worker pio context received).Owned)
    (present : server.workers[worker]? = some .waiting) (found : server.pios pio = some context)
    (posted : 0 < server.outstanding pio) (fits : received.length ≤ context.requested)
    (continues : server.receiver pio = some client →
      server.arrived client ++ received <+: stream) :
    (server.dequeue worker pio context received).Watched client stream state := by
  have receivers := receiver_dequeue worker received found
  by_cases receiver : server.receiver pio = some client
  · have awaits : server.Awaits pio := .inl posted
    rcases watched.awaits pio receiver awaits with ⟨isOpen, awaiting, stream_⟩
    rcases Option.some.inj (found.symm.trans awaiting) with rfl
    rcases exists_of_receiver receiver with ⟨again, foundAgain, receives, sock⟩
    rcases Option.some.inj (foundAgain.symm.trans found) with rfl
    have arrives : (server.dequeue worker pio state.pio received).arrived client =
        server.arrived client ++ received := by
      simp [IocpServer.dequeue, receives, sock]
    have handles := handles_of_dequeue pio state.pio received present
    have only {other : ContextId}
        (also_ : (server.dequeue worker pio state.pio received).receiver other = some client) :
        other = pio := framed.distinct (receivers ▸ also_) receiver
    constructor
    case arrives =>
      rw [arrives]
      exact continues receiver
    case submitted => exact watched.submitted
    case closed => exact watched.closed
    case unlisted => exact fun unlisted => absurd (receivers ▸ receiver) (unlisted pio)
    case awaits =>
      intro other again still
      rw [only again] at still
      exact absurd handles (owned.not_handles_of_awaits still received)
    case handles =>
      intro other bytes again still
      rw [only again] at still ⊢
      rcases framed.owned.handles_dequeue present still with ⟨_, rfl⟩ | before
      · exact ⟨isOpen, Function.update_self _ _ _, fits, server.arrived client, arrives, stream_⟩
      · exact absurd before (framed.owned.not_handles_of_awaits awaits bytes)
  · have different {other : ContextId} (of : server.receiver other = some client) :
        other ≠ pio := by
      rintro rfl
      exact receiver of
    refine watched.frame (fun other => by rw [receivers]) (fun other of => ⟨?_, ?_, ?_⟩) ?_
      (List.append_nil _).symm rfl
    · exact Function.update_of_ne (different of) _ _
    · exact awaits_dequeue (different of)
    · intro bytes handles
      rcases framed.owned.handles_dequeue present handles with ⟨same, _⟩ | before
      · exact absurd same (different of)
      · exact before
    · simp only [IocpServer.dequeue]
      split
      · rename_i receives
        apply Function.update_of_ne
        rintro rfl
        exact receiver (receiver_of_isReceive found receives)
      · rfl

/-- The receive of a body is refused, and the connection is closed. -/
theorem reports_refused (server : IocpServer) (worker : ℕ) (pio : ContextId) (length : ℕ)
    (context : PerIo) :
    (server.handled worker pio context false (.recvBody { context with
      opType := .opRecvBody, bodyLen := length, bodyBuf := List.replicate length 0 })).reports =
        server.reports ++ [.closed context.sock] := by
  simp [IocpServer.handled, close, PerIo.isReceive, put, IocpServer.become]

/-- The connection's context is not the one that is handled, or nothing has been transferred. -/
theorem Watched.handled_other (watched : server.Watched client stream state)
    (owned : server.Owned) {posted : Bool} {effect : Effect}
    (present : server.workers[worker]? = some (.handling pio received))
    (found : server.pios pio = some context) (looped : Looped received.length context effect)
    (other : server.receiver pio = some client → effect = .closeClient) :
    (server.handled worker pio context posted effect).Watched client stream state := by
  have receivers := receiver_handled server worker posted found looped
  have different (elsewhere : effect ≠ .closeClient) {held : ContextId}
      (receiver : server.receiver held = some client) : held ≠ pio := by
    rintro rfl
    exact elsewhere (other receiver)
  cases looped with
  | closeClient =>
      have reports : (server.handled worker pio context posted .closeClient).reports =
          server.reports ++ if context.isReceive then [.closed context.sock] else [] := by
        simp only [IocpServer.handled, close]
        split <;> simp
      refine watched.become owned present rfl (by simp) receivers (fun _ _ => ⟨rfl, id⟩) rfl reports
        ?_
      split <;> rfl
  | recvBody header whole positive bounded =>
      cases posted with
      | true =>
          refine watched.become owned present rfl (by simp) receivers (fun held receiver => ?_) rfl
            (List.append_nil _).symm rfl
          have apart := different (by simp) receiver
          exact ⟨Function.update_of_ne apart _ _, awaits_handled apart⟩
      | false =>
          have reports := reports_refused server worker pio (ofLe context.headerBuf) context
          refine watched.become owned present rfl (by simp) receivers (fun held receiver => ?_) rfl
            reports rfl
          exact ⟨Function.update_of_ne (different (by simp) receiver) _ _, id⟩
  | submit body some whole =>
      have foreign : context.sock ≠ client := by
        rintro rfl
        have receiver := receiver_of_isReceive found (by simp [PerIo.isReceive, body])
        exact different (by simp) receiver rfl
      refine watched.become owned present rfl (by simp) receivers (fun held receiver => ?_) rfl rfl
        ?_
      · have apart := different (by simp) receiver
        exact ⟨Function.update_of_ne apart _ _, awaits_handled apart⟩
      · simp [IocpServer.submitted, Report.body?, foreign]
  | release sent =>
      exact watched.become owned present rfl (by simp) receivers (fun _ _ => ⟨rfl, id⟩) rfl
        (List.append_nil _).symm rfl
  | nothing sent =>
      exact watched.become owned present rfl (by simp) receivers (fun _ _ => ⟨rfl, id⟩) rfl
        (List.append_nil _).symm rfl

/-- The bytes that a worker has got are the next ones of the stream. -/
theorem Watched.completes (watched : server.Watched client stream state)
    (handles : server.Handles pio received) (found : server.pios pio = some context)
    (receiver : server.receiver pio = some client) (some_ : received ≠ []) :
    state.closed = false ∧
      stream = server.arrived client ++ state.rest.drop received.length ∧
        state.complete received.length =
          some (({ state with rest := state.rest.drop received.length } : Receiving).handled
            (workerBody received.length context)) := by
  rcases watched.handles pio received receiver handles with
    ⟨isOpen, filled, fits, before, arrived, whole⟩
  rcases Option.some.inj (found.symm.trans filled) with rfl
  have front : received <+: state.rest := by
    have arrives := watched.arrives
    rw [arrived, whole] at arrives
    exact (List.prefix_append_right_inj before).mp arrives
  rcases front with ⟨tail, rest⟩
  refine ⟨isOpen, ?_, ?_⟩
  · rw [arrived, whole, ← rest, List.drop_left, List.append_assoc]
  · have taken : state.rest.take received.length = received := by
      rw [← rest, List.take_left]
    have length : received.length ≤ state.rest.length := by
      rw [← rest, List.length_append]
      omega
    simp only [Receiving.complete, taken]
    rw [if_pos ⟨isOpen, List.length_pos_of_ne_nil some_, fits, length⟩]

/-- The completion of the connection's context is one of the receiving seen alone. -/
theorem Watched.handled_own (watched : server.Watched client stream state)
    (framed : server.Framed) (posted : Bool)
    (present : server.workers[worker]? = some (.handling pio received))
    (found : server.pios pio = some context) (receiver : server.receiver pio = some client)
    (some_ : received ≠ []) :
    ∃ later, state.complete received.length = some later ∧
      (server.handled worker pio context posted (workerBody received.length context)).Watched client
        stream later := by
  have handles : server.Handles pio received := ⟨worker, present⟩
  have looped := looped_workerBody received.length context
  have receivers := receiver_handled server worker posted found looped
  rcases watched.completes handles found receiver some_ with ⟨isOpen, goesOn, completed⟩
  rcases exists_of_receiver receiver with ⟨again, foundAgain, receives, sock⟩
  rcases Option.some.inj (foundAgain.symm.trans found) with rfl
  have notAwaits : ¬server.Awaits pio := fun awaits =>
    framed.owned.not_handles_of_awaits awaits received handles
  refine ⟨_, completed, ?_⟩
  generalize workerBody received.length again = effect at looped receivers ⊢
  cases looped with
  | closeClient =>
      have reports : (server.handled worker pio again posted .closeClient).reports =
          server.reports ++ [.closed client] := by
        simp [IocpServer.handled, close, receives, sock]
      refine watched.handle framed present receiver rfl (by simp) receivers rfl reports ?_ ?_ ?_
      · simp [Receiving.handled, IocpServer.submitted, Report.body?]
      · simp
      · exact fun awaits => absurd awaits notAwaits
  | recvBody header full positive bounded =>
      cases posted with
      | true =>
          refine watched.handle framed present receiver rfl (by simp) receivers rfl
            (List.append_nil _).symm ?_ ?_ ?_
          · simp [Receiving.handled, IocpServer.submitted]
          · simp [Receiving.handled, isOpen]
          · exact fun _ => ⟨isOpen, Function.update_self _ _ _, goesOn⟩
      | false =>
          have reports := (reports_refused server worker pio (ofLe again.headerBuf) again).trans
            (by rw [sock])
          refine watched.handle framed present receiver rfl (by simp) receivers rfl reports ?_ ?_ ?_
          · simp [Receiving.handled, IocpServer.submitted, Report.body?]
          · simp
          · exact fun awaits => absurd awaits notAwaits
  | submit body more full =>
      refine watched.handle framed present receiver rfl (by simp) receivers rfl rfl ?_ ?_ ?_
      · simp [Receiving.handled, IocpServer.submitted, Report.body?, sock]
      · simp [Receiving.handled, isOpen]
      · exact fun _ => ⟨isOpen, Function.update_self _ _ _, goesOn⟩
  | release sent => simp [receiver_of_send found sent] at receiver
  | nothing sent => simp [receiver_of_send found sent] at receiver

/-- Every step of the network layer is a completion of the connection's receive context, or none
of its receiving seen alone. -/
theorem Watched.step (watched : server.Watched client stream state) (framed : server.Framed)
    (never : server.NeverReused event) (continues : server.Continues client stream event)
    (stepped : server.step event = some next) :
    ∃ sizes later, receiving.run state sizes = some later ∧
      sizes = server.completions client event ∧ next.Watched client stream later := by
  have owned := framed.owned.step stepped
  cases stepped_of_step stepped with
  | accept idle =>
      exact ⟨[], state, rfl, rfl, watched.frame (fun _ => .rfl)
        (fun _ _ => ⟨rfl, awaits_accept, fun _ handles => handles⟩) rfl
        (List.append_nil _).symm rfl⟩
  | @list other accepted =>
      have unused := never other accepted
      refine ⟨[], state, rfl, rfl, ?_⟩
      by_cases same : other = client
      · subst same
        exact watched.list framed owned unused
      · refine watched.frame (fun pio => ?_) (fun pio receiver => ?_) rfl
          (List.append_nil _).symm rfl
        · rw [receiver_list]
          by_cases made : pio = server.nextPio
          · have absent : server.receiver pio ≠ some client := fun receiver =>
              framed.owned.old_of_receiver receiver made
            simp [made, same, made ▸ absent]
          · rw [Function.update_of_ne made]
        · have old := framed.owned.old_of_receiver receiver
          exact ⟨Function.update_of_ne old _ _, awaits_list old, fun _ handles => handles⟩
  | @postFirst held posted made =>
      exact ⟨[], state, rfl, rfl, watched.frame (fun _ => .rfl)
        (fun _ _ => ⟨rfl, awaits_postFirst made, fun _ handles => handles⟩) rfl
        (List.append_nil _).symm rfl⟩
  | dequeue present found posted fits =>
      exact ⟨[], state, rfl, rfl, watched.dequeue framed owned present found posted fits continues⟩
  | @dequeueFailed worker held present posted =>
      exact ⟨[], state, rfl, rfl, watched.become framed.owned present rfl (by simp) rfl
        (fun _ _ => ⟨rfl, awaits_dequeueFailed posted⟩) rfl (List.append_nil _).symm rfl⟩
  | @handle worker held context received posted present found =>
      have touched : (server.touch held).Watched client stream state :=
        watched.frame (fun _ => .rfl) (fun _ _ => ⟨rfl, id, fun _ => id⟩) rfl
          (List.append_nil _).symm rfl
      have framedTouched := framed.touch present
      by_cases own : server.receiver held = some client ∧ received ≠ []
      · rcases touched.handled_own framedTouched posted present found own.1 own.2 with
          ⟨later, completed, watchedLater⟩
        refine ⟨[received.length], later, ?_, ?_, watchedLater⟩
        · exact receiving.run_cons_eq_some.mpr ⟨later, completed, rfl⟩
        · simp [completions, present, own.1, own.2]
      · refine ⟨[], state, rfl, ?_, ?_⟩
        · simp [completions, present, own]
        · apply touched.handled_other framedTouched.owned present found (looped_workerBody _ _)
          intro receiver
          have nothing : received = [] := by
            by_contra some_
            exact own ⟨receiver, some_⟩
          simp [nothing, workerBody]
  | @closing worker held context present found =>
      exact ⟨[], state, rfl, rfl, watched.become framed.owned present rfl (by simp) rfl
        (fun _ _ => ⟨rfl, id⟩) rfl (List.append_nil _).symm rfl⟩
  | @erasing worker held context present found =>
      exact ⟨[], state, rfl, rfl, watched.become framed.owned present rfl (by simp) rfl
        (fun _ _ => ⟨rfl, id⟩) rfl (List.append_nil _).symm rfl⟩
  | @deleting worker held present =>
      exact ⟨[], state, rfl, rfl, watched.become framed.owned present rfl (by simp) rfl
        (fun _ _ => ⟨rfl, id⟩) rfl (List.append_nil _).symm rfl⟩
  | unsent => exact ⟨[], state, rfl, rfl, watched⟩
  | @send data clientId socket posted =>
      have receivers := framed.owned.receiver_send data socket posted
      have reports := (reports_send server data socket posted).trans (List.append_nil _).symm
      refine ⟨[], state, rfl, rfl, watched.frame (fun pio => by rw [receivers]) ?_
        (by rw [arrived_send]) reports rfl⟩
      intro pio receiver
      have old := framed.owned.old_of_receiver receiver
      refine ⟨?_, awaits_send old, ?_⟩
      · rw [pios_send, Function.update_of_ne old]
      · intro received handles
        simpa [Handles] using handles
  | closesocket =>
      exact ⟨[], state, rfl, rfl, watched.frame (fun _ => .rfl) (fun _ _ => ⟨rfl, id, fun _ => id⟩)
        rfl (List.append_nil _).symm rfl⟩

end Step

/-! ## Every run -/

section Run

variable {workers : ℕ} {events : List IocpEvent} {server : IocpServer} {client : Handle}
  {stream : Bytes} {bodies : List Bytes}

theorem watched_start (workers : ℕ) (client : Handle) (stream : Bytes) :
    (start workers).Watched client stream (.start client stream) where
  arrives := List.nil_prefix
  submitted := rfl
  closed closed := by simp [Receiving.start] at closed
  unlisted _ := rfl
  awaits pio receiver := by simp [IocpServer.receiver, start] at receiver
  handles pio received receiver := by simp [IocpServer.receiver, start] at receiver

/-- What the workers make of a connection is what its receiving alone makes of the completions
that they have handled. -/
theorem receiving_of_run (reached : iocpServer.run (start workers) events = some server)
    (never : iocpServer.Meets NeverReused (start workers) events)
    (continues : iocpServer.Meets (Continues client stream) (start workers) events) :
    ∃ final, receiving.run (.start client stream)
        (iocpServer.outputs (completions client) (start workers) events) = some final ∧
      submitted server.reports client = final.submitted.map TaskData.data ∧
        (final.closed = true → .closed client ∈ server.reports) := by
  have matched : ∃ sizes final, receiving.run (.start client stream) sizes = some final ∧
      receiving.outputs (fun _ bytes => [bytes]) (.start client stream) sizes =
        iocpServer.outputs (completions client) (start workers) events ∧
          server.Framed ∧ server.Watched client stream final := by
    apply Machine.exists_run_of_meets (completions client) (fun _ bytes => [bytes])
      (fun state other => state.Framed ∧ state.Watched client stream other) ?_
      ⟨framed_start workers, watched_start workers client stream⟩
      (iocpServer.meets_and never continues) reached
    rintro state event next other _ ⟨framed, watched⟩ ⟨unused, goesOn⟩ stepped
    rcases watched.step framed unused goesOn stepped with ⟨sizes, later, run, same, watchedLater⟩
    exact ⟨sizes, later, run, (receiving.outputs_labels run).trans same,
      framed.step unused stepped, watchedLater⟩
  rcases matched with ⟨sizes, final, run, same, _, watched⟩
  rw [receiving.outputs_labels run] at same
  exact ⟨final, same ▸ run, watched.submitted, watched.closed⟩

/-- While every completion of a connection is full, the wholly received packets have been
submitted; and the connection is closed as soon as one is not. -/
theorem wholeFrames_of_run
    (lengths : ∀ body ∈ bodies, 1 ≤ body.length ∧ body.length ≤ 10 * 1024 * 1024)
    (reached : iocpServer.run (start workers) events = some server)
    (never : iocpServer.Meets NeverReused (start workers) events)
    (continues : iocpServer.Meets (Continues client (TcpClient.stream bodies)) (start workers)
      events) :
    let sizes := iocpServer.outputs (completions client) (start workers) events
    (sizes <+: requests bodies →
      submitted server.reports client = wholeFrames bodies sizes.sum) ∧
    (.closed client ∉ server.reports → sizes <+: requests bodies) := by
  intro sizes
  rcases receiving_of_run reached never continues with ⟨final, run, submits, closes⟩
  have stream : (Receiving.start client (TcpClient.stream bodies)).rest = encode bodies :=
    TcpClient.stream_eq_encode fun body member => (lengths body member).1
  have waits : Receiving.AtHeader (Receiving.start client (TcpClient.stream bodies)).pio client :=
    ⟨rfl, rfl, rfl⟩
  rcases Receiving.run_header waits rfl stream lengths run with ⟨full, cut⟩
  constructor
  · intro isPrefix
    rw [submits, (cut isPrefix).2]
    simp only [Receiving.start, List.nil_append, List.map_map]
    exact List.map_id _
  · intro notClosed
    apply full
    exact Bool.eq_false_of_not_eq_true fun closed => notClosed (closes closed)

end Run

example : iocpServer.outputs (completions 4) (start 1) firstPacket = [4, 2] := by decide

end IocpServer

end InstanceMessage
