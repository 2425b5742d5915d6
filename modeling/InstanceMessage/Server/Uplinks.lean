import InstanceMessage.Server.Process

/-!
# What is on its way to the workers

The stream of a connection as its client has written it: frames of which a part
has arrived. The receive context of the connection is in step with it, so that
what a worker submits is the next packet that has been written. Handle values
may come again here, since every context has a stream of its own.
-/

namespace InstanceMessage

open Library

/-- The stream of a connection: the bytes that have not arrived, the packets that have been
submitted, and those that have been written and not submitted. -/
structure Uplink where
  coming : Bytes
  submitted : List Bytes
  waiting : List Bytes

namespace IocpServer

/-- What has arrived with the context and what is coming are the frames that have been written. -/
structure Fed (server : IocpServer) (pio : ContextId) (context : PerIo) (uplink : Uplink) :
    Prop where
  awaits : server.Awaits pio → ∃ arrived, Reading arrived uplink.submitted context ∧
    arrived ++ uplink.coming = encode (uplink.submitted ++ uplink.waiting)
  handles : ∀ received, server.Handles pio received →
    ∃ arrived, Handed arrived uplink.submitted context received ∧
      arrived ++ uplink.coming = encode (uplink.submitted ++ uplink.waiting)

/-- Every receive context is in step with the stream of its connection. -/
def Feeds (server : IocpServer) (uplinks : ContextId → Uplink) : Prop :=
  ∀ pio context, server.pios pio = some context → context.isReceive = true →
    server.Fed pio context (uplinks pio)

theorem feeds_start (workers : ℕ) (uplinks : ContextId → Uplink) :
    (start workers).Feeds uplinks := by
  intro pio context found
  simp [start] at found

section Step

variable {server next : IocpServer} {event : IocpEvent} {worker : ℕ} {old new : Stage}
  {pio : ContextId} {context changed : PerIo} {received : Bytes}
  {uplinks others : ContextId → Uplink}

theorem Feeds.congr (feeds : server.Feeds uplinks)
    (same : ∀ pio, server.receiver pio ≠ none → others pio = uplinks pio) :
    server.Feeds others := by
  intro pio context found receives
  have receiver := receiver_of_isReceive found receives
  rw [same pio (by simp [receiver])]
  exact feeds pio context found receives

/-- The clients have written more. -/
theorem Feeds.write (feeds : server.Feeds uplinks) (more : ContextId → List Bytes) :
    server.Feeds fun pio => ⟨(uplinks pio).coming ++ encode (more pio), (uplinks pio).submitted,
      (uplinks pio).waiting ++ more pio⟩ := by
  intro pio context found receives
  have fed := feeds pio context found receives
  have longer {arrived : Bytes} (written : arrived ++ (uplinks pio).coming =
      encode ((uplinks pio).submitted ++ (uplinks pio).waiting)) :
      arrived ++ ((uplinks pio).coming ++ encode (more pio)) =
        encode ((uplinks pio).submitted ++ ((uplinks pio).waiting ++ more pio)) := by
    rw [← List.append_assoc, written, ← List.append_assoc, encode_append (_ ++ _)]
  constructor
  · intro awaits
    rcases fed.awaits awaits with ⟨arrived, reading, written⟩
    exact ⟨arrived, reading, longer written⟩
  · intro received handles
    rcases fed.handles received handles with ⟨arrived, handed, written⟩
    exact ⟨arrived, handed, longer written⟩

/-- Nothing arrives, and nobody gets a context. -/
theorem Feeds.pass (feeds : server.Feeds uplinks)
    (pios : ∀ pio context, next.pios pio = some context → context.isReceive = true →
      server.pios pio = some context)
    (awaits : ∀ pio, server.receiver pio ≠ none → next.Awaits pio → server.Awaits pio)
    (handles : ∀ pio received, server.receiver pio ≠ none → next.Handles pio received →
      server.Handles pio received) : next.Feeds uplinks := by
  intro pio context found receives
  have before := pios pio context found receives
  have some : server.receiver pio ≠ none := by
    simp [receiver_of_isReceive before receives]
  have fed := feeds pio context before receives
  exact ⟨fun now => fed.awaits (awaits pio some now),
    fun received now => fed.handles received (handles pio received some now)⟩

theorem Feeds.touch (feeds : server.Feeds uplinks) (pio : ContextId) :
    (server.touch pio).Feeds uplinks :=
  feeds.pass (fun _ _ found _ => found) (fun _ _ awaits => awaits) (fun _ _ _ handles => handles)

/-- A worker goes on with something else than a completion. -/
theorem Feeds.become (feeds : server.Feeds uplinks) (owned : server.Owned)
    (present : server.workers[worker]? = some old)
    (workers : next.workers = server.workers.set worker new)
    (done : ∀ other bytes, new ≠ .handling other bytes) (pios : next.pios = server.pios)
    (awaits : ∀ pio, next.Awaits pio → server.Awaits pio) : next.Feeds uplinks := by
  apply feeds.pass ?_ (fun pio _ => awaits pio) ?_
  · intro pio context found _
    rw [← pios]
    exact found
  · intro pio received _ handles
    rcases owned.handles_become present workers handles with same | before
    · exact absurd same (done pio received)
    · exact before.1

/-- Something happens to one receive context, and to its stream. -/
theorem Feeds.move (feeds : server.Feeds uplinks) {uplink : Uplink}
    (here : ∀ context, next.pios pio = some context → context.isReceive = true →
      next.Fed pio context uplink)
    (pios : ∀ other, other ≠ pio → next.pios other = server.pios other)
    (awaits : ∀ other, other ≠ pio → next.Awaits other → server.Awaits other)
    (handles : ∀ other received, other ≠ pio → next.Handles other received →
      server.Handles other received) : next.Feeds (Function.update uplinks pio uplink) := by
  intro other context found receives
  by_cases same : other = pio
  · subst same
    rw [Function.update_self]
    exact here context found receives
  · rw [Function.update_of_ne same]
    rw [pios other same] at found
    have fed := feeds other context found receives
    exact ⟨fun now => fed.awaits (awaits other same now),
      fun received now => fed.handles received (handles other received same now)⟩

theorem Feeds.list (feeds : server.Feeds uplinks) {client : Handle}
    (owned : (server.list client).Owned) {uplink : Uplink} (unsubmitted : uplink.submitted = [])
    (written : uplink.coming = encode uplink.waiting) :
    (server.list client).Feeds (Function.update uplinks server.nextPio uplink) := by
  apply feeds.move
  · intro context found _
    have made : context = .ofAccept client := by
      simpa [IocpServer.list, put] using found.symm
    have awaits : (server.list client).Awaits server.nextPio := .inr rfl
    refine ⟨fun _ => ⟨[], ?_, ?_⟩, fun received handles => ?_⟩
    · rw [made, unsubmitted]
      exact .header rfl rfl (parses_nil bodyLimit)
    · rw [unsubmitted]
      exact written
    · exact absurd handles (owned.not_handles_of_awaits awaits received)
  · intro other different
    exact Function.update_of_ne different _ _
  · exact fun _ => awaits_list
  · exact fun other received _ handles => handles

/-- A worker gets a completion. -/
theorem Feeds.dequeue (feeds : server.Feeds uplinks) (owned : server.Owned)
    (ownedNext : (server.dequeue worker pio context received).Owned)
    (present : server.workers[worker]? = some .waiting) (found : server.pios pio = some context)
    (posted : 0 < server.outstanding pio) (fits : received.length ≤ context.requested)
    {rest : Bytes} (coming : server.receiver pio ≠ none →
      (uplinks pio).coming = received ++ rest) :
    (server.dequeue worker pio context received).Feeds (Function.update uplinks pio
      ⟨rest, (uplinks pio).submitted, (uplinks pio).waiting⟩) := by
  apply feeds.move
  · intro filled same receives
    have filled : filled = context.filled received := by
      simpa [IocpServer.dequeue, put, IocpServer.become] using same.symm
    subst filled
    have receives : context.isReceive = true := by
      simpa [PerIo.isReceive] using receives
    have awaits : server.Awaits pio := .inl posted
    have handles := handles_of_dequeue pio context received present
    rcases (feeds pio context found receives).awaits awaits with ⟨arrived, reading, written⟩
    have coming := coming (by simp [receiver_of_isReceive found receives])
    refine ⟨fun again => ?_, fun bytes still => ?_⟩
    · exact absurd handles (ownedNext.not_handles_of_awaits again received)
    · rcases owned.handles_dequeue present still with ⟨_, rfl⟩ | before
      · refine ⟨arrived ++ bytes, reading.handed fits, ?_⟩
        rw [List.append_assoc, ← coming]
        exact written
      · exact absurd before (owned.not_handles_of_awaits awaits bytes)
  · exact fun other different => Function.update_of_ne different _ _
  · exact fun _ => awaits_dequeue
  · intro other bytes different still
    rcases owned.handles_dequeue present still with ⟨same, _⟩ | before
    · exact absurd same different
    · exact before

theorem Feeds.arrive (feeds : server.Feeds uplinks) (owned : server.Owned) (ownedNext : next.Owned)
    (stepped : server.step (.dequeue worker pio received) = some next) {rest : Bytes}
    (coming : server.receiver pio ≠ none → (uplinks pio).coming = received ++ rest) :
    next.receiver = server.receiver ∧ next.Feeds (Function.update uplinks pio
      ⟨rest, (uplinks pio).submitted, (uplinks pio).waiting⟩) := by
  cases stepped_of_step stepped with
  | dequeue present found posted fits =>
      exact ⟨receiver_dequeue worker received found,
        feeds.dequeue owned ownedNext present found posted fits coming⟩

/-- A worker that has handled a receive context is going to receive with it, or closes it. -/
theorem Feeds.handle (feeds : server.Feeds uplinks) (owned : server.Owned)
    (present : server.workers[worker]? = some (.handling pio received))
    (workers : next.workers = server.workers.set worker new)
    (done : ∀ other bytes, new ≠ .handling other bytes)
    (pios : next.pios = Function.update server.pios pio (some changed))
    (awaits : ∀ other, other ≠ pio → next.Awaits other → server.Awaits other) {uplink : Uplink}
    (reading : ∃ arrived, Reading arrived uplink.submitted changed ∧
      arrived ++ uplink.coming = encode (uplink.submitted ++ uplink.waiting)) :
    next.Feeds (Function.update uplinks pio uplink) := by
  rcases owned.handles_handled present workers done with ⟨handles, notHandles⟩
  refine feeds.move ?_ (fun other different => by rw [pios, Function.update_of_ne different])
    awaits (fun other bytes _ => handles other bytes)
  intro now found _
  rw [pios, Function.update_self] at found
  rcases Option.some.inj found with rfl
  exact ⟨fun _ => reading, fun bytes again => absurd again (notHandles bytes)⟩

/-- A header has been received, and the body is asked for. -/
theorem Feeds.recvBody (feeds : server.Feeds uplinks) (owned : server.Owned)
    (present : server.workers[worker]? = some (.handling pio received))
    (found : server.pios pio = some context) (posted : Bool)
    (looped : Looped received.length context (.recvBody changed)) :
    (server.handled worker pio context posted (.recvBody changed)).Feeds uplinks := by
  have workers : (server.handled worker pio context posted (.recvBody changed)).workers =
      server.workers.set worker (if posted then .waiting else .closing pio) := by
    cases posted <;> rfl
  cases looped with
  | recvBody header whole positive bounded =>
      have receives : context.isReceive = true := by
        simp [PerIo.isReceive, header]
      rcases (feeds pio context found receives).handles received ⟨worker, present⟩ with
        ⟨arrived, handed, written⟩
      have reading := handed.recvBody header whole positive bounded
      have same : uplinks = Function.update uplinks pio (uplinks pio) :=
        (Function.update_eq_self pio uplinks).symm
      rw [same]
      cases posted with
      | true =>
          exact feeds.handle owned present workers (by simp) rfl (fun _ => awaits_handled)
            ⟨arrived, reading, written⟩
      | false =>
          exact feeds.handle owned present workers (by simp) rfl (fun _ _ awaits => awaits)
            ⟨arrived, reading, written⟩

/-- What is submitted is the next packet that has been written. -/
theorem Feeds.submit (feeds : server.Feeds uplinks) (owned : server.Owned)
    (present : server.workers[worker]? = some (.handling pio received))
    (found : server.pios pio = some context) (posted : Bool) {task : TaskData}
    (looped : Looped received.length context (.submit task changed))
    (lengths : ∀ packet ∈ (uplinks pio).submitted ++ (uplinks pio).waiting,
      1 ≤ packet.length ∧ packet.length ≤ bodyLimit) :
    ∃ waiting, (uplinks pio).waiting = task.data :: waiting ∧
      (server.handled worker pio context posted (.submit task changed)).Feeds
        (Function.update uplinks pio
          ⟨(uplinks pio).coming, (uplinks pio).submitted ++ [task.data], waiting⟩) := by
  cases looped with
  | submit body some whole =>
      have receives : context.isReceive = true := by
        simp [PerIo.isReceive, body]
      rcases (feeds pio context found receives).handles received ⟨worker, present⟩ with
        ⟨arrived, handed, written⟩
      rcases handed.submit body whole with ⟨reading, _⟩
      have parsed := reading.parsed.trans
        (parse_grows (List.prefix_append arrived (uplinks pio).coming))
      rw [written, parse_encode (by decide) lengths, List.prefix_append_right_inj] at parsed
      rcases parsed with ⟨waiting, rest⟩
      have rest : (uplinks pio).waiting = context.bodyBuf :: waiting := rest.symm
      refine ⟨waiting, rest, feeds.handle owned present rfl (by simp) rfl
        (fun _ => awaits_handled) ⟨arrived, reading, ?_⟩⟩
      rw [written, rest, List.append_assoc, List.singleton_append]

theorem Feeds.submits (feeds : server.Feeds uplinks) (owned : server.Owned) {posted : Bool}
    (stepped : server.step (.handle worker posted) = some next) {task : TaskData}
    (submits : server.submission (.handle worker posted) = some (pio, task))
    (lengths : ∀ packet ∈ (uplinks pio).submitted ++ (uplinks pio).waiting,
      1 ≤ packet.length ∧ packet.length ≤ bodyLimit) :
    server.receiver pio ≠ none ∧ next.receiver = server.receiver ∧
      ∃ waiting, (uplinks pio).waiting = task.data :: waiting ∧
        next.Feeds (Function.update uplinks pio
          ⟨(uplinks pio).coming, (uplinks pio).submitted ++ [task.data], waiting⟩) := by
  cases stepped_of_step stepped with
  | @handle _ pio' context received _ present found =>
      have touchedOwned := owned.touch_of_handling present
      have touched := feeds.touch pio'
      have looped := looped_workerBody received.length context
      cases effect : workerBody received.length context with
      | submit sent changed =>
          simp only [submission, present, found, effect, Option.some.injEq, Prod.mk.injEq]
            at submits
          rcases submits with ⟨rfl, rfl⟩
          rw [effect] at looped
          have kind : context.opType = .opRecvBody := by
            cases looped with
            | submit body some whole => exact body
          refine ⟨?_, receiver_handled (server.touch pio') worker posted found looped,
            touched.submit touchedOwned present found posted looped lengths⟩
          simp [receiver_of_isReceive found (by simp [PerIo.isReceive, kind])]
      | closeClient | recvBody | release | nothing =>
          simp [submission, present, found, effect] at submits

/-- Nothing is received, and nothing is submitted. -/
theorem Feeds.step (feeds : server.Feeds uplinks) (owned : server.Owned)
    (stepped : server.step event = some next) (unlisted : event ≠ .list)
    (silent : ∀ worker pio received, event ≠ .dequeue worker pio received)
    (quiet : server.submission event = none) : next.Feeds uplinks := by
  cases stepped_of_step stepped with
  | list => exact absurd rfl unlisted
  | accept idle =>
      exact feeds.pass (fun _ _ found _ => found) (fun _ _ => awaits_accept)
        (fun _ _ _ handles => handles)
  | dequeue => exact absurd rfl (silent _ _ _)
  | @postFirst pio posted made =>
      exact feeds.pass (fun _ _ found _ => found) (fun _ _ => awaits_postFirst made)
        (fun _ _ _ handles => handles)
  | @dequeueFailed worker pio present posted =>
      exact feeds.become owned present rfl (by simp) rfl (fun _ => awaits_dequeueFailed posted)
  | @handle worker pio context received posted present found =>
      have touchedOwned := owned.touch_of_handling present
      have touched := feeds.touch pio
      have looped := looped_workerBody received.length context
      cases effect : workerBody received.length context with
      | closeClient | release | nothing =>
          exact touched.become touchedOwned present rfl (by simp) rfl (fun _ awaits => awaits)
      | recvBody changed =>
          rw [effect] at looped
          exact touched.recvBody touchedOwned present found posted looped
      | submit task changed => simp [submission, present, found, effect] at quiet
  | closing present found | erasing present found =>
      exact feeds.become owned present rfl (by simp) rfl (fun _ awaits => awaits)
  | deleting present =>
      exact feeds.become owned present rfl (by simp) rfl (fun _ awaits => awaits)
  | unsent => exact feeds
  | @send data clientId socket posted =>
      apply feeds.pass
      · exact fun _ _ => pios_of_send
      · intro pio receives awaits
        rcases Option.ne_none_iff_exists'.mp receives with ⟨client, receiver⟩
        exact awaits_send (owned.old_of_receiver receiver) awaits
      · intro pio received _ handles
        simpa [Handles] using handles
  | closesocket =>
      exact feeds.pass (fun _ _ found _ => found) (fun _ _ awaits => awaits)
        (fun _ _ _ handles => handles)

end Step

end IocpServer

end InstanceMessage
