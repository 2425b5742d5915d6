import InstanceMessage.Client.TcpClient
import InstanceMessage.Server.Iocp

/-!
# Receiving from one client

The completions of the receive context of one connection. There is at most one
pending operation on it, so whichever workers handle its completions, they do so
one after another. A completion is given by the number of bytes it transfers,
from one up to the number requested; the bytes are the next ones of the stream
that the client has written.

`workerThread` comments that it has received the whole header, and the whole
body, and closes the connection when a completion transferred less than that.
So the packets come through exactly while every completion is full.
-/

namespace InstanceMessage

open Library

/-- The receive context of a connection, the rest of its stream, and what has been submitted. -/
structure Receiving where
  pio : PerIo
  rest : Bytes
  submitted : List TaskData := []
  closed : Bool := false

namespace Receiving

def start (client : Handle) (stream : Bytes) : Receiving :=
  { pio := .ofAccept client, rest := stream }

def handled (state : Receiving) : Effect → Receiving
  | .closeClient => { state with closed := true }
  | .recvBody pio => { state with pio := pio }
  | .submit task pio => { state with pio := pio, submitted := state.submitted ++ [task] }
  | .release | .nothing => state

/-- A successful completion that transfers some of the requested bytes. -/
def complete (state : Receiving) (bytes : ℕ) : Option Receiving :=
  if state.closed = false ∧ 1 ≤ bytes ∧ bytes ≤ state.pio.requested ∧
      bytes ≤ state.rest.length then
    some (({ state with rest := state.rest.drop bytes } : Receiving).handled
      (workerBody bytes (state.pio.filled (state.rest.take bytes))))
  else none

end Receiving

def receiving : Machine Receiving ℕ := ⟨Receiving.complete⟩

/-- The sizes that the server asks for, one after another. -/
def requests (bodies : List Bytes) : List ℕ := bodies.flatMap fun body => [4, body.length]

namespace Receiving

structure AtHeader (pio : PerIo) (client : Handle) : Prop where
  opType : pio.opType = .opRecvHeader
  sock : pio.sock = client
  headerBuf : pio.headerBuf.length = 4

structure AtBody (pio : PerIo) (client : Handle) (len : ℕ) : Prop where
  opType : pio.opType = .opRecvBody
  sock : pio.sock = client
  headerBuf : pio.headerBuf.length = 4
  bodyLen : pio.bodyLen = len
  bodyBuf : pio.bodyBuf.length = len

section Completion

variable {state next : Receiving} {client : Handle} {bytes : ℕ} {body tail : Bytes}

theorem bounds_of_complete (completed : state.complete bytes = some next) :
    state.closed = false ∧ 1 ≤ bytes ∧ bytes ≤ state.pio.requested ∧ bytes ≤ state.rest.length :=
  (Option.ite_none_right_eq_some.mp completed).1

theorem eq_of_complete (completed : state.complete bytes = some next) :
    ({ state with rest := state.rest.drop bytes } : Receiving).handled
      (workerBody bytes (state.pio.filled (state.rest.take bytes))) = next :=
  Option.some.inj (Option.ite_none_right_eq_some.mp completed).2

theorem run_closed {sizes : List ℕ} {final : Receiving} (closed : state.closed = true)
    (reached : receiving.run state sizes = some final) : sizes = [] ∧ final = state := by
  cases sizes with
  | nil =>
      simp only [Machine.run_nil, Option.some.injEq] at reached
      exact ⟨rfl, reached.symm⟩
  | cons bytes sizes =>
      rcases (receiving.run_cons_eq_some).mp reached with ⟨next, completed, _⟩
      have := (bounds_of_complete completed).1
      simp [closed] at this

theorem complete_header_short (waits : AtHeader state.pio client)
    (completed : state.complete bytes = some next) (short : bytes ≠ 4) : next.closed = true := by
  have positive := (bounds_of_complete completed).2.1
  rw [← eq_of_complete completed, workerBody_header (by simp [waits.opType]) (by omega),
    if_pos short]
  rfl

theorem complete_body_short {len : ℕ} (waits : AtBody state.pio client len)
    (completed : state.complete bytes = some next) (short : bytes ≠ len) :
    next.closed = true := by
  have positive := (bounds_of_complete completed).2.1
  rw [← eq_of_complete completed, workerBody_body (by simp [waits.opType]) (by omega),
    if_pos (by simpa [waits.bodyLen] using short)]
  rfl

/-- A whole header makes the context wait for the body. -/
theorem complete_header (waits : AtHeader state.pio client)
    (completed : state.complete 4 = some next) (stream : state.rest = frame body ++ tail)
    (lower : 1 ≤ body.length) (upper : body.length ≤ 10 * 1024 * 1024) :
    AtBody next.pio client body.length ∧ next.rest = body ++ tail ∧ next.closed = false ∧
      next.submitted = state.submitted := by
  have isOpen := (bounds_of_complete completed).1
  have header : (state.pio.filled (state.rest.take 4)).headerBuf = int32 body.length := by
    rw [stream, take_frame, PerIo.filled_header waits.opType]
    simp [List.drop_eq_nil_of_le waits.headerBuf.le]
  have length : ofLe (int32 body.length) = body.length := ofLe_int32_length (by omega)
  rw [← eq_of_complete completed, workerBody_header (by simp [waits.opType]) (by omega),
    if_neg (by omega), header, length, if_neg (by omega), stream, drop_frame]
  simp only [handled]
  exact ⟨⟨rfl, by simp [waits.sock], by simp, rfl, by simp⟩, trivial, isOpen, trivial⟩

/-- A whole body is submitted, and the context waits for the next header. -/
theorem complete_body (waits : AtBody state.pio client body.length)
    (completed : state.complete body.length = some next) (stream : state.rest = body ++ tail) :
    AtHeader next.pio client ∧ next.rest = tail ∧ next.closed = false ∧
      next.submitted = state.submitted ++ [⟨body, body.length, client⟩] := by
  rcases bounds_of_complete completed with ⟨isOpen, lower, _, _⟩
  have buffer : (state.pio.filled (state.rest.take body.length)).bodyBuf = body := by
    rw [stream, List.take_left, PerIo.filled_body waits.opType]
    simp [List.drop_eq_nil_of_le waits.bodyBuf.le]
  rw [← eq_of_complete completed, workerBody_body (by simp [waits.opType]) (by omega),
    if_neg (by simp [waits.bodyLen]), buffer, stream, List.drop_left]
  simp only [handled]
  refine ⟨⟨rfl, by simp [waits.sock], ?_⟩, trivial, isOpen, ?_⟩
  · simp [PerIo.filled_body waits.opType, waits.headerBuf]
  · simp [waits.sock, waits.bodyLen]

end Completion

/-! ## Every way to cut the stream -/

section Run

variable {state final : Receiving} {client : Handle} {sizes : List ℕ} {bodies : List Bytes}

/-- From a header on, the connection stays open exactly while every completion is full, and then
the whole frames have been submitted. -/
theorem run_header (waits : AtHeader state.pio client) (isOpen : state.closed = false)
    (stream : state.rest = encode bodies)
    (lengths : ∀ body ∈ bodies, 1 ≤ body.length ∧ body.length ≤ 10 * 1024 * 1024)
    (reached : receiving.run state sizes = some final) :
    (final.closed = false → sizes <+: requests bodies) ∧
      (sizes <+: requests bodies → final.closed = false ∧ final.submitted = state.submitted ++
        (wholeFrames bodies sizes.sum).map fun body => ⟨body, body.length, client⟩) := by
  induction bodies generalizing state sizes with
  | nil =>
      cases sizes with
      | nil =>
          simp only [Machine.run_nil, Option.some.injEq] at reached
          subst reached
          exact ⟨fun _ => List.nil_prefix, fun _ => ⟨isOpen, by simp⟩⟩
      | cons bytes sizes =>
          rcases (receiving.run_cons_eq_some).mp reached with ⟨next, completed, _⟩
          rcases bounds_of_complete completed with ⟨_, positive, _, available⟩
          rw [stream] at available
          simp only [encode, List.length_nil] at available
          omega
  | cons body bodies ih =>
      rcases lengths body List.mem_cons_self with ⟨lower, upper⟩
      have later : requests (body :: bodies) = 4 :: body.length :: requests bodies := rfl
      cases sizes with
      | nil =>
          simp only [Machine.run_nil, Option.some.injEq] at reached
          subst reached
          exact ⟨fun _ => List.nil_prefix, fun _ => ⟨isOpen, by simp⟩⟩
      | cons bytes sizes =>
          rcases (receiving.run_cons_eq_some).mp reached with ⟨next, completed, rest⟩
          by_cases whole : bytes = 4
          · subst whole
            have streams : _ = frame body ++ encode bodies := stream
            rcases complete_header waits completed streams lower upper with
              ⟨waitsBody, nextRest, nextOpen, nextSubmitted⟩
            cases sizes with
            | nil =>
                simp only [Machine.run_nil, Option.some.injEq] at rest
                subst rest
                refine ⟨fun _ => ?_, fun _ => ⟨nextOpen, ?_⟩⟩
                · rw [later]
                  exact List.cons_prefix_cons.mpr ⟨rfl, List.nil_prefix⟩
                · rw [wholeFrames_of_lt (by simpa using Nat.pos_of_ne_zero (by omega))]
                  simpa using nextSubmitted
            | cons more sizes =>
                rcases (receiving.run_cons_eq_some).mp rest with ⟨third, completed, remaining⟩
                by_cases full : more = body.length
                · subst full
                  rcases complete_body waitsBody completed nextRest with
                    ⟨waitsHeader, thirdRest, thirdOpen, thirdSubmitted⟩
                  have cut := ih waitsHeader thirdOpen thirdRest
                    (fun other member => lengths other (List.mem_cons_of_mem _ member)) remaining
                  rw [later, List.cons_prefix_cons, List.cons_prefix_cons]
                  refine ⟨fun open_ => ⟨rfl, rfl, cut.1 open_⟩, fun isPrefix => ?_⟩
                  rcases cut.2 isPrefix.2.2 with ⟨open_, submitted⟩
                  refine ⟨open_, ?_⟩
                  rw [submitted, thirdSubmitted, nextSubmitted, List.sum_cons, List.sum_cons,
                    ← Nat.add_assoc, wholeFrames_cons_add]
                  simp
                · have closed := complete_body_short waitsBody completed full
                  rcases run_closed closed remaining with ⟨rfl, rfl⟩
                  refine ⟨fun open_ => by simp [closed] at open_, fun isPrefix => ?_⟩
                  rw [later, List.cons_prefix_cons, List.cons_prefix_cons] at isPrefix
                  exact absurd isPrefix.2.1 full
          · have closed := complete_header_short waits completed whole
            rcases run_closed closed rest with ⟨rfl, rfl⟩
            refine ⟨fun open_ => by simp [closed] at open_, fun isPrefix => ?_⟩
            rw [later, List.cons_prefix_cons] at isPrefix
            exact absurd isPrefix.1 whole

/-- Framing from client to server: for every way in which the stream is cut into completions, up
to every point, the server has submitted the wholly received packets and keeps the connection
open exactly if every completion so far was full. -/
theorem frames_submitted
    (lengths : ∀ body ∈ bodies, 1 ≤ body.length ∧ body.length ≤ 10 * 1024 * 1024)
    (reached : receiving.run (start client (TcpClient.stream bodies)) sizes = some final) :
    (final.submitted = (wholeFrames bodies sizes.sum).map (fun body =>
        ⟨body, body.length, client⟩) ∧ final.closed = false) ↔ sizes <+: requests bodies := by
  have stream : (start client (TcpClient.stream bodies)).rest = encode bodies :=
    TcpClient.stream_eq_encode fun body member => (lengths body member).1
  have waits : AtHeader (start client (TcpClient.stream bodies)).pio client := ⟨rfl, rfl, rfl⟩
  have cut := run_header waits rfl stream lengths reached
  constructor
  · exact fun holds => cut.1 holds.2
  · intro isPrefix
    rcases cut.2 isPrefix with ⟨isOpen, submitted⟩
    exact ⟨by simpa [start] using submitted, isOpen⟩

end Run

/-- A packet that arrives in two segments: the second completion has half of it. -/
theorem frames_submitted_fails : ∃ final,
    receiving.run (start 4 (TcpClient.stream [[7, 8]])) [4, 1] = some final ∧
      final.closed = true ∧ final.submitted = [] := by
  have evaluated : (receiving.run (start 4 (TcpClient.stream [[7, 8]])) [4, 1]).any
      (fun final => final.closed ∧ final.submitted = []) = true := by
    decide +kernel
  rcases (Option.any_eq_true _ _).mp evaluated with ⟨final, reached, shape⟩
  exact ⟨final, reached, by simpa using shape⟩

theorem frames_submitted_full : ∃ final,
    receiving.run (start 4 (TcpClient.stream [[7, 8]])) [4, 2] = some final ∧
      final.submitted = [⟨[7, 8], 2, 4⟩] ∧ final.closed = false := by
  have evaluated : (receiving.run (start 4 (TcpClient.stream [[7, 8]])) [4, 2]).isSome = true := by
    decide +kernel
  rcases Option.isSome_iff_exists.mp evaluated with ⟨final, reached⟩
  refine ⟨final, reached, ?_⟩
  simpa [wholeFrames] using (frames_submitted (by simp) reached).mpr (List.prefix_refl _)

end Receiving

end InstanceMessage
