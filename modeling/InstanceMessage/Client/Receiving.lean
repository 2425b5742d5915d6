import InstanceMessage.Client.TcpClient
import InstanceMessage.Server.Iocp

/-!
# Receiving from the server

The loop of `TcpClient::recvData`. Its variables live across packets:
`packSize` counts down to zero while a packet is read, and the next length is
received into it, so a `recv` that returns fewer than four bytes overwrites only
as many bytes of the zero. Whatever ends the inner loop, the buffer is handed to
`transmitData`.

The packets come through exactly if every length is received in one piece, and
the connection ends between two packets. The proof that nothing else will do
counts bytes: a packet costs the receiver at most four bytes besides what it
hands over, and a whole frame costs exactly four.
-/

namespace InstanceMessage

open Library

inductive RecvPhase
  /-- About to receive a length. -/
  | length
  | content (recvBuf : Bytes)
  | done
  /-- `new char[packSize]` has thrown. -/
  | crashed
  deriving DecidableEq

structure RecvData where
  phase : RecvPhase := .length
  packSize : ℤ := 0
  rest : Bytes
  transmitted : List Bytes := []
  deriving DecidableEq

namespace RecvData

def requested (state : RecvData) : ℕ :=
  match state.phase with
  | .length => 4
  | .content _ => state.packSize.toNat
  | .done | .crashed => 0

/-- The length is received into the first bytes of `packSize`, and a buffer of this size is
allocated; an empty packet is handed over at once. -/
def receivedLength (state : RecvData) (received : Bytes) : RecvData :=
  let packSize := toInt32 (ofLe (received ++ (int32 state.packSize).drop received.length))
  if packSize < 0 then { state with phase := .crashed, packSize := packSize }
  else if packSize = 0 then
    { state with packSize := packSize, transmitted := state.transmitted ++ [[]] }
  else { state with phase := .content [], packSize := packSize }

def receivedContent (state : RecvData) (recvBuf received : Bytes) : RecvData :=
  let packSize := state.packSize - received.length
  if packSize > 0 then { state with phase := .content (recvBuf ++ received), packSize := packSize }
  else { state with
    phase := .length, packSize := packSize
    transmitted := state.transmitted ++ [recvBuf ++ received] }

/-- A `recv` that returns some of the requested bytes. -/
def recv (state : RecvData) (bytes : ℕ) : Option RecvData :=
  if 1 ≤ bytes ∧ bytes ≤ state.requested ∧ bytes ≤ state.rest.length then
    let received := state.rest.take bytes
    let state := { state with rest := state.rest.drop bytes }
    match state.phase with
    | .length => some (state.receivedLength received)
    | .content recvBuf => some (state.receivedContent recvBuf received)
    | .done | .crashed => none
  else none

/-- From now on `recv` fails: what the buffer holds is handed over, and the next `recv`, for a
length, ends the loop. -/
def fail (state : RecvData) : RecvData :=
  match state.phase with
  | .length => { state with phase := .done }
  | .content recvBuf =>
      { state with phase := .done, transmitted := state.transmitted ++ [recvBuf] }
  | .done | .crashed => state

/-- The thread at its start, connected to a server that is going to send the stream. -/
def start (stream : Bytes) : RecvData := { rest := stream }

end RecvData

def recvData : Machine RecvData ℕ := ⟨RecvData.recv⟩

/-- The bytes that `IOCPTcpServer::sendData` sends for a packet. -/
def IocpTcpServer.sendData (data : Bytes) : Bytes :=
  (PerIo.ofSend 0 data).headerBuf ++ (PerIo.ofSend 0 data).bodyBuf

def IocpTcpServer.stream (bodies : List Bytes) : Bytes := (bodies.map sendData).flatten

theorem IocpTcpServer.stream_eq_encode (bodies : List Bytes) : stream bodies = encode bodies := by
  induction bodies with
  | nil => rfl
  | cons body bodies ih =>
      rw [encode, ← ih]
      rfl

/-- The results of `recv` are, packet by packet, the four bytes of the length in one piece and
then pieces that make up the content; the last packet is complete. -/
def Aligned : List Bytes → List ℕ → Prop
  | _, [] => True
  | [], _ :: _ => False
  | body :: bodies, size :: sizes =>
      size = 4 ∧ ∃ pieces rest, sizes = pieces ++ rest ∧ pieces.sum = body.length ∧
        Aligned bodies rest

namespace RecvData

/-- The thread about to receive a length, `packSize` being zero. -/
def atLength (stream : Bytes) (transmitted : List Bytes) : RecvData :=
  { rest := stream, transmitted := transmitted }

/-- The thread inside a packet of which `packSize` bytes are missing. -/
def atContent (stream : Bytes) (transmitted : List Bytes) (recvBuf : Bytes) (packSize : ℤ) :
    RecvData :=
  { phase := .content recvBuf, packSize := packSize, rest := stream, transmitted := transmitted }

/-- What `packSize` is after the first bytes of the stream have been received into its zero. -/
def lengthWord (stream : Bytes) (bytes : ℕ) : ℤ :=
  toInt32 (ofLe (stream.take bytes ++ (int32 0).drop (stream.take bytes).length))

section Run

variable {stream : Bytes} {transmitted : List Bytes} {sizes : List ℕ} {final next : RecvData}
  {bytes : ℕ} {recvBuf : Bytes} {packSize : ℤ}

theorem recv_atLength
    (received : recvData.step (atLength stream transmitted) bytes = some next) :
    (1 ≤ bytes ∧ bytes ≤ 4 ∧ bytes ≤ stream.length) ∧
      next = if lengthWord stream bytes < 0 then
          { atLength (stream.drop bytes) transmitted with
            phase := .crashed, packSize := lengthWord stream bytes }
        else if lengthWord stream bytes = 0 then
          atLength (stream.drop bytes) (transmitted ++ [[]])
        else atContent (stream.drop bytes) transmitted [] (lengthWord stream bytes) := by
  rcases Option.ite_none_right_eq_some.mp received with ⟨bounds, same⟩
  refine ⟨bounds, ?_⟩
  rw [← Option.some.inj same]
  have word : toInt32 (ofLe (stream.take bytes ++
      (int32 0).drop (stream.take bytes).length)) = lengthWord stream bytes := rfl
  by_cases negative : lengthWord stream bytes < 0
  · simp only [receivedLength, atLength, word, negative, if_true]
  · by_cases zero : lengthWord stream bytes = 0
    · simp only [receivedLength, atLength, word, zero, if_true, lt_irrefl, if_false]
    · simp only [receivedLength, atLength, atContent, word, negative, zero, if_false]

theorem recv_atContent
    (received : recvData.step (atContent stream transmitted recvBuf packSize) bytes = some next) :
    (1 ≤ bytes ∧ bytes ≤ packSize.toNat ∧ bytes ≤ stream.length) ∧
      next = if packSize - bytes > 0 then
          atContent (stream.drop bytes) transmitted (recvBuf ++ stream.take bytes)
            (packSize - bytes)
        else { atLength (stream.drop bytes) (transmitted ++ [recvBuf ++ stream.take bytes]) with
          packSize := packSize - bytes } := by
  rcases Option.ite_none_right_eq_some.mp received with ⟨bounds, same⟩
  refine ⟨bounds, ?_⟩
  have taken : (stream.take bytes).length = bytes := by
    rw [List.length_take]
    have := bounds.2.2
    simp only [atContent] at this
    omega
  rw [← Option.some.inj same]
  simp only [receivedContent, atLength, atContent, taken]

/-- Inside a packet, the pieces either fall short of it, or some of them make it up. -/
theorem run_atContent (missing : 0 < packSize)
    (reached : recvData.run (atContent stream transmitted recvBuf packSize) sizes = some final) :
    ((sizes.sum : ℤ) < packSize ∧ final.phase ≠ .crashed ∧ ∃ received, received.length = sizes.sum ∧
        final.fail.transmitted = transmitted ++ [recvBuf ++ received]) ∨
      ∃ pieces rest, sizes = pieces ++ rest ∧ (pieces.sum : ℤ) = packSize ∧
        pieces.sum ≤ stream.length ∧ recvData.run (atLength (stream.drop pieces.sum)
          (transmitted ++ [recvBuf ++ stream.take pieces.sum])) rest = some final := by
  induction sizes generalizing stream recvBuf packSize with
  | nil =>
      simp only [Machine.run_nil, Option.some.injEq] at reached
      subst reached
      exact Or.inl ⟨by simpa using missing, by simp [atContent], [], rfl, by simp [atContent, fail]⟩
  | cons bytes sizes ih =>
      rcases (recvData.run_cons_eq_some).mp reached with ⟨next, received, remaining⟩
      rcases recv_atContent received with ⟨⟨positive, wanted, available⟩, rfl⟩
      by_cases more : packSize - bytes > 0
      · rw [if_pos more] at remaining
        rcases ih more remaining with ⟨short, alive, received, length, handed⟩ |
          ⟨pieces, rest, rfl, full, enough, goesOn⟩
        · refine Or.inl ⟨by rw [List.sum_cons]; omega, alive,
            stream.take bytes ++ received, ?_, by rw [handed, List.append_assoc]⟩
          rw [List.length_append, List.length_take, length, List.sum_cons]
          omega
        · refine Or.inr ⟨bytes :: pieces, rest, rfl, by rw [List.sum_cons]; omega, ?_, ?_⟩
          · rw [List.length_drop] at enough
            rw [List.sum_cons]
            omega
          · rw [List.drop_drop] at goesOn
            rw [List.sum_cons, List.take_add, ← List.append_assoc]
            exact goesOn
      · rw [if_neg more] at remaining
        have full : packSize = bytes := by omega
        refine Or.inr ⟨[bytes], sizes, rfl, by simp [full], by simpa using available, ?_⟩
        simpa [full, atLength] using remaining

theorem run_crashed {state : RecvData} (crashed : state.phase = .crashed)
    (reached : recvData.run state sizes = some final) : final = state := by
  cases sizes with
  | nil =>
      simp only [Machine.run_nil, Option.some.injEq] at reached
      exact reached.symm
  | cons bytes sizes =>
      rcases (recvData.run_cons_eq_some).mp reached with ⟨next, received, _⟩
      rcases Option.ite_none_right_eq_some.mp received with ⟨⟨positive, wanted, _⟩, _⟩
      simp only [requested, crashed] at wanted
      omega

/-- From a length on, the next packet is handed over: in the end, when its pieces fall short of
the received length, or once they make it up. -/
theorem run_atLength
    (reached : recvData.run (atLength stream transmitted) (bytes :: sizes) = some final)
    (alive : final.phase ≠ .crashed) :
    (1 ≤ bytes ∧ bytes ≤ 4 ∧ bytes ≤ stream.length) ∧
      ∃ packet pieces rest, sizes = pieces ++ rest ∧ packet.length = pieces.sum ∧
        ((rest = [] ∧ final.fail.transmitted = transmitted ++ [packet]) ∨
          recvData.run (atLength ((stream.drop bytes).drop pieces.sum) (transmitted ++ [packet]))
            rest = some final) := by
  rcases (recvData.run_cons_eq_some).mp reached with ⟨next, received, remaining⟩
  rcases recv_atLength received with ⟨bounds, rfl⟩
  refine ⟨bounds, ?_⟩
  by_cases negative : lengthWord stream bytes < 0
  · rw [if_pos negative] at remaining
    rw [run_crashed rfl remaining] at alive
    exact absurd rfl alive
  · rw [if_neg negative] at remaining
    by_cases zero : lengthWord stream bytes = 0
    · rw [if_pos zero] at remaining
      exact ⟨[], [], sizes, rfl, rfl, Or.inr (by simpa using remaining)⟩
    · rw [if_neg zero] at remaining
      rcases run_atContent (by omega) remaining with ⟨_, _, packet, length, handed⟩ |
        ⟨pieces, rest, rfl, _, enough, goesOn⟩
      · exact ⟨packet, sizes, [], by simp, length, Or.inl ⟨rfl, by simpa using handed⟩⟩
      · refine ⟨(stream.drop bytes).take pieces.sum, pieces, rest, rfl, ?_,
          Or.inr (by simpa using goesOn)⟩
        rw [List.length_take]
        omega

/-- Besides what it hands over, a packet costs the receiver at most four bytes. -/
theorem sum_le_framesLength
    (reached : recvData.run (atLength stream transmitted) sizes = some final)
    (alive : final.phase ≠ .crashed) :
    ∃ new, final.fail.transmitted = transmitted ++ new ∧ sizes.sum ≤ framesLength new := by
  induction count : sizes.length using Nat.strong_induction_on
    generalizing stream transmitted sizes with
  | _ size ih =>
      cases sizes with
      | nil =>
          simp only [Machine.run_nil, Option.some.injEq] at reached
          subst reached
          exact ⟨[], by simp [atLength, fail], by simp⟩
      | cons bytes sizes =>
          rcases run_atLength reached alive with
            ⟨⟨_, small, _⟩, packet, pieces, rest, rfl, length, ⟨rfl, handed⟩ | goesOn⟩
          · refine ⟨[packet], handed, ?_⟩
            simp only [List.append_nil, List.sum_cons, framesLength_cons, framesLength_nil]
            omega
          · have fewer : rest.length < size := by
              rw [← count, List.length_cons, List.length_append]
              omega
            rcases ih rest.length fewer goesOn rfl with ⟨new, handed, bound⟩
            refine ⟨packet :: new, by rw [handed]; simp, ?_⟩
            simp only [List.sum_cons, List.sum_append, framesLength_cons]
            omega

/-- Where exactly the whole frames have been handed over, every length came in one piece. -/
theorem aligned_of_whole {bodies : List Bytes}
    (reached : recvData.run (atLength (encode bodies) transmitted) sizes = some final)
    (alive : final.phase ≠ .crashed)
    (whole : final.fail.transmitted = transmitted ++ wholeFrames bodies sizes.sum) :
    Aligned bodies sizes := by
  induction bodies generalizing transmitted sizes with
  | nil =>
      cases sizes with
      | nil => trivial
      | cons bytes sizes =>
          rcases run_atLength reached alive with ⟨⟨positive, _, available⟩, _⟩
          simp only [encode, List.length_nil] at available
          omega
  | cons body bodies ih =>
      cases sizes with
      | nil => trivial
      | cons bytes sizes =>
          rcases run_atLength reached alive with
            ⟨⟨_, small, _⟩, packet, pieces, rest, rfl, length, next⟩
          -- what is handed over after the packet, and its size
          have further : ∃ new, final.fail.transmitted = transmitted ++ packet :: new ∧
              rest.sum ≤ framesLength new := by
            rcases next with ⟨rfl, handed⟩ | goesOn
            · exact ⟨[], handed, by simp⟩
            · rcases sum_le_framesLength goesOn alive with ⟨new, handed, bound⟩
              exact ⟨new, by rw [handed]; simp, bound⟩
          rcases further with ⟨new, handed, bound⟩
          have same : packet :: new =
              wholeFrames (body :: bodies) (bytes :: (pieces ++ rest)).sum :=
            List.append_cancel_left (handed.symm.trans whole)
          have arrived : 4 + body.length ≤ (bytes :: (pieces ++ rest)).sum := by
            by_contra short
            rw [wholeFrames_of_lt (by omega)] at same
            simp at same
          rcases Nat.exists_eq_add_of_le arrived with ⟨more, sum⟩
          rw [sum, wholeFrames_cons_add, List.cons.injEq] at same
          rcases same with ⟨rfl, rfl⟩
          have spent := framesLength_wholeFrames_le bodies more
          rw [List.sum_cons, List.sum_append] at sum
          have same : bytes = 4 := by omega
          subst same
          have same : more = rest.sum := by omega
          subst same
          refine ⟨rfl, pieces, rest, rfl, length.symm, ?_⟩
          rcases next with ⟨rfl, _⟩ | goesOn
          · cases bodies <;> trivial
          · rw [encode, drop_frame, ← length, List.drop_left] at goesOn
            apply ih goesOn
            rw [handed, List.append_assoc, List.singleton_append]

/-- Where every length comes in one piece, the whole frames are handed over. -/
theorem whole_of_aligned {bodies : List Bytes}
    (lengths : ∀ body ∈ bodies, 1 ≤ body.length ∧ body.length < 2147483648)
    (reached : recvData.run (atLength (encode bodies) transmitted) sizes = some final)
    (aligned : Aligned bodies sizes) : final.phase ≠ .crashed ∧
      final.fail.transmitted = transmitted ++ wholeFrames bodies sizes.sum := by
  induction bodies generalizing transmitted sizes with
  | nil =>
      cases sizes with
      | nil =>
          simp only [Machine.run_nil, Option.some.injEq] at reached
          subst reached
          exact ⟨by simp [atLength], by simp [atLength, fail]⟩
      | cons bytes sizes => exact aligned.elim
  | cons body bodies ih =>
      cases sizes with
      | nil =>
          simp only [Machine.run_nil, Option.some.injEq] at reached
          subst reached
          exact ⟨by simp [atLength], by simp [atLength, fail]⟩
      | cons bytes sizes =>
          rcases aligned with ⟨rfl, pieces, rest, rfl, full, aligned⟩
          rcases lengths body List.mem_cons_self with ⟨positive, small⟩
          rcases (recvData.run_cons_eq_some).mp reached with ⟨next, received, remaining⟩
          rcases recv_atLength received with ⟨_, rfl⟩
          have word : lengthWord (encode (body :: bodies)) 4 = body.length := by
            rw [lengthWord, encode, take_frame, length_int32,
              List.drop_eq_nil_of_le (length_int32 0).le, List.append_nil,
              toInt32_int32_length small]
          rw [word, if_neg (by omega), if_neg (by omega), encode, drop_frame] at remaining
          rcases (recvData.run_append_eq_some).mp remaining with ⟨middle, packet, later⟩
          rcases run_atContent (by omega) packet
            with ⟨short, _⟩ | ⟨used, left, rfl, enough, _, ends⟩
          · omega
          · have none : left = [] := by
              cases left with
              | nil => rfl
              | cons first left =>
                  rcases (recvData.run_cons_eq_some).mp ends with ⟨_, received, _⟩
                  have := (recv_atLength received).1.1
                  simp only [List.sum_append, List.sum_cons] at full
                  omega
            subst none
            simp only [List.append_nil] at full
            simp only [Machine.run_nil, Option.some.injEq, List.nil_append, full, List.drop_left,
              List.take_left] at ends
            subst ends
            have whole := ih (fun other member => lengths other (List.mem_cons_of_mem _ member))
              later aligned
            refine ⟨whole.1, ?_⟩
            rw [whole.2, List.sum_cons, List.sum_append, List.append_nil, full, ← Nat.add_assoc,
              wholeFrames_cons_add]
            simp

/-- Framing from server to client: for every way in which the stream is cut, up to every point
at which `recv` fails, `transmitData` gets the wholly received packets and nothing else exactly
if every length comes in one piece and the connection ends between two packets. -/
theorem packets_transmitted {bodies : List Bytes}
    (lengths : ∀ body ∈ bodies, 4 ≤ body.length ∧ body.length < 2147483648)
    (reached : recvData.run (start (IocpTcpServer.stream bodies)) sizes = some final) :
    (final.phase ≠ .crashed ∧ final.fail.transmitted = wholeFrames bodies sizes.sum) ↔
      Aligned bodies sizes := by
  have begins : start (IocpTcpServer.stream bodies) = atLength (encode bodies) [] := by
    rw [IocpTcpServer.stream_eq_encode]
    rfl
  rw [begins] at reached
  constructor
  · rintro ⟨alive, whole⟩
    exact aligned_of_whole reached alive whole
  · intro aligned
    refine whole_of_aligned (fun body member => ?_) reached aligned
    rcases lengths body member with ⟨lower, upper⟩
    exact ⟨by omega, upper⟩

end Run

theorem packets_transmitted_pieces : ∃ final,
    recvData.run (start (IocpTcpServer.stream [[1, 2, 3, 4]])) [4, 3, 1] = some final ∧
      final.fail.transmitted = [[1, 2, 3, 4]] := by
  have evaluated : (recvData.run (start (IocpTcpServer.stream [[1, 2, 3, 4]]))
      [4, 3, 1]).isSome = true := by
    decide +kernel
  rcases Option.isSome_iff_exists.mp evaluated with ⟨final, reached⟩
  refine ⟨final, reached, ?_⟩
  have aligned : Aligned [[1, 2, 3, 4]] [4, 3, 1] := ⟨rfl, [3, 1], [], rfl, rfl, trivial⟩
  simpa [wholeFrames] using ((packets_transmitted (by simp) reached).mpr aligned).2

/-- A length that comes in two pieces shifts the frame: an empty packet is handed over, and then
the first bytes of the content are taken for a length. -/
theorem packets_transmitted_fails : ∃ final,
    recvData.run (start (IocpTcpServer.stream [List.replicate 256 7])) [1, 3] = some final ∧
      wholeFrames [List.replicate 256 7] [1, 3].sum = [] ∧ final.fail.transmitted ≠ [] := by
  have evaluated : (recvData.run (start (IocpTcpServer.stream [List.replicate 256 7]))
      [1, 3]).any (fun final => final.fail.transmitted ≠ []) = true := by
    decide +kernel
  rcases (Option.any_eq_true _ _).mp evaluated with ⟨final, reached, shape⟩
  have short : [1, 3].sum < 4 + (List.replicate 256 (7 : UInt8)).length := by
    rw [List.length_replicate]
    decide
  exact ⟨final, reached, wholeFrames_of_lt short, of_decide_eq_true shape⟩

end RecvData

end InstanceMessage
