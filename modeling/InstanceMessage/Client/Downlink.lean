import InstanceMessage.Client.Receiving

/-!
# What is on its way to a client

The receiving thread of a client while the server goes on sending: what has not
been received grows at its end. As long as every length comes in one piece, the
thread hands over the packets that have been sent, from the first one on.
-/

namespace InstanceMessage

open Library

namespace RecvData

/-- The server has sent more. -/
def arrive (state : RecvData) (bytes : Bytes) : RecvData :=
  { state with rest := state.rest ++ bytes }

/-- The thread is in step with the packets that have been sent. -/
inductive Follows (sent : List Bytes) : RecvData → Prop
  | length {transmitted waiting : List Bytes} (whole : sent = transmitted ++ waiting) :
      Follows sent (atLength (encode waiting) transmitted)
  | content {transmitted waiting : List Bytes} {recvBuf missing : Bytes} (some : missing ≠ [])
      (whole : sent = transmitted ++ (recvBuf ++ missing) :: waiting) :
      Follows sent (atContent (missing ++ encode waiting) transmitted recvBuf missing.length)
  | done {state : RecvData} (ended : state.phase = .done) (front : state.transmitted <+: sent) :
      Follows sent state

/-- A length comes in one piece. -/
def InOne (state : RecvData) (bytes : ℕ) : Prop := state.phase = .length → bytes = 4

theorem follows_start : Follows [] (start []) := .length (List.append_nil []).symm

section Step

variable {sent transmitted waiting : List Bytes} {state next : RecvData} {bytes : ℕ}

theorem exists_recv
    (bounds : 1 ≤ bytes ∧ bytes ≤ state.requested ∧ bytes ≤ state.rest.length) :
    ∃ next, recvData.step state bytes = some next := by
  simp only [recvData, recv, if_pos bounds]
  cases phase : state.phase with
  | length | content => exact ⟨_, rfl⟩
  | done | crashed =>
      have wanted := bounds.2.1
      simp only [requested, phase] at wanted
      omega

variable (transmitted waiting) in
/-- The length of the next packet is received. -/
theorem recv_length {packet : Bytes} (lengths : 1 ≤ packet.length ∧ packet.length < 2147483648) :
    recvData.step (atLength (encode (packet :: waiting)) transmitted) 4 =
      some (atContent (packet ++ encode waiting) transmitted [] packet.length) := by
  have received : ∃ next, recvData.step (atLength (encode (packet :: waiting)) transmitted) 4 =
      some next := by
    apply exists_recv
    refine ⟨by omega, le_rfl, ?_⟩
    simp only [atLength, encode, frame, List.length_append, length_int32]
    omega
  rcases received with ⟨next, received⟩
  have word : lengthWord (encode (packet :: waiting)) 4 = packet.length := by
    rw [lengthWord, encode, take_frame, length_int32, List.drop_eq_nil_of_le (length_int32 0).le,
      List.append_nil, toInt32_int32_length lengths.2]
  rw [received, (recv_atLength received).2, word, if_neg (by omega), if_neg (by omega), encode,
    drop_frame]

variable (transmitted waiting) in
/-- What is missing of a packet is received. -/
theorem recv_missing (recvBuf : Bytes) {missing : Bytes} (some_ : missing ≠ []) :
    recvData.step (atContent (missing ++ encode waiting) transmitted recvBuf missing.length)
      missing.length = some (atLength (encode waiting) (transmitted ++ [recvBuf ++ missing])) := by
  have received : ∃ next, recvData.step (atContent (missing ++ encode waiting) transmitted recvBuf
      missing.length) missing.length = some next := by
    apply exists_recv
    refine ⟨List.length_pos_of_ne_nil some_, ?_, ?_⟩
    · simp [requested, atContent]
    · simp [atContent]
  rcases received with ⟨next, received⟩
  rw [received, (recv_atContent received).2, sub_self, if_neg (lt_irrefl 0), List.drop_left,
    List.take_left]
  rfl

/-- Nothing but what has been sent is handed over. -/
theorem Follows.transmitted_isPrefix (follows : Follows sent state) :
    state.transmitted <+: sent := by
  cases follows with
  | length whole | content some whole =>
      rw [whole]
      exact List.prefix_append _ _
  | done ended front => exact front

theorem Follows.arrive (follows : Follows sent state) (packet : Bytes) :
    Follows (sent ++ [packet]) (state.arrive (IocpTcpServer.sendData packet)) := by
  have framed : IocpTcpServer.sendData packet = encode [packet] := (encode_singleton packet).symm
  rw [framed]
  cases follows with
  | @length transmitted waiting whole =>
      have stream : (atLength (encode waiting) transmitted).arrive (encode [packet]) =
          atLength (encode (waiting ++ [packet])) transmitted := by
        simp only [RecvData.arrive, atLength, encode_append]
      rw [stream, whole, List.append_assoc]
      exact .length rfl
  | @content transmitted waiting recvBuf missing some whole =>
      have stream : (atContent (missing ++ encode waiting) transmitted recvBuf
          missing.length).arrive (encode [packet]) =
            atContent (missing ++ encode (waiting ++ [packet])) transmitted recvBuf
              missing.length := by
        simp only [RecvData.arrive, atContent, encode_append, List.append_assoc]
      rw [stream, whole, List.append_assoc]
      exact .content some rfl
  | done ended front => exact .done ended (front.trans (List.prefix_append _ _))

/-- A length is received in one piece. -/
theorem Follows.recvLength (whole : sent = transmitted ++ waiting)
    (lengths : ∀ packet ∈ sent, 1 ≤ packet.length ∧ packet.length < 2147483648)
    (received : recvData.step (atLength (encode waiting) transmitted) 4 = some next) :
    Follows sent next := by
  cases waiting with
  | nil =>
      have available := (recv_atLength received).1.2.2
      simp [encode] at available
  | cons packet waiting =>
      have member : packet ∈ sent := by
        rw [whole]
        exact List.mem_append_right _ List.mem_cons_self
      have positive := (lengths packet member).1
      have asked := (recv_length transmitted waiting (lengths packet member)).symm.trans received
      rcases Option.some.inj asked with rfl
      refine .content ?_ whole
      rintro rfl
      simp at positive

/-- A piece of a packet is received. -/
theorem Follows.recvContent {recvBuf missing : Bytes}
    (whole : sent = transmitted ++ (recvBuf ++ missing) :: waiting)
    (received : recvData.step (atContent (missing ++ encode waiting) transmitted recvBuf
      missing.length) bytes = some next) : Follows sent next := by
  rcases recv_atContent received with ⟨⟨_, wanted, _⟩, rfl⟩
  have wanted : bytes ≤ missing.length := wanted
  have front : (missing ++ encode waiting).take bytes = missing.take bytes :=
    List.take_append_of_le_length wanted
  have behind : (missing ++ encode waiting).drop bytes = missing.drop bytes ++ encode waiting :=
    List.drop_append_of_le_length wanted
  rw [front, behind]
  split
  · rename_i more
    have left : ((missing.length : ℤ) - bytes) = (missing.drop bytes).length := by
      rw [List.length_drop]
      omega
    rw [left] at more ⊢
    refine .content ?_ ?_
    · rintro none
      simp [none] at more
    · rw [List.append_assoc, List.take_append_drop]
      exact whole
  · have all : bytes = missing.length := by omega
    have zero : (missing.length : ℤ) - bytes = 0 := by omega
    rw [zero, all, List.take_length, List.drop_length, List.nil_append]
    have handed : sent = (transmitted ++ [recvBuf ++ missing]) ++ waiting := by
      rw [whole, List.append_assoc, List.singleton_append]
    exact .length handed

theorem Follows.recv (follows : Follows sent state)
    (lengths : ∀ packet ∈ sent, 1 ≤ packet.length ∧ packet.length < 2147483648)
    (inOne : state.InOne bytes) (received : state.recv bytes = some next) :
    Follows sent next := by
  cases follows with
  | length whole =>
      rcases inOne rfl with rfl
      exact recvLength whole lengths received
  | content some whole => exact recvContent whole received
  | done ended front =>
      rcases Option.ite_none_right_eq_some.mp received with ⟨⟨positive, wanted, _⟩, _⟩
      simp only [requested, ended] at wanted
      omega

/-- The connection ends between two packets. -/
theorem Follows.fail (follows : Follows sent state) (between : state.phase = .length) :
    Follows sent state.fail := by
  have transmitted : state.fail.transmitted = state.transmitted := by
    simp only [RecvData.fail, between]
  refine .done ?_ (transmitted ▸ follows.transmitted_isPrefix)
  simp only [RecvData.fail, between]

/-! ## Progress -/

variable (transmitted) in
theorem run_waiting
    (lengths : ∀ packet ∈ waiting, 1 ≤ packet.length ∧ packet.length < 2147483648) :
    ∃ sizes, recvData.Meets InOne (atLength (encode waiting) transmitted) sizes ∧
      recvData.run (atLength (encode waiting) transmitted) sizes =
        some (atLength [] (transmitted ++ waiting)) := by
  induction waiting generalizing transmitted with
  | nil => exact ⟨[], trivial, by simp [encode]⟩
  | cons packet waiting ih =>
      have here := lengths packet List.mem_cons_self
      have some_ : packet ≠ [] := List.ne_nil_of_length_pos here.1
      have first := recv_length transmitted waiting here
      have second := recv_missing transmitted waiting [] some_
      have later (other : Bytes) (member : other ∈ waiting) :=
        lengths other (List.mem_cons_of_mem _ member)
      rcases ih (transmitted ++ [packet]) later with ⟨sizes, pieces, rest⟩
      refine ⟨4 :: packet.length :: sizes, ?_, ?_⟩
      · refine recvData.meets_cons first (fun _ => rfl) ?_
        refine recvData.meets_cons second ?_ pieces
        simp [InOne, atContent]
      · refine recvData.run_cons_eq_some.mpr ⟨_, first, ?_⟩
        refine recvData.run_cons_eq_some.mpr ⟨_, second, ?_⟩
        rw [List.nil_append, rest, List.append_assoc, List.singleton_append]

/-- While the connection lasts, everything on its way can be received. -/
theorem Follows.exists_run (follows : Follows sent state)
    (lengths : ∀ packet ∈ sent, 1 ≤ packet.length ∧ packet.length < 2147483648)
    (lasts : state.phase ≠ .done) :
    ∃ sizes, recvData.Meets InOne state sizes ∧
      recvData.run state sizes = some (atLength [] sent) := by
  cases follows with
  | @length transmitted waiting whole =>
      have coming (packet : Bytes) (member : packet ∈ waiting) :=
        lengths packet (whole ▸ List.mem_append_right _ member)
      rcases run_waiting transmitted coming with ⟨sizes, pieces, run⟩
      rw [← whole] at run
      exact ⟨sizes, pieces, run⟩
  | @content transmitted waiting recvBuf missing some_ whole =>
      have first := recv_missing transmitted waiting recvBuf some_
      have coming (packet : Bytes) (member : packet ∈ waiting) :=
        lengths packet (whole ▸ List.mem_append_right _ (List.mem_cons_of_mem _ member))
      rcases run_waiting (transmitted ++ [recvBuf ++ missing]) coming with ⟨sizes, pieces, run⟩
      refine ⟨missing.length :: sizes, ?_, ?_⟩
      · refine recvData.meets_cons first ?_ pieces
        simp [InOne, atContent]
      · refine recvData.run_cons_eq_some.mpr ⟨_, first, ?_⟩
        rw [run, whole, List.append_assoc, List.singleton_append]
  | done ended => exact absurd ended lasts

/-- Nothing is on its way to the thread. -/
theorem Follows.transmitted_eq (follows : Follows sent state) (between : state.phase = .length)
    (nothing : state.rest = []) : state.transmitted = sent := by
  cases follows with
  | @length transmitted waiting whole =>
      cases waiting with
      | nil => exact (List.append_nil _).symm.trans whole.symm
      | cons packet waiting =>
          have empty : (encode (packet :: waiting)).length = 0 := congrArg List.length nothing
          simp only [encode, frame, List.length_append, length_int32] at empty
          omega
  | content => simp [atContent] at between
  | done ended => simp [ended] at between

end Step

end RecvData

end InstanceMessage
