import InstanceMessage.Library.Bytes

/-!
# Length-prefixed frames

A packet body travels as a frame: its length as a 32-bit little-endian
integer, and then the body. `wholeFrames` says which bodies of a sequence of
frames have arrived once a number of bytes has; it is what a receiver should
have delivered by then, however the stream was cut into pieces.
-/

namespace Library

/-- The length of the body, and the body. -/
def frame (body : Bytes) : Bytes := int32 body.length ++ body

/-- The stream that carries the frames of the bodies. -/
def encode : List Bytes → Bytes
  | [] => []
  | body :: bodies => frame body ++ encode bodies

theorem encode_append (first second : List Bytes) :
    encode (first ++ second) = encode first ++ encode second := by
  induction first with
  | nil => rfl
  | cons body bodies ih => simp only [List.cons_append, encode, ih, List.append_assoc]

theorem encode_singleton (body : Bytes) : encode [body] = frame body := List.append_nil _

/-- The bodies whose frames lie wholly in the first bytes of the stream. -/
def wholeFrames : List Bytes → ℕ → List Bytes
  | [], _ => []
  | body :: bodies, received =>
      if 4 + body.length ≤ received then
        body :: wholeFrames bodies (received - (4 + body.length))
      else []

def framesLength (bodies : List Bytes) : ℕ := (bodies.map fun body => 4 + body.length).sum

@[simp]
theorem framesLength_nil : framesLength [] = 0 := rfl

@[simp]
theorem framesLength_cons (body : Bytes) (bodies : List Bytes) :
    framesLength (body :: bodies) = 4 + body.length + framesLength bodies := rfl

/-- Whole frames take no more bytes than have arrived. -/
theorem framesLength_wholeFrames_le (bodies : List Bytes) (received : ℕ) :
    framesLength (wholeFrames bodies received) ≤ received := by
  induction bodies generalizing received with
  | nil => simp [wholeFrames]
  | cons body bodies ih =>
      rw [wholeFrames]
      split
      · have rest := ih (received - (4 + body.length))
        rw [framesLength_cons]
        omega
      · simp

theorem wholeFrames_of_lt {body : Bytes} {bodies : List Bytes} {received : ℕ}
    (short : received < 4 + body.length) : wholeFrames (body :: bodies) received = [] := by
  rw [wholeFrames, if_neg (by omega)]

theorem wholeFrames_cons_add (body : Bytes) (bodies : List Bytes) (more : ℕ) :
    wholeFrames (body :: bodies) (4 + body.length + more) = body :: wholeFrames bodies more := by
  rw [wholeFrames, if_pos (by omega), Nat.add_sub_cancel_left]

@[simp]
theorem wholeFrames_zero (bodies : List Bytes) : wholeFrames bodies 0 = [] := by
  cases bodies with
  | nil => rfl
  | cons body bodies => exact wholeFrames_of_lt (by omega)

/-! ## Streams that may be anything -/

/-- The bodies at the front of a stream, up to the first length that is zero or above the limit,
or whose body has not arrived. -/
def parse (limit : ℕ) (stream : Bytes) : List Bytes :=
  let length := ofLe (stream.take 4)
  if 4 ≤ stream.length ∧ 1 ≤ length ∧ length ≤ limit ∧ 4 + length ≤ stream.length then
    (stream.drop 4).take length :: parse limit (stream.drop (4 + length))
  else []
termination_by stream.length
decreasing_by
  rw [List.length_drop]
  omega

theorem parse_of_header {limit : ℕ} {header body : Bytes} (rest : Bytes)
    (whole : header.length = 4) (fits : body.length = ofLe header) (positive : 1 ≤ body.length)
    (bounded : body.length ≤ limit) :
    parse limit (header ++ body ++ rest) = body :: parse limit rest := by
  have front : (header ++ body ++ rest).take 4 = header := by
    rw [List.append_assoc]
    exact List.take_left' whole
  have behind : (header ++ body ++ rest).drop 4 = body ++ rest := by
    rw [List.append_assoc]
    exact List.drop_left' whole
  have after : (header ++ body ++ rest).drop (4 + ofLe header) = rest :=
    List.drop_left' (by rw [List.length_append]; omega)
  rw [parse]
  simp only [front, behind, after]
  rw [if_pos (by simp only [List.length_append]; omega), ← fits, List.take_left]

/-- More of the stream gives more bodies. -/
theorem parse_grows {limit : ℕ} {shorter longer : Bytes} (grows : shorter <+: longer) :
    parse limit shorter <+: parse limit longer := by
  fun_induction parse limit shorter generalizing longer with
  | case1 stream length whole =>
      rename_i ih
      rcases grows with ⟨more, rfl⟩
      have front : (stream ++ more).take 4 = stream.take 4 :=
        List.take_append_of_le_length whole.1
      have body : ((stream ++ more).drop 4).take length = (stream.drop 4).take length := by
        rw [List.drop_append_of_le_length whole.1]
        apply List.take_append_of_le_length
        rw [List.length_drop]
        omega
      have after : (stream ++ more).drop (4 + length) = stream.drop (4 + length) ++ more :=
        List.drop_append_of_le_length whole.2.2.2
      rw [parse.eq_1 limit (stream ++ more)]
      simp only [front]
      rw [if_pos (by simp only [List.length_append]; omega)]
      exact List.cons_prefix_cons.mpr ⟨body.symm, ih ⟨more, after.symm⟩⟩
  | case2 => exact List.nil_prefix

/-- The front of a stream consists of frames that carry the bodies. -/
def Parses (limit : ℕ) (front : Bytes) (bodies : List Bytes) : Prop :=
  ∀ rest, parse limit (front ++ rest) = bodies ++ parse limit rest

theorem parses_nil (limit : ℕ) : Parses limit [] [] := fun _ => rfl

theorem Parses.append {limit : ℕ} {front header body : Bytes} {bodies : List Bytes}
    (parses : Parses limit front bodies) (whole : header.length = 4)
    (fits : body.length = ofLe header) (positive : 1 ≤ body.length)
    (bounded : body.length ≤ limit) :
    Parses limit (front ++ (header ++ body)) (bodies ++ [body]) := by
  intro rest
  rw [List.append_assoc front, parses, parse_of_header rest whole fits positive bounded]
  simp

theorem Parses.isPrefix {limit : ℕ} {front stream : Bytes} {bodies : List Bytes}
    (parses : Parses limit front bodies) (arrives : front <+: stream) :
    bodies <+: parse limit stream := by
  rcases arrives with ⟨rest, rfl⟩
  rw [parses]
  exact List.prefix_append _ _

theorem ofLe_int32_length {body : Bytes} (bound : body.length < 2147483648) :
    ofLe (int32 body.length) = body.length := by
  rw [int32, ofLe_le32] <;> omega

theorem toInt32_int32_length {body : Bytes} (bound : body.length < 2147483648) :
    toInt32 (ofLe (int32 body.length)) = body.length :=
  toInt32_ofLe_int32 ⟨by omega, by omega⟩

/-- The frames of bodies of the right size are found again. -/
theorem parse_encode {limit : ℕ} (small : limit < 2147483648) {bodies : List Bytes}
    (lengths : ∀ body ∈ bodies, 1 ≤ body.length ∧ body.length ≤ limit) :
    parse limit (encode bodies) = bodies := by
  induction bodies with
  | nil =>
      rw [encode, parse]
      simp
  | cons body bodies ih =>
      rcases lengths body List.mem_cons_self with ⟨positive, bounded⟩
      have fits : body.length = ofLe (int32 body.length) :=
        (ofLe_int32_length (bounded.trans_lt small)).symm
      rw [encode, frame, parse_of_header _ (length_int32 _) fits positive bounded,
        ih fun other member => lengths other (List.mem_cons_of_mem _ member)]

theorem take_frame (body rest : Bytes) : (frame body ++ rest).take 4 = int32 body.length := by
  rw [frame, List.append_assoc]
  exact List.take_left' (length_int32 _)

theorem drop_frame (body rest : Bytes) : (frame body ++ rest).drop 4 = body ++ rest := by
  rw [frame, List.append_assoc]
  exact List.drop_left' (length_int32 _)

end Library
