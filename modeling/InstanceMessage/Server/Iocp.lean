import InstanceMessage.Library.Framing
import InstanceMessage.Server.Handlers

/-!
# The network workers

The I/O contexts of `IOCPTcpServer` and one pass of the loop of
`workerThread`: what the worker does with a completed operation, as a function
of the number of transferred bytes and of the context whose buffers the
operation has filled.
-/

namespace InstanceMessage

open Library

inductive OpType
  | opRecvHeader
  | opRecvBody
  | opSend
  deriving DecidableEq

/-- The context of one I/O operation; `bodyBuf` is empty while the pointer is null. -/
structure PerIo where
  opType : OpType
  sock : Handle
  bodyLen : ℕ := 0
  headerBuf : Bytes := [0, 0, 0, 0]
  bodyBuf : Bytes := []
  sendOnly : Bool := false
  deriving DecidableEq

structure TaskData where
  data : Bytes
  len : ℕ
  from_ : Handle
  deriving DecidableEq

namespace PerIo

/-- The context that `run` makes for an accepted connection. -/
def ofAccept (client : Handle) : PerIo := { opType := .opRecvHeader, sock := client }

/-- The context that `sendData` makes. -/
def ofSend (sock : Handle) (data : Bytes) : PerIo :=
  { opType := .opSend, sock := sock, bodyLen := data.length, headerBuf := int32 data.length,
    bodyBuf := data, sendOnly := true }

def requested (pio : PerIo) : ℕ :=
  match pio.opType with
  | .opRecvHeader => 4
  | .opRecvBody => pio.bodyLen
  | .opSend => 4 + pio.bodyLen

/-- A receive operation fills the front of its buffer. -/
def filled (pio : PerIo) (received : Bytes) : PerIo :=
  match pio.opType with
  | .opRecvHeader =>
      { pio with headerBuf := received ++ pio.headerBuf.drop received.length }
  | .opRecvBody => { pio with bodyBuf := received ++ pio.bodyBuf.drop received.length }
  | .opSend => pio

theorem filled_header {pio : PerIo} {received : Bytes} (header : pio.opType = .opRecvHeader) :
    pio.filled received =
      { pio with headerBuf := received ++ pio.headerBuf.drop received.length } := by
  simp only [filled, header]

theorem filled_body {pio : PerIo} {received : Bytes} (body : pio.opType = .opRecvBody) :
    pio.filled received = { pio with bodyBuf := received ++ pio.bodyBuf.drop received.length } := by
  simp only [filled, body]

@[simp]
theorem opType_filled (pio : PerIo) (received : Bytes) :
    (pio.filled received).opType = pio.opType := by
  simp only [filled]
  split <;> rfl

@[simp]
theorem sock_filled (pio : PerIo) (received : Bytes) : (pio.filled received).sock = pio.sock := by
  simp only [filled]
  split <;> rfl

@[simp]
theorem bodyLen_filled (pio : PerIo) (received : Bytes) :
    (pio.filled received).bodyLen = pio.bodyLen := by
  simp only [filled]
  split <;> rfl

end PerIo

inductive Effect
  | closeClient
  /-- The receive of the body is posted on the context. -/
  | recvBody (pio : PerIo)
  /-- The packet goes to the pool, and the receive of the next header is posted. -/
  | submit (task : TaskData) (pio : PerIo)
  | release
  | nothing
  deriving DecidableEq

/-- The body of the loop of `workerThread`. The allocated buffer holds nothing that is read before
it is overwritten. -/
def workerBody (bytes : ℕ) (pio : PerIo) : Effect :=
  if bytes = 0 then .closeClient
  else
    match pio.opType with
    | .opRecvHeader =>
        if bytes ≠ 4 then .closeClient
        else
          let bodyLen := ofLe pio.headerBuf
          if bodyLen = 0 ∨ bodyLen > 10 * 1024 * 1024 then .closeClient
          else .recvBody { pio with
            opType := .opRecvBody, bodyLen := bodyLen, bodyBuf := List.replicate bodyLen 0 }
    | .opRecvBody =>
        if bytes ≠ pio.bodyLen then .closeClient
        else .submit ⟨pio.bodyBuf, pio.bodyLen, pio.sock⟩ { pio with
          opType := .opRecvHeader, bodyBuf := [] }
    | .opSend => if pio.sendOnly then .release else .nothing

theorem workerBody_header {bytes : ℕ} {pio : PerIo} (header : pio.opType = .opRecvHeader)
    (some : bytes ≠ 0) : workerBody bytes pio =
      if bytes ≠ 4 then .closeClient
      else if ofLe pio.headerBuf = 0 ∨ ofLe pio.headerBuf > 10 * 1024 * 1024 then .closeClient
      else .recvBody { pio with
        opType := .opRecvBody, bodyLen := ofLe pio.headerBuf
        bodyBuf := List.replicate (ofLe pio.headerBuf) 0 } := by
  simp only [workerBody, if_neg some, header]

theorem workerBody_body {bytes : ℕ} {pio : PerIo} (body : pio.opType = .opRecvBody)
    (some : bytes ≠ 0) : workerBody bytes pio =
      if bytes ≠ pio.bodyLen then .closeClient
      else .submit ⟨pio.bodyBuf, pio.bodyLen, pio.sock⟩
        { pio with opType := .opRecvHeader, bodyBuf := [] } := by
  simp only [workerBody, if_neg some, body]

/-- What the loop's body can do. A receive context is never released by it. -/
inductive Looped (bytes : ℕ) (pio : PerIo) : Effect → Prop
  | closeClient : Looped bytes pio .closeClient
  | recvBody (header : pio.opType = .opRecvHeader) (whole : bytes = 4)
      (positive : 1 ≤ ofLe pio.headerBuf) (bounded : ofLe pio.headerBuf ≤ 10 * 1024 * 1024) :
      Looped bytes pio (.recvBody { pio with
        opType := .opRecvBody, bodyLen := ofLe pio.headerBuf
        bodyBuf := List.replicate (ofLe pio.headerBuf) 0 })
  | submit (body : pio.opType = .opRecvBody) (some : bytes ≠ 0) (whole : bytes = pio.bodyLen) :
      Looped bytes pio (.submit ⟨pio.bodyBuf, pio.bodyLen, pio.sock⟩
        { pio with opType := .opRecvHeader, bodyBuf := [] })
  | release (sent : pio.opType = .opSend) : Looped bytes pio .release
  | nothing (sent : pio.opType = .opSend) : Looped bytes pio .nothing

theorem looped_workerBody (bytes : ℕ) (pio : PerIo) : Looped bytes pio (workerBody bytes pio) := by
  by_cases some : bytes = 0
  · simp only [workerBody, if_pos some]
    exact .closeClient
  · cases kind : pio.opType with
    | opRecvHeader =>
        rw [workerBody_header kind some]
        split
        · exact .closeClient
        · split
          · exact .closeClient
          · exact .recvBody kind (by omega) (by omega) (by omega)
    | opRecvBody =>
        rw [workerBody_body kind some]
        split
        · exact .closeClient
        · exact .submit kind some (by omega)
    | opSend =>
        simp only [workerBody, if_neg some, kind]
        split
        · exact .release kind
        · exact .nothing kind

end InstanceMessage
