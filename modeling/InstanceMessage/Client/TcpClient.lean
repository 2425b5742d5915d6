import InstanceMessage.Library.Framing
import InstanceMessage.Library.Machine

/-!
# The client's socket

`TcpClient::sendData` and the receiving thread `TcpClient::recvData`.
-/

namespace InstanceMessage

open Library

namespace TcpClient

/-- The bytes that `sendData` writes: nothing for an empty packet, else its length and itself. -/
def sendData (data : Bytes) : Bytes :=
  if data = [] then [] else int32 data.length ++ data

theorem sendData_eq_frame {data : Bytes} (nonempty : 1 ≤ data.length) :
    sendData data = frame data := by
  have : data ≠ [] := by
    rintro rfl
    simp at nonempty
  simp [sendData, frame, this]

def stream (bodies : List Bytes) : Bytes := (bodies.map sendData).flatten

theorem stream_eq_encode {bodies : List Bytes} (nonempty : ∀ body ∈ bodies, 1 ≤ body.length) :
    stream bodies = encode bodies := by
  induction bodies with
  | nil => rfl
  | cons body bodies ih =>
      have rest := ih fun other member => nonempty other (List.mem_cons_of_mem _ member)
      simp only [stream, List.map_cons, List.flatten_cons, encode,
        sendData_eq_frame (nonempty body List.mem_cons_self)]
      rw [← rest]
      rfl

end TcpClient

end InstanceMessage
