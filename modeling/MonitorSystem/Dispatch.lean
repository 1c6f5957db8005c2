import MonitorSystem.Msg

/-! # What the dispatcher does with one recv

do_dispatch declares its message variable inside the loop and never clears it:
a recv overwrites as many bytes as it returns and leaves the rest of the
storage as it was.
-/

namespace MonitorSystem.Dispatch

open Msg Lib.CString

inductive Recv
  | data (bytes : Bytes)
  | eof
  | error
deriving DecidableEq

def Recv.failed : Recv → Bool
  | .data _ => false
  | .eof | .error => true

def Recv.within (size : Nat) : Recv → Bool
  | .data bytes => 0 < bytes.length ∧ bytes.length ≤ size
  | .eof | .error => true

def recvInto (storage : Bytes) : Recv → Bytes
  | .data bytes => bytes ++ storage.drop bytes.length
  | .eof | .error => storage

theorem ofStorage_recvInto (storage : Bytes) (m : MonitorMsgDs) (pad : Bytes) :
    ofStorage (recvInto storage (.data (m.image pad))) = m := by
  rw [recvInto, MonitorMsgDs.image, List.append_assoc, List.append_assoc]
  exact ofStorage_image m _

theorem recvInto_failed {r : Recv} (h : r.failed = true) (storage : Bytes) : recvInto storage r = storage := by
  cases r with
  | data => cases h
  | eof => rfl
  | error => rfl

inductive Handling
  | ack
  | push
  | ignored
deriving DecidableEq

/-- The classification after the recv, whether or not the recv failed. -/
def classify (msg : MonitorMsgDs) : Handling :=
  if msg.type &&& piAck ≠ 0 then .ack
  else if msg.type = sysMem ∨ msg.type = sysCpu ∨ msg.type = sysDisk ∨ msg.type = sysSys then .push
  else .ignored

def acted (msg : MonitorMsgDs) : Bool := classify msg ≠ .ignored

def clientTypes : List (BitVec 64) := [piAck, sysMem, sysCpu, sysDisk, sysSys]

theorem acted_of_clientTypes {msg : MonitorMsgDs} (h : msg.type ∈ clientTypes) :
    acted msg = true := by
  simp only [clientTypes, List.mem_cons, List.not_mem_nil, or_false] at h
  obtain h | h | h | h | h := h <;> simp [acted, classify, h] <;> decide

theorem getLsbD_one_ofStorage {rest : Bytes} : (ofStorage (2 :: rest)).type.getLsbD 1 = true := by
  have hBit : ∀ x, (2 + 256 * x).testBit 1 = true := by
    intro x
    rw [Nat.testBit_eq_decide_div_mod_eq]
    simp
    omega
  rw [ofStorage, BitVec.getLsbD_ofNat, List.take_succ_cons, leNat]
  simpa using hBit _

end MonitorSystem.Dispatch
