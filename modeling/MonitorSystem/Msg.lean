import MonitorSystem.Lib.CString

/-! # The message structure shared by client and server

monitor_msg_ds travels as the raw memory of the structure: eight bytes of
type, the buffer, and four bytes of tail padding that carry no meaning.
-/

namespace MonitorSystem.Msg

open Lib.CString

def piHeart : BitVec 64 := 0x01
def piAck : BitVec 64 := 0x02
def sysMem : BitVec 64 := 0x04
def sysCpu : BitVec 64 := 0x08
def sysDisk : BitVec 64 := 0x10
def sysSys : BitVec 64 := 0x20
def udpRes : Nat := 0x80

def msgBuffSize : Nat := 500
def tokenLen : Nat := 20

structure MonitorMsgDs where
  type : BitVec 64
  buff : Bytes
  buff_length : buff.length = msgBuffSize
deriving DecidableEq

/-- A token that fits the arrays token[TOKEN_LEN] of client and server. -/
structure Token where
  text : Bytes
  noNul : 0 ∉ text
  fits : text.length < tokenLen

/-- sizeof(struct monitor_msg_ds) with a 64-bit long. -/
def sizeofMsg : Nat := 512

def padding : Nat := 4

/-- The memory of a message; the padding holds whatever the sender's stack held. -/
def MonitorMsgDs.image (m : MonitorMsgDs) (pad : Bytes) : Bytes :=
  leBytes 8 m.type.toNat ++ (m.buff ++ pad)

def ofStorage (storage : Bytes) : MonitorMsgDs where
  type := BitVec.ofNat 64 (leNat (storage.take 8))
  buff := (storage.drop 8 ++ List.replicate msgBuffSize 0).take msgBuffSize
  buff_length := by simp

theorem MonitorMsgDs.length_image (m : MonitorMsgDs) {pad : Bytes} (h : pad.length = padding) :
    (m.image pad).length = sizeofMsg := by
  simp [image, m.buff_length, h, msgBuffSize, padding, sizeofMsg]

@[simp] theorem ofStorage_image (m : MonitorMsgDs) (pad : Bytes) : ofStorage (m.image pad) = m := by
  cases m with
  | mk type buff hLength =>
    have hType : leNat (leBytes 8 type.toNat) = type.toNat := by
      rw [leNat_leBytes]
      exact Nat.mod_eq_of_lt type.isLt
    simp only [ofStorage, MonitorMsgDs.image, MonitorMsgDs.mk.injEq]
    constructor
    · rw [List.take_left' (length_leBytes 8 _), hType, BitVec.ofNat_toNat, BitVec.setWidth_eq]
    · rw [List.drop_left' (length_leBytes 8 _), List.append_assoc, List.take_left' hLength]

def cleared (type : BitVec 64) : MonitorMsgDs := ⟨type, List.replicate msgBuffSize 0, by simp⟩

/-- strcpy(msg.buff, s); none when the string and its terminator do not fit. -/
def MonitorMsgDs.strcpyBuff (m : MonitorMsgDs) (s : Bytes) : Option MonitorMsgDs :=
  if h : s.length < msgBuffSize then
    some { m with
      buff := s ++ 0 :: m.buff.drop (s.length + 1)
      buff_length := by
        rw [List.length_append, List.length_cons, List.length_drop, m.buff_length]
        omega }
  else none

def MonitorMsgDs.text (m : MonitorMsgDs) : Bytes := cstr m.buff

theorem strcpyBuff_text {m m' : MonitorMsgDs} {s : Bytes} (hs : 0 ∉ s)
    (h : m.strcpyBuff s = some m') : m'.text = s := by
  rw [MonitorMsgDs.strcpyBuff] at h
  split at h
  · cases h
    exact cstr_terminated hs _
  · cases h

end MonitorSystem.Msg
