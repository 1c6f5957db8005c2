import MonitorSystem.Lib.CString

/-! # One direction of a byte stream

Messages are put in whole; a call of recv takes any of the bytes that were not
taken yet, whatever messages they come from.
-/

namespace Lib.Socket

open Lib.CString

structure ByteStream where
  sent : List Bytes
  read : List Bytes
deriving DecidableEq

inductive Got
  | bytes (n : Nat)
  | eof
  | error
deriving DecidableEq

namespace ByteStream

def empty : ByteStream := ⟨[], []⟩

def pending (s : ByteStream) : Bytes := s.sent.flatten.drop s.read.flatten.length

def send (s : ByteStream) (msg : Bytes) : ByteStream := { s with sent := s.sent ++ [msg] }

def allows (s : ByteStream) (closed : Bool) (size : Nat) : Got → Bool
  | .bytes n => 0 < n ∧ n ≤ size ∧ n ≤ s.pending.length
  | .eof => s.pending = [] ∧ closed
  | .error => true

def chunk (s : ByteStream) : Got → Bytes
  | .bytes n => s.pending.take n
  | .eof | .error => []

def recv (s : ByteStream) : Got → ByteStream
  | .bytes n => { s with read := s.read ++ [s.pending.take n] }
  | .eof | .error => s

/-- Every recv so far returned exactly one message. -/
def Aligned (s : ByteStream) : Prop := s.read <+: s.sent

theorem pending_eq {s : ByteStream} {rest : List Bytes} (h : s.sent = s.read ++ rest) :
    s.pending = rest.flatten := by
  rw [pending, h, List.flatten_append, List.drop_left]

theorem pending_of_unread {s : ByteStream} (h : s.read = []) : s.pending = s.sent.flatten :=
  pending_eq (by rw [h, List.nil_append])

theorem take_next {s : ByteStream} {msg : Bytes} {rest : List Bytes} (h : s.sent = s.read ++ msg :: rest) :
    s.pending.take msg.length = msg := by
  rw [pending_eq h, List.flatten_cons, List.take_left]

theorem recv_next {s : ByteStream} {msg : Bytes} {rest : List Bytes} (h : s.sent = s.read ++ msg :: rest) :
    s.recv (.bytes msg.length) = ⟨s.sent, s.read ++ [msg]⟩ := by
  rw [recv, take_next h]

end ByteStream

end Lib.Socket
