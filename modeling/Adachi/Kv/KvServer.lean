import Adachi.Kv.KvService
import Adachi.Lib.WhileLoop

/-!
# The on-message handler of `adachi::network::kv::KVServer`

The loop of `src/kv/kvserver.cpp`, turn by turn.  What the handler asks of its
connection, `Write(msg)` and `Close()`, is recorded in order.

`receive` is one round of `TcpConnection::Read`: `ReadFd` appends a segment to
the read buffer and the handler runs.  A connection that has been closed is no
longer in `kConnecting`, and `Read` returns at once.
-/

namespace Adachi.Kv

open Adachi.Io ByteOrder WhileLoop

/-- What the handler calls on the connection. -/
inductive Call where
  | write (message : Bytes)
  | close
  deriving DecidableEq, Repr

/-- What the handler works on: the read buffer, the store, its calls so far. -/
structure Handler where
  buffer : Buffer
  kvstore : KVStore
  calls : List Call

def Handler.call (h : Handler) (c : Call) : Handler := { h with calls := h.calls ++ [c] }

section Server

variable [Host] (kvservice : KVService)

/-- One turn of the handler's `while` loop. -/
def onMessageTurn (h : Handler) : Handler ⊕ Handler :=
  if h.buffer.size ≥ sizeofPacketHead then
    if kvservice.headCheck h.buffer then .inr (h.call .close)
    else if !kvservice.shouldGet h.buffer then .inr h
    else
      match kvservice.bodyCheck h.buffer with
      | (none, buffer) => .inr ({ h with buffer := buffer }.call .close)
      | (some result, buffer) =>
          match kvservice.shouldEcho h.kvstore buffer result with
          | (none, kvstore) => .inl { h with buffer := buffer, kvstore := kvstore }
          | (some echo, kvstore) =>
              let h := { h with buffer := buffer, kvstore := kvstore }
              match encodePacketToFlow echo [] with
              | none => .inr (h.call .close)
              | some msg => .inl (h.call (.write msg))
  else .inr h

/-- The handler; `none` when it has not returned after `turns` turns. -/
def onMessage (turns : Nat) (h : Handler) : Option Handler :=
  iterate (onMessageTurn kvservice) turns h

/-- A connection, as far as receiving goes, and how many bytes were appended to
its read buffer. -/
structure Session where
  handler : Handler
  received : Nat

/-- `Close()` has been called. -/
def Session.closed (s : Session) : Bool := s.handler.calls.contains .close

/-- How many of the received bytes the handler has consumed. -/
def Session.consumed (s : Session) : Nat := s.received - s.handler.buffer.size

/-- A new connection of a server with this store. -/
def Session.start (kvstore : KVStore) : Session := ⟨⟨Buffer.new 1024, kvstore, []⟩, 0⟩

/-- One segment arrives. -/
def receive (turns : Nat) (s : Session) (segment : Bytes) : Option Session :=
  if s.closed then some s
  else do
    let buffer := (s.handler.buffer.readFd (.ok segment)).2
    let handler ← onMessage kvservice turns { s.handler with buffer := buffer }
    some ⟨handler, s.received + segment.length⟩

/-- Segments arrive one after the other. -/
def receiveAll (turns : Nat) (s : Session) (segments : List Bytes) : Option Session :=
  segments.foldlM (receive kvservice turns) s

end Server

end Adachi.Kv
