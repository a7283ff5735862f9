import Adachi.Io.Buffer
import Adachi.Io.Channel
import Adachi.Lib.Machine
import Mathlib.Tactic.Simps.Basic

/-!
# `adachi::network::TcpConnection`: writing and closing

The write side of `src/tcpconnection.cpp`: `Activate`, `Write`, `WriteFd` and
`Close` with the parts of them that run on the thread of the owner loop.

A system call is decided by the environment, so each function takes what the calls
it can make return: `r` is the result of `write(2)`, and `ctl` says whether the
`epoll_ctl` calls succeed, of which a function makes at most one to modify and one
to delete.  What the outside sees of the connection is recorded in `effects`.

`Close` can be called on any thread: `requestClose` is what it does at once when
the thread is another one, and `closeInThread` the task it submits.
-/

namespace Adachi.Network

open Adachi.Io

inductive ConnectionState where
  | kConnecting
  | kDisConnecting
  | kDisConnected
  deriving DecidableEq, Repr

/-- What the outside sees: what `write(2)` took or why it failed, the channel's
removal from its loop, the closing of the descriptor, and the close callback. -/
inductive Effect where
  | sent (bytes : Bytes)
  | writeFailed (e : Errno)
  | removed
  | closed
  | closeCallback
  deriving DecidableEq, Repr

/-- Whether `epoll_ctl` succeeds in a step, with `EPOLL_CTL_MOD` and with
`EPOLL_CTL_DEL`. -/
structure EpollCtl where
  mod : Bool
  del : Bool
  deriving DecidableEq, Repr

/-- `Socket`: the descriptor, `-1` once it is closed. -/
structure Socket where
  fd : Int
  deriving DecidableEq, Repr

/-- The members the functions below use.  `closeCallback` says that a close callback
is set and that the object is still owned by a `shared_ptr`. -/
structure TcpConnection where
  channel : Channel
  status : ConnectionState
  closeRequested : Bool
  socket : Socket
  writeBuffer : Buffer
  closeCallback : Bool
  effects : List Effect
  deriving DecidableEq, Repr

namespace TcpConnection

/-- `TcpConnection(loop, fd, _, write_buffer_size)`, with the close callback set
afterwards or not.  `added` is the result of the `EPOLL_CTL_ADD` of its channel. -/
def new (loop : LoopId) (fd : Nat) (writeBufferSize : Nat) (callback added : Bool) :
    TcpConnection where
  channel := Channel.new loop added
  status := .kConnecting
  closeRequested := false
  socket := ⟨fd⟩
  writeBuffer := Buffer.new writeBufferSize
  closeCallback := callback
  effects := []

/-! ## Parts that several functions share -/

@[simps]
def setActive (c : TcpConnection) (events : Events) (ctl : EpollCtl) : TcpConnection :=
  { c with channel := c.channel.setActive events ctl.mod }

@[simps]
def setStatus (c : TcpConnection) (status : ConnectionState) : TcpConnection :=
  { c with status := status }

@[simps]
def emit (c : TcpConnection) (es : List Effect) : TcpConnection :=
  { c with effects := c.effects ++ es }

/-- `channel_->RemoveFromLoop()` -/
@[simps]
def removeFromLoop (c : TcpConnection) (ctl : EpollCtl) : TcpConnection :=
  { c with
    channel := c.channel.removeFromLoop ctl.del
    effects := c.effects ++ if c.channel.owner.isSome then [.removed] else [] }

/-- `socket_->Close()` -/
@[simps channel status closeRequested socket writeBuffer closeCallback effects]
def closeSocket (c : TcpConnection) : TcpConnection :=
  { c with
    socket := ⟨-1⟩
    effects := c.effects ++ if 0 ≤ c.socket.fd then [.closed] else [] }

/-- `if (self && close_callback_) close_callback_(self)` -/
@[simps]
def runCloseCallback (c : TcpConnection) : TcpConnection :=
  { c with effects := c.effects ++ if c.closeCallback then [.closeCallback] else [] }

/-- Ask no longer for the write event. -/
def unsetWrite (c : TcpConnection) (ctl : EpollCtl) : TcpConnection :=
  if c.channel.events &&& Channel.kWrite ≠ 0 then
    c.setActive (c.channel.events ^^^ Channel.kWrite) ctl
  else c

section UnsetWrite

variable (c : TcpConnection) (ctl : EpollCtl)

/-- Only the channel's events change. -/
theorem unsetWrite_eq : ∃ channel : Channel,
    channel.owner = c.channel.owner ∧ c.unsetWrite ctl = { c with channel := channel } := by
  unfold unsetWrite
  split
  · exact ⟨_, Channel.setActive_owner .., rfl⟩
  · exact ⟨_, rfl, rfl⟩

@[simp] theorem unsetWrite_owner : (c.unsetWrite ctl).channel.owner = c.channel.owner := by
  obtain ⟨channel, howner, heq⟩ := c.unsetWrite_eq ctl
  rw [heq, ← howner]

@[simp] theorem unsetWrite_status : (c.unsetWrite ctl).status = c.status := by
  obtain ⟨channel, _, heq⟩ := c.unsetWrite_eq ctl
  rw [heq]

@[simp] theorem unsetWrite_socket : (c.unsetWrite ctl).socket = c.socket := by
  obtain ⟨channel, _, heq⟩ := c.unsetWrite_eq ctl
  rw [heq]

@[simp] theorem unsetWrite_writeBuffer : (c.unsetWrite ctl).writeBuffer = c.writeBuffer := by
  obtain ⟨channel, _, heq⟩ := c.unsetWrite_eq ctl
  rw [heq]

@[simp] theorem unsetWrite_closeCallback :
    (c.unsetWrite ctl).closeCallback = c.closeCallback := by
  obtain ⟨channel, _, heq⟩ := c.unsetWrite_eq ctl
  rw [heq]

@[simp] theorem unsetWrite_effects : (c.unsetWrite ctl).effects = c.effects := by
  obtain ⟨channel, _, heq⟩ := c.unsetWrite_eq ctl
  rw [heq]

end UnsetWrite

/-! ## On the thread of the owner loop -/

def activateInThread (c : TcpConnection) (ctl : EpollCtl) : TcpConnection :=
  if c.status ≠ .kConnecting then c
  else c.setActive (Channel.kRead ||| Channel.kClose) ctl

def closeInThread (c : TcpConnection) (ctl : EpollCtl) : TcpConnection :=
  if c.status = .kDisConnected then c
  else if c.writeBuffer.empty then
    (((c.setStatus .kDisConnected).removeFromLoop ctl).closeSocket).runCloseCallback
  else (c.setStatus .kDisConnecting).setActive (c.channel.events ||| Channel.kWrite) ctl

/-- The part of `WriteInThread` that gets rid of the message. -/
def putMessage (c : TcpConnection) (message : Bytes) (r : SysResult Nat)
    (ctl : EpollCtl) : TcpConnection :=
  if c.writeBuffer.empty then
    match r with
    | .ok n =>
        let c := c.emit [.sent (message.take n)]
        if n ≠ message.length then
          { c with writeBuffer :=
              c.writeBuffer.writeBufferLen (message.drop n) (message.length - n) }
        else c
    | .error e =>
        let c := c.emit [.writeFailed e]
        if !e.retryable then c.closeInThread ctl
        else { c with writeBuffer := c.writeBuffer.writeBuffer message }
  else { c with writeBuffer := c.writeBuffer.writeBuffer message }

def writeInThread (c : TcpConnection) (message : Bytes) (r : SysResult Nat)
    (ctl : EpollCtl) : TcpConnection :=
  if c.status ≠ .kConnecting then c
  else
    let c := c.putMessage message r ctl
    if !c.writeBuffer.empty then
      c.setActive (c.channel.events ||| Channel.kWrite) ctl
    else c

/-! ## The interface -/

def activate (c : TcpConnection) (ctl : EpollCtl) : TcpConnection :=
  if c.channel.owner = none then c else c.activateInThread ctl

def write (c : TcpConnection) (message : Bytes) (r : SysResult Nat) (ctl : EpollCtl) :
    TcpConnection :=
  if c.channel.owner = none then c else c.writeInThread message r ctl

/-- `Close` on the thread of the loop. -/
def close (c : TcpConnection) (ctl : EpollCtl) : TcpConnection :=
  if c.closeRequested then c
  else
    let c := { c with closeRequested := true }
    if c.channel.owner = none then c else c.closeInThread ctl

/-- `Close` on another thread, which leaves the rest to a task of the loop. -/
def requestClose (c : TcpConnection) : TcpConnection := { c with closeRequested := true }

/-- The write of `WriteFd`, and what it does about an error. -/
def flush (c : TcpConnection) (r : SysResult Nat) (ctl : EpollCtl) : TcpConnection :=
  match c.writeBuffer.writeFd r with
  | (.ok n, writeBuffer) =>
      { c with
        writeBuffer := writeBuffer
        effects := c.effects ++ [.sent (c.writeBuffer.cReadData.take n)] }
  | (.error e, writeBuffer) =>
      let c := { c with
        writeBuffer := writeBuffer
        effects := c.effects ++ [.writeFailed e] }
      if !e.retryable then c.close ctl else c

theorem flush_ok (c : TcpConnection) (n : Nat) (ctl : EpollCtl) :
    c.flush (.ok n) ctl =
      { c with
        writeBuffer := (c.writeBuffer.writeFd (.ok n)).2
        effects := c.effects ++ [.sent (c.writeBuffer.cReadData.take n)] } := rfl

theorem flush_error (c : TcpConnection) (e : Errno) (ctl : EpollCtl) :
    c.flush (.error e) ctl =
      if !e.retryable then (c.emit [.writeFailed e]).close ctl
      else c.emit [.writeFailed e] := rfl

/-- What `WriteFd` does once the buffer is empty. -/
def flushed (c : TcpConnection) (ctl : EpollCtl) : TcpConnection :=
  let c := c.unsetWrite ctl
  if c.status = .kDisConnecting then
    (((c.setStatus .kDisConnected).runCloseCallback).removeFromLoop ctl).closeSocket
  else c

def writeFd (c : TcpConnection) (r : SysResult Nat) (ctl : EpollCtl) : TcpConnection :=
  if c.status = .kDisConnected then c
  else
    let c := c.flush r ctl
    if c.writeBuffer.empty then c.flushed ctl else c

/-! ## What leaves the buffer alone -/

section WriteBuffer

variable (c : TcpConnection) (ctl : EpollCtl)

@[simp] theorem activateInThread_writeBuffer :
    (c.activateInThread ctl).writeBuffer = c.writeBuffer := by
  unfold activateInThread
  split
  · rfl
  · rfl

@[simp] theorem activate_writeBuffer : (c.activate ctl).writeBuffer = c.writeBuffer := by
  unfold activate
  split
  · rfl
  · exact activateInThread_writeBuffer c ctl

@[simp] theorem closeInThread_writeBuffer :
    (c.closeInThread ctl).writeBuffer = c.writeBuffer := by
  unfold closeInThread
  split
  · rfl
  · split
    · rfl
    · rfl

@[simp] theorem close_writeBuffer : (c.close ctl).writeBuffer = c.writeBuffer := by
  unfold close
  split
  · rfl
  · dsimp only
    split
    · rfl
    · exact closeInThread_writeBuffer ..

@[simp] theorem flushed_writeBuffer : (c.flushed ctl).writeBuffer = c.writeBuffer := by
  unfold flushed
  dsimp only
  split
  · exact unsetWrite_writeBuffer c ctl
  · exact unsetWrite_writeBuffer c ctl

end WriteBuffer

end TcpConnection

end Adachi.Network
