import Mathlib.Data.BitVec

/-!
# `adachi::io::Channel` and its `Epoll`

The interest of one file descriptor in events (`src/channel.cpp`) and the
`epoll_ctl` calls made for it (`src/epoll.cpp`), all of them on the thread of the
owner loop.  Whether an `epoll_ctl` call succeeds is the parameter `ok`;
`interest` is the kernel's own entry for the descriptor, which only a successful
call changes.
-/

namespace Adachi.Io

/-- An `int` that holds epoll event bits. -/
abbrev Events := BitVec 32

/-- An `EventLoop*` that is not null. -/
abbrev LoopId := Nat

structure Channel where
  events : Events
  owner : Option LoopId
  interest : Option Events
  deriving DecidableEq, Repr

namespace Channel

/-- `EPOLLIN` -/
def kRead : Events := 0x001
/-- `EPOLLOUT` -/
def kWrite : Events := 0x004
/-- `EPOLLERR` -/
def kError : Events := 0x008
/-- `EPOLLRDHUP | EPOLLHUP` -/
def kClose : Events := 0x2000 ||| 0x010

end Channel

/-! ## `Epoll` of a loop -/

namespace Epoll

/-- `UpdateChannel`.  The owner of the loop is not null, so the branch of the
source for a null owner is never taken. -/
def updateChannel (loop : LoopId) (channel : Channel) (ok : Bool) : Bool × Channel :=
  if channel.owner ≠ some loop then (false, channel)
  else if ok then (true, { channel with interest := some channel.events })
  else (false, channel)

def addChannel (loop : LoopId) (channel : Channel) (ok : Bool) : Bool × Channel :=
  if channel.owner = some loop then updateChannel loop channel ok
  else if channel.owner = none then
    let channel := { channel with owner := some loop }
    if ok then (true, { channel with interest := some channel.events })
    else (false, channel)
  else (false, channel)

def deleteChannel (loop : LoopId) (channel : Channel) (ok : Bool) : Bool × Channel :=
  if channel.owner ≠ some loop then (false, channel)
  else if ok then (true, { channel with interest := none, owner := none })
  else (false, channel)

end Epoll

/-! ## The class -/

namespace Channel

/-- `Channel(loop, fd)`, with a loop that is not null. -/
def new (loop : LoopId) (ok : Bool) : Channel :=
  match Epoll.addChannel loop ⟨0, none, none⟩ ok with
  | (false, channel) => channel
  | (true, channel) => { channel with owner := some loop }

def setActive (channel : Channel) (status : Events) (ok : Bool) : Channel :=
  let channel := { channel with events := status }
  match channel.owner with
  | none => channel
  | some loop => (Epoll.updateChannel loop channel ok).2

def removeFromLoop (channel : Channel) (ok : Bool) : Channel :=
  let channel :=
    match channel.owner with
    | none => channel
    | some loop => (Epoll.deleteChannel loop channel ok).2
  { channel with owner := none }

def getOwner (channel : Channel) : Option LoopId := channel.owner

/-! ### What they do to each field -/

@[simp] theorem new_owner (loop : LoopId) (ok : Bool) : (new loop ok).owner = some loop := by
  cases ok <;> simp [new, Epoll.addChannel]

@[simp] theorem new_events (loop : LoopId) (ok : Bool) : (new loop ok).events = 0 := by
  cases ok <;> simp [new, Epoll.addChannel]

theorem new_interest (loop : LoopId) : (new loop true).interest = some 0 := by
  simp [new, Epoll.addChannel]

@[simp] theorem setActive_events (channel : Channel) (status : Events) (ok : Bool) :
    (channel.setActive status ok).events = status := by
  unfold setActive Epoll.updateChannel
  dsimp only
  split
  · rfl
  · split
    · rfl
    · split <;> rfl

@[simp] theorem setActive_owner (channel : Channel) (status : Events) (ok : Bool) :
    (channel.setActive status ok).owner = channel.owner := by
  unfold setActive Epoll.updateChannel
  dsimp only
  split
  · rfl
  · split
    · rfl
    · split <;> rfl

/-- A successful `epoll_ctl` brings the kernel in line. -/
theorem setActive_interest {channel : Channel} (h : channel.owner.isSome) (status : Events) :
    (channel.setActive status true).interest = some status := by
  obtain ⟨loop, hloop⟩ := Option.isSome_iff_exists.1 h
  simp [setActive, Epoll.updateChannel, hloop]

@[simp] theorem removeFromLoop_owner (channel : Channel) (ok : Bool) :
    (channel.removeFromLoop ok).owner = none := rfl

/-! ### The write bit -/

/-- The channel asks to be told when its descriptor is writable. -/
def WantsWrite (channel : Channel) : Prop := channel.events &&& kWrite ≠ 0

instance (channel : Channel) : Decidable channel.WantsWrite :=
  inferInstanceAs (Decidable (channel.events &&& kWrite ≠ 0))

theorem and_kWrite (events : Events) :
    events &&& kWrite = if events.getLsbD 2 then kWrite else 0 :=
  BitVec.and_twoPow events 2

theorem or_kWrite (events : Events) : (events ||| kWrite) &&& kWrite ≠ 0 := by
  rw [and_kWrite, if_pos (by simp [kWrite])]
  decide

theorem xor_kWrite {events : Events} (h : events &&& kWrite ≠ 0) :
    (events ^^^ kWrite) &&& kWrite = 0 := by
  rw [and_kWrite] at h ⊢
  have hbit : events.getLsbD 2 = true := by
    by_contra hbit
    rw [if_neg hbit] at h
    exact h rfl
  rw [if_neg (by simp [kWrite, hbit])]

end Channel

end Adachi.Io
