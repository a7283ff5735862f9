import Adachi.Kv.Answers
import Adachi.Network.ReadBound

/-!
# How much storage a client can make a connection of the server take

The handler leaves less than a head unread, so the read buffer of a connection holds at most that
and one segment, however much a client sends.

## Main results

* `head_storage_bounded`
-/

namespace Adachi.Kv

open Adachi.Io Adachi.Network ByteOrder

section Storage

variable [Host]

theorem kDefaultBodyCheck_capacity (buffer : Buffer) :
    (kDefaultBodyCheck buffer).2.capacity = buffer.capacity := by
  unfold kDefaultBodyCheck
  split
  · rfl
  · split
    · rfl
    · dsimp only
      split
      · rfl
      · split
        · rfl
        · rename_i hraw
          have hkept := Buffer.capacity_readBufferLen hraw
          split
          · exact hkept
          · split
            · exact hkept
            · split
              · exact hkept
              · exact hkept

/-- A turn of the handler takes bytes out of the buffer, and leaves the storage as it is. -/
theorem onMessageTurn_capacity (h : Handler) :
    ((onMessageTurn KVService.default h).elim id id).buffer.capacity = h.buffer.capacity := by
  have hbody : (KVService.default.bodyCheck h.buffer).2.capacity = h.buffer.capacity :=
    kDefaultBodyCheck_capacity h.buffer
  unfold onMessageTurn
  split
  · split
    · rfl
    · split
      · rfl
      · split
        · rename_i hnone
          rw [hnone] at hbody
          exact hbody
        · rename_i hsome
          rw [hsome] at hbody
          split
          · exact hbody
          · dsimp only
            split
            · exact hbody
            · exact hbody
  · rfl

namespace KvConnection

theorem kvConnection_stores :
    Stores kvConnection headFramer KvLabel.talk (fun s => s.handler.buffer.capacity) ReadRoom
      Stands where
  enabled _ _ _ h hpossible := h.possible hpossible
  readRoom s t l h hroom := by
    cases l with
    | read segment =>
        change t.conn.status = _ → t.unread.length + _ < _ at hroom
        rwa [← h.conn, ← h.unread] at hroom
    | turn r ctl => exact trivial
    | call l => exact trivial
    | others kvstore => exact trivial
  next s t l h _ hroom := by
    refine ⟨h.step hroom, ?_⟩
    cases l with
    | read segment =>
        show (ite _ _ _ : KvConnection).handler.buffer.capacity = max _ (ite _ _ _)
        rw [← h.conn, ← h.unread]
        split
        · exact (Nat.max_zero _).symm
        · rename_i hopen
          exact Buffer.capacity_readFd h.fits (hroom (not_not.1 hopen))
    | turn r ctl => exact (onMessageTurn_capacity _).trans (Nat.max_zero _).symm
    | call l => exact (Nat.max_zero _).symm
    | others kvstore => exact (Nat.max_zero _).symm

/-- **A client cannot make the read buffer grow.**  In every run of a connection of the server, on
which no other thread calls `Close`, however much a client sends in all and whatever it is: the
storage of the read buffer stays within a head short of a byte and the longest segment, or the
1024 bytes it was made with; so the buffer always has room for the next segment. -/
theorem head_storage_bounded {q : Nat} (hq : 23 + q < 2 ^ 31) (loop : LoopId) (fd : Nat)
    (callback added : Bool) (kvstore : KVStore) (ls : List KvLabel)
    (hlegal : kvConnection.Legal (start loop fd callback added kvstore) ls)
    (hls : ∀ l ∈ ls, l.talk.AtMost q ∧ l.talk.Unasked) :
    (kvConnection.run (start loop fd callback added kvstore) ls).handler.buffer.capacity ≤
        max 1024 (23 + q) ∧
      kvConnection.Each ReadRoom (start loop fd callback added kvstore) ls := by
  have hbounded := kvConnection_stores.bounded (m := 23) (q := q) ?_ hq
    (stands_start loop fd callback added kvstore)
    (Conversation.settled_start headFramer loop fd 1024 callback added) hlegal hls
  · rwa [show (start loop fd callback added kvstore).handler.buffer.capacity = 1024 from
      Buffer.capacity_new _] at hbounded
  · intro xs hwait
    have hshort := (headVerdict_wait_iff xs).1 hwait
    omega

end KvConnection

end Storage

open KvConnection in
theorem head_storage_bounded_ping :
    let _ : Host := ⟨false⟩
    (kvConnection.run (start 0 7 true true KVStore.new) (pingRun 1)).handler.buffer.capacity ≤
      1024 := by
  intro _
  obtain ⟨hlegal, _⟩ := waiting_pingRun 0 7 true true KVStore.new 1 (by decide)
  refine (head_storage_bounded (q := 24) (by decide) 0 7 true true KVStore.new (pingRun 1) hlegal
    ?_).1
  simp [pingRun, pingRound, stalledTurn, KvLabel.talk, TalkStep.AtMost, TalkStep.Unasked, ping,
    requestPacket]

end Adachi.Kv
