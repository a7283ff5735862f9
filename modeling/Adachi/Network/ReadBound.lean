import Adachi.Io.Capacity
import Adachi.Network.Replies

/-!
# How much storage a peer can make a connection take

A handler that reads frames leaves less than a frame unread, so what the read buffer has to hold
at a time is that and one segment.  Its storage is the high-water mark (`Adachi.Io.Capacity`);
however much a peer sends in all, it does not grow beyond this.

A handler that refuses the bytes at the front has the connection closed, and nothing is read
any more.  Where another thread has called `Close` before, that call of the handler does nothing,
and until the task of the other thread has run the bytes pile up; so the results are about runs
in which no other thread calls `Close`, as none does in the server.

## Main results

* `frame_storage_bounded`: the read buffer of a connection with the default handler.
-/

namespace Adachi.Network

open Adachi.Io ByteOrder Framer

/-! ## What a handler leaves unread -/

/-- The step is not a `Close` on another thread. -/
def TalkStep.Unasked : TalkStep → Prop
  | .call l => l.op ≠ .requestClose
  | _ => True

/-- The step reads at most `q` bytes. -/
def TalkStep.AtMost (q : Nat) : TalkStep → Prop
  | .read segment => segment.length ≤ q
  | _ => True

namespace Conversation

variable {F : Framer UInt8 Unit Bytes} {s : Conversation}

/-- Where the handler has returned the bytes at the front are no frame, and a connection that it
has refused is no longer read from. -/
structure Settled (F : Framer UInt8 Unit Bytes) (s : Conversation) : Prop where
  sound : s.conn.Sound
  asked : s.conn.Asked
  stuck : s.running = false → ∀ n next more, F.verdict () s.unread ≠ .consume n next more
  refused : s.running = false → F.verdict () s.unread = .halt → s.conn.closeRequested = true

theorem settled_start (F : Framer UInt8 Unit Bytes) (loop : LoopId) (fd size : Nat)
    (callback added : Bool) : (start loop fd size callback added).Settled F where
  sound := TcpConnection.sound_new loop fd size callback added
  asked := nofun
  stuck _ _ _ _ hconsume := nomatch (F.verdict_nil ()).symm.trans hconsume
  refused _ hhalt := nomatch (F.verdict_nil ()).symm.trans hhalt

/-- A handler only writes and closes. -/
theorem labels_unasked {l : TalkStep} (hl : l.Unasked) :
    ∀ k ∈ s.labels F l, k.op ≠ .requestClose := by
  intro k hk
  cases l with
  | read segment => cases hk
  | other => cases hk
  | call l =>
      rw [List.mem_singleton.1 hk]
      exact hl
  | turn r ctl =>
      change k ∈ verdictLabels r ctl (F.verdict () s.unread) at hk
      cases hverdict : F.verdict () s.unread with
      | wait =>
          rw [hverdict] at hk
          cases hk
      | halt =>
          rw [hverdict] at hk
          rw [List.mem_singleton.1 hk]
          exact nofun
      | consume n next out =>
          rw [hverdict] at hk
          obtain ⟨message, _, rfl⟩ := List.mem_map.1 hk
          exact nofun

/-- **Step lemma.** -/
theorem Settled.step (h : s.Settled F) {l : TalkStep} (hl : l.Unasked) :
    (s.step F l).Settled F := by
  have hconn : (s.step F l).conn = connection.run s.conn (s.labels F l) :=
    (conversation_drives F).next s l
  have hrun := h.sound.asked_run h.asked (s.labels_unasked (F := F) hl)
  rw [← hconn] at hrun
  cases l with
  | read segment =>
      show Settled F (ite _ _ _)
      split
      · exact h
      · exact ⟨h.sound, h.asked, nofun, nofun⟩
  | turn r ctl =>
      refine ⟨hrun.1, hrun.2, ?_, ?_⟩
      · intro hidle n next more hconsume
        change verdictAgain (F.verdict () s.unread) = false at hidle
        change F.verdict () (verdictRest s.unread (F.verdict () s.unread)) = _ at hconsume
        cases hverdict : F.verdict () s.unread with
        | consume =>
            rw [hverdict] at hidle
            cases hidle
        | wait | halt =>
            rw [hverdict] at hconsume
            exact nomatch hverdict.symm.trans hconsume
      · intro hidle hhalt
        change verdictAgain (F.verdict () s.unread) = false at hidle
        change F.verdict () (verdictRest s.unread (F.verdict () s.unread)) = _ at hhalt
        rw [hconn]
        change (connection.run s.conn
          (verdictLabels r ctl (F.verdict () s.unread))).closeRequested = true
        cases hverdict : F.verdict () s.unread with
        | consume =>
            rw [hverdict] at hidle
            cases hidle
        | wait =>
            rw [hverdict] at hhalt
            exact nomatch hverdict.symm.trans hhalt
        | halt => exact TcpConnection.close_closeRequested ..
  | call l =>
      refine ⟨hrun.1, hrun.2, h.stuck, fun hidle hhalt => ?_⟩
      exact TcpConnection.step_closeRequested (h.refused hidle hhalt) l
  | other => exact h

/-- What is unread of an open connection when the handler has returned. -/
theorem Settled.unread_le (h : s.Settled F) {m : Nat}
    (hwait : ∀ xs, F.verdict () xs = .wait → xs.length ≤ m) (hidle : s.running = false)
    (hopen : s.conn.status = .kConnecting) : s.unread.length ≤ m := by
  cases hverdict : F.verdict () s.unread with
  | wait => exact hwait _ hverdict
  | halt => exact absurd hopen (h.asked (h.refused hidle hverdict))
  | consume n next more => exact absurd hverdict (h.stuck hidle n next more)

/-- What the read buffer has to hold for a step -/
def stored (s : Conversation) : TalkStep → Nat
  | .read segment =>
      if s.conn.status ≠ .kConnecting then 0 else s.unread.length + segment.length
  | _ => 0

end Conversation

/-! ## The storage of a handler that reads frames -/

/-- A machine whose steps are steps of a conversation, as far as the read buffer has room, with
the capacity of that buffer. -/
structure Stores {σ ℓ : Type} (M : Machine σ ℓ) (F : Framer UInt8 Unit Bytes) (f : ℓ → TalkStep)
    (capacity : σ → Nat) (room : σ → ℓ → Prop) (p : σ → Conversation → Prop) : Prop where
  enabled : ∀ s t l, p s t → M.enabled s l → t.Possible F (f l)
  readRoom : ∀ s t l, p s t → t.ReadRoom (f l) → room s l
  next : ∀ s t l, p s t → M.enabled s l → room s l →
    p (M.next s l) (t.step F (f l)) ∧
      capacity (M.next s l) = max (capacity s) (t.stored (f l))

namespace Stores

variable {σ ℓ : Type} {M : Machine σ ℓ} {F : Framer UInt8 Unit Bytes} {f : ℓ → TalkStep}
  {capacity : σ → Nat} {room : σ → ℓ → Prop} {p : σ → Conversation → Prop} {s : σ}
  {t : Conversation} {m q : Nat}

/-- **Step lemma.**  A read adds a segment to what the handler has left. -/
theorem read_le (h : Stores M F f capacity room p)
    (hwait : ∀ xs, F.verdict () xs = .wait → xs.length ≤ m) (hp : p s t)
    (hsettled : t.Settled F) {l : ℓ} (henabled : M.enabled s l) (hl : (f l).AtMost q) :
    t.stored (f l) ≤ m + q ∧ (m + q < 2 ^ 31 → t.ReadRoom (f l)) := by
  have hpossible := h.enabled s t l hp henabled
  cases hstep : f l with
  | turn r ctl => exact ⟨Nat.zero_le _, fun _ => trivial⟩
  | call l => exact ⟨Nat.zero_le _, fun _ => trivial⟩
  | other => exact ⟨Nat.zero_le _, fun _ => trivial⟩
  | read segment =>
      rw [hstep] at hpossible hl
      have hsegment : segment.length ≤ q := hl
      constructor
      · show ite _ _ _ ≤ _
        split
        · exact Nat.zero_le _
        · rename_i hopen
          have hle := hsettled.unread_le hwait hpossible (not_not.1 hopen)
          omega
      · intro hroom hopen
        have hle := hsettled.unread_le hwait hpossible hopen
        omega

/-- **Run lemma.**  The storage stays within what a handler leaves and one segment. -/
theorem bounded (h : Stores M F f capacity room p)
    (hwait : ∀ xs, F.verdict () xs = .wait → xs.length ≤ m) (hroom : m + q < 2 ^ 31)
    (hp : p s t) (hsettled : t.Settled F) {ls : List ℓ} (hlegal : M.Legal s ls)
    (hls : ∀ l ∈ ls, (f l).AtMost q ∧ (f l).Unasked) :
    capacity (M.run s ls) ≤ max (capacity s) (m + q) ∧ M.Each room s ls := by
  induction ls generalizing s t with
  | nil => exact ⟨Nat.le_max_left .., M.each_nil s⟩
  | cons l ls ih =>
      obtain ⟨hatMost, hunasked⟩ := hls l List.mem_cons_self
      obtain ⟨hstored, hread⟩ := h.read_le hwait hp hsettled hlegal.1 hatMost
      have hhas := h.readRoom s t l hp (hread hroom)
      obtain ⟨hnext, hcapacity⟩ := h.next s t l hp hlegal.1 hhas
      obtain ⟨hle, heach⟩ := ih hnext (hsettled.step hunasked) hlegal.2
        fun k hk => hls k (List.mem_cons_of_mem _ hk)
      rw [M.each_cons, M.run_cons]
      exact ⟨by omega, hhas, heach⟩

end Stores

/-! ## The default handler -/

section Handler

variable [Host]

/-- A turn of the handler takes bytes out of the buffer, and leaves the storage as it is. -/
theorem onmessageTurn_capacity (h : MessageHandler) :
    ((onmessageTurn h).elim id id).buffer.capacity = h.buffer.capacity := by
  unfold onmessageTurn
  split
  · split
    · rfl
    · dsimp only
      split
      · rfl
      · split
        · split
          · rfl
          · rename_i hheader
            split
            · rfl
            · rename_i hmessage
              exact (Buffer.capacity_readBufferLen hmessage).trans
                (Buffer.capacity_readBufferLen hheader)
        · rfl
  · rfl

namespace MessageConnection

theorem messageConnection_stores :
    Stores messageConnection messageFramer id (fun s => s.handler.buffer.capacity) ReadRoom
      Stands where
  enabled _ _ _ h hpossible := h.possible hpossible
  readRoom s t l h hroom := by
    cases l with
    | read segment =>
        change t.conn.status = _ → t.unread.length + _ < _ at hroom
        rwa [← h.conn, ← h.unread] at hroom
    | turn r ctl => exact trivial
    | call l => exact trivial
    | other => exact trivial
  next s t l h _ hroom := by
    refine ⟨h.step hroom, ?_⟩
    cases l with
    | read segment =>
        show (ite _ _ _ : MessageConnection).handler.buffer.capacity = max _ (ite _ _ _)
        rw [← h.conn, ← h.unread]
        split
        · exact (Nat.max_zero _).symm
        · rename_i hopen
          exact Buffer.capacity_readFd h.fits (hroom (not_not.1 hopen))
    | turn r ctl => exact (onmessageTurn_capacity _).trans (Nat.max_zero _).symm
    | call l => exact (Nat.max_zero _).symm
    | other => exact (Nat.max_zero _).symm

/-- **A peer cannot make the read buffer grow.**  In every run of a connection with the default
handler on which no other thread calls `Close`, however much arrives in all and whatever it is,
the storage of the read buffer stays within an incomplete frame and the longest segment, or as
large as it was made; so the buffer always has room for the next segment. -/
theorem frame_storage_bounded {readBufferSize writeBufferSize q : Nat}
    (hread : readBufferSize < 2 ^ 31) (hq : kMaxMessageLength + 3 + q < 2 ^ 31) (loop : LoopId)
    (fd : Nat) (callback added : Bool) (ls : List TalkStep)
    (hlegal : messageConnection.Legal
      (start loop fd readBufferSize writeBufferSize callback added) ls)
    (hls : ∀ l ∈ ls, l.AtMost q ∧ l.Unasked) :
    let s := messageConnection.run (start loop fd readBufferSize writeBufferSize callback added) ls
    s.handler.buffer.capacity ≤ max readBufferSize (kMaxMessageLength + 3 + q) ∧
      messageConnection.Each ReadRoom
        (start loop fd readBufferSize writeBufferSize callback added) ls := by
  intro s
  have hbounded := messageConnection_stores.bounded (m := kMaxMessageLength + 3) (q := q) ?_ hq
    (stands_start hread loop fd writeBufferSize callback added)
    (Conversation.settled_start messageFramer loop fd writeBufferSize callback added) hlegal hls
  · rwa [show
      (start loop fd readBufferSize writeBufferSize callback added).handler.buffer.capacity =
      readBufferSize from Buffer.capacity_new _] at hbounded
  · intro xs hwait
    have hshort := (messageVerdict_wait_iff xs).1 hwait
    unfold Incomplete at hshort
    omega

end MessageConnection

end Handler

open MessageConnection in
theorem frame_storage_bounded_frame :
    let _ : Host := ⟨false⟩
    let s := messageConnection.run (start 0 7 1024 1024 true true)
      [.read [0, 0, 0, 1, 7], .turn (.ok 9) ⟨true, true⟩]
    s.handler.buffer.capacity ≤ 100008 := by
  intro _ s
  exact (frame_storage_bounded (q := 5) (by decide) (by decide) 0 7 true true _ messageRun_legal
    (by simp [TalkStep.AtMost, TalkStep.Unasked])).1

end Adachi.Network
