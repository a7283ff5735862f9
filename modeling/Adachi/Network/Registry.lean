import Adachi.Network.TcpServer

/-!
# The registry matches the connections

A connection is inserted into `tcpst_` by a task its set-up waits for, before its close
callback is set, and erased by a task that the close callback submits.  Tasks of the
base loop run in the order they are submitted, so the erase task runs after the insert
task; and since a connection closes once, each is submitted once.

The invariant has two parts for each connection: what its set-up and its closing have
done so far (`LinkOk`), and which tasks exist for it (`TasksOk`).

## Main results

* `registry_exact`: in every run of any number of sub-loops and the base loop, the
  connections inserted and not disconnected are in `tcpst_`, and when no task is in
  flight there are no others.
-/

namespace Adachi.Network

open Adachi.Io

/-! ## Lists -/

/-- The only place of `x` in `l ++ [x]` is the last one. -/
theorem eq_of_append_singleton {α : Type} {x : α} {l pre post : List α} (hx : x ∉ l)
    (h : l ++ [x] = pre ++ x :: post) : pre = l := by
  rcases List.eq_nil_or_concat post with hpost | ⟨rest, y, hpost⟩
  · rw [hpost] at h
    exact (List.append_inj_left' h rfl).symm
  · rw [hpost, List.concat_eq_append, ← List.cons_append, ← List.append_assoc] at h
    have hl := List.append_inj_left' h rfl
    rw [hl] at hx
    exact absurd (List.mem_append_right _ (List.mem_cons_self ..)) hx

/-- Appending another element adds no place of `x`. -/
theorem exists_of_append_singleton {α : Type} {x y : α} {l pre post : List α} (hxy : x ≠ y)
    (h : l ++ [y] = pre ++ x :: post) : ∃ post', l = pre ++ x :: post' := by
  rcases List.eq_nil_or_concat post with hpost | ⟨rest, z, hpost⟩
  · rw [hpost] at h
    have hlast := List.append_inj_right' h rfl
    exact absurd (List.cons.inj hlast).1.symm hxy
  · rw [hpost, List.concat_eq_append, ← List.cons_append, ← List.append_assoc] at h
    exact ⟨rest, List.append_inj_left' h rfl⟩

/-! ## One connection -/

/-- What holds of a connection by itself. -/
structure LinkOk (link : Link) : Prop where
  isOpen : link.conn.status ≠ .kDisConnected → Endpoint.Open link.conn
  unregistered : link.conn.status = .kDisConnected →
    link.conn.channel.owner = none ∧ link.conn.socket.fd = -1
  fresh : link.stage.opened = false → link.conn.status ≠ .kDisConnected
  callback : link.stage.opened = true → link.conn.closeCallback = true
  closing : link.closing = .no ↔ link.conn.status ≠ .kDisConnected
  inserted : link.stage.passed = true → link.inserted = true

theorem linkOk_new (loop : LoopId) (fd size : Nat) (added : Bool) {stage : Stage}
    (hopened : stage.opened = false) (hpassed : stage.passed = false) (inserted tied : Bool) :
    LinkOk ⟨stage, inserted, TcpConnection.new loop fd size false added, tied, .no⟩ where
  isOpen _ := Endpoint.open_new loop fd size false added
  unregistered hs := by cases hs
  fresh _ hs := by cases hs
  callback hstage := by
    rw [hopened] at hstage
    cases hstage
  closing := by
    refine iff_of_true rfl ?_
    intro hs
    cases hs
  inserted hstage := by
    rw [hpassed] at hstage
    cases hstage

variable {link : Link}

/-- The set-up moves on. -/
theorem LinkOk.setStage (h : LinkOk link) {stage : Stage}
    (hopened : stage.opened = link.stage.opened)
    (hpassed : stage.passed = true → link.inserted = true) :
    LinkOk { link with stage := stage } where
  isOpen := h.isOpen
  unregistered := h.unregistered
  fresh hstage := h.fresh (hopened ▸ hstage)
  callback hstage := h.callback (hopened ▸ hstage)
  closing := h.closing
  inserted := hpassed

theorem LinkOk.setCloseCallback (h : LinkOk link) (hstage : link.stage = .inserted) :
    LinkOk
      { link with stage := .ready, conn := { link.conn with closeCallback := true } } where
  isOpen hs := (h.isOpen hs).setCloseCallback hs
  unregistered := h.unregistered
  fresh hopened := by cases hopened
  callback _ := rfl
  closing := h.closing
  inserted _ := h.inserted (by rw [hstage]; rfl)

theorem LinkOk.setInserted (h : LinkOk link) : LinkOk { link with inserted := true } where
  isOpen := h.isOpen
  unregistered := h.unregistered
  fresh := h.fresh
  callback := h.callback
  closing := h.closing
  inserted _ := rfl

theorem LinkOk.setClosing (h : LinkOk link) (hold : link.closing ≠ .no) {closing : Closing}
    (hnew : closing ≠ .no) : LinkOk { link with closing := closing } where
  isOpen := h.isOpen
  unregistered := h.unregistered
  fresh := h.fresh
  callback := h.callback
  closing := iff_of_false hnew (h.closing.not.1 hold)
  inserted := h.inserted

/-- The close callback of a disconnected connection submits the erase task. -/
theorem LinkOk.erased_iff (h : LinkOk link) : link.closing.erased = true ↔
    link.conn.status = .kDisConnected ∧ link.closing ≠ .calling := by
  have hno := h.closing
  cases hcase : link.closing with
  | no =>
      rw [hcase] at hno
      exact iff_of_false Bool.noConfusion fun hne => hno.1 rfl hne.1
  | calling => exact iff_of_false Bool.noConfusion fun hne => hne.2 rfl
  | submitted | returned =>
      rw [hcase] at hno
      have hs : link.conn.status = .kDisConnected :=
        not_not.1 fun hne => Closing.noConfusion (hno.2 hne)
      exact iff_of_true rfl ⟨hs, Closing.noConfusion⟩

/-! ### A step of the connection -/

theorem count_closeCallback_of_writes {es : List Effect} (h : ∀ e ∈ es, e.isWrite) :
    es.count .closeCallback = 0 := by
  rw [List.count_eq_zero]
  intro hmem
  exact Bool.noConfusion (h _ hmem)

theorem count_closeCallback_teardowns {last : List Effect} (h : last ∈ teardowns true) :
    last.count .closeCallback = 1 := by
  unfold teardowns at h
  simp only [List.mem_cons, List.not_mem_nil, or_false] at h
  rcases h with heq | heq
  · rw [heq]
    rfl
  · rw [heq]
    rfl

/-- The close callback is called in the step that disconnects, and in no other. -/
theorem closeCallback_iff (h : LinkOk link) (hstage : link.stage.opened = true) (l : Label) :
    link.conn.effects.count .closeCallback < (link.conn.step l).effects.count .closeCallback ↔
      link.conn.status ≠ .kDisConnected ∧ (link.conn.step l).status = .kDisConnected := by
  by_cases hs : link.conn.status = .kDisConnected
  · rcases TcpConnection.step_disconnected hs l with ⟨closeRequested, heq⟩
    rw [heq]
    exact iff_of_false (Nat.lt_irrefl _) fun hne => hne.1 hs
  · have hopen := h.isOpen hs
    rcases hopen.moves hs (.calls l) with ⟨_, hstill, htorn⟩
    rw [count_closeCallback_of_writes hopen.writes]
    by_cases hs' : (link.conn.step l).status = .kDisConnected
    · rcases htorn hs' with ⟨_, _, writes, last, hwrites, hlast, heffects⟩
      rw [h.callback hstage] at hlast
      rw [heffects, List.count_append, count_closeCallback_of_writes hwrites,
        count_closeCallback_teardowns hlast]
      exact iff_of_true Nat.one_pos ⟨hs, hs'⟩
    · rw [count_closeCallback_of_writes (hstill hs').writes]
      exact iff_of_false (Nat.lt_irrefl _) fun hne => hs' hne.2

theorem LinkOk.worked (h : LinkOk link) (hstage : link.stage.opened = true) (l : Label) :
    LinkOk (link.worked l) where
  isOpen := by
    intro hs'
    have hs : link.conn.status ≠ .kDisConnected := by
      intro hs
      rcases TcpConnection.step_disconnected hs l with ⟨closeRequested, heq⟩
      apply hs'
      change (link.conn.step l).status = _
      rw [heq, hs]
    exact ((h.isOpen hs).moves hs (.calls l)).2.1 hs'
  unregistered := by
    intro hs'
    by_cases hs : link.conn.status = .kDisConnected
    · rcases TcpConnection.step_disconnected hs l with ⟨closeRequested, heq⟩
      change (link.conn.step l).channel.owner = none ∧ (link.conn.step l).socket.fd = -1
      rw [heq]
      exact h.unregistered hs
    · rcases ((h.isOpen hs).moves hs (.calls l)).2.2 hs' with ⟨howner, hfd, _⟩
      exact ⟨howner, hfd⟩
  fresh := by
    intro hopened
    rw [show (link.worked l).stage = link.stage from rfl, hstage] at hopened
    cases hopened
  callback _ := by
    change (link.conn.step l).closeCallback = true
    rw [TcpConnection.step_closeCallback]
    exact h.callback hstage
  closing := by
    change (if _ then Closing.calling else link.closing) = .no ↔ (link.conn.step l).status ≠ _
    by_cases hs : link.conn.status = .kDisConnected
    · rcases TcpConnection.step_disconnected hs l with ⟨closeRequested, heq⟩
      rw [if_neg ((closeCallback_iff h hstage l).not.2 fun hne => hne.1 hs), heq]
      exact h.closing
    · by_cases hs' : (link.conn.step l).status = .kDisConnected
      · rw [if_pos ((closeCallback_iff h hstage l).2 ⟨hs, hs'⟩)]
        exact iff_of_false Closing.noConfusion fun hne => hne hs'
      · rw [if_neg ((closeCallback_iff h hstage l).not.2 fun hne => hs' hne.2)]
        exact iff_of_true (h.closing.2 hs) hs'
  inserted := h.inserted

/-! ## The tasks of one connection -/

variable {ι : Type} [DecidableEq ι] {b : Mailbox (Task ι)} {tcpst : Finset ι} {i j : ι}

/-- Which tasks exist for the connection `i`, and which of them have run. -/
structure TasksOk (link : Link) (b : Mailbox (Task ι)) (tcpst : Finset ι) (i : ι) : Prop where
  inserts : b.all.count (.insert i) = if link.stage.submitted then 1 else 0
  erases : b.all.count (.erase i) = if link.closing.erased then 1 else 0
  order : ∀ pre post, b.all = pre ++ .erase i :: post → .insert i ∈ pre
  inserted : link.inserted = true ↔ .insert i ∈ b.done
  tcpst : i ∈ tcpst ↔ .insert i ∈ b.done ∧ .erase i ∉ b.done

/-- Parts of a step that submit no task of the connection and run none. -/
theorem TasksOk.frame (h : TasksOk link b tcpst i) {link' : Link} {b' : Mailbox (Task ι)}
    (hsubmitted : link'.stage.submitted = link.stage.submitted)
    (herased : link'.closing.erased = link.closing.erased)
    (hinserted : link'.inserted = link.inserted) (hall : b'.all = b.all)
    (hdone : b'.done = b.done) : TasksOk link' b' tcpst i where
  inserts := by rw [hall, hsubmitted, h.inserts]
  erases := by rw [hall, herased, h.erases]
  order := by
    rw [hall]
    exact h.order
  inserted := by rw [hinserted, hdone, h.inserted]
  tcpst := by rw [hdone, h.tcpst]

/-- A task of another connection is submitted. -/
theorem TasksOk.push (h : TasksOk link b tcpst i) {task : Task ι} (hne : task.conn ≠ i) :
    TasksOk link (b.push task) tcpst i := by
  have hinsert : task ≠ .insert i := by
    intro heq
    exact hne (by rw [heq]; rfl)
  have herase : task ≠ .erase i := by
    intro heq
    exact hne (by rw [heq]; rfl)
  constructor
  · rw [Mailbox.all_push, List.count_append, List.count_singleton, beq_eq_false_iff_ne.2 hinsert]
    exact h.inserts
  · rw [Mailbox.all_push, List.count_append, List.count_singleton, beq_eq_false_iff_ne.2 herase]
    exact h.erases
  · intro pre post heq
    rw [Mailbox.all_push] at heq
    rcases exists_of_append_singleton herase.symm heq with ⟨post', hall⟩
    exact h.order pre post' hall
  · exact h.inserted
  · exact h.tcpst

theorem TasksOk.not_erase (h : TasksOk link b tcpst i) (herased : link.closing.erased = false) :
    .erase i ∉ b.all := by
  rw [← List.count_eq_zero, h.erases, herased]
  rfl

/-- The insert task is submitted. -/
theorem TasksOk.submitInsert (h : TasksOk link b tcpst i)
    (hstage : link.stage.submitted = false) (herased : link.closing.erased = false) :
    TasksOk { link with stage := .inserting } (b.push (.insert i)) tcpst i := by
  have hnone := h.not_erase herased
  constructor
  · rw [Mailbox.all_push, List.count_append, h.inserts, hstage, List.count_singleton_self]
    rfl
  · rw [Mailbox.all_push, List.count_append, h.erases]
    rfl
  · intro pre post heq
    rw [Mailbox.all_push] at heq
    rcases exists_of_append_singleton (Task.insert_ne_erase i i).symm heq with ⟨post', hall⟩
    rw [hall] at hnone
    exact absurd (List.mem_append_right _ (List.mem_cons_self ..)) hnone
  · exact h.inserted
  · exact h.tcpst

/-- The erase task is submitted. -/
theorem TasksOk.submitErase (h : TasksOk link b tcpst i)
    (hstage : link.stage.submitted = true) (herased : link.closing.erased = false) :
    TasksOk { link with closing := .submitted } (b.push (.erase i)) tcpst i := by
  have hnone := h.not_erase herased
  constructor
  · rw [Mailbox.all_push, List.count_append, h.inserts]
    rfl
  · rw [Mailbox.all_push, List.count_append, h.erases, herased, List.count_singleton_self]
    rfl
  · intro pre post heq
    rw [Mailbox.all_push] at heq
    rw [eq_of_append_singleton hnone heq, ← List.one_le_count_iff, h.inserts, hstage]
    exact Nat.le_refl 1
  · exact h.inserted
  · exact h.tcpst

/-- A task whose turn it is has not run before. -/
theorem not_mem_done {task : Task ι} {rest : List (Task ι)} (hbatch : b.batch = task :: rest)
    (hcount : b.all.count task ≤ 1) : task ∉ b.done := by
  intro hmem
  have hpos := List.one_le_count_iff.2 hmem
  rw [Mailbox.all_eq_done, hbatch, List.cons_append, List.count_append,
    List.count_cons_self] at hcount
  omega

/-- The erase task does not run before the insert task. -/
theorem TasksOk.not_erased (h : TasksOk link b tcpst i) {rest : List (Task ι)}
    (hbatch : b.batch = .insert i :: rest) : .erase i ∉ b.done := by
  intro hmem
  rcases List.append_of_mem hmem with ⟨pre, post, hdone⟩
  have hall := b.all_eq_done
  rw [hdone, List.append_assoc, List.cons_append] at hall
  have hle : b.all.count (.insert i) ≤ 1 := by
    rw [h.inserts]
    split
    · exact Nat.le_refl 1
    · exact Nat.zero_le 1
  apply not_mem_done hbatch hle
  rw [hdone]
  exact List.mem_append_left _ (h.order pre _ hall)

/-- When a task runs, only what has been done changes. -/
theorem TasksOk.afterRun (h : TasksOk link b tcpst i) {link' : Link} {tcpst' : Finset ι}
    (hsubmitted : link'.stage.submitted = link.stage.submitted)
    (herased : link'.closing.erased = link.closing.erased)
    (hinserted : link'.inserted = true ↔ .insert i ∈ b.runNext.done)
    (htcpst : i ∈ tcpst' ↔ .insert i ∈ b.runNext.done ∧ .erase i ∉ b.runNext.done) :
    TasksOk link' b.runNext tcpst' i where
  inserts := by rw [Mailbox.all_runNext, hsubmitted, h.inserts]
  erases := by rw [Mailbox.all_runNext, herased, h.erases]
  order := by
    rw [Mailbox.all_runNext]
    exact h.order
  inserted := hinserted
  tcpst := htcpst

/-- A task of another connection runs. -/
theorem TasksOk.run (h : TasksOk link b tcpst i) {task : Task ι} {rest : List (Task ι)}
    (hbatch : b.batch = task :: rest) (hne : task.conn ≠ i) {tcpst' : Finset ι}
    (htcpst : i ∈ tcpst' ↔ i ∈ tcpst) : TasksOk link b.runNext tcpst' i := by
  have hinsert : .insert i ∈ b.runNext.done ↔ .insert i ∈ b.done := by
    rw [Mailbox.done_runNext hbatch, List.mem_append, List.mem_singleton, or_iff_left]
    intro heq
    exact hne (by rw [← heq]; rfl)
  have herase : .erase i ∈ b.runNext.done ↔ .erase i ∈ b.done := by
    rw [Mailbox.done_runNext hbatch, List.mem_append, List.mem_singleton, or_iff_left]
    intro heq
    exact hne (by rw [← heq]; rfl)
  apply h.afterRun rfl rfl
  · rw [hinsert, h.inserted]
  · rw [htcpst, hinsert, herase, h.tcpst]

theorem TasksOk.runInsert (h : TasksOk link b tcpst i) {rest : List (Task ι)}
    (hbatch : b.batch = .insert i :: rest) :
    TasksOk { link with inserted := true } b.runNext (insert i tcpst) i := by
  have hdone := Mailbox.done_runNext hbatch
  have hinsert : .insert i ∈ b.runNext.done := by
    rw [hdone]
    exact List.mem_append_right _ (List.mem_singleton_self _)
  have herase : .erase i ∉ b.runNext.done := by
    rw [hdone, List.mem_append, List.mem_singleton]
    intro hmem
    rcases hmem with hmem | heq
    · exact h.not_erased hbatch hmem
    · cases heq
  have hinserted : true = true ↔ .insert i ∈ b.runNext.done := iff_of_true rfl hinsert
  have htcpst : i ∈ insert i tcpst ↔ .insert i ∈ b.runNext.done ∧ .erase i ∉ b.runNext.done :=
    iff_of_true (Finset.mem_insert_self ..) ⟨hinsert, herase⟩
  exact h.afterRun rfl rfl hinserted htcpst

theorem TasksOk.runErase (h : TasksOk link b tcpst i) {rest : List (Task ι)}
    (hbatch : b.batch = .erase i :: rest) : TasksOk link b.runNext (tcpst.erase i) i := by
  have hdone := Mailbox.done_runNext hbatch
  have hinsert : .insert i ∈ b.runNext.done ↔ .insert i ∈ b.done := by
    rw [hdone, List.mem_append, List.mem_singleton, or_iff_left]
    exact Task.insert_ne_erase i i
  have herase : .erase i ∈ b.runNext.done := by
    rw [hdone]
    exact List.mem_append_right _ (List.mem_singleton_self _)
  apply h.afterRun rfl rfl
  · rw [hinsert, h.inserted]
  · exact iff_of_false (Finset.notMem_erase i tcpst) fun hmem => hmem.2 herase

theorem Stage.submitted_of_passed {stage : Stage} (h : stage.passed = true) :
    stage.submitted = true := by
  cases stage with
  | inserted | ready | serving => rfl
  | accepted | constructed | inserting => cases h

/-! ## All connections -/

namespace TcpServer

variable {g : Settings ι} {s : TcpServer ι}

structure ConnOk (s : TcpServer ι) (i : ι) : Prop where
  link : LinkOk (s.links i)
  tasks : TasksOk (s.links i) s.base s.tcpst i

/-- **The invariant of all runs.** -/
def Registered (s : TcpServer ι) : Prop := ∀ i, s.ConnOk i

theorem registered_new : (new : TcpServer ι).Registered := by
  intro i
  constructor
  · exact linkOk_new 0 0 0 true rfl rfl false false
  · constructor
    · rfl
    · rfl
    · intro pre post heq
      exact absurd heq.symm (List.append_ne_nil_of_right_ne_nil _ (List.cons_ne_nil _ _))
    · exact iff_of_false Bool.noConfusion List.not_mem_nil
    · exact iff_of_false (Finset.notMem_empty i) fun hmem => List.not_mem_nil hmem.1

/-- A step that touches only the link of `i`. -/
theorem Registered.setLink (h : s.Registered) {link : Link} (hlink : LinkOk link)
    (htasks : TasksOk link s.base s.tcpst i) : (s.setLink i link).Registered := by
  intro j
  by_cases hne : j = i
  · rw [hne]
    exact ⟨by rw [setLink_self]; exact hlink, by rw [setLink_self]; exact htasks⟩
  · constructor
    · rw [setLink_of_ne s hne]
      exact (h j).link
    · rw [setLink_of_ne s hne]
      exact (h j).tasks

theorem Registered.setLoop (h : s.Registered) (k : LoopId) (loop : SubLoop ι) :
    (s.setLoop k loop).Registered := fun i => ⟨(h i).link, (h i).tasks⟩

/-- A step that touches the link of `i` and submits a task for `i`. -/
theorem Registered.push (h : s.Registered) {link : Link} {task : Task ι}
    (htask : task.conn = i) (hlink : LinkOk link)
    (htasks : TasksOk link (s.base.push task) s.tcpst i) :
    ((s.push task).setLink i link).Registered := by
  intro j
  by_cases hne : j = i
  · rw [hne]
    exact ⟨by rw [setLink_self]; exact hlink, by rw [setLink_self]; exact htasks⟩
  · constructor
    · rw [setLink_of_ne _ hne]
      exact (h j).link
    · rw [setLink_of_ne _ hne]
      exact (h j).tasks.push fun heq => hne (heq.symm.trans htask)

theorem Registered.base (h : s.Registered) {base : Mailbox (Task ι)}
    (hall : base.all = s.base.all) (hdone : base.done = s.base.done) :
    Registered { s with base := base } :=
  fun i => ⟨(h i).link, (h i).tasks.frame rfl rfl rfl hall hdone⟩

theorem Registered.run (h : s.Registered) : s.run.Registered := by
  unfold TcpServer.run
  cases hbatch : s.base.batch with
  | nil => exact h
  | cons task rest =>
      intro j
      cases task with
      | insert i =>
          by_cases hne : j = i
          · rw [hne]
            constructor
            · change LinkOk ((s.setLink i _).links i)
              rw [setLink_self]
              exact (h i).link.setInserted
            · change TasksOk ((s.setLink i _).links i) _ _ i
              rw [setLink_self]
              exact (h i).tasks.runInsert hbatch
          · constructor
            · change LinkOk ((s.setLink i _).links j)
              rw [setLink_of_ne s hne]
              exact (h j).link
            · change TasksOk ((s.setLink i _).links j) _ _ j
              rw [setLink_of_ne s hne]
              exact (h j).tasks.run hbatch (Ne.symm hne)
                (by rw [Finset.mem_insert, or_iff_right hne])
      | erase i =>
          by_cases hne : j = i
          · rw [hne]
            exact ⟨(h i).link, (h i).tasks.runErase hbatch⟩
          · exact ⟨(h j).link, (h j).tasks.run hbatch (Ne.symm hne)
              (by rw [Finset.mem_erase, and_iff_right hne])⟩

/-- Before its close callback is set a connection is not being closed. -/
theorem ConnOk.closing_of_fresh (h : s.ConnOk i) (hstage : (s.links i).stage.opened = false) :
    (s.links i).closing = .no := h.link.closing.2 (h.link.fresh hstage)

/-- A connection that is being closed has passed its set-up's insertion. -/
theorem ConnOk.passed_of_closing (h : s.ConnOk i) (hclosing : (s.links i).closing ≠ .no) :
    (s.links i).stage.passed = true := by
  cases hstage : (s.links i).stage with
  | inserted | ready | serving => rfl
  | accepted | constructed | inserting =>
      exact absurd (h.closing_of_fresh (by rw [hstage]; rfl)) hclosing

/-- A connection that has been inserted and is not disconnected is in `tcpst_`. -/
theorem ConnOk.mem_tcpst (h : s.ConnOk i) (hinserted : (s.links i).inserted = true)
    (hs : (s.links i).conn.status ≠ .kDisConnected) : i ∈ s.tcpst := by
  have hnone := h.tasks.not_erase (by rw [h.link.closing.2 hs]; rfl)
  rw [h.tasks.tcpst]
  refine ⟨h.tasks.inserted.1 hinserted, ?_⟩
  intro hmem
  rw [Mailbox.all_eq_done] at hnone
  exact hnone (List.mem_append_left _ hmem)

/-- With no task left to run and none on its way, there is nothing else in `tcpst_`. -/
theorem ConnOk.mem_tcpst_iff (h : s.ConnOk i) (hbatch : s.base.batch = [])
    (hqueue : s.base.queue = []) (hcalling : (s.links i).closing ≠ .calling) :
    i ∈ s.tcpst ↔
      (s.links i).inserted = true ∧ (s.links i).conn.status ≠ .kDisConnected := by
  constructor
  · intro hmem
    rcases h.tasks.tcpst.1 hmem with ⟨hinsert, herase⟩
    refine ⟨h.tasks.inserted.2 hinsert, ?_⟩
    intro hs
    have herased := h.tasks.erases
    rw [h.link.erased_iff.2 ⟨hs, hcalling⟩, Mailbox.all_eq_done, hbatch, hqueue,
      List.append_nil, List.append_nil, List.count_eq_zero.2 herase] at herased
    cases herased
  · exact fun hopen => h.mem_tcpst hopen.1 hopen.2

/-- A connection that exists and is not disconnected has an owner. -/
theorem ConnOk.alive (h : s.ConnOk i) (hstage : (s.links i).stage ≠ .accepted)
    (hs : (s.links i).conn.status ≠ .kDisConnected) : s.Alive g i := by
  by_cases hlink : (s.links i).stage.holdsLink = true
  · exact .inr (.inr (.inl hlink))
  have hserving : (s.links i).stage = .serving := by
    cases hcase : (s.links i).stage with
    | accepted => exact absurd hcase hstage
    | serving => rfl
    | constructed | inserting | inserted | ready =>
        rw [hcase] at hlink
        exact absurd rfl hlink
  exact .inl (h.mem_tcpst (h.link.inserted (by rw [hserving]; rfl)) hs)

theorem Registered.construct (h : s.Registered) (hstage : (s.links i).stage = .accepted)
    (fd : Nat) : (s.construct g i fd).Registered := by
  have hclosing := (h i).closing_of_fresh (by rw [hstage]; rfl)
  apply Registered.setLoop
  apply Registered.setLink h
  · dsimp only
    rw [hclosing]
    exact linkOk_new (g.home i) fd 1024 (g.added i) rfl rfl (s.links i).inserted g.isheartbeat
  · exact (h i).tasks.frame (by rw [hstage]; rfl) rfl rfl rfl rfl

/-- The step that disconnects the connection only begins its close callback. -/
theorem Registered.work (h : s.Registered) (hstage : (s.links i).stage.opened = true)
    (l : Label) : (s.work i l).Registered := by
  apply Registered.setLink h ((h i).link.worked hstage l)
  refine (h i).tasks.frame rfl ?_ rfl rfl rfl
  change Closing.erased (if _ then Closing.calling else (s.links i).closing) = _
  split
  · rename_i hcalled
    have hopen := ((closeCallback_iff (h i).link hstage l).1 hcalled).1
    rw [(h i).link.closing.2 hopen]
    rfl
  · rfl

/-- **Step lemma.** -/
theorem Registered.next (h : s.Registered) {l : ServerStep ι} (hl : s.Possible g l) :
    (s.next g l).Registered := by
  cases l with
  | construct i fd => exact h.construct hl.1 fd
  | submitInsert i =>
      have hstage : (s.links i).stage = .constructed := hl
      have hclosing := (h i).closing_of_fresh (by rw [hstage]; rfl)
      apply Registered.push h rfl
      · exact (h i).link.setStage (by rw [hstage]; rfl) Bool.noConfusion
      · exact (h i).tasks.submitInsert (by rw [hstage]; rfl) (by rw [hclosing]; rfl)
  | resume i =>
      rcases hl with ⟨hstage, hinserted⟩
      apply Registered.setLink h
      · exact (h i).link.setStage (by rw [hstage]; rfl) fun _ => hinserted
      · exact (h i).tasks.frame (by rw [hstage]; rfl) rfl rfl rfl rfl
  | setCloseCallback i =>
      have hstage : (s.links i).stage = .inserted := hl
      apply Registered.setLink h
      · exact (h i).link.setCloseCallback hstage
      · exact (h i).tasks.frame (by rw [hstage]; rfl) rfl rfl rfl rfl
  | finishSetUp i =>
      have hstage : (s.links i).stage = .ready := hl.1
      apply Registered.setLoop
      apply Registered.setLink h
      · exact (h i).link.setStage (by rw [hstage]; rfl)
          fun _ => (h i).link.inserted (by rw [hstage]; rfl)
      · exact (h i).tasks.frame (by rw [hstage]; rfl) rfl rfl rfl rfl
  | work i l => exact h.work hl.1 l
  | submitErase i =>
      have hclosing : (s.links i).closing = .calling := hl
      have hne : (s.links i).closing ≠ .no := by
        rw [hclosing]
        exact Closing.noConfusion
      apply Registered.push h rfl
      · exact (h i).link.setClosing hne Closing.noConfusion
      · have hpassed := (h i).passed_of_closing hne
        exact (h i).tasks.submitErase (Stage.submitted_of_passed hpassed) (by rw [hclosing]; rfl)
  | closeDone i =>
      have hclosing : (s.links i).closing = .submitted := hl
      apply Registered.setLink h
      · exact (h i).link.setClosing (by rw [hclosing]; exact Closing.noConfusion)
          Closing.noConfusion
      · exact (h i).tasks.frame rfl (by rw [hclosing]; rfl) rfl rfl rfl
  | swap =>
      apply Registered.base h
      · exact Mailbox.all_swap hl.1
      · rfl
  | run => exact h.run
  | release =>
      apply Registered.base h
      · exact Mailbox.all_release ..
      · exact Mailbox.done_release ..
  | poll k active => exact h.setLoop k _
  | handle k =>
      change (s.handle k).Registered
      unfold TcpServer.handle
      split
      · exact h
      · exact h.setLoop k _
  | handled k => exact h.setLoop k _

/-- **Run lemma.** -/
theorem registered_run (ls : List (ServerStep ι)) (hlegal : (server g).Legal new ls) :
    ((server g).run new ls).Registered :=
  (server g).run_invariant registered_new (fun _ _ h hl => h.next hl) ls hlegal

/-- **The registry matches the connections.**  In every run, a connection whose set-up has
passed the insertion and that is not disconnected is in `tcpst_`.  The insert task of a
connection is submitted at most once, and exactly once when its set-up has got there; the
erase task is submitted exactly once, by the close callback of the disconnected
connection, and after the insert task.  When no task is left to run and no close callback
is on its way to submit one, `tcpst_` holds exactly the inserted connections that are not
disconnected. -/
theorem registry_exact (g : Settings ι) (ls : List (ServerStep ι))
    (hlegal : (server g).Legal new ls) :
    let s := (server g).run new ls
    (∀ i, (s.links i).stage.passed = true → (s.links i).inserted = true) ∧
    (∀ i, (s.links i).inserted = true → (s.links i).conn.status ≠ .kDisConnected →
      i ∈ s.tcpst) ∧
    (∀ i, s.base.all.count (.insert i) = if (s.links i).stage.submitted then 1 else 0) ∧
    (∀ i, s.base.all.count (.erase i) =
      if (s.links i).conn.status = .kDisConnected ∧ (s.links i).closing ≠ .calling
      then 1 else 0) ∧
    (∀ i pre post, s.base.all = pre ++ .erase i :: post → .insert i ∈ pre) ∧
    (s.base.batch = [] → s.base.queue = [] → (∀ i, (s.links i).closing ≠ .calling) →
      ∀ i, i ∈ s.tcpst ↔
        (s.links i).inserted = true ∧ (s.links i).conn.status ≠ .kDisConnected) := by
  intro s
  have h := registered_run ls hlegal
  refine ⟨fun i => (h i).link.inserted, fun i => (h i).mem_tcpst,
    fun i => (h i).tasks.inserts, ?_, fun i => (h i).tasks.order,
    fun hbatch hqueue hcalling i => (h i).mem_tcpst_iff hbatch hqueue (hcalling i)⟩
  intro i
  have herased := (h i).link.erased_iff
  rw [(h i).tasks.erases]
  by_cases hyes : (s.links i).closing.erased = true
  · rw [if_pos hyes, if_pos (herased.1 hyes)]
  · rw [if_neg hyes, if_neg (herased.not.1 hyes)]

end TcpServer

/-- Two connections are set up, the first is closed, and the base loop runs its erase task. -/
theorem registry_exact_two :
    let g : Settings Bool := ⟨fun _ => 0, false, fun _ => true⟩
    let ls : List (ServerStep Bool) :=
      [.construct true 5, .submitInsert true, .swap, .run, .resume true, .setCloseCallback true,
        .finishSetUp true, .release, .construct false 6, .submitInsert false, .swap, .run,
        .resume false, .setCloseCallback false, .finishSetUp false, .release,
        .work true ⟨.close, ⟨true, true⟩⟩, .submitErase true, .closeDone true, .swap, .run]
    let s := (server g).run .new ls
    s.base.all = [.insert true, .insert false, .erase true] ∧ true ∉ s.tcpst ∧ false ∈ s.tcpst := by
  intro g ls s
  obtain ⟨_, hmem, _, _, _, hexact⟩ := TcpServer.registry_exact g ls (by decide)
  refine ⟨by decide, ?_, hmem false (by decide) (by decide)⟩
  rw [hexact (by decide) (by decide) (by decide) true]
  decide

end Adachi.Network
