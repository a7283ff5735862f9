import Adachi.Kv.EchoSpec

/-!
# The service is a linearizable map

Connections call `ShouldEcho` of one service, each for one packet after the
other, and only the part under `mtx_` is atomic.  The general theory of locked
objects orders the calls; that every sequence of calls is served as by a finite
map is `shouldEcho_refines`, with the bound on stored values as the invariant.
-/

namespace Adachi.Kv

open Adachi.Io SharedObject

variable [ByteOrder.Host]

/-- A bounded store and the finite map behind it answer alike. -/
theorem echoObject_sim {mp : KVStore} {m : KVMap} (h : mp.Bounded ∧ mp.map = m)
    (p : Packet) :
    (echoObject.apply mp p).1 = some (m.serve p).1 ∧
      (echoObject.apply mp p).2.Bounded ∧ (echoObject.apply mp p).2.map = (m.serve p).2 := by
  obtain ⟨hbounded, rfl⟩ := h
  obtain ⟨hanswer, hmap, hnext⟩ := shouldEcho_refines hbounded (Buffer.new 0) p
  rw [shouldEcho_eq] at hanswer hmap hnext
  exact ⟨hanswer, hnext, hmap⟩

/-- **Linearizability.**  For every run of the connections there is an order of
the requests that have been executed, such that

* a longer run only adds at its end, and it holds of each connection the requests
  executed so far, in the order of the connection: so it respects real time;
* the store and the answers are those a finite map gives in that order;
* a connection that has taken three steps for each of its requests is done and has one answer
  for each, whatever the others have done;
* every answer is under the opcode and the request id of its request. -/
theorem kvService_linearizable {ι : Type _} [DecidableEq ι]
    (requests : ι → List Packet) :
    ∃ order : List ι → List (ι × Packet),
      (∀ run more, order run <+: order (run ++ more)) ∧
      (∀ run,
        let s := echoObject.machine.run (SharedObject.start KVStore.new requests) run
        s.object.map = replay KVMap.serve ∅ (order run) ∧
        ∀ c,
          opsOf c (order run) ++ ((s.client c).begun ++ (s.client c).todo) = requests c ∧
          (s.client c).answers ++ echoObject.pending (s.client c) =
            (answersOf KVMap.serve c ∅ (order run)).map some ∧
          (answersOf KVMap.serve c ∅ (order run)).length = (opsOf c (order run)).length ∧
          (3 * (requests c).length ≤ run.count c →
            (s.client c).todo = [] ∧ (s.client c).phase = .idle ∧
              (s.client c).answers = (answersOf KVMap.serve c ∅ (order run)).map some ∧
              (s.client c).answers.length = (requests c).length)) ∧
      (∀ (m : KVMap) (p : Packet),
        (m.serve p).1.head.opcode = p.head.opcode ∧
        (m.serve p).1.head.requestId = p.head.requestId ∧
        (m.serve p).1.head.status = (m.answer p).1.1) := by
  refine ⟨echoObject.order KVStore.new requests,
    echoObject.order_append KVStore.new requests, ?_, fun _ _ => ⟨rfl, rfl, rfl⟩⟩
  intro run
  have haccounted := linearizable echoObject KVStore.new requests run
  generalize echoObject.order KVStore.new requests run = order at haccounted
  obtain ⟨hobject, hops, hanswers, _⟩ := haccounted
  obtain ⟨⟨_, hmap⟩, hsim⟩ := replay_sim echoObject.apply
    (fun (m : KVMap) p => (some (m.serve p).1, (m.serve p).2))
    (fun _ _ p h => echoObject_sim h p)
    (⟨KVStore.bounded_new, KVStore.map_new⟩ : KVStore.new.Bounded ∧ _) order
  obtain ⟨hreplay, hsome⟩ := replay_map KVMap.serve some ∅ order
  dsimp only
  constructor
  · rw [hobject, hmap]
    exact hreplay
  · intro c
    have hgiven := hanswers c
    rw [hsim c] at hgiven
    replace hgiven := hgiven.symm.trans (hsome c)
    refine ⟨hops c, hgiven, answersOf_length .., fun hsteps => ?_⟩
    obtain ⟨htodo, hidle⟩ := echoObject.run_done KVStore.new requests run hsteps
    have hall := hops c
    unfold pending at hgiven
    unfold Client.begun at hall
    rw [hidle] at hgiven hall
    rw [htodo] at hall
    simp only [List.append_nil] at hgiven hall
    refine ⟨htodo, hidle, hgiven, ?_⟩
    rw [hgiven, List.length_map, answersOf_length, hall]

end Adachi.Kv
