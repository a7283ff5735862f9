import Adachi.Kv.Packet
import Mathlib.Data.Finmap

/-!
# `adachi::network::kv::KVStore`

The map of `src/kv/kvstore.cpp`.  The `std::unordered_map` is an association
list without duplicate keys: the code never iterates over it, so the order of
its buckets cannot be observed.  Each function runs wholly under `mtx_` and
writes every field of the response it is given, so it is a function from the
request and the map to a response and the next map.

A store stands for a finite map (`KVStore.map`); each operation answers and
updates as the map operation does.
-/

namespace Adachi.Kv

open Adachi.Io

/-- `std::unordered_map<std::string, std::string> mp` -/
abbrev KVStore := AList fun _ : Bytes => Bytes

/-- The finite map a store stands for. -/
abbrev KVMap := Finmap fun _ : Bytes => Bytes

namespace KVStore

/-- `KVStore()` -/
def new : KVStore := ∅

def get (mp : KVStore) (request : KVRequest) : KVResponse × KVStore :=
  match mp.lookup request.key with
  | none => (⟨kNotFound, request.key, [], []⟩, mp)
  | some value => (⟨kOk, request.key, value, []⟩, mp)

def put (mp : KVStore) (request : KVRequest) : KVResponse × KVStore :=
  (⟨kOk, request.key, [], []⟩, mp.insert request.key request.value)

/-- `mp.erase(key)` returns how many entries it removed. -/
def del (mp : KVStore) (request : KVRequest) : KVResponse × KVStore :=
  let erased := if request.key ∈ mp then 1 else 0
  (⟨if erased = 0 then kNotFound else kOk, request.key, [], []⟩, mp.erase request.key)

/-- The finite map behind the buckets. -/
def map (mp : KVStore) : KVMap := AList.toFinmap mp

@[simp] theorem map_new : new.map = ∅ := rfl

/-- Removing a key that is not there leaves the store as it is. -/
theorem erase_of_notMem {mp : KVStore} {key : Bytes} (h : key ∉ mp) :
    mp.erase key = mp := by
  apply AList.ext
  exact List.kerase_of_notMem_keys h

/-! ## What the operations do on the map -/

variable {mp : KVStore} {request : KVRequest}

theorem map_put : (mp.put request).2.map = mp.map.insert request.key request.value :=
  (Finmap.insert_toFinmap ..).symm

theorem map_erase (key : Bytes) : map (mp.erase key) = mp.map.erase key :=
  (Finmap.erase_toFinmap ..).symm

theorem get_of_none (h : mp.map.lookup request.key = none) :
    mp.get request = (⟨kNotFound, request.key, [], []⟩, mp) := by
  rw [map, Finmap.lookup_toFinmap] at h
  rw [get, h]

theorem get_of_some {value : Bytes} (h : mp.map.lookup request.key = some value) :
    mp.get request = (⟨kOk, request.key, value, []⟩, mp) := by
  rw [map, Finmap.lookup_toFinmap] at h
  rw [get, h]

theorem del_of_none (h : mp.map.lookup request.key = none) :
    mp.del request = (⟨kNotFound, request.key, [], []⟩, mp) := by
  rw [map, Finmap.lookup_toFinmap, AList.lookup_eq_none] at h
  rw [del, if_neg h, erase_of_notMem h]
  rfl

theorem del_of_some {value : Bytes} (h : mp.map.lookup request.key = some value) :
    mp.del request = (⟨kOk, request.key, [], []⟩, mp.erase request.key) := by
  have hmem : request.key ∈ mp := by
    rw [map, Finmap.lookup_toFinmap] at h
    rw [← AList.lookup_isSome, h]
    rfl
  rw [del, if_pos hmem]
  rfl

end KVStore

end Adachi.Kv
