import Adachi.Io.Buffer
import Adachi.Lib.ByteOrder
import Mathlib.Data.List.TakeWhile

/-!
# `adachi::network::INetAddress`

An IPv4 address with a port (`src/inetaddress.cpp`), and the way of a peer's address from
`accept4` into the `addr_` of its connection (`src/acceptor.cpp`, `src/tcpserver.cpp`).

Each special member rebuilds the address from its text, and `SetIp` passes `inet_pton` the
family of the object that it fills.  An object that is assigned to has its family already;
an object under construction gets it in the last statement of the constructor, so that
`SetIp` fails there and the zeros of `addr_{}` stay.

## Main results

* `survives_iff`: the members keep an address, and a connection gets the address of its
  peer, exactly when that is `0.0.0.0`.
-/

namespace Adachi.Network

open Adachi.Io ByteOrder

/-! ## What the system provides -/

/-- `in_addr`, by its bytes in memory -/
structure InAddr where
  a : UInt8
  b : UInt8
  c : UInt8
  d : UInt8
  deriving DecidableEq, Repr

/-- `0.0.0.0` -/
def inaddrAny : InAddr := ⟨0, 0, 0, 0⟩

def afUnspec : UInt16 := 0
def afInet : UInt16 := 2

/-- `<arpa/inet.h>`, for IPv4: `inetNtop` is the text that `inet_ntop` gives for
`AF_INET`, for which a buffer of `INET_ADDRSTRLEN` bytes is enough, and `inetPton` what
`inet_pton` stores, `none` where it does not return 1. -/
structure ArpaInet where
  inetNtop : InAddr → Bytes
  inetPton : UInt16 → Bytes → Option InAddr
  pton_ntop : ∀ addr, inetPton afInet (inetNtop addr) = some addr
  pton_unspec : ∀ ip, inetPton afUnspec ip = none

structure SockaddrIn where
  sinFamily : UInt16
  sinPort : UInt16
  sinAddr : InAddr
  deriving DecidableEq, Repr

/-- `sockaddr_in addr_{}` -/
def SockaddrIn.zero : SockaddrIn := ⟨afUnspec, 0, inaddrAny⟩

/-- `sizeof(sockaddr_in)` -/
def sizeofSockaddrIn : Nat := 16

/-! ## The class -/

/-- An object whose constructor has run. -/
structure INetAddress where
  addr : SockaddrIn
  len : Nat
  sinFamily_eq : addr.sinFamily = afInet

section

variable [Host]

def htons (port : UInt16) : UInt16 := if Host.bigEndian then port else bswap port

def ntohs (port : UInt16) : UInt16 := if Host.bigEndian then port else bswap port

theorem ntohs_htons (port : UInt16) : ntohs (htons port) = port := by
  unfold ntohs htons
  split
  · rfl
  · unfold bswap
    rw [beBytes_ofBeBytes (by simp), List.reverse_reverse, ofBeBytes_beBytes]

end

namespace SockaddrIn

variable [Host] (L : ArpaInet)

def setIp (s : SockaddrIn) (ip : Bytes) : Bool × SockaddrIn :=
  match L.inetPton s.sinFamily ip with
  | some addr => (true, { s with sinAddr := addr })
  | none => (false, s)

def setPort (s : SockaddrIn) (port : UInt16) : SockaddrIn :=
  { s with sinPort := htons port }

end SockaddrIn

namespace INetAddress

variable [Host] (L : ArpaInet)

/-- `INetAddress()` -/
def new : INetAddress where
  addr := { SockaddrIn.zero with sinFamily := afInet }
  len := sizeofSockaddrIn
  sinFamily_eq := rfl

def ip (obj : INetAddress) : Bytes := L.inetNtop obj.addr.sinAddr

def port (obj : INetAddress) : UInt16 := ntohs obj.addr.sinPort

/-- The body that the copy and move constructors and both assignments share; `self` is
what `addr_` holds when it starts. -/
def rebuild (self : SockaddrIn) (obj : INetAddress) : INetAddress :=
  let self := (self.setIp L (obj.ip L)).2
  let self := self.setPort obj.port
  { addr := { self with sinFamily := afInet }
    len := sizeofSockaddrIn
    sinFamily_eq := rfl }

/-- `INetAddress(const INetAddress&)` -/
def copy (obj : INetAddress) : INetAddress := rebuild L SockaddrIn.zero obj

/-- `INetAddress(INetAddress&&)` -/
def move (obj : INetAddress) : INetAddress := rebuild L SockaddrIn.zero obj

/-- `operator=(const INetAddress&)` -/
def assign (self obj : INetAddress) : INetAddress := rebuild L self.addr obj

/-- `operator=(INetAddress&&)` -/
def assignMove (self obj : INetAddress) : INetAddress := rebuild L self.addr obj

/-- What `Socket::Accept` leaves in its argument: `accept4` writes the peer's address. -/
def accept (sinPort : UInt16) (sinAddr : InAddr) : INetAddress where
  addr := ⟨afInet, sinPort, sinAddr⟩
  len := sizeofSockaddrIn
  sinFamily_eq := rfl

/-- A constructor that a task's closure runs for each of its members. -/
inductive Passing where
  | copied
  | moved
  deriving DecidableEq

def pass (obj : INetAddress) : Passing → INetAddress
  | .copied => copy L obj
  | .moved => move L obj

/-- `addr_` of the connection to a peer: `peer_addr` is copied from what `accept` filled and
moved into the task; the closure is copied and moved on its way through `Submit`, as `queue`
says; on the io loop it is assigned to the `addr_` that the connection was made with. -/
def connectionAddr (queue : List Passing) (sinPort : UInt16) (sinAddr : InAddr) :
    INetAddress :=
  let peerAddr := copy L (accept sinPort sinAddr)
  let captured := move L peerAddr
  assign L new (queue.foldl (pass L) captured)

/-- Equal for the reader of the object. -/
def Same (x y : INetAddress) : Prop := x.ip L = y.ip L ∧ x.port = y.port

instance (x y : INetAddress) : Decidable (Same L x y) :=
  inferInstanceAs (Decidable (_ ∧ _))

/-- All the members keep the address and port of `obj`, and a connection to a peer with
this address and port has them in its `addr_`. -/
def Survives (obj : INetAddress) : Prop :=
  Same L (copy L obj) obj ∧
  Same L (move L obj) obj ∧
  (∀ self, Same L (assign L self obj) obj) ∧
  (∀ self, Same L (assignMove L self obj) obj) ∧
  ∀ queue, Same L (connectionAddr L queue obj.addr.sinPort obj.addr.sinAddr) obj

/-! ## The members -/

variable {L} {obj : INetAddress}

omit [Host] in
theorem ip_injective {x y : INetAddress} (h : x.ip L = y.ip L) :
    x.addr.sinAddr = y.addr.sinAddr := by
  have hx := L.pton_ntop x.addr.sinAddr
  have hy := L.pton_ntop y.addr.sinAddr
  unfold ip at h
  rw [h, hy] at hx
  exact (Option.some.inj hx).symm

theorem same_iff {x y : INetAddress} :
    Same L x y ↔ x.addr.sinAddr = y.addr.sinAddr ∧ x.port = y.port := by
  constructor
  · exact fun h => ⟨ip_injective h.1, h.2⟩
  · exact fun h => ⟨congrArg L.inetNtop h.1, h.2⟩

/-- The port comes through in every case. -/
theorem rebuild_port (self : SockaddrIn) : (rebuild L self obj).port = obj.port :=
  ntohs_htons _

/-- `SetIp` on an object that has its family -/
theorem rebuild_of_inet {self : SockaddrIn} (h : self.sinFamily = afInet) :
    (rebuild L self obj).addr.sinAddr = obj.addr.sinAddr := by
  unfold rebuild SockaddrIn.setIp ip
  rw [h, L.pton_ntop]
  rfl

/-- `SetIp` on an object under construction -/
theorem rebuild_zero : (rebuild L SockaddrIn.zero obj).addr.sinAddr = inaddrAny := by
  unfold rebuild SockaddrIn.setIp
  rw [show SockaddrIn.zero.sinFamily = afUnspec from rfl, L.pton_unspec]
  rfl

theorem same_assign (self : INetAddress) : Same L (assign L self obj) obj :=
  same_iff.2 ⟨rebuild_of_inet self.sinFamily_eq, rebuild_port _⟩

theorem same_assignMove (self : INetAddress) : Same L (assignMove L self obj) obj :=
  same_iff.2 ⟨rebuild_of_inet self.sinFamily_eq, rebuild_port _⟩

theorem same_copy_iff : Same L (copy L obj) obj ↔ obj.addr.sinAddr = inaddrAny := by
  rw [same_iff, show (copy L obj).addr.sinAddr = inaddrAny from rebuild_zero]
  exact ⟨fun h => h.1.symm, fun h => ⟨h.symm, rebuild_port _⟩⟩

theorem same_move_iff : Same L (move L obj) obj ↔ obj.addr.sinAddr = inaddrAny :=
  same_copy_iff

/-! ## The way of a peer's address -/

theorem pass_port (p : Passing) : (pass L obj p).port = obj.port := by
  cases p with
  | copied => exact rebuild_port _
  | moved => exact rebuild_port _

theorem pass_addr (p : Passing) : (pass L obj p).addr.sinAddr = inaddrAny := by
  cases p with
  | copied => exact rebuild_zero
  | moved => exact rebuild_zero

/-- Nothing after the first constructor brings the address back. -/
theorem foldl_pass (queue : List Passing) (h : obj.addr.sinAddr = inaddrAny) :
    (queue.foldl (pass L) obj).addr.sinAddr = inaddrAny ∧
      (queue.foldl (pass L) obj).port = obj.port := by
  induction queue generalizing obj with
  | nil => exact ⟨h, rfl⟩
  | cons p queue ih =>
      have hzero : (pass L obj p).addr.sinAddr = inaddrAny := pass_addr p
      rcases ih hzero with ⟨haddr, hport⟩
      exact ⟨haddr, hport.trans (pass_port p)⟩

theorem connectionAddr_eq (queue : List Passing) (sinPort : UInt16) (sinAddr : InAddr) :
    (connectionAddr L queue sinPort sinAddr).addr.sinAddr = inaddrAny ∧
      (connectionAddr L queue sinPort sinAddr).port = ntohs sinPort := by
  have hmoved : (move L (copy L (accept sinPort sinAddr))).addr.sinAddr = inaddrAny :=
    rebuild_zero
  have hport : (move L (copy L (accept sinPort sinAddr))).port = ntohs sinPort :=
    (rebuild_port _).trans (rebuild_port _)
  have hqueue := foldl_pass (L := L) queue hmoved
  constructor
  · exact (rebuild_of_inet rfl).trans hqueue.1
  · exact (rebuild_port _).trans (hqueue.2.trans hport)

/-- **When an address survives.**  For every address and port: the members keep it, and a
connection gets it from its peer, if and only if the address is `0.0.0.0`. -/
theorem survives_iff (L : ArpaInet) (obj : INetAddress) :
    Survives L obj ↔ obj.addr.sinAddr = inaddrAny := by
  constructor
  · exact fun h => same_copy_iff.1 h.1
  · intro h
    refine ⟨same_copy_iff.2 h, same_move_iff.2 h, same_assign, same_assignMove, ?_⟩
    intro queue
    have hconnection := connectionAddr_eq (L := L) queue obj.addr.sinPort obj.addr.sinAddr
    exact same_iff.2 ⟨hconnection.1.trans h.symm, hconnection.2⟩

end INetAddress

/-! ## The text of an address -/

/-- The decimal digits of a byte -/
def octetText (n : UInt8) : Bytes :=
  if n < 10 then [48 + n]
  else if n < 100 then [48 + n / 10, 48 + n % 10]
  else [48 + n / 100, 48 + n / 10 % 10, 48 + n % 10]

/-- Digits without a leading zero, of a value up to 255 -/
def parseOctet (text : Bytes) : Option UInt8 :=
  if text = [] ∨ (text.head? = some 48 ∧ text.length ≠ 1) then none
  else if text.all (fun ch => 48 ≤ ch && ch ≤ 57) then
    let value := text.foldl (fun n ch => n * 10 + (ch.toNat - 48)) 0
    if value ≤ 255 then some (UInt8.ofNat value) else none
  else none

/-- `inet_ntop(AF_INET, ..)`: four decimal numbers with dots between them -/
def dottedQuad (addr : InAddr) : Bytes :=
  [46].intercalate [octetText addr.a, octetText addr.b, octetText addr.c, octetText addr.d]

/-- `inet_pton(AF_INET, text.c_str(), ..)` -/
def parseDottedQuad (text : Bytes) : Option InAddr :=
  match (text.takeWhile (· ≠ 0)).splitOn 46 with
  | [a, b, c, d] => do
      let a ← parseOctet a
      let b ← parseOctet b
      let c ← parseOctet c
      let d ← parseOctet d
      return ⟨a, b, c, d⟩
  | _ => none

theorem octetText_facts (n : UInt8) :
    parseOctet (octetText n) = some n ∧ ∀ ch ∈ octetText n, ch ≠ 46 ∧ ch ≠ 0 := by
  have hall : ∀ i : Fin 256, parseOctet (octetText (.ofFin i)) = some (.ofFin i) ∧
      (octetText (.ofFin i)).all (fun ch => ch ≠ 46 && ch ≠ 0) = true := by
    decide +kernel
  obtain ⟨hparse, hchars⟩ := hall n.toFin
  refine ⟨hparse, ?_⟩
  intro ch hch
  simpa using List.all_eq_true.1 hchars ch hch

theorem parseDottedQuad_dottedQuad (addr : InAddr) :
    parseDottedQuad (dottedQuad addr) = some addr := by
  have hoctet := fun n => (octetText_facts n).1
  have hchars := fun n => (octetText_facts n).2
  have hcstr : (dottedQuad addr).takeWhile (· ≠ 0) = dottedQuad addr := by
    rw [List.takeWhile_eq_self_iff]
    intro ch hch
    rw [decide_eq_true_iff]
    unfold dottedQuad at hch
    simp only [List.intercalate, List.intersperse, List.flatten_cons, List.flatten_nil,
      List.mem_append, List.mem_singleton, List.append_nil] at hch
    rcases hch with h | h | h | h | h | h | h
    · exact (hchars _ ch h).2
    · rw [h]; decide
    · exact (hchars _ ch h).2
    · rw [h]; decide
    · exact (hchars _ ch h).2
    · rw [h]; decide
    · exact (hchars _ ch h).2
  have hsplit : (dottedQuad addr).splitOn 46 =
      [octetText addr.a, octetText addr.b, octetText addr.c, octetText addr.d] := by
    refine List.splitOn_intercalate 46 ?_ (List.cons_ne_nil _ _)
    intro text htext h46
    simp only [List.mem_cons, List.not_mem_nil, or_false] at htext
    rcases htext with rfl | rfl | rfl | rfl
    · exact (hchars _ 46 h46).1 rfl
    · exact (hchars _ 46 h46).1 rfl
    · exact (hchars _ 46 h46).1 rfl
    · exact (hchars _ 46 h46).1 rfl
  unfold parseDottedQuad
  rw [hcstr, hsplit]
  simp [hoctet]

/-- The two functions of the C library, for the families in use. -/
def glibc : ArpaInet where
  inetNtop := dottedQuad
  inetPton family text := if family = afInet then parseDottedQuad text else none
  pton_ntop addr := by rw [if_pos rfl, parseDottedQuad_dottedQuad]
  pton_unspec _ := if_neg (by decide)

namespace INetAddress

/-- `127.0.0.1`, port 80 on the wire -/
def loopback : INetAddress := accept 0x5000 ⟨127, 0, 0, 1⟩

/-- The loopback address is read back as `0.0.0.0` from a copy, and from the connection
that a peer at this address is given. -/
theorem loopback_lost :
    let _ : Host := ⟨false⟩
    (copy glibc loopback).ip glibc = glibc.inetNtop inaddrAny ∧
      (connectionAddr glibc [] 0x5000 ⟨127, 0, 0, 1⟩).ip glibc = glibc.inetNtop inaddrAny ∧
      ¬ Survives glibc loopback := by
  intro host
  refine ⟨congrArg dottedQuad rebuild_zero, congrArg dottedQuad (connectionAddr_eq _ _ _).1, ?_⟩
  intro h
  have haddr := same_copy_iff.1 h.1
  revert haddr
  decide

end INetAddress

end Adachi.Network
