import NetworkPool.Lib.Objects
import NetworkPool.Node.Sockaddr

/-!
# Stored nodes

`CnetworkNode` of `network_node.h` with its cached hash. Whatever is done to nodes, the hash is the
one of what they hold (`consistent_of_run`), so that equality and order do not depend on how a node
came about (`nodes_coherent`), and the nodes are those of the pool's maps
(`operatorEq_iff_toNode`).
-/

namespace NetworkPool

open Lib (ByKey Coherent Objects ObjectOp ValueClass Lts cascade_eq cascade_lt)
open Lib.CString

namespace Stored

/-- The enumerator with a value. -/
def protocolType (protocol : UInt32) : ProtocolType :=
  if protocol = 0 then .protocolTcp
  else if protocol = 1 then .protocolUdp
  else .unknown protocol.toNat

theorem protocolType_inj {p q : UInt32} : protocolType p = protocolType q ↔ p = q := by
  refine ⟨fun h => ?_, fun h => h ▸ rfl⟩
  unfold protocolType at h
  split_ifs at h with hp hq _ hp' _ hq'
  · exact hp.trans hq.symm
  · exact hp'.trans hq'.symm
  · exact UInt32.toNat_inj.mp (ProtocolType.unknown.inj h)

/-- `m_protocol * 31` as a `size_t` of `w` bits: the product is one of `unsigned int`. -/
def seed (w : ℕ) (protocol : UInt32) : ℕ :=
  (protocol * 31).toNat % 2 ^ w

/-- `CnetworkNode`. `protocol` is the value of the enumeration `protocol_type`. -/
structure CnetworkNode where
  protocol : UInt32
  sockaddr : Csockaddr
  hash : ℕ
deriving DecidableEq, Repr

namespace CnetworkNode

/-! ## Members -/

section Members

variable (w : ℕ) (uv : UvAddr)

/-- `rehash`. -/
def rehash (a : CnetworkNode) : CnetworkNode :=
  { a with hash := a.sockaddr.getHash w (seed w a.protocol) }

/-- The arguments of the constructors. Before they run the memory of the address holds
`garbage`. -/
inductive Construct
  | default (garbage : Csockaddr)
  | raw (garbage : Csockaddr) (protocol : UInt32) (raw : Csockaddr) (size : ℕ)
  | ip (garbage : Csockaddr) (protocol : UInt32) (ip : List UInt8) (port : UInt16)

/-- `set` with its arguments. -/
inductive Set
  | raw (protocol : UInt32) (raw : Csockaddr) (size : ℕ)
  | ip (protocol : UInt32) (ip : List UInt8) (port : UInt16)

/-- The constructors. -/
def construct : Construct → CnetworkNode
  | .default garbage => { protocol := 0, sockaddr := garbage.init, hash := 0 }
  | .raw garbage protocol raw size =>
    rehash w { protocol, sockaddr := (garbage.initRaw raw size).1, hash := 0 }
  | .ip garbage protocol ip port =>
    rehash w { protocol, sockaddr := (garbage.initIp uv ip port).1, hash := 0 }

/-- The copy constructor. -/
def copyConstruct (garbage : Csockaddr) (another : CnetworkNode) : CnetworkNode where
  protocol := another.protocol
  sockaddr := (garbage.initCopy another.sockaddr).1
  hash := another.hash

/-- `operator=`. -/
def copyAssign (self another : CnetworkNode) : CnetworkNode where
  protocol := another.protocol
  sockaddr := (self.sockaddr.initCopy another.sockaddr).1
  hash := another.hash

/-- `set`, with its answer. -/
def set (self : CnetworkNode) : Set → CnetworkNode × Bool
  | .raw protocol raw size =>
    let r := self.sockaddr.initRaw raw size
    (rehash w { self with protocol, sockaddr := r.1 }, r.2)
  | .ip protocol ip port =>
    let r := self.sockaddr.initIp uv ip port
    (rehash w { self with protocol, sockaddr := r.1 }, r.2)

/-- The class. Move is copy. -/
def valueClass : ValueClass CnetworkNode Construct Csockaddr Set where
  construct := construct w uv
  copyConstruct := copyConstruct
  moveConstruct := copyConstruct
  copyAssign := copyAssign
  moveAssign := copyAssign
  call m self := (set w uv self m).1

/-- Sequences of operations on nodes. -/
abbrev nodes : Lts (Objects CnetworkNode) (ObjectOp Construct Csockaddr Set) :=
  (valueClass w uv).system

end Members

/-- `operator<`. -/
def operatorLt (a another : CnetworkNode) : Bool :=
  if a.hash ≠ another.hash then a.hash < another.hash
  else if a.protocol ≠ another.protocol then a.protocol < another.protocol
  else a.sockaddr.operatorLt another.sockaddr

/-- `operator==`. -/
def operatorEq (a another : CnetworkNode) : Bool :=
  decide (a.hash = another.hash) && decide (a.protocol = another.protocol) &&
    a.sockaddr.operatorEq another.sockaddr

/-! ## Comparisons -/

/-- The members that the comparisons look at. -/
def key (a : CnetworkNode) : List ℕ :=
  a.hash :: a.protocol.toNat :: a.sockaddr.key

/-- **The comparisons compare keys.** -/
theorem byKey : ByKey operatorEq operatorLt key where
  eq_iff a b := by
    simp only [operatorEq, key, Bool.and_eq_true, decide_eq_true_iff, List.cons.injEq,
      UInt32.toNat_inj, Csockaddr.byKey.eq_iff, and_assoc]
  lt_iff a b := by
    refine cascade_lt (f := id) Iff.rfl Iff.rfl fun _ => ?_
    exact cascade_lt UInt32.toNat_inj UInt32.lt_iff_toNat_lt.symm fun _ =>
      Csockaddr.byKey.lt_iff _ _

/-! ## The cached hash -/

section Hash

variable {w : ℕ} {uv : UvAddr}

/-- The hash is the one of the protocol and the address. -/
structure Consistent (w : ℕ) (a : CnetworkNode) : Prop where
  wf : a.sockaddr.Wf
  hash_eq : a.hash = a.sockaddr.getHash w (seed w a.protocol)

/-- A copy has the hash of what was copied. -/
theorem Consistent.copy {another : CnetworkNode} (h : Consistent w another) (sockaddr : Csockaddr) :
    Consistent w
      { protocol := another.protocol, sockaddr := (sockaddr.initCopy another.sockaddr).1
        hash := another.hash } where
  wf := sockaddr.initCopy_wf another.sockaddr
  hash_eq := by
    rw [(sockaddr.initCopy_same h.wf).getHash_eq]
    exact h.hash_eq

theorem keeps : (valueClass w uv).Keeps (Consistent w) fun _ _ => True where
  construct c := by
    cases c with
    | default garbage =>
      -- all zero and the hash is 0
      refine ⟨garbage.init_wf, ?_⟩
      simp [construct, valueClass, seed, Csockaddr.getHash, Csockaddr.init, AF_INET, AF_INET6]
    | raw garbage protocol raw size => exact ⟨garbage.initRaw_wf raw size, rfl⟩
    | ip garbage protocol ip port => exact ⟨garbage.initIp_wf uv ip port, rfl⟩
  copyConstruct garbage b hb := hb.copy garbage
  moveConstruct garbage b hb := hb.copy garbage
  copyAssign a b _ hb _ := hb.copy a.sockaddr
  moveAssign a b _ hb _ := hb.copy a.sockaddr
  call m a _ := by
    cases m with
    | raw protocol raw size => exact ⟨a.sockaddr.initRaw_wf raw size, rfl⟩
    | ip protocol ip port => exact ⟨a.sockaddr.initIp_wf uv ip port, rfl⟩

/-- **The cached hash is never out of step.** -/
theorem consistent_of_run {ops : List (ObjectOp Construct Csockaddr Set)} {s : Objects CnetworkNode}
    (hrun : (nodes w uv).run ops = some s) : s.All (Consistent w) :=
  keeps.all hrun

/-- Equality is equality of what is stored. -/
theorem Consistent.operatorEq_iff {a b : CnetworkNode} (ha : Consistent w a)
    (hb : Consistent w b) :
    operatorEq a b = true ↔
      a.protocol = b.protocol ∧ Csockaddr.SameAddress a.sockaddr b.sockaddr := by
  simp only [operatorEq, Bool.and_eq_true, decide_eq_true_iff, Csockaddr.operatorEq_iff]
  constructor
  · rintro ⟨⟨-, hprotocol⟩, hsame⟩
    exact ⟨hprotocol, hsame⟩
  · rintro ⟨hprotocol, hsame⟩
    refine ⟨⟨?_, hprotocol⟩, hsame⟩
    rw [ha.hash_eq, hb.hash_eq, hprotocol, hsame.getHash_eq]

/-- The node that is stored. -/
def toNode (a : CnetworkNode) : NetworkPool.CnetworkNode where
  protocol := protocolType a.protocol
  sockaddr := a.sockaddr.toSockaddr

/-- **The maps of the pool are keyed by what is stored.** -/
theorem Consistent.operatorEq_iff_toNode {a b : CnetworkNode} (ha : Consistent w a)
    (hb : Consistent w b) : operatorEq a b = true ↔ a.toNode = b.toNode := by
  rw [ha.operatorEq_iff hb, toNode, toNode, NetworkPool.CnetworkNode.mk.injEq, protocolType_inj,
    ← Csockaddr.operatorEq_iff, Csockaddr.operatorEq_iff_toSockaddr ha.wf hb.wf]

/-- **Order, equality and hash of nodes are coherent**, whatever was done to them, and so are order
and equality of addresses. -/
theorem nodes_coherent {ops : List (ObjectOp Construct Csockaddr Set)} {s : Objects CnetworkNode}
    (hrun : (nodes w uv).run ops = some s) :
    s.All (fun a => a.hash = (rehash w a).hash) ∧
      (∀ x y a b, s x = some a → s y = some b →
        (operatorEq a b = true ↔
          a.protocol = b.protocol ∧ Csockaddr.SameAddress a.sockaddr b.sockaddr) ∧
        (operatorEq a b = true → a.hash = b.hash)) ∧
      Coherent operatorEq operatorLt ∧
      (∀ a b, Csockaddr.operatorEq a b = true ↔ Csockaddr.SameAddress a b) ∧
      Coherent Csockaddr.operatorEq Csockaddr.operatorLt := by
  have hall := consistent_of_run hrun
  refine ⟨fun x a hx => (hall x a hx).hash_eq, fun x y a b hx hy => ?_, byKey.coherent,
    Csockaddr.operatorEq_iff, Csockaddr.byKey.coherent⟩
  have heq := (hall x a hx).operatorEq_iff (hall y b hy)
  refine ⟨heq, fun h => ?_⟩
  simp only [operatorEq, Bool.and_eq_true, decide_eq_true_iff] at h
  exact h.1.1

/-- `uv_ip4_addr` and `uv_ip6_addr` on two addresses. -/
def twoAddresses : UvAddr where
  ip4Addr ip port raw :=
    if ip = lit "1.2.3.4" then
      ({ raw with family := AF_INET, port := port <<< 8 ||| port >>> 8, word := 0x04030201 }, true)
    else (raw, false)
  ip6Addr ip port raw :=
    if ip = lit "::1" then
      ({ family := AF_INET6, port := port <<< 8 ||| port >>> 8, word := 0
         addr := #v[0, 0, 0, 0x01000000], scopeId := 0 }, true)
    else (raw, false)
  ip4_family ip port raw h := by
    split_ifs at h ⊢
    rfl
  ip6_family ip port raw h := by
    split_ifs at h ⊢
    rfl

/-- An IPv4 node, a default node that it is assigned to, and an IPv6 node that is then set to an
address that cannot be read. -/
theorem nodes_coherent_three :
    ∃ garbage s a b c, (nodes 64 twoAddresses).run
        [.construct 0 (.ip garbage 0 (lit "1.2.3.4") 80), .construct 1 (.default garbage),
          .copyAssign 1 0, .construct 2 (.ip garbage 1 (lit "::1") 80),
          .call 2 (.ip 1 (lit "1.2.3") 80)] = some s ∧
      s 0 = some a ∧ s 1 = some b ∧ s 2 = some c ∧ operatorEq a b = true ∧ c.hash = 31 := by
  let garbage : Csockaddr :=
    { family := 7, port := 1, word := 2, addr := #v[3, 4, 5, 6], scopeId := 8 }
  have hrun : (nodes 64 twoAddresses).run
      [.construct 0 (.ip garbage 0 (lit "1.2.3.4") 80), .construct 1 (.default garbage),
        .copyAssign 1 0, .construct 2 (.ip garbage 1 (lit "::1") 80),
        .call 2 (.ip 1 (lit "1.2.3") 80)] = some _ := rfl
  obtain ⟨hhash, heq, -⟩ := nodes_coherent hrun
  have hsame := (heq 0 1 _ _ rfl rfl).1.mpr ⟨rfl, (Csockaddr.operatorEq_iff _ _).mp (by decide)⟩
  exact ⟨garbage, _, _, _, _, hrun, rfl, rfl, rfl, hsame, hhash 2 _ rfl⟩

end Hash

end CnetworkNode

end Stored

end NetworkPool
