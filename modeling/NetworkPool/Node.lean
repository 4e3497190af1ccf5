import Mathlib.Data.Nat.Notation

/-!
# Network nodes

`Csockaddr` and `CnetworkNode` of `network_node.h`. The union of the source is an inductive
with one constructor per value of the family that `init` can leave behind, so `operator==`
(family first, then the fields of that family) is equality. `m_hash` is a function of the
protocol and the address and is left out: the maps of the pool only need equality.
-/

namespace NetworkPool

/-- `CnetworkNode::protocol_type`. The enumeration has two values, but the `default:` branches
of `on_wakeup` are written for any other value of the underlying type. -/
inductive ProtocolType
  | protocolTcp
  | protocolUdp
  | unknown (value : ℕ)
deriving DecidableEq, Repr

/-- `Csockaddr`: no address (family 0), an IPv4 or an IPv6 address. -/
inductive Csockaddr
  | none
  | in4 (port : UInt16) (addr : UInt32)
  | in6 (port : UInt16) (addr0 addr1 addr2 addr3 flowinfo scopeId : UInt32)
deriving DecidableEq, Repr

/-- `Csockaddr::valid`. -/
def Csockaddr.valid : Csockaddr → Bool
  | .none => false
  | .in4 .. => true
  | .in6 .. => true

/-- `CnetworkNode`. The default value is the one of the default constructor. -/
structure CnetworkNode where
  protocol : ProtocolType := .protocolTcp
  sockaddr : Csockaddr := .none
deriving DecidableEq, Repr, Inhabited

/-- A node the pool can hold a TCP connection to. -/
def CnetworkNode.IsTcp (node : CnetworkNode) : Prop :=
  node.protocol = .protocolTcp

instance (node : CnetworkNode) : Decidable node.IsTcp :=
  inferInstanceAs (Decidable (node.protocol = .protocolTcp))

end NetworkPool
