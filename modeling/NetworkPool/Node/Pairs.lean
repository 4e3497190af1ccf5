import NetworkPool.Node.Nodes

/-!
# Stored pairs

`CnetworkPair` of `network_node.h`: two addresses, a protocol and a cached hash, which stands for
the protocol in the comparisons. `operator=` copies the hash but not the protocol, so that pairs
behave as values in exactly the runs whose assignments find the protocols equal
(`behavesAsValue_iff`).
-/

namespace NetworkPool

open Lib (ByKey Objects ObjectOp ValueClass Lts cascade_lt)

namespace Stored

/-- `CnetworkPair`. -/
structure CnetworkPair where
  protocol : UInt32
  localAddr : Csockaddr
  remoteAddr : Csockaddr
  hash : ℕ
deriving DecidableEq, Repr

namespace CnetworkPair

/-! ## Members -/

section Members

variable (w : ℕ)

/-- `rehash`. -/
def rehash (a : CnetworkPair) : CnetworkPair :=
  { a with hash := a.remoteAddr.getHash w (a.localAddr.getHash w (seed w a.protocol)) }

/-- The arguments of the constructors. Before they run the memory of the addresses holds
`garbage`. -/
inductive Construct
  | default (garbage garbage' : Csockaddr)
  | addresses (garbage garbage' : Csockaddr) (protocol : UInt32) (localAddr remoteAddr : Csockaddr)

/-- The setters with their arguments. -/
inductive Set
  | setProtocol (protocol : UInt32)
  | setLocal (localAddr : Csockaddr)
  | setRemote (remoteAddr : Csockaddr)

/-- The constructors. -/
def construct : Construct → CnetworkPair
  | .default garbage garbage' =>
    { protocol := 0, localAddr := garbage.init, remoteAddr := garbage'.init, hash := 0 }
  | .addresses garbage garbage' protocol localAddr remoteAddr =>
    rehash w
      { protocol
        localAddr := (garbage.initCopy localAddr).1
        remoteAddr := (garbage'.initCopy remoteAddr).1
        hash := 0 }

/-- The copy constructor. -/
def copyConstruct (garbage : Csockaddr × Csockaddr) (another : CnetworkPair) : CnetworkPair where
  protocol := another.protocol
  localAddr := (garbage.1.initCopy another.localAddr).1
  remoteAddr := (garbage.2.initCopy another.remoteAddr).1
  hash := another.hash

/-- `operator=`. -/
def copyAssign (self another : CnetworkPair) : CnetworkPair :=
  { self with
    localAddr := (self.localAddr.initCopy another.localAddr).1
    remoteAddr := (self.remoteAddr.initCopy another.remoteAddr).1
    hash := another.hash }

/-- The setters. -/
def set (self : CnetworkPair) : Set → CnetworkPair
  | .setProtocol protocol => rehash w { self with protocol }
  | .setLocal localAddr =>
    rehash w { self with localAddr := (self.localAddr.initCopy localAddr).1 }
  | .setRemote remoteAddr =>
    rehash w { self with remoteAddr := (self.remoteAddr.initCopy remoteAddr).1 }

/-- The class. Move is copy. -/
def valueClass : ValueClass CnetworkPair Construct (Csockaddr × Csockaddr) Set where
  construct := construct w
  copyConstruct := copyConstruct
  moveConstruct := copyConstruct
  copyAssign := copyAssign
  moveAssign := copyAssign
  call m self := set w self m

/-- Sequences of operations on pairs. -/
abbrev pairs : Lts (Objects CnetworkPair) (ObjectOp Construct (Csockaddr × Csockaddr) Set) :=
  (valueClass w).system

end Members

/-- `operator<`. -/
def operatorLt (a another : CnetworkPair) : Bool :=
  if a.hash ≠ another.hash then a.hash < another.hash
  else if !a.remoteAddr.operatorEq another.remoteAddr then
    a.remoteAddr.operatorLt another.remoteAddr
  else a.localAddr.operatorLt another.localAddr

/-- `operator==`. -/
def operatorEq (a another : CnetworkPair) : Bool :=
  decide (a.hash = another.hash) && a.remoteAddr.operatorEq another.remoteAddr &&
    a.localAddr.operatorEq another.localAddr

/-! ## Comparisons -/

/-- What the comparisons look at. -/
def key (a : CnetworkPair) : List (List ℕ) :=
  [[a.hash], a.remoteAddr.key, a.localAddr.key]

/-- **The comparisons compare keys.** -/
theorem byKey : ByKey operatorEq operatorLt key where
  eq_iff a b := by
    simp only [operatorEq, key, Bool.and_eq_true, decide_eq_true_iff, List.cons.injEq, and_true,
      Csockaddr.byKey.eq_iff, and_assoc]
  lt_iff a b := by
    have hinj : [a.hash] = [b.hash] ↔ a.hash = b.hash := by simp
    have hlt : [a.hash] < [b.hash] ↔ a.hash < b.hash := by simp [List.cons_lt_cons_iff]
    refine cascade_lt (f := fun n => [n]) hinj hlt fun _ => ?_
    rw [List.cons_lt_cons_iff, ← Csockaddr.byKey.eq_iff, ← Csockaddr.byKey.lt_iff]
    cases hremote : a.remoteAddr.operatorEq b.remoteAddr with
    | false => simp
    | true =>
      -- equal addresses are not less
      have hno : ¬a.remoteAddr.operatorLt b.remoteAddr = true := by
        rw [Csockaddr.byKey.lt_iff, (Csockaddr.byKey.eq_iff _ _).mp hremote]
        exact lt_irrefl _
      simp only [Bool.not_true, Bool.false_eq_true, if_false, true_and]
      rw [or_iff_right hno, Csockaddr.byKey.lt_iff, List.cons_lt_cons_iff]
      simp

/-! ## What pairs hold -/

/-- Protocol, local and remote address are the same. -/
structure Same (a b : CnetworkPair) : Prop where
  protocol_eq : a.protocol = b.protocol
  local_eq : a.localAddr.operatorEq b.localAddr = true
  remote_eq : a.remoteAddr.operatorEq b.remoteAddr = true

/-- The getters answer the same. -/
structure Agree (a b : CnetworkPair) : Prop extends Same a b where
  hash_eq : a.hash = b.hash

/-- Both addresses are of a family that `init` can leave behind. -/
structure Wf (a : CnetworkPair) : Prop where
  localAddr : a.localAddr.Wf
  remoteAddr : a.remoteAddr.Wf

/-- The hash is the one of the protocol and the addresses. -/
structure Consistent (w : ℕ) (a : CnetworkPair) : Prop extends Wf a where
  hash_eq : a.hash = (rehash w a).hash

section Keeps

variable {w : ℕ} {a b : CnetworkPair}

theorem rehash_consistent (h : Wf a) : Consistent w (rehash w a) :=
  ⟨⟨h.localAddr, h.remoteAddr⟩, rfl⟩

theorem Same.rehash_eq (h : Same a b) : (rehash w a).hash = (rehash w b).hash := by
  have hlocal := (Csockaddr.operatorEq_iff _ _).mp h.local_eq
  have hremote := (Csockaddr.operatorEq_iff _ _).mp h.remote_eq
  simp only [rehash]
  rw [h.protocol_eq, hlocal.getHash_eq, hremote.getHash_eq]

/-- A copy of both addresses. -/
theorem Wf.copy (localAddr remoteAddr another another' : Csockaddr) {protocol : UInt32}
    {hash : ℕ} :
    Wf
      { protocol, localAddr := (localAddr.initCopy another).1
        remoteAddr := (remoteAddr.initCopy another').1, hash } :=
  ⟨localAddr.initCopy_wf another, remoteAddr.initCopy_wf another'⟩

theorem operatorEq_initCopy (address : Csockaddr) {another : Csockaddr} (h : another.Wf) :
    (address.initCopy another).1.operatorEq another = true :=
  (Csockaddr.operatorEq_iff _ _).mpr (address.initCopy_same h)

/-- A copy of the addresses and of the hash is consistent if the protocol is the same. -/
theorem Consistent.copy {another : CnetworkPair} (h : Consistent w another)
    (localAddr remoteAddr : Csockaddr) {protocol : UInt32} (hprotocol : protocol = another.protocol) :
    Consistent w
      { protocol, localAddr := (localAddr.initCopy another.localAddr).1
        remoteAddr := (remoteAddr.initCopy another.remoteAddr).1, hash := another.hash } where
  toWf := .copy localAddr remoteAddr another.localAddr another.remoteAddr
  hash_eq := by
    have hsame : Same
        { protocol, localAddr := (localAddr.initCopy another.localAddr).1
          remoteAddr := (remoteAddr.initCopy another.remoteAddr).1, hash := another.hash } another :=
      ⟨hprotocol, operatorEq_initCopy localAddr h.localAddr,
        operatorEq_initCopy remoteAddr h.remoteAddr⟩
    rw [hsame.rehash_eq]
    exact h.hash_eq

theorem set_consistent (h : Wf a) (m : Set) : Consistent w (set w a m) := by
  cases m with
  | setProtocol protocol => exact rehash_consistent ⟨h.localAddr, h.remoteAddr⟩
  | setLocal address => exact rehash_consistent ⟨Csockaddr.initCopy_wf _ _, h.remoteAddr⟩
  | setRemote address => exact rehash_consistent ⟨h.localAddr, Csockaddr.initCopy_wf _ _⟩

theorem construct_consistent (c : Construct) : Consistent w (construct w c) := by
  cases c with
  | default garbage garbage' =>
    -- all zero and the hash is 0
    refine ⟨⟨garbage.init_wf, garbage'.init_wf⟩, ?_⟩
    simp [construct, rehash, seed, Csockaddr.getHash, Csockaddr.init, AF_INET, AF_INET6]
  | addresses garbage garbage' protocol localAddr remoteAddr =>
    exact rehash_consistent (.copy garbage garbage' localAddr remoteAddr)

theorem keeps_wf : (valueClass w).Keeps Wf fun _ _ => True where
  construct c := (construct_consistent c).toWf
  copyConstruct garbage b _ := .copy garbage.1 garbage.2 b.localAddr b.remoteAddr
  moveConstruct garbage b _ := .copy garbage.1 garbage.2 b.localAddr b.remoteAddr
  copyAssign a b _ _ _ := .copy a.localAddr a.remoteAddr b.localAddr b.remoteAddr
  moveAssign a b _ _ _ := .copy a.localAddr a.remoteAddr b.localAddr b.remoteAddr
  call m _ ha := (set_consistent ha m).toWf

/-- The protocols are the same already. -/
def SameProtocol (a b : CnetworkPair) : Prop :=
  a.protocol = b.protocol

theorem keeps_consistent : (valueClass w).Keeps (Consistent w) SameProtocol where
  construct := construct_consistent
  copyConstruct garbage _ hb := hb.copy garbage.1 garbage.2 rfl
  moveConstruct garbage _ hb := hb.copy garbage.1 garbage.2 rfl
  copyAssign a _ _ hb hprotocol := hb.copy a.localAddr a.remoteAddr hprotocol
  moveAssign a _ _ hb hprotocol := hb.copy a.localAddr a.remoteAddr hprotocol
  call m _ ha := set_consistent ha.toWf m

/-- **Setters keep pairs in agreement.** -/
theorem Agree.set (h : Agree a b) (m : Set) :
    Agree (CnetworkPair.set w a m) (CnetworkPair.set w b m) := by
  have hsame : Same (CnetworkPair.set w a m) (CnetworkPair.set w b m) := by
    have hcopy : ∀ x y address : Csockaddr,
        (x.initCopy address).1.operatorEq (y.initCopy address).1 = true := fun x y address =>
      (Csockaddr.operatorEq_iff _ _).mpr (x.initCopy_congr address y)
    cases m with
    | setProtocol protocol => exact ⟨rfl, h.local_eq, h.remote_eq⟩
    | setLocal address => exact ⟨h.protocol_eq, hcopy _ _ address, h.remote_eq⟩
    | setRemote address => exact ⟨h.protocol_eq, h.local_eq, hcopy _ _ address⟩
  refine ⟨hsame, ?_⟩
  cases m with
  | setProtocol protocol => exact hsame.rehash_eq
  | setLocal address => exact hsame.rehash_eq
  | setRemote address => exact hsame.rehash_eq

/-- The same setters, one after the other. -/
theorem Agree.sets (h : Agree a b) (ms : List Set) :
    Agree (ms.foldl (CnetworkPair.set w) a) (ms.foldl (CnetworkPair.set w) b) := by
  induction ms generalizing a b with
  | nil => exact h
  | cons m ms ih => exact ih (h.set m)

/-- What is assigned agrees, but for the protocol. -/
theorem agree_copyAssign (hb : Wf b) : Agree (copyAssign a b) b ↔ SameProtocol a b :=
  ⟨fun h => h.protocol_eq, fun hprotocol =>
    ⟨⟨hprotocol, operatorEq_initCopy a.localAddr hb.localAddr,
      operatorEq_initCopy a.remoteAddr hb.remoteAddr⟩, rfl⟩⟩

end Keeps

/-! ## The hash tells the protocols apart -/

section Hash

variable {w : ℕ} {a b : CnetworkPair}

theorem seed_inj {p q : UInt32} (hw : 32 ≤ w) (h : seed w p ≡ seed w q [MOD 2 ^ 32]) : p = q := by
  have hseed : ∀ p : UInt32, seed w p ≡ p.toNat * 31 [MOD 2 ^ 32] := by
    intro p
    refine (Csockaddr.mod_modEq_pow hw _).trans ?_
    rw [UInt32.toNat_mul]
    exact Nat.mod_modEq _ _
  have hproduct : p.toNat * 31 ≡ q.toNat * 31 [MOD 2 ^ 32] :=
    (hseed p).symm.trans (h.trans (hseed q))
  have hodd : Nat.gcd (2 ^ 32) 31 = 1 := by decide
  have hmod := Nat.ModEq.cancel_right_of_coprime hodd hproduct
  exact UInt32.toNat_inj.mp (Nat.ModEq.eq_of_lt_of_lt hmod p.toNat_lt q.toNat_lt)

/-- **Equality of pairs with the right hash**, in a `size_t` of 64 bits or more. -/
theorem Consistent.operatorEq_iff (hw : 64 ≤ w) (ha : Consistent w a) (hb : Consistent w b) :
    operatorEq a b = true ↔ Same a b := by
  simp only [operatorEq, Bool.and_eq_true, decide_eq_true_iff]
  constructor
  · rintro ⟨⟨hhash, hremote⟩, hlocal⟩
    refine ⟨?_, hlocal, hremote⟩
    have hremoteEq := (Csockaddr.operatorEq_iff _ _).mp hremote
    have hlocalEq := (Csockaddr.operatorEq_iff _ _).mp hlocal
    rw [ha.hash_eq, hb.hash_eq] at hhash
    simp only [rehash] at hhash
    rw [hremoteEq.getHash_eq, hlocalEq.getHash_eq] at hhash
    have hmod : (b.remoteAddr.getHash w (b.localAddr.getHash w (seed w a.protocol))) ≡
        (b.remoteAddr.getHash w (b.localAddr.getHash w (seed w b.protocol))) [MOD 2 ^ 64] :=
      congrArg (· % 2 ^ 64) hhash
    -- each address costs 16 of the 64 bits
    have hremoteMod := Csockaddr.modEq_of_getHash hw (by decide) hmod
    have hlocalMod := Csockaddr.modEq_of_getHash (show 48 ≤ w by omega) (by decide) hremoteMod
    exact seed_inj (by omega) hlocalMod
  · intro h
    refine ⟨⟨?_, h.remote_eq⟩, h.local_eq⟩
    rw [ha.hash_eq, hb.hash_eq, h.rehash_eq]

end Hash

/-! ## Runs -/

/-- After an assignment the pairs agree, and after the same setters still. -/
def AgreesAfter (w : ℕ) (_ : Objects CnetworkPair)
    (e : ObjectOp Construct (Csockaddr × Csockaddr) Set) (s' : Objects CnetworkPair) : Prop :=
  ∀ x y a b, e = .copyAssign x y ∨ e = .moveAssign x y → s' x = some a → s' y = some b →
    ∀ ms : List Set, Agree (ms.foldl (set w) a) (ms.foldl (set w) b)

/-- Pairs behave as values in the states and steps of a run. -/
structure BehavesAsValue (w : ℕ) (ops : List (ObjectOp Construct (Csockaddr × Csockaddr) Set)) :
    Prop where
  hash_eq : (pairs w).EachState (fun s => s.All fun a => a.hash = (rehash w a).hash) ops
  agree : (pairs w).EachStep (AgreesAfter w) ops
  operatorEq_iff : 64 ≤ w → (pairs w).EachState (fun s => ∀ x y a b, s x = some a → s y = some b →
    (operatorEq a b = true ↔ Same a b)) ops

section Runs

variable {w : ℕ} {s s' : Objects CnetworkPair}
  {e : ObjectOp Construct (Csockaddr × Csockaddr) Set}

/-- What an assignment leaves, for both kinds. -/
theorem step_assign {x y : ℕ} (he : e = .copyAssign x y ∨ e = .moveAssign x y)
    (hstep : (pairs w).step s e = some s') :
    ∃ a b, s x = some a ∧ s y = some b ∧ s' = Function.update s x (some (copyAssign a b)) := by
  rcases he with rfl | rfl
  · exact ValueClass.step_copyAssign hstep
  · exact ValueClass.step_moveAssign hstep

/-- An assignment brings agreement exactly when the protocols are the same already. -/
theorem agreesAfter_iff (hs : s.All Wf) (hstep : (pairs w).step s e = some s') :
    AgreesAfter w s e s' ↔ ValueClass.Assigns SameProtocol s e s' := by
  constructor
  · intro h x y a b he hx hy
    obtain ⟨a₁, b₁, hx₁, hy₁, rfl⟩ := step_assign he hstep
    obtain rfl := Option.some.inj (hx.symm.trans hx₁)
    obtain rfl := Option.some.inj (hy.symm.trans hy₁)
    by_cases hxy : x = y
    · subst hxy
      obtain rfl := Option.some.inj (hx.symm.trans hy)
      rfl
    · have hagree := h x y _ b he (Function.update_self ..)
        (by rw [Function.update_of_ne (Ne.symm hxy)]; exact hy) []
      exact (agree_copyAssign (hs y b hy)).mp hagree
  · intro h x y a' b' he hx' hy' ms
    obtain ⟨a, b, hx, hy, rfl⟩ := step_assign he hstep
    have hprotocol := h x y a b he hx hy
    rw [Function.update_self] at hx'
    obtain rfl := Option.some.inj hx'
    refine Agree.sets ?_ ms
    by_cases hxy : x = y
    · subst hxy
      rw [Function.update_self] at hy'
      obtain rfl := Option.some.inj hy'
      have hrefl := Csockaddr.byKey.coherent.eq_refl
      exact ⟨⟨rfl, hrefl _, hrefl _⟩, rfl⟩
    · rw [Function.update_of_ne (Ne.symm hxy), hy] at hy'
      obtain rfl := Option.some.inj hy'
      exact (agree_copyAssign (hs y _ hy)).mpr hprotocol

/-- **Pairs behave as values in exactly the runs whose assignments find the protocols equal.** -/
theorem behavesAsValue_iff (w : ℕ)
    (ops : List (ObjectOp Construct (Csockaddr × Csockaddr) Set)) :
    BehavesAsValue w ops ↔ (pairs w).EachStep (ValueClass.Assigns SameProtocol) ops := by
  have hstep : (pairs w).EachStep (AgreesAfter w) ops ↔
      (pairs w).EachStep (ValueClass.Assigns SameProtocol) ops := by
    apply Lts.eachStep_congr
    intro s e s' hreachable hstep
    obtain ⟨es, hrun⟩ := hreachable.exists_run
    exact agreesAfter_iff (keeps_wf.all hrun) hstep
  constructor
  · intro h
    exact hstep.mp h.agree
  · intro h
    have hall : (pairs w).EachState (fun s => s.All (Consistent w)) ops := by
      intro pre post s hops hrun
      subst hops
      exact keeps_consistent.all_of_run h.of_append hrun
    refine ⟨fun pre post s hops hrun x a hx => ?_, hstep.mpr h,
      fun hw pre post s hops hrun x y a b hx hy => ?_⟩
    · exact (hall pre post s hops hrun x a hx).hash_eq
    · have hs := hall pre post s hops hrun
      exact (hs x a hx).operatorEq_iff hw (hs y b hy)

/-- A UDP pair is assigned to a TCP pair: they are equal, with different protocols, and the hash of
the TCP pair is the one of the UDP pair. -/
theorem copyAssign_drifts :
    ∃ ops s a b, (pairs 64).run ops = some s ∧ s 0 = some a ∧ s 1 = some b ∧
      a.protocol = 0 ∧ b.protocol = 1 ∧ operatorEq a b = true ∧
      a.hash ≠ (rehash 64 a).hash ∧ ¬BehavesAsValue 64 ops := by
  let address : Csockaddr :=
    { family := AF_INET, port := 80, word := 1, addr := #v[0, 0, 0, 0], scopeId := 0 }
  let ops : List (ObjectOp Construct (Csockaddr × Csockaddr) Set) :=
    [.construct 0 (.default address address),
      .construct 1 (.addresses address address 1 address address), .copyAssign 0 1]
  have hrun : (pairs 64).run ops = some _ := rfl
  have hhash : (copyAssign (construct 64 (.default address address))
      (construct 64 (.addresses address address 1 address address))).hash ≠
        (rehash 64 (copyAssign (construct 64 (.default address address))
          (construct 64 (.addresses address address 1 address address)))).hash := by
    decide
  refine ⟨ops, _, _, _, hrun, rfl, rfl, rfl, rfl, by decide, hhash, fun h => hhash ?_⟩
  exact h.hash_eq ops [] _ (List.append_nil ops).symm hrun 0 _ rfl

end Runs

end CnetworkPair

end Stored

end NetworkPool
