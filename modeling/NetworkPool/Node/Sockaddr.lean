import NetworkPool.Lib.CString
import NetworkPool.Lib.Keyed
import NetworkPool.Node
import Mathlib.Data.Nat.ModEq
import Mathlib.Tactic.Positivity

/-!
# Stored addresses

`Csockaddr` of `network_node.h` with the bytes of its union. Its comparisons compare keys
(`Csockaddr.byKey`), and what they see of an address is the value that the pool's maps use
(`operatorEq_iff_toSockaddr`).
-/

namespace NetworkPool

open Lib (ByKey cascade_eq cascade_lt)
open Lib.CString

namespace Stored

def AF_INET : UInt16 := 2

def AF_INET6 : UInt16 := 10

/-- `sizeof(sockaddr_in6)`. -/
def sizeofSockaddrIn6 : ℕ := 28

/-- `Csockaddr`: what is in the union `__sockaddr_mix`. The four bytes `word` behind the port are
`sin_addr` of a `sockaddr_in` and `sin6_flowinfo` of a `sockaddr_in6`. -/
structure Csockaddr where
  family : UInt16
  port : UInt16
  word : UInt32
  addr : Vector UInt32 4
  scopeId : UInt32
deriving DecidableEq, Repr

/-- `uv_ip4_addr` and `uv_ip6_addr`: what they leave in the structure they are given, and whether
they return 0. When they do, they have set the family. -/
structure UvAddr where
  ip4Addr : List UInt8 → UInt16 → Csockaddr → Csockaddr × Bool
  ip6Addr : List UInt8 → UInt16 → Csockaddr → Csockaddr × Bool
  ip4_family : ∀ ip port raw, (ip4Addr ip port raw).2 = true →
    (ip4Addr ip port raw).1.family = AF_INET
  ip6_family : ∀ ip port raw, (ip6Addr ip port raw).2 = true →
    (ip6Addr ip port raw).1.family = AF_INET6

namespace Csockaddr

/-! ## Members -/

/-- `init()`. -/
def init (self : Csockaddr) : Csockaddr :=
  { self with family := 0 }

/-- `init(raw, size)`. -/
def initRaw (self raw : Csockaddr) (size : ℕ) : Csockaddr × Bool :=
  if size < 8 then (self.init, false)
  else if raw.family = AF_INET then
    ({ self with family := AF_INET, port := raw.port, word := raw.word }, true)
  else if raw.family = AF_INET6 then
    if size < sizeofSockaddrIn6 then (self.init, false)
    else
      ({ self with
          family := AF_INET6, port := raw.port, addr := raw.addr, word := raw.word
          scopeId := raw.scopeId }, true)
  else (self.init, false)

/-- `init(ip, port)`. -/
def initIp (uv : UvAddr) (self : Csockaddr) (ip : List UInt8) (port : UInt16) :
    Csockaddr × Bool :=
  if strchr ip 58 = none then
    let r := uv.ip4Addr ip port self
    if r.2 then (r.1, true) else (r.1.init, false)
  else
    let r := uv.ip6Addr ip port self
    if r.2 then (r.1, true) else (r.1.init, false)

/-- `init(another)`. -/
def initCopy (self another : Csockaddr) : Csockaddr × Bool :=
  if another.family = AF_INET then
    ({ self with family := AF_INET, port := another.port, word := another.word }, true)
  else if another.family = AF_INET6 then
    ({ self with
        family := AF_INET6, port := another.port, addr := another.addr, word := another.word
        scopeId := another.scopeId }, true)
  else (self.init, false)

/-- The loop of `operator<` over the words of two IPv6 addresses, and what follows it. -/
def addrLt : List UInt32 → List UInt32 → Bool → Bool
  | x :: l, y :: m, rest => if x ≠ y then x < y else addrLt l m rest
  | _, _, rest => rest

/-- `operator<`. -/
def operatorLt (a another : Csockaddr) : Bool :=
  if a.family ≠ another.family then a.family < another.family
  else if a.family = AF_INET then
    if a.port ≠ another.port then a.port < another.port
    else a.word < another.word
  else if a.family = AF_INET6 then
    if a.port ≠ another.port then a.port < another.port
    else
      addrLt a.addr.toList another.addr.toList
        (if a.word ≠ another.word then a.word < another.word else a.scopeId < another.scopeId)
  else false

/-- The loop of `operator==` over the words of two IPv6 addresses, and what follows it. -/
def addrEq : List UInt32 → List UInt32 → Bool → Bool
  | x :: l, y :: m, rest => if x ≠ y then false else addrEq l m rest
  | _, _, rest => rest

/-- `operator==`. -/
def operatorEq (a another : Csockaddr) : Bool :=
  if a.family ≠ another.family then false
  else if a.family = AF_INET then
    if a.port ≠ another.port then false else a.word = another.word
  else if a.family = AF_INET6 then
    if a.port ≠ another.port then false
    else
      addrEq a.addr.toList another.addr.toList
        (if a.word ≠ another.word then false else a.scopeId = another.scopeId)
  else true

/-- `(hash << 16) | port`, with a `size_t` of `w` bits. -/
def withPort (w hash : ℕ) (port : UInt16) : ℕ :=
  (hash <<< 16) % 2 ^ w ||| port.toNat

/-- `getHash`, with a `size_t` of `w` bits. -/
def getHash (w : ℕ) (a : Csockaddr) (hash : ℕ) : ℕ :=
  if a.family = AF_INET then
    let hash := (hash + a.word.toNat) % 2 ^ w
    withPort w hash a.port
  else if a.family = AF_INET6 then
    let hash := (hash + a.addr[0].toNat) % 2 ^ w
    let hash := (hash * 0xFFFF + a.addr[1].toNat) % 2 ^ w
    let hash := (hash * 0xFFFF + a.addr[2].toNat) % 2 ^ w
    let hash := (hash * 0xFFFF + a.addr[3].toNat) % 2 ^ w
    withPort w hash a.port
  else (hash + a.family.toNat) % 2 ^ w

/-- `valid`. -/
def valid (a : Csockaddr) : Bool :=
  a.family == AF_INET || a.family == AF_INET6

/-! ## Comparisons -/

/-- The members that `operator<` and `operator==` look at, in their order. -/
def key (a : Csockaddr) : List ℕ :=
  a.family.toNat ::
    if a.family = AF_INET then [a.port.toNat, a.word.toNat]
    else if a.family = AF_INET6 then
      a.port.toNat :: (a.addr.toList.map UInt32.toNat ++ [a.word.toNat, a.scopeId.toNat])
    else []

section Cascade

variable {x y : UInt32} {l m : List UInt32} {rest : Bool} {t u : List ℕ}

theorem cascade_lt_32 (h : x = y → (rest = true ↔ t < u)) :
    (if x ≠ y then decide (x < y) else rest) = true ↔ x.toNat :: t < y.toNat :: u :=
  cascade_lt UInt32.toNat_inj UInt32.lt_iff_toNat_lt.symm h

theorem cascade_lt_16 {x y : UInt16} (h : x = y → (rest = true ↔ t < u)) :
    (if x ≠ y then decide (x < y) else rest) = true ↔ x.toNat :: t < y.toNat :: u :=
  cascade_lt UInt16.toNat_inj UInt16.lt_iff_toNat_lt.symm h

theorem cascade_eq_32 (h : x = y → (rest = true ↔ t = u)) :
    (if x ≠ y then false else rest) = true ↔ x.toNat :: t = y.toNat :: u :=
  cascade_eq UInt32.toNat_inj h

theorem cascade_eq_16 {x y : UInt16} (h : x = y → (rest = true ↔ t = u)) :
    (if x ≠ y then false else rest) = true ↔ x.toNat :: t = y.toNat :: u :=
  cascade_eq UInt16.toNat_inj h

theorem last_lt_32 : decide (x < y) = true ↔ [x.toNat] < [y.toNat] := by
  rw [decide_eq_true_iff, List.cons_lt_cons_iff, UInt32.lt_iff_toNat_lt]
  simp

theorem last_eq_32 : decide (x = y) = true ↔ [x.toNat] = [y.toNat] := by
  rw [decide_eq_true_iff, List.cons.injEq, and_iff_left rfl, UInt32.toNat_inj]

theorem addrLt_iff (hlength : l.length = m.length) (h : rest = true ↔ t < u) :
    addrLt l m rest = true ↔ l.map UInt32.toNat ++ t < m.map UInt32.toNat ++ u := by
  induction l generalizing m with
  | nil =>
    obtain rfl := List.length_eq_zero_iff.mp hlength.symm
    exact h
  | cons x l ih =>
    obtain ⟨y, m, rfl⟩ := List.exists_cons_of_length_eq_add_one hlength.symm
    exact cascade_lt_32 fun _ => ih (Nat.succ.inj hlength)

theorem addrEq_iff (hlength : l.length = m.length) (h : rest = true ↔ t = u) :
    addrEq l m rest = true ↔ l.map UInt32.toNat ++ t = m.map UInt32.toNat ++ u := by
  induction l generalizing m with
  | nil =>
    obtain rfl := List.length_eq_zero_iff.mp hlength.symm
    exact h
  | cons x l ih =>
    obtain ⟨y, m, rfl⟩ := List.exists_cons_of_length_eq_add_one hlength.symm
    exact cascade_eq_32 fun _ => ih (Nat.succ.inj hlength)

end Cascade

/-- **The comparisons compare keys.** -/
theorem byKey : ByKey operatorEq operatorLt key where
  eq_iff a b := by
    refine cascade_eq_16 fun hfamily => ?_
    rw [← hfamily]
    by_cases h4 : a.family = AF_INET
    · rw [if_pos h4, if_pos h4, if_pos h4]
      exact cascade_eq_16 fun _ => last_eq_32
    · rw [if_neg h4, if_neg h4, if_neg h4]
      by_cases h6 : a.family = AF_INET6
      · rw [if_pos h6, if_pos h6, if_pos h6]
        refine cascade_eq_16 fun _ => addrEq_iff (by simp) ?_
        exact cascade_eq_32 fun _ => last_eq_32
      · rw [if_neg h6, if_neg h6, if_neg h6]
        simp
  lt_iff a b := by
    refine cascade_lt_16 fun hfamily => ?_
    rw [← hfamily]
    by_cases h4 : a.family = AF_INET
    · rw [if_pos h4, if_pos h4, if_pos h4]
      exact cascade_lt_16 fun _ => last_lt_32
    · rw [if_neg h4, if_neg h4, if_neg h4]
      by_cases h6 : a.family = AF_INET6
      · rw [if_pos h6, if_pos h6, if_pos h6]
        refine cascade_lt_16 fun _ => addrLt_iff (by simp) ?_
        exact cascade_lt_32 fun _ => last_lt_32
      · rw [if_neg h6, if_neg h6, if_neg h6]
        simp

/-- The families are the same, and so are the members of that family. -/
def SameAddress (a b : Csockaddr) : Prop :=
  a.family = b.family ∧
    (a.family = AF_INET → a.port = b.port ∧ a.word = b.word) ∧
    (a.family = AF_INET6 →
      a.port = b.port ∧ a.addr = b.addr ∧ a.word = b.word ∧ a.scopeId = b.scopeId)

/-- **`operator==`** holds exactly when all that belongs to the address agrees. -/
theorem operatorEq_iff (a b : Csockaddr) : operatorEq a b = true ↔ SameAddress a b := by
  rw [byKey.eq_iff, key, key, List.cons.injEq, UInt16.toNat_inj]
  refine and_congr_right fun hfamily => ?_
  rw [← hfamily]
  by_cases h4 : a.family = AF_INET
  · have h6 : a.family ≠ AF_INET6 := by
      rw [h4]
      decide
    rw [if_pos h4, if_pos h4, forall_prop_of_true h4, forall_prop_of_false h6, and_true]
    simp only [List.cons.injEq, UInt16.toNat_inj, UInt32.toNat_inj, and_true]
  · rw [if_neg h4, if_neg h4, forall_prop_of_false h4, true_and]
    by_cases h6 : a.family = AF_INET6
    · rw [if_pos h6, if_pos h6, forall_prop_of_true h6, List.cons.injEq, UInt16.toNat_inj]
      refine and_congr_right fun _ => ?_
      constructor
      · intro heq
        obtain ⟨hmap, hrest⟩ := List.append_inj heq (by simp)
        have hinjective : Function.Injective UInt32.toNat := fun _ _ => UInt32.toNat_inj.mp
        have haddr := List.map_injective_iff.mpr hinjective hmap
        simp only [List.cons.injEq, UInt32.toNat_inj, and_true] at hrest
        exact ⟨Vector.toList_inj.mp haddr, hrest⟩
      · rintro ⟨haddr, hword, hscope⟩
        rw [haddr, hword, hscope]
    · rw [if_neg h6, if_neg h6, forall_prop_of_false h6]
      simp

/-! ## Values -/

/-- A family that `init` can leave behind. -/
def Wf (a : Csockaddr) : Prop :=
  a.family = 0 ∨ a.family = AF_INET ∨ a.family = AF_INET6

/-- The address that is stored. -/
def toSockaddr (a : Csockaddr) : NetworkPool.Csockaddr :=
  if a.family = AF_INET then .in4 a.port a.word
  else if a.family = AF_INET6 then
    .in6 a.port a.addr[0] a.addr[1] a.addr[2] a.addr[3] a.word a.scopeId
  else .none

theorem vector_eq_iff {u v : Vector UInt32 4} :
    u = v ↔ u[0] = v[0] ∧ u[1] = v[1] ∧ u[2] = v[2] ∧ u[3] = v[3] := by
  constructor
  · rintro rfl
    exact ⟨rfl, rfl, rfl, rfl⟩
  · rintro ⟨h0, h1, h2, h3⟩
    ext i hi
    match i with
    | 0 => rw [h0]
    | 1 => rw [h1]
    | 2 => rw [h2]
    | 3 => rw [h3]

theorem valid_eq (a : Csockaddr) : a.valid = a.toSockaddr.valid := by
  unfold valid toSockaddr
  split_ifs with h4 h6
  · rw [h4]
    rfl
  · rw [h6]
    rfl
  · simp [h4, h6, NetworkPool.Csockaddr.valid]

/-- **Equality of stored addresses is equality of the addresses.** -/
theorem operatorEq_iff_toSockaddr {a b : Csockaddr} (ha : a.Wf) (hb : b.Wf) :
    operatorEq a b = true ↔ a.toSockaddr = b.toSockaddr := by
  have hne : AF_INET ≠ AF_INET6 := by decide
  have h40 : (0 : UInt16) ≠ AF_INET := by decide
  have h60 : (0 : UInt16) ≠ AF_INET6 := by decide
  rw [operatorEq_iff, SameAddress]
  unfold toSockaddr
  rcases ha with ha | ha | ha
  · rcases hb with hb | hb | hb
    · simp [ha, hb, h40, h60]
    · simp [ha, hb, h40, h60]
    · simp [ha, hb, h40, h60, hne.symm]
  · rcases hb with hb | hb | hb
    · simp [ha, hb, h40, h60, hne, h40.symm]
    · simp [ha, hb, hne]
    · simp [ha, hb, hne, hne.symm]
  · rcases hb with hb | hb | hb
    · simp [ha, hb, h40, h60, hne.symm, h60.symm]
    · simp [ha, hb, hne.symm]
    · simp [ha, hb, hne.symm, vector_eq_iff, and_assoc]

/-! ## What `init` leaves behind -/

section Init

variable (self raw another : Csockaddr)

theorem init_wf : self.init.Wf := .inl rfl

theorem initRaw_wf (size : ℕ) : (self.initRaw raw size).1.Wf := by
  unfold initRaw
  split_ifs
  · exact self.init_wf
  · exact .inr (.inl rfl)
  · exact self.init_wf
  · exact .inr (.inr rfl)
  · exact self.init_wf

theorem initIp_wf (uv : UvAddr) (ip : List UInt8) (port : UInt16) :
    (self.initIp uv ip port).1.Wf := by
  unfold initIp
  simp only
  split_ifs with _ hsuccess hsuccess
  · exact .inr (.inl (uv.ip4_family ip port self hsuccess))
  · exact init_wf _
  · exact .inr (.inr (uv.ip6_family ip port self hsuccess))
  · exact init_wf _

theorem initCopy_wf : (self.initCopy another).1.Wf := by
  unfold initCopy
  split_ifs
  · exact .inr (.inl rfl)
  · exact .inr (.inr rfl)
  · exact self.init_wf

/-- A copy is the same address. -/
theorem initCopy_same {another : Csockaddr} (h : another.Wf) :
    SameAddress (self.initCopy another).1 another := by
  have hne : AF_INET ≠ AF_INET6 := by decide
  unfold initCopy
  split_ifs with h4 h6
  · exact ⟨h4.symm, fun _ => ⟨rfl, rfl⟩, fun h6 => absurd h6 hne⟩
  · exact ⟨h6.symm, fun h4 => absurd h4 hne.symm, fun _ => ⟨rfl, rfl, rfl, rfl⟩⟩
  · have hzero : another.family = 0 := h.resolve_right (not_or.mpr ⟨h4, h6⟩)
    refine ⟨hzero.symm, fun h4 => ?_, fun h6 => ?_⟩
    · exact absurd (show (0 : UInt16) = AF_INET from h4) (by decide)
    · exact absurd (show (0 : UInt16) = AF_INET6 from h6) (by decide)

/-- Copies of one address are the same. -/
theorem initCopy_congr (other : Csockaddr) :
    SameAddress (self.initCopy another).1 (other.initCopy another).1 := by
  have hne : AF_INET ≠ AF_INET6 := by decide
  unfold initCopy
  split_ifs
  · exact ⟨rfl, fun _ => ⟨rfl, rfl⟩, fun h6 => absurd h6 hne⟩
  · exact ⟨rfl, fun h4 => absurd h4 hne.symm, fun _ => ⟨rfl, rfl, rfl, rfl⟩⟩
  · refine ⟨rfl, fun h4 => ?_, fun h6 => ?_⟩
    · exact absurd (show (0 : UInt16) = AF_INET from h4) (by decide)
    · exact absurd (show (0 : UInt16) = AF_INET6 from h6) (by decide)

end Init

/-! ## The hash -/

/-- The hash depends on the address only. -/
theorem SameAddress.getHash_eq {a b : Csockaddr} (h : SameAddress a b) (w hash : ℕ) :
    a.getHash w hash = b.getHash w hash := by
  obtain ⟨hfamily, h4, h6⟩ := h
  unfold getHash
  rw [← hfamily]
  split_ifs with hin hin6
  · obtain ⟨hport, hword⟩ := h4 hin
    rw [hport, hword]
  · obtain ⟨hport, haddr, -⟩ := h6 hin6
    rw [hport, haddr]
  · rfl

section Injective

variable {w k x y : ℕ}

/-- The port fills the bits that the shift has cleared. -/
theorem withPort_eq (hw : 16 ≤ w) (hash : ℕ) (port : UInt16) :
    withPort w hash port = hash * 2 ^ 16 % 2 ^ w + port.toNat := by
  have hpow : 2 ^ w = 2 ^ (w - 16) * 2 ^ 16 := by
    rw [← pow_add]
    congr 1
    omega
  have hmod : hash * 2 ^ 16 % 2 ^ w = (hash % 2 ^ (w - 16)) <<< 16 := by
    rw [hpow, Nat.mul_mod_mul_right, Nat.shiftLeft_eq]
  rw [withPort, Nat.shiftLeft_eq, hmod, ← Nat.shiftLeft_add_eq_or_of_lt port.toNat_lt]

theorem mod_modEq_pow (hk : k ≤ w) (n : ℕ) : n % 2 ^ w ≡ n [MOD 2 ^ k] :=
  (Nat.mod_modEq n (2 ^ w)).of_dvd (Nat.pow_dvd_pow 2 hk)

/-- A term that is added can be taken away again. -/
theorem modEq_of_add (hk : k ≤ w) {n : ℕ}
    (h : (x + n) % 2 ^ w ≡ (y + n) % 2 ^ w [MOD 2 ^ k]) : x ≡ y [MOD 2 ^ k] := by
  have hsum : x + n ≡ y + n [MOD 2 ^ k] :=
    (mod_modEq_pow hk _).symm.trans (h.trans (mod_modEq_pow hk _))
  exact Nat.ModEq.add_right_cancel' n hsum

/-- 0xFFFF is odd. -/
theorem modEq_of_mul_add (hk : k ≤ w) {n : ℕ}
    (h : (x * 0xFFFF + n) % 2 ^ w ≡ (y * 0xFFFF + n) % 2 ^ w [MOD 2 ^ k]) :
    x ≡ y [MOD 2 ^ k] := by
  have hodd : Nat.gcd (2 ^ k) 0xFFFF = 1 := Nat.Coprime.pow_left k (by decide)
  exact Nat.ModEq.cancel_right_of_coprime hodd (modEq_of_add hk h)

/-- The shift costs 16 bits. -/
theorem modEq_of_withPort (hk : k ≤ w) (hk16 : 16 ≤ k) {port : UInt16}
    (h : withPort w x port ≡ withPort w y port [MOD 2 ^ k]) : x ≡ y [MOD 2 ^ (k - 16)] := by
  rw [withPort_eq (hk16.trans hk), withPort_eq (hk16.trans hk)] at h
  have hshift : x * 2 ^ 16 ≡ y * 2 ^ 16 [MOD 2 ^ (k - 16) * 2 ^ 16] := by
    rw [← pow_add, Nat.sub_add_cancel hk16]
    exact (mod_modEq_pow hk _).symm.trans
      ((Nat.ModEq.add_right_cancel' _ h).trans (mod_modEq_pow hk _))
  exact Nat.ModEq.mul_right_cancel' (by positivity) hshift

/-- **An address costs 16 bits of the hash it is given**: the lower ones can be told from its
hash. -/
theorem modEq_of_getHash (hk : k ≤ w) (hk16 : 16 ≤ k) {a : Csockaddr}
    (h : a.getHash w x ≡ a.getHash w y [MOD 2 ^ k]) : x ≡ y [MOD 2 ^ (k - 16)] := by
  have hless : k - 16 ≤ w := (Nat.sub_le k 16).trans hk
  unfold getHash at h
  split_ifs at h
  · exact modEq_of_add hless (modEq_of_withPort hk hk16 h)
  · have h3 := modEq_of_mul_add hless (modEq_of_withPort hk hk16 h)
    have h2 := modEq_of_mul_add hless h3
    have h1 := modEq_of_mul_add hless h2
    exact modEq_of_add hless h1
  · exact (modEq_of_add hk h).of_dvd (Nat.pow_dvd_pow 2 (Nat.sub_le k 16))

end Injective

end Csockaddr

end Stored

end NetworkPool
