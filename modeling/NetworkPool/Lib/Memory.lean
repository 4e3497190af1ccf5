import Mathlib.Data.List.Nodup
import Mathlib.Data.List.Pairwise
import Mathlib.Data.List.Perm.Subperm
import Mathlib.Algebra.Order.Ring.Nat

/-!
# Memory, free lists and holders

Memory is a function from addresses to bytes. A word of `w` bytes at an address is a number. A
list is linked through memory when the word at each of its addresses is the next address, and zero
at the last one (`Linked`); the list is determined by its head, so no address is on it twice.

`Exclusive` says that nothing has two holders; the rules say what taking over and dropping do to
it.
-/

namespace Lib

/-! ## Words -/

/-- Bytes by their addresses. -/
abbrev ByteMemory := ℕ → UInt8

namespace ByteMemory

variable {m m' : ByteMemory} {w p q v : ℕ}

/-- The word of `w` bytes at `p`, the low byte first. -/
def load (m : ByteMemory) : (w p : ℕ) → ℕ
  | 0, _ => 0
  | w + 1, p => (m p).toNat + 256 * load m w (p + 1)

/-- `v` is put into the `w` bytes at `p`. -/
def store (m : ByteMemory) (w p v : ℕ) : ByteMemory := fun a =>
  if p ≤ a ∧ a < p + w then UInt8.ofNat (v / 256 ^ (a - p)) else m a

/-- A word depends on its bytes only. -/
theorem load_congr (h : ∀ i < w, m' (p + i) = m (p + i)) : m'.load w p = m.load w p := by
  induction w generalizing p with
  | zero => rfl
  | succ w ih =>
    have hfirst := h 0 (by omega)
    have hrest : m'.load w (p + 1) = m.load w (p + 1) := by
      apply ih
      intro i hi
      have hnext := h (i + 1) (by omega)
      rwa [Nat.add_comm i 1, ← Nat.add_assoc] at hnext
    rw [Nat.add_zero] at hfirst
    rw [load, load, hfirst, hrest]

/-- A word whose bytes are those of `v`. -/
theorem load_eq (hv : v < 256 ^ w) (h : ∀ i < w, m (p + i) = UInt8.ofNat (v / 256 ^ i)) :
    m.load w p = v := by
  induction w generalizing p v with
  | zero =>
    rw [load]
    omega
  | succ w ih =>
    have hhigh : v / 256 < 256 ^ w := by
      rw [Nat.div_lt_iff_lt_mul (by omega), ← Nat.pow_succ]
      exact hv
    have hrest : m.load w (p + 1) = v / 256 := by
      apply ih hhigh
      intro i hi
      have hnext := h (i + 1) (by omega)
      rw [Nat.div_div_eq_div_mul, ← Nat.pow_succ']
      rwa [Nat.add_comm i 1, ← Nat.add_assoc, Nat.add_comm 1 i] at hnext
    have hfirst := h 0 (by omega)
    rw [Nat.add_zero, Nat.pow_zero, Nat.div_one] at hfirst
    rw [load, hfirst, hrest, UInt8.toNat_ofNat']
    omega

theorem load_store (hv : v < 256 ^ w) : (m.store w p v).load w p = v := by
  apply load_eq hv
  intro i hi
  have hin : p ≤ p + i ∧ p + i < p + w := by omega
  rw [store, if_pos hin, Nat.add_sub_cancel_left]

/-- A store leaves the bytes beside the word alone. -/
theorem store_of_lt_or_le (h : q < p ∨ p + w ≤ q) : m.store w p v q = m q := by
  have hout : ¬(p ≤ q ∧ q < p + w) := by omega
  rw [store, if_neg hout]

theorem load_store_of_apart {w' : ℕ} (h : p + w ≤ q ∨ q + w' ≤ p) :
    (m.store w p v).load w' q = m.load w' q := by
  apply load_congr
  intro i hi
  apply store_of_lt_or_le
  omega

end ByteMemory

/-! ## Blocks -/

/-- Two blocks, each an address and a size, are different and have no byte in common. -/
def Apart (b c : ℕ × ℕ) : Prop :=
  b.1 ≠ c.1 ∧ (b.1 + b.2 ≤ c.1 ∨ c.1 + c.2 ≤ b.1)

instance (b c : ℕ × ℕ) : Decidable (Apart b c) :=
  inferInstanceAs (Decidable (_ ∧ (_ ∨ _)))

instance : Std.Symm Apart where
  symm _ _ h := ⟨h.1.symm, h.2.symm⟩

/-- Blocks at different addresses are apart. -/
theorem apart_of_mem {blocks : List (ℕ × ℕ)} (h : blocks.Pairwise Apart) {b c : ℕ × ℕ}
    (hb : b ∈ blocks) (hc : c ∈ blocks) (hne : b.1 ≠ c.1) : Apart b c :=
  h.forall hb hc fun heq => hne (congrArg Prod.fst heq)

/-- Blocks that are apart do not take up more room than there is. -/
theorem sum_le_of_apart {blocks : List (ℕ × ℕ)} (lo hi : ℕ) (h : blocks.Pairwise Apart)
    (hbounds : ∀ b ∈ blocks, lo ≤ b.1 ∧ b.1 + b.2 ≤ hi) : (blocks.map Prod.snd).sum ≤ hi - lo := by
  have hnodup : (blocks.flatMap fun b => List.range' b.1 b.2).Nodup := by
    rw [List.nodup_flatMap]
    refine ⟨fun b _ => List.nodup_range', h.imp ?_⟩
    intro b c hapart a ha ha'
    rw [List.mem_range'_1] at ha ha'
    have hdisjoint := hapart.2
    omega
  have hsub : (blocks.flatMap fun b => List.range' b.1 b.2) ⊆ List.range' lo (hi - lo) := by
    intro a ha
    obtain ⟨b, hb, hab⟩ := List.mem_flatMap.mp ha
    have hbound := hbounds b hb
    rw [List.mem_range'_1] at hab ⊢
    omega
  have hlength := (List.subperm_of_subset hnodup hsub).length_le
  rw [List.length_flatMap, List.length_range'] at hlength
  have hsizes : blocks.map Prod.snd = blocks.map fun b => (List.range' b.1 b.2).length := by
    apply List.map_congr_left
    intro b _
    rw [List.length_range']
  rw [hsizes]
  exact hlength

/-! ## Linked lists -/

/-- The list `l` is linked through words of `w` bytes from `head` on. -/
inductive Linked (w : ℕ) (m : ByteMemory) : ℕ → List ℕ → Prop
  | nil : Linked w m 0 []
  | cons {p : ℕ} {l : List ℕ} (hp : p ≠ 0) (hrest : Linked w m (m.load w p) l) :
      Linked w m p (p :: l)

namespace Linked

variable {w : ℕ} {m m' : ByteMemory} {p : ℕ} {l l' : List ℕ}

theorem head_eq_zero (h : Linked w m 0 l) : l = [] := by
  cases h with
  | nil => rfl
  | cons hp _ => exact absurd rfl hp

/-- The first element is taken off. -/
theorem pop (h : Linked w m p l) (hp : p ≠ 0) :
    ∃ rest, l = p :: rest ∧ Linked w m (m.load w p) rest := by
  cases h with
  | nil => exact absurd rfl hp
  | cons _ hrest => exact ⟨_, rfl, hrest⟩

/-- Only the words of the list matter. -/
theorem frame (h : Linked w m p l) (hsame : ∀ q ∈ l, m'.load w q = m.load w q) :
    Linked w m' p l := by
  induction h with
  | nil => exact .nil
  | cons hp _ ih =>
    refine .cons hp ?_
    rw [hsame _ (List.mem_cons_self ..)]
    exact ih fun q hq => hsame q (List.mem_cons_of_mem _ hq)

/-- A new first element. -/
theorem push (h : Linked w m' (m'.load w p) l) (hp : p ≠ 0) : Linked w m' p (p :: l) :=
  .cons hp h

/-- The head determines the list. -/
theorem unique (h : Linked w m p l) (h' : Linked w m p l') : l = l' := by
  induction h generalizing l' with
  | nil => exact h'.head_eq_zero.symm
  | cons hp _ ih =>
    obtain ⟨rest, rfl, hrest⟩ := h'.pop hp
    rw [ih hrest]

/-- The list from one of its elements on. -/
theorem drop {a b : List ℕ} {q : ℕ} (h : Linked w m p (a ++ q :: b)) : Linked w m q (q :: b) := by
  induction a generalizing p with
  | nil =>
    cases h with
    | cons hp hrest => exact .cons hp hrest
  | cons r a ih =>
    cases h with
    | cons _ hrest => exact ih hrest

/-- A linked list is acyclic. -/
theorem nodup (h : Linked w m p l) : l.Nodup := by
  induction h with
  | nil => exact List.nodup_nil
  | @cons p l hp hrest ih =>
    rw [List.nodup_cons]
    refine ⟨?_, ih⟩
    intro hmem
    -- from a second occurrence on the list would be shorter than it is
    obtain ⟨a, b, rfl⟩ := List.append_of_mem hmem
    have heq := unique (Linked.cons hp hrest) hrest.drop
    have hlength := congrArg List.length heq
    simp only [List.length_cons, List.length_append] at hlength
    omega

end Linked

/-! ## Holders -/

section Holders

variable {ι α : Type*} {holds holds' : ι → α → Prop} {i : ι} {a : α}

/-- Nothing has two holders. -/
def Exclusive (holds : ι → α → Prop) : Prop :=
  ∀ i j a, holds i a → holds j a → i = j

theorem Exclusive.mono (h : Exclusive holds) (hsub : ∀ i a, holds' i a → holds i a) :
    Exclusive holds' :=
  fun i j a hi hj => h i j a (hsub i a hi) (hsub j a hj)

/-- `i` takes `a`, and everything else stays where it was. -/
theorem Exclusive.take (h : Exclusive holds)
    (htake : ∀ j b, holds' j b → b = a ∧ j = i ∨ b ≠ a ∧ holds j b) : Exclusive holds' := by
  intro j k b hj hk
  rcases htake j b hj with ⟨hb, hji⟩ | ⟨hb, hj⟩
  · rcases htake k b hk with ⟨-, hki⟩ | ⟨hb', -⟩
    · rw [hji, hki]
    · exact absurd hb hb'
  · rcases htake k b hk with ⟨hb', -⟩ | ⟨-, hk⟩
    · exact absurd hb' hb
    · exact h j k b hj hk

end Holders

end Lib
