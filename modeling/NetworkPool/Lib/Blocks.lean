import Mathlib.Logic.Function.Basic
import Mathlib.Data.Nat.Notation

/-!
# Blocks and their owners

Memory as a family of live blocks, and objects that hold pointers into it. `Owned` says that every
pointer is to a live block, that no two objects point to the same one, and that no block is lost;
the rules say what freeing, allocating, writing and moving do to it.
-/

namespace Lib

/-- The live blocks. The next one is put where none is. -/
structure Blocks (β : Type*) where
  block : ℕ → Option β
  next : ℕ
  fresh : ∀ p, next ≤ p → block p = none

namespace Blocks

variable {β ι : Type*} (m : Blocks β) {p q : ℕ} {u v : β}

/-- No blocks. -/
def empty : Blocks β where
  block := fun _ => none
  next := 0
  fresh := fun _ _ => rfl

/-- A new block, at `m.next`. -/
def alloc (v : β) : Blocks β where
  block := Function.update m.block m.next (some v)
  next := m.next + 1
  fresh p hp := by
    rw [Function.update_of_ne (by omega)]
    exact m.fresh p (by omega)

/-- The block at `p` is given back. -/
def free (p : ℕ) : Blocks β where
  block := Function.update m.block p none
  next := m.next
  fresh q hq := by
    by_cases hqp : q = p
    · rw [hqp, Function.update_self]
    · rw [Function.update_of_ne hqp]
      exact m.fresh q hq

/-- The block at `p`, if there is one, is overwritten. -/
def write (p : ℕ) (v : β) : Blocks β where
  block := Function.update m.block p ((m.block p).map fun _ => v)
  next := m.next
  fresh q hq := by
    by_cases hqp : q = p
    · rw [hqp, Function.update_self, ← hqp, m.fresh q hq, Option.map_none]
    · rw [Function.update_of_ne hqp]
      exact m.fresh q hq

variable {m}

theorem lt_next (h : m.block p = some v) : p < m.next := by
  by_contra hle
  rw [m.fresh p (Nat.le_of_not_lt hle)] at h
  exact absurd h (by simp)

@[simp] theorem block_alloc_self : (m.alloc v).block m.next = some v :=
  Function.update_self ..

theorem block_alloc_of_ne (hne : p ≠ m.next) : (m.alloc v).block p = m.block p :=
  Function.update_of_ne hne ..

/-- Live blocks stay. -/
theorem block_alloc (h : m.block p = some u) : (m.alloc v).block p = some u := by
  rw [block_alloc_of_ne (Nat.ne_of_lt (lt_next h))]
  exact h

@[simp] theorem block_free_self : (m.free p).block p = none :=
  Function.update_self ..

theorem block_free (hne : q ≠ p) : (m.free p).block q = m.block q :=
  Function.update_of_ne hne ..

theorem block_write_self (h : m.block p = some u) : (m.write p v).block p = some v := by
  have hself : (m.write p v).block p = (m.block p).map fun _ => v := Function.update_self ..
  rw [hself, h, Option.map_some]

theorem block_write (hne : q ≠ p) : (m.write p v).block q = m.block q :=
  Function.update_of_ne hne ..

/-- A block can be freed before another one is allocated and written. -/
theorem alloc_write_free (hp : p ≠ m.next) :
    ((m.alloc u).write m.next v).free p = ((m.free p).alloc u).write m.next v := by
  have hblock : ((m.alloc u).write m.next v).block =
      Function.update m.block m.next (some v) := by
    funext q
    by_cases hq : q = m.next
    · rw [hq, block_write_self block_alloc_self, Function.update_self]
    · rw [block_write hq, block_alloc_of_ne hq, Function.update_of_ne hq]
  have hfreed : (((m.free p).alloc u).write m.next v).block =
      Function.update (m.free p).block m.next (some v) := by
    funext q
    by_cases hq : q = m.next
    · rw [hq, Function.update_self]
      exact block_write_self block_alloc_self
    · rw [block_write hq, Function.update_of_ne hq]
      exact block_alloc_of_ne hq
  have hall : (((m.alloc u).write m.next v).free p).block =
      (((m.free p).alloc u).write m.next v).block := by
    rw [hfreed]
    show Function.update ((m.alloc u).write m.next v).block p none = _
    rw [hblock]
    exact Function.update_comm (Ne.symm hp) _ _ _
  cases hl : ((m.alloc u).write m.next v).free p with
  | mk block next fresh =>
    cases hr : ((m.free p).alloc u).write m.next v with
    | mk block' next' fresh' =>
      rw [hl, hr] at hall
      have hnext : next = next' :=
        (congrArg Blocks.next hl).symm.trans (congrArg Blocks.next hr)
      simp only at hall
      subst hall hnext
      rfl

/-- Where a block is live after a write there was one before. -/
theorem exists_block_write : (∃ v', (m.write p v).block q = some v') ↔ ∃ v', m.block q = some v' := by
  by_cases hqp : q = p
  · subst hqp
    have hself : (m.write q v).block q = (m.block q).map fun _ => v := Function.update_self ..
    rw [hself]
    cases m.block q with
    | none => simp
    | some u => simp
  · rw [block_write hqp]

/-- The objects hold pointers to different live blocks, and all blocks are held. -/
structure Owned (m : Blocks β) (ptr : ι → Option ℕ) : Prop where
  live : ∀ i p, ptr i = some p → ∃ v, m.block p = some v
  alone : ∀ i j p, ptr i = some p → ptr j = some p → i = j
  kept : ∀ p v, m.block p = some v → ∃ i, ptr i = some p

namespace Owned

variable [DecidableEq ι] {ptr : ι → Option ℕ} {i j : ι}

theorem free (h : Owned m ptr) (hi : ptr i = some p) :
    Owned (m.free p) (Function.update ptr i none) where
  live k q hk := by
    have hki : k ≠ i := by
      rintro rfl
      rw [Function.update_self] at hk
      exact absurd hk (by simp)
    rw [Function.update_of_ne hki] at hk
    have hqp : q ≠ p := by
      rintro rfl
      exact hki (h.alone k i q hk hi)
    rw [block_free hqp]
    exact h.live k q hk
  alone k l q hk hl := by
    have hne : ∀ k, Function.update ptr i none k = some q → ptr k = some q := by
      intro k hk
      by_cases hki : k = i
      · rw [hki, Function.update_self] at hk
        exact absurd hk (by simp)
      · rwa [Function.update_of_ne hki] at hk
    exact h.alone k l q (hne k hk) (hne l hl)
  kept q v hq := by
    have hqp : q ≠ p := by
      rintro rfl
      rw [block_free_self] at hq
      exact absurd hq (by simp)
    rw [block_free hqp] at hq
    obtain ⟨k, hk⟩ := h.kept q v hq
    refine ⟨k, ?_⟩
    rw [Function.update_of_ne]
    · exact hk
    · rintro rfl
      exact hqp (Option.some.inj (hk.symm.trans hi))

theorem alloc (h : Owned m ptr) (hi : ptr i = none) :
    Owned (m.alloc v) (Function.update ptr i (some m.next)) where
  live k q hk := by
    by_cases hki : k = i
    · rw [hki, Function.update_self] at hk
      exact ⟨v, Option.some.inj hk ▸ block_alloc_self⟩
    · rw [Function.update_of_ne hki] at hk
      obtain ⟨u, hu⟩ := h.live k q hk
      exact ⟨u, block_alloc hu⟩
  alone k l q hk hl := by
    -- the new block is none of the old ones
    have hold : ∀ k, ptr k ≠ some m.next := by
      intro k hk
      obtain ⟨u, hu⟩ := h.live k _ hk
      exact absurd (lt_next hu) (Nat.lt_irrefl _)
    by_cases hki : k = i
    · by_cases hli : l = i
      · rw [hki, hli]
      · rw [hki, Function.update_self] at hk
        rw [Function.update_of_ne hli, ← hk] at hl
        exact absurd hl (hold l)
    · rw [Function.update_of_ne hki] at hk
      by_cases hli : l = i
      · rw [hli, Function.update_self] at hl
        rw [← hl] at hk
        exact absurd hk (hold k)
      · rw [Function.update_of_ne hli] at hl
        exact h.alone k l q hk hl
  kept q u hq := by
    by_cases hnew : q = m.next
    · exact ⟨i, by rw [Function.update_self, hnew]⟩
    · rw [block_alloc_of_ne hnew] at hq
      obtain ⟨k, hk⟩ := h.kept q u hq
      refine ⟨k, ?_⟩
      rw [Function.update_of_ne]
      · exact hk
      · rintro rfl
        exact absurd (hi.symm.trans hk) (by simp)

omit [DecidableEq ι] in
theorem write (h : Owned m ptr) : Owned (m.write p v) ptr where
  live i q hi := exists_block_write.mpr (h.live i q hi)
  alone := h.alone
  kept q _ hq := by
    obtain ⟨u, hu⟩ := exists_block_write.mp ⟨_, hq⟩
    exact h.kept q u hu

/-- The pointer of `j` is taken over by `i`. -/
theorem move (h : Owned m ptr) (hi : ptr i = none) :
    Owned m (Function.update (Function.update ptr i (ptr j)) j none) := by
  have hback : ∀ k q, Function.update (Function.update ptr i (ptr j)) j none k = some q →
      k ≠ j ∧ (k = i ∧ ptr j = some q ∨ k ≠ i ∧ ptr k = some q) := by
    intro k q hk
    by_cases hkj : k = j
    · rw [hkj, Function.update_self] at hk
      exact absurd hk (by simp)
    · rw [Function.update_of_ne hkj] at hk
      refine ⟨hkj, ?_⟩
      by_cases hki : k = i
      · rw [hki, Function.update_self] at hk
        exact .inl ⟨hki, hk⟩
      · rw [Function.update_of_ne hki] at hk
        exact .inr ⟨hki, hk⟩
  refine ⟨fun k q hk => ?_, fun k l q hk hl => ?_, fun q v hq => ?_⟩
  · rcases (hback k q hk).2 with ⟨-, hj⟩ | ⟨-, hk⟩
    · exact h.live j q hj
    · exact h.live k q hk
  · obtain ⟨hkj, ⟨hki, hj⟩ | ⟨hki, hold⟩⟩ := hback k q hk
    · obtain ⟨hlj, ⟨hli, -⟩ | ⟨-, hold'⟩⟩ := hback l q hl
      · rw [hki, hli]
      · exact absurd (h.alone l j q hold' hj) hlj
    · obtain ⟨-, ⟨-, hj⟩ | ⟨-, hold'⟩⟩ := hback l q hl
      · exact absurd (h.alone k j q hold hj) hkj
      · exact h.alone k l q hold hold'
  · obtain ⟨k, hk⟩ := h.kept q v hq
    have hki : k ≠ i := by
      rintro rfl
      exact absurd (hi.symm.trans hk) (by simp)
    by_cases hkj : k = j
    · subst hkj
      refine ⟨i, ?_⟩
      rw [Function.update_of_ne hki.symm, Function.update_self, hk]
    · refine ⟨k, ?_⟩
      rw [Function.update_of_ne hkj, Function.update_of_ne hki, hk]

end Owned

end Blocks

end Lib
