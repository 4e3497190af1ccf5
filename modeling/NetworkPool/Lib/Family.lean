import Mathlib.Algebra.BigOperators.Group.Finset.Piecewise
import Mathlib.Algebra.BigOperators.Intervals
import Mathlib.Algebra.Group.Basic

/-!
# Totals over a growing family

Objects numbered from 0 on, of which the first `n` exist: `total g f n` adds up what each of them
contributes. The lemmas say how the total changes when one object does, and that a new object
adds its own contribution.
-/

namespace Lib

namespace Family

variable {α M : Type*}

/-- What the first `n` objects of `f` contribute together. -/
def total [AddCommMonoid M] (g : α → M) (f : ℕ → α) (n : ℕ) : M :=
  ∑ i ∈ Finset.range n, g (f i)

section AddCommMonoid

variable [AddCommMonoid M] {g : α → M} {f : ℕ → α} {n i : ℕ} {x : α}

@[simp] theorem total_zero : total g f 0 = 0 := by
  simp [total]

/-- No object contributes. -/
theorem total_eq_zero (h : ∀ i, g (f i) = 0) : total g f n = 0 :=
  Finset.sum_eq_zero fun i _ => h i

/-- An object is replaced by one that contributes as much. -/
theorem total_update_of_eq (h : g x = g (f i)) : total g (Function.update f i x) n = total g f n := by
  refine Finset.sum_congr rfl fun j _ => ?_
  by_cases hj : j = i
  · subst hj
    rw [Function.update_self, h]
  · rw [Function.update_of_ne hj]

/-- The next object. -/
theorem total_new : total g (Function.update f n x) (n + 1) = total g f n + g x := by
  have hold : total g (Function.update f n x) n = total g f n := by
    refine Finset.sum_congr rfl fun j hj => ?_
    rw [Function.update_of_ne (Finset.mem_range.mp hj).ne]
  unfold total at hold ⊢
  rw [Finset.sum_range_succ, hold, Function.update_self]

/-- An object is replaced. -/
theorem total_update (hi : i < n) :
    total g (Function.update f i x) n + g (f i) = total g f n + g x := by
  have hmem : i ∈ Finset.range n := Finset.mem_range.mpr hi
  have hcomp : (fun j => g (Function.update f i x j)) = Function.update (g ∘ f) i (g x) :=
    Function.comp_update g f i x
  have hold : ∑ j ∈ Finset.range n \ {i}, g (f j) + g (f i) = ∑ j ∈ Finset.range n, g (f j) := by
    rw [← Finset.sum_sdiff (Finset.singleton_subset_iff.mpr hmem), Finset.sum_singleton]
  unfold total
  rw [hcomp, Finset.sum_update_of_mem hmem, add_assoc, add_comm (g x)]
  exact congrArg (· + g x) hold

end AddCommMonoid

section Cancel

variable [AddCancelCommMonoid M] {g : α → M} {f : ℕ → α} {n i : ℕ} {x : α} {m : M}

/-- An object is replaced by one that contributes `m` more. -/
theorem total_put (hi : i < n) (h : g x = g (f i) + m) :
    total g (Function.update f i x) n = total g f n + m := by
  have hset := total_update (g := g) (f := f) (x := x) hi
  rw [h, ← add_assoc, add_right_comm] at hset
  exact add_right_cancel hset

/-- An object is replaced by one that contributes `m` less. -/
theorem total_take (hi : i < n) (h : g (f i) = g x + m) :
    total g (Function.update f i x) n + m = total g f n := by
  have hset := total_update (g := g) (f := f) (x := x) hi
  rw [h, add_comm (g x), ← add_assoc] at hset
  exact add_right_cancel hset

end Cancel

end Family

end Lib
