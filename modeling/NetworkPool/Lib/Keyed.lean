import Mathlib.Data.List.Lex
import Mathlib.Order.Lattice

/-!
# Comparisons by a key

Hand-written comparisons go through their members one after the other. When they amount to
comparing lists of numbers in the order of the dictionary, equality is an equivalence and exactly
one of `a < b`, `a == b` and `b < a` holds (`ByKey.coherent`).
-/

namespace Lib

variable {α τ κ : Type*} [LinearOrder κ]

/-- `eq` and `lt` compare the values of `key`. -/
structure ByKey (eq lt : α → α → Bool) (key : α → κ) : Prop where
  eq_iff : ∀ a b, eq a b = true ↔ key a = key b
  lt_iff : ∀ a b, lt a b = true ↔ key a < key b

/-- `eq` is an equivalence and `lt` a strict order that is total up to `eq`. -/
structure Coherent (eq lt : α → α → Bool) : Prop where
  eq_refl : ∀ a, eq a a = true
  eq_symm : ∀ a b, eq a b = true → eq b a = true
  eq_trans : ∀ a b c, eq a b = true → eq b c = true → eq a c = true
  lt_irrefl : ∀ a, lt a a = false
  lt_trans : ∀ a b c, lt a b = true → lt b c = true → lt a c = true
  exactly_one : ∀ a b,
    lt a b = true ∧ eq a b = false ∧ lt b a = false ∨
      lt a b = false ∧ eq a b = true ∧ lt b a = false ∨
        lt a b = false ∧ eq a b = false ∧ lt b a = true

/-- **Comparisons by a key are coherent.** -/
theorem ByKey.coherent {eq lt : α → α → Bool} {key : α → κ} (h : ByKey eq lt key) :
    Coherent eq lt where
  eq_refl a := (h.eq_iff a a).mpr rfl
  eq_symm a b hab := (h.eq_iff b a).mpr ((h.eq_iff a b).mp hab).symm
  eq_trans a b c hab hbc :=
    (h.eq_iff a c).mpr (((h.eq_iff a b).mp hab).trans ((h.eq_iff b c).mp hbc))
  lt_irrefl a := by
    rw [Bool.eq_false_iff, ne_eq, h.lt_iff]
    exact lt_irrefl _
  lt_trans a b c hab hbc :=
    (h.lt_iff a c).mpr (((h.lt_iff a b).mp hab).trans ((h.lt_iff b c).mp hbc))
  exactly_one a b := by
    simp only [Bool.eq_false_iff, ne_eq, h.eq_iff, h.lt_iff]
    rcases lt_trichotomy (key a) (key b) with hlt | heq | hgt
    · exact .inl ⟨hlt, hlt.ne, hlt.asymm⟩
    · exact .inr (.inl ⟨heq.not_lt, heq, heq.not_gt⟩)
    · exact .inr (.inr ⟨hgt.asymm, hgt.ne', hgt⟩)

section Cascade

variable [DecidableEq τ] [LT τ] [DecidableLT τ] {f : τ → κ} {x y : τ} {l m : List κ} {rest : Bool}

/-- One member of a cascade of `if (x != y) return x < y;`. -/
theorem cascade_lt (hinj : f x = f y ↔ x = y) (hlt : f x < f y ↔ x < y)
    (h : x = y → (rest = true ↔ l < m)) :
    (if x ≠ y then decide (x < y) else rest) = true ↔ f x :: l < f y :: m := by
  rw [List.cons_lt_cons_iff, hlt, hinj]
  by_cases hxy : x = y
  · have hno : ¬x < y := by
      rw [← hlt, hinj.mpr hxy]
      exact lt_irrefl _
    rw [if_neg (not_not.mpr hxy), h hxy, or_iff_right hno, and_iff_right hxy]
  · rw [if_pos hxy, decide_eq_true_iff, or_iff_left fun hand => hxy hand.1]

omit [LT τ] [DecidableLT τ] [LinearOrder κ] in
/-- One member of a cascade of `if (x != y) return false;`. -/
theorem cascade_eq (hinj : f x = f y ↔ x = y) (h : x = y → (rest = true ↔ l = m)) :
    (if x ≠ y then false else rest) = true ↔ f x :: l = f y :: m := by
  rw [List.cons.injEq, hinj]
  by_cases hxy : x = y
  · rw [if_neg (not_not.mpr hxy), h hxy, and_iff_right hxy]
  · rw [if_pos hxy, iff_false_right fun hand => hxy hand.1]
    exact Bool.false_ne_true

end Cascade

end Lib
