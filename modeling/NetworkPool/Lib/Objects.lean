import Mathlib.Logic.Function.Basic
import NetworkPool.Lib.Lts

/-!
# Objects of a class

Named objects of a class with value semantics: they are constructed, copied, moved, assigned and
changed by calls. What the members of the class keep holds of every object after every sequence
of operations whose assignments meet a condition (`ValueClass.all_of_run`).
-/

namespace Lib

/-- The special members of a class, and its calls. `κ` are the arguments of its constructors, `γ`
what memory holds before a constructor runs, `μ` the calls with their arguments. A move leaves its
source as it is. -/
structure ValueClass (α κ γ μ : Type*) where
  construct : κ → α
  copyConstruct : γ → α → α
  moveConstruct : γ → α → α
  copyAssign : α → α → α
  moveAssign : α → α → α
  call : μ → α → α

/-- An operation on the objects `x` and `y`. -/
inductive ObjectOp (κ γ μ : Type*)
  | construct (x : ℕ) (arguments : κ)
  | copyConstruct (x y : ℕ) (garbage : γ)
  | moveConstruct (x y : ℕ) (garbage : γ)
  | copyAssign (x y : ℕ)
  | moveAssign (x y : ℕ)
  | call (x : ℕ) (m : μ)
  | destroy (x : ℕ)

/-- The objects that exist. -/
abbrev Objects (α : Type*) := ℕ → Option α

/-- Every object satisfies `P`. -/
def Objects.All {α : Type*} (P : α → Prop) (s : Objects α) : Prop :=
  ∀ x a, s x = some a → P a

theorem Objects.All.update {α : Type*} {P : α → Prop} {s : Objects α} {x : ℕ} {o : Option α}
    (h : s.All P) (ho : ∀ a, o = some a → P a) : Objects.All P (Function.update s x o) := by
  intro y a hy
  by_cases hyx : y = x
  · rw [hyx, Function.update_self] at hy
    exact ho a hy
  · rw [Function.update_of_ne hyx] at hy
    exact h y a hy

namespace ValueClass

variable {α κ γ μ : Type*} (C : ValueClass α κ γ μ)

/-- What an operation does. -/
def step (s : Objects α) : ObjectOp κ γ μ → Option (Objects α)
  | .construct x c =>
    match s x with
    | none => some (Function.update s x (some (C.construct c)))
    | some _ => none
  | .copyConstruct x y g =>
    match s x, s y with
    | none, some b => some (Function.update s x (some (C.copyConstruct g b)))
    | _, _ => none
  | .moveConstruct x y g =>
    match s x, s y with
    | none, some b => some (Function.update s x (some (C.moveConstruct g b)))
    | _, _ => none
  | .copyAssign x y =>
    match s x, s y with
    | some a, some b => some (Function.update s x (some (C.copyAssign a b)))
    | _, _ => none
  | .moveAssign x y =>
    match s x, s y with
    | some a, some b => some (Function.update s x (some (C.moveAssign a b)))
    | _, _ => none
  | .call x m =>
    match s x with
    | some a => some (Function.update s x (some (C.call m a)))
    | none => none
  | .destroy x =>
    match s x with
    | some _ => some (Function.update s x none)
    | none => none

/-- Sequences of operations. -/
def system : Lts (Objects α) (ObjectOp κ γ μ) where
  init := fun _ => none
  step := C.step

/-- An assignment `a = b` takes place only where `D a b`. -/
def Assigns {κ γ μ : Type*} (D : α → α → Prop) (s : Objects α) (e : ObjectOp κ γ μ) (_ : Objects α) : Prop :=
  ∀ x y a b, e = .copyAssign x y ∨ e = .moveAssign x y → s x = some a → s y = some b → D a b

/-- What the members of the class keep, if assignments meet `D`. -/
structure Keeps (P : α → Prop) (D : α → α → Prop) : Prop where
  construct : ∀ c, P (C.construct c)
  copyConstruct : ∀ g b, P b → P (C.copyConstruct g b)
  moveConstruct : ∀ g b, P b → P (C.moveConstruct g b)
  copyAssign : ∀ a b, P a → P b → D a b → P (C.copyAssign a b)
  moveAssign : ∀ a b, P a → P b → D a b → P (C.moveAssign a b)
  call : ∀ m a, P a → P (C.call m a)

variable {C} {P : α → Prop} {D : α → α → Prop} {s s' : Objects α} {e : ObjectOp κ γ μ}

theorem Keeps.step (h : C.Keeps P D) (hs : s.All P) (hassigns : Assigns D s e s')
    (hstep : C.step s e = some s') : s'.All P := by
  cases e with
  | construct x c =>
    simp only [ValueClass.step] at hstep
    split at hstep
    · rw [← Option.some.inj hstep]
      exact hs.update fun a ha => Option.some.inj ha ▸ h.construct c
    · exact absurd hstep (by simp)
  | copyConstruct x y g =>
    simp only [ValueClass.step] at hstep
    split at hstep
    · next b _ hy =>
      rw [← Option.some.inj hstep]
      exact hs.update fun a ha => Option.some.inj ha ▸ h.copyConstruct g b (hs y b hy)
    · exact absurd hstep (by simp)
  | moveConstruct x y g =>
    simp only [ValueClass.step] at hstep
    split at hstep
    · next b _ hy =>
      rw [← Option.some.inj hstep]
      exact hs.update fun a ha => Option.some.inj ha ▸ h.moveConstruct g b (hs y b hy)
    · exact absurd hstep (by simp)
  | copyAssign x y =>
    simp only [ValueClass.step] at hstep
    split at hstep
    · next a b hx hy =>
      rw [← Option.some.inj hstep]
      have hnew := h.copyAssign a b (hs x a hx) (hs y b hy) (hassigns x y a b (.inl rfl) hx hy)
      exact hs.update fun a ha => Option.some.inj ha ▸ hnew
    · exact absurd hstep (by simp)
  | moveAssign x y =>
    simp only [ValueClass.step] at hstep
    split at hstep
    · next a b hx hy =>
      rw [← Option.some.inj hstep]
      have hnew := h.moveAssign a b (hs x a hx) (hs y b hy) (hassigns x y a b (.inr rfl) hx hy)
      exact hs.update fun a ha => Option.some.inj ha ▸ hnew
    · exact absurd hstep (by simp)
  | call x m =>
    simp only [ValueClass.step] at hstep
    split at hstep
    · next a hx =>
      rw [← Option.some.inj hstep]
      exact hs.update fun a' ha => Option.some.inj ha ▸ h.call m a (hs x a hx)
    · exact absurd hstep (by simp)
  | destroy x =>
    simp only [ValueClass.step] at hstep
    split at hstep
    · rw [← Option.some.inj hstep]
      exact hs.update fun a ha => absurd ha (by simp)
    · exact absurd hstep (by simp)

/-- **What the members keep holds of every object** after every run whose assignments meet `D`. -/
theorem Keeps.all_of_run (h : C.Keeps P D) {es : List (ObjectOp κ γ μ)}
    (hes : C.system.EachStep (Assigns D) es) (hrun : C.system.run es = some s) : s.All P := by
  apply hes.invariant hrun
  · intro x a hx
    exact absurd hx (by simp [system])
  · intro s e s' _ hs hassigns hstep
    exact h.step hs hassigns hstep

/-- Every run, if assignments need no condition. -/
theorem Keeps.all (h : C.Keeps P fun _ _ => True) {es : List (ObjectOp κ γ μ)}
    (hrun : C.system.run es = some s) : s.All P :=
  h.all_of_run (fun _ _ _ _ _ _ _ _ _ _ _ _ _ _ _ => trivial) hrun

theorem step_copyAssign {x y : ℕ} (hstep : C.step s (.copyAssign x y) = some s') :
    ∃ a b, s x = some a ∧ s y = some b ∧ s' = Function.update s x (some (C.copyAssign a b)) := by
  simp only [ValueClass.step] at hstep
  split at hstep
  · next a b hx hy => exact ⟨a, b, hx, hy, (Option.some.inj hstep).symm⟩
  · exact absurd hstep (by simp)

theorem step_moveAssign {x y : ℕ} (hstep : C.step s (.moveAssign x y) = some s') :
    ∃ a b, s x = some a ∧ s y = some b ∧ s' = Function.update s x (some (C.moveAssign a b)) := by
  simp only [ValueClass.step] at hstep
  split at hstep
  · next a b hx hy => exact ⟨a, b, hx, hy, (Option.some.inj hstep).symm⟩
  · exact absurd hstep (by simp)

end ValueClass

end Lib
