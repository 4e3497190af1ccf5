import Mathlib.Data.List.Basic

/-!
# Incremental machines

A machine that works on input as it arrives: it takes small steps, deterministically, until it is
stuck, and goes on when more input is fed to it. If a step that can be taken can also be taken
after more input has arrived, with the same effect, then what the machine puts out and where it
ends do not depend on how the input was cut into reads (`Reads.unique`).
-/

namespace Lib

/-- A machine with input `β` and output `ω`. `Ok` holds of the states it goes through. -/
structure Incremental (σ β ω : Type*) where
  step : σ → Option (σ × List ω)
  feed : σ → List β → σ
  Ok : σ → Prop
  ok_step : ∀ {s s' o}, Ok s → step s = some (s', o) → Ok s'
  ok_feed : ∀ {s} bs, Ok s → Ok (feed s bs)
  feed_nil : ∀ s, feed s [] = s
  feed_feed : ∀ s a b, feed (feed s a) b = feed s (a ++ b)
  step_feed : ∀ {s s' o} bs, Ok s → step s = some (s', o) →
    step (feed s bs) = some (feed s' bs, o)

namespace Incremental

variable {σ β ω : Type*} (M : Incremental σ β ω)

/-- Small steps, with all they put out. -/
inductive Runs : σ → List ω → σ → Prop
  | refl (s : σ) : Runs s [] s
  | head {s s₁ s' : σ} {o o' : List ω} :
      M.step s = some (s₁, o) → Runs s₁ o' s' → Runs s (o ++ o') s'

/-- Small steps until the machine is stuck. -/
def Halts (s : σ) (o : List ω) (s' : σ) : Prop :=
  M.Runs s o s' ∧ M.step s' = none

/-- Up to `n` small steps. -/
def exec : ℕ → σ → List ω × σ
  | 0, s => ([], s)
  | n + 1, s =>
    match M.step s with
    | none => ([], s)
    | some (s', o) => (o ++ (exec n s').1, (exec n s').2)

/-- Reads one after the other: each segment is fed to the machine, which runs until it is
stuck. -/
inductive Reads : σ → List (List β) → List ω → σ → Prop
  | nil (s : σ) : Reads s [] [] s
  | cons {s s₁ s' : σ} {seg : List β} {segs : List (List β)} {o o' : List ω} :
      M.Halts (M.feed s seg) o s₁ → Reads s₁ segs o' s' → Reads s (seg :: segs) (o ++ o') s'

variable {M} {s s₁ s₂ s' : σ} {o o₁ o₂ o' : List ω}

theorem Runs.single (h : M.step s = some (s', o)) : M.Runs s o s' := by
  have hrun := Runs.head h (.refl s')
  rwa [List.append_nil] at hrun

theorem Runs.trans (h : M.Runs s o s₁) (h' : M.Runs s₁ o' s') : M.Runs s (o ++ o') s' := by
  induction h with
  | refl => exact h'
  | head hstep _ ih =>
    rw [List.append_assoc]
    exact .head hstep (ih h')

/-- **Invariant rule.** What every step keeps, a run keeps. -/
theorem Runs.invariant {I : σ → Prop} (h : M.Runs s o s') (hI : I s)
    (hkeep : ∀ s s' o, I s → M.step s = some (s', o) → I s') : I s' := by
  induction h with
  | refl => exact hI
  | head hstep _ ih => exact ih (hkeep _ _ _ hI hstep)

theorem Runs.ok (h : M.Runs s o s') (hok : M.Ok s) : M.Ok s' :=
  h.invariant hok fun _ _ _ hok hstep => M.ok_step hok hstep

/-- Steps that were taken can be taken after more input has arrived. -/
theorem Runs.feed (h : M.Runs s o s') (hok : M.Ok s) (bs : List β) :
    M.Runs (M.feed s bs) o (M.feed s' bs) := by
  induction h with
  | refl => exact .refl _
  | head hstep _ ih => exact .head (M.step_feed bs hok hstep) (ih (M.ok_step hok hstep))

theorem runs_exec (M : Incremental σ β ω) (n : ℕ) (s : σ) :
    M.Runs s (M.exec n s).1 (M.exec n s).2 := by
  induction n generalizing s with
  | zero => exact .refl s
  | succ n ih =>
    rw [exec]
    split
    · exact .refl s
    · next hstep => exact .head hstep (ih _)

theorem exec_of_stuck (h : M.step s = none) (n : ℕ) : M.exec n s = ([], s) := by
  cases n with
  | zero => rfl
  | succ n => rw [exec, h]

/-- The machine halts in one way. -/
theorem Halts.unique (h₁ : M.Halts s o₁ s₁) (h₂ : M.Halts s o₂ s₂) : o₁ = o₂ ∧ s₁ = s₂ := by
  obtain ⟨hrun, hstuck⟩ := h₁
  induction hrun generalizing o₂ with
  | refl s =>
    cases h₂.1 with
    | refl => exact ⟨rfl, rfl⟩
    | head hstep _ => exact absurd (hstuck.symm.trans hstep) (by simp)
  | head hstep _ ih =>
    cases h₂.1 with
    | refl => exact absurd (h₂.2.symm.trans hstep) (by simp)
    | head hstep' hrest =>
      rw [hstep, Option.some.injEq, Prod.mk.injEq] at hstep'
      obtain ⟨rfl, rfl⟩ := hstep'
      obtain ⟨rfl, rfl⟩ := ih ⟨hrest, h₂.2⟩ hstuck
      exact ⟨rfl, rfl⟩

/-- What is left of a run to the end after its first step. -/
theorem Halts.of_step (h : M.Halts s o s') (hstep : M.step s = some (s₁, o₁)) :
    ∃ o', M.Halts s₁ o' s' := by
  obtain ⟨hrun, hstuck⟩ := h
  cases hrun with
  | refl => exact absurd (hstuck.symm.trans hstep) (by simp)
  | head hstep' hrest =>
    rw [hstep, Option.some.injEq, Prod.mk.injEq] at hstep'
    rw [hstep'.1]
    exact ⟨_, hrest, hstuck⟩

/-- What is left of a run to the end after some steps. -/
theorem Halts.of_prefix (h : M.Halts s o s') (hruns : M.Runs s o₁ s₁) :
    ∃ o', M.Halts s₁ o' s' := by
  induction hruns generalizing o with
  | refl => exact ⟨o, h⟩
  | head hstep _ ih =>
    obtain ⟨o', hrest⟩ := h.of_step hstep
    exact ih hrest

/-- Steps first, then a run to the end. -/
theorem Halts.of_runs (h : M.Runs s o s₁) (h' : M.Halts s₁ o' s') : M.Halts s (o ++ o') s' :=
  ⟨h.trans h'.1, h'.2⟩

/-- **Embedding.** If the steps from images of `φ` are the images of steps, so are the runs. -/
theorem Halts.preimage {φ : σ → σ} {I : σ → Prop} (h : M.Halts (φ s) o s') (hI : I s)
    (hkeep : ∀ s s' o, I s → M.step s = some (s', o) → I s')
    (hφ : ∀ s, I s → M.step (φ s) = (M.step s).map fun r => (φ r.1, r.2)) :
    ∃ s₁, M.Halts s o s₁ ∧ s' = φ s₁ ∧ I s₁ := by
  obtain ⟨hrun, hstuck⟩ := h
  generalize hs : φ s = t at hrun
  induction hrun generalizing s with
  | refl =>
    rw [← hs, hφ s hI, Option.map_eq_none_iff] at hstuck
    exact ⟨s, ⟨.refl s, hstuck⟩, hs.symm, hI⟩
  | head hstep _ ih =>
    rw [← hs, hφ s hI] at hstep
    obtain ⟨⟨s₂, o₂⟩, hstep₂, heq⟩ := Option.map_eq_some_iff.mp hstep
    rw [Prod.mk.injEq] at heq
    obtain ⟨s₁, hhalts, hs', hI₁⟩ := ih (hkeep s s₂ o₂ hI hstep₂) hstuck heq.1
    refine ⟨s₁, ⟨?_, hhalts.2⟩, hs', hI₁⟩
    rw [← heq.2]
    exact .head hstep₂ hhalts.1

/-- Reads from a state in which the machine is stuck amount to one read of all the input. -/
theorem Reads.halts {segs : List (List β)} (h : M.Reads s segs o s') (hok : M.Ok s)
    (hstuck : M.step s = none) : M.Halts (M.feed s segs.flatten) o s' := by
  induction h with
  | nil s =>
    rw [List.flatten_nil, M.feed_nil]
    exact ⟨.refl s, hstuck⟩
  | @cons s s₁ s' seg segs o o' hhalts _ ih =>
    have hok₁ := hhalts.1.ok (M.ok_feed seg hok)
    have hfirst := hhalts.1.feed (M.ok_feed seg hok) segs.flatten
    rw [M.feed_feed] at hfirst
    rw [List.flatten_cons]
    exact .of_runs hfirst (ih hok₁ hhalts.2)

/-- **Independence of the segmentation.** Two ways to cut the same input into reads put out the
same and end in the same state. -/
theorem Reads.unique {segs₁ segs₂ : List (List β)} (h₁ : M.Reads s segs₁ o₁ s₁)
    (h₂ : M.Reads s segs₂ o₂ s₂) (hok : M.Ok s) (hstuck : M.step s = none)
    (hsame : segs₁.flatten = segs₂.flatten) : o₁ = o₂ ∧ s₁ = s₂ := by
  have hhalts₁ := h₁.halts hok hstuck
  rw [hsame] at hhalts₁
  exact hhalts₁.unique (h₂.halts hok hstuck)

end Incremental

end Lib
