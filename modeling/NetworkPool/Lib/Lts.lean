import Mathlib.Data.List.Induction

/-!
# Guarded transition systems

A system is an initial state and a guarded step function: `step s e` is `some s'` when the
event `e` is enabled in `s`. A run is a list of events replayed from the initial state.

Six induction rules are packaged here: an invariant of every reachable state, an invariant
of the runs whose steps all meet a condition, the characterisation of the runs in which a
property never fails by a condition on their steps (`eachState_iff_eachStep`), a bound on the
number of steps of a kind by a measure, progress to a goal by a measure, and the refinement of a
protocol by what the steps put out.
-/

namespace Lib

/-- A transition system: an initial state and a guarded step function. -/
structure Lts (σ ε : Type*) where
  init : σ
  step : σ → ε → Option σ

namespace Lts

variable {σ ε : Type*} (M : Lts σ ε)

/-- Replays `es` from the initial state; `none` if some event is not enabled when it comes. -/
def run (es : List ε) : Option σ :=
  es.foldlM M.step M.init

/-- Replays `es` from the state `s`. -/
def exec (s : σ) (es : List ε) : Option σ :=
  es.foldlM M.step s

/-- The states some run ends in. -/
inductive Reachable : σ → Prop
  | init : Reachable M.init
  | step {s s' : σ} {e : ε} : Reachable s → M.step s e = some s' → Reachable s'

/-- `P` holds of every state the run `es` goes through. -/
def EachState (P : σ → Prop) (es : List ε) : Prop :=
  ∀ pre post s, es = pre ++ post → M.run pre = some s → P s

/-- `P` holds of some state the run `es` goes through. -/
def SomeState (P : σ → Prop) (es : List ε) : Prop :=
  ∃ pre post s, es = pre ++ post ∧ M.run pre = some s ∧ P s

/-- `P` holds of every step the run `es` takes. -/
def EachStep (P : σ → ε → σ → Prop) (es : List ε) : Prop :=
  ∀ pre e post s s', es = pre ++ e :: post → M.run pre = some s → M.step s e = some s' → P s e s'

@[simp] theorem run_nil : M.run [] = some M.init := rfl

theorem run_concat (es : List ε) (e : ε) :
    M.run (es ++ [e]) = (M.run es).bind fun s => M.step s e := by
  simp [run, List.foldlM_append]

variable {M}

theorem run_concat_some {es : List ε} {e : ε} {s s' : σ} (hrun : M.run es = some s)
    (hstep : M.step s e = some s') : M.run (es ++ [e]) = some s' := by
  rw [run_concat, hrun, Option.bind_some, hstep]

/-- The states before and after a step of a run. -/
theorem exists_step_of_run {pre post : List ε} {e : ε} {s' : σ}
    (hrun : M.run (pre ++ e :: post) = some s') :
    ∃ s s₁, M.run pre = some s ∧ M.step s e = some s₁ ∧ M.exec s₁ post = some s' := by
  rw [run, List.foldlM_append] at hrun
  obtain ⟨s, hpre, hrest⟩ := Option.bind_eq_some_iff.mp hrun
  obtain ⟨s₁, hstep, hpost⟩ := Option.bind_eq_some_iff.mp hrest
  exact ⟨s, s₁, hpre, hstep, hpost⟩

/-- The end of a run is reachable. -/
theorem reachable_of_run {es : List ε} {s : σ} (hrun : M.run es = some s) : M.Reachable s := by
  induction es using List.reverseRecOn generalizing s with
  | nil =>
    rw [run_nil, Option.some.injEq] at hrun
    exact hrun ▸ .init
  | append_singleton es e ih =>
    rw [run_concat] at hrun
    obtain ⟨s₁, hs₁, hstep⟩ := Option.bind_eq_some_iff.mp hrun
    exact .step (ih hs₁) hstep

/-- Every reachable state ends a run. -/
theorem Reachable.exists_run {s : σ} (h : M.Reachable s) : ∃ es, M.run es = some s := by
  induction h with
  | init => exact ⟨[], rfl⟩
  | step _ hstep ih =>
    obtain ⟨es, hrun⟩ := ih
    exact ⟨es ++ [_], run_concat_some hrun hstep⟩

/-- **Invariant rule.** What holds initially and is kept by every step from a reachable state
holds of every reachable state. -/
theorem Reachable.invariant {I : σ → Prop} {s : σ} (h : M.Reachable s) (hinit : I M.init)
    (hstep : ∀ s e s', M.Reachable s → I s → M.step s e = some s' → I s') : I s := by
  induction h with
  | init => exact hinit
  | step hr hs ih => exact hstep _ _ _ hr ih hs

/-- **Invariant rule from a state on.** -/
theorem exec_invariant {I : σ → Prop} {s s' : σ} {es : List ε} (hexec : M.exec s es = some s')
    (hr : M.Reachable s) (hI : I s)
    (hstep : ∀ s e s', M.Reachable s → I s → M.step s e = some s' → I s') :
    M.Reachable s' ∧ I s' := by
  induction es generalizing s with
  | nil =>
    obtain rfl : s = s' := Option.some.inj hexec
    exact ⟨hr, hI⟩
  | cons e es ih =>
    obtain ⟨s₁, hs, hrest⟩ := Option.bind_eq_some_iff.mp hexec
    exact ih hrest (.step hr hs) (hstep s e s₁ hr hI hs)

/-- **Budget rule.** If `I` is kept, each `paid` step lowers `f` by one at least, and each `given`
step raises it by at most `k`, then `f` and the `given` steps bound the number of the `paid` steps. -/
theorem exec_budget {I : σ → Prop} {f : σ → ℕ} {paid given : ε → Bool} {k : ℕ} {s s' : σ}
    {es : List ε} (hexec : M.exec s es = some s') (hr : M.Reachable s) (hI : I s)
    (hstep : ∀ s e s', M.Reachable s → I s → M.step s e = some s' →
      I s' ∧ f s' + (paid e).toNat ≤ f s + k * (given e).toNat) :
    M.Reachable s' ∧ I s' ∧ es.countP paid + f s' ≤ f s + k * es.countP given := by
  -- one step more, as it is counted
  have hcons : ∀ (p : ε → Bool) (e : ε) (es : List ε),
      (e :: es).countP p = es.countP p + (p e).toNat := by
    intro p e es
    rw [List.countP_cons]
    cases p e <;> rfl
  induction es generalizing s with
  | nil =>
    obtain rfl : s = s' := Option.some.inj hexec
    exact ⟨hr, hI, by simp⟩
  | cons e es ih =>
    obtain ⟨s₁, hs, hrest⟩ := Option.bind_eq_some_iff.mp hexec
    obtain ⟨hI₁, hpaid⟩ := hstep s e s₁ hr hI hs
    obtain ⟨hr', hI', hcount⟩ := ih hrest (.step hr hs) hI₁
    refine ⟨hr', hI', ?_⟩
    rw [hcons, hcons, Nat.mul_add]
    omega

/-- **Progress rule.** If short of `G` there is always a step that lowers `f` and keeps `I`, then
`G` can be reached. -/
theorem exists_exec_of_progress {I G : σ → Prop} (f : σ → ℕ) {s : σ} (hI : I s)
    (hstep : ∀ s, I s → ¬ G s → ∃ e s', M.step s e = some s' ∧ I s' ∧ f s' < f s) :
    ∃ es s', M.exec s es = some s' ∧ G s' := by
  induction hn : f s using Nat.strongRecOn generalizing s with
  | _ n ih =>
    by_cases hG : G s
    · exact ⟨[], s, rfl, hG⟩
    · obtain ⟨e, s₁, hs, hI₁, hlt⟩ := hstep s hI hG
      obtain ⟨es, s', hexec, hG'⟩ := ih (f s₁) (hn ▸ hlt) hI₁ rfl
      refine ⟨e :: es, s', ?_, hG'⟩
      rw [exec, List.foldlM_cons, hs]
      exact hexec

/-- What holds of a state of the run and is kept by every step holds at its end. -/
theorem SomeState.persists {P : σ → Prop} {es : List ε} {s : σ} (h : M.SomeState P es)
    (hrun : M.run es = some s)
    (hstep : ∀ s e s', M.Reachable s → P s → M.step s e = some s' → P s') : P s := by
  obtain ⟨pre, post, s₀, rfl, hpre, hP⟩ := h
  induction post using List.reverseRecOn generalizing s with
  | nil =>
    rw [List.append_nil, hpre, Option.some.injEq] at hrun
    exact hrun ▸ hP
  | append_singleton post e ih =>
    rw [← List.append_assoc, run_concat] at hrun
    obtain ⟨s₁, hs₁, hs⟩ := Option.bind_eq_some_iff.mp hrun
    exact hstep s₁ e s (reachable_of_run hs₁) (ih hs₁) hs

/-- An extension of a run takes the steps of the run. -/
theorem EachStep.of_append {P : σ → ε → σ → Prop} {es rest : List ε}
    (h : M.EachStep P (es ++ rest)) : M.EachStep P es := by
  intro pre e post s s' hes hrun hstep
  refine h pre e (post ++ rest) s s' ?_ hrun hstep
  rw [hes, List.append_assoc, List.cons_append]

/-- The last step of a run. -/
theorem EachStep.last {P : σ → ε → σ → Prop} {es : List ε} {e : ε} {s s' : σ}
    (h : M.EachStep P (es ++ [e])) (hrun : M.run es = some s) (hstep : M.step s e = some s') :
    P s e s' :=
  h es e [] s s' rfl hrun hstep

/-- A run extended by one step. -/
theorem EachStep.concat {P : σ → ε → σ → Prop} {es : List ε} {e : ε} (h : M.EachStep P es)
    (hlast : ∀ s s', M.run es = some s → M.step s e = some s' → P s e s') :
    M.EachStep P (es ++ [e]) := by
  intro pre e' post s s' heq hrun hstep
  rcases List.eq_nil_or_concat post with rfl | ⟨post, e₁, rfl⟩
  · obtain ⟨rfl, hsingle⟩ := List.append_inj' heq rfl
    obtain rfl : e = e' := by simpa using hsingle
    exact hlast s s' hrun hstep
  · rw [List.concat_eq_append, ← List.cons_append, ← List.append_assoc] at heq
    exact h pre e' post s s' (List.append_inj' heq rfl).1 hrun hstep

/-- **Conditional invariant rule.** What holds initially and is kept by every step that meets
`C` holds at the end of every run whose steps all meet `C`. -/
theorem EachStep.invariant {I : σ → Prop} {C : σ → ε → σ → Prop} {es : List ε} {s : σ}
    (hes : M.EachStep C es) (hrun : M.run es = some s) (hinit : I M.init)
    (hstep : ∀ s e s', M.Reachable s → I s → C s e s' → M.step s e = some s' → I s') : I s := by
  induction es using List.reverseRecOn generalizing s with
  | nil =>
    rw [run_nil, Option.some.injEq] at hrun
    exact hrun ▸ hinit
  | append_singleton es e ih =>
    rw [run_concat] at hrun
    obtain ⟨s₁, hs₁, hs⟩ := Option.bind_eq_some_iff.mp hrun
    exact hstep s₁ e s (reachable_of_run hs₁) (ih hes.of_append hs₁) (hes.last hs₁ hs) hs

/-- **Exact condition for an invariant.** If `I` holds initially, and a step from a reachable
state where `I` holds keeps `I` exactly when it meets `C`, then the runs in which `I` never
fails are exactly those whose steps all meet `C`. -/
theorem eachState_iff_eachStep {I : σ → Prop} {C : σ → ε → σ → Prop} (hinit : I M.init)
    (hstep : ∀ s e s', M.Reachable s → I s → M.step s e = some s' → (I s' ↔ C s e s'))
    (es : List ε) : M.EachState I es ↔ M.EachStep C es := by
  constructor
  · intro h pre e post s s' hes hrun hs
    have hI : I s := h pre (e :: post) s hes hrun
    refine (hstep s e s' (reachable_of_run hrun) hI hs).mp (h (pre ++ [e]) post s' ?_ ?_)
    · rw [hes, List.append_assoc, List.singleton_append]
    · exact run_concat_some hrun hs
  · intro h pre post s hes hrun
    have hpre : M.EachStep C pre := by
      subst hes
      exact h.of_append
    exact hpre.invariant hrun hinit fun s e s' hr hI hC hs => (hstep s e s' hr hI hs).mpr hC

/-- **Exact condition for states and steps.** If an invariant `I` gives `P`, and a step from where
`I` holds meets `C` exactly when it leads to a `P` state by a `Q` step, in which case it keeps `I`,
then the runs that go through `P` states by `Q` steps are exactly those whose steps all meet `C`. -/
theorem eachState_and_eachStep_iff {I P : σ → Prop} {Q C : σ → ε → σ → Prop} (hinit : I M.init)
    (hP : ∀ s, I s → P s)
    (hkeep : ∀ s e s', I s → M.step s e = some s' → C s e s' → I s' ∧ Q s e s')
    (hback : ∀ s e s', I s → M.step s e = some s' → P s' → Q s e s' → C s e s') (es : List ε) :
    M.EachState P es ∧ M.EachStep Q es ↔ M.EachStep C es := by
  constructor
  · rintro ⟨hstates, hsteps⟩
    have hinvariant : ∀ pre post s, es = pre ++ post → M.run pre = some s → I s := by
      intro pre
      induction pre using List.reverseRecOn with
      | nil =>
        intro post s _ hrun
        rw [run_nil, Option.some.injEq] at hrun
        exact hrun ▸ hinit
      | append_singleton pre e ih =>
        intro post s hes hrun
        have hrun' := hrun
        rw [run_concat] at hrun'
        obtain ⟨s₁, hs₁, hs⟩ := Option.bind_eq_some_iff.mp hrun'
        have hsplit : es = pre ++ e :: post := by
          rw [hes, List.append_assoc, List.singleton_append]
        have hI := ih (e :: post) s₁ hsplit hs₁
        have hC := hback s₁ e s hI hs (hstates (pre ++ [e]) post s hes hrun)
          (hsteps pre e post s₁ s hsplit hs₁ hs)
        exact (hkeep s₁ e s hI hs hC).1
    intro pre e post s s' hes hrun hs
    have hP' : P s' := by
      apply hstates (pre ++ [e]) post s' _ (run_concat_some hrun hs)
      rw [hes, List.append_assoc, List.singleton_append]
    exact hback s e s' (hinvariant pre (e :: post) s hes hrun) hs hP'
      (hsteps pre e post s s' hes hrun hs)
  · intro h
    have hinvariant : ∀ pre post s, es = pre ++ post → M.run pre = some s → I s := by
      intro pre post s hes hrun
      subst hes
      exact h.of_append.invariant hrun hinit fun s e s' _ hI hC hs => (hkeep s e s' hI hs hC).1
    refine ⟨fun pre post s hes hrun => hP s (hinvariant pre post s hes hrun), ?_⟩
    intro pre e post s s' hes hrun hs
    exact (hkeep s e s' (hinvariant pre (e :: post) s hes hrun) hs
      (h pre e post s s' hes hrun hs)).2

/-- A property of steps that holds of every step from a reachable state exactly when `C` does
holds of all steps of a run exactly when `C` does. -/
theorem eachStep_congr {P C : σ → ε → σ → Prop}
    (h : ∀ s e s', M.Reachable s → M.step s e = some s' → (P s e s' ↔ C s e s'))
    (es : List ε) : M.EachStep P es ↔ M.EachStep C es := by
  constructor
  · intro hP pre e post s s' hes hrun hs
    exact (h s e s' (reachable_of_run hrun) hs).mp (hP pre e post s s' hes hrun hs)
  · intro hC pre e post s s' hes hrun hs
    exact (h s e s' (reachable_of_run hrun) hs).mpr (hC pre e post s s' hes hrun hs)

/-! ## Checking runs -/

section Check

variable {C : σ → ε → σ → Bool} {s s' : σ} {pre post : List ε} {e : ε}

/-- `C` holds of every step of a run from `s`. -/
def allSteps (M : Lts σ ε) (C : σ → ε → σ → Bool) : σ → List ε → Bool
  | _, [] => true
  | s, e :: es =>
    match M.step s e with
    | some s' => C s e s' && M.allSteps C s' es
    | none => true

theorem of_allSteps {s₀ : σ} (h : M.allSteps C s₀ (pre ++ e :: post) = true)
    (hexec : M.exec s₀ pre = some s) (hstep : M.step s e = some s') : C s e s' = true := by
  induction pre generalizing s₀ with
  | nil =>
    obtain rfl : s₀ = s := Option.some.inj hexec
    rw [List.nil_append, allSteps, hstep, Bool.and_eq_true] at h
    exact h.1
  | cons e' pre ih =>
    obtain ⟨s₁, hs₁, hrest⟩ := Option.bind_eq_some_iff.mp hexec
    rw [List.cons_append, allSteps, hs₁, Bool.and_eq_true] at h
    exact ih h.2 hrest

/-- A run whose steps all pass a test. -/
theorem eachStep_of_allSteps {es : List ε} (h : M.allSteps C M.init es = true) :
    M.EachStep (fun s e s' => C s e s' = true) es := by
  intro pre e post s s' hes hrun hstep
  rw [hes] at h
  exact of_allSteps h hrun hstep

/-- What is kept by the steps that pass a test is kept by a run whose steps all pass it. -/
theorem exec_invariant_of_allSteps {I : σ → Prop} {es : List ε} (hexec : M.exec s es = some s')
    (hes : M.allSteps C s es = true) (hr : M.Reachable s) (hI : I s)
    (hstep : ∀ s e s', M.Reachable s → I s → C s e s' = true → M.step s e = some s' → I s') :
    M.Reachable s' ∧ I s' := by
  induction es generalizing s with
  | nil =>
    obtain rfl : s = s' := Option.some.inj hexec
    exact ⟨hr, hI⟩
  | cons e es ih =>
    obtain ⟨s₁, hs, hrest⟩ := Option.bind_eq_some_iff.mp hexec
    rw [allSteps, hs, Bool.and_eq_true] at hes
    exact ih hrest hes.2 (.step hr hs) (hstep s e s₁ hr hI hes.1 hs)

end Check

/-! ## Refinement -/

section Refinement

variable {τ η : Type*} {N : Lts τ η} {c c' c'' : τ}

theorem exec_cons {e : η} (h : N.step c e = some c') (es : List η) :
    N.exec c (e :: es) = N.exec c' es := by
  rw [exec, List.foldlM_cons, h]
  rfl

theorem exec_append {a b : List η} (h : N.exec c a = some c') (h' : N.exec c' b = some c'') :
    N.exec c (a ++ b) = some c'' := by
  rw [exec] at h h' ⊢
  rw [List.foldlM_append, h]
  exact h'

/-- **Refinement rule.** If what a step of `M` adds to the output can be run by `N` from any
state related to the one before, and leads to a state related to the one after, the output of every
reachable state is a run of `N`. -/
theorem Reachable.refines (out : σ → List η) {R : σ → τ → Prop} {s : σ} (h : M.Reachable s)
    (hout : out M.init = []) (hinit : R M.init N.init)
    (hstep : ∀ s e s' c, M.Reachable s → R s c → M.step s e = some s' →
      ∃ new c', out s' = out s ++ new ∧ N.exec c new = some c' ∧ R s' c') :
    ∃ c, N.run (out s) = some c ∧ R s c := by
  induction h with
  | init =>
    rw [hout]
    exact ⟨N.init, rfl, hinit⟩
  | @step s s' e hr hs ih =>
    obtain ⟨c, hrun, hR⟩ := ih
    obtain ⟨new, c', hnew, hexec, hR'⟩ := hstep s e s' c hr hR hs
    rw [hnew]
    exact ⟨c', exec_append hrun hexec, hR'⟩

end Refinement

/-! ## History variables -/

section Record

variable {η : Type*} {h₀ : η} {note : σ → ε → σ → η → η} {s s' : σ × η} {e : ε}

/-- `M` with a history variable: it starts as `h₀`, and `note` says how a step updates it. -/
def record (M : Lts σ ε) (h₀ : η) (note : σ → ε → σ → η → η) : Lts (σ × η) ε where
  init := (M.init, h₀)
  step := fun s e => (M.step s.1 e).map fun s' => (s', note s.1 e s' s.2)

theorem step_of_record (h : (M.record h₀ note).step s e = some s') :
    M.step s.1 e = some s'.1 ∧ s'.2 = note s.1 e s'.1 s.2 := by
  obtain ⟨s₁, hstep, rfl⟩ := Option.map_eq_some_iff.mp h
  exact ⟨hstep, rfl⟩

/-- The history variable does not change which states are reached. -/
theorem Reachable.of_record (h : (M.record h₀ note).Reachable s) : M.Reachable s.1 := by
  induction h with
  | init => exact .init
  | step _ hstep ih => exact .step ih (step_of_record hstep).1

end Record

end Lts

end Lib
