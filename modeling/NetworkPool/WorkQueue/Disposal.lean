import NetworkPool.WorkQueue.Queue
import Mathlib.Algebra.Order.BigOperators.Group.Finset
import Mathlib.Algebra.Order.Ring.Nat
import Mathlib.Data.List.Nodup

/-!
# The work queue disposes of every task once

Every entry that was pushed is in one place: not yet taken out of `m_tasks` or visited by the
destructor, held by one thread, or done with. `Accounted` says which calls were made for it in
each of them, and `accounted_step` that no step loses track of an entry. At the end there is one
place left.
-/

namespace NetworkPool.WorkQueue

variable {τ δ : Type*}

/-! ## Calls and places -/

/-- The entry a call is made for. -/
def Call.entry : Call τ δ → Entry τ δ
  | .run entry | .ran entry | .delete entry => entry

/-- The calls made for the entry with the number `k`. -/
def history (k : ℕ) (log : List (Call τ δ)) : List (Call τ δ) :=
  log.filter fun c => c.entry.number = k

/-- The entry a thread has in its local variables, and the calls it has made for it. -/
def Thread.held : Thread τ δ → Option (Entry τ δ × List (Call τ δ))
  | .taken entry => some (entry, [])
  | .running entry => some (entry, [.run entry])
  | .ran entry => some (entry, [.run entry, .ran entry])
  | _ => none

/-- The entries that neither a thread nor the destructor has come to. -/
def State.rest (σ : State τ δ) : List (Entry τ δ) :=
  match σ.owner with
  | .sweeping rest => rest
  | .returned => []
  | _ => σ.queue.tasks

/-- The owner does not wait for threads any more. -/
def Owner.ended : Owner τ δ → Bool
  | .thrown | .sweeping _ | .returned => true
  | _ => false

/-- The owner has called `setExit`. -/
def Owner.exiting : Owner τ δ → Bool
  | .constructing | .alive => false
  | _ => true

theorem history_concat_self {c : Call τ δ} (log : List (Call τ δ)) :
    history c.entry.number (log ++ [c]) = history c.entry.number log ++ [c] := by
  simp [history]

theorem history_concat_of_ne {k : ℕ} {c : Call τ δ} (log : List (Call τ δ))
    (h : c.entry.number ≠ k) : history k (log ++ [c]) = history k log := by
  simp [history, h]

/-! ## The threads -/

/-- What holds of the threads by where the owner stands. -/
structure Shape (σ : State τ δ) : Prop where
  unborn : ∀ i, σ.threads i = .unborn ↔ σ.created ≤ i
  stopped : σ.owner.ended = true → ∀ i < σ.created, (σ.threads i).isExited = true
  exit : σ.owner.exiting = true → σ.queue.exit = true
  awake : σ.queue.exit = true → ∀ i, (σ.threads i).isWaiting = false

variable {σ σ' : State τ δ}

theorem isWaiting_awake (t : Thread τ δ) : t.awake.isWaiting = false := by
  cases t <;> rfl

theorem held_awake (t : Thread τ δ) : t.awake.held = t.held := by
  cases t <;> rfl

theorem awake_eq_unborn {t : Thread τ δ} : t.awake = .unborn ↔ t = .unborn := by
  cases t <;> simp [Thread.awake]

theorem held_of_isWaiting {t : Thread τ δ} (h : t.isWaiting = true) : t.held = none := by
  cases t <;> first | rfl | exact absurd h (by simp [Thread.isWaiting])

/-- Once the owner has joined the threads none of them moves. -/
theorem Shape.thread_eq_none (h : Shape σ) (hended : σ.owner.ended = true) (i : ℕ) :
    σ.thread i = none := by
  by_cases hi : i < σ.created
  · have hexited := h.stopped hended i hi
    cases ht : σ.threads i with
    | exited => simp [State.thread, ht]
    | _ => simp [ht, Thread.isExited] at hexited
  · have hunborn := (h.unborn i).mpr (by omega)
    simp [State.thread, hunborn]

theorem threads_update_eq {i j : ℕ} {t : Thread τ δ} (f : Thread τ δ → Bool) (b : Bool)
    (threads : ℕ → Thread τ δ) (hi : f t = b) (hj : j ≠ i → f (threads j) = b) :
    f (Function.update threads i t j) = b := by
  by_cases h : j = i
  · rw [h, Function.update_self]
    exact hi
  · rw [Function.update_of_ne h]
    exact hj h

/-- One step of a created thread, before the owner has joined it. -/
theorem Shape.update {i : ℕ} {t : Thread τ δ} (h : Shape σ) (hi : i < σ.created)
    (hrunning : σ.owner.ended = false) (hborn : t ≠ .unborn)
    (ht : σ.queue.exit = true → t.isWaiting = false)
    (hthreads : σ'.threads = Function.update σ.threads i t) (hcreated : σ'.created = σ.created)
    (howner : σ'.owner = σ.owner) (hexit : σ'.queue.exit = σ.queue.exit) : Shape σ' := by
  refine ⟨?_, ?_, ?_, ?_⟩
  · intro j
    rw [hthreads, hcreated]
    by_cases hj : j = i
    · rw [hj, Function.update_self]
      exact ⟨fun ht => absurd ht hborn, fun hle => by omega⟩
    · rw [Function.update_of_ne hj]
      exact h.unborn j
  · intro hended
    rw [howner, hrunning] at hended
    exact absurd hended (by simp)
  · rw [howner, hexit]
    exact h.exit
  · intro hexit' j
    rw [hexit] at hexit'
    rw [hthreads]
    exact threads_update_eq _ _ _ (ht hexit') fun _ => h.awake hexit' j

/-- `setExit` wakes all threads up. -/
theorem Shape.setExit (h : Shape σ) {owner : Owner τ δ} (howner : owner.ended = false) :
    Shape { σ with owner := owner }.setExit := by
  refine ⟨?_, ?_, fun _ => rfl, fun _ i => isWaiting_awake _⟩
  · intro i
    exact awake_eq_unborn.trans (h.unborn i)
  · intro hended
    exact absurd (howner.symm.trans hended) (by simp)

/-! ## What a step does -/

/-- The calls for an entry that a thread takes. -/
def Entry.calls (entry : Entry τ δ) : List (Call τ δ) :=
  [.run entry, .ran entry, .delete entry]

/-- What a step does to the entries. -/
inductive Effect (σ σ' : State τ δ) : Prop
  /-- Nothing. -/
  | quiet (htasks : σ'.queue.tasks = σ.queue.tasks) (hpushed : σ'.pushed = σ.pushed)
      (hdequeued : σ'.dequeued = σ.dequeued) (hlog : σ'.log = σ.log) (hrest : σ'.rest = σ.rest)
      (hheld : ∀ i, (σ'.threads i).held = (σ.threads i).held)
  /-- One is pushed. -/
  | push (entry : Entry τ δ) (hnumber : entry.number = σ.pushed.length)
      (htasks : σ'.queue.tasks = σ.queue.tasks ++ [entry])
      (hpushed : σ'.pushed = σ.pushed ++ [entry])
      (hdequeued : σ'.dequeued = σ.dequeued) (hlog : σ'.log = σ.log)
      (hbefore : σ.rest = σ.queue.tasks) (hrest : σ'.rest = σ'.queue.tasks)
      (hheld : ∀ i, (σ'.threads i).held = (σ.threads i).held)
  /-- A thread takes the first one. -/
  | take (i : ℕ) (entry : Entry τ δ) (htasks : σ.queue.tasks = entry :: σ'.queue.tasks)
      (hpushed : σ'.pushed = σ.pushed) (hdequeued : σ'.dequeued = σ.dequeued ++ [entry])
      (hlog : σ'.log = σ.log) (hbefore : σ.rest = σ.queue.tasks) (hrest : σ'.rest = σ'.queue.tasks)
      (hidle : (σ.threads i).held = none)
      (hthreads : σ'.threads = Function.update σ.threads i (.taken entry))
  /-- A thread makes the next call for the one it holds. -/
  | call (i : ℕ) (c : Call τ δ) (l : List (Call τ δ)) (t : Thread τ δ)
      (htasks : σ'.queue.tasks = σ.queue.tasks) (hpushed : σ'.pushed = σ.pushed)
      (hdequeued : σ'.dequeued = σ.dequeued) (hlog : σ'.log = σ.log ++ [c])
      (hrest : σ'.rest = σ.rest) (hholds : (σ.threads i).held = some (c.entry, l))
      (hthreads : σ'.threads = Function.update σ.threads i t)
      (hnext : t.held = some (c.entry, l ++ [c]) ∨ t.held = none ∧ l ++ [c] = c.entry.calls)
  /-- The destructor deletes the next one. -/
  | sweep (entry : Entry τ δ) (htasks : σ'.queue.tasks = σ.queue.tasks)
      (hpushed : σ'.pushed = σ.pushed) (hdequeued : σ'.dequeued = σ.dequeued)
      (hlog : σ'.log = σ.log ++ [.delete entry]) (hrest : σ.rest = entry :: σ'.rest)
      (hthreads : σ'.threads = σ.threads)

theorem held_update {i : ℕ} {t : Thread τ δ} {threads : ℕ → Thread τ δ}
    (h : t.held = (threads i).held) (j : ℕ) :
    (Function.update threads i t j).held = (threads j).held := by
  by_cases hj : j = i
  · rw [hj, Function.update_self, h]
  · rw [Function.update_of_ne hj]

theorem rest_of_running (h : σ.owner.ended = false) : σ.rest = σ.queue.tasks := by
  unfold State.rest
  cases howner : σ.owner with
  | sweeping rest => simp [howner, Owner.ended] at h
  | returned => simp [howner, Owner.ended] at h
  | _ => rfl

/-- A step of `worker`. -/
theorem thread_step {i : ℕ} (hshape : Shape σ) (h : σ.thread i = some σ') :
    Shape σ' ∧ Effect σ σ' := by
  have hrunning : σ.owner.ended = false := by
    by_contra hended
    rw [Bool.not_eq_false] at hended
    rw [hshape.thread_eq_none hended i] at h
    exact absurd h (by simp)
  have hi : i < σ.created := by
    by_contra hge
    rw [State.thread, (hshape.unborn i).mpr (by omega)] at h
    exact absurd h (by simp)
  have hrest := rest_of_running hrunning
  cases ht : σ.threads i with
  | unborn => simp [State.thread, ht] at h
  | waiting => simp [State.thread, ht] at h
  | exited => simp [State.thread, ht] at h
  | locking =>
    have hidle : (σ.threads i).held = none := by rw [ht]; rfl
    simp only [State.thread, ht] at h
    rcases hnext : σ.queue.getNext with ⟨r, q⟩
    rw [hnext] at h
    obtain ⟨rfl, -, rfl⟩ | ⟨rfl, hexit, rfl⟩ | ⟨entry, rfl, hexit, htasks, hexit'⟩ :=
      CworkQueue.getNext_cases hnext
    · obtain rfl := Option.some.inj h
      refine ⟨hshape.update hi hrunning (by simp) (fun _ => rfl) rfl rfl rfl rfl, ?_⟩
      exact .quiet rfl rfl rfl rfl rfl (held_update hidle.symm)
    · obtain rfl := Option.some.inj h
      have hwaiting : σ.queue.exit = true → (Thread.waiting : Thread τ δ).isWaiting = false := by
        intro htrue
        exact absurd (hexit.symm.trans htrue) (by simp)
      refine ⟨hshape.update hi hrunning (by simp) hwaiting rfl rfl rfl rfl, ?_⟩
      exact .quiet rfl rfl rfl rfl rfl (held_update hidle.symm)
    · obtain rfl := Option.some.inj h
      refine ⟨hshape.update hi hrunning (by simp) (fun _ => rfl) rfl rfl rfl
        (hexit'.trans hexit.symm), ?_⟩
      exact .take i entry htasks rfl rfl rfl hrest (rest_of_running hrunning) hidle rfl
  | taken entry =>
    have hholds : (σ.threads i).held = some (entry, []) := by rw [ht]; rfl
    simp only [State.thread, ht, Option.some.injEq] at h
    subst h
    refine ⟨hshape.update hi hrunning (by simp) (fun _ => rfl) rfl rfl rfl rfl, ?_⟩
    exact .call i (.run entry) [] (.running entry) rfl rfl rfl rfl rfl hholds rfl (.inl rfl)
  | running entry =>
    have hholds : (σ.threads i).held = some (entry, [.run entry]) := by rw [ht]; rfl
    simp only [State.thread, ht, Option.some.injEq] at h
    subst h
    refine ⟨hshape.update hi hrunning (by simp) (fun _ => rfl) rfl rfl rfl rfl, ?_⟩
    exact .call i (.ran entry) _ (.ran entry) rfl rfl rfl rfl rfl hholds rfl (.inl rfl)
  | ran entry =>
    have hholds : (σ.threads i).held = some (entry, [.run entry, .ran entry]) := by rw [ht]; rfl
    simp only [State.thread, ht, Option.some.injEq] at h
    subst h
    refine ⟨hshape.update hi hrunning (by simp) (fun _ => rfl) rfl rfl rfl rfl, ?_⟩
    exact .call i (.delete entry) _ .locking rfl rfl rfl rfl rfl hholds rfl (.inr ⟨rfl, rfl⟩)

/-- `notify_one` only wakes a thread up. -/
theorem notifyOne_cases {woken : Option ℕ} (h : σ.notifyOne woken = some σ') :
    σ' = σ ∨ ∃ i, (σ.threads i).isWaiting = true ∧
      σ' = { σ with threads := Function.update σ.threads i .locking } := by
  cases woken with
  | none =>
    simp only [State.notifyOne, Option.ite_none_right_eq_some, Option.some.injEq] at h
    exact .inl h.2.symm
  | some i =>
    simp only [State.notifyOne, Option.ite_none_right_eq_some, Option.some.injEq] at h
    exact .inr ⟨i, h.1, h.2.symm⟩

/-- A thread that waits has been created, and the owner is not through with the threads. -/
theorem Shape.of_isWaiting {i : ℕ} (h : Shape σ) (hi : (σ.threads i).isWaiting = true) :
    i < σ.created ∧ σ.owner.ended = false := by
  have hborn : i < σ.created := by
    by_contra hge
    rw [(h.unborn i).mpr (by omega)] at hi
    exact absurd hi (by simp [Thread.isWaiting])
  refine ⟨hborn, ?_⟩
  by_contra hended
  rw [Bool.not_eq_false] at hended
  have hexited := h.stopped hended i hborn
  cases ht : σ.threads i with
  | exited => simp [ht, Thread.isWaiting] at hi
  | _ => simp [ht, Thread.isExited] at hexited

/-- A waiting thread wakes up. -/
theorem Shape.wake {i : ℕ} (h : Shape σ) (hi : (σ.threads i).isWaiting = true) :
    Shape { σ with threads := Function.update σ.threads i .locking } := by
  obtain ⟨hborn, hrunning⟩ := h.of_isWaiting hi
  exact h.update hborn hrunning (by simp) (fun _ => rfl) rfl rfl rfl rfl

theorem pushTask_step {task : τ} {deleter : δ} {woken : Option ℕ} (hshape : Shape σ)
    (haccepts : σ.owner.accepts = true) (h : (σ.pushTask task deleter).notifyOne woken = some σ') :
    Shape σ' ∧ Effect σ σ' := by
  have hrunning : σ.owner.ended = false := by
    cases howner : σ.owner with
    | alive => rfl
    | joining => rfl
    | _ => simp [howner, Owner.accepts] at haccepts
  have hpushed : Shape (σ.pushTask task deleter) :=
    ⟨hshape.unborn, hshape.stopped, hshape.exit, hshape.awake⟩
  have hrest := rest_of_running hrunning
  rcases notifyOne_cases h with rfl | ⟨i, hi, rfl⟩
  · refine ⟨hpushed, ?_⟩
    exact .push _ rfl rfl rfl rfl rfl hrest (rest_of_running hrunning) fun _ => rfl
  · refine ⟨hpushed.wake hi, ?_⟩
    exact .push _ rfl rfl rfl rfl rfl hrest (rest_of_running hrunning)
      (held_update (held_of_isWaiting hi).symm)

/-- `setExit` by an owner who goes on to join the threads. -/
theorem setExit_effect {owner : Owner τ δ} (hbefore : σ.owner.ended = false)
    (hafter : owner.ended = false) : Effect σ { σ with owner := owner }.setExit := by
  refine .quiet rfl rfl rfl rfl ?_ fun i => held_awake (σ.threads i)
  rw [rest_of_running hbefore]
  exact rest_of_running hafter

/-- Only the owner goes on. -/
theorem owner_effect {owner : Owner τ δ} (hrest : { σ with owner := owner }.rest = σ.rest) :
    Effect σ { σ with owner := owner } :=
  .quiet rfl rfl rfl rfl hrest fun _ => rfl

/-- **What one step does.** -/
theorem step_effect {nThread : ℕ} {e : Event τ δ} (hshape : Shape σ)
    (h : σ.step nThread e = some σ') : Shape σ' ∧ Effect σ σ' := by
  cases e with
  | thread i => exact thread_step hshape h
  | wake i =>
    simp only [State.step, Option.ite_none_right_eq_some, Option.some.injEq] at h
    obtain ⟨hi, rfl⟩ := h
    refine ⟨hshape.wake hi, ?_⟩
    exact .quiet rfl rfl rfl rfl rfl (held_update (held_of_isWaiting hi).symm)
  | pushTask task deleter woken =>
    simp only [State.step, Option.ite_none_right_eq_some] at h
    exact pushTask_step hshape h.1 h.2
  | create =>
    cases howner : σ.owner with
    | constructing =>
      simp only [State.step, howner, Option.ite_none_right_eq_some, Option.some.injEq] at h
      obtain ⟨-, rfl⟩ := h
      have hidle : (σ.threads σ.created).held = none := by
        rw [(hshape.unborn σ.created).mpr (Nat.le_refl _)]
        rfl
      have hrest : { σ with
          threads := Function.update σ.threads σ.created .locking
          created := σ.created + 1
          owner := .constructing }.rest = σ.rest := by
        rw [State.rest, State.rest, howner]
      refine ⟨⟨?_, ?_, ?_, ?_⟩, .quiet rfl rfl rfl rfl hrest (held_update hidle.symm)⟩
      · intro i
        show Function.update σ.threads σ.created .locking i = .unborn ↔ σ.created + 1 ≤ i
        by_cases hi : i = σ.created
        · rw [hi, Function.update_self]
          simp
        · rw [Function.update_of_ne hi, hshape.unborn i]
          omega
      · intro hended
        simp [Owner.ended] at hended
      · intro hexiting
        simp [Owner.exiting] at hexiting
      · intro hexit i
        exact threads_update_eq _ _ _ rfl fun _ => hshape.awake hexit i
    | _ => simp [State.step, howner] at h
  | createFails =>
    cases howner : σ.owner with
    | constructing =>
      simp only [State.step, howner, Option.ite_none_right_eq_some, Option.some.injEq] at h
      obtain ⟨-, rfl⟩ := h
      refine ⟨hshape.setExit rfl, setExit_effect ?_ rfl⟩
      rw [howner]
      rfl
    | _ => simp [State.step, howner] at h
  | constructed =>
    cases howner : σ.owner with
    | constructing =>
      simp only [State.step, howner, Option.ite_none_right_eq_some, Option.some.injEq] at h
      obtain ⟨-, rfl⟩ := h
      refine ⟨⟨hshape.unborn, ?_, ?_, hshape.awake⟩, ?_⟩
      · intro hended
        exact absurd hended (by simp [Owner.ended])
      · intro hexiting
        exact absurd hexiting (by simp [Owner.exiting])
      · apply owner_effect
        rw [State.rest, State.rest, howner]
    | _ => simp [State.step, howner] at h
  | setExit =>
    cases howner : σ.owner with
    | alive =>
      simp only [State.step, howner, Option.some.injEq] at h
      subst h
      refine ⟨hshape.setExit rfl, setExit_effect ?_ rfl⟩
      rw [howner]
      rfl
    | _ => simp [State.step, howner] at h
  | join =>
    cases howner : σ.owner with
    | unwinding =>
      simp only [State.step, howner, Option.ite_none_right_eq_some, Option.some.injEq] at h
      obtain ⟨hjoinable, rfl⟩ := h
      have hexit := hshape.exit (by rw [howner]; rfl)
      refine ⟨⟨hshape.unborn, fun _ => hjoinable, fun _ => hexit, hshape.awake⟩, ?_⟩
      apply owner_effect
      rw [State.rest, State.rest, howner]
    | joining =>
      simp only [State.step, howner, Option.ite_none_right_eq_some, Option.some.injEq] at h
      obtain ⟨hjoinable, rfl⟩ := h
      have hexit := hshape.exit (by rw [howner]; rfl)
      refine ⟨⟨hshape.unborn, fun _ => hjoinable, fun _ => hexit, hshape.awake⟩, ?_⟩
      apply owner_effect
      rw [State.rest, State.rest, howner]
    | _ => simp [State.step, howner] at h
  | sweep =>
    cases howner : σ.owner with
    | sweeping rest =>
      have hexit := hshape.exit (by rw [howner]; rfl)
      have hstopped := hshape.stopped (by rw [howner]; rfl)
      cases rest with
      | nil =>
        simp only [State.step, howner, Option.some.injEq] at h
        subst h
        refine ⟨⟨hshape.unborn, fun _ => hstopped, fun _ => hexit, hshape.awake⟩, ?_⟩
        apply owner_effect
        rw [State.rest, State.rest, howner]
      | cons entry rest =>
        simp only [State.step, howner, Option.some.injEq] at h
        subst h
        refine ⟨⟨hshape.unborn, fun _ => hstopped, fun _ => hexit, hshape.awake⟩, ?_⟩
        have hrest : σ.rest = entry :: rest := by
          rw [State.rest, howner]
        exact .sweep entry rfl rfl rfl rfl hrest rfl
    | _ => simp [State.step, howner] at h

/-- The constructor creates `nThread` threads at most. -/
theorem created_step {nThread : ℕ} {e : Event τ δ} (hle : σ.created ≤ nThread)
    (h : σ.step nThread e = some σ') : σ'.created ≤ nThread := by
  cases e with
  | thread i =>
    simp only [State.step, State.thread] at h
    split at h
    · split at h <;>
      · obtain rfl := Option.some.inj h
        exact hle
    · obtain rfl := Option.some.inj h
      exact hle
    · obtain rfl := Option.some.inj h
      exact hle
    · obtain rfl := Option.some.inj h
      exact hle
    all_goals exact absurd h (by simp)
  | wake i =>
    simp only [State.step, Option.ite_none_right_eq_some, Option.some.injEq] at h
    rw [← h.2]
    exact hle
  | pushTask task deleter woken =>
    simp only [State.step, Option.ite_none_right_eq_some] at h
    rcases notifyOne_cases h.2 with rfl | ⟨i, -, rfl⟩
    · exact hle
    · exact hle
  | create =>
    simp only [State.step] at h
    split at h
    · simp only [Option.ite_none_right_eq_some, Option.some.injEq] at h
      rw [← h.2]
      exact h.1
    · exact absurd h (by simp)
  | createFails | constructed =>
    simp only [State.step] at h
    split at h
    · simp only [Option.ite_none_right_eq_some, Option.some.injEq] at h
      rw [← h.2]
      exact hle
    · exact absurd h (by simp)
  | setExit =>
    simp only [State.step] at h
    split at h
    · rw [← Option.some.inj h]
      exact hle
    · exact absurd h (by simp)
  | join =>
    simp only [State.step] at h
    split at h
    · simp only [Option.ite_none_right_eq_some, Option.some.injEq] at h
      rw [← h.2]
      exact hle
    · simp only [Option.ite_none_right_eq_some, Option.some.injEq] at h
      rw [← h.2]
      exact hle
    · exact absurd h (by simp)
  | sweep =>
    simp only [State.step] at h
    split at h
    · rw [← Option.some.inj h]
      exact hle
    · rw [← Option.some.inj h]
      exact hle
    · exact absurd h (by simp)

/-- A thread that comes to hold nothing, or its next entry, is not in `task->run()`. -/
theorem running_update {i j : ℕ} {t : Thread τ δ} {threads : ℕ → Thread τ δ} {entry : Entry τ δ}
    (hbefore : ∀ entry, threads i ≠ .running entry) (hafter : ∀ entry, t ≠ .running entry) :
    Function.update threads i t j = .running entry ↔ threads j = .running entry := by
  by_cases hj : j = i
  · rw [hj, Function.update_self]
    exact ⟨fun h => absurd h (hafter entry), fun h => absurd h (hbefore entry)⟩
  · rw [Function.update_of_ne hj]

theorem awake_eq_running {t : Thread τ δ} {entry : Entry τ δ} :
    t.awake = .running entry ↔ t = .running entry := by
  cases t <;> simp [Thread.awake]

/-- What a step leaves alone that is no call. -/
structure Same (σ σ' : State τ δ) : Prop where
  log : σ'.log = σ.log
  pushed : σ'.pushed = σ.pushed
  running : ∀ i entry, σ'.threads i = .running entry ↔ σ.threads i = .running entry

theorem same_of_waiting (σ : State τ δ) {i : ℕ} (h : (σ.threads i).isWaiting = true) :
    Same σ { σ with threads := Function.update σ.threads i .locking } := by
  refine ⟨rfl, rfl, fun j entry => running_update ?_ (by simp)⟩
  intro entry' ht
  rw [ht] at h
  exact absurd h (by simp [Thread.isWaiting])

/-- What is recorded of a push. -/
theorem pushTask_records {nThread : ℕ} {task : τ} {deleter : δ} {woken : Option ℕ}
    (h : σ.step nThread (.pushTask task deleter woken) = some σ') :
    ∃ entry : Entry τ δ, entry.task = task ∧ σ'.pushed = σ.pushed ++ [entry] ∧ σ'.log = σ.log ∧
      ∀ i entry', σ'.threads i = .running entry' ↔ σ.threads i = .running entry' := by
  simp only [State.step, Option.ite_none_right_eq_some] at h
  rcases notifyOne_cases h.2 with rfl | ⟨i, hi, rfl⟩
  · exact ⟨_, rfl, rfl, rfl, fun _ _ => Iff.rfl⟩
  · exact ⟨_, rfl, rfl, rfl, (same_of_waiting (σ.pushTask task deleter) hi).running⟩

/-- A push leaves alone what the threads hold. -/
theorem pushTask_held {nThread : ℕ} {task : τ} {deleter : δ} {woken : Option ℕ}
    (h : σ.step nThread (.pushTask task deleter woken) = some σ') :
    (∀ i, (σ'.threads i).held = (σ.threads i).held) ∧ σ'.dequeued = σ.dequeued := by
  simp only [State.step, Option.ite_none_right_eq_some] at h
  rcases notifyOne_cases h.2 with rfl | ⟨i, hi, rfl⟩
  · exact ⟨fun _ => rfl, rfl⟩
  · exact ⟨held_update (held_of_isWaiting hi).symm, rfl⟩

/-- In `getNext` no call is made. -/
theorem same_of_locking {i : ℕ} (ht : σ.threads i = .locking) (h : σ.thread i = some σ') :
    Same σ σ' := by
  have hbefore : ∀ entry, σ.threads i ≠ .running entry := by simp [ht]
  simp only [State.thread, ht] at h
  split at h <;>
  · obtain rfl := Option.some.inj h
    exact ⟨rfl, rfl, fun j entry => running_update hbefore (by simp)⟩

/-- The steps of the owner make no call, the last loop apart. -/
theorem same_of_owner {nThread : ℕ} {e : Event τ δ} (h : σ.step nThread e = some σ')
    (hshape : Shape σ) (hpush : ∀ task deleter woken, e ≠ .pushTask task deleter woken)
    (hthread : ∀ i, e ≠ .thread i)
    (hsweep : e = .sweep → ∀ entry rest, σ.owner ≠ .sweeping (entry :: rest)) : Same σ σ' := by
  cases e with
  | thread i => exact absurd rfl (hthread i)
  | pushTask task deleter woken => exact absurd rfl (hpush task deleter woken)
  | wake i =>
    simp only [State.step, Option.ite_none_right_eq_some, Option.some.injEq] at h
    obtain ⟨hi, rfl⟩ := h
    exact same_of_waiting σ hi
  | create =>
    simp only [State.step] at h
    split at h
    · simp only [Option.ite_none_right_eq_some, Option.some.injEq] at h
      obtain ⟨-, rfl⟩ := h
      refine ⟨rfl, rfl, fun j entry => running_update ?_ (by simp)⟩
      rw [(hshape.unborn σ.created).mpr (Nat.le_refl _)]
      simp
    · exact absurd h (by simp)
  | createFails =>
    simp only [State.step] at h
    split at h
    · simp only [Option.ite_none_right_eq_some, Option.some.injEq] at h
      obtain ⟨-, rfl⟩ := h
      exact ⟨rfl, rfl, fun _ _ => awake_eq_running⟩
    · exact absurd h (by simp)
  | constructed =>
    simp only [State.step] at h
    split at h
    · simp only [Option.ite_none_right_eq_some, Option.some.injEq] at h
      obtain ⟨-, rfl⟩ := h
      exact ⟨rfl, rfl, fun _ _ => Iff.rfl⟩
    · exact absurd h (by simp)
  | setExit =>
    simp only [State.step] at h
    split at h
    · obtain rfl := Option.some.inj h
      exact ⟨rfl, rfl, fun _ _ => awake_eq_running⟩
    · exact absurd h (by simp)
  | join =>
    simp only [State.step] at h
    split at h
    · simp only [Option.ite_none_right_eq_some, Option.some.injEq] at h
      obtain ⟨-, rfl⟩ := h
      exact ⟨rfl, rfl, fun _ _ => Iff.rfl⟩
    · simp only [Option.ite_none_right_eq_some, Option.some.injEq] at h
      obtain ⟨-, rfl⟩ := h
      exact ⟨rfl, rfl, fun _ _ => Iff.rfl⟩
    · exact absurd h (by simp)
  | sweep =>
    simp only [State.step] at h
    split at h
    · obtain rfl := Option.some.inj h
      exact ⟨rfl, rfl, fun _ _ => Iff.rfl⟩
    · rename_i entry rest howner
      exact absurd howner (hsweep rfl entry rest)
    · exact absurd h (by simp)

/-! ## Every entry is accounted for -/

/-- Where the entries are, and the calls made for them there. -/
structure Accounted (σ : State τ δ) : Prop where
  order : σ.dequeued ++ σ.queue.tasks = σ.pushed
  numbers : σ.pushed.map Entry.number = List.range σ.pushed.length
  logged : ∀ c ∈ σ.log, c.entry ∈ σ.pushed
  rest : σ.rest <:+ σ.queue.tasks
  untouched : ∀ entry ∈ σ.rest, history entry.number σ.log = []
  swept : ∀ entry ∈ σ.queue.tasks, entry ∉ σ.rest →
    history entry.number σ.log = [.delete entry]
  held : ∀ i entry l, (σ.threads i).held = some (entry, l) →
    entry ∈ σ.dequeued ∧ history entry.number σ.log = l
  apart : ∀ i j entry l l', (σ.threads i).held = some (entry, l) →
    (σ.threads j).held = some (entry, l') → i = j
  done : ∀ entry ∈ σ.dequeued, (∀ i l, (σ.threads i).held ≠ some (entry, l)) →
    history entry.number σ.log = entry.calls

theorem accounted_init : Accounted ({} : State τ δ) := by
  refine ⟨rfl, rfl, ?_, List.suffix_refl [], ?_, ?_, ?_, ?_, ?_⟩
  · simp
  · exact fun _ _ => rfl
  · simp
  · simp [Thread.held]
  · simp [Thread.held]
  · simp

theorem Accounted.nodup (h : Accounted σ) : (σ.dequeued ++ σ.queue.tasks).Nodup := by
  rw [h.order]
  apply List.Nodup.of_map Entry.number
  rw [h.numbers]
  exact List.nodup_range

/-- The number tells the entries apart. -/
theorem Accounted.eq_of_number (h : Accounted σ) {entry entry' : Entry τ δ}
    (hmem : entry ∈ σ.pushed) (hmem' : entry' ∈ σ.pushed)
    (hnumber : entry.number = entry'.number) : entry = entry' := by
  have hnodup : (σ.pushed.map Entry.number).Nodup := h.numbers ▸ List.nodup_range
  exact List.inj_on_of_nodup_map hnodup hmem hmem' hnumber

theorem Accounted.number_lt (h : Accounted σ) {entry : Entry τ δ} (hmem : entry ∈ σ.pushed) :
    entry.number < σ.pushed.length := by
  have hrange := List.mem_map_of_mem (f := Entry.number) hmem
  rw [h.numbers, List.mem_range] at hrange
  exact hrange

/-- A call for an entry is in its history. -/
theorem mem_history {c : Call τ δ} {log : List (Call τ δ)} (h : c ∈ log) :
    c ∈ history c.entry.number log := by
  simp [history, h]

/-- The deleter has not been called for what a thread holds. -/
theorem Accounted.not_deleted_of_held (h : Accounted σ) {i : ℕ} {entry : Entry τ δ}
    {l : List (Call τ δ)} (hi : (σ.threads i).held = some (entry, l)) : .delete entry ∉ σ.log := by
  intro hmem
  have hin := mem_history hmem
  rw [Call.entry, (h.held i entry l hi).2] at hin
  cases ht : σ.threads i with
  | taken _ | running _ | ran _ =>
    simp only [ht, Thread.held, Option.some.injEq, Prod.mk.injEq] at hi
    rw [← hi.2] at hin
    simp at hin
  | _ => simp [ht, Thread.held] at hi

/-- Nor for what nobody has come to. -/
theorem Accounted.not_deleted_of_rest (h : Accounted σ) {entry : Entry τ δ}
    (hrest : entry ∈ σ.rest) : .delete entry ∉ σ.log := by
  intro hmem
  have hin := mem_history hmem
  rw [Call.entry, h.untouched entry hrest] at hin
  simp at hin

/-- A thread in `run` has called it. -/
theorem Accounted.run_mem (h : Accounted σ) {i : ℕ} {entry : Entry τ δ}
    (hi : σ.threads i = .running entry) : .run entry ∈ σ.log := by
  have hheld := (h.held i entry [.run entry] (by rw [hi]; rfl)).2
  have hin : Call.run entry ∈ history entry.number σ.log := by
    rw [hheld]
    simp
  exact (List.mem_filter.mp hin).1

/-- A call for one entry is none for another. -/
theorem Accounted.history_other (h : Accounted σ) {entry : Entry τ δ} {c : Call τ δ}
    (hmem : entry ∈ σ.pushed) (hc : c.entry ∈ σ.pushed) (hne : entry ≠ c.entry) :
    history entry.number (σ.log ++ [c]) = history entry.number σ.log := by
  apply history_concat_of_ne
  intro hnumber
  exact hne (h.eq_of_number hmem hc hnumber.symm)

theorem Accounted.mem_of_dequeued (h : Accounted σ) {entry : Entry τ δ}
    (hmem : entry ∈ σ.dequeued) : entry ∈ σ.pushed :=
  h.order ▸ List.mem_append_left _ hmem

theorem Accounted.mem_of_tasks (h : Accounted σ) {entry : Entry τ δ}
    (hmem : entry ∈ σ.queue.tasks) : entry ∈ σ.pushed :=
  h.order ▸ List.mem_append_right _ hmem

/-- What was taken out of `m_tasks` is not in it. -/
theorem Accounted.not_mem_tasks (h : Accounted σ) {entry : Entry τ δ}
    (hmem : entry ∈ σ.dequeued) : entry ∉ σ.queue.tasks :=
  fun htasks => List.disjoint_of_nodup_append h.nodup hmem htasks

theorem accounted_quiet (h : Accounted σ) (htasks : σ'.queue.tasks = σ.queue.tasks)
    (hpushed : σ'.pushed = σ.pushed) (hdequeued : σ'.dequeued = σ.dequeued)
    (hlog : σ'.log = σ.log) (hrest : σ'.rest = σ.rest)
    (hheld : ∀ i, (σ'.threads i).held = (σ.threads i).held) : Accounted σ' := by
  refine ⟨?_, ?_, ?_, ?_, ?_, ?_, ?_, ?_, ?_⟩
  · rw [htasks, hpushed, hdequeued]
    exact h.order
  · rw [hpushed]
    exact h.numbers
  · rw [hlog, hpushed]
    exact h.logged
  · rw [hrest, htasks]
    exact h.rest
  · rw [hrest, hlog]
    exact h.untouched
  · rw [hrest, htasks, hlog]
    exact h.swept
  · intro i entry l hi
    rw [hheld] at hi
    rw [hdequeued, hlog]
    exact h.held i entry l hi
  · intro i j entry l l' hi hj
    rw [hheld] at hi hj
    exact h.apart i j entry l l' hi hj
  · intro entry hmem hnone
    rw [hdequeued] at hmem
    rw [hlog]
    apply h.done entry hmem
    intro i l hi
    exact hnone i l ((hheld i).trans hi)

theorem accounted_push (h : Accounted σ) {entry : Entry τ δ}
    (hnumber : entry.number = σ.pushed.length)
    (htasks : σ'.queue.tasks = σ.queue.tasks ++ [entry]) (hpushed : σ'.pushed = σ.pushed ++ [entry])
    (hdequeued : σ'.dequeued = σ.dequeued) (hlog : σ'.log = σ.log)
    (hbefore : σ.rest = σ.queue.tasks) (hrest : σ'.rest = σ'.queue.tasks)
    (hheld : ∀ i, (σ'.threads i).held = (σ.threads i).held) : Accounted σ' := by
  refine ⟨?_, ?_, ?_, ?_, ?_, ?_, ?_, ?_, ?_⟩
  · rw [htasks, hpushed, hdequeued, ← h.order, List.append_assoc]
  · rw [hpushed, List.map_append, h.numbers, List.length_append, List.length_singleton,
      List.range_succ, List.map_singleton, hnumber]
  · intro c hc
    rw [hlog] at hc
    rw [hpushed]
    exact List.mem_append_left _ (h.logged c hc)
  · exact hrest ▸ List.suffix_refl _
  · intro entry' hmem
    rw [hrest, htasks, List.mem_append, List.mem_singleton] at hmem
    rw [hlog]
    rcases hmem with hmem | rfl
    · exact h.untouched entry' (hbefore ▸ hmem)
    · -- no call is logged for a number that has not been given out
      rw [history, List.filter_eq_nil_iff]
      intro c hc
      have hlt := h.number_lt (h.logged c hc)
      simp only [decide_eq_true_eq]
      omega
  · intro entry' hmem hout
    exact absurd (hrest ▸ hmem) hout
  · intro i entry' l hi
    rw [hheld] at hi
    rw [hdequeued, hlog]
    exact h.held i entry' l hi
  · intro i j entry' l l' hi hj
    rw [hheld] at hi hj
    exact h.apart i j entry' l l' hi hj
  · intro entry' hmem hnone
    rw [hdequeued] at hmem
    rw [hlog]
    apply h.done entry' hmem
    intro i l hi
    exact hnone i l ((hheld i).trans hi)

theorem accounted_take (h : Accounted σ) {i : ℕ} {entry : Entry τ δ}
    (htasks : σ.queue.tasks = entry :: σ'.queue.tasks)
    (hpushed : σ'.pushed = σ.pushed) (hdequeued : σ'.dequeued = σ.dequeued ++ [entry])
    (hlog : σ'.log = σ.log) (hbefore : σ.rest = σ.queue.tasks) (hrest : σ'.rest = σ'.queue.tasks)
    (hidle : (σ.threads i).held = none)
    (hthreads : σ'.threads = Function.update σ.threads i (.taken entry)) : Accounted σ' := by
  have hfront : entry ∈ σ.queue.tasks := by simp [htasks]
  have hself : (σ'.threads i).held = some (entry, []) := by
    rw [hthreads, Function.update_self]
    rfl
  have hother : ∀ j, j ≠ i → σ'.threads j = σ.threads j := by
    intro j hj
    rw [hthreads, Function.update_of_ne hj]
  -- no thread can hold what is still in `m_tasks`
  have hfree : ∀ j l, (σ.threads j).held ≠ some (entry, l) := by
    intro j l hj
    exact h.not_mem_tasks (h.held j entry l hj).1 hfront
  refine ⟨?_, ?_, ?_, ?_, ?_, ?_, ?_, ?_, ?_⟩
  · rw [hdequeued, hpushed, ← h.order, htasks, List.append_assoc, List.singleton_append]
  · rw [hpushed]
    exact h.numbers
  · rw [hlog, hpushed]
    exact h.logged
  · exact hrest ▸ List.suffix_refl _
  · intro entry' hmem
    rw [hlog]
    apply h.untouched
    rw [hbefore, htasks]
    exact List.mem_cons_of_mem _ (hrest ▸ hmem)
  · intro entry' hmem hout
    exact absurd (hrest ▸ hmem) hout
  · intro j entry' l hj
    rw [hlog, hdequeued]
    by_cases hji : j = i
    · rw [hji, hself, Option.some.injEq, Prod.mk.injEq] at hj
      obtain ⟨rfl, rfl⟩ := hj
      exact ⟨by simp, h.untouched entry (hbefore ▸ hfront)⟩
    · rw [hother j hji] at hj
      exact ⟨List.mem_append_left _ (h.held j entry' l hj).1, (h.held j entry' l hj).2⟩
  · intro j k entry' l l' hj hk
    by_cases hji : j = i
    · by_cases hki : k = i
      · rw [hji, hki]
      · rw [hji, hself, Option.some.injEq, Prod.mk.injEq] at hj
        rw [hother k hki, ← hj.1] at hk
        exact absurd hk (hfree k l')
    · rw [hother j hji] at hj
      by_cases hki : k = i
      · rw [hki, hself, Option.some.injEq, Prod.mk.injEq] at hk
        rw [← hk.1] at hj
        exact absurd hj (hfree j l)
      · rw [hother k hki] at hk
        exact h.apart j k entry' l l' hj hk
  · intro entry' hmem hnone
    rw [hlog]
    rw [hdequeued, List.mem_append, List.mem_singleton] at hmem
    rcases hmem with hmem | rfl
    · apply h.done entry' hmem
      intro j l hj
      by_cases hji : j = i
      · rw [hji, hidle] at hj
        exact absurd hj (by simp)
      · exact hnone j l (by rw [hother j hji, hj])
    · exact absurd hself (hnone i [])

theorem accounted_call (h : Accounted σ) {i : ℕ} {c : Call τ δ} {l : List (Call τ δ)}
    {t : Thread τ δ} (htasks : σ'.queue.tasks = σ.queue.tasks) (hpushed : σ'.pushed = σ.pushed)
    (hdequeued : σ'.dequeued = σ.dequeued) (hlog : σ'.log = σ.log ++ [c])
    (hrest : σ'.rest = σ.rest) (hholds : (σ.threads i).held = some (c.entry, l))
    (hthreads : σ'.threads = Function.update σ.threads i t)
    (hnext : t.held = some (c.entry, l ++ [c]) ∨ t.held = none ∧ l ++ [c] = c.entry.calls) :
    Accounted σ' := by
  obtain ⟨hmem, hhistory⟩ := h.held i c.entry l hholds
  have hpush := h.mem_of_dequeued hmem
  have hself : history c.entry.number σ'.log = l ++ [c] := by
    rw [hlog, history_concat_self, hhistory]
  have hsame : ∀ entry ∈ σ.pushed, entry ≠ c.entry →
      history entry.number σ'.log = history entry.number σ.log := by
    intro entry hin hne
    rw [hlog, h.history_other hin hpush hne]
  -- what another thread holds is another entry
  have hother : ∀ j entry l', j ≠ i → (σ'.threads j).held = some (entry, l') →
      (σ.threads j).held = some (entry, l') ∧ entry ≠ c.entry := by
    intro j entry l' hji hj
    rw [hthreads, Function.update_of_ne hji] at hj
    refine ⟨hj, ?_⟩
    rintro rfl
    exact hji (h.apart j i c.entry l' l hj hholds)
  have hat : ∀ entry l', (σ'.threads i).held = some (entry, l') →
      entry = c.entry ∧ l' = l ++ [c] := by
    intro entry l' hi
    rw [hthreads, Function.update_self] at hi
    rcases hnext with hnext | ⟨hnext, -⟩
    · rw [hnext, Option.some.injEq, Prod.mk.injEq] at hi
      exact ⟨hi.1.symm, hi.2.symm⟩
    · rw [hnext] at hi
      exact absurd hi (by simp)
  refine ⟨?_, ?_, ?_, ?_, ?_, ?_, ?_, ?_, ?_⟩
  · rw [htasks, hpushed, hdequeued]
    exact h.order
  · rw [hpushed]
    exact h.numbers
  · intro c' hc'
    rw [hlog, List.mem_append, List.mem_singleton] at hc'
    rw [hpushed]
    rcases hc' with hc' | rfl
    · exact h.logged c' hc'
    · exact hpush
  · rw [hrest, htasks]
    exact h.rest
  · intro entry hin
    rw [hrest] at hin
    have htask := h.rest.subset hin
    have hne : entry ≠ c.entry := fun heq => h.not_mem_tasks hmem (heq ▸ htask)
    rw [hsame entry (h.mem_of_tasks htask) hne]
    exact h.untouched entry hin
  · intro entry hin hout
    rw [htasks] at hin
    rw [hrest] at hout
    have hne : entry ≠ c.entry := fun heq => h.not_mem_tasks hmem (heq ▸ hin)
    rw [hsame entry (h.mem_of_tasks hin) hne]
    exact h.swept entry hin hout
  · intro j entry l' hj
    rw [hdequeued]
    by_cases hji : j = i
    · subst hji
      obtain ⟨rfl, rfl⟩ := hat entry l' hj
      exact ⟨hmem, hself⟩
    · obtain ⟨hheld, hne⟩ := hother j entry l' hji hj
      obtain ⟨hin, hl⟩ := h.held j entry l' hheld
      rw [hsame entry (h.mem_of_dequeued hin) hne]
      exact ⟨hin, hl⟩
  · intro j k entry l₁ l₂ hj hk
    by_cases hji : j = i
    · by_cases hki : k = i
      · rw [hji, hki]
      · subst hji
        exact absurd (hat entry l₁ hj).1 (hother k entry l₂ hki hk).2
    · by_cases hki : k = i
      · subst hki
        exact absurd (hat entry l₂ hk).1 (hother j entry l₁ hji hj).2
      · exact h.apart j k entry l₁ l₂ (hother j entry l₁ hji hj).1 (hother k entry l₂ hki hk).1
  · intro entry hin hnone
    rw [hdequeued] at hin
    by_cases heq : entry = c.entry
    · subst heq
      rcases hnext with hnext | ⟨-, hcalls⟩
      · refine absurd ?_ (hnone i (l ++ [c]))
        rw [hthreads, Function.update_self, hnext]
      · rw [hself, hcalls]
    · rw [hsame entry (h.mem_of_dequeued hin) heq]
      apply h.done entry hin
      intro j l' hj
      by_cases hji : j = i
      · rw [hji, hholds, Option.some.injEq, Prod.mk.injEq] at hj
        exact heq hj.1.symm
      · apply hnone j l'
        rw [hthreads, Function.update_of_ne hji, hj]

theorem accounted_sweep (h : Accounted σ) {entry : Entry τ δ}
    (htasks : σ'.queue.tasks = σ.queue.tasks)
    (hpushed : σ'.pushed = σ.pushed) (hdequeued : σ'.dequeued = σ.dequeued)
    (hlog : σ'.log = σ.log ++ [.delete entry]) (hrest : σ.rest = entry :: σ'.rest)
    (hthreads : σ'.threads = σ.threads) : Accounted σ' := by
  have hfirst : entry ∈ σ.rest := by simp [hrest]
  have hmem := h.rest.subset hfirst
  have hpush := h.mem_of_tasks hmem
  have hself : history entry.number σ'.log = [.delete entry] := by
    rw [hlog]
    refine (history_concat_self (c := .delete entry) σ.log).trans ?_
    rw [Call.entry, h.untouched entry hfirst, List.nil_append]
  have hsame : ∀ entry' ∈ σ.pushed, entry' ≠ entry →
      history entry'.number σ'.log = history entry'.number σ.log := by
    intro entry' hin hne
    rw [hlog, h.history_other (c := .delete entry) hin hpush hne]
  have hnodup : (entry :: σ'.rest).Nodup := by
    rw [← hrest]
    exact h.rest.sublist.nodup (List.Nodup.of_append_right h.nodup)
  refine ⟨?_, ?_, ?_, ?_, ?_, ?_, ?_, ?_, ?_⟩
  · rw [htasks, hpushed, hdequeued]
    exact h.order
  · rw [hpushed]
    exact h.numbers
  · intro c hc
    rw [hlog, List.mem_append, List.mem_singleton] at hc
    rw [hpushed]
    rcases hc with hc | rfl
    · exact h.logged c hc
    · exact hpush
  · rw [htasks]
    exact ((List.suffix_cons entry σ'.rest).trans (hrest ▸ List.suffix_refl σ.rest)).trans h.rest
  · intro entry' hin
    have hin' : entry' ∈ σ.rest := hrest ▸ List.mem_cons_of_mem entry hin
    have hne : entry' ≠ entry := fun heq => (List.nodup_cons.mp hnodup).1 (heq ▸ hin)
    rw [hsame entry' (h.mem_of_tasks (h.rest.subset hin')) hne]
    exact h.untouched entry' hin'
  · intro entry' hin hout
    rw [htasks] at hin
    by_cases heq : entry' = entry
    · rw [heq]
      exact hself
    · rw [hsame entry' (h.mem_of_tasks hin) heq]
      apply h.swept entry' hin
      rw [hrest, List.mem_cons, not_or]
      exact ⟨heq, hout⟩
  · intro i entry' l hi
    rw [hthreads] at hi
    rw [hdequeued]
    obtain ⟨hin, hl⟩ := h.held i entry' l hi
    have hne : entry' ≠ entry := fun heq => h.not_mem_tasks hin (heq ▸ hmem)
    rw [hsame entry' (h.mem_of_dequeued hin) hne]
    exact ⟨hin, hl⟩
  · rw [hthreads]
    exact h.apart
  · intro entry' hin hnone
    rw [hdequeued] at hin
    rw [hthreads] at hnone
    have hne : entry' ≠ entry := fun heq => h.not_mem_tasks hin (heq ▸ hmem)
    rw [hsame entry' (h.mem_of_dequeued hin) hne]
    exact h.done entry' hin hnone

/-- **No step loses track of an entry.** -/
theorem accounted_step (h : Accounted σ) (heffect : Effect σ σ') : Accounted σ' := by
  cases heffect with
  | quiet htasks hpushed hdequeued hlog hrest hheld =>
    exact accounted_quiet h htasks hpushed hdequeued hlog hrest hheld
  | push entry hnumber htasks hpushed hdequeued hlog hbefore hrest hheld =>
    exact accounted_push h hnumber htasks hpushed hdequeued hlog hbefore hrest hheld
  | take i entry htasks hpushed hdequeued hlog hbefore hrest hidle hthreads =>
    exact accounted_take h htasks hpushed hdequeued hlog hbefore hrest hidle hthreads
  | call i c l t htasks hpushed hdequeued hlog hrest hholds hthreads hnext =>
    exact accounted_call h htasks hpushed hdequeued hlog hrest hholds hthreads hnext
  | sweep entry htasks hpushed hdequeued hlog hrest hthreads =>
    exact accounted_sweep h htasks hpushed hdequeued hlog hrest hthreads

theorem shape_init : Shape ({} : State τ δ) := by
  refine ⟨fun i => ⟨fun _ => Nat.zero_le i, fun _ => rfl⟩, ?_, ?_, fun _ _ => rfl⟩
  · intro hended
    exact absurd hended (by simp [Owner.ended])
  · intro hexiting
    exact absurd hexiting (by simp [Owner.exiting])

/-- What holds of every reachable state. -/
theorem reachable_accounted {nThread : ℕ} (h : (workQueueSystem τ δ nThread).Reachable σ) :
    Shape σ ∧ Accounted σ := by
  apply h.invariant ⟨shape_init, accounted_init⟩
  intro s e s' _ hs hstep
  obtain ⟨hshape, heffect⟩ := step_effect hs.1 hstep
  exact ⟨hshape, accounted_step hs.2 heffect⟩

/-! ## The destructor returns -/

/-- The steps a thread has left once `m_exit` is set. -/
def Thread.left : Thread τ δ → ℕ
  | .taken _ => 4
  | .running _ => 3
  | .ran _ => 2
  | .locking => 1
  | .unborn | .waiting | .exited => 0

/-- The steps the destructor has left. -/
def State.ownerLeft (σ : State τ δ) : ℕ :=
  match σ.owner with
  | .joining => σ.queue.tasks.length + 2
  | .sweeping rest => rest.length + 1
  | _ => 0

/-- The steps left before the destructor returns, when nothing more is pushed. -/
def State.left (σ : State τ δ) : ℕ :=
  ∑ i ∈ Finset.range σ.created, (σ.threads i).left + σ.ownerLeft

/-- The destructor has begun. -/
def Owner.destroying : Owner τ δ → Bool
  | .joining | .sweeping _ | .returned => true
  | _ => false

/-- A thread that cannot be joined yet goes on, once `m_exit` is set. -/
theorem thread_progress {i : ℕ} (hshape : Shape σ) (hexit : σ.queue.exit = true)
    (hi : i < σ.created) (hrunning : (σ.threads i).isExited = false) :
    ∃ t log, σ.thread i = some { σ with
        threads := Function.update σ.threads i t, log := log } ∧
      t.left < (σ.threads i).left := by
  cases ht : σ.threads i with
  | unborn =>
    have hge := (hshape.unborn i).mp ht
    omega
  | waiting =>
    have hawake := hshape.awake hexit i
    simp [ht, Thread.isWaiting] at hawake
  | exited => simp [ht, Thread.isExited] at hrunning
  | locking => exact ⟨.exited, σ.log, by simp [State.thread, ht, CworkQueue.getNext, hexit],
      by simp [Thread.left]⟩
  | taken entry => exact ⟨.running entry, σ.log ++ [.run entry], by simp [State.thread, ht],
      by simp [Thread.left]⟩
  | running entry => exact ⟨.ran entry, σ.log ++ [.ran entry], by simp [State.thread, ht],
      by simp [Thread.left]⟩
  | ran entry => exact ⟨.locking, σ.log ++ [.delete entry], by simp [State.thread, ht],
      by simp [Thread.left]⟩

/-- Fewer steps for one thread are fewer steps for all. -/
theorem sum_left_lt {n i : ℕ} {t : Thread τ δ} {threads : ℕ → Thread τ δ} (hi : i < n)
    (ht : t.left < (threads i).left) :
    ∑ j ∈ Finset.range n, (Function.update threads i t j).left <
      ∑ j ∈ Finset.range n, (threads j).left := by
  apply Finset.sum_lt_sum
  · intro j _
    by_cases hj : j = i
    · rw [hj, Function.update_self]
      exact Nat.le_of_lt ht
    · rw [Function.update_of_ne hj]
  · refine ⟨i, Finset.mem_range.mpr hi, ?_⟩
    rw [Function.update_self]
    exact ht

/-- While the destructor is not back, something goes on. -/
theorem destructor_progress {nThread : ℕ} (hshape : Shape σ) (hbegun : σ.owner.destroying = true)
    (hback : σ.owner ≠ .returned) :
    ∃ e σ', σ.step nThread e = some σ' ∧ (Shape σ' ∧ σ'.owner.destroying = true) ∧
      σ'.left < σ.left := by
  have hkeep : ∀ {e : Event τ δ} {σ'}, σ.step nThread e = some σ' →
      σ'.owner.destroying = true → σ'.left < σ.left →
      ∃ e σ', σ.step nThread e = some σ' ∧ (Shape σ' ∧ σ'.owner.destroying = true) ∧
        σ'.left < σ.left :=
    fun hstep hdestroying hleft => ⟨_, _, hstep, ⟨(step_effect hshape hstep).1, hdestroying⟩, hleft⟩
  cases howner : σ.owner with
  | joining =>
    have hexit := hshape.exit (by rw [howner]; rfl)
    by_cases hjoinable : σ.Joinable
    · have hstep : σ.step nThread .join = some { σ with owner := .sweeping σ.queue.tasks } := by
        simp only [State.step, howner, if_pos hjoinable]
      apply hkeep hstep rfl
      simp only [State.left, State.ownerLeft, howner]
      omega
    · simp only [State.Joinable, not_forall, Bool.not_eq_true] at hjoinable
      obtain ⟨i, hi, hrunning⟩ := hjoinable
      obtain ⟨t, log, hstep, hlt⟩ := thread_progress hshape hexit hi hrunning
      apply hkeep (e := .thread i) hstep hbegun
      exact Nat.add_lt_add_right (sum_left_lt hi hlt) _
  | sweeping rest =>
    cases rest with
    | nil =>
      have hstep : σ.step nThread .sweep = some { σ with owner := .returned } := by
        simp only [State.step, howner]
      apply hkeep hstep rfl
      simp [State.left, State.ownerLeft, howner]
    | cons entry rest =>
      have hstep : σ.step nThread .sweep = some { σ with
          owner := .sweeping rest
          log := σ.log ++ [.delete entry] } := by
        simp only [State.step, howner]
      apply hkeep hstep rfl
      simp [State.left, State.ownerLeft, howner]
  | returned => exact absurd howner hback
  | _ => simp [howner, Owner.destroying] at hbegun

/-- The destructor can always return: no thread keeps it waiting. -/
theorem destructor_returns {nThread : ℕ} (hshape : Shape σ) (hbegun : σ.owner.destroying = true) :
    ∃ es σ', (workQueueSystem τ δ nThread).exec σ es = some σ' ∧ σ'.owner = .returned := by
  apply Lib.Lts.exists_exec_of_progress (I := fun s => Shape s ∧ s.owner.destroying = true)
    State.left ⟨hshape, hbegun⟩
  intro s hs hback
  exact destructor_progress hs.1 hs.2 hback

/-! ## Every task is disposed of once -/

theorem held_prefix {t : Thread τ δ} {entry : Entry τ δ} {l : List (Call τ δ)}
    (h : t.held = some (entry, l)) : l <+: entry.calls := by
  cases t with
  | taken _ | running _ | ran _ =>
    simp only [Thread.held, Option.some.injEq, Prod.mk.injEq] at h
    obtain ⟨rfl, rfl⟩ := h
    simp [Entry.calls]
  | _ => simp [Thread.held] at h

/-- The calls for a dequeued entry so far. -/
theorem Accounted.dequeued_prefix (h : Accounted σ) {entry : Entry τ δ}
    (hmem : entry ∈ σ.dequeued) : history entry.number σ.log <+: entry.calls := by
  by_cases hheld : ∃ i l, (σ.threads i).held = some (entry, l)
  · obtain ⟨i, l, hi⟩ := hheld
    rw [(h.held i entry l hi).2]
    exact held_prefix hi
  · rw [h.done entry hmem fun i l hi => hheld ⟨i, l, hi⟩]

/-- The calls so far for an entry that is not dequeued. -/
theorem Accounted.tasks_prefix (h : Accounted σ) {entry : Entry τ δ}
    (hmem : entry ∈ σ.queue.tasks) : history entry.number σ.log <+: [.delete entry] := by
  by_cases hrest : entry ∈ σ.rest
  · rw [h.untouched entry hrest]
    exact List.nil_prefix
  · rw [h.swept entry hmem hrest]

/-- No thread holds an entry once the owner has joined all of them. -/
theorem Shape.held_eq_none (h : Shape σ) (hended : σ.owner.ended = true) (i : ℕ) :
    (σ.threads i).held = none := by
  by_cases hi : i < σ.created
  · have hexited := h.stopped hended i hi
    cases ht : σ.threads i with
    | exited => rfl
    | _ => simp [ht, Thread.isExited] at hexited
  · rw [(h.unborn i).mpr (by omega)]
    rfl

/-- **The work queue disposes of every task exactly once.** Entries are dequeued in the order of
the pushes. For a dequeued entry `run` is called, comes back, and then its deleter is called with
its task, each once; for an entry that is left its deleter only. When the destructor is back, that
is how far it has come for all of them, and nothing keeps it from coming back. -/
theorem tasks_disposed_once {nThread : ℕ} (h : (workQueueSystem τ δ nThread).Reachable σ) :
    σ.dequeued ++ σ.queue.tasks = σ.pushed ∧
    σ.pushed.map Entry.number = List.range σ.pushed.length ∧
    (∀ c ∈ σ.log, c.entry ∈ σ.pushed) ∧
    (∀ entry ∈ σ.dequeued, history entry.number σ.log <+: entry.calls) ∧
    (∀ entry ∈ σ.queue.tasks, history entry.number σ.log <+: [.delete entry]) ∧
    (σ.owner = .returned →
      (∀ entry ∈ σ.dequeued, history entry.number σ.log = entry.calls) ∧
      ∀ entry ∈ σ.queue.tasks, history entry.number σ.log = [.delete entry]) ∧
    (σ.owner.destroying = true →
      ∃ es σ', (workQueueSystem τ δ nThread).exec σ es = some σ' ∧ σ'.owner = .returned) := by
  obtain ⟨hshape, haccounted⟩ := reachable_accounted h
  refine ⟨haccounted.order, haccounted.numbers, haccounted.logged,
    fun entry hmem => haccounted.dequeued_prefix hmem,
    fun entry hmem => haccounted.tasks_prefix hmem, ?_, destructor_returns hshape⟩
  intro hreturned
  constructor
  · intro entry hmem
    apply haccounted.done entry hmem
    intro i l hi
    rw [hshape.held_eq_none (by rw [hreturned]; rfl) i] at hi
    exact absurd hi (by simp)
  · intro entry hmem
    apply haccounted.swept entry hmem
    rw [State.rest, hreturned]
    simp

/-- One thread and two tasks: the second one is still queued when the queue is destroyed, while
the first one runs. -/
def disposalRun : List (Event Bool Unit) :=
  [.create, .constructed, .thread 0, .pushTask true () (some 0), .thread 0, .thread 0,
    .pushTask false () none, .setExit, .thread 0, .thread 0, .thread 0, .join, .sweep, .sweep]

theorem tasks_disposed_once_run :
    ∃ σ, (workQueueSystem Bool Unit 1).run disposalRun = some σ ∧
      σ.log = [.run ⟨0, true, ()⟩, .ran ⟨0, true, ()⟩, .delete ⟨0, true, ()⟩,
        .delete ⟨1, false, ()⟩] ∧
      (∀ entry ∈ σ.dequeued, history entry.number σ.log = entry.calls) ∧
      ∀ entry ∈ σ.queue.tasks, history entry.number σ.log = [.delete entry] := by
  have hrun : ∃ σ, (workQueueSystem Bool Unit 1).run disposalRun = some σ ∧
      σ.owner = .returned ∧ σ.log = [.run ⟨0, true, ()⟩, .ran ⟨0, true, ()⟩,
        .delete ⟨0, true, ()⟩, .delete ⟨1, false, ()⟩] := ⟨_, rfl, rfl, rfl⟩
  obtain ⟨σ, hσ, hreturned, hlog⟩ := hrun
  have hdisposed := (tasks_disposed_once (Lib.Lts.reachable_of_run hσ)).2.2.2.2.2.1 hreturned
  exact ⟨σ, hσ, hlog, hdisposed⟩

end NetworkPool.WorkQueue
