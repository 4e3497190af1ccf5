import NetworkPool.Lib.Family
import NetworkPool.WorkQueue.Disposal

/-!
# No wakeup is lost

A task that is queued while threads sleep in `m_cv.wait` has a thread that is awake and on its way
to it: `notify_one` is called for each push, and a thread that comes back from a task looks at the
queue before it sleeps. So the threads alone, in whatever order they go on, come to the end of the
queue (`queue_drains`).
-/

namespace NetworkPool.WorkQueue

open Lib.Family

variable {τ δ : Type*} {σ σ' : State τ δ} {nThread : ℕ}

/-! ## Threads on their way to the queue -/

/-- A thread in `getNext` that does not wait. -/
def Thread.alert : Thread τ δ → ℕ
  | .locking => 1
  | _ => 0

/-- The threads on their way to the queue. -/
def State.alert (σ : State τ δ) : ℕ :=
  total Thread.alert σ.threads σ.created

/-- The steps the threads have left when nothing is pushed. -/
def State.work (σ : State τ δ) : ℕ :=
  4 * σ.queue.tasks.length + total Thread.left σ.threads σ.created

/-- What holds of the threads and the queue in every reachable state. -/
structure Attended (nThread : ℕ) (σ : State τ δ) : Prop where
  created : σ.owner = .alive → σ.created = nThread
  running : σ.owner.exiting = false → σ.queue.exit = false
  exited : ∀ i, (σ.threads i).isExited = true → σ.queue.exit = true
  served : (∃ i, (σ.threads i).isWaiting = true) → σ.queue.tasks.length ≤ σ.alert

/-- A thread that waits contributes nothing. -/
theorem alert_of_isWaiting {t : Thread τ δ} (h : t.isWaiting = true) : t.alert = 0 := by
  cases t with
  | waiting => rfl
  | _ => simp [Thread.isWaiting] at h

theorem tasks_of_wait {ε : Type*} {q q' : CworkQueue ε}
    (h : q.getNext = (.wait, q')) : q.tasks = [] := by
  unfold CworkQueue.getNext at h
  by_cases hexit : q.exit
  · rw [if_pos hexit] at h
    exact absurd (congrArg Prod.fst h) (by simp)
  · rw [if_neg hexit] at h
    cases htasks : q.tasks with
    | nil => rfl
    | cons front tasks =>
      rw [htasks] at h
      exact absurd (congrArg Prod.fst h) (by simp)

/-- What a thread's step does to the queue and to the thread. -/
inductive Stride (σ : State τ δ) (i : ℕ) (σ' : State τ δ) : Prop
  /-- It leaves the loop. -/
  | leave (hbefore : σ.threads i = .locking) (hexit : σ.queue.exit = true)
      (hqueue : σ'.queue = σ.queue) (hthreads : σ'.threads = Function.update σ.threads i .exited)
  /-- It waits. -/
  | sleep (hbefore : σ.threads i = .locking) (htasks : σ.queue.tasks = [])
      (hqueue : σ'.queue = σ.queue) (hthreads : σ'.threads = Function.update σ.threads i .waiting)
  /-- It takes a task. -/
  | take (entry : Entry τ δ) (hbefore : σ.threads i = .locking)
      (htasks : σ.queue.tasks = entry :: σ'.queue.tasks) (hexit : σ'.queue.exit = σ.queue.exit)
      (hthreads : σ'.threads = Function.update σ.threads i (.taken entry))
  /-- It goes on with the task it has. -/
  | goOn (t : Thread τ δ) (hbefore : (σ.threads i).alert = 0) (hleft : t.left + 1 = (σ.threads i).left)
      (hrunning : t.isExited = false) (hawake : t.isWaiting = false) (hqueue : σ'.queue = σ.queue)
      (hthreads : σ'.threads = Function.update σ.threads i t)

/-- **What a thread's step does**, and that it leaves the owner and the pushes alone. -/
theorem stride {i : ℕ} (h : σ.thread i = some σ') :
    Stride σ i σ' ∧ σ'.owner = σ.owner ∧ σ'.created = σ.created ∧ σ'.pushed = σ.pushed := by
  cases ht : σ.threads i with
  | unborn => simp [State.thread, ht] at h
  | waiting => simp [State.thread, ht] at h
  | exited => simp [State.thread, ht] at h
  | locking =>
    simp only [State.thread, ht] at h
    rcases hnext : σ.queue.getNext with ⟨r, q⟩
    rw [hnext] at h
    obtain ⟨rfl, hexit, rfl⟩ | ⟨rfl, -, rfl⟩ | ⟨entry, rfl, hexit, htasks, hexit'⟩ :=
      CworkQueue.getNext_cases hnext
    · obtain rfl := Option.some.inj h
      exact ⟨.leave ht hexit rfl rfl, rfl, rfl, rfl⟩
    · obtain rfl := Option.some.inj h
      exact ⟨.sleep ht (tasks_of_wait hnext) rfl rfl, rfl, rfl, rfl⟩
    · obtain rfl := Option.some.inj h
      exact ⟨.take entry ht htasks (hexit'.trans hexit.symm) rfl, rfl, rfl, rfl⟩
  | taken entry =>
    simp only [State.thread, ht, Option.some.injEq] at h
    subst h
    have hbefore : (σ.threads i).alert = 0 := by rw [ht]; rfl
    have hleft : (Thread.running entry).left + 1 = (σ.threads i).left := by rw [ht]; rfl
    exact ⟨.goOn (.running entry) hbefore hleft rfl rfl rfl rfl, rfl, rfl, rfl⟩
  | running entry =>
    simp only [State.thread, ht, Option.some.injEq] at h
    subst h
    have hbefore : (σ.threads i).alert = 0 := by rw [ht]; rfl
    have hleft : (Thread.ran entry).left + 1 = (σ.threads i).left := by rw [ht]; rfl
    exact ⟨.goOn (.ran entry) hbefore hleft rfl rfl rfl rfl, rfl, rfl, rfl⟩
  | ran entry =>
    simp only [State.thread, ht, Option.some.injEq] at h
    subst h
    have hbefore : (σ.threads i).alert = 0 := by rw [ht]; rfl
    have hleft : (Thread.locking : Thread τ δ).left + 1 = (σ.threads i).left := by rw [ht]; rfl
    exact ⟨.goOn .locking hbefore hleft rfl rfl rfl rfl, rfl, rfl, rfl⟩

/-- A thread that moves has been created. -/
theorem Shape.lt_created {i : ℕ} (hshape : Shape σ) (h : σ.thread i = some σ') : i < σ.created := by
  by_contra hge
  rw [State.thread, (hshape.unborn i).mpr (by omega)] at h
  exact absurd h (by simp)

/-- Every step of a thread is one of those it has left. -/
theorem work_thread {i : ℕ} (hshape : Shape σ) (h : σ.thread i = some σ') :
    σ'.work + 1 = σ.work := by
  have hi := hshape.lt_created h
  obtain ⟨hstride, -, hcreated, -⟩ := stride h
  unfold State.work
  rw [hcreated]
  cases hstride with
  | leave hbefore hexit hqueue hthreads =>
    have htotal := total_take (g := Thread.left) (f := σ.threads) (x := .exited) (m := 1) hi
      (by rw [hbefore]; rfl)
    rw [hqueue, hthreads]
    omega
  | sleep hbefore htasks hqueue hthreads =>
    have htotal := total_take (g := Thread.left) (f := σ.threads) (x := .waiting) (m := 1) hi
      (by rw [hbefore]; rfl)
    rw [hqueue, hthreads]
    omega
  | take entry hbefore htasks hexit hthreads =>
    have htotal := total_put (g := Thread.left) (f := σ.threads) (x := .taken entry) (m := 3) hi
      (by rw [hbefore]; rfl)
    have hlength : σ.queue.tasks.length = σ'.queue.tasks.length + 1 := by rw [htasks]; rfl
    rw [hthreads]
    omega
  | goOn t hbefore hleft hrunning hawake hqueue hthreads =>
    have htotal := total_take (g := Thread.left) (f := σ.threads) (x := t) (m := 1) hi hleft.symm
    rw [hqueue, hthreads]
    omega

/-! ## The invariant -/

/-- A thread that waits after one thread was updated waited before, or is the updated one. -/
theorem isWaiting_of_update {i j : ℕ} {t : Thread τ δ} {threads : ℕ → Thread τ δ}
    (ht : t.isWaiting = false) (h : (Function.update threads i t j).isWaiting = true) :
    (threads j).isWaiting = true := by
  by_cases hj : j = i
  · rw [hj, Function.update_self, ht] at h
    exact absurd h (by simp)
  · rwa [Function.update_of_ne hj] at h

/-- A thread that has left the loop after one thread was updated had left it before, or is the
updated one. -/
theorem isExited_of_update {i j : ℕ} {t : Thread τ δ} {threads : ℕ → Thread τ δ}
    (ht : t.isExited = false) (h : (Function.update threads i t j).isExited = true) :
    (threads j).isExited = true := by
  by_cases hj : j = i
  · rw [hj, Function.update_self, ht] at h
    exact absurd h (by simp)
  · rwa [Function.update_of_ne hj] at h

/-- A thread wakes up, by a notification or without one. -/
theorem alert_wake {i : ℕ} (hshape : Shape σ) (hi : (σ.threads i).isWaiting = true) :
    { σ with threads := Function.update σ.threads i .locking }.alert = σ.alert + 1 := by
  refine total_put (hshape.of_isWaiting hi).1 ?_
  rw [alert_of_isWaiting hi]
  rfl

theorem Attended.wake {i : ℕ} (h : Attended nThread σ) (hshape : Shape σ)
    (hi : (σ.threads i).isWaiting = true) :
    Attended nThread { σ with threads := Function.update σ.threads i .locking } where
  created := h.created
  running := h.running
  exited := fun j hj => h.exited j (isExited_of_update rfl hj)
  served := by
    intro _
    have hserved := h.served ⟨i, hi⟩
    rw [alert_wake hshape hi]
    show σ.queue.tasks.length ≤ σ.alert + 1
    omega

/-- A push, with its notification. -/
theorem Attended.push {task : τ} {deleter : δ} {woken : Option ℕ} (h : Attended nThread σ)
    (hshape : Shape σ) (hstep : (σ.pushTask task deleter).notifyOne woken = some σ') :
    Attended nThread σ' := by
  have hlength : (σ.pushTask task deleter).queue.tasks.length = σ.queue.tasks.length + 1 := by
    simp [State.pushTask]
  cases woken with
  | none =>
    -- nobody waits, and nobody is notified
    simp only [State.notifyOne, Option.ite_none_right_eq_some, Option.some.injEq] at hstep
    obtain ⟨hnone, rfl⟩ := hstep
    refine ⟨h.created, h.running, h.exited, ?_⟩
    rintro ⟨i, hi⟩
    have hborn := (hshape.of_isWaiting (i := i) hi).1
    have hnot : (σ.threads i).isWaiting = false := hnone i hborn
    exact absurd (hi.symm.trans hnot) (by simp)
  | some i =>
    simp only [State.notifyOne, Option.ite_none_right_eq_some, Option.some.injEq] at hstep
    obtain ⟨hi, rfl⟩ := hstep
    refine ⟨h.created, h.running, fun j hj => h.exited j (isExited_of_update rfl hj), ?_⟩
    intro _
    have hserved := h.served ⟨i, hi⟩
    have halert := alert_wake hshape (i := i) hi
    show (σ.pushTask task deleter).queue.tasks.length ≤
      { σ with threads := Function.update σ.threads i .locking }.alert
    omega

/-- A step of a thread. -/
theorem Attended.thread {i : ℕ} (h : Attended nThread σ) (hshape : Shape σ)
    (hstep : σ.thread i = some σ') : Attended nThread σ' := by
  have hi := hshape.lt_created hstep
  obtain ⟨hstride, howner, hcreated, -⟩ := stride hstep
  cases hstride with
  | leave hbefore hexit hqueue hthreads =>
    have hexit' : σ'.queue.exit = true := by rw [hqueue, hexit]
    refine ⟨?_, ?_, fun _ _ => hexit', ?_⟩
    · rw [howner, hcreated]
      exact h.created
    · rw [howner, hqueue]
      exact h.running
    · rintro ⟨j, hj⟩
      rw [hthreads] at hj
      have hawake := hshape.awake hexit j
      exact absurd (hawake.symm.trans (isWaiting_of_update rfl hj)) (by simp)
  | sleep hbefore htasks hqueue hthreads =>
    refine ⟨?_, ?_, ?_, ?_⟩
    · rw [howner, hcreated]
      exact h.created
    · rw [howner, hqueue]
      exact h.running
    · intro j hj
      rw [hthreads] at hj
      rw [hqueue]
      exact h.exited j (isExited_of_update rfl hj)
    · intro _
      rw [hqueue, htasks]
      exact Nat.zero_le _
  | take entry hbefore htasks hexit hthreads =>
    refine ⟨?_, ?_, ?_, ?_⟩
    · rw [howner, hcreated]
      exact h.created
    · rw [howner, hexit]
      exact h.running
    · intro j hj
      rw [hthreads] at hj
      rw [hexit]
      exact h.exited j (isExited_of_update rfl hj)
    · rintro ⟨j, hj⟩
      rw [hthreads] at hj
      have hserved := h.served ⟨j, isWaiting_of_update rfl hj⟩
      have htotal := total_take (g := Thread.alert) (f := σ.threads) (x := .taken entry) (m := 1)
        hi (by rw [hbefore]; rfl)
      have hlength : σ.queue.tasks.length = σ'.queue.tasks.length + 1 := by rw [htasks]; rfl
      unfold State.alert at hserved ⊢
      rw [hthreads, hcreated]
      omega
  | goOn t hbefore hleft hrunning hawake hqueue hthreads =>
    refine ⟨?_, ?_, ?_, ?_⟩
    · rw [howner, hcreated]
      exact h.created
    · rw [howner, hqueue]
      exact h.running
    · intro j hj
      rw [hthreads] at hj
      rw [hqueue]
      exact h.exited j (isExited_of_update hrunning hj)
    · rintro ⟨j, hj⟩
      rw [hthreads] at hj
      have hserved := h.served ⟨j, isWaiting_of_update hawake hj⟩
      have htotal := total_put (g := Thread.alert) (f := σ.threads) (x := t) (m := t.alert) hi
        (by rw [hbefore, Nat.zero_add])
      unfold State.alert at hserved ⊢
      rw [hqueue, hthreads, hcreated]
      omega

/-- `setExit` leaves no thread that waits. -/
theorem attended_setExit {owner : Owner τ δ}
    (howner : owner.exiting = true) (halive : owner ≠ .alive) :
    Attended nThread { σ with owner := owner }.setExit where
  created := fun heq => absurd heq halive
  running := fun hrunning => absurd (howner.symm.trans hrunning) (by simp)
  exited := fun _ _ => rfl
  served := by
    rintro ⟨i, hi⟩
    exact absurd ((isWaiting_awake _).symm.trans hi) (by simp)

/-- The owner goes on, with `m_exit` set or before it has to be. -/
theorem Attended.owner {owner : Owner τ δ} (h : Attended nThread σ)
    (hcreated : owner = .alive → σ.created = nThread)
    (hrunning : owner.exiting = false → σ.queue.exit = false) :
    Attended nThread { σ with owner := owner } :=
  ⟨hcreated, hrunning, h.exited, h.served⟩

/-- **Every step keeps the invariant.** -/
theorem Attended.step {e : Event τ δ} (h : Attended nThread σ) (hshape : Shape σ)
    (hstep : σ.step nThread e = some σ') : Attended nThread σ' := by
  cases e with
  | thread i => exact h.thread hshape hstep
  | wake i =>
    simp only [State.step, Option.ite_none_right_eq_some, Option.some.injEq] at hstep
    obtain ⟨hi, rfl⟩ := hstep
    exact h.wake hshape hi
  | pushTask task deleter woken =>
    simp only [State.step, Option.ite_none_right_eq_some] at hstep
    exact h.push hshape hstep.2
  | create =>
    simp only [State.step] at hstep
    split at hstep
    · rename_i howner
      simp only [Option.ite_none_right_eq_some, Option.some.injEq] at hstep
      obtain ⟨-, rfl⟩ := hstep
      refine ⟨fun halive => absurd (howner.symm.trans halive) (by simp), h.running,
        fun j hj => h.exited j (isExited_of_update rfl hj), ?_⟩
      rintro ⟨j, hj⟩
      have hserved := h.served ⟨j, isWaiting_of_update rfl hj⟩
      have htotal := total_new (g := Thread.alert) (f := σ.threads) (n := σ.created)
        (x := .locking)
      show σ.queue.tasks.length ≤
        total Thread.alert (Function.update σ.threads σ.created .locking) (σ.created + 1)
      rw [htotal]
      unfold State.alert at hserved
      omega
    · exact absurd hstep (by simp)
  | createFails =>
    simp only [State.step] at hstep
    split at hstep
    · simp only [Option.ite_none_right_eq_some, Option.some.injEq] at hstep
      obtain ⟨-, rfl⟩ := hstep
      exact attended_setExit rfl (by simp)
    · exact absurd hstep (by simp)
  | constructed =>
    simp only [State.step] at hstep
    split at hstep
    · rename_i howner
      simp only [Option.ite_none_right_eq_some, Option.some.injEq] at hstep
      obtain ⟨hcreated, rfl⟩ := hstep
      exact h.owner (fun _ => hcreated) fun _ => h.running (by rw [howner]; rfl)
    · exact absurd hstep (by simp)
  | setExit =>
    simp only [State.step] at hstep
    split at hstep
    · rw [← Option.some.inj hstep]
      exact attended_setExit rfl (by simp)
    · exact absurd hstep (by simp)
  | join =>
    simp only [State.step] at hstep
    split at hstep
    · simp only [Option.ite_none_right_eq_some, Option.some.injEq] at hstep
      rw [← hstep.2]
      exact h.owner (by simp) (by simp [Owner.exiting])
    · simp only [Option.ite_none_right_eq_some, Option.some.injEq] at hstep
      rw [← hstep.2]
      exact h.owner (by simp) (by simp [Owner.exiting])
    · exact absurd hstep (by simp)
  | sweep =>
    simp only [State.step] at hstep
    split at hstep
    · rw [← Option.some.inj hstep]
      exact h.owner (by simp) (by simp [Owner.exiting])
    · rw [← Option.some.inj hstep]
      exact ⟨by simp, by simp [Owner.exiting], h.exited, h.served⟩
    · exact absurd hstep (by simp)

theorem attended_of_reachable (h : (workQueueSystem τ δ nThread).Reachable σ) :
    Attended nThread σ := by
  apply h.invariant
  · refine ⟨fun halive => absurd halive (by simp [workQueueSystem]), fun _ => rfl, ?_, ?_⟩
    · intro i hi
      exact absurd hi (by simp [workQueueSystem, Thread.isExited])
    · rintro ⟨i, hi⟩
      exact absurd hi (by simp [workQueueSystem, Thread.isWaiting])
  · intro s e s' hr hs hstep
    exact hs.step (reachable_accounted hr).1 hstep

/-! ## The queue drains -/

/-- A run of the threads alone is no longer than the work it does, and leaves the owner and the
pushes alone. -/
theorem exec_threads {es : List (Event τ δ)} (hes : ∀ e ∈ es, ∃ i, e = .thread i)
    (hr : (workQueueSystem τ δ nThread).Reachable σ)
    (hexec : (workQueueSystem τ δ nThread).exec σ es = some σ') :
    (workQueueSystem τ δ nThread).Reachable σ' ∧ es.length + σ'.work = σ.work ∧
      σ'.owner = σ.owner ∧ σ'.pushed = σ.pushed := by
  induction es generalizing σ with
  | nil =>
    obtain rfl : σ = σ' := Option.some.inj hexec
    exact ⟨hr, by simp, rfl, rfl⟩
  | cons e es ih =>
    obtain ⟨σ₁, hstep, hrest⟩ := Option.bind_eq_some_iff.mp hexec
    obtain ⟨i, rfl⟩ := hes e (by simp)
    have hthread : σ.thread i = some σ₁ := hstep
    obtain ⟨-, howner, -, hpushed⟩ := stride hthread
    have hwork := work_thread (reachable_accounted hr).1 hthread
    obtain ⟨hr', hlength, howner', hpushed'⟩ :=
      ih (fun e he => hes e (List.mem_cons_of_mem _ he)) (.step hr hstep) hrest
    refine ⟨hr', ?_, howner'.trans howner, hpushed'.trans hpushed⟩
    rw [List.length_cons]
    omega

/-- A thread that cannot move waits, has left the loop or is not created. -/
theorem thread_eq_none {i : ℕ} (h : σ.thread i = none) :
    (σ.threads i).isWaiting = true ∨ (σ.threads i).isExited = true ∨ σ.threads i = .unborn := by
  cases ht : σ.threads i with
  | waiting => exact .inl rfl
  | exited => exact .inr (.inl rfl)
  | unborn => exact .inr (.inr rfl)
  | locking =>
    simp only [State.thread, ht] at h
    split at h <;> exact absurd h (by simp)
  | taken entry => simp [State.thread, ht] at h
  | running entry => simp [State.thread, ht] at h
  | ran entry => simp [State.thread, ht] at h

/-- When no thread of a living queue can move, nothing is queued and nothing is held. -/
theorem tasks_of_stuck (hpos : 0 < nThread) (hr : (workQueueSystem τ δ nThread).Reachable σ)
    (halive : σ.owner = .alive) (hstuck : ∀ i, σ.thread i = none) :
    σ.queue.tasks = [] ∧ ∀ i, (σ.threads i).held = none := by
  have hshape := (reachable_accounted hr).1
  have hattended := attended_of_reachable hr
  have hexit : σ.queue.exit = false := hattended.running (by rw [halive]; rfl)
  have hcreated := hattended.created halive
  have hasleep : ∀ i < σ.created, (σ.threads i).isWaiting = true := by
    intro i hi
    rcases thread_eq_none (hstuck i) with hwaiting | hexited | hunborn
    · exact hwaiting
    · exact absurd ((hattended.exited i hexited).symm.trans hexit) (by simp)
    · have hge := (hshape.unborn i).mp hunborn
      omega
  have halert : σ.alert = 0 := by
    unfold State.alert total
    apply Finset.sum_eq_zero
    intro i hi
    exact alert_of_isWaiting (hasleep i (Finset.mem_range.mp hi))
  refine ⟨?_, fun i => ?_⟩
  · have hserved := hattended.served ⟨0, hasleep 0 (by omega)⟩
    rw [halert] at hserved
    exact List.length_eq_zero_iff.mp (by omega)
  · by_cases hi : i < σ.created
    · exact held_of_isWaiting (hasleep i hi)
    · rw [(hshape.unborn i).mpr (by omega)]
      rfl

/-- **No wakeup is lost, and a queue with at least one thread drains.** While a thread waits in
`m_cv`, each queued task has a thread that is awake for it. In whatever order the threads go on,
they make at most `State.work` steps, and when none of them can move every task pushed so far has
been run and deleted. -/
theorem queue_drains (hpos : 0 < nThread) (hr : (workQueueSystem τ δ nThread).Reachable σ)
    (halive : σ.owner = .alive) :
    ((∃ i, (σ.threads i).isWaiting = true) → σ.queue.tasks.length ≤ σ.alert) ∧
    ∀ es σ', (∀ e ∈ es, ∃ i, e = .thread i) →
      (workQueueSystem τ δ nThread).exec σ es = some σ' →
      es.length + σ'.work = σ.work ∧
      ((∀ i, σ'.thread i = none) → σ'.pushed = σ.pushed ∧ σ'.dequeued = σ'.pushed ∧
        ∀ entry ∈ σ'.pushed, history entry.number σ'.log = entry.calls) := by
  refine ⟨(attended_of_reachable hr).served, fun es σ' hes hexec => ?_⟩
  obtain ⟨hr', hlength, howner, hpushed⟩ := exec_threads hes hr hexec
  refine ⟨hlength, fun hstuck => ?_⟩
  obtain ⟨htasks, hheld⟩ := tasks_of_stuck hpos hr' (howner.trans halive) hstuck
  have haccounted := (reachable_accounted hr').2
  have hdequeued : σ'.dequeued = σ'.pushed := by
    have horder := haccounted.order
    rwa [htasks, List.append_nil] at horder
  refine ⟨hpushed, hdequeued, fun entry hentry => ?_⟩
  apply haccounted.done entry (by rwa [hdequeued])
  intro i l hi
  rw [hheld i] at hi
  exact absurd hi (by simp)

/-- Two tasks for one thread that waits. -/
def drainRun : List (Event Bool Unit) :=
  [.create, .constructed, .thread 0, .pushTask true () (some 0), .pushTask false () none]

theorem queue_drains_two :
    ∃ σ σ', (workQueueSystem Bool Unit 1).run drainRun = some σ ∧
      (workQueueSystem Bool Unit 1).exec σ (List.replicate 9 (.thread 0)) = some σ' ∧
      σ'.work = 0 ∧ ∀ entry ∈ σ'.pushed, history entry.number σ'.log = entry.calls := by
  have hrun : ∃ σ σ', (workQueueSystem Bool Unit 1).run drainRun = some σ ∧
      (workQueueSystem Bool Unit 1).exec σ (List.replicate 9 (.thread 0)) = some σ' ∧
      σ.owner = .alive ∧ σ.work = 9 ∧ σ'.created = 1 ∧ σ'.threads 0 = .waiting :=
    ⟨_, _, rfl, rfl, rfl, rfl, rfl, rfl⟩
  obtain ⟨σ, σ', hσ, hexec, halive, hwork, hcreated, hwaiting⟩ := hrun
  have hr := Lib.Lts.reachable_of_run hσ
  have hthreads : ∀ e ∈ List.replicate 9 (Event.thread 0 : Event Bool Unit), ∃ i, e = .thread i :=
    fun e he => ⟨0, List.eq_of_mem_replicate he⟩
  obtain ⟨hlength, hdrained⟩ := (queue_drains (by decide) hr halive).2 _ σ' hthreads hexec
  have hstuck : ∀ i, σ'.thread i = none := by
    intro i
    have hshape := (reachable_accounted (exec_threads hthreads hr hexec).1).1
    by_cases hi : i = 0
    · rw [hi, State.thread, hwaiting]
    · rw [State.thread, (hshape.unborn i).mpr (by omega)]
  refine ⟨σ, σ', hσ, hexec, ?_, (hdrained hstuck).2.2⟩
  rw [List.length_replicate] at hlength
  omega

end NetworkPool.WorkQueue
