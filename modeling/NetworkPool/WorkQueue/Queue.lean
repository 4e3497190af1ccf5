import NetworkPool.Lib.Lts
import Mathlib.Logic.Function.Basic

/-!
# The work queue

`CworkQueue` of `work_queue.h`: the queue itself, the threads that run `worker`, and the thread
that constructs and destroys it. `m_lock` makes the body of `pushTask`, the body of `setExit` and
`getNext` up to the point where it waits or returns single steps; between them the threads
interleave.
-/

namespace NetworkPool

/-! ## The queue -/

/-- `CworkQueue`, as far as `m_lock` protects it. The entries are the pairs of `m_tasks`. -/
structure CworkQueue (ε : Type*) where
  exit : Bool := false
  tasks : List ε := []

/-- What `getNext` comes to once it has the lock. -/
inductive Next (ε : Type*)
  /-- It returns `false`. -/
  | exit
  /-- It waits. -/
  | wait
  /-- It returns `true`, with the entry taken from the front. -/
  | task (front : ε)

namespace CworkQueue

variable {ε : Type*} (q : CworkQueue ε)

/-- `pushTask`, without the notification. -/
def pushTask (entry : ε) : CworkQueue ε :=
  { q with tasks := q.tasks ++ [entry] }

/-- `getNext` with the lock taken, up to where it waits or returns. -/
def getNext : Next ε × CworkQueue ε :=
  if q.exit then (.exit, q)
  else
    match q.tasks with
    | [] => (.wait, q)
    | front :: tasks => (.task front, { q with tasks := tasks })

/-- `setExit`, without the notification. -/
def setExit : CworkQueue ε :=
  { q with exit := true }

@[simp] theorem tasks_pushTask (entry : ε) : (q.pushTask entry).tasks = q.tasks ++ [entry] := rfl

@[simp] theorem exit_pushTask (entry : ε) : (q.pushTask entry).exit = q.exit := rfl

@[simp] theorem tasks_setExit : q.setExit.tasks = q.tasks := rfl

@[simp] theorem exit_setExit : q.setExit.exit = true := rfl

/-- What `getNext` did, by its answer. -/
theorem getNext_cases {q q' : CworkQueue ε} {r : Next ε} (h : q.getNext = (r, q')) :
    (r = .exit ∧ q.exit = true ∧ q' = q) ∨ (r = .wait ∧ q.exit = false ∧ q' = q) ∨
    ∃ front, r = .task front ∧ q.exit = false ∧ q.tasks = front :: q'.tasks ∧ q'.exit = false := by
  unfold getNext at h
  by_cases hexit : q.exit
  · rw [if_pos hexit, Prod.mk.injEq] at h
    exact .inl ⟨h.1.symm, hexit, h.2.symm⟩
  · rw [if_neg hexit] at h
    have hexit' : q.exit = false := by simpa using hexit
    split at h
    · rw [Prod.mk.injEq] at h
      exact .inr (.inl ⟨h.1.symm, hexit', h.2.symm⟩)
    · rename_i front tasks htasks
      rw [Prod.mk.injEq] at h
      obtain ⟨rfl, rfl⟩ := h
      exact .inr (.inr ⟨front, rfl, hexit', htasks, hexit'⟩)

end CworkQueue

namespace WorkQueue

/-! ## State -/

/-- A call of `pushTask`: its number among all the calls, and its arguments. -/
structure Entry (τ δ : Type*) where
  number : ℕ
  task : τ
  deleter : δ
deriving DecidableEq, Repr

/-- A call that is made for an entry. -/
inductive Call (τ δ : Type*)
  /-- `task->run()` is called. -/
  | run (entry : Entry τ δ)
  /-- `task->run()` is back. -/
  | ran (entry : Entry τ δ)
  /-- `deleter(task)`. -/
  | delete (entry : Entry τ δ)
deriving DecidableEq, Repr

/-- Where a thread of `m_threads` stands in `worker`. -/
inductive Thread (τ δ : Type*)
  /-- Not created. -/
  | unborn
  /-- In `getNext`, before it has the lock or awake again. -/
  | locking
  /-- In `m_cv.wait`. -/
  | waiting
  /-- Before `task->run()`. -/
  | taken (entry : Entry τ δ)
  /-- In `task->run()`. -/
  | running (entry : Entry τ δ)
  /-- Before `deleter(task)`. -/
  | ran (entry : Entry τ δ)
  /-- Out of the loop. -/
  | exited
deriving DecidableEq, Repr

/-- Where the thread stands that constructs and destroys the queue. -/
inductive Owner (τ δ : Type*)
  /-- In the loop of the constructor. -/
  | constructing
  /-- In the handler of the constructor, after `setExit`. -/
  | unwinding
  /-- The constructor has thrown. -/
  | thrown
  /-- Between the constructor and the destructor. -/
  | alive
  /-- In the destructor, after `setExit`. -/
  | joining
  /-- In the last loop of the destructor, with the pairs it has yet to visit. -/
  | sweeping (rest : List (Entry τ δ))
  /-- The destructor is back. -/
  | returned
deriving DecidableEq, Repr

/-- The queue, its threads, `m_threads.size()` and the owner. `pushed` and `dequeued` record the
entries that were put into `m_tasks` and those `getNext` took out; `log` records the calls. -/
structure State (τ δ : Type*) where
  queue : CworkQueue (Entry τ δ) := {}
  threads : ℕ → Thread τ δ := fun _ => .unborn
  created : ℕ := 0
  owner : Owner τ δ := .constructing
  pushed : List (Entry τ δ) := []
  dequeued : List (Entry τ δ) := []
  log : List (Call τ δ) := []

/-- Events of the work queue. -/
inductive Event (τ δ : Type*)
  /-- The constructor creates a thread. -/
  | create
  /-- The constructor cannot create a thread. -/
  | createFails
  /-- The constructor is back. -/
  | constructed
  /-- `pushTask`; `woken` is the thread that `notify_one` wakes, if one waits. -/
  | pushTask (task : τ) (deleter : δ) (woken : Option ℕ)
  /-- The next step of a thread. -/
  | thread (i : ℕ)
  /-- A thread wakes up without a notification. -/
  | wake (i : ℕ)
  /-- The destructor calls `setExit`. -/
  | setExit
  /-- The threads have been joined. -/
  | join
  /-- The last loop of the destructor goes on. -/
  | sweep

/-! ## Steps -/

variable {τ δ : Type*}

/-- The thread is in `m_cv.wait`. -/
def Thread.isWaiting : Thread τ δ → Bool
  | .waiting => true
  | _ => false

/-- A notification reaches the thread. -/
def Thread.awake : Thread τ δ → Thread τ δ
  | .waiting => .locking
  | t => t

/-- The thread does not run any more. -/
def Thread.isExited : Thread τ δ → Bool
  | .exited => true
  | _ => false

/-- `pushTask` may be called. A task that is run may push another one while the destructor waits
for its thread. -/
def Owner.accepts : Owner τ δ → Bool
  | .alive | .joining => true
  | _ => false

namespace State

/-- `m_cv.notify_all`. -/
def notifyAll (σ : State τ δ) : State τ δ :=
  { σ with threads := fun i => (σ.threads i).awake }

/-- `m_cv.notify_one`: a waiting thread wakes up, if there is one. -/
def notifyOne (woken : Option ℕ) (σ : State τ δ) : Option (State τ δ) :=
  match woken with
  | some i =>
    if (σ.threads i).isWaiting then
      some { σ with threads := Function.update σ.threads i .locking }
    else none
  | none => if ∀ i < σ.created, (σ.threads i).isWaiting = false then some σ else none

/-- `pushTask`. -/
def pushTask (task : τ) (deleter : δ) (σ : State τ δ) : State τ δ :=
  let entry : Entry τ δ := { number := σ.pushed.length, task := task, deleter := deleter }
  { σ with queue := σ.queue.pushTask entry, pushed := σ.pushed ++ [entry] }

/-- `setExit`. -/
def setExit (σ : State τ δ) : State τ δ :=
  { σ with queue := σ.queue.setExit }.notifyAll

/-- One step of `worker`. -/
def thread (i : ℕ) (σ : State τ δ) : Option (State τ δ) :=
  match σ.threads i with
  | .locking =>
    match σ.queue.getNext with
    | (.exit, _) => some { σ with threads := Function.update σ.threads i .exited }
    | (.wait, _) => some { σ with threads := Function.update σ.threads i .waiting }
    | (.task entry, queue) => some { σ with
        queue := queue
        dequeued := σ.dequeued ++ [entry]
        threads := Function.update σ.threads i (.taken entry) }
  | .taken entry => some { σ with
      threads := Function.update σ.threads i (.running entry)
      log := σ.log ++ [.run entry] }
  | .running entry => some { σ with
      threads := Function.update σ.threads i (.ran entry)
      log := σ.log ++ [.ran entry] }
  | .ran entry => some { σ with
      threads := Function.update σ.threads i .locking
      log := σ.log ++ [.delete entry] }
  | .unborn | .waiting | .exited => none

/-- All threads of `m_threads` can be joined. -/
def Joinable (σ : State τ δ) : Prop :=
  ∀ i < σ.created, (σ.threads i).isExited = true

instance (σ : State τ δ) : Decidable σ.Joinable :=
  inferInstanceAs (Decidable (∀ i < σ.created, (σ.threads i).isExited = true))

/-- One step of the constructor, the destructor or what lies between them, for `nThread`. -/
def step (nThread : ℕ) (σ : State τ δ) : Event τ δ → Option (State τ δ)
  | .create =>
    match σ.owner with
    | .constructing =>
      if σ.created < nThread then
        some { σ with
          threads := Function.update σ.threads σ.created .locking
          created := σ.created + 1 }
      else none
    | _ => none
  | .createFails =>
    match σ.owner with
    | .constructing =>
      if σ.created < nThread then some { σ with owner := .unwinding }.setExit else none
    | _ => none
  | .constructed =>
    match σ.owner with
    | .constructing => if σ.created = nThread then some { σ with owner := .alive } else none
    | _ => none
  | .pushTask task deleter woken =>
    if σ.owner.accepts then (σ.pushTask task deleter).notifyOne woken else none
  | .thread i => σ.thread i
  | .wake i =>
    if (σ.threads i).isWaiting then
      some { σ with threads := Function.update σ.threads i .locking }
    else none
  | .setExit =>
    match σ.owner with
    | .alive => some { σ with owner := .joining }.setExit
    | _ => none
  | .join =>
    match σ.owner with
    | .unwinding => if σ.Joinable then some { σ with owner := .thrown } else none
    | .joining => if σ.Joinable then some { σ with owner := .sweeping σ.queue.tasks } else none
    | _ => none
  | .sweep =>
    match σ.owner with
    | .sweeping [] => some { σ with owner := .returned }
    | .sweeping (entry :: rest) => some { σ with
        owner := .sweeping rest
        log := σ.log ++ [.delete entry] }
    | _ => none

end State

end WorkQueue

/-- The work queue with `nThread` threads, from the start of its constructor on. -/
def workQueueSystem (τ δ : Type*) (nThread : ℕ) :
    Lib.Lts (WorkQueue.State τ δ) (WorkQueue.Event τ δ) where
  init := {}
  step := WorkQueue.State.step nThread

end NetworkPool
