import NetworkPool.Lib.Log
import NetworkPool.Server.Registry

/-!
# The order of the responses

Tasks are pushed and taken in the order of the requests. What a thread does with a task after it
has taken it is not ordered with what the others do: with two threads responses to pipelined
requests can be sent in either order. They come in order when a thread takes a request only while
no other thread still has to respond to one of the same node (`TakesAlone`), as with one thread.
-/

namespace NetworkPool

open Lib (EachEntry)
open WorkQueue (Entry Effect Accounted Shape)
open Lib.CString (lit)

namespace System

variable {n : ℕ} {σ σ' : System} {e : SystemEvent}

/-! ## What is promised -/

/-- Whenever a response is sent or a close requested, the responses to the earlier requests of the
node were sent before, but for those that were canceled. -/
def InOrder (σ : System) : Prop :=
  EachEntry (fun a r => ∀ k < r.task, (σ.server.heap k).node = (σ.server.heap r.task).node →
    (σ.server.heap k).canceled = false → ∃ base, .send k base ∈ a) σ.replies

/-- The thread has taken the task of the entry and not yet sent the response. -/
def Pending (σ : System) (i : ℕ) (entry : Entry ℕ Unit) : Prop :=
  σ.workQueue.threads i = .taken entry ∨
    σ.workQueue.threads i = .running entry ∧ (σ.runs i = .start ∨ σ.runs i = .checked)

/-- If a thread takes a request in the step, no thread still has to respond to another one of the
same node. -/
def TakesAlone (σ : System) (_e : SystemEvent) (σ' : System) : Prop :=
  ∀ entry, σ'.workQueue.dequeued = σ.workQueue.dequeued ++ [entry] →
    ∀ j entry', σ.Pending j entry' →
      (σ.server.heap entry'.task).node ≠ (σ.server.heap entry.task).node

/-! ## The invariant -/

/-- How tasks are passed on. -/
structure Ordered (σ : System) : Prop where
  /-- The tasks are pushed in the order in which they are constructed. -/
  pushed : σ.workQueue.pushed.map Entry.task ++ σ.built.toList = List.range σ.server.nextTask
  /-- At most one thread has to respond to a task of a node. -/
  alone : ∀ i j entry entry', σ.Pending i entry → σ.Pending j entry' →
    (σ.server.heap entry.task).node = (σ.server.heap entry'.task).node → i = j
  /-- What was taken is responded to, unless it is canceled. -/
  served : ∀ entry ∈ σ.workQueue.dequeued, (∃ i, σ.Pending i entry) ∨
    (σ.server.heap entry.task).canceled = true ∨ ∃ base, .send entry.task base ∈ σ.replies
  sent : ∀ i entry, σ.workQueue.threads i = .running entry → σ.runs i = .sent →
    ∃ base, .send entry.task base ∈ σ.replies
  pool : σ.acts ≠ [] ∨ 0 < σ.server.nextTask → σ.server.pool = true
  inOrder : σ.InOrder

/-- What most steps leave alone. -/
structure Kept (σ σ' : System) : Prop where
  pushed : σ'.workQueue.pushed = σ.workQueue.pushed
  dequeued : σ'.workQueue.dequeued = σ.workQueue.dequeued
  built : σ'.built = σ.built
  nextTask : σ'.server.nextTask = σ.server.nextTask
  node : ∀ task, (σ'.server.heap task).node = (σ.server.heap task).node
  canceled : ∀ task, (σ.server.heap task).canceled = true → (σ'.server.heap task).canceled = true
  pool : σ.server.pool = true → σ'.server.pool = true
  acts : σ'.acts ≠ [] → σ.acts ≠ [] ∨ σ'.server.pool = true

theorem Kept.heap (hheap : σ'.server.heap = σ.server.heap)
    (hpushed : σ'.workQueue.pushed = σ.workQueue.pushed)
    (hdequeued : σ'.workQueue.dequeued = σ.workQueue.dequeued) (hbuilt : σ'.built = σ.built)
    (hnext : σ'.server.nextTask = σ.server.nextTask)
    (hpool : σ.server.pool = true → σ'.server.pool = true)
    (hacts : σ'.acts ≠ [] → σ.acts ≠ []) : Kept σ σ' where
  pushed := hpushed
  dequeued := hdequeued
  built := hbuilt
  nextTask := hnext
  node := fun task => by rw [hheap]
  canceled := fun task h => by rwa [hheap]
  pool := hpool
  acts := fun h => .inl (hacts h)

/-- What was promised of the replies so far stays true. -/
theorem InOrder.kept (h : σ.InOrder) (hkept : Kept σ σ') (hreplies : σ'.replies = σ.replies) :
    σ'.InOrder := by
  unfold InOrder at h ⊢
  rw [hreplies]
  refine h.imp ?_
  intro r _ a hr k hlt hnode hcanceled
  rw [hkept.node, hkept.node] at hnode
  apply hr k hlt hnode
  by_contra hset
  rw [Bool.not_eq_false] at hset
  rw [hkept.canceled k hset] at hcanceled
  exact absurd hcanceled (by simp)

/-- A step after which no thread has more to respond to than before. -/
theorem Ordered.kept (h : Ordered σ) (hkept : Kept σ σ')
    (hpending : ∀ i entry, σ'.Pending i entry → σ.Pending i entry)
    (hserved : ∀ i entry, σ.Pending i entry → (∃ i, σ'.Pending i entry) ∨
      (σ'.server.heap entry.task).canceled = true ∨ ∃ base, .send entry.task base ∈ σ'.replies)
    (hsent : ∀ i entry, σ'.workQueue.threads i = .running entry → σ'.runs i = .sent →
      ∃ base, .send entry.task base ∈ σ'.replies)
    (hreplies : σ.replies ⊆ σ'.replies) (hinOrder : σ'.InOrder) : Ordered σ' := by
  refine ⟨?_, ?_, ?_, hsent, ?_, hinOrder⟩
  · rw [hkept.pushed, hkept.built, hkept.nextTask]
    exact h.pushed
  · intro i j entry entry' hi hj hnode
    rw [hkept.node, hkept.node] at hnode
    exact h.alone i j entry entry' (hpending i entry hi) (hpending j entry' hj) hnode
  · intro entry hentry
    rw [hkept.dequeued] at hentry
    rcases h.served entry hentry with ⟨i, hi⟩ | hcanceled | ⟨base, hbase⟩
    · exact hserved i entry hi
    · exact .inr (.inl (hkept.canceled _ hcanceled))
    · exact .inr (.inr ⟨base, hreplies hbase⟩)
  · rw [hkept.nextTask]
    rintro (hacts | hnext)
    · rcases hkept.acts hacts with hacts | hpool
      · exact hkept.pool (h.pool (.inl hacts))
      · exact hpool
    · exact hkept.pool (h.pool (.inr hnext))

/-- A step that leaves the threads where they are. -/
theorem Ordered.same (h : Ordered σ) (hkept : Kept σ σ')
    (hthreads : σ'.workQueue.threads = σ.workQueue.threads) (hruns : σ'.runs = σ.runs)
    (hreplies : σ'.replies = σ.replies) : Ordered σ' := by
  have hsame : ∀ i entry, σ'.Pending i entry ↔ σ.Pending i entry := by
    intro i entry
    unfold Pending
    rw [hthreads, hruns]
  refine h.kept hkept (fun i entry => (hsame i entry).mp) ?_ ?_ ?_ (h.inOrder.kept hkept hreplies)
  · exact fun i entry hi => .inl ⟨i, (hsame i entry).mpr hi⟩
  · rw [hthreads, hruns, hreplies]
    exact h.sent
  · rw [hreplies]
    exact List.Subset.refl _

/-- A step of the thread `i`. -/
theorem Ordered.thread {i : ℕ} (h : Ordered σ) (hkept : Kept σ σ')
    (hthreads : ∀ j, j ≠ i → σ'.workQueue.threads j = σ.workQueue.threads j)
    (hruns : ∀ j, j ≠ i → σ'.runs j = σ.runs j)
    (hpending : ∀ entry, σ'.Pending i entry → σ.Pending i entry)
    (hserved : ∀ entry, σ.Pending i entry → σ'.Pending i entry ∨
      (σ'.server.heap entry.task).canceled = true ∨ ∃ base, .send entry.task base ∈ σ'.replies)
    (hsent : ∀ entry, σ'.workQueue.threads i = .running entry → σ'.runs i = .sent →
      ∃ base, .send entry.task base ∈ σ'.replies)
    (hreplies : σ.replies ⊆ σ'.replies) (hinOrder : σ'.InOrder) : Ordered σ' := by
  have hother : ∀ j, j ≠ i → ∀ entry, σ'.Pending j entry ↔ σ.Pending j entry := by
    intro j hj entry
    unfold Pending
    rw [hthreads j hj, hruns j hj]
  refine h.kept hkept ?_ ?_ ?_ hreplies hinOrder
  · intro j entry hentry
    by_cases hj : j = i
    · subst hj
      exact hpending entry hentry
    · exact (hother j hj entry).mp hentry
  · intro j entry hentry
    by_cases hj : j = i
    · subst hj
      exact (hserved entry hentry).imp_left fun hpending => ⟨j, hpending⟩
    · exact .inl ⟨j, (hother j hj entry).mpr hentry⟩
  · intro j entry hthread hrun
    by_cases hj : j = i
    · subst hj
      exact hsent entry hthread hrun
    · rw [hthreads j hj] at hthread
      rw [hruns j hj] at hrun
      obtain ⟨base, hbase⟩ := h.sent j entry hthread hrun
      exact ⟨base, hreplies hbase⟩

/-- A step of the thread `i` inside `run`. -/
theorem Ordered.within {i : ℕ} {entry : Entry ℕ Unit} {run : Run} (h : Ordered σ)
    (hkept : Kept σ σ') (hthread : σ.workQueue.threads i = .running entry)
    (hqueue : σ'.workQueue = σ.workQueue) (hruns : σ'.runs = Function.update σ.runs i run)
    (hpending : run = .start ∨ run = .checked → σ.runs i = .start ∨ σ.runs i = .checked)
    (hserved : σ.runs i = .start ∨ σ.runs i = .checked → (run = .start ∨ run = .checked) ∨
      (σ'.server.heap entry.task).canceled = true ∨ ∃ base, .send entry.task base ∈ σ'.replies)
    (hsent : run = .sent → ∃ base, .send entry.task base ∈ σ'.replies)
    (hreplies : σ.replies ⊆ σ'.replies) (hinOrder : σ'.InOrder) : Ordered σ' := by
  have hself : σ'.runs i = run := by
    rw [hruns, Function.update_self]
  have hrunning : ∀ entry', σ.workQueue.threads i = .running entry' → entry' = entry := by
    intro entry' heq
    exact WorkQueue.Thread.running.inj (heq.symm.trans hthread)
  refine h.thread (i := i) hkept ?_ ?_ ?_ ?_ ?_ hreplies hinOrder
  · intro j _
    rw [hqueue]
  · intro j hj
    rw [hruns, Function.update_of_ne hj]
  · rintro entry' (htaken | ⟨heq, hrun⟩)
    · rw [hqueue, hthread] at htaken
      exact absurd htaken (by simp)
    · rw [hqueue] at heq
      rw [hself] at hrun
      exact .inr ⟨heq, hpending hrun⟩
  · rintro entry' (htaken | ⟨heq, hrun⟩)
    · rw [hthread] at htaken
      exact absurd htaken (by simp)
    · obtain rfl := hrunning entry' heq
      rcases hserved hrun with hstill | hdone
      · refine .inl (.inr ⟨?_, ?_⟩)
        · rw [hqueue]
          exact heq
        · rw [hself]
          exact hstill
      · exact .inr hdone
  · intro entry' heq hrun
    rw [hqueue] at heq
    rw [hself] at hrun
    rw [hrunning entry' heq]
    exact hsent hrun

/-! ## The steps -/

theorem taken_iff_held {t : WorkQueue.Thread ℕ Unit} {entry : Entry ℕ Unit} :
    t = .taken entry ↔ t.held = some (entry, []) := by
  cases t <;> simp [WorkQueue.Thread.held]

theorem running_iff_held {t : WorkQueue.Thread ℕ Unit} {entry : Entry ℕ Unit} :
    t = .running entry ↔ t.held = some (entry, [.run entry]) := by
  cases t <;> simp [WorkQueue.Thread.held]

/-- What a thread has to respond to is decided by what it holds. -/
theorem pending_congr {i : ℕ} {entry : Entry ℕ Unit}
    (hheld : (σ'.workQueue.threads i).held = (σ.workQueue.threads i).held)
    (hrun : σ'.runs i = σ.runs i) : σ'.Pending i entry ↔ σ.Pending i entry := by
  unfold Pending
  rw [taken_iff_held, taken_iff_held, running_iff_held, running_iff_held, hheld, hrun]

/-- The tasks have the numbers of their entries. -/
theorem Ordered.task_eq (h : Ordered σ) (haccounted : Accounted σ.workQueue)
    {entry : Entry ℕ Unit} (hentry : entry ∈ σ.workQueue.pushed) :
    entry.task = entry.number := by
  have hprefix : σ.workQueue.pushed.map Entry.task <+: List.range σ.server.nextTask :=
    ⟨_, h.pushed⟩
  have htake := List.prefix_iff_eq_take.mp hprefix
  have hle := hprefix.length_le
  rw [List.length_map, List.length_range] at hle
  rw [List.length_map, List.take_range, min_eq_left hle, ← haccounted.numbers] at htake
  exact List.map_inj_left.mp htake entry hentry

/-- The tasks before one that was taken were taken. -/
theorem Ordered.exists_dequeued (h : Ordered σ) (haccounted : Accounted σ.workQueue)
    {entry : Entry ℕ Unit} (hentry : entry ∈ σ.workQueue.dequeued) {k : ℕ} (hk : k < entry.task) :
    ∃ entry' ∈ σ.workQueue.dequeued, entry'.task = k := by
  have hprefix : σ.workQueue.dequeued.map Entry.number <+:
      List.range σ.workQueue.pushed.length := by
    rw [← haccounted.numbers, ← haccounted.order, List.map_append]
    exact List.prefix_append _ _
  have htake := List.prefix_iff_eq_take.mp hprefix
  have hle := hprefix.length_le
  rw [List.length_map, List.length_range] at hle
  rw [List.length_map, List.take_range, min_eq_left hle] at htake
  have hnumber : ∀ m, m < σ.workQueue.dequeued.length ↔
      ∃ entry' ∈ σ.workQueue.dequeued, entry'.number = m := by
    intro m
    rw [← List.mem_range, ← htake, List.mem_map]
  have hlt := (hnumber entry.number).mpr ⟨entry, hentry, rfl⟩
  rw [h.task_eq haccounted (haccounted.mem_of_dequeued hentry)] at hk
  obtain ⟨entry', hentry', heq⟩ := (hnumber k).mp (by omega)
  exact ⟨entry', hentry', (h.task_eq haccounted (haccounted.mem_of_dequeued hentry')).trans heq⟩

theorem Pending.mem_dequeued {i : ℕ} {entry : Entry ℕ Unit} (h : σ.Pending i entry)
    (haccounted : Accounted σ.workQueue) : entry ∈ σ.workQueue.dequeued := by
  rcases h with htaken | ⟨hrunning, -⟩
  · exact (haccounted.held i entry _ (taken_iff_held.mp htaken)).1
  · exact (haccounted.held i entry _ (running_iff_held.mp hrunning)).1

/-- The responses to the requests before `task` are sent, but for those that were canceled. -/
def Behind (σ : System) (task : ℕ) : Prop :=
  ∀ k < task, (σ.server.heap k).node = (σ.server.heap task).node →
    (σ.server.heap k).canceled = false → ∃ base, .send k base ∈ σ.replies

/-- A thread that goes on to send a response is behind the responses to the earlier requests. -/
theorem Ordered.behind_send {i : ℕ} {entry : Entry ℕ Unit} (h : Ordered σ)
    (haccounted : Accounted σ.workQueue) (hthread : σ.workQueue.threads i = .running entry)
    (hrun : σ.runs i = .checked) : σ.Behind entry.task := by
  have hi : σ.Pending i entry := .inr ⟨hthread, .inr hrun⟩
  intro k hk hnode hcanceled
  obtain ⟨entry', hentry', rfl⟩ := h.exists_dequeued haccounted (hi.mem_dequeued haccounted) hk
  rcases h.served entry' hentry' with ⟨j, hj⟩ | hset | hsent
  · -- no other thread has one of the node, and this one has one only
    obtain rfl := h.alone j i entry' entry hj hi hnode
    have heq : entry' = entry := by
      rcases hj with htaken | ⟨hrunning, -⟩
      · rw [hthread] at htaken
        exact absurd htaken (by simp)
      · exact WorkQueue.Thread.running.inj (hrunning.symm.trans hthread)
    rw [heq] at hk
    exact absurd hk (Nat.lt_irrefl _)
  · exact absurd (hcanceled.symm.trans hset) (by simp)
  · exact hsent

/-- And so is one that has sent it. -/
theorem Ordered.behind_sent {i : ℕ} {entry : Entry ℕ Unit} (h : Ordered σ)
    (hthread : σ.workQueue.threads i = .running entry) (hrun : σ.runs i = .sent) :
    σ.Behind entry.task := by
  intro k hk hnode hcanceled
  obtain ⟨base, hbase⟩ := h.sent i entry hthread hrun
  obtain ⟨a, b, hreplies⟩ := List.append_of_mem hbase
  obtain ⟨base', hbase'⟩ := h.inOrder a _ b hreplies k hk hnode hcanceled
  rw [hreplies]
  exact ⟨base', List.mem_append_left _ hbase'⟩

theorem InOrder.concat (r : Reply) (h : σ.InOrder) (hr : σ.Behind r.task)
    (hheap : σ'.server.heap = σ.server.heap) (hreplies : σ'.replies = σ.replies ++ [r]) :
    σ'.InOrder := by
  unfold InOrder
  rw [hheap, hreplies]
  exact EachEntry.concat h hr

/-- A task is constructed. -/
theorem Ordered.build {node : CnetworkNode} {context : ChttpContext}
    {acts : List (CnetworkNode × HttpAct)} (h : Ordered σ) (hregistered : Registered σ)
    (haccounted : Accounted σ.workQueue) (hacts : σ.acts = (node, .pushTask context) :: acts)
    (hbuilt : σ.built = none) :
    Ordered { σ with
      server := σ.server.newTask node context σ.reader
      built := some σ.server.nextTask } := by
  have hold : ∀ task < σ.server.nextTask,
      (σ.server.newTask node context σ.reader).heap task = σ.server.heap task := by
    intro task hlt
    exact Function.update_of_ne (by omega) _ _
  have hentry : ∀ {entry : Entry ℕ Unit}, entry ∈ σ.workQueue.dequeued →
      entry.task < σ.server.nextTask :=
    fun hmem => hregistered.pushed _ (haccounted.mem_of_dequeued hmem)
  refine ⟨?_, ?_, ?_, h.sent, fun _ => h.pool (.inl (by simp [hacts])), ?_⟩
  · have hpushed := h.pushed
    rw [hbuilt, Option.toList_none, List.append_nil] at hpushed
    show σ.workQueue.pushed.map Entry.task ++ [σ.server.nextTask] =
      List.range (σ.server.nextTask + 1)
    rw [hpushed, List.range_succ]
  · intro i j entry entry' hi hj hnode
    have hi' : σ.Pending i entry := hi
    have hj' : σ.Pending j entry' := hj
    simp only [hold _ (hentry (hi'.mem_dequeued haccounted)),
      hold _ (hentry (hj'.mem_dequeued haccounted))] at hnode
    exact h.alone i j entry entry' hi' hj' hnode
  · intro entry hmem
    show _ ∨ ((σ.server.newTask node context σ.reader).heap entry.task).canceled = true ∨ _
    rw [hold _ (hentry hmem)]
    exact h.served entry hmem
  · refine EachEntry.imp h.inOrder ?_
    intro r hr a hbefore k hk
    obtain ⟨entry, hrun, htask⟩ := hregistered.begun r hr
    have hlt := hregistered.pushed entry (haccounted.logged _ hrun)
    show ((σ.server.newTask node context σ.reader).heap k).node =
      ((σ.server.newTask node context σ.reader).heap r.task).node →
      ((σ.server.newTask node context σ.reader).heap k).canceled = false → _
    rw [hold k (by omega), hold r.task (by omega)]
    exact hbefore k hk

/-- The task that was constructed is pushed. -/
theorem Ordered.push {task : ℕ} {woken : Option ℕ} {q : WorkQueue.State ℕ Unit}
    {node : CnetworkNode} {context : ChttpContext} {acts : List (CnetworkNode × HttpAct)}
    (h : Ordered σ) (hacts : σ.acts = (node, .pushTask context) :: acts)
    (hbuilt : σ.built = some task)
    (hstep : σ.workQueue.step n (.pushTask task () woken) = some q) :
    Ordered { σ with workQueue := q, built := none, acts := acts } := by
  obtain ⟨entry, htask, hpushed, -, hrunning⟩ := WorkQueue.pushTask_records hstep
  obtain ⟨hheld, hdequeued⟩ := WorkQueue.pushTask_held hstep
  have hpending : ∀ i entry,
      { σ with workQueue := q, built := none, acts := acts : System }.Pending i entry ↔
        σ.Pending i entry :=
    fun i entry => pending_congr (hheld i) rfl
  refine ⟨?_, ?_, ?_, ?_, fun _ => h.pool (.inl (by simp [hacts])), h.inOrder⟩
  · have hbefore := h.pushed
    rw [hbuilt, Option.toList_some] at hbefore
    show q.pushed.map Entry.task ++ [] = List.range σ.server.nextTask
    rw [hpushed, List.map_append, List.map_singleton, htask, List.append_nil, hbefore]
  · intro i j entry entry' hi hj
    exact h.alone i j entry entry' ((hpending i entry).mp hi) ((hpending j entry').mp hj)
  · intro entry hentry
    have hmem : entry ∈ q.dequeued := hentry
    rw [hdequeued] at hmem
    exact (h.served entry hmem).imp_left fun ⟨i, hi⟩ => ⟨i, (hpending i entry).mpr hi⟩
  · intro i entry hthread hrun
    exact h.sent i entry ((hrunning i entry).mp hthread) hrun

/-- A thread takes a task. -/
theorem Ordered.take {i : ℕ} {entry : Entry ℕ Unit} {q : WorkQueue.State ℕ Unit} (h : Ordered σ)
    (halone : σ.TakesAlone e { σ with workQueue := q })
    (hpushed : q.pushed = σ.workQueue.pushed)
    (hdequeued : q.dequeued = σ.workQueue.dequeued ++ [entry])
    (hidle : (σ.workQueue.threads i).held = none)
    (hthreads : q.threads = Function.update σ.workQueue.threads i (.taken entry)) :
    Ordered { σ with workQueue := q } := by
  have hself : ∀ entry', { σ with workQueue := q : System }.Pending i entry' ↔
      entry' = entry := by
    intro entry'
    unfold Pending
    simp only [hthreads, Function.update_self]
    simp [eq_comm]
  have hother : ∀ j, j ≠ i → ∀ entry',
      { σ with workQueue := q : System }.Pending j entry' ↔ σ.Pending j entry' := by
    intro j hj entry'
    unfold Pending
    simp only [hthreads, Function.update_of_ne hj]
  have hnone : ∀ entry', ¬σ.Pending i entry' := by
    rintro entry' (htaken | ⟨hrunning, -⟩)
    · rw [taken_iff_held, hidle] at htaken
      exact absurd htaken (by simp)
    · rw [running_iff_held, hidle] at hrunning
      exact absurd hrunning (by simp)
  refine ⟨?_, ?_, ?_, ?_, h.pool, h.inOrder⟩
  · show q.pushed.map Entry.task ++ _ = _
    rw [hpushed]
    exact h.pushed
  · intro j l entry₁ entry₂ hj hl hnode
    by_cases hji : j = i
    · by_cases hli : l = i
      · rw [hji, hli]
      · rw [hji, hself] at hj
        rw [hother l hli] at hl
        rw [hj] at hnode
        exact absurd hnode.symm (halone entry hdequeued l entry₂ hl)
    · rw [hother j hji] at hj
      by_cases hli : l = i
      · rw [hli, hself] at hl
        rw [hl] at hnode
        exact absurd hnode (halone entry hdequeued j entry₁ hj)
      · rw [hother l hli] at hl
        exact h.alone j l entry₁ entry₂ hj hl hnode
  · intro entry' hentry
    have hmem : entry' ∈ q.dequeued := hentry
    rw [hdequeued, List.mem_append, List.mem_singleton] at hmem
    rcases hmem with hmem | rfl
    · refine (h.served entry' hmem).imp_left ?_
      rintro ⟨j, hj⟩
      have hji : j ≠ i := by
        intro heq
        exact hnone entry' (heq ▸ hj)
      exact ⟨j, (hother j hji entry').mpr hj⟩
    · exact .inl ⟨i, (hself entry').mpr rfl⟩
  · intro j entry' hthread hrun
    have hthread' : Function.update σ.workQueue.threads i (.taken entry) j = .running entry' := by
      rw [← hthreads]
      exact hthread
    by_cases hji : j = i
    · rw [hji, Function.update_self] at hthread'
      exact absurd hthread' (by simp)
    · rw [Function.update_of_ne hji] at hthread'
      exact h.sent j entry' hthread' hrun

/-- A step of the work queue that is no call. -/
theorem Ordered.idle {qe : WorkQueue.Event ℕ Unit} {q : WorkQueue.State ℕ Unit} (h : Ordered σ)
    (hshape : Shape σ.workQueue) (halone : σ.TakesAlone e { σ with workQueue := q })
    (hstep : σ.workQueue.step n qe = some q) (hsame : WorkQueue.Same σ.workQueue q) :
    Ordered { σ with workQueue := q } := by
  have hcall : ∀ c, q.log ≠ σ.workQueue.log ++ [c] := by
    intro c hlog
    rw [hsame.log] at hlog
    have hlength := congrArg List.length hlog
    rw [List.length_append, List.length_singleton] at hlength
    omega
  cases (WorkQueue.step_effect hshape hstep).2 with
  | quiet htasks hpushed hdequeued hlog hrest hheld =>
    have hpending : ∀ i entry,
        { σ with workQueue := q : System }.Pending i entry ↔ σ.Pending i entry :=
      fun i entry => pending_congr (hheld i) rfl
    have hkept : Kept σ { σ with workQueue := q } :=
      .heap rfl hpushed hdequeued rfl rfl id id
    refine h.kept hkept (fun i entry => (hpending i entry).mp) ?_ ?_ (List.Subset.refl _) h.inOrder
    · exact fun i entry hi => .inl ⟨i, (hpending i entry).mpr hi⟩
    · intro i entry hthread hrun
      exact h.sent i entry ((hsame.running i entry).mp hthread) hrun
  | push entry hnumber htasks hpushed =>
    rw [hsame.pushed] at hpushed
    have hlength := congrArg List.length hpushed
    rw [List.length_append, List.length_singleton] at hlength
    omega
  | take i entry htasks hpushed hdequeued hlog hbefore hrest hidle hthreads =>
    exact h.take halone hpushed hdequeued hidle hthreads
  | call i c l t htasks hpushed hdequeued hlog => exact absurd hlog (hcall c)
  | sweep entry htasks hpushed hdequeued hlog => exact absurd hlog (hcall _)

/-- **A step keeps the order**, if a task that is taken is the only one of its node. -/
theorem ordered_step (h : Ordered σ) (hshape : Shape σ.workQueue)
    (haccounted : Accounted σ.workQueue) (hregistered : Registered σ)
    (halone : σ.TakesAlone e σ') (hstep : Step n σ e σ') : Ordered σ' := by
  have hreply : ∀ r, σ.replies ⊆ σ.replies ++ [r] := fun r => List.subset_append_left _ _
  cases hstep with
  | setNetworkPool => exact h.same (.heap rfl rfl rfl rfl rfl (fun _ => rfl) id) rfl rfl rfl
  | pool | fault => exact h.same (.heap rfl rfl rfl rfl rfl id id) rfl rfl rfl
  | close woken node acts hacts =>
    refine h.same (.heap rfl rfl rfl rfl rfl id fun _ => ?_) rfl rfl rfl
    rw [hacts]
    simp
  | callback garbage newTask c callbacks acts server hacts hcallbacks hcall =>
    refine h.same ⟨rfl, rfl, rfl, hcall.nextTask, ?_, ?_, ?_, ?_⟩ rfl rfl rfl
    · intro task
      rcases hcall.heap task with heq | heq
      · exact (congrArg ChttpTask.node heq :)
      · exact (congrArg ChttpTask.node heq :)
    · intro task hset
      rcases hcall.heap task with heq | heq
      · exact (congrArg ChttpTask.canceled heq :).trans hset
      · exact (congrArg ChttpTask.canceled heq :)
    · intro hpool
      exact hcall.pool.trans hpool
    · intro hne
      obtain ⟨a, ha⟩ := List.exists_mem_of_ne_nil _ hne
      exact .inr (hcall.pool.trans (hcall.acts a ha).1)
  | build woken node context acts hacts hbuilt => exact h.build hregistered haccounted hacts hbuilt
  | push woken node context acts task q hacts hbuilt hq => exact h.push hacts hbuilt hq
  | idle e qe q hevent hq hsame => exact h.idle hshape halone hq (hsame hshape)
  | start i entry hthread =>
    have hkept : Kept σ { σ with
        workQueue := { σ.workQueue with
          threads := Function.update σ.workQueue.threads i (.running entry)
          log := σ.workQueue.log ++ [.run entry] }
        runs := Function.update σ.runs i .start } := .heap rfl rfl rfl rfl rfl id id
    refine h.thread (i := i) hkept ?_ ?_ ?_ ?_ ?_ (List.Subset.refl _) (h.inOrder.kept hkept rfl)
    · exact fun j hj => Function.update_of_ne hj _ _
    · exact fun j hj => Function.update_of_ne hj _ _
    · rintro entry' (htaken | ⟨hrunning, -⟩)
      · simp at htaken
      · simp only [Function.update_self, WorkQueue.Thread.running.injEq] at hrunning
        exact .inl (hrunning ▸ hthread)
    · rintro entry' (htaken | ⟨hrunning, -⟩)
      · have heq : entry = entry' := WorkQueue.Thread.taken.inj (hthread.symm.trans htaken)
        refine .inl (.inr ⟨?_, .inl ?_⟩)
        · rw [← heq]
          exact Function.update_self ..
        · exact Function.update_self ..
      · rw [hthread] at hrunning
        exact absurd hrunning (by simp)
    · intro entry' _ hrun
      simp at hrun
  | skip i entry hthread hrun hcanceled =>
    have hkept : Kept σ { σ with runs := Function.update σ.runs i .done } :=
      .heap rfl rfl rfl rfl rfl id id
    exact h.within hkept hthread rfl rfl (by simp) (fun _ => .inr (.inl hcanceled)) (by simp)
      (List.Subset.refl _) (h.inOrder.kept hkept rfl)
  | check i entry hthread hrun hcanceled =>
    have hkept : Kept σ { σ with runs := Function.update σ.runs i .checked } :=
      .heap rfl rfl rfl rfl rfl id id
    exact h.within hkept hthread rfl rfl (fun _ => .inl hrun) (fun _ => .inl (.inr rfl)) (by simp)
      (List.Subset.refl _) (h.inOrder.kept hkept rfl)
  | send i entry hthread hrun hpool =>
    exact h.within (.heap rfl rfl rfl rfl rfl id id) hthread rfl rfl (by simp)
      (fun _ => .inr (.inr ⟨_, List.mem_append_right _ (List.mem_singleton_self _)⟩))
      (fun _ => ⟨_, List.mem_append_right _ (List.mem_singleton_self _)⟩) (hreply _)
      (h.inOrder.concat (.send entry.task _) (h.behind_send haccounted hthread hrun) rfl rfl)
  | noPool i entry hthread hrun hpool =>
    -- a task is constructed only when a pool is set
    have hentry := haccounted.held i entry _ (running_iff_held.mp hthread)
    have hlt := hregistered.pushed entry (haccounted.mem_of_dequeued hentry.1)
    have hset := h.pool (.inr (by omega))
    exact absurd (hpool.symm.trans hset) (by simp)
  | replyClose i entry hthread hrun =>
    exact h.within (.heap rfl rfl rfl rfl rfl id id) hthread rfl rfl (by simp)
      (fun hpending => absurd hpending (by simp [hrun])) (by simp) (hreply _)
      (h.inOrder.concat (.close entry.task) (h.behind_sent hthread hrun) rfl rfl)
  | keepAlive i entry hthread hrun =>
    have hkept : Kept σ { σ with runs := Function.update σ.runs i .done } :=
      .heap rfl rfl rfl rfl rfl id id
    exact h.within hkept hthread rfl rfl (by simp)
      (fun hpending => absurd hpending (by simp [hrun])) (by simp) (List.Subset.refl _)
      (h.inOrder.kept hkept rfl)
  | ran i entry hthread hrun =>
    have hkept : Kept σ { σ with
        workQueue := { σ.workQueue with
          threads := Function.update σ.workQueue.threads i (.ran entry)
          log := σ.workQueue.log ++ [.ran entry] } } := .heap rfl rfl rfl rfl rfl id id
    refine h.thread (i := i) hkept ?_ (fun _ _ => rfl) ?_ ?_ ?_ (List.Subset.refl _)
      (h.inOrder.kept hkept rfl)
    · exact fun j hj => Function.update_of_ne hj _ _
    · rintro entry' (htaken | ⟨hrunning, -⟩)
      · simp at htaken
      · simp at hrunning
    · rintro entry' (htaken | ⟨-, hstill⟩)
      · rw [hthread] at htaken
        exact absurd htaken (by simp)
      · exact absurd hstill (by simp [hrun])
    · intro entry' hrunning
      simp at hrunning
  | finish i entry hthread =>
    have hkept : Kept σ { σ with
        workQueue := { σ.workQueue with
          threads := Function.update σ.workQueue.threads i .locking
          log := σ.workQueue.log ++ [.delete entry] }
        server := σ.server.deleteTask entry.task } := .heap rfl rfl rfl rfl rfl id id
    refine h.thread (i := i) hkept ?_ (fun _ _ => rfl) ?_ ?_ ?_ (List.Subset.refl _)
      (h.inOrder.kept hkept rfl)
    · exact fun j hj => Function.update_of_ne hj _ _
    · rintro entry' (htaken | ⟨hrunning, -⟩)
      · simp at htaken
      · simp at hrunning
    · rintro entry' (htaken | ⟨hrunning, -⟩)
      · rw [hthread] at htaken
        exact absurd htaken (by simp)
      · rw [hthread] at hrunning
        exact absurd hrunning (by simp)
    · intro entry' hrunning
      simp at hrunning
  | sweep entry rest howner => exact h.same (.heap rfl rfl rfl rfl rfl id id) rfl rfl rfl

theorem ordered_init : Ordered (serverSystem n).init := by
  refine ⟨rfl, ?_, ?_, ?_, ?_, EachEntry.nil _⟩ <;> simp [serverSystem, Pending]

/-! ## One thread -/

/-- No more threads are created than the server was constructed with. -/
theorem created_le (h : (serverSystem n).Reachable σ) : σ.workQueue.created ≤ n := by
  refine (reachable_workQueue h).invariant (I := fun q => q.created ≤ n) (Nat.zero_le n) ?_
  intro q qe q' _ hle hstep
  have hstep' : q.step n qe = some q' := hstep
  exact WorkQueue.created_step hle hstep'

/-- One thread has done with a task when it takes the next one. -/
theorem takesAlone_of_one (hn : n ≤ 1) (h : (serverSystem n).Reachable σ)
    (h' : (serverSystem n).Reachable σ') (hstep : Step n σ e σ') : σ.TakesAlone e σ' := by
  obtain ⟨hshape, -, -⟩ := reachable_registered h
  have hcreated := created_le h
  have hcreated' := created_le h'
  have hborn : ∀ {q : WorkQueue.State ℕ Unit}, Shape q → ∀ i, (q.threads i).held ≠ none →
      i < q.created := by
    intro q hq i hheld
    by_contra hge
    rw [(hq.unborn i).mpr (by omega)] at hheld
    exact hheld rfl
  intro entry hdequeued j entry' hj
  have hheld : (σ.workQueue.threads j).held ≠ none := by
    rcases hj with htaken | ⟨hrunning, -⟩
    · rw [htaken]
      simp [WorkQueue.Thread.held]
    · rw [hrunning]
      simp [WorkQueue.Thread.held]
  have hj₀ := hborn hshape j hheld
  have hno : ∀ l : List (Entry ℕ Unit), l ≠ l ++ [entry] := by
    intro l heq
    have hlength := congrArg List.length heq
    rw [List.length_append, List.length_singleton] at hlength
    omega
  cases hstep with
  | push woken node context acts task q hacts hbuilt hq =>
    have hdequeued' : q.dequeued = σ.workQueue.dequeued ++ [entry] := hdequeued
    rw [(WorkQueue.pushTask_held hq).2] at hdequeued'
    exact absurd hdequeued' (hno _)
  | idle e qe q hevent hq hsame =>
    have hdequeued' : q.dequeued = σ.workQueue.dequeued ++ [entry] := hdequeued
    obtain ⟨hshape', heffect⟩ := WorkQueue.step_effect hshape hq
    cases heffect with
    | take i entry₀ htasks hpushed htook hlog hbefore hrest hidle hthreads =>
      -- both threads are the only one there is
      have hi := hborn hshape' i (by rw [hthreads, Function.update_self]; simp [WorkQueue.Thread.held])
      have hle : q.created ≤ n := hcreated'
      have hij : i = j := by omega
      rw [hij] at hidle
      exact absurd hidle hheld
    | quiet htasks hpushed hkeep =>
      rw [hkeep] at hdequeued'
      exact absurd hdequeued' (hno _)
    | push entry₀ hnumber htasks hpushed hkeep =>
      rw [hkeep] at hdequeued'
      exact absurd hdequeued' (hno _)
    | call i c l t htasks hpushed hkeep =>
      rw [hkeep] at hdequeued'
      exact absurd hdequeued' (hno _)
    | sweep entry₀ htasks hpushed hkeep =>
      rw [hkeep] at hdequeued'
      exact absurd hdequeued' (hno _)
  | _ => exact absurd hdequeued (hno _)

/-! ## Runs -/

/-- **Responses in order.** With one thread, and with any number of threads in the runs in which a
thread takes a request only while no other one still has to respond to a request of the same node,
the responses to the requests of a node are sent in the order of the requests, and the close for
a request is requested after the responses to the earlier ones are sent. -/
theorem responses_in_order (n : ℕ) (es : List SystemEvent) (σ : System)
    (hrun : (serverSystem n).run es = some σ)
    (halone : n ≤ 1 ∨ (serverSystem n).EachStep TakesAlone es) : σ.InOrder := by
  suffices hordered : Ordered σ from hordered.inOrder
  have hall : (serverSystem n).EachStep TakesAlone es := by
    rcases halone with hn | hall
    · intro pre e post σ₁ σ₂ _ hpre hstep
      have hreach := Lib.Lts.reachable_of_run hpre
      exact takesAlone_of_one hn hreach (hreach.step hstep) (step_cases hstep)
    · exact hall
  refine hall.invariant hrun ordered_init ?_
  intro σ₁ e σ₂ hreach h hcond hstep
  obtain ⟨hshape, haccounted, hregistered⟩ := reachable_registered hreach
  exact ordered_step h hshape haccounted hregistered hcond (step_cases hstep)

/-- `n` threads, and a read with a request that keeps the connection alive and one that does not. -/
def pipelineRun (n : ℕ) : List SystemEvent :=
  [.setNetworkPool] ++ List.replicate n (.workQueue .create) ++
  [.workQueue .constructed, .pool (.bind sampleNode true), .pool .wakeup,
    .pool (.dispatch ⟨[], [], [], []⟩), .pool (.bindNext {}),
    .callback (fun _ => 0) (fun _ => true), .pool .wakeupDone,
    .pool (.uv (.newConnection 0 0 { peer := .in4 80 1 })),
    .callback (fun _ => 0) (fun _ => true),
    .pool (.uv (.tcpRead 1 42
      (lit "A B C\r\nConnection: Keep-Alive\r\n\r\nA B C\r\n\r\n") {})),
    .callback (fun _ => 0) (fun _ => true), .callback (fun _ => 0) (fun _ => true),
    .act none, .act none, .act none, .act none, .callback (fun _ => 0) (fun _ => true)]

/-- Two threads take one request each, and the second one is done first. -/
def overtakingRun : List SystemEvent :=
  pipelineRun 2 ++ [.worker 0, .worker 0, .worker 1, .worker 1, .worker 1, .worker 1, .worker 1,
    .worker 0, .worker 0]

/-- With two threads the responses to pipelined requests can be sent in the wrong order. -/
theorem responses_out_of_order :
    ∃ σ, (serverSystem 2).run overtakingRun = some σ ∧
      (σ.server.heap 0).node = sampleNode ∧ (σ.server.heap 1).node = sampleNode ∧
      (σ.server.heap 0).reader = 1 ∧ (σ.server.heap 1).reader = 1 ∧
      (σ.server.heap 0).context.isKeepAlive = true ∧ (σ.server.heap 0).canceled = false ∧
      σ.replies = [.send 1 0, .close 1, .send 0 1] ∧ ¬σ.InOrder := by
  have hrun := (Option.some_get (x := (serverSystem 2).run overtakingRun) (by decide +kernel)).symm
  set σ := ((serverSystem 2).run overtakingRun).get (by decide +kernel) with hσ
  obtain ⟨hfirst, hsecond, hreader, hreader', hkeep, hcanceled, hreplies⟩ :
      (σ.server.heap 0).node = sampleNode ∧ (σ.server.heap 1).node = sampleNode ∧
      (σ.server.heap 0).reader = 1 ∧ (σ.server.heap 1).reader = 1 ∧
      (σ.server.heap 0).context.isKeepAlive = true ∧ (σ.server.heap 0).canceled = false ∧
      σ.replies = [.send 1 0, .close 1, .send 0 1] := by
    rw [hσ]
    decide +kernel
  clear_value σ
  refine ⟨σ, hrun, hfirst, hsecond, hreader, hreader', hkeep, hcanceled, hreplies, ?_⟩
  intro hinOrder
  have hpromise := hinOrder [] (.send 1 0) [.close 1, .send 0 1] hreplies 0 (by decide)
    (hfirst.trans hsecond.symm) hcanceled
  exact absurd hpromise (by simp)

/-- One thread responds to both requests. -/
theorem responses_in_order_one :
    ∃ σ, (serverSystem 1).run (pipelineRun 1 ++ List.replicate 14 (.worker 0)) = some σ ∧
      σ.replies = [.send 0 0, .send 1 1, .close 1] ∧ σ.InOrder := by
  have hrun := (Option.some_get
    (x := (serverSystem 1).run (pipelineRun 1 ++ List.replicate 14 (.worker 0)))
    (by decide +kernel)).symm
  set σ := ((serverSystem 1).run (pipelineRun 1 ++ List.replicate 14 (.worker 0))).get
    (by decide +kernel) with hσ
  have hreplies : σ.replies = [.send 0 0, .send 1 1, .close 1] := by
    rw [hσ]
    decide +kernel
  exact ⟨σ, hrun, hreplies, responses_in_order 1 _ σ hrun (.inl (Nat.le_refl 1))⟩

end System

end NetworkPool
