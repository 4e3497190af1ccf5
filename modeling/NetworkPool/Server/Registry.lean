import NetworkPool.Server.Steps

/-!
# The registry of the tasks

`m_tasks` has the tasks that are constructed and not destroyed (`Registered`), so `cancelTask`
reaches every task of its node that is alive and no other. A canceled task that is not past the
test of its flag stays silent (`Silent`).
-/

namespace NetworkPool

open WorkQueue (Entry Call Accounted Shape history)
open Lib.CString (lit)

/-- The task of a reply. -/
def Reply.task : Reply → ℕ
  | .send task _ | .close task => task

namespace System

variable {n : ℕ} {σ σ' : System} {e : SystemEvent}

/-! ## The work queue of the server -/

/-- A step of the system is a step of its work queue or leaves it alone. -/
theorem Step.workQueue (h : Step n σ e σ') :
    σ'.workQueue = σ.workQueue ∨ ∃ qe, σ.workQueue.step n qe = some σ'.workQueue := by
  cases h with
  | push woken node context acts task q hacts hbuilt hstep => exact .inr ⟨_, hstep⟩
  | idle e qe q hevent hstep hsame => exact .inr ⟨_, hstep⟩
  | start i entry hthread =>
    exact .inr ⟨.thread i, by simp [WorkQueue.State.step, WorkQueue.State.thread, hthread]⟩
  | ran i entry hthread hrun =>
    exact .inr ⟨.thread i, by simp [WorkQueue.State.step, WorkQueue.State.thread, hthread]⟩
  | finish i entry hthread =>
    exact .inr ⟨.thread i, by simp [WorkQueue.State.step, WorkQueue.State.thread, hthread]⟩
  | sweep entry rest howner => exact .inr ⟨.sweep, by simp [WorkQueue.State.step, howner]⟩
  | _ => exact .inl rfl

/-- The work queue of the server behaves as a work queue. -/
theorem reachable_workQueue (h : (serverSystem n).Reachable σ) :
    (workQueueSystem ℕ Unit n).Reachable σ.workQueue := by
  induction h with
  | init => exact .init
  | step _ hstep ih =>
    rcases (step_cases hstep).workQueue with heq | ⟨qe, hqe⟩
    · rw [heq]
      exact ih
    · exact .step ih hqe

/-! ## The registry -/

/-- What holds of the tasks. -/
structure Registered (σ : System) : Prop where
  nodup : σ.server.tasks.Nodup
  mem : ∀ node task, (node, task) ∈ σ.server.tasks ↔
    task < σ.server.nextTask ∧ task ∉ σ.server.destroyed ∧ node = (σ.server.heap task).node
  pushed : ∀ entry ∈ σ.workQueue.pushed, entry.task < σ.server.nextTask
  distinct : (σ.workQueue.pushed.map Entry.task).Nodup
  built : ∀ task, σ.built = some task →
    task < σ.server.nextTask ∧ ∀ entry ∈ σ.workQueue.pushed, entry.task ≠ task
  destroyed : ∀ task, task ∈ σ.server.destroyed ↔
    ∃ entry, .delete entry ∈ σ.workQueue.log ∧ entry.task = task
  once : σ.server.destroyed.Nodup
  begun : ∀ r ∈ σ.replies, ∃ entry, .run entry ∈ σ.workQueue.log ∧ entry.task = r.task

/-- A task is not destroyed before its deleter is called. -/
theorem Registered.not_destroyed (h : Registered σ) (haccounted : Accounted σ.workQueue)
    {entry : Entry ℕ Unit} (hpush : entry ∈ σ.workQueue.pushed)
    (hnot : .delete entry ∉ σ.workQueue.log) : entry.task ∉ σ.server.destroyed := by
  intro hmem
  obtain ⟨entry', hdelete, htask⟩ := (h.destroyed _).mp hmem
  have hpush' : entry' ∈ σ.workQueue.pushed := haccounted.logged _ hdelete
  have heq : entry' = entry := List.inj_on_of_nodup_map h.distinct hpush' hpush htask
  exact hnot (heq ▸ hdelete)

/-- What keeps the registry as it is. -/
theorem Registered.frame (h : Registered σ) (htasks : σ'.server.tasks = σ.server.tasks)
    (hnext : σ'.server.nextTask = σ.server.nextTask)
    (hdestroyed : σ'.server.destroyed = σ.server.destroyed)
    (hnode : ∀ task, (σ'.server.heap task).node = (σ.server.heap task).node)
    (hpushed : σ'.workQueue.pushed = σ.workQueue.pushed) (hbuilt : σ'.built = σ.built)
    (hdelete : ∀ entry, .delete entry ∈ σ'.workQueue.log ↔ .delete entry ∈ σ.workQueue.log)
    (hbegun : ∀ r ∈ σ'.replies, ∃ entry, .run entry ∈ σ'.workQueue.log ∧ entry.task = r.task) :
    Registered σ' := by
  refine ⟨?_, ?_, ?_, ?_, ?_, ?_, ?_, hbegun⟩
  · rw [htasks]
    exact h.nodup
  · intro node task
    rw [htasks, hnext, hdestroyed, hnode]
    exact h.mem node task
  · rw [hpushed, hnext]
    exact h.pushed
  · rw [hpushed]
    exact h.distinct
  · rw [hbuilt, hpushed, hnext]
    exact h.built
  · intro task
    rw [hdestroyed, h.destroyed task]
    exact exists_congr fun entry => and_congr_left fun _ => (hdelete entry).symm
  · rw [hdestroyed]
    exact h.once

/-- A task is constructed. -/
theorem Registered.build (h : Registered σ) (haccounted : Accounted σ.workQueue)
    (node : CnetworkNode) (context : ChttpContext) :
    Registered { σ with
      server := σ.server.newTask node context σ.reader
      built := some σ.server.nextTask } := by
  have hfresh : ∀ task, task < σ.server.nextTask →
      (σ.server.newTask node context σ.reader).heap task = σ.server.heap task := by
    intro task hlt
    exact Function.update_of_ne (by omega) _ _
  have hself : ((σ.server.newTask node context σ.reader).heap σ.server.nextTask).node = node := by
    show (Function.update σ.server.heap σ.server.nextTask _ σ.server.nextTask).node = node
    rw [Function.update_self]
  have htasks : (σ.server.newTask node context σ.reader).tasks =
      σ.server.tasks ++ [(node, σ.server.nextTask)] := by
    show σ.server.tasks ++ [((Function.update σ.server.heap σ.server.nextTask _
      σ.server.nextTask).node, σ.server.nextTask)] = _
    rw [Function.update_self]
  have hunborn : σ.server.nextTask ∉ σ.server.destroyed := by
    intro hmem
    obtain ⟨entry, hdelete, htask⟩ := (h.destroyed _).mp hmem
    have hlt := h.pushed entry (haccounted.logged _ hdelete)
    omega
  refine ⟨?_, ?_, ?_, h.distinct, ?_, h.destroyed, h.once, h.begun⟩
  · show (σ.server.newTask node context σ.reader).tasks.Nodup
    rw [htasks]
    apply List.Nodup.append h.nodup (List.nodup_singleton _)
    rw [List.disjoint_singleton]
    intro hmem
    have hlt := ((h.mem _ _).mp hmem).1
    omega
  · intro node' task
    show (node', task) ∈ (σ.server.newTask node context σ.reader).tasks ↔
      task < σ.server.nextTask + 1 ∧ task ∉ σ.server.destroyed ∧
        node' = ((σ.server.newTask node context σ.reader).heap task).node
    rw [htasks, List.mem_append, List.mem_singleton, Prod.mk.injEq]
    by_cases htask : task = σ.server.nextTask
    · subst htask
      rw [hself, h.mem]
      constructor
      · rintro (⟨hlt, -⟩ | ⟨rfl, -⟩)
        · omega
        · exact ⟨by omega, hunborn, rfl⟩
      · rintro ⟨-, -, rfl⟩
        exact .inr ⟨rfl, rfl⟩
    · have hlt : task < σ.server.nextTask + 1 ↔ task < σ.server.nextTask := by omega
      rw [h.mem, hlt]
      constructor
      · rintro (⟨hlt', hrest⟩ | ⟨-, heq⟩)
        · rw [hfresh task hlt']
          exact ⟨hlt', hrest⟩
        · exact absurd heq htask
      · rintro ⟨hlt', hrest⟩
        rw [hfresh task hlt'] at hrest
        exact .inl ⟨hlt', hrest⟩
  · intro entry hentry
    have hlt := h.pushed entry hentry
    show entry.task < σ.server.nextTask + 1
    omega
  · intro task htask
    obtain rfl : σ.server.nextTask = task := Option.some.inj htask
    refine ⟨Nat.lt_succ_self _, ?_⟩
    intro entry hentry heq
    have hlt := h.pushed entry hentry
    omega

/-- The task that was constructed is pushed. -/
theorem Registered.push (h : Registered σ) {task : ℕ} {q : WorkQueue.State ℕ Unit}
    {acts : List (CnetworkNode × HttpAct)} {entry : Entry ℕ Unit} (hbuilt : σ.built = some task)
    (htask : entry.task = task) (hpushed : q.pushed = σ.workQueue.pushed ++ [entry])
    (hlog : q.log = σ.workQueue.log) :
    Registered { σ with workQueue := q, built := none, acts := acts } := by
  obtain ⟨hlt, hnew⟩ := h.built task hbuilt
  refine ⟨h.nodup, h.mem, ?_, ?_, by simp, ?_, h.once, ?_⟩
  · intro entry' hentry
    rw [hpushed, List.mem_append, List.mem_singleton] at hentry
    rcases hentry with hentry | rfl
    · exact h.pushed entry' hentry
    · exact htask ▸ hlt
  · show (q.pushed.map Entry.task).Nodup
    rw [hpushed, List.map_append, List.map_singleton]
    apply List.Nodup.append h.distinct (List.nodup_singleton _)
    rw [List.disjoint_singleton, List.mem_map]
    rintro ⟨entry', hentry, heq⟩
    exact hnew entry' hentry (heq.trans htask)
  · show ∀ task, task ∈ σ.server.destroyed ↔ ∃ entry, .delete entry ∈ q.log ∧ entry.task = task
    rw [hlog]
    exact h.destroyed
  · show ∀ r ∈ σ.replies, ∃ entry, .run entry ∈ q.log ∧ entry.task = r.task
    rw [hlog]
    exact h.begun

/-- A task is destroyed. -/
theorem Registered.delete (h : Registered σ) {entry : Entry ℕ Unit} {q : WorkQueue.State ℕ Unit}
    (hin : entry.task < σ.server.nextTask) (hnot : entry.task ∉ σ.server.destroyed)
    (hpushed : q.pushed = σ.workQueue.pushed) (hlog : q.log = σ.workQueue.log ++ [.delete entry]) :
    Registered { σ with workQueue := q, server := σ.server.deleteTask entry.task } := by
  refine ⟨h.nodup.erase _, ?_, ?_, ?_, ?_, ?_, ?_, ?_⟩
  · intro node task
    show (node, task) ∈ σ.server.tasks.erase ((σ.server.heap entry.task).node, entry.task) ↔
      task < σ.server.nextTask ∧ task ∉ σ.server.destroyed ++ [entry.task] ∧
        node = (σ.server.heap task).node
    rw [h.nodup.mem_erase_iff, h.mem, List.mem_append, List.mem_singleton, not_or]
    constructor
    · rintro ⟨hne, hlt, halive, rfl⟩
      refine ⟨hlt, ⟨halive, ?_⟩, rfl⟩
      rintro rfl
      exact hne rfl
    · rintro ⟨hlt, ⟨halive, hne⟩, rfl⟩
      refine ⟨?_, hlt, halive, rfl⟩
      intro heq
      exact hne (congrArg Prod.snd heq)
  · show ∀ entry' ∈ q.pushed, entry'.task < σ.server.nextTask
    rw [hpushed]
    exact h.pushed
  · show (q.pushed.map Entry.task).Nodup
    rw [hpushed]
    exact h.distinct
  · show ∀ task, σ.built = some task →
      task < σ.server.nextTask ∧ ∀ entry' ∈ q.pushed, entry'.task ≠ task
    rw [hpushed]
    exact h.built
  · intro task
    show task ∈ σ.server.destroyed ++ [entry.task] ↔
      ∃ entry', .delete entry' ∈ q.log ∧ entry'.task = task
    rw [hlog, List.mem_append, List.mem_singleton, h.destroyed]
    constructor
    · rintro (⟨entry', hmem, htask⟩ | rfl)
      · exact ⟨entry', List.mem_append_left _ hmem, htask⟩
      · exact ⟨entry, by simp, rfl⟩
    · rintro ⟨entry', hmem, htask⟩
      rw [List.mem_append, List.mem_singleton, Call.delete.injEq] at hmem
      rcases hmem with hmem | rfl
      · exact .inl ⟨entry', hmem, htask⟩
      · exact .inr htask.symm
  · show (σ.server.destroyed ++ [entry.task]).Nodup
    apply List.Nodup.append h.once (List.nodup_singleton _)
    rw [List.disjoint_singleton]
    exact hnot
  · intro r hr
    obtain ⟨entry', hmem, htask⟩ := h.begun r hr
    refine ⟨entry', ?_, htask⟩
    show Call.run entry' ∈ q.log
    rw [hlog]
    exact List.mem_append_left _ hmem

/-- **The registry is kept.** -/
theorem registered_step (h : Registered σ) (hshape : Shape σ.workQueue)
    (haccounted : Accounted σ.workQueue) (hstep : Step n σ e σ') : Registered σ' := by
  have hreply : ∀ {i entry} {r : Reply}, σ.workQueue.threads i = .running entry →
      r.task = entry.task → ∀ r' ∈ σ.replies ++ [r],
        ∃ entry', .run entry' ∈ σ.workQueue.log ∧ entry'.task = r'.task := by
    intro i entry r hthread htask r' hr'
    rw [List.mem_append, List.mem_singleton] at hr'
    rcases hr' with hr' | rfl
    · exact h.begun r' hr'
    · exact ⟨entry, haccounted.run_mem hthread, htask.symm⟩
  cases hstep with
  | setNetworkPool | pool | close | skip | check | fault | noPool | keepAlive =>
    exact h.frame rfl rfl rfl (fun _ => rfl) rfl rfl (fun _ => Iff.rfl) h.begun
  | callback garbage newTask c callbacks acts server hacts hcallbacks hcall =>
    refine h.frame hcall.tasks hcall.nextTask hcall.destroyed ?_ rfl rfl (fun _ => Iff.rfl) h.begun
    intro task
    rcases hcall.heap task with heq | heq
    · exact (congrArg ChttpTask.node heq :)
    · exact (congrArg ChttpTask.node heq :)
  | build woken node context acts hacts hbuilt => exact h.build haccounted node context
  | push woken node context acts task q hacts hbuilt hq =>
    obtain ⟨entry, htask, hpushed, hlog, -⟩ := WorkQueue.pushTask_records hq
    exact h.push hbuilt htask hpushed hlog
  | idle e qe q hevent hq hsame =>
    obtain ⟨hlog, hpushed, -⟩ := hsame hshape
    refine h.frame rfl rfl rfl (fun _ => rfl) hpushed rfl ?_ ?_
    · intro entry
      show Call.delete entry ∈ q.log ↔ _
      rw [hlog]
    · show ∀ r ∈ σ.replies, ∃ entry, .run entry ∈ q.log ∧ entry.task = r.task
      rw [hlog]
      exact h.begun
  | start i entry hthread =>
    refine h.frame rfl rfl rfl (fun _ => rfl) rfl rfl ?_ ?_
    · simp
    · intro r hr
      obtain ⟨entry', hmem, htask⟩ := h.begun r hr
      exact ⟨entry', List.mem_append_left _ hmem, htask⟩
  | ran i entry hthread hrun =>
    refine h.frame rfl rfl rfl (fun _ => rfl) rfl rfl ?_ ?_
    · simp
    · intro r hr
      obtain ⟨entry', hmem, htask⟩ := h.begun r hr
      exact ⟨entry', List.mem_append_left _ hmem, htask⟩
  | send i entry hthread hrun hpool =>
    exact h.frame rfl rfl rfl (fun _ => rfl) rfl rfl (fun _ => Iff.rfl) (hreply hthread rfl)
  | replyClose i entry hthread hrun =>
    exact h.frame rfl rfl rfl (fun _ => rfl) rfl rfl (fun _ => Iff.rfl) (hreply hthread rfl)
  | finish i entry hthread =>
    have hheld : (σ.workQueue.threads i).held = some (entry, [.run entry, .ran entry]) := by
      rw [hthread]
      rfl
    have hpush := haccounted.mem_of_dequeued (haccounted.held i entry _ hheld).1
    have hnot := h.not_destroyed haccounted hpush (haccounted.not_deleted_of_held hheld)
    exact h.delete (h.pushed entry hpush) hnot rfl rfl
  | sweep entry rest howner =>
    have hrest : entry ∈ σ.workQueue.rest := by
      rw [WorkQueue.State.rest, howner]
      simp
    have hpush := haccounted.mem_of_tasks (haccounted.rest.subset hrest)
    have hnot := h.not_destroyed haccounted hpush (haccounted.not_deleted_of_rest hrest)
    exact h.delete (h.pushed entry hpush) hnot rfl rfl

/-- What holds of every reachable state. -/
theorem reachable_registered (h : (serverSystem n).Reachable σ) :
    Shape σ.workQueue ∧ Accounted σ.workQueue ∧ Registered σ := by
  obtain ⟨hshape, haccounted⟩ := WorkQueue.reachable_accounted (reachable_workQueue h)
  refine ⟨hshape, haccounted, ?_⟩
  apply h.invariant
  · refine ⟨List.nodup_nil, ?_, ?_, List.nodup_nil, ?_, ?_, List.nodup_nil, ?_⟩ <;>
      simp [serverSystem]
  · intro s e s' hs hregistered hstep
    obtain ⟨hshape', haccounted'⟩ := WorkQueue.reachable_accounted (reachable_workQueue hs)
    exact registered_step hregistered hshape' haccounted' (step_cases hstep)

/-! ## Canceled tasks -/

/-- The task neither has sent or closed anything nor will: it is canceled or gone, and no thread is
past the test of its flag. -/
structure Silent (task : ℕ) (σ : System) : Prop where
  born : task < σ.server.nextTask
  marked : (σ.server.heap task).canceled = true ∨ task ∈ σ.server.destroyed
  mute : ∀ r ∈ σ.replies, r.task ≠ task
  stopped : ∀ i entry, σ.workQueue.threads i = .running entry → entry.task = task →
    σ.runs i = .start ∨ σ.runs i = .done

/-- A step of the thread `i` inside `run` that takes it to `run`. -/
theorem Silent.within {task i : ℕ} {entry : Entry ℕ Unit} {run : Run} (h : Silent task σ)
    (hthread : σ.workQueue.threads i = .running entry)
    (hrun : entry.task = task → run = .start ∨ run = .done) (j : ℕ) (entry' : Entry ℕ Unit)
    (hj : σ.workQueue.threads j = .running entry') (htask : entry'.task = task) :
    Function.update σ.runs i run j = .start ∨ Function.update σ.runs i run j = .done := by
  by_cases hji : j = i
  · subst hji
    obtain rfl : entry = entry' := WorkQueue.Thread.running.inj (hthread.symm.trans hj)
    rw [Function.update_self]
    exact hrun htask
  · rw [Function.update_of_ne hji]
    exact h.stopped j entry' hj htask

/-- A step that takes the thread `i` out of `run`. -/
theorem Silent.leave {task i : ℕ} {t : WorkQueue.Thread ℕ Unit} (h : Silent task σ)
    (ht : ∀ entry, t ≠ .running entry) (j : ℕ) (entry : Entry ℕ Unit)
    (hj : Function.update σ.workQueue.threads i t j = .running entry) (htask : entry.task = task) :
    σ.runs j = .start ∨ σ.runs j = .done := by
  by_cases hji : j = i
  · rw [hji, Function.update_self] at hj
    exact absurd hj (ht entry)
  · rw [Function.update_of_ne hji] at hj
    exact h.stopped j entry hj htask

theorem Silent.mute_concat {task : ℕ} {r : Reply} (h : Silent task σ) (hr : r.task ≠ task) :
    ∀ r' ∈ σ.replies ++ [r], r'.task ≠ task := by
  intro r' hr'
  rw [List.mem_append, List.mem_singleton] at hr'
  rcases hr' with hr' | rfl
  · exact h.mute r' hr'
  · exact hr

/-- **A silent task stays silent.** -/
theorem silent_step {task : ℕ} (h : Silent task σ) (hregistered : Registered σ)
    (hshape : Shape σ.workQueue) (haccounted : Accounted σ.workQueue) (hstep : Step n σ e σ') :
    Silent task σ' := by
  cases hstep with
  | setNetworkPool | pool | close | fault => exact ⟨h.born, h.marked, h.mute, h.stopped⟩
  | callback garbage newTask c callbacks acts server hacts hcallbacks hcall =>
    refine ⟨?_, ?_, h.mute, h.stopped⟩
    · show task < server.nextTask
      rw [hcall.nextTask]
      exact h.born
    · show (server.heap task).canceled = true ∨ task ∈ server.destroyed
      rw [hcall.destroyed]
      refine h.marked.imp_left fun hcanceled => ?_
      rcases hcall.heap task with heq | heq
      · rw [heq, hcanceled]
      · rw [heq]
  | build woken node context acts hacts hbuilt =>
    have hborn := h.born
    refine ⟨Nat.lt_succ_of_lt hborn, ?_, h.mute, h.stopped⟩
    refine h.marked.imp_left fun hcanceled => ?_
    show (Function.update σ.server.heap σ.server.nextTask _ task).canceled = true
    rw [Function.update_of_ne (by omega)]
    exact hcanceled
  | push woken node context acts task q hacts hbuilt hq =>
    obtain ⟨entry, -, -, -, hrunning⟩ := WorkQueue.pushTask_records hq
    refine ⟨h.born, h.marked, h.mute, ?_⟩
    intro i entry' hi
    exact h.stopped i entry' ((hrunning i entry').mp hi)
  | idle e qe q hevent hq hsame =>
    refine ⟨h.born, h.marked, h.mute, ?_⟩
    intro i entry hi
    exact h.stopped i entry (((hsame hshape).running i entry).mp hi)
  | start i entry hthread =>
    refine ⟨h.born, h.marked, h.mute, ?_⟩
    intro j entry' hj htask
    show Function.update σ.runs i .start j = .start ∨ Function.update σ.runs i .start j = .done
    by_cases hji : j = i
    · rw [hji, Function.update_self]
      exact .inl rfl
    · rw [Function.update_of_ne hji]
      have hj' : Function.update σ.workQueue.threads i (.running entry) j = .running entry' := hj
      rw [Function.update_of_ne hji] at hj'
      exact h.stopped j entry' hj' htask
  | skip i entry hthread hrun hcanceled =>
    exact ⟨h.born, h.marked, h.mute, h.within hthread fun _ => .inr rfl⟩
  | check i entry hthread hrun hcanceled =>
    refine ⟨h.born, h.marked, h.mute, h.within hthread fun htask => ?_⟩
    -- what a thread holds is not destroyed, so the flag of this task is set
    have hheld : (σ.workQueue.threads i).held = some (entry, [.run entry]) := by
      rw [hthread]
      rfl
    have hpush := haccounted.mem_of_dequeued (haccounted.held i entry _ hheld).1
    have halive := hregistered.not_destroyed haccounted hpush
      (haccounted.not_deleted_of_held hheld)
    subst htask
    have hset := h.marked.resolve_right halive
    exact absurd (hcanceled.symm.trans hset) (by simp)
  | send i entry hthread hrun hpool =>
    have hne : entry.task ≠ task := by
      intro htask
      have hstopped := h.stopped i entry hthread htask
      simp [hrun] at hstopped
    exact ⟨h.born, h.marked, h.mute_concat hne, h.within hthread fun htask => absurd htask hne⟩
  | replyClose i entry hthread hrun =>
    have hne : entry.task ≠ task := by
      intro htask
      have hstopped := h.stopped i entry hthread htask
      simp [hrun] at hstopped
    exact ⟨h.born, h.marked, h.mute_concat hne, h.within hthread fun htask => absurd htask hne⟩
  | noPool i entry hthread | keepAlive i entry hthread =>
    exact ⟨h.born, h.marked, h.mute, h.within hthread fun _ => .inr rfl⟩
  | ran i entry hthread hrun => exact ⟨h.born, h.marked, h.mute, h.leave (by simp)⟩
  | finish i entry hthread =>
    exact ⟨h.born, h.marked.imp_right fun hmem => List.mem_append_left _ hmem, h.mute,
      h.leave (by simp)⟩
  | sweep entry rest howner =>
    exact ⟨h.born, h.marked.imp_right fun hmem => List.mem_append_left _ hmem, h.mute, h.stopped⟩

/-- A task that has not begun when its node's connection is reported down is silent after that. -/
theorem silent_of_connectionStatus {node : CnetworkNode} {garbage : ℕ → UInt8}
    {newTask : ℕ → Bool} {callbacks : List Callback} {task : ℕ} (hregistered : Registered σ)
    (haccounted : Accounted σ.workQueue)
    (hcallbacks : σ.callbacks = .connectionStatus node false :: callbacks)
    (hstep : Step n σ (.callback garbage newTask) σ') (hborn : task < σ.server.nextTask)
    (hnode : (σ.server.heap task).node = node)
    (hbegun : ∀ entry, entry.task = task → .run entry ∉ σ.workQueue.log) : Silent task σ' := by
  cases hstep with
  | idle e qe q hevent hq hsame => simp at hevent
  | callback garbage newTask c callbacks' acts server hacts hcallbacks' hcall =>
    obtain rfl : Callback.connectionStatus node false = c :=
      (List.cons.inj (hcallbacks.symm.trans hcallbacks')).1
    refine ⟨?_, ?_, ?_, ?_⟩
    · show task < server.nextTask
      rw [hcall.nextTask]
      exact hborn
    · show (server.heap task).canceled = true ∨ task ∈ server.destroyed
      rw [hcall.destroyed]
      by_cases hdestroyed : task ∈ σ.server.destroyed
      · exact .inr hdestroyed
      · left
        apply hcall.canceled node rfl
        exact (hregistered.mem node task).mpr ⟨hborn, hdestroyed, hnode.symm⟩
    · intro r hr htask
      obtain ⟨entry, hrun, hentry⟩ := hregistered.begun r hr
      exact hbegun entry (hentry.trans htask) hrun
    · intro i entry hi htask
      exact absurd (haccounted.run_mem hi) (hbegun entry htask)

/-- **The registry is exact and cancellation is effective.** `m_tasks` has every task that is
constructed and not destroyed once, under its node; a task is destroyed once. After
`connectionStatus(node, false)` no task of the node that had not begun `run` ever sends or closes
anything. -/
theorem registry_exact (h : (serverSystem n).Reachable σ) :
    σ.server.tasks.Nodup ∧
    (∀ node task, (node, task) ∈ σ.server.tasks ↔
      task < σ.server.nextTask ∧ task ∉ σ.server.destroyed ∧ node = (σ.server.heap task).node) ∧
    σ.server.destroyed.Nodup ∧
    ∀ node garbage newTask callbacks σ',
      σ.callbacks = .connectionStatus node false :: callbacks →
      σ.step n (.callback garbage newTask) = some σ' →
      ∀ task < σ.server.nextTask, (σ.server.heap task).node = node →
        (∀ entry, entry.task = task → .run entry ∉ σ.workQueue.log) →
        ∀ es σ'', (serverSystem n).exec σ' es = some σ'' → ∀ r ∈ σ''.replies, r.task ≠ task := by
  obtain ⟨-, haccounted, hregistered⟩ := reachable_registered h
  refine ⟨hregistered.nodup, hregistered.mem, hregistered.once, ?_⟩
  intro node garbage newTask callbacks σ' hcallbacks hstep task hborn hnode hbegun es σ'' hexec
  have hsilent := silent_of_connectionStatus hregistered haccounted hcallbacks (step_cases hstep)
    hborn hnode hbegun
  have hstep' : (serverSystem n).step σ (.callback garbage newTask) = some σ' := hstep
  refine (Lib.Lts.exec_invariant (I := Silent task) hexec (h.step hstep') hsilent ?_).2.mute
  intro s e s' hs hsilent' hstep'
  obtain ⟨hshape', haccounted', hregistered'⟩ := reachable_registered hs
  exact silent_step hsilent' hregistered' hshape' haccounted' (step_cases hstep')

/-- One thread, a server that listens, and a connection to it. -/
def serveRun : List SystemEvent :=
  [.setNetworkPool, .workQueue .create, .workQueue .constructed, .pool (.bind sampleNode true),
    .pool .wakeup, .pool (.dispatch ⟨[], [], [], []⟩), .pool (.bindNext {}),
    .callback (fun _ => 0) (fun _ => true), .pool .wakeupDone,
    .pool (.uv (.newConnection 0 0 { peer := .in4 80 1 })),
    .callback (fun _ => 0) (fun _ => true)]

/-- Two requests come in one read. The thread begins the first one, and the peer closes the
connection. -/
def downRun : List SystemEvent :=
  serveRun ++
  [.pool (.uv (.tcpRead 1 18 (lit "A B C\r\n\r\nA B C\r\n\r\n") {})),
    .callback (fun _ => 0) (fun _ => true), .callback (fun _ => 0) (fun _ => true),
    .act none, .act none, .act none, .act none, .callback (fun _ => 0) (fun _ => true),
    .worker 0, .worker 0, .worker 0, .pool (.uv (.tcpRead 1 (-1) [] {})),
    .callback (fun _ => 0) (fun _ => true), .callback (fun _ => 0) (fun _ => true)]

theorem registry_exact_down :
    ∃ σ σ', (serverSystem 1).run downRun = some σ ∧
      σ.server.tasks = [(sampleNode, 0), (sampleNode, 1)] ∧ σ.server.tasks.Nodup ∧
      σ.step 1 (.callback (fun _ => 0) fun _ => true) = some σ' ∧
      ∀ es σ'', (serverSystem 1).exec σ' es = some σ'' → ∀ r ∈ σ''.replies, r.task ≠ 1 := by
  have hrun := (Option.some_get (x := (serverSystem 1).run downRun) (by decide +kernel)).symm
  set σ := ((serverSystem 1).run downRun).get (by decide +kernel) with hσ
  obtain ⟨htasks, hcallbacks, hlog, hborn, hnode, hstep⟩ :
      σ.server.tasks = [(sampleNode, 0), (sampleNode, 1)] ∧
      σ.callbacks = [.connectionStatus sampleNode false] ∧
      σ.workQueue.log = [.run ⟨0, 0, ()⟩] ∧ 1 < σ.server.nextTask ∧
      (σ.server.heap 1).node = sampleNode ∧
      (σ.step 1 (.callback (fun _ => 0) fun _ => true)).isSome = true := by
    rw [hσ]
    decide +kernel
  obtain ⟨σ', hσ'⟩ := Option.isSome_iff_exists.mp hstep
  obtain ⟨hnodup, -, -, hsilent⟩ := registry_exact (Lib.Lts.reachable_of_run hrun)
  refine ⟨σ, σ', hrun, htasks, hnodup, hσ', ?_⟩
  apply hsilent sampleNode _ _ [] _ hcallbacks hσ' 1 hborn hnode
  intro entry htask hmem
  rw [hlog, List.mem_singleton, Call.run.injEq] at hmem
  rw [hmem] at htask
  exact absurd htask (by decide)

end System

end NetworkPool
