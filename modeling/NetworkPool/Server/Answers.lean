import NetworkPool.Http.FirstLine
import NetworkPool.Server.Order
import NetworkPool.WorkQueue.Wakeups

/-!
# Every request is answered once

What `ChttpTask::run` has sent and closed for a task is never more than one response and, unless
the request keeps the connection alive, one close after it; when `run` is back it is exactly that,
or nothing if the task was canceled. Where `getInfo` is safe on the requests, the threads of the
work queue alone, in whatever order they go on, bring every task that was pushed to that point
(`requests_answered`); where it is not, it ends the process.
-/

namespace NetworkPool

open WorkQueue (Entry Accounted Shape history mem_history)
open Lib.Family

/-- The steps left in `ChttpTask::run`. -/
def Run.left : Run → ℕ
  | .start => 3
  | .checked => 2
  | .sent => 1
  | .done => 0

namespace System

variable {n : ℕ} {σ σ' : System} {i : ℕ} {entry : Entry ℕ Unit}

/-! ## Answers -/

/-- The calls of `ChttpTask::run` for a task. -/
def answer (σ : System) (task : ℕ) : List Reply :=
  σ.replies.filter fun r => r.task = task

/-- The response, and the close if the request does not keep the connection alive. -/
def wholeAnswer (σ : System) (task base : ℕ) : List Reply :=
  .send task base :: if (σ.server.heap task).context.isKeepAlive then [] else [.close task]

def Answered (σ : System) (task : ℕ) : Prop :=
  ∃ base, σ.answer task = σ.wholeAnswer task base

/-- The task is answered, or it was canceled and nothing was sent. -/
def Through (σ : System) (task : ℕ) : Prop :=
  (σ.answer task = [] ∧ (σ.server.heap task).canceled = true) ∨ σ.Answered task

/-- What was sent and closed, by where the threads stand. -/
structure Replied (σ : System) : Prop where
  set : σ.acts ≠ [] ∨ 0 < σ.server.nextTask → σ.server.pool = true
  quiet : ∀ i entry, σ.workQueue.threads i = .running entry →
    (σ.runs i = .start ∨ σ.runs i = .checked) → σ.answer entry.task = []
  sent : ∀ i entry, σ.workQueue.threads i = .running entry → σ.runs i = .sent →
    ∃ base, σ.answer entry.task = [.send entry.task base]
  done : ∀ i entry, σ.workQueue.threads i = .running entry → σ.runs i = .done →
    σ.Through entry.task
  ran : ∀ entry, .ran entry ∈ σ.workQueue.log → σ.Through entry.task

theorem answer_congr {task : ℕ} (hreplies : σ'.replies = σ.replies) :
    σ'.answer task = σ.answer task := by
  unfold answer
  rw [hreplies]

theorem answer_concat_self {r : Reply} (hreplies : σ'.replies = σ.replies ++ [r]) :
    σ'.answer r.task = σ.answer r.task ++ [r] := by
  unfold answer
  rw [hreplies, List.filter_append, List.filter_cons_of_pos (by simp), List.filter_nil]

theorem answer_concat_other {task : ℕ} {r : Reply} (hreplies : σ'.replies = σ.replies ++ [r])
    (hne : task ≠ r.task) : σ'.answer task = σ.answer task := by
  unfold answer
  rw [hreplies, List.filter_append, List.filter_cons_of_neg (by simpa using hne.symm),
    List.filter_nil, List.append_nil]

theorem Through.mono {task : ℕ} (h : σ.Through task) (hanswer : σ'.answer task = σ.answer task)
    (hcontext : (σ'.server.heap task).context = (σ.server.heap task).context)
    (hcanceled : (σ.server.heap task).canceled = true → (σ'.server.heap task).canceled = true) :
    σ'.Through task := by
  unfold Through Answered wholeAnswer
  rw [hanswer, hcontext]
  exact h.imp_left fun hnone => ⟨hnone.1, hcanceled hnone.2⟩

/-! ## Entries and their tasks -/

theorem Registered.eq_of_task (h : Registered σ) {entry' : Entry ℕ Unit}
    (hmem : entry ∈ σ.workQueue.pushed) (hmem' : entry' ∈ σ.workQueue.pushed)
    (htask : entry.task = entry'.task) : entry = entry' :=
  List.inj_on_of_nodup_map h.distinct hmem hmem' htask

/-- A thread holds an entry that was pushed. -/
theorem mem_pushed {l : List (WorkQueue.Call ℕ Unit)} (haccounted : Accounted σ.workQueue)
    (hi : (σ.workQueue.threads i).held = some (entry, l)) : entry ∈ σ.workQueue.pushed :=
  haccounted.mem_of_dequeued (haccounted.held i entry l hi).1

/-- Two threads hold two tasks. -/
theorem Registered.held_unique (h : Registered σ) (haccounted : Accounted σ.workQueue) {j : ℕ}
    {entry' : Entry ℕ Unit} {l l' : List (WorkQueue.Call ℕ Unit)}
    (hi : (σ.workQueue.threads i).held = some (entry, l))
    (hj : (σ.workQueue.threads j).held = some (entry', l')) (htask : entry'.task = entry.task) :
    j = i := by
  have heq := h.eq_of_task (mem_pushed haccounted hj) (mem_pushed haccounted hi) htask
  rw [heq] at hj
  exact haccounted.apart j i entry _ _ hj hi

/-- A task that is not back has no call that is. -/
theorem Registered.not_ran (h : Registered σ) (haccounted : Accounted σ.workQueue)
    {entry' : Entry ℕ Unit} {l : List (WorkQueue.Call ℕ Unit)}
    (hi : (σ.workQueue.threads i).held = some (entry, l)) (hl : .ran entry ∉ l)
    (hran : .ran entry' ∈ σ.workQueue.log) : entry'.task ≠ entry.task := by
  intro htask
  have hmem : entry' ∈ σ.workQueue.pushed := haccounted.logged _ hran
  have heq := h.eq_of_task hmem (mem_pushed haccounted hi) htask
  rw [heq] at hran
  have hin := mem_history hran
  rw [WorkQueue.Call.entry, (haccounted.held i entry _ hi).2] at hin
  exact hl hin

/-- Nothing was sent for a task that is not run yet. -/
theorem Registered.answer_of_taken (h : Registered σ) (haccounted : Accounted σ.workQueue)
    (hi : σ.workQueue.threads i = .taken entry) : σ.answer entry.task = [] := by
  rw [taken_iff_held] at hi
  unfold answer
  rw [List.filter_eq_nil_iff]
  intro r hr htask
  obtain ⟨entry', hbegun, htask'⟩ := h.begun r hr
  have hmem : entry' ∈ σ.workQueue.pushed := haccounted.logged _ hbegun
  have heq := h.eq_of_task hmem (mem_pushed haccounted hi) (by simpa [htask'] using htask)
  rw [heq] at hbegun
  have hin := mem_history hbegun
  rw [WorkQueue.Call.entry, (haccounted.held i entry _ hi).2] at hin
  exact absurd hin List.not_mem_nil

/-! ## Steps -/

/-- Steps that send nothing. -/
theorem Replied.frame (h : Replied σ) (hregistered : Registered σ)
    (haccounted : Accounted σ.workQueue)
    (hset : σ'.acts ≠ [] ∨ 0 < σ'.server.nextTask → σ'.server.pool = true)
    (hcontext : ∀ task < σ.server.nextTask,
      (σ'.server.heap task).context = (σ.server.heap task).context)
    (hcanceled : ∀ task < σ.server.nextTask,
      (σ.server.heap task).canceled = true → (σ'.server.heap task).canceled = true)
    (hrunning : ∀ i entry, σ'.workQueue.threads i = .running entry →
      σ.workQueue.threads i = .running entry ∧ σ'.runs i = σ.runs i)
    (hran : ∀ entry, .ran entry ∈ σ'.workQueue.log → .ran entry ∈ σ.workQueue.log)
    (hreplies : σ'.replies = σ.replies) : Replied σ' := by
  have hthrough : ∀ entry ∈ σ.workQueue.pushed, σ.Through entry.task → σ'.Through entry.task := by
    intro entry hmem hthrough
    have hborn := hregistered.pushed entry hmem
    exact hthrough.mono (answer_congr hreplies) (hcontext _ hborn) (hcanceled _ hborn)
  refine ⟨hset, ?_, ?_, ?_, ?_⟩
  · intro i entry hi hrun
    obtain ⟨hi', hsame⟩ := hrunning i entry hi
    rw [answer_congr hreplies]
    rw [hsame] at hrun
    exact h.quiet i entry hi' hrun
  · intro i entry hi hrun
    obtain ⟨hi', hsame⟩ := hrunning i entry hi
    rw [answer_congr hreplies]
    rw [hsame] at hrun
    exact h.sent i entry hi' hrun
  · intro i entry hi hrun
    obtain ⟨hi', hsame⟩ := hrunning i entry hi
    rw [hsame] at hrun
    exact hthrough entry (mem_pushed haccounted (running_iff_held.mp hi')) (h.done i entry hi' hrun)
  · intro entry hlog
    have hlog' := hran entry hlog
    exact hthrough entry (haccounted.logged _ hlog') (h.ran entry hlog')

/-- A thread begins `run` or goes on in it. -/
theorem Replied.within {run : Run} {l : List (WorkQueue.Call ℕ Unit)} (h : Replied σ)
    (hregistered : Registered σ) (haccounted : Accounted σ.workQueue)
    (hheld : (σ.workQueue.threads i).held = some (entry, l)) (hl : .ran entry ∉ l)
    (hacts : σ'.acts = σ.acts) (hserver : σ'.server = σ.server)
    (hthreads : σ'.workQueue.threads = Function.update σ.workQueue.threads i (.running entry))
    (hlog : ∀ entry, .ran entry ∈ σ'.workQueue.log → .ran entry ∈ σ.workQueue.log)
    (hruns : σ'.runs = Function.update σ.runs i run)
    (hother : ∀ task ≠ entry.task, σ'.answer task = σ.answer task)
    (hquiet : run = .start ∨ run = .checked → σ'.answer entry.task = [])
    (hsent : run = .sent → ∃ base, σ'.answer entry.task = [.send entry.task base])
    (hdone : run = .done → σ'.Through entry.task) : Replied σ' := by
  have hthrough : ∀ task ≠ entry.task, σ.Through task → σ'.Through task := by
    intro task hne hthrough
    apply hthrough.mono (hother task hne)
    · rw [hserver]
    · rw [hserver]
      exact id
  -- the other threads run other tasks
  have hcases : ∀ j entry', σ'.workQueue.threads j = .running entry' →
      (entry' = entry ∧ σ'.runs j = run) ∨
        (entry'.task ≠ entry.task ∧ σ.workQueue.threads j = .running entry' ∧
          σ'.runs j = σ.runs j) := by
    intro j entry' hj
    rw [hthreads] at hj
    rw [hruns]
    by_cases hji : j = i
    · rw [hji, Function.update_self] at hj ⊢
      exact .inl ⟨(WorkQueue.Thread.running.inj hj).symm, rfl⟩
    · rw [Function.update_of_ne hji] at hj ⊢
      have hj' := running_iff_held.mp hj
      exact .inr ⟨fun heq => hji (hregistered.held_unique haccounted hheld hj' heq), hj, rfl⟩
  refine ⟨?_, ?_, ?_, ?_, ?_⟩
  · rw [hacts, hserver]
    exact h.set
  · intro j entry' hj hrun
    rcases hcases j entry' hj with ⟨rfl, hsame⟩ | ⟨hne, hj', hsame⟩
    · rw [hsame] at hrun
      exact hquiet hrun
    · rw [hother _ hne]
      rw [hsame] at hrun
      exact h.quiet j entry' hj' hrun
  · intro j entry' hj hrun
    rcases hcases j entry' hj with ⟨rfl, hsame⟩ | ⟨hne, hj', hsame⟩
    · rw [hsame] at hrun
      exact hsent hrun
    · rw [hother _ hne]
      rw [hsame] at hrun
      exact h.sent j entry' hj' hrun
  · intro j entry' hj hrun
    rcases hcases j entry' hj with ⟨rfl, hsame⟩ | ⟨hne, hj', hsame⟩
    · rw [hsame] at hrun
      exact hdone hrun
    · rw [hsame] at hrun
      exact hthrough _ hne (h.done j entry' hj' hrun)
  · intro entry' hran
    have hran' := hlog entry' hran
    exact hthrough _ (hregistered.not_ran haccounted hheld hl hran') (h.ran entry' hran')

/-- A thread goes on in `run`. -/
theorem Replied.goOn {run : Run} (h : Replied σ) (hregistered : Registered σ)
    (haccounted : Accounted σ.workQueue) (hthread : σ.workQueue.threads i = .running entry)
    (hacts : σ'.acts = σ.acts) (hserver : σ'.server = σ.server)
    (hqueue : σ'.workQueue = σ.workQueue) (hruns : σ'.runs = Function.update σ.runs i run)
    (hother : ∀ task ≠ entry.task, σ'.answer task = σ.answer task)
    (hquiet : run = .checked → σ'.answer entry.task = [])
    (hsent : run = .sent → ∃ base, σ'.answer entry.task = [.send entry.task base])
    (hdone : run = .done → σ'.Through entry.task) (hrun : run ≠ .start) : Replied σ' := by
  apply h.within hregistered haccounted (running_iff_held.mp hthread) (by simp) hacts hserver ?_ ?_
    hruns hother (fun hquiet' => hquiet (hquiet'.resolve_left hrun)) hsent hdone
  · rw [hqueue, ← hthread, Function.update_eq_self]
  · rw [hqueue]
    exact fun _ => id

/-- What a thread does after it has sent the response. -/
theorem closes_of_sent (hthread : σ.workQueue.threads i = .running entry) (hrun : σ.runs i = .sent)
    (h : σ.step n (.worker i) = some σ') :
    ((σ.server.heap entry.task).context.isKeepAlive = true ∧ σ'.replies = σ.replies) ∨
      ((σ.server.heap entry.task).context.isKeepAlive = false ∧
        σ'.replies = σ.replies ++ [.close entry.task]) := by
  obtain ⟨-, h⟩ := step_eq_some.mp h
  simp only [System.advance, System.worker, hthread, hrun, System.replyClose,
    Option.some.injEq] at h
  cases hkeep : (σ.server.heap entry.task).context.isKeepAlive with
  | true =>
    rw [if_neg (by simp [hkeep])] at h
    rw [← h]
    exact .inl ⟨rfl, rfl⟩
  | false =>
    rw [if_pos (by simp [hkeep])] at h
    rw [← h]
    exact .inr ⟨rfl, rfl⟩

/-- The response is sent. -/
theorem Replied.send {base : ℕ} (h : Replied σ) (hregistered : Registered σ)
    (haccounted : Accounted σ.workQueue) (hthread : σ.workQueue.threads i = .running entry)
    (hrun : σ.runs i = .checked) (hacts : σ'.acts = σ.acts) (hserver : σ'.server = σ.server)
    (hqueue : σ'.workQueue = σ.workQueue) (hruns : σ'.runs = Function.update σ.runs i .sent)
    (hreplies : σ'.replies = σ.replies ++ [.send entry.task base]) : Replied σ' := by
  have hself := answer_concat_self hreplies
  rw [Reply.task, h.quiet i entry hthread (.inr hrun)] at hself
  exact h.goOn hregistered haccounted hthread hacts hserver hqueue hruns
    (fun task hne => answer_concat_other hreplies hne) (by simp) (fun _ => ⟨base, hself⟩) (by simp)
    (by simp)

/-- The end of `run`. -/
theorem Replied.close (h : Replied σ) (hregistered : Registered σ)
    (haccounted : Accounted σ.workQueue) (hthread : σ.workQueue.threads i = .running entry)
    (hrun : σ.runs i = .sent) (hstep : σ.step n (.worker i) = some σ') (hacts : σ'.acts = σ.acts)
    (hserver : σ'.server = σ.server) (hqueue : σ'.workQueue = σ.workQueue)
    (hruns : σ'.runs = Function.update σ.runs i .done) : Replied σ' := by
  obtain ⟨base, hbase⟩ := h.sent i entry hthread hrun
  have hcloses := closes_of_sent hthread hrun hstep
  refine h.goOn hregistered haccounted hthread hacts hserver hqueue hruns ?_ (by simp) (by simp) ?_
    (by simp)
  · intro task hne
    rcases hcloses with ⟨-, hreplies⟩ | ⟨-, hreplies⟩
    · exact answer_congr hreplies
    · exact answer_concat_other hreplies hne
  · intro _
    refine .inr ⟨base, ?_⟩
    unfold wholeAnswer
    rw [hserver]
    rcases hcloses with ⟨hkeep, hreplies⟩ | ⟨hkeep, hreplies⟩
    · rw [answer_congr hreplies, hbase, if_pos hkeep]
    · have hboth := answer_concat_self hreplies
      rw [Reply.task, hbase] at hboth
      rw [hboth, if_neg (by simp [hkeep])]
      rfl

/-- A thread goes over to another entry, or to none. -/
theorem Replied.leave {t : WorkQueue.Thread ℕ Unit} {log : List (WorkQueue.Call ℕ Unit)}
    {server : ChttpServer} (h : Replied σ) (hregistered : Registered σ)
    (haccounted : Accounted σ.workQueue) (ht : ∀ entry, t ≠ .running entry)
    (hlog : ∀ entry, .ran entry ∈ log → .ran entry ∈ σ.workQueue.log)
    (hnext : server.nextTask = σ.server.nextTask) (hpool : server.pool = σ.server.pool)
    (hheap : server.heap = σ.server.heap) :
    Replied { σ with
      workQueue := { σ.workQueue with
        threads := Function.update σ.workQueue.threads i t, log := log }
      server := server } := by
  refine h.frame hregistered haccounted ?_ ?_ ?_ ?_ hlog rfl
  · show σ.acts ≠ [] ∨ 0 < server.nextTask → server.pool = true
    rw [hnext, hpool]
    exact h.set
  · intro task _
    show (server.heap task).context = _
    rw [hheap]
  · intro task _ hcanceled
    show (server.heap task).canceled = true
    rw [hheap]
    exact hcanceled
  · intro j entry hj
    change Function.update σ.workQueue.threads i t j = .running entry at hj
    by_cases hji : j = i
    · rw [hji, Function.update_self] at hj
      exact absurd hj (ht entry)
    · rw [Function.update_of_ne hji] at hj
      exact ⟨hj, rfl⟩

theorem replied_init : Replied {} := by
  refine ⟨by simp, ?_, ?_, ?_, by simp⟩
  · intro i entry hi
    exact absurd hi (by simp)
  · intro i entry hi
    exact absurd hi (by simp)
  · intro i entry hi
    exact absurd hi (by simp)

/-- **Every step keeps the answers in order.** -/
theorem replied_step {e : SystemEvent} (h : Replied σ) (hshape : Shape σ.workQueue)
    (haccounted : Accounted σ.workQueue) (hregistered : Registered σ)
    (hstep : σ.step n e = some σ') : Replied σ' := by
  have hsame : ∀ i entry, σ.workQueue.threads i = .running entry →
      σ.workQueue.threads i = .running entry ∧ σ.runs i = σ.runs i := fun _ _ hi => ⟨hi, rfl⟩
  cases step_cases hstep with
  | setNetworkPool =>
    exact h.frame hregistered haccounted (fun _ => rfl) (fun _ _ => rfl) (fun _ _ => id) hsame
      (fun _ => id) rfl
  | pool pe p hpe hidle =>
    exact h.frame hregistered haccounted h.set (fun _ _ => rfl) (fun _ _ => id) hsame
      (fun _ => id) rfl
  | callback garbage newTask c callbacks acts server hacts hcallbacks hcall =>
    refine h.frame hregistered haccounted ?_ ?_ ?_ hsame (fun _ => id) rfl
    · rintro (hsome | hborn)
      · -- only with a pool `message` goes on to push
        obtain ⟨a, ha⟩ := List.exists_mem_of_ne_nil _ hsome
        show server.pool = true
        rw [hcall.pool]
        exact (hcall.acts a ha).1
      · show server.pool = true
        rw [hcall.pool]
        exact h.set (.inr (hcall.nextTask ▸ hborn))
    · intro task _
      rcases hcall.heap task with heq | heq
      · show (server.heap task).context = _
        rw [heq]
      · show (server.heap task).context = _
        rw [heq]
    · intro task _ hcanceled
      rcases hcall.heap task with heq | heq
      · show (server.heap task).canceled = true
        rw [heq]
        exact hcanceled
      · show (server.heap task).canceled = true
        rw [heq]
  | build woken node context acts hacts hbuilt =>
    have hold : ∀ task < σ.server.nextTask,
        (σ.server.newTask node context σ.reader).heap task = σ.server.heap task := by
      intro task hlt
      exact Function.update_of_ne (by omega) _ _
    refine h.frame hregistered haccounted (fun _ => ?_) ?_ ?_ hsame (fun _ => id) rfl
    · exact h.set (.inl (by rw [hacts]; simp))
    · exact fun task hlt => congrArg ChttpTask.context (hold task hlt)
    · exact fun task hlt hcanceled => (congrArg ChttpTask.canceled (hold task hlt)).trans hcanceled
  | push woken node context acts task q hacts hbuilt hq =>
    obtain ⟨entry, -, -, hlog, hrunning⟩ := WorkQueue.pushTask_records hq
    refine h.frame hregistered haccounted ?_ (fun _ _ => rfl) (fun _ _ => id) ?_ ?_ rfl
    · exact fun _ => h.set (.inl (by rw [hacts]; simp))
    · exact fun i entry' hi => ⟨(hrunning i entry').mp hi, rfl⟩
    · intro entry' hran
      exact hlog ▸ hran
  | close woken node acts hacts =>
    have hset := h.set (.inl (by rw [hacts]; simp))
    exact h.frame hregistered haccounted (fun _ => hset) (fun _ _ => rfl) (fun _ _ => id) hsame
      (fun _ => id) rfl
  | idle e qe q hevent hq hsameQueue =>
    have hqueue := hsameQueue hshape
    refine h.frame hregistered haccounted h.set (fun _ _ => rfl) (fun _ _ => id) ?_ ?_ rfl
    · exact fun i entry' hi => ⟨(hqueue.running i entry').mp hi, rfl⟩
    · intro entry' hran
      exact hqueue.log ▸ hran
  | start i entry hthread =>
    have hnone := hregistered.answer_of_taken haccounted hthread
    refine h.within hregistered haccounted (taken_iff_held.mp hthread) List.not_mem_nil rfl rfl rfl
      ?_ rfl (fun _ _ => rfl) (fun _ => hnone) (by simp) (by simp)
    intro entry' hmem
    rcases List.mem_append.mp hmem with hold | hnew
    · exact hold
    · exact absurd (List.mem_singleton.mp hnew) (by simp)
  | skip i entry hthread hrun hcanceled =>
    have hnone := h.quiet i entry hthread (.inl hrun)
    exact h.goOn hregistered haccounted hthread rfl rfl rfl rfl (fun _ _ => rfl) (by simp) (by simp)
      (fun _ => .inl ⟨hnone, hcanceled⟩) (by simp)
  | check i entry hthread hrun hcanceled =>
    have hnone := h.quiet i entry hthread (.inl hrun)
    exact h.goOn hregistered haccounted hthread rfl rfl rfl rfl (fun _ _ => rfl) (fun _ => hnone)
      (by simp) (by simp) (by simp)
  | fault =>
    exact h.frame hregistered haccounted h.set (fun _ _ => rfl) (fun _ _ => id) hsame
      (fun _ => id) rfl
  | send i entry hthread hrun hpool =>
    exact h.send hregistered haccounted hthread hrun rfl rfl rfl rfl rfl
  | noPool i entry hthread hrun hpool =>
    have hborn := hregistered.pushed entry (mem_pushed haccounted (running_iff_held.mp hthread))
    have hset := h.set (.inr (by omega))
    exact absurd (hpool.symm.trans hset) (by simp)
  | replyClose i entry hthread hrun =>
    exact h.close hregistered haccounted hthread hrun hstep rfl rfl rfl rfl
  | keepAlive i entry hthread hrun =>
    exact h.close hregistered haccounted hthread hrun hstep rfl rfl rfl rfl
  | ran i entry hthread hrun =>
    have hleft : Replied { σ with workQueue := { σ.workQueue with
        threads := Function.update σ.workQueue.threads i (.ran entry), log := σ.workQueue.log } } :=
      h.leave hregistered haccounted (by simp) (fun _ => id) rfl rfl rfl
    refine ⟨hleft.set, hleft.quiet, hleft.sent, hleft.done, fun entry' hmem => ?_⟩
    rcases List.mem_append.mp hmem with hold | hnew
    · exact hleft.ran entry' hold
    · obtain rfl := WorkQueue.Call.ran.inj (List.mem_singleton.mp hnew)
      exact h.done i entry' hthread hrun
  | finish i entry hthread =>
    refine h.leave hregistered haccounted (by simp) ?_ rfl rfl rfl
    intro entry' hmem
    rcases List.mem_append.mp hmem with hold | hnew
    · exact hold
    · exact absurd (List.mem_singleton.mp hnew) (by simp)
  | sweep entry rest howner =>
    refine h.frame hregistered haccounted h.set (fun _ _ => rfl) (fun _ _ => id) hsame ?_ rfl
    intro entry' hmem
    rcases List.mem_append.mp hmem with hold | hnew
    · exact hold
    · exact absurd (List.mem_singleton.mp hnew) (by simp)

theorem replied_of_reachable (hr : (serverSystem n).Reachable σ) : Replied σ := by
  apply hr.invariant replied_init
  intro s e s' hs h hstep
  obtain ⟨hshape, haccounted, hregistered⟩ := reachable_registered hs
  exact replied_step h hshape haccounted hregistered hstep

/-! ## The threads come to an end -/

/-- The steps a thread has left when nothing is pushed, at most. -/
def stepsLeft : WorkQueue.Thread ℕ Unit × Run → ℕ
  | (.locking, _) => 1
  | (.taken _, _) => 7
  | (.running _, run) => run.left + 3
  | (.ran _, _) => 2
  | _ => 0

/-- The steps the threads have left when nothing is pushed, at most. -/
def work (σ : System) : ℕ :=
  if σ.ended then 0
  else
    7 * σ.workQueue.queue.tasks.length +
      total stepsLeft (fun i => (σ.workQueue.threads i, σ.runs i)) σ.workQueue.created

/-- What a step of a thread does to the threads. -/
structure Moved (i : ℕ) (σ σ' : System) (t : WorkQueue.Thread ℕ Unit) (run : Run) : Prop where
  ended : σ'.ended = σ.ended
  heap : σ'.server.heap = σ.server.heap
  threads : σ'.workQueue.threads = Function.update σ.workQueue.threads i t
  runs : σ'.runs = Function.update σ.runs i run
  created : σ'.workQueue.created = σ.workQueue.created
  owner : σ'.workQueue.owner = σ.workQueue.owner
  pushed : σ'.workQueue.pushed = σ.workQueue.pushed
  born : σ.workQueue.threads i ≠ .unborn
  less : 7 * σ'.workQueue.queue.tasks.length + stepsLeft (t, run) <
    7 * σ.workQueue.queue.tasks.length + stepsLeft (σ.workQueue.threads i, σ.runs i)

/-- In `run` only the place in it changes. -/
theorem moved_running {run : Run} (hthread : σ.workQueue.threads i = .running entry)
    (hended : σ'.ended = σ.ended) (hheap : σ'.server.heap = σ.server.heap)
    (hqueue : σ'.workQueue = σ.workQueue) (hruns : σ'.runs = Function.update σ.runs i run)
    (hless : run.left < (σ.runs i).left) : Moved i σ σ' (.running entry) run := by
  have hsame : Function.update σ.workQueue.threads i (.running entry) = σ.workQueue.threads := by
    rw [← hthread, Function.update_eq_self]
  refine ⟨hended, hheap, ?_, hruns, ?_, ?_, ?_, by simp [hthread], ?_⟩
  · rw [hqueue, hsame]
  · rw [hqueue]
  · rw [hqueue]
  · rw [hqueue]
  · rw [hqueue, hthread]
    simp only [stepsLeft]
    omega

/-- Every step of a thread is one of those it has left, or it ends the process. -/
theorem moved_or_ended (h : σ.worker i = some σ') :
    (∃ t run, Moved i σ σ' t run) ∨
      (σ' = { σ with ended := true } ∧ ∃ entry, σ.workQueue.threads i = .running entry) := by
  unfold System.worker at h
  cases hthread : σ.workQueue.threads i with
  | unborn | waiting | exited => simp [hthread, WorkQueue.State.thread] at h
  | locking =>
    simp only [hthread] at h
    obtain ⟨q, hq, rfl⟩ := Option.map_eq_some_iff.mp h
    obtain ⟨hstride, howner, hcreated, hpushed⟩ := WorkQueue.stride hq
    have hruns : σ.runs = Function.update σ.runs i (σ.runs i) := (Function.update_eq_self ..).symm
    cases hstride with
    | leave hbefore hexit hqueue hthreads =>
      refine .inl ⟨.exited, σ.runs i, rfl, rfl, hthreads, hruns, hcreated, howner, hpushed,
        by simp [hthread], ?_⟩
      rw [hthread, hqueue]
      simp only [stepsLeft]
      omega
    | sleep hbefore htasks hqueue hthreads =>
      refine .inl ⟨.waiting, σ.runs i, rfl, rfl, hthreads, hruns, hcreated, howner, hpushed,
        by simp [hthread], ?_⟩
      rw [hthread, hqueue]
      simp only [stepsLeft]
      omega
    | take entry hbefore htasks hexit hthreads =>
      refine .inl ⟨.taken entry, σ.runs i, rfl, rfl, hthreads, hruns, hcreated, howner, hpushed,
        by simp [hthread], ?_⟩
      rw [hthread, htasks, List.length_cons]
      simp only [stepsLeft]
      omega
    | goOn t hbefore hleft hrunning hawake hqueue hthreads =>
      rw [hthread] at hbefore
      exact absurd hbefore (by simp [WorkQueue.Thread.alert])
  | taken entry =>
    simp only [hthread, WorkQueue.State.thread, Option.map_some, Option.some.injEq] at h
    rw [← h]
    refine .inl ⟨.running entry, .start, rfl, rfl, rfl, rfl, rfl, rfl, rfl, by simp [hthread], ?_⟩
    rw [hthread]
    simp only [stepsLeft, Run.left]
    omega
  | ran entry =>
    simp only [hthread, WorkQueue.State.thread, Option.map_some, Option.some.injEq] at h
    rw [← h]
    refine .inl ⟨.locking, σ.runs i, rfl, rfl, rfl, (Function.update_eq_self ..).symm, rfl, rfl,
      rfl, by simp [hthread], ?_⟩
    rw [hthread]
    simp only [stepsLeft]
    omega
  | running entry =>
    simp only [hthread] at h
    cases hrun : σ.runs i with
    | start =>
      simp only [hrun] at h
      split at h
      · rw [← Option.some.inj h]
        exact .inl ⟨_, .done, moved_running hthread rfl rfl rfl rfl (by rw [hrun]; decide)⟩
      · rw [← Option.some.inj h]
        exact .inl ⟨_, .checked, moved_running hthread rfl rfl rfl rfl (by rw [hrun]; decide)⟩
    | checked =>
      simp only [hrun, reply, Option.some.injEq] at h
      split at h
      · -- `getInfo` faults
        exact .inr ⟨h.symm, entry, rfl⟩
      · split at h
        · rw [← h]
          exact .inl ⟨_, .sent, moved_running hthread rfl rfl rfl rfl (by rw [hrun]; decide)⟩
        · rw [← h]
          exact .inl ⟨_, .done, moved_running hthread rfl rfl rfl rfl (by rw [hrun]; decide)⟩
    | sent =>
      simp only [hrun, System.replyClose, Option.some.injEq] at h
      split at h
      · rw [← h]
        exact .inl ⟨_, .done, moved_running hthread rfl rfl rfl rfl (by rw [hrun]; decide)⟩
      · rw [← h]
        exact .inl ⟨_, .done, moved_running hthread rfl rfl rfl rfl (by rw [hrun]; decide)⟩
    | done =>
      simp only [hrun, WorkQueue.State.thread, hthread, Option.map_some, Option.some.injEq] at h
      rw [← h]
      refine .inl ⟨.ran entry, σ.runs i, rfl, rfl, rfl, (Function.update_eq_self ..).symm, rfl,
        rfl, rfl, by simp [hthread], ?_⟩
      rw [hthread, hrun]
      simp only [stepsLeft, Run.left]
      omega

theorem Moved.work_lt {t : WorkQueue.Thread ℕ Unit} {run : Run} (h : Moved i σ σ' t run)
    (hshape : Shape σ.workQueue) (hended : σ.ended = false) : σ'.work < σ.work := by
  have hi : i < σ.workQueue.created := by
    by_contra hge
    exact h.born ((hshape.unborn i).mpr (by omega))
  have hpair : (fun j => (σ'.workQueue.threads j, σ'.runs j)) =
      Function.update (fun j => (σ.workQueue.threads j, σ.runs j)) i (t, run) := by
    ext j : 1
    rw [h.threads, h.runs]
    by_cases hji : j = i
    · rw [hji, Function.update_self, Function.update_self, Function.update_self]
    · rw [Function.update_of_ne hji, Function.update_of_ne hji, Function.update_of_ne hji]
  have htotal := total_update (g := stepsLeft) (x := (t, run))
    (f := fun j => (σ.workQueue.threads j, σ.runs j)) hi
  have hless := h.less
  unfold work
  rw [h.ended, hended, hpair, h.created]
  simp only [Bool.false_eq_true, if_false]
  omega

/-- A thread in `run` has steps left. -/
theorem work_pos (hshape : Shape σ.workQueue) (hended : σ.ended = false)
    (hthread : σ.workQueue.threads i = .running entry) : 0 < σ.work := by
  have hi : i < σ.workQueue.created := by
    by_contra hge
    have hunborn := (hshape.unborn i).mpr (by omega)
    exact absurd (hthread.symm.trans hunborn) (by simp)
  have htotal := total_update (g := stepsLeft) (x := (.exited, σ.runs i))
    (f := fun j => (σ.workQueue.threads j, σ.runs j)) hi
  simp only [hthread, stepsLeft] at htotal
  unfold work
  rw [hended]
  simp only [Bool.false_eq_true, if_false]
  omega

/-- A step of a thread uses up one that was left. -/
theorem worker_lt (hshape : Shape σ.workQueue) (hstep : σ.step n (.worker i) = some σ') :
    σ'.work < σ.work ∧ σ'.workQueue.owner = σ.workQueue.owner ∧
      σ'.workQueue.pushed = σ.workQueue.pushed ∧ σ'.server.heap = σ.server.heap := by
  obtain ⟨hended, hworker⟩ := step_eq_some.mp hstep
  rcases moved_or_ended hworker with ⟨t, run, hmoved⟩ | ⟨rfl, entry, hthread⟩
  · exact ⟨hmoved.work_lt hshape hended, hmoved.owner, hmoved.pushed, hmoved.heap⟩
  · exact ⟨work_pos hshape hended hthread, rfl, rfl, rfl⟩

/-- A run of the threads alone. -/
theorem exec_workers {es : List SystemEvent} (hes : ∀ e ∈ es, ∃ i, e = .worker i)
    (hr : (serverSystem n).Reachable σ) (hexec : (serverSystem n).exec σ es = some σ') :
    (serverSystem n).Reachable σ' ∧ es.length + σ'.work ≤ σ.work ∧
      σ'.workQueue.owner = σ.workQueue.owner ∧ σ'.workQueue.pushed = σ.workQueue.pushed ∧
      σ'.server.heap = σ.server.heap := by
  induction es generalizing σ with
  | nil =>
    obtain rfl : σ = σ' := Option.some.inj hexec
    exact ⟨hr, by simp, rfl, rfl, rfl⟩
  | cons e es ih =>
    obtain ⟨σ₁, hstep, hrest⟩ := Option.bind_eq_some_iff.mp hexec
    obtain ⟨i, rfl⟩ := hes e List.mem_cons_self
    obtain ⟨hless, howner₁, hpushed₁, hheap₁⟩ := worker_lt (reachable_registered hr).1 hstep
    obtain ⟨hr', hlength, howner, hpushed, hheap⟩ :=
      ih (fun e he => hes e (List.mem_cons_of_mem _ he)) (.step hr hstep) hrest
    refine ⟨hr', ?_, howner.trans howner₁, hpushed.trans hpushed₁, hheap.trans hheap₁⟩
    rw [List.length_cons]
    omega

/-- A thread of the work queue that can go on can go on in the system. -/
theorem thread_eq_none_of_worker (h : σ.worker i = none) : σ.workQueue.thread i = none := by
  cases hthread : σ.workQueue.threads i with
  | running entry =>
    simp only [worker, hthread] at h
    cases hrun : σ.runs i with
    | start =>
      simp only [hrun] at h
      split at h <;> exact absurd h (by simp)
    | done => simp [hrun, WorkQueue.State.thread, hthread] at h
    | checked | sent => simp [hrun] at h
  | _ =>
    simp only [worker, hthread, Option.map_eq_none_iff] at h
    exact h

/-- Only `getInfo` ends the process. -/
theorem unsafe_of_ended (hr : (serverSystem n).Reachable σ) (hended : σ.ended = true) :
    ∃ entry, .run entry ∈ σ.workQueue.log ∧ ¬(σ.server.heap entry.task).context.InfoSafe := by
  cases hr with
  | init => exact absurd hended (by simp [serverSystem])
  | @step σ₀ e _ hr hstep =>
    have hbefore : σ₀.ended = false := (step_eq_some.mp hstep).1
    obtain ⟨-, haccounted, -⟩ := reachable_registered hr
    cases step_cases hstep with
    | fault i entry hthread hrun f hinfo =>
      exact ⟨entry, haccounted.run_mem hthread, (ChttpContext.getInfo_error_iff.mp ⟨f, hinfo⟩).2⟩
    | _ => exact absurd (hbefore.symm.trans hended) (by simp)

/-! ## Answers over runs -/

/-- What was sent for a task is the beginning of its answer. -/
theorem Replied.answer_prefix (h : Replied σ) (haccounted : Accounted σ.workQueue)
    (hregistered : Registered σ) (task : ℕ) :
    ∃ base, σ.answer task <+: σ.wholeAnswer task base := by
  have hthrough : σ.Through task → ∃ base, σ.answer task <+: σ.wholeAnswer task base := by
    rintro (⟨hnone, -⟩ | ⟨base, hbase⟩)
    · rw [hnone]
      exact ⟨0, List.nil_prefix⟩
    · rw [hbase]
      exact ⟨base, List.prefix_refl _⟩
  by_cases hnone : σ.answer task = []
  · rw [hnone]
    exact ⟨0, List.nil_prefix⟩
  -- `run` was called for the task
  obtain ⟨r, hr⟩ := List.exists_mem_of_ne_nil _ hnone
  obtain ⟨hreply, htask⟩ := List.mem_filter.mp hr
  obtain ⟨entry, hbegun, hentry⟩ := hregistered.begun r hreply
  obtain rfl : entry.task = task := hentry.trans (by simpa using htask)
  have hpushed : entry ∈ σ.workQueue.pushed := haccounted.logged _ hbegun
  have hin := mem_history hbegun
  rw [WorkQueue.Call.entry] at hin
  have hdequeued : entry ∈ σ.workQueue.dequeued := by
    rw [← haccounted.order] at hpushed
    rcases List.mem_append.mp hpushed with hdequeued | htasks
    · exact hdequeued
    · have hdelete := (haccounted.tasks_prefix htasks).subset hin
      exact absurd (List.mem_singleton.mp hdelete) (by simp)
  have hback : .ran entry ∈ history entry.number σ.workQueue.log → σ.Through entry.task :=
    fun hmem => h.ran entry (List.mem_filter.mp hmem).1
  by_cases hheld : ∃ i l, (σ.workQueue.threads i).held = some (entry, l)
  · obtain ⟨i, l, hi⟩ := hheld
    rw [(haccounted.held i entry l hi).2] at hin hback
    cases hthread : σ.workQueue.threads i with
    | running entry' =>
      rw [hthread] at hi
      obtain ⟨rfl, -⟩ := Prod.mk.inj (Option.some.inj hi)
      cases hrun : σ.runs i with
      | start => exact absurd (h.quiet i entry' hthread (.inl hrun)) hnone
      | checked => exact absurd (h.quiet i entry' hthread (.inr hrun)) hnone
      | sent =>
        obtain ⟨base, hbase⟩ := h.sent i entry' hthread hrun
        rw [hbase]
        exact ⟨base, List.cons_prefix_cons.mpr ⟨rfl, List.nil_prefix⟩⟩
      | done => exact hthrough (h.done i entry' hthread hrun)
    | taken entry' =>
      rw [hthread] at hi
      obtain ⟨rfl, rfl⟩ := Prod.mk.inj (Option.some.inj hi)
      exact absurd hin List.not_mem_nil
    | ran entry' =>
      rw [hthread] at hi
      obtain ⟨rfl, rfl⟩ := Prod.mk.inj (Option.some.inj hi)
      exact hthrough (hback (by simp))
    | unborn | locking | waiting | exited =>
      rw [hthread] at hi
      exact absurd hi (by simp [WorkQueue.Thread.held])
  · have hcalls := haccounted.done entry hdequeued fun i l hi => hheld ⟨i, l, hi⟩
    rw [hcalls] at hback
    exact hthrough (hback (by simp [Entry.calls]))

/-- **Every request is answered once.** At any time what was sent and closed for a task is the
beginning of one answer, and when `run` is back it is the whole answer unless the task was
canceled. Only a request on which `getInfo` is not safe, one without a first line or with one space
in it, ends the process. As long as the work queue is not destroyed, its threads, in whatever order
they go on, make at most `System.work` steps. When none of them can move and `getInfo` is safe on
the requests that were pushed, each of these is answered and its task is destroyed. -/
theorem requests_answered (hr : (serverSystem n).Reachable σ) :
    (∀ task, ∃ base, σ.answer task <+: σ.wholeAnswer task base) ∧
    (∀ entry, .ran entry ∈ σ.workQueue.log → σ.Through entry.task) ∧
    (σ.ended = true → ∃ entry, .run entry ∈ σ.workQueue.log ∧
      ¬(σ.server.heap entry.task).context.InfoSafe) ∧
    (0 < n → σ.workQueue.owner = .alive → ∀ es σ', (∀ e ∈ es, ∃ i, e = .worker i) →
      (serverSystem n).exec σ es = some σ' →
      es.length + σ'.work ≤ σ.work ∧
      ((∀ i, σ'.step n (.worker i) = none) →
        (∀ entry ∈ σ.workQueue.pushed, (σ.server.heap entry.task).context.InfoSafe) →
          ∀ entry ∈ σ.workQueue.pushed,
            entry.task ∈ σ'.server.destroyed ∧ σ'.Through entry.task)) := by
  obtain ⟨-, haccounted, hregistered⟩ := reachable_registered hr
  have hreplied := replied_of_reachable hr
  refine ⟨hreplied.answer_prefix haccounted hregistered, hreplied.ran, unsafe_of_ended hr, ?_⟩
  intro hpos halive es σ' hes hexec
  obtain ⟨hr', hlength, howner, hpushed, hheap⟩ := exec_workers hes hr hexec
  refine ⟨hlength, fun hstuck hsafe entry hentry => ?_⟩
  obtain ⟨-, haccounted', hregistered'⟩ := reachable_registered hr'
  -- the threads have pushed nothing, so all that began to run is safe
  have hended : σ'.ended = false := by
    rw [← Bool.not_eq_true]
    intro hended
    obtain ⟨entry', hrun, hunsafe⟩ := unsafe_of_ended hr' hended
    have hpushed' : entry' ∈ σ'.workQueue.pushed := haccounted'.logged _ hrun
    rw [hheap] at hunsafe
    exact hunsafe (hsafe entry' (hpushed ▸ hpushed'))
  have hthreads : ∀ i, σ'.workQueue.thread i = none := by
    intro i
    have hnone := hstuck i
    rw [step, hended] at hnone
    exact thread_eq_none_of_worker hnone
  obtain ⟨htasks, hheld⟩ := WorkQueue.tasks_of_stuck hpos (reachable_workQueue hr')
    (howner.trans halive) hthreads
  have hdequeued : entry ∈ σ'.workQueue.dequeued := by
    have horder := haccounted'.order
    rw [htasks, List.append_nil] at horder
    rw [horder, hpushed]
    exact hentry
  have hcalls := haccounted'.done entry hdequeued fun i l hi => by simp [hheld i] at hi
  have hlogged : ∀ c ∈ entry.calls, c ∈ σ'.workQueue.log := by
    rw [← hcalls]
    exact fun c hc => (List.mem_filter.mp hc).1
  refine ⟨(hregistered'.destroyed _).mpr ⟨entry, hlogged _ (by simp [Entry.calls]), rfl⟩, ?_⟩
  exact (replied_of_reachable hr').ran entry (hlogged _ (by simp [Entry.calls]))

/-- One thread answers a request that keeps the connection alive and one that does not. -/
theorem requests_answered_two :
    ∃ σ σ', (serverSystem 1).run (pipelineRun 1) = some σ ∧
      (serverSystem 1).exec σ (List.replicate 15 (.worker 0)) = some σ' ∧
      σ.workQueue.pushed = [⟨0, 0, ()⟩, ⟨1, 1, ()⟩] ∧
      (∀ entry ∈ σ.workQueue.pushed, entry.task ∈ σ'.server.destroyed ∧ σ'.Through entry.task) ∧
      σ'.answer 0 = [.send 0 0] ∧ σ'.answer 1 = [.send 1 1, .close 1] := by
  have hboth : (((serverSystem 1).run (pipelineRun 1)).bind fun σ =>
      ((serverSystem 1).exec σ (List.replicate 15 (.worker 0))).map fun σ' =>
        decide (σ.workQueue.owner = .alive ∧ σ.workQueue.pushed = [⟨0, 0, ()⟩, ⟨1, 1, ()⟩] ∧
          (∀ entry ∈ σ.workQueue.pushed, (σ.server.heap entry.task).context.InfoSafe) ∧
          σ'.workQueue.created = 1 ∧ σ'.workQueue.threads 0 = .waiting ∧
          σ'.answer 0 = [.send 0 0] ∧ σ'.answer 1 = [.send 1 1, .close 1])) = some true := by
    decide +kernel
  obtain ⟨σ, hrun, hrest⟩ := Option.bind_eq_some_iff.mp hboth
  obtain ⟨σ', hexec, hvalues⟩ := Option.map_eq_some_iff.mp hrest
  obtain ⟨halive, hpushed, hsafe, hcreated, hwaiting, hfirst, hsecond⟩ :=
    of_decide_eq_true hvalues
  have hr := Lib.Lts.reachable_of_run hrun
  have hworkers : ∀ e ∈ List.replicate 15 (SystemEvent.worker 0), ∃ i, e = .worker i :=
    fun e he => ⟨0, List.eq_of_mem_replicate he⟩
  have hstuck : ∀ i, σ'.step 1 (.worker i) = none := by
    intro i
    have hshape := (reachable_registered (exec_workers hworkers hr hexec).1).1
    have hnone : σ'.worker i = none := by
      by_cases hi : i = 0
      · simp [hi, worker, hwaiting, WorkQueue.State.thread]
      · have hunborn := (hshape.unborn i).mpr (by omega)
        simp [worker, hunborn, WorkQueue.State.thread]
    rw [step, advance, hnone, ite_self]
  obtain ⟨-, hanswered⟩ := (requests_answered hr).2.2.2 (by decide) halive _ σ' hworkers hexec
  exact ⟨σ, σ', hrun, hexec, hpushed, hanswered hstuck hsafe, hfirst, hsecond⟩

end System

end NetworkPool
