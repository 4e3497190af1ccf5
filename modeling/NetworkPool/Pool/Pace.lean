import NetworkPool.Pool.BindAnswers

/-!
# The internal thread at its queues

What a step of the internal thread does to the pending queues, to the local copies of `on_wakeup`,
to `m_bWantExit` and to `m_wakeup` (`Pool.Pace`). `m_wakeup` is null once it is closed, so only the
exit branch touches it.
-/

namespace NetworkPool

/-! ## Steps of the internal thread -/

/-- The requests in the local copies. -/
def Batch.size (b : Batch) : ℕ :=
  b.bindCopy.length + b.sendCopy.length + b.closeCopy.length

/-- The requests in the pending queues. -/
def Exchanged.pending (x : Exchanged) : ℕ :=
  x.pendingBind.length + x.pendingSend.length + x.pendingClose.length

namespace Pool

/-- A step of the internal thread, for the queues, `m_bWantExit` and `m_wakeup`. -/
inductive Pace (p : Pool) : Event → Pool → Prop
  /-- `on_wakeup` takes the queues. -/
  | take (x : Exchanged) (b : Batch) (hbatch : p.batch = none) (hx : x.pending = 0)
      (hexit : x.bWantExit = p.exchanged.bWantExit) (hb : b.size = p.exchanged.pending)
      (hdispatched : b.dispatched = false) :
      Pace p .wakeup { p with exchanged := x, batch := some b }
  /-- The exit branch. -/
  | exit (order : ExitOrder) (s : Internal) (b : Batch) (hbatch : p.batch = some b)
      (hdispatched : b.dispatched = false) (hexit : p.exchanged.bWantExit = true)
      (hwakeup : s.wakeup = false) (hclosing : s.async.closing = true) :
      Pace p (.dispatch order) { p with internal := s, batch := none }
  /-- The loops begin. -/
  | go (order : ExitOrder) (b b' : Batch) (hbatch : p.batch = some b)
      (hdispatched : b.dispatched = false) (hexit : p.exchanged.bWantExit = false)
      (hdispatched' : b'.dispatched = true) (hb : b'.size = b.size) :
      Pace p (.dispatch order) { p with batch := some b' }
  /-- One request. -/
  | next (e : Event) (s : Internal) (b b' : Batch) (he : ∀ order, e ≠ .dispatch order)
      (hbatch : p.batch = some b) (hdispatched : b.dispatched = true)
      (hdispatched' : b'.dispatched = true) (hb : b'.size + 1 = b.size)
      (hwakeup : s.wakeup = p.internal.wakeup)
      (hclosing : s.async.closing = p.internal.async.closing) :
      Pace p e { p with internal := s, batch := some b' }
  /-- `on_wakeup` returns. -/
  | done (b : Batch) (hbatch : p.batch = some b) (hdispatched : b.dispatched = true) :
      Pace p .wakeupDone { p with batch := none }
  /-- A callback of libuv. -/
  | uv (e : UvEvent) (s : Internal) (hbatch : p.batch = none)
      (hwakeup : s.wakeup = p.internal.wakeup)
      (hclosing : s.async.closing = p.internal.async.closing) :
      Pace p (.uv e) { p with internal := s }

variable {p p' : Pool} {e : Event}

/-- A step that leaves the handle alone leaves `m_wakeup` alone. -/
theorem wakeup_of_closing (hr : poolSystem.Reachable p) (h : p.step e = some p')
    (hclosing : p'.internal.async.closing = p.internal.async.closing) :
    p'.internal.wakeup = p.internal.wakeup := by
  have hafter : p'.internal.wakeup = !p'.internal.async.closing :=
    (served_of_reachable (hr.step h)).wakeup
  have hbefore : p.internal.wakeup = !p.internal.async.closing := (served_of_reachable hr).wakeup
  rw [hafter, hbefore, hclosing]

/-- **Inversion of a step of the internal thread.** -/
theorem pace (hr : poolSystem.Reachable p) (he : e.outside = false) (h : p.step e = some p') :
    Pace p e p' := by
  have hstep := h
  have hr' : poolSystem.Reachable p' := hr.step h
  cases e with
  | bind | send | close | wantExit => exact absurd he (by simp [Event.outside])
  | wakeup =>
    simp only [Pool.step] at h
    split at h
    · exact absurd h (by simp)
    · rename_i hbatch
      simp only [Option.ite_none_left_eq_some, Option.some.injEq] at h
      rw [← h.2]
      exact .take _ _ hbatch rfl rfl rfl rfl
  | dispatch order =>
    simp only [Pool.step] at h
    split at h
    · rename_i binds sends closes hbatch
      split_ifs at h with hexit henum
      · obtain rfl := Option.some.inj h
        have hclosing := (exitAll_rest order ⟨binds, sends, closes, false⟩
          (served_of_reachable hr).async).2
        refine .exit order _ _ hbatch rfl hexit ?_ hclosing
        exact (served_of_reachable hr').wakeup.trans (congrArg (!·) hclosing)
      · rw [← Option.some.inj h]
        exact .go order _ _ hbatch rfl (by simpa using hexit) rfl rfl
    · exact absurd h (by simp)
  | bindNext env =>
    simp only [Pool.step] at h
    split at h
    · rename_i node bBind binds sends closes hbatch
      obtain rfl := Option.some.inj h
      have hclosing := ((bound_of_reachable hr).bindOne env node bBind).closing
      refine .next _ _ _ ⟨binds, sends, closes, true⟩ (by simp) hbatch rfl rfl ?_
        (wakeup_of_closing hr hstep hclosing) hclosing
      simp only [Batch.size, List.length_cons]
      omega
    · exact absurd h (by simp)
  | sendNext env =>
    simp only [Pool.step] at h
    split at h
    · rename_i req sends closes hbatch
      obtain rfl := Option.some.inj h
      have hclosing := (sameServers_sendOne env p.internal req).closing
      refine .next _ _ _ ⟨[], sends, closes, true⟩ (by simp) hbatch rfl rfl ?_
        (wakeup_of_closing hr hstep hclosing) hclosing
      simp only [Batch.size, List.length_cons]
      omega
    · exact absurd h (by simp)
  | closeNext env =>
    simp only [Pool.step] at h
    split at h
    · rename_i node bForceClose closes hbatch
      obtain rfl := Option.some.inj h
      have hclosing := (sameServers_closeOne env p.internal node bForceClose).closing
      refine .next _ _ _ ⟨[], [], closes, true⟩ (by simp) hbatch rfl rfl ?_
        (wakeup_of_closing hr hstep hclosing) hclosing
      simp only [Batch.size, List.length_cons]
      omega
    · exact absurd h (by simp)
  | wakeupDone =>
    simp only [Pool.step] at h
    split at h
    · rename_i hbatch
      rw [← Option.some.inj h]
      exact .done _ hbatch rfl
    · exact absurd h (by simp)
  | uv e =>
    simp only [Pool.step] at h
    split at h
    · exact absurd h (by simp)
    · split at h
      · rename_i hbatch _ s hs
        obtain rfl := Option.some.inj h
        have hclosing := (uvStep_servers hs).closing
        exact .uv e s hbatch (wakeup_of_closing hr hstep hclosing) hclosing
      · exact absurd h (by simp)

end Pool

end NetworkPool
