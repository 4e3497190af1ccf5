import NetworkPool.Pool.Pace

/-!
# Signals

The callers change the exchanged data under the lock, and call `uv_async_send` after they released
it. Several signals may become one callback, and a callback may take what was queued behind the
signal that caused it. Still no request stays behind in a queue, and no exit is missed
(`requests_taken`). The destructor sets `m_bWantExit` before it signals, so a callback of an earlier
signal may close `m_wakeup` under it (`signals_land_iff`).
-/

namespace NetworkPool

/-! ## The async handle -/

/-- The caller goes on to `uv_async_send`: `bind` and the destructor always do, `send` and `close`
unless they return early. -/
def Event.signals : Event → Bool
  | .bind _ _ | .wantExit => true
  | .send node data _ =>
    !(data.length = 0) && !(node.protocol = .protocolUdp ∧ data.length > 65507)
  | .close node _ => node.protocol = .protocolTcp
  | _ => false

/-- The pool with the state of its async handle. -/
structure Signalled where
  pool : Pool := {}
  /-- Callers that have changed the exchanged data and not called `uv_async_send` yet. -/
  between : ℕ := 0
  /-- The handle is pending: `uv_async_send` was called, and its callback has not begun. -/
  raised : Bool := false
  /-- `on_wakeup` has begun and waits for the lock. -/
  entered : Bool := false

/-- Events of the callers and of the internal thread. -/
inductive SignalEvent
  | call (e : Event)
  | asyncSend
  /-- libuv takes the signal off the handle and calls `on_wakeup`. -/
  | enter
  | thread (e : Event)

namespace Signalled

/-- What the internal thread is ready to do. -/
def allows (σ : Signalled) : Event → Bool
  | .wakeup => σ.entered
  | .uv _ => !σ.entered
  | .dispatch _ | .bindNext _ | .sendNext _ | .closeNext _ | .wakeupDone => true
  | .bind _ _ | .send _ _ _ | .close _ _ | .wantExit => false

/-- One step. `uv_async_send` reads `m_wakeup`, which must not be null. -/
def step (σ : Signalled) : SignalEvent → Option Signalled
  | .call e =>
    if e.outside then
      (σ.pool.step e).map fun p => { σ with pool := p, between := σ.between + e.signals.toNat }
    else none
  | .asyncSend =>
    if 0 < σ.between ∧ σ.pool.internal.wakeup = true then
      some { σ with between := σ.between - 1, raised := true }
    else none
  | .enter =>
    if σ.raised ∧ ¬ σ.entered ∧ σ.pool.batch.isNone ∧ ¬ σ.pool.internal.async.closing then
      some { σ with raised := false, entered := true }
    else none
  | .thread e =>
    if σ.allows e then
      (σ.pool.step e).map fun p =>
        { σ with pool := p, entered := match e with | .wakeup => false | _ => σ.entered }
    else none

/-- The pool and its handle from the construction on. -/
def system : Lib.Lts Signalled SignalEvent where
  init := {}
  step := Signalled.step

/-- Somebody sees to it that the queues are looked at. -/
def Alert (σ : Signalled) : Prop :=
  0 < σ.between ∨ σ.raised = true ∨ σ.entered = true

/-- What holds of the handle in every reachable state. -/
structure Kept (σ : Signalled) : Prop where
  reachable : poolSystem.Reachable σ.pool
  closing : σ.pool.internal.async.closing = !σ.pool.internal.wakeup
  entered : σ.entered = true → σ.pool.batch = none ∧ σ.pool.internal.wakeup = true
  pending : σ.pool.internal.wakeup = true → 0 < σ.pool.exchanged.pending → σ.Alert
  exit : σ.pool.internal.wakeup = true → σ.pool.exchanged.bWantExit = true →
    σ.Alert ∨ ∃ b, σ.pool.batch = some b ∧ b.dispatched = false

variable {σ σ' : Signalled} {e : SignalEvent}

theorem outside_of_allows {e : Event} (h : σ.allows e = true) : e.outside = false := by
  cases e with
  | bind | send | close | wantExit => exact absurd h (by simp [allows])
  | _ => rfl

/-- A call that returns early changes nothing. -/
theorem outside_cases {p p' : Pool} {e : Event} (he : e.outside = true) (h : p.step e = some p') :
    p'.internal = p.internal ∧ p'.batch = p.batch ∧ (e.signals = false → p' = p) := by
  cases e with
  | bind node bBind =>
    rw [← Option.some.inj h]
    exact ⟨rfl, rfl, fun hs => absurd hs (by simp [Event.signals])⟩
  | wantExit =>
    rw [← Option.some.inj h]
    exact ⟨rfl, rfl, fun hs => absurd hs (by simp [Event.signals])⟩
  | send node data bAutoConnect =>
    rw [← Option.some.inj h]
    refine ⟨rfl, rfl, fun hs => ?_⟩
    have hsame : p.exchanged.send node data bAutoConnect = p.exchanged := by
      unfold Exchanged.send
      by_cases hdata : data.length = 0
      · rw [if_pos hdata]
      · rw [if_neg hdata]
        have hlong : node.protocol = .protocolUdp ∧ data.length > 65507 := by
          simpa [Event.signals, hdata] using hs
        rw [if_pos hlong]
    rw [hsame]
  | close node bForceClose =>
    rw [← Option.some.inj h]
    refine ⟨rfl, rfl, fun hs => ?_⟩
    have hnode : node.protocol ≠ .protocolTcp := by simpa [Event.signals] using hs
    have hsame : p.exchanged.close node bForceClose = p.exchanged := by
      unfold Exchanged.close
      rw [if_pos hnode]
    rw [hsame]
  | _ => exact absurd he (by simp [Event.outside])

theorem Kept.init : Kept {} where
  reachable := .init
  closing := rfl
  entered := by simp
  pending := by simp [Exchanged.pending]
  exit := by simp

/-- A call from outside. -/
theorem Kept.call {e : Event} {p : Pool} (h : σ.Kept) (he : e.outside = true)
    (hstep : σ.pool.step e = some p) :
    Kept { σ with pool := p, between := σ.between + e.signals.toNat } := by
  obtain ⟨hinternal, hbatch, hearly⟩ := outside_cases he hstep
  cases hs : e.signals with
  | true =>
    -- the caller is on its way to `uv_async_send`
    have halert : Alert { σ with pool := p, between := σ.between + true.toNat } :=
      .inl (Nat.succ_pos _)
    refine ⟨h.reachable.step (e := e) hstep, ?_, ?_, fun _ _ => halert, fun _ _ => .inl halert⟩
    · rw [hinternal]
      exact h.closing
    · rw [hinternal, hbatch]
      exact h.entered
  | false =>
    obtain rfl := hearly hs
    exact ⟨h.reachable, h.closing, h.entered, h.pending, h.exit⟩

/-- A step of the internal thread. -/
theorem Kept.thread {e : Event} {p : Pool} {entered : Bool} (h : σ.Kept)
    (hentered : entered = match e with | .wakeup => false | _ => σ.entered)
    (hallows : σ.allows e = true) (hstep : σ.pool.step e = some p) :
    Kept { σ with pool := p, entered := entered } := by
  have hr : poolSystem.Reachable p := h.reachable.step (e := e) hstep
  have he := outside_of_allows hallows
  -- a thread that has begun `on_wakeup` has no batch
  have hidle : ∀ {b : Batch}, σ.pool.batch = some b → σ.entered = false := by
    intro b hb
    by_contra hin
    have hnone := (h.entered (by simpa using hin)).1
    exact absurd (hb.symm.trans hnone) (by simp)
  have hstay : σ.entered = false → entered = false := by
    intro hout
    rw [hentered, hout]
    cases e <;> rfl
  have hmove : σ.entered = false → σ.Alert → Alert { σ with pool := p, entered := entered } := by
    rintro hout (hbetween | hraised | hin)
    · exact .inl hbetween
    · exact .inr (.inl hraised)
    · exact absurd (hout.symm.trans hin) (by simp)
  have hloop : ∀ {b : Batch}, σ.pool.batch = some b → b.dispatched = true →
      ¬ ∃ b', σ.pool.batch = some b' ∧ b'.dispatched = false := by
    rintro b hb hd ⟨b', hb', hd'⟩
    obtain rfl := Option.some.inj (hb.symm.trans hb')
    exact absurd (hd.symm.trans hd') (by simp)
  cases Pool.pace h.reachable he hstep with
  | take x b hbatch hx hexit hb hdispatched =>
    subst hentered
    refine ⟨hr, h.closing, by simp, ?_, fun _ _ => .inr ⟨b, rfl, hdispatched⟩⟩
    intro _ hpos
    dsimp only at hpos
    omega
  | exit order s b hbatch hdispatched hexit hwakeup hclosing =>
    subst hentered
    refine ⟨hr, ?_, ?_, ?_, ?_⟩
    · show s.async.closing = !s.wakeup
      rw [hclosing, hwakeup]
      rfl
    · intro hin
      exact absurd ((hidle hbatch).symm.trans hin) (by simp)
    · intro hopen
      exact absurd (hwakeup.symm.trans hopen) (by simp)
    · intro hopen
      exact absurd (hwakeup.symm.trans hopen) (by simp)
  | go order b b' hbatch hdispatched hexit hdispatched' hb =>
    subst hentered
    refine ⟨hr, h.closing, ?_, h.pending, ?_⟩
    · intro hin
      exact absurd ((hidle hbatch).symm.trans hin) (by simp)
    · intro _ hwant
      exact absurd (hexit.symm.trans hwant) (by simp)
  | next e s b b' hne hbatch hdispatched hdispatched' hb hwakeup hclosing =>
    have hout := hidle hbatch
    refine ⟨hr, ?_, ?_, ?_, ?_⟩
    · show s.async.closing = !s.wakeup
      rw [hclosing, hwakeup]
      exact h.closing
    · intro hin
      exact absurd ((hstay hout).symm.trans hin) (by simp)
    · intro hopen hpos
      exact hmove hout (h.pending (hwakeup.symm.trans hopen) hpos)
    · intro hopen hwant
      refine .inl (hmove hout ?_)
      exact (h.exit (hwakeup.symm.trans hopen) hwant).resolve_right (hloop hbatch hdispatched)
  | done b hbatch hdispatched =>
    have hout := hidle hbatch
    refine ⟨hr, h.closing, ?_, ?_, ?_⟩
    · intro hin
      exact absurd ((hstay hout).symm.trans hin) (by simp)
    · intro hopen hpos
      exact hmove hout (h.pending hopen hpos)
    · intro hopen hwant
      refine .inl (hmove hout ?_)
      exact (h.exit hopen hwant).resolve_right (hloop hbatch hdispatched)
  | uv e s hbatch hwakeup hclosing =>
    have hout : σ.entered = false := by simpa [allows] using hallows
    refine ⟨hr, ?_, ?_, ?_, ?_⟩
    · show s.async.closing = !s.wakeup
      rw [hclosing, hwakeup]
      exact h.closing
    · intro hin
      exact absurd ((hstay hout).symm.trans hin) (by simp)
    · intro hopen hpos
      exact hmove hout (h.pending (hwakeup.symm.trans hopen) hpos)
    · intro hopen hwant
      refine .inl (hmove hout ?_)
      apply (h.exit (hwakeup.symm.trans hopen) hwant).resolve_right
      rintro ⟨b, hb, -⟩
      exact absurd (hbatch.symm.trans hb) (by simp)

theorem Kept.step (h : σ.Kept) (hstep : σ.step e = some σ') : σ'.Kept := by
  cases e with
  | call e =>
    simp only [Signalled.step, Option.ite_none_right_eq_some, Option.map_eq_some_iff] at hstep
    obtain ⟨he, p, hp, rfl⟩ := hstep
    exact h.call he hp
  | asyncSend =>
    simp only [Signalled.step, Option.ite_none_right_eq_some, Option.some.injEq] at hstep
    obtain ⟨-, rfl⟩ := hstep
    exact ⟨h.reachable, h.closing, h.entered, fun _ _ => .inr (.inl rfl),
      fun _ _ => .inl (.inr (.inl rfl))⟩
  | enter =>
    simp only [Signalled.step, Option.ite_none_right_eq_some, Option.some.injEq] at hstep
    obtain ⟨⟨-, -, hbatch, hclosing⟩, rfl⟩ := hstep
    have hopen : σ.pool.internal.wakeup = true := by simpa [h.closing] using hclosing
    exact ⟨h.reachable, h.closing, fun _ => ⟨Option.isNone_iff_eq_none.mp hbatch, hopen⟩,
      fun _ _ => .inr (.inr rfl), fun _ _ => .inl (.inr (.inr rfl))⟩
  | thread e =>
    simp only [Signalled.step, Option.ite_none_right_eq_some, Option.map_eq_some_iff] at hstep
    obtain ⟨hallows, p, hp, rfl⟩ := hstep
    exact h.thread rfl hallows hp

theorem kept_of_reachable (hr : system.Reachable σ) : σ.Kept :=
  hr.invariant (I := Kept) .init fun _ _ _ _ h hstep => h.step hstep

/-! ## The queues are emptied -/

/-- The steps left of a running `on_wakeup`. -/
def batchWork : Option Batch → ℕ
  | none => 0
  | some b => b.size + if b.dispatched then 1 else 2

theorem batchWork_taken {b : Batch} (h : b.dispatched = false) :
    batchWork (some b) = b.size + 2 := by
  simp [batchWork, h]

theorem batchWork_running {b : Batch} (h : b.dispatched = true) :
    batchWork (some b) = b.size + 1 := by
  simp [batchWork, h]

/-- The steps that are left when nothing more is asked for. -/
def work (σ : Signalled) : ℕ :=
  5 * σ.between + 4 * σ.raised.toNat + 3 * σ.entered.toNat + σ.pool.exchanged.pending +
    batchWork σ.pool.batch

end Signalled

namespace SignalEvent

/-- The steps of the signals and of `on_wakeup`. -/
def counted : SignalEvent → Bool
  | .asyncSend | .enter => true
  | .thread (.uv _) | .call _ => false
  | .thread _ => true

def isCall : SignalEvent → Bool
  | .call _ => true
  | _ => false

end SignalEvent

namespace Signalled

variable {σ σ' : Signalled} {e : SignalEvent}

theorem pending_outside {p p' : Pool} {e : Event} (he : e.outside = true)
    (h : p.step e = some p') : p'.exchanged.pending ≤ p.exchanged.pending + 1 := by
  cases e with
  | bind node bBind =>
    rw [← Option.some.inj h]
    simp only [Exchanged.bind, Exchanged.pending, List.length_append, List.length_singleton]
    omega
  | wantExit =>
    rw [← Option.some.inj h]
    exact Nat.le_succ _
  | send node data bAutoConnect =>
    rw [← Option.some.inj h]
    simp only [Exchanged.send]
    split_ifs
    · exact Nat.le_succ _
    · exact Nat.le_succ _
    · simp only [Exchanged.pending, List.length_append, List.length_singleton]
      omega
  | close node bForceClose =>
    rw [← Option.some.inj h]
    simp only [Exchanged.close]
    split_ifs
    · exact Nat.le_succ _
    · simp only [Exchanged.pending, List.length_append, List.length_singleton]
      omega
  | _ => exact absurd he (by simp [Event.outside])

/-- **One step.** A step that is counted is one of those that were left, and a call leaves six more
at most. -/
theorem Kept.work (h : σ.Kept) (hstep : σ.step e = some σ') :
    σ'.work + e.counted.toNat ≤ σ.work + 6 * e.isCall.toNat := by
  cases e with
  | call e =>
    simp only [Signalled.step, Option.ite_none_right_eq_some, Option.map_eq_some_iff] at hstep
    obtain ⟨he, p, hp, rfl⟩ := hstep
    obtain ⟨-, hbatch, -⟩ := outside_cases he hp
    have hpending := pending_outside he hp
    have hone := Bool.toNat_le e.signals
    have hcall : (SignalEvent.call e).isCall.toNat = 1 := rfl
    have hcounted : (SignalEvent.call e).counted.toNat = 0 := rfl
    simp only [Signalled.work, hbatch, hcall, hcounted]
    omega
  | asyncSend =>
    simp only [Signalled.step, Option.ite_none_right_eq_some, Option.some.injEq] at hstep
    obtain ⟨⟨hpos, -⟩, rfl⟩ := hstep
    show 5 * (σ.between - 1) + 4 * 1 + 3 * σ.entered.toNat + σ.pool.exchanged.pending +
      batchWork σ.pool.batch + 1 ≤ σ.work
    unfold Signalled.work
    omega
  | enter =>
    simp only [Signalled.step, Option.ite_none_right_eq_some, Option.some.injEq] at hstep
    obtain ⟨⟨hraised, hout, -⟩, rfl⟩ := hstep
    have hout : σ.entered = false := by simpa using hout
    show 5 * σ.between + 4 * 0 + 3 * 1 + σ.pool.exchanged.pending +
      batchWork σ.pool.batch + 1 ≤ σ.work
    unfold Signalled.work
    rw [hraised, hout, Bool.toNat_true, Bool.toNat_false]
    omega
  | thread e =>
    simp only [Signalled.step, Option.ite_none_right_eq_some, Option.map_eq_some_iff] at hstep
    obtain ⟨hallows, p, hp, rfl⟩ := hstep
    have he := outside_of_allows hallows
    have hcall : (SignalEvent.thread e).isCall.toNat = 0 := rfl
    have hcounted := Bool.toNat_le (SignalEvent.thread e).counted
    -- `entered` does not go up
    have hentered : (match e with | .wakeup => false | _ => σ.entered).toNat ≤ σ.entered.toNat := by
      cases e <;> simp
    simp only [Signalled.work, hcall]
    cases Pool.pace h.reachable he hp with
    | take x b hbatch hx hexit hb hdispatched =>
      have hin : σ.entered = true := hallows
      rw [hbatch, hin, batchWork_taken hdispatched]
      dsimp only
      rw [Bool.toNat_false, Bool.toNat_true, batchWork]
      omega
    | exit order s b hbatch hdispatched hexit hwakeup hclosing =>
      rw [hbatch, batchWork_taken hdispatched]
      dsimp only [batchWork]
      omega
    | go order b b' hbatch hdispatched hexit hdispatched' hb =>
      rw [hbatch, batchWork_taken hdispatched, batchWork_running hdispatched']
      dsimp only
      omega
    | next e s b b' hne hbatch hdispatched hdispatched' hb hwakeup hclosing =>
      rw [hbatch, batchWork_running hdispatched, batchWork_running hdispatched']
      dsimp only
      omega
    | done b hbatch hdispatched =>
      rw [hbatch, batchWork_running hdispatched]
      dsimp only [batchWork]
      omega
    | uv e s hbatch hwakeup hclosing =>
      have hfree : (SignalEvent.thread (.uv e)).counted.toNat = 0 := rfl
      rw [hfree]

/-- The callers have signalled, and `on_wakeup` has nothing to do. -/
def Quiet (σ : Signalled) : Prop :=
  ∀ e : SignalEvent, e.counted = true → σ.step e = none

theorem Kept.quiet (h : σ.Kept) (hzero : σ.work = 0) : σ.Quiet := by
  intro e he
  by_contra hstep
  obtain ⟨σ', hs⟩ := Option.ne_none_iff_exists'.mp hstep
  have hle := h.work hs
  have hcall : e.isCall = false := by
    cases e with
    | call e => exact absurd he (by simp [SignalEvent.counted])
    | _ => rfl
  rw [he, hcall, hzero, Bool.toNat_true, Bool.toNat_false] at hle
  omega

/-- The containers can be gone through in some order. -/
theorem exists_enumerates (s : Internal) : ∃ order : ExitOrder, order.Enumerates s :=
  ⟨⟨s.tcpServers.toPairs, s.node2stream.toPairs, s.connecting.toList, s.waitingSend.toPairs⟩,
    .refl _, .refl _, s.connecting.nodup_toList, s.connecting.toList_toFinset, .refl _⟩

/-- `on_wakeup` goes on to its end. -/
theorem Quiet.batch (h : σ.Quiet) : σ.pool.batch = none := by
  have hstep : ∀ e, (SignalEvent.thread e).counted = true → σ.allows e = true →
      σ.pool.step e = none := by
    intro e hc ha
    have hnone := h (.thread e) hc
    simpa [Signalled.step, ha] using hnone
  cases hb : σ.pool.batch with
  | none => rfl
  | some b =>
    obtain ⟨binds, sends, closes, dispatched⟩ := b
    cases dispatched with
    | false =>
      obtain ⟨order, horder⟩ := exists_enumerates σ.pool.internal
      have hnone := hstep (.dispatch order) rfl rfl
      simp only [Pool.step, hb, horder, if_true] at hnone
      split_ifs at hnone
    | true =>
      cases binds with
      | cons pair binds =>
        have hnone := hstep (.bindNext {}) rfl rfl
        simp [Pool.step, hb] at hnone
      | nil =>
        cases sends with
        | cons req sends =>
          have hnone := hstep (.sendNext {}) rfl rfl
          simp [Pool.step, hb] at hnone
        | nil =>
          cases closes with
          | cons pair closes =>
            have hnone := hstep (.closeNext {}) rfl rfl
            simp [Pool.step, hb] at hnone
          | nil =>
            have hnone := hstep .wakeupDone rfl rfl
            simp [Pool.step, hb] at hnone

/-- Nobody has anything to tell. -/
theorem Quiet.not_alert (h : σ.Quiet) (hkept : σ.Kept) (hopen : σ.pool.internal.wakeup = true) :
    ¬ σ.Alert := by
  have hbatch := h.batch
  have hclosing : σ.pool.internal.async.closing = false := by rw [hkept.closing, hopen]; rfl
  have hout : σ.entered = false := by
    by_contra hin
    have hnone := h (.thread .wakeup) rfl
    simp [Signalled.step, allows, Pool.step, hbatch, hclosing, hin] at hnone
  rintro (hbetween | hraised | hin)
  · have hnone := h .asyncSend rfl
    simp [Signalled.step, hopen] at hnone
    omega
  · have hnone := h .enter rfl
    simp [Signalled.step, hraised, hout, hbatch, hclosing] at hnone
  · exact absurd (hout.symm.trans hin) (by simp)

end Signalled

/-- **No signal is lost.** However callers, signals and the internal thread take turns, the signals
and `on_wakeup` make at most six steps for each call; and when none of them is left, nothing is
queued and no exit is asked for, unless the exit branch has run. -/
theorem requests_taken {es : List SignalEvent} {σ : Signalled}
    (hrun : Signalled.system.run es = some σ) :
    es.countP SignalEvent.counted + σ.work ≤ 6 * es.countP SignalEvent.isCall ∧
    (σ.Quiet → σ.pool.internal.wakeup = true →
      σ.pool.exchanged.pendingBind = [] ∧ σ.pool.exchanged.pendingSend = [] ∧
      σ.pool.exchanged.pendingClose = [] ∧ σ.pool.exchanged.bWantExit = false ∧
      σ.pool.batch = none) := by
  have hexec : Signalled.system.exec {} es = some σ := hrun
  have hbudget : Signalled.system.Reachable σ ∧ σ.Kept ∧
      es.countP SignalEvent.counted + σ.work ≤
        Signalled.work {} + 6 * es.countP SignalEvent.isCall :=
    Lib.Lts.exec_budget hexec .init Signalled.Kept.init
      fun σ e σ' _ h hstep => ⟨h.step hstep, h.work hstep⟩
  obtain ⟨-, hkept, hcount⟩ := hbudget
  have hzero : Signalled.work {} = 0 := rfl
  refine ⟨by omega, fun hquiet hopen => ?_⟩
  have halert := hquiet.not_alert hkept hopen
  have hbatch := hquiet.batch
  have hpending : σ.pool.exchanged.pending = 0 := by
    by_contra hpos
    exact halert (hkept.pending hopen (by omega))
  have hexit : σ.pool.exchanged.bWantExit = false := by
    by_contra hwant
    rcases hkept.exit hopen (by simpa using hwant) with h | ⟨b, hb, -⟩
    · exact halert h
    · exact absurd (hbatch.symm.trans hb) (by simp)
  unfold Exchanged.pending at hpending
  refine ⟨?_, ?_, ?_, hexit, hbatch⟩ <;> apply List.length_eq_zero_iff.mp <;> omega

/-- Two messages and one callback. -/
def coalescedRun : List SignalEvent :=
  [.call (.send sampleNode [1] true), .call (.send sampleNode [2] true), .asyncSend, .asyncSend,
    .enter, .thread .wakeup, .thread (.dispatch ⟨[], [], [], []⟩), .thread (.sendNext {}),
    .thread (.sendNext {}), .thread .wakeupDone]

theorem requests_taken_coalesced :
    ∃ σ, Signalled.system.run coalescedRun = some σ ∧ σ.pool.exchanged.accepted.length = 2 ∧
      σ.pool.exchanged.pendingSend = [] := by
  have hcheck : ((Signalled.system.run coalescedRun).map fun σ =>
      decide (σ.pool.exchanged.accepted.length = 2 ∧ σ.pool.internal.wakeup = true ∧
        σ.work = 0)) = some true := by decide
  obtain ⟨σ, hrun, hcheck⟩ := Option.map_eq_some_iff.mp hcheck
  obtain ⟨haccepted, hopen, hzero⟩ := of_decide_eq_true hcheck
  have hkept := Signalled.kept_of_reachable (Lib.Lts.reachable_of_run hrun)
  have htaken := (requests_taken hrun).2 (hkept.quiet hzero) hopen
  exact ⟨σ, hrun, haccepted, htaken.2.1⟩

/-! ## The destructor and a callback that is faster -/

namespace Signalled

/-- The exit branch runs only when nobody is on the way to `uv_async_send`, and afterwards nobody
sets out for it. -/
def Lands (σ : Signalled) : SignalEvent → Prop
  | .thread (.dispatch _) => σ.pool.exchanged.bWantExit = true → σ.between = 0
  | .call e => e.signals = true → σ.pool.internal.wakeup = true
  | _ => True

end Signalled

/-- **Exactly when `m_wakeup` can be signalled.** `bind`, `send`, `close` and the destructor never
come to `uv_async_send` with `m_wakeup` null exactly in the runs where no exit branch overtakes one
of them. -/
theorem signals_land_iff (es : List SignalEvent) :
    Signalled.system.EachState
      (fun σ => 0 < σ.between → σ.pool.internal.wakeup = true) es ↔
    Signalled.system.EachStep (fun σ e _ => σ.Lands e) es := by
  apply Lib.Lts.eachState_iff_eachStep
  · exact fun hpos => absurd hpos (by simp [Signalled.system])
  · intro σ e σ' hr hI hstep
    have hkept := Signalled.kept_of_reachable hr
    cases e with
    | call e =>
      simp only [Signalled.system, Signalled.step, Option.ite_none_right_eq_some,
        Option.map_eq_some_iff] at hstep
      obtain ⟨he, p, hp, rfl⟩ := hstep
      obtain ⟨hinternal, -, -⟩ := Signalled.outside_cases he hp
      simp only [Signalled.Lands, hinternal]
      constructor
      · intro hopen hs
        apply hopen
        rw [hs, Bool.toNat_true]
        omega
      · intro hopen hpos
        cases hs : e.signals with
        | true => exact hopen hs
        | false =>
          rw [hs, Bool.toNat_false] at hpos
          exact hI hpos
    | asyncSend =>
      simp only [Signalled.system, Signalled.step, Option.ite_none_right_eq_some,
        Option.some.injEq] at hstep
      obtain ⟨⟨-, hopen⟩, rfl⟩ := hstep
      exact ⟨fun _ => trivial, fun _ _ => hopen⟩
    | enter =>
      simp only [Signalled.system, Signalled.step, Option.ite_none_right_eq_some,
        Option.some.injEq] at hstep
      obtain ⟨-, rfl⟩ := hstep
      exact ⟨fun _ => trivial, fun _ => hI⟩
    | thread e =>
      simp only [Signalled.system, Signalled.step, Option.ite_none_right_eq_some,
        Option.map_eq_some_iff] at hstep
      obtain ⟨hallows, p, hp, rfl⟩ := hstep
      have hsame : ∀ {s : Internal}, s.wakeup = σ.pool.internal.wakeup →
          0 < σ.between → s.wakeup = true := fun hs hpos => hs.trans (hI hpos)
      cases Pool.pace hkept.reachable (Signalled.outside_of_allows hallows) hp with
      | take x b hbatch hx hexit hb hdispatched => exact ⟨fun _ => trivial, fun _ => hI⟩
      | exit order s b hbatch hdispatched hexit hwakeup hclosing =>
        constructor
        · intro hopen _
          by_contra hpos
          have hlost := hopen (Nat.pos_of_ne_zero hpos)
          exact absurd (hwakeup.symm.trans hlost) (by simp)
        · intro hlands hpos
          have hzero := hlands hexit
          dsimp only at hpos
          omega
      | go order b b' hbatch hdispatched hexit hdispatched' hb =>
        exact ⟨fun _ hwant => absurd (hexit.symm.trans hwant) (by simp), fun _ => hI⟩
      | next e s b b' hne hbatch hdispatched hdispatched' hb hwakeup hclosing =>
        refine ⟨fun _ => ?_, fun _ => hsame hwakeup⟩
        cases e with
        | dispatch order => exact absurd rfl (hne order)
        | _ => trivial
      | done b hbatch hdispatched => exact ⟨fun _ => trivial, fun _ => hI⟩
      | uv e s hbatch hwakeup hclosing => exact ⟨fun _ => trivial, fun _ => hsame hwakeup⟩

/-- A message is sent and signalled; `on_wakeup` begins for it once the destructor has set
`m_bWantExit`, and closes `m_wakeup` before the destructor gets to its `uv_async_send`. -/
def overtakenRun : List SignalEvent :=
  [.call (.send sampleNode [1] true), .asyncSend, .call .wantExit, .enter, .thread .wakeup,
    .thread (.dispatch ⟨[], [], [], []⟩)]

theorem destructor_overtaken :
    ∃ σ, Signalled.system.run overtakenRun = some σ ∧ σ.between = 1 ∧
      σ.pool.internal.wakeup = false := by
  have hcheck : ((Signalled.system.run overtakenRun).map fun σ =>
      decide (σ.between = 1 ∧ σ.pool.internal.wakeup = false)) = some true := by decide
  obtain ⟨σ, hrun, hcheck⟩ := Option.map_eq_some_iff.mp hcheck
  exact ⟨σ, hrun, of_decide_eq_true hcheck⟩

end NetworkPool
