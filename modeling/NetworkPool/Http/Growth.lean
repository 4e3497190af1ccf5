import NetworkPool.Http.Ranges

/-!
# The receive window over all calls

A context of its own, with calls in any order and members that the constructor has not
initialised. As long as blocks of the maximal size can be had, `prepareBuffer` returns a window
behind the received bytes that has 2 KB or ends at the maximum (`windowValid_of_reachable`).
-/

namespace NetworkPool

open Lib (Lts)

/-- A call of a context. Bytes that are pushed have been put into the window before. -/
inductive HttpCall where
  | prepareBuffer (garbage : ℕ → UInt8)
  | recvPush (bytes : List UInt8)
  | analysis
  | reinitForNext (former : ChttpContext)

/-- A context and the length that `prepareBuffer` returned last. -/
structure HttpSession where
  ctx : ChttpContext
  length : ℕ

/-- One call. No more is pushed than the returned length; where `reinitForNext` returns false,
nothing happens. -/
def HttpSession.step (s : HttpSession) : HttpCall → Option HttpSession
  | .prepareBuffer garbage =>
    (s.ctx.prepareBuffer garbage).map fun (ctx, w) => { ctx, length := w.length }
  | .recvPush bytes =>
    if bytes.length ≤ s.length then
      some { s with ctx := (s.ctx.fill bytes).recvPush bytes.length }
    else none
  | .analysis => some { s with ctx := s.ctx.analysis.2 }
  | .reinitForNext former =>
    match s.ctx.reinitForNext former with
    | some (ctx, _) => some { s with ctx }
    | none => some s

/-- A context that has just been constructed, whatever its members hold that `init` sets, and all
calls from then on. -/
def httpSystem (ctx : ChttpContext) : Lts HttpSession HttpCall where
  init := { ctx, length := 0 }
  step := HttpSession.step

/-- The received bytes lie in the buffer, which lies in its block and within the maximum; and
`prepareBuffer` returns a window behind them that has 2 KB or ends at the maximum. -/
structure WindowValid (maxBufferSize : ℕ) (ctx : ChttpContext) : Prop where
  now_le : ctx.buffer.getMaxLength ≠ 0 → ctx.nowIndex ≤ ctx.buffer.getLength
  length_le : ctx.buffer.getLength ≤ ctx.buffer.getMaxLength
  limit : ctx.buffer.getLength ≤ max maxBufferSize 0x1000
  prepares : ∀ garbage, ∃ ctx' w, ctx.prepareBuffer garbage = some (ctx', w) ∧
    w.buffer = (if w.length = 0 then none else some ctx'.nowIndex) ∧
    ctx'.nowIndex + w.length ≤ ctx'.buffer.getMaxLength ∧
    ctx'.buffer.getLength ≤ max maxBufferSize 0x1000 ∧
    ctx'.received = ctx.received ∧ ctx'.nowIndex = ctx.received.length ∧
    min 0x800 (max maxBufferSize 0x1000 - ctx'.nowIndex) ≤ w.length ∧
    (w.length = 0 ↔ ctx'.nowIndex = max maxBufferSize 0x1000)

namespace ChttpContext

variable {ctx ctx' former former' : ChttpContext} {garbage : ℕ → UInt8} {maxBufferSize : ℕ}

/-! ## Calls and the block -/

/-- The analysis leaves the size of the buffer and the number of received bytes alone. -/
theorem sameBuffer_analysis (ctx : ChttpContext) :
    ctx.SameBuffer ctx.analysis.2 ∧ (ctx.Wf → ctx.analysis.2.Wf) := by
  refine analysis_induction
    (P := fun ctx _ ctx' => ctx.SameBuffer ctx' ∧ (ctx.Wf → ctx'.Wf)) ?_ ?_ ctx
  · rintro ctx ctx' answer last hpass ⟨hsame, hwf⟩
    have hfirst := sameBuffer_pass ctx
    rw [hpass] at hfirst
    refine ⟨hfirst.trans hsame, fun h => hwf ?_⟩
    have hpassed := h.pass
    rw [hpass] at hpassed
    exact hpassed
  · intro ctx answer ctx' hpass
    have hfirst := sameBuffer_pass ctx
    rw [hpass] at hfirst
    refine ⟨hfirst, fun h => ?_⟩
    have hpassed := h.pass
    rw [hpass] at hpassed
    exact hpassed

theorem sameBuffer_reinitForNext (h : ctx.reinitForNext former = some (ctx', former')) :
    ctx.SameBuffer ctx' := by
  unfold reinitForNext at h
  split at h
  · exact absurd h (by simp)
  · rw [Option.some.injEq, Prod.mk.injEq] at h
    rw [← h.1]
    exact ⟨rfl, rfl, length_overwrite ..⟩

theorem sameBuffer_recvPush (ctx : ChttpContext) (bytes : List UInt8) :
    ctx.SameBuffer ((ctx.fill bytes).recvPush bytes.length) := by
  have hfill : ctx.SameBuffer (ctx.fill bytes) := ⟨rfl, rfl, length_overwrite ..⟩
  unfold recvPush
  split
  · exact ⟨hfill.max_eq, hfill.length_eq, hfill.data_eq⟩
  · exact hfill

/-- Bytes that do not fit are not received. -/
theorem Wf.recvPush (h : ctx.Wf) (bytes : List UInt8) :
    ((ctx.fill bytes).recvPush bytes.length).Wf := by
  have hdata : (ctx.fill bytes).buffer.data ≠ [] → ctx.buffer.data ≠ [] := by
    intro hne hnil
    apply hne
    apply List.eq_nil_of_length_eq_zero
    show (overwrite ctx.buffer.data ctx.nowIndex bytes).length = 0
    rw [length_overwrite, hnil, List.length_nil]
  unfold ChttpContext.recvPush
  split
  · next hfits =>
    exact ⟨Nat.le_add_right_of_le h.index_le, hfits, fun hne => h.length_le (hdata hne)⟩
  · exact ⟨h.index_le, h.now_le, fun hne => h.length_le (hdata hne)⟩

/-! ## The invariant -/

/-- Before the first block the maximum is the given one; from then on it is at least that of the
block, and the context is in order. -/
structure Sized (maxBufferSize : ℕ) (ctx : ChttpContext) : Prop where
  fresh : ctx.buffer.data = [] → ctx.maxBufferSize = maxBufferSize
  wf : ctx.buffer.data ≠ [] → ctx.Wf
  max_eq : ctx.buffer.data ≠ [] → ctx.maxBufferSize = max maxBufferSize 0x1000
  le_length : ctx.buffer.data ≠ [] → 0x1000 ≤ ctx.buffer.length

theorem SameBuffer.data_eq_nil_iff (h : ctx.SameBuffer ctx') :
    ctx'.buffer.data = [] ↔ ctx.buffer.data = [] := by
  rw [← List.length_eq_zero_iff, ← List.length_eq_zero_iff, h.data_eq]

/-- What keeps the size of the buffer keeps the invariant. -/
theorem Sized.of_same (h : ctx.Sized maxBufferSize) (hsame : ctx.SameBuffer ctx')
    (hwf : ctx.Wf → ctx'.Wf) : ctx'.Sized maxBufferSize where
  fresh := by
    intro hdata
    rw [hsame.max_eq]
    exact h.fresh (hsame.data_eq_nil_iff.mp hdata)
  wf := fun hdata => hwf (h.wf fun hnil => hdata (hsame.data_eq_nil_iff.mpr hnil))
  max_eq := by
    intro hdata
    rw [hsame.max_eq]
    exact h.max_eq fun hnil => hdata (hsame.data_eq_nil_iff.mpr hnil)
  le_length := by
    intro hdata
    rw [hsame.length_eq]
    exact h.le_length fun hnil => hdata (hsame.data_eq_nil_iff.mpr hnil)

/-- `init` overwrites what a context without a block holds. -/
theorem prepareBuffer_of_empty (hdata : ctx.buffer.data = []) :
    ctx.prepareBuffer garbage = (new ctx.maxBufferSize).prepareBuffer garbage := by
  have hinit : ctx.init garbage = (new ctx.maxBufferSize).init garbage := by
    unfold init
    rw [Cbuffer.eq_new hdata]
    rfl
  unfold prepareBuffer
  rw [hinit]

/-- **The window** of a context that is in order, and the invariant again. -/
theorem Wf.prepareBuffer (h : ctx.Wf) (hmax : ctx.maxBufferSize < 2 ^ 63)
    (hlimit : max ctx.maxBufferSize 0x1000 = max maxBufferSize 0x1000)
    (hlength : ctx.buffer.data ≠ [] → 0x1000 ≤ ctx.buffer.length) (garbage : ℕ → UInt8) :
    ∃ ctx' w, ctx.prepareBuffer garbage = some (ctx', w) ∧ ctx'.Sized maxBufferSize ∧
      ctx'.buffer.data ≠ [] ∧ w.buffer = (if w.length = 0 then none else some ctx'.nowIndex) ∧
      ctx'.received = ctx.received ∧ ctx'.nowIndex = ctx.received.length ∧
      ctx'.nowIndex + w.length = ctx'.buffer.length ∧
      min 0x800 (max maxBufferSize 0x1000 - ctx'.nowIndex) ≤ w.length := by
  obtain ⟨ctx', w, hprepare, hbuffer, hwindow, hmax', hlength'⟩ :=
    exists_window garbage h hmax hlength
  obtain ⟨hwf', hne, hw, hcase⟩ := prepareBuffer_spec h hprepare
  have hnow' := hwf'.now_le
  rw [hlimit] at hwindow hmax'
  have hreceived : ctx'.received = ctx.received ∧ ctx'.nowIndex = ctx.received.length := by
    rcases hcase with ⟨hdata, -, hzero⟩ | ⟨-, -, hsame, hreceived⟩
    · have hnil : ctx.received = [] := by
        rw [received, hdata, List.take_nil]
      rw [hnil, received, hzero]
      exact ⟨rfl, rfl⟩
    · rw [hsame, h.length_received]
      exact ⟨hreceived, rfl⟩
  have hsized : ctx'.Sized maxBufferSize :=
    ⟨fun hnil => absurd hnil hne, fun _ => hwf', fun _ => hmax', fun _ => hlength'⟩
  exact ⟨ctx', w, hprepare, hsized, hne, hbuffer, hreceived.1, hreceived.2, by omega, hwindow⟩

/-- The same without the first block. -/
theorem Sized.prepareBuffer (h : ctx.Sized maxBufferSize) (hmax : maxBufferSize ≤ 2 ^ 62)
    (garbage : ℕ → UInt8) :
    ∃ ctx' w, ctx.prepareBuffer garbage = some (ctx', w) ∧ ctx'.Sized maxBufferSize ∧
      ctx'.buffer.data ≠ [] ∧ w.buffer = (if w.length = 0 then none else some ctx'.nowIndex) ∧
      ctx'.received = ctx.received ∧ ctx'.nowIndex = ctx.received.length ∧
      ctx'.nowIndex + w.length = ctx'.buffer.length ∧
      min 0x800 (max maxBufferSize 0x1000 - ctx'.nowIndex) ≤ w.length := by
  by_cases hdata : ctx.buffer.data = []
  · have hfresh := h.fresh hdata
    have hnil : ctx.received = [] := by
      rw [received, hdata, List.take_nil]
    rw [prepareBuffer_of_empty hdata, hfresh, hnil]
    exact (Wf.new maxBufferSize).prepareBuffer (lt_of_le_of_lt hmax (by decide)) rfl
      (fun hne => absurd rfl hne) garbage
  · have hmax' := h.max_eq hdata
    apply (h.wf hdata).prepareBuffer (by omega) (by omega) h.le_length

theorem Sized.windowValid (h : ctx.Sized maxBufferSize) (hmax : maxBufferSize ≤ 2 ^ 62) :
    WindowValid maxBufferSize ctx where
  now_le := by
    intro hne
    exact (h.wf fun hnil => hne (List.length_eq_zero_iff.mpr hnil)).now_le
  length_le := ctx.buffer.length_le
  limit := by
    by_cases hdata : ctx.buffer.data = []
    · rw [Cbuffer.eq_new hdata]
      exact Nat.zero_le _
    · rw [← h.max_eq hdata]
      exact (h.wf hdata).length_le hdata
  prepares := by
    intro garbage
    obtain ⟨ctx', w, hprepare, hsized, hne, hbuffer, hreceived, hnow, hlength, hwindow⟩ :=
      h.prepareBuffer hmax garbage
    have hblock := ctx'.buffer.length_le
    have hlimit := (hsized.wf hne).length_le hne
    rw [hsized.max_eq hne] at hlimit
    refine ⟨ctx', w, hprepare, hbuffer, ?_, hlimit, hreceived, hnow, hwindow, ?_⟩
    · rw [hlength]
      exact hblock
    · omega

end ChttpContext

/-! ## All calls -/

namespace HttpSession

open ChttpContext

variable {s s' : HttpSession} {e : HttpCall} {maxBufferSize : ℕ}

theorem step_sized (h : s.ctx.Sized maxBufferSize) (hmax : maxBufferSize ≤ 2 ^ 62)
    (hstep : s.step e = some s') : s'.ctx.Sized maxBufferSize := by
  cases e with
  | prepareBuffer garbage =>
    obtain ⟨ctx', w, hprepare, hsized, -⟩ := h.prepareBuffer hmax garbage
    obtain ⟨⟨ctx₁, w₁⟩, hprepare', rfl⟩ := Option.map_eq_some_iff.mp hstep
    obtain ⟨rfl, rfl⟩ := Prod.mk.inj (Option.some.inj (hprepare.symm.trans hprepare'))
    exact hsized
  | recvPush bytes =>
    obtain ⟨-, hstep⟩ := Option.ite_none_right_eq_some.mp hstep
    rw [← Option.some.inj hstep]
    exact h.of_same (sameBuffer_recvPush s.ctx bytes) fun hwf => hwf.recvPush bytes
  | analysis =>
    obtain ⟨hsame, hwf⟩ := sameBuffer_analysis s.ctx
    rw [← Option.some.inj hstep]
    exact h.of_same hsame hwf
  | reinitForNext former =>
    unfold step at hstep
    simp only at hstep
    split at hstep
    · next ctx former' hreinit =>
      rw [← Option.some.inj hstep]
      exact h.of_same (sameBuffer_reinitForNext hreinit) fun hwf =>
        (reinitForNext_parts hwf hreinit).1
    · rw [← Option.some.inj hstep]
      exact h

end HttpSession

/-- **The receive window is always valid.** A context that has just been constructed has no block;
its other members are arbitrary. -/
theorem windowValid_of_reachable {ctx : ChttpContext} (hnew : ctx.buffer = Cbuffer.new)
    (hmax : ctx.maxBufferSize ≤ 2 ^ 62) {s : HttpSession} (hs : (httpSystem ctx).Reachable s) :
    WindowValid ctx.maxBufferSize s.ctx := by
  have hdata : ctx.buffer.data = [] := by
    rw [hnew]
    rfl
  have hinit : ctx.Sized ctx.maxBufferSize :=
    ⟨fun _ => rfl, fun hne => absurd hdata hne, fun hne => absurd hdata hne,
      fun hne => absurd hdata hne⟩
  have hsized : s.ctx.Sized ctx.maxBufferSize :=
    hs.invariant hinit fun _ _ _ _ h hstep => HttpSession.step_sized h hmax hstep
  exact hsized.windowValid hmax

/-- A maximum that is no power of two, and bytes in the buffer. -/
theorem windowValid_of_reachable_pushed :
    ∃ s, (httpSystem (.new 0x1801)).Reachable s ∧ 0 < s.ctx.nowIndex ∧
      WindowValid 0x1801 s.ctx := by
  obtain ⟨ctx, w, hprepare, -, -, -, -, hnow, hlength, hwindow⟩ :=
    (ChttpContext.Wf.new 0x1801).prepareBuffer (by decide) rfl (fun hne => absurd rfl hne)
      fun _ => 0
  have hzero : ctx.nowIndex = 0 := hnow
  have hfirst : (httpSystem (.new 0x1801)).step ⟨.new 0x1801, 0⟩ (.prepareBuffer fun _ => 0) =
      some ⟨ctx, w.length⟩ := by
    unfold httpSystem HttpSession.step
    simp only [hprepare, Option.map_some]
  have hsecond : (httpSystem (.new 0x1801)).step ⟨ctx, w.length⟩ (.recvPush [65]) =
      some ⟨(ctx.fill [65]).recvPush 1, w.length⟩ := if_pos (show 1 ≤ w.length by omega)
  have hs := Lib.Lts.Reachable.step (.step .init hfirst) hsecond
  refine ⟨_, hs, ?_, windowValid_of_reachable rfl (by decide) hs⟩
  have hroom : ctx.nowIndex + [(65 : UInt8)].length ≤ ctx.buffer.length := by
    rw [List.length_singleton]
    omega
  show 0 < ((ctx.fill [65]).recvPush [(65 : UInt8)].length).nowIndex
  rw [ChttpContext.recvPush_fill hroom]
  exact Nat.zero_lt_succ _

end NetworkPool
