import NetworkPool.Lib.Lts
import NetworkPool.Peer.Framing

/-!
# The receive window of a peer

A context of its own, with calls in any order. The window that `prepareBuffer` returns lies inside
the block in every reachable state exactly when the limit is at least the 4 KB that `init`
allocates (`inWindow_iff`).
-/

namespace NetworkPool

open Lib (Lts)

/-- A call of a peer context. Bytes that are pushed have been put into the window before. -/
inductive PeerCall where
  | prepareBuffer (garbage : ℕ → UInt8)
  | pushBuffer (bytes : List UInt8)
  | getContent

/-- A context and the length that `prepareBuffer` returned last. -/
structure PeerSession where
  ctx : CpeerContext
  length : ℕ

namespace PeerSession

/-- One call. No more is pushed than the returned length; a `std::bad_alloc` of `prepareBuffer`
leaves the context as it was. -/
def step (order : ByteOrder) (s : PeerSession) : PeerCall → Option PeerSession
  | .prepareBuffer garbage =>
    match s.ctx.prepareBuffer garbage with
    | some (ctx, length) => some { ctx, length }
    | none => some s
  | .pushBuffer bytes =>
    if bytes.length ≤ s.length then
      some { s with ctx := (s.ctx.fill bytes).pushBuffer bytes.length }
    else none
  | .getContent => some { s with ctx := (s.ctx.getContent order).2 }

end PeerSession

/-- A context that has just been constructed, and all calls from then on. -/
def peerSystem (order : ByteOrder) (maxBufferSize : ℕ) : Lts PeerSession PeerCall where
  init := { ctx := .new maxBufferSize, length := 0 }
  step := PeerSession.step order

/-- The received bytes lie in the buffer and the buffer in its block; the length `prepareBuffer`
returns is that of the rest of the buffer; and no call loses received bytes that it does not hand
out. -/
structure CpeerContext.InWindow (order : ByteOrder) (ctx : CpeerContext) : Prop where
  now_le : ctx.nowIndex ≤ ctx.buffer.getLength
  length_le : ctx.buffer.getLength ≤ ctx.buffer.getMaxLength
  prepares : ∀ garbage ctx' length, ctx.prepareBuffer garbage = some (ctx', length) →
    ctx'.nowIndex + length = ctx'.buffer.getLength ∧
      ctx'.nowIndex + length ≤ ctx'.buffer.getMaxLength ∧ ctx'.received = ctx.received
  pushes : ∀ bytes, ((ctx.fill bytes).pushBuffer bytes.length).received = ctx.received ++
    if ctx.nowIndex + bytes.length ≤ ctx.buffer.getLength then bytes else []
  contents : (packs order).reader.Halts ctx.received (ctx.getContent order).1
    (ctx.getContent order).2.received

/-! ## One call -/

namespace CpeerContext

variable {ctx ctx' : CpeerContext} {order : ByteOrder} {garbage : ℕ → UInt8}

/-- What holds of a context whose limit is not below the first block. -/
structure Wf (ctx : CpeerContext) : Prop where
  now_le : ctx.nowIndex ≤ ctx.buffer.length
  length_le : ctx.buffer.length ≤ ctx.maxBufferSize
  limit_le : 0x1000 ≤ ctx.maxBufferSize

theorem Wf.new {maxBufferSize : ℕ} (h : 0x1000 ≤ maxBufferSize) : (new maxBufferSize).Wf where
  now_le := le_rfl
  length_le := Nat.zero_le _
  limit_le := h

theorem Wf.window (h : ctx.Wf) : ctx.nowIndex + ctx.window = ctx.buffer.length := by
  have hnow := h.now_le
  have hlength := ctx.buffer.length_le
  have hlt := ctx.buffer.data_lt
  rw [CpeerContext.window, Cbuffer.getLength]
  omega

/-- A buffer that is enlarged within the limit. -/
theorem Wf.resize (h : ctx.Wf) {size validLength : ℕ} (hsize : ctx.nowIndex ≤ size)
    (hlimit : size ≤ ctx.maxBufferSize) (hresize : ctx.resize size validLength garbage = some ctx') :
    ctx'.Wf := by
  unfold CpeerContext.resize at hresize
  split at hresize
  · next buffer hbuffer =>
    have hlength := Cbuffer.resize_length hbuffer
    rw [← Option.some.inj hresize]
    exact ⟨by simp only [hlength]; exact hsize, by simp only [hlength]; exact hlimit, h.limit_le⟩
  · exact absurd hresize (by simp)

theorem Wf.init (h : ctx.Wf) (hinit : ctx.init garbage = some ctx') : ctx'.Wf := by
  unfold CpeerContext.init at hinit
  split at hinit
  · next hempty =>
    have hnow := ctx.now_le
    rw [Cbuffer.getMaxLength] at hempty
    exact h.resize (by omega) h.limit_le hinit
  · rw [← Option.some.inj hinit]
    exact h

theorem Wf.prepareBuffer (h : ctx.Wf) {length : ℕ}
    (hprepare : ctx.prepareBuffer garbage = some (ctx', length)) :
    ctx'.Wf ∧ ctx'.nowIndex + length = ctx'.buffer.length := by
  obtain ⟨ctx₁, hinit, hprepare⟩ := Option.bind_eq_some_iff.mp hprepare
  obtain ⟨ctx₂, hresize, heq⟩ := Option.map_eq_some_iff.mp hprepare
  obtain ⟨rfl, rfl⟩ := Prod.mk.inj heq
  have hwf₁ := h.init hinit
  have hnow := hwf₁.now_le
  have hlength := hwf₁.length_le
  have hwf₂ : ctx₂.Wf := by
    split at hresize
    · split at hresize
      · exact hwf₁.resize (by omega) le_rfl hresize
      · next hdouble =>
        rw [Cbuffer.getLength] at hdouble hresize
        exact hwf₁.resize (by omega) (by omega) hresize
    · rw [← Option.some.inj hresize]
      exact hwf₁
  exact ⟨hwf₂, hwf₂.window⟩

theorem Wf.pushBuffer (h : ctx.Wf) (bytes : List UInt8) :
    ((ctx.fill bytes).pushBuffer bytes.length).Wf := by
  unfold CpeerContext.pushBuffer
  split
  · next hfits => exact ⟨hfits, h.length_le, h.limit_le⟩
  · exact ⟨h.now_le, h.length_le, h.limit_le⟩

theorem Wf.getContent (h : ctx.Wf) (order : ByteOrder) : (ctx.getContent order).2.Wf := by
  have hnow := h.now_le
  unfold CpeerContext.getContent
  simp only
  split
  · refine ⟨?_, h.length_le, h.limit_le⟩
    show ctx.nowIndex - _ ≤ ctx.buffer.length
    omega
  · exact h

/-- Bytes that do not fit are lost, and only they. -/
theorem fill_received (ctx : CpeerContext) (bytes : List UInt8) :
    (ctx.fill bytes).received = ctx.received := by
  have hnow := ctx.now_le
  have hkeep : (ctx.buffer.data.take ctx.nowIndex).length = ctx.nowIndex := by
    rw [List.length_take, min_eq_left hnow]
  show (overwrite ctx.buffer.data ctx.nowIndex bytes).take ctx.nowIndex = _
  rw [overwrite, List.take_take, min_eq_left hnow, List.append_assoc,
    List.take_left' hkeep, received]

theorem Wf.inWindow (h : ctx.Wf) (order : ByteOrder) : ctx.InWindow order where
  now_le := h.now_le
  length_le := ctx.buffer.length_le
  prepares := by
    intro garbage ctx' length hprepare
    obtain ⟨hwf, hwindow⟩ := h.prepareBuffer hprepare
    have hlength := ctx'.buffer.length_le
    refine ⟨hwindow, ?_, prepareBuffer_received hprepare⟩
    rw [hwindow]
    exact hlength
  pushes := by
    intro bytes
    split
    · next hfits => exact pushBuffer_received hfits
    · next hfits =>
      have hroom : ¬ (ctx.fill bytes).nowIndex + bytes.length ≤ (ctx.fill bytes).buffer.getLength :=
        hfits
      rw [CpeerContext.pushBuffer, dif_neg hroom, fill_received, List.append_nil]
  contents := getContent_halts order ctx

end CpeerContext

/-! ## All calls -/

namespace PeerSession

variable {order : ByteOrder} {s s' : PeerSession} {e : PeerCall}

theorem step_wf (h : s.ctx.Wf) (hstep : s.step order e = some s') : s'.ctx.Wf := by
  cases e with
  | prepareBuffer garbage =>
    unfold step at hstep
    simp only at hstep
    split at hstep
    · next ctx length hprepare =>
      rw [← Option.some.inj hstep]
      exact (h.prepareBuffer hprepare).1
    · rw [← Option.some.inj hstep]
      exact h
  | pushBuffer bytes =>
    obtain ⟨-, hstep⟩ := Option.ite_none_right_eq_some.mp hstep
    rw [← Option.some.inj hstep]
    exact h.pushBuffer bytes
  | getContent =>
    rw [← Option.some.inj hstep]
    exact h.getContent order

end PeerSession

/-! ## A limit below the first block -/

namespace CpeerContext

variable {ctx : CpeerContext}

/-- A block that need not be replaced, or can be. -/
theorem exists_resize (ctx : CpeerContext) {size : ℕ} (validLength : ℕ) (garbage : ℕ → UInt8)
    (h : size < 2 ^ 63) :
    ∃ ctx', ctx.resize size validLength garbage = some ctx' ∧ ctx'.buffer.length = size ∧
      ctx'.nowIndex = ctx.nowIndex ∧ ctx'.maxBufferSize = ctx.maxBufferSize := by
  obtain ⟨buffer, hbuffer⟩ := Cbuffer.exists_resize ctx.buffer validLength garbage h
  have hlength := Cbuffer.resize_length hbuffer
  unfold resize
  split
  · next buffer' hbuffer' =>
    obtain rfl := Option.some.inj (hbuffer.symm.trans hbuffer')
    exact ⟨_, rfl, hlength, rfl, rfl⟩
  · next hnone => exact absurd (hbuffer.symm.trans hnone) (by simp)

/-- The first window is the first block. -/
theorem exists_prepareBuffer_new (maxBufferSize : ℕ) (garbage : ℕ → UInt8) :
    ∃ ctx', (new maxBufferSize).prepareBuffer garbage = some (ctx', 0x1000) ∧
      ctx'.nowIndex = 0 ∧ ctx'.buffer.length = 0x1000 ∧ ctx'.maxBufferSize = maxBufferSize := by
  obtain ⟨ctx', hresize, hlength, hnow, hmax⟩ :=
    exists_resize (new maxBufferSize) 0 garbage (show 0x1000 < 2 ^ 63 by decide)
  have hempty : (new maxBufferSize).buffer.getMaxLength = 0 := rfl
  have hzero : (new maxBufferSize).nowIndex = 0 := rfl
  have hwindow : ctx'.window = 0x1000 := by
    rw [window, Cbuffer.getLength, hlength, hnow, hzero]
    omega
  refine ⟨ctx', ?_, hnow, hlength, hmax⟩
  unfold prepareBuffer
  rw [init, if_pos hempty, hresize, Option.bind_some]
  simp only [hwindow]
  rw [if_neg (by decide), Option.map_some, hwindow]

/-- Once the first block is full, the next window ends at the limit. -/
theorem exists_prepareBuffer_full (garbage : ℕ → UInt8) (hnow : ctx.nowIndex = 0x1000)
    (hlength : ctx.buffer.length = 0x1000) (hmax : ctx.maxBufferSize < 0x1000) :
    ∃ ctx' length, ctx.prepareBuffer garbage = some (ctx', length) ∧ ctx'.nowIndex = 0x1000 ∧
      ctx'.buffer.length = ctx.maxBufferSize := by
  obtain ⟨ctx', hresize, hlength', hnow', -⟩ :=
    exists_resize ctx ctx.nowIndex garbage (show ctx.maxBufferSize < 2 ^ 63 by omega)
  have hblock := ctx.buffer.length_le
  have hwindow : ctx.window = 0 := by
    rw [window, Cbuffer.getLength, hlength, hnow]
    omega
  refine ⟨ctx', ctx'.window, ?_, by rw [hnow', hnow], hlength'⟩
  unfold prepareBuffer
  rw [init, if_neg (by rw [Cbuffer.getMaxLength]; omega), Option.bind_some]
  simp only [hwindow]
  rw [if_pos (by decide), if_pos (by rw [Cbuffer.getLength]; omega), hresize]
  rfl

end CpeerContext

theorem peerSystem_step (order : ByteOrder) (maxBufferSize : ℕ) (s : PeerSession) (e : PeerCall) :
    (peerSystem order maxBufferSize).step s e = s.step order e := rfl

/-- A full first block is reachable. -/
theorem peerSystem_full (order : ByteOrder) (maxBufferSize : ℕ) :
    ∃ s, (peerSystem order maxBufferSize).Reachable s ∧ s.ctx.nowIndex = 0x1000 ∧
      s.ctx.buffer.length = 0x1000 ∧ s.ctx.maxBufferSize = maxBufferSize := by
  obtain ⟨ctx, hprepare, hnow, hlength, hmax⟩ :=
    CpeerContext.exists_prepareBuffer_new maxBufferSize fun _ => 0
  obtain ⟨bytes, hbytes⟩ : ∃ bytes : List UInt8, bytes.length = 0x1000 :=
    ⟨List.replicate 0x1000 0, List.length_replicate⟩
  have hinit : (peerSystem order maxBufferSize).Reachable ⟨.new maxBufferSize, 0⟩ := .init
  have hfirst : (peerSystem order maxBufferSize).step ⟨.new maxBufferSize, 0⟩
      (.prepareBuffer fun _ => 0) = some ⟨ctx, 0x1000⟩ := by
    rw [peerSystem_step]
    unfold PeerSession.step
    simp only [hprepare]
  have hsecond : (peerSystem order maxBufferSize).step ⟨ctx, 0x1000⟩ (.pushBuffer bytes) =
      some ⟨(ctx.fill bytes).pushBuffer bytes.length, 0x1000⟩ := by
    rw [peerSystem_step]
    unfold PeerSession.step
    simp only [if_pos hbytes.le]
  have hfits : (ctx.fill bytes).nowIndex + bytes.length ≤ (ctx.fill bytes).buffer.getLength := by
    show ctx.nowIndex + bytes.length ≤ ctx.buffer.length
    omega
  refine ⟨_, .step (.step hinit hfirst) hsecond, ?_⟩
  simp only
  rw [CpeerContext.pushBuffer, dif_pos hfits]
  refine ⟨?_, hlength, hmax⟩
  show ctx.nowIndex + bytes.length = 0x1000
  omega

/-- With a smaller limit the buffer shrinks below what it has received. -/
theorem exists_not_inWindow (order : ByteOrder) {maxBufferSize : ℕ} (h : maxBufferSize < 0x1000) :
    ∃ s, (peerSystem order maxBufferSize).Reachable s ∧ ¬ s.ctx.InWindow order := by
  obtain ⟨s, hs, hnow, hlength, hmax⟩ := peerSystem_full order maxBufferSize
  obtain ⟨ctx', length, hprepare, hnow', hlength'⟩ :=
    CpeerContext.exists_prepareBuffer_full (fun _ => 0) hnow hlength (by omega)
  refine ⟨s, hs, fun hin => ?_⟩
  obtain ⟨hwindow, -⟩ := hin.prepares _ _ _ hprepare
  rw [Cbuffer.getLength] at hwindow
  omega

/-- **The receive window of a peer** lies inside the block after all calls exactly when the limit
is at least 4 KB. -/
theorem inWindow_iff (order : ByteOrder) (maxBufferSize : ℕ) :
    (∀ s, (peerSystem order maxBufferSize).Reachable s → s.ctx.InWindow order) ↔
      0x1000 ≤ maxBufferSize := by
  constructor
  · intro h
    by_contra hsmall
    obtain ⟨s, hs, hnot⟩ := exists_not_inWindow order (Nat.lt_of_not_le hsmall)
    exact hnot (h s hs)
  · intro h s hs
    apply CpeerContext.Wf.inWindow
    exact hs.invariant (CpeerContext.Wf.new h) fun _ _ _ _ hwf hstep => PeerSession.step_wf hwf hstep

/-- A limit of 1 KB is accepted as it is. -/
theorem not_inWindow_small :
    ¬ ∀ (order : ByteOrder) (maxBufferSize : ℕ) (s : PeerSession),
      (peerSystem order maxBufferSize).Reachable s → s.ctx.InWindow order := by
  intro h
  obtain ⟨s, hs, hnot⟩ := exists_not_inWindow .little (show 0x400 < 0x1000 by decide)
  exact hnot (h .little 0x400 s hs)

end NetworkPool
