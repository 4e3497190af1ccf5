import NetworkPool.Http.Passes

/-!
# The receive window

`prepareBuffer` returns a window behind the received bytes and keeps them when it changes the
buffer, so that a read appends to them (`receive_spec`); a small read always fits while the
limit of the buffer is not near (`exists_receive`).
-/

namespace NetworkPool

namespace ChttpContext

/-- The received bytes. -/
def received (ctx : ChttpContext) : List UInt8 :=
  ctx.buffer.data.take ctx.nowIndex

/-- What holds of a context at any time. -/
structure Wf (ctx : ChttpContext) : Prop where
  index_le : ctx.analysisIndex ≤ ctx.nowIndex
  now_le : ctx.nowIndex ≤ ctx.buffer.length
  length_le : ctx.buffer.data ≠ [] → ctx.buffer.length ≤ ctx.maxBufferSize

/-- The values `init` sets are there before it runs. -/
def Fresh (ctx : ChttpContext) : Prop :=
  ctx.buffer.data = [] → ctx.toParser = {} ∧ ctx.nowIndex = 0

variable {ctx ctx' : ChttpContext} {garbage : ℕ → UInt8} {w : Window}

theorem Wf.new (maxBufferSize : ℕ) : (new maxBufferSize).Wf where
  index_le := le_rfl
  now_le := le_rfl
  length_le := fun h => absurd rfl h

theorem Fresh.new (maxBufferSize : ℕ) : (ChttpContext.new maxBufferSize).Fresh :=
  fun _ => ⟨rfl, rfl⟩

theorem Wf.length_received (h : ctx.Wf) : ctx.received.length = ctx.nowIndex := by
  have hnow := h.now_le
  have hlength := ctx.buffer.length_le
  rw [received, List.length_take]
  omega

theorem Fresh.of_data_ne (h : ctx.buffer.data ≠ []) : ctx.Fresh :=
  fun hdata => absurd hdata h

theorem Wf.pass (h : ctx.Wf) : ctx.pass.2.Wf where
  index_le := by
    obtain ⟨hprogress, hnow, -⟩ := pass_spec ctx
    rw [hnow]
    exact (hprogress.index_le h.index_le).2
  now_le := h.now_le
  length_le := by
    intro hdata
    apply h.length_le
    intro hnil
    obtain ⟨-, -, -, -, hlength⟩ := pass_spec ctx
    rw [hnil] at hlength
    exact hdata (List.eq_nil_of_length_eq_zero hlength)

/-! ## Preparing the window -/

/-- `init` gives a context a buffer and leaves one that has a buffer alone. -/
theorem init_spec (hwf : ctx.Wf) (h : ctx.init garbage = some ctx') :
    ctx'.Wf ∧ ctx'.buffer.data ≠ [] ∧
      (ctx.buffer.data = [] ∧ ctx'.toParser = {} ∧ ctx'.nowIndex = 0 ∧
          ctx'.buffer.length = 0x1000 ∧ ctx'.maxBufferSize = max ctx.maxBufferSize 0x1000 ∨
        ctx.buffer.data ≠ [] ∧ ctx' = ctx) := by
  unfold init at h
  split at h
  · next hmax =>
    have hdata : ctx.buffer.data = [] := List.eq_nil_of_length_eq_zero hmax
    obtain ⟨buffer, hresize, rfl⟩ := Option.map_eq_some_iff.mp h
    have hlength := Cbuffer.resize_length hresize
    have hpos := Cbuffer.resize_maxLength_pos hresize (by decide)
    have hlimit : (if ctx.maxBufferSize < 0x1000 then 0x1000 else ctx.maxBufferSize) =
        max ctx.maxBufferSize 0x1000 := by
      split
      · omega
      · omega
    refine ⟨⟨le_rfl, Nat.zero_le _, fun _ => ?_⟩, List.ne_nil_of_length_pos hpos,
      .inl ⟨hdata, rfl, rfl, hlength, hlimit⟩⟩
    simp only [hlength, hlimit]
    omega
  · next hmax =>
    have hdata : ctx.buffer.data ≠ [] := by
      intro hdata
      apply hmax
      rw [Cbuffer.getMaxLength, hdata, List.length_nil]
    rw [← Option.some.inj h]
    exact ⟨hwf, hdata, .inr ⟨hdata, rfl⟩⟩

/-- A buffer that is enlarged within the limit keeps the received bytes. -/
theorem Wf.enlarge (hwf : ctx.Wf) (hdata : ctx.buffer.data ≠ []) {buffer : Cbuffer} {size : ℕ}
    (hsize : ctx.buffer.length ≤ size) (hlimit : size ≤ ctx.maxBufferSize)
    (h : ctx.buffer.resize size ctx.nowIndex garbage = some buffer) :
    ({ ctx with buffer } : ChttpContext).Wf ∧ buffer.data ≠ [] ∧
      buffer.data.take ctx.nowIndex = ctx.received ∧ buffer.length = size := by
  have hnow := hwf.now_le
  have hlength := Cbuffer.resize_length h
  have htake := Cbuffer.resize_take h hnow
  have hne : buffer.data ≠ [] := by
    intro hnil
    have hle := buffer.length_le
    have hold := List.length_pos_of_ne_nil hdata
    rw [hnil, List.length_nil, hlength] at hle
    -- a buffer of length 0 with a block is resized within the block
    have hzero : size = 0 := by omega
    unfold Cbuffer.resize at h
    rw [dif_pos (by rw [hzero]; exact Nat.zero_le _)] at h
    rw [← Option.some.inj h] at hnil
    exact hdata hnil
  refine ⟨⟨hwf.index_le, ?_, ?_⟩, hne, htake, hlength⟩
  · simp only [hlength]
    omega
  · intro _
    simp only [hlength]
    exact hlimit

/-- **The window.** It begins behind the received bytes, which are kept, and ends with the
buffer. -/
theorem prepareBuffer_spec (hwf : ctx.Wf) (h : ctx.prepareBuffer garbage = some (ctx', w)) :
    ctx'.Wf ∧ ctx'.buffer.data ≠ [] ∧ w.length = ctx'.buffer.length - ctx'.nowIndex ∧
      (ctx.buffer.data = [] ∧ ctx'.toParser = {} ∧ ctx'.nowIndex = 0 ∨
        ctx.buffer.data ≠ [] ∧ ctx'.toParser = ctx.toParser ∧ ctx'.nowIndex = ctx.nowIndex ∧
          ctx'.received = ctx.received) := by
  unfold prepareBuffer at h
  obtain ⟨ctx₁, hinit, h⟩ := Option.bind_eq_some_iff.mp h
  obtain ⟨hwf₁, hdata₁, hcase⟩ := init_spec hwf hinit
  obtain ⟨buffer, hbuffer, h⟩ := Option.map_eq_some_iff.mp h
  rw [Prod.mk.injEq] at h
  obtain ⟨rfl, rfl⟩ := h
  have hlimit := hwf₁.length_le hdata₁
  have hgrow : ({ ctx₁ with buffer } : ChttpContext).Wf ∧ buffer.data ≠ [] ∧
      buffer.data.take ctx₁.nowIndex = ctx₁.received := by
    split at hbuffer
    · split at hbuffer
      · obtain ⟨hwf₂, hne, htake, -⟩ := hwf₁.enlarge hdata₁ hlimit le_rfl hbuffer
        exact ⟨hwf₂, hne, htake⟩
      · next hdouble =>
        simp only [Cbuffer.getLength] at hdouble hbuffer
        obtain ⟨hwf₂, hne, htake, -⟩ := hwf₁.enlarge hdata₁ (by omega) (by omega) hbuffer
        exact ⟨hwf₂, hne, htake⟩
    · rw [← Option.some.inj hbuffer]
      exact ⟨hwf₁, hdata₁, rfl⟩
  obtain ⟨hwf₂, hne, htake⟩ := hgrow
  refine ⟨hwf₂, hne, rfl, ?_⟩
  rcases hcase with ⟨hdata, hparser, hnow, -⟩ | ⟨hdata, rfl⟩
  · exact .inl ⟨hdata, hparser, hnow⟩
  · exact .inr ⟨hdata, rfl, rfl, htake⟩

/-- Within the limit there is always a window, of 2 KB or up to the limit. -/
theorem exists_window (garbage : ℕ → UInt8) (hwf : ctx.Wf) (hmax : ctx.maxBufferSize < 2 ^ 63)
    (hlength : ctx.buffer.data ≠ [] → 0x1000 ≤ ctx.buffer.length) :
    ∃ ctx' w, ctx.prepareBuffer garbage = some (ctx', w) ∧
      w.buffer = (if w.length = 0 then none else some ctx'.nowIndex) ∧
      min 0x800 (max ctx.maxBufferSize 0x1000 - ctx'.nowIndex) ≤ w.length ∧
      ctx'.maxBufferSize = max ctx.maxBufferSize 0x1000 ∧ 0x1000 ≤ ctx'.buffer.length := by
  have hinit : ∃ ctx₁, ctx.init garbage = some ctx₁ := by
    unfold init
    split
    · obtain ⟨buffer, hresize⟩ := Cbuffer.exists_resize ctx.buffer 0 garbage
        (show 0x1000 < 2 ^ 63 by decide)
      rw [hresize]
      exact ⟨_, rfl⟩
    · exact ⟨_, rfl⟩
  obtain ⟨ctx₁, hinit⟩ := hinit
  obtain ⟨hwf₁, hdata₁, hcase⟩ := init_spec hwf hinit
  have hlimit := hwf₁.length_le hdata₁
  have hnow₁ := hwf₁.now_le
  -- `init` has clamped the limit and given the buffer 4 KB, or there was one
  have hctx₁ : 0x1000 ≤ ctx₁.buffer.length ∧
      ctx₁.maxBufferSize = max ctx.maxBufferSize 0x1000 := by
    rcases hcase with ⟨-, -, -, hlen, hmax₁⟩ | ⟨hdata, rfl⟩
    · rw [hlen, hmax₁]
      exact ⟨le_rfl, rfl⟩
    · have hlen := hlength hdata
      exact ⟨hlen, by omega⟩
  obtain ⟨hlen₁, hmax₁⟩ := hctx₁
  have hbuffer : ∃ buffer,
      (if ctx₁.buffer.getLength - ctx₁.nowIndex < 0x800 then
        if ctx₁.buffer.getLength * 2 > ctx₁.maxBufferSize then
          ctx₁.buffer.resize ctx₁.maxBufferSize ctx₁.nowIndex garbage
        else ctx₁.buffer.resize (ctx₁.buffer.getLength * 2) ctx₁.nowIndex garbage
      else some ctx₁.buffer) = some buffer ∧
      min 0x800 (ctx₁.maxBufferSize - ctx₁.nowIndex) ≤ buffer.length - ctx₁.nowIndex ∧
      0x1000 ≤ buffer.length := by
    have hresize : ∀ size, size ≤ ctx₁.maxBufferSize →
        ∃ buffer, ctx₁.buffer.resize size ctx₁.nowIndex garbage = some buffer ∧
          buffer.length = size := by
      intro size hle
      obtain ⟨buffer, hresize⟩ := Cbuffer.exists_resize ctx₁.buffer ctx₁.nowIndex garbage
        (show size < 2 ^ 63 by omega)
      exact ⟨buffer, hresize, Cbuffer.resize_length hresize⟩
    have hget : ctx₁.buffer.getLength = ctx₁.buffer.length := rfl
    by_cases hsmall : ctx₁.buffer.getLength - ctx₁.nowIndex < 0x800
    · rw [if_pos hsmall]
      by_cases hdouble : ctx₁.buffer.getLength * 2 > ctx₁.maxBufferSize
      · rw [if_pos hdouble]
        obtain ⟨buffer, hbuffer, hsize⟩ := hresize _ le_rfl
        exact ⟨buffer, hbuffer, by omega, by omega⟩
      · rw [if_neg hdouble]
        obtain ⟨buffer, hbuffer, hsize⟩ := hresize _ (not_lt.mp hdouble)
        exact ⟨buffer, hbuffer, by omega, by omega⟩
    · rw [if_neg hsmall]
      exact ⟨ctx₁.buffer, rfl, by omega, hlen₁⟩
  obtain ⟨buffer, hbuffer, hwindow, hlen⟩ := hbuffer
  unfold prepareBuffer
  rw [hinit, Option.bind_some]
  simp only [hbuffer]
  rw [hmax₁] at hwindow
  exact ⟨_, _, rfl, rfl, hwindow, hmax₁, hlen⟩

/-- A read of up to 2 KB fits while the limit is not near. -/
theorem exists_prepareBuffer (garbage : ℕ → UInt8) (hwf : ctx.Wf) (hmax : ctx.maxBufferSize < 2 ^ 63)
    (hlength : ctx.buffer.data ≠ [] → 0x1000 ≤ ctx.buffer.length)
    (hnow : ctx.nowIndex + 0x800 ≤ max ctx.maxBufferSize 0x1000) :
    ∃ ctx' w, ctx.prepareBuffer garbage = some (ctx', w) ∧ 0x800 ≤ w.length ∧
      ctx'.maxBufferSize = max ctx.maxBufferSize 0x1000 ∧ 0x1000 ≤ ctx'.buffer.length := by
  obtain ⟨ctx', w, hprepare, -, hwindow, hmax', hlength'⟩ := exists_window garbage hwf hmax hlength
  obtain ⟨-, -, -, hcase⟩ := prepareBuffer_spec hwf hprepare
  have hnow' : ctx'.nowIndex ≤ ctx.nowIndex := by
    rcases hcase with ⟨-, -, hzero⟩ | ⟨-, -, hsame, -⟩
    · rw [hzero]
      exact Nat.zero_le _
    · exact hsame.le
  exact ⟨ctx', w, hprepare, by omega, hmax', hlength'⟩

/-! ## A read -/

theorem recvPush_fill {bytes : List UInt8}
    (hfit : ctx.nowIndex + bytes.length ≤ ctx.buffer.length) :
    (ctx.fill bytes).recvPush bytes.length =
      { ctx.fill bytes with nowIndex := ctx.nowIndex + bytes.length } :=
  if_pos hfit

/-- The bytes of a read follow the received ones. -/
theorem fill_received (hwf : ctx.Wf) {bytes : List UInt8}
    (hfit : ctx.nowIndex + bytes.length ≤ ctx.buffer.length) :
    ((ctx.fill bytes).recvPush bytes.length).received = ctx.received ++ bytes := by
  have hlength := ctx.buffer.length_le
  have hkeep : (ctx.buffer.data.take ctx.nowIndex).length = ctx.nowIndex := hwf.length_received
  have hdata : ctx.buffer.data = ctx.buffer.data.take ctx.nowIndex ++
      ((ctx.buffer.data.drop ctx.nowIndex).take bytes.length) ++
        ctx.buffer.data.drop (ctx.nowIndex + bytes.length) := by
    rw [List.append_assoc, ← List.drop_drop, List.take_append_drop, List.take_append_drop]
  have hwindow : ((ctx.buffer.data.drop ctx.nowIndex).take bytes.length).length =
      bytes.length := by
    rw [List.length_take, List.length_drop]
    omega
  have hover := overwrite_append (p := ctx.buffer.data.take ctx.nowIndex) hwindow
    (ctx.buffer.data.drop (ctx.nowIndex + bytes.length))
  rw [← hdata, hkeep] at hover
  rw [recvPush_fill hfit]
  simp only [received, fill, Cbuffer.store_data, hover]
  rw [List.take_left' (by rw [List.length_append, hkeep])]

/-- **A read** appends its bytes to the received ones and leaves the parser alone. -/
theorem receive_spec (hwf : ctx.Wf) (hfresh : ctx.Fresh) {r : Read}
    (h : ctx.receive r = some ctx') :
    let ctx'' := ctx'.recvPush r.bytes.length
    ctx''.Wf ∧ ctx''.buffer.data ≠ [] ∧ ctx''.received = ctx.received ++ r.bytes ∧
      ctx''.toParser = ctx.toParser := by
  unfold receive at h
  obtain ⟨⟨ctx₁, w⟩, hprepare, h⟩ := Option.bind_eq_some_iff.mp h
  obtain ⟨hwf₁, hdata₁, hw, hcase⟩ := prepareBuffer_spec hwf hprepare
  simp only at h
  split at h
  · next hfit =>
    rw [← Option.some.inj h]
    have hnow := hwf₁.now_le
    have hroom : ctx₁.nowIndex + r.bytes.length ≤ ctx₁.buffer.length := by omega
    have hsame : ctx₁.received = ctx.received ∧ ctx₁.toParser = ctx.toParser := by
      rcases hcase with ⟨hdata, hparser, hzero⟩ | ⟨-, hparser, -, hreceived⟩
      · obtain ⟨hinit, hnone⟩ := hfresh hdata
        unfold received
        rw [hparser, hinit, hzero, hnone]
        exact ⟨rfl, rfl⟩
      · exact ⟨hreceived, hparser⟩
    have hreceived := fill_received hwf₁ hroom
    rw [hsame.1] at hreceived
    have hpush := recvPush_fill hroom
    have hdata : ((ctx₁.fill r.bytes).recvPush r.bytes.length).buffer.data ≠ [] := by
      rw [hpush]
      apply List.ne_nil_of_length_pos
      simp only [fill, Cbuffer.store_data, length_overwrite]
      exact List.length_pos_of_ne_nil hdata₁
    refine ⟨?_, hdata, hreceived, ?_⟩
    · rw [hpush]
      exact ⟨Nat.le_add_right_of_le hwf₁.index_le, hroom, fun _ => hwf₁.length_le hdata₁⟩
    · rw [hpush]
      exact hsame.2
  · exact absurd h (by simp)

/-- A read of up to 2 KB is received while the limit is not near. -/
theorem exists_receive (hwf : ctx.Wf) (hmax : ctx.maxBufferSize < 2 ^ 63)
    (hlength : ctx.buffer.data ≠ [] → 0x1000 ≤ ctx.buffer.length)
    (hnow : ctx.nowIndex + 0x800 ≤ max ctx.maxBufferSize 0x1000) (r : Read)
    (hr : r.bytes.length ≤ 0x800) :
    ∃ ctx', ctx.receive r = some ctx' ∧
      (ctx'.recvPush r.bytes.length).maxBufferSize = max ctx.maxBufferSize 0x1000 ∧
      0x1000 ≤ (ctx'.recvPush r.bytes.length).buffer.length := by
  obtain ⟨ctx₁, w, hprepare, hw, hmax₁, hlen₁⟩ :=
    exists_prepareBuffer r.garbage hwf hmax hlength hnow
  obtain ⟨-, -, hwindow, -⟩ := prepareBuffer_spec hwf hprepare
  have hroom : ctx₁.nowIndex + r.bytes.length ≤ ctx₁.buffer.length := by omega
  refine ⟨ctx₁.fill r.bytes, ?_, ?_⟩
  · unfold receive
    rw [hprepare, Option.bind_some]
    exact if_pos (by omega)
  · rw [recvPush_fill hroom]
    exact ⟨hmax₁, hlen₁⟩

end ChttpContext

end NetworkPool
