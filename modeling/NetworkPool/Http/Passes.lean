import NetworkPool.Http.Server

/-!
# Passes of the analysis

What one pass can do (`pass_progress`), and from it: passes come to an end, so that the fuel of
`analysis` is never used up (`analysis_eq`), and neither is that of `message`
(`messageLoop_passed`).
-/

namespace NetworkPool

open Lib.CString

/-! ## Header fields -/

section Decode

variable (ptr : List UInt8) (k : Parser)

/-- `kvDecoder` changes three members. -/
theorem kvDecoder_frame (name value : List UInt8) (nameLength valueLength : ℕ) :
    ∃ keepAlive chunked contentLength, kvDecoder k name nameLength value valueLength =
      { k with bKeepAlive := keepAlive, bChunked := chunked, contentLength := contentLength } := by
  unfold kvDecoder
  split
  · exact ⟨_, _, _, rfl⟩
  · split
    · exact ⟨_, _, _, rfl⟩
    · split
      · exact ⟨_, _, _, rfl⟩
      · exact ⟨_, _, _, rfl⟩

theorem decoderHeader_frame (lines : List (ℕ × ℕ)) :
    ∃ keepAlive chunked contentLength, decoderHeader ptr lines k =
      { k with bKeepAlive := keepAlive, bChunked := chunked, contentLength := contentLength } := by
  induction lines generalizing k with
  | nil => exact ⟨_, _, _, rfl⟩
  | cons line lines ih =>
    rw [decoderHeader]
    split
    · exact ⟨_, _, _, rfl⟩
    · split
      · exact ih k
      · simp only
        split
        · exact ih k
        · next f _ =>
          have hkv := kvDecoder_frame k ((ptr.drop line.1).drop f.nameHead)
            ((ptr.drop line.1).drop f.valueHead) (f.nameTail - f.nameHead)
            (f.valueTail - f.valueHead)
          obtain ⟨keepAlive, chunked, contentLength, hkv⟩ := hkv
          rw [hkv]
          exact ih _

/-- What follows a header. -/
def AfterHeader (state : HttpState) : Prop :=
  state = .readChunkHeader ∨ state = .readBody ∨ state = .done

theorem AfterHeader.rank_le {state : HttpState} (h : AfterHeader state) : state.rank ≤ 4 := by
  rcases h with rfl | rfl | rfl
  all_goals decide

/-- The header decides the framing and the next state; the rest stays as it is. -/
theorem decoderHeaderAndUpdateState_frame :
    let k' := decoderHeaderAndUpdateState ptr k
    k'.lines = k.lines ∧ k'.analysisIndex = k.analysisIndex ∧ k'.chunks = k.chunks ∧
      AfterHeader k'.state := by
  obtain ⟨keepAlive, chunked, contentLength, hdecode⟩ := decoderHeader_frame ptr k k.lines
  intro k'
  have hk' : k' = decoderHeaderAndUpdateState ptr k := rfl
  rw [decoderHeaderAndUpdateState, hdecode] at hk'
  simp only at hk'
  split at hk'
  · rw [hk']
    exact ⟨rfl, rfl, rfl, .inl rfl⟩
  · split at hk'
    · rw [hk']
      exact ⟨rfl, rfl, rfl, .inr (.inl rfl)⟩
    · rw [hk']
      exact ⟨rfl, rfl, rfl, .inr (.inr rfl)⟩

theorem decoderHeaderAndUpdateState_size {k : Parser} {n : ℕ} (h : k.nowChunkSize < n) :
    (decoderHeaderAndUpdateState ptr k).nowChunkSize < n := by
  obtain ⟨keepAlive, chunked, contentLength, hdecode⟩ := decoderHeader_frame ptr k k.lines
  rw [decoderHeaderAndUpdateState, hdecode]
  simp only
  split
  · exact Nat.zero_lt_of_lt h
  · split
    · exact h
    · exact h

end Decode

/-! ## One pass -/

/-- The states in which the analysis goes from byte to byte. -/
def Scanning (state : HttpState) : Prop :=
  state = .readHeader ∨ state = .readChunkHeader ∨ state = .readChunkFooter

/-- What a pass can do. -/
inductive Progress (ptr : List UInt8) (now : ℕ) (k : Parser) : Flow × List UInt8 × Parser → Prop
  /-- The analysis is over. -/
  | ended (hstate : k.state = .done ∨ k.state = .bad) : Progress ptr now k (.ret true, ptr, k)
  /-- What has come does not suffice. -/
  | wait (hstate : ¬(k.state = .done ∨ k.state = .bad)) : Progress ptr now k (.ret false, ptr, k)
  | fail (hunread : k.analysisIndex < now) (hstate : k.state = .start ∨ Scanning k.state) :
      Progress ptr now k (.ret true, ptr, { k with state := .bad })
  | start (hunread : k.analysisIndex < now) (hstate : k.state = .start)
      (hzero : k.analysisIndex = 0) :
      Progress ptr now k
        (.again, ptr, { k with state := .readHeader, lines := k.lines ++ [(0, npos)] })
  /-- A byte inside a line. -/
  | byte (hunread : k.analysisIndex < now) (hstate : Scanning k.state) (size : ℕ)
      (sizeStart sizeDone : Bool) (hsize : size = k.nowChunkSize ∨ size < 2 ^ 64) :
      Progress ptr now k
        (.again, ptr,
          { k with
            analysisIndex := k.analysisIndex + 1, nowChunkSize := size
            bChunkSizeStart := sizeStart, bChunkSizeDone := sizeDone })
  /-- The end of a header or trailer line. -/
  | line (hunread : k.analysisIndex < now)
      (hstate : k.state = .readHeader ∨ k.state = .readChunkFooter) (first length : ℕ)
      (hlength : first + length + 1 = k.analysisIndex) :
      Progress ptr now k
        (.again, terminate ptr k.analysisIndex,
          { k with
            lines := k.lines.dropLast ++ [(first, length), (k.analysisIndex + 1, npos)]
            analysisIndex := k.analysisIndex + 1 })
  /-- The empty line after the header. -/
  | header (hunread : k.analysisIndex < now) (hstate : k.state = .readHeader) (k' : Parser)
      (hdecode : k' = decoderHeaderAndUpdateState (terminate ptr k.analysisIndex)
        { k with
          lines := k.lines.dropLast, headerSize := k.analysisIndex + 1
          analysisIndex := k.analysisIndex + 1 })
      (hlines : k'.lines = k.lines.dropLast) (hindex : k'.analysisIndex = k.analysisIndex + 1)
      (hchunks : k'.chunks = k.chunks) (hafter : AfterHeader k'.state) :
      Progress ptr now k (.again, terminate ptr k.analysisIndex, k')
  /-- A body of which the length was given. -/
  | body (hstate : k.state = .readBody) (hunread : k.analysisIndex + k.contentLength ≤ now) :
      Progress ptr now k
        (.ret true, ptr,
          { k with
            chunks := k.chunks ++ [(k.analysisIndex, k.contentLength)]
            analysisIndex := k.analysisIndex + k.contentLength, state := .done })
  /-- The end of the line with the size of a chunk. -/
  | size (hunread : k.analysisIndex < now) (hstate : k.state = .readChunkHeader)
      (hsize : 0 < k.nowChunkSize) :
      Progress ptr now k
        (.again, terminate ptr k.analysisIndex,
          { k with analysisIndex := k.analysisIndex + 1, state := .readChunkBody })
  /-- The end of the line with the size of the last chunk. -/
  | lastSize (hunread : k.analysisIndex < now) (hstate : k.state = .readChunkHeader) :
      Progress ptr now k
        (.again, terminate ptr k.analysisIndex,
          { k with
            analysisIndex := k.analysisIndex + 1, state := .readChunkFooter
            lines := k.lines ++ [(k.analysisIndex + 1, npos)] })
  | chunk (hbegun : k.analysisIndex < now) (hstate : k.state = .readChunkBody)
      (hunread : k.analysisIndex + (k.nowChunkSize + 2) % 2 ^ 64 ≤ now) :
      Progress ptr now k
        (.again, ptr,
          { k with
            chunks := k.chunks ++ [(k.analysisIndex, k.nowChunkSize)]
            analysisIndex := k.analysisIndex + (k.nowChunkSize + 2) % 2 ^ 64
            state := .readChunkHeader, nowChunkSize := 0, bChunkSizeStart := false
            bChunkSizeDone := false })
  /-- The empty line after the trailer. -/
  | trailer (hunread : k.analysisIndex < now) (hstate : k.state = .readChunkFooter) :
      Progress ptr now k
        (.ret true, terminate ptr k.analysisIndex,
          { k with
            lines := k.lines.dropLast, analysisIndex := k.analysisIndex + 1, state := .done })

section Progress

variable {ptr : List UInt8} {now : ℕ} {k : Parser}

/-- A character of a size changes three members. -/
theorem chunkSizeChar_frame (ch : UInt8) (k : Parser) :
    ∃ size sizeStart sizeDone, chunkSizeChar ch k =
      { k with
        nowChunkSize := size, bChunkSizeStart := sizeStart, bChunkSizeDone := sizeDone } ∧
      (size = k.nowChunkSize ∨ size < 2 ^ 64) := by
  have hmod : ∀ n : ℕ, n % 2 ^ 64 < 2 ^ 64 := fun n => Nat.mod_lt n (by decide)
  unfold chunkSizeChar
  split
  · exact ⟨_, _, _, rfl, .inl rfl⟩
  · split
    · exact ⟨_, _, _, rfl, .inr (hmod _)⟩
    · split
      · exact ⟨_, _, _, rfl, .inr (hmod _)⟩
      · split
        · exact ⟨_, _, _, rfl, .inr (hmod _)⟩
        · split
          · exact ⟨_, _, _, rfl, .inl rfl⟩
          · exact ⟨_, _, _, rfl, .inl rfl⟩

/-- The shared round of the two line loops, for what is done at the empty line. -/
theorem scanLine_progress {atEmptyLine : List UInt8 → Parser → Flow × Parser}
    (hunread : k.analysisIndex < now)
    (hstate : k.state = .readHeader ∨ k.state = .readChunkFooter)
    (hempty : ∀ r, r = atEmptyLine (terminate ptr k.analysisIndex)
        { k with lines := k.lines.dropLast } →
      Progress ptr now k (r.1, terminate ptr k.analysisIndex, r.2)) :
    Progress ptr now k (scanLine atEmptyLine ptr k) := by
  have hscan : Scanning k.state := by
    unfold Scanning
    tauto
  unfold scanLine
  simp only
  split
  · split
    · exact .fail hunread (.inr hscan)
    · split
      · exact hempty _ rfl
      · apply Progress.line hunread hstate
        omega
  · exact .byte hunread hscan k.nowChunkSize k.bChunkSizeStart k.bChunkSizeDone (.inl rfl)

/-- **What a pass does.** -/
theorem pass_progress (ptr : List UInt8) (now : ℕ) (k : Parser) :
    Progress ptr now k (pass ptr now k) := by
  unfold pass
  split
  · next hstate => exact .ended hstate
  · next hstate =>
    split
    · exact .wait hstate
    · have hunread : k.analysisIndex < now := by omega
      split
      · next hk =>
        unfold startLine
        split
        · exact .fail hunread (.inl hk)
        · exact .start hunread hk (by tauto)
      · next hk =>
        apply scanLine_progress hunread (.inl hk)
        rintro r rfl
        have hframe := decoderHeaderAndUpdateState_frame (terminate ptr k.analysisIndex)
          { k with
            lines := k.lines.dropLast, headerSize := k.analysisIndex + 1
            analysisIndex := k.analysisIndex + 1 }
        exact .header hunread hk _ rfl hframe.1 hframe.2.1 hframe.2.2.1 hframe.2.2.2
      · next hk =>
        unfold readBody
        split
        · exact .body hk (by omega)
        · exact .wait hstate
      · next hk =>
        have hscan : Scanning k.state := .inr (.inl hk)
        unfold readChunkHeader
        simp only
        split
        · split
          · exact .fail hunread (.inr hscan)
          · split
            · next hsize => exact .size hunread hk hsize
            · exact .lastSize hunread hk
        · obtain ⟨size, sizeStart, sizeDone, hchar, hsize⟩ :=
            chunkSizeChar_frame (ptr.getD k.analysisIndex 0) k
          rw [hchar]
          exact .byte hunread hscan size sizeStart sizeDone hsize
      · next hk =>
        unfold readChunkBody
        split
        · exact .chunk hunread hk (by omega)
        · exact .wait hstate
      · next hk =>
        apply scanLine_progress hunread (.inr hk)
        rintro r rfl
        exact .trailer hunread hk
      · exact .ended (by tauto)
      · exact .ended (by tauto)

/-- A pass that goes on has done some of the work. -/
theorem Progress.work_lt {ptr' : List UInt8} {k' : Parser}
    (h : Progress ptr now k (.again, ptr', k')) : k'.work now < k.work now := by
  unfold Parser.work
  cases h with
  | start hunread hstate =>
    rw [hstate]
    simp only [HttpState.rank]
    omega
  | byte hunread =>
    simp only
    omega
  | line hunread =>
    simp only
    omega
  | header hunread hstate _ _ _ hindex _ hafter =>
    have hrank := hafter.rank_le
    have hheader : k.state.rank = 1 := by
      rw [hstate]
      rfl
    omega
  | size hunread hstate =>
    rw [hstate]
    simp only [HttpState.rank]
    omega
  | lastSize hunread hstate =>
    rw [hstate]
    simp only [HttpState.rank]
    omega
  | chunk hbegun hstate hunread =>
    rw [hstate]
    simp only [HttpState.rank]
    omega

/-- A pass that returns does no harm to the count. -/
theorem Progress.work_le {b : Bool} {ptr' : List UInt8} {k' : Parser}
    (h : Progress ptr now k (.ret b, ptr', k')) : k'.work now ≤ k.work now := by
  unfold Parser.work
  cases h with
  | ended => exact le_rfl
  | wait => exact le_rfl
  | fail hunread hstate =>
    simp only [HttpState.rank]
    omega
  | body hstate hunread =>
    rw [hstate]
    simp only [HttpState.rank]
    omega
  | trailer hunread hstate =>
    rw [hstate]
    simp only [HttpState.rank]
    omega

/-- A pass that returns changes nothing, or ends the analysis. -/
theorem Progress.ret_cases {b : Bool} {ptr' : List UInt8} {k' : Parser}
    (h : Progress ptr now k (.ret b, ptr', k')) :
    ptr' = ptr ∧ k' = k ∧ (b = true ↔ k.state = .done ∨ k.state = .bad) ∨
      b = true ∧ k'.state ≠ k.state ∧ (k'.state = .done ∨ k'.state = .bad) := by
  cases h with
  | ended hstate => exact .inl ⟨rfl, rfl, by simp [hstate]⟩
  | wait hstate => exact .inl ⟨rfl, rfl, by simp [hstate]⟩
  | fail _ hstate =>
    refine .inr ⟨rfl, ?_, .inr rfl⟩
    intro hbad
    simp only at hbad
    rw [← hbad] at hstate
    exact absurd hstate (by simp [Scanning])
  | body hstate => exact .inr ⟨rfl, by simp [hstate], .inl rfl⟩
  | trailer _ hstate => exact .inr ⟨rfl, by simp [hstate], .inl rfl⟩

/-- The analysis does not run past what has come. -/
theorem Progress.index_le {r : Flow × List UInt8 × Parser} (h : Progress ptr now k r)
    (hle : k.analysisIndex ≤ now) :
    k.analysisIndex ≤ r.2.2.analysisIndex ∧ r.2.2.analysisIndex ≤ now := by
  cases h with
  | header hunread _ _ _ _ hindex =>
    simp only [hindex]
    omega
  | _ =>
    simp only
    omega

end Progress

/-! ## All passes -/

namespace ChttpContext

variable {ctx ctx' : ChttpContext}

/-- A pass of the context, with what it leaves alone. -/
theorem pass_spec (ctx : ChttpContext) :
    Progress ctx.buffer.data ctx.nowIndex ctx.toParser
        (ctx.pass.1, ctx.pass.2.buffer.data, ctx.pass.2.toParser) ∧
      ctx.pass.2.nowIndex = ctx.nowIndex ∧ ctx.pass.2.maxBufferSize = ctx.maxBufferSize ∧
      ctx.pass.2.buffer.length = ctx.buffer.length ∧
      ctx.pass.2.buffer.data.length = ctx.buffer.data.length :=
  ⟨pass_progress .., rfl, rfl, rfl, length_pass ..⟩

theorem work_lt_of_pass (h : ctx.pass = (.again, ctx')) : ctx'.work < ctx.work := by
  obtain ⟨hprogress, hnow, -⟩ := pass_spec ctx
  rw [h] at hprogress hnow
  unfold work
  rw [hnow]
  exact hprogress.work_lt

/-- More fuel changes nothing. -/
theorem analysisLoop_eq {fuel : ℕ} (hfuel : ctx.work < fuel) :
    analysisLoop fuel ctx = ctx.analysis := by
  have hgen : ∀ n m ctx, work ctx < n → work ctx < m →
      analysisLoop n ctx = analysisLoop m ctx := by
    intro n
    -- induction on the first fuel: both loops take the same pass
    induction n with
    | zero =>
      intro m ctx hn
      exact absurd hn (by omega)
    | succ n ih =>
      intro m ctx hn hm
      obtain ⟨m, rfl⟩ := Nat.exists_eq_succ_of_ne_zero (Nat.ne_of_gt (Nat.zero_lt_of_lt hm))
      rw [analysisLoop, analysisLoop]
      split
      · next ctx' hpass =>
        have hlt := work_lt_of_pass hpass
        exact ih m ctx' (by omega) (by omega)
      · rfl
  exact hgen fuel (ctx.work + 1) ctx hfuel (Nat.lt_succ_self _)

/-- **`analysis` is the loop of the source**: a pass, and again if it says so. -/
theorem analysis_eq (ctx : ChttpContext) :
    ctx.analysis =
      match ctx.pass with
      | (.again, ctx') => ctx'.analysis
      | (.ret answer, ctx') => (answer, ctx') := by
  rw [analysis, analysisLoop]
  cases hpass : ctx.pass with
  | mk flow ctx' =>
    cases flow with
    | again => exact analysisLoop_eq (work_lt_of_pass hpass)
    | ret answer => rfl

/-- Induction over the passes of `analysis`. -/
theorem analysis_induction {P : ChttpContext → Bool → ChttpContext → Prop}
    (hagain : ∀ ctx ctx' answer last, ctx.pass = (.again, ctx') → P ctx' answer last →
      P ctx answer last)
    (hret : ∀ ctx answer ctx', ctx.pass = (.ret answer, ctx') → P ctx answer ctx')
    (ctx : ChttpContext) : P ctx ctx.analysis.1 ctx.analysis.2 := by
  induction hwork : ctx.work using Nat.strong_induction_on generalizing ctx with
  | _ n ih =>
    rw [analysis_eq]
    cases hpass : ctx.pass with
    | mk flow ctx' =>
      cases flow with
      | again =>
        have hlt := work_lt_of_pass hpass
        rw [hwork] at hlt
        exact hagain ctx ctx' _ _ hpass (ih _ hlt ctx' rfl)
      | ret answer => exact hret ctx answer ctx' hpass

end ChttpContext

end NetworkPool
