import NetworkPool.Lib.Lts
import NetworkPool.Http.Requests

/-!
# Recorded body ranges

The ranges in `m_chunks` lie inside the received bytes as long as no chunk announces `2 ^ 64 - 2`
or `2 ^ 64 - 1` bytes: for these the test whether the chunk is complete wraps to a test for no
byte or one byte.
-/

namespace NetworkPool

open Lib (Lts)
open Lib.CString
open ChttpContext

/-! ## The steps of a context -/

/-- What happens to a context. -/
inductive ContextEvent where
  | prepare (garbage : ℕ → UInt8)
  /-- `libuv` fills the window and `recvPush` is called. -/
  | recv (bytes : List UInt8)
  /-- A pass of `analysis`. -/
  | pass
  /-- `reinitForNext`. -/
  | next (former : ChttpContext)
  /-- `reinitForNext`, looking at the context the message is moved to. -/
  | moved (former : ChttpContext)

/-- The contexts that can come about, pass by pass. -/
def contextSystem (maxBufferSize : ℕ) : Lts ChttpContext ContextEvent where
  init := ChttpContext.new maxBufferSize
  step ctx
    | .prepare garbage => (ctx.prepareBuffer garbage).map (·.1)
    | .recv bytes =>
      if ctx.nowIndex + bytes.length ≤ ctx.buffer.getLength then
        some ((ctx.fill bytes).recvPush bytes.length)
      else none
    | .pass => some ctx.pass.2
    | .next former => (ctx.reinitForNext former).map (·.1)
    | .moved former => (ctx.reinitForNext former).map (·.2)

/-! ## Ranges inside the received bytes -/

/-- The recorded ranges, as unbounded numbers, are inside what has been analysed and do not
overlap; `getContent` copies exactly them. -/
structure RangesInside (ctx : ChttpContext) : Prop where
  inside : ∀ c ∈ ctx.chunks, c.1 + c.2 ≤ ctx.analysisIndex
  index_le : ctx.analysisIndex ≤ ctx.nowIndex
  disjoint : ctx.chunks.Pairwise fun c d => c.1 + c.2 ≤ d.1
  total_lt : (ctx.chunks.map Prod.snd).sum < 2 ^ 64
  content : ctx.state = .done → ctx.getContent =
    some ((ctx.chunks.map Prod.snd).sum,
      ctx.chunks.flatMap fun c => (ctx.received.drop c.1).take c.2)
  length_content : (ctx.chunks.flatMap fun c => (ctx.received.drop c.1).take c.2).length =
    (ctx.chunks.map Prod.snd).sum

/-- Disjoint ranges have room for their lengths. -/
theorem sum_le_of_disjoint {chunks : List (ℕ × ℕ)} {first last : ℕ} (hle : first ≤ last)
    (hfirst : ∀ c ∈ chunks, first ≤ c.1) (hinside : ∀ c ∈ chunks, c.1 + c.2 ≤ last)
    (hdisjoint : chunks.Pairwise fun c d => c.1 + c.2 ≤ d.1) :
    first + (chunks.map Prod.snd).sum ≤ last := by
  induction chunks generalizing first with
  | nil =>
    rw [List.map_nil, List.sum_nil]
    exact hle
  | cons c chunks ih =>
    obtain ⟨hnext, hdisjoint⟩ := List.pairwise_cons.mp hdisjoint
    have hc := hfirst c List.mem_cons_self
    have hrest := ih (hinside c List.mem_cons_self) hnext
      (fun d hd => hinside d (List.mem_cons_of_mem c hd)) hdisjoint
    rw [List.map_cons, List.sum_cons]
    omega

theorem foldl_mod_eq_sum (chunks : List (ℕ × ℕ)) (total : ℕ)
    (h : total + (chunks.map Prod.snd).sum < 2 ^ 64) :
    chunks.foldl (fun total pair => (total + pair.2) % 2 ^ 64) total =
      total + (chunks.map Prod.snd).sum := by
  induction chunks generalizing total with
  | nil => rfl
  | cons c chunks ih =>
    rw [List.map_cons, List.sum_cons] at h ⊢
    rw [List.foldl_cons, Nat.mod_eq_of_lt (by omega), ih _ (by omega)]
    omega

/-- Where the ranges are decides the rest. -/
theorem RangesInside.of_inside {ctx : ChttpContext} (hwf : ctx.Wf)
    (hinside : ∀ c ∈ ctx.chunks, c.1 + c.2 ≤ ctx.analysisIndex)
    (hdisjoint : ctx.chunks.Pairwise fun c d => c.1 + c.2 ≤ d.1) : RangesInside ctx := by
  have hsum := sum_le_of_disjoint (Nat.zero_le _) (fun c _ => Nat.zero_le c.1) hinside hdisjoint
  have hindex := hwf.index_le
  have hnow := hwf.now_le
  have hlength := ctx.buffer.length_le
  have hdata := ctx.buffer.data_lt
  have hreceived := hwf.length_received
  have htotal : (ctx.chunks.map Prod.snd).sum < 2 ^ 64 := by omega
  have hslice : ∀ c ∈ ctx.chunks,
      (ctx.buffer.data.drop c.1).take c.2 = (ctx.received.drop c.1).take c.2 := by
    intro c hc
    have hle := hinside c hc
    rw [received, List.drop_take, List.take_take, min_eq_left (by omega)]
  have hcopied : ctx.chunks.flatMap (fun c => (ctx.buffer.data.drop c.1).take c.2) =
      ctx.chunks.flatMap fun c => (ctx.received.drop c.1).take c.2 := by
    rw [List.flatMap_def, List.flatMap_def, List.map_congr_left hslice]
  refine ⟨hinside, hindex, hdisjoint, htotal, fun hdone => ?_, ?_⟩
  · have htotal' := foldl_mod_eq_sum ctx.chunks 0 (by omega)
    rw [Nat.zero_add] at htotal'
    rw [getContent, if_neg (not_not.mpr hdone), htotal', Cbuffer.getData, hcopied]
  · rw [List.length_flatMap]
    apply congrArg List.sum
    apply List.map_congr_left
    intro c hc
    have hle := hinside c hc
    rw [List.length_take, List.length_drop]
    omega

/-! ## The invariant -/

/-- The chunk size is a `size_t`. -/
structure ContextInv (ctx : ChttpContext) : Prop where
  wf : ctx.Wf
  size_lt : ctx.nowChunkSize < 2 ^ 64

theorem ContextInv.new (maxBufferSize : ℕ) : ContextInv (ChttpContext.new maxBufferSize) :=
  ⟨.new maxBufferSize, Nat.two_pow_pos 64⟩

section Steps

variable {ctx ctx' former former' : ChttpContext}

/-- The two contexts after `reinitForNext`: a fresh one, and one that holds the message. -/
theorem reinitForNext_parts (hwf : ctx.Wf)
    (h : ctx.reinitForNext former = some (ctx', former')) :
    ctx'.Wf ∧ ctx'.toParser = {} ∧ former'.Wf ∧ former'.chunks = ctx.chunks ∧
      former'.analysisIndex = ctx.analysisIndex ∧ former'.nowChunkSize = 0 := by
  unfold reinitForNext at h
  split at h
  · exact absurd h (by simp)
  · rw [Option.some.injEq, Prod.mk.injEq] at h
    obtain ⟨rfl, rfl⟩ := h
    have hindex := hwf.index_le
    have hnow := hwf.now_le
    have hdata := ctx.buffer.length_le
    have hmessage : (ctx.buffer.data.take ctx.analysisIndex).length = ctx.analysisIndex := by
      rw [List.length_take]
      omega
    have hset : ∀ hbytes, (former.buffer.set (ctx.buffer.data.take ctx.analysisIndex)
        hbytes).length = ctx.analysisIndex := by
      intro hbytes
      unfold Cbuffer.set
      split
      · exact hmessage
      · exact hmessage
    refine ⟨⟨Nat.zero_le _, (Nat.sub_le ..).trans hnow, ?_⟩, rfl, ⟨le_rfl, (hset _).ge, ?_⟩, rfl,
      rfl, rfl⟩
    · intro hne
      apply hwf.length_le
      intro hnil
      apply hne
      simp only [Cbuffer.store_data, Cbuffer.getData, hnil, overwrite]
      simp
    · intro _
      simp only [Cbuffer.getData, hset]
      by_cases hnil : ctx.buffer.data = []
      · rw [hnil, List.length_nil] at hdata
        omega
      · have hmax := hwf.length_le hnil
        omega

/-- A pass keeps the size of a chunk a `size_t`. -/
theorem Progress.size_lt {ptr : List UInt8} {now : ℕ} {k : Parser}
    {r : Flow × List UInt8 × Parser} (h : Progress ptr now k r) (hk : k.nowChunkSize < 2 ^ 64) :
    r.2.2.nowChunkSize < 2 ^ 64 := by
  cases h with
  | byte _ _ size _ _ hsize =>
    rcases hsize with rfl | hsize
    · exact hk
    · exact hsize
  | header _ _ k' hdecode =>
    rw [hdecode]
    exact decoderHeaderAndUpdateState_size _ hk
  | chunk => exact Nat.two_pow_pos 64
  | _ => exact hk

/-- Every step keeps the invariant, and what it does to the ranges: nothing, starting afresh, or
a pass. -/
theorem contextInv_step {maxBufferSize : ℕ} {e : ContextEvent} (h : ContextInv ctx)
    (hstep : (contextSystem maxBufferSize).step ctx e = some ctx') : ContextInv ctx' := by
  cases e with
  | prepare garbage =>
    obtain ⟨⟨ctx₁, w⟩, hprepare, rfl⟩ := Option.map_eq_some_iff.mp hstep
    obtain ⟨hwf, -, -, hcase⟩ := prepareBuffer_spec h.wf hprepare
    refine ⟨hwf, ?_⟩
    rcases hcase with ⟨-, hparser, -⟩ | ⟨-, hparser, -⟩
    · rw [hparser]
      exact Nat.two_pow_pos 64
    · rw [hparser]
      exact h.size_lt
  | recv bytes =>
    obtain ⟨hfit, hstep⟩ := Option.ite_none_right_eq_some.mp hstep
    rw [← Option.some.inj hstep, recvPush_fill hfit]
    refine ⟨⟨Nat.le_add_right_of_le h.wf.index_le, hfit, fun hne => ?_⟩, h.size_lt⟩
    apply h.wf.length_le
    intro hnil
    apply hne
    simp only [fill, Cbuffer.store_data, hnil, overwrite]
    simp
  | pass =>
    rw [← Option.some.inj hstep]
    exact ⟨h.wf.pass, (pass_spec ctx).1.size_lt h.size_lt⟩
  | next former =>
    obtain ⟨⟨ctx₁, former₁⟩, hreinit, rfl⟩ := Option.map_eq_some_iff.mp hstep
    obtain ⟨hwf, hparser, -⟩ := reinitForNext_parts h.wf hreinit
    refine ⟨hwf, ?_⟩
    rw [hparser]
    exact Nat.two_pow_pos 64
  | moved former =>
    obtain ⟨⟨ctx₁, former₁⟩, hreinit, rfl⟩ := Option.map_eq_some_iff.mp hstep
    obtain ⟨-, -, hwf, -, -, hsize⟩ := reinitForNext_parts h.wf hreinit
    refine ⟨hwf, ?_⟩
    rw [hsize]
    exact Nat.two_pow_pos 64

theorem contextInv_of_reachable {maxBufferSize : ℕ}
    (h : (contextSystem maxBufferSize).Reachable ctx) : ContextInv ctx :=
  h.invariant (.new maxBufferSize) fun _ _ _ _ hinv hstep => contextInv_step hinv hstep

/-! ## The condition -/

/-- A pass in `state_read_chunk_body` with unread bytes finds a chunk of less than `2 ^ 64 - 2`
bytes. -/
def SmallChunk (ctx : ChttpContext) : ContextEvent → ChttpContext → Prop
  | .pass, _ => ctx.state = .readChunkBody → ctx.analysisIndex < ctx.nowIndex →
      ctx.nowChunkSize < 2 ^ 64 - 2
  | _, _ => True

/-- A range recorded where the analysis stands. -/
theorem ranges_concat {chunks : List (ℕ × ℕ)} {index index' length : ℕ}
    (hinside : ∀ c ∈ chunks, c.1 + c.2 ≤ index) (hdisjoint : chunks.Pairwise
      fun c d => c.1 + c.2 ≤ d.1) (hle : index + length ≤ index') :
    (∀ c ∈ chunks ++ [(index, length)], c.1 + c.2 ≤ index') ∧
      (chunks ++ [(index, length)]).Pairwise fun c d => c.1 + c.2 ≤ d.1 := by
  constructor
  · intro c hc
    rcases List.mem_append.mp hc with hold | hnew
    · have hold := hinside c hold
      omega
    · rw [List.mem_singleton.mp hnew]
      exact hle
  · rw [List.pairwise_append]
    refine ⟨hdisjoint, List.pairwise_singleton .., ?_⟩
    intro c hc d hd
    rw [List.mem_singleton.mp hd]
    exact hinside c hc

/-- The ranges of a parser are inside what it has analysed and do not overlap. -/
def Parser.RangesInside (k : Parser) : Prop :=
  (∀ c ∈ k.chunks, c.1 + c.2 ≤ k.analysisIndex) ∧
    k.chunks.Pairwise fun c d => c.1 + c.2 ≤ d.1

theorem Progress.rangesInside {ptr : List UInt8} {now : ℕ} {k : Parser}
    {r : Flow × List UInt8 × Parser} (h : Progress ptr now k r) (hk : k.RangesInside)
    (hsmall : k.state = .readChunkBody → k.analysisIndex < now → k.nowChunkSize < 2 ^ 64 - 2) :
    r.2.2.RangesInside := by
  obtain ⟨hinside, hdisjoint⟩ := hk
  have hmono : ∀ index, k.analysisIndex ≤ index → ∀ c ∈ k.chunks, c.1 + c.2 ≤ index :=
    fun index hle c hc => (hinside c hc).trans hle
  cases h with
  | ended => exact ⟨hinside, hdisjoint⟩
  | wait => exact ⟨hinside, hdisjoint⟩
  | fail => exact ⟨hinside, hdisjoint⟩
  | start => exact ⟨hinside, hdisjoint⟩
  | body => exact ranges_concat hinside hdisjoint le_rfl
  | chunk hbegun hstate =>
    have hsize := hsmall hstate hbegun
    apply ranges_concat hinside hdisjoint
    simp only
    rw [Nat.mod_eq_of_lt (by omega)]
    omega
  | header _ _ k' _ _ hindex hchunks =>
    unfold Parser.RangesInside
    rw [hindex, hchunks]
    exact ⟨hmono _ (Nat.le_succ _), hdisjoint⟩
  | _ => exact ⟨hmono _ (Nat.le_succ _), hdisjoint⟩

/-- A chunk that announces one of the two largest sizes is complete at once. -/
theorem pass_huge_chunk {ptr : List UInt8} {now : ℕ} {k : Parser}
    (hstate : k.state = .readChunkBody) (hunread : k.analysisIndex < now)
    (hlt : k.nowChunkSize < 2 ^ 64) (hhuge : 2 ^ 64 - 2 ≤ k.nowChunkSize) :
    (k.analysisIndex, k.nowChunkSize) ∈ (pass ptr now k).2.2.chunks := by
  have hwrap : (k.nowChunkSize + 2) % 2 ^ 64 ≤ 1 := by omega
  have hover : ¬(k.state = .done ∨ k.state = .bad) := by simp [hstate]
  unfold pass
  rw [if_neg hover, if_neg (by omega), hstate]
  simp only [readChunkBody]
  rw [if_pos (by omega)]
  simp

/-- A pass keeps the ranges inside exactly when it meets the condition. -/
theorem rangesInside_pass (hinv : ContextInv ctx) (hranges : RangesInside ctx) :
    RangesInside ctx.pass.2 ↔ SmallChunk ctx .pass ctx.pass.2 := by
  constructor
  · intro hpass hstate hunread
    by_contra hhuge
    have hmem : (ctx.analysisIndex, ctx.nowChunkSize) ∈ ctx.pass.2.chunks :=
      pass_huge_chunk hstate hunread hinv.size_lt (by omega)
    -- the range would end beyond any buffer
    have hinside := hpass.inside _ hmem
    have hindex := hpass.index_le
    have hnow := hinv.wf.pass.now_le
    have hlength := ctx.pass.2.buffer.length_le
    have hdata := ctx.pass.2.buffer.data_lt
    simp only at hinside
    omega
  · intro hsmall
    have hparser := (pass_spec ctx).1.rangesInside ⟨hranges.inside, hranges.disjoint⟩
      hsmall
    exact .of_inside hinv.wf.pass hparser.1 hparser.2

/-- A step keeps the ranges inside exactly when it meets the condition. -/
theorem rangesInside_step {maxBufferSize : ℕ} {e : ContextEvent} (hinv : ContextInv ctx)
    (hranges : RangesInside ctx) (hstep : (contextSystem maxBufferSize).step ctx e = some ctx') :
    RangesInside ctx' ↔ SmallChunk ctx e ctx' := by
  have hinv' := contextInv_step hinv hstep
  have hempty : ∀ c : ChttpContext, c.Wf → c.toParser = {} → RangesInside c := by
    intro c hwf hparser
    apply RangesInside.of_inside hwf
    · rw [hparser]
      intro d hd
      exact absurd hd (by simp)
    · rw [hparser]
      exact .nil
  cases e with
  | prepare garbage =>
    obtain ⟨⟨ctx₁, w⟩, hprepare, rfl⟩ := Option.map_eq_some_iff.mp hstep
    obtain ⟨hwf, -, -, hcase⟩ := prepareBuffer_spec hinv.wf hprepare
    refine iff_of_true ?_ trivial
    rcases hcase with ⟨-, hparser, -⟩ | ⟨-, hparser, -⟩
    · exact hempty _ hwf hparser
    · apply RangesInside.of_inside hwf
      · rw [hparser]
        exact hranges.inside
      · rw [hparser]
        exact hranges.disjoint
  | recv bytes =>
    obtain ⟨hfit, hstep⟩ := Option.ite_none_right_eq_some.mp hstep
    refine iff_of_true ?_ trivial
    have hparser : ctx'.toParser = ctx.toParser := by
      rw [← Option.some.inj hstep, recvPush_fill hfit]
      rfl
    apply RangesInside.of_inside hinv'.wf
    · rw [hparser]
      exact hranges.inside
    · rw [hparser]
      exact hranges.disjoint
  | pass =>
    rw [← Option.some.inj hstep]
    exact rangesInside_pass hinv hranges
  | next former =>
    obtain ⟨⟨ctx₁, former₁⟩, hreinit, rfl⟩ := Option.map_eq_some_iff.mp hstep
    obtain ⟨hwf, hparser, -⟩ := reinitForNext_parts hinv.wf hreinit
    exact iff_of_true (hempty _ hwf hparser) trivial
  | moved former =>
    obtain ⟨⟨ctx₁, former₁⟩, hreinit, rfl⟩ := Option.map_eq_some_iff.mp hstep
    obtain ⟨-, -, hwf, hchunks, hindex, -⟩ := reinitForNext_parts hinv.wf hreinit
    refine iff_of_true ?_ trivial
    apply RangesInside.of_inside hwf
    · rw [hchunks, hindex]
      exact hranges.inside
    · rw [hchunks]
      exact hranges.disjoint

end Steps

/-- **The ranges stay inside the received bytes** in exactly the runs in which no pass completes
a chunk that announces `2 ^ 64 - 2` bytes or more. -/
theorem ranges_inside_iff_small_chunks (maxBufferSize : ℕ) (es : List ContextEvent) :
    (contextSystem maxBufferSize).EachState RangesInside es ↔
      (contextSystem maxBufferSize).EachStep SmallChunk es := by
  apply Lib.Lts.eachState_iff_eachStep
  · refine .of_inside (.new maxBufferSize) (fun c hc => ?_) .nil
    exact absurd hc List.not_mem_nil
  · intro ctx e ctx' hreachable hranges hstep
    exact rangesInside_step (contextInv_of_reachable hreachable) hranges hstep

/-- A read of a context is a preparation and a reception. -/
theorem run_receive {maxBufferSize : ℕ} {e : List ContextEvent} {ctx ctx' : ChttpContext}
    (hwf : ctx.Wf) (hrun : (contextSystem maxBufferSize).run e = some ctx) {r : Read}
    (h : ctx.receive r = some ctx') :
    (contextSystem maxBufferSize).run (e ++ [.prepare r.garbage] ++ [.recv r.bytes]) =
      some (ctx'.recvPush r.bytes.length) := by
  unfold receive at h
  obtain ⟨⟨ctx₁, w⟩, hprepare, h⟩ := Option.bind_eq_some_iff.mp h
  obtain ⟨hfit, h⟩ := Option.ite_none_right_eq_some.mp h
  obtain ⟨hwf₁, -, hw, -⟩ := prepareBuffer_spec hwf hprepare
  have hnow := hwf₁.now_le
  have hroom : ctx₁.nowIndex + r.bytes.length ≤ ctx₁.buffer.getLength := by
    show ctx₁.nowIndex + r.bytes.length ≤ ctx₁.buffer.length
    omega
  have hfirst : (contextSystem maxBufferSize).step ctx (.prepare r.garbage) = some ctx₁ := by
    show (ctx.prepareBuffer r.garbage).map (·.1) = some ctx₁
    rw [hprepare]
    rfl
  apply Lib.Lts.run_concat_some (Lib.Lts.run_concat_some hrun hfirst)
  rw [← Option.some.inj h]
  exact if_pos hroom

/-- Passes of a context take steps of the analyser. -/
theorem run_passes {maxBufferSize : ℕ} {es : List ContextEvent} {ctx : ChttpContext}
    (h : ctx.Receiving) (hrun : (contextSystem maxBufferSize).run es = some ctx) (n : ℕ) :
    ∃ ctx', (contextSystem maxBufferSize).run (es ++ List.replicate n .pass) = some ctx' ∧
      ctx'.view = (analyser.exec n ctx.view).2 := by
  induction n generalizing es ctx with
  | zero => exact ⟨ctx, by rwa [List.replicate_zero, List.append_nil], rfl⟩
  | succ n ih =>
    have hstep := Lib.Lts.run_concat_some (e := .pass) hrun rfl
    obtain ⟨ctx', hrun', hview⟩ := ih h.pass hstep
    rw [List.append_assoc, List.singleton_append, ← List.replicate_succ] at hrun'
    refine ⟨ctx', hrun', ?_⟩
    rw [hview, view_pass h, Lib.Incremental.exec, analyser_step]
    cases hnext : analyserStep ctx.view with
    | none =>
      have hstuck : analyser.step ctx.view = none := Option.map_eq_none_iff.mpr hnext
      rw [Option.getD_none, Lib.Incremental.exec_of_stuck hstuck]
      rfl
    | some s' => rfl

/-- A chunk of `2 ^ 64 - 2` bytes is recorded as soon as one byte has come. -/
theorem range_outside_huge_chunk :
    ∃ ctx, (contextSystem 0x1000000).run ([.prepare fun _ => 0] ++ [.recv (lit
        "POST / HTTP/1.1\r\nTransfer-Encoding: chunked\r\n\r\nFFFFFFFFFFFFFFFE\r\n\r")] ++
        List.replicate 67 .pass) = some ctx ∧
      ctx.chunks = [(65, 2 ^ 64 - 2)] ∧ ctx.nowIndex = 66 ∧ ¬RangesInside ctx := by
  let r : Read := ⟨fun _ => 0,
    lit "POST / HTTP/1.1\r\nTransfer-Encoding: chunked\r\n\r\nFFFFFFFFFFFFFFFE\r\n\r"⟩
  have hnew := Receiving.new 0x1000000
  obtain ⟨ctx₁, hreceive, -⟩ :=
    (Roomy.new 0x1000000 (r.bytes.length + 0) (by decide) (by decide)).receive hnew
      (.new 0x1000000) (by decide)
  obtain ⟨hreceiving, -, hview⟩ := receiving_receive hnew (.new 0x1000000) hreceive
  have hrun := run_receive (e := []) hnew.wf (Lib.Lts.run_nil ..) hreceive
  obtain ⟨ctx, hpasses, hlast⟩ := run_passes hreceiving hrun 67
  rw [hview] at hlast
  have hchunks : ctx.view.2.chunks = [(65, 2 ^ 64 - 2)] := by
    rw [hlast]
    decide
  have hindex : ctx.view.2.analysisIndex = 65 := by
    rw [hlast]
    decide
  have hinv := contextInv_of_reachable (Lib.Lts.reachable_of_run hpasses)
  have hnow : ctx.nowIndex = 66 := by
    rw [← hinv.wf.length_received]
    have hlength : ctx.view.1.length = 66 := by
      rw [hlast]
      decide
    exact hlength
  refine ⟨ctx, hpasses, hchunks, hnow, fun hranges => ?_⟩
  have hinside := hranges.inside (65, 2 ^ 64 - 2)
    (by rw [show ctx.chunks = _ from hchunks]; exact List.mem_singleton_self _)
  rw [show ctx.analysisIndex = 65 from hindex] at hinside
  exact absurd hinside (by decide)

end NetworkPool
