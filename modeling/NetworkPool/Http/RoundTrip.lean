import NetworkPool.Http.DecodeBody
import NetworkPool.Http.Ranges

/-!
# Decoding undoes writing

A message that is written, followed by any bytes and received in any reads, is analysed to its
end and no further; the accessors of the context then give back its parts.
-/

namespace NetworkPool

open Lib (Incremental)
open Lib.CString
open ChttpContext

/-! ## Bodies -/

namespace Body

/-- How far behind the header the trailer begins. -/
def trailerStart : Body → ℕ
  | sized .. => 0
  | chunked _ chunks last .. => (wireChunks crlf chunks).length + last.line.length + 2

/-- Where the content of a body that begins at `o` stands. -/
def spans (o : ℕ) : Body → List (ℕ × ℕ)
  | sized _ content .. => if content = [] then [] else [(o, content.length)]
  | chunked _ chunks .. => chunkSpans o chunks

end Body

section BodyRuns

variable {p q : List UInt8} {k : Parser}

/-- What the analysis makes of a body. -/
structure BodyRead (b : Body) (p : List UInt8) (k k' : Parser) : Prop where
  state_eq : k'.state = .done
  index_eq : k'.analysisIndex = p.length + (b.wire crlf).length
  lines_eq : k'.lines =
    k.lines ++ spans (p.length + b.trailerStart) (b.trailer.map Field.line)
  chunks_eq : k'.chunks = b.spans p.length

theorem pass_body {content : List UInt8} (hstate : k.state = .readBody)
    (hindex : k.analysisIndex = p.length) (hlength : k.contentLength = content.length)
    (hne : content ≠ []) :
    pass (p ++ (content ++ q)) (p ++ (content ++ q)).length k =
      (.ret true, p ++ (content ++ q),
        { k with
          chunks := k.chunks ++ [(p.length, content.length)]
          analysisIndex := p.length + content.length
          state := .done }) := by
  have hpos := List.length_pos_of_ne_nil hne
  have hnow : (p ++ (content ++ q)).length = p.length + content.length + q.length := by
    simp only [List.length_append]
    omega
  rw [pass, if_neg (by simp [hstate]), if_neg (by omega), hstate]
  simp only [readBody, hindex, hlength, hnow]
  rw [if_pos (by omega)]

/-- The trailer and the line with the size of the last chunk. -/
theorem runs_trailer (l : SizeLine) (hlast : l.size = 0) (hk : k.AtSize)
    (hindex : k.analysisIndex = p.length) (trailer : List Field) :
    ∃ k', analyser.Runs
        (p ++ (l.line ++ crlf ++ (wire crlf (trailer.map Field.line) ++ crlf) ++ q), k) []
        (p ++ (l.line ++ nuls ++ (wire nuls (trailer.map Field.line) ++ nuls) ++ q), k') ∧
      k'.state = .done ∧
      k'.analysisIndex = p.length + l.line.length + 2 +
        (wire crlf (trailer.map Field.line)).length + 2 ∧
      k'.lines = k.lines ++ spans (p.length + l.line.length + 2) (trailer.map Field.line) ∧
      k'.chunks = k.chunks := by
  have hsize := runs_last_size (q := wire crlf (trailer.map Field.line) ++ (crlf ++ q)) l hlast
    hk hindex
  have hlength : (p ++ (l.line ++ nuls)).length = p.length + l.line.length + 2 := by
    simp only [List.length_append, length_nuls]
    omega
  have hlines := runs_lines (p := p ++ (l.line ++ nuls)) (q := crlf ++ q) (s := k.lines)
    (k := { k with
      analysisIndex := p.length + l.line.length + 2, state := .readChunkFooter
      bChunkSizeStart := true, bChunkSizeDone := true
      lines := k.lines ++ [(p.length + l.line.length + 2, npos)] })
    (.inr rfl) hlength.symm (by rw [hlength]) (trailer.map Field.line)
    (by
      intro line hline
      obtain ⟨f, -, rfl⟩ := List.mem_map.mp hline
      exact ⟨f.line_ne, f.line_notMem⟩)
  rw [hlength] at hlines
  have hlength' : (p ++ (l.line ++ nuls) ++ wire nuls (trailer.map Field.line)).length =
      p.length + l.line.length + 2 + (wire crlf (trailer.map Field.line)).length := by
    rw [List.length_append, hlength, length_wire]
  have hend := runs_footer_end (p := p ++ (l.line ++ nuls) ++ wire nuls (trailer.map Field.line))
    (q := q)
    (s := k.lines ++ spans (p.length + l.line.length + 2) (trailer.map Field.line))
    (k := { k with
      state := .readChunkFooter, bChunkSizeStart := true, bChunkSizeDone := true
      analysisIndex := p.length + l.line.length + 2 +
        (wire crlf (trailer.map Field.line)).length
      lines := k.lines ++ spans (p.length + l.line.length + 2) (trailer.map Field.line) ++
        [(p.length + l.line.length + 2 + (wire crlf (trailer.map Field.line)).length, npos)] })
    rfl hlength'.symm (by rw [hlength'])
  simp only [List.append_assoc] at hsize hlines hend ⊢
  refine ⟨_, (hsize.trans hlines).trans hend, rfl, ?_, rfl, rfl⟩
  simp only [List.length_append, length_nuls, length_wire]
  omega

/-- **A body is analysed** to its end. -/
theorem runs_body (b : Body) {keepAlive : Bool} (hindex : k.analysisIndex = p.length)
    (hchunked : k.bChunked = false) (hchunks : k.chunks = [])
    (hlt : (p ++ (b.wire crlf ++ q)).length < 2 ^ 63)
    (hdecode : decoderHeader (p ++ (b.wire crlf ++ q)) k.lines k =
      b.framed { k with bKeepAlive := keepAlive }) :
    ∃ k', analyser.Runs
        (p ++ (b.wire crlf ++ q),
          decoderHeaderAndUpdateState (p ++ (b.wire crlf ++ q)) k) []
        (p ++ (b.wire nuls ++ q), k') ∧ BodyRead b p k k' := by
  rw [decoderHeaderAndUpdateState, hdecode]
  cases b with
  | sized f content hname hdigits hvalue hsmall =>
    have hwire : ∀ eol, Body.wire eol (.sized f content hname hdigits hvalue hsmall) = content :=
      fun _ => rfl
    simp only [Body.framed, hchunked, Bool.false_eq_true, if_false, hwire]
    by_cases hne : content = []
    · subst hne
      rw [if_neg (by simp)]
      refine ⟨_, .refl _, rfl, ?_, ?_, hchunks⟩
      · exact hindex
      · exact (List.append_nil _).symm
    · have hpos := List.length_pos_of_ne_nil hne
      rw [if_pos hpos]
      have hpass := pass_body (p := p) (q := q)
        (k := { k with
          bKeepAlive := keepAlive, bChunked := false, contentLength := content.length
          state := .readBody })
        rfl hindex rfl hne
      refine ⟨_, runs_done hpass rfl (by simp), rfl, rfl, ?_, ?_⟩
      · exact (List.append_nil _).symm
      · simp only [hchunks, List.nil_append, Body.spans, if_neg hne]
  | chunked f chunks last trailer hname hvalue hlast =>
    simp only [Body.framed, if_true]
    have hwire : ∀ eol, p ++ (Body.wire eol (.chunked f chunks last trailer hname hvalue hlast) ++
        q) = p ++ (wireChunks eol chunks ++ (last.line ++ eol ++
          (wire eol (trailer.map Field.line) ++ eol) ++ q)) := by
      intro eol
      simp [Body.wire]
    have hsmall : ∀ c ∈ chunks, c.content.length < 2 ^ 63 := by
      intro c hc
      have hsub : c.content.length ≤ (wireChunks crlf chunks).length := by
        obtain ⟨before, after, hsplit⟩ := List.append_of_mem hc
        rw [hsplit, wireChunks, List.flatMap_append, List.flatMap_cons]
        simp only [List.length_append]
        omega
      rw [hwire] at hlt
      simp only [List.length_append] at hlt
      omega
    have hfirst := runs_chunks (p := p) (q := last.line ++ crlf ++
        (wire crlf (trailer.map Field.line) ++ crlf) ++ q)
      (k := { k with
        bKeepAlive := keepAlive, bChunked := true, state := .readChunkHeader, nowChunkSize := 0
        bChunkSizeStart := false, bChunkSizeDone := false })
      ⟨rfl, rfl, rfl, rfl⟩ hindex hsmall
    have hcount : (p ++ wireChunks nuls chunks).length =
        p.length + (wireChunks crlf chunks).length := by
      have hsame : (wireChunks nuls chunks).length = (wireChunks crlf chunks).length := by
        simp only [wireChunks, List.length_flatMap, List.length_append, length_nuls, length_crlf]
      rw [List.length_append, hsame]
    obtain ⟨k', hrest, hstate', hindex', hlines', hchunks'⟩ :=
      runs_trailer (p := p ++ wireChunks nuls chunks) (q := q)
        (k := { k with
          bKeepAlive := keepAlive, bChunked := true, state := .readChunkHeader, nowChunkSize := 0
          bChunkSizeStart := false, bChunkSizeDone := false
          analysisIndex := p.length + (wireChunks crlf chunks).length
          chunks := k.chunks ++ chunkSpans p.length chunks })
        last hlast ⟨rfl, rfl, rfl, rfl⟩ hcount.symm trailer
    rw [hcount] at hindex' hlines'
    rw [hwire crlf, hwire nuls]
    rw [List.append_assoc] at hrest
    rw [List.append_assoc p] at hrest
    refine ⟨k', hfirst.trans hrest, hstate', ?_, ?_, ?_⟩
    · rw [hindex']
      simp only [Body.wire, List.length_append, length_crlf]
      omega
    · rw [hlines', Body.trailerStart, Body.trailer]
      simp only [Nat.add_assoc]
    · rw [hchunks', hchunks]
      rfl

end BodyRuns

/-! ## Messages -/

/-- What the analysis makes of a message. -/
structure MessageRead (m : Message) (k : Parser) : Prop where
  state_eq : k.state = .done
  index_eq : k.analysisIndex = m.bytes.length
  lines_eq : k.lines = spans 0 m.headerLines ++
    spans ((wire nuls m.headerLines).length + 2 + m.body.trailerStart)
      (m.body.trailer.map Field.line)
  chunks_eq : k.chunks = m.body.spans ((wire nuls m.headerLines).length + 2)

theorem wire_message (m : Message) (eol : List UInt8) :
    m.wire eol = wire eol m.headerLines ++ eol ++ m.body.wire eol := rfl

theorem headerLines_ok (m : Message) :
    ∀ line ∈ m.headerLines, line ≠ [] ∧ 10 ∉ line := by
  intro line hline
  rcases List.mem_cons.mp hline with rfl | hfield
  · have hlf : (10 : UInt8) ∉ m.first.first ++ m.first.second ++ m.first.third :=
      m.first.plain.notMem.2
    exact ⟨m.first.line_ne, m.first.line_notMem hlf (by decide)⟩
  · obtain ⟨f, -, rfl⟩ := List.mem_map.mp hfield
    exact ⟨f.line_ne, f.line_notMem⟩

/-- **A message is analysed** to its end. -/
theorem runs_message (m : Message) (q : List UInt8)
    (hlt : (m.bytes ++ q).length < 2 ^ 63) :
    ∃ k, analyser.Runs (m.bytes ++ q, {}) [] (m.wire nuls ++ q, k) ∧ MessageRead m k := by
  have hbytes : m.bytes ++ q = wire crlf m.headerLines ++ (crlf ++ (m.body.wire crlf ++ q)) := by
    simp [Message.bytes, wire_message]
  have hnul : m.wire nuls ++ q =
      wire nuls m.headerLines ++ (nuls ++ (m.body.wire nuls ++ q)) := by
    simp [wire_message]
  rw [hbytes] at hlt ⊢
  rw [hnul]
  -- the state in which the analysis begins
  have hstart : analyser.Runs
      (wire crlf m.headerLines ++ (crlf ++ (m.body.wire crlf ++ q)), {}) []
      (wire crlf m.headerLines ++ (crlf ++ (m.body.wire crlf ++ q)),
        { state := .readHeader, lines := [(0, npos)] }) := by
    apply runs_again
    obtain ⟨hne, hlf⟩ := headerLines_ok m m.first.line List.mem_cons_self
    obtain ⟨b, line, hline⟩ := List.exists_cons_of_ne_nil hne
    have hb : b ≠ 10 := by
      intro heq
      rw [hline, heq] at hlf
      exact hlf List.mem_cons_self
    rw [Message.headerLines, wire_cons, hline]
    simp [pass, startLine, hb]
  -- the header
  have hlines := runs_lines (p := []) (q := crlf ++ (m.body.wire crlf ++ q)) (s := [])
    (k := { state := .readHeader, lines := [(0, npos)] }) (.inl rfl) rfl rfl _ (headerLines_ok m)
  have hend := runs_header_end (p := wire nuls m.headerLines) (q := m.body.wire crlf ++ q)
    (s := spans 0 m.headerLines)
    (k := { state := .readHeader
            analysisIndex := (wire nuls m.headerLines).length
            lines := spans 0 m.headerLines ++ [((wire nuls m.headerLines).length, npos)] })
    rfl rfl rfl
  simp only [List.nil_append, List.length_nil, Nat.zero_add] at hlines
  rw [length_wire] at hlines
  -- its decoding
  have hcount : (wire nuls m.headerLines ++ (nuls ++ (m.body.wire crlf ++ q))).length <
      2 ^ 63 := by
    have hwire := length_wire m.headerLines
    simp only [List.length_append, length_nuls, length_crlf] at hlt ⊢
    omega
  obtain ⟨keepAlive, hdecode⟩ := decoderHeader_message m (nuls ++ (m.body.wire crlf ++ q))
    (k := { state := .readHeader
            headerSize := (wire nuls m.headerLines).length + 2
            analysisIndex := (wire nuls m.headerLines).length + 2
            lines := spans 0 m.headerLines })
    (by unfold npos; omega) (by simp only; omega)
  -- the body
  have hheader : (wire nuls m.headerLines ++ nuls).length =
      (wire nuls m.headerLines).length + 2 := by
    rw [List.length_append, length_nuls]
  rw [← List.append_assoc] at hdecode
  obtain ⟨k, hbody, hread⟩ := runs_body (p := wire nuls m.headerLines ++ nuls) (q := q)
    (k := { state := .readHeader
            headerSize := (wire nuls m.headerLines).length + 2
            analysisIndex := (wire nuls m.headerLines).length + 2
            lines := spans 0 m.headerLines })
    m.body hheader.symm rfl rfl
    (by rw [List.append_assoc]; exact hcount) hdecode
  rw [List.append_assoc, List.append_assoc] at hbody
  refine ⟨k, ((hstart.trans hlines).trans hend).trans hbody, hread.state_eq, ?_, ?_, ?_⟩
  · rw [hread.index_eq, Message.bytes, wire_message]
    simp only [List.length_append, length_nuls, length_crlf, length_wire]
  · rw [hread.lines_eq, hheader]
  · rw [hread.chunks_eq, hheader]

/-! ## The accessors -/

section Accessors

variable {ptr p q : List UInt8}

/-- The parameters on the lines of fields. -/
theorem filterMap_parameter (ptr : List UInt8) (fields : List Field)
    (hptr : ptr = p ++ (wire nuls (fields.map Field.line) ++ q)) (hlt : ptr.length < npos) :
    (spans p.length (fields.map Field.line)).filterMap (parameter ptr) =
      fields.map fun f => (f.name, f.value) := by
  induction fields generalizing p with
  | nil => rfl
  | cons f fields ih =>
    rw [List.map_cons, wire_cons] at hptr
    have hline : ptr = p ++ (f.line ++ 0 ::
        (0 :: (wire nuls (fields.map Field.line) ++ q))) := by
      rw [hptr]
      simp [nuls]
    have hlength : f.line.length ≠ npos := by
      rw [hline] at hlt
      simp only [List.length_append] at hlt
      omega
    have hfirst : parameter ptr (p.length, f.line.length) = some (f.name, f.value) := by
      rw [hline]
      exact f.parameter_line _ hlength
    have hrest := ih (p := p ++ (f.line ++ nuls)) (by rw [hptr]; simp)
    have hnext : (p ++ (f.line ++ nuls)).length = p.length + f.line.length + 2 := by
      simp only [List.length_append, length_nuls]
      omega
    rw [hnext] at hrest
    rw [List.map_cons, spans, List.filterMap_cons, hfirst, hrest, List.map_cons]

/-- The contents of chunks where they stand. -/
theorem flatMap_chunkSpans {chunks : List Chunk}
    (hptr : ptr = p ++ (wireChunks nuls chunks ++ q)) :
    ((chunkSpans p.length chunks).flatMap fun c => (ptr.drop c.1).take c.2) =
      chunks.flatMap Chunk.content := by
  induction chunks generalizing p with
  | nil => rfl
  | cons c chunks ih =>
    rw [wireChunks_cons] at hptr
    have hcontent : ptr = (p ++ (c.line ++ nuls)) ++
        (c.content ++ (crlf ++ (wireChunks nuls chunks ++ q))) := by
      rw [hptr]
      simp
    have hstart : (p ++ (c.line ++ nuls)).length = p.length + c.line.length + 2 := by
      simp only [List.length_append, length_nuls]
      omega
    have hfirst : (ptr.drop (p.length + c.line.length + 2)).take c.content.length =
        c.content := by
      rw [hcontent, ← hstart, List.drop_left, List.take_left]
    have hrest := ih (p := p ++ (c.line ++ nuls) ++ (c.content ++ crlf))
      (by rw [hcontent]; simp)
    have hnext : (p ++ (c.line ++ nuls) ++ (c.content ++ crlf)).length =
        p.length + c.line.length + 2 + c.content.length + 2 := by
      rw [List.length_append, hstart]
      simp only [List.length_append, length_crlf]
      omega
    rw [hnext] at hrest
    rw [chunkSpans, List.flatMap_cons, hrest, List.flatMap_cons]
    simp only [hfirst]

theorem sum_chunkSpans (o : ℕ) (chunks : List Chunk) :
    ((chunkSpans o chunks).map Prod.snd).sum = (chunks.flatMap Chunk.content).length := by
  induction chunks generalizing o with
  | nil => rfl
  | cons c chunks ih =>
    rw [chunkSpans, List.map_cons, List.sum_cons, ih, List.flatMap_cons, List.length_append]

theorem length_contents_le (chunks : List Chunk) :
    (chunks.flatMap Chunk.content).length ≤ (wireChunks nuls chunks).length := by
  induction chunks with
  | nil => exact le_rfl
  | cons c chunks ih =>
    rw [wireChunks_cons]
    simp only [List.flatMap_cons, List.length_append]
    omega

/-- The content of a body where it stands. -/
theorem flatMap_bodySpans (ptr : List UInt8) (b : Body) (hptr : ptr = p ++ (b.wire nuls ++ q)) :
    (b.spans p.length).flatMap (fun c => (ptr.drop c.1).take c.2) = b.content ∧
      ((b.spans p.length).map Prod.snd).sum = b.content.length := by
  cases b with
  | sized f content hname hdigits hvalue hlt =>
    have hcontent : ptr = p ++ (content ++ q) := hptr
    by_cases hne : content = []
    · subst hne
      exact ⟨rfl, rfl⟩
    · simp only [Body.spans, if_neg hne, Body.content]
      rw [hcontent]
      simp
  | chunked f chunks last trailer hname hvalue hlast =>
    refine ⟨?_, sum_chunkSpans ..⟩
    apply flatMap_chunkSpans (q := last.line ++ nuls ++
      (wire nuls (trailer.map Field.line) ++ nuls) ++ q)
    rw [hptr]
    simp [Body.wire]

end Accessors

/-- A context that has read a message. -/
structure Decoded (m : Message) (ctx : ChttpContext) : Prop where
  state_eq : ctx.state = .done
  consumed : ctx.analysisIndex = m.bytes.length
  info : ctx.getInfo = .ok (some (m.first.first, m.first.second, m.first.third))
  parameters : ctx.getParameter 0 = some (m.parameters : Multiset (List UInt8 × List UInt8))
  content : ctx.getContent = some (m.body.content.length, m.body.content)

/-- The accessors give back the parts of the message in the buffer. -/
theorem decoded_of_read {m : Message} {ctx : ChttpContext} (hread : MessageRead m ctx.toParser)
    {q : List UInt8} (hdata : ctx.buffer.data = m.wire nuls ++ q) : Decoded m ctx := by
  have hlt := ctx.buffer.data_lt
  have hdone : ctx.state = .done := hread.state_eq
  have hlines : ctx.lines = _ := hread.lines_eq
  have hchunks : ctx.chunks = _ := hread.chunks_eq
  have hheader : ctx.buffer.data = wire nuls m.headerLines ++
      (nuls ++ (m.body.wire nuls ++ q)) := by
    rw [hdata, wire_message]
    simp
  have hfirst : ctx.buffer.data = m.first.line ++ 0 :: (0 ::
      (wire nuls (m.headers.map Field.line) ++ (nuls ++ (m.body.wire nuls ++ q)))) := by
    rw [hheader, Message.headerLines, wire_cons]
    simp [nuls]
  refine ⟨hdone, hread.index_eq, ?_, ?_, ?_⟩
  · -- the first line, up to its terminator
    obtain ⟨hspace₁, hspace₂, -⟩ := m.first.parts_notMem m.first.space_notMem
    obtain ⟨hzero₁, hzero₂, hzero₃⟩ := m.first.parts_notMem m.first.plain.notMem.1
    have hline : ∀ rest, m.first.line ++ 0 :: rest = m.first.first ++ 32 ::
        (m.first.second ++ 32 :: (m.first.third ++ 0 :: rest)) := by
      intro rest
      simp [FirstLine.line]
    have hdrop : ∀ (a : List UInt8) b s, (a ++ b :: s).drop (a.length + 1) = s := by
      intro a b s
      rw [← List.singleton_append, ← List.append_assoc]
      exact List.drop_left' (by simp)
    have hthird : ∀ (a b s : List UInt8), (a ++ 32 :: (b ++ 32 :: s)).drop
        (a.length + 1 + b.length + 1) = s := by
      intro a b s
      rw [Nat.add_assoc, ← List.drop_drop, hdrop, hdrop]
    unfold getInfo
    rw [if_neg (not_not.mpr hdone), hlines, Message.headerLines, spans, List.cons_append]
    simp only [Cbuffer.getData]
    rw [List.drop_zero, hfirst, hline, strchr_known hzero₁ hspace₁]
    simp only
    rw [hdrop, strchr_known hzero₂ hspace₂]
    simp only
    rw [hthird, text_known hzero₃, List.take_left, List.take_left]
  · have hheaders : (spans 0 m.headerLines).filterMap (parameter ctx.buffer.data) =
        m.headers.map fun f => (f.name, f.value) := by
      have hnone : parameter ctx.buffer.data (0, m.first.line.length) = none := by
        unfold parameter
        split
        · rfl
        · simp only [List.drop_zero]
          rw [hfirst, splitLine_first]
          rfl
      have hfields := filterMap_parameter ctx.buffer.data m.headers
        (p := m.first.line ++ nuls) (q := nuls ++ (m.body.wire nuls ++ q))
        (by rw [hfirst]; simp [nuls]) (by unfold npos; omega)
      rw [List.length_append, length_nuls] at hfields
      rw [Message.headerLines, spans, List.filterMap_cons, hnone]
      simp only [Nat.zero_add, hfields]
    have htrailer : (spans ((wire nuls m.headerLines).length + 2 + m.body.trailerStart)
        (m.body.trailer.map Field.line)).filterMap (parameter ctx.buffer.data) =
          m.body.trailer.map fun f => (f.name, f.value) := by
      cases hbody : m.body with
      | sized => rfl
      | chunked f chunks last trailer hname hvalue hlast =>
        rw [hbody] at hheader
        have hstart : (wire nuls m.headerLines ++ nuls ++ wireChunks nuls chunks ++ last.line ++
            nuls).length = (wire nuls m.headerLines).length + 2 +
              ((wireChunks crlf chunks).length + last.line.length + 2) := by
          have hsame : (wireChunks nuls chunks).length = (wireChunks crlf chunks).length := by
            simp only [wireChunks, List.length_flatMap, List.length_append, length_nuls,
              length_crlf]
          simp only [List.length_append, length_nuls, hsame]
          omega
        have hfields := filterMap_parameter ctx.buffer.data trailer
          (p := wire nuls m.headerLines ++ nuls ++ wireChunks nuls chunks ++ last.line ++ nuls)
          (q := nuls ++ q) (by rw [hheader]; simp [Body.wire]) (by unfold npos; omega)
        rw [hstart] at hfields
        exact hfields
    unfold getParameter
    rw [if_neg (not_not.mpr hdone), hlines, List.filterMap_append, Cbuffer.getData, hheaders,
      htrailer, Multiset.zero_add, Message.parameters, List.map_append]
  · have hstart : (wire nuls m.headerLines ++ nuls).length =
        (wire nuls m.headerLines).length + 2 := by
      rw [List.length_append, length_nuls]
    obtain ⟨hslices, hsum⟩ := flatMap_bodySpans ctx.buffer.data m.body
      (p := wire nuls m.headerLines ++ nuls) (q := q)
      (by rw [hheader]; simp)
    rw [hstart, ← hchunks] at hslices hsum
    have hcontent : m.body.content.length < 2 ^ 64 := by
      have hsub : m.body.content.length ≤ (m.body.wire nuls).length := by
        cases m.body with
        | sized => exact le_rfl
        | chunked f chunks last trailer hname hvalue hlast =>
          have hchunk := length_contents_le chunks
          simp only [Body.content, Body.wire, List.length_append]
          omega
      rw [hheader] at hlt
      simp only [List.length_append] at hlt
      omega
    have htotal := foldl_mod_eq_sum ctx.chunks 0 (by omega)
    rw [Nat.zero_add, hsum] at htotal
    unfold getContent
    rw [if_neg (not_not.mpr hdone), htotal, Cbuffer.getData, hslices]

/-- **Decoding undoes writing.** A message that is followed by any bytes and received in any
reads that fit is analysed to its end, and the accessors give back its parts. -/
theorem decode_written_message (maxBufferSize : ℕ) (m : Message) (rest : List UInt8)
    {reads : List Read} {ctx : ChttpContext}
    (hfeed : (ChttpContext.new maxBufferSize).feed reads = some ctx)
    (hstream : stream reads = m.bytes ++ rest) : Decoded m ctx := by
  have hhalts := halts_of_feed hfeed
  have hreceived := length_received_of_feed hfeed
  have hlt : (m.bytes ++ rest).length < 2 ^ 63 := by
    have hle : ctx.received.length ≤ ctx.buffer.data.length := List.length_take_le' ..
    have hdata := ctx.buffer.data_lt
    rw [← hstream, ← hreceived]
    omega
  obtain ⟨k, hruns, hread⟩ := runs_message m rest hlt
  have hstuck : analyser.step (m.wire nuls ++ rest, k) = none := by
    rw [analyser_step, analyserStep_over (.inl hread.state_eq)]
    rfl
  rw [hstream] at hhalts
  have hview := (hhalts.unique ⟨hruns, hstuck⟩).2
  rw [view, Prod.mk.injEq] at hview
  rw [← hview.2] at hread
  apply decoded_of_read hread (q := rest ++ ctx.buffer.data.drop ctx.nowIndex)
  rw [← List.append_assoc, ← hview.1]
  exact (List.take_append_drop ..).symm

/-- A request in two chunks with an extension and a trailer field, received in two reads with
two more bytes behind it. -/
theorem decode_written_message_chunked :
    ∃ (m : Message) (ctx : ChttpContext),
      m.bytes = lit ("POST /a HTTP/1.1\r\nHost: b\r\nTransfer-Encoding: chunked\r\n\r\n" ++
        "05;x=y\r\nhello\r\n1\r\n!\r\n0\r\nSum:c\r\n\r\n") ∧
      m.body.content = lit "hello!" ∧
      (ChttpContext.new 0x1000000).feed [⟨fun _ => 0, m.bytes.take 70⟩,
        ⟨fun _ => 7, m.bytes.drop 70 ++ [13, 10]⟩] = some ctx ∧ Decoded m ctx := by
  let host : Field := ⟨lit "Host", lit "b", [], [], [32], [], by decide, by decide, by decide,
    by decide, by decide, by decide⟩
  let encoding : Field := ⟨lit "Transfer-Encoding", lit "chunked", [], [], [32], [], by decide,
    by decide, by decide, by decide, by decide, by decide⟩
  let sum : Field := ⟨lit "Sum", lit "c", [], [], [], [], by decide, by decide, by decide,
    by decide, by decide, by decide⟩
  let hello : Chunk := ⟨⟨lit "05", lit ";x=y", by decide, by decide, by decide, by decide⟩,
    lit "hello", by decide, by decide⟩
  let mark : Chunk := ⟨⟨lit "1", [], by decide, by decide, by decide, by decide⟩,
    lit "!", by decide, by decide⟩
  let last : SizeLine := ⟨lit "0", [], by decide, by decide, by decide, by decide⟩
  let m : Message :=
    { first := ⟨lit "POST", lit "/a", lit "HTTP/1.1", by decide, by decide, by decide⟩
      before := [host]
      body := .chunked encoding [hello, mark] last [sum] (by decide) (by decide) (by decide)
      after := []
      unframed := by decide }
  obtain ⟨ctx, hfeed⟩ := exists_feed
    [⟨fun _ => 0, m.bytes.take 70⟩, ⟨fun _ => 7, m.bytes.drop 70 ++ [13, 10]⟩]
    (.new 0x1000000) (.new 0x1000000)
    (.new _ _ (by decide) (by decide)) (by decide)
  exact ⟨m, ctx, by decide, by decide, hfeed,
    decode_written_message 0x1000000 m [13, 10] hfeed (by decide)⟩

end NetworkPool
