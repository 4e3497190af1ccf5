import NetworkPool.Http.DecodeHeader

/-!
# Decoding bodies

The analyser takes a body apart: in one piece when its length was given, else chunk by chunk, by
induction over the chunks, and then through the trailer.
-/

namespace NetworkPool

open Lib (Incremental)
open Lib.CString

/-! ## The line with a size -/

/-- The characters of a size line. -/
def chunkSizeChars (text : List UInt8) (k : Parser) : Parser :=
  text.foldl (fun k ch => chunkSizeChar ch k) k

section SizeChars

variable {k : Parser} {b : UInt8}

theorem chunkSizeChars_cons (b : UInt8) (text : List UInt8) (k : Parser) :
    chunkSizeChars (b :: text) k = chunkSizeChars text (chunkSizeChar b k) := rfl

theorem chunkSizeChars_append (text text' : List UInt8) (k : Parser) :
    chunkSizeChars (text ++ text') k = chunkSizeChars text' (chunkSizeChars text k) :=
  List.foldl_append

/-- A character does not look where the analysis is. -/
theorem chunkSizeChar_index (ch : UInt8) (k : Parser) (index : ℕ) :
    chunkSizeChar ch { k with analysisIndex := index } =
      { chunkSizeChar ch k with analysisIndex := index } := by
  unfold chunkSizeChar
  simp only
  split
  · rfl
  · split
    · rfl
    · split
      · rfl
      · split
        · rfl
        · split
          · rfl
          · rfl

theorem chunkSizeChar_hex {v : ℕ} (hb : hexDigit b = some v) (hdone : k.bChunkSizeDone = false) :
    chunkSizeChar b k =
      { k with nowChunkSize := (k.nowChunkSize * 16 + v) % 2 ^ 64, bChunkSizeStart := true } := by
  unfold hexDigit at hb
  unfold chunkSizeChar
  rw [if_neg (by simp [hdone])]
  split at hb
  · next hdigit => rw [if_pos hdigit, Option.some.inj hb]
  · next hdigit =>
    split at hb
    · next hlower => rw [if_neg hdigit, if_pos hlower, Option.some.inj hb]
    · next hlower =>
      split at hb
      · next hupper => rw [if_neg hdigit, if_neg hlower, if_pos hupper, Option.some.inj hb]
      · exact absurd hb (by simp)

/-- Anything else ends the size, but for spaces in front of it. -/
theorem chunkSizeChar_other (hb : hexDigit b = none) (hdone : k.bChunkSizeDone = false) :
    chunkSizeChar b k =
      if k.bChunkSizeStart || !isspace b then { k with bChunkSizeDone := true } else k := by
  unfold hexDigit at hb
  unfold chunkSizeChar
  rw [if_neg (by simp [hdone])]
  split at hb
  · exact absurd hb (by simp)
  · next hdigit =>
    split at hb
    · exact absurd hb (by simp)
    · next hlower =>
      split at hb
      · exact absurd hb (by simp)
      · next hupper => rw [if_neg hdigit, if_neg hlower, if_neg hupper]

/-- After the digits anything ends the size. -/
theorem chunkSizeChar_end (hb : hexDigit b = none) (hstart : k.bChunkSizeStart = true) :
    chunkSizeChar b k = { k with bChunkSizeDone := true } := by
  cases hdone : k.bChunkSizeDone with
  | true =>
    rw [chunkSizeChar, if_pos hdone, ← hdone]
  | false => rw [chunkSizeChar_other hb hdone, hstart, Bool.true_or, if_pos rfl]

theorem chunkSizeChars_done (hdone : k.bChunkSizeDone = true) (text : List UInt8) :
    chunkSizeChars text k = k := by
  induction text with
  | nil => rfl
  | cons b text ih =>
    rw [chunkSizeChars_cons, chunkSizeChar, if_pos hdone]
    exact ih

/-- **Digits** add up to their value. -/
theorem chunkSizeChars_digits {digits : List UInt8} (hne : digits ≠ [])
    (hex : ∀ b ∈ digits, (hexDigit b).isSome = true) (hdone : k.bChunkSizeDone = false)
    (hlt : hexFold k.nowChunkSize digits < 2 ^ 64) :
    chunkSizeChars digits k =
      { k with nowChunkSize := hexFold k.nowChunkSize digits, bChunkSizeStart := true } := by
  induction digits generalizing k with
  | nil => exact absurd rfl hne
  | cons b digits ih =>
    obtain ⟨v, hv⟩ := Option.isSome_iff_exists.mp (hex b List.mem_cons_self)
    have hfold : hexFold k.nowChunkSize (b :: digits) =
        hexFold (k.nowChunkSize * 16 + v) digits := by
      rw [hexFold, List.foldl_cons, hv, Option.getD_some, hexFold]
    have hle := le_hexFold (k.nowChunkSize * 16 + v) digits
    rw [hfold] at hlt ⊢
    rw [chunkSizeChars_cons, chunkSizeChar_hex hv hdone, Nat.mod_eq_of_lt (by omega)]
    by_cases hrest : digits = []
    · subst hrest
      rfl
    · exact ih hrest (fun b' hb' => hex b' (List.mem_cons_of_mem b hb')) hdone hlt

/-- The line with a size leaves the size. -/
theorem chunkSizeChars_line (l : SizeLine) (hsize : k.nowChunkSize = 0)
    (hdone : k.bChunkSizeDone = false) (hlt : l.size < 2 ^ 64) :
    chunkSizeChars (l.line ++ [13]) k =
      { k with nowChunkSize := l.size, bChunkSizeStart := true, bChunkSizeDone := true } := by
  have hdigits := chunkSizeChars_digits l.digits_ne l.hex hdone
    (by rw [hsize]; exact hlt)
  rw [SizeLine.line, List.append_assoc, chunkSizeChars_append, hdigits, hsize]
  -- the byte behind the digits: a semicolon or the CR
  obtain ⟨b, text, htext, hb⟩ : ∃ b text, l.extension ++ [13] = b :: text ∧ hexDigit b = none := by
    rcases l.semicolon with hnil | hsemicolon
    · exact ⟨13, [], by rw [hnil]; rfl, by decide⟩
    · obtain ⟨text, htext⟩ := List.head?_eq_some_iff.mp hsemicolon
      exact ⟨59, text ++ [13], by rw [htext]; rfl, by decide⟩
  rw [htext, chunkSizeChars_cons, chunkSizeChar_end hb rfl, chunkSizeChars_done rfl]
  rfl

end SizeChars

section SizeRuns

variable {p q : List UInt8} {k : Parser}

theorem runs_size_text (hstate : k.state = .readChunkHeader) (hindex : k.analysisIndex = p.length)
    {t : List UInt8} (ht : 10 ∉ t) :
    analyser.Runs (p ++ (t ++ q), k) []
      (p ++ (t ++ q),
        { chunkSizeChars t k with analysisIndex := p.length + t.length }) := by
  induction t generalizing p k with
  | nil =>
    have hk : { chunkSizeChars [] k with analysisIndex := p.length } = k := by
      rw [← hindex]
      rfl
    rw [List.length_nil, Nat.add_zero, hk]
    exact .refl _
  | cons b t ih =>
    rw [List.mem_cons, not_or] at ht
    have hunread : k.analysisIndex < (p ++ (b :: t ++ q)).length := by
      simp only [hindex, List.length_append, List.length_cons]
      omega
    have hbyte : readChunkHeader (p ++ (b :: t ++ q)) k =
        (.again, p ++ (b :: t ++ q),
          { chunkSizeChar b k with analysisIndex := p.length + 1 }) := by
      unfold readChunkHeader
      simp only [hindex]
      rw [List.cons_append, getD_length, if_neg (Ne.symm ht.1)]
    have hfirst := runs_again ((pass_readChunkHeader hstate hunread).trans hbyte)
    have hframe : (chunkSizeChar b k).state = .readChunkHeader := by
      obtain ⟨_, _, _, hchar, -⟩ := chunkSizeChar_frame b k
      rw [hchar]
      exact hstate
    have hrest := ih (p := p ++ [b])
      (k := { chunkSizeChar b k with analysisIndex := p.length + 1 }) hframe (by simp) ht.2
    have hlength : (p ++ [b]).length + t.length = p.length + (b :: t).length := by
      simp only [List.length_append, List.length_cons, List.length_nil]
      omega
    have hchars : ∀ index', { chunkSizeChars t { chunkSizeChar b k with
        analysisIndex := p.length + 1 } with analysisIndex := index' } =
        { chunkSizeChars (b :: t) k with analysisIndex := index' } := by
      intro index'
      have hmove : ∀ (t : List UInt8) (k : Parser) index,
          chunkSizeChars t { k with analysisIndex := index } =
            { chunkSizeChars t k with analysisIndex := index } := by
        intro t
        induction t with
        | nil =>
          intro k index
          rfl
        | cons b t ih =>
          intro k index
          rw [chunkSizeChars_cons, chunkSizeChar_index, ih, chunkSizeChars_cons]
      rw [hmove, chunkSizeChars_cons]
    rw [hlength, List.append_assoc, List.singleton_append, ← List.cons_append, hchars] at hrest
    exact hfirst.trans hrest

/-- The line with a size, up to its LF. -/
theorem runs_size_line (l : SizeLine) (hstate : k.state = .readChunkHeader)
    (hsize : k.nowChunkSize = 0) (hdone : k.bChunkSizeDone = false) (hlt : l.size < 2 ^ 64)
    (hindex : k.analysisIndex = p.length) :
    analyser.Runs (p ++ (l.line ++ crlf ++ q), k) []
      (p ++ (l.line ++ crlf ++ q),
        { k with
          nowChunkSize := l.size, bChunkSizeStart := true, bChunkSizeDone := true
          analysisIndex := p.length + l.line.length + 1 }) := by
  have htext := runs_size_text (q := 10 :: q) hstate hindex (t := l.line ++ [13])
    (by simpa using l.line_notMem)
  rw [chunkSizeChars_line l hsize hdone hlt, List.length_append, List.length_singleton,
    ← Nat.add_assoc, show l.line ++ [13] ++ 10 :: q = l.line ++ crlf ++ q by simp [crlf]]
    at htext
  exact htext

/-- The LF of a line with a size. -/
theorem readChunkHeader_lf (l : SizeLine) (hindex : k.analysisIndex = p.length + l.line.length + 1) :
    readChunkHeader (p ++ (l.line ++ crlf ++ q)) k =
      (.again, p ++ (l.line ++ nuls ++ q),
        if k.nowChunkSize > 0 then
          { k with analysisIndex := p.length + l.line.length + 2, state := .readChunkBody }
        else
          { k with
            analysisIndex := p.length + l.line.length + 2, state := .readChunkFooter
            lines := k.lines ++ [(p.length + l.line.length + 2, npos)] }) := by
  have hassoc : ∀ eol, p ++ (l.line ++ eol ++ q) = (p ++ l.line) ++ (eol ++ q) := by
    intro eol
    simp
  obtain ⟨hlf, hcr⟩ := getD_crlf (p ++ l.line) q
  rw [List.length_append] at hlf hcr
  unfold readChunkHeader
  simp only [hindex]
  rw [hassoc crlf, hlf, hcr, if_pos rfl, if_neg (by simp), ← List.length_append, terminate_crlf,
    hassoc nuls]
  split
  · rfl
  · rfl

end SizeRuns

/-! ## Chunks -/

/-- A parser at the beginning of a line with a size. -/
structure Parser.AtSize (k : Parser) : Prop where
  state_eq : k.state = .readChunkHeader
  size_eq : k.nowChunkSize = 0
  start_eq : k.bChunkSizeStart = false
  done_eq : k.bChunkSizeDone = false

theorem Parser.AtSize.reset {k : Parser} (hk : k.AtSize) :
    { k with
      state := .readChunkHeader, nowChunkSize := 0, bChunkSizeStart := false
      bChunkSizeDone := false } = k := by
  obtain ⟨hstate, hsize, hstart, hdone⟩ := hk
  cases k
  simp only at hstate hsize hstart hdone
  subst hstate hsize hstart hdone
  rfl

/-- Where the contents of chunks stand. -/
def chunkSpans : ℕ → List Chunk → List (ℕ × ℕ)
  | _, [] => []
  | o, c :: chunks =>
    (o + c.line.length + 2, c.content.length) ::
      chunkSpans (o + c.line.length + 2 + c.content.length + 2) chunks

theorem wireChunks_cons (eol : List UInt8) (c : Chunk) (chunks : List Chunk) :
    wireChunks eol (c :: chunks) =
      c.line ++ eol ++ (c.content ++ crlf) ++ wireChunks eol chunks :=
  List.flatMap_cons

section Chunks

variable {p q : List UInt8} {k : Parser}

/-- The content of a chunk. -/
theorem pass_chunk {content : List UInt8} (hstate : k.state = .readChunkBody)
    (hindex : k.analysisIndex = p.length) (hsize : k.nowChunkSize = content.length)
    (hlt : content.length < 2 ^ 63) :
    pass (p ++ (content ++ crlf ++ q)) (p ++ (content ++ crlf ++ q)).length k =
      (.again, p ++ (content ++ crlf ++ q),
        { k with
          chunks := k.chunks ++ [(p.length, content.length)]
          analysisIndex := p.length + content.length + 2
          state := .readChunkHeader
          nowChunkSize := 0
          bChunkSizeStart := false
          bChunkSizeDone := false }) := by
  have hnow : (p ++ (content ++ crlf ++ q)).length =
      p.length + content.length + 2 + q.length := by
    simp only [List.length_append, length_crlf]
    omega
  rw [pass, if_neg (by simp [hstate]), if_neg (by omega), hstate]
  simp only [readChunkBody, hindex, hsize, hnow]
  rw [Nat.mod_eq_of_lt (by omega), if_pos (by omega), Nat.add_assoc]

/-- A chunk. -/
theorem runs_chunk (c : Chunk) (hk : k.AtSize) (hindex : k.analysisIndex = p.length)
    (hlt : c.content.length < 2 ^ 63) :
    analyser.Runs (p ++ (c.line ++ crlf ++ (c.content ++ crlf) ++ q), k) []
      (p ++ (c.line ++ nuls ++ (c.content ++ crlf) ++ q),
        { k with
          analysisIndex := p.length + c.line.length + 2 + c.content.length + 2
          chunks := k.chunks ++ [(p.length + c.line.length + 2, c.content.length)] }) := by
  have hpos := List.length_pos_of_ne_nil c.content_ne
  have hsize : c.size = c.content.length := c.size_eq
  have htext := runs_size_line (q := c.content ++ crlf ++ q) c.toSizeLine hk.state_eq
    hk.size_eq hk.done_eq (by omega) hindex
  have hlf := readChunkHeader_lf (p := p) (q := c.content ++ crlf ++ q)
    (k := { k with
      nowChunkSize := c.size, bChunkSizeStart := true, bChunkSizeDone := true
      analysisIndex := p.length + c.line.length + 1 }) c.toSizeLine rfl
  rw [if_pos (by simp only; omega)] at hlf
  have hunread : p.length + c.line.length + 1 <
      (p ++ (c.line ++ crlf ++ (c.content ++ crlf ++ q))).length := by
    simp only [List.length_append, length_crlf]
    omega
  have hline := runs_again ((pass_readChunkHeader (k := { k with
      nowChunkSize := c.size, bChunkSizeStart := true, bChunkSizeDone := true
      analysisIndex := p.length + c.line.length + 1 }) hk.state_eq hunread).trans hlf)
  have hlength : (p ++ (c.line ++ nuls)).length = p.length + c.line.length + 2 := by
    simp only [List.length_append, length_nuls]
    omega
  have hbody := runs_again (pass_chunk (p := p ++ (c.line ++ nuls)) (q := q)
    (k := { k with
      nowChunkSize := c.size, bChunkSizeStart := true, bChunkSizeDone := true
      analysisIndex := p.length + c.line.length + 2, state := .readChunkBody })
    rfl hlength.symm hsize hlt)
  rw [hlength] at hbody
  have hassoc : p ++ (c.line ++ nuls) ++ (c.content ++ crlf ++ q) =
      p ++ (c.line ++ nuls ++ (c.content ++ crlf ++ q)) := by
    rw [List.append_assoc]
  rw [hassoc] at hbody
  rw [List.append_assoc _ (c.content ++ crlf), List.append_assoc _ (c.content ++ crlf)]
  have hfinal : { k with
      analysisIndex := p.length + c.line.length + 2 + c.content.length + 2
      chunks := k.chunks ++ [(p.length + c.line.length + 2, c.content.length)] } =
      { k with
        chunks := k.chunks ++ [(p.length + c.line.length + 2, c.content.length)]
        analysisIndex := p.length + c.line.length + 2 + c.content.length + 2
        state := .readChunkHeader
        nowChunkSize := 0
        bChunkSizeStart := false
        bChunkSizeDone := false } := by
    conv_lhs => rw [← hk.reset]
  rw [hfinal]
  exact (htext.trans hline).trans hbody

/-- Chunks one after the other. -/
theorem runs_chunks (hk : k.AtSize) (hindex : k.analysisIndex = p.length) {chunks : List Chunk}
    (hlt : ∀ c ∈ chunks, c.content.length < 2 ^ 63) :
    analyser.Runs (p ++ (wireChunks crlf chunks ++ q), k) []
      (p ++ (wireChunks nuls chunks ++ q),
        { k with
          analysisIndex := p.length + (wireChunks crlf chunks).length
          chunks := k.chunks ++ chunkSpans p.length chunks }) := by
  induction chunks generalizing p k with
  | nil =>
    have hfinal : { k with
        analysisIndex := p.length + (wireChunks crlf []).length
        chunks := k.chunks ++ chunkSpans p.length [] } = k := by
      simp only [wireChunks, chunkSpans, List.flatMap_nil, List.length_nil, Nat.add_zero,
        List.append_nil]
      rw [← hindex]
    rw [hfinal]
    exact .refl _
  | cons c chunks ih =>
    have hfirst := runs_chunk (q := wireChunks crlf chunks ++ q) c hk hindex
      (hlt c List.mem_cons_self)
    have hlength : (p ++ (c.line ++ nuls ++ (c.content ++ crlf))).length =
        p.length + c.line.length + 2 + c.content.length + 2 := by
      simp only [List.length_append, length_nuls, length_crlf]
      omega
    have hrest := ih (p := p ++ (c.line ++ nuls ++ (c.content ++ crlf)))
      (k := { k with
        analysisIndex := p.length + c.line.length + 2 + c.content.length + 2
        chunks := k.chunks ++ [(p.length + c.line.length + 2, c.content.length)] })
      ⟨hk.state_eq, hk.size_eq, hk.start_eq, hk.done_eq⟩ hlength.symm
      fun c' hc' => hlt c' (List.mem_cons_of_mem c hc')
    have hcount : p.length + c.line.length + 2 + c.content.length + 2 +
        (wireChunks crlf chunks).length =
          p.length + (wireChunks crlf (c :: chunks)).length := by
      simp only [wireChunks_cons, List.length_append, length_crlf]
      omega
    have hassoc : ∀ eol, p ++ (c.line ++ nuls ++ (c.content ++ crlf)) ++
        (wireChunks eol chunks ++ q) =
          p ++ (c.line ++ nuls ++ (c.content ++ crlf) ++ (wireChunks eol chunks ++ q)) := by
      intro eol
      simp
    have hwire : ∀ eol, p ++ (wireChunks eol (c :: chunks) ++ q) =
        p ++ (c.line ++ eol ++ (c.content ++ crlf) ++ (wireChunks eol chunks ++ q)) := by
      intro eol
      simp [wireChunks_cons]
    have hspans : k.chunks ++ chunkSpans p.length (c :: chunks) =
        k.chunks ++ [(p.length + c.line.length + 2, c.content.length)] ++
          chunkSpans (p.length + c.line.length + 2 + c.content.length + 2) chunks := by
      simp [chunkSpans]
    rw [hlength, hcount, hassoc crlf, hassoc nuls] at hrest
    rw [hwire crlf, hwire nuls, hspans]
    exact hfirst.trans hrest

/-- The line with the size of the last chunk. -/
theorem runs_last_size (l : SizeLine) (hlast : l.size = 0) (hk : k.AtSize)
    (hindex : k.analysisIndex = p.length) :
    analyser.Runs (p ++ (l.line ++ crlf ++ q), k) []
      (p ++ (l.line ++ nuls ++ q),
        { k with
          analysisIndex := p.length + l.line.length + 2
          state := .readChunkFooter
          bChunkSizeStart := true
          bChunkSizeDone := true
          lines := k.lines ++ [(p.length + l.line.length + 2, npos)] }) := by
  have htext := runs_size_line (q := q) l hk.state_eq hk.size_eq hk.done_eq (by omega) hindex
  have hlf := readChunkHeader_lf (p := p) (q := q)
    (k := { k with
      nowChunkSize := l.size, bChunkSizeStart := true, bChunkSizeDone := true
      analysisIndex := p.length + l.line.length + 1 }) l rfl
  rw [if_neg (by simp only; omega)] at hlf
  have hunread : p.length + l.line.length + 1 < (p ++ (l.line ++ crlf ++ q)).length := by
    simp only [List.length_append, length_crlf]
    omega
  have hline := runs_again ((pass_readChunkHeader (k := { k with
      nowChunkSize := l.size, bChunkSizeStart := true, bChunkSizeDone := true
      analysisIndex := p.length + l.line.length + 1 }) hk.state_eq hunread).trans hlf)
  have hruns := htext.trans hline
  rw [hlast, ← hk.size_eq] at hruns
  exact hruns

end Chunks

end NetworkPool
