import NetworkPool.Http.Message
import NetworkPool.Http.Requests
import NetworkPool.Http.Splitting

/-!
# Decoding headers

The analyser takes the header of a written message apart line by line. Each part is a run of the
analyser that replaces the line ends of the part by NULs and leaves what follows it alone; the
parts are put together by induction over the lines.
-/

namespace NetworkPool

open Lib (Incremental)
open Lib.CString

/-- What is left of a line end. -/
def nuls : List UInt8 := [0, 0]

@[simp] theorem length_nuls : nuls.length = 2 := rfl

@[simp] theorem length_crlf : crlf.length = 2 := rfl

/-! ## Single passes -/

section Passes

variable {p q : List UInt8} {b : UInt8} {k : Parser}

theorem getD_length (p q : List UInt8) (b : UInt8) :
    (p ++ b :: q).getD p.length 0 = b := by
  simp [List.getD]

theorem runs_again {ptr ptr' : List UInt8} {k' : Parser}
    (h : pass ptr ptr.length k = (.again, ptr', k')) :
    analyser.Runs (ptr, k) [] (ptr', k') := by
  apply Incremental.Runs.single
  rw [analyser_step]
  unfold analyserStep
  rw [h]
  rfl

theorem runs_done {ptr ptr' : List UInt8} {k' : Parser}
    (h : pass ptr ptr.length k = (.ret true, ptr', k')) (hk' : k'.state = .done)
    (hk : k.state ≠ .done) : analyser.Runs (ptr, k) [] (ptr', k') := by
  apply Incremental.Runs.single
  rw [analyser_step]
  unfold analyserStep
  rw [h]
  have hne : (k'.state != k.state) = true := by simpa [hk'] using Ne.symm hk
  simp [hne]

theorem pass_readHeader (ptr : List UInt8) {now : ℕ} (hstate : k.state = .readHeader)
    (hunread : k.analysisIndex < now) : pass ptr now k = scanLine endHeader ptr k := by
  rw [pass, if_neg (by simp [hstate]), if_neg (by omega), hstate]
  rfl

theorem pass_readChunkFooter (ptr : List UInt8) {now : ℕ} (hstate : k.state = .readChunkFooter)
    (hunread : k.analysisIndex < now) : pass ptr now k = scanLine endFooter ptr k := by
  rw [pass, if_neg (by simp [hstate]), if_neg (by omega), hstate]
  rfl

theorem pass_readChunkHeader {ptr : List UInt8} {now : ℕ} (hstate : k.state = .readChunkHeader)
    (hunread : k.analysisIndex < now) : pass ptr now k = readChunkHeader ptr k := by
  rw [pass, if_neg (by simp [hstate]), if_neg (by omega), hstate]

/-- The states that read lines share the loop. -/
theorem exists_pass_scanLine {ptr : List UInt8} {now : ℕ}
    (hstate : k.state = .readHeader ∨ k.state = .readChunkFooter)
    (hunread : k.analysisIndex < now) :
    ∃ atEmptyLine, pass ptr now k = scanLine atEmptyLine ptr k := by
  rcases hstate with hstate | hstate
  · exact ⟨endHeader, pass_readHeader _ hstate hunread⟩
  · exact ⟨endFooter, pass_readChunkFooter _ hstate hunread⟩

end Passes

/-! ## Lines -/

section Lines

variable {p q : List UInt8} {k : Parser} {s : List (ℕ × ℕ)}

/-- The bytes of a line. -/
theorem runs_text (hstate : k.state = .readHeader ∨ k.state = .readChunkFooter)
    (hindex : k.analysisIndex = p.length) {t : List UInt8} (ht : 10 ∉ t) :
    analyser.Runs (p ++ (t ++ q), k) []
      (p ++ (t ++ q), { k with analysisIndex := p.length + t.length }) := by
  induction t generalizing p k with
  | nil =>
    rw [List.length_nil, Nat.add_zero, ← hindex]
    exact .refl _
  | cons b t ih =>
    rw [List.mem_cons, not_or] at ht
    have hunread : k.analysisIndex < (p ++ (b :: t ++ q)).length := by
      simp only [hindex, List.length_append, List.length_cons]
      omega
    obtain ⟨atEmptyLine, hpass⟩ := exists_pass_scanLine hstate hunread
    have hbyte : scanLine atEmptyLine (p ++ (b :: t ++ q)) k =
        (.again, p ++ (b :: t ++ q), { k with analysisIndex := p.length + 1 }) := by
      unfold scanLine
      simp only [hindex]
      rw [List.cons_append, getD_length, if_neg (Ne.symm ht.1)]
    have hfirst := runs_again (hpass.trans hbyte)
    have hrest := ih (p := p ++ [b]) (k := { k with analysisIndex := p.length + 1 })
      hstate (by simp) ht.2
    have hlength : (p ++ [b]).length + t.length = p.length + (b :: t).length := by
      simp only [List.length_append, List.length_cons, List.length_nil]
      omega
    rw [hlength, List.append_assoc, List.singleton_append, ← List.cons_append] at hrest
    exact hfirst.trans hrest

/-- The line end after `p`, which the analysis has reached but for its LF. -/
theorem terminate_crlf (p q : List UInt8) :
    terminate (p ++ (crlf ++ q)) (p.length + 1) = p ++ (nuls ++ q) := by
  unfold terminate crlf nuls
  rw [Nat.add_sub_cancel, List.set_append_right _ _ le_rfl, List.set_append_right _ _ (by omega)]
  simp

theorem getD_crlf (p q : List UInt8) :
    (p ++ (crlf ++ q)).getD (p.length + 1) 0 = 10 ∧
      (p ++ (crlf ++ q)).getD (p.length + 1 - 1) 0 = 13 := by
  simp [crlf, List.getD]

/-- A line with its end. -/
theorem runs_line (hstate : k.state = .readHeader ∨ k.state = .readChunkFooter)
    (hindex : k.analysisIndex = p.length) (hlines : k.lines = s ++ [(p.length, npos)])
    {line : List UInt8} (hne : line ≠ []) (hline : 10 ∉ line) :
    analyser.Runs (p ++ (line ++ crlf ++ q), k) []
      (p ++ (line ++ nuls ++ q),
        { k with
          analysisIndex := p.length + line.length + 2
          lines := s ++ [(p.length, line.length), (p.length + line.length + 2, npos)] }) := by
  have hpos := List.length_pos_of_ne_nil hne
  have htext := runs_text (q := 10 :: q) hstate hindex (t := line ++ [13])
    (by simpa using hline)
  rw [show line ++ [13] ++ 10 :: q = line ++ crlf ++ q by simp [crlf],
    List.length_append, List.length_singleton, ← Nat.add_assoc] at htext
  refine htext.trans (runs_again ?_)
  have hunread : p.length + line.length + 1 < (p ++ (line ++ crlf ++ q)).length := by
    simp only [List.length_append, length_crlf]
    omega
  obtain ⟨atEmptyLine, hpass⟩ := exists_pass_scanLine
    (k := { k with analysisIndex := p.length + line.length + 1 }) hstate hunread
  rw [hpass]
  have hassoc : ∀ eol, p ++ (line ++ eol ++ q) = (p ++ line) ++ (eol ++ q) := by
    intro eol
    simp
  obtain ⟨hlf, hcr⟩ := getD_crlf (p ++ line) q
  rw [List.length_append] at hlf hcr
  have hlast : (s ++ [(p.length, npos)]).getLastD (0, npos) = (p.length, npos) := by
    simp
  have hlength : p.length + line.length + 1 - 1 - p.length = line.length := by omega
  unfold scanLine
  simp only
  rw [hassoc crlf, hlf, hcr, if_pos rfl, if_neg (by simp), hlines, hlast, hlength,
    if_neg (by omega), ← List.length_append, terminate_crlf, hassoc nuls, List.dropLast_concat,
    List.length_append]

/-- Where lines stand. -/
def spans : ℕ → List (List UInt8) → List (ℕ × ℕ)
  | _, [] => []
  | o, line :: lines => (o, line.length) :: spans (o + line.length + 2) lines

/-- Lines one after the other. -/
theorem runs_lines (hstate : k.state = .readHeader ∨ k.state = .readChunkFooter)
    (hindex : k.analysisIndex = p.length) (hlines : k.lines = s ++ [(p.length, npos)])
    (lines : List (List UInt8)) (hall : ∀ line ∈ lines, line ≠ [] ∧ 10 ∉ line) :
    analyser.Runs (p ++ (wire crlf lines ++ q), k) []
      (p ++ (wire nuls lines ++ q),
        { k with
          analysisIndex := p.length + (wire crlf lines).length
          lines := s ++ spans p.length lines ++
            [(p.length + (wire crlf lines).length, npos)] }) := by
  induction lines generalizing p s k with
  | nil =>
    have hk : { k with
        analysisIndex := p.length + (wire crlf []).length
        lines := s ++ spans p.length [] ++ [(p.length + (wire crlf []).length, npos)] } =
        k := by
      simp only [wire, spans, List.flatMap_nil, List.length_nil, Nat.add_zero, List.append_nil]
      rw [← hlines, ← hindex]
    rw [hk]
    exact .refl _
  | cons line lines ih =>
    obtain ⟨hne, hline⟩ := hall line List.mem_cons_self
    have hfirst := runs_line (q := wire crlf lines ++ q) hstate hindex hlines hne hline
    have hlength : (p ++ (line ++ nuls)).length = p.length + line.length + 2 := by
      simp only [List.length_append, length_nuls]
      omega
    have hrest := ih (p := p ++ (line ++ nuls)) (s := s ++ [(p.length, line.length)])
      (k := { k with
        analysisIndex := p.length + line.length + 2
        lines := s ++ [(p.length, line.length), (p.length + line.length + 2, npos)] })
      hstate hlength.symm (by simp [hlength])
      fun l hl => hall l (List.mem_cons_of_mem line hl)
    have hcount : p.length + line.length + 2 + (wire crlf lines).length =
        p.length + (wire crlf (line :: lines)).length := by
      simp only [wire, List.flatMap_cons, List.length_append, length_crlf]
      omega
    rw [hlength, hcount] at hrest
    have hwire : ∀ eol, p ++ (wire eol (line :: lines) ++ q) =
        p ++ (line ++ eol ++ (wire eol lines ++ q)) := by
      intro eol
      simp [wire]
    have hspans : s ++ spans p.length (line :: lines) =
        s ++ [(p.length, line.length)] ++ spans (p.length + line.length + 2) lines := by
      simp [spans]
    have hassoc : ∀ eol, p ++ (line ++ nuls) ++ (wire eol lines ++ q) =
        p ++ (line ++ nuls ++ (wire eol lines ++ q)) := by
      intro eol
      simp
    rw [hwire crlf, hwire nuls, hspans]
    rw [hassoc crlf, hassoc nuls] at hrest
    exact hfirst.trans hrest

end Lines

/-! ## Empty lines -/

section Empty

variable {p q : List UInt8} {k : Parser} {s : List (ℕ × ℕ)}

/-- The CR of an empty line. -/
theorem runs_cr (hstate : k.state = .readHeader ∨ k.state = .readChunkFooter)
    (hindex : k.analysisIndex = p.length) :
    analyser.Runs (p ++ (crlf ++ q), k) []
      (p ++ (crlf ++ q), { k with analysisIndex := p.length + 1 }) :=
  runs_text (t := [13]) (q := 10 :: q) hstate hindex (by decide)

/-- The LF of an empty line. -/
theorem scanLine_empty (atEmptyLine : List UInt8 → Parser → Flow × Parser)
    (hindex : k.analysisIndex = p.length + 1) (hlines : k.lines = s ++ [(p.length, npos)]) :
    let r := atEmptyLine (p ++ (nuls ++ q)) { k with lines := s }
    scanLine atEmptyLine (p ++ (crlf ++ q)) k = (r.1, p ++ (nuls ++ q), r.2) := by
  obtain ⟨hlf, hcr⟩ := getD_crlf p q
  have hlast : (s ++ [(p.length, npos)]).getLastD (0, npos) = (p.length, npos) := by
    simp
  have hlength : p.length + 1 - 1 - p.length = 0 := by omega
  unfold scanLine
  simp only [hindex, hlines]
  rw [hlf, hcr, if_pos rfl, if_neg (by simp), hlast, hlength, if_pos rfl, terminate_crlf,
    List.dropLast_concat]

theorem length_crlf_lt (p q : List UInt8) :
    p.length + 1 < (p ++ (crlf ++ q)).length := by
  simp only [List.length_append, length_crlf]
  omega

/-- The empty line after the header. -/
theorem runs_header_end (hstate : k.state = .readHeader) (hindex : k.analysisIndex = p.length)
    (hlines : k.lines = s ++ [(p.length, npos)]) :
    analyser.Runs (p ++ (crlf ++ q), k) []
      (p ++ (nuls ++ q), decoderHeaderAndUpdateState (p ++ (nuls ++ q))
        { k with lines := s, headerSize := p.length + 2, analysisIndex := p.length + 2 }) := by
  have hpass := pass_readHeader (p ++ (crlf ++ q))
    (k := { k with analysisIndex := p.length + 1 }) hstate (length_crlf_lt p q)
  have hscan := scanLine_empty (k := { k with analysisIndex := p.length + 1 }) (q := q)
    endHeader rfl hlines
  exact (runs_cr (.inl hstate) hindex).trans (runs_again (hpass.trans hscan))

/-- The empty line after the trailer. -/
theorem runs_footer_end (hstate : k.state = .readChunkFooter)
    (hindex : k.analysisIndex = p.length) (hlines : k.lines = s ++ [(p.length, npos)]) :
    analyser.Runs (p ++ (crlf ++ q), k) []
      (p ++ (nuls ++ q),
        { k with lines := s, analysisIndex := p.length + 2, state := .done }) := by
  have hpass := pass_readChunkFooter (p ++ (crlf ++ q))
    (k := { k with analysisIndex := p.length + 1 }) hstate (length_crlf_lt p q)
  have hscan := scanLine_empty (k := { k with analysisIndex := p.length + 1 }) (q := q)
    endFooter rfl hlines
  exact (runs_cr (.inr hstate) hindex).trans
    (runs_done (hpass.trans hscan) rfl (by simp [hstate]))

end Empty

/-! ## Fields -/

namespace Field

variable (f : Field) (q : List UInt8)

/-- Where the colon of a field stands. -/
def colon : ℕ := f.before.length + f.name.length + f.beforeColon.length

/-- Where the value of a field begins. -/
def valueHead : ℕ := f.colon + 1 + f.afterColon.length

/-- Where the pointers into the line of a field stand. -/
def split : LineSplit where
  nameHead := f.before.length
  nameTail := f.before.length + f.name.length
  valueHead := f.valueHead
  valueTail := f.valueHead + f.value.length

/-- The line, from the name on. -/
theorem line_name : f.line ++ 0 :: q = f.before ++ (f.name ++ (f.beforeColon ++ 58 ::
    (f.afterColon ++ (f.value ++ (f.after ++ 0 :: q))))) := by
  simp [line]

/-- The line, from the value on. -/
theorem line_value : f.line ++ 0 :: q =
    (f.before ++ f.name ++ f.beforeColon ++ 58 :: f.afterColon) ++
      (f.value ++ (f.after ++ 0 :: q)) := by
  simp [line]

theorem length_to_value :
    (f.before ++ f.name ++ f.beforeColon ++ 58 :: f.afterColon).length = f.valueHead := by
  simp only [valueHead, colon, List.length_append, List.length_cons]
  omega

theorem length_line : f.line.length = f.valueHead + f.value.length + f.after.length := by
  simp only [line, valueHead, colon, List.length_append, List.length_cons]
  omega

theorem spaces_line : spaces (f.line ++ 0 :: q) = f.before.length := by
  rw [line_name]
  exact spaces_known f.blank_parts.1.isspace f.trimmed_name.1 _

theorem drop_name : (f.line ++ 0 :: q).drop f.before.length = f.name ++ (f.beforeColon ++ 58 ::
    (f.afterColon ++ (f.value ++ (f.after ++ 0 :: q)))) := by
  rw [line_name, List.drop_left]

theorem strchr_line : strchr ((f.line ++ 0 :: q).drop f.before.length) 58 =
    some (f.name.length + f.beforeColon.length) := by
  have hblank := f.blank_parts.2.1.notMem
  rw [drop_name, ← List.append_assoc, ← List.length_append]
  apply strchr_known
  · simp [f.plain_name.notMem.1, hblank.1]
  · simp [f.colon_notMem, hblank.2.2]

theorem drop_colon : (f.line ++ 0 :: q).drop (f.colon + 1) =
    f.afterColon ++ (f.value ++ (f.after ++ 0 :: q)) := by
  have hlist : f.line ++ 0 :: q = (f.before ++ f.name ++ f.beforeColon ++ [58]) ++
      (f.afterColon ++ (f.value ++ (f.after ++ 0 :: q))) := by
    simp [line]
  rw [hlist]
  apply List.drop_left'
  simp [colon, Nat.add_assoc]

theorem drop_value : (f.line ++ 0 :: q).drop f.valueHead =
    f.value ++ (f.after ++ 0 :: q) := by
  rw [line_value]
  exact List.drop_left' f.length_to_value

theorem trimBack_name :
    trimBack (f.line ++ 0 :: q) f.colon = f.before.length + f.name.length := by
  rw [line_name]
  exact trimBack_known f.before f.trimmed_name.2 f.blank_parts.2.1.isspace _ rfl

theorem trimBack_value :
    trimBack (f.line ++ 0 :: q) f.line.length = f.valueHead + f.value.length := by
  rw [line_value, ← length_to_value]
  apply trimBack_known _ f.trimmed_value.2 f.blank_parts.2.2.2.isspace
  rw [length_to_value, length_line]

/-- **Splitting** the line of a field finds its name and its value. -/
theorem splitLine_line : splitLine (f.line ++ 0 :: q) f.line.length = some f.split := by
  have hname := f.name_length_pos
  have hvalue := f.value_length_pos
  have hvalueSpaces : spaces ((f.line ++ 0 :: q).drop (f.colon + 1)) = f.afterColon.length := by
    rw [drop_colon]
    exact spaces_known f.blank_parts.2.2.1.isspace f.trimmed_value.1 _
  have hne : f.line.length ≠ f.valueHead := by
    rw [length_line]
    omega
  obtain ⟨n, hn⟩ : ∃ n, f.name.length + f.beforeColon.length = n + 1 :=
    Nat.exists_eq_succ_of_ne_zero (by omega)
  have hcolon : f.before.length + (n + 1) = f.colon := by
    rw [colon, ← hn, Nat.add_assoc]
  unfold splitLine
  simp only [spaces_line]
  rw [strchr_line, hn]
  simp only [hcolon, hvalueSpaces, trimBack_name, trimBack_value]
  exact if_neg hne

/-- What `getParameter` takes from the line of a field. -/
theorem parameter_line {p : List UInt8} (hlength : f.line.length ≠ npos) :
    ChttpContext.parameter (p ++ (f.line ++ 0 :: q)) (p.length, f.line.length) =
      some (f.name, f.value) := by
  unfold ChttpContext.parameter
  simp only
  rw [if_neg hlength, List.drop_left, splitLine_line]
  simp only [Option.map_some, split, Nat.add_sub_cancel_left, drop_name, drop_value,
    List.take_left]

/-! ### Framing -/

/-- Only the framing fields change more than `bKeepAlive`. -/
theorem kvDecoder_unframed (k : Parser) (hf : ¬f.Framing) (rest value : List UInt8)
    (valueLength : ℕ) :
    ∃ keepAlive, kvDecoder k (f.name ++ rest) f.name.length value valueLength =
      { k with bKeepAlive := keepAlive } := by
  have hother : ∀ l : List UInt8, 0 ∉ l → ¬SameName l f.name →
      (f.name.length == l.length && strncasecmp l (f.name ++ rest) l.length) = false := by
    intro l hl hne
    by_cases hlen : f.name.length = l.length
    · have hcmp := (strncasecmp_iff (t := rest) hl hlen).not.mpr hne
      rw [Bool.not_eq_true] at hcmp
      rw [hcmp, Bool.and_false]
    · rw [beq_false_of_ne hlen, Bool.false_and]
  have hlength := hother (lit "Content-Length") (by decide) fun h => hf (.inl h)
  have hencoding := hother (lit "Transfer-Encoding") (by decide) fun h => hf (.inr h)
  have hsize : (lit "Content-Length").length = 14 ∧ (lit "Transfer-Encoding").length = 17 := by
    decide
  rw [hsize.1] at hlength
  rw [hsize.2] at hencoding
  unfold kvDecoder
  rw [hlength, hencoding]
  split
  · exact ⟨_, rfl⟩
  · exact ⟨_, rfl⟩

theorem kvDecoder_contentLength (k : Parser) (hname : SameName (lit "Content-Length") f.name)
    (hdigits : ∀ b ∈ f.value, isdigit b = true) (hlt : decimal f.value < 2 ^ 31)
    (rest : List UInt8) (valueLength : ℕ) :
    kvDecoder k (f.name ++ rest) f.name.length (f.value ++ (f.after ++ 0 :: q)) valueLength =
      { k with contentLength := decimal f.value } := by
  have hlen : f.name.length = 14 := hname.length_eq
  have hcmp : strncasecmp (lit "Content-Length") (f.name ++ rest) 14 = true :=
    (strncasecmp_iff (by decide) hname.length_eq).mpr hname
  have hatoi : atoi (f.value ++ (f.after ++ 0 :: q)) = decimal f.value := by
    have hne : f.value ≠ [] := List.ne_nil_of_length_pos f.value_length_pos
    -- the digits end at a space or at the terminator
    cases hafter : f.after with
    | nil => exact atoi_known hne hdigits (by decide) hlt
    | cons b after =>
      have hspace := f.blank_parts.2.2.2.isspace b (hafter ▸ List.mem_cons_self)
      have hb : isdigit b = false := by
        by_contra hdigit
        rw [Bool.not_eq_false] at hdigit
        rw [isspace_of_isdigit hdigit] at hspace
        exact absurd hspace (by decide)
      exact atoi_known hne hdigits hb hlt
  have hmod : ((decimal f.value : ℤ) % 2 ^ 64).toNat = decimal f.value := by omega
  unfold kvDecoder
  rw [hlen, hcmp, hatoi, hmod]
  rfl

theorem kvDecoder_chunked (k : Parser) (hname : SameName (lit "Transfer-Encoding") f.name)
    (hvalue : SameName (lit "chunked") f.value) (rest rest' : List UInt8) :
    kvDecoder k (f.name ++ rest) f.name.length (f.value ++ rest') f.value.length =
      { k with bChunked := true } := by
  have hlen : f.name.length = 17 := hname.length_eq
  have hcmp : strncasecmp (lit "Transfer-Encoding") (f.name ++ rest) 17 = true :=
    (strncasecmp_iff (by decide) hname.length_eq).mpr hname
  have hlen' : f.value.length = 7 := hvalue.length_eq
  have hcmp' : strncasecmp (lit "chunked") (f.value ++ rest') 7 = true :=
    (strncasecmp_iff (by decide) hvalue.length_eq).mpr hvalue
  unfold kvDecoder
  rw [hlen, hcmp, hlen', hcmp']
  rfl

/-- The line of a field is decoded by `kvDecoder`. -/
theorem decoderHeader_line {p : List UInt8} {k : Parser} (lines : List (ℕ × ℕ))
    (hlength : f.line.length ≠ npos) (hheader : p.length ≤ k.headerSize) :
    decoderHeader (p ++ (f.line ++ 0 :: q)) ((p.length, f.line.length) :: lines) k =
      decoderHeader (p ++ (f.line ++ 0 :: q)) lines
        (kvDecoder k
          (f.name ++ (f.beforeColon ++ 58 ::
            (f.afterColon ++ (f.value ++ (f.after ++ 0 :: q)))))
          f.name.length (f.value ++ (f.after ++ 0 :: q)) f.value.length) := by
  rw [decoderHeader, if_neg (by simpa using hheader), if_neg hlength]
  simp only
  rw [List.drop_left, splitLine_line]
  simp only [split, Nat.add_sub_cancel_left, drop_name, drop_value]

end Field

/-! ## Headers -/

section Headers

theorem wire_cons (eol line : List UInt8) (lines : List (List UInt8)) :
    wire eol (line :: lines) = line ++ eol ++ wire eol lines :=
  List.flatMap_cons

theorem wire_append (eol : List UInt8) (lines lines' : List (List UInt8)) :
    wire eol (lines ++ lines') = wire eol lines ++ wire eol lines' :=
  List.flatMap_append

theorem length_wire (lines : List (List UInt8)) :
    (wire crlf lines).length = (wire nuls lines).length := by
  induction lines with
  | nil => rfl
  | cons line lines ih =>
    rw [wire_cons, wire_cons, List.length_append, List.length_append, ih, List.length_append,
      List.length_append]
    rfl

theorem spans_append (o : ℕ) (lines lines' : List (List UInt8)) :
    spans o (lines ++ lines') = spans o lines ++ spans (o + (wire nuls lines).length) lines' := by
  induction lines generalizing o with
  | nil => rfl
  | cons line lines ih =>
    rw [List.cons_append, spans, spans, ih, wire_cons, List.cons_append]
    have hlength : o + line.length + 2 + (wire nuls lines).length =
        o + (line ++ nuls ++ wire nuls lines).length := by
      simp only [List.length_append, length_nuls]
      omega
    rw [hlength]

variable {ptr p q : List UInt8}

/-- A line without a colon is no field. -/
theorem splitLine_first (f : FirstLine) (q : List UInt8) (length : ℕ) :
    splitLine (f.line ++ 0 :: q) length = none :=
  splitLine_noColon (f.line_notMem f.colon_notMem (by decide)) q length

/-- Fields that are not framing leave the framing alone. -/
theorem decoderHeader_unframed (fields : List Field) (hfields : ∀ f ∈ fields, ¬f.Framing)
    (hptr : ptr = p ++ (wire nuls (fields.map Field.line) ++ q)) (hlt : ptr.length < npos)
    {k : Parser} (hheader : p.length + (wire nuls (fields.map Field.line)).length ≤ k.headerSize)
    (lines : List (ℕ × ℕ)) :
    ∃ keepAlive, decoderHeader ptr (spans p.length (fields.map Field.line) ++ lines) k =
      decoderHeader ptr lines { k with bKeepAlive := keepAlive } := by
  induction fields generalizing p k with
  | nil => exact ⟨k.bKeepAlive, rfl⟩
  | cons f fields ih =>
    rw [List.map_cons, wire_cons] at hptr hheader
    simp only [List.length_append, length_nuls] at hheader
    have hline : ptr = p ++ (f.line ++ 0 :: (0 :: (wire nuls (fields.map Field.line) ++ q))) := by
      rw [hptr]
      simp [nuls]
    have hlength : f.line.length ≠ npos := by
      rw [hline] at hlt
      simp only [List.length_append] at hlt
      omega
    obtain ⟨keepAlive, hkv⟩ := f.kvDecoder_unframed k (hfields f List.mem_cons_self) (f.beforeColon ++ 58 ::
      (f.afterColon ++ (f.value ++ (f.after ++ 0 :: (0 :: (wire nuls (fields.map Field.line) ++ q))))))
      (f.value ++ (f.after ++ 0 :: (0 :: (wire nuls (fields.map Field.line) ++ q)))) f.value.length
    have hnext : (p ++ (f.line ++ nuls)).length = p.length + f.line.length + 2 := by
      simp only [List.length_append, length_nuls]
      omega
    obtain ⟨keepAlive', hrest⟩ := ih (p := p ++ (f.line ++ nuls))
      (k := { k with bKeepAlive := keepAlive })
      (fun f' hf' => hfields f' (List.mem_cons_of_mem f hf')) (by rw [hptr]; simp)
      (by rw [hnext]; simp only; omega)
    rw [hnext] at hrest
    refine ⟨keepAlive', ?_⟩
    rw [List.map_cons, spans, List.cons_append]
    conv_lhs => rw [hline]
    rw [f.decoderHeader_line _ _ hlength (by omega), ← hline, hkv, hrest]

/-- What the framing field of a body sets. -/
def Body.framed (b : Body) (k : Parser) : Parser :=
  match b with
  | .sized _ content .. => { k with contentLength := content.length }
  | .chunked .. => { k with bChunked := true }

theorem decoderHeader_framing (b : Body) {k : Parser} (hlength : b.field.line.length ≠ npos)
    (hheader : p.length ≤ k.headerSize) (lines : List (ℕ × ℕ)) :
    decoderHeader (p ++ (b.field.line ++ 0 :: q))
        ((p.length, b.field.line.length) :: lines) k =
      decoderHeader (p ++ (b.field.line ++ 0 :: q)) lines (b.framed k) := by
  rw [b.field.decoderHeader_line q lines hlength hheader]
  cases b with
  | sized f content hname hdigits hvalue hlt =>
    rw [Body.field, f.kvDecoder_contentLength q k hname hdigits (by omega), Body.framed, hvalue]
  | chunked f chunks last trailer hname hvalue hlast =>
    rw [Body.field, f.kvDecoder_chunked k hname hvalue, Body.framed]

/-- The lines of a message's header. -/
def Message.headerLines (m : Message) : List (List UInt8) :=
  m.first.line :: m.headers.map Field.line

/-- **The header is decoded** to the framing of the body. -/
theorem decoderHeader_message (m : Message) (q : List UInt8) {k : Parser}
    (hlt : (wire nuls m.headerLines ++ q).length < npos)
    (hheader : (wire nuls m.headerLines).length ≤ k.headerSize) :
    ∃ keepAlive, decoderHeader (wire nuls m.headerLines ++ q) (spans 0 m.headerLines) k =
      m.body.framed { k with bKeepAlive := keepAlive } := by
  have hlines : wire nuls m.headerLines = (m.first.line ++ nuls) ++
      (wire nuls (m.before.map Field.line) ++ (m.body.field.line ++ nuls ++
        wire nuls (m.after.map Field.line))) := by
    rw [Message.headerLines, wire_cons, Message.headers, List.map_append, wire_append,
      List.map_cons, wire_cons]
  have hspans : spans 0 m.headerLines = (0, m.first.line.length) ::
      (spans (m.first.line ++ nuls).length (m.before.map Field.line) ++
        ((((m.first.line ++ nuls) ++ wire nuls (m.before.map Field.line)).length,
            m.body.field.line.length) ::
          spans (((m.first.line ++ nuls) ++ wire nuls (m.before.map Field.line)) ++
            (m.body.field.line ++ nuls)).length (m.after.map Field.line))) := by
    rw [Message.headerLines, spans, Message.headers, List.map_append, spans_append, List.map_cons,
      spans]
    simp only [List.length_append, length_nuls, Nat.zero_add, Nat.add_assoc]
  have hcount := congrArg List.length hlines
  simp only [List.length_append, length_nuls] at hcount
  have hbound := hlt
  rw [List.length_append] at hbound
  generalize hptr : wire nuls m.headerLines ++ q = ptr at hlt ⊢
  rw [hlines] at hptr
  -- the first line
  have hfirst : ∀ lines, decoderHeader ptr ((0, m.first.line.length) :: lines) k =
      decoderHeader ptr lines k := by
    intro lines
    have hsplit : splitLine (ptr.drop 0) m.first.line.length = none := by
      have hline : ptr = m.first.line ++ 0 :: (0 :: (wire nuls (m.before.map Field.line) ++
          (m.body.field.line ++ nuls ++ wire nuls (m.after.map Field.line)) ++ q)) := by
        rw [← hptr]
        simp [nuls]
      rw [List.drop_zero, hline]
      exact splitLine_first ..
    rw [decoderHeader, if_neg (by simp), if_neg (by simp only; omega)]
    simp only
    rw [hsplit]
  -- the fields before the framing field
  obtain ⟨keepAlive, hbefore⟩ := decoderHeader_unframed m.before
    (p := m.first.line ++ nuls)
    (q := m.body.field.line ++ nuls ++ wire nuls (m.after.map Field.line) ++ q)
    (fun f hf => m.unframed f (List.mem_append_left _ hf)) (by rw [← hptr]; simp) hlt (k := k)
    (by simp only [List.length_append, length_nuls]; omega)
    ((((m.first.line ++ nuls) ++ wire nuls (m.before.map Field.line)).length,
      m.body.field.line.length) ::
        spans (((m.first.line ++ nuls) ++ wire nuls (m.before.map Field.line)) ++
          (m.body.field.line ++ nuls)).length (m.after.map Field.line))
  -- the framing field
  have hframing := decoderHeader_framing (p := (m.first.line ++ nuls) ++
      wire nuls (m.before.map Field.line)) (q := 0 :: (wire nuls (m.after.map Field.line) ++ q))
    m.body (k := { k with bKeepAlive := keepAlive }) (by omega)
    (by simp only [List.length_append, length_nuls]; omega)
    (spans (((m.first.line ++ nuls) ++ wire nuls (m.before.map Field.line)) ++
      (m.body.field.line ++ nuls)).length (m.after.map Field.line))
  have hfield : (m.first.line ++ nuls) ++ wire nuls (m.before.map Field.line) ++
      (m.body.field.line ++ 0 :: (0 :: (wire nuls (m.after.map Field.line) ++ q))) = ptr := by
    rw [← hptr]
    simp [nuls]
  rw [hfield] at hframing
  -- the fields after it
  have hsize : (m.body.framed { k with bKeepAlive := keepAlive }).headerSize = k.headerSize := by
    cases m.body with
    | sized => rfl
    | chunked => rfl
  obtain ⟨keepAlive', hafter⟩ := decoderHeader_unframed m.after (q := q)
    (p := ((m.first.line ++ nuls) ++ wire nuls (m.before.map Field.line)) ++
      (m.body.field.line ++ nuls))
    (fun f hf => m.unframed f (List.mem_append_right _ hf))
    (by rw [← hptr]; simp) hlt (k := m.body.framed { k with bKeepAlive := keepAlive })
    (by rw [hsize]; simp only [List.length_append, length_nuls]; omega) []
  rw [List.append_nil, decoderHeader] at hafter
  refine ⟨keepAlive', ?_⟩
  rw [hspans, hfirst, hbefore, hframing, hafter]
  cases m.body with
  | sized => rfl
  | chunked => rfl

end Headers

end NetworkPool
