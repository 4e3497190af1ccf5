import NetworkPool.Http.HeaderFields

/-!
# The length of a body

A complete message without chunks has a body of the length that its last Content-Length field
declares exactly when the value is a decimal numeral that an `int` can hold
(`body_length_iff`): `atoi` takes anything.
-/

namespace NetworkPool

open Lib.CString
open ChttpContext (parameter)

/-! ## Fields -/

section Split

variable {line : List UInt8} {length : ℕ} {f : LineSplit}

/-- The pointers into a header line: the name ends inside the line, and the value, which is not
empty, is followed by a byte that is not part of a number. -/
theorem splitLine_field (hend : (line)[length]? = some 0) (hf : splitLine line length = some f) :
    f.nameTail ≤ line.length ∧ f.valueHead < f.valueTail ∧ f.valueTail < line.length ∧
      isdigit (line.getD f.valueTail 0) = false := by
  have hlength : length < line.length := (List.getElem?_eq_some_iff.mp hend).1
  have hhead := spaces_le_zero hend
  have hname : (line.drop (spaces line))[length - spaces line]? = some 0 := by
    rw [List.getElem?_drop, Nat.add_sub_cancel' hhead]
    exact hend
  unfold splitLine at hf
  simp only at hf
  cases hn : strchr (line.drop (spaces line)) 58 with
  | none =>
    rw [hn] at hf
    exact absurd hf (by simp)
  | some n =>
    rw [hn] at hf
    cases n with
    | zero => exact absurd hf (by simp)
    | succ n =>
      have hcolon := strchr_lt_zero (by decide) hn hname
      simp only at hf
      set colon := spaces line + (n + 1) with hcolonEq
      have hvalue : (line.drop (colon + 1))[length - (colon + 1)]? = some 0 := by
        rw [List.getElem?_drop, Nat.add_sub_cancel' (by omega)]
        exact hend
      have hle := spaces_le_zero hvalue
      have hstop := isspace_spaces (line.drop (colon + 1))
      rw [List.getD_eq_getElem?_getD, List.getElem?_drop, ← List.getD_eq_getElem?_getD] at hstop
      split_ifs at hf with hempty
      rw [← Option.some.inj hf]
      simp only
      have hlt := lt_trimBack hstop (show colon + 1 + spaces (line.drop (colon + 1)) < length by
        omega)
      have htrim := trimBack_le line length
      have hnameTail := trimBack_le line colon
      refine ⟨by omega, hlt, by omega, ?_⟩
      rcases Nat.lt_or_ge (trimBack line length) length with hspace | hall
      · have hblank := isspace_trimBack hspace
        by_contra hdigit
        rw [Bool.not_eq_false] at hdigit
        rw [isspace_of_isdigit hdigit] at hblank
        exact absurd hblank (by decide)
      · rw [Nat.le_antisymm htrim hall, List.getD_eq_getElem?_getD, hend]
        rfl

/-- The name and the value are inside the line. -/
theorem parameter_append {ptr : List UInt8} {l : ℕ × ℕ} (m : List UInt8)
    (hend : l.2 ≠ npos → ptr[l.1 + l.2]? = some 0) :
    parameter (ptr ++ m) l = parameter ptr l := by
  unfold parameter
  by_cases hcomplete : l.2 = npos
  · rw [if_pos hcomplete, if_pos hcomplete]
  · have hzero := hend hcomplete
    have hlt : l.1 + l.2 < ptr.length := (List.getElem?_eq_some_iff.mp hzero).1
    rw [← List.getElem?_drop] at hzero
    rw [if_neg hcomplete, if_neg hcomplete]
    simp only
    rw [List.drop_append_of_le_length (by omega), splitLine_append m hzero]
    cases hf : splitLine (ptr.drop l.1) l.2 with
    | none => rfl
    | some f =>
      obtain ⟨hname, hvalue, hvalueTail, -⟩ := splitLine_field hzero hf
      obtain ⟨hnameHead, -⟩ := splitLine_zero_mem (List.mem_of_getElem? hzero) hf
      have hhead := List.length_pos_of_mem hnameHead
      rw [List.length_drop] at hhead
      rw [Option.map_some, Option.map_some, List.drop_append_of_le_length (by omega),
        List.drop_append_of_le_length (by omega),
        List.take_append_of_le_length (by rw [List.length_drop]; omega),
        List.take_append_of_le_length (by rw [List.length_drop]; omega)]

end Split

/-- The fields of the header as `getParameter` splits them. -/
def headerFields (ptr : List UInt8) (headerSize : ℕ) (lines : List (ℕ × ℕ)) :
    List (List UInt8 × List UInt8) :=
  (lines.takeWhile (·.1 ≤ headerSize)).filterMap (parameter ptr)

/-- The values of the Content-Length fields. -/
def contentLengths (fields : List (List UInt8 × List UInt8)) : List (List UInt8) :=
  (fields.filter fun f => SameName (lit "Content-Length") f.1).map (·.2)

theorem headerFields_append {ptr : List UInt8} {headerSize : ℕ} {lines : List (ℕ × ℕ)}
    (m : List UInt8) (hend : Terminated ptr lines) :
    headerFields (ptr ++ m) headerSize lines = headerFields ptr headerSize lines := by
  unfold headerFields
  apply List.filterMap_congr
  intro l hl
  exact parameter_append m (hend l (List.takeWhile_subset _ hl))

theorem contentLengths_append (fields fields' : List (List UInt8 × List UInt8)) :
    contentLengths (fields ++ fields') = contentLengths fields ++ contentLengths fields' := by
  rw [contentLengths, List.filter_append, List.map_append, contentLengths, contentLengths]

theorem contentLengths_singleton (name value : List UInt8) :
    contentLengths [(name, value)] =
      if SameName (lit "Content-Length") name then [value] else [] := by
  unfold contentLengths
  by_cases hsame : SameName (lit "Content-Length") name
  · rw [if_pos hsame, List.filter_cons_of_pos (by simpa using hsame)]
    rfl
  · rw [if_neg hsame, List.filter_cons_of_neg (by simpa using hsame)]
    rfl

/-- What `kvDecoder` makes of a value that something else than a digit follows. -/
def Declares (v : List UInt8) (n : ℕ) : Prop :=
  ∃ b t, isdigit b = false ∧ n = (atoi (v ++ b :: t) % 2 ^ 64).toNat

section Decode

variable {ptr line : List UInt8} {length : ℕ} {f : LineSplit} {k : Parser}

theorem kvDecoder_contentLength_eq (hend : (line)[length]? = some 0)
    (hf : splitLine line length = some f) (k : Parser) :
    (kvDecoder k (line.drop f.nameHead) (f.nameTail - f.nameHead) (line.drop f.valueHead)
        (f.valueTail - f.valueHead)).contentLength =
      if SameName (lit "Content-Length")
          ((line.drop f.nameHead).take (f.nameTail - f.nameHead)) then
        (atoi (line.drop f.valueHead) % 2 ^ 64).toNat
      else k.contentLength := by
  obtain ⟨hname, -⟩ := splitLine_field hend hf
  set name := (line.drop f.nameHead).take (f.nameTail - f.nameHead) with hnameEq
  have hlength : name.length = f.nameTail - f.nameHead := by
    rw [hnameEq, List.length_take, List.length_drop]
    omega
  have hfourteen : (lit "Content-Length").length = 14 := by decide
  have hcompare : name.length = 14 →
      (strncasecmp (lit "Content-Length") (line.drop f.nameHead) 14 = true ↔
        SameName (lit "Content-Length") name) := by
    intro hcount
    have hiff := strncasecmp_iff (s := name)
      (t := (line.drop f.nameHead).drop (f.nameTail - f.nameHead))
      (show 0 ∉ lit "Content-Length" by decide) (hcount.trans hfourteen.symm)
    rw [hnameEq, List.take_append_drop, hfourteen, ← hnameEq] at hiff
    exact hiff
  unfold kvDecoder
  rw [← hlength]
  by_cases hsame : SameName (lit "Content-Length") name
  · have hcount : name.length = 14 := hsame.length_eq.trans hfourteen
    rw [if_pos hsame, if_neg (by simp [hcount]), if_pos (by simp [hcount, (hcompare hcount).mpr hsame])]
  · rw [if_neg hsame]
    split_ifs with hten hcl
    · rfl
    · rw [Bool.and_eq_true, beq_iff_eq] at hcl
      exact absurd ((hcompare hcl.1).mp hcl.2) hsame
    · rfl
    · rfl

/-- The value that is declared. -/
theorem declares_value (hend : (line)[length]? = some 0) (hf : splitLine line length = some f) :
    Declares ((line.drop f.valueHead).take (f.valueTail - f.valueHead))
      (atoi (line.drop f.valueHead) % 2 ^ 64).toNat := by
  obtain ⟨-, hvalue, hlt, hdigit⟩ := splitLine_field hend hf
  refine ⟨line.getD f.valueTail 0, line.drop (f.valueTail + 1), hdigit, ?_⟩
  have hrest : (line.drop f.valueHead).drop (f.valueTail - f.valueHead) =
      line.getD f.valueTail 0 :: line.drop (f.valueTail + 1) := by
    rw [List.drop_drop, Nat.add_sub_cancel' hvalue.le, List.drop_eq_getElem_cons hlt,
      List.getD_eq_getElem _ _ hlt]
  rw [← hrest, List.take_append_drop]

/-- **The last Content-Length field counts.** -/
theorem decoderHeader_contentLength {lines : List (ℕ × ℕ)} (hend : Terminated ptr lines) :
    (decoderHeader ptr lines k).contentLength = k.contentLength ∧
        contentLengths (headerFields ptr k.headerSize lines) = [] ∨
      ∃ v, (contentLengths (headerFields ptr k.headerSize lines)).getLast? = some v ∧
        Declares v (decoderHeader ptr lines k).contentLength := by
  induction lines generalizing k with
  | nil => exact .inl ⟨rfl, rfl⟩
  | cons l lines ih =>
    have hrest : Terminated ptr lines := fun x hx => hend x (List.mem_cons_of_mem l hx)
    rw [decoderHeader]
    by_cases hbeyond : l.1 > k.headerSize
    · have hfields : headerFields ptr k.headerSize (l :: lines) = [] := by
        rw [headerFields, List.takeWhile_cons_of_neg (by simpa using hbeyond), List.filterMap_nil]
      rw [if_pos hbeyond, hfields]
      exact .inl ⟨rfl, rfl⟩
    · have hfields : headerFields ptr k.headerSize (l :: lines) =
          (parameter ptr l).toList ++ headerFields ptr k.headerSize lines := by
        rw [headerFields, List.takeWhile_cons_of_pos (by simpa using hbeyond), List.filterMap_cons]
        cases parameter ptr l with
        | none => rfl
        | some x => rfl
      rw [if_neg hbeyond, hfields]
      by_cases hcomplete : l.2 = npos
      · have hnone : parameter ptr l = none := if_pos hcomplete
        rw [if_pos hcomplete, hnone]
        exact ih hrest
      · rw [if_neg hcomplete]
        have hzero := hend l List.mem_cons_self hcomplete
        rw [← List.getElem?_drop] at hzero
        simp only
        cases hf : splitLine (ptr.drop l.1) l.2 with
        | none =>
          have hnone : parameter ptr l = none := by
            rw [parameter, if_neg hcomplete]
            simp only [hf, Option.map_none]
          rw [hnone]
          exact ih hrest
        | some f =>
          have hsome : parameter ptr l =
              some (((ptr.drop l.1).drop f.nameHead).take (f.nameTail - f.nameHead),
                ((ptr.drop l.1).drop f.valueHead).take (f.valueTail - f.valueHead)) := by
            rw [parameter, if_neg hcomplete]
            simp only [hf, Option.map_some]
          have hvalue := kvDecoder_contentLength_eq hzero hf k
          have hlast := ih (k := kvDecoder k ((ptr.drop l.1).drop f.nameHead)
            (f.nameTail - f.nameHead) ((ptr.drop l.1).drop f.valueHead)
            (f.valueTail - f.valueHead)) hrest
          rw [kvDecoder_headerSize, hvalue] at hlast
          rw [hsome, Option.toList_some, contentLengths_append]
          simp only
          rcases hlast with ⟨hlength, hnone⟩ | ⟨v, hlast, hdeclares⟩
          · rw [hnone, List.append_nil, hlength]
            by_cases hsame : SameName (lit "Content-Length")
                (((ptr.drop l.1).drop f.nameHead).take (f.nameTail - f.nameHead))
            · rw [if_pos hsame, contentLengths_singleton, if_pos hsame]
              exact .inr ⟨_, rfl, declares_value hzero hf⟩
            · rw [if_neg hsame, contentLengths_singleton, if_neg hsame]
              exact .inl ⟨rfl, rfl⟩
          · refine .inr ⟨v, ?_, hdeclares⟩
            rw [List.getLast?_append, hlast, Option.some_or]

end Decode

/-! ## Numerals -/

/-- A plain unsigned decimal numeral. -/
def Numeral (v : List UInt8) : Prop :=
  v ≠ [] ∧ ∀ b ∈ v, isdigit b = true

/-- What a numeral declares is its value, if an `int` can hold it; a larger one declares no length
of bytes that can be in memory, or another one. -/
theorem Declares.numeral {v : List UInt8} {n : ℕ} (h : Declares v n) (hv : Numeral v)
    (hn : n < 2 ^ 63) : n = decimal v ↔ decimal v < 2 ^ 31 := by
  obtain ⟨b, t, hb, hn'⟩ := h
  constructor
  · intro heq
    rw [atoi, strtol_known hv.1 hv.2 hb, min_eq_left (by omega), Int.bmod_def] at hn'
    split at hn'
    · omega
    · omega
  · intro hlt
    rw [hn', atoi_known hv.1 hv.2 hb hlt]
    omega

namespace ChttpContext

/-- The value of the last Content-Length field. -/
def contentLengthField (ctx : ChttpContext) : Option (List UInt8) :=
  (contentLengths (headerFields ctx.buffer.getData ctx.headerSize ctx.lines)).getLast?

/-- The recorded body has `n` bytes. -/
def BodyLength (ctx : ChttpContext) (n : ℕ) : Prop :=
  (ctx.chunks = if n = 0 then [] else [(ctx.headerSize, n)]) ∧
    ∃ content, ctx.getContent = some (n, content) ∧ content.length = n

/-- The fields are inside the received bytes. -/
theorem contentLengthField_eq {ctx : ChttpContext} (h : ctx.Receiving) :
    ctx.contentLengthField =
      (contentLengths (headerFields ctx.received ctx.headerSize ctx.lines)).getLast? := by
  have hsplit : ctx.received ++ ctx.buffer.data.drop ctx.nowIndex = ctx.buffer.data :=
    List.take_append_drop ..
  rw [contentLengthField, Cbuffer.getData, ← hsplit, headerFields_append _ h.ok.terminated]

/-- `getContent` returns one length. -/
theorem BodyLength.unique {ctx : ChttpContext} {n m : ℕ} (h : ctx.BodyLength n)
    (h' : ctx.BodyLength m) : n = m := by
  obtain ⟨-, content, hcontent, -⟩ := h
  obtain ⟨-, content', hcontent', -⟩ := h'
  rw [hcontent, Option.some.injEq, Prod.mk.injEq] at hcontent'
  exact hcontent'.1

/-- A body that has been received is copied. -/
theorem BodyLength.of_chunks {ctx : ChttpContext} {n : ℕ} (hdone : ctx.state = .done)
    (hchunks : ctx.chunks = if n = 0 then [] else [(ctx.headerSize, n)])
    (hroom : ctx.headerSize + n ≤ ctx.buffer.data.length) : ctx.BodyLength n := by
  have hlt := ctx.buffer.data_lt
  refine ⟨hchunks, ?_⟩
  unfold getContent
  rw [if_neg (not_not.mpr hdone), hchunks]
  by_cases hn : n = 0
  · rw [if_pos hn, hn]
    exact ⟨[], rfl, rfl⟩
  · rw [if_neg hn]
    refine ⟨(ctx.buffer.getData.drop ctx.headerSize).take n, ?_, ?_⟩
    · simp only [List.foldl_cons, List.foldl_nil, List.flatMap_cons, List.flatMap_nil,
        List.append_nil, Nat.zero_add]
      rw [Nat.mod_eq_of_lt (by omega)]
    · rw [Cbuffer.getData, List.length_take, List.length_drop]
      omega

end ChttpContext

open ChttpContext

/-- **The body has the declared length**, and the declared length is one, exactly when the value
of the last Content-Length field is a numeral that an `int` can hold. -/
theorem body_length_iff {maxBufferSize : ℕ} {reads : List Read} {ctx : ChttpContext}
    {v : List UInt8} (hfeed : (ChttpContext.new maxBufferSize).feed reads = some ctx)
    (hdone : ctx.state = .done) (hplain : ctx.bChunked = false)
    (hlast : ctx.contentLengthField = some v) :
    (Numeral v ∧ ctx.BodyLength (decimal v)) ↔ Numeral v ∧ decimal v < 2 ^ 31 := by
  obtain ⟨-, hreceiving⟩ := feed_spec (.new maxBufferSize) (.new maxBufferSize) hfeed
  have hok := hreceiving.ok
  obtain ⟨hframing, hbody⟩ := framing_of_done (halts_of_feed hfeed) hdone
  obtain ⟨hchunks, hindex⟩ := hbody hplain
  simp only [view] at hchunks hindex hframing
  have hle : ctx.received.length ≤ ctx.buffer.data.length := List.length_take_le' ..
  have hdata := ctx.buffer.data_lt
  have hread := hok.index_le
  rw [hindex] at hread
  have hlength : ctx.BodyLength ctx.contentLength := .of_chunks hdone hchunks (by omega)
  -- the last field has set it
  have hdeclares : Declares v ctx.contentLength := by
    have hset : ctx.contentLength =
        (decoderHeader ctx.received ctx.lines { headerSize := ctx.headerSize }).contentLength :=
      congrArg (·.2.1) hframing
    rw [contentLengthField_eq hreceiving] at hlast
    rw [hset]
    rcases decoderHeader_contentLength (k := { headerSize := ctx.headerSize }) hok.terminated with
      ⟨-, hnone⟩ | ⟨v', hlast', hdeclares⟩
    · rw [hnone] at hlast
      exact absurd hlast (by simp)
    · obtain rfl := Option.some.inj (hlast.symm.trans hlast')
      exact hdeclares
  constructor
  · rintro ⟨hnumeral, hbody⟩
    exact ⟨hnumeral, (hdeclares.numeral hnumeral (by omega)).mp (hlength.unique hbody)⟩
  · rintro ⟨hnumeral, hlt⟩
    refine ⟨hnumeral, ?_⟩
    rw [← (hdeclares.numeral hnumeral (by omega)).mpr hlt]
    exact hlength

/-- A short message that is complete, and its last Content-Length field. -/
theorem exists_declared (w : List UInt8) (n : ℕ) (v : List UInt8) (hsmall : w.length ≤ 0x100)
    (hstuck : analyserStep (analyser.exec n (w, {})).2 = none)
    (hdone : (analyser.exec n (w, {})).2.2.state = .done)
    (hplain : (analyser.exec n (w, {})).2.2.bChunked = false)
    (hlast : (contentLengths (headerFields (analyser.exec n (w, {})).2.1
      (analyser.exec n (w, {})).2.2.headerSize
      (analyser.exec n (w, {})).2.2.lines)).getLast? = some v) :
    ∃ ctx, (ChttpContext.new 0x1000000).feed [⟨fun _ => 0, w⟩] = some ctx ∧
      ctx.state = .done ∧ ctx.bChunked = false ∧ ctx.contentLengthField = some v ∧
      ctx.contentLength = (analyser.exec n (w, {})).2.2.contentLength := by
  obtain ⟨ctx, hfeed, hstate, hview⟩ := exists_done w n hsmall hstuck hdone
  obtain ⟨-, hreceiving⟩ := feed_spec (.new 0x1000000) (.new 0x1000000) hfeed
  rw [← hview] at hplain hlast ⊢
  refine ⟨ctx, hfeed, hstate, hplain, ?_, rfl⟩
  rw [contentLengthField_eq hreceiving]
  exact hlast

/-- A body of one byte. -/
theorem body_length_iff_one :
    ∃ reads ctx, stream reads = lit "A B C\r\nContent-Length: 1\r\n\r\nx" ∧
      (ChttpContext.new 0x1000000).feed reads = some ctx ∧ ctx.state = .done ∧
      ctx.contentLengthField = some (lit "1") ∧ ctx.BodyLength 1 := by
  obtain ⟨ctx, hfeed, hdone, hplain, hlast, -⟩ := exists_declared
    (lit "A B C\r\nContent-Length: 1\r\n\r\nx") 40 (lit "1") (by decide) (by decide) (by decide)
    (by decide) (by decide)
  have hbody := (body_length_iff hfeed hdone hplain hlast).mpr ⟨⟨by decide, by decide⟩, by decide⟩
  exact ⟨_, ctx, rfl, hfeed, hdone, hlast, hbody.2⟩

/-- A value of `2 ^ 32 + 1`, and one with a sign: both messages are complete with one byte. -/
theorem body_length_other :
    (∃ reads ctx v, stream reads = lit "A B C\r\nContent-Length: 4294967297\r\n\r\nx" ∧
      (ChttpContext.new 0x1000000).feed reads = some ctx ∧ ctx.state = .done ∧
      ctx.bChunked = false ∧ ctx.contentLengthField = some v ∧ Numeral v ∧
      ctx.contentLength = 1 ∧ ¬ctx.BodyLength (decimal v)) ∧
    ∃ reads ctx v, stream reads = lit "A B C\r\nContent-Length: +1\r\n\r\nx" ∧
      (ChttpContext.new 0x1000000).feed reads = some ctx ∧ ctx.state = .done ∧
      ctx.bChunked = false ∧ ctx.contentLengthField = some v ∧ ¬Numeral v ∧
      ctx.contentLength = 1 := by
  constructor
  · obtain ⟨ctx, hfeed, hdone, hplain, hlast, hlength⟩ := exists_declared
      (lit "A B C\r\nContent-Length: 4294967297\r\n\r\nx") 60 (lit "4294967297") (by decide)
      (by decide) (by decide) (by decide) (by decide)
    have hone : ctx.contentLength = 1 := hlength.trans (by decide)
    refine ⟨_, ctx, _, rfl, hfeed, hdone, hplain, hlast, ⟨by decide, by decide⟩, hone, ?_⟩
    intro hbody
    have hchunks := ((framing_of_done (halts_of_feed hfeed) hdone).2 hplain).1
    simp only [view, hone] at hchunks
    have hother := hchunks.symm.trans hbody.1
    rw [if_neg (by decide), if_neg (by decide)] at hother
    have hsame : 1 = decimal (lit "4294967297") :=
      congrArg Prod.snd (List.head_eq_of_cons_eq hother)
    exact absurd hsame (by decide)
  · obtain ⟨ctx, hfeed, hdone, hplain, hlast, hlength⟩ := exists_declared
      (lit "A B C\r\nContent-Length: +1\r\n\r\nx") 60 (lit "+1") (by decide) (by decide) (by decide)
      (by decide) (by decide)
    refine ⟨_, ctx, _, rfl, hfeed, hdone, hplain, hlast, ?_, hlength.trans (by decide)⟩
    intro hnumeral
    exact absurd (hnumeral.2 43 (by decide)) (by decide)

end NetworkPool
