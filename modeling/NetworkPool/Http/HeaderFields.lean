import NetworkPool.Http.FirstLine
import NetworkPool.Http.ChunkFraming

/-!
# What the header sets

The lines of the header decide `m_bKeepAlive`, `m_contentLength` and `m_bChunked`, and what comes
behind the header changes neither them nor the lines. Hence a complete message is framed as its
lines say (`Headed`).
-/

namespace NetworkPool

open Lib (Incremental)
open Lib.CString

/-- The members that the header sets. -/
def Parser.framing (k : Parser) : Bool × ℕ × Bool :=
  (k.bKeepAlive, k.contentLength, k.bChunked)

/-- What the loop of `decoderHeaderAndUpdateState` makes of lines. -/
def headerFraming (ptr : List UInt8) (lines : List (ℕ × ℕ)) (headerSize : ℕ) : Bool × ℕ × Bool :=
  (decoderHeader ptr lines { headerSize }).framing

/-! ## The loop -/

section Loop

variable {ptr : List UInt8} {k k' : Parser}

/-- `kvDecoder` looks at nothing but what it sets. -/
theorem kvDecoder_framing (h : k.framing = k'.framing) (name value : List UInt8)
    (nameLength valueLength : ℕ) :
    (kvDecoder k name nameLength value valueLength).framing =
      (kvDecoder k' name nameLength value valueLength).framing := by
  simp only [Parser.framing, Prod.mk.injEq] at h
  obtain ⟨hkeep, hlength, hchunked⟩ := h
  unfold kvDecoder
  split_ifs
  · simp only [Parser.framing, hlength, hchunked]
  · simp only [Parser.framing, hkeep, hchunked]
  · simp only [Parser.framing, hkeep, hlength]
  · simp only [Parser.framing, hkeep, hlength, hchunked]

theorem kvDecoder_headerSize (k : Parser) (name value : List UInt8) (nameLength valueLength : ℕ) :
    (kvDecoder k name nameLength value valueLength).headerSize = k.headerSize := by
  obtain ⟨keepAlive, chunked, contentLength, hframe⟩ :=
    kvDecoder_frame k name value nameLength valueLength
  rw [hframe]

theorem decoderHeader_framing_congr {lines : List (ℕ × ℕ)} (h : k.framing = k'.framing)
    (hsize : k.headerSize = k'.headerSize) :
    (decoderHeader ptr lines k).framing = (decoderHeader ptr lines k').framing := by
  induction lines generalizing k k' with
  | nil => exact h
  | cons line lines ih =>
    rw [decoderHeader, decoderHeader, hsize]
    split_ifs
    · exact h
    · exact ih h hsize
    · simp only
      cases splitLine (ptr.drop line.1) line.2 with
      | none => exact ih h hsize
      | some f =>
        apply ih (kvDecoder_framing h _ _ _ _)
        rw [kvDecoder_headerSize, kvDecoder_headerSize, hsize]

/-- Lines behind the header are not looked at. -/
theorem decoderHeader_beyond {header rest : List (ℕ × ℕ)}
    (hrest : ∀ l ∈ rest, k.headerSize < l.1) :
    decoderHeader ptr (header ++ rest) k = decoderHeader ptr header k := by
  induction header generalizing k with
  | nil =>
    cases rest with
    | nil => rfl
    | cons l rest =>
      rw [List.nil_append, decoderHeader, decoderHeader, if_pos (hrest l List.mem_cons_self)]
  | cons line header ih =>
    rw [List.cons_append, decoderHeader, decoderHeader]
    split_ifs
    · rfl
    · exact ih hrest
    · simp only
      cases splitLine (ptr.drop line.1) line.2 with
      | none => exact ih hrest
      | some f =>
        apply ih
        intro l hl
        rw [kvDecoder_headerSize]
        exact hrest l hl

end Loop

/-! ## In the header -/

/-- What holds while lines of the header are read. -/
structure InHeader (s : View) : Prop where
  state_eq : s.2.state = .readHeader
  framing_eq : s.2.framing = (false, 0, false)
  chunks_eq : s.2.chunks = []
  lines_lt : ∀ x ∈ s.2.lines, x.2 ≠ npos → x.1 + x.2 < s.2.analysisIndex

/-- What holds behind the header: it is `p` and a line end, and `header` are its lines. -/
structure Headed (p : List UInt8) (header : List (ℕ × ℕ)) (s : View) : Prop where
  past : PastHeader s.2.state
  front : ∃ m, s.1 = p ++ nuls ++ m
  size_eq : s.2.headerSize = p.length + 2
  index_le : p.length + 2 ≤ s.2.analysisIndex
  lines : ∃ rest, s.2.lines = header ++ rest ∧ (∀ x ∈ rest, p.length + 2 < x.1) ∧
    (s.2.state = .readChunkFooter → rest ≠ [])
  framing_eq : s.2.framing = headerFraming (p ++ nuls) header (p.length + 2)
  chunked : s.2.state = .readChunkHeader ∨ s.2.state = .readChunkBody ∨
    s.2.state = .readChunkFooter → s.2.bChunked = true
  body : s.2.state = .readBody → s.2.chunks = [] ∧ s.2.analysisIndex = p.length + 2 ∧
    s.2.contentLength ≠ 0
  ended : s.2.state = .done → s.2.bChunked = false →
    s.2.chunks = (if s.2.contentLength = 0 then [] else [(p.length + 2, s.2.contentLength)]) ∧
      s.2.analysisIndex = p.length + 2 + s.2.contentLength
  terminated : Terminated (p ++ nuls) header

section Steps

variable {s s' : View} {p : List UInt8} {header : List (ℕ × ℕ)} {l : List UInt8}

/-- The line that ends is the last one. -/
theorem first_of_line {ptr : List UInt8} {k : Parser} {first length : ℕ}
    (h : (scanLine endFooter ptr k).2.2.lines =
      k.lines.dropLast ++ [(first, length), (k.analysisIndex + 1, npos)]) :
    first = (k.lines.getLastD (0, npos)).1 := by
  have hcount : ∀ lines : List (ℕ × ℕ), lines.length ≤ k.lines.dropLast.length + 1 →
      lines ≠ k.lines.dropLast ++ [(first, length), (k.analysisIndex + 1, npos)] := by
    intro lines hle heq
    rw [heq, List.length_append, List.length_cons, List.length_singleton] at hle
    omega
  have hall : k.lines.length ≤ k.lines.dropLast.length + 1 := by
    rw [List.length_dropLast]
    omega
  unfold scanLine at h
  simp only at h
  split_ifs at h
  · exact absurd h (hcount _ hall)
  · exact absurd h (hcount _ (Nat.le_succ _))
  · have hpair := List.append_cancel_left h
    simp only [List.cons.injEq, Prod.mk.injEq, and_true] at hpair
    exact hpair.1.symm
  · exact absurd h (hcount _ hall)

/-- **A step behind the header.** -/
theorem Headed.step (h : Headed p header s) (hstep : analyserStep s = some s') :
    Headed p header s' := by
  obtain ⟨flow, -, hprogress⟩ := progress_of_analyserStep hstep
  have hpast := h.past
  have hsize := h.size_eq
  have hindex := h.index_le
  have hframing := h.framing_eq
  obtain ⟨rest, hlines, hfirst, hopen⟩ := h.lines
  have hend : ∃ m, terminate s.1 s.2.analysisIndex = p ++ nuls ++ m := by
    obtain ⟨m, hm⟩ := h.front
    rw [hm]
    exact terminate_front hindex
  have hpassed := pass_of_analyserStep hstep
  cases hprogress with
  | ended => exact h
  | wait => exact h
  | fail =>
    exact ⟨by simp [PastHeader], h.front, hsize, hindex, ⟨rest, hlines, hfirst, by simp⟩, hframing,
      by simp, by simp, by simp, h.terminated⟩
  | start _ hstate => exact absurd hstate hpast.1
  | header _ hstate => exact absurd hstate hpast.2
  | byte _ hstate =>
    refine ⟨hpast, h.front, hsize, Nat.le_succ_of_le hindex, ⟨rest, hlines, hfirst, hopen⟩,
      hframing, h.chunked, fun hbody => ?_, fun hdone => ?_, h.terminated⟩
    · exact absurd hstate (by simp [Scanning, show s.2.state = .readBody from hbody])
    · exact absurd hstate (by simp [Scanning, show s.2.state = .done from hdone])
  | line hunread hstate first length =>
    have hfooter : s.2.state = .readChunkFooter := hstate.resolve_left hpast.2
    have hne := hopen hfooter
    -- the line that ends began behind the header
    have hlast : p.length + 2 < first := by
      have hscan := congrArg (·.2.lines) hpassed.1
      simp only [pass_readChunkFooter s.1 hfooter hunread] at hscan
      obtain ⟨earlier, x, rfl⟩ := (List.eq_nil_or_concat rest).resolve_left hne
      rw [List.concat_eq_append] at hlines hfirst
      rw [first_of_line hscan, hlines, ← List.append_assoc, List.getLastD_concat]
      exact hfirst x (List.mem_append_right _ List.mem_cons_self)
    refine ⟨hpast, hend, hsize, Nat.le_succ_of_le hindex,
      ⟨rest.dropLast ++ [(first, length), (s.2.analysisIndex + 1, npos)], ?_, ?_, by simp⟩,
      hframing, h.chunked, fun hbody => ?_, fun hdone => ?_, h.terminated⟩
    · simp only
      rw [hlines, List.dropLast_append_of_ne_nil hne, List.append_assoc]
    · intro x hx
      rcases List.mem_append.mp hx with hx | hx
      · exact hfirst x (List.dropLast_subset _ hx)
      · rcases List.mem_pair.mp hx with rfl | rfl
        · exact hlast
        · simp only
          omega
    · exact absurd (hfooter.symm.trans hbody) (by decide)
    · exact absurd (hfooter.symm.trans hdone) (by decide)
  | body hstate =>
    obtain ⟨hchunks, hbegin, hlength⟩ := h.body hstate
    refine ⟨by simp [PastHeader], h.front, hsize, Nat.le_add_right_of_le hindex,
      ⟨rest, hlines, hfirst, by simp⟩, hframing, by simp, by simp, fun _ _ => ?_, h.terminated⟩
    simp only
    rw [hchunks, hbegin, if_neg hlength, List.nil_append]
    exact ⟨rfl, rfl⟩
  | size _ hstate =>
    exact ⟨by simp [PastHeader], hend, hsize, Nat.le_succ_of_le hindex,
      ⟨rest, hlines, hfirst, by simp⟩, hframing, fun _ => h.chunked (.inl hstate), by simp, by simp,
      h.terminated⟩
  | lastSize _ hstate =>
    refine ⟨by simp [PastHeader], hend, hsize, Nat.le_succ_of_le hindex,
      ⟨rest ++ [(s.2.analysisIndex + 1, npos)], ?_, ?_, by simp⟩, hframing,
      fun _ => h.chunked (.inl hstate), by simp, by simp,
      h.terminated⟩
    · simp only
      rw [hlines, List.append_assoc]
    · intro x hx
      rcases List.mem_append.mp hx with hx | hx
      · exact hfirst x hx
      · rw [List.mem_singleton.mp hx]
        simp only
        omega
  | chunk _ hstate =>
    exact ⟨by simp [PastHeader], h.front, hsize, Nat.le_add_right_of_le hindex,
      ⟨rest, hlines, hfirst, by simp⟩, hframing, fun _ => h.chunked (.inr (.inl hstate)), by simp,
      by simp, h.terminated⟩
  | trailer _ hstate =>
    have hchunked := h.chunked (.inr (.inr hstate))
    have hne := hopen hstate
    refine ⟨by simp [PastHeader], hend, hsize, Nat.le_succ_of_le hindex,
      ⟨rest.dropLast, ?_, fun x hx => hfirst x (List.dropLast_subset _ hx), by simp⟩, hframing,
      fun _ => hchunked, by simp, fun _ hplain => ?_, h.terminated⟩
    · simp only
      rw [hlines, List.dropLast_append_of_ne_nil hne]
    · exact absurd hchunked (by simpa using hplain)

/-- What the end of the header decides. -/
theorem decoderHeaderAndUpdateState_next (ptr : List UInt8) (k : Parser) :
    let k' := decoderHeaderAndUpdateState ptr k
    k'.framing = (decoderHeader ptr k.lines k).framing ∧
      (k'.state = .readChunkHeader ∧ k'.bChunked = true ∨
        k'.state = .readBody ∧ k'.contentLength ≠ 0 ∨
        k'.state = .done ∧ (k'.bChunked = false → k'.contentLength = 0)) := by
  unfold decoderHeaderAndUpdateState
  simp only
  split_ifs with hchunked hlength
  · exact ⟨rfl, .inl ⟨rfl, hchunked⟩⟩
  · exact ⟨rfl, .inr (.inl ⟨rfl, Nat.ne_of_gt hlength⟩)⟩
  · exact ⟨rfl, .inr (.inr ⟨rfl, fun _ => Nat.eq_zero_of_not_pos hlength⟩)⟩

/-- The two bytes of a line end, whatever they are. -/
theorem terminate_pair (p q : List UInt8) (a b : UInt8) :
    terminate (p ++ a :: b :: q) (p.length + 1) = p ++ nuls ++ q := by
  rw [terminate, Nat.add_sub_cancel, List.set_append_right _ _ le_rfl,
    List.set_append_right _ _ (by omega)]
  simp [nuls]

/-- **The end of the header.** -/
theorem InHeader.ends {k' : Parser} (h : InHeader s) (hok : s.2.Ok s.1)
    (hunread : s.2.analysisIndex < s.1.length) (hpos : 0 < s.2.analysisIndex)
    (hdecode : k' = decoderHeaderAndUpdateState (terminate s.1 s.2.analysisIndex)
      { s.2 with
        lines := s.2.lines.dropLast, headerSize := s.2.analysisIndex + 1
        analysisIndex := s.2.analysisIndex + 1 }) :
    Headed (s.1.take (s.2.analysisIndex - 1)) s.2.lines.dropLast
      (terminate s.1 s.2.analysisIndex, k') := by
  set k : Parser :=
    { s.2 with
      lines := s.2.lines.dropLast, headerSize := s.2.analysisIndex + 1
      analysisIndex := s.2.analysisIndex + 1 }
  set p := s.1.take (s.2.analysisIndex - 1) with hp
  have hlength : p.length + 1 = s.2.analysisIndex := by
    rw [hp, List.length_take]
    omega
  -- the data
  have hfront : terminate s.1 s.2.analysisIndex = p ++ nuls ++ s.1.drop (s.2.analysisIndex + 1) := by
    obtain ⟨a, b, q, hq⟩ : ∃ a b q, s.1.drop (s.2.analysisIndex - 1) = a :: b :: q := by
      have hcount : (s.1.drop (s.2.analysisIndex - 1)).length =
          s.1.length - (s.2.analysisIndex - 1) := List.length_drop
      match hdrop : s.1.drop (s.2.analysisIndex - 1) with
      | a :: b :: q => exact ⟨a, b, q, rfl⟩
      | [a] =>
        rw [hdrop, List.length_singleton] at hcount
        omega
      | [] =>
        rw [hdrop, List.length_nil] at hcount
        omega
    have hsplit := List.take_append_drop (s.2.analysisIndex - 1) s.1
    rw [hq] at hsplit
    have hrest : s.1.drop (s.2.analysisIndex + 1) = q := by
      rw [show s.2.analysisIndex + 1 = (s.2.analysisIndex - 1) + 2 by omega, ← List.drop_drop, hq]
      rfl
    rw [hrest, ← hlength, ← terminate_pair p q a b, hsplit]
  have hterminated : Terminated (p ++ nuls) s.2.lines.dropLast := by
    intro x hx hcomplete
    have hmem := List.dropLast_subset _ hx
    have hlt := h.lines_lt x hmem hcomplete
    have hzero := getElem?_terminate (i := s.2.analysisIndex) (hok.terminated x hmem hcomplete)
    rw [hfront, List.getElem?_append_left (by rw [List.length_append, length_nuls]; omega)] at hzero
    exact hzero
  -- the members
  obtain ⟨hlines, hindex, hchunks, hafter⟩ :=
    decoderHeaderAndUpdateState_frame (terminate s.1 s.2.analysisIndex) k
  obtain ⟨hsize, -⟩ := decoderHeaderAndUpdateState_spec (terminate s.1 s.2.analysisIndex) k
  obtain ⟨hframing, hnext⟩ := decoderHeaderAndUpdateState_next (terminate s.1 s.2.analysisIndex) k
  rw [← hdecode] at hlines hindex hchunks hafter hsize hframing hnext
  have hkframing : k.framing = (false, 0, false) := h.framing_eq
  have hkchunks : k.chunks = [] := h.chunks_eq
  have hksize : k.headerSize = p.length + 2 := by
    show s.2.analysisIndex + 1 = p.length + 2
    omega
  have hkindex : k.analysisIndex = p.length + 2 := hksize
  have hbody : k'.framing = headerFraming (p ++ nuls) s.2.lines.dropLast (p.length + 2) := by
    rw [hframing, hfront, decoderHeader_append _ hterminated, headerFraming]
    exact decoderHeader_framing_congr hkframing hksize
  rcases hnext with ⟨hstate, hchunked⟩ | ⟨hstate, hpositive⟩ | ⟨hstate, hzero⟩
  · exact ⟨by simp [PastHeader, hstate], ⟨_, hfront⟩, hsize.trans hksize, (hindex.trans hkindex).ge,
      ⟨[], by simp only [hlines, List.append_nil]; rfl, by simp, by simp [hstate]⟩, hbody,
      fun _ => hchunked, by simp [hstate], by simp [hstate], hterminated⟩
  · exact ⟨by simp [PastHeader, hstate], ⟨_, hfront⟩, hsize.trans hksize, (hindex.trans hkindex).ge,
      ⟨[], by simp only [hlines, List.append_nil]; rfl, by simp, by simp [hstate]⟩, hbody,
      by simp [hstate], fun _ => ⟨hchunks.trans hkchunks, hindex.trans hkindex, hpositive⟩,
      by simp [hstate], hterminated⟩
  · refine ⟨by simp [PastHeader, hstate], ⟨_, hfront⟩, hsize.trans hksize, (hindex.trans hkindex).ge,
      ⟨[], by simp only [hlines, List.append_nil]; rfl, by simp, by simp [hstate]⟩, hbody,
      by simp [hstate], by simp [hstate], fun _ hplain => ?_, hterminated⟩
    rw [if_pos (hzero hplain)]
    refine ⟨hchunks.trans hkchunks, ?_⟩
    simp only [hzero hplain]
    exact hindex.trans hkindex

/-- **A step in the header.** -/
theorem InHeader.step (h : InHeader s) (hok : s.2.Ok s.1) (hpos : 0 < s.2.analysisIndex)
    (hstep : analyserStep s = some s') :
    InHeader s' ∨ s'.2.state = .bad ∨ ∃ p header, Headed p header s' := by
  obtain ⟨flow, -, hprogress⟩ := progress_of_analyserStep hstep
  have hlt := h.lines_lt
  cases hprogress with
  | ended => exact .inl h
  | wait => exact .inl h
  | fail => exact .inr (.inl rfl)
  | start _ hstate => exact absurd (h.state_eq.symm.trans hstate) (by decide)
  | byte =>
    refine .inl ⟨h.state_eq, h.framing_eq, h.chunks_eq, fun x hx hcomplete => ?_⟩
    exact Nat.lt_succ_of_lt (hlt x hx hcomplete)
  | line _ _ first length hlength =>
    refine .inl ⟨h.state_eq, h.framing_eq, h.chunks_eq, fun x hx hcomplete => ?_⟩
    rcases List.mem_append.mp hx with hx | hx
    · exact Nat.lt_succ_of_lt (hlt x (List.dropLast_subset _ hx) hcomplete)
    · rcases List.mem_pair.mp hx with rfl | rfl
      · simp only
        omega
      · exact absurd rfl hcomplete
  | header hunread _ k' hdecode => exact .inr (.inr ⟨_, _, h.ends hok hunread hpos hdecode⟩)
  | body hstate => exact absurd (h.state_eq.symm.trans hstate) (by decide)
  | size _ hstate => exact absurd (h.state_eq.symm.trans hstate) (by decide)
  | lastSize _ hstate => exact absurd (h.state_eq.symm.trans hstate) (by decide)
  | chunk _ hstate => exact absurd (h.state_eq.symm.trans hstate) (by decide)
  | trailer _ hstate => exact absurd (h.state_eq.symm.trans hstate) (by decide)

/-- A message that is complete behind a first line is behind its header. -/
theorem exists_headed {q : List UInt8} {f : View} {o : List Request}
    (hruns : analyser.Runs (behindFirst l q) o f) (hdone : f.2.state = .done) :
    ∃ p header, Headed p header f := by
  have hinit : InHeader (behindFirst l q) := by
    refine ⟨rfl, rfl, rfl, fun x hx hcomplete => ?_⟩
    rcases List.mem_pair.mp hx with rfl | rfl
    · show 0 + l.length < l.length + 2
      omega
    · exact absurd rfl hcomplete
  have hok : (behindFirst l q).2.Ok (behindFirst l q).1 := by
    refine ⟨?_, fun x hx hcomplete => ?_⟩
    · show l.length + 2 ≤ (l ++ nuls ++ q).length
      rw [List.length_append, List.length_append, length_nuls]
      omega
    · rcases List.mem_pair.mp hx with rfl | rfl
      · show (l ++ nuls ++ q)[0 + l.length]? = some 0
        rw [Nat.zero_add]
        simp [nuls]
      · exact absurd rfl hcomplete
  have hlast := analyser_invariant
    (I := fun s => (Begun l s ∧ s.2.Ok s.1) ∧
      (InHeader s ∨ s.2.state = .bad ∨ ∃ p header, Headed p header s))
    hruns ⟨⟨.init l q, hok⟩, .inl hinit⟩ ?_
  · rcases hlast.2 with h | hbad | h
    · exact absurd (h.state_eq.symm.trans hdone) (by decide)
    · exact absurd (hbad.symm.trans hdone) (by decide)
    · exact h
  · rintro s s' ⟨⟨hbegun, hok⟩, h⟩ hstep
    refine ⟨⟨hbegun.step hstep, analyserStep_ok hok hstep⟩, ?_⟩
    rcases h with h | hbad | ⟨p, header, h⟩
    · have hindex := hbegun.index_le
      exact h.step hok (by omega) hstep
    · rw [analyserStep_over (.inr hbad)] at hstep
      exact absurd hstep (by simp)
    · exact .inr (.inr ⟨p, header, h.step hstep⟩)

end Steps

/-! ## Complete messages -/

section Done

variable {w : List UInt8} {f : View} {o : List Request}

/-- **A complete message is framed as its header lines say**, and without chunks its body is what
`m_contentLength` says. -/
theorem framing_of_done (hhalts : analyser.Halts (w, {}) o f) (hdone : f.2.state = .done) :
    f.2.framing = headerFraming f.1 f.2.lines f.2.headerSize ∧
      (f.2.bChunked = false →
        f.2.chunks =
          (if f.2.contentLength = 0 then [] else [(f.2.headerSize, f.2.contentLength)]) ∧
        f.2.analysisIndex = f.2.headerSize + f.2.contentLength) := by
  rcases done_cases hhalts hdone with ⟨q, -, rfl⟩ | ⟨l, q, o', -, -, -, hrest⟩
  · exact ⟨rfl, fun _ => ⟨rfl, rfl⟩⟩
  · obtain ⟨p, header, h⟩ := exists_headed hrest.1 hdone
    obtain ⟨m, hm⟩ := h.front
    obtain ⟨rest, hlines, hfirst, -⟩ := h.lines
    refine ⟨?_, fun hplain => ?_⟩
    · rw [h.framing_eq, headerFraming, headerFraming, h.size_eq, hm, hlines,
        decoderHeader_beyond hfirst, decoderHeader_append m h.terminated]
    · rw [h.size_eq]
      exact h.ended hdone hplain

end Done

end NetworkPool
