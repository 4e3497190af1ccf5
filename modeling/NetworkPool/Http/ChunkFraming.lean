import Mathlib.Data.List.TakeWhile
import NetworkPool.Http.DecodeBody

/-!
# The framing of chunks

What a body in chunks is, over the bytes as they were sent (`Framed`), and when the analyser
accepts no other: it does in exactly the runs in which it meets no size line without a digit, no
digit that the size has no room for, and no chunk that something else than CR LF follows
(`Checked`). The source tests none of the three.
-/

namespace NetworkPool

open Lib (Incremental)
open Lib.CString

/-! ## Numerals -/

def isHexDigit (b : UInt8) : Bool :=
  (hexDigit b).isSome

/-- A line without the spaces it begins with. -/
def unblank (line : List UInt8) : List UInt8 :=
  line.dropWhile isspace

/-- The hexadecimal numeral with which a line begins, behind spaces. -/
def numeral (line : List UInt8) : List UInt8 :=
  (unblank line).takeWhile isHexDigit

/-- A line that begins with a numeral, whose value is `n`. -/
def Sized (line : List UInt8) (n : ℕ) : Prop :=
  numeral line ≠ [] ∧ hexFold 0 (numeral line) = n

section Numerals

variable {t : List UInt8} {b : UInt8}

theorem isspace_of_hex (h : isHexDigit b = true) : isspace b = false := by
  unfold isHexDigit hexDigit at h
  unfold isspace
  grind

theorem unblank_concat (t : List UInt8) (b : UInt8) :
    unblank (t ++ [b]) = if unblank t = [] ∧ isspace b = true then [] else unblank t ++ [b] := by
  induction t with
  | nil =>
    cases hb : isspace b with
    | true => simp [unblank, hb]
    | false => simp [unblank, hb]
  | cons a t ih =>
    unfold unblank at ih ⊢
    rw [List.cons_append, List.dropWhile_cons, List.dropWhile_cons]
    split
    · exact ih
    · simp

/-- What begins with a line has a numeral that begins with its numeral. -/
theorem numeral_mono (t s : List UInt8) : numeral t <+: numeral (t ++ s) := by
  unfold numeral unblank
  rw [List.dropWhile_append]
  split
  · next hnil =>
    rw [List.isEmpty_iff.mp hnil]
    exact List.nil_prefix
  · rw [List.takeWhile_append]
    split
    · next hwhole =>
      rw [(List.takeWhile_prefix _).eq_of_length hwhole]
      exact List.prefix_append ..
    · exact List.prefix_rfl

theorem hexFold_concat (digits : List UInt8) (b : UInt8) :
    hexFold 0 (digits ++ [b]) = hexFold 0 digits * 16 + (hexDigit b).getD 0 := by
  rw [hexFold, List.foldl_append, List.foldl_cons, List.foldl_nil, hexFold]

theorem hexFold_mono {s : List UInt8} (h : t <+: s) : hexFold 0 t ≤ hexFold 0 s := by
  obtain ⟨r, rfl⟩ := h
  rw [hexFold, hexFold, List.foldl_append]
  exact le_hexFold ..

/-- A digit behind a line that holds only its numeral so far. -/
theorem numeral_concat_digit (hall : ∀ a ∈ unblank t, isHexDigit a = true)
    (hb : isHexDigit b = true) : numeral (t ++ [b]) = numeral t ++ [b] := by
  have hspace := isspace_of_hex hb
  have hwhole : (unblank t).takeWhile isHexDigit = unblank t :=
    List.takeWhile_eq_self_iff.mpr hall
  unfold numeral
  rw [unblank_concat, if_neg (by simp [hspace]), hwhole, List.takeWhile_eq_self_iff]
  intro a ha
  rcases List.mem_append.mp ha with ha | ha
  · exact hall a ha
  · rw [List.mem_singleton.mp ha]
    exact hb

/-- Nothing else makes the numeral longer. -/
theorem numeral_concat_other
    (h : ¬((∀ a ∈ unblank t, isHexDigit a = true) ∧ isHexDigit b = true)) :
    numeral (t ++ [b]) = numeral t := by
  unfold numeral
  rw [unblank_concat]
  split
  · next hblank => rw [hblank.1]
  · rw [List.takeWhile_append]
    split
    · next hwhole =>
      have hall : ∀ a ∈ unblank t, isHexDigit a = true :=
        List.takeWhile_eq_self_iff.mp ((List.takeWhile_prefix _).eq_of_length hwhole)
      have hb : isHexDigit b = false := by simpa using fun hb => h ⟨hall, hb⟩
      rw [List.takeWhile_cons, hb]
      simp [List.takeWhile_eq_self_iff.mpr hall]
    · rfl

/-- The CR at the end of a line is not part of the numeral. -/
theorem numeral_concat_cr (line : List UInt8) : numeral (line ++ [13]) = numeral line :=
  numeral_concat_other fun h => absurd h.2 (by decide)

end Numerals

/-! ## Bodies in chunks -/

section Framed

variable (w : List UInt8)

/-- A chunk at `o`: a line with its size, the content, of which `c` is the range, and CR LF. -/
def ChunkAt (o : ℕ) (c : ℕ × ℕ) (o' : ℕ) : Prop :=
  ∃ line content q, w.drop o = line ++ crlf ++ (content ++ crlf ++ q) ∧ 10 ∉ line ∧
    Sized line content.length ∧ content ≠ [] ∧
    c = (o + line.length + 2, content.length) ∧
    o' = o + line.length + 2 + content.length + 2

/-- The line with the size of the last chunk. -/
def LastSizeAt (o : ℕ) : Prop :=
  ∃ line q, w.drop o = line ++ crlf ++ q ∧ 10 ∉ line ∧ Sized line 0

/-- **A sound body in chunks** at `o`, whose contents are the ranges `chunks`. -/
inductive Framed : ℕ → List (ℕ × ℕ) → Prop
  | last {o : ℕ} (h : LastSizeAt w o) : Framed o []
  | chunk {o o' : ℕ} {c : ℕ × ℕ} {chunks : List (ℕ × ℕ)} (h : ChunkAt w o c o')
      (hrest : Framed o' chunks) : Framed o (c :: chunks)

end Framed

/-! ## What the source does not test -/

/-- The next step does not meet what the source lets pass. -/
structure Checked (s : View) : Prop where
  /-- A line with a size that ends has shown a digit. -/
  digit : s.2.state = .readChunkHeader → s.1.getD s.2.analysisIndex 0 = 10 →
    s.2.bChunkSizeStart = true
  /-- The size has room for the digit that comes. -/
  room : s.2.state = .readChunkHeader → s.2.bChunkSizeDone = false →
    ∀ v, hexDigit (s.1.getD s.2.analysisIndex 0) = some v → s.2.nowChunkSize * 16 + v < 2 ^ 64
  /-- The two bytes that are skipped behind the content are CR LF. -/
  ended : s.2.state = .readChunkBody → s.2.analysisIndex < s.1.length →
    (s.2.nowChunkSize + 2) % 2 ^ 64 ≤ s.1.length - s.2.analysisIndex →
    s.1.getD (s.2.analysisIndex + s.2.nowChunkSize) 0 = 13 ∧
      s.1.getD (s.2.analysisIndex + s.2.nowChunkSize + 1) 0 = 10

/-- What the parser holds after the characters `t` of a line with a size. -/
structure Scanned (t : List UInt8) (k : Parser) : Prop where
  size_eq : k.nowChunkSize = hexFold 0 (numeral t) % 2 ^ 64
  start_iff : k.bChunkSizeStart = true ↔ numeral t ≠ []
  done_iff : k.bChunkSizeDone = false ↔ ∀ b ∈ unblank t, isHexDigit b = true

theorem Scanned.nil {k : Parser} (hsize : k.nowChunkSize = 0) (hstart : k.bChunkSizeStart = false)
    (hdone : k.bChunkSizeDone = false) : Scanned [] k where
  size_eq := hsize
  start_iff := by simp [hstart, numeral, unblank]
  done_iff := by simp [hdone, unblank]

/-- The next character. -/
theorem Scanned.concat {t : List UInt8} {k : Parser} (h : Scanned t k) (b : UInt8) :
    Scanned (t ++ [b]) (chunkSizeChar b k) := by
  cases hdone : k.bChunkSizeDone with
  | true =>
    -- the numeral is over
    have hall : ¬∀ a ∈ unblank t, isHexDigit a = true := by
      rw [← h.done_iff, hdone]
      simp
    have hne : unblank t ≠ [] := by
      intro hnil
      rw [hnil] at hall
      exact hall (by simp)
    have hnumeral := numeral_concat_other (b := b) fun hboth => hall hboth.1
    have hsame : chunkSizeChar b k = k := if_pos hdone
    rw [hsame]
    refine ⟨by rw [hnumeral]; exact h.size_eq, by rw [hnumeral]; exact h.start_iff, ?_⟩
    rw [unblank_concat, if_neg fun hboth => hne hboth.1, hdone]
    simp only [Bool.true_eq_false, List.mem_append, false_iff]
    exact fun hmem => hall fun a ha => hmem a (.inl ha)
  | false =>
    have hall := h.done_iff.mp hdone
    cases hb : hexDigit b with
    | some v =>
      have hhex : isHexDigit b = true := by rw [isHexDigit, hb, Option.isSome_some]
      have hspace := isspace_of_hex hhex
      rw [chunkSizeChar_hex hb hdone]
      refine ⟨?_, ?_, ?_⟩
      · rw [numeral_concat_digit hall hhex, hexFold_concat, hb, Option.getD_some]
        simp only [h.size_eq]
        omega
      · rw [numeral_concat_digit hall hhex]
        simp
      · rw [unblank_concat, if_neg (by simp [hspace])]
        simp only [hdone, List.mem_append, List.mem_singleton, true_iff]
        rintro a (ha | rfl)
        · exact hall a ha
        · exact hhex
    | none =>
      have hhex : isHexDigit b = false := by rw [isHexDigit, hb, Option.isSome_none]
      have hnumeral := numeral_concat_other (t := t) (b := b) fun hboth => by
        rw [hhex] at hboth
        exact absurd hboth.2 (by decide)
      have hblank : unblank t = [] ↔ k.bChunkSizeStart = false := by
        have hwhole : numeral t = unblank t := List.takeWhile_eq_self_iff.mpr hall
        rw [← Bool.not_eq_true, h.start_iff, hwhole, not_not]
      have hother : ¬∀ a ∈ unblank t ++ [b], isHexDigit a = true := by
        intro hmem
        have hlast := hmem b (List.mem_append_right _ List.mem_cons_self)
        rw [hhex] at hlast
        exact absurd hlast (by decide)
      rw [chunkSizeChar_other hb hdone]
      by_cases hskip : k.bChunkSizeStart = false ∧ isspace b = true
      · -- a space in front of the size
        rw [if_neg (by simp [hskip])]
        refine ⟨by rw [hnumeral]; exact h.size_eq, by rw [hnumeral]; exact h.start_iff, ?_⟩
        rw [unblank_concat, if_pos ⟨hblank.mpr hskip.1, hskip.2⟩, hdone]
        simp
      · rw [if_pos (by simpa [or_iff_not_imp_left] using hskip)]
        refine ⟨by rw [hnumeral]; exact h.size_eq, by rw [hnumeral]; exact h.start_iff, ?_⟩
        rw [unblank_concat, if_neg (by rw [hblank]; exact hskip)]
        exact iff_of_false (by simp) hother

/-! ## Where the analysis stands -/

section Bytes

variable {ptr t q : List UInt8} {o i : ℕ} {b : UInt8}

theorem getD_of_drop (h : ptr.drop o = t ++ b :: q) : ptr.getD (o + t.length) 0 = b := by
  have hget : (ptr.drop o)[t.length]? = some b := by
    rw [h]
    simp
  rw [List.getElem?_drop] at hget
  rw [List.getD_eq_getElem?_getD, hget, Option.getD_some]

theorem drop_of_drop (h : ptr.drop o = t ++ q) : ptr.drop (o + t.length) = q := by
  rw [← List.drop_drop, h, List.drop_left]

/-- The bytes behind a line end are as they came. -/
theorem drop_terminate (ptr : List UInt8) (i : ℕ) :
    (terminate ptr i).drop (i + 1) = ptr.drop (i + 1) := by
  rw [terminate, List.drop_set_of_lt (by omega), List.drop_set_of_lt (by omega)]

end Bytes

/-- Where the analysis stands in the chunk at `o`: in its first line, of which it has read `t`,
or in its content. -/
inductive Place (w : List UInt8) (o : ℕ) (s : View) : Prop
  | line (t q : List UInt8) (hstate : s.2.state = .readChunkHeader)
      (hw : w.drop o = t ++ q) (hptr : s.1.drop o = t ++ q)
      (hindex : s.2.analysisIndex = o + t.length) (hlf : 10 ∉ t) (hscan : Scanned t s.2)
      (hlt : hexFold 0 (numeral t) < 2 ^ 64) (hprev : s.1.getD (o - 1) 0 ≠ 13)
  | content (line q : List UInt8) (hstate : s.2.state = .readChunkBody)
      (hw : w.drop o = line ++ crlf ++ q) (hptr : s.1.drop s.2.analysisIndex = q)
      (hindex : s.2.analysisIndex = o + line.length + 2) (hlf : 10 ∉ line)
      (hsized : Sized line s.2.nowChunkSize) (hpos : 0 < s.2.nowChunkSize)

/-- What a step does in a body of chunks. -/
inductive PlaceStep (w : List UInt8) (o : ℕ) (s s' : View) : Prop
  | same (hplace : Place w o s') (hchunks : s'.2.chunks = s.2.chunks)
  | next (c : ℕ × ℕ) (o' : ℕ) (hchunk : ChunkAt w o c o') (hplace : Place w o' s')
      (hchunks : s'.2.chunks = s.2.chunks ++ [c])
  | last (hlast : LastSizeAt w o) (hstate : s'.2.state = .readChunkFooter)
      (hchunks : s'.2.chunks = s.2.chunks)
  | bad (hstate : s'.2.state = .bad)

section Place

variable {w : List UInt8} {o : ℕ} {s s' : View}

/-- A step in the line with a size. -/
theorem PlaceStep.of_line {t q : List UInt8} (hstate : s.2.state = .readChunkHeader)
    (hw : w.drop o = t ++ q) (hptr : s.1.drop o = t ++ q)
    (hindex : s.2.analysisIndex = o + t.length) (hlf : 10 ∉ t) (hscan : Scanned t s.2)
    (hlt : hexFold 0 (numeral t) < 2 ^ 64) (hprev : s.1.getD (o - 1) 0 ≠ 13)
    (hchecked : Checked s) (hunread : s.2.analysisIndex < s.1.length) :
    PlaceStep w o s (readChunkHeader s.1 s.2).2 := by
  obtain ⟨b, q, rfl⟩ : ∃ b q', q = b :: q' := by
    apply List.exists_cons_of_ne_nil
    rintro rfl
    have hlength := congrArg List.length hptr
    rw [List.length_drop, List.append_nil] at hlength
    omega
  have hbyte : s.1.getD s.2.analysisIndex 0 = b := by
    rw [hindex]
    exact getD_of_drop hptr
  unfold readChunkHeader
  simp only [hbyte]
  by_cases hb : b = 10
  · rw [if_pos hb]
    by_cases hcr : s.1.getD (s.2.analysisIndex - 1) 0 = 13
    · rw [if_neg (not_not.mpr hcr)]
      -- the CR is part of the line
      obtain ⟨line, rfl⟩ : ∃ line, t = line ++ [13] := by
        rcases List.eq_nil_or_concat t with rfl | ⟨line, c, rfl⟩
        · rw [hindex, List.length_nil, Nat.add_zero] at hcr
          exact absurd hcr hprev
        · rw [List.concat_eq_append] at hptr hindex ⊢
          have hc : s.1.getD (o + line.length) 0 = c := by
            apply getD_of_drop (q := b :: q)
            rw [hptr]
            simp
          rw [hindex, List.length_append, List.length_singleton, ← Nat.add_assoc,
            Nat.add_sub_cancel, hc] at hcr
          exact ⟨line, by rw [hcr]⟩
      have hline : w.drop o = line ++ crlf ++ q := by
        rw [hw, hb]
        simp [crlf]
      have hnot : 10 ∉ line := fun hmem => hlf (List.mem_append_left _ hmem)
      have hdigit := hscan.start_iff.mp (hchecked.digit hstate (hbyte.trans hb))
      have hsize := hscan.size_eq
      rw [Nat.mod_eq_of_lt hlt] at hsize
      rw [numeral_concat_cr] at hdigit hsize
      rw [List.length_append, List.length_singleton] at hindex
      by_cases hpos : s.2.nowChunkSize > 0
      · rw [if_pos hpos]
        refine .same (.content line q rfl hline ?_ ?_ hnot ⟨hdigit, hsize.symm⟩ hpos) rfl
        · show (terminate s.1 s.2.analysisIndex).drop (s.2.analysisIndex + 1) = q
          rw [drop_terminate, hindex]
          have hline : s.1.drop o = (line ++ [13] ++ [b]) ++ q := by
            rw [hptr]
            simp
          have hdrop := drop_of_drop hline
          rw [List.length_append, List.length_append, List.length_singleton,
            List.length_singleton] at hdrop
          exact hdrop
        · show s.2.analysisIndex + 1 = o + line.length + 2
          omega
      · rw [if_neg hpos]
        refine .last ⟨line, q, hline, hnot, hdigit, ?_⟩ rfl rfl
        omega
    · rw [if_pos hcr]
      exact .bad rfl
  · rw [if_neg hb]
    obtain ⟨size, sizeStart, sizeDone, hchar, -⟩ := chunkSizeChar_frame b s.2
    have hnext := hscan.concat b
    have hroom : hexFold 0 (numeral (t ++ [b])) < 2 ^ 64 := by
      by_cases hgrow : (∀ a ∈ unblank t, isHexDigit a = true) ∧ isHexDigit b = true
      · obtain ⟨v, hv⟩ := Option.isSome_iff_exists.mp hgrow.2
        have hsmall := hchecked.room hstate (hscan.done_iff.mpr hgrow.1) v (by rw [hbyte, hv])
        rw [hscan.size_eq, Nat.mod_eq_of_lt hlt] at hsmall
        rw [numeral_concat_digit hgrow.1 hgrow.2, hexFold_concat, hv, Option.getD_some]
        exact hsmall
      · rw [numeral_concat_other hgrow]
        exact hlt
    rw [hchar] at hnext ⊢
    refine .same (.line (t ++ [b]) q hstate ?_ ?_ ?_ ?_ ⟨hnext.1, hnext.2, hnext.3⟩ hroom hprev)
      rfl
    · rw [hw]
      simp
    · show s.1.drop o = t ++ [b] ++ q
      rw [hptr]
      simp
    · show s.2.analysisIndex + 1 = o + (t ++ [b]).length
      rw [List.length_append, List.length_singleton]
      omega
    · simp only [List.mem_append, List.mem_singleton, not_or]
      exact ⟨hlf, Ne.symm hb⟩

/-- A step that completes the content of a chunk. -/
theorem PlaceStep.of_content {line q : List UInt8} (hstate : s.2.state = .readChunkBody)
    (hw : w.drop o = line ++ crlf ++ q) (hptr : s.1.drop s.2.analysisIndex = q)
    (hindex : s.2.analysisIndex = o + line.length + 2) (hlf : 10 ∉ line)
    (hsized : Sized line s.2.nowChunkSize) (hpos : 0 < s.2.nowChunkSize)
    (hchecked : Checked s) (hlt : s.1.length < 2 ^ 63)
    (hunread : s.2.analysisIndex < s.1.length)
    (hcomplete : (s.2.nowChunkSize + 2) % 2 ^ 64 ≤ s.1.length - s.2.analysisIndex) :
    PlaceStep w o s
      (s.1, { s.2 with
        chunks := s.2.chunks ++ [(s.2.analysisIndex, s.2.nowChunkSize)]
        analysisIndex := s.2.analysisIndex + (s.2.nowChunkSize + 2) % 2 ^ 64
        state := .readChunkHeader
        nowChunkSize := 0
        bChunkSizeStart := false
        bChunkSizeDone := false }) := by
  obtain ⟨hcr, hend⟩ := hchecked.ended hstate hunread hcomplete
  -- an LF is there, so the sum does not wrap
  have hinside : s.2.analysisIndex + s.2.nowChunkSize + 1 < s.1.length := by
    by_contra hout
    rw [List.getD_eq_default _ _ (by omega)] at hend
    exact absurd hend (by decide)
  rw [Nat.mod_eq_of_lt (by omega)]
  have hq : q = q.take s.2.nowChunkSize ++ crlf ++ q.drop (s.2.nowChunkSize + 2) := by
    have hget : ∀ n b, b ≠ 0 → s.1.getD (s.2.analysisIndex + n) 0 = b → q[n]? = some b := by
      intro n b hb hget
      rw [List.getD_eq_getElem?_getD] at hget
      rw [← hptr, List.getElem?_drop]
      cases hval : s.1[s.2.analysisIndex + n]? with
      | none =>
        rw [hval] at hget
        exact absurd hget.symm hb
      | some c =>
        rw [hval] at hget
        rw [← hget, Option.getD_some]
    have hsplit : q.drop s.2.nowChunkSize = 13 :: 10 :: q.drop (s.2.nowChunkSize + 2) := by
      obtain ⟨hlt₁, hval₁⟩ := List.getElem?_eq_some_iff.mp (hget _ 13 (by decide) hcr)
      obtain ⟨hlt₂, hval₂⟩ := List.getElem?_eq_some_iff.mp
        (hget (s.2.nowChunkSize + 1) 10 (by decide) hend)
      rw [List.drop_eq_getElem_cons hlt₁, hval₁, List.drop_eq_getElem_cons hlt₂, hval₂]
    rw [List.append_assoc, crlf, List.cons_append, List.cons_append, List.nil_append, ← hsplit,
      List.take_append_drop]
  have hlength : q.length = s.1.length - s.2.analysisIndex := by
    rw [← hptr, List.length_drop]
  have hcontent : (q.take s.2.nowChunkSize).length = s.2.nowChunkSize := by
    rw [List.length_take]
    omega
  have hne : q.take s.2.nowChunkSize ≠ [] := by
    apply List.ne_nil_of_length_pos
    omega
  have hdrop : ∀ l : List UInt8, l.drop (o + line.length + 2) = q →
      l.drop (s.2.analysisIndex + (s.2.nowChunkSize + 2)) =
        q.drop (s.2.nowChunkSize + 2) := by
    intro l hl
    rw [← List.drop_drop, hindex, hl]
  have hdropW : w.drop (o + line.length + 2) = q := by
    have hdropLine := drop_of_drop (o := o) (t := line ++ crlf) (q := q) hw
    rw [List.length_append, length_crlf] at hdropLine
    exact hdropLine
  refine .next (s.2.analysisIndex, s.2.nowChunkSize)
    (s.2.analysisIndex + (s.2.nowChunkSize + 2)) ?_ ?_ rfl
  · refine ⟨line, q.take s.2.nowChunkSize, q.drop (s.2.nowChunkSize + 2), ?_, hlf, ?_, hne, ?_, ?_⟩
    · rw [hw, ← hq]
    · rw [hcontent]
      exact hsized
    · rw [hcontent, hindex]
    · rw [hcontent]
      omega
  · refine .line [] (q.drop (s.2.nowChunkSize + 2)) rfl (hdrop w hdropW) ?_ rfl List.not_mem_nil
      (.nil rfl rfl rfl) (by decide) ?_
    · exact hdrop s.1 (by rw [← hindex]; exact hptr)
    · have hlast : s.2.analysisIndex + (s.2.nowChunkSize + 2) - 1 =
          s.2.analysisIndex + s.2.nowChunkSize + 1 := by omega
      show s.1.getD (s.2.analysisIndex + (s.2.nowChunkSize + 2) - 1) 0 ≠ 13
      rw [hlast, hend]
      decide

/-- **A checked step in a body of chunks.** -/
theorem Place.step (h : Place w o s) (hchecked : Checked s) (hlt : s.1.length < 2 ^ 63)
    (hstep : analyserStep s = some s') : PlaceStep w o s s' := by
  obtain ⟨rfl, hflow⟩ := pass_of_analyserStep hstep
  cases h with
  | line t q hstate hw hptr hindex hlf hscan hroom hprev =>
    have hunread : s.2.analysisIndex < s.1.length := by
      by_contra hread
      apply hflow
      rw [pass, if_neg (by simp [hstate]), if_pos (by omega)]
    rw [pass_readChunkHeader hstate hunread]
    exact .of_line hstate hw hptr hindex hlf hscan hroom hprev hchecked hunread
  | content line q hstate hw hptr hindex hlf hsized hpos =>
    have hunread : s.2.analysisIndex < s.1.length := by
      by_contra hread
      apply hflow
      rw [pass, if_neg (by simp [hstate]), if_pos (by omega)]
    rw [pass, if_neg (by simp [hstate]), if_neg (by omega), hstate] at hflow ⊢
    simp only [readChunkBody] at hflow ⊢
    by_cases hcomplete : (s.2.nowChunkSize + 2) % 2 ^ 64 ≤ s.1.length - s.2.analysisIndex
    · rw [if_pos hcomplete]
      exact .of_content hstate hw hptr hindex hlf hsized hpos hchecked hlt hunread hcomplete
    · rw [if_neg hcomplete] at hflow
      exact absurd rfl hflow

/-! ## Sound bodies are checked -/

/-- Where a line ends is where its first LF is. -/
theorem line_unique {line line' q q' : List UInt8} (h : line ++ crlf ++ q = line' ++ crlf ++ q')
    (hlf : 10 ∉ line) (hlf' : 10 ∉ line') : line = line' ∧ q = q' := by
  have hcr : ∀ line : List UInt8, 10 ∉ line → 10 ∉ line ++ [13] := by
    intro line hline
    simpa using hline
  have hsplit : line ++ [13] ++ 10 :: q = line' ++ [13] ++ 10 :: q' := by
    simpa [crlf] using h
  have hpre : line ++ [13] = line' ++ [13] := by
    have htake := congrArg (List.takeWhile (· ≠ 10)) hsplit
    rw [List.takeWhile_append_of_pos, List.takeWhile_append_of_pos] at htake
    · simpa using htake
    · intro a ha
      exact decide_eq_true (ne_of_mem_of_not_mem ha (hcr line' hlf'))
    · intro a ha
      exact decide_eq_true (ne_of_mem_of_not_mem ha (hcr line hlf))
  have hline := List.append_cancel_right hpre
  rw [hline] at h
  exact ⟨hline, List.append_cancel_left h⟩

/-- What has been read of a line is a part of it. -/
theorem prefix_of_line {t line q q' : List UInt8} (h : t ++ q = line ++ crlf ++ q')
    (hlf : 10 ∉ t) : t <+: line ++ [13] := by
  have hwhole : line ++ [13] <+: line ++ crlf ++ q' := ⟨10 :: q', by simp [crlf]⟩
  rcases List.prefix_or_prefix_of_prefix ⟨q, h⟩ hwhole with hpre | ⟨r, hr⟩
  · exact hpre
  · cases r with
    | nil => exact ⟨[], by rw [← hr, List.append_nil, List.append_nil]⟩
    | cons b r =>
      rw [← hr] at h hlf
      have hb : b = 10 := by
        simp only [crlf, List.append_assoc, List.cons_append, List.nil_append,
          List.append_cancel_left_eq, List.cons.injEq, true_and] at h
        exact h.1
      exact absurd (List.mem_append_right _ (hb ▸ List.mem_cons_self)) hlf

/-- A sound chunk begins with a numeral whose value is a `size_t`. -/
theorem Framed.sized {chunks : List (ℕ × ℕ)} (h : Framed w o chunks) (hlt : w.length < 2 ^ 63) :
    ∃ line q n, w.drop o = line ++ crlf ++ q ∧ 10 ∉ line ∧ Sized line n ∧ n < 2 ^ 64 ∧
      (0 < n → ∃ content q', q = content ++ crlf ++ q' ∧ content.length = n) := by
  cases h with
  | last h =>
    obtain ⟨line, q, hw, hlf, hsized⟩ := h
    exact ⟨line, q, 0, hw, hlf, hsized, by decide, fun hpos => absurd hpos (by decide)⟩
  | chunk h _ =>
    obtain ⟨line, content, q, hw, hlf, hsized, -⟩ := h
    have hlength := congrArg List.length hw
    simp only [List.length_drop, List.length_append] at hlength
    exact ⟨line, content ++ crlf ++ q, content.length, hw, hlf, hsized, by omega,
      fun _ => ⟨content, q, rfl, rfl⟩⟩

/-- In a sound body nothing comes that the source ought to test. -/
theorem Place.checked {chunks : List (ℕ × ℕ)} (h : Place w o s) (hframed : Framed w o chunks)
    (hlt : w.length < 2 ^ 63) : Checked s := by
  obtain ⟨line, rest, n, hwLine, hlfLine, hsizedLine, hroomLine, hcontent⟩ := hframed.sized hlt
  cases h with
  | line t q hstate hw hptr hindex hlf hscan hroom hprev =>
    refine ⟨fun _ hbyte => ?_, fun _ hdone v hv => ?_, fun hbody => ?_⟩
    · -- the LF is the one behind the line
      obtain ⟨q, rfl⟩ : ∃ q', q = 10 :: q' := by
        cases q with
        | nil =>
          have hlength := congrArg List.length hptr
          rw [List.length_drop, List.append_nil] at hlength
          rw [List.getD_eq_default _ _ (by omega)] at hbyte
          exact absurd hbyte (by decide)
        | cons b q =>
          rw [hindex, getD_of_drop hptr] at hbyte
          exact ⟨q, by rw [hbyte]⟩
      obtain ⟨r, hr⟩ := prefix_of_line (hw.symm.trans hwLine) hlf
      have hwhole : t = line ++ [13] := by
        cases r with
        | nil => rw [← hr, List.append_nil]
        | cons b r =>
          rw [hwLine] at hw
          have hb : line ++ [13] ++ 10 :: rest = t ++ 10 :: q := by
            rw [← hw]
            simp [crlf]
          rw [← hr, List.append_assoc, List.append_cancel_left_eq, List.cons_append,
            List.cons.injEq] at hb
          have hmem : (10 : UInt8) ∈ line ++ [13] := by
            rw [← hr, hb.1]
            exact List.mem_append_right _ List.mem_cons_self
          simp [hlfLine] at hmem
      rw [hscan.start_iff, hwhole, numeral_concat_cr]
      exact hsizedLine.1
    · have hhex : isHexDigit (s.1.getD s.2.analysisIndex 0) = true := by
        rw [isHexDigit, hv, Option.isSome_some]
      obtain ⟨b, q, rfl⟩ : ∃ b q', q = b :: q' := by
        apply List.exists_cons_of_ne_nil
        rintro rfl
        have hlength := congrArg List.length hptr
        rw [List.length_drop, List.append_nil] at hlength
        rw [List.getD_eq_default _ _ (by omega)] at hhex
        exact absurd hhex (by decide)
      rw [hindex, getD_of_drop hptr] at hv hhex
      have hb : b ≠ 10 := by
        rintro rfl
        exact absurd hhex (by decide)
      have hlonger : t ++ [b] <+: line ++ [13] := by
        have hsplit : (t ++ [b]) ++ q = line ++ crlf ++ rest := by
          rw [← hwLine, hw]
          simp
        apply prefix_of_line hsplit
        simp only [List.mem_append, List.mem_singleton, not_or]
        exact ⟨hlf, Ne.symm hb⟩
      obtain ⟨r, hr⟩ := hlonger
      have hmono := hexFold_mono (numeral_mono (t ++ [b]) r)
      rw [hr, numeral_concat_cr, numeral_concat_digit (hscan.done_iff.mp hdone) hhex,
        hexFold_concat, hv, Option.getD_some, hsizedLine.2] at hmono
      rw [hscan.size_eq, Nat.mod_eq_of_lt hroom]
      omega
    · rw [hstate] at hbody
      exact absurd hbody (by decide)
  | content line' q hstate hw hptr hindex hlf hsized hpos =>
    refine ⟨fun hline => ?_, fun hline => ?_, fun _ _ _ => ?_⟩
    · rw [hstate] at hline
      exact absurd hline (by decide)
    · rw [hstate] at hline
      exact absurd hline (by decide)
    · obtain ⟨rfl, rfl⟩ := line_unique (hw.symm.trans hwLine) hlf hlfLine
      have hn : s.2.nowChunkSize = n := hsized.2.symm.trans hsizedLine.2
      obtain ⟨content, q', hq, hlength⟩ := hcontent (by omega)
      rw [hn, ← hlength]
      rw [hq] at hptr
      constructor
      · apply getD_of_drop (q := 10 :: q')
        rw [hptr]
        simp [crlf]
      · have hend : s.1.drop s.2.analysisIndex = (content ++ [13]) ++ 10 :: q' := by
          rw [hptr]
          simp [crlf]
        have hget := getD_of_drop hend
        rw [List.length_append, List.length_singleton, ← Nat.add_assoc] at hget
        exact hget

end Place

/-- What follows a chunk of a sound body is sound. -/
theorem Framed.rest {w : List UInt8} {o o' : ℕ} {c : ℕ × ℕ} {chunks : List (ℕ × ℕ)}
    (h : Framed w o chunks) (hchunk : ChunkAt w o c o') : ∃ chunks', Framed w o' chunks' := by
  obtain ⟨line, content, q, hw, hlf, hsized, hne, -, rfl⟩ := hchunk
  cases h with
  | last h =>
    obtain ⟨line', q', hw', hlf', hsized'⟩ := h
    obtain ⟨rfl, -⟩ := line_unique (hw.symm.trans hw') hlf hlf'
    have hzero := hsized.2.symm.trans hsized'.2
    exact absurd (List.eq_nil_of_length_eq_zero hzero) hne
  | chunk h hrest =>
    obtain ⟨line', content', q', hw', hlf', hsized', -, -, rfl⟩ := h
    obtain ⟨rfl, -⟩ := line_unique (hw.symm.trans hw') hlf hlf'
    rw [hsized.2.symm.trans hsized'.2]
    exact ⟨_, hrest⟩

/-! ## All steps -/

/-- What the analyser of the bytes `w` knows while its steps are checked. `P` holds of the
offsets at which chunks begin. -/
structure Tracked (w : List UInt8) (P : ℕ → Prop) (s : View) : Prop where
  length_eq : s.1.length = w.length
  before : s.2.state = .start ∨ s.2.state = .readHeader →
    s.2.chunks = [] ∧ s.1.drop s.2.analysisIndex = w.drop s.2.analysisIndex
  body : s.2.state = .readBody → s.2.bChunked = false
  place : s.2.state = .readChunkHeader ∨ s.2.state = .readChunkBody →
    ∃ o, Place w o s ∧ P o ∧
      ∀ chunks, Framed w o chunks → Framed w s.2.headerSize (s.2.chunks ++ chunks)
  framed : s.2.state = .readChunkFooter ∨ s.2.state = .done ∧ s.2.bChunked = true →
    Framed w s.2.headerSize s.2.chunks

theorem Tracked.init (w : List UInt8) (P : ℕ → Prop) : Tracked w P (w, {}) where
  length_eq := rfl
  before := fun _ => ⟨rfl, rfl⟩
  body := by simp
  place := by simp
  framed := by simp

/-- Once it is bad nothing is known. -/
theorem Tracked.bad {w : List UInt8} {P : ℕ → Prop} {s : View} (hlength : s.1.length = w.length)
    (hstate : s.2.state = .bad) : Tracked w P s where
  length_eq := hlength
  before := by simp [hstate]
  body := by simp [hstate]
  place := by simp [hstate]
  framed := by simp [hstate]

/-- The header is behind. -/
def PastHeader (state : HttpState) : Prop :=
  state ≠ .start ∧ state ≠ .readHeader

section Steps

variable {ptr : List UInt8} {now : ℕ} {k : Parser} {r : Flow × List UInt8 × Parser}

/-- Behind the header the framing does not change. -/
theorem Progress.pastHeader (h : Progress ptr now k r) (hk : PastHeader k.state) :
    r.2.2.headerSize = k.headerSize ∧ r.2.2.bChunked = k.bChunked ∧ PastHeader r.2.2.state := by
  cases h with
  | ended => exact ⟨rfl, rfl, hk⟩
  | wait => exact ⟨rfl, rfl, hk⟩
  | start _ hstate => exact absurd hstate hk.1
  | byte => exact ⟨rfl, rfl, hk⟩
  | line => exact ⟨rfl, rfl, hk⟩
  | header _ hstate => exact absurd hstate hk.2
  | _ => exact ⟨rfl, rfl, by simp [PastHeader]⟩

/-- The end of the header sets the framing. -/
theorem decoderHeaderAndUpdateState_spec (ptr : List UInt8) (k : Parser) :
    let k' := decoderHeaderAndUpdateState ptr k
    k'.headerSize = k.headerSize ∧ k'.chunks = k.chunks ∧ k'.analysisIndex = k.analysisIndex ∧
      (k'.state = .readChunkHeader ∧ k'.nowChunkSize = 0 ∧ k'.bChunkSizeStart = false ∧
          k'.bChunkSizeDone = false ∨
        (k'.state = .readBody ∨ k'.state = .done) ∧ k'.bChunked = false) := by
  obtain ⟨keepAlive, chunked, contentLength, hdecode⟩ := decoderHeader_frame ptr k k.lines
  unfold decoderHeaderAndUpdateState
  rw [hdecode]
  simp only
  cases chunked with
  | true => simp
  | false =>
    by_cases hlength : contentLength > 0
    · simp [hlength]
    · simp [hlength]

theorem progress_of_analyserStep {s s' : View} (h : analyserStep s = some s') :
    ∃ flow, flow ≠ .ret false ∧ Progress s.1 s.1.length s.2 (flow, s') := by
  have hprogress := pass_progress s.1 s.1.length s.2
  obtain ⟨rfl, hflow⟩ := pass_of_analyserStep h
  exact ⟨_, hflow, hprogress⟩

theorem headerSize_of_runs {s s' : View} {o : List Request} (h : analyser.Runs s o s')
    (hs : PastHeader s.2.state) : s'.2.headerSize = s.2.headerSize := by
  induction h with
  | refl => rfl
  | head hstep _ ih =>
    obtain ⟨s₁, hstep, heq⟩ := Option.map_eq_some_iff.mp hstep
    rw [Prod.mk.injEq] at heq
    obtain ⟨flow, -, hprogress⟩ := progress_of_analyserStep hstep
    obtain ⟨hsize, -, hpast⟩ := hprogress.pastHeader hs
    rw [← heq.1] at ih
    rw [ih hpast, hsize]

end Steps

section Track

variable {w : List UInt8} {P : ℕ → Prop} {s s' : View}

/-- A step behind the header that is not in a chunk. -/
theorem Tracked.other {k' : Parser} {ptr' : List UInt8} (h : Tracked w P s)
    (hlength : ptr'.length = s.1.length) (hchunks : k'.chunks = s.2.chunks)
    (hsize : k'.headerSize = s.2.headerSize) (hold : s.2.state = .readChunkFooter)
    (hnew : k'.state = .readChunkFooter ∨ k'.state = .done) : Tracked w P (ptr', k') where
  length_eq := hlength.trans h.length_eq
  before := by
    rcases hnew with hnew | hnew
    all_goals simp [hnew]
  body := by
    rcases hnew with hnew | hnew
    all_goals simp [hnew]
  place := by
    rcases hnew with hnew | hnew
    all_goals simp [hnew]
  framed := by
    intro _
    simp only [hsize, hchunks]
    exact h.framed (.inl hold)

/-- A step inside the header. -/
theorem Tracked.header {k' : Parser} {ptr' : List UInt8} (h : Tracked w P s)
    (hlength : ptr'.length = s.1.length) (hchunks : k'.chunks = s.2.chunks)
    (hindex : s.2.analysisIndex ≤ k'.analysisIndex)
    (hunread : ptr'.drop k'.analysisIndex = s.1.drop k'.analysisIndex)
    (hold : s.2.state = .start ∨ s.2.state = .readHeader)
    (hnew : k'.state = .readHeader) : Tracked w P (ptr', k') where
  length_eq := hlength.trans h.length_eq
  before := by
    intro _
    obtain ⟨hnil, hdrop⟩ := h.before hold
    refine ⟨hchunks.trans hnil, hunread.trans ?_⟩
    obtain ⟨n, hn⟩ := Nat.exists_eq_add_of_le hindex
    simp only [hn, ← List.drop_drop, hdrop]
  body := by simp [hnew]
  place := by simp [hnew]
  framed := by simp [hnew]

/-- A checked step in a chunk. -/
theorem Tracked.chunk (h : Tracked w P s) (hchecked : Checked s) (hlt : w.length < 2 ^ 63)
    (hnext : ∀ o c o', P o → ChunkAt w o c o' → P o')
    (hstate : s.2.state = .readChunkHeader ∨ s.2.state = .readChunkBody)
    (hstep : analyserStep s = some s') : Tracked w P s' := by
  obtain ⟨o, hplace, ho, hall⟩ := h.place hstate
  have hpassed := (pass_of_analyserStep hstep).1
  have hlength : s'.1.length = w.length := by
    rw [← hpassed, length_pass]
    exact h.length_eq
  have hpast : PastHeader s.2.state := by
    rcases hstate with hstate | hstate
    all_goals simp [PastHeader, hstate]
  have hsize : s'.2.headerSize = s.2.headerSize := by
    obtain ⟨flow, -, hprogress⟩ := progress_of_analyserStep hstep
    exact (hprogress.pastHeader hpast).1
  have hin : ∀ o', Place w o' s' → s'.2.state = .readChunkHeader ∨ s'.2.state = .readChunkBody := by
    intro o' hplace'
    cases hplace' with
    | line _ _ hstate' => exact .inl hstate'
    | content _ _ hstate' => exact .inr hstate'
  -- the two steps that stay in a chunk
  have hstay : ∀ o', Place w o' s' → P o' →
      (∀ chunks, Framed w o' chunks → Framed w s'.2.headerSize (s'.2.chunks ++ chunks)) →
      Tracked w P s' := by
    intro o' hplace' ho' hall'
    refine ⟨hlength, ?_, ?_, fun _ => ⟨o', hplace', ho', hall'⟩, ?_⟩
    all_goals
      rcases hin o' hplace' with hstate' | hstate'
      all_goals simp [hstate']
  cases hplace.step hchecked (by rw [h.length_eq]; exact hlt) hstep with
  | same hplace' hchunks =>
    apply hstay o hplace' ho
    rw [hsize, hchunks]
    exact hall
  | next c o' hchunk hplace' hchunks =>
    apply hstay o' hplace' (hnext o c o' ho hchunk)
    intro chunks hframed
    rw [hsize, hchunks, List.append_assoc]
    exact hall (c :: chunks) (.chunk hchunk hframed)
  | last hlast hstate' hchunks =>
    refine ⟨hlength, by simp [hstate'], by simp [hstate'], by simp [hstate'], fun _ => ?_⟩
    have hframed := hall [] (.last hlast)
    rw [List.append_nil] at hframed
    rw [hsize, hchunks]
    exact hframed
  | bad hstate' => exact .bad hlength hstate'

/-- The step that ends the header. -/
theorem Tracked.endHeader {k' : Parser} {ptr' : List UInt8} (h : Tracked w P s)
    (hlength : ptr'.length = s.1.length) (hold : s.2.state = .readHeader)
    (hunread : ptr'.drop (s.2.analysisIndex + 1) = s.1.drop (s.2.analysisIndex + 1))
    (hprev : ptr'.getD s.2.analysisIndex 0 ≠ 13) {k : Parser} (hchunks : k.chunks = s.2.chunks)
    (hindex : k.analysisIndex = s.2.analysisIndex + 1)
    (hsize : k.headerSize = s.2.analysisIndex + 1)
    (hdecode : k' = decoderHeaderAndUpdateState ptr' k)
    (hbegin : k'.state = .readChunkHeader → P k'.headerSize) : Tracked w P (ptr', k') := by
  obtain ⟨hsize', hchunks', hindex', hcase⟩ := decoderHeaderAndUpdateState_spec ptr' k
  rw [← hdecode] at hsize' hchunks' hindex' hcase
  obtain ⟨hnil, hdrop⟩ := h.before (.inr hold)
  rw [hnil] at hchunks
  rcases hcase with ⟨hstate, hzero, hstart, hdone⟩ | ⟨hstate | hstate, hplain⟩
  · refine ⟨hlength.trans h.length_eq, by simp [hstate], by simp [hstate], fun _ => ?_,
      by simp [hstate]⟩
    have hw : ptr'.drop k'.headerSize = w.drop k'.headerSize := by
      rw [hsize', hsize, hunread, ← List.drop_drop, ← List.drop_drop, hdrop]
    refine ⟨k'.headerSize, ?_, hbegin hstate, ?_⟩
    · refine .line [] (w.drop k'.headerSize) hstate rfl hw ?_ List.not_mem_nil
        (.nil hzero hstart hdone) (by decide) ?_
      · simp only [hindex', hindex, hsize', hsize, List.length_nil, Nat.add_zero]
      · simp only [hsize', hsize, Nat.add_sub_cancel]
        exact hprev
    · intro chunks hframed
      simp only [hchunks', hchunks, List.nil_append]
      exact hframed
  · exact ⟨hlength.trans h.length_eq, by simp [hstate], fun _ => hplain, by simp [hstate],
      by simp [hstate]⟩
  · exact ⟨hlength.trans h.length_eq, by simp [hstate], by simp [hstate], by simp [hstate],
      by simp [hstate, hplain]⟩

/-- **A checked step.** -/
theorem Tracked.step (h : Tracked w P s) (hchecked : Checked s) (hlt : w.length < 2 ^ 63)
    (hnext : ∀ o c o', P o → ChunkAt w o c o' → P o')
    (hbegin : s.2.state = .readHeader → s'.2.state = .readChunkHeader → P s'.2.headerSize)
    (hstep : analyserStep s = some s') : Tracked w P s' := by
  by_cases hchunk : s.2.state = .readChunkHeader ∨ s.2.state = .readChunkBody
  · exact h.chunk hchecked hlt hnext hchunk hstep
  · obtain ⟨flow, hflow, hprogress⟩ := progress_of_analyserStep hstep
    have hterminate := length_terminate s.1 s.2.analysisIndex
    have hdrop := drop_terminate s.1 s.2.analysisIndex
    cases hprogress with
    | ended => exact h
    | wait => exact absurd rfl hflow
    | fail => exact .bad h.length_eq rfl
    | start _ hstate => exact h.header rfl rfl le_rfl rfl (.inl hstate) rfl
    | byte _ hstate =>
      rcases hstate with hstate | hstate | hstate
      · exact h.header rfl rfl (Nat.le_succ _) rfl (.inr hstate) hstate
      · exact absurd (.inl hstate) hchunk
      · exact h.other rfl rfl rfl hstate (.inl hstate)
    | line _ hstate =>
      rcases hstate with hstate | hstate
      · exact h.header hterminate rfl (Nat.le_succ _) hdrop (.inr hstate) hstate
      · exact h.other hterminate rfl rfl hstate (.inl hstate)
    | header hunread hstate k' hdecode =>
      have hzero : (terminate s.1 s.2.analysisIndex).getD s.2.analysisIndex 0 = 0 := by
        rw [terminate, List.getD_eq_getElem?_getD, List.getElem?_set_self (by simpa using hunread),
          Option.getD_some]
      refine h.endHeader hterminate hstate hdrop ?_ ?_ ?_ ?_ hdecode (hbegin hstate)
      · rw [hzero]
        decide
      · rfl
      · rfl
      · rfl
    | body hstate =>
      refine ⟨h.length_eq, by simp, by simp, by simp, ?_⟩
      have hplain := h.body hstate
      simp [hplain]
    | size _ hstate => exact absurd (.inl hstate) hchunk
    | lastSize _ hstate => exact absurd (.inl hstate) hchunk
    | chunk _ hstate => exact absurd (.inr hstate) hchunk
    | trailer _ hstate => exact h.other hterminate rfl rfl hstate (.inr rfl)

/-- A state in which the next chunk is sound is checked. -/
theorem Tracked.checked (h : Tracked w (fun o => ∃ chunks, Framed w o chunks) s)
    (hlt : w.length < 2 ^ 63) : Checked s := by
  by_cases hchunk : s.2.state = .readChunkHeader ∨ s.2.state = .readChunkBody
  · obtain ⟨o, hplace, ⟨chunks, hframed⟩, -⟩ := h.place hchunk
    exact hplace.checked hframed hlt
  · rw [not_or] at hchunk
    exact ⟨fun hstate => absurd hstate hchunk.1, fun hstate => absurd hstate hchunk.1,
      fun hstate => absurd hstate hchunk.2⟩

/-- A run whose steps are all checked reads a sound body. -/
theorem framed_of_checked {o : List Request} {s : View} (hruns : analyser.Runs (w, {}) o s)
    (hlt : w.length < 2 ^ 63)
    (hchecked : ∀ o s, analyser.Runs (w, {}) o s → Checked s) :
    s.2.state = .done → s.2.bChunked = true → Framed w s.2.headerSize s.2.chunks := by
  have htracked : ∀ s₀ s o, analyser.Runs s₀ o s → Tracked w (fun _ => True) s₀ →
      (∀ o s, analyser.Runs s₀ o s → Checked s) → Tracked w (fun _ => True) s := by
    intro s₀ s o hruns
    induction hruns with
    | refl => exact fun h _ => h
    | @head s₀ s₁ _ o₁ _ hstep _ ih =>
      intro h hchecked
      obtain ⟨s₂, hstep₂, heq⟩ := Option.map_eq_some_iff.mp hstep
      rw [Prod.mk.injEq] at heq
      rw [heq.1] at hstep₂
      apply ih
      · exact h.step (hchecked [] s₀ (.refl s₀)) hlt (fun _ _ _ _ _ => trivial)
          (fun _ _ => trivial) hstep₂
      · intro o s hrest
        exact hchecked (o₁ ++ o) s (.head hstep hrest)
  intro hdone hchunked
  exact (htracked _ _ _ hruns (.init w _) hchecked).framed (.inr ⟨hdone, hchunked⟩)

/-- A sound body is read in steps that are all checked. -/
theorem checked_of_framed {o o' : List Request} {s f : View} (hruns : analyser.Runs (w, {}) o s)
    (hlt : w.length < 2 ^ 63) (hhalts : analyser.Halts (w, {}) o' f)
    (hframed : Framed w f.2.headerSize f.2.chunks) : Checked s := by
  have htracked : ∀ s₀ s o, analyser.Runs s₀ o s → ∀ o', analyser.Halts s₀ o' f →
      Tracked w (fun o => ∃ chunks, Framed w o chunks) s₀ →
      Tracked w (fun o => ∃ chunks, Framed w o chunks) s := by
    intro s₀ s o hruns
    induction hruns with
    | refl => exact fun _ _ h => h
    | @head s₀ s₁ _ o₁ _ hstep _ ih =>
      intro o' hhalts h
      obtain ⟨o₂, hrest⟩ := hhalts.of_step hstep
      obtain ⟨s₂, hstep₂, heq⟩ := Option.map_eq_some_iff.mp hstep
      rw [Prod.mk.injEq] at heq
      rw [heq.1] at hstep₂
      apply ih o₂ hrest
      apply h.step (h.checked hlt) hlt _ _ hstep₂
      · rintro o c o' ⟨chunks, hframed⟩ hchunk
        exact hframed.rest hchunk
      · -- the header ends where it does in the last state
        intro _ hstate
        rw [← headerSize_of_runs hrest.1 (by simp [PastHeader, hstate])]
        exact ⟨_, hframed⟩
  exact (htracked _ _ _ hruns o' hhalts (.init w _)).checked hlt

end Track

open ChttpContext

/-- The bytes a context has received are fewer than its buffer can hold. -/
theorem length_stream_of_feed {maxBufferSize : ℕ} {reads : List Read} {ctx : ChttpContext}
    (hfeed : (ChttpContext.new maxBufferSize).feed reads = some ctx) :
    (stream reads).length < 2 ^ 63 := by
  have hreceived := length_received_of_feed hfeed
  have hle : ctx.received.length ≤ ctx.buffer.data.length := List.length_take_le' ..
  have hdata := ctx.buffer.data_lt
  omega

/-- A short message in chunks that is accepted. -/
theorem exists_accepted (w : List UInt8) (n : ℕ) (hsmall : w.length ≤ 0x100)
    (hstuck : analyserStep (analyser.exec n (w, {})).2 = none)
    (hdone : (analyser.exec n (w, {})).2.2.state = .done)
    (hchunked : (analyser.exec n (w, {})).2.2.bChunked = true) :
    ∃ ctx, (ChttpContext.new 0x1000000).feed [⟨fun _ => 0, w⟩] = some ctx ∧
      ctx.state = .done ∧ ctx.bChunked = true := by
  obtain ⟨ctx, hfeed, hstate, hview⟩ := exists_done w n hsmall hstuck hdone
  refine ⟨ctx, hfeed, hstate, ?_⟩
  show ctx.view.2.bChunked = true
  rw [hview]
  exact hchunked

/-- A step that is not checked spoils the framing. -/
theorem not_framed {maxBufferSize : ℕ} {reads : List Read} {ctx : ChttpContext}
    (hfeed : (ChttpContext.new maxBufferSize).feed reads = some ctx) (n : ℕ)
    (hcheck : ¬Checked (analyser.exec n (stream reads, {})).2) :
    ¬Framed (stream reads) ctx.headerSize ctx.chunks := by
  intro hframed
  apply hcheck
  exact checked_of_framed (Incremental.runs_exec analyser n _) (length_stream_of_feed hfeed)
    (halts_of_feed hfeed) hframed

/-- **The framing of chunks is sound** in exactly the messages in whose analysis every step is
checked. -/
theorem chunk_framing_iff_checked (maxBufferSize : ℕ) {reads : List Read} {ctx : ChttpContext}
    (hfeed : (ChttpContext.new maxBufferSize).feed reads = some ctx)
    (hdone : ctx.state = .done) (hchunked : ctx.bChunked = true) :
    Framed (stream reads) ctx.headerSize ctx.chunks ↔
      ∀ o s, analyser.Runs (stream reads, {}) o s → Checked s := by
  have hhalts := halts_of_feed hfeed
  have hlt := length_stream_of_feed hfeed
  constructor
  · intro hframed o s hruns
    exact checked_of_framed hruns hlt hhalts hframed
  · intro hchecked
    exact framed_of_checked hhalts.1 hlt hchecked hdone hchunked

/-- A message with one chunk. -/
theorem chunk_framing_iff_checked_one :
    ∃ reads ctx, stream reads = lit "A B C\r\nTransfer-Encoding:chunked\r\n\r\n1\r\na\r\n0\r\n\r\n" ∧
      (ChttpContext.new 0x1000000).feed reads = some ctx ∧ ctx.state = .done ∧
      (Framed (stream reads) ctx.headerSize ctx.chunks ↔
        ∀ o s, analyser.Runs (stream reads, {}) o s → Checked s) := by
  obtain ⟨ctx, hfeed, hdone, hchunked⟩ := exists_accepted
    (lit "A B C\r\nTransfer-Encoding:chunked\r\n\r\n1\r\na\r\n0\r\n\r\n") 100 (by decide) (by decide)
    (by decide) (by decide)
  exact ⟨_, ctx, rfl, hfeed, hdone, chunk_framing_iff_checked 0x1000000 hfeed hdone hchunked⟩

/-- A chunked message with the body `body` is accepted, with ranges that are not the body's. -/
def AcceptedUnsound (body : List UInt8) : Prop :=
  ∃ reads ctx, stream reads = lit "A B C\r\nTransfer-Encoding:chunked\r\n\r\n" ++ body ∧
    (ChttpContext.new 0x1000000).feed reads = some ctx ∧ ctx.state = .done ∧
    ctx.bChunked = true ∧ ¬Framed (stream reads) ctx.headerSize ctx.chunks

/-- A size line without a digit, a size of `2 ^ 64`, and a chunk with two other bytes behind it. -/
theorem acceptedUnsound_of_mem {body : List UInt8}
    (hbody : body ∈ [lit ";x\r\n\r\n", lit "10000000000000000\r\n\r\n",
      lit "1\r\nabc0\r\n\r\n"]) : AcceptedUnsound body := by
  obtain ⟨ctx, hfeed, hdone, hchunked⟩ := exists_accepted
    (lit "A B C\r\nTransfer-Encoding:chunked\r\n\r\n" ++ body) 100
    (by revert body; decide) (by revert body; decide) (by revert body; decide)
    (by revert body; decide)
  refine ⟨_, ctx, List.append_nil _, hfeed, hdone, hchunked, ?_⟩
  -- the step that ought to be refused
  apply not_framed hfeed (if body.length = 21 then 53 else 40)
  simp only [List.mem_cons, List.not_mem_nil, or_false] at hbody
  rcases hbody with rfl | rfl | rfl
  · exact fun h => absurd (h.digit (by decide) (by decide)) (by decide)
  · exact fun h => absurd (h.room (by decide) (by decide) 0 (by decide)) (by decide)
  · exact fun h => absurd (h.ended (by decide) (by decide) (by decide)).1 (by decide)

theorem chunk_framing_unsound :
    AcceptedUnsound (lit ";x\r\n\r\n") ∧ AcceptedUnsound (lit "10000000000000000\r\n\r\n") ∧
      AcceptedUnsound (lit "1\r\nabc0\r\n\r\n") :=
  ⟨acceptedUnsound_of_mem (by simp), acceptedUnsound_of_mem (by simp),
    acceptedUnsound_of_mem (by simp)⟩

end NetworkPool
