import NetworkPool.Http.BodyLength

/-!
# The first line and the fields

The loops over the lines of a message begin with the first line. Where it yields no field, what
follows it is analysed as it would be behind any other such line (`analyserStep_inFront`); where it
yields one, the field counts (`first_line_ignored_iff`).
-/

namespace NetworkPool

open Lib (Incremental)
open Lib.CString
open ChttpContext (parameter)

/-- The first line yields no field. -/
def NoField (l : List UInt8) : Prop :=
  splitLine (l ++ [0]) l.length = none

instance (l : List UInt8) : Decidable (NoField l) :=
  inferInstanceAs (Decidable (_ = _))

/-! ## What follows a first line -/

/-- A range behind `n` more bytes. -/
def shift (n : ℕ) (x : ℕ × ℕ) : ℕ × ℕ :=
  (n + x.1, x.2)

/-- The parser behind a first line. -/
def Parser.inFront (l : List UInt8) (k : Parser) : Parser :=
  { k with
    analysisIndex := l.length + 1 + k.analysisIndex
    lines := (0, l.length) :: k.lines.map (shift (l.length + 1))
    headerSize := if k.headerSize = 0 then 0 else l.length + 1 + k.headerSize
    chunks := k.chunks.map (shift (l.length + 1)) }

/-- A first line and its terminator in front of what follows them. -/
def inFront (l : List UInt8) (v : View) : View :=
  (l ++ [0] ++ v.1, v.2.inFront l)

/-- The analysis of what follows a first line, which begins with the second NUL. -/
def followed (q : List UInt8) : View :=
  (0 :: q, { state := .readHeader, lines := [(1, npos)], analysisIndex := 1 })

theorem inFront_followed (l q : List UInt8) : inFront l (followed q) = behindFirst l q := by
  refine Prod.ext ?_ ?_
  · simp [inFront, followed, behindFirst, nuls]
  · simp [inFront, Parser.inFront, followed, behindFirst, shift]

/-- What holds of that analysis. -/
structure Follows (v : View) : Prop where
  state_ne : v.2.state ≠ .start
  index_pos : 1 ≤ v.2.analysisIndex
  lines_ne : v.2.state = .readHeader ∨ v.2.state = .readChunkFooter → v.2.lines ≠ []

section Follows

variable {v v' : View} {l : List UInt8}

theorem Follows.init (q : List UInt8) : Follows (followed q) :=
  ⟨by simp [followed], le_rfl, by simp [followed]⟩

theorem Follows.step (h : Follows v) (hstep : analyserStep v = some v') : Follows v' := by
  obtain ⟨flow, -, hprogress⟩ := progress_of_analyserStep hstep
  have hpos := h.index_pos
  cases hprogress with
  | ended => exact h
  | wait => exact h
  | fail => exact ⟨by simp, hpos, by simp⟩
  | start _ hstate => exact absurd hstate h.state_ne
  | byte => exact ⟨h.state_ne, Nat.le_succ_of_le hpos, h.lines_ne⟩
  | line => exact ⟨h.state_ne, Nat.le_succ_of_le hpos, fun _ => by simp⟩
  | header _ _ k' _ _ hindex _ hafter =>
    refine ⟨?_, by rw [hindex]; exact Nat.le_succ_of_le hpos, ?_⟩
    · rcases hafter with hstate | hstate | hstate
      all_goals simp [hstate]
    · rcases hafter with hstate | hstate | hstate
      all_goals simp [hstate]
  | body => exact ⟨by simp, Nat.le_add_right_of_le hpos, by simp⟩
  | size => exact ⟨by simp, Nat.le_succ_of_le hpos, by simp⟩
  | lastSize => exact ⟨by simp, Nat.le_succ_of_le hpos, fun _ => by simp⟩
  | chunk => exact ⟨by simp, Nat.le_add_right_of_le hpos, by simp⟩
  | trailer => exact ⟨by simp, Nat.le_succ_of_le hpos, by simp⟩

end Follows

/-! ## Passes behind a first line -/

section Front

variable {l r : List UInt8} {k : Parser}

theorem getD_inFront (l r : List UInt8) (i : ℕ) :
    (l ++ [0] ++ r).getD (l.length + 1 + i) 0 = r.getD i 0 := by
  rw [List.getD_append_right _ _ _ _ (by simp)]
  simp

theorem drop_inFront (l r : List UInt8) (i : ℕ) :
    (l ++ [0] ++ r).drop (l.length + 1 + i) = r.drop i := by
  rw [← List.drop_drop]
  congr 1
  exact List.drop_left' (by simp)

theorem terminate_inFront (l r : List UInt8) {i : ℕ} (hi : 1 ≤ i) :
    terminate (l ++ [0] ++ r) (l.length + 1 + i) = l ++ [0] ++ terminate r i := by
  have hlength : (l ++ [(0 : UInt8)]).length = l.length + 1 := by simp
  rw [terminate_append_right _ _ (by omega), hlength, Nat.add_sub_cancel_left]

theorem kvDecoder_inFront (name value : List UInt8) (nameLength valueLength : ℕ) :
    kvDecoder (k.inFront l) name nameLength value valueLength =
      (kvDecoder k name nameLength value valueLength).inFront l := by
  unfold kvDecoder
  split_ifs
  · rfl
  · rfl
  · rfl
  · rfl

theorem decoderHeader_shift {lines : List (ℕ × ℕ)} (hsize : k.headerSize ≠ 0) :
    decoderHeader (l ++ [0] ++ r) (lines.map (shift (l.length + 1))) (k.inFront l) =
      (decoderHeader r lines k).inFront l := by
  induction lines generalizing k with
  | nil => rfl
  | cons x lines ih =>
    have hbeyond : (shift (l.length + 1) x).1 > (k.inFront l).headerSize ↔ x.1 > k.headerSize := by
      simp only [shift, Parser.inFront, if_neg hsize]
      omega
    rw [List.map_cons, decoderHeader, decoderHeader]
    by_cases hx : x.1 > k.headerSize
    · rw [if_pos (hbeyond.mpr hx), if_pos hx]
    · rw [if_neg (mt hbeyond.mp hx), if_neg hx]
      by_cases hcomplete : x.2 = npos
      · rw [if_pos hcomplete, if_pos (show (shift (l.length + 1) x).2 = npos from hcomplete)]
        exact ih hsize
      · rw [if_neg hcomplete, if_neg (show ¬(shift (l.length + 1) x).2 = npos from hcomplete)]
        have hdrop : (l ++ [0] ++ r).drop (shift (l.length + 1) x).1 = r.drop x.1 :=
          drop_inFront l r x.1
        have hsnd : (shift (l.length + 1) x).2 = x.2 := rfl
        simp only [hdrop, hsnd]
        cases splitLine (r.drop x.1) x.2 with
        | none => exact ih hsize
        | some f =>
          simp only
          rw [kvDecoder_inFront]
          exact ih (by rwa [kvDecoder_headerSize])

/-- A first line without a field is passed over. -/
theorem decoderHeader_noField (hl : NoField l) (ptr : List UInt8) (lines : List (ℕ × ℕ))
    (k : Parser) :
    decoderHeader (l ++ [0] ++ ptr) ((0, l.length) :: lines) k =
      decoderHeader (l ++ [0] ++ ptr) lines k := by
  have hsplit : splitLine (l ++ [0] ++ ptr) l.length = none := by
    rw [splitLine_append ptr (by simp)]
    exact hl
  rw [decoderHeader, if_neg (Nat.not_lt_zero _)]
  split_ifs
  · rfl
  · simp only [List.drop_zero, hsplit]

theorem decoderHeaderAndUpdateState_inFront (hl : NoField l) (hsize : k.headerSize ≠ 0) :
    decoderHeaderAndUpdateState (l ++ [0] ++ r) (k.inFront l) =
      (decoderHeaderAndUpdateState r k).inFront l := by
  have hdecode : decoderHeader (l ++ [0] ++ r) (k.inFront l).lines (k.inFront l) =
      (decoderHeader r k.lines k).inFront l := by
    rw [show (k.inFront l).lines = (0, l.length) :: k.lines.map (shift (l.length + 1)) from rfl,
      decoderHeader_noField hl, decoderHeader_shift hsize]
  unfold decoderHeaderAndUpdateState
  rw [hdecode]
  simp only
  by_cases hchunked : (decoderHeader r k.lines k).bChunked = true
  · rw [if_pos hchunked, if_pos (show ((decoderHeader r k.lines k).inFront l).bChunked = true from
      hchunked)]
    rfl
  · rw [if_neg hchunked, if_neg (show ¬((decoderHeader r k.lines k).inFront l).bChunked = true from
      hchunked)]
    by_cases hlength : (decoderHeader r k.lines k).contentLength > 0
    · rw [if_pos hlength, if_pos (show ((decoderHeader r k.lines k).inFront l).contentLength > 0
        from hlength)]
      rfl
    · rw [if_neg hlength, if_neg (show ¬((decoderHeader r k.lines k).inFront l).contentLength > 0
        from hlength)]
      rfl

theorem getLastD_shift (l : List UInt8) {lines : List (ℕ × ℕ)} (hne : lines ≠ []) :
    ((0, l.length) :: lines.map (shift (l.length + 1))).getLastD (0, npos) =
      shift (l.length + 1) (lines.getLastD (0, npos)) := by
  obtain ⟨earlier, x, rfl⟩ := (List.eq_nil_or_concat lines).resolve_left hne
  rw [List.concat_eq_append, List.getLastD_concat, List.map_append, List.map_singleton,
    ← List.cons_append, List.getLastD_concat]

theorem scanLine_inFront {atEmptyLine : List UInt8 → Parser → Flow × Parser}
    (hpos : 1 ≤ k.analysisIndex) (hlines : k.lines ≠ [])
    (hempty : ∀ r k, atEmptyLine (l ++ [0] ++ r) (k.inFront l) =
      ((atEmptyLine r k).1, (atEmptyLine r k).2.inFront l)) :
    scanLine atEmptyLine (l ++ [0] ++ r) (k.inFront l) =
      ((scanLine atEmptyLine r k).1, inFront l (scanLine atEmptyLine r k).2) := by
  have hindex : (k.inFront l).analysisIndex = l.length + 1 + k.analysisIndex := rfl
  have hbefore : l.length + 1 + k.analysisIndex - 1 = l.length + 1 + (k.analysisIndex - 1) := by
    omega
  have hlast : (k.inFront l).lines.getLastD (0, npos) =
      shift (l.length + 1) (k.lines.getLastD (0, npos)) := getLastD_shift l hlines
  have hdrop : (k.inFront l).lines.dropLast =
      (0, l.length) :: k.lines.dropLast.map (shift (l.length + 1)) := by
    rw [List.map_dropLast]
    exact List.dropLast_cons_of_ne_nil (by simpa using hlines)
  have hlength : l.length + 1 + (k.analysisIndex - 1) - (shift (l.length + 1)
      (k.lines.getLastD (0, npos))).1 = k.analysisIndex - 1 - (k.lines.getLastD (0, npos)).1 := by
    simp only [shift]
    omega
  unfold scanLine
  simp only
  rw [hindex, getD_inFront, hbefore, getD_inFront, terminate_inFront l r hpos, hlast, hlength, hdrop]
  split_ifs
  · rfl
  · have hblank := hempty (terminate r k.analysisIndex) { k with lines := k.lines.dropLast }
    refine Prod.ext ?_ (Prod.ext rfl ?_)
    · exact (congrArg Prod.fst hblank :)
    · exact (congrArg Prod.snd hblank :)
  · simp [inFront, Parser.inFront, shift, Nat.add_assoc]
  · simp [inFront, Parser.inFront, Nat.add_assoc]

theorem endHeader_inFront (hl : NoField l) (r : List UInt8) (k : Parser) :
    endHeader (l ++ [0] ++ r) (k.inFront l) =
      ((endHeader r k).1, (endHeader r k).2.inFront l) := by
  have hnext : ({ k.inFront l with
        headerSize := l.length + 1 + k.analysisIndex + 1
        analysisIndex := l.length + 1 + k.analysisIndex + 1 } : Parser) =
      ({ k with
        headerSize := k.analysisIndex + 1, analysisIndex := k.analysisIndex + 1 } : Parser).inFront
        l := by
    simp [Parser.inFront, Nat.add_assoc]
  have hdecode := decoderHeaderAndUpdateState_inFront (l := l) (r := r)
    (k := { k with headerSize := k.analysisIndex + 1, analysisIndex := k.analysisIndex + 1 }) hl
    (Nat.succ_ne_zero _)
  rw [← hnext] at hdecode
  exact Prod.ext rfl hdecode

theorem chunkSizeChar_inFront (ch : UInt8) :
    chunkSizeChar ch (k.inFront l) = (chunkSizeChar ch k).inFront l := by
  have hdone : (k.inFront l).bChunkSizeDone = k.bChunkSizeDone := rfl
  have hstart : (k.inFront l).bChunkSizeStart = k.bChunkSizeStart := rfl
  unfold chunkSizeChar
  rw [hdone, hstart]
  split_ifs
  all_goals rfl

/-- **A pass behind a first line** is the pass on what follows the line. -/
theorem pass_inFront {v : View} (hl : NoField l) (h : Follows v) :
    pass (inFront l v).1 (inFront l v).1.length (inFront l v).2 =
      ((pass v.1 v.1.length v.2).1, inFront l (pass v.1 v.1.length v.2).2) := by
  obtain ⟨r, k⟩ := v
  have hpos : 1 ≤ k.analysisIndex := h.index_pos
  have hstate : (k.inFront l).state = k.state := rfl
  have hindex : (k.inFront l).analysisIndex = l.length + 1 + k.analysisIndex := rfl
  have hlength : (inFront l (r, k)).1.length = l.length + 1 + r.length := by
    rw [inFront, List.length_append, List.length_append, List.length_singleton]
  have hrest : l.length + 1 + r.length - (l.length + 1 + k.analysisIndex) =
      r.length - k.analysisIndex := by omega
  rw [hlength]
  show pass (l ++ [0] ++ r) (l.length + 1 + r.length) (k.inFront l) = _
  by_cases hover : k.state = .done ∨ k.state = .bad
  · rw [pass, pass, if_pos hover, hstate, if_pos hover]
    rfl
  · rw [pass, pass, if_neg hover, hstate, if_neg hover, hindex]
    simp only [Nat.add_le_add_iff_left]
    by_cases hunread : r.length ≤ k.analysisIndex
    · rw [if_pos hunread, if_pos hunread]
      rfl
    · rw [if_neg hunread, if_neg hunread]
      cases hk : k.state with
      | start => exact absurd hk h.state_ne
      | readHeader =>
        exact scanLine_inFront hpos (h.lines_ne (.inl hk)) (endHeader_inFront hl)
      | readBody =>
        have hcontent : (k.inFront l).contentLength = k.contentLength := rfl
        simp only [readBody, hindex, hrest, hcontent]
        split_ifs
        · simp [inFront, Parser.inFront, shift, Nat.add_assoc]
        · rfl
      | readChunkHeader =>
        have hbefore : l.length + 1 + k.analysisIndex - 1 =
            l.length + 1 + (k.analysisIndex - 1) := by omega
        have hsize : (k.inFront l).nowChunkSize = k.nowChunkSize := rfl
        simp only [readChunkHeader, hindex, hbefore, getD_inFront, terminate_inFront l r hpos, hsize,
          chunkSizeChar_inFront]
        split_ifs
        · rfl
        · simp [inFront, Parser.inFront, Nat.add_assoc]
        · simp [inFront, Parser.inFront, shift, Nat.add_assoc]
        · obtain ⟨size, sizeStart, sizeDone, hchar, -⟩ :=
            chunkSizeChar_frame (r.getD k.analysisIndex 0) k
          rw [hchar]
          simp [inFront, Parser.inFront, Nat.add_assoc]
      | readChunkBody =>
        have hsize : (k.inFront l).nowChunkSize = k.nowChunkSize := rfl
        simp only [readChunkBody, hindex, hrest, hsize]
        split_ifs
        · simp [inFront, Parser.inFront, shift, Nat.add_assoc]
        · rfl
      | readChunkFooter =>
        apply scanLine_inFront hpos (h.lines_ne (.inr hk))
        intro r k
        simp [endFooter, Parser.inFront, Nat.add_assoc]
      | done => exact absurd (.inl hk) hover
      | bad => exact absurd (.inr hk) hover

theorem analyserStep_inFront {v : View} (hl : NoField l) (h : Follows v) :
    analyserStep (inFront l v) = (analyserStep v).map (inFront l) := by
  unfold analyserStep
  rw [pass_inFront hl h]
  obtain ⟨flow, v'⟩ := pass v.1 v.1.length v.2
  cases flow with
  | again => rfl
  | ret answer =>
    have hstate : ((inFront l v').2.state != (inFront l v).2.state) = (v'.2.state != v.2.state) :=
      rfl
    simp only [hstate]
    split_ifs
    · rfl
    · rfl

/-- **What follows a first line is analysed for itself.** -/
theorem exists_follows {q : List UInt8} {f : View} {o : List Request} (hl : NoField l)
    (hhalts : analyser.Halts (behindFirst l q) o f) :
    ∃ v, analyser.Halts (followed q) o v ∧ f = inFront l v := by
  rw [← inFront_followed] at hhalts
  have hkeep : ∀ s s' o, Follows s → analyser.step s = some (s', o) → Follows s' := by
    intro s s' o h hstep
    obtain ⟨s₁, hstep, heq⟩ := Option.map_eq_some_iff.mp hstep
    rw [← (Prod.mk.inj heq).1]
    exact h.step hstep
  have hfront : ∀ s, Follows s → analyser.step (inFront l s) =
      (analyser.step s).map fun r => (inFront l r.1, r.2) := by
    intro s h
    rw [analyser_step, analyser_step, analyserStep_inFront hl h, Option.map_map, Option.map_map]
    rfl
  obtain ⟨v, hv, hf, -⟩ := hhalts.preimage (.init q) hkeep hfront
  exact ⟨v, hv, hf⟩

end Front

/-! ## The bytes of a message -/

/-- A message that is not complete, and of which the body, if it is read, is not empty. -/
structure Unfinished (k : Parser) : Prop where
  state_ne : k.state ≠ .done
  body_ne : k.state = .readBody → k.contentLength ≠ 0

section Own

variable {p r : List UInt8} {k : Parser} {s s' f : View} {o : List Request}

/-- The step that completes a message reads a byte. -/
theorem Unfinished.step (h : Unfinished s.2) (hstep : analyserStep s = some s') :
    s.2.analysisIndex ≤ s'.2.analysisIndex ∧
      (Unfinished s'.2 ∨ s'.2.state = .done ∧ s.2.analysisIndex < s'.2.analysisIndex) := by
  obtain ⟨flow, -, hprogress⟩ := progress_of_analyserStep hstep
  cases hprogress with
  | ended => exact ⟨le_rfl, .inl h⟩
  | wait => exact ⟨le_rfl, .inl h⟩
  | fail => exact ⟨le_rfl, .inl ⟨by simp, by simp⟩⟩
  | start => exact ⟨le_rfl, .inl ⟨by simp, by simp⟩⟩
  | byte => exact ⟨Nat.le_succ _, .inl ⟨h.state_ne, h.body_ne⟩⟩
  | line => exact ⟨Nat.le_succ _, .inl ⟨h.state_ne, h.body_ne⟩⟩
  | header _ _ k' hdecode _ hindex =>
    obtain ⟨-, hnext⟩ := decoderHeaderAndUpdateState_next (terminate s.1 s.2.analysisIndex)
      { s.2 with
        lines := s.2.lines.dropLast, headerSize := s.2.analysisIndex + 1
        analysisIndex := s.2.analysisIndex + 1 }
    rw [← hdecode] at hnext
    have hlt : s.2.analysisIndex < k'.analysisIndex := by omega
    refine ⟨hlt.le, ?_⟩
    rcases hnext with ⟨hstate, -⟩ | ⟨hstate, hne⟩ | ⟨hstate, -⟩
    · exact .inl ⟨by simp [hstate], by simp [hstate]⟩
    · exact .inl ⟨by simp [hstate], fun _ => hne⟩
    · exact .inr ⟨hstate, hlt⟩
  | body hstate =>
    have hpos := Nat.pos_of_ne_zero (h.body_ne hstate)
    exact ⟨Nat.le_add_right .., .inr ⟨rfl, Nat.lt_add_of_pos_right hpos⟩⟩
  | size => exact ⟨Nat.le_succ _, .inl ⟨by simp, by simp⟩⟩
  | lastSize => exact ⟨Nat.le_succ _, .inl ⟨by simp, by simp⟩⟩
  | chunk => exact ⟨Nat.le_add_right .., .inl ⟨by simp, by simp⟩⟩
  | trailer => exact ⟨Nat.le_succ _, .inr ⟨rfl, Nat.lt_succ_self _⟩⟩

/-- Until a message is complete there are bytes to read. -/
theorem Unfinished.index_lt (h : Unfinished s.2) (hruns : analyser.Runs s o f)
    (hdone : f.2.state = .done) : s.2.analysisIndex < f.2.analysisIndex := by
  induction hruns with
  | refl => exact absurd hdone h.state_ne
  | @head s _ f _ _ hstep hrest ih =>
    obtain ⟨s₁, hstep₁, heq⟩ := Option.map_eq_some_iff.mp hstep
    obtain rfl := (Prod.mk.inj heq).1
    obtain ⟨hle, hnext | ⟨hend, hlt⟩⟩ := h.step hstep₁
    · exact lt_of_le_of_lt hle (ih hnext hdone)
    · -- nothing follows
      cases hrest with
      | refl => exact hlt
      | head hmore _ =>
        rw [analyser_step, analyserStep_over (.inl hend)] at hmore
        exact absurd hmore (by simp)

/-- The loops over lines do not wait before the end of what has come. -/
theorem scanLine_goes {atEmptyLine : List UInt8 → Parser → Flow × Parser} {ptr : List UInt8}
    (hempty : ∀ ptr k, (atEmptyLine ptr k).1 ≠ .ret false) :
    (scanLine atEmptyLine ptr k).1 ≠ .ret false := by
  unfold scanLine
  simp only
  split_ifs
  · simp
  · exact hempty _ _
  · simp
  · simp

/-- A pass that reads no further than `p` does not wait for more. -/
theorem pass_goes {now : ℕ} (hunread : k.analysisIndex < p.length) (hnow : p.length ≤ now)
    (hgoes : (pass (p ++ r) now k).1 ≠ .ret false)
    (hle : (pass (p ++ r) now k).2.2.analysisIndex ≤ p.length) :
    (pass p p.length k).1 ≠ .ret false := by
  unfold pass at hgoes hle ⊢
  by_cases hover : k.state = .done ∨ k.state = .bad
  · rw [if_pos hover]
    simp
  · rw [if_neg hover, if_neg (show ¬now ≤ k.analysisIndex by omega)] at hgoes hle
    rw [if_neg hover, if_neg (show ¬p.length ≤ k.analysisIndex by omega)]
    cases hk : k.state with
    | start =>
      simp only [startLine]
      split_ifs
      all_goals simp
    | readHeader => exact scanLine_goes fun _ _ => by simp [endHeader]
    | readBody =>
      simp only [hk, readBody] at hgoes hle ⊢
      by_cases hbody : now - k.analysisIndex ≥ k.contentLength
      · rw [if_pos hbody] at hle
        rw [if_pos (show p.length - k.analysisIndex ≥ k.contentLength by simp only at hle; omega)]
        simp
      · rw [if_neg hbody] at hgoes
        exact absurd rfl hgoes
    | readChunkHeader =>
      simp only [readChunkHeader]
      split_ifs
      all_goals simp
    | readChunkBody =>
      simp only [hk, readChunkBody] at hgoes hle ⊢
      by_cases hbody : now - k.analysisIndex ≥ (k.nowChunkSize + 2) % 2 ^ 64
      · rw [if_pos hbody] at hle
        rw [if_pos (show p.length - k.analysisIndex ≥ (k.nowChunkSize + 2) % 2 ^ 64 by
          simp only at hle; omega)]
        simp
      · rw [if_neg hbody] at hgoes
        exact absurd rfl hgoes
    | readChunkFooter => exact scanLine_goes fun _ _ => by simp [endFooter]
    | done => exact absurd (.inl hk) hover
    | bad => exact absurd (.inr hk) hover

/-- A step that reads no further than `p` is taken on `p`. -/
theorem analyserStep_own (hok : k.Ok p) (hunread : k.analysisIndex < p.length)
    (hstep : analyserStep (p ++ r, k) = some s') (hle : s'.2.analysisIndex ≤ p.length) :
    ∃ p', analyserStep (p, k) = some (p', s'.2) ∧ s'.1 = p' ++ r := by
  have hmore : p.length ≤ (p ++ r).length := by
    rw [List.length_append]
    omega
  obtain ⟨rfl, hflow⟩ := pass_of_analyserStep hstep
  have hpass := pass_append r hok (.inr ⟨hmore, pass_goes hunread hmore hflow hle⟩)
  unfold analyserStep at hstep ⊢
  simp only at hstep ⊢
  rw [hpass] at hstep ⊢
  generalize pass p p.length k = result at hstep ⊢
  obtain ⟨flow, p', k'⟩ := result
  cases flow with
  | again => exact ⟨p', rfl, rfl⟩
  | ret answer =>
    simp only at hstep ⊢
    split_ifs at hstep ⊢
    exact ⟨p', rfl, rfl⟩

/-- **A complete message is analysed from its own bytes.** -/
theorem runs_own (hok : k.Ok p) (h : Unfinished k) (hruns : analyser.Runs (p ++ r, k) o f)
    (hdone : f.2.state = .done) (hle : f.2.analysisIndex ≤ p.length) :
    ∃ p', analyser.Runs (p, k) o (p', f.2) ∧ f.1 = p' ++ r := by
  generalize hs : (p ++ r, k) = s at hruns
  induction hruns generalizing p k with
  | refl => exact absurd hdone (by rw [← hs]; exact h.state_ne)
  | @head s _ f _ _ hstep hrest ih =>
    subst hs
    have hlt := Unfinished.index_lt (s := (p ++ r, k)) h (.head hstep hrest) hdone
    simp only at hlt
    obtain ⟨s₁, hstep₁, heq⟩ := Option.map_eq_some_iff.mp hstep
    obtain ⟨rfl, rfl⟩ := Prod.mk.inj heq
    rcases (Unfinished.step (s := (p ++ r, k)) h hstep₁).2 with hnext | ⟨hend, -⟩
    · have hlt₁ := hnext.index_lt hrest hdone
      obtain ⟨p₁, hown, hp₁⟩ := analyserStep_own hok (by omega) hstep₁ (by omega)
      have hlength : p₁.length = p.length := by
        have hpassed := congrArg (fun v : View => v.1.length) (pass_of_analyserStep hown).1
        simp only [length_pass] at hpassed
        exact hpassed.symm
      obtain ⟨p', hp', hf⟩ := ih (p := p₁)
        (analyserStep_ok (s := (p, k)) hok hown) hnext hdone (by omega) (by rw [← hp₁])
      refine ⟨p', .head ?_ hp', hf⟩
      rw [analyser_step, hown]
      rfl
    · cases hrest with
      | refl =>
        obtain ⟨p₁, hown, hp₁⟩ := analyserStep_own hok (by omega) hstep₁ hle
        refine ⟨p₁, .single ?_, hp₁⟩
        rw [analyser_step, hown]
        rfl
      | head hmore _ =>
        rw [analyser_step, analyserStep_over (.inl hend)] at hmore
        exact absurd hmore (by simp)

end Own

/-! ## Complete messages -/

section Done

variable {w t l : List UInt8} {f : View} {o : List Request}

/-- The bytes of a message behind its first line. -/
def behind (w : List UInt8) (length : ℕ) : List UInt8 :=
  (w.take length).drop ((firstLine w).length + 2)

theorem NoField.nil : NoField [] := by
  decide

/-- The parameters of shifted lines. -/
theorem parameter_shift (l ptr : List UInt8) (x : ℕ × ℕ) :
    parameter (l ++ [0] ++ ptr) (shift (l.length + 1) x) = parameter ptr x := by
  unfold parameter
  simp only [shift, drop_inFront]

/-- Behind a first line the parameters are those of what follows. -/
theorem filterMap_parameter_shift {v : View} (hv : analyser.Halts (followed t) o v)
    (l m : List UInt8) :
    (v.2.lines.map (shift (l.length + 1))).filterMap (parameter (l ++ [0] ++ (v.1 ++ m))) =
      v.2.lines.filterMap (parameter v.1) := by
  have hok : (followed t).2.Ok (followed t).1 := ⟨by simp [followed], by simp [Terminated, followed]⟩
  have hterminated := (hv.1.ok hok).terminated
  rw [List.filterMap_map]
  apply List.filterMap_congr
  intro x hx
  rw [Function.comp_apply, parameter_shift, parameter_append m (hterminated x hx)]

/-- **What decides a complete message**: the bytes behind its first line, if that yields no
field. -/
theorem exists_behind (hhalts : analyser.Halts (w, {}) o f) (hdone : f.2.state = .done)
    (hl : NoField (firstLine w)) :
    (behind w f.2.analysisIndex = [] ∧ firstLine w = [] ∧ f.2 = (blankFirst []).2) ∨
      behind w f.2.analysisIndex ≠ [] ∧
        ∃ v o' m, analyser.Halts (followed (behind w f.2.analysisIndex)) o' v ∧
          f.1 = firstLine w ++ [0] ++ (v.1 ++ m) ∧ f.2 = v.2.inFront (firstLine w) ∧
          v.2.headerSize ≠ 0 := by
  rcases done_cases hhalts hdone with ⟨q, rfl, rfl⟩ | ⟨l, q, o', -, hlf, rfl, hrest⟩
  · have hfirst : firstLine (crlf ++ q) = [] := firstLine_eq (l := []) (by simp)
    exact .inl ⟨by rw [behind, hfirst]; rfl, hfirst, rfl⟩
  · have hfirst := firstLine_eq (q := q) hlf
    rw [hfirst] at hl ⊢
    obtain ⟨v, hv, rfl⟩ := exists_follows hl hrest
    have hunfinished : Unfinished (followed q).2 := ⟨by simp [followed], by simp [followed]⟩
    have hpos : 1 < v.2.analysisIndex := Unfinished.index_lt hunfinished hv.1 hdone
    have hle : v.2.analysisIndex ≤ q.length + 1 := by
      have hok : (followed q).2.Ok (followed q).1 := ⟨by simp [followed], by simp [Terminated, followed]⟩
      have hindex := (hv.1.ok hok).index_le
      rw [length_of_runs hv.1] at hindex
      exact hindex
    -- the bytes of the message are the first ones of `q`
    obtain ⟨n, hn⟩ : ∃ n, v.2.analysisIndex = n + 1 := ⟨v.2.analysisIndex - 1, by omega⟩
    have hbehind : behind (l ++ crlf ++ q) (inFront l v).2.analysisIndex = q.take n := by
      have hindex : (inFront l v).2.analysisIndex = l.length + 2 + n := by
        show l.length + 1 + v.2.analysisIndex = l.length + 2 + n
        omega
      rw [behind, hfirst, hindex, List.drop_take, List.drop_left' (by simp),
        Nat.add_sub_cancel_left]
    have hne : q.take n ≠ [] := by
      apply List.ne_nil_of_length_pos
      rw [List.length_take]
      omega
    have hruns := hv.1
    rw [followed, ← List.take_append_drop n q, ← List.cons_append] at hruns
    obtain ⟨p', hp', hsplit⟩ := runs_own
      ⟨by simp [followed], by simp [Terminated, followed]⟩ hunfinished hruns hdone (by
        rw [List.length_cons, List.length_take]
        omega)
    rw [hbehind]
    have hsize : v.2.headerSize ≠ 0 := by
      obtain ⟨p, header, h⟩ := exists_headed hrest.1 hdone
      have hheader := h.size_eq
      intro hzero
      simp [inFront, Parser.inFront, hzero] at hheader
    refine .inr ⟨hne, (p', v.2), _, q.drop n, ⟨hp', ?_⟩, ?_, rfl, hsize⟩
    · rw [analyser_step, analyserStep_over (s := (p', v.2)) (.inl hdone)]
      rfl
    · rw [inFront, hsplit]

end Done

namespace ChttpContext

/-- The first line counts for nothing: the fields are those of the lines behind it, and so is
what the header sets. -/
structure FirstLineIgnored (ctx : ChttpContext) : Prop where
  parameters : ∀ ps, ctx.getParameter ps =
    some (ps + ctx.lines.tail.filterMap (parameter ctx.buffer.getData))
  framing : ctx.framing = headerFraming ctx.buffer.getData ctx.lines.tail ctx.headerSize

/-- Behind first lines of `n` and `n'` bytes two messages are framed in the same way and have the
same parameters. -/
structure SameBehind (ctx ctx' : ChttpContext) (n n' : ℕ) : Prop where
  framing : ctx.framing = ctx'.framing
  headerSize : ctx.headerSize + n' = ctx'.headerSize + n
  chunks : ctx.chunks.map (shift n') = ctx'.chunks.map (shift n)
  size : ctx.analysisIndex + n' = ctx'.analysisIndex + n
  parameters : ∀ ps, ctx.getParameter ps = ctx'.getParameter ps

section FirstLine

variable {maxBufferSize maxBufferSize' : ℕ} {reads reads' : List Read} {ctx ctx' : ChttpContext}

theorem getData_eq (ctx : ChttpContext) :
    ∃ m, ctx.buffer.getData = ctx.received ++ m :=
  ⟨ctx.buffer.data.drop ctx.nowIndex, (List.take_append_drop ..).symm⟩

/-- **The first line counts for nothing exactly when it yields no field.** -/
theorem firstLineIgnored_iff (hfeed : (ChttpContext.new maxBufferSize).feed reads = some ctx)
    (hdone : ctx.state = .done) :
    ctx.FirstLineIgnored ↔ NoField (firstLine (stream reads)) := by
  have hhalts := halts_of_feed hfeed
  obtain ⟨-, hreceiving⟩ := feed_spec (.new maxBufferSize) (.new maxBufferSize) hfeed
  have hterminated := hreceiving.ok.terminated
  obtain ⟨hframing, -⟩ := framing_of_done hhalts hdone
  simp only [view] at hframing
  obtain ⟨m, hdata⟩ := ctx.getData_eq
  have hparameters : ∀ ps, ctx.getParameter ps =
      some (ps + ctx.lines.filterMap (parameter ctx.buffer.getData)) := by
    intro ps
    rw [getParameter, if_neg (not_not.mpr hdone)]
  rcases done_cases hhalts hdone with ⟨q, hw, hview⟩ | ⟨l, q, o', -, hlf, hw, hrest⟩
  · have hfirst : firstLine (stream reads) = [] := by
      rw [hw]
      exact firstLine_eq (l := []) (by simp)
    have hlines : ctx.lines = [] := congrArg (·.2.lines) hview
    rw [hfirst]
    refine ⟨fun _ => .nil, fun _ => ⟨?_, ?_⟩⟩
    · rw [hlines] at hparameters ⊢
      exact hparameters
    · rw [hframing, hlines]
      rfl
  · have hfirst : firstLine (stream reads) = l := by
      rw [hw]
      exact firstLine_eq hlf
    have hbegun := (Begun.init l q).runs hrest.1
    obtain ⟨rest, hlines, -⟩ := hbegun.lines
    obtain ⟨m', hfront⟩ := hbegun.front
    simp only [view] at hlines hfront
    have hreceived : ctx.received = l ++ [0] ++ 0 :: m' := by
      rw [hfront]
      simp [nuls]
    rw [hfirst]
    constructor
    · intro h
      by_contra hfield
      have hlength : l.length ≠ npos := by
        have hlt := ctx.buffer.data_lt
        have hle : l.length ≤ ctx.buffer.data.length := by
          rw [show ctx.buffer.data = ctx.received ++ m from hdata, hreceived]
          simp
        unfold npos
        omega
      obtain ⟨f, hf⟩ := Option.ne_none_iff_exists'.mp hfield
      have hsplit : splitLine (ctx.buffer.getData.drop 0) l.length = some f := by
        rw [List.drop_zero, hdata, hreceived, List.append_assoc, splitLine_append _ (by simp)]
        exact hf
      have hsome : ∃ x, parameter ctx.buffer.getData (0, l.length) = some x := by
        unfold parameter
        rw [if_neg hlength]
        simp only [hsplit]
        exact ⟨_, rfl⟩
      obtain ⟨x, hx⟩ := hsome
      have hmore := (hparameters 0).symm.trans (h.parameters 0)
      rw [hlines, List.filterMap_cons_some hx, List.tail_cons, Option.some.injEq] at hmore
      have hcard := congrArg Multiset.card hmore
      simp at hcard
    · intro hnone
      have hsplit : splitLine (ctx.buffer.getData.drop 0) l.length = none := by
        rw [List.drop_zero, hdata, hreceived, List.append_assoc, splitLine_append _ (by simp)]
        exact hnone
      have hempty : parameter ctx.buffer.getData (0, l.length) = none := by
        unfold parameter
        simp only [hsplit]
        split_ifs
        · rfl
        · rfl
      refine ⟨fun ps => ?_, ?_⟩
      · rw [hparameters, hlines, List.filterMap_cons_none hempty, List.tail_cons]
      · have hrest : Terminated ctx.received rest := by
          intro x hx
          exact hterminated x (by rw [hlines]; exact List.mem_cons_of_mem _ hx)
        rw [hframing, hlines, List.tail_cons, hdata, headerFraming, headerFraming,
          decoderHeader_append m hrest, hreceived, decoderHeader_noField hnone]

/-- **Messages that differ in their first lines only**, of which neither yields a field, are
framed in the same way and have the same parameters. -/
theorem sameBehind_of_noField
    (hfeed : (ChttpContext.new maxBufferSize).feed reads = some ctx)
    (hfeed' : (ChttpContext.new maxBufferSize').feed reads' = some ctx')
    (hdone : ctx.state = .done) (hdone' : ctx'.state = .done)
    (hsame : behind (stream reads) ctx.analysisIndex = behind (stream reads') ctx'.analysisIndex)
    (hl : NoField (firstLine (stream reads))) (hl' : NoField (firstLine (stream reads'))) :
    ctx.SameBehind ctx' (firstLine (stream reads)).length (firstLine (stream reads')).length := by
  have hignored := (firstLineIgnored_iff hfeed hdone).mpr hl
  have hignored' := (firstLineIgnored_iff hfeed' hdone').mpr hl'
  obtain ⟨m, hdata⟩ := ctx.getData_eq
  obtain ⟨m', hdata'⟩ := ctx'.getData_eq
  have hcases := exists_behind (halts_of_feed hfeed) hdone hl
  have hcases' := exists_behind (halts_of_feed hfeed') hdone' hl'
  simp only [view] at hcases hcases'
  rw [← hsame] at hcases'
  set l := firstLine (stream reads)
  set l' := firstLine (stream reads')
  rcases hcases with ⟨hblank, hempty, hparser⟩ | ⟨hne, v, o, n, hv, hreceived, hparser, hsize⟩
  · rcases hcases' with ⟨-, hempty', hparser'⟩ | ⟨hne, -⟩
    · have hsameParser : ctx.toParser = ctx'.toParser := hparser.trans hparser'.symm
      have hlines : ctx.lines = [] := congrArg Parser.lines hparser
      have hlines' : ctx'.lines = [] := congrArg Parser.lines hparser'
      rw [hempty, hempty']
      refine ⟨?_, ?_, ?_, ?_, fun ps => ?_⟩
      · rw [hsameParser]
      · rw [hsameParser]
      · rw [hsameParser]
      · rw [hsameParser]
      · rw [hignored.parameters, hignored'.parameters, hlines, hlines']
        rfl
    · exact absurd hblank hne
  · rcases hcases' with ⟨hblank, -⟩ | ⟨-, v', o', n', hv', hreceived', hparser', -⟩
    · exact absurd hblank hne
    · obtain ⟨-, rfl⟩ := hv.unique hv'
      refine ⟨?_, ?_, ?_, ?_, fun ps => ?_⟩
      · rw [hparser, hparser']
        rfl
      · rw [hparser, hparser']
        simp only [Parser.inFront, if_neg hsize]
        omega
      · rw [hparser, hparser']
        simp only [Parser.inFront, List.map_map]
        apply List.map_congr_left
        intro x _
        simp only [Function.comp_apply, shift, Prod.mk.injEq, and_true]
        omega
      · rw [hparser, hparser']
        simp only [Parser.inFront]
        omega
      · rw [hignored.parameters, hignored'.parameters, hparser, hparser', hdata, hdata', hreceived,
          hreceived']
        simp only [Parser.inFront, List.tail_cons]
        rw [List.append_assoc, List.append_assoc v.1, filterMap_parameter_shift hv,
          List.append_assoc, List.append_assoc v.1, filterMap_parameter_shift hv]

/-- **The first line is not taken for a field**, and messages that differ in it only are framed in
the same way and have the same parameters, exactly when the first lines yield no field. -/
theorem first_line_ignored_iff
    (hfeed : (ChttpContext.new maxBufferSize).feed reads = some ctx)
    (hfeed' : (ChttpContext.new maxBufferSize').feed reads' = some ctx')
    (hdone : ctx.state = .done) (hdone' : ctx'.state = .done)
    (hsame : behind (stream reads) ctx.analysisIndex =
      behind (stream reads') ctx'.analysisIndex) :
    (ctx.FirstLineIgnored ∧ ctx'.FirstLineIgnored ∧
      ctx.SameBehind ctx' (firstLine (stream reads)).length (firstLine (stream reads')).length) ↔
      NoField (firstLine (stream reads)) ∧ NoField (firstLine (stream reads')) := by
  rw [firstLineIgnored_iff hfeed hdone, firstLineIgnored_iff hfeed' hdone']
  constructor
  · rintro ⟨hl, hl', -⟩
    exact ⟨hl, hl'⟩
  · rintro ⟨hl, hl'⟩
    exact ⟨hl, hl', sameBehind_of_noField hfeed hfeed' hdone hdone' hsame hl hl'⟩

/-- Two requests for which it does not matter that one line is longer. -/
theorem first_line_ignored_iff_two :
    ∃ reads reads' ctx ctx',
      stream reads = lit "A B C\r\nX: y\r\n\r\n" ∧ stream reads' = lit "A\r\nX: y\r\n\r\n" ∧
      (ChttpContext.new 0x1000000).feed reads = some ctx ∧
      (ChttpContext.new 0x1000000).feed reads' = some ctx' ∧
      ctx.FirstLineIgnored ∧ ctx'.FirstLineIgnored ∧ ctx.SameBehind ctx' 5 1 := by
  obtain ⟨ctx, hfeed, hdone, hview⟩ := exists_done (lit "A B C\r\nX: y\r\n\r\n") 40 (by decide)
    (by decide) (by decide)
  obtain ⟨ctx', hfeed', hdone', hview'⟩ := exists_done (lit "A\r\nX: y\r\n\r\n") 40 (by decide)
    (by decide) (by decide)
  have hindex : ctx.analysisIndex = 15 := congrArg (·.2.analysisIndex) hview
  have hindex' : ctx'.analysisIndex = 11 := congrArg (·.2.analysisIndex) hview'
  have h := (first_line_ignored_iff hfeed hfeed' hdone hdone'
    (by rw [hindex, hindex']; decide)).mpr ⟨by decide, by decide⟩
  exact ⟨_, _, ctx, ctx', rfl, rfl, hfeed, hfeed', h⟩

/-- A first line that asks to keep the connection alive, and one with an absolute URI. -/
theorem first_line_counts :
    (∃ reads reads' ctx ctx',
      stream reads = lit "Connection: Keep-Alive\r\n\r\n" ∧ stream reads' = lit "A B C\r\n\r\n" ∧
      (ChttpContext.new 0x1000000).feed reads = some ctx ∧ ctx.state = .done ∧
      (ChttpContext.new 0x1000000).feed reads' = some ctx' ∧ ctx'.state = .done ∧
      behind (stream reads) ctx.analysisIndex = behind (stream reads') ctx'.analysisIndex ∧
      ctx.bKeepAlive = true ∧ ctx'.bKeepAlive = false) ∧
    ∃ reads ctx, stream reads = lit "GET http://x:80/ HTTP/1.1\r\n\r\n" ∧
      (ChttpContext.new 0x1000000).feed reads = some ctx ∧ ctx.state = .done ∧
      ¬ctx.FirstLineIgnored := by
  constructor
  · obtain ⟨ctx, hfeed, hdone, hview⟩ := exists_done (lit "Connection: Keep-Alive\r\n\r\n") 60
      (by decide) (by decide) (by decide)
    obtain ⟨ctx', hfeed', hdone', hview'⟩ := exists_done (lit "A B C\r\n\r\n") 40 (by decide)
      (by decide) (by decide)
    have hindex : ctx.analysisIndex = 26 := congrArg (·.2.analysisIndex) hview
    have hindex' : ctx'.analysisIndex = 9 := congrArg (·.2.analysisIndex) hview'
    refine ⟨_, _, ctx, ctx', rfl, rfl, hfeed, hdone, hfeed', hdone', ?_, ?_, ?_⟩
    · rw [hindex, hindex']
      decide
    · exact congrArg (·.2.bKeepAlive) hview
    · exact congrArg (·.2.bKeepAlive) hview'
  · obtain ⟨ctx, hfeed, hdone, -⟩ := exists_done (lit "GET http://x:80/ HTTP/1.1\r\n\r\n") 60
      (by decide) (by decide) (by decide)
    refine ⟨_, ctx, rfl, hfeed, hdone, ?_⟩
    rw [firstLineIgnored_iff hfeed hdone]
    decide

end FirstLine

end ChttpContext

end NetworkPool
