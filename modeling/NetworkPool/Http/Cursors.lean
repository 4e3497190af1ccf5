import NetworkPool.Http.Ranges

/-!
# Cursors of the analysis

The analysis comes to an end with its cursors where they should be, whatever has been received
and whatever sizes chunks announce. The lines it records (`Cursors`) are what makes it safe to
look behind the cursor: the byte before a line that is being read is the NUL that ended another
one, and the very first byte is no LF.
-/

namespace NetworkPool

open Lib (Lts)
open Lib.CString
open ChttpContext

/-! ## Lines -/

/-- A line that is complete: its length is known, it holds no LF, and NUL NUL follows it inside
the first `index` bytes. -/
structure CompleteLine (w : List UInt8) (index : ℕ) (l : ℕ × ℕ) : Prop where
  known : l.2 ≠ npos
  noLf : ∀ i, l.1 ≤ i → i < l.1 + l.2 → w[i]? ≠ some 10
  nul : w[l.1 + l.2]? = some 0
  nul_next : w[l.1 + l.2 + 1]? = some 0
  inside : l.1 + l.2 + 2 ≤ index

/-- A line from `first` on that has been read up to `index`. -/
structure OpenLine (w : List UInt8) (index first : ℕ) : Prop where
  first_le : first ≤ index
  noLf : ∀ i, first ≤ i → i < index → w[i]? ≠ some 10
  begins : first = 0 ∧ (∃ b, w[0]? = some b ∧ b ≠ 10) ∨ 2 ≤ first ∧ w[first - 1]? = some 0

/-- The states in which the last line is being read. -/
def ReadsLine (state : HttpState) : Prop :=
  state = .readHeader ∨ state = .readChunkFooter

/-- The lines of a parser that has analysed the received bytes `w` up to its index: `complete`,
one behind the other, and the one that is being read, if any. -/
structure Cursors (w : List UInt8) (k : Parser) : Prop where
  index_le : k.analysisIndex ≤ w.length
  start : k.state = .start → k.lines = [] ∧ k.analysisIndex = 0
  chunk : k.state = .readChunkHeader ∨ k.state = .readChunkBody → 2 ≤ k.analysisIndex
  lines : ∃ complete reading, k.lines = complete ++ reading ∧
    (∀ l ∈ complete, CompleteLine w k.analysisIndex l) ∧
    complete.Pairwise (fun a b => a.1 + a.2 + 2 ≤ b.1) ∧
    (reading = [] ∧ ¬ReadsLine k.state ∨
      ∃ first, reading = [(first, npos)] ∧ OpenLine w k.analysisIndex first ∧
        (∀ l ∈ complete, l.1 + l.2 + 2 ≤ first) ∧ (ReadsLine k.state ∨ k.state = .bad))

section Terminate

variable {w : List UInt8} {i j : ℕ} {b : UInt8}

/-- Nothing but NULs is written. -/
theorem getElem?_of_terminate (h : (terminate w i)[j]? = some b) (hb : b ≠ 0) :
    w[j]? = some b := by
  rw [terminate, List.getElem?_set, List.getElem?_set] at h
  split at h
  · split at h
    · exact absurd (Option.some.inj h) (Ne.symm hb)
    · exact absurd h (by simp)
  · split at h
    · split at h
      · exact absurd (Option.some.inj h) (Ne.symm hb)
      · exact absurd h (by simp)
    · exact h

theorem getElem?_terminate_last (h : i < w.length) : (terminate w i)[i]? = some 0 := by
  rw [terminate, List.getElem?_set_self]
  rw [List.length_set]
  exact h

end Terminate

section Lines

variable {w : List UInt8} {index index' first : ℕ} {l : ℕ × ℕ}

theorem CompleteLine.mono (h : CompleteLine w index l) (hle : index ≤ index') :
    CompleteLine w index' l :=
  { h with inside := h.inside.trans hle }

theorem CompleteLine.terminate (h : CompleteLine w index l) (i : ℕ) :
    CompleteLine (terminate w i) index l where
  known := h.known
  noLf := fun j hfirst hlast hlf => h.noLf j hfirst hlast (getElem?_of_terminate hlf (by decide))
  nul := getElem?_terminate h.nul
  nul_next := getElem?_terminate h.nul_next
  inside := h.inside

theorem CompleteLine.append (h : CompleteLine w index l) (m : List UInt8) :
    CompleteLine (w ++ m) index l := by
  have hlt := (List.getElem?_eq_some_iff.mp h.nul_next).1
  refine ⟨h.known, fun i hfirst hlast => ?_, ?_, ?_, h.inside⟩
  · rw [List.getElem?_append_left (by omega)]
    exact h.noLf i hfirst hlast
  · rw [List.getElem?_append_left (by omega)]
    exact h.nul
  · rw [List.getElem?_append_left (by omega)]
    exact h.nul_next

theorem CompleteLine.take (h : CompleteLine w index l) : CompleteLine (w.take index) index l := by
  have hinside := h.inside
  refine ⟨h.known, fun i hfirst hlast => ?_, ?_, ?_, hinside⟩
  · rw [List.getElem?_take_of_lt (by omega)]
    exact h.noLf i hfirst hlast
  · rw [List.getElem?_take_of_lt (by omega)]
    exact h.nul
  · rw [List.getElem?_take_of_lt (by omega)]
    exact h.nul_next

theorem OpenLine.append (h : OpenLine w index first) (hle : index ≤ w.length) (m : List UInt8) :
    OpenLine (w ++ m) index first := by
  refine ⟨h.first_le, fun i hfirst hlast => ?_, ?_⟩
  · rw [List.getElem?_append_left (by omega)]
    exact h.noLf i hfirst hlast
  · have hkeep : ∀ (j : ℕ) (b : UInt8), w[j]? = some b → (w ++ m)[j]? = some b := by
      intro j b hb
      rw [List.getElem?_append_left (List.getElem?_eq_some_iff.mp hb).1]
      exact hb
    rcases h.begins with ⟨hzero, b, hb, hne⟩ | ⟨htwo, hnul⟩
    · exact .inl ⟨hzero, b, hkeep 0 b hb, hne⟩
    · exact .inr ⟨htwo, hkeep _ 0 hnul⟩

/-- A byte of the line. -/
theorem OpenLine.byte (h : OpenLine w index first) (hne : w[index]? ≠ some 10) :
    OpenLine w (index + 1) first := by
  refine ⟨Nat.le_succ_of_le h.first_le, fun i hfirst hlast => ?_, h.begins⟩
  rcases Nat.lt_succ_iff_lt_or_eq.mp hlast with hlt | rfl
  · exact h.noLf i hfirst hlt
  · exact hne

/-- There is a byte before the LF that ends a line. -/
theorem OpenLine.index_pos (h : OpenLine w index first) (hlf : w[index]? = some 10) :
    1 ≤ index := by
  have hle := h.first_le
  rcases h.begins with ⟨hzero, b, hb, hne⟩ | ⟨htwo, -⟩
  · by_contra hindex
    have hfirst : index = 0 := by omega
    rw [hfirst, hb] at hlf
    exact hne (Option.some.inj hlf)
  · omega

/-- The CR LF that ends a line is behind its beginning. -/
theorem OpenLine.first_lt (h : OpenLine w index first) (hlf : w[index]? = some 10)
    (hcr : w[index - 1]? = some 13) : first + 1 ≤ index := by
  have hpos := h.index_pos hlf
  have hle := h.first_le
  rcases h.begins with ⟨hzero, -⟩ | ⟨htwo, hnul⟩
  · omega
  · by_contra hindex
    -- the byte before the line is no CR
    have hfirst : index = first := by omega
    rw [hfirst, hnul] at hcr
    exact absurd (Option.some.inj hcr) (by decide)

/-- The line that CR LF ends. -/
theorem OpenLine.ends (h : OpenLine w index first) (hlt : w.length < npos)
    (hlf : w[index]? = some 10) (hcr : w[index - 1]? = some 13) :
    CompleteLine (terminate w index) (index + 1) (first, index - 1 - first) := by
  have hfirst := h.first_lt hlf hcr
  have hindex := (List.getElem?_eq_some_iff.mp hlf).1
  have hend : first + (index - 1 - first) = index - 1 := by omega
  refine ⟨?_, fun i hle hlast hbyte => ?_, ?_, ?_, ?_⟩
  · simp only
    omega
  · simp only at hle hlast
    exact h.noLf i hle (by omega) (getElem?_of_terminate hbyte (by decide))
  · simp only [hend]
    exact getElem?_terminate_self hindex
  · simp only [hend]
    rw [Nat.sub_add_cancel (by omega)]
    exact getElem?_terminate_last hindex
  · simp only
    omega

/-- The line behind the one that CR LF ends. -/
theorem OpenLine.next (hlf : w[index]? = some 10) (hpos : 1 ≤ index) :
    OpenLine (terminate w index) (index + 1) (index + 1) where
  first_le := le_rfl
  noLf := fun i hfirst hlast => absurd hlast (Nat.not_lt.mpr hfirst)
  begins := .inr ⟨by omega, getElem?_terminate_last (List.getElem?_eq_some_iff.mp hlf).1⟩

end Lines

/-! ## Passes -/

namespace Cursors

variable {w : List UInt8} {k k' : Parser}

/-- What a pass finds where it reads. -/
theorem getD_eq_iff {i : ℕ} {b : UInt8} (hb : b ≠ 0) : w.getD i 0 = b ↔ w[i]? = some b := by
  rw [List.getD_eq_getElem?_getD]
  cases w[i]? with
  | none => simp [Ne.symm hb]
  | some a => simp

theorem init (w : List UInt8) : Cursors w {} where
  index_le := Nat.zero_le _
  start := fun _ => ⟨rfl, rfl⟩
  chunk := by simp
  lines := ⟨[], [], rfl, by simp, .nil, .inl ⟨rfl, by simp [ReadsLine]⟩⟩

/-- All lines are complete. -/
theorem of_complete (hindex : k.analysisIndex ≤ w.length) (hstart : k.state ≠ .start)
    (hreads : ¬ReadsLine k.state)
    (hchunk : k.state = .readChunkHeader ∨ k.state = .readChunkBody → 2 ≤ k.analysisIndex)
    (hall : ∀ l ∈ k.lines, CompleteLine w k.analysisIndex l)
    (hbehind : k.lines.Pairwise fun a b => a.1 + a.2 + 2 ≤ b.1) : Cursors w k where
  index_le := hindex
  start := fun h => absurd h hstart
  chunk := hchunk
  lines := ⟨k.lines, [], (List.append_nil _).symm, hall, hbehind, .inl ⟨rfl, hreads⟩⟩

/-- Where no line is read all are complete. -/
theorem complete (h : Cursors w k) (hreads : ¬ReadsLine k.state) (hbad : k.state ≠ .bad) :
    (∀ l ∈ k.lines, CompleteLine w k.analysisIndex l) ∧
      k.lines.Pairwise fun a b => a.1 + a.2 + 2 ≤ b.1 := by
  obtain ⟨complete, reading, hlines, hall, hbehind, hreading⟩ := h.lines
  rcases hreading with ⟨rfl, -⟩ | ⟨first, -, -, -, hstate⟩
  · rw [hlines, List.append_nil]
    exact ⟨hall, hbehind⟩
  · exact absurd hstate (not_or.mpr ⟨hreads, hbad⟩)

/-- Where a line is read it is the last one. -/
theorem reading (h : Cursors w k) (hreads : ReadsLine k.state) :
    ∃ complete first, k.lines = complete ++ [(first, npos)] ∧
      (∀ l ∈ complete, CompleteLine w k.analysisIndex l) ∧
      complete.Pairwise (fun a b => a.1 + a.2 + 2 ≤ b.1) ∧
      OpenLine w k.analysisIndex first ∧ ∀ l ∈ complete, l.1 + l.2 + 2 ≤ first := by
  obtain ⟨complete, reading, hlines, hall, hbehind, hreading⟩ := h.lines
  rcases hreading with ⟨-, hnot⟩ | ⟨first, rfl, hopen, hbefore, -⟩
  · exact absurd hreads hnot
  · exact ⟨complete, first, hlines, hall, hbehind, hopen, hbefore⟩

theorem fail (h : Cursors w k) : Cursors w { k with state := .bad } where
  index_le := h.index_le
  start := by simp
  chunk := by simp
  lines := by
    obtain ⟨complete, reading, hlines, hall, hbehind, hreading⟩ := h.lines
    refine ⟨complete, reading, hlines, hall, hbehind, ?_⟩
    rcases hreading with ⟨hnil, -⟩ | ⟨first, heq, hopen, hbefore, -⟩
    · exact .inl ⟨hnil, by simp [ReadsLine]⟩
    · exact .inr ⟨first, heq, hopen, hbefore, .inr rfl⟩

/-- A round of the loop that reads lines. -/
theorem scanLine {atEmptyLine : List UInt8 → Parser → Flow × Parser} (h : Cursors w k)
    (hlt : w.length < npos) (hreads : ReadsLine k.state) (hunread : k.analysisIndex < w.length)
    (hempty : 2 ≤ k.analysisIndex + 1 →
      (∀ l ∈ k.lines.dropLast,
        CompleteLine (terminate w k.analysisIndex) (k.analysisIndex + 1) l) →
      (k.lines.dropLast.Pairwise fun a b => a.1 + a.2 + 2 ≤ b.1) →
      Cursors (terminate w k.analysisIndex)
        (atEmptyLine (terminate w k.analysisIndex) { k with lines := k.lines.dropLast }).2) :
    Cursors (NetworkPool.scanLine atEmptyLine w k).2.1
      (NetworkPool.scanLine atEmptyLine w k).2.2 := by
  obtain ⟨complete, first, hlines, hall, hbehind, hopen, hbefore⟩ := h.reading hreads
  have hlast : k.lines.getLastD (0, npos) = (first, npos) := by
    rw [hlines, List.getLastD_concat]
  have hinit : k.lines.dropLast = complete := by
    rw [hlines, List.dropLast_concat]
  have hstart : k.state ≠ .start := by
    rcases hreads with hstate | hstate
    · rw [hstate]
      decide
    · rw [hstate]
      decide
  have hchunk : ¬(k.state = .readChunkHeader ∨ k.state = .readChunkBody) := by
    rcases hreads with hstate | hstate
    · rw [hstate]
      decide
    · rw [hstate]
      decide
  unfold NetworkPool.scanLine
  simp only
  by_cases hlf : w.getD k.analysisIndex 0 = 10
  · rw [if_pos hlf]
    rw [getD_eq_iff (by decide)] at hlf
    by_cases hcr : w.getD (k.analysisIndex - 1) 0 = 13
    · rw [if_neg (not_not.mpr hcr)]
      rw [getD_eq_iff (by decide)] at hcr
      have hfirst := hopen.first_lt hlf hcr
      have hall' : ∀ l ∈ complete,
          CompleteLine (terminate w k.analysisIndex) (k.analysisIndex + 1) l :=
        fun l hl => ((hall l hl).terminate _).mono (Nat.le_succ _)
      by_cases hlength : k.analysisIndex - 1 - (k.lines.getLastD (0, npos)).1 = 0
      · rw [if_pos hlength]
        rw [hinit] at hempty
        simp only [hinit]
        exact hempty (by omega) hall' hbehind
      · rw [if_neg hlength, hlast, hinit]
        -- the line that ends becomes one of the complete lines
        refine ⟨?_, fun hs => absurd hs hstart, fun hs => absurd hs hchunk,
          complete ++ [(first, k.analysisIndex - 1 - first)], [(k.analysisIndex + 1, npos)],
          by simp, ?_, ?_, .inr ⟨k.analysisIndex + 1, rfl, .next hlf (by omega), ?_, .inl hreads⟩⟩
        · simp only [length_terminate]
          omega
        · intro l hl
          rcases List.mem_append.mp hl with hl | hl
          · exact hall' l hl
          · rw [List.mem_singleton.mp hl]
            exact hopen.ends hlt hlf hcr
        · rw [List.pairwise_append]
          refine ⟨hbehind, List.pairwise_singleton .., ?_⟩
          intro a ha b hb
          rw [List.mem_singleton.mp hb]
          exact hbefore a ha
        · intro l hl
          rcases List.mem_append.mp hl with hl | hl
          · have hinside := (hall l hl).inside
            omega
          · rw [List.mem_singleton.mp hl]
            simp only
            omega
    · rw [if_pos hcr]
      exact h.fail
  · rw [if_neg hlf]
    rw [getD_eq_iff (by decide)] at hlf
    refine ⟨hunread, fun hs => absurd hs hstart, fun hs => absurd hs hchunk, complete,
      [(first, npos)], hlines, fun l hl => (hall l hl).mono (Nat.le_succ _), hbehind,
      .inr ⟨first, rfl, hopen.byte hlf, hbefore, .inl hreads⟩⟩

/-- The end of the header. -/
theorem endHeader {ptr : List UInt8} (hindex : k.analysisIndex + 1 ≤ w.length)
    (htwo : 2 ≤ k.analysisIndex + 1)
    (hall : ∀ l ∈ k.lines, CompleteLine w (k.analysisIndex + 1) l)
    (hbehind : k.lines.Pairwise fun a b => a.1 + a.2 + 2 ≤ b.1) :
    Cursors w (NetworkPool.endHeader ptr k).2 := by
  obtain ⟨hlines, hindex', -, hafter⟩ := decoderHeaderAndUpdateState_frame ptr
    { k with headerSize := k.analysisIndex + 1, analysisIndex := k.analysisIndex + 1 }
  unfold NetworkPool.endHeader
  apply of_complete
  · rw [hindex']
    exact hindex
  · rcases hafter with hstate | hstate | hstate
    all_goals
      rw [hstate]
      decide
  · rcases hafter with hstate | hstate | hstate
    all_goals simp [ReadsLine, hstate]
  · intro _
    rw [hindex']
    exact htwo
  · rw [hlines, hindex']
    exact hall
  · rw [hlines]
    exact hbehind

/-- A round of the loop that reads the size of a chunk. -/
theorem readChunkHeader (h : Cursors w k) (hstate : k.state = .readChunkHeader)
    (hunread : k.analysisIndex < w.length) :
    Cursors (NetworkPool.readChunkHeader w k).2.1 (NetworkPool.readChunkHeader w k).2.2 := by
  have htwo := h.chunk (.inl hstate)
  have hreads : ¬ReadsLine k.state := by simp [ReadsLine, hstate]
  obtain ⟨hall, hbehind⟩ := h.complete hreads (by simp [hstate])
  unfold NetworkPool.readChunkHeader
  simp only
  by_cases hlf : w.getD k.analysisIndex 0 = 10
  · rw [if_pos hlf]
    rw [getD_eq_iff (by decide)] at hlf
    have hall' : ∀ l ∈ k.lines,
        CompleteLine (terminate w k.analysisIndex) (k.analysisIndex + 1) l :=
      fun l hl => ((hall l hl).terminate _).mono (Nat.le_succ _)
    by_cases hcr : w.getD (k.analysisIndex - 1) 0 = 13
    · rw [if_neg (not_not.mpr hcr)]
      by_cases hsize : k.nowChunkSize > 0
      · rw [if_pos hsize]
        refine of_complete ?_ ?_ ?_ ?_ hall' hbehind
        · rw [length_terminate]
          exact hunread
        · simp
        · simp [ReadsLine]
        · intro _
          simp only
          omega
      · rw [if_neg hsize]
        -- a line of the trailer is read next
        refine ⟨?_, by simp, by simp, k.lines, [(k.analysisIndex + 1, npos)], rfl, hall', hbehind,
          .inr ⟨k.analysisIndex + 1, rfl, .next hlf (by omega), fun l hl => ?_,
            .inl (.inr rfl)⟩⟩
        · rw [length_terminate]
          exact hunread
        · have hinside := (hall l hl).inside
          omega
    · rw [if_pos hcr]
      exact h.fail
  · rw [if_neg hlf]
    obtain ⟨size, sizeStart, sizeDone, hchar, -⟩ :=
      chunkSizeChar_frame (w.getD k.analysisIndex 0) k
    rw [hchar]
    refine of_complete hunread ?_ hreads ?_ (fun l hl => (hall l hl).mono (Nat.le_succ _)) hbehind
    · simp [hstate]
    · intro _
      simp only
      omega

/-- **A pass keeps the cursors where they should be.** -/
theorem pass (h : Cursors w k) (hlt : w.length < npos) :
    Cursors (NetworkPool.pass w w.length k).2.1 (NetworkPool.pass w w.length k).2.2 := by
  unfold NetworkPool.pass
  by_cases hend : k.state = .done ∨ k.state = .bad
  · rw [if_pos hend]
    exact h
  · rw [if_neg hend]
    by_cases hunread : w.length ≤ k.analysisIndex
    · rw [if_pos hunread]
      exact h
    · rw [if_neg hunread]
      rw [Nat.not_le] at hunread
      -- no line is read while a body is
      have hbody : ∀ index, k.analysisIndex ≤ index → index ≤ w.length →
          ¬ReadsLine k.state → ∀ k' : Parser, k'.lines = k.lines → k'.analysisIndex = index →
          k'.state ≠ .start → ¬ReadsLine k'.state →
          (k'.state = .readChunkHeader ∨ k'.state = .readChunkBody → 2 ≤ index) →
          Cursors w k' := by
        intro index hle hindex hreads k' hlines hindex' hstart hreads' hchunk
        obtain ⟨hall, hbehind⟩ := h.complete hreads (not_or.mp hend).2
        apply of_complete _ hstart hreads'
        · rw [hindex']
          exact hchunk
        · rw [hlines, hindex']
          exact fun l hl => (hall l hl).mono hle
        · rw [hlines]
          exact hbehind
        · rw [hindex']
          exact hindex
      split
      · next hstate =>
        obtain ⟨hlines, hindex⟩ := h.start hstate
        unfold startLine
        by_cases hfirst : k.analysisIndex ≠ 0 ∨ w.getD 0 0 = 10
        · rw [if_pos hfirst]
          exact h.fail
        · rw [if_neg hfirst]
          obtain ⟨-, hfirst⟩ := not_or.mp hfirst
          obtain ⟨b, hb⟩ : ∃ b, w[0]? = some b :=
            ⟨w[0], List.getElem?_eq_getElem (by omega)⟩
          have hne : b ≠ 10 := by
            intro heq
            rw [getD_eq_iff (by decide), hb, heq] at hfirst
            exact hfirst rfl
          refine ⟨h.index_le, by simp, by simp, [], [(0, npos)], by simp [hlines], by simp, .nil,
            .inr ⟨0, rfl, ⟨Nat.zero_le _, fun i _ hi => ?_, .inl ⟨rfl, b, hb, hne⟩⟩, by simp,
              .inl (.inl rfl)⟩⟩
          simp only [hindex] at hi
          exact absurd hi (Nat.not_lt_zero _)
      · next hstate =>
        apply h.scanLine hlt (.inl hstate) hunread
        intro htwo hall hbehind
        exact endHeader (by rw [length_terminate]; exact hunread) htwo hall hbehind
      · next hstate =>
        unfold readBody
        split
        · refine hbody (k.analysisIndex + k.contentLength) (by omega) (by omega) ?_ _ rfl rfl
            ?_ ?_ ?_
          · simp [ReadsLine, hstate]
          · simp
          · simp [ReadsLine]
          · simp
        · exact h
      · next hstate => exact h.readChunkHeader hstate hunread
      · next hstate =>
        have htwo := h.chunk (.inr hstate)
        unfold readChunkBody
        split
        · refine hbody (k.analysisIndex + (k.nowChunkSize + 2) % 2 ^ 64) (by omega) (by omega) ?_ _
            rfl rfl ?_ ?_ ?_
          · simp [ReadsLine, hstate]
          · simp
          · simp [ReadsLine]
          · intro _
            omega
        · exact h
      · next hstate =>
        apply h.scanLine hlt (.inr hstate) hunread
        intro htwo hall hbehind
        refine of_complete ?_ ?_ ?_ ?_ hall hbehind
        · rw [length_terminate]
          exact hunread
        · simp [endFooter]
        · simp [endFooter, ReadsLine]
        · simp [endFooter]
      · exact h
      · exact h

/-- More bytes come. -/
theorem append (h : Cursors w k) (m : List UInt8) : Cursors (w ++ m) k where
  index_le := by
    have hle := h.index_le
    rw [List.length_append]
    omega
  start := h.start
  chunk := h.chunk
  lines := by
    obtain ⟨complete, reading, hlines, hall, hbehind, hreading⟩ := h.lines
    refine ⟨complete, reading, hlines, fun l hl => (hall l hl).append m, hbehind, ?_⟩
    rcases hreading with hnone | ⟨first, heq, hopen, hrest⟩
    · exact .inl hnone
    · exact .inr ⟨first, heq, hopen.append h.index_le m, hrest⟩

/-- A complete message is cut off behind what has been analysed. -/
theorem take (h : Cursors w k) (hdone : k.state = .done) (hdone' : k'.state = .done)
    (hlines : k'.lines = k.lines) (hindex : k'.analysisIndex = k.analysisIndex) :
    Cursors (w.take k.analysisIndex) k' := by
  have hle := h.index_le
  obtain ⟨hall, hbehind⟩ := h.complete (by simp [ReadsLine, hdone]) (by simp [hdone])
  apply of_complete
  · rw [hindex, List.length_take]
    omega
  · simp [hdone']
  · simp [ReadsLine, hdone']
  · simp [hdone']
  · rw [hlines, hindex]
    exact fun l hl => (hall l hl).take
  · rw [hlines]
    exact hbehind

theorem ok (h : Cursors w k) : k.Ok w where
  index_le := h.index_le
  terminated := by
    intro l hl hknown
    obtain ⟨complete, reading, hlines, hall, -, hreading⟩ := h.lines
    rw [hlines] at hl
    rcases List.mem_append.mp hl with hl | hl
    · exact (hall l hl).nul
    · rcases hreading with ⟨hnil, -⟩ | ⟨first, heq, -⟩
      · rw [hnil] at hl
        exact absurd hl List.not_mem_nil
      · rw [heq] at hl
        rw [List.mem_singleton.mp hl] at hknown
        exact absurd rfl hknown

end Cursors

/-! ## Contexts -/

namespace ChttpContext

variable {ctx ctx' : ChttpContext} {maxBufferSize : ℕ}

/-- The cursors of a context are where they should be. -/
structure Sound (ctx : ChttpContext) : Prop where
  wf : ctx.Wf
  cursors : Cursors ctx.received ctx.toParser

theorem Sound.receiving (h : ctx.Sound) : ctx.Receiving :=
  ⟨h.wf, h.cursors.ok⟩

theorem Sound.pass (h : ctx.Sound) : ctx.pass.2.Sound := by
  have hlength : ctx.received.length < npos := by
    have hdata := ctx.buffer.data_lt
    have htake : ctx.received.length ≤ ctx.buffer.data.length := List.length_take_le' ..
    unfold npos
    omega
  have hpass := h.cursors.pass hlength
  rw [pass_view h.receiving] at hpass
  exact ⟨h.wf.pass, hpass⟩

/-- Every step keeps the cursors where they should be. -/
theorem Sound.step {e : ContextEvent} (h : ctx.Sound)
    (hstep : (contextSystem maxBufferSize).step ctx e = some ctx') : ctx'.Sound := by
  cases e with
  | prepare garbage =>
    obtain ⟨⟨ctx₁, window⟩, hprepare, rfl⟩ := Option.map_eq_some_iff.mp hstep
    obtain ⟨hwf, -, -, hcase⟩ := prepareBuffer_spec h.wf hprepare
    refine ⟨hwf, ?_⟩
    rcases hcase with ⟨-, hparser, -⟩ | ⟨-, hparser, -, hreceived⟩
    · rw [hparser]
      exact .init _
    · rw [hparser, hreceived]
      exact h.cursors
  | recv bytes =>
    obtain ⟨hfit, hstep⟩ := Option.ite_none_right_eq_some.mp hstep
    rw [← Option.some.inj hstep]
    have hwf : ((ctx.fill bytes).recvPush bytes.length).Wf := by
      rw [recvPush_fill hfit]
      refine ⟨Nat.le_add_right_of_le h.wf.index_le, hfit, fun hne => ?_⟩
      apply h.wf.length_le
      intro hnil
      apply hne
      simp only [fill, Cbuffer.store_data, hnil, overwrite]
      simp
    refine ⟨hwf, ?_⟩
    rw [fill_received h.wf hfit, recvPush_fill hfit]
    exact h.cursors.append bytes
  | pass =>
    rw [← Option.some.inj hstep]
    exact h.pass
  | next former =>
    obtain ⟨⟨ctx₁, former₁⟩, hreinit, rfl⟩ := Option.map_eq_some_iff.mp hstep
    obtain ⟨hwf, hparser, -⟩ := reinitForNext_parts h.wf hreinit
    refine ⟨hwf, ?_⟩
    rw [hparser]
    exact .init _
  | moved former =>
    obtain ⟨⟨ctx₁, former₁⟩, hreinit, rfl⟩ := Option.map_eq_some_iff.mp hstep
    obtain ⟨-, -, hwf, -, hindex, -⟩ := reinitForNext_parts h.wf hreinit
    have hdone : ctx.state = .done := by
      by_contra hstate
      rw [reinitForNext, if_pos hstate] at hreinit
      exact absurd hreinit (by simp)
    obtain ⟨ctx₂, former₂, hreinit', -, -, -, -, -, hrequest⟩ :=
      reinitForNext_spec h.receiving hdone former
    rw [hreinit, Option.some.injEq, Prod.mk.injEq] at hreinit'
    rw [← hreinit'.2] at hrequest
    have hreceived : former₁.received = ctx.received.take ctx.analysisIndex :=
      congrArg Request.bytes hrequest
    have hlines : former₁.lines = ctx.lines := congrArg Request.lines hrequest
    have hdone' : former₁.state = .done := by
      unfold reinitForNext at hreinit
      rw [if_neg (not_not.mpr hdone), Option.some.injEq, Prod.mk.injEq] at hreinit
      rw [← hreinit.2]
      exact hdone
    refine ⟨hwf, ?_⟩
    rw [hreceived]
    exact h.cursors.take hdone hdone' hlines hindex

theorem sound_of_reachable (h : (contextSystem maxBufferSize).Reachable ctx) : ctx.Sound :=
  h.invariant ⟨.new maxBufferSize, .init _⟩ fun _ _ _ _ hsound hstep => hsound.step hstep

/-! ## The analysis -/

/-- The context after `n` passes. -/
def passes (n : ℕ) (ctx : ChttpContext) : ChttpContext :=
  (fun c => c.pass.2)^[n] ctx

/-- Where a pass looks besides the byte at its cursor: at the byte before, and at the last line,
from whose beginning the length is counted. -/
structure SafeReads (ctx : ChttpContext) : Prop where
  lookBehind : Scanning ctx.state → ctx.analysisIndex < ctx.nowIndex →
    ctx.buffer.data[ctx.analysisIndex]? = some 10 → 1 ≤ ctx.analysisIndex
  back : ReadsLine ctx.state → ctx.analysisIndex < ctx.nowIndex →
    ctx.buffer.data[ctx.analysisIndex]? = some 10 →
    ctx.buffer.data[ctx.analysisIndex - 1]? = some 13 →
    ∃ l ∈ ctx.lines.getLast?, l.1 ≤ ctx.analysisIndex - 1

theorem Sound.safeReads (h : ctx.Sound) : ctx.SafeReads := by
  have hget : ∀ i < ctx.nowIndex, ctx.received[i]? = ctx.buffer.data[i]? :=
    fun i hi => List.getElem?_take_of_lt hi
  constructor
  · intro hscan hunread hlf
    rw [← hget _ hunread] at hlf
    by_cases hreads : ReadsLine ctx.state
    · obtain ⟨complete, first, -, -, -, hopen, -⟩ := h.cursors.reading hreads
      exact hopen.index_pos hlf
    · have hchunk : ctx.state = .readChunkHeader := by
        rcases hscan with hstate | hstate | hstate
        · exact absurd (.inl hstate) hreads
        · exact hstate
        · exact absurd (.inr hstate) hreads
      have htwo := h.cursors.chunk (.inl hchunk)
      omega
  · intro hreads hunread hlf hcr
    rw [← hget _ hunread] at hlf
    rw [← hget _ (by omega)] at hcr
    obtain ⟨complete, first, hlines, -, -, hopen, -⟩ := h.cursors.reading hreads
    have hfirst := hopen.first_lt hlf hcr
    refine ⟨(first, npos), ?_, ?_⟩
    · rw [hlines, List.getLast?_concat]
      rfl
    · simp only
      omega

theorem reachable_passes (h : (contextSystem maxBufferSize).Reachable ctx) (n : ℕ) :
    (contextSystem maxBufferSize).Reachable (ctx.passes n) := by
  induction n with
  | zero => exact h
  | succ n ih =>
    rw [passes, Function.iterate_succ_apply']
    exact ih.step (e := .pass) rfl

/-- `analysis` takes passes until one returns. -/
theorem analysis_passes (ctx : ChttpContext) : ∃ n answer,
    (∀ m < n, (ctx.passes m).pass.1 = .again) ∧ (ctx.passes n).pass.1 = .ret answer ∧
      ctx.analysis = (answer, ctx.passes (n + 1)) := by
  apply analysis_induction (P := fun ctx answer last => ∃ n a,
    (∀ m < n, (ctx.passes m).pass.1 = .again) ∧ (ctx.passes n).pass.1 = .ret a ∧
      (answer, last) = (a, ctx.passes (n + 1)))
  · rintro ctx ctx' answer last hpass ⟨n, a, hagain, hret, hlast⟩
    have hnext : ∀ m, ctx.passes (m + 1) = ctx'.passes m := by
      intro m
      rw [passes, Function.iterate_succ_apply, hpass]
      rfl
    refine ⟨n + 1, a, ?_, ?_, ?_⟩
    · intro m hm
      cases m with
      | zero => exact congrArg Prod.fst hpass
      | succ m =>
        rw [hnext]
        exact hagain m (by omega)
    · rw [hnext]
      exact hret
    · rw [hnext]
      exact hlast
  · intro ctx answer ctx' hpass
    refine ⟨0, answer, by simp, congrArg Prod.fst hpass, ?_⟩
    have hone : ctx.passes 1 = ctx' := congrArg Prod.snd hpass
    rw [Nat.zero_add, hone]

/-- **The analysis terminates with consistent cursors.** From any context that can come about it
ends after finitely many passes, the cursor never goes back and does not pass the received
bytes, no pass reads before the buffer, uses the last line of none or counts a negative length,
and the lines are as `Cursors` says at every moment. -/
theorem analysis_consistent (h : (contextSystem maxBufferSize).Reachable ctx) :
    (∃ n answer, (∀ m < n, (ctx.passes m).pass.1 = .again) ∧
      (ctx.passes n).pass.1 = .ret answer ∧ ctx.analysis = (answer, ctx.passes (n + 1))) ∧
    ctx.analysisIndex ≤ ctx.analysis.2.analysisIndex ∧
    ctx.analysis.2.analysisIndex ≤ ctx.analysis.2.nowIndex ∧
    ∀ n,
      (ctx.passes n).analysisIndex ≤ (ctx.passes (n + 1)).analysisIndex ∧
      (ctx.passes n).SafeReads ∧ Cursors (ctx.passes n).received (ctx.passes n).toParser := by
  have hmono : ∀ n, (ctx.passes n).analysisIndex ≤ (ctx.passes (n + 1)).analysisIndex := by
    intro n
    have hsound := sound_of_reachable (reachable_passes h n)
    have hle := ((pass_spec (ctx.passes n)).1.index_le hsound.wf.index_le).1
    rw [passes, passes, Function.iterate_succ_apply'] at *
    exact hle
  obtain ⟨n, answer, hagain, hret, hanalysis⟩ := analysis_passes ctx
  have hlast : ctx.analysis.2 = ctx.passes (n + 1) := congrArg Prod.snd hanalysis
  refine ⟨⟨n, answer, hagain, hret, hanalysis⟩, ?_, ?_, fun m => ?_⟩
  · rw [hlast]
    exact monotone_nat_of_le_succ hmono (Nat.zero_le (n + 1))
  · rw [hlast]
    exact (sound_of_reachable (reachable_passes h (n + 1))).wf.index_le
  · have hsound := sound_of_reachable (reachable_passes h m)
    exact ⟨hmono m, hsound.safeReads, hsound.cursors⟩

/-- A request that is cut off in a chunk of which the size wraps. -/
theorem analysis_consistent_huge_chunk :
    ∃ ctx, ctx.received = lit
        "POST / HTTP/1.1\r\nTransfer-Encoding: chunked\r\n\r\nFFFFFFFFFFFFFFFE\r\n\r" ∧
      (contextSystem 0x1000000).Reachable ctx ∧
      ctx.analysisIndex ≤ ctx.analysis.2.analysisIndex ∧
      ctx.analysis.2.analysisIndex ≤ ctx.analysis.2.nowIndex := by
  let r : Read := ⟨fun _ => 0,
    lit "POST / HTTP/1.1\r\nTransfer-Encoding: chunked\r\n\r\nFFFFFFFFFFFFFFFE\r\n\r"⟩
  have hnew := Receiving.new 0x1000000
  obtain ⟨ctx₁, hreceive, -⟩ :=
    (Roomy.new 0x1000000 (r.bytes.length + 0) (by decide) (by decide)).receive hnew
      (.new 0x1000000) (by decide)
  obtain ⟨-, -, hview⟩ := receiving_receive hnew (.new 0x1000000) hreceive
  have hrun := run_receive (e := []) hnew.wf (Lib.Lts.run_nil ..) hreceive
  have hreachable := Lib.Lts.reachable_of_run hrun
  obtain ⟨-, hmono, hle, -⟩ := analysis_consistent hreachable
  exact ⟨_, congrArg Prod.fst hview, hreachable, hmono, hle⟩

end ChttpContext

end NetworkPool
