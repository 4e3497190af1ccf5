import Mathlib.Data.List.TakeWhile
import NetworkPool.Http.Ranges
import NetworkPool.Http.DecodeHeader

/-!
# The first line

A message that is complete begins with a line that ends with CR LF. If the line is empty, it is
the message; if not, the analysis keeps it in front (`done_cases`, `Begun`), where `getInfo` looks
for its three parts (`getInfo_exact_iff`).
-/

namespace NetworkPool

open Lib (Incremental)
open Lib.CString

/-- The first line of a stream, without its CR LF. -/
def firstLine (w : List UInt8) : List UInt8 :=
  (w.takeWhile (· != 10)).dropLast

/-- Where the analyser stands behind a first line. -/
def behindFirst (l q : List UInt8) : View :=
  (l ++ nuls ++ q,
    { state := .readHeader
      lines := [(0, l.length), (l.length + 2, npos)]
      analysisIndex := l.length + 2 })

/-- Where the analyser ends if the first line is empty. -/
def blankFirst (q : List UInt8) : View :=
  (nuls ++ q, { state := .done, headerSize := 2, analysisIndex := 2 })

section FirstLine

variable {w l q : List UInt8} {s f : View} {o : List Request}

theorem firstLine_eq (hl : 10 ∉ l) : firstLine (l ++ crlf ++ q) = l := by
  have htake : (l ++ crlf ++ q).takeWhile (· != 10) = l ++ [13] := by
    rw [List.append_assoc, List.takeWhile_append_of_pos]
    · rfl
    · intro a ha
      simpa using ne_of_mem_of_not_mem ha hl
  rw [firstLine, htake, List.dropLast_concat]

/-- The first byte. -/
theorem runs_start {b : UInt8} (hb : b ≠ 10) :
    analyser.Runs (b :: w, {}) [] (b :: w, { state := .readHeader, lines := [(0, npos)] }) := by
  apply runs_again
  simp [pass, startLine, hb]

/-- The bytes of the first line. -/
theorem runs_first_text (hne : l ≠ []) (hl : 10 ∉ l) :
    analyser.Runs (l ++ q, {}) []
      (l ++ q, { state := .readHeader, lines := [(0, npos)], analysisIndex := l.length }) := by
  obtain ⟨b, t, rfl⟩ := List.exists_cons_of_ne_nil hne
  have hb : b ≠ 10 := fun heq => hl (heq ▸ List.mem_cons_self)
  have htext := runs_text (p := []) (q := q) (k := { state := .readHeader, lines := [(0, npos)] })
    (.inl rfl) rfl hl
  simp only [List.nil_append, List.length_nil, Nat.zero_add] at htext
  exact (runs_start hb).trans htext

/-- The first line and its end. -/
theorem runs_first (hne : l ≠ []) (hl : 10 ∉ l) :
    analyser.Runs (l ++ crlf ++ q, {}) [] (behindFirst l q) := by
  obtain ⟨b, t, rfl⟩ := List.exists_cons_of_ne_nil hne
  have hb : b ≠ 10 := fun heq => hl (heq ▸ List.mem_cons_self)
  have hline := runs_line (p := []) (q := q) (s := [])
    (k := { state := .readHeader, lines := [(0, npos)] }) (.inl rfl) rfl rfl hne hl
  simp only [List.nil_append, List.length_nil, Nat.zero_add] at hline
  exact (runs_start hb).trans hline

/-- The whole of a message that begins with an empty line. -/
theorem runs_blank (q : List UInt8) :
    analyser.Runs (crlf ++ q, {}) [] (blankFirst q) := by
  have hend := runs_header_end (p := []) (q := q) (s := [])
    (k := { state := .readHeader, lines := [(0, npos)] }) rfl rfl rfl
  exact (runs_start (by decide)).trans hend

/-- All bytes are read and more are waited for. -/
theorem analyserStep_waiting (hstate : ¬(s.2.state = .done ∨ s.2.state = .bad))
    (hindex : s.1.length ≤ s.2.analysisIndex) : analyserStep s = none := by
  have hpass : pass s.1 s.1.length s.2 = (.ret false, s) := by
    rw [pass, if_neg hstate, if_pos hindex]
  unfold analyserStep
  rw [hpass]
  rfl

/-- An LF that does not follow a CR. -/
theorem runs_bad {c : UInt8} (hl : 10 ∉ l ++ [c]) (hc : c ≠ 13) :
    ∃ s, analyser.Runs (l ++ [c] ++ 10 :: q, {}) [] s ∧ s.2.state = .bad := by
  have htext := runs_first_text (q := 10 :: q) (List.append_ne_nil_of_right_ne_nil l (by simp)) hl
  set k : Parser :=
    { state := .readHeader, lines := [(0, npos)], analysisIndex := (l ++ [c]).length } with hk
  have hlf : (l ++ [c] ++ 10 :: q).getD k.analysisIndex 0 = 10 := getD_length ..
  have hprev : (l ++ [c] ++ 10 :: q).getD (k.analysisIndex - 1) 0 = c := by
    rw [hk, List.length_append, List.length_singleton, Nat.add_sub_cancel, List.append_assoc]
    exact getD_length ..
  have hunread : k.analysisIndex < (l ++ [c] ++ 10 :: q).length := by
    simp only [hk, List.length_append, List.length_cons]
    omega
  have hpass : pass (l ++ [c] ++ 10 :: q) (l ++ [c] ++ 10 :: q).length k =
      (.ret true, l ++ [c] ++ 10 :: q, { k with state := .bad }) := by
    rw [pass_readHeader _ rfl hunread]
    unfold scanLine
    simp only [hlf, hprev, if_pos, hc, ne_eq, not_false_eq_true]
  have hstep : analyserStep (l ++ [c] ++ 10 :: q, k) =
      some (l ++ [c] ++ 10 :: q, { k with state := .bad }) := by
    unfold analyserStep
    rw [hpass]
    rfl
  have hlast : analyser.Runs (l ++ [c] ++ 10 :: q, k) []
      (l ++ [c] ++ 10 :: q, { k with state := .bad }) := by
    apply Incremental.Runs.single
    rw [analyser_step, hstep]
    rfl
  exact ⟨_, htext.trans hlast, rfl⟩

/-- **How a complete message begins**: with an empty line, which is all of it, or with a line that
stays in front of what is analysed from then on. -/
theorem done_cases (hhalts : analyser.Halts (w, {}) o f) (hdone : f.2.state = .done) :
    (∃ q, w = crlf ++ q ∧ f = blankFirst q) ∨
      ∃ l q o', l ≠ [] ∧ 10 ∉ l ∧ w = l ++ crlf ++ q ∧ analyser.Halts (behindFirst l q) o' f := by
  have hend : ∀ s, analyser.Runs (w, {}) [] s → analyserStep s = none → f = s := by
    intro s hruns hstuck
    exact (hhalts.unique ⟨hruns, Option.map_eq_none_iff.mpr hstuck⟩).2
  by_cases hlf : 10 ∈ w
  · obtain ⟨t, q, rfl, ht⟩ := List.eq_append_cons_of_mem hlf
    rcases List.eq_nil_or_concat t with rfl | ⟨l, c, rfl⟩
    · -- an LF in front
      have hstep : analyserStep (10 :: q, {}) = some (10 :: q, { state := .bad }) := by
        simp [analyserStep, pass, startLine]
      have hbad := hend (10 :: q, { state := .bad })
        (.single (by rw [List.nil_append, analyser_step, hstep]; rfl))
        (analyserStep_over (.inr rfl))
      rw [hbad] at hdone
      exact absurd hdone (by simp)
    · rw [List.concat_eq_append] at ht hend ⊢
      by_cases hc : c = 13
      · have hw : l ++ [c] ++ 10 :: q = l ++ crlf ++ q := by
          rw [hc]
          simp [crlf]
        rw [List.concat_eq_append, hw] at hhalts
        rw [hw] at hend ⊢
        have hl : 10 ∉ l := fun hmem => ht (List.mem_append_left _ hmem)
        by_cases hne : l = []
        · subst hne
          exact .inl ⟨q, rfl, hend _ (runs_blank q) (analyserStep_over (.inl rfl))⟩
        · obtain ⟨o', hrest⟩ := hhalts.of_prefix (runs_first hne hl)
          exact .inr ⟨l, q, o', hne, hl, rfl, hrest⟩
      · obtain ⟨s, hruns, hbad⟩ := runs_bad (q := q) ht hc
        rw [hend s hruns (analyserStep_over (.inr hbad)), hbad] at hdone
        exact absurd hdone (by decide)
  · -- no line is complete
    exfalso
    by_cases hne : w = []
    · subst hne
      rw [hend ([], {}) (.refl _) rfl] at hdone
      exact absurd hdone (by decide)
    · have htext := runs_first_text (q := []) hne hlf
      rw [List.append_nil] at htext
      rw [hend _ htext (analyserStep_waiting (by simp) le_rfl)] at hdone
      exact absurd hdone (by simp)

/-! ## The first line stays -/

/-- A line end that is not in front of `p` is overwritten behind `p`. -/
theorem terminate_append_right (p r : List UInt8) {i : ℕ} (hi : p.length + 1 ≤ i) :
    terminate (p ++ r) i = p ++ terminate r (i - p.length) := by
  unfold terminate
  rw [List.set_append_right _ _ (by omega), List.set_append_right _ _ (by omega),
    Nat.sub_right_comm]

/-- The first line is in front of what is analysed. -/
structure Begun (l : List UInt8) (s : View) : Prop where
  front : ∃ m, s.1 = l ++ nuls ++ m
  index_le : l.length + 2 ≤ s.2.analysisIndex
  lines : ∃ rest, s.2.lines = (0, l.length) :: rest ∧
    (s.2.state = .readHeader ∨ s.2.state = .readChunkFooter → rest ≠ [])

/-- Line ends behind the first line do not change it. -/
theorem terminate_front {m : List UInt8} {i : ℕ} (hi : l.length + 2 ≤ i) :
    ∃ m', terminate (l ++ nuls ++ m) i = l ++ nuls ++ m' := by
  have hsplit : ∀ m, l ++ nuls ++ m = (l ++ [0]) ++ 0 :: m := by
    intro m
    simp [nuls]
  have hlength : (l ++ [(0 : UInt8)]).length = l.length + 1 := by simp
  obtain ⟨j, hj⟩ : ∃ j, i - (l ++ [(0 : UInt8)]).length = j + 1 := ⟨i - l.length - 2, by omega⟩
  rw [hsplit, terminate_append_right _ _ (by omega), hj]
  have hhead : ∃ m', terminate (0 :: m) (j + 1) = 0 :: m' := by
    unfold terminate
    cases j with
    | zero => exact ⟨_, rfl⟩
    | succ j => exact ⟨_, rfl⟩
  obtain ⟨m', hm'⟩ := hhead
  exact ⟨m', by rw [hm', hsplit]⟩

theorem Begun.init (l q : List UInt8) : Begun l (behindFirst l q) where
  front := ⟨q, rfl⟩
  index_le := le_rfl
  lines := ⟨[(l.length + 2, npos)], rfl, fun _ => by simp⟩

theorem Begun.step {s' : View} (h : Begun l s) (hstep : analyserStep s = some s') :
    Begun l s' := by
  have hprogress := pass_progress s.1 s.1.length s.2
  rw [(pass_of_analyserStep hstep).1.symm]
  revert hprogress
  generalize pass s.1 s.1.length s.2 = r
  intro hprogress
  obtain ⟨m, hm⟩ := h.front
  obtain ⟨rest, hrest, hscan⟩ := h.lines
  have hindex := h.index_le
  have hend : ∃ m, terminate s.1 s.2.analysisIndex = l ++ nuls ++ m := by
    rw [hm]
    exact terminate_front hindex
  -- where a line is open, the first line is not the last
  have hdrop : s.2.state = .readHeader ∨ s.2.state = .readChunkFooter →
      s.2.lines.dropLast = (0, l.length) :: rest.dropLast := by
    intro hstate
    rw [hrest, List.dropLast_cons_of_ne_nil (hscan hstate)]
  cases hprogress with
  | ended => exact h
  | wait => exact h
  | fail => exact ⟨h.front, hindex, rest, hrest, by simp⟩
  | start => exact ⟨h.front, hindex, rest ++ [(0, npos)], by simp [hrest], by simp⟩
  | byte => exact ⟨h.front, Nat.le_succ_of_le hindex, rest, hrest, hscan⟩
  | line _ hstate first length =>
    refine ⟨hend, Nat.le_succ_of_le hindex,
      rest.dropLast ++ [(first, length), (s.2.analysisIndex + 1, npos)], ?_, by simp⟩
    simp only
    rw [hdrop hstate, List.cons_append]
  | header _ hstate k' _ hlines hnext _ hafter =>
    refine ⟨hend, by rw [hnext]; exact Nat.le_succ_of_le hindex, rest.dropLast, ?_, ?_⟩
    · rw [hlines, hdrop (.inl hstate)]
    · intro hopen
      unfold AfterHeader at hafter
      rcases hopen with hopen | hopen
      · simp only at hopen
        simp [hopen] at hafter
      · simp only at hopen
        simp [hopen] at hafter
  | body => exact ⟨h.front, Nat.le_add_right_of_le hindex, rest, hrest, by simp⟩
  | size => exact ⟨hend, Nat.le_succ_of_le hindex, rest, hrest, by simp⟩
  | lastSize =>
    exact ⟨hend, Nat.le_succ_of_le hindex, rest ++ [(s.2.analysisIndex + 1, npos)],
      by simp [hrest], by simp⟩
  | chunk => exact ⟨h.front, Nat.le_add_right_of_le hindex, rest, hrest, by simp⟩
  | trailer _ hstate =>
    exact ⟨hend, Nat.le_succ_of_le hindex, rest.dropLast, hdrop (.inr hstate), by simp⟩

theorem Begun.runs (h : Begun l s) (hruns : analyser.Runs s o f) : Begun l f :=
  analyser_invariant hruns h fun _ _ h hstep => h.step hstep

end FirstLine

/-! ## `getInfo` -/

theorem zero_notMem_text (l : List UInt8) : 0 ∉ text l := by
  intro hmem
  exact absurd (List.mem_takeWhile_imp hmem) (by simp)

/-- A string ends at its first NUL. -/
theorem exists_text (l m : List UInt8) : ∃ m', l ++ 0 :: m = text l ++ 0 :: m' := by
  have hsplit : text l ++ l.dropWhile (· != 0) = l := List.takeWhile_append_dropWhile
  cases hrest : l.dropWhile (· != 0) with
  | nil =>
    rw [hrest, List.append_nil] at hsplit
    exact ⟨m, by rw [hsplit]⟩
  | cons b rest =>
    have hb : b = 0 := by
      have hhead := List.head_dropWhile_not (l := l) (· != 0) (by rw [hrest]; simp)
      simpa [hrest] using hhead
    rw [hrest, hb] at hsplit
    refine ⟨rest ++ 0 :: m, ?_⟩
    rw [← List.cons_append, ← List.append_assoc, hsplit]

namespace ChttpContext

variable {ctx ctx' former former' : ChttpContext} {l m : List UInt8} {rest : List (ℕ × ℕ)}

/-- What `getInfo` ought to do with a first line. -/
def InfoExact (ctx : ChttpContext) (line : List UInt8) : Prop :=
  ctx.lines ≠ [] ∧
    if line.count 32 < 2 then ctx.getInfo = .ok none
    else
      ∃ first second third, ctx.getInfo = .ok (some (first, second, third)) ∧
        first ++ 32 :: second ++ 32 :: third = line ∧ 32 ∉ first ∧ 32 ∉ second

/-- The two searches of `getInfo` in the text at the first line. -/
theorem getInfo_eq (hdone : ctx.state = .done) (hlines : ctx.lines = (0, l.length) :: rest)
    {line : List UInt8} (hdata : ctx.buffer.data = line) :
    ctx.getInfo =
      match strchr line 32 with
      | none => .ok none
      | some b1 =>
        match strchr (line.drop (b1 + 1)) 32 with
        | none => .error .nullPointer
        | some b2 =>
          .ok (some (line.take b1, (line.drop (b1 + 1)).take b2,
            text (line.drop (b1 + 1 + b2 + 1)))) := by
  subst hdata
  rw [getInfo, if_neg (not_not.mpr hdone), hlines]
  rfl

/-- `getInfo` on a line up to its terminator. -/
theorem getInfo_text (hdone : ctx.state = .done) (hlines : ctx.lines = (0, l.length) :: rest)
    {t : List UInt8} (hdata : ctx.buffer.data = t ++ 0 :: m) (ht : 0 ∉ t) :
    (ctx.getInfo = .error .nullPointer ∧ t.count 32 = 1) ∨
      (ctx.InfoExact t ∧ t.count 32 ≠ 1) := by
  have hne : ctx.lines ≠ [] := by simp [hlines]
  have hinfo := getInfo_eq hdone hlines hdata
  have hspaces : ∀ a b : List UInt8, 32 ∉ a → (a ++ 32 :: b).count 32 = b.count 32 + 1 := by
    intro a b ha
    rw [List.count_append, List.count_cons_self, List.count_eq_zero.mpr ha, Nat.zero_add]
  by_cases hfirst : 32 ∈ t
  · obtain ⟨a, b, rfl, ha⟩ := List.eq_append_cons_of_mem hfirst
    simp only [List.mem_append, List.mem_cons, not_or] at ht
    have hb1 : strchr (a ++ 32 :: b ++ 0 :: m) 32 = some a.length := by
      rw [List.append_assoc, List.cons_append]
      exact strchr_known ht.1 ha
    have hdrop : (a ++ 32 :: b ++ 0 :: m).drop (a.length + 1) = b ++ 0 :: m := by
      rw [List.append_assoc, ← List.drop_drop, List.drop_left]
      rfl
    have hcount := hspaces a b ha
    rw [hb1] at hinfo
    simp only [hdrop] at hinfo
    by_cases hsecond : 32 ∈ b
    · obtain ⟨c, d, rfl, hc⟩ := List.eq_append_cons_of_mem hsecond
      simp only [List.mem_append, List.mem_cons, not_or] at ht
      have hb2 : strchr (c ++ 32 :: d ++ 0 :: m) 32 = some c.length := by
        rw [List.append_assoc, List.cons_append]
        exact strchr_known ht.2.2.1 hc
      have hthird : (a ++ 32 :: (c ++ 32 :: d) ++ 0 :: m).drop (a.length + 1 + c.length + 1) =
          d ++ 0 :: m := by
        have hfront : a ++ 32 :: (c ++ 32 :: d) ++ 0 :: m =
            (a ++ 32 :: (c ++ [32])) ++ (d ++ 0 :: m) := by simp
        rw [hfront]
        apply List.drop_left'
        simp only [List.length_append, List.length_cons, List.length_nil]
        omega
      rw [hb2] at hinfo
      simp only [hthird, text_known ht.2.2.2.2] at hinfo
      have hmore := hspaces c d hc
      refine .inr ⟨⟨hne, ?_⟩, by omega⟩
      rw [if_neg (by omega)]
      refine ⟨a, c, d, ?_, by simp, ha, hc⟩
      rw [hinfo, List.append_assoc a, List.take_left, List.append_assoc c, List.take_left]
    · rw [strchr_absent hsecond (by decide)] at hinfo
      rw [List.count_eq_zero.mpr hsecond] at hcount
      exact .inl ⟨hinfo, hcount⟩
  · rw [strchr_absent hfirst (by decide)] at hinfo
    have hcount := List.count_eq_zero.mpr hfirst
    refine .inr ⟨⟨hne, ?_⟩, by omega⟩
    rw [if_pos (by omega)]
    exact hinfo

/-- There is a first line, and its text does not have one space alone. -/
def InfoSafe (ctx : ChttpContext) : Prop :=
  ∃ l ∈ ctx.lines.head?, (text (ctx.buffer.getData.drop l.1)).count 32 ≠ 1

instance (ctx : ChttpContext) : Decidable ctx.InfoSafe :=
  inferInstanceAs (Decidable (∃ l ∈ ctx.lines.head?, _))

/-- `getInfo` goes wrong on a complete message exactly where it is not safe. -/
theorem getInfo_error_iff :
    (∃ f, ctx.getInfo = .error f) ↔ ctx.state = .done ∧ ¬ctx.InfoSafe := by
  unfold getInfo InfoSafe
  by_cases hdone : ctx.state = .done
  · rw [if_neg (not_not.mpr hdone), and_iff_right hdone]
    cases ctx.lines with
    | nil => simp
    | cons l rest =>
      have hspace : (32 : UInt8) ≠ 0 := by decide
      simp only [List.head?_cons, Option.mem_some_iff, exists_eq_left', not_not]
      generalize ctx.buffer.getData.drop l.1 = line
      cases hb1 : strchr line 32 with
      | none =>
        have hnone := (strchr_eq_none_iff hspace).mp hb1
        simp [List.count_eq_zero.mpr hnone]
      | some b1 =>
        rw [count_text_of_strchr hspace hb1]
        simp only [Nat.add_eq_right, List.count_eq_zero]
        rw [← strchr_eq_none_iff hspace]
        cases strchr (line.drop (b1 + 1)) 32 with
        | none => simp
        | some b2 => simp
  · rw [if_pos hdone]
    simp [hdone]

/-- The context that a message is moved to holds the same first line. -/
theorem former_front (hbegun : Begun l ctx.view) (hwf : ctx.Wf)
    (hreinit : ctx.reinitForNext former = some (ctx', former')) :
    former'.state = .done ∧ former'.lines = ctx.lines ∧ ∃ m, former'.buffer.data = l ++ 0 :: m := by
  have hindex := hbegun.index_le
  have hle := hwf.index_le
  have hdata := ctx.buffer.length_le
  have hnow := hwf.now_le
  obtain ⟨m, hm⟩ := hbegun.front
  simp only [view, received] at hindex hm
  -- the message contains the first line
  obtain ⟨m', htake⟩ : ∃ m', ctx.buffer.data.take ctx.analysisIndex = l ++ 0 :: m' := by
    have hcut := congrArg (List.take ctx.analysisIndex) hm
    have hfront : (l ++ nuls).length ≤ ctx.analysisIndex := by
      rw [List.length_append, length_nuls]
      exact hindex
    rw [List.take_take, min_eq_left hle, List.take_append, List.take_of_length_le hfront] at hcut
    exact ⟨0 :: m.take (ctx.analysisIndex - (l ++ nuls).length), by simpa [nuls] using hcut⟩
  have hlength : (ctx.buffer.data.take ctx.analysisIndex).length = ctx.analysisIndex := by
    rw [List.length_take]
    omega
  unfold reinitForNext at hreinit
  split at hreinit
  · exact absurd hreinit (by simp)
  · next hstate =>
    rw [Option.some.injEq, Prod.mk.injEq] at hreinit
    rw [← hreinit.2]
    refine ⟨not_not.mp hstate, rfl, ?_⟩
    have hmessage := lt_of_le_of_lt hlength.le (lt_of_le_of_lt (by omega) ctx.buffer.data_lt)
    have hset := (Cbuffer.set_take (b := former.buffer) hlength hmessage).trans htake
    have hsplit := List.take_append_drop ctx.analysisIndex
      (former.buffer.set (ctx.buffer.data.take ctx.analysisIndex) hmessage).data
    rw [hset, List.append_assoc, List.cons_append] at hsplit
    exact ⟨_, hsplit.symm⟩

end ChttpContext

open ChttpContext

/-- **`getInfo` is safe and exact** on a complete message, and on the context it is moved to,
exactly when the first line is there and does not have one space alone. -/
theorem getInfo_exact_iff {maxBufferSize : ℕ} {reads : List Read} {ctx : ChttpContext}
    (hfeed : (ChttpContext.new maxBufferSize).feed reads = some ctx) (hdone : ctx.state = .done) :
    let line := firstLine (stream reads)
    (ctx.InfoExact (text line) ∧ ∀ former ctx' former',
      ctx.reinitForNext former = some (ctx', former') → former'.InfoExact (text line)) ↔
    line ≠ [] ∧ (text line).count 32 ≠ 1 := by
  intro line
  obtain ⟨hreads, hreceiving⟩ := feed_spec (.new maxBufferSize) (.new maxBufferSize) hfeed
  rcases done_cases (halts_of_feed hfeed) hdone with ⟨q, hw, hview⟩ | ⟨l, q, o, hne, hl, hw, hrest⟩
  · -- no line is left
    have hline : line = [] := by
      show firstLine (stream reads) = []
      rw [hw, ← List.nil_append crlf]
      exact firstLine_eq List.not_mem_nil
    have hlines : ctx.lines = [] := congrArg (·.2.lines) hview
    constructor
    · intro h
      exact absurd hlines h.1.1
    · intro h
      exact absurd hline h.1
  · have hline : line = l := by
      show firstLine (stream reads) = l
      rw [hw]
      exact firstLine_eq hl
    have hbegun := (Begun.init l q).runs hrest.1
    obtain ⟨rest, hlines, -⟩ := hbegun.lines
    -- the first line up to its first NUL
    have htext : ∀ c : ChttpContext, c.state = .done → c.lines = ctx.lines →
        (∃ m, c.buffer.data = l ++ 0 :: m) →
        c.getInfo = .error .nullPointer ∧ (text l).count 32 = 1 ∨
          c.InfoExact (text l) ∧ (text l).count 32 ≠ 1 := by
      rintro c hc hsame ⟨m, hm⟩
      obtain ⟨m', hm'⟩ := exists_text l m
      exact getInfo_text hc (hsame.trans hlines) (hm.trans hm') (zero_notMem_text l)
    have hdata : ∃ m, ctx.buffer.data = l ++ 0 :: m := by
      obtain ⟨m, hm⟩ := hbegun.front
      have hsplit := List.take_append_drop ctx.nowIndex ctx.buffer.data
      simp only [view, received] at hm
      rw [hm, nuls, List.append_assoc, List.append_assoc] at hsplit
      exact ⟨_, hsplit.symm⟩
    rw [hline]
    constructor
    · intro h
      refine ⟨hne, ?_⟩
      rcases htext ctx hdone rfl hdata with ⟨hfault, -⟩ | hexact
      · have hinfo := h.1.2
        rw [hfault] at hinfo
        split at hinfo
        · exact absurd hinfo (by simp)
        · obtain ⟨_, _, _, hok, -⟩ := hinfo
          exact absurd hok (by simp)
      · exact hexact.2
    · intro h
      have hexact : ∀ c : ChttpContext, c.state = .done → c.lines = ctx.lines →
          (∃ m, c.buffer.data = l ++ 0 :: m) → c.InfoExact (text l) := by
        intro c hc hsame hm
        rcases htext c hc hsame hm with hfault | hok
        · exact absurd hfault.2 h.2
        · exact hok.1
      refine ⟨hexact ctx hdone rfl hdata, ?_⟩
      intro former ctx' former' hreinit
      obtain ⟨hc, hsame, hm⟩ := former_front hbegun hreceiving.wf hreinit
      exact hexact former' hc hsame hm

/-- A request, in two reads. -/
theorem getInfo_exact_iff_get :
    ∃ reads ctx, stream reads = lit "GET / HTTP/1.1\r\n\r\n" ∧
      (ChttpContext.new 0x1000000).feed reads = some ctx ∧ ctx.state = .done ∧
      ctx.InfoExact (lit "GET / HTTP/1.1") := by
  obtain ⟨ctx, hfeed, hdone, -⟩ := exists_done (lit "GET / HTTP/1.1\r\n\r\n") 20 (by decide)
    (by decide) (by decide)
  have hexact := (getInfo_exact_iff hfeed hdone).mpr (by decide)
  exact ⟨_, ctx, rfl, hfeed, hdone, hexact.1⟩

/-- A first line with one space, and one that is empty. -/
theorem getInfo_faults :
    (∃ reads ctx, stream reads = lit "GET /\r\n\r\n" ∧
      (ChttpContext.new 0x1000000).feed reads = some ctx ∧ ctx.state = .done ∧
      ctx.getInfo = .error .nullPointer ∧ ¬ctx.InfoExact (text (firstLine (stream reads)))) ∧
    ∃ reads ctx, stream reads = lit "\r\n" ∧
      (ChttpContext.new 0x1000000).feed reads = some ctx ∧ ctx.state = .done ∧
      ctx.getInfo = .error .noLine ∧ ¬ctx.InfoExact (text (firstLine (stream reads))) := by
  constructor
  · obtain ⟨ctx, hfeed, hdone, hview⟩ := exists_done (lit "GET /\r\n\r\n") 20 (by decide)
      (by decide) (by decide)
    have hreceived : ctx.received = lit "GET /" ++ 0 :: [0, 0, 0] := by
      have heq := congrArg (·.1) hview
      simp only [view] at heq
      rw [heq]
      decide
    have hlines : ctx.lines = (0, (lit "GET /").length) :: [] := by
      have heq := congrArg (·.2.lines) hview
      simp only [view] at heq
      rw [heq]
      decide
    have hdata : ctx.buffer.data = lit "GET /" ++ 0 :: ([0, 0, 0] ++ ctx.buffer.data.drop
        ctx.nowIndex) := by
      have hsplit := List.take_append_drop ctx.nowIndex ctx.buffer.data
      rw [← received, hreceived, List.append_assoc, List.cons_append] at hsplit
      exact hsplit.symm
    rcases getInfo_text hdone hlines hdata (by decide) with ⟨hfault, -⟩ | ⟨-, hcount⟩
    · refine ⟨_, ctx, rfl, hfeed, hdone, hfault, fun hexact => ?_⟩
      have hinfo := hexact.2
      rw [if_pos (by decide), hfault] at hinfo
      exact absurd hinfo (by simp)
    · exact absurd hcount (by decide)
  · obtain ⟨ctx, hfeed, hdone, hview⟩ := exists_done (lit "\r\n") 20 (by decide) (by decide)
      (by decide)
    have hlines : ctx.lines = [] := by
      have heq := congrArg (·.2.lines) hview
      simp only [view] at heq
      rw [heq]
      decide
    refine ⟨_, ctx, rfl, hfeed, hdone, ?_, fun hexact => hexact.1 hlines⟩
    unfold getInfo
    rw [if_neg (not_not.mpr hdone), hlines]

end NetworkPool
