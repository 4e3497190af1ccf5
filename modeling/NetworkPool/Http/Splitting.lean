import NetworkPool.Lib.Scan
import NetworkPool.Http.Locality

/-!
# Header line splitting

What `decoderHeaderAndUpdateState` and `getParameter` make of a line is decided by the text of the
line (`fieldOf`): the first colon, if no NUL comes before it, and the trimmed texts on its sides.
The loops read nothing but the line and its terminator (`splitLineWithin`).
-/

namespace NetworkPool

open Lib.CString
open ChttpContext (parameter)

/-! ## What a line holds -/

/-- The field that the text of a line holds. -/
def fieldOf (l : List UInt8) : Option (List UInt8 × List UInt8) :=
  let before := l.takeWhile (· != 58)
  match l.dropWhile (· != 58) with
  | [] => none
  | _ :: after =>
    if 0 ∈ before ∨ trim before = [] ∨ trim after = [] then none
    else some (trim before, trim after)

/-- The texts between the pointers into a line. -/
def LineSplit.texts (f : LineSplit) (line : List UInt8) : List UInt8 × List UInt8 :=
  ((line.drop f.nameHead).take (f.nameTail - f.nameHead),
    (line.drop f.valueHead).take (f.valueTail - f.valueHead))

/-- `splitLine` for a line that ends with the block `line`: `none` when a loop reads outside. -/
def splitLineWithin (line : List UInt8) (length : ℕ) : Option (Option LineSplit) := do
  let nameHead ← spacesWithin line
  match ← strchrWithin (line.drop nameHead) 58 with
  | none => return none
  | some 0 => return none
  | some (n + 1) =>
    let colon := nameHead + (n + 1)
    let nameTail ← trimBackWithin line colon
    let valueHead := colon + 1 + (← spacesWithin (line.drop (colon + 1)))
    if length = valueHead then return none
    else return some { nameHead, nameTail, valueHead, valueTail := ← trimBackWithin line length }

section Split

variable {before after l : List UInt8}

theorem fieldOf_colon (h : 58 ∉ before) :
    fieldOf (before ++ 58 :: after) =
      if 0 ∈ before ∨ trim before = [] ∨ trim after = [] then none
      else some (trim before, trim after) := by
  have hall : ∀ b ∈ before, (b != 58) = true := by
    intro b hb
    have hne : b ≠ 58 := fun heq => h (heq ▸ hb)
    simpa using hne
  have htake : (before ++ 58 :: after).takeWhile (· != 58) = before := by
    rw [List.takeWhile_append_of_pos hall]
    simp
  have hdrop : (before ++ 58 :: after).dropWhile (· != 58) = 58 :: after := by
    rw [List.dropWhile_append_of_pos hall]
    simp
  unfold fieldOf
  simp only [htake, hdrop]

theorem fieldOf_noColon (h : 58 ∉ l) : fieldOf l = none := by
  have hdrop : l.dropWhile (· != 58) = [] := by
    rw [List.dropWhile_eq_nil_iff]
    intro b hb
    have hne : b ≠ 58 := fun heq => h (heq ▸ hb)
    simpa using hne
  unfold fieldOf
  simp only [hdrop]

/-- No colon comes before the first NUL. -/
theorem splitLine_noColon (h : 58 ∉ l) (q : List UInt8) (length : ℕ) :
    splitLine (l ++ 0 :: q) length = none := by
  have hchr : strchr ((l ++ 0 :: q).drop (spaces (l ++ 0 :: q))) 58 = none := by
    rw [List.drop_append_of_le_length (spaces_le _ _)]
    apply strchr_absent _ (by decide)
    exact fun hmem => h (List.mem_of_mem_drop hmem)
  unfold splitLine
  simp only
  rw [hchr]

/-- The pointers into a line with a colon. -/
theorem splitLine_colon (hcolon : 58 ∉ before) (hzero : 0 ∉ before) (q : List UInt8) {length : ℕ}
    (hlength : length = before.length + 1 + after.length) :
    splitLine (before ++ 58 :: (after ++ 0 :: q)) length =
      if trim before = [] ∨ trim after = [] then none
      else
        some
          { nameHead := (before.takeWhile isspace).length
            nameTail := (before.takeWhile isspace).length + (trim before).length
            valueHead := before.length + 1 + (after.takeWhile isspace).length
            valueTail := before.length + 1 + (after.takeWhile isspace).length +
              (trim after).length } := by
  set line := before ++ 58 :: (after ++ 0 :: q) with hline
  have hlist : line = (before ++ [58]) ++ (after ++ 0 :: q) := by simp [hline]
  have hbefore := congrArg List.length (List.takeWhile_append_dropWhile (p := isspace) (l := before))
  have hafter := congrArg List.length (List.takeWhile_append_dropWhile (p := isspace) (l := after))
  rw [List.length_append] at hbefore hafter
  have hnameHead : spaces line = (before.takeWhile isspace).length :=
    spaces_takeWhile before (by decide) _
  -- the colon is found behind what is left of the name
  have hdrop : line.drop (before.takeWhile isspace).length =
      before.dropWhile isspace ++ 58 :: (after ++ 0 :: q) := by
    have hsplit : line = before.takeWhile isspace ++
        (before.dropWhile isspace ++ 58 :: (after ++ 0 :: q)) := by
      rw [← List.append_assoc, List.takeWhile_append_dropWhile]
    rw [hsplit, List.drop_left]
  have hchr : strchr (line.drop (spaces line)) 58 = some (before.dropWhile isspace).length := by
    rw [hnameHead, hdrop]
    apply strchr_known
    · exact fun hmem => hzero (List.dropWhile_subset _ hmem)
    · exact fun hmem => hcolon (List.dropWhile_subset _ hmem)
  by_cases hname : trim before = []
  · rw [if_pos (.inl hname)]
    have hnil := congrArg List.length (trim_eq_nil_iff.mp hname)
    rw [List.length_nil] at hnil
    unfold splitLine
    simp only
    rw [hchr, hnil]
  · have hne : (before.dropWhile isspace).length ≠ 0 := by
      intro hnil
      exact hname (trim_eq_nil_iff.mpr (List.eq_nil_of_length_eq_zero hnil))
    obtain ⟨n, hn⟩ := Nat.exists_eq_succ_of_ne_zero hne
    have hcolonAt : (before.takeWhile isspace).length + (n + 1) = before.length := by omega
    have hvalueHead : spaces (line.drop (before.length + 1)) =
        (after.takeWhile isspace).length := by
      rw [hlist, List.drop_left' (by simp)]
      exact spaces_takeWhile after isspace_zero q
    have hnameTail : trimBack line before.length =
        (before.takeWhile isspace).length + (trim before).length := by
      have htrim := trimBack_trim [] (58 :: (after ++ 0 :: q)) hname
      simpa using htrim
    unfold splitLine
    simp only
    rw [hchr, hn, hnameHead]
    simp only [hcolonAt, hvalueHead, hnameTail]
    by_cases hvalue : trim after = []
    · have hnil := congrArg List.length (trim_eq_nil_iff.mp hvalue)
      rw [List.length_nil] at hnil
      have hempty : length = before.length + 1 + (after.takeWhile isspace).length := by omega
      rw [if_pos hempty, if_pos (.inr hvalue)]
    · have hvalueTail : trimBack line length =
          before.length + 1 + (after.takeWhile isspace).length + (trim after).length := by
        have htrim := trimBack_trim (before ++ [58]) (0 :: q) hvalue
        rw [← hlist, List.length_append, List.length_singleton, ← hlength] at htrim
        exact htrim
      have hne : (after.dropWhile isspace).length ≠ 0 := by
        intro hnil
        exact hvalue (trim_eq_nil_iff.mpr (List.eq_nil_of_length_eq_zero hnil))
      have hnonempty : length ≠ before.length + 1 + (after.takeWhile isspace).length := by omega
      rw [if_neg hnonempty, if_neg (not_or.mpr ⟨hname, hvalue⟩), hvalueTail]

end Split

/-! ## Inside the line -/

section Inside

variable {line : List UInt8} {length : ℕ}

/-- **The loops stay inside the line** and its terminator. -/
theorem splitLineWithin_eq (hend : (line)[length]? = some 0) :
    splitLineWithin line length = some (splitLine line length) := by
  have hzero : 0 ∈ line := List.mem_of_getElem? hend
  have hlength : length < line.length := (List.getElem?_eq_some_iff.mp hend).1
  have hname := zero_mem_drop_spaces hzero
  unfold splitLineWithin splitLine
  simp only [spacesWithin_eq hzero, strchrWithin_eq hname, Option.bind_eq_bind, Option.bind_some]
  cases hn : strchr (line.drop (spaces line)) 58 with
  | none => rfl
  | some n =>
    cases n with
    | zero => rfl
    | succ n =>
      have hvalue := zero_mem_drop_strchr hname (by decide) hn
      rw [List.drop_drop, ← Nat.add_assoc] at hvalue
      have hcolon := List.length_pos_of_mem hvalue
      rw [List.length_drop] at hcolon
      -- the first byte of the name stops the scan from the colon back
      have hnameTail := trimBackWithin_eq (isspace_spaces line)
        (show spaces line < spaces line + (n + 1) by omega) (by omega)
      simp only [hnameTail, spacesWithin_eq hvalue, Option.bind_some]
      set colon := spaces line + (n + 1) with hcolonEq
      by_cases hempty : length = colon + 1 + spaces (line.drop (colon + 1))
      · rw [if_pos hempty, if_pos hempty]
        rfl
      · have hbehind : (line.drop (spaces line))[length - spaces line]? = some 0 := by
          rw [List.getElem?_drop, Nat.add_sub_cancel' (spaces_le_zero hend)]
          exact hend
        have hbefore := strchr_lt_zero (by decide) hn hbehind
        have hdrop : (line.drop (colon + 1))[length - (colon + 1)]? = some 0 := by
          rw [List.getElem?_drop, Nat.add_sub_cancel' (by omega)]
          exact hend
        have hle := spaces_le_zero hdrop
        have hbound := (List.getElem?_eq_some_iff.mp hdrop).1
        rw [List.length_drop] at hbound
        -- and the first byte of the value the scan from the end back
        have hstop := isspace_spaces (line.drop (colon + 1))
        rw [List.getD_eq_getElem?_getD, List.getElem?_drop, ← List.getD_eq_getElem?_getD] at hstop
        have hvalueTail := trimBackWithin_eq (i := length) hstop (by omega) (by omega)
        rw [if_neg hempty, if_neg hempty, hvalueTail]
        rfl

end Inside

/-! ## Exact splitting -/

/-- The pointers into a line of `length` bytes are in order around its first colon. -/
def LineSplit.Ordered (f : LineSplit) (l : List UInt8) : Prop :=
  ∃ colon, l[colon]? = some 58 ∧ (∀ i < colon, l[i]? ≠ some 58 ∧ l[i]? ≠ some 0) ∧
    f.nameHead < f.nameTail ∧ f.nameTail ≤ colon ∧ colon < f.valueHead ∧
    f.valueHead < f.valueTail ∧ f.valueTail ≤ l.length

/-- What splitting the text `l` of a line gives. -/
theorem splitLine_text (l q : List UInt8) :
    (∀ f, splitLine (l ++ 0 :: q) l.length = some f → f.Ordered l) ∧
      (splitLine (l ++ 0 :: q) l.length).map (·.texts (l ++ 0 :: q)) = fieldOf l := by
  by_cases hmem : 58 ∈ l
  · obtain ⟨before, after, rfl, hcolon⟩ := List.eq_append_cons_of_mem hmem
    rw [fieldOf_colon hcolon]
    by_cases hzero : 0 ∈ before
    · obtain ⟨b₀, b₁, rfl, -⟩ := List.eq_append_cons_of_mem hzero
      have hnone : splitLine (b₀ ++ 0 :: b₁ ++ 58 :: after ++ 0 :: q)
          (b₀ ++ 0 :: b₁ ++ 58 :: after).length = none := by
        rw [List.append_assoc, List.append_assoc, List.cons_append]
        apply splitLine_noColon
        exact fun h => hcolon (List.mem_append_left _ h)
      rw [hnone, if_pos (.inl hzero)]
      exact ⟨by simp, rfl⟩
    · have hlength : (before ++ 58 :: after).length = before.length + 1 + after.length := by
        rw [List.length_append, List.length_cons]
        omega
      have hlist : before ++ 58 :: after ++ 0 :: q = before ++ 58 :: (after ++ 0 :: q) := by simp
      rw [hlist, splitLine_colon hcolon hzero q hlength]
      have hcases : (0 ∈ before ∨ trim before = [] ∨ trim after = []) ↔
          trim before = [] ∨ trim after = [] := or_iff_right hzero
      by_cases hempty : trim before = [] ∨ trim after = []
      · rw [if_pos hempty, if_pos (hcases.mpr hempty)]
        exact ⟨by simp, rfl⟩
      · rw [if_neg hempty, if_neg (mt hcases.mp hempty)]
        obtain ⟨hname, hvalue⟩ := not_or.mp hempty
        have hbefore := congrArg List.length (trim_parts before)
        have hafter := congrArg List.length (trim_parts after)
        rw [List.length_append, List.length_append] at hbefore hafter
        have hnamePos := List.length_pos_of_ne_nil hname
        have hvaluePos := List.length_pos_of_ne_nil hvalue
        constructor
        · intro f hf
          rw [← Option.some.inj hf]
          refine ⟨before.length, by simp, fun i hi => ?_, ?_⟩
          · rw [List.getElem?_append_left hi]
            exact ⟨fun h => hcolon (List.mem_of_getElem? h), fun h => hzero (List.mem_of_getElem? h)⟩
          · simp only [hlength]
            omega
        · have hnameText := slice_trim (s := before) [] (58 :: (after ++ 0 :: q))
          have hvalueText := slice_trim (s := after) (before ++ [58]) (0 :: q)
          rw [List.nil_append, List.length_nil, Nat.zero_add] at hnameText
          rw [List.length_append, List.length_singleton, List.append_assoc,
            List.singleton_append] at hvalueText
          simp only [Option.map_some, LineSplit.texts, Nat.add_sub_cancel_left, hnameText,
            hvalueText]
  · rw [splitLine_noColon hmem, fieldOf_noColon hmem]
    exact ⟨by simp, rfl⟩

/-- **Header line splitting is exact.** For a line of the buffer that is terminated: the loops
read the line and its terminator only, the pointers are in order when there is a field, and the
field is the one that the text of the line holds, for `getParameter` and for
`decoderHeaderAndUpdateState`. -/
theorem line_splitting_exact {ptr : List UInt8} (lineInfo : ℕ × ℕ) (hknown : lineInfo.2 ≠ npos)
    (hend : ptr[lineInfo.1 + lineInfo.2]? = some 0) :
    let line := ptr.drop lineInfo.1
    let l := line.take lineInfo.2
    splitLineWithin (line.take (lineInfo.2 + 1)) lineInfo.2 = some (splitLine line lineInfo.2) ∧
      (∀ f, splitLine line lineInfo.2 = some f → f.Ordered l) ∧
      parameter ptr lineInfo = fieldOf l ∧
      ∀ (lines : List (ℕ × ℕ)) (k : Parser), lineInfo.1 ≤ k.headerSize →
        (fieldOf l = none → decoderHeader ptr (lineInfo :: lines) k = decoderHeader ptr lines k) ∧
        ∀ name value, fieldOf l = some (name, value) → ∃ p q,
          decoderHeader ptr (lineInfo :: lines) k = decoderHeader ptr lines
            (kvDecoder k (name ++ p) name.length (value ++ q) value.length) := by
  intro line l
  have hlt := (List.getElem?_eq_some_iff.mp hend).1
  have hzero : (line)[lineInfo.2]? = some 0 := by
    rw [List.getElem?_drop]
    exact hend
  have hlength : l.length = lineInfo.2 := by
    rw [List.length_take, List.length_drop]
    omega
  have hblock : line.take (lineInfo.2 + 1) = l ++ [0] := by
    rw [List.take_add_one, hzero]
    rfl
  have hline : line = l ++ 0 :: line.drop (lineInfo.2 + 1) := by
    have hsplit := (List.take_append_drop (lineInfo.2 + 1) line).symm
    rw [hblock, List.append_assoc, List.singleton_append] at hsplit
    exact hsplit
  have htext := splitLine_text l (line.drop (lineInfo.2 + 1))
  rw [← hline, hlength] at htext
  obtain ⟨hordered, hfield⟩ := htext
  refine ⟨?_, hordered, ?_, ?_⟩
  · have hlast : (line.take (lineInfo.2 + 1))[lineInfo.2]? = some 0 := by
      rw [List.getElem?_take_of_lt (Nat.lt_succ_self _)]
      exact hzero
    have hsame : splitLine line lineInfo.2 = splitLine (line.take (lineInfo.2 + 1)) lineInfo.2 := by
      conv_lhs => rw [← List.take_append_drop (lineInfo.2 + 1) line]
      exact splitLine_append _ hlast
    rw [hsame]
    exact splitLineWithin_eq hlast
  · rw [← hfield, parameter, if_neg hknown]
    rfl
  · intro lines k hsize
    rw [decoderHeader, if_neg (Nat.not_lt.mpr hsize), if_neg hknown, ← hfield]
    simp only
    cases hsplit : splitLine line lineInfo.2 with
    | none =>
      exact ⟨fun _ => rfl, by simp⟩
    | some f =>
      refine ⟨by simp, ?_⟩
      intro name value hsome
      rw [Option.map_some, Option.some.injEq, LineSplit.texts, Prod.mk.injEq] at hsome
      obtain ⟨hname, hvalue⟩ := hsome
      obtain ⟨colon, -, -, hnameLt, hcolon, hvalueHead, hvalueLt, hle⟩ := hordered f hsplit
      have hnameLength : name.length = f.nameTail - f.nameHead := by
        rw [← hname, List.length_take, List.length_drop, List.length_drop]
        omega
      have hvalueLength : value.length = f.valueTail - f.valueHead := by
        rw [← hvalue, List.length_take, List.length_drop, List.length_drop]
        omega
      refine ⟨(line.drop f.nameHead).drop (f.nameTail - f.nameHead),
        (line.drop f.valueHead).drop (f.valueTail - f.valueHead), ?_⟩
      rw [hnameLength, hvalueLength, ← hname, ← hvalue, List.take_append_drop,
        List.take_append_drop]

/-- A line with blanks around its name and a NUL in its value. -/
theorem line_splitting_exact_embedded :
    let ptr := lit "\r\n" ++ (lit "\tHost \r: a" ++ [0] ++ lit "b  " ++ [0, 0])
    ptr[2 + 14]? = some 0 ∧ parameter ptr (2, 14) = some (lit "Host", lit "a" ++ [0] ++ lit "b") :=
  have hend : (lit "\r\n" ++ (lit "\tHost \r: a" ++ [0] ++ lit "b  " ++ [0, 0]))[2 + 14]? =
    some 0 := by decide
  ⟨hend, (line_splitting_exact (2, 14) (by decide) hend).2.2.1.trans (by decide)⟩

end NetworkPool
