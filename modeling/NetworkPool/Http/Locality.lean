import NetworkPool.Http.Passes

/-!
# The analysis looks at received bytes only

A pass that does not wait for more does the same after more bytes have come (`pass_append`): the
loops of the source test offsets against `m_nowIndex`, and its C strings are header and trailer
lines, which end with a NUL inside the bytes analysed so far (`Parser.Ok`).
-/

namespace NetworkPool

open Lib.CString

/-! ## Lines -/

section Lines

variable {s : List UInt8} {length : ℕ} {f : LineSplit} (m : List UInt8)

theorem splitLine_append (h : s[length]? = some 0) :
    splitLine (s ++ m) length = splitLine s length := by
  have hzero : 0 ∈ s := List.mem_of_getElem? h
  have hlength : length < s.length := (List.getElem?_eq_some_iff.mp h).1
  have hspaces := spaces_lt_length hzero
  have hname := zero_mem_drop_spaces hzero
  have hdrop : (s ++ m).drop (spaces s) = s.drop (spaces s) ++ m :=
    List.drop_append_of_le_length (by omega)
  unfold splitLine
  simp only
  rw [spaces_append hzero, hdrop, strchr_append hname]
  cases hn : strchr (s.drop (spaces s)) 58 with
  | none => rfl
  | some n =>
    cases n with
    | zero => rfl
    | succ n =>
      have hvalue := zero_mem_drop_strchr hname (by decide) hn
      rw [List.drop_drop, ← Nat.add_assoc] at hvalue
      have hcolon := List.length_pos_of_mem hvalue
      rw [List.length_drop] at hcolon
      simp only
      rw [List.drop_append_of_le_length (by omega), spaces_append hvalue,
        trimBack_append s m (by omega), trimBack_append s m (by omega)]

/-- The pointers to the name and the value are before the terminator. -/
theorem splitLine_zero_mem (h : 0 ∈ s) (hf : splitLine s length = some f) :
    0 ∈ s.drop f.nameHead ∧ 0 ∈ s.drop f.valueHead := by
  have hname := zero_mem_drop_spaces h
  unfold splitLine at hf
  simp only at hf
  cases hn : strchr (s.drop (spaces s)) 58 with
  | none =>
    rw [hn] at hf
    exact absurd hf (by simp)
  | some n =>
    rw [hn] at hf
    cases n with
    | zero => exact absurd hf (by simp)
    | succ n =>
      have hcolon := zero_mem_drop_strchr hname (by decide) hn
      rw [List.drop_drop, ← Nat.add_assoc] at hcolon
      have hvalue := zero_mem_drop_spaces hcolon
      rw [List.drop_drop] at hvalue
      simp only at hf
      split at hf
      · exact absurd hf (by simp)
      · rw [← Option.some.inj hf]
        exact ⟨hname, hvalue⟩

theorem kvDecoder_append (k : Parser) {name value : List UInt8} (hname : 0 ∈ name)
    (hvalue : 0 ∈ value) (nameLength valueLength : ℕ) :
    kvDecoder k (name ++ m) nameLength (value ++ m) valueLength =
      kvDecoder k name nameLength value valueLength := by
  unfold kvDecoder
  rw [strncasecmp_append hname, strncasecmp_append hname, strncasecmp_append hname,
    strncasecmp_append hvalue, strncasecmp_append hvalue, atoi_append hvalue]

/-- The lines that are complete end with a NUL. -/
def Terminated (ptr : List UInt8) (lines : List (ℕ × ℕ)) : Prop :=
  ∀ l ∈ lines, l.2 ≠ npos → ptr[l.1 + l.2]? = some 0

theorem decoderHeader_append {ptr : List UInt8} {lines : List (ℕ × ℕ)} {k : Parser}
    (h : Terminated ptr lines) : decoderHeader (ptr ++ m) lines k = decoderHeader ptr lines k := by
  induction lines generalizing k with
  | nil => rfl
  | cons l lines ih =>
    have hrest : Terminated ptr lines := fun l' hl' => h l' (List.mem_cons_of_mem l hl')
    rw [decoderHeader, decoderHeader]
    split
    · rfl
    · split
      · exact ih hrest
      · next hlength =>
        have hend := h l List.mem_cons_self hlength
        have hlt : l.1 + l.2 < ptr.length := (List.getElem?_eq_some_iff.mp hend).1
        rw [← List.getElem?_drop] at hend
        have hzero : 0 ∈ ptr.drop l.1 := List.mem_of_getElem? hend
        simp only
        rw [List.drop_append_of_le_length (by omega), splitLine_append m hend]
        cases hf : splitLine (ptr.drop l.1) l.2 with
        | none => exact ih hrest
        | some f =>
          obtain ⟨hname, hvalue⟩ := splitLine_zero_mem hzero hf
          have hnameLt := List.length_pos_of_mem hname
          have hvalueLt := List.length_pos_of_mem hvalue
          rw [List.length_drop] at hnameLt hvalueLt
          simp only
          rw [List.drop_append_of_le_length (by omega), List.drop_append_of_le_length (by omega),
            kvDecoder_append m k hname hvalue]
          exact ih hrest

theorem decoderHeaderAndUpdateState_append {ptr : List UInt8} {k : Parser}
    (h : Terminated ptr k.lines) :
    decoderHeaderAndUpdateState (ptr ++ m) k = decoderHeaderAndUpdateState ptr k := by
  unfold decoderHeaderAndUpdateState
  rw [decoderHeader_append m h]

end Lines

/-! ## NUL writes -/

section Terminate

variable {ptr : List UInt8} {i : ℕ}

@[simp] theorem length_terminate (ptr : List UInt8) (i : ℕ) :
    (terminate ptr i).length = ptr.length := by
  simp [terminate]

theorem terminate_append (m : List UInt8) (h : i < ptr.length) :
    terminate (ptr ++ m) i = terminate ptr i ++ m := by
  have hset : i < (ptr.set (i - 1) 0).length := by
    rw [List.length_set]
    exact h
  rw [terminate, terminate, List.set_append_left _ _ (by omega), List.set_append_left _ _ hset]

/-- The line that ends at `i` is terminated. -/
theorem getElem?_terminate_self (h : i < ptr.length) : (terminate ptr i)[i - 1]? = some 0 := by
  rw [terminate, List.getElem?_set]
  split
  · rw [if_pos (by rw [List.length_set]; exact h)]
  · rw [List.getElem?_set_self (by omega)]

/-- NULs stay. -/
theorem getElem?_terminate {j : ℕ} (h : ptr[j]? = some 0) : (terminate ptr i)[j]? = some 0 := by
  have hj : j < ptr.length := (List.getElem?_eq_some_iff.mp h).1
  rw [terminate, List.getElem?_set, List.getElem?_set]
  split
  · rw [if_pos (by rw [List.length_set]; omega)]
  · split
    · rw [if_pos (by omega)]
    · exact h

theorem Terminated.terminate {lines : List (ℕ × ℕ)} (h : Terminated ptr lines) :
    Terminated (terminate ptr i) lines :=
  fun l hl hlength => getElem?_terminate (h l hl hlength)

end Terminate

/-! ## The invariant -/

/-- The analysis has not passed the received bytes `ptr`, and complete lines are terminated. -/
structure Parser.Ok (ptr : List UInt8) (k : Parser) : Prop where
  index_le : k.analysisIndex ≤ ptr.length
  terminated : Terminated ptr k.lines

namespace Parser.Ok

variable {ptr : List UInt8} {k : Parser}

theorem init (ptr : List UInt8) : Parser.Ok ptr {} where
  index_le := Nat.zero_le _
  terminated := fun _ hl => absurd hl (by simp)

theorem append (h : k.Ok ptr) (m : List UInt8) : k.Ok (ptr ++ m) where
  index_le := by
    have hle := h.index_le
    rw [List.length_append]
    omega
  terminated := by
    intro l hl hlength
    have hend := h.terminated l hl hlength
    rw [List.getElem?_append_left (List.getElem?_eq_some_iff.mp hend).1]
    exact hend

theorem pass (h : k.Ok ptr) :
    (pass ptr ptr.length k).2.2.Ok (NetworkPool.pass ptr ptr.length k).2.1 := by
  have hprogress := pass_progress ptr ptr.length k
  have hindex := hprogress.index_le h.index_le
  refine ⟨by rw [length_pass]; exact hindex.2, ?_⟩
  revert hprogress
  generalize NetworkPool.pass ptr ptr.length k = r
  intro hprogress
  have hlines := h.terminated
  cases hprogress with
  | start =>
    intro l hl hlength
    rcases List.mem_append.mp hl with hold | hnew
    · exact hlines l hold hlength
    · rw [List.mem_singleton.mp hnew] at hlength
      exact absurd rfl hlength
  | line hunread _ first length hfirst =>
    intro l hl hlength
    rcases List.mem_append.mp hl with hold | hnew
    · exact hlines.terminate l (List.dropLast_subset _ hold) hlength
    · rcases List.mem_pair.mp hnew with rfl | rfl
      · have hself := getElem?_terminate_self hunread
        rw [← hfirst] at hself ⊢
        exact hself
      · exact absurd rfl hlength
  | header hunread _ k' _ hk' =>
    intro l hl hlength
    rw [hk'] at hl
    exact hlines.terminate l (List.dropLast_subset _ hl) hlength
  | size => exact hlines.terminate
  | lastSize =>
    intro l hl hlength
    rcases List.mem_append.mp hl with hold | hnew
    · exact hlines.terminate l hold hlength
    · rw [List.mem_singleton.mp hnew] at hlength
      exact absurd rfl hlength
  | trailer =>
    intro l hl hlength
    exact hlines.terminate l (List.dropLast_subset _ hl) hlength
  | _ => exact hlines

end Parser.Ok

/-! ## More bytes -/

section More

variable {ptr : List UInt8} {k : Parser} (m : List UInt8)

theorem scanLine_append {atEmptyLine : List UInt8 → Parser → Flow × Parser}
    (hunread : k.analysisIndex < ptr.length)
    (hempty : let ptr' := terminate ptr k.analysisIndex
      ∀ k', k'.lines = k.lines.dropLast → atEmptyLine (ptr' ++ m) k' = atEmptyLine ptr' k') :
    scanLine atEmptyLine (ptr ++ m) k =
      ((scanLine atEmptyLine ptr k).1, (scanLine atEmptyLine ptr k).2.1 ++ m,
        (scanLine atEmptyLine ptr k).2.2) := by
  unfold scanLine
  simp only
  rw [List.getD_append _ _ _ _ hunread, List.getD_append _ _ _ _ (by omega),
    terminate_append m hunread]
  split
  · split
    · rfl
    · split
      · rw [hempty _ rfl]
      · rfl
  · rfl

/-- **Locality.** A pass that does not wait does the same when more bytes have come. -/
theorem pass_append (hok : k.Ok ptr) {now : ℕ}
    (hnow : now = ptr.length ∨ ptr.length ≤ now ∧ (pass ptr ptr.length k).1 ≠ .ret false) :
    pass (ptr ++ m) now k =
      ((pass ptr ptr.length k).1, (pass ptr ptr.length k).2.1 ++ m,
        (pass ptr ptr.length k).2.2) := by
  by_cases hstate : k.state = .done ∨ k.state = .bad
  · unfold pass
    rw [if_pos hstate, if_pos hstate]
  · by_cases hunread : ptr.length ≤ k.analysisIndex
    · -- it waits, and nothing has come
      have hwait : pass ptr ptr.length k = (.ret false, ptr, k) := by
        rw [pass, if_neg hstate, if_pos hunread]
      rw [hwait] at hnow ⊢
      have heq : now = ptr.length := hnow.resolve_right fun hmore => hmore.2 rfl
      rw [pass, if_neg hstate, if_pos (by omega)]
    · have hle : ptr.length ≤ now := by
        rcases hnow with heq | hmore
        · omega
        · exact hmore.1
      have hread : k.analysisIndex < ptr.length := by omega
      unfold pass at hnow ⊢
      rw [if_neg hstate, if_neg hunread] at hnow ⊢
      rw [if_neg hstate, if_neg (show ¬now ≤ k.analysisIndex by omega)]
      cases hk : k.state with
      | start =>
        simp only [startLine]
        rw [List.getD_append _ _ _ _ (by omega)]
        split
        · rfl
        · rfl
      | readHeader =>
        apply scanLine_append m hread
        intro ptr' k' hlines
        unfold endHeader
        simp only
        rw [decoderHeaderAndUpdateState_append]
        intro l hl
        simp only [hlines] at hl
        exact hok.terminated.terminate l (List.dropLast_subset _ hl)
      | readBody =>
        rw [hk] at hnow
        simp only [readBody] at hnow ⊢
        by_cases hbody : ptr.length - k.analysisIndex ≥ k.contentLength
        · rw [if_pos hbody, if_pos (show now - k.analysisIndex ≥ k.contentLength by omega)]
        · rw [if_neg hbody] at hnow ⊢
          have heq : now = ptr.length := hnow.resolve_right fun hmore => hmore.2 rfl
          rw [heq, if_neg hbody]
      | readChunkHeader =>
        simp only [readChunkHeader]
        rw [List.getD_append _ _ _ _ hread, List.getD_append _ _ _ _ (by omega),
          terminate_append m hread]
        split
        · split
          · rfl
          · split
            · rfl
            · rfl
        · rfl
      | readChunkBody =>
        rw [hk] at hnow
        simp only [readChunkBody] at hnow ⊢
        by_cases hbody : ptr.length - k.analysisIndex ≥ (k.nowChunkSize + 2) % 2 ^ 64
        · rw [if_pos hbody,
            if_pos (show now - k.analysisIndex ≥ (k.nowChunkSize + 2) % 2 ^ 64 by omega)]
        · rw [if_neg hbody] at hnow ⊢
          have heq : now = ptr.length := hnow.resolve_right fun hmore => hmore.2 rfl
          rw [heq, if_neg hbody]
      | readChunkFooter =>
        apply scanLine_append m hread
        intro ptr' k' _
        rfl
      | done => rfl
      | bad => rfl

end More

end NetworkPool
