import NetworkPool.Lib.CString
import Mathlib.Data.List.DropRight

/-!
# Scans that stay inside a block

The scans of C strings again, for a block that ends somewhere: a scan that would read outside it
has no result (`*Within`). Where a terminator, or a byte that is no space, stops the scan in time
the result is that of the unbounded scan.
-/

namespace Lib.CString

/-! ## Scans -/

/-- `while (isspace(*p)) ++p`; `none` when it reads behind the block. -/
def spacesWithin : List UInt8 → Option ℕ
  | [] => none
  | b :: s => if isspace b then (spacesWithin s).map (· + 1) else some 0

/-- `strchr`; `none` when it reads behind the block. -/
def strchrWithin : List UInt8 → UInt8 → Option (Option ℕ)
  | [], _ => none
  | b :: s, c =>
    if b = c then some (some 0)
    else if b = 0 then some none
    else (strchrWithin s c).map (Option.map (· + 1))

/-- `while (isspace(*(p - 1))) --p`, for `p` at offset `i` of the block; `none` when it reads
before the block or behind it. -/
def trimBackWithin (s : List UInt8) : ℕ → Option ℕ
  | 0 => none
  | i + 1 =>
    match s[i]? with
    | none => none
    | some b => if isspace b then trimBackWithin s i else some (i + 1)

section Within

variable {s : List UInt8}

/-- The terminator stops the scan. -/
theorem spacesWithin_eq (h : 0 ∈ s) : spacesWithin s = some (spaces s) := by
  induction s with
  | nil => exact absurd h (by simp)
  | cons b s ih =>
    rw [spacesWithin, spaces]
    by_cases hb : isspace b = true
    · have hne : (0 : UInt8) ≠ b := by
        intro hzero
        rw [← hzero, isspace_zero] at hb
        exact absurd hb (by decide)
      rw [if_pos hb, if_pos hb, ih ((List.mem_cons.mp h).resolve_left hne)]
      rfl
    · rw [if_neg hb, if_neg hb]

/-- The terminator stops the search. -/
theorem strchrWithin_eq (h : 0 ∈ s) (c : UInt8) : strchrWithin s c = some (strchr s c) := by
  induction s with
  | nil => exact absurd h (by simp)
  | cons b s ih =>
    rw [strchrWithin, strchr]
    by_cases hb : b = 0
    · rw [if_pos hb, if_pos hb]
      exact (apply_ite some _ _ _).symm
    · rw [if_neg hb, if_neg hb, ih ((List.mem_cons.mp h).resolve_left (Ne.symm hb))]
      exact (apply_ite some _ _ _).symm

/-- A byte that is no space stops the scan. -/
theorem trimBackWithin_eq {i j : ℕ} (hj : isspace (s.getD j 0) = false) (hlt : j < i)
    (hi : i ≤ s.length) : trimBackWithin s i = some (trimBack s i) := by
  induction i with
  | zero => exact absurd hlt (Nat.not_lt_zero _)
  | succ i ih =>
    have hget : s[i]? = some (s.getD i 0) := by
      rw [List.getD_eq_getElem?_getD, List.getElem?_eq_getElem (show i < s.length by omega)]
      rfl
    rw [trimBackWithin, trimBack, hget]
    simp only
    by_cases hb : isspace (s.getD i 0) = true
    · have hne : j ≠ i := by
        intro heq
        rw [heq, hb] at hj
        exact absurd hj (by decide)
      rw [if_pos hb, if_pos hb, ih (by omega) (by omega)]
    · rw [if_neg hb, if_neg hb]

end Within

/-! ## Trimming -/

/-- A string without the spaces at its ends. -/
def trim (s : List UInt8) : List UInt8 :=
  (s.dropWhile isspace).rdropWhile isspace

section Trim

variable {s : List UInt8}

/-- Leading spaces, what is left of the string, and trailing spaces. -/
theorem trim_parts (s : List UInt8) :
    s.takeWhile isspace ++ (trim s ++ (s.dropWhile isspace).rtakeWhile isspace) = s := by
  rw [trim, List.rdropWhile_append_rtakeWhile, List.takeWhile_append_dropWhile]

/-- What leading spaces are followed by begins with no space. -/
theorem isspace_head_dropWhile (h : s.dropWhile isspace ≠ []) :
    ∃ b ∈ (s.dropWhile isspace).head?, isspace b = false := by
  refine ⟨(s.dropWhile isspace).head h, List.head?_eq_some_head h, ?_⟩
  exact List.head_dropWhile_not isspace h

theorem trim_eq_nil_iff : trim s = [] ↔ s.dropWhile isspace = [] := by
  constructor
  · intro h
    by_contra hne
    obtain ⟨b, hb, hspace⟩ := isspace_head_dropWhile hne
    have hall := List.rdropWhile_eq_nil_iff.mp h b (List.mem_of_mem_head? hb)
    rw [hspace] at hall
    exact absurd hall (by decide)
  · intro h
    rw [trim, h, List.rdropWhile_nil]

theorem isspace_getLast_trim (h : trim s ≠ []) :
    ∃ b ∈ (trim s).getLast?, isspace b = false := by
  refine ⟨(trim s).getLast h, List.getLast?_eq_some_getLast h, ?_⟩
  exact Bool.eq_false_of_not_eq_true (List.rdropWhile_last_not isspace _ h)

/-- Leading spaces are skipped up to the rest of the string, if something that is no space
follows. -/
theorem spaces_takeWhile (s : List UInt8) {b : UInt8} (hb : isspace b = false)
    (t : List UInt8) : spaces (s ++ b :: t) = (s.takeWhile isspace).length := by
  have hsplit : s ++ b :: t = s.takeWhile isspace ++ ((s.dropWhile isspace ++ [b]) ++ t) := by
    rw [List.append_assoc, List.singleton_append, ← List.append_assoc,
      List.takeWhile_append_dropWhile]
  rw [hsplit]
  apply spaces_known (fun a ha => List.mem_takeWhile_imp ha)
  by_cases hnil : s.dropWhile isspace = []
  · rw [hnil]
    exact ⟨b, rfl, hb⟩
  · obtain ⟨a, ha, hspace⟩ := isspace_head_dropWhile hnil
    refine ⟨a, ?_, hspace⟩
    rw [Option.mem_def] at ha ⊢
    rw [List.head?_append, ha]
    rfl

/-- Trailing spaces are skipped back to the end of what trimming leaves. -/
theorem trimBack_trim (pre post : List UInt8) (h : trim s ≠ []) :
    trimBack (pre ++ (s ++ post)) (pre.length + s.length) =
      pre.length + (s.takeWhile isspace).length + (trim s).length := by
  have hparts := trim_parts s
  set t := (s.dropWhile isspace).rtakeWhile isspace
  have hlist : pre ++ (s ++ post) = (pre ++ s.takeWhile isspace) ++ (trim s ++ (t ++ post)) := by
    conv_lhs => rw [← hparts]
    simp only [List.append_assoc]
  have hlength := congrArg List.length hparts
  rw [List.length_append, List.length_append] at hlength
  have hblanks : ∀ a ∈ t, isspace a = true := fun a ha => List.mem_rtakeWhile_imp ha
  rw [hlist, trimBack_known _ (isspace_getLast_trim h) hblanks post
    (by rw [List.length_append]; omega), List.length_append]

/-- What trimming leaves, as a slice. -/
theorem slice_trim (pre post : List UInt8) :
    ((pre ++ (s ++ post)).drop (pre.length + (s.takeWhile isspace).length)).take
      (trim s).length = trim s := by
  have hlist : pre ++ (s ++ post) = (pre ++ s.takeWhile isspace) ++
      (trim s ++ ((s.dropWhile isspace).rtakeWhile isspace ++ post)) := by
    conv_lhs => rw [← trim_parts s]
    simp only [List.append_assoc]
  rw [hlist, ← List.length_append, List.drop_left, List.take_left]

end Trim

end Lib.CString
