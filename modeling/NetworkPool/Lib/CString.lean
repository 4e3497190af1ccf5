import Mathlib.Data.List.GetD
import Mathlib.Data.List.Induction
import Mathlib.Data.Int.Notation
import Mathlib.Order.Lattice
import Mathlib.Algebra.Order.Ring.Int

/-!
# C strings

The functions of `<cstring>`, `<cctype>` and `<cstdlib>` on NUL-terminated strings, in the C
locale. A pointer is the list of the bytes from it to the end of its block; a function never
looks past the terminator, so bytes appended after it do not matter (`*_append`).
-/

namespace Lib.CString

/-- The bytes of a string literal, without the terminator. -/
def lit (s : String) : List UInt8 :=
  s.toList.map fun c => c.toNat.toUInt8

/-- `isspace` in the C locale. -/
def isspace (b : UInt8) : Bool :=
  b == 32 || (9 ≤ b && b ≤ 13)

/-- `isdigit`. -/
def isdigit (b : UInt8) : Bool :=
  48 ≤ b && b ≤ 57

/-- `tolower` in the C locale. -/
def tolower (b : UInt8) : UInt8 :=
  if 65 ≤ b && b ≤ 90 then b + 32 else b

/-- `strchr`: the offset of the first `c`, if it comes before the terminator. -/
def strchr : List UInt8 → UInt8 → Option ℕ
  | [], _ => none
  | b :: s, c => if b = c then some 0 else if b = 0 then none else (strchr s c).map (· + 1)

/-- `while (isspace(*p)) ++p`: how far `p` moves. -/
def spaces : List UInt8 → ℕ
  | [] => 0
  | b :: s => if isspace b then spaces s + 1 else 0

/-- `while (isspace(*(p - 1))) --p`, for `p` at offset `i` of the string. -/
def trimBack (s : List UInt8) : ℕ → ℕ
  | 0 => 0
  | i + 1 => if isspace (s.getD i 0) then trimBack s i else i + 1

/-- The bytes up to the terminator. -/
def text (s : List UInt8) : List UInt8 :=
  s.takeWhile (· != 0)

/-- Whether `strncasecmp` answers 0. -/
def strncasecmp : List UInt8 → List UInt8 → ℕ → Bool
  | _, _, 0 => true
  | s, t, n + 1 =>
    tolower (s.headD 0) == tolower (t.headD 0) &&
      (s.headD 0 == 0 || strncasecmp s.tail t.tail n)

/-- The value of decimal digits. -/
def decimal (s : List UInt8) : ℕ :=
  s.foldl (fun n b => 10 * n + (b.toNat - 48)) 0

/-- An optional sign and decimal digits, cut off at the ends of a 64-bit `long`. -/
def signed (s : List UInt8) : ℤ :=
  match s with
  | 45 :: s => max (-(decimal (s.takeWhile isdigit) : ℤ)) (-2 ^ 63)
  | 43 :: s => min (decimal (s.takeWhile isdigit)) (2 ^ 63 - 1)
  | s => min (decimal (s.takeWhile isdigit)) (2 ^ 63 - 1)

/-- `strtol` in base 10 without an end pointer. -/
def strtol (s : List UInt8) : ℤ :=
  signed (s.drop (spaces s))

/-- `atoi`: `strtol` converted to a 32-bit `int`. -/
def atoi (s : List UInt8) : ℤ :=
  (strtol s).bmod (2 ^ 32)

/-! ## Bytes -/

@[simp] theorem isspace_zero : isspace 0 = false := rfl

theorem tolower_ne_zero {b : UInt8} (h : b ≠ 0) : tolower b ≠ 0 := by
  unfold tolower
  split
  · grind
  · exact h

theorem isspace_of_isdigit {b : UInt8} (h : isdigit b = true) : isspace b = false := by
  unfold isdigit at h
  unfold isspace
  grind

/-! ## After the terminator -/

section Append

variable {s : List UInt8} (h : 0 ∈ s) (t : List UInt8)

include h

theorem strchr_append (c : UInt8) : strchr (s ++ t) c = strchr s c := by
  induction s with
  | nil => exact absurd h (by simp)
  | cons b s ih =>
    rw [List.cons_append, strchr, strchr]
    by_cases hb : b = 0
    · rw [hb]
      simp
    · rw [ih ((List.mem_cons.mp h).resolve_left (Ne.symm hb))]

theorem spaces_append : spaces (s ++ t) = spaces s := by
  induction s with
  | nil => exact absurd h (by simp)
  | cons b s ih =>
    rw [List.cons_append, spaces, spaces]
    by_cases hb : b = 0
    · rw [hb, isspace_zero]
      rfl
    · rw [ih ((List.mem_cons.mp h).resolve_left (Ne.symm hb))]

/-- The bytes that satisfy a predicate the terminator does not satisfy. -/
theorem takeWhile_append {f : UInt8 → Bool} (hf : f 0 = false) :
    (s ++ t).takeWhile f = s.takeWhile f := by
  induction s with
  | nil => exact absurd h (by simp)
  | cons b s ih =>
    rw [List.cons_append, List.takeWhile_cons, List.takeWhile_cons]
    by_cases hb : b = 0
    · rw [hb, hf]
      rfl
    · rw [ih ((List.mem_cons.mp h).resolve_left (Ne.symm hb))]

theorem strncasecmp_append (lit : List UInt8) (n : ℕ) :
    strncasecmp lit (s ++ t) n = strncasecmp lit s n := by
  induction n generalizing s lit with
  | zero => rw [strncasecmp, strncasecmp]
  | succ n ih =>
    cases s with
    | nil => exact absurd h (by simp)
    | cons b s =>
      rw [List.cons_append, strncasecmp, strncasecmp]
      simp only [List.headD_cons, List.tail_cons]
      by_cases hb : b = 0
      · -- both strings end here, or they differ
        subst hb
        by_cases hlit : lit.headD 0 = 0
        · rw [hlit]
          simp
        · have hne : (tolower (lit.headD 0) == tolower 0) = false :=
            beq_false_of_ne (tolower_ne_zero hlit)
          rw [hne, Bool.false_and, Bool.false_and]
      · rw [ih ((List.mem_cons.mp h).resolve_left (Ne.symm hb))]

/-- The terminator is not skipped. -/
theorem zero_mem_drop_spaces : 0 ∈ s.drop (spaces s) := by
  induction s with
  | nil => exact absurd h (by simp)
  | cons b s ih =>
    rw [spaces]
    by_cases hb : isspace b = true
    · rw [if_pos hb, List.drop_succ_cons]
      apply ih
      apply (List.mem_cons.mp h).resolve_left
      intro hzero
      rw [← hzero, isspace_zero] at hb
      exact absurd hb (by decide)
    · rw [if_neg hb]
      exact h

theorem spaces_lt_length : spaces s < s.length := by
  have hmem := zero_mem_drop_spaces h
  have hpos := List.length_pos_of_mem hmem
  rw [List.length_drop] at hpos
  omega

/-- What `strchr` finds comes before the terminator. -/
theorem zero_mem_drop_strchr {c : UInt8} {n : ℕ} (hc : c ≠ 0) (hn : strchr s c = some n) :
    0 ∈ s.drop (n + 1) := by
  induction s generalizing n with
  | nil => exact absurd h (by simp)
  | cons b s ih =>
    rw [strchr] at hn
    by_cases hb : b = c
    · rw [if_pos hb, Option.some.injEq] at hn
      rw [← hn, List.drop_succ_cons, List.drop_zero]
      apply (List.mem_cons.mp h).resolve_left
      intro hzero
      exact hc (hb.symm.trans hzero.symm)
    · have hzero : b ≠ 0 := by
        intro hzero
        rw [if_neg hb, if_pos hzero] at hn
        exact absurd hn (by simp)
      rw [if_neg hb, if_neg hzero, Option.map_eq_some_iff] at hn
      obtain ⟨m, hm, hmn⟩ := hn
      rw [← hmn, List.drop_succ_cons]
      exact ih ((List.mem_cons.mp h).resolve_left (Ne.symm hzero)) hm

theorem signed_append : signed (s ++ t) = signed s := by
  cases s with
  | nil => exact absurd h (by simp)
  | cons b s =>
    have htail : b ≠ 0 → (s ++ t).takeWhile isdigit = s.takeWhile isdigit := by
      intro hb
      exact takeWhile_append ((List.mem_cons.mp h).resolve_left (Ne.symm hb)) t rfl
    by_cases hneg : b = 45
    · subst hneg
      simp only [List.cons_append, signed, htail (by decide)]
    · by_cases hpos : b = 43
      · subst hpos
        simp only [List.cons_append, signed, htail (by decide)]
      · have hunsigned : ∀ u : List UInt8, signed (b :: u) =
            min (decimal ((b :: u).takeWhile isdigit) : ℤ) (2 ^ 63 - 1) := by
          intro u
          rw [signed]
          · simpa using hneg
          · simpa using hpos
        rw [List.cons_append, hunsigned, hunsigned, ← List.cons_append,
          takeWhile_append h t rfl]

theorem atoi_append : atoi (s ++ t) = atoi s := by
  have hle : spaces s ≤ s.length := (spaces_lt_length h).le
  rw [atoi, atoi, strtol, strtol, spaces_append h, List.drop_append_of_le_length hle,
    signed_append (zero_mem_drop_spaces h)]

end Append

theorem trimBack_append (s t : List UInt8) {i : ℕ} (h : i ≤ s.length) :
    trimBack (s ++ t) i = trimBack s i := by
  induction i with
  | zero => rw [trimBack, trimBack]
  | succ i ih => rw [trimBack, trimBack, List.getD_append s t 0 i h, ih (by omega)]

/-! ## Scanning -/

section Scan

variable {s : List UInt8} {i : ℕ}

/-- `spaces` stops at a byte that is none. -/
theorem isspace_spaces (s : List UInt8) : isspace (s.getD (spaces s) 0) = false := by
  induction s with
  | nil => rfl
  | cons b s ih =>
    rw [spaces]
    split
    · exact ih
    · next hb =>
      rw [List.getD_cons_zero]
      exact Bool.eq_false_of_not_eq_true hb

/-- `spaces` stops at a terminator at the latest. -/
theorem spaces_le_zero (h : s[i]? = some 0) : spaces s ≤ i := by
  induction s generalizing i with
  | nil => exact absurd h (by simp)
  | cons b s ih =>
    rw [spaces]
    split
    · next hb =>
      cases i with
      | zero =>
        rw [List.getElem?_cons_zero, Option.some.injEq] at h
        rw [h] at hb
        exact absurd hb (by decide)
      | succ i => exact Nat.succ_le_succ (ih h)
    · exact Nat.zero_le i

theorem strchr_lt_zero {c : UInt8} {n : ℕ} (hc : c ≠ 0) (hn : strchr s c = some n)
    (h : s[i]? = some 0) : n < i := by
  induction s generalizing i n with
  | nil => exact absurd h (by simp)
  | cons b s ih =>
    rw [strchr] at hn
    split at hn
    · next hb =>
      obtain rfl := Option.some.inj hn
      rcases Nat.eq_zero_or_pos i with rfl | hpos
      · rw [List.getElem?_cons_zero, Option.some.injEq] at h
        exact absurd (hb.symm.trans h) hc
      · exact hpos
    · split at hn
      · exact absurd hn (by simp)
      · next hb =>
        obtain ⟨m, hm, rfl⟩ := Option.map_eq_some_iff.mp hn
        cases i with
        | zero =>
          rw [List.getElem?_cons_zero, Option.some.injEq] at h
          exact absurd h hb
        | succ i => exact Nat.succ_lt_succ (ih hm h)

theorem trimBack_le (s : List UInt8) (i : ℕ) : trimBack s i ≤ i := by
  induction i with
  | zero => exact le_rfl
  | succ i ih =>
    rw [trimBack]
    split
    · exact Nat.le_succ_of_le ih
    · exact le_rfl

/-- `trimBack` passes spaces only. -/
theorem isspace_trimBack (h : trimBack s i < i) : isspace (s.getD (trimBack s i) 0) = true := by
  induction i with
  | zero => exact absurd h (Nat.not_lt_zero _)
  | succ i ih =>
    rw [trimBack] at h ⊢
    split at h
    · next hspace =>
      rw [if_pos hspace]
      rcases Nat.lt_or_ge (trimBack s i) i with hlt | hge
      · exact ih hlt
      · rw [Nat.le_antisymm (trimBack_le s i) hge]
        exact hspace
    · exact absurd h (Nat.lt_irrefl _)

/-- `trimBack` does not pass a byte that is no space. -/
theorem lt_trimBack {j : ℕ} (hj : isspace (s.getD j 0) = false) (hlt : j < i) :
    j < trimBack s i := by
  induction i with
  | zero => exact absurd hlt (Nat.not_lt_zero _)
  | succ i ih =>
    rw [trimBack]
    split
    · next hspace =>
      have hne : j ≠ i := by
        rintro rfl
        rw [hj] at hspace
        exact absurd hspace (by decide)
      exact ih (by omega)
    · exact hlt

end Scan

section Known

variable {s t : List UInt8} {b c : UInt8}

theorem strchr_known (hzero : 0 ∉ s) (hc : c ∉ s) : strchr (s ++ c :: t) c = some s.length := by
  induction s with
  | nil => simp [strchr]
  | cons a s ih =>
    rw [List.mem_cons, not_or] at hzero hc
    rw [List.cons_append, strchr, if_neg (Ne.symm hc.1), if_neg (Ne.symm hzero.1),
      ih hzero.2 hc.2]
    rfl

theorem strchr_absent (hc : c ∉ s) (hne : c ≠ 0) : strchr (s ++ 0 :: t) c = none := by
  induction s with
  | nil => simp [strchr, Ne.symm hne]
  | cons a s ih =>
    rw [List.mem_cons, not_or] at hc
    rw [List.cons_append, strchr, if_neg (Ne.symm hc.1), ih hc.2]
    split
    · rfl
    · rfl

/-- `strchr` looks at the text alone. -/
theorem strchr_eq_none_iff (hne : c ≠ 0) : strchr s c = none ↔ c ∉ text s := by
  induction s with
  | nil => simp [strchr, text]
  | cons a s ih =>
    rw [strchr, text, List.takeWhile_cons]
    by_cases hac : a = c
    · subst hac
      simp [hne]
    · by_cases hzero : a = 0
      · simp [hzero, Ne.symm hne]
      · rw [if_neg hac, if_neg hzero, Option.map_eq_none_iff, ih, if_pos (by simpa using hzero),
          List.mem_cons, not_or, text, and_iff_right (Ne.symm hac)]

/-- Where `strchr` finds a byte, the text has the first one of it. -/
theorem count_text_of_strchr {n : ℕ} (hne : c ≠ 0) (h : strchr s c = some n) :
    (text s).count c = (text (s.drop (n + 1))).count c + 1 := by
  induction s generalizing n with
  | nil => exact absurd h (by simp [strchr])
  | cons a s ih =>
    rw [strchr] at h
    by_cases hac : a = c
    · subst hac
      rw [if_pos rfl, Option.some.injEq] at h
      rw [← h, text, List.takeWhile_cons_of_pos (by simpa using hne), List.count_cons_self]
      rfl
    · by_cases hzero : a = 0
      · rw [if_neg hac, if_pos hzero] at h
        exact absurd h (by simp)
      · rw [if_neg hac, if_neg hzero, Option.map_eq_some_iff] at h
        obtain ⟨m, hm, rfl⟩ := h
        rw [text, List.takeWhile_cons_of_pos (by simpa using hzero),
          List.count_cons_of_ne hac, List.drop_succ_cons]
        exact ih hm

/-- Leading spaces are skipped up to the first byte that is none. -/
theorem spaces_known (hblanks : ∀ a ∈ t, isspace a = true)
    (hs : ∃ b ∈ s.head?, isspace b = false) (post : List UInt8) :
    spaces (t ++ (s ++ post)) = t.length := by
  obtain ⟨b, hb, hspace⟩ := hs
  obtain ⟨s, rfl⟩ := List.head?_eq_some_iff.mp hb
  induction t with
  | nil => simp [spaces, hspace]
  | cons a t ih =>
    rw [List.cons_append, spaces, if_pos (hblanks a List.mem_cons_self),
      ih fun a' ha' => hblanks a' (List.mem_cons_of_mem a ha'), List.length_cons]

theorem spaces_le (s t : List UInt8) : spaces (s ++ 0 :: t) ≤ s.length := by
  induction s with
  | nil => simp [spaces]
  | cons a s ih =>
    rw [List.cons_append, spaces, List.length_cons]
    split
    · omega
    · omega

theorem getD_concat (pre post : List UInt8) {i : ℕ} (hi : pre.length = i) (b : UInt8) :
    (pre ++ b :: post).getD i 0 = b := by
  simp [List.getD, ← hi]

/-- Trailing spaces are skipped back to the last byte that is none. -/
theorem trimBack_known (pre : List UInt8) (hs : ∃ b ∈ s.getLast?, isspace b = false)
    (hblanks : ∀ a ∈ t, isspace a = true) (post : List UInt8) {i : ℕ}
    (hi : pre.length + s.length + t.length = i) :
    trimBack (pre ++ (s ++ (t ++ post))) i = pre.length + s.length := by
  induction t using List.reverseRecOn generalizing post i with
  | nil =>
    obtain ⟨b, hb, hspace⟩ := hs
    obtain ⟨s', rfl⟩ := List.getLast?_eq_some_iff.mp hb
    simp only [List.length_append, List.length_nil, List.length_singleton, Nat.add_zero] at hi ⊢
    have hget : (pre ++ (s' ++ [b] ++ ([] ++ post))).getD (pre.length + s'.length) 0 = b := by
      have hlist : pre ++ (s' ++ [b] ++ ([] ++ post)) = (pre ++ s') ++ b :: post := by simp
      rw [hlist]
      exact getD_concat _ _ List.length_append _
    rw [← hi, ← Nat.add_assoc, trimBack, hget, hspace]
    rfl
  | append_singleton t a ih =>
    have hrest := ih (fun a' ha' => hblanks a' (List.mem_append_left _ ha')) (a :: post) rfl
    have hget : (pre ++ (s ++ (t ++ [a] ++ post))).getD (pre.length + s.length + t.length) 0 =
        a := by
      have hlist : pre ++ (s ++ (t ++ [a] ++ post)) = (pre ++ s ++ t) ++ a :: post := by simp
      rw [hlist]
      exact getD_concat _ _ (by simp [Nat.add_assoc]) _
    rw [List.length_append, List.length_singleton, ← Nat.add_assoc] at hi
    rw [← hi, trimBack, hget,
      if_pos (hblanks a (List.mem_append_right _ (List.mem_singleton_self a)))]
    rw [List.append_assoc, List.singleton_append]
    exact hrest

theorem text_known (hs : 0 ∉ s) : text (s ++ 0 :: t) = s := by
  unfold text
  rw [List.takeWhile_append_of_pos]
  · simp
  · intro a ha
    have hne : a ≠ 0 := fun h => hs (h ▸ ha)
    simpa using hne

/-- The names are the same but for the case of letters. -/
def SameName (l s : List UInt8) : Prop :=
  s.map tolower = l.map tolower

instance (l s : List UInt8) : Decidable (SameName l s) :=
  inferInstanceAs (Decidable (_ = _))

theorem SameName.length_eq {l s : List UInt8} (h : SameName l s) : s.length = l.length := by
  have hlength := congrArg List.length h
  rwa [List.length_map, List.length_map] at hlength

theorem strncasecmp_iff {l : List UInt8} (hl : 0 ∉ l) (hlen : s.length = l.length) :
    strncasecmp l (s ++ t) l.length = true ↔ SameName l s := by
  unfold SameName
  induction l generalizing s with
  | nil =>
    rw [List.eq_nil_of_length_eq_zero hlen]
    simp [strncasecmp]
  | cons a l ih =>
    rw [List.mem_cons, not_or] at hl
    cases s with
    | nil => exact absurd hlen (by simp)
    | cons b s =>
      have hrest := ih hl.2 (Nat.succ.inj hlen)
      have ha : (a == 0) = false := beq_false_of_ne (Ne.symm hl.1)
      rw [List.length_cons, List.cons_append, strncasecmp]
      simp only [List.headD_cons, List.tail_cons, ha, Bool.false_or, Bool.and_eq_true,
        beq_iff_eq, hrest, List.map_cons, List.cons.injEq]
      constructor
      · rintro ⟨hhead, htail⟩
        exact ⟨hhead.symm, htail⟩
      · rintro ⟨hhead, htail⟩
        exact ⟨hhead.symm, htail⟩

/-- `strtol` of digits. -/
theorem strtol_known (hne : s ≠ []) (hs : ∀ a ∈ s, isdigit a = true) (hb : isdigit b = false) :
    strtol (s ++ b :: t) = min (decimal s : ℤ) (2 ^ 63 - 1) := by
  have htake : (s ++ b :: t).takeWhile isdigit = s := by
    rw [List.takeWhile_append_of_pos hs, List.takeWhile_cons, hb]
    simp
  obtain ⟨a, s', rfl⟩ := List.exists_cons_of_ne_nil hne
  have ha := hs a List.mem_cons_self
  have hspace : spaces (a :: s' ++ b :: t) = 0 := by
    rw [List.cons_append, spaces, isspace_of_isdigit ha]
    rfl
  have hunsigned : signed (a :: s' ++ b :: t) =
      min (decimal ((a :: s' ++ b :: t).takeWhile isdigit) : ℤ) (2 ^ 63 - 1) := by
    rw [List.cons_append, signed]
    · intro _ heq
      rw [(List.cons.inj heq).1] at ha
      exact absurd ha (by decide)
    · intro _ heq
      rw [(List.cons.inj heq).1] at ha
      exact absurd ha (by decide)
  rw [strtol, hspace, List.drop_zero, hunsigned, htake]

/-- `atoi` of digits. -/
theorem atoi_known (hne : s ≠ []) (hs : ∀ a ∈ s, isdigit a = true) (hb : isdigit b = false)
    (hlt : decimal s < 2 ^ 31) : atoi (s ++ b :: t) = decimal s := by
  rw [atoi, strtol_known hne hs hb, min_eq_left (by omega), Int.bmod_eq_of_le]
  · omega
  · omega

end Known

end Lib.CString
