import Mathlib.Data.List.AList
import Mathlib.Algebra.BigOperators.Group.Multiset.Basic

/-!
# Association maps

Facts about `AList` with values of one type that Mathlib does not have in this form: what a
lookup in an updated map says about the map before, erasing an absent key, and sums over the
entries.
-/

namespace Lib

variable {α β : Type*} [DecidableEq α]

/-- Maps with values of one type. -/
abbrev AssocMap (α β : Type*) := AList fun _ : α => β

namespace AssocMap

variable {m : AssocMap α β} {a b : α} {x y : β}

/-- An entry of the map after an erasure is an entry under another key. -/
theorem of_lookup_erase (h : (m.erase a).lookup b = some x) : b ≠ a ∧ m.lookup b = some x := by
  by_cases hab : b = a
  · rw [hab, AList.lookup_erase] at h
    exact absurd h (by simp)
  · exact ⟨hab, by rwa [AList.lookup_erase_ne hab] at h⟩

/-- An entry of the map after an insertion is the new one or one under another key. -/
theorem of_lookup_insert (h : (m.insert a y).lookup b = some x) :
    (b = a ∧ x = y) ∨ (b ≠ a ∧ m.lookup b = some x) := by
  by_cases hab : b = a
  · subst hab
    rw [AList.lookup_insert, Option.some.injEq] at h
    exact .inl ⟨rfl, h.symm⟩
  · exact .inr ⟨hab, by rwa [AList.lookup_insert_ne hab] at h⟩

/-- Erasing a key leaves an absent entry absent. -/
theorem lookup_erase_eq_none (h : m.lookup b = none) : (m.erase a).lookup b = none := by
  by_contra hne
  obtain ⟨x, hx⟩ := Option.ne_none_iff_exists'.mp hne
  rw [(of_lookup_erase hx).2] at h
  exact absurd h (by simp)

/-- Erasing an absent key changes nothing. -/
theorem erase_of_lookup_eq_none (h : m.lookup a = none) : m.erase a = m := by
  apply AList.ext
  exact List.kerase_of_notMem_keys (AList.lookup_eq_none.mp h)

/-- Inserting at the key just erased. -/
theorem insert_erase : (m.erase a).insert a x = m.insert a x := by
  have herase : (m.erase a).erase a = m.erase a := erase_of_lookup_eq_none (AList.lookup_erase a m)
  apply AList.ext
  show List.kinsert a x (m.erase a).entries = List.kinsert a x m.entries
  rw [List.kinsert_def, List.kinsert_def]
  exact congrArg (fun m : AssocMap α β => ⟨a, x⟩ :: m.entries) herase

/-- Erasing the key just inserted. -/
theorem erase_insert (h : m.lookup a = none) : (m.insert a x).erase a = m := by
  apply AList.ext
  have hkeys : a ∉ m.entries.keys := AList.lookup_eq_none.mp h
  show List.kerase a (List.kinsert a x m.entries) = m.entries
  rw [List.kinsert_def, List.kerase_of_notMem_keys hkeys]
  simp

/-- The keys stay when the value of one of them is replaced. -/
theorem mem_insert_of_lookup (h : m.lookup a = some x) : b ∈ m.insert a y ↔ b ∈ m := by
  rw [AList.mem_insert]
  refine or_iff_right_of_imp fun heq => ?_
  rw [heq, ← AList.lookup_isSome, h]
  rfl

/-- The entries of a map with one of them in front. -/
theorem entries_perm_erase (h : m.lookup a = some x) :
    m.entries.Perm (⟨a, x⟩ :: (m.erase a).entries) := by
  have hmem : a ∈ m.entries.keys := by
    have : (m.lookup a).isSome := by rw [h]; rfl
    exact AList.mem_keys.mp (AList.lookup_isSome.mp this)
  obtain ⟨b, l₁, l₂, -, hl, herase⟩ := List.exists_of_kerase hmem
  have hb : b = x := by
    have hin : (⟨a, b⟩ : Sigma fun _ : α => β) ∈ m.entries := by rw [hl]; simp
    have := AList.mem_lookup_iff.mpr hin
    rw [h] at this
    exact (Option.mem_some_iff.mp this).symm
  subst hb
  show m.entries.Perm (⟨a, b⟩ :: List.kerase a m.entries)
  rw [herase, hl]
  exact List.perm_middle

/-! ## Sums over the entries -/

section Sum

variable {γ : Type*} [AddCommMonoid γ] (f : α → β → γ)

/-- The sum of `f` over the entries. -/
def sum (m : AssocMap α β) : γ :=
  (m.entries.map fun e => f e.1 e.2).sum

/-- An entry taken out of the sum. -/
theorem sum_of_lookup (h : m.lookup a = some x) : sum f m = f a x + sum f (m.erase a) := by
  unfold sum
  rw [((entries_perm_erase h).map _).sum_eq]
  rfl

/-- The sum after an insertion. -/
theorem sum_insert : sum f (m.insert a x) = f a x + sum f (m.erase a) := by
  rw [sum_of_lookup f (AList.lookup_insert m)]
  congr 2
  apply AList.ext
  show List.kerase a (List.kinsert a x m.entries) = List.kerase a m.entries
  rw [List.kinsert_def]
  simp

/-- A sum in which no entry counts. -/
theorem sum_eq_zero {m : AssocMap α β} (h : ∀ a x, m.lookup a = some x → f a x = 0) :
    sum f m = 0 := by
  refine List.sum_eq_zero fun c hc => ?_
  obtain ⟨e, he, rfl⟩ := List.mem_map.mp hc
  exact h e.1 e.2 (AList.mem_lookup_iff.mpr he)

end Sum

end AssocMap

end Lib
