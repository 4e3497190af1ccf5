import Mathlib.Data.List.Induction

/-!
# Logs

A log grows at its end. `EachEntry P l` says that `P` holds of every entry of `l` and the entries
before it. `Mirrors member l` says that the last entries of the log `l` tell the members of a set
from the others.
-/

namespace Lib

variable {α : Type*} {P Q : List α → α → Prop} {l obs : List α} {o : α}

/-- `P` holds of every entry of `l` and the entries before it. -/
def EachEntry (P : List α → α → Prop) (l : List α) : Prop :=
  ∀ a o b, l = a ++ o :: b → P a o

theorem EachEntry.nil (P : List α → α → Prop) : EachEntry P [] := by
  intro a o b h
  exact absurd h (by simp)

theorem EachEntry.concat (h : EachEntry P l) (ho : P l o) : EachEntry P (l ++ [o]) := by
  intro a o' b heq
  rcases List.eq_nil_or_concat b with rfl | ⟨b, o₁, rfl⟩
  · obtain ⟨rfl, hlast⟩ := List.append_inj' heq rfl
    obtain rfl : o = o' := by simpa using hlast
    exact ho
  · rw [List.concat_eq_append, ← List.cons_append, ← List.append_assoc] at heq
    exact h a o' b (List.append_inj' heq rfl).1

theorem EachEntry.append (h : EachEntry P l) (hobs : ∀ o ∈ obs, ∀ a, P a o) :
    EachEntry P (l ++ obs) := by
  induction obs generalizing l with
  | nil => rwa [List.append_nil]
  | cons o obs ih =>
    rw [List.append_cons]
    apply ih
    · exact h.concat (hobs o (by simp) l)
    · exact fun o' ho' => hobs o' (List.mem_cons_of_mem o ho')

/-- What holds of the entries of the log may be weakened. -/
theorem EachEntry.imp (h : EachEntry P l) (hPQ : ∀ o ∈ l, ∀ a, P a o → Q a o) : EachEntry Q l := by
  intro a o b heq
  refine hPQ o ?_ a (h a o b heq)
  rw [heq]
  exact List.mem_append_right a (List.mem_cons_self ..)

/-! ## The last entry for a key -/

section Keys

variable {κ β : Type*} [DecidableEq κ]

/-- The value of the last entry for `k`. -/
def last (k : κ) (l : List (κ × β)) : Option β :=
  (l.reverse.find? fun e => e.1 = k).map Prod.snd

theorem last_append (k : κ) (l l' : List (κ × β)) : last k (l ++ l') = (last k l').or (last k l) := by
  unfold last
  rw [List.reverse_append, List.find?_append, Option.map_or]

theorem last_concat (k k' : κ) (b : β) (l : List (κ × β)) :
    last k (l ++ [(k', b)]) = if k' = k then some b else last k l := by
  rw [last_append]
  by_cases hk : k' = k
  · simp [last, hk]
  · simp [last, hk]

/-- One value for all the keys of a list. -/
theorem last_map (k : κ) (b : β) (ks : List κ) :
    last k (ks.map fun k' => (k', b)) = if k ∈ ks then some b else none := by
  induction ks using List.reverseRecOn with
  | nil => rfl
  | append_singleton ks k' ih =>
    rw [List.map_append, List.map_singleton, last_concat, ih]
    by_cases hk : k' = k
    · simp [hk]
    · have hk' : k ≠ k' := fun h => hk h.symm
      simp [hk, hk']

/-- The members are the keys whose last entry is `true`. -/
def Mirrors (member : κ → Prop) (l : List (κ × Bool)) : Prop :=
  ∀ k, member k ↔ last k l = some true

variable {member member' : κ → Prop} {l : List (κ × Bool)} {k : κ} {b : Bool} {ks : List κ}

theorem Mirrors.nil (h : ∀ k, ¬ member k) : Mirrors member [] := by
  intro k
  simp [h k, last]

/-- An entry for `k` after `k` alone became, or ceased to be, a member. -/
theorem Mirrors.concat (h : Mirrors member l) (hself : member' k ↔ b = true)
    (hother : ∀ k', k' ≠ k → (member' k' ↔ member k')) : Mirrors member' (l ++ [(k, b)]) := by
  intro k'
  rw [last_concat]
  by_cases hk : k = k'
  · subst hk
    rw [if_pos rfl, Option.some.injEq]
    exact hself
  · rw [if_neg hk]
    exact (hother k' fun heq => hk heq.symm).trans (h k')

/-- Nothing is a member any more, and an entry says so of every former member. -/
theorem Mirrors.append_false (h : Mirrors member l) (hks : ∀ k, member k → k ∈ ks)
    (hnone : ∀ k, ¬ member' k) : Mirrors member' (l ++ ks.map fun k => (k, false)) := by
  intro k
  rw [last_append, last_map]
  by_cases hk : k ∈ ks
  · simp [hk, hnone k]
  · have hout : last k l ≠ some true := fun hl => hk (hks k ((h k).mpr hl))
    simp [hk, hnone k, hout]

end Keys

end Lib
