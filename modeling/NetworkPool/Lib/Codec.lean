import NetworkPool.Lib.Incremental

/-!
# Codecs

A codec writes items one after the other, so that a reader can take them from the front of its
input one by one. The reader is an incremental machine: whatever the reads, it puts out the items
that were written and keeps what is left of the next one.
-/

namespace Lib

/-- `next` takes the item at the front of the input, if it is complete, and leaves the rest. The
items of which `Valid` holds can be written. -/
structure Codec (β ω : Type*) where
  next : List β → Option (ω × List β)
  next_append : ∀ {l r a} m, next l = some (a, r) → next (l ++ m) = some (a, r ++ m)
  Valid : ω → Prop
  encode : ω → List β
  next_encode : ∀ {a}, Valid a → ∀ m, next (encode a ++ m) = some (a, m)

namespace Codec

variable {β ω : Type*} (C : Codec β ω)

/-- The reader: it holds the input that it has not taken yet. -/
def reader : Incremental (List β) β ω where
  step l := (C.next l).map fun n => (n.2, [n.1])
  feed l m := l ++ m
  Ok _ := True
  ok_step := fun _ _ => trivial
  ok_feed := fun _ _ => trivial
  feed_nil := List.append_nil
  feed_feed := List.append_assoc
  step_feed := by
    intro l r o m _ h
    obtain ⟨n, hnext, heq⟩ := Option.map_eq_some_iff.mp h
    rw [Prod.mk.injEq] at heq
    rw [C.next_append m hnext, Option.map_some, heq.1, heq.2]

variable {C} {a : ω} {l r : List β} {items : List ω}

theorem reader_step (h : C.next l = some (a, r)) : C.reader.step l = some (r, [a]) := by
  show (C.next l).map _ = _
  rw [h]
  rfl

theorem reader_step_eq_none : C.reader.step l = none ↔ C.next l = none :=
  Option.map_eq_none_iff

/-- What is left of an item is not an item. -/
theorem next_partial (ha : C.Valid a) (hpre : r <+: C.encode a) (hne : r ≠ C.encode a) :
    C.next r = none := by
  obtain ⟨m, hm⟩ := hpre
  cases hnext : C.next r with
  | none => rfl
  | some n =>
    -- the whole item would leave `m` behind
    have hwhole := C.next_encode ha []
    rw [List.append_nil, ← hm, C.next_append m hnext, Option.some.injEq, Prod.mk.injEq] at hwhole
    have hnil : m = [] := (List.append_eq_nil_iff.mp hwhole.2).2
    rw [hnil, List.append_nil] at hm
    exact absurd hm hne

/-- **The round trip.** -/
theorem halts_encode (hitems : ∀ a ∈ items, C.Valid a) (hrest : C.next r = none) :
    C.reader.Halts (items.flatMap C.encode ++ r) items r := by
  induction items with
  | nil => exact ⟨.refl r, reader_step_eq_none.mpr hrest⟩
  | cons a items ih =>
    have hstep := reader_step (C.next_encode (hitems a List.mem_cons_self)
      (items.flatMap C.encode ++ r))
    have hrun := ih fun b hb => hitems b (List.mem_cons_of_mem a hb)
    rw [List.flatMap_cons, List.append_assoc]
    exact ⟨.head hstep hrun.1, hrun.2⟩

end Codec

end Lib
