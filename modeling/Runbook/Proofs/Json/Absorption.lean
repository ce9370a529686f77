import Runbook.Proofs.Json.Fields

/-!
# Merging a document twice

Merging takes from a document what is not there yet, so a second merge with either side of a merge
adds nothing: no item of an array comes twice and no field changes.  Whether an array has an item is
asked up to the sign of zero, which is an equivalence.
-/

namespace Runbook.Json

open Decimal (Binary64)

/-! ## Documents up to the sign of zero -/

def unsignedZero (x : Binary64) : Binary64 := if x.isZero then .zero false else x

private theorem sameValue_iff (x y : Binary64) :
    x.sameValue y ↔ unsignedZero x = unsignedZero y := by
  have hzero : (Binary64.zero false).isZero := by decide
  unfold Binary64.sameValue unsignedZero
  by_cases hx : x.isZero <;> by_cases hy : y.isZero
  · simp [hx, hy]
  · have hne : x ≠ y := fun h => hy (h ▸ hx)
    have hother : .zero false ≠ y := fun h => hy (h ▸ hzero)
    simp [hx, hy, hne, hother]
  · have hne : x ≠ y := fun h => hx (h ▸ hy)
    have hother : x ≠ .zero false := fun h => hx (h ▸ hzero)
    simp [hx, hy, hne, hother]
  · simp [hx, hy]

def Number.unsigned : Number → Number
  | .int value => .int value
  | .double value => .double (unsignedZero value)

theorem Number.same_iff (a b : Number) : a.same b ↔ a.unsigned = b.unsigned := by
  cases a <;> cases b <;> simp [Number.same, Number.unsigned, sameValue_iff]

mutual

/-- The document without minus signs in front of zeros. -/
def unsigned : Json → Json
  | .number value => .number value.unsigned
  | .array items => .array (unsignedItems items)
  | .object fields => .object (unsignedFields fields)
  | other => other

def unsignedItems : List Json → List Json
  | [] => []
  | item :: items => unsigned item :: unsignedItems items

def unsignedFields : List (String × Json) → List (String × Json)
  | [] => []
  | (key, value) :: fields => (key, unsigned value) :: unsignedFields fields

end

mutual

theorem same_iff (a b : Json) : same a b ↔ unsigned a = unsigned b := by
  cases a with
  | array items =>
      cases b with
      | array others => simpa [same, unsigned] using sameItems_iff items others
      | _ => simp [same, unsigned]
  | object fields =>
      cases b with
      | object others => simpa [same, unsigned] using sameFields_iff fields others
      | _ => simp [same, unsigned]
  | _ => cases b <;> simp [same, unsigned, Number.same_iff]

theorem sameItems_iff (as bs : List Json) :
    sameItems as bs ↔ unsignedItems as = unsignedItems bs := by
  cases as with
  | nil => cases bs <;> simp [sameItems, unsignedItems]
  | cons a as =>
      cases bs with
      | nil => simp [sameItems, unsignedItems]
      | cons b bs => simp [sameItems, unsignedItems, same_iff a b, sameItems_iff as bs]

theorem sameFields_iff (as bs : List (String × Json)) :
    sameFields as bs ↔ unsignedFields as = unsignedFields bs := by
  cases as with
  | nil => cases bs <;> simp [sameFields, unsignedFields]
  | cons a as =>
      cases bs with
      | nil => simp [sameFields, unsignedFields]
      | cons b bs =>
          simp [sameFields, unsignedFields, same_iff a.2 b.2, sameFields_iff as bs, and_assoc]

end

/-! ## Arrays -/

def Has (items : List Json) (item : Json) : Prop := ∃ own ∈ items, same own item

theorem any_same_iff {items : List Json} {item : Json} :
    items.any (same · item) ↔ Has items item := by
  simp [Has]

theorem Has.of_mem {items : List Json} {item : Json} (h : item ∈ items) : Has items item :=
  ⟨item, h, same_refl item⟩

theorem Has.of_same {items : List Json} {item other : Json} (h : Has items item)
    (hsame : same item other) : Has items other := by
  obtain ⟨own, hown, hitem⟩ := h
  refine ⟨own, hown, (same_iff own other).mpr ?_⟩
  exact ((same_iff own item).mp hitem).trans ((same_iff item other).mp hsame)

theorem addMissing_append (items more others : List Json) :
    addMissing items (more ++ others) = addMissing (addMissing items more) others := by
  unfold addMissing
  rw [List.foldl_append]

theorem addMissing_cons (items more : List Json) (item : Json) :
    addMissing items (item :: more) = addMissing (addMissing items [item]) more :=
  addMissing_append items [item] more

theorem addMissing_of_has {items : List Json} {item : Json} (h : Has items item) :
    addMissing items [item] = items := by
  unfold addMissing
  rw [List.foldl_cons, List.foldl_nil, if_pos (any_same_iff.mpr h)]

theorem addMissing_of_not_has {items : List Json} {item : Json} (h : ¬ Has items item) :
    addMissing items [item] = items ++ [item] := by
  unfold addMissing
  rw [List.foldl_cons, List.foldl_nil, if_neg fun hany => h (any_same_iff.mp hany)]

private theorem has_addMissing_single (items : List Json) (item : Json) :
    Has (addMissing items [item]) item := by
  by_cases h : Has items item
  · rwa [addMissing_of_has h]
  · rw [addMissing_of_not_has h]
    exact .of_mem (by simp)

private theorem mem_addMissing_single {items : List Json} {item other : Json} :
    other ∈ addMissing items [item] → other ∈ items ∨ other = item := by
  by_cases h : Has items item
  · rw [addMissing_of_has h]
    exact .inl
  · rw [addMissing_of_not_has h]
    simp

private theorem mem_addMissing {items more : List Json} {item : Json}
    (h : item ∈ addMissing items more) :
    item ∈ items ∨ item ∈ more := by
  induction more generalizing items with
  | nil => exact .inl h
  | cons first more ih =>
      rw [addMissing_cons] at h
      rcases ih h with hitem | hitem
      · rcases mem_addMissing_single hitem with hitem | rfl
        · exact .inl hitem
        · exact .inr List.mem_cons_self
      · exact .inr (List.mem_cons_of_mem _ hitem)

private theorem subset_addMissing (items more : List Json) : items ⊆ addMissing items more := by
  induction more generalizing items with
  | nil => exact List.Subset.refl _
  | cons first more ih =>
      rw [addMissing_cons]
      refine List.Subset.trans ?_ (ih _)
      by_cases h : Has items first
      · rw [addMissing_of_has h]
        exact List.Subset.refl _
      · rw [addMissing_of_not_has h]
        exact List.subset_append_left _ _

private theorem has_addMissing (items : List Json) {more : List Json} {item : Json}
    (h : Has more item) :
    Has (addMissing items more) item := by
  obtain ⟨own, hown, hsame⟩ := h
  refine Has.of_same ?_ hsame
  obtain ⟨before, after, rfl⟩ := List.append_of_mem hown
  rw [addMissing_append, addMissing_cons]
  obtain ⟨other, hother, hsame⟩ := has_addMissing_single (addMissing items before) own
  exact ⟨other, subset_addMissing _ _ hother, hsame⟩

theorem addMissing_assoc (items more others : List Json) :
    addMissing (addMissing items more) others = addMissing items (addMissing more others) := by
  induction others generalizing more with
  | nil => rfl
  | cons other others ih =>
      have hsingle : addMissing (addMissing items more) [other] =
          addMissing items (addMissing more [other]) := by
        by_cases h : Has more other
        · rw [addMissing_of_has h, addMissing_of_has (has_addMissing items h)]
        · rw [addMissing_of_not_has h, addMissing_append]
      rw [addMissing_cons, addMissing_cons more, ← ih, hsingle]

theorem addMissing_self (items : List Json) : addMissing items items = items :=
  addMissing_eq_left fun _ hitem => any_same_iff.mpr (Has.of_mem hitem)

/-! ## Shapes -/

inductive Shape where
  | scalar
  | array
  | object
  deriving DecidableEq

def shape : Json → Shape
  | .array _ => .array
  | .object _ => .object
  | _ => .scalar

/-- Whether nothing of a document is left when another one is merged into it. -/
def Replaces (right left : Json) : Prop := right.shape = .scalar ∨ left.shape ≠ right.shape

theorem merge_of_replaces {left right : Json} (h : right.Replaces left) :
    merge left right = right := by
  cases right <;> cases left <;> simp_all [Replaces, shape, merge]

/-- The cases of a merge: the right document replaces the left one, two arrays, or two objects, of
which the values under common keys are merged. -/
@[elab_as_elim]
theorem mergeInduction {motive : Json → Json → Prop}
    (replaced : ∀ left right, right.Replaces left → motive left right)
    (arrays : ∀ items more, motive (.array items) (.array more))
    (objects : ∀ left right,
      (∀ key own other, getField? left key = some own → getField? right key = some other →
        motive own other) →
      motive (.object left) (.object right)) : ∀ left right, motive left right
  | .array items, .array more => arrays items more
  | .object left, .object right => objects left right fun _ own other _ hother =>
      have := mem_of_getField? hother
      mergeInduction replaced arrays objects own other
  | left, .null | left, .bool _ | left, .number _ | left, .string _ =>
      replaced left _ (.inl rfl)
  | .null, .array _ | .bool _, .array _ | .number _, .array _ | .string _, .array _
  | .object _, .array _ => replaced _ _ (.inr (by simp [shape]))
  | .null, .object _ | .bool _, .object _ | .number _, .object _ | .string _, .object _
  | .array _, .object _ => replaced _ _ (.inr (by simp [shape]))
termination_by _ right => sizeOf right
decreasing_by
  have := List.sizeOf_lt_of_mem this
  simp only [Json.object.sizeOf_spec, Prod.mk.sizeOf_spec] at this ⊢
  omega

theorem object_ext {fields others : List (String × Json)} (h : Ascending fields)
    (hothers : Ascending others) (hsame : ∀ key, getField? fields key = getField? others key) :
    Json.object fields = .object others :=
  congrArg Json.object (h.ext hothers hsame)

theorem mergedField {left right : List (String × Json)} (h : Ascending right) {key : String}
    {value : Json} (hvalue : getField? (mergeFields left right) key = some value) :
    getField? left key = some value ∨ getField? right key = some value ∨
      ∃ own other, getField? left key = some own ∧ getField? right key = some other ∧
        value = merge own other := by
  rw [getField?_mergeFields h] at hvalue
  cases hown : getField? left key with
  | none =>
      rw [hown, mergeOption] at hvalue
      exact .inr (.inl hvalue)
  | some own =>
      cases hother : getField? right key with
      | none =>
          rw [hown, hother, mergeOption_none] at hvalue
          exact .inl hvalue
      | some other =>
          rw [hown, hother, mergeOption] at hvalue
          exact .inr (.inr ⟨own, other, rfl, rfl, (Option.some.inj hvalue).symm⟩)

theorem sorted_merge {left right : Json} (hleft : Sorted left) (hright : Sorted right) :
    Sorted (merge left right) := by
  induction left, right using mergeInduction with
  | replaced left right hreplaces => rwa [merge_of_replaces hreplaces]
  | arrays items more =>
      rw [merge]
      rw [Sorted, sortedItems_iff] at *
      intro item hitem
      exact (mem_addMissing hitem).elim (hleft item) (hright item)
  | objects left right ih =>
      have hascending : Ascending (mergeFields left right) :=
        (sorted_object.mp hleft).1.mergeFields
      rw [merge]
      refine sorted_object.mpr ⟨hascending, fun field hfield => ?_⟩
      rcases mergedField (sorted_object.mp hright).1 (hascending.getField?_of_mem hfield) with
        hown | hother | ⟨own, other, hown, hother, hvalue⟩
      · exact hleft.getField? hown
      · exact hright.getField? hother
      · rw [hvalue]
        exact ih _ own other hown hother (hleft.getField? hown) (hright.getField? hother)

/-! ## Merging twice -/

private theorem merge_merge_right {left right : Json} (hleft : Sorted left)
    (hright : Sorted right) :
    merge (merge left right) right = merge left right := by
  induction left, right using mergeInduction with
  | replaced left right hreplaces => rw [merge_of_replaces hreplaces, merge_self right hright]
  | arrays items more => simp [merge, addMissing_assoc, addMissing_self]
  | objects left right ih =>
      have hascending := (sorted_object.mp hleft).1
      have hothers := (sorted_object.mp hright).1
      simp only [merge]
      refine object_ext hascending.mergeFields.mergeFields hascending.mergeFields fun key => ?_
      simp only [getField?_mergeFields hothers]
      cases hother : getField? right key with
      | none => simp [mergeOption_none]
      | some other =>
          have hotherSorted := hright.getField? hother
          cases hown : getField? left key with
          | none => simp [mergeOption, merge_self other hotherSorted]
          | some own =>
              have hmerged := ih key own other hown hother (hleft.getField? hown) hotherSorted
              simp [mergeOption, hmerged]

private theorem merge_merge_left {left right : Json} (hleft : Sorted left) (hright : Sorted right) :
    merge left (merge left right) = merge left right := by
  induction left, right using mergeInduction with
  | replaced left right hreplaces => rw [merge_of_replaces hreplaces, merge_of_replaces hreplaces]
  | arrays items more => simp [merge, ← addMissing_assoc, addMissing_self]
  | objects left right ih =>
      have hascending := (sorted_object.mp hleft).1
      have hothers := (sorted_object.mp hright).1
      simp only [merge]
      refine object_ext hascending.mergeFields hascending.mergeFields fun key => ?_
      simp only [getField?_mergeFields hascending.mergeFields, getField?_mergeFields hothers]
      cases hown : getField? left key with
      | none => simp [mergeOption]
      | some own =>
          have hownSorted := hleft.getField? hown
          cases hother : getField? right key with
          | none => simp [mergeOption, merge_self own hownSorted]
          | some other =>
              have hmerged := ih key own other hown hother hownSorted (hright.getField? hother)
              simp [mergeOption, hmerged]

/-- Merging is idempotent, and a document that has been merged in once changes nothing when it is
merged in again, from either side. -/
theorem merge_absorbs {left right : Json} (hleft : Sorted left) (hright : Sorted right) :
    merge left left = left ∧ merge (merge left right) right = merge left right ∧
      merge left (merge left right) = merge left right :=
  ⟨merge_self left hleft, merge_merge_right hleft hright, merge_merge_left hleft hright⟩

theorem merge_absorbs_branches :
    ∃ left right : Json, Sorted left ∧ Sorted right ∧
      left = .object [("log", .array [.string "a", .string "a", .number (.double (.zero true))]),
        ("owner", .array []), ("step", .object [("at", .null)])] ∧
      right = .object [("log", .array [.number (.double (.zero false)), .string "b", .string "b"]),
        ("owner", .object [("by", .bool true)]), ("step", .object [("by", .null)])] ∧
      merge left right = .object [("log", .array [.string "a", .string "a",
          .number (.double (.zero true)), .string "b"]),
        ("owner", .object [("by", .bool true)]), ("step", .object [("at", .null), ("by", .null)])] ∧
      merge left left = left ∧ merge (merge left right) right = merge left right ∧
      merge left (merge left right) = merge left right := by
  refine ⟨_, _, ?hleft, ?hright, rfl, rfl, by decide +kernel, merge_absorbs ?hleft ?hright⟩
  · exact sorted_of_normalize (by decide +kernel)
  · exact sorted_of_normalize (by decide +kernel)

end Runbook.Json
