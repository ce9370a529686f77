import Runbook.Json.Merge

/-!
# Objects as maps

The fields of an object are a map from keys to values, and a sorted list of fields is determined by
that map.  A normalized document is sorted.  Merging two sorted objects merges the values under each
key; a sorted document merged with itself is itself.
-/

namespace Runbook.Json

variable {α : Type} {fields others : List (String × α)} {key : String}

/-! ## Lookup -/

theorem getField?_setField (fields : List (String × α)) (key other : String) (value : α) :
    getField? (setField fields key value) other =
      if other = key then some value else getField? fields other := by
  induction fields with
  | nil => simp [setField, getField?, eq_comm]
  | cons field fields ih =>
      obtain ⟨name, old⟩ := field
      rw [setField]
      by_cases hname : name = key
      · subst hname
        by_cases hother : other = name
        · simp [getField?, hother]
        · simp [getField?, hother, Ne.symm hother]
      · rw [if_neg hname]
        split
        · by_cases hother : other = key
          · simp [getField?, hother]
          · simp [getField?, hother, Ne.symm hother]
        · rw [getField?, getField?, ih]
          by_cases hother : other = key
          · subst hother
            simp [hname]
          · simp [hother]

theorem mem_of_getField? {value : α} (h : getField? fields key = some value) :
    (key, value) ∈ fields := by
  induction fields with
  | nil => cases h
  | cons field fields ih =>
      obtain ⟨name, old⟩ := field
      rw [getField?] at h
      split at h
      · next hname =>
        cases h
        rw [hname]
        exact List.mem_cons_self
      · exact List.mem_cons_of_mem _ (ih h)

theorem mem_setField {value : α} {field : String × α}
    (h : field ∈ setField fields key value) : field = (key, value) ∨ field ∈ fields := by
  induction fields with
  | nil => exact .inl (List.mem_singleton.mp h)
  | cons first fields ih =>
      obtain ⟨name, old⟩ := first
      rw [setField] at h
      split at h
      · exact (List.mem_cons.mp h).imp_right (List.mem_cons_of_mem _)
      · split at h
        · exact List.mem_cons.mp h
        · rcases List.mem_cons.mp h with rfl | h
          · exact .inr List.mem_cons_self
          · exact (ih h).imp_right (List.mem_cons_of_mem _)

/-! ## Ascending keys -/

def Ascending (fields : List (String × α)) : Prop := fields.Pairwise fun a b => a.1 < b.1

theorem Ascending.setField (h : Ascending fields) (key : String) (value : α) :
    Ascending (setField fields key value) := by
  induction fields with
  | nil => exact List.pairwise_singleton _ _
  | cons field fields ih =>
      obtain ⟨name, old⟩ := field
      obtain ⟨hfirst, hrest⟩ := List.pairwise_cons.mp h
      rw [Json.setField]
      split
      · next hname =>
        subst hname
        exact List.pairwise_cons.mpr ⟨hfirst, hrest⟩
      · split
        · next hless =>
          refine List.pairwise_cons.mpr ⟨fun other hother => ?_, h⟩
          rcases List.mem_cons.mp hother with rfl | hother
          · exact hless
          · exact String.lt_trans hless (hfirst other hother)
        · next hname hless =>
          refine List.pairwise_cons.mpr ⟨fun other hother => ?_, ih hrest⟩
          rcases mem_setField hother with rfl | hother
          · refine Decidable.byContradiction fun hgreater => hname ?_
            exact String.le_antisymm (String.not_lt.mp hless) (String.not_lt.mp hgreater)
          · exact hfirst other hother

theorem Ascending.getField?_eq_none {field : String × α} (h : Ascending (field :: fields)) :
    getField? fields field.1 = none := by
  cases hfield : getField? fields field.1 with
  | none => rfl
  | some value =>
      have hless := (List.pairwise_cons.mp h).1 _ (mem_of_getField? hfield)
      exact absurd hless (String.lt_irrefl _)

theorem Ascending.getField?_of_mem (h : Ascending fields) {field : String × α}
    (hfield : field ∈ fields) : getField? fields field.1 = some field.2 := by
  induction fields with
  | nil => cases hfield
  | cons first fields ih =>
      rw [getField?]
      rcases List.mem_cons.mp hfield with rfl | hfield
      · rw [if_pos rfl]
      · have hless := (List.pairwise_cons.mp h).1 field hfield
        rw [if_neg fun hsame => String.lt_irrefl _ (hsame ▸ hless)]
        exact ih (List.pairwise_cons.mp h).2 hfield

theorem Ascending.le_of_mem {first : String × α} (h : Ascending (first :: fields))
    {field : String × α} (hfield : field ∈ first :: fields) : first.1 ≤ field.1 := by
  rcases List.mem_cons.mp hfield with rfl | hfield
  · exact String.not_lt.mp (String.lt_irrefl _)
  · exact String.not_lt.mp (String.lt_asymm ((List.pairwise_cons.mp h).1 field hfield))

theorem Ascending.ext (h : Ascending fields) (hothers : Ascending others)
    (hsame : ∀ key, getField? fields key = getField? others key) : fields = others := by
  induction fields generalizing others with
  | nil =>
      cases others with
      | nil => rfl
      | cons other others => simpa [getField?] using hsame other.1
  | cons field fields ih =>
      cases others with
      | nil => simpa [getField?] using hsame field.1
      | cons other others =>
          have hfield : field ∈ other :: others := by
            refine mem_of_getField? (?_ : getField? _ field.1 = _)
            rw [← hsame]
            exact h.getField?_of_mem List.mem_cons_self
          have hother : other ∈ field :: fields := by
            refine mem_of_getField? (?_ : getField? _ other.1 = _)
            rw [hsame]
            exact hothers.getField?_of_mem List.mem_cons_self
          have hkey : field.1 = other.1 :=
            String.le_antisymm (h.le_of_mem hother) (hothers.le_of_mem hfield)
          have hvalue : field = other := by
            have hlookup := hothers.getField?_of_mem hfield
            rw [hkey, hothers.getField?_of_mem List.mem_cons_self] at hlookup
            exact Prod.ext hkey (Option.some.inj hlookup).symm
          subst hvalue
          congr 1
          refine ih (List.pairwise_cons.mp h).2 (List.pairwise_cons.mp hothers).2 fun key => ?_
          by_cases hfirst : field.1 = key
          · rw [← hfirst, h.getField?_eq_none, hothers.getField?_eq_none]
          · simpa [getField?, hfirst] using hsame key

/-! ## Equal documents -/

mutual

def decideEq : (a b : Json) → Decidable (a = b)
  | .null, .null => .isTrue rfl
  | .bool a, .bool b => decidable_of_iff (a = b) (by simp)
  | .number a, .number b => decidable_of_iff (a = b) (by simp)
  | .string a, .string b => decidable_of_iff (a = b) (by simp)
  | .array a, .array b =>
    match decideEqItems a b with
    | .isTrue same => .isTrue (by rw [same])
    | .isFalse different => .isFalse (by simpa using different)
  | .object a, .object b =>
    match decideEqFields a b with
    | .isTrue same => .isTrue (by rw [same])
    | .isFalse different => .isFalse (by simpa using different)
  | .null, .bool _ | .null, .number _ | .null, .string _ | .null, .array _ | .null, .object _
  | .bool _, .null | .bool _, .number _ | .bool _, .string _ | .bool _, .array _
  | .bool _, .object _ | .number _, .null | .number _, .bool _ | .number _, .string _
  | .number _, .array _ | .number _, .object _ | .string _, .null | .string _, .bool _
  | .string _, .number _ | .string _, .array _ | .string _, .object _ | .array _, .null
  | .array _, .bool _ | .array _, .number _ | .array _, .string _ | .array _, .object _
  | .object _, .null | .object _, .bool _ | .object _, .number _ | .object _, .string _
  | .object _, .array _ => .isFalse (by simp)

def decideEqItems : (as bs : List Json) → Decidable (as = bs)
  | [], [] => .isTrue rfl
  | a :: as, b :: bs =>
    match decideEq a b, decideEqItems as bs with
    | .isTrue head, .isTrue tail => .isTrue (by rw [head, tail])
    | .isFalse head, _ => .isFalse (by simp [head])
    | _, .isFalse tail => .isFalse (by simp [tail])
  | [], _ :: _ => .isFalse (by simp)
  | _ :: _, [] => .isFalse (by simp)

def decideEqFields : (as bs : List (String × Json)) → Decidable (as = bs)
  | [], [] => .isTrue rfl
  | (key, a) :: as, (name, b) :: bs =>
    match decEq key name, decideEq a b, decideEqFields as bs with
    | .isTrue key, .isTrue head, .isTrue tail => .isTrue (by rw [key, head, tail])
    | .isFalse key, _, _ => .isFalse (by simp [key])
    | _, .isFalse head, _ => .isFalse (by simp [head])
    | _, _, .isFalse tail => .isFalse (by simp [tail])
  | [], _ :: _ => .isFalse (by simp)
  | _ :: _, [] => .isFalse (by simp)

end

instance : DecidableEq Json := decideEq

/-! ## Sorted documents -/

theorem sortedItems_iff {items : List Json} :
    SortedItems items ↔ ∀ item ∈ items, Sorted item := by
  induction items with
  | nil => simp [SortedItems]
  | cons item items ih => simp [SortedItems, ih]

private theorem sortedFields_iff {fields : List (String × Json)} :
    SortedFields fields ↔ ∀ field ∈ fields, Sorted field.2 := by
  induction fields with
  | nil => simp [SortedFields]
  | cons field fields ih => simp [SortedFields, ih]

theorem sorted_object {fields : List (String × Json)} :
    Sorted (.object fields) ↔ Ascending fields ∧ ∀ field ∈ fields, Sorted field.2 := by
  rw [Sorted, sortedFields_iff, Ascending]

theorem Sorted.getField? {fields : List (String × Json)} (h : Sorted (.object fields))
    {value : Json} (hfield : getField? fields key = some value) : Sorted value :=
  (sorted_object.mp h).2 _ (mem_of_getField? hfield)

theorem Sorted.setField {fields : List (String × Json)} (h : Sorted (.object fields))
    {value : Json} (hvalue : Sorted value) : Sorted (.object (setField fields key value)) := by
  obtain ⟨hascending, hfields⟩ := sorted_object.mp h
  refine sorted_object.mpr ⟨hascending.setField key value, fun field hfield => ?_⟩
  rcases mem_setField hfield with rfl | hfield
  · exact hvalue
  · exact hfields field hfield

/-! ## Normalized documents -/

private theorem sorted_objectOf {fields : List (String × Json)}
    (h : ∀ field ∈ fields, Sorted field.2) :
    Sorted (objectOf fields) := by
  have hfold : ∀ (fields sorted : List (String × Json)), (∀ field ∈ fields, Sorted field.2) →
      Sorted (.object sorted) → Sorted (.object
        (fields.foldl (fun sorted field => setField sorted field.1 field.2) sorted)) := by
    intro fields
    induction fields with
    | nil => exact fun sorted _ hsorted => hsorted
    | cons field fields ih =>
        intro sorted hfields hsorted
        rw [List.forall_mem_cons] at hfields
        exact ih _ hfields.2 (hsorted.setField hfields.1)
  exact hfold fields [] h (sorted_object.mpr ⟨List.Pairwise.nil, by simp⟩)

mutual

theorem sorted_normalize (document : Json) : Sorted document.normalize := by
  cases document with
  | array items => exact sortedItems_iff.mpr (sorted_normalizeItems items)
  | object fields => exact sorted_objectOf (sorted_normalizeFields fields)
  | null => trivial
  | bool => trivial
  | number => trivial
  | string => trivial

theorem sorted_normalizeItems (items : List Json) :
    ∀ item ∈ normalizeItems items, Sorted item := by
  cases items with
  | nil => simp [normalizeItems]
  | cons item items =>
      exact List.forall_mem_cons.mpr ⟨sorted_normalize item, sorted_normalizeItems items⟩

theorem sorted_normalizeFields (fields : List (String × Json)) :
    ∀ field ∈ normalizeFields fields, Sorted field.2 := by
  cases fields with
  | nil => simp [normalizeFields]
  | cons field fields =>
      obtain ⟨key, value⟩ := field
      exact List.forall_mem_cons.mpr ⟨sorted_normalize value, sorted_normalizeFields fields⟩

end

theorem sorted_of_normalize {document : Json} (h : document.normalize = document) :
    Sorted document :=
  h ▸ sorted_normalize document

/-! ## Merged objects -/

def mergeOption : Option Json → Option Json → Option Json
  | none, right => right
  | left, none => left
  | some left, some right => some (merge left right)

theorem mergeOption_none (left : Option Json) : mergeOption left none = left := by
  cases left <;> rfl

theorem getField?_mergeFields {left right : List (String × Json)} (h : Ascending right)
    (key : String) :
    getField? (mergeFields left right) key =
      mergeOption (getField? left key) (getField? right key) := by
  induction right generalizing left with
  | nil => rw [mergeFields, getField?, mergeOption_none]
  | cons field right ih =>
      obtain ⟨name, value⟩ := field
      rw [mergeFields, ih (List.pairwise_cons.mp h).2, getField?_setField, getField?]
      by_cases hname : name = key
      · subst hname
        rw [if_pos rfl, if_pos rfl, h.getField?_eq_none]
        cases getField? left name <;> rfl
      · rw [if_neg (Ne.symm hname), if_neg hname]

theorem Ascending.mergeFields {left right : List (String × Json)} (h : Ascending left) :
    Ascending (mergeFields left right) := by
  induction right generalizing left with
  | nil => exact h
  | cons field right ih =>
      obtain ⟨name, value⟩ := field
      exact ih (h.setField _ _)

/-! ## Merging a document with itself -/

theorem Number.same_refl (number : Number) : number.same number := by
  cases number <;> simp [Number.same, Decimal.Binary64.sameValue]

mutual

theorem same_refl (document : Json) : same document document := by
  cases document with
  | null => simp [same]
  | bool value => simp [same]
  | number value => simp [same, Number.same_refl]
  | string text => simp [same]
  | array items => simp [same, sameItems_refl items]
  | object fields => simp [same, sameFields_refl fields]

theorem sameItems_refl (items : List Json) : sameItems items items := by
  cases items with
  | nil => simp [sameItems]
  | cons item items => simp [sameItems, same_refl item, sameItems_refl items]

theorem sameFields_refl (fields : List (String × Json)) : sameFields fields fields := by
  cases fields with
  | nil => simp [sameFields]
  | cons field fields =>
      obtain ⟨key, value⟩ := field
      simp [sameFields, same_refl value, sameFields_refl fields]

end

theorem addMissing_eq_left {items more : List Json}
    (h : ∀ item ∈ more, items.any (same · item)) : addMissing items more = items := by
  induction more with
  | nil => rfl
  | cons item more ih =>
      rw [List.forall_mem_cons] at h
      rw [addMissing, List.foldl_cons, if_pos h.1]
      exact ih h.2

theorem merge_self : ∀ document : Json, Sorted document → merge document document = document
  | .null, _ => by simp [merge]
  | .bool _, _ => by simp [merge]
  | .number _, _ => by simp [merge]
  | .string _, _ => by simp [merge]
  | .array items, _ => by
      rw [merge, addMissing_eq_left]
      exact fun item hitem => List.any_eq_true.mpr ⟨item, hitem, same_refl item⟩
  | .object fields, h => by
      obtain ⟨hascending, hsorted⟩ := sorted_object.mp h
      rw [merge]
      congr 1
      refine hascending.mergeFields.ext hascending fun key => ?_
      rw [getField?_mergeFields hascending]
      cases hfield : getField? fields key with
      | none => rfl
      | some value =>
          have hmem := mem_of_getField? hfield
          exact congrArg some (merge_self value (hsorted _ hmem))
termination_by document => sizeOf document
decreasing_by
  have := List.sizeOf_lt_of_mem hmem
  simp only [object.sizeOf_spec, Prod.mk.sizeOf_spec] at this ⊢
  omega

end Runbook.Json
