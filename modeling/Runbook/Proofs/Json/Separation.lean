import Runbook.Proofs.Json.Writes

/-!
# Merging separate writes

Two documents that come from one by unrelated writes are merged into the document with the writes of
both, as long as the merge keeps each written field: a field that only one side wrote must be missing
on the other side, or the two values of the field must merge to the written one.
-/

namespace Runbook.Json

/-- Whether a merge keeps the field that the left document has at the end of some keys: the right
document has only objects on the way, and no value there, or one that adds nothing to the left one. -/
def KeepsLeft (left right : Json) (parts : List String) : Prop :=
  blocks parts right = false ∧
  ∀ other, valueAt? parts right = some other →
    ∃ own, valueAt? parts left = some own ∧ merge own other = own

/-- Whether a merge keeps the field that the right document has at the end of some keys: the left
document has no value there, or one that is replaced by the right one. -/
def KeepsRight (left right : Json) (parts : List String) : Prop :=
  ∀ other, valueAt? parts left = some other →
    ∃ own, valueAt? parts right = some own ∧ merge other own = own

/-! ## Nodes of documents -/

def waysOn (part : String) (ways : List (List String)) : List (List String) :=
  ways.filterMap fun
    | [] => none
    | first :: rest => if first = part then some rest else none

theorem mem_waysOn {part : String} {ways : List (List String)} {rest : List String} :
    rest ∈ waysOn part ways ↔ part :: rest ∈ ways := by
  rw [waysOn, List.mem_filterMap]
  constructor
  · rintro ⟨way, hway, hrest⟩
    cases way with
    | nil => cases hrest
    | cons first others =>
        by_cases hfirst : first = part
        · simp only [hfirst, if_true, Option.some.injEq] at hrest
          rw [← hfirst, ← hrest, hfirst] at *
          exact hway
        · simp [hfirst] at hrest
  · intro hway
    exact ⟨_, hway, by simp⟩

/-- Nodes at one place of four documents: one with all writes, one with those of each side.  `lefts`
and `rights` are the ways from there to what each side wrote. -/
structure Apart (lefts rights : List (List String)) (left right both : Option Json) : Prop where
  separate : ∀ own ∈ lefts, ∀ other ∈ rights, Unrelated own other
  left_elsewhere : ∀ way, (∀ other ∈ rights, Unrelated way other) →
    both.bind (valueAt? way) = left.bind (valueAt? way)
  right_elsewhere : ∀ way, (∀ own ∈ lefts, Unrelated way own) →
    both.bind (valueAt? way) = right.bind (valueAt? way)
  left_objects : ∀ own ∈ lefts, ∀ way, way <+: own → (∀ earlier ∈ lefts, ¬ earlier <+: way) →
    (∃ fields, left.bind (valueAt? way) = some (.object fields)) ∧
      ∃ fields, both.bind (valueAt? way) = some (.object fields)
  right_objects : ∀ own ∈ rights, ∀ way, way <+: own → (∀ earlier ∈ rights, ¬ earlier <+: way) →
    (∃ fields, right.bind (valueAt? way) = some (.object fields)) ∧
      ∃ fields, both.bind (valueAt? way) = some (.object fields)
  left_open : ∀ own ∈ lefts, ∀ value, right = some value → blocks own value = false
  left_kept : ∀ own ∈ lefts, ∀ other, right.bind (valueAt? own) = some other →
    ∃ value, left.bind (valueAt? own) = some value ∧ merge value other = value
  right_kept : ∀ own ∈ rights, ∀ other, left.bind (valueAt? own) = some other →
    ∃ value, right.bind (valueAt? own) = some value ∧ merge other value = value
  left_sorted : ∀ value, left = some value → Sorted value
  right_sorted : ∀ value, right = some value → Sorted value
  both_sorted : ∀ value, both = some value → Sorted value

theorem unrelated_cons {part : String} {way : List String} {ways : List (List String)}
    (hnil : [] ∉ ways) (h : ∀ other ∈ waysOn part ways, Unrelated way other) :
    ∀ other ∈ ways, Unrelated (part :: way) other := by
  intro other hother
  cases other with
  | nil => exact absurd hother hnil
  | cons first rest =>
      by_cases hfirst : first = part
      · subst hfirst
        obtain ⟨hforth, hback⟩ := h rest (mem_waysOn.mpr hother)
        exact ⟨fun hbegins => hforth ((List.prefix_cons_inj first).mp hbegins),
          fun hbegins => hback ((List.prefix_cons_inj first).mp hbegins)⟩
      · exact ⟨fun hbegins => hfirst (List.cons_prefix_cons.mp hbegins).1.symm,
          fun hbegins => hfirst (List.cons_prefix_cons.mp hbegins).1⟩

theorem not_prefix_cons {part : String} {way : List String} {ways : List (List String)}
    (hnil : [] ∉ ways) (h : ∀ earlier ∈ waysOn part ways, ¬ earlier <+: way) :
    ∀ earlier ∈ ways, ¬ earlier <+: part :: way := by
  intro earlier hearlier hbegins
  cases earlier with
  | nil => exact hnil hearlier
  | cons first rest =>
      obtain ⟨rfl, hrest⟩ := List.cons_prefix_cons.mp hbegins
      exact h rest (mem_waysOn.mpr hearlier) hrest

section

variable {lefts rights : List (List String)} {left right both : Option Json}

theorem Apart.child {leftFields rightFields bothFields : List (String × Json)}
    (h : Apart lefts rights (some (.object leftFields)) (some (.object rightFields))
      (some (.object bothFields)))
    (hlefts : [] ∉ lefts) (hrights : [] ∉ rights) (part : String) :
    Apart (waysOn part lefts) (waysOn part rights) (getField? leftFields part)
      (getField? rightFields part) (getField? bothFields part) where
  separate own hown other hother :=
    (h.separate _ (mem_waysOn.mp hown) _ (mem_waysOn.mp hother)).tail
  left_elsewhere way hway := h.left_elsewhere (part :: way) (unrelated_cons hrights hway)
  right_elsewhere way hway := h.right_elsewhere (part :: way) (unrelated_cons hlefts hway)
  left_objects own hown way hway hfirst :=
    h.left_objects _ (mem_waysOn.mp hown) (part :: way) ((List.prefix_cons_inj part).mpr hway)
      (not_prefix_cons hlefts hfirst)
  right_objects own hown way hway hfirst :=
    h.right_objects _ (mem_waysOn.mp hown) (part :: way) ((List.prefix_cons_inj part).mpr hway)
      (not_prefix_cons hrights hfirst)
  left_open own hown value hvalue := by
    have hopen := h.left_open _ (mem_waysOn.mp hown) _ rfl
    rw [blocks, hvalue] at hopen
    exact hopen
  left_kept own hown := h.left_kept _ (mem_waysOn.mp hown)
  right_kept own hown := h.right_kept _ (mem_waysOn.mp hown)
  left_sorted _ hvalue := (h.left_sorted _ rfl).getField? hvalue
  right_sorted _ hvalue := (h.right_sorted _ rfl).getField? hvalue
  both_sorted _ hvalue := (h.both_sorted _ rfl).getField? hvalue

theorem Apart.left_end (h : Apart lefts rights left right both) (hend : [] ∈ lefts) :
    mergeOption left right = both := by
  have hnone : rights = [] := by
    refine List.eq_nil_iff_forall_not_mem.mpr fun other hother => ?_
    exact (h.separate _ hend _ hother).1 List.nil_prefix
  have hsame : both = left := by
    have := h.left_elsewhere [] (by simp [hnone])
    simpa [valueAt?] using this
  cases hright : right with
  | none => rw [mergeOption_none, hsame]
  | some other =>
      obtain ⟨value, hvalue, hmerge⟩ := h.left_kept _ hend other (by rw [hright]; rfl)
      have hleft : left = some value := by simpa [valueAt?] using hvalue
      rw [hsame, hleft, mergeOption, hmerge]

theorem Apart.right_end (h : Apart lefts rights left right both) (hend : [] ∈ rights) :
    mergeOption left right = both := by
  have hnone : lefts = [] := by
    refine List.eq_nil_iff_forall_not_mem.mpr fun own hown => ?_
    exact (h.separate _ hown _ hend).2 List.nil_prefix
  have hsame : both = right := by
    have := h.right_elsewhere [] (by simp [hnone])
    simpa [valueAt?] using this
  cases hleft : left with
  | none => rw [mergeOption, hsame]
  | some other =>
      obtain ⟨value, hvalue, hmerge⟩ := h.right_kept _ hend other (by rw [hleft]; rfl)
      have hright : right = some value := by simpa [valueAt?] using hvalue
      rw [hsame, hright, mergeOption, hmerge]

theorem Apart.untouched (h : Apart [] [] left right both) : mergeOption left right = both := by
  have hleft : both = left := by simpa [valueAt?] using h.left_elsewhere [] (by simp)
  have hright : both = right := by simpa [valueAt?] using h.right_elsewhere [] (by simp)
  rw [← hleft, ← hright, hleft]
  cases hvalue : left with
  | none => rfl
  | some value => rw [mergeOption, merge_self value (h.left_sorted value hvalue)]

private theorem merge_object_of_ne {value : Json} (h : ¬ ∃ fields, value = .object fields)
    (fields : List (String × Json)) : merge value (.object fields) = .object fields := by
  cases value with
  | object own => exact absurd ⟨own, rfl⟩ h
  | null => rfl
  | bool => rfl
  | number => rfl
  | string => rfl
  | array => rfl

private theorem blocks_cons_of_ne {value : Json} (h : ¬ ∃ fields, value = .object fields)
    (part : String)
    (parts : List String) : blocks (part :: parts) value = true := by
  cases value with
  | object own => exact absurd ⟨own, rfl⟩ h
  | null => rfl
  | bool => rfl
  | number => rfl
  | string => rfl
  | array => rfl

private theorem merge_objects {leftFields rightFields bothFields : List (String × Json)}
    (hleft : Sorted (.object leftFields)) (hright : Sorted (.object rightFields))
    (hboth : Sorted (.object bothFields))
    (hchildren : ∀ part, mergeOption (getField? leftFields part) (getField? rightFields part) =
      getField? bothFields part) :
    mergeOption (some (.object leftFields)) (some (.object rightFields)) =
      some (.object bothFields) := by
  have hascending := (sorted_object.mp hright).1
  rw [mergeOption, merge]
  congr 2
  refine (sorted_object.mp hleft).1.mergeFields.ext (sorted_object.mp hboth).1 fun part => ?_
  rw [getField?_mergeFields hascending, hchildren]

/-- Nodes with unrelated writes merge into the node with all writes, by induction on the length of
the ways to the writes. -/
theorem Apart.merge (length : Nat) (h : Apart lefts rights left right both)
    (hlefts : ∀ own ∈ lefts, own.length ≤ length) (hrights : ∀ own ∈ rights, own.length ≤ length) :
    mergeOption left right = both := by
  induction length generalizing lefts rights left right both with
  | zero =>
      cases lefts with
      | cons own lefts =>
          have hown : own = [] := List.eq_nil_of_length_eq_zero
            (Nat.eq_zero_of_le_zero (hlefts own List.mem_cons_self))
          exact h.left_end (by simp [hown])
      | nil =>
          cases rights with
          | nil => exact h.untouched
          | cons own rights =>
              have hown : own = [] := List.eq_nil_of_length_eq_zero
                (Nat.eq_zero_of_le_zero (hrights own List.mem_cons_self))
              exact h.right_end (by simp [hown])
  | succ length ih =>
      by_cases hleftEnd : [] ∈ lefts
      · exact h.left_end hleftEnd
      by_cases hrightEnd : [] ∈ rights
      · exact h.right_end hrightEnd
      have hfirst : ∀ ways : List (List String), [] ∉ ways →
          ∀ earlier ∈ ways, ¬ earlier <+: [] := by
        intro ways hnil earlier hearlier hbegins
        exact hnil (List.prefix_nil.mp hbegins ▸ hearlier)
      have hdescend : ∀ leftFields rightFields bothFields, left = some (.object leftFields) →
          right = some (.object rightFields) → both = some (.object bothFields) →
          mergeOption left right = both := by
        rintro leftFields rightFields bothFields rfl rfl rfl
        refine merge_objects (h.left_sorted _ rfl) (h.right_sorted _ rfl) (h.both_sorted _ rfl)
          fun part => ih (h.child hleftEnd hrightEnd part) ?_ ?_
        · exact fun own hown => Nat.le_of_succ_le_succ (hlefts _ (mem_waysOn.mp hown))
        · exact fun own hown => Nat.le_of_succ_le_succ (hrights _ (mem_waysOn.mp hown))
      by_cases hlefts : lefts = []
      · by_cases hrights : rights = []
        · subst hlefts hrights
          exact h.untouched
        · obtain ⟨own, hown⟩ := List.exists_mem_of_ne_nil _ hrights
          obtain ⟨⟨rightFields, hright⟩, ⟨bothFields, hboth⟩⟩ :=
            h.right_objects own hown [] List.nil_prefix (hfirst rights hrightEnd)
          have hsame : both = right := by
            simpa [valueAt?] using h.right_elsewhere [] (by simp [hlefts])
          simp only [valueAt?, Option.bind_fun_some] at hright hboth
          cases hvalue : left with
          | none => rw [mergeOption, hsame]
          | some value =>
              by_cases hobject : ∃ fields, value = .object fields
              · obtain ⟨leftFields, rfl⟩ := hobject
                rw [← hvalue]
                exact hdescend _ _ _ hvalue hright hboth
              · rw [hsame, hright, mergeOption, merge_object_of_ne hobject]
      · -- the left side made an object here, so the right one is an object or missing
        obtain ⟨own, hown⟩ := List.exists_mem_of_ne_nil _ hlefts
        obtain ⟨⟨leftFields, hleft⟩, ⟨bothFields, hboth⟩⟩ :=
          h.left_objects own hown [] List.nil_prefix (hfirst lefts hleftEnd)
        simp only [valueAt?, Option.bind_fun_some] at hleft hboth
        cases hvalue : right with
        | none =>
            have hnone : rights = [] := by
              refine List.eq_nil_iff_forall_not_mem.mpr fun other hother => ?_
              obtain ⟨⟨fields, hfields⟩, -⟩ :=
                h.right_objects other hother [] List.nil_prefix (hfirst rights hrightEnd)
              simp [hvalue] at hfields
            rw [mergeOption_none]
            simpa [valueAt?] using (h.left_elsewhere [] (by simp [hnone])).symm
        | some value =>
            by_cases hobject : ∃ fields, value = .object fields
            · obtain ⟨rightFields, rfl⟩ := hobject
              rw [← hvalue]
              exact hdescend _ _ _ hleft hvalue hboth
            · have hopen := h.left_open own hown value hvalue
              cases own with
              | nil => exact absurd hown hleftEnd
              | cons part parts =>
                  rw [blocks_cons_of_ne hobject] at hopen
                  cases hopen

end

/-! ## Documents -/

theorem length_le_flatten {ways : List (List String)} {way : List String} (h : way ∈ ways) :
    way.length ≤ ways.flatten.length :=
  (List.sublist_flatten_of_mem h).length_le

theorem merge_afterAll? {writes others : List FieldWrite} {base left right both : Json}
    (hseparate : Separate writes others) (hwrites : ∀ write ∈ writes, write.KeepsSorted)
    (hothers : ∀ write ∈ others, write.KeepsSorted) (hsorted : Sorted base)
    (hleft : afterAll? writes base = some left) (hright : afterAll? others base = some right)
    (hbothLeft : afterAll? others left = some both)
    (hbothRight : afterAll? writes right = some both)
    (hkeepLeft : ∀ write ∈ writes, KeepsLeft left right write.parts)
    (hkeepRight : ∀ write ∈ others, KeepsRight left right write.parts) :
    merge left right = both := by
  have hleftSorted := sorted_afterAll? hwrites hleft hsorted
  have hrightSorted := sorted_afterAll? hothers hright hsorted
  have hbothSorted := sorted_afterAll? hothers hbothLeft hleftSorted
  have hwriteParts : ∀ way, (∀ own ∈ writes.map FieldWrite.parts, ¬ own <+: way) →
      ∀ write ∈ writes, ¬ write.parts <+: way :=
    fun way hway write hwrite => hway _ (List.mem_map_of_mem hwrite)
  have hotherParts : ∀ way, (∀ own ∈ others.map FieldWrite.parts, ¬ own <+: way) →
      ∀ write ∈ others, ¬ write.parts <+: way :=
    fun way hway write hwrite => hway _ (List.mem_map_of_mem hwrite)
  have hapart : Apart (writes.map FieldWrite.parts) (others.map FieldWrite.parts) (some left)
      (some right) (some both) := by
    refine ⟨?_, ?_, ?_, ?_, ?_, ?_, ?_, ?_, ?_, ?_, ?_⟩
    · simpa [Separate] using hseparate
    · intro way hway
      exact valueAt?_afterAll? (fun write hwrite => hway _ (List.mem_map_of_mem hwrite)) hbothLeft
    · intro way hway
      exact valueAt?_afterAll? (fun write hwrite => hway _ (List.mem_map_of_mem hwrite)) hbothRight
    · intro own hown way hbegins hfirst
      obtain ⟨write, hwrite, rfl⟩ := List.mem_map.mp hown
      exact ⟨object_of_afterAll? ⟨write, hwrite, hbegins⟩ (hwriteParts way hfirst) hleft,
        object_of_afterAll? ⟨write, hwrite, hbegins⟩ (hwriteParts way hfirst) hbothRight⟩
    · intro own hown way hbegins hfirst
      obtain ⟨write, hwrite, rfl⟩ := List.mem_map.mp hown
      exact ⟨object_of_afterAll? ⟨write, hwrite, hbegins⟩ (hotherParts way hfirst) hright,
        object_of_afterAll? ⟨write, hwrite, hbegins⟩ (hotherParts way hfirst) hbothLeft⟩
    · rintro own hown value ⟨⟩
      obtain ⟨write, hwrite, rfl⟩ := List.mem_map.mp hown
      exact (hkeepLeft write hwrite).1
    · intro own hown
      obtain ⟨write, hwrite, rfl⟩ := List.mem_map.mp hown
      exact (hkeepLeft write hwrite).2
    · intro own hown
      obtain ⟨write, hwrite, rfl⟩ := List.mem_map.mp hown
      exact hkeepRight write hwrite
    · rintro value ⟨⟩
      exact hleftSorted
    · rintro value ⟨⟩
      exact hrightSorted
    · rintro value ⟨⟩
      exact hbothSorted
  have hmerged := hapart.merge
    (writes.map FieldWrite.parts ++ others.map FieldWrite.parts).flatten.length
    (fun own hown => length_le_flatten (List.mem_append_left _ hown))
    (fun own hown => length_le_flatten (List.mem_append_right _ hown))
  exact Option.some.inj hmerged

end Runbook.Json
