/-!
# First occurrences

Members of a list that were not met before, in the order of their first occurrence.
-/

namespace Runbook

variable {α : Type} [DecidableEq α]

def appendNew (seen : List α) (members : List α) : List α :=
  members.foldl (fun seen member => if member ∈ seen then seen else seen ++ [member]) seen

def firsts (members : List α) : List α := appendNew [] members

theorem appendNew_cons (seen : List α) (member : α) (members : List α) :
    appendNew seen (member :: members) =
      appendNew (if member ∈ seen then seen else seen ++ [member]) members := rfl

theorem mem_appendNew {x : α} (members : List α) (seen : List α) :
    x ∈ appendNew seen members ↔ x ∈ seen ∨ x ∈ members := by
  induction members generalizing seen with
  | nil => simp [appendNew]
  | cons member members ih =>
    rw [appendNew_cons, ih]
    split
    · next old =>
      constructor
      · rintro (known | later)
        · exact .inl known
        · exact .inr (List.mem_cons_of_mem _ later)
      · rintro (known | later)
        · exact .inl known
        · rcases List.mem_cons.1 later with rfl | later
          · exact .inl old
          · exact .inr later
    · simp [or_assoc]

theorem nodup_appendNew (members : List α) {seen : List α} (once : seen.Nodup) :
    (appendNew seen members).Nodup := by
  induction members generalizing seen with
  | nil => exact once
  | cons member members ih =>
    rw [appendNew_cons]
    split
    · exact ih once
    · next new =>
      refine ih (List.nodup_append.2 ⟨once, by simp, ?_⟩)
      intro old known other same
      rw [List.mem_singleton.1 same]
      rintro rfl
      exact new known

theorem subset_appendNew (seen members : List α) : seen ⊆ appendNew seen members :=
  fun _ known => (mem_appendNew _ _).2 (.inl known)

theorem appendNew_append (seen first second : List α) :
    appendNew seen (first ++ second) = appendNew (appendNew seen first) second :=
  List.foldl_append

theorem appendNew_eq (members seen : List α) :
    ∃ extra, appendNew seen members = seen ++ extra ∧ extra ⊆ members := by
  induction members generalizing seen with
  | nil => exact ⟨[], by simp [appendNew], List.nil_subset _⟩
  | cons member members ih =>
    rw [appendNew_cons]
    split
    · obtain ⟨extra, same, old⟩ := ih seen
      exact ⟨extra, same, List.subset_cons_of_subset _ old⟩
    · obtain ⟨extra, same, old⟩ := ih (seen ++ [member])
      exact ⟨member :: extra, by simp [same], List.cons_subset_cons _ old⟩

theorem appendNew_of_nodup {members : List α} (h : members.Nodup)
    (seen : List α) : appendNew seen members = seen ++ members.filter (· ∉ seen) := by
  induction members generalizing seen with
  | nil => simp [appendNew]
  | cons member members ih =>
      obtain ⟨hnew, hrest⟩ := List.nodup_cons.mp h
      rw [appendNew_cons, ih hrest]
      by_cases hknown : member ∈ seen
      · simp [hknown]
      · have hothers : members.filter (· ∉ seen ++ [member]) = members.filter (· ∉ seen) := by
          refine List.filter_congr fun other hother => ?_
          have hdifferent : other ≠ member := fun hsame => hnew (hsame ▸ hother)
          simp [hdifferent]
        rw [if_neg hknown, hothers, List.filter_cons_of_pos (by simpa using hknown)]
        simp

theorem mem_firsts {x : α} {members : List α} : x ∈ firsts members ↔ x ∈ members := by
  simp [firsts, mem_appendNew]

theorem nodup_firsts (members : List α) : (firsts members).Nodup :=
  nodup_appendNew members List.nodup_nil

theorem firsts_concat (members : List α) (member : α) :
    firsts (members ++ [member]) =
      if member ∈ firsts members then firsts members else firsts members ++ [member] := by
  rw [firsts, appendNew_append]
  rfl

private theorem find?_appendNew (p : α → Bool) (seen members : List α) :
    (appendNew seen members).find? p = (seen ++ members).find? p := by
  induction members generalizing seen with
  | nil => simp [appendNew]
  | cons member members ih =>
      rw [appendNew_cons, ih]
      split
      · next hknown =>
        rw [List.find?_append, List.find?_append, List.find?_cons]
        cases hfound : seen.find? p with
        | some first => rfl
        | none =>
            have hmember := List.find?_eq_none.mp hfound member hknown
            simp [hmember]
      · rw [List.append_assoc]
        rfl

theorem find?_firsts (p : α → Bool) (members : List α) :
    (firsts members).find? p = members.find? p :=
  find?_appendNew p [] members

private theorem filterMap_appendNew {β : Type} [DecidableEq β] {view : α → Option β}
    (hview : ∀ first second image, view first = some image → view second = some image →
      first = second) (members seen : List α) :
    (appendNew seen members).filterMap view =
      appendNew (seen.filterMap view) (members.filterMap view) := by
  induction members generalizing seen with
  | nil => rfl
  | cons member members ih =>
      rw [appendNew_cons, ih, List.filterMap_cons]
      cases himage : view member with
      | none => split <;> simp [himage]
      | some image =>
          have hknown : image ∈ seen.filterMap view ↔ member ∈ seen := by
            simp only [List.mem_filterMap]
            constructor
            · rintro ⟨other, hother, hsame⟩
              exact hview _ _ image hsame himage ▸ hother
            · exact fun hmember => ⟨member, hmember, himage⟩
          rw [appendNew_cons]
          simp only [hknown]
          split <;> simp [himage]

theorem filterMap_firsts {β : Type} [DecidableEq β] {view : α → Option β}
    (hview : ∀ first second image, view first = some image → view second = some image →
      first = second) (members : List α) :
    (firsts members).filterMap view = firsts (members.filterMap view) :=
  filterMap_appendNew hview members []

private theorem length_appendNew_le (members : List α) (seen : List α) :
    (appendNew seen members).length ≤ seen.length + members.length := by
  induction members generalizing seen with
  | nil => simp [appendNew]
  | cons member members ih =>
    rw [appendNew_cons, List.length_cons]
    split
    · exact Nat.le_trans (ih seen) (by omega)
    · exact Nat.le_trans (ih _) (by simp; omega)

theorem length_firsts_le (members : List α) : (firsts members).length ≤ members.length := by
  simpa [firsts] using length_appendNew_le members []

end Runbook
