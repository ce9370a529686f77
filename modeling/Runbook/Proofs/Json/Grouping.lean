import Runbook.Proofs.Execution.Outcome
import Runbook.Proofs.Json.Absorption

/-!
# Grouping merges

Documents of agreeing shapes can be merged in any grouping, as long as their order stays: it makes
no difference where the branches of a plan join.
-/

namespace Runbook.Json

/-! ## Agreeing documents -/

/-- Two objects whose values under common keys agree, two arrays, or two documents that are
neither. -/
inductive Agree : Json → Json → Prop
  | scalars {left right : Json} (hleft : left.shape = .scalar) (hright : right.shape = .scalar) :
      Agree left right
  | arrays (items more : List Json) : Agree (.array items) (.array more)
  | objects {left right : List (String × Json)}
      (common : ∀ key own other, getField? left key = some own →
        getField? right key = some other → Agree own other) :
      Agree (.object left) (.object right)

namespace Agree

private theorem shape_eq {left right : Json} (h : Agree left right) : left.shape = right.shape := by
  cases h with
  | scalars hleft hright => rw [hleft, hright]
  | arrays => rfl
  | objects => rfl

theorem symm {left right : Json} (h : Agree left right) : Agree right left := by
  induction h with
  | scalars hleft hright => exact .scalars hright hleft
  | arrays items more => exact .arrays more items
  | objects _ ih => exact .objects fun key own other hown hother => ih key other own hother hown

theorem of_array {left : Json} {items : List Json} (h : Agree left (.array items)) :
    ∃ own, left = .array own := by
  cases h with
  | scalars _ hright => cases hright
  | arrays own => exact ⟨own, rfl⟩

theorem of_object {left : Json} {fields : List (String × Json)} (h : Agree left (.object fields)) :
    ∃ own, left = .object own ∧ ∀ key value other, getField? own key = some value →
      getField? fields key = some other → Agree value other := by
  cases h with
  | scalars _ hright => cases hright
  | objects common => exact ⟨_, rfl, common⟩

theorem objects_of_mem {left right : List (String × Json)}
    (h : ∀ own ∈ left, ∀ other ∈ right, own.1 = other.1 → Agree own.2 other.2) :
    Agree (.object left) (.object right) :=
  .objects fun _ _ _ hown hother => h _ (mem_of_getField? hown) _ (mem_of_getField? hother) rfl

theorem merge_right {document left right : Json} (hright : Sorted right)
    (hleftAgrees : Agree document left) (hrightAgrees : Agree document right) :
    Agree document (merge left right) := by
  induction left, right using mergeInduction generalizing document with
  | replaced left right hreplaces => rwa [merge_of_replaces hreplaces]
  | arrays items more =>
      obtain ⟨own, rfl⟩ := hleftAgrees.of_array
      rw [merge]
      exact .arrays _ _
  | objects left right ih =>
      obtain ⟨own, rfl, hcommonLeft⟩ := hleftAgrees.of_object
      obtain ⟨_, ⟨⟩, hcommonRight⟩ := hrightAgrees.of_object
      rw [merge]
      refine .objects fun key value other hvalue hother => ?_
      rcases mergedField (sorted_object.mp hright).1 hother with
        hbefore | hafter | ⟨before, after, hbefore, hafter, rfl⟩
      · exact hcommonLeft key value other hvalue hbefore
      · exact hcommonRight key value other hvalue hafter
      · exact ih key before after hbefore hafter (hright.getField? hafter)
          (hcommonLeft key value before hvalue hbefore)
          (hcommonRight key value after hvalue hafter)

end Agree

/-! ## Three documents -/

private theorem mergeOption_assoc {first second third : Option Json}
    (h : ∀ a b c, first = some a → second = some b → third = some c →
      merge (merge a b) c = merge a (merge b c)) :
    mergeOption (mergeOption first second) third =
      mergeOption first (mergeOption second third) := by
  cases first with
  | none => simp [mergeOption]
  | some a =>
      cases second with
      | none => simp [mergeOption]
      | some b =>
          cases third with
          | none => simp [mergeOption]
          | some c => simp [mergeOption, h a b c rfl rfl rfl]

theorem merge_assoc {a b c : Json} (ha : Sorted a) (hb : Sorted b) (hc : Sorted c)
    (hab : Agree a b) (hac : Agree a c) (hbc : Agree b c) :
    merge (merge a b) c = merge a (merge b c) := by
  induction b, c using mergeInduction generalizing a with
  | replaced b c hreplaces =>
      have hscalar : c.shape = .scalar := hreplaces.resolve_right (not_not_intro hbc.shape_eq)
      have hleft : ∀ left, merge left c = c := fun left => merge_of_replaces (.inl hscalar)
      rw [hleft, hleft, hleft]
  | arrays items more =>
      obtain ⟨own, rfl⟩ := hab.of_array
      simp only [merge, addMissing_assoc]
  | objects second third ih =>
      obtain ⟨first, rfl, hfirstSecond⟩ := hab.of_object
      obtain ⟨_, ⟨⟩, hfirstThird⟩ := hac.of_object
      obtain ⟨_, ⟨⟩, hsecondThird⟩ := hbc.of_object
      have hfirst := (sorted_object.mp ha).1
      have hsecond := (sorted_object.mp hb).1
      have hthird := (sorted_object.mp hc).1
      simp only [merge]
      refine object_ext hfirst.mergeFields.mergeFields hfirst.mergeFields fun key => ?_
      simp only [getField?_mergeFields hthird, getField?_mergeFields hsecond,
        getField?_mergeFields hsecond.mergeFields]
      refine mergeOption_assoc fun x y z hx hy hz => ?_
      exact ih key y z hy hz (ha.getField? hx) (hb.getField? hy) (hc.getField? hz)
        (hfirstSecond key x y hx hy) (hfirstThird key x z hx hz) (hsecondThird key y z hy hz)

/-! ## Any number of documents -/

section

variable {first second : Json} {rest others : List Json} {groups : List (List Json)}

theorem sorted_foldl_merge (hfirst : Sorted first) (hrest : ∀ document ∈ rest, Sorted document) :
    Sorted (rest.foldl merge first) := by
  induction rest generalizing first with
  | nil => exact hfirst
  | cons second rest ih =>
      rw [List.forall_mem_cons] at hrest
      exact ih (sorted_merge hfirst hrest.1) hrest.2

private theorem agree_foldl_merge {document : Json} (hrest : ∀ other ∈ rest, Sorted other)
    (hagree : ∀ other ∈ first :: rest, Agree document other) :
    Agree document (rest.foldl merge first) := by
  induction rest generalizing first with
  | nil => exact hagree first List.mem_cons_self
  | cons second rest ih =>
      simp only [List.forall_mem_cons] at hrest hagree
      obtain ⟨hfirst, hsecond, hothers⟩ := hagree
      exact ih hrest.2 (List.forall_mem_cons.mpr ⟨hfirst.merge_right hrest.1 hsecond, hothers⟩)

theorem pairwise_foldl_merge (hrest : ∀ document ∈ rest, Sorted document)
    (hagree : (first :: rest ++ others).Pairwise Agree) :
    (rest.foldl merge first :: others).Pairwise Agree := by
  obtain ⟨-, hothers, hacross⟩ := List.pairwise_append.mp hagree
  refine List.pairwise_cons.mpr ⟨fun other hother => ?_, hothers⟩
  exact (agree_foldl_merge hrest fun own hown => (hacross own hown other hother).symm).symm

private theorem merge_foldl_merge (hfirst : Sorted first)
    (hsorted : ∀ document ∈ second :: rest, Sorted document)
    (hagree : (first :: second :: rest).Pairwise Agree) :
    merge first (rest.foldl merge second) = (second :: rest).foldl merge first := by
  induction rest generalizing second with
  | nil => rfl
  | cons third rest ih =>
      simp only [List.forall_mem_cons] at hsorted
      obtain ⟨hsecond, hthird, hrest⟩ := hsorted
      have hassoc : merge (merge first second) third = merge first (merge second third) := by
        simp only [List.pairwise_cons, List.forall_mem_cons] at hagree
        exact merge_assoc hfirst hsecond hthird hagree.1.1 hagree.1.2.1 hagree.2.1.1
      have hmerged : (first :: merge second third :: rest).Pairwise Agree := by
        have hthirds : ∀ document ∈ [third], Sorted document := by simpa using hthird
        have hpairs : (merge second third :: rest).Pairwise Agree :=
          pairwise_foldl_merge hthirds (List.pairwise_cons.mp hagree).2
        refine List.pairwise_cons.mpr ⟨?_, hpairs⟩
        simp only [List.pairwise_cons, List.forall_mem_cons] at hagree ⊢
        exact ⟨hagree.1.1.merge_right hthird hagree.1.2.1, hagree.1.2.2⟩
      have hinner := ih (List.forall_mem_cons.mpr ⟨sorted_merge hsecond hthird, hrest⟩) hmerged
      simpa [List.foldl_cons, hassoc] using hinner

private theorem foldl_merge_groups (input : Json) (hgroups : ∀ group ∈ groups, group ≠ [])
    (hfirst : Sorted first) (hsorted : ∀ document ∈ groups.flatten, Sorted document)
    (hagree : (first :: groups.flatten).Pairwise Agree) :
    (groups.map (combine merge input)).foldl merge first = groups.flatten.foldl merge first := by
  induction groups generalizing first with
  | nil => rfl
  | cons group groups ih =>
      rw [List.forall_mem_cons] at hgroups
      rw [List.flatten_cons] at hagree ⊢
      rw [List.flatten_cons, List.forall_mem_append] at hsorted
      cases group with
      | nil => exact absurd rfl hgroups.1
      | cons second rest =>
          rw [← List.cons_append] at hagree
          have hgroup := (List.pairwise_append.mp hagree).1
          rw [List.map_cons, List.foldl_cons, combine, merge_foldl_merge hfirst hsorted.1 hgroup,
            List.foldl_append]
          exact ih hgroups.2 (sorted_foldl_merge hfirst hsorted.1) hsorted.2
            (pairwise_foldl_merge hsorted.1 hagree)

private theorem combine_groups (input : Json) (hgroups : ∀ group ∈ groups, group ≠ [])
    (hsorted : ∀ document ∈ groups.flatten, Sorted document)
    (hagree : groups.flatten.Pairwise Agree) :
    combine merge input (groups.map (combine merge input)) =
      combine merge input groups.flatten := by
  cases groups with
  | nil => rfl
  | cons group groups =>
      rw [List.forall_mem_cons] at hgroups
      rw [List.flatten_cons] at hagree ⊢
      rw [List.flatten_cons, List.forall_mem_append] at hsorted
      cases group with
      | nil => exact absurd rfl hgroups.1
      | cons first rest =>
          obtain ⟨hfirst, hrest⟩ := List.forall_mem_cons.mp hsorted.1
          rw [List.map_cons, combine, combine, List.cons_append, combine, List.foldl_append]
          exact foldl_merge_groups input hgroups.2 (sorted_foldl_merge hfirst hrest) hsorted.2
            (pairwise_foldl_merge hrest hagree)

end

/-! ## Joins -/

structure Join where
  key : Key
  branches : List (Key × Json)

namespace Join

def documents (join : Join) : List Json := join.branches.map Prod.snd

def outputs (join : Join) : List (Key × Except ExecutionError Json) :=
  join.branches.map fun branch => (branch.1, .ok branch.2)

def output (input : Json) (join : Join) : Key × Except ExecutionError Json :=
  (join.key, keyOutcome merge input join.key [] join.outputs)

end Join

theorem gather_finished (branches : List (Key × Json)) :
    gather (branches.map fun branch => (branch.1, .ok branch.2)) =
      .ok (branches.map Prod.snd) := by
  induction branches with
  | nil => rfl
  | cons branch branches ih => simp [gather, ih, Except.map]

theorem Join.output_eq (input : Json) (join : Join) :
    join.output input = (join.key, .ok (combine merge input join.documents)) := by
  rw [Join.output, keyOutcome, Join.outputs, gather_finished]
  rfl

theorem finalOutcome_finished (input : Json) (branches : List (Key × Json)) :
    finalOutcome merge input (branches.map fun branch => (branch.1, .ok branch.2)) =
      .ok (combine merge input (branches.map Prod.snd)) := by
  rw [finalOutcome, gather_finished]

/-- Three documents of pairwise agreeing shapes merge alike in both groupings; and branches with
such documents give the same result whether they are merged at joins first or all at once. -/
theorem merges_in_any_grouping :
    (∀ a b c : Json, Sorted a → Sorted b → Sorted c → Agree a b → Agree a c → Agree b c →
      merge (merge a b) c = merge a (merge b c)) ∧
    ∀ (input : Json) (joins : List Join), (∀ join ∈ joins, join.branches ≠ []) →
      (∀ document ∈ joins.flatMap Join.documents, Sorted document) →
      (joins.flatMap Join.documents).Pairwise Agree →
      finalOutcome merge input (joins.map (Join.output input)) =
        finalOutcome merge input (joins.flatMap Join.outputs) := by
  refine ⟨fun a b c ha hb hc hab hac hbc => merge_assoc ha hb hc hab hac hbc, ?_⟩
  intro input joins hjoins hsorted hagree
  have hnonempty : ∀ group ∈ joins.map Join.documents, group ≠ [] := by
    intro group hgroup
    obtain ⟨join, hjoin, rfl⟩ := List.mem_map.mp hgroup
    simpa [Join.documents] using hjoins join hjoin
  have hgrouped : combine merge input (joins.map fun join => combine merge input join.documents) =
      combine merge input (joins.flatMap Join.documents) := by
    rw [List.flatMap_def] at *
    rw [← combine_groups input hnonempty hsorted hagree, List.map_map]
    rfl
  have hjoined : joins.map (Join.output input) =
      (joins.map fun join => (join.key, combine merge input join.documents)).map
        fun branch => (branch.1, .ok branch.2) := by
    simp [Join.output_eq]
  have hdirect : joins.flatMap Join.outputs =
      (joins.flatMap Join.branches).map fun branch => (branch.1, .ok branch.2) := by
    rw [List.map_flatMap]
    rfl
  rw [hjoined, hdirect, finalOutcome_finished, finalOutcome_finished, List.map_map,
    List.map_flatMap]
  exact congrArg Except.ok hgrouped

def draftBranch : Json :=
  .object [("log", .array [.string "a", .string "a"]), ("meta", .object [("x", .array [])]),
    ("owner", .null)]

def reviewBranch : Json :=
  .object [("log", .array [.string "b", .string "a"]),
    ("meta", .object [("x", .array [.null]), ("y", .object [])]), ("status", .string "reviewed")]

def releaseBranch : Json :=
  .object [("log", .array [.string "c", .string "b"]),
    ("meta", .object [("y", .object [("z", .bool true)])]), ("status", .bool false)]

theorem merges_in_any_grouping_branches :
    Sorted draftBranch ∧ Sorted reviewBranch ∧ Sorted releaseBranch ∧
      Agree draftBranch reviewBranch ∧ Agree draftBranch releaseBranch ∧
      Agree reviewBranch releaseBranch ∧
      merge (merge draftBranch reviewBranch) releaseBranch =
        .object [("log", .array [.string "a", .string "a", .string "b", .string "c"]),
          ("meta", .object [("x", .array [.null]), ("y", .object [("z", .bool true)])]),
          ("owner", .null), ("status", .bool false)] ∧
      merge (merge draftBranch reviewBranch) releaseBranch =
        merge draftBranch (merge reviewBranch releaseBranch) ∧
      ∃ joins : List Join, joins.map Join.documents =
          [[draftBranch, reviewBranch], [releaseBranch]] ∧
        (∀ join ∈ joins, join.branches ≠ []) ∧
        (∀ document ∈ joins.flatMap Join.documents, Sorted document) ∧
        (joins.flatMap Join.documents).Pairwise Agree ∧
        finalOutcome merge .null (joins.map (Join.output .null)) =
          finalOutcome merge .null (joins.flatMap Join.outputs) := by
  have hdraft : Sorted draftBranch := sorted_of_normalize (by decide +kernel)
  have hreview : Sorted reviewBranch := sorted_of_normalize (by decide +kernel)
  have hrelease : Sorted releaseBranch := sorted_of_normalize (by decide +kernel)
  have hdraftReview : Agree draftBranch reviewBranch := by
    refine .objects_of_mem ?_
    simp [Agree.arrays, Agree.objects_of_mem]
  have hdraftRelease : Agree draftBranch releaseBranch := by
    refine .objects_of_mem ?_
    simp [Agree.arrays, Agree.objects_of_mem]
  have hreviewRelease : Agree reviewBranch releaseBranch := by
    have hstatus : Agree (.string "reviewed") (.bool false) := .scalars rfl rfl
    refine .objects_of_mem ?_
    simp [Agree.arrays, Agree.objects_of_mem, hstatus]
  obtain ⟨hassoc, hgroups⟩ := merges_in_any_grouping
  let joins : List Join :=
    [⟨.constant "joined", [(.constant "draft", draftBranch), (.constant "review", reviewBranch)]⟩,
      ⟨.constant "other", [(.constant "release", releaseBranch)]⟩]
  have hbranches : ∀ join ∈ joins, join.branches ≠ [] := by simp [joins]
  have hsorted : ∀ document ∈ joins.flatMap Join.documents, Sorted document := by
    simp [joins, Join.documents, hdraft, hreview, hrelease]
  have hagree : (joins.flatMap Join.documents).Pairwise Agree := by
    simp [joins, Join.documents, hdraftReview, hdraftRelease, hreviewRelease]
  exact ⟨hdraft, hreview, hrelease, hdraftReview, hdraftRelease, hreviewRelease, by decide +kernel,
    hassoc _ _ _ hdraft hreview hrelease hdraftReview hdraftRelease hreviewRelease,
    joins, rfl, hbranches, hsorted, hagree, hgroups .null joins hbranches hsorted hagree⟩

end Runbook.Json
