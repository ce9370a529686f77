import Runbook.Proofs.Decision.Evaluation
import Runbook.Decision.Tree
import Mathlib.Data.List.Basic
import Mathlib.Data.List.Induction

/-!
# Counting mentions

Mentions are counted in a table that keeps variables in the order in which they are mentioned first.
The variable to ask for is the first one with the greatest count.
-/

namespace Runbook.Decision

open Variable

variable {ι τ : Type}

/-! ## Separate variables -/

abbrev Separate (subjects : List (Variable ι)) : Prop :=
  subjects.Pairwise fun earlier later => earlier.same later = false

theorem Separate.others {own subject : Variable ι} {subjects : List (Variable ι)}
    (h : Separate (own :: subjects)) (hsame : own.same subject) :
    ∀ other ∈ subjects, other.same subject = false := by
  intro other hother
  rw [same_comm, ← same_congr hsame]
  exact List.rel_of_pairwise_cons h hother

/-! ## First ones -/

private theorem eraseDupsBy_loop_concat {α : Type} (r : α → α → Bool) (member : α)
    (members met : List α) :
    List.eraseDupsBy.loop r (members ++ [member]) met =
      if (List.eraseDupsBy.loop r members met).any (r member) then
        List.eraseDupsBy.loop r members met
      else List.eraseDupsBy.loop r members met ++ [member] := by
  induction members generalizing met with
  | nil =>
      simp only [List.nil_append, List.eraseDupsBy.loop, List.any_reverse]
      split <;> simp_all
  | cons first members ih =>
      rw [List.cons_append, List.eraseDupsBy.loop, List.eraseDupsBy.loop]
      cases met.any (r first) <;> exact ih _

theorem eraseDupsBy_concat {α : Type} (r : α → α → Bool) (members : List α) (member : α) :
    (members ++ [member]).eraseDupsBy r =
      if (members.eraseDupsBy r).any (r member) then members.eraseDupsBy r
      else members.eraseDupsBy r ++ [member] :=
  eraseDupsBy_loop_concat r member members []

private theorem mem_of_mem_eraseDupsBy {α : Type} {r : α → α → Bool} {members : List α} {member : α}
    (h : member ∈ members.eraseDupsBy r) : member ∈ members := by
  induction members using List.reverseRecOn with
  | nil => exact h
  | append_singleton members last ih =>
      rw [eraseDupsBy_concat] at h
      split at h
      · exact List.mem_append_left _ (ih h)
      · rcases List.mem_append.mp h with hold | hnew
        · exact List.mem_append_left _ (ih hold)
        · exact List.mem_append_right _ hnew

theorem exists_first_same {subjects : List (Variable ι)} {subject : Variable ι}
    (h : subject ∈ subjects) : ∃ first ∈ subjects.eraseDupsBy same, subject.same first := by
  induction subjects using List.reverseRecOn with
  | nil => cases h
  | append_singleton subjects last ih =>
      rw [eraseDupsBy_concat]
      rcases List.mem_append.mp h with hold | hnew
      · obtain ⟨first, hfirst, hsame⟩ := ih hold
        refine ⟨first, ?_, hsame⟩
        split
        · exact hfirst
        · exact List.mem_append_left _ hfirst
      · obtain rfl := List.mem_singleton.mp hnew
        split
        · next hany => exact List.any_eq_true.mp hany
        · exact ⟨subject, by simp, same_refl subject⟩

theorem separate_eraseDupsBy (subjects : List (Variable ι)) :
    Separate (subjects.eraseDupsBy same) := by
  induction subjects using List.reverseRecOn with
  | nil => exact .nil
  | append_singleton subjects last ih =>
      rw [eraseDupsBy_concat]
      split
      · exact ih
      · next hnone =>
        refine List.pairwise_append.mpr ⟨ih, List.pairwise_singleton _ _, ?_⟩
        intro first hfirst other hother
        rw [List.mem_singleton.mp hother, same_comm]
        simpa using fun hsame => hnone (List.any_eq_true.mpr ⟨first, hfirst, hsame⟩)

/-! ## Counts -/

theorem map_bump (subject : Variable ι) (counted : Tally ι) :
    (counted.bump subject).map (·.1) = counted.map (·.1) := by
  induction counted with
  | nil => rfl
  | cons entry counted ih =>
      rw [Tally.bump]
      split
      · rfl
      · rw [List.map_cons, List.map_cons, ih]

theorem bump_map {subjects : List (Variable ι)} (h : Separate subjects) (count : Variable ι → Nat)
    (subject : Variable ι) :
    Tally.bump subject (subjects.map fun own => (own, count own)) =
      subjects.map fun own => (own, count own + if own.same subject then 1 else 0) := by
  induction subjects with
  | nil => rfl
  | cons own subjects ih =>
      rw [List.map_cons, Tally.bump, List.map_cons]
      by_cases hsame : own.same subject
      · rw [if_pos hsame, if_pos hsame]
        congr 1
        exact List.map_congr_left fun other hother => by simp [h.others hsame other hother]
      · rw [if_neg hsame, if_neg hsame, ih h.of_cons]
        rfl

private theorem foldl_bump_map {subjects : List (Variable ι)} (h : Separate subjects)
    (count : Variable ι → Nat) (credited : List (Variable ι)) :
    credited.foldl (fun counted subject => Tally.bump subject counted)
        (subjects.map fun own => (own, count own)) =
      subjects.map fun own => (own, count own + credited.countP (·.same own)) := by
  induction credited generalizing count with
  | nil => rfl
  | cons subject credited ih =>
      rw [List.foldl_cons, bump_map h, ih]
      refine List.map_congr_left fun own _ => ?_
      rw [List.countP_cons, same_comm own subject, Nat.add_assoc, Nat.add_comm (List.countP _ _)]

private theorem foldl_mention_eq (subjects : List (Variable ι)) :
    subjects.foldl Tally.mention [] =
      (subjects.eraseDupsBy same).map fun own => (own, subjects.countP (·.same own)) := by
  induction subjects using List.reverseRecOn with
  | nil => rfl
  | append_singleton subjects last ih =>
      have hknown : ((subjects.eraseDupsBy same).map fun own =>
            (own, subjects.countP (·.same own))).any (·.1.same last) =
          (subjects.eraseDupsBy same).any last.same := by
        rw [List.any_map, show last.same = fun own => own.same last from funext (same_comm last)]
        rfl
      rw [List.foldl_concat, ih, Tally.mention, hknown, eraseDupsBy_concat]
      by_cases hany : (subjects.eraseDupsBy same).any last.same
      · rw [if_pos hany, if_pos hany, bump_map (separate_eraseDupsBy subjects)]
        refine List.map_congr_left fun own _ => ?_
        rw [List.countP_append, List.countP_singleton, same_comm own last]
      · rw [if_neg hany, if_neg hany, List.map_append]
        have hnew : ∀ own ∈ subjects, own.same last = false := by
          intro own hown
          obtain ⟨first, hfirst, hsame⟩ := exists_first_same hown
          rw [Bool.eq_false_iff]
          intro hlast
          rw [same_comm] at hlast
          exact hany (List.any_eq_true.mpr ⟨first, hfirst, same_trans hlast hsame⟩)
        have hother : ∀ own ∈ subjects.eraseDupsBy same, last.same own = false := by
          simpa using hany
        have hzero : subjects.countP (·.same last) = 0 := by
          rw [List.countP_eq_zero]
          simpa using hnew
        congr 1
        · refine List.map_congr_left fun own hown => ?_
          rw [List.countP_append, List.countP_singleton, hother own hown]
          rfl
        · simp [List.countP_append, List.countP_singleton, hzero, same_refl]

def firstMentions (rules : List (Rule ι τ)) : List (Variable ι) :=
  (mentions rules).eraseDupsBy Variable.same

theorem tally_eq (rules : List (Rule ι τ)) :
    tally rules = (firstMentions rules).map fun subject =>
      (subject, (mentions rules).countP (·.same subject) +
        ((mentions rules).flatMap dependencies).countP (·.same subject)) := by
  rw [tally, foldl_mention_eq, foldl_bump_map (separate_eraseDupsBy _)]
  rfl

/-! ## The greatest -/

section

variable {α β : Type} {score : α → Nat} {members : List α} {member first : α}

/-- Whether a member is the first of those with the greatest score. -/
def FirstGreatest (score : α → Nat) (members : List α) (member : α) : Prop :=
  ∃ before behind, members = before ++ member :: behind ∧
    (∀ other ∈ before, score other < score member) ∧
    ∀ other ∈ behind, score other ≤ score member

theorem firstGreatest_cons : FirstGreatest score (first :: members) member ↔
    (member = first ∧ ∀ other ∈ members, score other ≤ score first) ∨
      (score first < score member ∧ FirstGreatest score members member) := by
  constructor
  · rintro ⟨_ | ⟨own, before⟩, behind, hmembers, hbefore, hbehind⟩
    · cases hmembers
      exact .inl ⟨rfl, hbehind⟩
    · cases hmembers
      obtain ⟨hown, hbefore⟩ := List.forall_mem_cons.mp hbefore
      exact .inr ⟨hown, before, behind, rfl, hbefore, hbehind⟩
  · rintro (⟨rfl, hbehind⟩ | ⟨hfirst, before, behind, rfl, hbefore, hbehind⟩)
    · exact ⟨[], members, rfl, by simp, hbehind⟩
    · exact ⟨first :: before, behind, rfl, List.forall_mem_cons.mpr ⟨hfirst, hbefore⟩, hbehind⟩

theorem FirstGreatest.mem (h : FirstGreatest score members member) : member ∈ members := by
  obtain ⟨before, behind, rfl, -, -⟩ := h
  exact List.mem_append_right _ List.mem_cons_self

theorem FirstGreatest.le (h : FirstGreatest score members member) :
    ∀ other ∈ members, score other ≤ score member := by
  obtain ⟨before, behind, rfl, hbefore, hbehind⟩ := h
  intro other hother
  rcases List.mem_append.mp hother with hother | hother
  · exact Nat.le_of_lt (hbefore other hother)
  · rcases List.mem_cons.mp hother with rfl | hother
    · exact Nat.le_refl _
    · exact hbehind other hother

theorem firstGreatest_map {image : β → α} {origins : List β} :
    FirstGreatest score (origins.map image) member ↔
      ∃ origin, image origin = member ∧ FirstGreatest (score ∘ image) origins origin := by
  constructor
  · rintro ⟨before, behind, hmembers, hbefore, hbehind⟩
    obtain ⟨earlier, rest, rfl, rfl, hrest⟩ := List.map_eq_append_iff.mp hmembers
    obtain ⟨origin, later, rfl, rfl, rfl⟩ := List.map_eq_cons_iff.mp hrest
    exact ⟨origin, rfl, earlier, later, rfl, by simpa using hbefore, by simpa using hbehind⟩
  · rintro ⟨origin, rfl, before, behind, rfl, hbefore, hbehind⟩
    exact ⟨before.map image, behind.map image, by simp, by simpa using hbefore,
      by simpa using hbehind⟩

end

theorem best_step (first next : Variable ι × Nat) (counted : Tally ι) :
    best (first :: next :: counted) =
      if first.2 < next.2 then best (next :: counted) else best (first :: counted) := by
  by_cases hless : first.2 < next.2 <;> simp [best, hless]

private theorem best_cons (first : Variable ι × Nat) (counted : Tally ι)
    (entry : Variable ι × Nat) :
    best (first :: counted) = some entry ↔ FirstGreatest (·.2) (first :: counted) entry := by
  induction counted generalizing first with
  | nil =>
      have hnone : ¬ FirstGreatest (·.2) [] entry := by simp [FirstGreatest]
      simp [best, firstGreatest_cons, hnone, eq_comm]
  | cons next counted ih =>
      rw [best_step, firstGreatest_cons]
      by_cases hless : first.2 < next.2
      · rw [if_pos hless, ih]
        constructor
        · intro hgreatest
          exact .inr ⟨Nat.lt_of_lt_of_le hless (hgreatest.le next List.mem_cons_self), hgreatest⟩
        · rintro (⟨-, hrest⟩ | ⟨-, hgreatest⟩)
          · have := hrest next List.mem_cons_self
            omega
          · exact hgreatest
      · rw [if_neg hless, ih, firstGreatest_cons, firstGreatest_cons, List.forall_mem_cons]
        constructor
        · rintro (⟨hentry, hrest⟩ | ⟨hmore, hgreatest⟩)
          · exact .inl ⟨hentry, by omega, hrest⟩
          · exact .inr ⟨hmore, .inr ⟨by omega, hgreatest⟩⟩
        · rintro (⟨hentry, -, hrest⟩ | ⟨hmore, ⟨rfl, -⟩ | ⟨-, hgreatest⟩⟩)
          · exact .inl ⟨hentry, hrest⟩
          · omega
          · exact .inr ⟨hmore, hgreatest⟩

theorem best_eq_some_iff {counted : Tally ι} {entry : Variable ι × Nat} :
    best counted = some entry ↔ FirstGreatest (·.2) counted entry := by
  cases counted with
  | nil => simp [best, FirstGreatest]
  | cons first counted => exact best_cons first counted entry

private theorem best_cons_ne_none (first : Variable ι × Nat) (counted : Tally ι) :
    best (first :: counted) ≠ none := by
  induction counted generalizing first with
  | nil => exact Option.some_ne_none first
  | cons next counted ih =>
      rw [best_step]
      split
      · exact ih next
      · exact ih first

private theorem best_eq_none_iff {counted : Tally ι} : best counted = none ↔ counted = [] := by
  cases counted with
  | nil => simp [best]
  | cons first counted => simp [best_cons_ne_none]

/-! ## The variable to ask for -/

theorem mem_mentions {rules : List (Rule ι τ)} {subject : Variable ι} :
    subject ∈ mentions rules ↔
      ∃ rule ∈ rules, ∃ condition ∈ rule.conditions, condition.subject = subject := by
  simp [mentions]

theorem mem_mentions_of_pickSplit {rules : List (Rule ι τ)} {subject : Variable ι}
    (h : pickSplit rules = some subject) : subject ∈ mentions rules := by
  obtain ⟨entry, hentry, rfl⟩ := Option.map_eq_some_iff.mp h
  have hmem := (best_eq_some_iff.mp hentry).mem
  rw [tally_eq, List.mem_map] at hmem
  obtain ⟨first, hfirst, rfl⟩ := hmem
  exact mem_of_mem_eraseDupsBy hfirst

theorem conditions_of_pickSplit_none {rules : List (Rule ι τ)} (h : pickSplit rules = none) :
    ∀ rule ∈ rules, rule.conditions = [] := by
  intro rule hrule
  refine List.eq_nil_iff_forall_not_mem.mpr fun condition hcondition => ?_
  have hmention : condition.subject ∈ mentions rules :=
    mem_mentions.mpr ⟨rule, hrule, condition, hcondition, rfl⟩
  obtain ⟨first, hfirst, -⟩ := exists_first_same hmention
  have hempty : tally rules = [] := best_eq_none_iff.mp (Option.map_eq_none_iff.mp h)
  rw [tally_eq, List.map_eq_nil_iff, firstMentions] at hempty
  rw [hempty] at hfirst
  cases hfirst

end Runbook.Decision
