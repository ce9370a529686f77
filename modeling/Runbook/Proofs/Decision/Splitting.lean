import Runbook.Proofs.Decision.Tally

/-!
# Splits

What becomes of rules when one variable is known: no choice of items is lost or added, and some
condition is gone.
-/

namespace Runbook.Decision

open Variable

variable {ι τ : Type}

/-! ## Choices -/

def Rule.holdsOn (input : ι) (rule : Rule ι τ) : Bool := rule.conditions.all (·.holdsOn input)

def chosen (input : ι) (rules : List (Rule ι τ)) : List τ :=
  (rules.filter (·.holdsOn input)).map (·.item)

def Within (known : Variable ι → Prop) (rules : List (Rule ι τ)) : Prop :=
  ∀ rule ∈ rules, ∀ condition ∈ rule.conditions, known condition.subject

theorem known_of_mention {known : Variable ι → Prop} {rules : List (Rule ι τ)}
    {subject : Variable ι} (hwithin : Within known rules) (h : subject ∈ mentions rules) :
    known subject := by
  obtain ⟨rule, hrule, condition, hcondition, rfl⟩ := mem_mentions.mp h
  exact hwithin rule hrule condition hcondition

theorem chosen_append (input : ι) (rules others : List (Rule ι τ)) :
    chosen input (rules ++ others) = chosen input rules ++ chosen input others := by
  simp [chosen]

theorem chosen_cons (input : ι) (rule : Rule ι τ) (rules : List (Rule ι τ)) :
    chosen input (rule :: rules) =
      if rule.holdsOn input then rule.item :: chosen input rules else chosen input rules := by
  rw [chosen, List.filter_cons]
  split <;> rfl

private theorem chosen_perm {input : ι} {rules others : List (Rule ι τ)} (h : rules.Perm others) :
    (chosen input rules).Perm (chosen input others) :=
  (h.filter _).map _

theorem chosen_unconditional {input : ι} {rules : List (Rule ι τ)}
    (h : ∀ rule ∈ rules, rule.conditions = []) : chosen input rules = rules.map (·.item) := by
  rw [chosen, List.filter_eq_self.mpr]
  intro rule hrule
  rw [Rule.holdsOn, h rule hrule]
  rfl

section

variable {known : Variable ι → Prop} {input : ι} {rule : Rule ι τ} {rules : List (Rule ι τ)}
  {subject : Variable ι} {value asked : Value}

private theorem all_eraseP {α : Type} {matching holds : α → Bool} {members : List α} {member : α}
    (h : members.find? matching = some member) :
    members.all holds = (holds member && (members.eraseP matching).all holds) := by
  induction members with
  | nil => cases h
  | cons first members ih =>
      cases hfirst : matching first with
      | true =>
          rw [List.find?_cons_of_pos hfirst] at h
          cases h
          simp [hfirst]
      | false =>
          rw [List.find?_cons_of_neg (by simp [hfirst])] at h
          simp [hfirst, ih h, Bool.and_left_comm]

theorem holdsOn_of_asks (hcoherent : Coherent known)
    (hwithin : ∀ condition ∈ rule.conditions, known condition.subject) (hknown : known subject)
    (hvalue : subject.valueOn input = .ok value) (hasks : rule.asks? subject = some asked) :
    rule.holdsOn input = (decide (asked = value) && (rule.without subject).holdsOn input) := by
  obtain ⟨condition, hfind, rfl⟩ := Option.map_eq_some_iff.mp hasks
  have hsame := List.find?_some hfind
  have hmem := hwithin condition (List.mem_of_find?_eq_some hfind)
  have hholds : condition.holdsOn input = decide (condition.value = value) := by
    rw [Bool.eq_iff_iff, Condition.holdsOn_iff hcoherent hmem,
      hcoherent.equal _ _ hmem hknown hsame, hvalue]
    simp [eq_comm]
  rw [Rule.holdsOn, all_eraseP hfind, hholds]
  rfl

theorem within_without (hwithin : ∀ condition ∈ rule.conditions, known condition.subject) :
    ∀ condition ∈ (rule.without subject).conditions, known condition.subject :=
  fun condition hcondition => hwithin condition (List.mem_of_mem_eraseP hcondition)

/-! ## Settling -/

theorem mem_settle {kept : Rule ι τ} : kept ∈ settle rules subject value ↔ ∃ rule ∈ rules,
    (rule.asks? subject = none ∧ kept = rule) ∨
      (rule.asks? subject = some value ∧ kept = rule.without subject) := by
  rw [settle, List.mem_filterMap]
  refine exists_congr fun rule => and_congr_right fun _ => ?_
  cases rule.asks? subject <;> simp [eq_comm]

theorem within_settle (h : Within known rules) : Within known (settle rules subject value) := by
  intro rule hrule
  obtain ⟨original, horiginal, ⟨-, rfl⟩ | ⟨-, rfl⟩⟩ := mem_settle.mp hrule
  · exact h rule horiginal
  · exact within_without (h original horiginal)

theorem chosen_settle (hcoherent : Coherent known) (hwithin : Within known rules)
    (hknown : known subject) (hvalue : subject.valueOn input = .ok value) :
    chosen input (settle rules subject value) = chosen input rules := by
  induction rules with
  | nil => rfl
  | cons rule rules ih =>
      have hrest := ih fun other hother => hwithin other (List.mem_cons_of_mem _ hother)
      have hrule := hwithin rule List.mem_cons_self
      rw [chosen_cons, ← hrest, settle, List.filterMap_cons]
      cases hasks : rule.asks? subject with
      | none => exact chosen_cons ..
      | some asked =>
          rw [holdsOn_of_asks hcoherent hrule hknown hvalue hasks]
          by_cases hasked : asked = value
          · simp only [hasked, if_true, decide_true, Bool.true_and]
            exact chosen_cons ..
          · simp only [hasked, if_false, decide_false, Bool.false_and]
            rfl

/-! ## Splitting -/

private theorem within_silentOn (h : Within known rules) : Within known (silentOn rules subject) :=
  fun rule hrule => h rule (List.mem_filter.mp hrule).1

theorem within_conditional (h : Within known rules) :
    Within known ((silentOn rules subject).filter (!isUnconditional ·)) :=
  fun rule hrule => within_silentOn h rule (List.mem_filter.mp hrule).1

theorem mem_askingFor {kept : Rule ι τ} : kept ∈ askingFor rules subject value ↔
    ∃ rule ∈ rules, rule.asks? subject = some value ∧ kept = rule.without subject := by
  simp [askingFor, and_assoc, eq_comm]

private theorem within_askingFor (h : Within known rules) :
    Within known (askingFor rules subject value) := by
  intro rule hrule
  obtain ⟨original, horiginal, -, rfl⟩ := mem_askingFor.mp hrule
  exact within_without (h original horiginal)

theorem within_branch (h : Within known rules) :
    Within known (askingFor rules subject value ++
      (silentOn rules subject).filter (!isUnconditional ·)) := by
  intro rule hrule
  rcases List.mem_append.mp hrule with hrule | hrule
  · exact within_askingFor h rule hrule
  · exact within_conditional h rule hrule

private theorem chosen_askingFor (hcoherent : Coherent known) (hwithin : Within known rules)
    (hknown : known subject) (hvalue : subject.valueOn input = .ok value) :
    chosen input (askingFor rules subject value) =
      chosen input (rules.filter fun rule => !(rule.asks? subject).isNone) := by
  induction rules with
  | nil => rfl
  | cons rule rules ih =>
      have hrest := ih fun other hother => hwithin other (List.mem_cons_of_mem _ hother)
      have hrule := hwithin rule List.mem_cons_self
      rw [askingFor] at hrest ⊢
      cases hasks : rule.asks? subject with
      | none => simpa [hasks] using hrest
      | some asked =>
          have hholds := holdsOn_of_asks hcoherent hrule hknown hvalue hasks
          by_cases hasked : asked = value
          · simp only [List.filter_cons, hasks, hasked, decide_true, if_true, Option.isNone_some,
              Bool.not_false, List.map_cons, chosen_cons, hrest, hholds, Bool.true_and]
            rfl
          · simp only [List.filter_cons, hasks, hasked, decide_false, if_true, Option.isNone_some,
              Bool.not_false, chosen_cons, hrest, hholds, Bool.false_and, Bool.false_eq_true,
              if_false, Option.some.injEq]

/-- At a split, the items are those of the rules without conditions and those of the rules that go
on along the branch. -/
theorem chosen_split (hcoherent : Coherent known) (hwithin : Within known rules)
    (hknown : known subject) (hvalue : subject.valueOn input = .ok value) :
    (((silentOn rules subject).filter isUnconditional).map (·.item) ++
      chosen input (askingFor rules subject value ++
        (silentOn rules subject).filter (!isUnconditional ·))).Perm (chosen input rules) := by
  have hunconditional : ((silentOn rules subject).filter isUnconditional).map (·.item) =
      chosen input ((silentOn rules subject).filter isUnconditional) := by
    refine (chosen_unconditional fun rule hrule => ?_).symm
    simpa [isUnconditional] using (List.mem_filter.mp hrule).2
  have hsilent := List.filter_append_perm isUnconditional (silentOn rules subject)
  have hall := List.filter_append_perm (fun rule => (rule.asks? subject).isNone) rules
  rw [hunconditional, chosen_append, chosen_askingFor hcoherent hwithin hknown hvalue,
    ← chosen_append, ← chosen_append]
  refine chosen_perm (List.Perm.trans ?_ hall)
  refine (List.perm_append_comm.append_left _).trans ?_
  rw [← List.append_assoc]
  exact hsilent.append_right _

/-! ## Fewer conditions -/

theorem conditionCount_cons (rule : Rule ι τ) (rules : List (Rule ι τ)) :
    conditionCount (rule :: rules) = rule.conditions.length + conditionCount rules := by
  simp [conditionCount]

theorem conditions_of_conditionCount_eq_zero (h : conditionCount rules = 0) :
    ∀ rule ∈ rules, rule.conditions = [] := by
  induction rules with
  | nil => simp
  | cons rule rules ih =>
      rw [conditionCount_cons] at h
      refine List.forall_mem_cons.mpr ⟨List.eq_nil_of_length_eq_zero (by omega), ih (by omega)⟩

theorem conditionCount_append (rules others : List (Rule ι τ)) :
    conditionCount (rules ++ others) = conditionCount rules + conditionCount others := by
  simp [conditionCount]

private theorem conditionCount_filter_le (keep : Rule ι τ → Bool) (rules : List (Rule ι τ)) :
    conditionCount (rules.filter keep) ≤ conditionCount rules := by
  induction rules with
  | nil => exact Nat.le_refl _
  | cons rule rules ih =>
      rw [conditionCount_cons, List.filter_cons]
      split
      · rw [conditionCount_cons]
        omega
      · omega

theorem length_without (hasks : rule.asks? subject = some asked) :
    (rule.without subject).conditions.length + 1 = rule.conditions.length := by
  obtain ⟨condition, hfind, -⟩ := Option.map_eq_some_iff.mp hasks
  have hmem := List.mem_of_find?_eq_some hfind
  rw [Rule.without, List.length_eraseP_of_mem hmem (List.find?_some hfind)]
  have := List.length_pos_of_mem hmem
  omega

private theorem conditionCount_settle_add (rules : List (Rule ι τ)) (subject : Variable ι)
    (value : Value) :
    conditionCount (settle rules subject value) +
      (rules.filter fun rule => (rule.asks? subject).isSome).length ≤ conditionCount rules := by
  induction rules with
  | nil => simp [settle, conditionCount]
  | cons rule rules ih =>
      rw [settle] at ih ⊢
      rw [conditionCount_cons, List.filterMap_cons]
      cases hasks : rule.asks? subject with
      | none =>
          simp only [conditionCount_cons, hasks, Option.isSome_none, Bool.false_eq_true,
            not_false_eq_true, List.filter_cons_of_neg]
          omega
      | some asked =>
          have hlength := length_without hasks
          by_cases hasked : asked = value
          · simp only [hasked, if_true, conditionCount_cons, hasks, Option.isSome_some,
              List.filter_cons_of_pos, List.length_cons]
            omega
          · simp only [hasked, if_false, hasks, Option.isSome_some, List.filter_cons_of_pos,
              List.length_cons]
            omega

private theorem conditionCount_split_add (rules : List (Rule ι τ)) (subject : Variable ι)
    (value : Value) :
    conditionCount (askingFor rules subject value) + conditionCount (silentOn rules subject) +
      (rules.filter fun rule => (rule.asks? subject).isSome).length ≤ conditionCount rules := by
  induction rules with
  | nil => simp [askingFor, silentOn, conditionCount]
  | cons rule rules ih =>
      rw [askingFor, silentOn] at ih ⊢
      rw [conditionCount_cons]
      cases hasks : rule.asks? subject with
      | none =>
          simp only [hasks, List.filter_cons, Option.isNone_none, Option.isSome_none, if_true,
            reduceCtorEq, decide_false, Bool.false_eq_true, if_false, conditionCount_cons]
          omega
      | some asked =>
          have hlength := length_without hasks
          by_cases hasked : asked = value
          · simp only [hasks, List.filter_cons, Option.isNone_some, Option.isSome_some, if_true,
              hasked, decide_true, Bool.false_eq_true, if_false, List.map_cons,
              conditionCount_cons, List.length_cons]
            omega
          · simp only [hasks, List.filter_cons, Option.isNone_some, Option.isSome_some, if_true,
              Option.some.injEq, hasked, decide_false, Bool.false_eq_true, if_false,
              List.length_cons]
            omega

theorem asking_pos (h : subject ∈ mentions rules) :
    0 < (rules.filter fun rule => (rule.asks? subject).isSome).length := by
  obtain ⟨rule, hrule, condition, hcondition, rfl⟩ := mem_mentions.mp h
  refine List.length_pos_of_mem (List.mem_filter.mpr ⟨hrule, ?_⟩)
  rw [Rule.asks?, askedValue?, Option.isSome_map, List.find?_isSome]
  exact ⟨condition, hcondition, same_refl _⟩

theorem conditionCount_settle_lt (value : Value) (h : subject ∈ mentions rules) :
    conditionCount (settle rules subject value) < conditionCount rules := by
  have := conditionCount_settle_add rules subject value
  have := asking_pos h
  omega

theorem conditionCount_branch_lt (value : Value) (h : subject ∈ mentions rules) :
    conditionCount (askingFor rules subject value ++
      (silentOn rules subject).filter (!isUnconditional ·)) < conditionCount rules := by
  have := conditionCount_split_add rules subject value
  have := asking_pos h
  have := conditionCount_filter_le (!isUnconditional ·) (silentOn rules subject)
  rw [conditionCount_append]
  omega

theorem conditionCount_otherwise_lt (h : subject ∈ mentions rules) :
    conditionCount ((silentOn rules subject).filter (!isUnconditional ·)) <
      conditionCount rules := by
  have := conditionCount_branch_lt .null h
  rw [conditionCount_append] at this
  omega

theorem mem_askedValues :
    value ∈ askedValues rules subject ↔ ∃ rule ∈ rules, rule.asks? subject = some value := by
  rw [askedValues, mem_firsts, List.mem_filterMap]

theorem askingFor_eq_nil (h : value ∉ askedValues rules subject) :
    askingFor rules subject value = [] := by
  rw [askingFor, List.map_eq_nil_iff, List.filter_eq_nil_iff]
  intro rule hrule hasks
  exact h (mem_askedValues.mpr ⟨rule, hrule, by simpa using hasks⟩)

end

end Runbook.Decision
