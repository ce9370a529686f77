import Runbook.Proofs.Decision.Layout
import Runbook.Proofs.Decision.Selection
import Mathlib.Data.List.Pairwise
import Mathlib.Data.List.Perm.Subperm

/-!
# Structure of compiled trees

What a compiled tree looks like, whatever the rules are: its nodes refer to each other as a tree,
every way down asks for different variables, and no more of them than the rules mention.
-/

namespace Runbook.Decision

open Variable

variable {ι τ π ω : Type}

/-! ## Different variables -/

def distinct (subjects : List (Variable ι)) : List (Variable ι) :=
  subjects.pwFilter fun earlier later => earlier.same later = false

theorem exists_mem_distinct {subjects : List (Variable ι)} {subject : Variable ι}
    (h : subject ∈ subjects) : ∃ other ∈ distinct subjects, subject.same other := by
  by_contra hnone
  have hall : ∀ other ∈ distinct subjects, subject.same other = false :=
    fun other hother => by simpa using fun hsame => hnone ⟨other, hother, hsame⟩
  have hself := (List.forall_mem_pwFilter (fun {first second third} hdifferent => by
    by_contra hboth
    simp only [not_or, Bool.not_eq_false] at hboth
    rw [same_trans hboth.1 hboth.2] at hdifferent
    cases hdifferent) subject subjects).mp hall subject h
  rw [same_refl] at hself
  cases hself

theorem Separate.length_le_of_same {members others : List (Variable ι)} (h : Separate members)
    (hothers : ∀ member ∈ members, ∃ other ∈ others, member.same other) :
    members.length ≤ others.length := by
  have hfound : ∀ member ∈ members, ∃ other ∈ others, others.find? member.same = some other := by
    intro member hmember
    obtain ⟨other, hother, hsame⟩ := hothers member hmember
    obtain ⟨found, hfound⟩ := Option.isSome_iff_exists.mp
      (List.find?_isSome.mpr ⟨other, hother, hsame⟩)
    exact ⟨found, List.mem_of_find?_eq_some hfound, hfound⟩
  have hnodup : (members.map fun member => others.find? member.same).Nodup := by
    rw [List.Nodup, List.pairwise_map]
    refine h.imp_of_mem fun {earlier later} hearlier hlater hdifferent hequal => ?_
    obtain ⟨other, -, hother⟩ := hfound earlier hearlier
    have hfirst := List.find?_some hother
    have hsecond := List.find?_some (hequal ▸ hother)
    rw [same_comm later other] at hsecond
    rw [same_trans hfirst hsecond] at hdifferent
    cases hdifferent
  have hsub : (members.map fun member => others.find? member.same) ⊆ others.map some := by
    intro image himage
    obtain ⟨member, hmember, rfl⟩ := List.mem_map.mp himage
    obtain ⟨other, hother, hfind⟩ := hfound member hmember
    exact hfind ▸ List.mem_map_of_mem hother
  have hlength := (List.subperm_of_subset hnodup hsub).length_le
  simpa using hlength

theorem Separate.length_le {members subjects : List (Variable ι)} (h : Separate members)
    (hsubset : members ⊆ subjects) : members.length ≤ (distinct subjects).length :=
  h.length_le_of_same fun _ hmember => exists_mem_distinct (hsubset hmember)

/-! ## Rules below a node -/

/-- Whether rules ask for different variables each, all of them known and none of them asked for on
the way. -/
structure Open (known : Variable ι → Prop) (way : List (Edge ι)) (rules : List (Rule ι τ)) :
    Prop where
  separate : ∀ rule ∈ rules, Separate (rule.conditions.map (·.subject))
  known : Within known rules
  unasked : ∀ rule ∈ rules, ∀ condition ∈ rule.conditions, ∀ edge ∈ way,
    edge.subject.same condition.subject = false

section

variable {known : Variable ι → Prop} {way : List (Edge ι)} {rules others : List (Rule ι τ)}
  {subject : Variable ι} {value : Value}

theorem Open.of_sublist (h : Open known way rules)
    (hsub : ∀ other ∈ others, ∃ rule ∈ rules, other.conditions.Sublist rule.conditions) :
    Open known way others where
  separate other hother := by
    obtain ⟨rule, hrule, hconditions⟩ := hsub other hother
    exact (h.separate rule hrule).sublist (hconditions.map _)
  known other hother condition hcondition := by
    obtain ⟨rule, hrule, hconditions⟩ := hsub other hother
    exact h.known rule hrule condition (hconditions.subset hcondition)
  unasked other hother condition hcondition := by
    obtain ⟨rule, hrule, hconditions⟩ := hsub other hother
    exact h.unasked rule hrule condition (hconditions.subset hcondition)

theorem Open.step (h : Open known way rules) (edge : Edge ι)
    (hasked : ∀ rule ∈ rules, ∀ condition ∈ rule.conditions,
      edge.subject.same condition.subject = false) :
    Open known (way ++ [edge]) rules where
  separate := h.separate
  known := h.known
  unasked rule hrule condition hcondition other hother := by
    rcases List.mem_append.mp hother with hold | hnew
    · exact h.unasked rule hrule condition hcondition other hold
    · rw [List.mem_singleton.mp hnew]
      exact hasked rule hrule condition hcondition

theorem sublist_without (rule : Rule ι τ) (subject : Variable ι) :
    (rule.without subject).conditions.Sublist rule.conditions := List.eraseP_sublist

theorem unasked_without {rule : Rule ι τ} (h : Separate (rule.conditions.map (·.subject)))
    (hasks : rule.asks? subject = some value) :
    ∀ condition ∈ (rule.without subject).conditions, subject.same condition.subject = false := by
  intro condition hcondition
  obtain ⟨asked, hfind, -⟩ := Option.map_eq_some_iff.mp hasks
  have hmatch := List.find?_some hfind
  obtain ⟨erased, before, behind, hnot, hsame, hconditions, hleft⟩ :=
    List.exists_of_eraseP (p := fun condition : Condition ι => condition.subject.same subject)
      (List.mem_of_find?_eq_some hfind) hmatch
  rw [hconditions, List.map_append, List.map_cons] at h
  obtain ⟨-, hbehind, -⟩ := List.pairwise_append.mp h
  rw [Rule.without] at hcondition
  simp only [hleft, List.mem_append] at hcondition
  rw [Bool.eq_false_iff]
  intro hequal
  rcases hcondition with hcondition | hcondition
  · rw [same_comm] at hequal
    exact absurd hequal (hnot condition hcondition)
  · have hdifferent := List.rel_of_pairwise_cons hbehind
      (List.mem_map_of_mem (f := Condition.subject) hcondition)
    rw [same_trans hsame hequal] at hdifferent
    cases hdifferent

private theorem unasked_silentOn {rule : Rule ι τ} (hrule : rule ∈ silentOn rules subject) :
    ∀ condition ∈ rule.conditions, subject.same condition.subject = false := by
  intro condition hcondition
  have hnone := (List.mem_filter.mp hrule).2
  rw [Option.isNone_iff_eq_none, Rule.asks?, askedValue?, Option.map_eq_none_iff,
    List.find?_eq_none] at hnone
  rw [same_comm]
  simpa using hnone condition hcondition

theorem Open.settle (h : Open known way rules) : Open known way (settle rules subject value) := by
  refine h.of_sublist fun other hother => ?_
  obtain ⟨rule, hrule, ⟨-, rfl⟩ | ⟨-, rfl⟩⟩ := mem_settle.mp hother
  · exact ⟨other, hrule, List.Sublist.refl _⟩
  · exact ⟨rule, hrule, sublist_without rule subject⟩

theorem Open.conditional (h : Open known way rules) (value? : Option Value) :
    Open known (way ++ [⟨subject, value?⟩])
      ((silentOn rules subject).filter (!isUnconditional ·)) := by
  refine Open.step (h.of_sublist fun other hother => ?_) _ fun other hother => ?_
  · have hsilent := (List.mem_filter.mp hother).1
    exact ⟨other, (List.mem_filter.mp hsilent).1, List.Sublist.refl _⟩
  · exact unasked_silentOn (List.mem_filter.mp hother).1

theorem Open.branch (h : Open known way rules) :
    Open known (way ++ [⟨subject, some value⟩])
      (askingFor rules subject value ++ (silentOn rules subject).filter (!isUnconditional ·)) := by
  have hasking : Open known (way ++ [⟨subject, some value⟩]) (askingFor rules subject value) := by
    refine Open.step (h.of_sublist fun other hother => ?_) _ fun other hother => ?_
    · obtain ⟨rule, hrule, -, rfl⟩ := mem_askingFor.mp hother
      exact ⟨rule, hrule, sublist_without rule subject⟩
    · obtain ⟨rule, hrule, hasks, rfl⟩ := mem_askingFor.mp hother
      exact unasked_without (h.separate rule hrule) hasks
  have hconditional : Open known (way ++ [⟨subject, some value⟩])
      ((silentOn rules subject).filter (!isUnconditional ·)) := h.conditional (some value)
  constructor
  · intro rule hrule
    exact (List.mem_append.mp hrule).elim (hasking.separate rule) (hconditional.separate rule)
  · intro rule hrule
    exact (List.mem_append.mp hrule).elim (hasking.known rule) (hconditional.known rule)
  · intro rule hrule
    exact (List.mem_append.mp hrule).elim (hasking.unasked rule) (hconditional.unasked rule)

/-! ## Compiled trees -/

theorem unpinned_of_none {assumptions : Assumptions ι} {progress last : Progress ι}
    (h : pinnedValue assumptions subject progress = .ok none last) :
    isPinned assumptions subject = false := by
  rw [pinnedValue] at h
  split at h
  · cases hresult : evaluateAssumed subject assumptions with
    | mk result called =>
        rw [hresult] at h
        cases result <;> cases h
  · next hpinned => simpa using hpinned

/-- Whether a way asks for different known variables, and its values are assumed. -/
structure Reached (known : Variable ι → Prop) (assumptions : Assumptions ι)
    (way : List (Edge ι)) : Prop where
  known : ∀ other ∈ way.map (·.subject), known other
  separate : Separate (way.map (·.subject))
  assumed : ∀ edge ∈ way, edge.value? ≠ none → edge.subject ∈ assumptions.map (·.1)

theorem Open.unasked_mention (h : Open known way rules) (hmentioned : subject ∈ mentions rules) :
    ∀ edge ∈ way, edge.subject.same subject = false := by
  obtain ⟨rule, hrule, condition, hcondition, rfl⟩ := mem_mentions.mp hmentioned
  exact h.unasked rule hrule condition hcondition

section

variable {assumptions : Assumptions ι}

theorem Reached.settle (h : Reached known assumptions way) (subject : Variable ι) (value : Value) :
    Reached known ((subject, value) :: assumptions) way :=
  ⟨h.known, h.separate, fun edge hedge hvalue =>
    List.mem_cons_of_mem _ (h.assumed edge hedge hvalue)⟩

theorem Reached.step (h : Reached known assumptions way) (hknown : known subject)
    (hunasked : ∀ edge ∈ way, edge.subject.same subject = false) (value? : Option Value)
    (hassumed : value? ≠ none → subject ∈ assumptions.map (·.1)) :
    Reached known assumptions (way ++ [⟨subject, value?⟩]) := by
  constructor
  · intro other hother
    rw [List.map_append, List.mem_append] at hother
    rcases hother with hold | hnew
    · exact h.known other hold
    · rw [List.mem_singleton.mp hnew]
      exact hknown
  · rw [Separate, List.map_append, List.pairwise_append]
    refine ⟨h.separate, List.pairwise_singleton _ _, fun earlier hearlier later hlater => ?_⟩
    obtain ⟨edge, hedge, rfl⟩ := List.mem_map.mp hearlier
    rw [List.mem_singleton.mp hlater]
    exact hunasked edge hedge
  · intro edge hedge
    rcases List.mem_append.mp hedge with hold | hnew
    · exact h.assumed edge hold
    · rw [List.mem_singleton.mp hnew]
      exact hassumed

theorem Reached.unpinned (h : Reached known assumptions way)
    (hpinned : isPinned assumptions subject = false) (hmeta : subject.isMeta)
    (hsome : subject.dependencies ≠ []) :
    ∃ dependency ∈ subject.dependencies,
      ∀ edge ∈ way, edge.value? ≠ none → edge.subject.same dependency = false := by
  have hall : subject.dependencies.all
      (fun dependency => (assumed? assumptions dependency).isSome) = false := by
    simpa [isPinned, hmeta, hsome] using hpinned
  obtain ⟨dependency, hdependency, hnone⟩ := List.all_eq_false.mp hall
  refine ⟨dependency, hdependency, fun edge hedge hvalue => ?_⟩
  rw [Bool.eq_false_iff]
  intro hsame
  obtain ⟨entry, hentry, hsubject⟩ := List.mem_map.mp (h.assumed edge hedge hvalue)
  refine hnone ?_
  rw [assumed?, Variable.find?, Option.isSome_map, List.find?_isSome]
  exact ⟨entry, hentry, hsubject ▸ hsame⟩

end

theorem Branches.values {P : Value → Tree ι τ → Nat → Nat → Prop} {values : List Value}
    {branches : List (Value × Tree ι τ)} {first last : Nat}
    (h : Branches P values branches first last) : branches.map (·.1) = values := by
  induction h with
  | nil => rfl
  | cons _ _ ih => rw [List.map_cons, ih]

theorem Branches.tagged {P : Option Value → Tree ι τ → Nat → Nat → Prop} {values : List Value}
    {branches : List (Value × Tree ι τ)} {first last : Nat}
    (h : Branches (fun value => P (some value)) values branches first last) :
    Branches P (values.map some) (branches.map fun (value, tree) => (some value, tree))
      first last := by
  induction h with
  | nil => exact .nil
  | cons htree _ ih => exact .cons htree ih

theorem Branches.rows {P : Option Value → Tree ι τ → Nat → Nat → Prop} {values : List Value}
    {branches : List (Value × Tree ι τ)} {otherwise : Option (Tree ι τ)} {first next last : Nat}
    (hotherwise : (otherwise = none ∧ next = first) ∨
      ∃ tree, otherwise = some tree ∧ P none tree first next)
    (hbranches : Branches (fun value => P (some value)) values branches next last) :
    ∃ keys, Branches P keys (Tree.rows branches otherwise) first last := by
  rcases hotherwise with ⟨rfl, rfl⟩ | ⟨tree, rfl, htree⟩
  · exact ⟨_, hbranches.tagged⟩
  · exact ⟨_, .cons htree hbranches.tagged⟩

private theorem askedValues_ne_nil (h : subject ∈ mentions rules) :
    askedValues rules subject ≠ [] := by
  obtain ⟨rule, hrule⟩ := List.exists_mem_of_length_pos (asking_pos h)
  obtain ⟨hmem, hasks⟩ := List.mem_filter.mp hrule
  obtain ⟨value, hvalue⟩ := Option.isSome_iff_exists.mp hasks
  exact List.ne_nil_of_mem (mem_askedValues.mpr ⟨rule, hmem, hvalue⟩)

/-- What a compilation makes, by recursion over its levels. -/
theorem compile_layout (limit : Option Nat) (fuel : Nat) (hopen : Open known way rules)
    {assumptions : Assumptions ι} (hreached : Reached known assumptions way)
    {progress last : Progress ι} {tree : Tree ι τ}
    (h : compile limit fuel rules assumptions progress = .ok tree last) :
    tree.Layout known way progress.nodes last.nodes := by
  induction fuel generalizing rules way assumptions progress last tree with
  | zero =>
      obtain ⟨rfl, hnodes⟩ := leaf_ok h
      exact hnodes ▸ .leaf hreached.known hreached.separate
  | succ fuel ih =>
      cases compile_ok h with
      | leaf _ hnodes => exact hnodes ▸ .leaf hreached.known hreached.separate
      | settled _ _ hnodes h => exact hnodes ▸ ih hopen.settle (hreached.settle _ _) h
      | @split subject _ made below _ otherwise hpick hpinned hmade hotherwise hbranches =>
          have hmentioned := mem_mentions_of_pickSplit hpick
          have hknown := known_of_mention hopen.known hmentioned
          have hunasked := hopen.unasked_mention hmentioned
          have hboth := hreached.step hknown hunasked none (by simp)
          have hlayouts := hbranches.imp (Q := fun value tree lower upper =>
              tree.Layout known (way ++ [⟨subject, some value⟩]) lower upper) <| by
            rintro value tree lower upper ⟨start, final, rfl, rfl, htree⟩
            have hstep := (hreached.settle subject value).step hknown hunasked (some value)
              fun _ => List.mem_cons_self
            exact ih hopen.branch hstep htree
          have hrest : (otherwise = none ∧ below.nodes = made.nodes) ∨ ∃ tree,
              otherwise = some tree ∧
                tree.Layout known (way ++ [⟨subject, none⟩]) made.nodes below.nodes := by
            rcases hotherwise with ⟨hnone, -, rfl⟩ | ⟨tree, hsome, htree⟩
            · exact .inl ⟨hnone, rfl⟩
            · exact .inr ⟨tree, hsome, ih (hopen.conditional none) hboth htree⟩
          obtain ⟨keys, hrows⟩ := Branches.rows (P := fun value? tree lower upper =>
            tree.Layout known (way ++ [⟨subject, value?⟩]) lower upper) hrest hlayouts
          have hlonger : (way ++ [(⟨subject, none⟩ : Edge ι)]).map (·.subject) =
              way.map (·.subject) ++ [subject] := List.map_append
          refine .split (Tree.rowsLayout (hmade ▸ hrows)) ?_ ?_ (hlonger ▸ hboth.known)
            (hlonger ▸ hboth.separate) (hreached.unpinned (unpinned_of_none hpinned))
          · rw [hlayouts.values]
            exact nodup_firsts _
          · intro hnil
            refine askedValues_ne_nil hmentioned ?_
            rw [← hlayouts.values, hnil]
            rfl

theorem compile_of_none (limit : Option Nat) (fuel : Nat) (hpick : pickSplit rules = none) :
    compile limit fuel rules assumptions =
      (do let id ← newNode limit; return .leaf id (rules.map (·.item))) := by
  cases fuel with
  | zero => rfl
  | succ fuel => rw [compile, hpick]

theorem compile_fuel (limit : Option Nat) {fuel other : Nat} (hfuel : conditionCount rules ≤ fuel)
    (hother : conditionCount rules ≤ other) :
    compile limit fuel rules assumptions = compile limit other rules assumptions := by
  induction fuel generalizing other rules assumptions with
  | zero =>
      have hpick : pickSplit rules = none := by
        rw [← Option.not_isSome_iff_eq_none]
        intro hsome
        obtain ⟨subject, hsubject⟩ := Option.isSome_iff_exists.mp hsome
        have := conditionCount_otherwise_lt (mem_mentions_of_pickSplit hsubject)
        omega
      rw [compile_of_none limit 0 hpick, compile_of_none limit other hpick]
  | succ fuel ih =>
      cases hpick : pickSplit rules with
      | none => rw [compile_of_none limit _ hpick, compile_of_none limit other hpick]
      | some subject =>
          have hmentioned := mem_mentions_of_pickSplit hpick
          have hotherwise := conditionCount_otherwise_lt hmentioned
          cases other with
          | zero => omega
          | succ other =>
              have hsame : ∀ others more, conditionCount others < conditionCount rules →
                  compile limit fuel others more = compile limit other others more :=
                fun others more hfewer => ih (by omega) (by omega)
              have hbranch := fun value => hsame _ ((subject, value) :: assumptions)
                (conditionCount_branch_lt value hmentioned)
              rw [compile, compile]
              simp only [hpick]
              refine bind_congr fun pinned => ?_
              cases pinned with
              | some value => exact hsame _ _ (conditionCount_settle_lt value hmentioned)
              | none => simp only [hsame _ _ hotherwise, hbranch]

private theorem mem_of_foldl_takeCondition (conditions : List (Condition ι))
    (collected : List (Condition ι) × Conflicts ι) :
    ∀ condition ∈ (conditions.foldl takeCondition collected).1,
      condition ∈ collected.1 ∨ condition ∈ conditions := by
  induction conditions generalizing collected with
  | nil => exact fun condition hcondition => .inl hcondition
  | cons first conditions ih =>
      intro condition hcondition
      rcases ih _ condition hcondition with htaken | hrest
      · rw [takeCondition] at htaken
        split at htaken
        · rcases List.mem_append.mp htaken with hold | hnew
          · exact .inl hold
          · exact .inr (List.mem_singleton.mp hnew ▸ List.mem_cons_self)
        · split at htaken <;> exact .inl htaken
      · exact .inr (List.mem_cons_of_mem _ hrest)

private theorem separate_foldl_takeCondition (conditions : List (Condition ι))
    (collected : List (Condition ι) × Conflicts ι)
    (h : Separate (collected.1.map (·.subject))) :
    Separate ((conditions.foldl takeCondition collected).1.map (·.subject)) := by
  induction conditions generalizing collected with
  | nil => exact h
  | cons condition conditions ih =>
      refine ih _ ?_
      rw [takeCondition]
      split
      · next hnone =>
        rw [askedValue?, Option.map_eq_none_iff, List.find?_eq_none] at hnone
        rw [Separate, List.map_append, List.pairwise_append]
        refine ⟨h, List.pairwise_singleton _ _, fun earlier hearlier later hlater => ?_⟩
        obtain ⟨other, hother, rfl⟩ := List.mem_map.mp hearlier
        rw [List.mem_singleton.mp hlater]
        simpa using hnone other hother
      · split <;> exact h

theorem Rule.of_separate {conditions : List (Condition ι)} {item : τ} {rule : Rule ι τ}
    (h : Rule.of conditions item = .ok rule) :
    rule.conditions ⊆ conditions ∧ Separate (rule.conditions.map (·.subject)) := by
  have hsubset := mem_of_foldl_takeCondition conditions ([], [])
  have hseparate := separate_foldl_takeCondition conditions ([], []) .nil
  rw [Rule.of] at h
  split at h
  · next kept hkept =>
    cases h
    rw [hkept] at hsubset hseparate
    exact ⟨fun condition hcondition => (hsubset condition hcondition).resolve_left (by simp),
      hseparate⟩
  · cases h

private theorem foldl_takeCondition_separate {conditions collected : List (Condition ι)}
    {conflicts : Conflicts ι} (h : Separate ((collected ++ conditions).map (·.subject))) :
    conditions.foldl takeCondition (collected, conflicts) =
      (collected ++ conditions, conflicts) := by
  induction conditions generalizing collected with
  | nil => simp
  | cons condition conditions ih =>
      have hnone : askedValue? collected condition.subject = none := by
        rw [askedValue?, Option.map_eq_none_iff, List.find?_eq_none]
        intro earlier hearlier
        rw [Separate, List.map_append, List.pairwise_append] at h
        have hdifferent := h.2.2 _ (List.mem_map_of_mem (f := Condition.subject) hearlier)
          condition.subject (by simp)
        simp [hdifferent]
      have htaken : takeCondition (collected, conflicts) condition =
          (collected ++ [condition], conflicts) := by
        simp only [takeCondition, hnone]
      rw [List.foldl_cons, htaken, ih (by simpa using h)]
      simp

theorem Rule.of_eq {conditions : List (Condition ι)}
    (h : Separate (conditions.map (·.subject))) (item : τ) :
    Rule.of conditions item = .ok ⟨conditions, item⟩ := by
  rw [Rule.of, foldl_takeCondition_separate (by simpa using h)]
  rfl

end

def subjects (entries : List (Entry ι τ)) : List (Variable ι) :=
  entries.flatMap fun entry => entry.1.map (·.subject)

theorem Collected.opens {config : DeciderConfig} {builder : DeciderBuilder ι τ}
    {entries : List (Entry ι τ)} (h : Collected config builder entries) :
    builder.config = config ∧ Open (· ∈ subjects entries) [] builder.rules := by
  refine ⟨h.config_eq, fun rule hrule => ?_, fun rule hrule condition hcondition => ?_, by simp⟩
  · obtain ⟨entry, -, hof⟩ := h.exists_entry hrule
    exact (Rule.of_separate hof).2
  · obtain ⟨entry, hentry, hof⟩ := h.exists_entry hrule
    refine List.mem_flatMap.mpr ⟨entry, hentry, ?_⟩
    exact List.mem_map_of_mem ((Rule.of_separate hof).1 hcondition)

end Runbook.Decision
