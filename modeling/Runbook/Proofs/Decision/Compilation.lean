import Runbook.Proofs.Decision.Splitting
import Runbook.Decision.Decider

/-!
# Compiled trees

A compiled tree means what its rules mean: a walk that meets no failing variable collects the items
of the rules that hold on the input, each once.
-/

namespace Runbook.Decision

open Variable

variable {ι τ : Type}

/-! ## Steps of a compilation -/

theorem bind_ok {α β : Type} {first : Compile ι α} {rest : α → Compile ι β}
    {progress last : Progress ι} {result : β} (h : (first >>= rest) progress = .ok result last) :
    ∃ value next, first progress = .ok value next ∧ rest value next = .ok result last := by
  change EStateM.bind first rest progress = _ at h
  rw [EStateM.bind] at h
  cases hfirst : first progress with
  | ok value next =>
      rw [hfirst] at h
      exact ⟨value, next, rfl, h⟩
  | error error next =>
      rw [hfirst] at h
      cases h

theorem pure_ok {α : Type} {value result : α} {progress last : Progress ι}
    (h : (pure value : Compile ι α) progress = .ok result last) :
    result = value ∧ last = progress := by
  cases h
  exact ⟨rfl, rfl⟩

theorem optional_ok {α β : Type} {absent : Prop} [Decidable absent] {first : Compile ι α}
    {rest : Option α → Compile ι β} {progress last : Progress ι} {result : β}
    (h : (if absent then pure none >>= rest else (some <$> first) >>= rest) progress =
      .ok result last) :
    ∃ value next, rest value next = .ok result last ∧
      ((absent ∧ value = none ∧ next = progress) ∨
        ∃ inner, value = some inner ∧ first progress = .ok inner next) := by
  split at h
  · next habsent =>
    obtain ⟨value, next, hvalue, h⟩ := bind_ok h
    obtain ⟨rfl, rfl⟩ := pure_ok hvalue
    exact ⟨none, next, h, .inl ⟨habsent, rfl, rfl⟩⟩
  · obtain ⟨value, next, hvalue, h⟩ := bind_ok h
    rw [map_eq_pure_bind] at hvalue
    obtain ⟨inner, seen, hinner, hvalue⟩ := bind_ok hvalue
    obtain ⟨rfl, rfl⟩ := pure_ok hvalue
    exact ⟨some inner, next, h, .inr ⟨inner, rfl, hinner⟩⟩

theorem newNode_eq {limit : Option Nat} {progress last : Progress ι} {id : Nat}
    (h : newNode limit progress = .ok id last) :
    id = progress.nodes ∧ last = ⟨progress.nodes + 1, progress.calls⟩ := by
  unfold newNode at h
  split at h
  · split at h
    · cases h
    · cases h
      exact ⟨rfl, rfl⟩
  · cases h
    exact ⟨rfl, rfl⟩

theorem newNode_ok {limit : Option Nat} {progress last : Progress ι} {id : Nat}
    (h : newNode limit progress = .ok id last) :
    id = progress.nodes ∧ last.nodes = progress.nodes + 1 := by
  obtain ⟨rfl, rfl⟩ := newNode_eq h
  exact ⟨rfl, rfl⟩

theorem pinnedValue_ok {assumptions : Assumptions ι} {subject : Variable ι}
    {progress last : Progress ι} {value : Option Value}
    (h : pinnedValue assumptions subject progress = .ok value last) :
    last.nodes = progress.nodes ∧
      ∀ known, value = some known → (evaluateAssumed subject assumptions).1 = .ok known := by
  rw [pinnedValue] at h
  split at h
  · cases hresult : evaluateAssumed subject assumptions with
    | mk result called =>
        rw [hresult] at h
        cases result with
        | ok known =>
            cases h
            refine ⟨?_, fun _ hsome => ?_⟩
            · split <;> rfl
            · cases hsome
              rfl
        | error error => cases h
  · cases h
    exact ⟨rfl, by simp⟩

/-! ## Branches -/

inductive Branches {κ : Type} (P : κ → Tree ι τ → Nat → Nat → Prop) :
    List κ → List (κ × Tree ι τ) → Nat → Nat → Prop where
  | nil {first} : Branches P [] [] first first
  | cons {value tree values branches first next last} :
      P value tree first next → Branches P values branches next last →
      Branches P (value :: values) ((value, tree) :: branches) first last

private theorem branches_of_mapM {P : Value → Tree ι τ → Nat → Nat → Prop}
    {branch : Value → Compile ι (Value × Tree ι τ)}
    (hbranch : ∀ value progress result last, branch value progress = .ok result last →
      result.1 = value ∧ P value result.2 progress.nodes last.nodes)
    {values : List Value} {progress last : Progress ι} {branches : List (Value × Tree ι τ)}
    (h : values.mapM branch progress = .ok branches last) :
    Branches P values branches progress.nodes last.nodes := by
  induction values generalizing progress branches with
  | nil =>
      rw [List.mapM_nil] at h
      obtain ⟨rfl, rfl⟩ := pure_ok h
      exact .nil
  | cons value values ih =>
      rw [List.mapM_cons] at h
      obtain ⟨⟨_, tree⟩, next, hfirst, h⟩ := bind_ok h
      obtain ⟨others, final, hrest, h⟩ := bind_ok h
      obtain ⟨rfl, rfl⟩ := pure_ok h
      obtain ⟨rfl, htree⟩ := hbranch _ _ _ _ hfirst
      exact .cons htree (ih hrest)

theorem Branches.walk {P : Value → Tree ι τ → Nat → Nat → Prop} {values : List Value}
    {branches : List (Value × Tree ι τ)} {first last : Nat}
    (h : Branches P values branches first last) (collected : List τ) (value : Value) :
    (value ∉ values ∧ Tree.walkBranches collected value branches = none) ∨
      ∃ tree lower upper, P value tree lower upper ∧
        Tree.walkBranches collected value branches = some (tree.walkFrom collected) := by
  induction h with
  | nil => exact .inl ⟨by simp, rfl⟩
  | @cons own tree values branches first next last htree _ ih =>
      rw [Tree.walkBranches]
      by_cases hvalue : own = value
      · subst hvalue
        exact .inr ⟨tree, first, next, htree, if_pos rfl⟩
      · rw [if_neg hvalue]
        exact ih.imp_left fun ⟨hnew, hnone⟩ => ⟨by simp [Ne.symm hvalue, hnew], hnone⟩

/-! ## Levels -/

/-- The rules with conditions that are silent on a variable: they go into every branch. -/
abbrev conditionalOn (rules : List (Rule ι τ)) (subject : Variable ι) : List (Rule ι τ) :=
  (silentOn rules subject).filter (!isUnconditional ·)

/-- What one level of a compilation makes: a leaf, the tree of the rules that a pinned variable
leaves, or a node with the trees below it. -/
inductive Level (limit : Option Nat) (fuel : Nat) (rules : List (Rule ι τ))
    (assumptions : Assumptions ι) (progress last : Progress ι) : Tree ι τ → Prop where
  | leaf :
      pickSplit rules = none → last.nodes = progress.nodes + 1 →
      Level limit fuel rules assumptions progress last
        (.leaf progress.nodes (rules.map (·.item)))
  | settled {subject value next tree} :
      pickSplit rules = some subject →
      (evaluateAssumed subject assumptions).1 = .ok value →
      next.nodes = progress.nodes →
      compile limit fuel (settle rules subject value) ((subject, value) :: assumptions) next =
        .ok tree last →
      Level limit fuel rules assumptions progress last tree
  | split {subject next made below branches otherwise} :
      pickSplit rules = some subject →
      pinnedValue assumptions subject progress = .ok none next →
      made.nodes = progress.nodes + 1 →
      ((otherwise = none ∧ conditionalOn rules subject = [] ∧ below = made) ∨
        ∃ tree, otherwise = some tree ∧
          compile limit fuel (conditionalOn rules subject) assumptions made = .ok tree below) →
      Branches (fun value tree lower upper => ∃ start final : Progress ι,
          start.nodes = lower ∧ final.nodes = upper ∧
          compile limit fuel (askingFor rules subject value ++ conditionalOn rules subject)
            ((subject, value) :: assumptions) start = .ok tree final)
        (askedValues rules subject) branches below.nodes last.nodes →
      Level limit fuel rules assumptions progress last
        (.split progress.nodes subject
          (((silentOn rules subject).filter isUnconditional).map (·.item)) branches otherwise)

section

variable {limit : Option Nat} {rules : List (Rule ι τ)} {assumptions : Assumptions ι}
  {progress last : Progress ι} {tree : Tree ι τ}

theorem leaf_ok {items : List τ}
    (h : (do let id ← newNode limit; return .leaf id items : Compile ι (Tree ι τ)) progress =
      .ok tree last) : tree = .leaf progress.nodes items ∧ last.nodes = progress.nodes + 1 := by
  obtain ⟨id, next, hid, h⟩ := bind_ok h
  obtain ⟨rfl, hnodes⟩ := newNode_ok hid
  obtain ⟨rfl, rfl⟩ := pure_ok h
  exact ⟨rfl, hnodes⟩

theorem compile_ok {fuel : Nat}
    (h : compile limit (fuel + 1) rules assumptions progress = .ok tree last) :
    Level limit fuel rules assumptions progress last tree := by
  rw [compile] at h
  cases hpick : pickSplit rules with
  | none =>
      simp only [hpick] at h
      obtain ⟨rfl, hnodes⟩ := leaf_ok h
      exact .leaf hpick hnodes
  | some subject =>
      simp only [hpick] at h
      obtain ⟨pinned, next, hpinned, h⟩ := bind_ok h
      obtain ⟨hnodes, hvalue⟩ := pinnedValue_ok hpinned
      cases pinned with
      | some value => exact .settled hpick (hvalue value rfl) hnodes h
      | none =>
          obtain ⟨id, made, hid, h⟩ := bind_ok h
          obtain ⟨rfl, hmade⟩ := newNode_ok hid
          obtain ⟨otherwise, below, h, hotherwise⟩ := optional_ok h
          obtain ⟨branches, final, hbranches, h⟩ := bind_ok h
          obtain ⟨rfl, rfl⟩ := pure_ok h
          rw [hnodes]
          refine .split hpick hpinned (hnodes ▸ hmade) ?_
            (branches_of_mapM (fun value start result final hresult => ?_) hbranches)
          · rcases hotherwise with ⟨hnil, hnone, hbelow⟩ | hsome
            · exact .inl ⟨hnone, List.isEmpty_iff.mp hnil, hbelow⟩
            · exact .inr hsome
          · obtain ⟨tree, seen, htree, hresult⟩ := bind_ok hresult
            obtain ⟨rfl, rfl⟩ := pure_ok hresult
            exact ⟨rfl, start, final, rfl, rfl, htree⟩

end

/-! ## Ends of walks -/

namespace Tree

mutual

def ends (collected : List τ) : Tree ι τ → List (WalkEnd τ)
  | .leaf id items => [⟨id, collected ++ items⟩]
  | .split id _ items branches otherwise =>
    ⟨id, collected ++ items⟩ ::
      (otherwiseEnds (collected ++ items) otherwise ++ branchEnds (collected ++ items) branches)

def branchEnds (collected : List τ) : List (Value × Tree ι τ) → List (WalkEnd τ)
  | [] => []
  | (_, tree) :: branches => tree.ends collected ++ branchEnds collected branches

def otherwiseEnds (collected : List τ) : Option (Tree ι τ) → List (WalkEnd τ)
  | none => []
  | some tree => tree.ends collected

end

mutual

theorem walk_mem_ends (collected : List τ) (tree : Tree ι τ) {context next : Context ι}
    {walk : WalkEnd τ} (h : tree.walkFrom collected context = .ok walk next) :
    walk ∈ tree.ends collected := by
  cases tree with
  | leaf id items =>
      cases h
      exact List.mem_singleton_self _
  | split id subject items branches otherwise =>
      rw [walkFrom] at h
      change EStateM.bind _ _ context = _ at h
      rw [EStateM.bind] at h
      rw [ends]
      split at h
      · next value seen _ =>
        cases hbranch : walkBranches (collected ++ items) value branches with
        | some walked =>
            simp only [hbranch] at h
            exact List.mem_cons_of_mem _ (List.mem_append_right _
              (walkBranches_mem _ _ branches hbranch h))
        | none =>
            simp only [hbranch] at h
            cases hother : walkOtherwise (collected ++ items) otherwise with
            | some walked =>
                simp only [hother] at h
                exact List.mem_cons_of_mem _ (List.mem_append_left _
                  (walkOtherwise_mem _ otherwise hother h))
            | none =>
                simp only [hother] at h
                cases h
                exact List.mem_cons_self
      · cases h

theorem walkBranches_mem (collected : List τ) (value : Value)
    (branches : List (Value × Tree ι τ)) {walked : Live ι (WalkEnd τ)} {context next : Context ι}
    {walk : WalkEnd τ} (hsome : walkBranches collected value branches = some walked)
    (h : walked context = .ok walk next) : walk ∈ branchEnds collected branches := by
  cases branches with
  | nil => cases hsome
  | cons branch branches =>
      obtain ⟨own, tree⟩ := branch
      rw [walkBranches] at hsome
      rw [branchEnds]
      split at hsome
      · cases hsome
        exact List.mem_append_left _ (walk_mem_ends collected tree h)
      · exact List.mem_append_right _ (walkBranches_mem collected value branches hsome h)

private theorem walkOtherwise_mem (collected : List τ) (otherwise : Option (Tree ι τ))
    {walked : Live ι (WalkEnd τ)} {context next : Context ι} {walk : WalkEnd τ}
    (hsome : walkOtherwise collected otherwise = some walked)
    (h : walked context = .ok walk next) : walk ∈ otherwiseEnds collected otherwise := by
  cases otherwise with
  | none => cases hsome
  | some tree =>
      cases hsome
      exact walk_mem_ends collected tree h

end

/-- Whether no number in a range stands at two nodes, and no other number at any. -/
def Numbered (tree : Tree ι τ) (first last : Nat) : Prop :=
  first ≤ last ∧ ∀ collected, ((tree.ends collected).map (·.node)).Nodup ∧
    ∀ walk ∈ tree.ends collected, first ≤ walk.node ∧ walk.node < last

end Tree

theorem Branches.numbered {branches : List (Value × Tree ι τ)} {values : List Value}
    {first last : Nat}
    (h : Branches (fun _ tree lower upper => tree.Numbered lower upper) values branches
      first last) (collected : List τ) :
    first ≤ last ∧ ((Tree.branchEnds collected branches).map (·.node)).Nodup ∧
      ∀ walk ∈ Tree.branchEnds collected branches, first ≤ walk.node ∧ walk.node < last := by
  induction h with
  | nil => exact ⟨Nat.le_refl _, by simp [Tree.branchEnds]⟩
  | @cons value tree values branches first next last htree _ ih =>
      obtain ⟨hle, hrest, hupper⟩ := ih
      obtain ⟨hnext, hends⟩ := htree
      obtain ⟨hnodup, hlower⟩ := hends collected
      refine ⟨Nat.le_trans hnext hle, ?_, fun walk hwalk => ?_⟩
      · rw [Tree.branchEnds, List.map_append, List.nodup_append]
        refine ⟨hnodup, hrest, ?_⟩
        intro node hnode other hother
        obtain ⟨walk, hwalk, rfl⟩ := List.mem_map.mp hnode
        obtain ⟨otherWalk, hotherWalk, rfl⟩ := List.mem_map.mp hother
        have := hlower walk hwalk
        have := hupper otherWalk hotherWalk
        omega
      · rcases List.mem_append.mp hwalk with hwalk | hwalk
        · have := hlower walk hwalk
          omega
        · have := hupper walk hwalk
          omega

theorem Tree.Numbered.leaf (id : Nat) (items : List τ) :
    (Tree.leaf id items : Tree ι τ).Numbered id (id + 1) := by
  refine ⟨Nat.le_succ id, fun collected => ⟨by simp [Tree.ends], fun walk hwalk => ?_⟩⟩
  rw [List.mem_singleton.mp hwalk]
  exact ⟨Nat.le_refl _, Nat.lt_succ_self _⟩

theorem Tree.Numbered.split {id last next : Nat} {subject : Variable ι} {items : List τ}
    {values : List Value} {branches : List (Value × Tree ι τ)} {otherwise : Option (Tree ι τ)}
    (hotherwise : (otherwise = none ∧ next = id + 1) ∨
      ∃ tree, otherwise = some tree ∧ tree.Numbered (id + 1) next)
    (hbranches : Branches (fun _ tree lower upper => tree.Numbered lower upper) values branches
      next last) :
    (Tree.split id subject items branches otherwise).Numbered id last := by
  have hfirst : ∀ collected, id + 1 ≤ next ∧
      ((Tree.otherwiseEnds collected otherwise).map (·.node)).Nodup ∧
      ∀ walk ∈ Tree.otherwiseEnds collected otherwise, id + 1 ≤ walk.node ∧ walk.node < next := by
    intro collected
    rcases hotherwise with ⟨rfl, rfl⟩ | ⟨tree, rfl, hle, hends⟩
    · exact ⟨Nat.le_refl _, by simp [Tree.otherwiseEnds]⟩
    · exact ⟨hle, hends collected⟩
  have hlast := hbranches.numbered
  refine ⟨?_, fun collected => ⟨?_, fun walk hwalk => ?_⟩⟩
  · have := (hfirst []).1
    have := (hlast []).1
    omega
  · obtain ⟨-, honce, hlower⟩ := hfirst (collected ++ items)
    obtain ⟨-, htwice, hupper⟩ := hlast (collected ++ items)
    rw [Tree.ends, List.map_cons, List.map_append, List.nodup_cons, List.nodup_append]
    refine ⟨fun hid => ?_, honce, htwice, ?_⟩
    · rw [← List.map_append] at hid
      obtain ⟨walk, hwalk, hsame⟩ := List.mem_map.mp hid
      have hnode : walk.node = id := hsame
      rcases List.mem_append.mp hwalk with hwalk | hwalk
      · have := hlower walk hwalk
        omega
      · have := hupper walk hwalk
        have := (hfirst []).1
        omega
    · intro node hnode other hother
      obtain ⟨walk, hwalk, rfl⟩ := List.mem_map.mp hnode
      obtain ⟨otherWalk, hotherWalk, rfl⟩ := List.mem_map.mp hother
      have := hlower walk hwalk
      have := hupper otherWalk hotherWalk
      omega
  · obtain ⟨hbelow, -, hlower⟩ := hfirst (collected ++ items)
    obtain ⟨habove, -, hupper⟩ := hlast (collected ++ items)
    rcases List.mem_cons.mp hwalk with rfl | hwalk
    · exact ⟨Nat.le_refl _, by change id < last; omega⟩
    · rcases List.mem_append.mp hwalk with hwalk | hwalk
      · have := hlower walk hwalk
        omega
      · have := hupper walk hwalk
        omega

theorem Branches.imp {P Q : Value → Tree ι τ → Nat → Nat → Prop} (hPQ : ∀ {value tree lower upper},
      P value tree lower upper → Q value tree lower upper)
    {values : List Value} {branches : List (Value × Tree ι τ)} {first last : Nat}
    (h : Branches P values branches first last) : Branches Q values branches first last := by
  induction h with
  | nil => exact .nil
  | cons htree _ ih => exact .cons (hPQ htree) ih

theorem compile_numbered (limit : Option Nat) (fuel : Nat) {rules : List (Rule ι τ)}
    {assumptions : Assumptions ι} {progress last : Progress ι} {tree : Tree ι τ}
    (h : compile limit fuel rules assumptions progress = .ok tree last) :
    tree.Numbered progress.nodes last.nodes := by
  induction fuel generalizing rules assumptions progress last tree with
  | zero =>
      obtain ⟨rfl, hnodes⟩ := leaf_ok h
      exact hnodes ▸ .leaf _ _
  | succ fuel ih =>
      cases compile_ok h with
      | leaf _ hnodes => exact hnodes ▸ .leaf _ _
      | settled _ _ hnodes h => exact hnodes ▸ ih h
      | split _ _ hmade hotherwise hbranches =>
          refine .split ?_ (hbranches.imp ?_)
          · rw [← hmade]
            rcases hotherwise with ⟨hnone, -, rfl⟩ | ⟨tree, hsome, htree⟩
            · exact .inl ⟨hnone, rfl⟩
            · exact .inr ⟨tree, hsome, ih htree⟩
          · rintro value tree lower upper ⟨start, final, rfl, rfl, htree⟩
            exact ih htree

/-! ## Meaning -/

/-- Whether all walks through a tree collect what rules choose on inputs that agree with
assumptions. -/
def Tree.Means (known : Variable ι → Prop) (rules : List (Rule ι τ)) (assumptions : Assumptions ι)
    (tree : Tree ι τ) : Prop :=
  ∀ input collected context next walk, Agrees known input assumptions →
    Faithful known input context → tree.walkFrom collected context = .ok walk next →
    walk.items.Perm (collected ++ chosen input rules)

section

variable {known : Variable ι → Prop} {rules : List (Rule ι τ)} {assumptions : Assumptions ι}
  {subject : Variable ι}

theorem Tree.Means.leaf (id : Nat) (h : ∀ rule ∈ rules, rule.conditions = []) :
    (Tree.leaf id (rules.map (·.item))).Means known rules assumptions := by
  intro input collected context next walk _ _ hwalk
  cases hwalk
  rw [chosen_unconditional h]

theorem Tree.Means.settled (hcoherent : Coherent known) (hwithin : Within known rules)
    (hknown : known subject) {value : Value} {tree : Tree ι τ}
    (hvalue : (evaluateAssumed subject assumptions).1 = .ok value)
    (h : tree.Means known (settle rules subject value) ((subject, value) :: assumptions)) :
    tree.Means known rules assumptions := by
  intro input collected context next walk hagrees hfaithful hwalk
  have htrue := evaluateAssumed_sound hcoherent hagrees hknown hvalue
  rw [← chosen_settle hcoherent hwithin hknown htrue]
  exact h input collected context next walk
    (List.forall_mem_cons.mpr ⟨⟨hknown, htrue⟩, hagrees⟩) hfaithful hwalk

theorem Tree.Means.split (hcoherent : Coherent known) (hwithin : Within known rules)
    (hknown : known subject) {id first last : Nat} {branches : List (Value × Tree ι τ)}
    {otherwise : Option (Tree ι τ)}
    (hotherwise : (otherwise = none ∧
        (silentOn rules subject).filter (!isUnconditional ·) = []) ∨
      ∃ tree, otherwise = some tree ∧
        tree.Means known ((silentOn rules subject).filter (!isUnconditional ·)) assumptions)
    (hbranches : Branches (fun value tree _ _ =>
        tree.Means known (askingFor rules subject value ++
          (silentOn rules subject).filter (!isUnconditional ·)) ((subject, value) :: assumptions))
      (askedValues rules subject) branches first last) :
    (Tree.split id subject (((silentOn rules subject).filter isUnconditional).map (·.item))
      branches otherwise).Means known rules assumptions := by
  intro input collected context next walk hagrees hfaithful hwalk
  rw [Tree.walkFrom] at hwalk
  change EStateM.bind _ _ context = _ at hwalk
  rw [EStateM.bind] at hwalk
  have hget := computes_get hcoherent hknown context hfaithful
  cases hrun : Live.get subject context with
  | error error seen =>
      rw [hrun] at hwalk
      cases hwalk
  | ok value seen =>
      rw [hrun] at hwalk hget
      obtain ⟨hvalue, hseen⟩ := hget
      have hitems := chosen_split hcoherent hwithin hknown hvalue
      refine List.Perm.trans ?_ (hitems.append_left collected)
      rw [← List.append_assoc]
      rcases hbranches.walk
          (collected ++ ((silentOn rules subject).filter isUnconditional).map (·.item)) value with
        ⟨hunasked, hnone⟩ | ⟨tree, lower, upper, htree, hsome⟩
      · rw [askingFor_eq_nil hunasked, List.nil_append]
        simp only [hnone] at hwalk
        rcases hotherwise with ⟨rfl, hnil⟩ | ⟨tree, rfl, htree⟩
        · simp only [Tree.walkOtherwise] at hwalk
          cases hwalk
          rw [hnil]
          simp [chosen]
        · simp only [Tree.walkOtherwise] at hwalk
          exact htree input _ seen next walk hagrees hseen hwalk
      · simp only [hsome] at hwalk
        exact htree input _ seen next walk
          (List.forall_mem_cons.mpr ⟨⟨hknown, hvalue⟩, hagrees⟩) hseen hwalk

/-- The tree of rules means what the rules mean, by recursion over the levels of its compilation. -/
theorem compile_means (hcoherent : Coherent known) (limit : Option Nat) (fuel : Nat)
    (hwithin : Within known rules) (hfuel : conditionCount rules ≤ fuel)
    {progress last : Progress ι} {tree : Tree ι τ}
    (h : compile limit fuel rules assumptions progress = .ok tree last) :
    tree.Means known rules assumptions := by
  induction fuel generalizing rules assumptions progress last tree with
  | zero =>
      obtain ⟨rfl, -⟩ := leaf_ok h
      exact .leaf _ (conditions_of_conditionCount_eq_zero (Nat.eq_zero_of_le_zero hfuel))
  | succ fuel ih =>
      cases compile_ok h with
      | leaf hpick => exact .leaf _ (conditions_of_pickSplit_none hpick)
      | @settled subject value _ _ hpick hvalue _ h =>
          have hmentioned := mem_mentions_of_pickSplit hpick
          have hfewer := conditionCount_settle_lt value hmentioned
          exact (ih (within_settle hwithin) (by omega) h).settled hcoherent hwithin
            (known_of_mention hwithin hmentioned) hvalue
      | @split subject _ _ _ _ _ hpick _ _ hotherwise hbranches =>
          have hmentioned := mem_mentions_of_pickSplit hpick
          have hfewer := conditionCount_otherwise_lt hmentioned
          refine .split hcoherent hwithin (known_of_mention hwithin hmentioned) ?_ (hbranches.imp ?_)
          · rcases hotherwise with ⟨hnone, hnil, -⟩ | ⟨tree, hsome, htree⟩
            · exact .inl ⟨hnone, hnil⟩
            · exact .inr ⟨tree, hsome, ih (within_conditional hwithin) (by omega) htree⟩
          · rintro value tree lower upper ⟨start, final, -, -, htree⟩
            have hfewer := conditionCount_branch_lt value hmentioned
            exact ih (within_branch hwithin) (by omega) htree

theorem compile_sound (hcoherent : Coherent known) (limit : Option Nat) (fuel : Nat)
    (hwithin : Within known rules) (hfuel : conditionCount rules ≤ fuel)
    {progress last : Progress ι} {tree : Tree ι τ}
    (h : compile limit fuel rules assumptions progress = .ok tree last) :
    tree.Numbered progress.nodes last.nodes ∧ tree.Means known rules assumptions :=
  ⟨compile_numbered limit fuel h, compile_means hcoherent limit fuel hwithin hfuel h⟩

end

end Runbook.Decision
