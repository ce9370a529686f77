import Runbook.Proofs.Decision.Pinning
import Runbook.Proofs.Decision.Structure

/-!
# Ceilings

A bound on the nodes of a tree changes nothing but its size.  Rules that make no more nodes than
allowed are compiled as if there were no bound, also where they fail; other rules fail for want of
room, and no more nodes than allowed are made on the way there.
-/

namespace Runbook.Decision

open Variable

variable {ι τ π ω α β : Type}

/-! ## What is done at the end -/

def reached : EStateM.Result DecisionError (Progress ι) α → Progress ι
  | .ok _ progress => progress
  | .error _ progress => progress

section

variable {first : Compile ι α} {rest : α → Compile ι β} {progress seen : Progress ι}

theorem bind_of_ok {value : α} (h : first progress = .ok value seen) :
    (first >>= rest) progress = rest value seen := by
  change EStateM.bind first rest progress = _
  rw [EStateM.bind, h]

theorem bind_of_error {error : DecisionError} (h : first progress = .error error seen) :
    (first >>= rest) progress = .error error seen := by
  change EStateM.bind first rest progress = _
  rw [EStateM.bind, h]

end

/-- Whether a step under a bound does what it does without one, as long as there is room, and fails
for want of room otherwise. -/
structure Capped (most : Nat) (free bound : Compile ι α) : Prop where
  grows : ∀ progress, progress.nodes ≤ (reached (free progress)).nodes
  within : ∀ progress, (reached (free progress)).nodes ≤ most → bound progress = free progress
  beyond : ∀ progress, progress.nodes ≤ most → most < (reached (free progress)).nodes →
    ∃ last, bound progress = .error (.treeTooLarge most) last ∧ last.nodes = most

namespace Capped

variable {most : Nat}

theorem of_still {compute : Compile ι α}
    (h : ∀ progress, (reached (compute progress)).nodes = progress.nodes) :
    Capped most compute compute where
  grows progress := Nat.le_of_eq (h progress).symm
  within _ _ := rfl
  beyond progress hroom hlarge := by
    have := h progress
    omega

theorem pure (value : α) : Capped (ι := ι) most (Pure.pure value) (Pure.pure value) :=
  of_still fun _ => rfl

theorem bind {free bound : Compile ι α} {rest next : α → Compile ι β} (h : Capped most free bound)
    (hrest : ∀ value, Capped most (rest value) (next value)) :
    Capped most (free >>= rest) (bound >>= next) where
  grows progress := by
    have hgrows := h.grows progress
    cases hfree : free progress with
    | ok value seen =>
        rw [hfree] at hgrows
        rw [bind_of_ok hfree]
        exact Nat.le_trans hgrows ((hrest value).grows seen)
    | error error seen =>
        rw [hfree] at hgrows
        rw [bind_of_error hfree]
        exact hgrows
  within progress hsmall := by
    have hwithin := h.within progress
    cases hfree : free progress with
    | ok value seen =>
        rw [bind_of_ok hfree] at hsmall ⊢
        rw [hfree] at hwithin
        rw [bind_of_ok (hwithin (Nat.le_trans ((hrest value).grows seen) hsmall))]
        exact (hrest value).within seen hsmall
    | error error seen =>
        rw [bind_of_error hfree] at hsmall ⊢
        rw [hfree] at hwithin
        exact bind_of_error (hwithin hsmall)
  beyond progress hroom hlarge := by
    by_cases hfirst : (reached (free progress)).nodes ≤ most
    · have hwithin := h.within progress hfirst
      cases hfree : free progress with
      | ok value seen =>
          rw [bind_of_ok hfree] at hlarge
          rw [hfree] at hwithin hfirst
          rw [bind_of_ok hwithin]
          exact (hrest value).beyond seen hfirst hlarge
      | error error seen =>
          rw [bind_of_error hfree] at hlarge
          rw [hfree] at hfirst
          exact absurd hlarge (Nat.not_lt.mpr hfirst)
    · -- the first step already lacks room
      obtain ⟨last, hbound, hlast⟩ := h.beyond progress hroom (Nat.lt_of_not_le hfirst)
      exact ⟨last, bind_of_error hbound, hlast⟩

theorem map {free bound : Compile ι α} (h : Capped most free bound) (convert : α → β) :
    Capped most (convert <$> free) (convert <$> bound) := by
  rw [map_eq_pure_bind, map_eq_pure_bind]
  exact h.bind fun value => .pure (convert value)

theorem mapM {κ : Type} {free bound : κ → Compile ι α}
    (h : ∀ value, Capped most (free value) (bound value)) (values : List κ) :
    Capped most (values.mapM free) (values.mapM bound) := by
  induction values with
  | nil => exact .pure []
  | cons value values ih =>
      rw [List.mapM_cons, List.mapM_cons]
      exact (h value).bind fun first => ih.bind fun others => .pure (first :: others)

theorem keeps {free bound : Compile ι α} (h : Capped most free bound) {progress : Progress ι}
    (hroom : progress.nodes ≤ most) : (reached (bound progress)).nodes ≤ most := by
  by_cases hsmall : (reached (free progress)).nodes ≤ most
  · rw [h.within progress hsmall]
    exact hsmall
  · obtain ⟨last, hbound, hlast⟩ := h.beyond progress hroom (Nat.lt_of_not_le hsmall)
    rw [hbound]
    exact Nat.le_of_eq hlast

theorem room {free bound : Compile ι α} (h : Capped most free bound) {progress next : Progress ι}
    {value : α} (hroom : progress.nodes ≤ most) (hok : bound progress = .ok value next) :
    next.nodes ≤ most := by
  have hkept := h.keeps hroom
  rwa [hok] at hkept

theorem newNode : Capped (ι := ι) most (Decision.newNode none) (Decision.newNode (some most)) := by
  have hfree : ∀ progress : Progress ι, Decision.newNode none progress =
      .ok progress.nodes { progress with nodes := progress.nodes + 1 } := fun _ => rfl
  constructor
  · intro progress
    rw [hfree]
    exact Nat.le_succ _
  · intro progress hsmall
    rw [hfree] at hsmall ⊢
    have hroom : ¬ most ≤ progress.nodes := Nat.not_le.mpr hsmall
    simp [Decision.newNode, hroom]
  · intro progress hroom hlarge
    rw [hfree] at hlarge
    have hfull : progress.nodes = most := Nat.le_antisymm hroom (Nat.le_of_lt_succ hlarge)
    exact ⟨progress, by simp [Decision.newNode, hfull], hfull⟩

theorem pinnedValue (assumptions : Assumptions ι) (subject : Variable ι) :
    Capped most (Decision.pinnedValue assumptions subject)
      (Decision.pinnedValue assumptions subject) := by
  refine of_still fun progress => ?_
  rw [Decision.pinnedValue]
  split
  · cases hresult : evaluateAssumed subject assumptions with
    | mk result called => cases result <;> cases called <;> rfl
  · rfl

end Capped

/-! ## Levels of a compilation -/

def otherwiseTree (limit : Option Nat) (fuel : Nat) (rules : List (Rule ι τ))
    (subject : Variable ι) (assumptions : Assumptions ι) : Compile ι (Option (Tree ι τ)) :=
  if (conditionalOn rules subject).isEmpty then pure none
  else some <$> compile limit fuel (conditionalOn rules subject) assumptions

def branchTrees (limit : Option Nat) (fuel : Nat) (rules : List (Rule ι τ)) (subject : Variable ι)
    (assumptions : Assumptions ι) (values : List Value) : Compile ι (List (Value × Tree ι τ)) :=
  values.mapM fun value => do
    let tree ← compile limit fuel (askingFor rules subject value ++ conditionalOn rules subject)
      ((subject, value) :: assumptions)
    return (value, tree)

section

variable {rules : List (Rule ι τ)} {subject : Variable ι} {assumptions : Assumptions ι}

theorem compile_level (limit : Option Nat) (fuel : Nat) (h : pickSplit rules = some subject) :
    compile limit (fuel + 1) rules assumptions = do
      match ← pinnedValue assumptions subject with
      | some known =>
        compile limit fuel (settle rules subject known) ((subject, known) :: assumptions)
      | none =>
        let id ← newNode limit
        let otherwise ← otherwiseTree limit fuel rules subject assumptions
        let branches ← branchTrees limit fuel rules subject assumptions (askedValues rules subject)
        return .split id subject (((silentOn rules subject).filter isUnconditional).map (·.item))
          branches otherwise := by
  rw [compile]
  simp only [h]
  refine bind_congr fun pinned => ?_
  cases pinned with
  | some known => rfl
  | none =>
      refine bind_congr fun id => ?_
      rw [otherwiseTree, conditionalOn]
      by_cases hnone : ((silentOn rules subject).filter (!isUnconditional ·)).isEmpty
      · rw [if_pos hnone, if_pos hnone]
        rfl
      · rw [if_neg hnone, if_neg hnone]
        rfl

end

section

variable {most fuel : Nat}
  (h : ∀ (rules : List (Rule ι τ)) (assumptions : Assumptions ι),
    Capped most (compile none fuel rules assumptions) (compile (some most) fuel rules assumptions))
include h

theorem otherwiseTree_capped (rules : List (Rule ι τ)) (subject : Variable ι)
    (assumptions : Assumptions ι) :
    Capped most (otherwiseTree none fuel rules subject assumptions)
      (otherwiseTree (some most) fuel rules subject assumptions) := by
  rw [otherwiseTree, otherwiseTree]
  split
  · exact .pure none
  · exact (h _ _).map some

theorem branchTrees_capped (rules : List (Rule ι τ)) (subject : Variable ι)
    (assumptions : Assumptions ι) (values : List Value) :
    Capped most (branchTrees none fuel rules subject assumptions values)
      (branchTrees (some most) fuel rules subject assumptions values) :=
  Capped.mapM (fun value => (h _ _).bind fun tree => .pure (value, tree)) values

end

theorem compile_capped (most fuel : Nat) (rules : List (Rule ι τ)) (assumptions : Assumptions ι) :
    Capped most (compile none fuel rules assumptions)
      (compile (some most) fuel rules assumptions) := by
  induction fuel generalizing rules assumptions with
  | zero =>
      rw [compile, compile]
      exact Capped.newNode.bind fun id => .pure _
  | succ fuel ih =>
      cases hpick : pickSplit rules with
      | none =>
          rw [compile_of_none _ _ hpick, compile_of_none _ _ hpick]
          exact Capped.newNode.bind fun id => .pure _
      | some subject =>
          rw [compile_level _ _ hpick, compile_level _ _ hpick]
          refine (Capped.pinnedValue assumptions subject).bind fun pinned => ?_
          cases pinned with
          | some known => exact ih _ _
          | none =>
              exact Capped.newNode.bind fun id =>
                (otherwiseTree_capped ih rules subject assumptions).bind fun otherwise =>
                  (branchTrees_capped ih rules subject assumptions _).bind fun branches => .pure _

/-! ## Calls during a build -/

/-- A call of the compilation: the levels that are left, its rules and assumptions, and what was done
before it. -/
structure Call (ι τ : Type) where
  levels : Nat
  rules : List (Rule ι τ)
  assumptions : Assumptions ι
  before : Progress ι

namespace Call

def first (rules : List (Rule ι τ)) : Call ι τ := ⟨conditionCount rules, rules, [], ⟨0, []⟩⟩

def done (limit : Option Nat) (call : Call ι τ) : Progress ι :=
  reached (compile limit call.levels call.rules call.assumptions call.before)

/-- The calls that a call makes: for the rules left by a pinned variable, for all other values, and
for one value after another. -/
inductive Makes (limit : Option Nat) : Call ι τ → Call ι τ → Prop
  | settled {levels rules assumptions before subject known next} :
      pickSplit rules = some subject →
      pinnedValue assumptions subject before = .ok (some known) next →
      Makes limit ⟨levels + 1, rules, assumptions, before⟩
        ⟨levels, settle rules subject known, (subject, known) :: assumptions, next⟩
  | otherwise {levels rules assumptions before subject next id made} :
      pickSplit rules = some subject →
      pinnedValue assumptions subject before = .ok none next →
      newNode limit next = .ok id made →
      ¬ (conditionalOn rules subject).isEmpty →
      Makes limit ⟨levels + 1, rules, assumptions, before⟩
        ⟨levels, conditionalOn rules subject, assumptions, made⟩
  | branch {levels rules assumptions before subject next id made otherwise below earlier branches
      seen value later} :
      pickSplit rules = some subject →
      pinnedValue assumptions subject before = .ok none next →
      newNode limit next = .ok id made →
      otherwiseTree limit levels rules subject assumptions made = .ok otherwise below →
      askedValues rules subject = earlier ++ value :: later →
      branchTrees limit levels rules subject assumptions earlier below = .ok branches seen →
      Makes limit ⟨levels + 1, rules, assumptions, before⟩
        ⟨levels, askingFor rules subject value ++ conditionalOn rules subject,
          (subject, value) :: assumptions, seen⟩

theorem Makes.room {most : Nat} {call inner : Call ι τ} (h : Makes (some most) call inner)
    (hroom : call.before.nodes ≤ most) : inner.before.nodes ≤ most := by
  cases h with
  | settled hpick hpinned => exact (Capped.pinnedValue _ _).room hroom hpinned
  | otherwise hpick hpinned hid hconditional =>
      exact Capped.newNode.room ((Capped.pinnedValue _ _).room hroom hpinned) hid
  | branch hpick hpinned hid hotherwise hvalues hbranches =>
      have hmade := Capped.newNode.room ((Capped.pinnedValue _ _).room hroom hpinned) hid
      have hbelow := (otherwiseTree_capped (compile_capped most _) _ _ _).room hmade hotherwise
      exact (branchTrees_capped (compile_capped most _) _ _ _ _).room hbelow hbranches

def During (limit : Option Nat) (rules : List (Rule ι τ)) : Call ι τ → Prop :=
  Relation.ReflTransGen (Makes limit) (first rules)

theorem During.room {most : Nat} {rules : List (Rule ι τ)} {call : Call ι τ}
    (h : During (some most) rules call) :
    call.before.nodes ≤ most ∧ (call.done (some most)).nodes ≤ most := by
  have hbefore : call.before.nodes ≤ most := by
    induction h with
    | refl => exact Nat.zero_le most
    | tail _ hmakes ih => exact hmakes.room ih
  exact ⟨hbefore, (compile_capped most call.levels call.rules call.assumptions).keeps hbefore⟩

end Call

/-! ## Bounded builds -/

def freeNodes (rules : List (Rule ι τ)) : Nat := ((Call.first rules).done none).nodes

/-- Without a bound a build ends in a tree, or where a pinned variable does not have a value.  With
room for the nodes that are made up to there, a bound changes nothing; with less room the build fails
for want of it.  At no call of a bounded build, before or after, are there more nodes than allowed. -/
theorem DeciderBuilder.under_ceiling (builder : DeciderBuilder ι τ) (factory : Factory ι τ π ω)
    (most : Nat) :
    (∀ error, ({ builder with config := .unlimited }.build factory).outcome = .error error →
      ∃ subject source, error = .assumptionViolated subject source) ∧
    (freeNodes builder.rules ≤ most →
      { builder with config := ⟨some most⟩ }.build factory =
        { builder with config := .unlimited }.build factory) ∧
    (most < freeNodes builder.rules →
      ({ builder with config := ⟨some most⟩ }.build factory).outcome =
        .error (.treeTooLarge most)) ∧
    ∀ call, Call.During (some most) builder.rules call →
      call.before.nodes ≤ most ∧ (call.done (some most)).nodes ≤ most := by
  have hcapped := compile_capped most (conditionCount builder.rules) builder.rules []
  refine ⟨fun error herror => ?_, fun hsmall => ?_, fun hlarge => ?_, fun call hcall => hcall.room⟩
  · obtain ⟨last, hfailed⟩ := build_failed herror
    have hwithin : Within (fun _ => True) builder.rules := fun _ _ _ _ => trivial
    rcases compile_error none _ hwithin hfailed with
      ⟨limit, hlimit, -⟩ | ⟨subject, -, -, source, hsource⟩
    · cases hlimit
    · exact ⟨_, source, hsource⟩
  · have hsame := hcapped.within ⟨0, []⟩ hsmall
    simp only [build, buildTree, compileRules, DeciderConfig.unlimited, hsame]
  · obtain ⟨last, hfailed, -⟩ := hcapped.beyond ⟨0, []⟩ (Nat.zero_le most) hlarge
    simp only [build, buildTree, compileRules, hfailed]
    rfl

theorem under_ceiling_flagRules :
    freeNodes flagBuilder.rules = 4 ∧
    ({ flagBuilder with config := ⟨some 4⟩ }.build (.ofItems id)).outcome =
      .ok (Decider.new flagTree (.ofItems id)) ∧
    ({ flagBuilder with config := ⟨some 3⟩ }.build
      (.ofItems id : Factory Bool String (List String) (List String))).outcome =
        .error (.treeTooLarge 3) ∧
    ∃ call, Call.During (some 3) flagBuilder.rules call ∧ call.before.nodes = 3 ∧
      (call.done (some 3)).nodes ≤ 3 := by
  have hnodes : freeNodes flagBuilder.rules = 4 := rfl
  obtain ⟨-, hsame, -, -⟩ :=
    flagBuilder.under_ceiling (.ofItems id : Factory Bool String (List String) (List String)) 4
  obtain ⟨-, -, hlarge, hduring⟩ :=
    flagBuilder.under_ceiling (.ofItems id : Factory Bool String (List String) (List String)) 3
  have hcall : Call.During (some 3) flagBuilder.rules
      ⟨3, askingFor flagBuilder.rules flag (.bool true) ++ conditionalOn flagBuilder.rules flag,
        [(flag, .bool true)], ⟨3, []⟩⟩ :=
    .single (@Call.Makes.branch _ _ _ _ _ _ _ _ ⟨0, []⟩ _ ⟨1, []⟩ _ _ [] _ _ _ [] rfl rfl rfl
      rfl rfl rfl)
  exact ⟨hnodes, congrArg Built.outcome (hsame (Nat.le_of_eq hnodes)),
    hlarge (by rw [hnodes]; decide), _, hcall, rfl, (hduring _ hcall).2⟩

end Runbook.Decision
