import Runbook.Proofs.Decision.Preparation
import Runbook.Proofs.Decision.Stability
import Runbook.Proofs.Plan.Operations

/-!
# Order of patches

A decision prepares its output from the items of the selected rules in a fixed order: those of the
rules without conditions first, and those of rules with the same conditions as the rules were added.
Patches are applied to a case plan in this order.
-/

namespace Runbook.Decision

variable {ι τ π ω : Type}

/-! ## Lists side by side -/

section

variable {α β : Type} {R : α → β → Prop} {members : List α} {others : List β}

theorem findIdxs_of_forall₂ (h : List.Forall₂ R members others) {keep : α → Bool} {kept : β → Bool}
    (hkeep : ∀ member other, R member other → keep member = kept other) (start : Nat) :
    members.findIdxs keep start = others.findIdxs kept start := by
  induction h generalizing start with
  | nil => rfl
  | cons hfirst _ ih => rw [List.findIdxs_cons, List.findIdxs_cons, ih, hkeep _ _ hfirst]

theorem exists_getElem?_of_forall₂ (h : List.Forall₂ R members others) {place : Nat} {member : α}
    (hmember : members[place]? = some member) :
    ∃ other, others[place]? = some other ∧ R member other := by
  induction h generalizing place with
  | nil => cases hmember
  | cons hfirst _ ih =>
      cases place with
      | zero =>
          cases hmember
          exact ⟨_, rfl, hfirst⟩
      | succ place => exact ih hmember

end

/-! ## Places of entries -/

theorem Collected.walk_places {config : DeciderConfig} {builder : DeciderBuilder ι τ}
    {entries : List (Entry ι τ)} (h : Collected config builder entries) {tree : Tree ι τ}
    (hbuild : builder.buildTree.outcome = .ok tree) {input : ι} {context : Context ι}
    {walk : WalkEnd τ} (hwalk : tree.walk (.new input) = .ok walk context) :
    ∃ places : List Nat,
      walk.items.map some = places.map (fun place => entries[place]?.map (·.2)) ∧
      places.Nodup ∧
      entries.findIdxs (·.1.isEmpty) <+: places ∧
      places.Pairwise (fun place other => ∀ first second, entries[place]? = some first →
        entries[other]? = some second → SameConditions first.1 second.1 → place < other) ∧
      (Consistent entries →
        places.Perm (entries.findIdxs fun entry => entry.1.all (·.holdsOn input))) := by
  have hmade := h.made
  obtain ⟨places, hitems, hfirst, hsorted, hperm⟩ :=
    DeciderBuilder.walk_places h.opens.2 hbuild hwalk
  refine ⟨places, ?_, hsorted.imp And.left, ?_, hsorted.imp fun {place other} hturn => ?_,
    fun hconsistent => ?_⟩
  · rw [hitems]
    refine List.map_congr_left fun place _ => ?_
    cases hentry : entries[place]? with
    | none =>
        rw [List.getElem?_eq_none_iff, hmade.length_eq, ← List.getElem?_eq_none_iff] at hentry
        rw [hentry]
        rfl
    | some entry =>
        obtain ⟨rule, hrule, hof⟩ := exists_getElem?_of_forall₂ hmade hentry
        rw [hrule, Option.map_some, Option.map_some, Rule.of_item hof]
  · rwa [findIdxs_of_forall₂ hmade fun _ _ hof => (Rule.of_isUnconditional hof).symm]
  · intro first second hfound hsecond hsame
    obtain ⟨rule, hrule, hof⟩ := exists_getElem?_of_forall₂ hmade hfound
    obtain ⟨behind, hbehind, hofBehind⟩ := exists_getElem?_of_forall₂ hmade hsecond
    exact hturn.2 rule behind hrule hbehind (Rule.of_alike hof hofBehind hsame)
  · have hcoherent := hconsistent.coherent
    have hmentioned : ∀ entry ∈ entries, ∀ condition ∈ entry.1,
        Mentioned entries condition.subject :=
      fun entry hentry condition hcondition => mentioned_of_condition hentry hcondition
    have hwithin := (h.rules hcoherent hmentioned input).1
    have hholds : entries.findIdxs (fun entry => entry.1.all (·.holdsOn input)) =
        builder.rules.findIdxs (·.holdsOn input) :=
      findIdxs_of_forall₂ ((List.forall₂_and_left _ _).mpr ⟨fun _ => id, hmade⟩)
        (fun entry rule hrule =>
          (Rule.of_ok input hcoherent hrule.2 (hmentioned entry hrule.1)).2.2.symm) 0
    rw [hholds]
    exact hperm _ hcoherent hwithin

theorem Collected.prepares_walk {config : DeciderConfig} {builder : DeciderBuilder ι τ}
    {entries : List (Entry ι τ)} (h : Collected config builder entries)
    {factory : Factory ι τ π ω} {tree : Tree ι τ} (hbuild : builder.buildTree.outcome = .ok tree)
    (earlier : List ι) {input : ι} {walk : WalkEnd τ} {context : Context ι}
    (hwalk : tree.walk (.new input) = .ok walk context) :
    (((Decider.new tree factory).after earlier).decide input).decider.prepared.filter
      (·.node = walk.node) = [⟨walk.node, walk.items, factory.prepare walk.items⟩] := by
  obtain ⟨last, hcompile⟩ := DeciderBuilder.buildTree_ok hbuild
  have hlayout := compile_layout _ _ h.opens.2 ⟨by simp, .nil, by simp⟩ hcompile
  rw [hlayout.after_eq]
  exact Decider.prepared_walk (fun _ hend => hlayout.itemsAt_end hend) (nodup_firsts _) hwalk

end Runbook.Decision

/-! ## Numbered patches -/

namespace Runbook.Plan

open Runbook.Order

section

variable {σ : Type}

def applyNoting (order : Order σ) :
    List (Nat × Patch σ) → Except OrderError (Order σ) × List Nat
  | [] => (.ok order, [])
  | (number, patch) :: patches =>
    match patch order with
    | (.ok (), order) => ((applyNoting order patches).1, number :: (applyNoting order patches).2)
    | (.error error, _) => (.error error, [number])

def checked (order : Order σ) : Except OrderError (Order σ) :=
  match order.validate with
  | (.ok (), order) => .ok order
  | (.error error, _) => .error error

private theorem casePlan_eq (patches : List (Patch σ)) :
    casePlan patches = (applyPatches .empty patches).bind checked := by
  rw [casePlan]
  cases applyPatches .empty patches <;> rfl

private theorem applyNoting_outcome (order : Order σ) (patches : List (Nat × Patch σ)) :
    (applyNoting order patches).1 = applyPatches order (patches.map (·.2)) := by
  induction patches generalizing order with
  | nil => rfl
  | cons numbered patches ih =>
      obtain ⟨number, patch⟩ := numbered
      rw [applyNoting, List.map_cons, applyPatches]
      split
      · next hpatched =>
        simp only [hpatched]
        exact ih _
      · next hpatched => simp only [hpatched]

private theorem applyNoting_tried (order : Order σ) (patches : List (Nat × Patch σ)) :
    (applyNoting order patches).2 <+: patches.map (·.1) := by
  induction patches generalizing order with
  | nil => exact List.prefix_rfl
  | cons numbered patches ih =>
      obtain ⟨number, patch⟩ := numbered
      rw [applyNoting]
      split
      · exact (List.prefix_cons_inj number).mpr (ih _)
      · exact ⟨patches.map (·.1), rfl⟩

private theorem applyNoting_all {order next : Order σ} {patches : List (Nat × Patch σ)}
    (h : (applyNoting order patches).1 = .ok next) :
    (applyNoting order patches).2 = patches.map (·.1) := by
  induction patches generalizing order with
  | nil => rfl
  | cons numbered patches ih =>
      obtain ⟨number, patch⟩ := numbered
      rw [applyNoting] at h ⊢
      split at h
      · rw [List.map_cons, ← ih h]
      · cases h

end

end Runbook.Plan

/-! ## Deciders -/

namespace Runbook.Decision

open Runbook.Plan

variable {ι τ π ω : Type}

/-- A decision prepares its output from the items of the selected rules: those of the rules without
conditions first, in the order in which the rules were added, and the items of any two rules with
the same conditions in that order too.  Patches are applied to a case plan in the order of the
items. -/
theorem Collected.selects_in_order {config : DeciderConfig} {builder : DeciderBuilder ι τ}
    {entries : List (Entry ι τ)} (hcollected : Collected config builder entries)
    {factory : Factory ι τ π ω} {decider : Decider ι τ π ω}
    (hbuild : (builder.build factory).outcome = .ok decider) (earlier : List ι) {input : ι}
    {walk : WalkEnd τ} {context : Context ι}
    (hwalk : decider.tree.walk (.new input) = .ok walk context) :
    ((decider.after earlier).decide input).decider.prepared.filter (·.node = walk.node) =
      [⟨walk.node, walk.items, factory.prepare walk.items⟩] ∧
    ∃ places : List Nat,
      walk.items.map some = places.map (fun place => entries[place]?.map (·.2)) ∧
      places.Nodup ∧
      (Consistent entries →
        places.Perm (entries.findIdxs fun entry => entry.1.all (·.holdsOn input))) ∧
      entries.findIdxs (·.1.isEmpty) <+: places ∧
      places.Pairwise (fun place other => ∀ first second, entries[place]? = some first →
        entries[other]? = some second → SameConditions first.1 second.1 → place < other) ∧
      ∀ (σ : Type) (patch : τ → Patch σ), ∃ made tried,
        applyNoting .empty (places.zip (walk.items.map patch)) = (made, tried) ∧
        tried <+: places ∧ (∀ order, made = .ok order → tried = places) ∧
        casePlan (walk.items.map patch) = made.bind checked := by
  obtain ⟨tree, htree, rfl⟩ := DeciderBuilder.tree_of_build hbuild
  obtain ⟨places, hitems, honce, hfirst, hsorted, hselected⟩ := hcollected.walk_places htree hwalk
  refine ⟨hcollected.prepares_walk htree earlier hwalk, places, hitems, honce, hselected, hfirst,
    hsorted, fun σ patch => ?_⟩
  have hlength : places.length = (walk.items.map patch).length := by
    simpa using (congrArg List.length hitems).symm
  have hnumbers : (places.zip (walk.items.map patch)).map (·.1) = places :=
    List.map_fst_zip (Nat.le_of_eq hlength)
  have hpatches : (places.zip (walk.items.map patch)).map (·.2) = walk.items.map patch :=
    List.map_snd_zip (Nat.le_of_eq hlength.symm)
  have htried := applyNoting_tried .empty (places.zip (walk.items.map patch))
  rw [hnumbers] at htried
  refine ⟨_, _, rfl, htried, fun order hmade => ?_, ?_⟩
  · rw [applyNoting_all hmade, hnumbers]
  · rw [casePlan_eq, applyNoting_outcome, hpatches]

def turnedRules : List (Entry Bool String) :=
  [([⟨flag, .bool true⟩, ⟨flagOff, .bool false⟩], "first"),
    ([⟨flagOff, .bool false⟩, ⟨flag, .bool true⟩], "second"), ([], "always")]

private theorem turnedRules_consistent : Consistent turnedRules := by
  have hmentioned : ∀ subject, Mentioned turnedRules subject → Mentioned flagRules subject := by
    rintro subject ⟨entry, hentry, condition, hcondition, hpath⟩
    have hflag : Mentioned flagRules flag :=
      ⟨_, List.mem_cons_self, ⟨flag, .bool true⟩, List.mem_cons_self, .refl⟩
    have hflagOff : Mentioned flagRules flagOff :=
      ⟨_, List.mem_cons_of_mem _ List.mem_cons_self, ⟨flagOff, .bool false⟩, List.mem_cons_self,
        .refl⟩
    have hasked : Mentioned flagRules condition.subject := by
      simp only [turnedRules, List.mem_cons, List.not_mem_nil, or_false] at hentry
      rcases hentry with rfl | rfl | rfl <;> simp at hcondition
      · rcases hcondition with rfl | rfl
        · exact hflag
        · exact hflagOff
      · rcases hcondition with rfl | rfl
        · exact hflagOff
        · exact hflag
    obtain ⟨other, hother, asked, hasked, hbefore⟩ := hasked
    exact ⟨other, hother, asked, hasked, hbefore.trans hpath⟩
  exact fun a b ha hb => flagRules_consistent a b (hmentioned a ha) (hmentioned b hb)

def turnedBuilder : DeciderBuilder Bool String :=
  turnedRules.foldl (fun builder rule => (builder.addRule rule.1 rule.2).2) (.new .unlimited)

def turnedTree : Tree Bool String :=
  .split 0 flag ["always"] [(.bool true, .leaf 1 ["first", "second"])] none

theorem selects_in_order_turned :
    ∃ (decider : Decider Bool String (List String) (List String)) (context : Context Bool)
      (places : List Nat),
      decider.tree.walk (.new true) = .ok ⟨1, ["always", "first", "second"]⟩ context ∧
      (((decider.after [false, true]).decide true).decider.prepared.filter (·.node = 1)).map
        (·.items) = [["always", "first", "second"]] ∧
      [2] <+: places ∧ places.Perm [0, 1, 2] ∧ ¬ [1, 0].Sublist places ∧
      (applyNoting .empty (places.zip (["always", "first", "second"].map fun name =>
        sequencePatch [.add name]))).2 = places := by
  have hcollected : Collected .unlimited turnedBuilder turnedRules :=
    ((Collected.new.accept rfl).accept rfl).accept rfl
  let decider : Decider Bool String (List String) (List String) := .new turnedTree (.ofItems id)
  have hbuild : (turnedBuilder.build (.ofItems id)).outcome = .ok decider := rfl
  have hwalk : ∃ context,
      decider.tree.walk (.new true) = .ok ⟨1, ["always", "first", "second"]⟩ context := ⟨_, rfl⟩
  obtain ⟨context, hwalk⟩ := hwalk
  obtain ⟨hprepared, places, -, -, hselected, hfirst, hsorted, hpatches⟩ :=
    hcollected.selects_in_order hbuild [false, true] hwalk
  have hunconditional : turnedRules.findIdxs (·.1.isEmpty) = [2] := rfl
  have hholding : turnedRules.findIdxs (fun entry => entry.1.all (·.holdsOn true)) = [0, 1, 2] :=
    rfl
  refine ⟨decider, context, places, hwalk, ?_, ?_, ?_, fun hturned => ?_, ?_⟩
  · rw [hprepared]
    rfl
  · rwa [hunconditional] at hfirst
  · exact hholding ▸ hselected turnedRules_consistent
  · have hsame : SameConditions turnedRules[1].1 turnedRules[0].1 := by decide
    have hpair := (List.pairwise_cons.mp (hsorted.sublist hturned)).1 0 (List.mem_singleton_self 0)
    exact Nat.not_lt_zero 1 (hpair _ _ rfl rfl hsame)
  · obtain ⟨made, tried, hnoting, -, hall, hplan⟩ :=
      hpatches String fun name => sequencePatch [.add name]
    have hmade : (casePlan (["always", "first", "second"].map fun name =>
        sequencePatch [.add name])).toOption.isSome := by cbv
    rw [hplan] at hmade
    cases made with
    | error error => cases hmade
    | ok order =>
        rw [hnoting]
        exact hall order rfl

end Runbook.Decision
