import Runbook.Proofs.Order.Repeats
import Runbook.Proofs.Plan.Operations

/-!
# Refusals

What can be refused about a plan file.  Its rules are refused for want of room alone, its labels are
always shown, and a document is refused only for a key that cannot be read or for a loop: every stage
has a number of its own, so none is registered twice.
-/

namespace Runbook

/-! ## Stages that differ -/

section

variable {γ : Type} {first second : Stage γ}

theorem Stage.beq_iff : (first == second) = true ↔ first.id = second.id := by
  change (first.id == second.id) = true ↔ _
  exact beq_iff_eq

theorem Stage.beq_eq_false_iff : (first == second) = false ↔ first.id ≠ second.id := by
  rw [← Bool.not_eq_true, Stage.beq_iff]

instance : PartialEquivBEq (Stage γ) where
  symm := fun h => Stage.beq_iff.mpr (Stage.beq_iff.mp h).symm
  trans := fun h h' => Stage.beq_iff.mpr ((Stage.beq_iff.mp h).trans (Stage.beq_iff.mp h'))

end

namespace Plan

open Decision Json Runbook.Order

/-! ## Numbers of stages -/

structure Ascends (rule first last : Nat) (stages : List (Stage Json)) : Prop where
  le : first ≤ last
  upwards : stages.Pairwise fun earlier later => earlier.id.index < later.id.index
  within : ∀ stage ∈ stages,
    stage.id.origin = rule ∧ first < stage.id.index ∧ stage.id.index ≤ last

theorem Ascends.skip {rule first last : Nat} (h : first ≤ last) : Ascends rule first last [] :=
  ⟨h, .nil, by simp⟩

theorem Ascends.single {rule position : Nat} {stage : Stage Json}
    (h : stage.id = ⟨rule, position + 1⟩) : Ascends rule position (position + 1) [stage] :=
  ⟨Nat.le_succ _, List.pairwise_singleton _ _, by simp [h]⟩

theorem Ascends.append {rule first next last : Nat} {stages others : List (Stage Json)}
    (h : Ascends rule first next stages) (h' : Ascends rule next last others) :
    Ascends rule first last (stages ++ others) where
  le := Nat.le_trans h.le h'.le
  upwards := by
    rw [List.pairwise_append]
    refine ⟨h.upwards, h'.upwards, fun earlier hearlier later hlater => ?_⟩
    exact Nat.lt_of_le_of_lt (h.within earlier hearlier).2.2 (h'.within later hlater).2.1
  within := by
    intro stage hstage
    have := h.le
    have := h'.le
    rcases List.mem_append.mp hstage with hstage | hstage
    · obtain ⟨hrule, hfirst, hnext⟩ := h.within stage hstage
      exact ⟨hrule, hfirst, by omega⟩
    · obtain ⟨hrule, hnext, hlast⟩ := h'.within stage hstage
      exact ⟨hrule, by omega, hlast⟩

mutual

private theorem ascends_compileStep (rule : Nat) (label : String) (position : Nat)
    (step : FileStep) :
    Ascends rule position (compileStep rule label position step).2
      (compileStep rule label position step).1.values := by
  cases step with
  | set key fields =>
      rw [compileStep, values_stageStep]
      exact .single rfl
  | append key field value =>
      rw [compileStep, values_stageStep]
      exact .single rfl
  | expect key => exact .skip (Nat.le_succ position)
  | par branches =>
      have hstep : Ascends rule position (position + 1) [] := .skip (Nat.le_succ position)
      exact hstep.append (ascends_compileBranches rule label (position + 1) branches)

theorem ascends_compileSteps (rule : Nat) (label : String) (position : Nat)
    (steps : List FileStep) :
    Ascends rule position (compileSteps rule label position steps).2
      (stepsValues (compileSteps rule label position steps).1) := by
  cases steps with
  | nil => exact .skip (Nat.le_refl position)
  | cons step steps =>
      exact (ascends_compileStep rule label position step).append
        (ascends_compileSteps rule label (compileStep rule label position step).2 steps)

theorem ascends_compileBranches (rule : Nat) (label : String) (position : Nat)
    (branches : List (List FileStep)) :
    Ascends rule position (compileBranches rule label position branches).2
      (stepsValues (compileBranches rule label position branches).1) := by
  cases branches with
  | nil => exact .skip (Nat.le_refl position)
  | cons branch branches =>
      exact (ascends_compileSteps rule label position branch).append
        (ascends_compileBranches rule label (compileSteps rule label position branch).2 branches)

end

def rulesStages (rules : List (RuleSpec × Nat)) : List (Stage Json) :=
  rules.flatMap fun (rule, index) => stepsValues (compileSteps index (rule.label index) 0 rule.steps).1

private theorem rulesStages_differ {rules : List (RuleSpec × Nat)} (h : (rules.map (·.2)).Nodup) :
    (rulesStages rules).Pairwise fun earlier later => (earlier == later) = false := by
  have hascends := fun entry : RuleSpec × Nat =>
    ascends_compileSteps entry.2 (entry.1.label entry.2) 0 entry.1.steps
  rw [rulesStages, List.pairwise_flatMap]
  constructor
  · intro entry _
    refine (hascends entry).upwards.imp fun {earlier later} hless => ?_
    rw [Stage.beq_eq_false_iff]
    intro hsame
    rw [hsame] at hless
    exact Nat.lt_irrefl _ hless
  · rw [List.Nodup, List.pairwise_map] at h
    refine h.imp fun {first second} hdifferent earlier hearlier later hlater => ?_
    rw [Stage.beq_eq_false_iff]
    intro hsame
    have hfirst := ((hascends first).within earlier hearlier).1
    have hsecond := ((hascends second).within later hlater).1
    rw [hsame] at hfirst
    exact hdifferent (hfirst.symm.trans hsecond)

/-! ## Case plans -/

theorem applyPatches_settles {rules : List (RuleSpec × Nat)} {order : Order (Stage Json)}
    (h : order.Apart (rulesStages rules)) :
    match applyPatches order (rules.map fun (rule, index) => rule.patch index) with
    | .ok next => next.Apart []
    | .error error => ∃ blank, error = .invalidKey blank := by
  induction rules generalizing order with
  | nil => exact h
  | cons entry rules ih =>
      obtain ⟨rule, index⟩ := entry
      -- the stages of later rules are still to come while this one is applied
      have hrun := Builder.settles_runSteps (Builder.startingAfter order [])
        (compileSteps index (rule.label index) 0 rule.steps).1 (rulesStages rules) h
      simp only [List.map_cons, applyPatches, RuleSpec.patch, sequencePatch]
      cases hsteps : (Builder.startingAfter order []).runSteps
          (compileSteps index (rule.label index) 0 rule.steps).1 with
      | mk outcome builder =>
          rw [hsteps] at hrun
          cases outcome with
          | ok _ => exact ih hrun.2
          | error error => exact hrun.1 error rfl

theorem patch_editsOnly (rules : List (RuleSpec × Nat)) :
    ∀ patch ∈ rules.map fun (rule, index) => rule.patch index, EditsOnly patch := by
  intro patch hpatch
  obtain ⟨⟨rule, index⟩, -, rfl⟩ := List.mem_map.mp hpatch
  exact editsOnly_sequencePatch _

section

variable {rules : List (RuleSpec × Nat)} (hindices : (rules.map (·.2)).Nodup)
include hindices

theorem empty_apart : (Order.empty : Order (Stage Json)).Apart (rulesStages rules) :=
  rulesStages_differ hindices

/-- Rules fail to make a case plan only at a key that cannot be read or at a loop. -/
private theorem casePlan_refused {error : OrderError}
    (h : casePlan (rules.map fun (rule, index) => rule.patch index) = .error error) :
    (∃ blank, error = .invalidKey blank) ∨ ∃ keys, error = .cycleDetected keys := by
  have hsettles := applyPatches_settles (empty_apart hindices)
  cases happly : applyPatches .empty (rules.map fun (rule, index) => rule.patch index) with
  | error own =>
      rw [happly] at hsettles
      rw [casePlan_of_failed happly] at h
      cases h
      exact .inl hsettles
  | ok order =>
      obtain ⟨hacyclic, hcyclic⟩ := casePlan_of_applied (patch_editsOnly rules) happly
      by_cases hloop : order.Acyclic
      · rw [hacyclic hloop] at h
        cases h
      · obtain ⟨keys, -, hfailed⟩ := hcyclic hloop
        rw [hfailed] at h
        cases h
        exact .inr ⟨keys, rfl⟩

private theorem casePlan_once {order : Order (Stage Json)}
    (h : casePlan (rules.map fun (rule, index) => rule.patch index) = .ok order) :
    ∃ stages, order.toLinearList.1 = .ok stages ∧ (stages.map (·.id)).Nodup := by
  have hsettles := applyPatches_settles (empty_apart hindices)
  obtain ⟨hreachable, hacyclic⟩ := casePlan_arranged (patch_editsOnly rules) h
  obtain ⟨edited, happly, -, rfl⟩ := casePlan_ok_applied (patch_editsOnly rules) h
  rw [happly] at hsettles
  obtain ⟨places, hplaces⟩ := hreachable.wellFormed.linearize_ok_iff.mpr hacyclic
  have hheld := (hreachable.wellFormed.arranges hplaces).perm_held
  rw [held_arrange] at hheld
  refine ⟨_, ?_, ((hheld.map (·.id)).nodup_iff).mpr ?_⟩
  · rw [toLinearList_eq, linearEntries_eq, hreachable.wellFormed.arrange_eq, hplaces]
    rfl
  · have hdiffer : edited.held.Pairwise fun earlier later => (earlier == later) = false := by
      simpa [Order.Apart] using hsettles
    rw [List.Nodup, List.pairwise_map]
    exact hdiffer.imp Stage.beq_eq_false_iff.mp

end

/-! ## Plan files -/

namespace PlanFile

variable {file : PlanFile}

private theorem indices_nodup {chooses : RuleSpec × Nat → Bool} {rules : List (RuleSpec × Nat)}
    (h : rules.Perm (file.rules.zipIdx.filter chooses)) : (rules.map (·.2)).Nodup := by
  rw [(h.map (·.2)).nodup_iff]
  refine (List.filter_sublist.map _).nodup ?_
  rw [List.zipIdx_map_snd]
  exact List.nodup_range'

theorem flush_refused {editor : Editor Json} {error : ExecutionError}
    (hwithin : Within (fun subject => ∃ path, subject = fieldVariable path) editor.builder.rules)
    (h : editor.flush = .error error) :
    ∃ limit, editor.builder.config.maxNodes = some limit ∧
      error = .decision (.treeTooLarge limit) := by
  cases hbuild : editor.builder.buildTree.outcome with
  | ok tree =>
      rw [Editor.flush, DeciderBuilder.build, hbuild] at h
      cases h
  | error own =>
      obtain ⟨limit, hlimit, rfl⟩ := buildTree_error hwithin hbuild
      rw [flush_error hbuild] at h
      cases h
      exact ⟨limit, hlimit, rfl⟩

theorem Mapped.install_refused (h : file.Mapped) {registry : Registry Json}
    (hnew : lookUp registry.editors file.name = none) {error : ExecutionError}
    (hinstall : (file.install registry).1 = .error error) :
    ∃ limit, registry.config.maxNodes = some limit ∧ error = .decision (.treeTooLarge limit) := by
  have hchange := h.addPatches registry.executor registry.config
  cases hopen : (Editor.new file.name registry.executor registry.config).flush with
  | error own =>
      rw [install, Registry.edit_of_opening_error _ hnew hopen] at hinstall
      cases hinstall
      exact flush_refused (by simp [Editor.new, DeciderBuilder.new, Within]) hopen
  | ok unused =>
      cases hflush : (⟨file.name, { file.numbered.map fun (rule, index) => rule.patch index with
          config := registry.config }, registry.executor⟩ : Editor Json).flush with
      | error own =>
          rw [install, Registry.edit_of_flush_error _ hnew hopen hchange hflush] at hinstall
          cases hinstall
          exact flush_refused (within_map _ h.opens.known) hflush
      | ok operation =>
          obtain ⟨next, hdone, -⟩ := Registry.edit_of_ok
            (fun editor => PlanFile.addPatches editor file.rules.zipIdx) hnew hopen hchange hflush
          rw [install, hdone] at hinstall
          cases hinstall

end PlanFile

/-- A plan file is refused for want of room alone: that of the registry which it is installed in, or
its own.  Its labels are shown for every document, and a case plan fails only at a key that cannot be
read or at a loop.  No case plan has a stage twice. -/
theorem PlanFile.Mapped.refusals {file : PlanFile} (hfile : file.Mapped) :
    (∀ (registry : Registry Json), lookUp registry.editors file.name = none → ∀ error,
      (file.install registry).1 = .error error →
        ∃ limit, registry.config.maxNodes = some limit ∧
          error = .decision (.treeTooLarge limit)) ∧
    (∀ error, file.ruleMatcher = .error error →
      ∃ limit, file.maxNodes = some limit ∧ error = .treeTooLarge limit) ∧
    (∀ error, file.operationPlan = .error error →
      ∃ limit, file.maxNodes = some limit ∧ error = .treeTooLarge limit) ∧
    (∀ matcher, file.ruleMatcher = .ok matcher → ∀ earlier document, ∃ labels,
      ((matcher.after earlier).decide document).outcome = .ok labels) ∧
    ∀ plan, file.operationPlan = .ok plan → ∀ earlier document,
      (∀ error, ((plan.after earlier).decide document).outcome = .error error →
        ∃ own : OrderError, error = .output own.message ∧
          ((∃ blank, own = .invalidKey blank) ∨ ∃ keys, own = .cycleDetected keys)) ∧
      ∀ order, ((plan.after earlier).decide document).outcome = .ok order →
        ∃ stages, order.toLinearList.1 = .ok stages ∧ (stages.map (·.id)).Nodup := by
  refine ⟨fun registry hnew error => hfile.install_refused hnew, ?_⟩
  rw [ruleMatcher, operationPlan, hfile.buildDecider, hfile.buildDecider]
  cases hbuild : file.numbered.buildTree.outcome with
  | error error =>
      obtain ⟨limit, hlimit, rfl⟩ := buildTree_error hfile.opens.known hbuild
      refine ⟨?_, ?_, by simp [Except.map], by simp [Except.map]⟩
      · rintro _ ⟨rfl⟩
        exact ⟨limit, hlimit, rfl⟩
      · rintro _ ⟨rfl⟩
        exact ⟨limit, hlimit, rfl⟩
  | ok tree =>
      refine ⟨by simp [Except.map], by simp [Except.map], ?_, ?_⟩
      · rintro _ ⟨rfl⟩ earlier document
        obtain ⟨walk, last, hwalk, -⟩ := hfile.walk hbuild document
        exact ⟨_, numbered_outcome hbuild hwalk _ _ earlier⟩
      · rintro _ ⟨rfl⟩ earlier document
        obtain ⟨walk, last, hwalk, hitems⟩ := hfile.walk hbuild document
        have hindices := indices_nodup hitems
        have houtcome := numbered_outcome hbuild hwalk (fun (rule, index) => rule.patch index)
          planFactory earlier
        rw [houtcome]
        refine ⟨fun error herror => ?_, fun order horder => ?_⟩
        · cases hcase : casePlan (walk.items.map fun (rule, index) => rule.patch index) with
          | ok order =>
              simp only [planFactory, hcase] at herror
              cases herror
          | error own =>
              simp only [planFactory, hcase] at herror
              cases herror
              exact ⟨own, rfl, casePlan_refused hindices hcase⟩
        · exact casePlan_once hindices (ok_of_mapError horder)

def troubled : PlanFile :=
  ⟨"plan", .default, some 3,
    [⟨none, [("kind", .string "x")],
        [.set (some "pack") [("packed", .bool true)], .set none [], .expect "pack"]⟩,
      ⟨none, [("kind", .string "y")], [.par [[.expect ""]]]⟩,
      ⟨none, [], [.append none "log" (.string "b")]⟩]⟩

theorem refusals_troubled :
    troubled.Mapped ∧
    (troubled.install { Registry.new ⟨.default, Json.merge⟩ with config := ⟨some 2⟩ }).1 =
      .error (.decision (.treeTooLarge 2)) ∧
    ∃ plan, troubled.operationPlan = .ok plan ∧
      (∃ own : OrderError, (plan.decide (.object [("kind", .string "x")])).outcome =
        .error (.output own.message) ∧
          ((∃ blank, own = .invalidKey blank) ∨ ∃ keys, own = .cycleDetected keys)) ∧
      ∃ order stages, (plan.decide (.object [("kind", .string "z")])).outcome = .ok order ∧
        order.toLinearList.1 = .ok stages ∧ (stages.map (·.id)).Nodup := by
  have hmapped : troubled.Mapped := by simp [PlanFile.Mapped, troubled]
  obtain ⟨hinstall, -, -, -, hdecides⟩ := hmapped.refusals
  refine ⟨hmapped, ?_, ?_⟩
  · have hfailed : (troubled.install
        { Registry.new ⟨.default, Json.merge⟩ with config := ⟨some 2⟩ }).1.toOption = none := by
      decide +kernel
    obtain ⟨error, herror⟩ := error_of_toOption hfailed
    obtain ⟨limit, hlimit, rfl⟩ := hinstall _ rfl error herror
    cases hlimit
    exact herror
  · have hloop : troubled.operationPlan.toOption.map (fun plan =>
        (plan.decide (.object [("kind", .string "x")])).outcome.toOption.isNone) = some true := by
      decide +kernel
    have hchosen : troubled.operationPlan.toOption.map (fun plan =>
        (plan.decide (.object [("kind", .string "z")])).outcome.toOption.isSome) = some true := by
      decide +kernel
    obtain ⟨plan, hplan, hloop⟩ := Option.map_eq_some_iff.mp hloop
    rw [hplan, Option.map_some, Option.some.injEq] at hchosen
    have hbuilt := ok_of_toOption hplan
    obtain ⟨error, herror⟩ := error_of_toOption (Option.isNone_iff_eq_none.mp hloop)
    obtain ⟨own, rfl, hown⟩ :=
      (hdecides plan hbuilt [] (.object [("kind", .string "x")])).1 error herror
    obtain ⟨order, horder⟩ := Option.isSome_iff_exists.mp hchosen
    obtain ⟨stages, hstages, honce⟩ :=
      (hdecides plan hbuilt [] (.object [("kind", .string "z")])).2 order (ok_of_toOption horder)
    exact ⟨plan, hbuilt, ⟨own, herror, hown⟩, order, stages, ok_of_toOption horder, hstages, honce⟩

end Plan

end Runbook
