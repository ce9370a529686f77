import Runbook.Proofs.Decision.Relabeling
import Runbook.Proofs.Execution.Failure
import Runbook.Proofs.Order.Reads
import Runbook.Proofs.Plan.Explanation

/-!
# Operations

An executor is never given an order that it cannot read: patches that fail or leave a loop fail the
decision, before any stage is started.  All other failures of an execution come from stages.
-/

namespace Runbook

open Decision Runbook.Order

variable {γ : Type}

/-! ## Failures of stages -/

theorem ExecutionError.FromStages.rootCause_ne {order : Order (Stage γ)} {error : ExecutionError}
    (h : error.FromStages order) (own : OrderError) : error.rootCause ≠ .order own := by
  obtain ⟨key, -, hroot⟩ := h.rootCause
  intro hsame
  rw [hsame] at hroot
  cases hroot

private theorem reported_of_inTurn {error own : ExecutionError}
    (h : Halt.reported error = own.inTurn) :
    own = error := by
  cases own <;> cases h <;> rfl

section

variable (executor : Executor γ) {order : Order (Stage γ)} {input : γ}

private theorem runCase_reported (hwell : order.WellFormed) (hacyclic : order.Acyclic)
    {error : ExecutionError}
    (h : (executor.runCase order input).outcome = .error (.reported error)) :
    error.FromStages order := by
  rw [Executor.runCase] at h
  cases hmode : executor.config.mode with
  | sequential =>
      simp only [hmode] at h
      obtain ⟨key, hkey, own, hown, hhalt⟩ := runSequential_halted hwell hacyclic h
      obtain rfl := reported_of_inTurn hhalt
      exact .stage hkey hown
  | concurrent =>
      simp only [hmode, Run.mapError] at h
      cases houtcome : (runConcurrent executor.reducer order input).outcome with
      | ok result =>
          rw [houtcome] at h
          cases h
      | error own =>
          rw [houtcome] at h
          cases h
          exact runConcurrent_fromStages hwell hacyclic houtcome

private theorem runCase_unwound (hwell : order.WellFormed) (hacyclic : order.Acyclic)
    (h : (executor.runCase order input).outcome = .error .unwound) :
    executor.config.mode = .sequential ∧ ∃ key ∈ order.keys, ∃ stage ∈ order.values key,
      ∃ context message, stage.run context = .aborted message := by
  rw [Executor.runCase] at h
  cases hmode : executor.config.mode with
  | sequential =>
      simp only [hmode] at h
      obtain ⟨key, hkey, own, hown, hhalt⟩ := runSequential_halted hwell hacyclic h
      cases hown with
      | failed hstage hrun => cases hhalt
      | aborted hstage hrun => exact ⟨rfl, key, hkey, _, hstage, _, _, hrun⟩
  | concurrent =>
      simp only [hmode, Run.mapError] at h
      cases houtcome : (runConcurrent executor.reducer order input).outcome <;>
        rw [houtcome] at h <;> cases h

end

/-! ## Patches that edit -/

namespace Plan

/-- Whether a patch does nothing to an order but edit and read it. -/
def EditsOnly {σ : Type} [BEq σ] (patch : Patch σ) : Prop :=
  ∀ order, order.Reachable → (patch order).2.Reachable

section

variable {σ : Type} [BEq σ]

theorem editsOnly_sequencePatch (steps : List (Order.Step σ)) :
    EditsOnly (sequencePatch steps) :=
  fun _ h => h.edit (.sequence [] steps)

theorem applyPatches_reachable {patches : List (Patch σ)}
    (hedits : ∀ patch ∈ patches, EditsOnly patch) {order next : Order σ} (h : order.Reachable)
    (happly : applyPatches order patches = .ok next) : next.Reachable := by
  induction patches generalizing order with
  | nil =>
      cases happly
      exact h
  | cons patch patches ih =>
      obtain ⟨hpatch, hrest⟩ := List.forall_mem_cons.mp hedits
      have hpatched := hpatch order h
      rw [applyPatches] at happly
      split at happly
      · next hrun =>
        rw [hrun] at hpatched
        exact ih hrest hpatched happly
      · cases happly

omit [BEq σ] in
theorem casePlan_of_failed {patches : List (Patch σ)} {error : OrderError}
    (h : applyPatches .empty patches = .error error) : casePlan patches = .error error := by
  rw [casePlan, h]

theorem casePlan_of_applied {patches : List (Patch σ)}
    (hedits : ∀ patch ∈ patches, EditsOnly patch) {order : Order σ}
    (happly : applyPatches .empty patches = .ok order) :
    (order.Acyclic → casePlan patches = .ok order.arrange.2) ∧
    (¬ order.Acyclic → ∃ keys, order.linearize = .error (.cycleDetected keys) ∧
      casePlan patches = .error (.cycleDetected keys)) := by
  have hwell := (applyPatches_reachable hedits .empty happly).wellFormed
  rw [casePlan, happly]
  simp only [validate, hwell.arrange_eq]
  constructor
  · intro hacyclic
    obtain ⟨places, hplaces⟩ := hwell.linearize_ok_iff.mpr hacyclic
    rw [hplaces]
    rfl
  · intro hcyclic
    cases hlinearize : order.linearize with
    | ok places => exact absurd (hwell.linearize_ok_iff.mp ⟨places, hlinearize⟩) hcyclic
    | error error =>
        obtain ⟨keys, rfl⟩ := linearize_error hlinearize
        exact ⟨keys, rfl, rfl⟩

theorem casePlan_ok_applied {patches : List (Patch σ)}
    (hedits : ∀ patch ∈ patches, EditsOnly patch) {order : Order σ}
    (h : casePlan patches = .ok order) :
    ∃ edited, applyPatches .empty patches = .ok edited ∧ edited.Acyclic ∧
      order = edited.arrange.2 := by
  cases happly : applyPatches .empty patches with
  | error error =>
      rw [casePlan_of_failed happly] at h
      cases h
  | ok edited =>
      obtain ⟨hacyclic, hcyclic⟩ := casePlan_of_applied hedits happly
      by_cases hloop : edited.Acyclic
      · rw [hacyclic hloop] at h
        cases h
        exact ⟨edited, rfl, hloop, rfl⟩
      · obtain ⟨keys, -, hfailed⟩ := hcyclic hloop
        rw [hfailed] at h
        cases h

theorem casePlan_arranged {patches : List (Patch σ)}
    (hedits : ∀ patch ∈ patches, EditsOnly patch) {order : Order σ}
    (h : casePlan patches = .ok order) : order.Reachable ∧ order.Acyclic := by
  obtain ⟨edited, happly, hacyclic, rfl⟩ := casePlan_ok_applied hedits h
  have hedited := applyPatches_reachable hedits .empty happly
  obtain ⟨places, hplaces⟩ := hedited.wellFormed.linearize_ok_iff.mpr hacyclic
  have hremembered := arranged_arrange (hedited.wellFormed.arrange_eq.trans hplaces)
  have hwell := hedited.read.wellFormed
  exact ⟨hedited.read, hwell.linearize_ok_iff.mp ⟨places, hwell.arranged places hremembered⟩⟩

end

/-! ## Executions -/

section

variable {builder : DeciderBuilder γ (Patch (Stage γ))} {plan : OperationPlan γ (Stage γ)}

theorem walk_editsOnly (hedits : ∀ rule ∈ builder.rules, EditsOnly rule.item)
    (hbuild : (builder.build planFactory).outcome = .ok plan) {input : γ}
    {walk : WalkEnd (Patch (Stage γ))} {context : Context γ}
    (hwalk : plan.tree.walk (.new input) = .ok walk context) :
    ∀ patch ∈ walk.items, EditsOnly patch := by
  obtain ⟨tree, htree, rfl⟩ := DeciderBuilder.tree_of_build hbuild
  exact DeciderBuilder.walk_items hedits htree hwalk

private theorem decided_arranged (hedits : ∀ rule ∈ builder.rules, EditsOnly rule.item)
    (hbuild : (builder.build planFactory).outcome = .ok plan) (earlier : List γ) {input : γ}
    {order : Order (Stage γ)} (h : ((plan.after earlier).decide input).outcome = .ok order) :
    order.Reachable ∧ order.Acyclic := by
  cases hwalk : plan.tree.walk (.new input) with
  | error error context =>
      rw [DeciderBuilder.decide_of_walk_error hbuild earlier hwalk] at h
      cases h
  | ok walk context =>
      rw [DeciderBuilder.decide_of_walk hbuild earlier hwalk] at h
      exact casePlan_arranged (walk_editsOnly hedits hbuild hwalk) (ok_of_mapError h)

end

namespace Operation

theorem execute_of_error {operation : Operation γ} {input : γ} {error : DecisionError}
    (h : (operation.plan.decide input).outcome = .error error) :
    operation.execute input = .ofError (.reported (.decision error)) := by
  rw [execute, h]

theorem execute_of_ok {operation : Operation γ} {input : γ} {order : Order (Stage γ)}
    (h : (operation.plan.decide input).outcome = .ok order) :
    operation.execute input = operation.executor.runCase order input := by
  rw [execute, h]

/-- Whatever an operation decided before, it fails for want of a decision, with the error of a patch
or of a loop, and without a stage that was started; or it runs an order that can be read in all
ways, and fails or is unwound only where a stage of that order does so. -/
theorem runs_arranged (operation : Operation γ) {builder : DeciderBuilder γ (Patch (Stage γ))}
    {plan : OperationPlan γ (Stage γ)} (hedits : ∀ rule ∈ builder.rules, EditsOnly rule.item)
    (hbuild : (builder.build planFactory).outcome = .ok plan) {earlier : List γ}
    (hplan : operation.plan = plan.after earlier) (input : γ) :
    (∀ error, (operation.execute input).outcome = .error (.reported error) →
      (∀ own, error.rootCause ≠ .order own) ∧
        ((∃ reason, error = .decision reason ∧
            operation.execute input = .ofError (.reported error)) ∨
          ∃ order, (operation.plan.decide input).outcome = .ok order ∧ error.FromStages order)) ∧
    ((operation.execute input).outcome = .error .unwound →
      operation.executor.config.mode = .sequential ∧
        ∃ order, (operation.plan.decide input).outcome = .ok order ∧
          ∃ key ∈ order.keys, ∃ stage ∈ order.values key, ∃ context message,
            stage.run context = .aborted message) ∧
    (∀ error context, plan.tree.walk (.new input) = .error error context →
      operation.execute input = .ofError (.reported (.decision (.evaluation error)))) ∧
    (∀ walk context, plan.tree.walk (.new input) = .ok walk context →
      (∀ patch ∈ walk.items, ∃ rule ∈ builder.rules, rule.item = patch) ∧
      (∀ error, applyPatches .empty walk.items = .error error →
        operation.execute input = .ofError (.reported (.decision (.output error.message)))) ∧
      ∀ order, applyPatches .empty walk.items = .ok order →
        (¬ order.Acyclic → ∃ keys, order.linearize = .error (.cycleDetected keys) ∧
          operation.execute input = .ofError
            (.reported (.decision (.output (OrderError.cycleDetected keys).message)))) ∧
        (order.Acyclic →
          operation.execute input = operation.executor.runCase order.arrange.2 input)) ∧
    ∀ order, (operation.plan.decide input).outcome = .ok order →
      operation.execute input = operation.executor.runCase order input ∧ order.Acyclic ∧
        ∀ read : Read (Stage γ), ∃ answer, (read.run order).1 = .ok answer := by
  have hdecided : ∀ order, (operation.plan.decide input).outcome = .ok order →
      order.Reachable ∧ order.Acyclic := by
    intro order horder
    rw [hplan] at horder
    exact decided_arranged hedits hbuild earlier horder
  refine ⟨fun error herror => ?_, fun hunwound => ?_, fun error context hwalk => ?_,
    fun walk context hwalk => ?_, fun order horder => ?_⟩
  · cases hdecide : (operation.plan.decide input).outcome with
    | error reason =>
        rw [execute_of_error hdecide] at herror ⊢
        cases herror
        exact ⟨by simp [ExecutionError.rootCause], .inl ⟨reason, rfl, rfl⟩⟩
    | ok order =>
        obtain ⟨hreachable, hacyclic⟩ := hdecided order hdecide
        rw [execute_of_ok hdecide] at herror
        have hstages := runCase_reported _ hreachable.wellFormed hacyclic herror
        exact ⟨hstages.rootCause_ne, .inr ⟨order, rfl, hstages⟩⟩
  · cases hdecide : (operation.plan.decide input).outcome with
    | error reason =>
        rw [execute_of_error hdecide] at hunwound
        cases hunwound
    | ok order =>
        obtain ⟨hreachable, hacyclic⟩ := hdecided order hdecide
        rw [execute_of_ok hdecide] at hunwound
        obtain ⟨hmode, hstage⟩ := runCase_unwound _ hreachable.wellFormed hacyclic hunwound
        exact ⟨hmode, order, rfl, hstage⟩
  · refine execute_of_error ?_
    rw [hplan]
    exact DeciderBuilder.decide_of_walk_error hbuild earlier hwalk
  · have hpatches := walk_editsOnly hedits hbuild hwalk
    have houtcome : (operation.plan.decide input).outcome =
        (casePlan walk.items).mapError fun error => .output error.message := by
      rw [hplan]
      exact DeciderBuilder.decide_of_walk hbuild earlier hwalk
    refine ⟨?_, fun error hfailed => ?_, fun order happly => ⟨fun hcyclic => ?_, fun hacyclic => ?_⟩⟩
    · obtain ⟨tree, htree, rfl⟩ := DeciderBuilder.tree_of_build hbuild
      exact DeciderBuilder.walk_items (fun rule hrule => ⟨rule, hrule, rfl⟩) htree hwalk
    · rw [casePlan_of_failed hfailed] at houtcome
      exact execute_of_error houtcome
    · obtain ⟨keys, hlinearize, hfailed⟩ := (casePlan_of_applied hpatches happly).2 hcyclic
      rw [hfailed] at houtcome
      exact ⟨keys, hlinearize, execute_of_error houtcome⟩
    · rw [(casePlan_of_applied hpatches happly).1 hacyclic] at houtcome
      exact execute_of_ok houtcome
  · obtain ⟨hreachable, hacyclic⟩ := hdecided order horder
    obtain ⟨places, hplaces⟩ := hreachable.wellFormed.linearize_ok_iff.mpr hacyclic
    refine ⟨execute_of_ok horder, hacyclic, fun read => ⟨read.ofArrangement order places, ?_⟩⟩
    rw [read.run_of_wellFormed hreachable.wellFormed, hplaces]
    rfl

end Operation

def keepStage : Stage Bool := .ofEdit ⟨0, 1⟩ "keep" .ok

def keepPatch : Patch (Stage Bool) := sequencePatch [.addKeyed (.key (.constant "a")) keepStage]

def circlePatch : Patch (Stage Bool) :=
  sequencePatch [.expect (.key (.constant "b")), .expect (.key (.constant "a")),
    .expect (.key (.constant "b"))]

def circleBuilder : DeciderBuilder Bool (Patch (Stage Bool)) :=
  ⟨[⟨[], keepPatch⟩, ⟨[⟨flag, .bool true⟩], circlePatch⟩], .unlimited⟩

def circlePlan : OperationPlan Bool (Stage Bool) :=
  .new (.split 0 flag [keepPatch] [(.bool true, .leaf 1 [circlePatch])] none) planFactory

def sideBySide : Executor Bool := ⟨⟨.concurrent, none⟩, fun _ later => later⟩

theorem Operation.runs_arranged_circle :
    (circleBuilder.build planFactory).outcome = .ok circlePlan ∧
    Operation.execute ⟨circlePlan.after [false, true], sideBySide⟩ true =
      .ofError (.reported (.decision (.output
        (OrderError.cycleDetected [.constant "b", .constant "a"]).message))) ∧
    ∃ order : Order (Stage Bool),
      Operation.execute ⟨circlePlan.after [true], sideBySide⟩ false =
        sideBySide.runCase order false ∧
      (order.toLinearList.1.toOption.map fun stages => stages.map (·.name)) = some ["keep"] := by
  have hedits : ∀ rule ∈ circleBuilder.rules, EditsOnly rule.item := by
    simp [circleBuilder, keepPatch, circlePatch, editsOnly_sequencePatch]
  have hbuild : (circleBuilder.build planFactory).outcome = .ok circlePlan := rfl
  constructor
  · exact hbuild
  constructor
  · have hwalk : ∃ context, circlePlan.tree.walk (.new true) =
        .ok ⟨1, [keepPatch, circlePatch]⟩ context := ⟨_, rfl⟩
    obtain ⟨context, hwalk⟩ := hwalk
    have hloop : (applyPatches .empty [keepPatch, circlePatch]).toOption.map (·.linearize) =
        some (.error (.cycleDetected [.constant "b", .constant "a"])) := by decide +kernel
    obtain ⟨order, horder, hlinearize⟩ := Option.map_eq_some_iff.mp hloop
    have happly := Json.ok_of_toOption horder
    have hreachable := applyPatches_reachable (walk_editsOnly hedits hbuild hwalk) .empty happly
    have hcyclic : ¬ order.Acyclic := by
      intro hacyclic
      obtain ⟨places, hplaces⟩ := hreachable.wellFormed.linearize_ok_iff.mpr hacyclic
      rw [hlinearize] at hplaces
      cases hplaces
    obtain ⟨-, -, -, hruns, -⟩ :=
      runs_arranged ⟨circlePlan.after [false, true], sideBySide⟩ hedits hbuild rfl true
    obtain ⟨keys, hkeys, hrun⟩ := ((hruns _ _ hwalk).2.2 order happly).1 hcyclic
    rw [hlinearize] at hkeys
    cases hkeys
    exact hrun
  · have hstages : ((circlePlan.after [true]).decide false).outcome.toOption.map
        (fun order => order.toLinearList.1.toOption.map fun stages => stages.map (·.name)) =
          some (some ["keep"]) := by decide +kernel
    obtain ⟨order, horder, hnames⟩ := Option.map_eq_some_iff.mp hstages
    obtain ⟨-, -, -, -, hruns⟩ :=
      runs_arranged ⟨circlePlan.after [true], sideBySide⟩ hedits hbuild rfl false
    exact ⟨order, (hruns order (Json.ok_of_toOption horder)).1, hnames⟩

end Plan

end Runbook
