import Runbook.Plan.Compile
import Runbook.Proofs.Execution.Outcome
import Runbook.Proofs.Json.Writes
import Runbook.Proofs.Order.History
import Runbook.Proofs.Plan.Reading

/-!
# Stages of plan files

Which fields the stages of a plan file write.  A stage does nothing but its writes, so running
stages one after another is writing one after another.
-/

namespace Runbook.Plan

open Runbook.Json Runbook.Order

/-! ## Writes of a stage -/

def result? : StageOutcome Json → Option Json
  | .finished document => some document
  | _ => none

/-- Whether a stage does some writes and nothing else. -/
def Performs (stage : Stage Json) (writes : List FieldWrite) : Prop :=
  ∀ document, result? (stage.run document) = afterAll? writes document

def setWrites (fields : List (String × Json)) : List FieldWrite :=
  fields.map fun (path, value) => ⟨path, fun _ => .ok value⟩

def appendWrites (field : String) (value : Json) : List FieldWrite :=
  [⟨field, pushItem field value⟩]

theorem performs_ofEdit (id : StageId) (name : String) {edit : Json → Except FieldError Json}
    {writes : List FieldWrite}
    (hedit : ∀ document, (edit document).toOption = afterAll? writes document) :
    Performs (.ofEdit id name fun document => (edit document).mapError (·.message)) writes := by
  intro document
  rw [← hedit document]
  cases hresult : edit document with
  | ok next =>
      have hmapped : (edit document).mapError (·.message) = .ok next := by
        rw [hresult]
        rfl
      simp only [Stage.ofEdit, hmapped, result?, Except.toOption]
  | error error =>
      have hmapped : (edit document).mapError (·.message) = .error error.message := by
        rw [hresult]
        rfl
      simp only [Stage.ofEdit, hmapped, result?, Except.toOption]

private theorem toOption_setFields (fields : List (String × Json)) (document : Json) :
    (document.setFields fields).toOption = afterAll? (setWrites fields) document := by
  induction fields generalizing document with
  | nil => rfl
  | cons field fields ih =>
      obtain ⟨path, value⟩ := field
      rw [setFields, List.foldlM_cons, toOption_bind, setWrites, List.map_cons, afterAll?_cons,
        ← FieldWrite.toOption_run]
      congr 1
      funext next
      exact ih next

theorem setStage_performs (id : StageId) (name : String) (fields : List (String × Json)) :
    Performs (setStage id name fields) (setWrites fields) :=
  performs_ofEdit id name fun document => toOption_setFields fields document

private theorem appendStage_performs (id : StageId) (name field : String) (value : Json) :
    Performs (appendStage id name field value) (appendWrites field value) := by
  refine performs_ofEdit id name fun document => ?_
  rw [appendWrites, afterAll?_cons, ← FieldWrite.toOption_run]
  exact (Option.bind_fun_some _).symm

/-! ## Stages one after another -/

section

variable (writes : Stage Json → List FieldWrite)

theorem toOption_stages (key : Key) {stages : List (Stage Json)}
    (hperforms : ∀ stage ∈ stages, Performs stage (writes stage)) (document : Json) :
    (Run.stages key document stages).outcome.toOption =
      afterAll? (stages.flatMap writes) document := by
  induction stages generalizing document with
  | nil => rfl
  | cons stage stages ih =>
      rw [List.forall_mem_cons] at hperforms
      have hstage := hperforms.1 document
      rw [Run.stages_cons, List.flatMap_cons, afterAll?_append, ← hstage]
      cases stage.run document with
      | finished next => exact ih hperforms.2 next
      | failed error => rfl
      | aborted message => rfl

theorem toOption_entries {entries : List (Key × List (Stage Json))}
    (hperforms : ∀ entry ∈ entries, ∀ stage ∈ entry.2, Performs stage (writes stage))
    (document : Json) :
    (Run.entries document entries).outcome.toOption =
      afterAll? (entries.flatMap fun entry => entry.2.flatMap writes) document := by
  induction entries generalizing document with
  | nil => rfl
  | cons entry entries ih =>
      obtain ⟨key, stages⟩ := entry
      rw [List.forall_mem_cons] at hperforms
      have hstages := toOption_stages writes key hperforms.1 document
      rw [Run.entries_cons, List.flatMap_cons, afterAll?_append, ← hstages]
      cases hrun : (Run.stages key document stages).outcome with
      | error error => simp only [hrun, Except.toOption, Option.bind_none]
      | ok next => exact ih hperforms.2 next

end

/-! ## Stages of steps -/

mutual

def stepStages (rule : Nat) (label : String) (position : Nat) :
    FileStep → List (Stage Json × List FieldWrite)
  | .set key fields =>
    [(setStage ⟨rule, position + 1⟩ (stepName label (position + 1) key) fields, setWrites fields)]
  | .append key field value =>
    [(appendStage ⟨rule, position + 1⟩ (stepName label (position + 1) key) field value,
      appendWrites field value)]
  | .expect _ => []
  | .par branches => branchesStages rule label (position + 1) branches

def stepsStages (rule : Nat) (label : String) (position : Nat) :
    List FileStep → List (Stage Json × List FieldWrite)
  | [] => []
  | step :: steps =>
    stepStages rule label position step ++
      stepsStages rule label (compileStep rule label position step).2 steps

def branchesStages (rule : Nat) (label : String) (position : Nat) :
    List (List FileStep) → List (Stage Json × List FieldWrite)
  | [] => []
  | branch :: branches =>
    stepsStages rule label position branch ++
      branchesStages rule label (compileSteps rule label position branch).2 branches

end

theorem values_stageStep (key : Option String) (stage : Stage Json) :
    (stageStep key stage).values = [stage] := by
  cases key <;> rfl

mutual

private theorem values_compileStep (rule : Nat) (label : String) (position : Nat)
    (step : FileStep) :
    (compileStep rule label position step).1.values =
      (stepStages rule label position step).map (·.1) := by
  cases step with
  | set key fields => exact values_stageStep key _
  | append key field value => exact values_stageStep key _
  | expect key => rfl
  | par branches => exact values_compileBranches rule label (position + 1) branches

theorem values_compileSteps (rule : Nat) (label : String) (position : Nat)
    (steps : List FileStep) :
    stepsValues (compileSteps rule label position steps).1 =
      (stepsStages rule label position steps).map (·.1) := by
  cases steps with
  | nil => rfl
  | cons step steps =>
      rw [compileSteps, stepsStages, List.map_append]
      exact congrArg₂ (· ++ ·) (values_compileStep rule label position step)
        (values_compileSteps rule label (compileStep rule label position step).2 steps)

theorem values_compileBranches (rule : Nat) (label : String) (position : Nat)
    (branches : List (List FileStep)) :
    stepsValues (compileBranches rule label position branches).1 =
      (branchesStages rule label position branches).map (·.1) := by
  cases branches with
  | nil => rfl
  | cons branch branches =>
      rw [compileBranches, branchesStages, List.map_append]
      exact congrArg₂ (· ++ ·) (values_compileSteps rule label position branch)
        (values_compileBranches rule label (compileSteps rule label position branch).2 branches)

end

/-! ## Stages that do their writes -/

private theorem setWrites_keepSorted {fields : List (String × Json)}
    (h : Json.Sorted (.object fields)) :
    ∀ write ∈ setWrites fields, write.KeepsSorted := by
  intro write hwrite value changed _ hchange
  obtain ⟨field, hfield, rfl⟩ := List.mem_map.mp hwrite
  cases hchange
  exact (sorted_object.mp h).2 field hfield

private theorem appendWrites_keepSorted (field : String) {value : Json} (h : Json.Sorted value) :
    ∀ write ∈ appendWrites field value, write.KeepsSorted := by
  intro write hwrite old changed hold hchange
  rw [List.mem_singleton.mp hwrite] at hchange
  cases old with
  | null =>
      cases hchange
      exact sortedItems_iff.mpr (by simpa using h)
  | array items =>
      cases hchange
      refine sortedItems_iff.mpr fun item hitem => ?_
      rcases List.mem_append.mp hitem with hitem | hitem
      · exact sortedItems_iff.mp hold item hitem
      · exact List.mem_singleton.mp hitem ▸ h
  | _ => cases hchange

/-- Whether a stage does its writes and nothing else, and these keep documents sorted. -/
def Faithful (entry : Stage Json × List FieldWrite) : Prop :=
  Performs entry.1 entry.2 ∧ ∀ write ∈ entry.2, write.KeepsSorted

mutual

private theorem stepStages_faithful (rule : Nat) (label : String) (position : Nat) (step : FileStep)
    (hsorted : step.Sorted) :
    ∀ entry ∈ stepStages rule label position step, Faithful entry := by
  cases step with
  | set key fields =>
      intro entry hentry
      rw [List.mem_singleton.mp hentry]
      exact ⟨setStage_performs _ _ fields, setWrites_keepSorted hsorted⟩
  | append key field value =>
      intro entry hentry
      rw [List.mem_singleton.mp hentry]
      exact ⟨appendStage_performs _ _ field value, appendWrites_keepSorted field hsorted⟩
  | expect key => simp [stepStages]
  | par branches =>
      exact branchesStages_faithful rule label (position + 1) branches hsorted

theorem stepsStages_faithful (rule : Nat) (label : String) (position : Nat)
    (steps : List FileStep) (hsorted : stepsSorted steps) :
    ∀ entry ∈ stepsStages rule label position steps, Faithful entry := by
  cases steps with
  | nil => simp [stepsStages]
  | cons step steps =>
      intro entry hentry
      rw [stepsStages] at hentry
      rcases List.mem_append.mp hentry with hfirst | hrest
      · exact stepStages_faithful rule label position step hsorted.1 entry hfirst
      · exact stepsStages_faithful rule label _ steps hsorted.2 entry hrest

theorem branchesStages_faithful (rule : Nat) (label : String) (position : Nat)
    (branches : List (List FileStep)) (hsorted : branchesSorted branches) :
    ∀ entry ∈ branchesStages rule label position branches, Faithful entry := by
  cases branches with
  | nil => simp [branchesStages]
  | cons branch branches =>
      intro entry hentry
      rw [branchesStages] at hentry
      rcases List.mem_append.mp hentry with hfirst | hrest
      · exact stepsStages_faithful rule label position branch hsorted.1 entry hfirst
      · exact branchesStages_faithful rule label _ branches hsorted.2 entry hrest

end

/-! ## Stages of a plan file -/

namespace PlanFile

def stages (file : PlanFile) : List (Stage Json × List FieldWrite) :=
  file.rules.zipIdx.flatMap fun (rule, index) => stepsStages index (rule.label index) 0 rule.steps

theorem stages_faithful {file : PlanFile} (hsorted : file.Sorted) :
    ∀ entry ∈ file.stages, Faithful entry := by
  intro entry hentry
  obtain ⟨⟨rule, index⟩, hrule, hentry⟩ := List.mem_flatMap.mp hentry
  refine stepsStages_faithful index (rule.label index) 0 rule.steps (hsorted rule ?_) entry hentry
  exact List.mem_of_getElem? (List.mk_mem_zipIdx_iff_getElem?.mp hrule)

end PlanFile

end Runbook.Plan
