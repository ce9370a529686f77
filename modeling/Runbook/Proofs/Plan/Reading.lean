import Runbook.Plan.File
import Runbook.Proofs.Json.Fields

/-!
# Plan files that are read

All documents that the steps of a plan file write are sorted, whatever the order in which their
fields were written down.
-/

namespace Runbook

open Json

/-! ## Documents that are read -/

namespace Json

private theorem sorted_of_parse? {text : String} {document : Json}
    (h : parse? text = some document) :
    Sorted document := by
  obtain ⟨written, -, rfl⟩ := Option.map_eq_some_iff.mp h
  exact sorted_normalize written

end Json

/-! ## Sorted steps -/

namespace Plan

mutual

def FileStep.Sorted : FileStep → Prop
  | .set _ fields => Json.Sorted (.object fields)
  | .append _ _ value => Json.Sorted value
  | .expect _ => True
  | .par branches => branchesSorted branches

def stepsSorted : List FileStep → Prop
  | [] => True
  | step :: steps => step.Sorted ∧ stepsSorted steps

def branchesSorted : List (List FileStep) → Prop
  | [] => True
  | branch :: branches => stepsSorted branch ∧ branchesSorted branches

end

def PlanFile.Sorted (file : PlanFile) : Prop := ∀ rule ∈ file.rules, stepsSorted rule.steps

theorem stepsSorted_iff {steps : List FileStep} :
    stepsSorted steps ↔ ∀ step ∈ steps, step.Sorted := by
  induction steps with
  | nil => simp [stepsSorted]
  | cons step steps ih => simp [stepsSorted, ih]

private theorem branchesSorted_iff {branches : List (List FileStep)} :
    branchesSorted branches ↔ ∀ branch ∈ branches, stepsSorted branch := by
  induction branches with
  | nil => simp [branchesSorted]
  | cons branch branches ih => simp [branchesSorted, ih]

/-! ## Reading -/

theorem forall_of_mapM {α β : Type} {P : β → Prop} {read : α → Option β}
    (hread : ∀ source value, read source = some value → P value) {sources : List α}
    {values : List β} (h : sources.mapM read = some values) : ∀ value ∈ values, P value := by
  induction sources generalizing values with
  | nil =>
      cases h
      simp
  | cons source sources ih =>
      rw [List.mapM_cons] at h
      obtain ⟨value, hvalue, h⟩ := Option.bind_eq_some_iff.mp h
      obtain ⟨rest, hrest, h⟩ := Option.bind_eq_some_iff.mp h
      cases h
      exact List.forall_mem_cons.mpr ⟨hread source value hvalue, ih hrest⟩

private theorem sorted_of_setStep? {fields : List (String × Json)} {step : FileStep}
    (h : setStep? fields = some step) : step.Sorted := by
  obtain ⟨key, -, h⟩ := Option.bind_eq_some_iff.mp h
  obtain ⟨target, -, h⟩ := Option.bind_eq_some_iff.mp h
  cases target with
  | object assignments =>
      have hsorted := sorted_normalize (.object assignments)
      cases hnormal : (Json.object assignments).normalize with
      | object sorted =>
          rw [hnormal] at hsorted
          simp only [hnormal] at h
          cases h
          exact hsorted
      | _ => simp [hnormal] at h
  | _ => cases h

private theorem sorted_of_appendTarget? {target : Json} {field : String} {value : Json}
    (h : appendTarget? target = some (field, value)) : Json.Sorted value := by
  unfold appendTarget? at h
  split at h
  · obtain ⟨text, -, h⟩ := Option.bind_eq_some_iff.mp h
    obtain ⟨name, -, h⟩ := Option.bind_eq_some_iff.mp h
    obtain ⟨written, -, h⟩ := Option.bind_eq_some_iff.mp h
    cases h
    exact sorted_normalize written
  · next written =>
    cases h
    exact sorted_normalize written
  · cases h

private theorem sorted_of_appendStep? {fields : List (String × Json)} {step : FileStep}
    (h : appendStep? fields = some step) : step.Sorted := by
  obtain ⟨key, -, h⟩ := Option.bind_eq_some_iff.mp h
  obtain ⟨target, -, h⟩ := Option.bind_eq_some_iff.mp h
  obtain ⟨⟨field, value⟩, hvalue, h⟩ := Option.bind_eq_some_iff.mp h
  cases h
  exact sorted_of_appendTarget? hvalue

private theorem sorted_of_expectStep? {fields : List (String × Json)} {step : FileStep}
    (h : expectStep? fields = some step) : step.Sorted := by
  obtain ⟨target, -, h⟩ := Option.bind_eq_some_iff.mp h
  obtain ⟨key, -, h⟩ := Option.bind_eq_some_iff.mp h
  cases h
  trivial

private theorem sorted_of_step? {fuel : Nat} {document : Json} {step : FileStep}
    (h : step? fuel document = some step) : step.Sorted := by
  induction fuel generalizing document step with
  | zero => cases h
  | succ fuel ih =>
      cases document with
      | object fields =>
          simp only [step?, Option.orElse_eq_orElse, Option.orElse_eq_or] at h
          rcases Option.or_eq_some_iff.mp h with hset | ⟨-, h⟩
          · exact sorted_of_setStep? hset
          rcases Option.or_eq_some_iff.mp h with happend | ⟨-, h⟩
          · exact sorted_of_appendStep? happend
          rcases Option.or_eq_some_iff.mp h with hexpect | ⟨-, h⟩
          · exact sorted_of_expectStep? hexpect
          obtain ⟨target, -, h⟩ := Option.bind_eq_some_iff.mp h
          obtain ⟨items, -, h⟩ := Option.bind_eq_some_iff.mp h
          obtain ⟨branches, hbranches, h⟩ := Option.bind_eq_some_iff.mp h
          cases h
          refine branchesSorted_iff.mpr (forall_of_mapM (fun source branch hbranch => ?_) hbranches)
          obtain ⟨steps, -, hsteps⟩ := Option.bind_eq_some_iff.mp hbranch
          exact stepsSorted_iff.mpr (forall_of_mapM (fun _ _ hstep => ih hstep) hsteps)
      | _ => cases h

private theorem sorted_of_readStep? {depth : Nat} {written : Written} {step : FileStep}
    (h : readStep? depth written = some step) : step.Sorted := by
  obtain ⟨document, -, h⟩ := Option.bind_eq_some_iff.mp h
  exact sorted_of_step? h

theorem forall_of_list? {α : Type} {P : α → Prop} {read : Reader α}
    (hread : ∀ depth written value, read depth written = some value → P value) {depth : Nat}
    {written : Written} {values : List α} (h : Written.list? read depth written = some values) :
    ∀ value ∈ values, P value := by
  unfold Written.list? at h
  split at h
  · exact forall_of_mapM (hread _) h
  · cases h

private theorem sorted_of_readRule? {depth : Nat} {written : Written} {rule : RuleSpec}
    (h : readRule? depth written = some rule) : stepsSorted rule.steps := by
  obtain ⟨fields, -, h⟩ := Option.bind_eq_some_iff.mp h
  split at h
  · obtain ⟨name, -, h⟩ := Option.bind_eq_some_iff.mp h
    obtain ⟨conditions, -, h⟩ := Option.bind_eq_some_iff.mp h
    obtain ⟨steps, hsteps, h⟩ := Option.bind_eq_some_iff.mp h
    cases h
    exact stepsSorted_iff.mpr (forall_of_list? (fun _ _ _ => sorted_of_readStep?) hsteps)
  · cases h

theorem PlanFile.rules_of_parse? {text : String} {file : PlanFile}
    (h : PlanFile.parse? text = some file) :
    ∀ rule ∈ file.rules, ∃ depth written, readRule? depth written = some rule := by
  obtain ⟨written, -, h⟩ := Option.bind_eq_some_iff.mp h
  obtain ⟨fields, -, h⟩ := Option.bind_eq_some_iff.mp h
  split at h
  · obtain ⟨name, -, h⟩ := Option.bind_eq_some_iff.mp h
    obtain ⟨executor, -, h⟩ := Option.bind_eq_some_iff.mp h
    obtain ⟨maxNodes, -, h⟩ := Option.bind_eq_some_iff.mp h
    obtain ⟨rules, hrules, h⟩ := Option.bind_eq_some_iff.mp h
    cases h
    exact forall_of_list? (fun depth written _ hrule => ⟨depth, written, hrule⟩) hrules
  · cases h

theorem PlanFile.sorted_of_parse? {text : String} {file : PlanFile}
    (h : PlanFile.parse? text = some file) : file.Sorted := by
  intro rule hrule
  obtain ⟨depth, written, hread⟩ := rules_of_parse? h rule hrule
  exact sorted_of_readRule? hread

end Plan

end Runbook
