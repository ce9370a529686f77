import Runbook.Proofs.Decision.Selection
import Runbook.Proofs.Order.Linearization
import Runbook.Proofs.Plan.Stages
import Runbook.Report

/-!
# Case plans of plan files

The order of stages that a plan file gives for a document has no loop, and all its stages come from
steps of the file.  A run of the file executes this order.
-/

namespace Runbook.Plan

open Runbook.Decision Runbook.Json Runbook.Order

/-! ## Results -/

theorem ok_of_mapError {ε δ α : Type} {convert : ε → δ} {result : Except ε α} {value : α}
    (h : result.mapError convert = .ok value) : result = .ok value := by
  cases result with
  | error error => cases h
  | ok own =>
      cases h
      rfl

/-! ## Rules of a plan file -/

def PlanFile.entries (file : PlanFile) (item : RuleSpec → Nat → τ) : List (Entry Json τ) :=
  file.rules.zipIdx.map fun (rule, index) => (rule.fieldConditions, item rule index)

private theorem collected_addRules {τ : Type} {item : RuleSpec → Nat → τ} {config : DeciderConfig}
    {builder next : DeciderBuilder Json τ} {entries : List (Entry Json τ)}
    (hcollected : Collected config builder entries) {rules : List (RuleSpec × Nat)}
    (h : PlanFile.addRules item builder rules = .ok next) :
    Collected config next
      (entries ++ rules.map fun (rule, index) => (rule.fieldConditions, item rule index)) := by
  induction rules generalizing builder entries with
  | nil =>
      cases h
      simpa using hcollected
  | cons entry rules ih =>
      obtain ⟨rule, index⟩ := entry
      rw [PlanFile.addRules] at h
      cases hadd : builder.addRule rule.fieldConditions (item rule index) with
      | mk outcome added =>
          rw [hadd] at h
          cases outcome with
          | error error => cases h
          | ok _ =>
              have hrest := ih (hcollected.accept hadd) h
              rwa [List.append_assoc] at hrest

theorem coherent_fields : Variable.Coherent fun subject => ∃ path, subject = fieldVariable path := by
  refine ⟨?_, ?_⟩
  · rintro subject ⟨path, rfl⟩ dependency hdependency
    cases hdependency
  · rintro a b ⟨path, rfl⟩ ⟨other, rfl⟩ hsame input
    have hpath : path = other := by simpa [fieldVariable, Variable.same] using hsame
    rw [hpath]

private theorem mem_selected {ι τ : Type} {input : ι} {entries : List (Entry ι τ)} {item : τ}
    (h : item ∈ selected input entries) : ∃ entry ∈ entries, entry.2 = item := by
  obtain ⟨entry, hentry, hitem⟩ := List.mem_map.mp h
  exact ⟨entry, (List.mem_filter.mp hentry).1, hitem⟩

/-! ## Patches -/

def AddsOnly {σ : Type} [BEq σ] (allowed : σ → Prop) (patch : Patch σ) : Prop :=
  ∃ steps, patch = sequencePatch steps ∧ ∀ stage ∈ stepsValues steps, allowed stage

section

variable {σ : Type} [BEq σ] {allowed : σ → Prop}

private theorem applyPatches_changes {patches : List (Patch σ)}
    (hpatches : ∀ patch ∈ patches, AddsOnly allowed patch) {order next : Order σ}
    (h : applyPatches order patches = .ok next) : Changes allowed order next := by
  induction patches generalizing order with
  | nil =>
      cases h
      exact .refl _
  | cons patch patches ih =>
      rw [List.forall_mem_cons] at hpatches
      obtain ⟨⟨steps, rfl, hsteps⟩, hrest⟩ := hpatches
      have hfirst := Builder.runSteps_changes (Builder.startingAfter order []) steps hsteps
      rw [applyPatches] at h
      cases hrun : (Builder.startingAfter order []).runSteps steps with
      | mk outcome builder =>
          rw [hrun] at hfirst
          simp only [sequencePatch, hrun] at h
          cases outcome with
          | error error => cases h
          | ok _ => exact hfirst.trans (ih hrest h)

omit [BEq σ] in
theorem arranged_arrange {order : Order σ} {places : List Nat}
    (h : order.arrange.1 = .ok places) : order.arrange.2.arranged = some places := by
  rw [arrange] at h ⊢
  cases harranged : order.arranged with
  | some known =>
      simp only [harranged] at h ⊢
      cases h
      rfl
  | none =>
      simp only [harranged] at h ⊢
      cases hlinearize : order.linearize with
      | ok found =>
          simp only [hlinearize] at h ⊢
          cases h
          rfl
      | error error => simp [hlinearize] at h

private theorem casePlan_ok {patches : List (Patch σ)}
    (hpatches : ∀ patch ∈ patches, AddsOnly allowed patch) {order : Order σ}
    (h : casePlan patches = .ok order) :
    order.WellFormed ∧ order.Acyclic ∧ order.Holds allowed := by
  rw [casePlan] at h
  cases happly : applyPatches .empty patches with
  | error error => simp [happly] at h
  | ok edited =>
      have hchanges := applyPatches_changes hpatches happly
      simp only [happly, validate] at h
      cases harrange : edited.arrange.1 with
      | error error => simp [harrange, Except.map] at h
      | ok places =>
          simp only [harrange, Except.map, Except.ok.injEq] at h
          subst h
          have hread := hchanges.trans (.of_change (.read edited))
          have hwell := empty_wellFormed.changes hread
          exact ⟨hwell, hwell.linearize_ok_iff.mp
            ⟨places, hwell.arranged places (arranged_arrange harrange)⟩, hread.holds⟩

end

/-! ## Decisions -/

namespace PlanFile

def casePlan? (file : PlanFile) (document : Json) : Option (Order (Stage Json)) :=
  match file.operationPlan with
  | .ok plan => (plan.decide document).outcome.toOption
  | .error _ => none

variable {file : PlanFile} {plan : OperationPlan Json (Stage Json)} {document : Json}
  {order : Order (Stage Json)}

private theorem patches_addOnly (file : PlanFile) :
    ∀ entry ∈ file.entries RuleSpec.patch,
      AddsOnly (fun stage => ∃ writes, (stage, writes) ∈ file.stages) entry.2 := by
  intro entry hentry
  obtain ⟨⟨rule, index⟩, hrule, rfl⟩ := List.mem_map.mp hentry
  refine ⟨_, rfl, fun stage hstage => ?_⟩
  rw [values_compileSteps] at hstage
  obtain ⟨⟨_, writes⟩, hwrites, rfl⟩ := List.mem_map.mp hstage
  exact ⟨writes, List.mem_flatMap.mpr ⟨(rule, index), hrule, hwrites⟩⟩

private theorem operationPlan_decides (hplan : file.operationPlan = .ok plan)
    (hchosen : (plan.decide document).outcome = .ok order) :
    order.WellFormed ∧ order.Acyclic ∧
      order.Holds fun stage => ∃ writes, (stage, writes) ∈ file.stages := by
  rw [operationPlan, buildDecider] at hplan
  cases hrules : addRules RuleSpec.patch (.new file.deciderConfig) file.rules.zipIdx with
  | error error => simp [hrules] at hplan
  | ok builder =>
      simp only [hrules] at hplan
      obtain ⟨tree, last, rfl, hcompile⟩ := DeciderBuilder.build_ok hplan
      have hcollected := collected_addRules Collected.new hrules
      rw [List.nil_append] at hcollected
      obtain ⟨hwithin, hselected⟩ := hcollected.rules coherent_fields (by
        intro entry hentry condition hcondition
        obtain ⟨⟨rule, index⟩, -, rfl⟩ := List.mem_map.mp hentry
        obtain ⟨⟨path, value⟩, -, rfl⟩ := List.mem_map.mp hcondition
        exact ⟨path, rfl⟩) document
      obtain ⟨-, hmeans⟩ := compile_sound coherent_fields _ _ hwithin (Nat.le_refl _) hcompile
      rw [Decider.decide] at hchosen
      cases hwalk : tree.walk (.new document) with
      | error error context => simp [Decider.new, hwalk] at hchosen
      | ok walk context =>
          have hitems := hmeans document [] _ _ walk (by simp [Variable.Agrees]) (.new _ document)
            hwalk
          simp only [Decider.new, hwalk, Decider.prepare, List.find?_nil, planFactory] at hchosen
          refine casePlan_ok (fun patch hpatch => ?_) (ok_of_mapError hchosen)
          rw [List.nil_append, hselected] at hitems
          obtain ⟨entry, hentry, rfl⟩ := mem_selected (hitems.mem_iff.mp hpatch)
          exact file.patches_addOnly entry hentry

theorem casePlan?_eq_some (h : file.casePlan? document = some order) :
    ∃ plan, file.operationPlan = .ok plan ∧ (plan.decide document).outcome = .ok order := by
  rw [casePlan?] at h
  cases hplan : file.operationPlan with
  | error error => simp [hplan] at h
  | ok plan =>
      simp only [hplan] at h
      exact ⟨plan, rfl, ok_of_toOption h⟩

theorem casePlan?_sound (h : file.casePlan? document = some order) :
    order.WellFormed ∧ order.Acyclic ∧
      order.Holds fun stage => ∃ writes, (stage, writes) ∈ file.stages := by
  obtain ⟨plan, hplan, hchosen⟩ := casePlan?_eq_some h
  exact operationPlan_decides hplan hchosen

end PlanFile

/-! ## Installed plans -/

namespace Registry

variable {γ : Type} {registry next : Registry γ} {name : String}
  (change : Editor γ → Except ExecutionError Unit × Editor γ)

theorem edit_of_ok (hnew : lookUp registry.editors name = none) {unused operation : Operation γ}
    {editor : Editor γ}
    (hopen : (Editor.new name registry.executor registry.config).flush = .ok unused)
    (hchange : change (.new name registry.executor registry.config) = (.ok (), editor))
    (hflush : editor.flush = .ok operation) :
    ∃ next, registry.edit name change = (.ok (), next) ∧ next.resolve name = .ok operation := by
  simp only [edit, openEditor, hnew, hopen, hchange, hflush]
  exact ⟨_, rfl, by simp [resolve, register, lookUp_enter]⟩

private theorem edit_ok (hnew : lookUp registry.editors name = none)
    (h : registry.edit name change = (.ok (), next)) :
    ∃ unused editor operation,
      (Editor.new name registry.executor registry.config).flush = .ok unused ∧
      change (.new name registry.executor registry.config) = (.ok (), editor) ∧
      editor.flush = .ok operation := by
  simp only [edit, openEditor, hnew] at h
  cases hopen : (Editor.new name registry.executor registry.config).flush with
  | error error => simp [hopen] at h
  | ok unused =>
      cases hchange : change (.new name registry.executor registry.config) with
      | mk outcome editor =>
          cases outcome with
          | error error => simp [hopen, hchange] at h
          | ok _ =>
              cases hflush : editor.flush with
              | error error => simp [hopen, hchange, hflush] at h
              | ok operation => exact ⟨unused, editor, operation, rfl, rfl, hflush⟩

end Registry

namespace PlanFile

theorem addPatches_ok_iff (editor next : Editor Json) (rules : List (RuleSpec × Nat)) :
    addPatches editor rules = (.ok (), next) ↔
      ∃ builder, addRules RuleSpec.patch editor.builder rules = .ok builder ∧
        next = { editor with builder } := by
  induction rules generalizing editor with
  | nil => simp [addPatches, addRules, eq_comm]
  | cons entry rules ih =>
      obtain ⟨rule, index⟩ := entry
      rw [addRules, addPatches, Editor.addPatch]
      cases hadd : editor.builder.addRule rule.fieldConditions (rule.patch index) with
      | mk outcome added =>
          cases outcome with
          | error error =>
              constructor
              · intro h
                cases h
              · rintro ⟨builder, h, -⟩
                cases h
          | ok _ => exact ih { editor with builder := added }

def registry (file : PlanFile) : Registry Json :=
  { Registry.new ⟨file.executor, Json.merge⟩ with config := file.deciderConfig }

def openingPlan (file : PlanFile) : Except DecisionError (OperationPlan Json (Stage Json)) :=
  ((DeciderBuilder.new file.deciderConfig).build planFactory).outcome

theorem flush_ok_iff (editor : Editor Json) (operation : Operation Json) :
    editor.flush = .ok operation ↔
      ∃ plan, (editor.builder.build planFactory).outcome = .ok plan ∧
        operation = ⟨plan, editor.executor⟩ := by
  rw [Editor.flush]
  cases (editor.builder.build planFactory).outcome <;> simp [eq_comm]

theorem operationPlan_ok_iff {file : PlanFile} {plan : OperationPlan Json (Stage Json)} :
    file.operationPlan = .ok plan ↔
      ∃ builder, addRules RuleSpec.patch (.new file.deciderConfig) file.rules.zipIdx = .ok builder ∧
        (builder.build planFactory).outcome = .ok plan := by
  rw [operationPlan, buildDecider]
  cases addRules RuleSpec.patch (.new file.deciderConfig) file.rules.zipIdx <;> simp

/-- A run executes the plan of the file, once a plan without rules could be registered. -/
theorem runPlan_ok_iff (file : PlanFile) (document result : Json) :
    Report.runPlan file document = .ok result ↔
      (∃ unused, file.openingPlan = .ok unused) ∧ ∃ plan, file.operationPlan = .ok plan ∧
        (Operation.execute ⟨plan, ⟨file.executor, Json.merge⟩⟩ document).outcome = .ok result := by
  have hnew : lookUp file.registry.editors file.name = none := rfl
  have hinstall : file.install file.registry = file.registry.edit file.name fun editor =>
      addPatches editor file.rules.zipIdx := rfl
  rw [Report.runPlan, ← registry]
  constructor
  · intro h
    cases hedit : file.install file.registry with
    | mk outcome next =>
        rw [hedit] at h
        cases outcome with
        | error error => cases h
        | ok _ =>
            rw [hinstall] at hedit
            obtain ⟨unused, editor, operation, hopen, hchange, hflush⟩ := Registry.edit_ok _ hnew hedit
            obtain ⟨other, hother, hresolve⟩ := Registry.edit_of_ok
              (fun editor => addPatches editor file.rules.zipIdx) hnew hopen hchange hflush
            obtain ⟨opening, hopening, -⟩ := (flush_ok_iff _ _).mp hopen
            obtain ⟨builder, hrules, rfl⟩ := (addPatches_ok_iff _ _ _).mp hchange
            obtain ⟨plan, hplan, rfl⟩ := (flush_ok_iff _ _).mp hflush
            cases hedit.symm.trans hother
            refine ⟨⟨opening, hopening⟩, plan, operationPlan_ok_iff.mpr ⟨builder, hrules, hplan⟩, ?_⟩
            simp only [hresolve] at h
            exact ok_of_mapError h
  · rintro ⟨⟨opening, hopening⟩, plan, hplan, hexecute⟩
    obtain ⟨builder, hrules, hbuild⟩ := operationPlan_ok_iff.mp hplan
    obtain ⟨next, hedit, hresolve⟩ := Registry.edit_of_ok
      (fun editor => addPatches editor file.rules.zipIdx) hnew
      ((flush_ok_iff _ _).mpr ⟨opening, hopening, rfl⟩)
      ((addPatches_ok_iff _ _ file.rules.zipIdx).mpr ⟨builder, hrules, rfl⟩)
      ((flush_ok_iff ⟨file.name, builder, file.registry.executor⟩ _).mpr ⟨plan, hbuild, rfl⟩)
    rw [hinstall, hedit]
    simp only [hresolve]
    rw [show file.registry.executor = ⟨file.executor, Json.merge⟩ from rfl, hexecute]
    rfl

end PlanFile

end Runbook.Plan
