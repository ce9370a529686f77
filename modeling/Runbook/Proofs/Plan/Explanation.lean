import Runbook.Proofs.Decision.Pinning
import Runbook.Proofs.Decision.Relabeling
import Runbook.Proofs.Plan.CasePlans
import Runbook.Proofs.Plan.Reading

/-!
# Explanations

The labels that are shown for a document and the case plan that is executed come from deciders that
are built apart from each other.  They are built from one list of rules, in the same order.
-/

namespace Runbook

open Decision Json Variable

namespace Decision

variable {ι τ π ω : Type}

/-! ## Outcomes -/

theorem Tree.Numbered.outcome {tree : Tree ι τ} {first last : Nat} (h : tree.Numbered first last)
    (factory : Factory ι τ π ω) (earlier : List ι) {input : ι} {walk : WalkEnd τ}
    {context : Context ι} (hwalk : tree.walk (.new input) = .ok walk context) :
    (((Decider.new tree factory).after earlier).decide input).outcome =
      (factory.finish (factory.prepare walk.items) context).1 := by
  have hmem : walk ∈ tree.ends [] := Tree.walk_mem_ends [] tree hwalk
  have hcurrent := (Decider.Prepares.new tree factory).after earlier
  obtain ⟨hafter, prepared, hprepared, hnode, hresult⟩ := hcurrent.prepare hmem
  obtain ⟨hitems, hend⟩ := hafter.2.2 prepared hprepared
  have hsame : (⟨prepared.node, prepared.items⟩ : WalkEnd τ) = walk := h.items_eq hmem hend hnode
  rw [Decider.decide, hcurrent.1, hwalk]
  change (((Decider.prepare _ walk).2.factory).finish (Decider.prepare _ walk).1 context).1 = _
  rw [hafter.2.1, ← hresult, hitems, ← hsame]

theorem DeciderBuilder.decide_of_walk {builder : DeciderBuilder ι τ} {factory : Factory ι τ π ω}
    {decider : Decider ι τ π ω} (hbuild : (builder.build factory).outcome = .ok decider)
    (earlier : List ι) {input : ι} {walk : WalkEnd τ} {context : Context ι}
    (hwalk : decider.tree.walk (.new input) = .ok walk context) :
    ((decider.after earlier).decide input).outcome =
      (factory.finish (factory.prepare walk.items) context).1 := by
  obtain ⟨tree, last, rfl, hcompile⟩ := build_ok hbuild
  exact (compile_numbered _ _ hcompile).outcome factory earlier hwalk

theorem DeciderBuilder.decide_of_walk_error {builder : DeciderBuilder ι τ}
    {factory : Factory ι τ π ω} {decider : Decider ι τ π ω}
    (hbuild : (builder.build factory).outcome = .ok decider) (earlier : List ι) {input : ι}
    {error : VariableError} {context : Context ι}
    (hwalk : decider.tree.walk (.new input) = .error error context) :
    ((decider.after earlier).decide input).outcome = .error (.evaluation error) := by
  obtain ⟨tree, -, rfl, -⟩ := build_ok hbuild
  obtain ⟨hsame, -, -⟩ := (Decider.Prepares.new tree factory).after earlier
  have hwalked : ((Decider.new tree factory).after earlier).tree.walk (.new input) =
      .error error context := by
    rw [hsame]
    exact hwalk
  rw [Decider.decide, hwalked]

end Decision

namespace Plan

/-! ## Rules of a plan file -/

def RuleSpec.appliesTo (rule : RuleSpec) (document : Json) : Bool :=
  rule.conditions.all fun (field, value) =>
    Value.ofJson? (document.readField? field) = Value.ofJson value

namespace PlanFile

/-- Whether no rule asks twice for a field.  A file that is read from text does not, see
`PlanFile.mapped_of_parse?`. -/
def Mapped (file : PlanFile) : Prop := ∀ rule ∈ file.rules, (rule.conditions.map (·.1)).Nodup

end PlanFile

private theorem nodup_of_map? {depth : Nat} {written : Written} {fields : List (String × Json)}
    (h : Written.map? depth written = some fields) : (fields.map (·.1)).Nodup := by
  unfold Written.map? at h
  split at h
  · split at h
    · next document _ =>
      have hsorted := sorted_normalize document
      split at h
      · next sorted hnormal =>
        cases h
        rw [hnormal, sorted_object] at hsorted
        refine List.pairwise_map.mpr (List.Pairwise.imp (fun {first second} hless hequal => ?_)
          hsorted.1)
        rw [hequal] at hless
        exact String.lt_irrefl _ hless
      · cases h
    · cases h
  · cases h

private theorem nodup_of_readRule? {depth : Nat} {written : Written} {rule : RuleSpec}
    (h : readRule? depth written = some rule) : (rule.conditions.map (·.1)).Nodup := by
  obtain ⟨fields, -, h⟩ := Option.bind_eq_some_iff.mp h
  split at h
  · next conditions steps =>
    obtain ⟨name, -, h⟩ := Option.bind_eq_some_iff.mp h
    obtain ⟨own, hown, h⟩ := Option.bind_eq_some_iff.mp h
    obtain ⟨own, -, h⟩ := Option.bind_eq_some_iff.mp h
    cases h
    cases conditions with
    | none =>
        cases hown
        exact List.nodup_nil
    | some conditions => exact nodup_of_map? hown
  · cases h

theorem PlanFile.mapped_of_parse? {text : String} {file : PlanFile}
    (h : PlanFile.parse? text = some file) : file.Mapped := by
  intro rule hrule
  obtain ⟨depth, written, hread⟩ := rules_of_parse? h rule hrule
  exact nodup_of_readRule? hread

theorem separate_fieldConditions {rule : RuleSpec} (h : (rule.conditions.map (·.1)).Nodup) :
    Decision.Separate (rule.fieldConditions.map (·.subject)) := by
  rw [RuleSpec.fieldConditions, Decision.Separate, List.map_map, List.pairwise_map]
  rw [List.Nodup, List.pairwise_map] at h
  refine h.imp fun {first second} hdifferent => ?_
  simpa [fieldVariable, Variable.same] using hdifferent

namespace PlanFile

def numbered (file : PlanFile) : DeciderBuilder Json (RuleSpec × Nat) :=
  ⟨file.rules.zipIdx.map fun (rule, index) => ⟨rule.fieldConditions, (rule, index)⟩,
    file.deciderConfig⟩

variable {file : PlanFile} {τ π ω : Type}

private theorem addRules_eq (item : RuleSpec → Nat → τ) (builder : DeciderBuilder Json τ)
    {rules : List (RuleSpec × Nat)} (h : ∀ entry ∈ rules, (entry.1.conditions.map (·.1)).Nodup) :
    addRules item builder rules = .ok ⟨builder.rules ++ rules.map fun (rule, index) =>
      ⟨rule.fieldConditions, item rule index⟩, builder.config⟩ := by
  induction rules generalizing builder with
  | nil => simp [addRules]
  | cons entry rules ih =>
      obtain ⟨rule, index⟩ := entry
      rw [List.forall_mem_cons] at h
      have hrule := Rule.of_eq (separate_fieldConditions h.1) (item rule index)
      simp only [addRules, DeciderBuilder.addRule, hrule]
      rw [ih _ h.2]
      simp

theorem Mapped.rule (h : file.Mapped) :
    ∀ entry ∈ file.rules.zipIdx, (entry.1.conditions.map (·.1)).Nodup :=
  fun _ hentry => h _ (List.fst_mem_of_mem_zipIdx hentry)

theorem Mapped.addRules (h : file.Mapped) (item : RuleSpec → Nat → τ) (config : DeciderConfig) :
    PlanFile.addRules item (.new config) file.rules.zipIdx =
      .ok { file.numbered.map fun (rule, index) => item rule index with config } := by
  rw [addRules_eq item _ h.rule, numbered, DeciderBuilder.map, List.map_map]
  rfl

theorem Mapped.opens (h : file.Mapped) :
    Open (fun subject => ∃ path, subject = fieldVariable path) [] file.numbered.rules where
  separate rule hrule := by
    obtain ⟨entry, hentry, rfl⟩ := List.mem_map.mp hrule
    exact separate_fieldConditions (h.rule entry hentry)
  known rule hrule condition hcondition := by
    obtain ⟨entry, hentry, rfl⟩ := List.mem_map.mp hrule
    obtain ⟨⟨path, value⟩, -, rfl⟩ := List.mem_map.mp hcondition
    exact ⟨path, rfl⟩
  unasked := by simp

/-! ## Building -/

theorem build_numbered (convert : RuleSpec × Nat → τ) (factory : Factory Json τ π ω) :
    ((file.numbered.map convert).build factory).outcome =
      file.numbered.buildTree.outcome.map fun tree => Decider.new (tree.map convert) factory := by
  rw [DeciderBuilder.build, DeciderBuilder.buildTree_map]
  cases file.numbered.buildTree.outcome <;> rfl

theorem Mapped.buildDecider (h : file.Mapped) (item : RuleSpec → Nat → τ)
    (factory : Factory Json τ π ω) :
    file.buildDecider item factory = file.numbered.buildTree.outcome.map fun tree =>
      Decider.new (tree.map fun (rule, index) => item rule index) factory := by
  rw [PlanFile.buildDecider, h.addRules]
  exact build_numbered _ factory

theorem buildTree_error {builder : DeciderBuilder Json τ} {error : DecisionError}
    (hwithin : Within (fun subject => ∃ path, subject = fieldVariable path) builder.rules)
    (h : builder.buildTree.outcome = .error error) :
    ∃ limit, builder.config.maxNodes = some limit ∧ error = .treeTooLarge limit := by
  obtain ⟨last, hcompile⟩ := DeciderBuilder.buildTree_failed h
  rcases compile_error _ _ hwithin hcompile with hlarge | ⟨subject, ⟨path, rfl⟩, hmeta, -⟩
  · exact hlarge
  · cases hmeta

private theorem openingPlan_ok {tree : Tree Json (RuleSpec × Nat)}
    (h : file.numbered.buildTree.outcome = .ok tree) : ∃ unused, file.openingPlan = .ok unused := by
  obtain ⟨last, hcompile⟩ := DeciderBuilder.buildTree_ok h
  obtain ⟨id, next, hid⟩ := newNode_room.mpr (compile_room _ _ hcompile)
  have hopening : compileRules file.deciderConfig.maxNodes
      ([] : List (Rule Json (Patch (Stage Json)))) ⟨0, []⟩ = .ok (.leaf id []) next := by
    change EStateM.bind (newNode file.numbered.config.maxNodes) _ ⟨0, []⟩ = _
    rw [EStateM.bind, hid]
    rfl
  refine ⟨.new (.leaf id []) planFactory, ?_⟩
  rw [openingPlan, DeciderBuilder.build, DeciderBuilder.buildTree, DeciderBuilder.new, hopening]
  rfl

end PlanFile

/-! ## Installing -/

namespace Registry

variable {γ : Type} {registry : Registry γ} {name : String}
  (change : Editor γ → Except ExecutionError Unit × Editor γ)

theorem edit_of_opening_error (hnew : lookUp registry.editors name = none) {error : ExecutionError}
    (hopen : (Editor.new name registry.executor registry.config).flush = .error error) :
    (registry.edit name change).1 = .error error := by
  simp only [edit, openEditor, hnew, hopen]

theorem edit_of_flush_error (hnew : lookUp registry.editors name = none) {unused : Operation γ}
    {editor : Editor γ} {error : ExecutionError}
    (hopen : (Editor.new name registry.executor registry.config).flush = .ok unused)
    (hchange : change (.new name registry.executor registry.config) = (.ok (), editor))
    (hflush : editor.flush = .error error) : (registry.edit name change).1 = .error error := by
  simp only [edit, openEditor, hnew, hopen, hchange, hflush]

end Registry

namespace PlanFile

variable {file : PlanFile}

def registryFor (file : PlanFile) (executor : Executor Json) : Registry Json :=
  { Registry.new executor with config := file.deciderConfig }

theorem Mapped.addPatches (h : file.Mapped) (executor : Executor Json) (config : DeciderConfig) :
    PlanFile.addPatches (.new file.name executor config) file.rules.zipIdx =
      (.ok (), ⟨file.name,
        { file.numbered.map fun (rule, index) => rule.patch index with config }, executor⟩) :=
  (addPatches_ok_iff _ _ _).mpr ⟨_, h.addRules RuleSpec.patch config, rfl⟩

theorem Mapped.install_ok (h : file.Mapped) (executor : Executor Json)
    {tree : Tree Json (RuleSpec × Nat)} (hbuild : file.numbered.buildTree.outcome = .ok tree) :
    ∃ next, file.install (file.registryFor executor) = (.ok (), next) ∧
      next.resolve file.name =
        .ok ⟨.new (tree.map fun (rule, index) => rule.patch index) planFactory, executor⟩ := by
  obtain ⟨unused, hopening⟩ := openingPlan_ok hbuild
  refine Registry.edit_of_ok _ rfl ((flush_ok_iff _ _).mpr ⟨unused, hopening, rfl⟩)
    (h.addPatches executor _) ((flush_ok_iff _ _).mpr ⟨_, ?_, rfl⟩)
  refine (build_numbered _ planFactory).trans ?_
  rw [hbuild]
  rfl

theorem flush_error {editor : Editor Json} {error : DecisionError}
    (h : editor.builder.buildTree.outcome = .error error) :
    editor.flush = .error (.decision error) := by
  rw [Editor.flush, DeciderBuilder.build, h]
  rfl

theorem Mapped.install_error (h : file.Mapped) (executor : Executor Json) {error : DecisionError}
    (hbuild : file.numbered.buildTree.outcome = .error error) :
    (file.install (file.registryFor executor)).1 = .error (.decision error) := by
  cases hopening : (Editor.new file.name executor file.deciderConfig).builder.buildTree.outcome with
  | error own =>
      -- both fail for want of room, in the same bound
      obtain ⟨limit, hlimit, rfl⟩ := buildTree_error h.opens.known hbuild
      obtain ⟨other, hother, rfl⟩ :=
        buildTree_error (by simp [Editor.new, DeciderBuilder.new, Within]) hopening
      obtain rfl := Option.some.inj (hlimit.symm.trans hother)
      exact Registry.edit_of_opening_error _ rfl (flush_error hopening)
  | ok tree =>
      have hflush : (Editor.new file.name executor file.deciderConfig).flush =
          .ok ⟨.new tree planFactory, executor⟩ :=
        (flush_ok_iff _ _).mpr ⟨_, by rw [DeciderBuilder.build, hopening]; rfl, rfl⟩
      refine Registry.edit_of_flush_error _ rfl hflush (h.addPatches executor _) (flush_error ?_)
      refine (DeciderBuilder.buildTree_map _ file.numbered).trans ?_
      rw [hbuild]
      rfl

/-! ## Deciding -/

theorem Mapped.walk (h : file.Mapped) {tree : Tree Json (RuleSpec × Nat)}
    (hbuild : file.numbered.buildTree.outcome = .ok tree) (document : Json) :
    ∃ walk next, tree.walk (.new document) = .ok walk next ∧
      walk.items.Perm (file.rules.zipIdx.filter fun (rule, _) => rule.appliesTo document) := by
  obtain ⟨last, hcompile⟩ := DeciderBuilder.buildTree_ok hbuild
  have hlayout := compile_layout _ _ h.opens ⟨by simp, .nil, by simp⟩ hcompile
  have hanswers : ∀ placed ∈ tree.placed none [], ∀ subject,
      placed.node.subject? = some subject → Answers subject := by
    intro placed hplaced subject hsubject
    obtain ⟨path, rfl⟩ := (hlayout.fits none placed hplaced).known subject (by simp [hsubject])
    intro context
    rw [Live.get, Live.fetch]
    split <;> simp [Live.evaluate, Live.call, fieldVariable, ownFunction]
  obtain ⟨walk, next, hwalk⟩ := tree.walkFrom_ok none [] hanswers [] (.new document)
  refine ⟨walk, next, hwalk, ?_⟩
  obtain ⟨-, hmeans⟩ := compile_sound coherent_fields _ _ h.opens.known (Nat.le_refl _) hcompile
  have hitems := hmeans document [] _ _ walk (by simp [Variable.Agrees]) (.new _ document) hwalk
  rw [List.nil_append, chosen, numbered, List.filter_map, List.map_map] at hitems
  have hholds : ∀ rule : RuleSpec, rule.fieldConditions.all (·.holdsOn document) =
      rule.appliesTo document := by
    intro rule
    rw [RuleSpec.fieldConditions, List.all_map]
    rfl
  simp only [Rule.holdsOn, Function.comp_def, hholds] at hitems
  simpa using hitems

theorem numbered_outcome {tree : Tree Json (RuleSpec × Nat)}
    (hbuild : file.numbered.buildTree.outcome = .ok tree) {document : Json}
    {walk : WalkEnd (RuleSpec × Nat)} {next : Context Json}
    (hwalk : tree.walk (.new document) = .ok walk next) (convert : RuleSpec × Nat → τ)
    (factory : Factory Json τ π ω) (earlier : List Json) :
    (((Decider.new (tree.map convert) factory).after earlier).decide document).outcome =
      (factory.finish (factory.prepare (walk.items.map convert)) next).1 := by
  have hmapped : ((file.numbered.map convert).build factory).outcome =
      .ok (.new (tree.map convert) factory) := by
    rw [build_numbered, hbuild]
    rfl
  have hwalked : (tree.map convert).walk (.new document) = .ok (walk.map convert) next := by
    rw [Tree.walk_map, map_run, hwalk]
  exact DeciderBuilder.decide_of_walk hmapped earlier hwalked

end PlanFile

/-- The order of stages that rules with their numbers make, one after another from an empty one. -/
def casePlanOf (rules : List (RuleSpec × Nat)) : Except DecisionError (Order (Stage Json)) :=
  match applyPatches .empty (rules.map fun (rule, index) => rule.patch index) with
  | .error error => .error (.output error.message)
  | .ok order =>
    match order.validate with
    | (.error error, _) => .error (.output error.message)
    | (.ok (), order) => .ok order

private theorem casePlanOf_eq (rules : List (RuleSpec × Nat)) :
    casePlanOf rules = (casePlan (rules.map fun (rule, index) => rule.patch index)).mapError
      fun error => .output error.message := by
  rw [casePlanOf, casePlan]
  cases applyPatches .empty (rules.map fun (rule, index) => rule.patch index) with
  | error error => rfl
  | ok order =>
      dsimp only
      rcases order.validate with ⟨_ | _, validated⟩ <;> rfl

/-- What is shown for a document is what is executed: the matcher, the plan and the installed
operation are all refused for the same want of room, or they go by one list of rules, which are those
that apply to the document. -/
theorem PlanFile.Mapped.explains {file : PlanFile} (hfile : file.Mapped)
    (executor : Executor Json) :
    (∃ limit, file.maxNodes = some limit ∧ file.ruleMatcher = .error (.treeTooLarge limit) ∧
      file.operationPlan = .error (.treeTooLarge limit) ∧
      (file.install (file.registryFor executor)).1 = .error (.decision (.treeTooLarge limit))) ∨
    ∃ matcher plan next operation,
      file.ruleMatcher = .ok matcher ∧ file.operationPlan = .ok plan ∧
      file.install (file.registryFor executor) = (.ok (), next) ∧
      next.resolve file.name = .ok operation ∧ operation.executor = executor ∧
      ∀ document, ∃ rules : List (RuleSpec × Nat),
        rules.Perm (file.rules.zipIdx.filter fun (rule, _) => rule.appliesTo document) ∧
        ∀ earlier,
          ((matcher.after earlier).decide document).outcome =
            .ok (rules.map fun (rule, index) => rule.label index) ∧
          ((plan.after earlier).decide document).outcome = casePlanOf rules ∧
          ((operation.plan.after earlier).decide document).outcome = casePlanOf rules := by
  rw [ruleMatcher, operationPlan, hfile.buildDecider, hfile.buildDecider]
  cases hbuild : file.numbered.buildTree.outcome with
  | error error =>
      obtain ⟨limit, hlimit, rfl⟩ := buildTree_error hfile.opens.known hbuild
      exact .inl ⟨limit, hlimit, rfl, rfl, hfile.install_error executor hbuild⟩
  | ok tree =>
      obtain ⟨next, hinstall, hresolve⟩ := hfile.install_ok executor hbuild
      refine .inr ⟨_, _, next, _, rfl, rfl, hinstall, hresolve, rfl, fun document => ?_⟩
      obtain ⟨walk, last, hwalk, hitems⟩ := hfile.walk hbuild document
      refine ⟨walk.items, hitems, fun earlier => ⟨?_, ?_, ?_⟩⟩
      · exact numbered_outcome hbuild hwalk _ _ earlier
      · rw [casePlanOf_eq]
        exact numbered_outcome hbuild hwalk _ planFactory earlier
      · rw [casePlanOf_eq]
        exact numbered_outcome hbuild hwalk _ planFactory earlier

def kinds : PlanFile :=
  ⟨"plan", .default, none,
    [⟨some "pack", [("kind", .string "x")], [.set (some "pack") [("packed", .bool true)]]⟩,
      ⟨none, [], [.append none "log" (.string "b")]⟩,
      ⟨none, [("kind", .string "y")], [.set none [("seen", .bool true)]]⟩]⟩

theorem explains_kinds :
    kinds.Mapped ∧ ∃ matcher plan next operation,
      kinds.ruleMatcher = .ok matcher ∧ kinds.operationPlan = .ok plan ∧
      kinds.install kinds.registry = (.ok (), next) ∧ next.resolve "plan" = .ok operation ∧
      (matcher.decide (.object [("kind", .string "x")])).outcome = .ok ["rule 1", "pack"] ∧
      (operation.plan.decide (.object [("kind", .string "x")])).outcome =
        (plan.decide (.object [("kind", .string "x")])).outcome := by
  have hmapped : kinds.Mapped := by simp [PlanFile.Mapped, kinds]
  refine ⟨hmapped, ?_⟩
  rcases hmapped.explains ⟨kinds.executor, Json.merge⟩ with ⟨limit, hlimit, -⟩ |
    ⟨matcher, plan, next, operation, hmatcher, hplan, hinstall, hresolve, -, hall⟩
  · cases hlimit
  · obtain ⟨rules, -, houtcome⟩ := hall (.object [("kind", .string "x")])
    obtain ⟨-, hshown, hrun⟩ := houtcome []
    have hlabels : kinds.ruleMatcher.toOption.bind (fun matcher =>
        (matcher.decide (.object [("kind", .string "x")])).outcome.toOption) =
          some ["rule 1", "pack"] := by
      decide +kernel
    rw [hmatcher] at hlabels
    exact ⟨matcher, plan, next, operation, hmatcher, hplan, hinstall, hresolve,
      ok_of_toOption hlabels, hrun.trans hshown.symm⟩

end Plan

end Runbook
