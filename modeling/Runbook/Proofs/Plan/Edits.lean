import Runbook.Plan.Registry
import Runbook.Proofs.Decision.Selection
import Mathlib.Data.List.DropRight

/-!
# Edits of operations

What a registry holds after edits: for each name all patches that its edits ever added, and an
operation of those that were there when an edit succeeded last.  An edit that fails changes no
operation, unless it is the first one of its name.
-/

namespace Runbook.Plan

open Decision

variable {γ : Type}

/-! ## Editors -/

abbrev PatchEntry (γ : Type) := Entry γ (Patch (Stage γ))

namespace Editor

def ofPatches (name : String) (executor : Executor γ) (config : DeciderConfig)
    (entries : List (PatchEntry γ)) : Editor γ :=
  ⟨name, entries.foldl (fun builder entry => (builder.addRule entry.1 entry.2).2) (.new config),
    executor⟩

inductive Adds : Editor γ → List (PatchEntry γ) → Editor γ → Prop where
  | nothing (editor : Editor γ) : Adds editor [] editor
  | accepted {editor next last : Editor γ} {entries : List (PatchEntry γ)}
      {conditions : List (Condition γ)} {patch : Patch (Stage γ)} :
      Adds editor entries next → next.addPatch conditions patch = (.ok (), last) →
      Adds editor (entries ++ [(conditions, patch)]) last
  | refused {editor next last : Editor γ} {entries : List (PatchEntry γ)}
      {conditions : List (Condition γ)} {patch : Patch (Stage γ)} {error : ExecutionError} :
      Adds editor entries next → next.addPatch conditions patch = (.error error, last) →
      Adds editor entries last

variable {name : String} {executor : Executor γ} {config : DeciderConfig}

private theorem ofPatches_append (entries : List (PatchEntry γ)) (entry : PatchEntry γ) :
    ofPatches name executor config (entries ++ [entry]) =
      ((ofPatches name executor config entries).addPatch entry.1 entry.2).2 := by
  rw [ofPatches, List.foldl_append]
  rfl

private theorem addPatch_refused {editor next : Editor γ} {conditions : List (Condition γ)}
    {patch : Patch (Stage γ)} {error : ExecutionError}
    (h : editor.addPatch conditions patch = (.error error, next)) : next = editor := by
  rw [addPatch, DeciderBuilder.addRule] at h
  cases hrule : Rule.of conditions patch with
  | ok rule => simp [hrule, Except.mapError] at h
  | error own =>
      simp only [hrule, Prod.mk.injEq] at h
      exact h.2.symm

theorem Adds.eq {next : Editor γ} {earlier entries : List (PatchEntry γ)}
    (h : (ofPatches name executor config earlier).Adds entries next) :
    next = ofPatches name executor config (earlier ++ entries) := by
  induction h with
  | nothing => rw [List.append_nil]
  | accepted _ hadd ih => rw [← List.append_assoc, ofPatches_append, ← ih, hadd]
  | refused _ hadd ih => rw [addPatch_refused hadd, ih]

end Editor

/-! ## Single edits -/

namespace Registry

variable {registry opened : Registry γ} {name : String} {editor : Editor γ}
  {error : ExecutionError}

theorem openEditor_error (h : (registry.openEditor name).1 = .error error) :
    lookUp registry.editors name = none ∧
      (Editor.new name registry.executor registry.config).flush = .error error ∧
      registry.openEditor name = (.error error, registry) := by
  rw [openEditor] at h ⊢
  cases hknown : lookUp registry.editors name with
  | some editor => simp [hknown] at h
  | none =>
      cases hflush : (Editor.new name registry.executor registry.config).flush with
      | ok operation => simp [hknown, hflush] at h
      | error own =>
          simp only [hknown, hflush, Except.error.injEq] at h
          simp [hflush, h]

theorem openEditor_ok (h : registry.openEditor name = (.ok editor, opened)) :
    (lookUp registry.editors name = some editor ∧ opened = registry) ∨
    (lookUp registry.editors name = none ∧
      editor = .new name registry.executor registry.config ∧
      ∃ operation, editor.flush = .ok operation ∧
        opened = { registry.register name operation with
          editors := enter registry.editors name editor }) := by
  rw [openEditor] at h
  cases hknown : lookUp registry.editors name with
  | some known =>
      simp only [hknown, Prod.mk.injEq, Except.ok.injEq] at h
      exact .inl ⟨by rw [h.1], h.2.symm⟩
  | none =>
      cases hflush : (Editor.new name registry.executor registry.config).flush with
      | error own => simp [hknown, hflush] at h
      | ok operation =>
          simp only [hknown, hflush, Prod.mk.injEq, Except.ok.injEq] at h
          obtain ⟨rfl, rfl⟩ := h
          exact .inr ⟨rfl, rfl, operation, hflush, rfl⟩

variable (change : Editor γ → Except ExecutionError Unit × Editor γ)

theorem edit_unopened (h : (registry.openEditor name).1 = .error error) :
    registry.edit name change = (.error error, registry) := by
  rw [edit, (openEditor_error h).2.2]

theorem edit_opened (h : registry.openEditor name = (.ok editor, opened)) :
    (∃ error, registry.edit name change =
      (.error error, { opened with editors := enter opened.editors name (change editor).2 })) ∨
    ∃ operation, (change editor).2.flush = .ok operation ∧ registry.edit name change =
      (.ok (), { opened with
        operations := enter opened.operations name operation
        editors := enter opened.editors name (change editor).2 }) := by
  simp only [edit, h]
  cases hchange : change editor with
  | mk outcome next =>
      cases outcome with
      | error error => exact .inl ⟨error, rfl⟩
      | ok _ =>
          cases hflush : next.flush with
          | error error => exact .inl ⟨error, rfl⟩
          | ok operation => exact .inr ⟨operation, rfl, rfl⟩

theorem edit_cases (registry : Registry γ) (name : String) :
    (∃ error, registry.openEditor name = (.error error, registry) ∧
      registry.edit name change = (.error error, registry)) ∨
    ∃ editor opened, registry.openEditor name = (.ok editor, opened) ∧
      ((∃ error, registry.edit name change =
        (.error error, { opened with editors := enter opened.editors name (change editor).2 })) ∨
      ∃ operation, (change editor).2.flush = .ok operation ∧ registry.edit name change =
        (.ok (), { opened with
          operations := enter opened.operations name operation
          editors := enter opened.editors name (change editor).2 })) := by
  cases hopen : registry.openEditor name with
  | mk outcome opened =>
      cases outcome with
      | error error =>
          have herror := congrArg Prod.fst hopen
          rw [← hopen, (openEditor_error herror).2.2]
          exact .inl ⟨error, rfl, edit_unopened change herror⟩
      | ok editor => exact .inr ⟨editor, opened, rfl, edit_opened change hopen⟩

structure AgreeBut (name : String) (first second : Registry γ) : Prop where
  executor : second.executor = first.executor
  config : second.config = first.config
  editors : ∀ other, other ≠ name → lookUp second.editors other = lookUp first.editors other
  operations : ∀ other, other ≠ name →
    lookUp second.operations other = lookUp first.operations other

theorem openEditor_agrees (h : registry.openEditor name = (.ok editor, opened)) :
    AgreeBut name registry opened := by
  rcases openEditor_ok h with ⟨-, rfl⟩ | ⟨-, -, operation, -, rfl⟩
  · exact ⟨rfl, rfl, fun _ _ => rfl, fun _ _ => rfl⟩
  · exact ⟨rfl, rfl, fun other hother => lookUp_enter_of_ne _ hother _,
      fun other hother => lookUp_enter_of_ne _ hother _⟩

theorem edit_agrees (registry : Registry γ) (name : String) :
    AgreeBut name registry (registry.edit name change).2 := by
  rcases edit_cases change registry name with
    ⟨error, -, hedit⟩ | ⟨editor, opened, hopen, ⟨error, hedit⟩ | ⟨operation, -, hedit⟩⟩
  · rw [hedit]
    exact ⟨rfl, rfl, fun _ _ => rfl, fun _ _ => rfl⟩
  · obtain ⟨hexecutor, hconfig, heditors, hoperations⟩ := openEditor_agrees hopen
    rw [hedit]
    refine ⟨hexecutor, hconfig, fun other hother => ?_, hoperations⟩
    rw [lookUp_enter_of_ne _ hother, heditors other hother]
  · obtain ⟨hexecutor, hconfig, heditors, hoperations⟩ := openEditor_agrees hopen
    rw [hedit]
    refine ⟨hexecutor, hconfig, fun other hother => ?_, fun other hother => ?_⟩
    · rw [lookUp_enter_of_ne _ hother, heditors other hother]
    · rw [lookUp_enter_of_ne _ hother, hoperations other hother]

theorem AgreeBut.resolve {name other : String} {first second : Registry γ}
    (h : AgreeBut name first second) (hother : other ≠ name) :
    second.resolve other = first.resolve other := by
  rw [Registry.resolve, Registry.resolve, h.operations other hother]

end Registry

/-! ## Runs of edits -/

/-- What is noted of an edit: its name, whether it got past the build without patches, the patches
that were accepted, and whether it succeeded. -/
structure EditNote (γ : Type) where
  name : String
  opened : Bool
  accepted : List (PatchEntry γ)
  succeeded : Bool

/-- Registries that are edited and never registered in, with notes of their edits.  Whether an edit
fails is not restricted. -/
inductive Registry.Edited (executor : Executor γ) (config : DeciderConfig) :
    Registry γ → List (EditNote γ) → Prop where
  | new : Edited executor config { Registry.new executor with config } []
  | unopened {registry : Registry γ} {notes : List (EditNote γ)} {name : String}
      {change : Editor γ → Except ExecutionError Unit × Editor γ} {error : ExecutionError} :
      Edited executor config registry notes → (registry.openEditor name).1 = .error error →
      Edited executor config (registry.edit name change).2 (notes ++ [⟨name, false, [], false⟩])
  | opened {registry : Registry γ} {notes : List (EditNote γ)} {name : String}
      {change : Editor γ → Except ExecutionError Unit × Editor γ} {editor : Editor γ}
      {accepted : List (PatchEntry γ)} :
      Edited executor config registry notes → (registry.openEditor name).1 = .ok editor →
      editor.Adds accepted (change editor).2 →
      Edited executor config (registry.edit name change).2
        (notes ++ [⟨name, true, accepted, (registry.edit name change).1.isOk⟩])

section

variable (name : String) (notes : List (EditNote γ))

def editsOf : List (EditNote γ) := notes.filter (·.name = name)

def acceptedFor : List (PatchEntry γ) := (editsOf name notes).flatMap (·.accepted)

/-- The patches that were accepted for a name up to its last edit that succeeded. -/
def inForce : List (PatchEntry γ) :=
  ((editsOf name notes).rdropWhile (!·.succeeded)).flatMap (·.accepted)

def Opened : Prop := ∃ note ∈ notes, note.name = name ∧ note.opened

end

section

variable {name : String} {notes : List (EditNote γ)} {note : EditNote γ} {opened succeeded : Bool}
  {accepted : List (PatchEntry γ)}

private theorem editsOf_append_of_ne (h : note.name ≠ name) :
    editsOf name (notes ++ [note]) = editsOf name notes := by
  simp [editsOf, h]

theorem acceptedFor_append :
    acceptedFor name (notes ++ [⟨name, opened, accepted, succeeded⟩]) =
      acceptedFor name notes ++ accepted := by
  simp [acceptedFor, editsOf]

theorem inForce_append :
    inForce name (notes ++ [⟨name, opened, accepted, succeeded⟩]) =
      if succeeded then acceptedFor name notes ++ accepted else inForce name notes := by
  cases hsucceeded : succeeded with
  | false => simp [inForce, editsOf]
  | true => simp [inForce, acceptedFor, editsOf]

theorem opened_append : Opened name (notes ++ [note]) ↔
    Opened name notes ∨ (note.name = name ∧ note.opened) := by
  simp [Opened, or_and_right, exists_or]

end

namespace Registry

def compiled (executor : Executor γ) (config : DeciderConfig) (name : String)
    (entries : List (PatchEntry γ)) : Except ExecutionError (Operation γ) :=
  (Editor.ofPatches name executor config entries).flush

/-- What a registry holds under a name: nothing before an edit was opened, and then an editor with
all patches beside an operation of those in force. -/
structure Holds (executor : Executor γ) (config : DeciderConfig) (registry : Registry γ)
    (notes : List (EditNote γ)) (name : String) : Prop where
  sameExecutor : registry.executor = executor
  sameConfig : registry.config = config
  closed : ¬ Opened name notes →
    lookUp registry.editors name = none ∧ lookUp registry.operations name = none ∧
      acceptedFor name notes = [] ∧ inForce name notes = []
  opened : Opened name notes →
    lookUp registry.editors name =
        some (.ofPatches name executor config (acceptedFor name notes)) ∧
      ∃ operation, lookUp registry.operations name = some operation ∧
        compiled executor config name (inForce name notes) = .ok operation

namespace Holds

variable {executor : Executor γ} {config : DeciderConfig} {registry next opened : Registry γ}
  {notes : List (EditNote γ)} {name : String} {note : EditNote γ} {editor : Editor γ}

theorem of_agrees (h : Holds executor config registry notes name)
    (hagrees : AgreeBut note.name registry next) (hname : name ≠ note.name) :
    Holds executor config next (notes ++ [note]) name := by
  have hedits : editsOf name (notes ++ [note]) = editsOf name notes :=
    editsOf_append_of_ne (Ne.symm hname)
  have hopened : Opened name (notes ++ [note]) ↔ Opened name notes := by
    simp [opened_append, Ne.symm hname]
  refine ⟨hagrees.executor.trans h.sameExecutor, hagrees.config.trans h.sameConfig,
    fun hclosed => ?_, fun hopen => ?_⟩
  · rw [hagrees.editors name hname, hagrees.operations name hname, acceptedFor, inForce, hedits]
    exact h.closed (hopened.not.mp hclosed)
  · rw [hagrees.editors name hname, hagrees.operations name hname, acceptedFor, inForce, hedits]
    exact h.opened (hopened.mp hopen)

private theorem of_unopened (h : Holds executor config registry notes name) {error : ExecutionError}
    (hopen : (registry.openEditor name).1 = .error error) :
    Holds executor config registry (notes ++ [⟨name, false, [], false⟩]) name := by
  obtain ⟨hnew, -⟩ := openEditor_error hopen
  have hclosed : ¬ Opened name notes := fun hopened => by
    simp [(h.opened hopened).1] at hnew
  obtain ⟨heditors, hoperations, haccepted, hforce⟩ := h.closed hclosed
  refine ⟨h.sameExecutor, h.sameConfig, fun _ => ⟨heditors, hoperations, ?_, ?_⟩, fun hopened => ?_⟩
  · rw [acceptedFor_append, haccepted, List.nil_append]
  · rw [inForce_append, hforce]
    rfl
  · simp [opened_append, hclosed] at hopened

theorem openEditor (h : Holds executor config registry notes name)
    (hopen : registry.openEditor name = (.ok editor, opened)) :
    editor = .ofPatches name executor config (acceptedFor name notes) ∧
      ∃ operation, lookUp opened.operations name = some operation ∧
        compiled executor config name (inForce name notes) = .ok operation := by
  rcases openEditor_ok hopen with ⟨hknown, rfl⟩ | ⟨hnew, rfl, operation, hflush, rfl⟩
  · have hopened : Opened name notes := by
      by_contra hclosed
      simp [(h.closed hclosed).1] at hknown
    obtain ⟨heditor, hoperation⟩ := h.opened hopened
    exact ⟨Option.some.inj (hknown.symm.trans heditor), hoperation⟩
  · have hclosed : ¬ Opened name notes := fun hopened => by
      simp [(h.opened hopened).1] at hnew
    obtain ⟨-, -, haccepted, hforce⟩ := h.closed hclosed
    rw [h.sameExecutor, h.sameConfig] at hflush ⊢
    rw [haccepted, hforce]
    exact ⟨rfl, operation, lookUp_enter _ _ _, hflush⟩

private theorem of_opened (h : Holds executor config registry notes name)
    {change : Editor γ → Except ExecutionError Unit × Editor γ} {accepted : List (PatchEntry γ)}
    (hopen : (registry.openEditor name).1 = .ok editor)
    (hadds : editor.Adds accepted (change editor).2) :
    Holds executor config (registry.edit name change).2
      (notes ++ [⟨name, true, accepted, (registry.edit name change).1.isOk⟩]) name := by
  have hagrees := edit_agrees change registry name
  have hpair : registry.openEditor name = (.ok editor, (registry.openEditor name).2) := by
    rw [← hopen]
  obtain ⟨rfl, before, hbefore, hcompiled⟩ := h.openEditor hpair
  have hnext := hadds.eq
  refine ⟨hagrees.executor.trans h.sameExecutor, hagrees.config.trans h.sameConfig,
    fun hclosed => ?_, fun _ => ?_⟩
  · exact absurd (opened_append.mpr (.inr ⟨rfl, rfl⟩)) hclosed
  rw [acceptedFor_append, inForce_append, ← hnext]
  rcases edit_opened change hpair with ⟨error, hedit⟩ | ⟨operation, hflush, hedit⟩
  · -- the operation of before stays
    rw [hedit]
    exact ⟨lookUp_enter _ _ _, before, hbefore, hcompiled⟩
  · rw [hedit]
    refine ⟨lookUp_enter _ _ _, operation, lookUp_enter _ _ _, ?_⟩
    rw [hnext] at hflush
    exact hflush

end Holds

variable {executor : Executor γ} {config : DeciderConfig} {registry : Registry γ}
  {notes : List (EditNote γ)}

theorem Edited.holds (h : Edited executor config registry notes) (name : String) :
    Holds executor config registry notes name := by
  induction h with
  | new => exact ⟨rfl, rfl, fun _ => ⟨rfl, rfl, rfl, rfl⟩, fun ⟨_, hnote, _⟩ => by simp at hnote⟩
  | @unopened registry notes own change error _ hopen ih =>
      rw [edit_unopened change hopen]
      by_cases hname : name = own
      · subst hname
        exact ih.of_unopened hopen
      · exact ih.of_agrees ⟨rfl, rfl, fun _ _ => rfl, fun _ _ => rfl⟩ hname
  | @opened registry notes own change editor accepted _ hopen hadds ih =>
      by_cases hname : name = own
      · subst hname
        exact ih.of_opened hopen hadds
      · exact ih.of_agrees (edit_agrees change registry own) hname

/-- What a name of an edited registry stands for: nothing before an edit of it was opened, and then
the operation of the patches in force; no edit changes what other names stand for. -/
theorem Edited.resolves (h : Edited executor config registry notes) (name : String) :
    (registry.resolve name = .error (.unknownOperation name) ↔
      ∀ note ∈ notes, note.name = name → note.opened = false) ∧
    ((∃ note ∈ notes, note.name = name ∧ note.opened) → ∃ operation,
      registry.resolve name = .ok operation ∧
        compiled executor config name (inForce name notes) = .ok operation) ∧
    ∀ other change, other ≠ name →
      (registry.edit other change).2.resolve name = registry.resolve name := by
  have hholds := h.holds name
  have hopened : Opened name notes → ∃ operation, registry.resolve name = .ok operation ∧
      compiled executor config name (inForce name notes) = .ok operation := fun hopened => by
    obtain ⟨-, operation, hoperation, hcompiled⟩ := hholds.opened hopened
    exact ⟨operation, by rw [Registry.resolve, hoperation], hcompiled⟩
  refine ⟨⟨fun hunknown note hnote hname => ?_, fun hnone => ?_⟩, hopened,
    fun other change hother => (edit_agrees change registry other).resolve (Ne.symm hother)⟩
  · by_contra hopen
    obtain ⟨operation, hoperation, -⟩ := hopened ⟨note, hnote, hname, by simpa using hopen⟩
    simp [hoperation] at hunknown
  · have hclosed : ¬ Opened name notes := fun ⟨note, hnote, hname, hopen⟩ => by
      simp [hnone note hnote hname] at hopen
    rw [Registry.resolve, (hholds.closed hclosed).2.1]

def saying (lengths : List Nat) (index : Nat) (word : String) : PatchEntry (List String) :=
  (lengths.map fun length => ⟨.identity fun words => .ofNat words.length, .ofNat length⟩,
    sequencePatch [.add ⟨⟨0, index⟩, word, fun words => .finished (words ++ [word])⟩])

def wordExecutor : Executor (List String) := ⟨.default, (· ++ ·)⟩

def addThen (failure : Option ExecutionError) (entry : PatchEntry (List String))
    (editor : Editor (List String)) : Except ExecutionError Unit × Editor (List String) :=
  let (outcome, next) := editor.addPatch entry.1 entry.2
  (failure.elim outcome .error, next)

def saidBy (operation : Operation (List String)) : Option (List String) :=
  (operation.execute []).outcome.toOption

def greetNotes : List (EditNote (List String)) :=
  [⟨"greet", true, [saying [] 0 "hello"], false⟩, ⟨"greet", true, [saying [] 1 "world"], true⟩,
    ⟨"greet", true, [], false⟩, ⟨"part", true, [saying [] 2 "bye"], false⟩]

theorem Edited.resolves_greet :
    ∃ registry, Edited wordExecutor .unlimited registry greetNotes ∧
      (∃ operation, registry.resolve "greet" = .ok operation ∧
        saidBy operation = some ["hello", "world"]) ∧
      (∃ operation, registry.resolve "part" = .ok operation ∧ saidBy operation = some []) ∧
      registry.resolve "wave" = .error (.unknownOperation "wave") := by
  let failure : Option ExecutionError := some (.unknownOperation "other")
  let never := saying [0, 1] 3 "never"
  have hfirst := @opened _ wordExecutor .unlimited _ _ "greet"
    (addThen failure (saying [] 0 "hello")) _ [saying [] 0 "hello"] .new rfl
    (.accepted (.nothing _) rfl)
  have hsecond := @opened _ wordExecutor .unlimited _ _ "greet"
    (addThen none (saying [] 1 "world")) _ [saying [] 1 "world"] hfirst rfl
    (.accepted (.nothing _) rfl)
  have hthird := @opened _ wordExecutor .unlimited _ _ "greet"
    (addThen none never) _ [] hsecond rfl
    (@Editor.Adds.refused _ _ _ _ _ never.1 never.2 _ (.nothing _) rfl)
  have hlast : Edited wordExecutor .unlimited _ greetNotes :=
    @opened _ wordExecutor .unlimited _ _ "part" (addThen failure (saying [] 2 "bye")) _
      [saying [] 2 "bye"] hthird rfl (.accepted (.nothing _) rfl)
  obtain ⟨greet, hgreet, hwords⟩ := (hlast.resolves "greet").2.1
    ⟨⟨"greet", true, [], false⟩, by simp [greetNotes], rfl, rfl⟩
  obtain ⟨part, hpart, hnothing⟩ := (hlast.resolves "part").2.1
    ⟨⟨"part", true, [saying [] 2 "bye"], false⟩, by simp [greetNotes], rfl, rfl⟩
  have hsaid : ∀ name entries operation,
      compiled wordExecutor .unlimited name entries = .ok operation →
      some (saidBy operation) =
        (compiled wordExecutor .unlimited name entries).toOption.map saidBy := by
    intro name entries operation h
    rw [h]
    rfl
  refine ⟨_, hlast, ⟨greet, hgreet, ?_⟩, ⟨part, hpart, ?_⟩,
    (hlast.resolves "wave").1.mpr (by simp [greetNotes])⟩
  · exact Option.some.inj ((hsaid _ _ _ hwords).trans (by decide +kernel))
  · exact Option.some.inj ((hsaid _ _ _ hnothing).trans (by decide +kernel))

end Registry

/-! ## Registered operations -/

namespace Registry

/-- Registries in which operations are registered and edited, with the names of which an edit got
past the build without patches. -/
inductive Used : Registry γ → List String → Prop where
  | new (executor : Executor γ) (config : DeciderConfig) :
      Used { Registry.new executor with config } []
  | registered {registry : Registry γ} {edited : List String} (name : String)
      (operation : Operation γ) :
      Used registry edited → Used (registry.register name operation) edited
  | edited {registry : Registry γ} {edited : List String} (name : String)
      (change : Editor γ → Except ExecutionError Unit × Editor γ) :
      Used registry edited → Used (registry.edit name change).2
        (if (registry.openEditor name).1.isOk then edited ++ [name] else edited)

variable {registry next : Registry γ} {edited : List String} {name : String}
  {error : ExecutionError} {operation : Operation γ}
  {change : Editor γ → Except ExecutionError Unit × Editor γ}

theorem Used.hasEditor_iff (h : Used registry edited) (name : String) :
    (lookUp registry.editors name).isSome ↔ name ∈ edited := by
  induction h with
  | new => simp [Registry.new, lookUp]
  | registered own operation _ ih => exact ih
  | @edited registry edited own change _ ih =>
      rcases edit_cases change registry own with
        ⟨error, hopen, hedit⟩ | ⟨editor, opened, hopen, hcases⟩
      · rw [hopen, hedit]
        exact ih
      · rw [hopen]
        change _ ↔ name ∈ edited ++ [own]
        rw [List.mem_append, List.mem_singleton]
        by_cases hname : name = own
        · subst hname
          rcases hcases with ⟨error, hedit⟩ | ⟨operation, -, hedit⟩ <;> simp [hedit, lookUp_enter]
        · rw [(edit_agrees change registry own).editors name hname, ih]
          simp [hname]

/-- A failed edit takes an operation away only if it is the first one of its name that is opened:
then the operation without patches is there instead. -/
theorem Used.failed_edit (h : Used registry edited)
    (hresolve : registry.resolve name = .ok operation)
    (hedit : registry.edit name change = (.error error, next)) :
    (name ∈ edited ∨ (∃ own, compiled registry.executor registry.config name [] = .error own) →
      next.resolve name = .ok operation) ∧
    ∀ unused, name ∉ edited → compiled registry.executor registry.config name [] = .ok unused →
      next.resolve name = .ok unused := by
  rw [← h.hasEditor_iff]
  rcases edit_cases change registry name with
    ⟨own, hopen, hfailed⟩ | ⟨editor, opened, hopen, ⟨own, hfailed⟩ | ⟨built, -, hdone⟩⟩
  · cases hedit.symm.trans hfailed
    refine ⟨fun _ => hresolve, fun unused _ hbuilt => ?_⟩
    cases (openEditor_error (congrArg Prod.fst hopen)).2.1.symm.trans hbuilt
  · cases hedit.symm.trans hfailed
    change (_ → opened.resolve name = _) ∧ ∀ _, _ → _ → opened.resolve name = _
    rcases openEditor_ok hopen with ⟨hknown, rfl⟩ | ⟨hnew, rfl, built, hflush, rfl⟩
    · exact ⟨fun _ => hresolve, fun unused hnone _ => absurd (by rw [hknown]; rfl) hnone⟩
    · constructor
      · rintro (hsome | ⟨own, hfails⟩)
        · rw [hnew] at hsome
          cases hsome
        · cases hflush.symm.trans hfails
      · intro unused _ hbuilt
        cases hflush.symm.trans hbuilt
        rw [Registry.resolve, Registry.register, lookUp_enter]
  · cases hedit.symm.trans hdone

def refusing : Editor (List String) → Except ExecutionError Unit × Editor (List String) :=
  addThen none (saying [0, 1] 3 "never")

theorem Used.failed_edit_greet :
    ∃ hello unused, saidBy hello = some ["hello"] ∧
      compiled wordExecutor .unlimited "greet" [] = .ok unused ∧
      (((Registry.new wordExecutor).register "greet" hello).edit "greet" refusing).2.resolve
        "greet" = .ok unused ∧
      ((((Registry.new wordExecutor).edit "greet" fun editor => (.ok (), editor)).2.register
        "greet" hello).edit "greet" refusing).2.resolve "greet" = .ok hello := by
  obtain ⟨hello, -, hsaid⟩ := exists_of_any (by decide +kernel :
    (compiled wordExecutor .unlimited "greet" [saying [] 0 "hello"]).toOption.any
      (saidBy · == some ["hello"]))
  obtain ⟨unused, hunused, -⟩ := exists_of_any (by decide +kernel :
    (compiled wordExecutor .unlimited "greet" []).toOption.any fun _ => true)
  have hnew : Used (Registry.new wordExecutor) [] := .new wordExecutor .unlimited
  refine ⟨hello, unused, beq_iff_eq.mp hsaid, hunused, ?_, ?_⟩
  · have hregistered := hnew.registered "greet" hello
    exact (@failed_edit _ _ _ _ _ _ _ refusing hregistered rfl rfl).2 unused (by simp) hunused
  · have hedited := hnew.edited "greet" fun editor => (.ok (), editor)
    have hregistered := hedited.registered "greet" hello
    exact (@failed_edit _ _ _ _ _ _ _ refusing hregistered rfl rfl).1
      (.inl (List.mem_singleton.mpr rfl))

/-- A failed edit may take away an operation that was registered. -/
theorem Used.failed_edit_replaces :
    ∃ hello, compiled wordExecutor .unlimited "greet" [saying [] 0 "hello"] = .ok hello ∧
      Used ((Registry.new wordExecutor).register "greet" hello) [] ∧
      ((Registry.new wordExecutor).register "greet" hello).resolve "greet" = .ok hello ∧
      ∃ error next, ((Registry.new wordExecutor).register "greet" hello).edit "greet" refusing =
          (.error error, next) ∧
        next.resolve "greet" ≠ .ok hello := by
  obtain ⟨hello, hhello, hsaid⟩ := exists_of_any (by decide +kernel :
    (compiled wordExecutor .unlimited "greet" [saying [] 0 "hello"]).toOption.any
      (saidBy · == some ["hello"]))
  obtain ⟨unused, hunused, hnothing⟩ := exists_of_any (by decide +kernel :
    (compiled wordExecutor .unlimited "greet" []).toOption.any (saidBy · == some []))
  refine ⟨hello, hhello, .registered "greet" hello (.new wordExecutor .unlimited), rfl, _, _, rfl,
    fun hsame => ?_⟩
  cases hunused.symm.trans hsame
  rw [beq_iff_eq] at hsaid hnothing
  cases hnothing.symm.trans hsaid

end Registry

end Runbook.Plan
