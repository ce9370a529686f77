import Runbook.Plan.CasePlan

/-!
# Registries

A registry holds operations by name, all run by one executor.  An operation is edited by adding
patches; after each edit it is built anew from all patches that it was ever given.  The first edit
of a name registers an operation without patches before anything is added.
-/

namespace Runbook.Plan

open Decision

variable {γ : Type}

/-! ## Editors -/

structure Editor (γ : Type) where
  name : String
  builder : DeciderBuilder γ (Patch (Stage γ))
  executor : Executor γ

namespace Editor

def new (name : String) (executor : Executor γ) (config : DeciderConfig) : Editor γ :=
  ⟨name, .new config, executor⟩

def patchCount (editor : Editor γ) : Nat := editor.builder.ruleCount

def addPatch (editor : Editor γ) (conditions : List (Condition γ)) (patch : Patch (Stage γ)) :
    Except ExecutionError Unit × Editor γ :=
  let (outcome, builder) := editor.builder.addRule conditions patch
  (outcome.mapError .decision, { editor with builder })

def flush (editor : Editor γ) : Except ExecutionError (Operation γ) :=
  match (editor.builder.build planFactory).outcome with
  | .ok plan => .ok ⟨plan, editor.executor⟩
  | .error error => .error (.decision error)

end Editor

/-! ## Tables by name -/

abbrev Table (α : Type) := List (String × α)

def lookUp (table : Table α) (name : String) : Option α :=
  (table.find? (·.1 = name)).map (·.2)

def enter (table : Table α) (name : String) (entry : α) : Table α :=
  match table with
  | [] => [(name, entry)]
  | (other, old) :: rest =>
    if other = name then (name, entry) :: rest else (other, old) :: enter rest name entry

theorem lookUp_enter {α : Type} (table : Table α) (name : String) (entry : α) :
    lookUp (enter table name entry) name = some entry := by
  induction table with
  | nil => simp [enter, lookUp]
  | cons first table ih =>
      obtain ⟨other, old⟩ := first
      by_cases hname : other = name
      · simp [enter, lookUp, hname]
      · simpa [enter, lookUp, hname] using ih

theorem lookUp_enter_of_ne {α : Type} (table : Table α) {name other : String} (h : name ≠ other)
    (entry : α) : lookUp (enter table other entry) name = lookUp table name := by
  induction table with
  | nil => simp [enter, lookUp, Ne.symm h]
  | cons first table ih =>
      obtain ⟨own, old⟩ := first
      by_cases hother : own = other
      · simp [enter, lookUp, hother, Ne.symm h]
      · by_cases hname : own = name
        · simp [enter, lookUp, hname, h]
        · simpa [enter, lookUp, hother, hname] using ih

/-! ## Registries -/

structure Registry (γ : Type) where
  executor : Executor γ
  config : DeciderConfig
  operations : Table (Operation γ)
  editors : Table (Editor γ)

namespace Registry

def new (executor : Executor γ) : Registry γ := ⟨executor, .unlimited, [], []⟩

def register (registry : Registry γ) (name : String) (operation : Operation γ) : Registry γ :=
  { registry with operations := enter registry.operations name operation }

def resolve (registry : Registry γ) (name : String) : Except ExecutionError (Operation γ) :=
  match lookUp registry.operations name with
  | some operation => .ok operation
  | none => .error (.unknownOperation name)

def contains (registry : Registry γ) (name : String) : Bool :=
  (lookUp registry.operations name).isSome

def names (registry : Registry γ) : List String :=
  (registry.operations.map (·.1)).mergeSort fun a b => !(b < a)

/-- The editor of a name; a new one first registers an operation without patches. -/
def openEditor (registry : Registry γ) (name : String) :
    Except ExecutionError (Editor γ) × Registry γ :=
  match lookUp registry.editors name with
  | some editor => (.ok editor, registry)
  | none =>
    let editor := Editor.new name registry.executor registry.config
    match editor.flush with
    | .error error => (.error error, registry)
    | .ok operation =>
      (.ok editor, { registry.register name operation with
        editors := enter registry.editors name editor })

/-- Edits an operation and registers it anew.  Patches that were added before the edit failed stay
in the editor. -/
def edit (registry : Registry γ) (name : String)
    (change : Editor γ → Except ExecutionError Unit × Editor γ) :
    Except ExecutionError Unit × Registry γ :=
  match registry.openEditor name with
  | (.error error, registry) => (.error error, registry)
  | (.ok editor, registry) =>
    let (outcome, editor) := change editor
    let registry := { registry with editors := enter registry.editors name editor }
    match outcome with
    | .error error => (.error error, registry)
    | .ok () =>
      match editor.flush with
      | .error error => (.error error, registry)
      | .ok operation => (.ok (), registry.register name operation)

end Registry

end Runbook.Plan
