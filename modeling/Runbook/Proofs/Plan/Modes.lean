import Runbook.Proofs.Plan.CasePlans
import Runbook.Proofs.Plan.Delivery

/-!
# Modes

A plan file gives the same result in both modes, if stages that may run side by side write unrelated
fields and no merge gives back an old value to a field that one of its sides has written.
-/

namespace Runbook

open Runbook.Json Runbook.Order

def Order.Merges {V : Type} (order : Order V) (merged : List Key) : Prop :=
  merged = order.ends ∨ ∃ key ∈ order.keys, merged = order.dependencies key

namespace Plan.PlanFile

variable {file : PlanFile} {order : Order (Stage Json)} {document : Json}

/-! ## Written fields -/

def WritesUnder (file : PlanFile) (order : Order (Stage Json)) (key : Key) (path : String) : Prop :=
  ∃ stage ∈ order.values key, ∃ writes, (stage, writes) ∈ file.stages ∧
    ∃ write ∈ writes, write.path = path

/-- Whether the fields that are written under two keys are unrelated, if no path of links leads from
one key to the other. -/
def SeparatesKeys (file : PlanFile) (order : Order (Stage Json)) : Prop :=
  ∀ a ∈ order.keys, ∀ b ∈ order.keys, ¬ order.LeadsTo a b → ¬ order.LeadsTo b a →
    ∀ path other, file.WritesUnder order a path → file.WritesUnder order b other →
      Unrelated (fieldParts path) (fieldParts other)

/-- Whether every merge keeps all fields that only one of its sides wrote.  The sides are what the
stages that are needed for the earlier keys, and those that are needed for the next key, make of the
document. -/
def KeepsWrites (file : PlanFile) (order : Order (Stage Json)) (document : Json) : Prop :=
  ∀ merged, order.Merges merged → ∀ earlier next, earlier ≠ [] → earlier ++ [next] <+: merged →
    ∀ left right, order.runFor earlier document = .ok left →
      order.runFor [next] document = .ok right →
      ∀ key path, file.WritesUnder order key path →
        (order.Needs earlier key → ¬ order.Needs [next] key →
          KeepsLeft left right (fieldParts path)) ∧
        (order.Needs [next] key → ¬ order.Needs earlier key →
          KeepsRight left right (fieldParts path))

open Classical in
noncomputable def writesOfStage (file : PlanFile) (stage : Stage Json) : List FieldWrite :=
  if h : ∃ writes, (stage, writes) ∈ file.stages then h.choose else []

private theorem mem_stages_of_writesOfStage {stage : Stage Json}
    (h : ∃ writes, (stage, writes) ∈ file.stages) :
    (stage, file.writesOfStage stage) ∈ file.stages := by
  rw [writesOfStage, dif_pos h]
  exact h.choose_spec

noncomputable def keyWrites (file : PlanFile) (order : Order (Stage Json)) (key : Key) :
    List FieldWrite :=
  (order.values key).flatMap file.writesOfStage

section

variable (hsorted : file.Sorted)
  (hholds : order.Holds fun stage => ∃ writes, (stage, writes) ∈ file.stages)

include hholds

theorem mem_stages_of_mem_values {key : Key} {stage : Stage Json}
    (hstage : stage ∈ order.values key) : (stage, file.writesOfStage stage) ∈ file.stages :=
  mem_stages_of_writesOfStage (hholds.values hstage)

theorem writesUnder_of_mem {key : Key} {write : FieldWrite} (h : write ∈ file.keyWrites order key) :
    file.WritesUnder order key write.path := by
  obtain ⟨stage, hstage, hwrite⟩ := List.mem_flatMap.mp h
  exact ⟨stage, hstage, _, mem_stages_of_mem_values hholds hstage, write, hwrite, rfl⟩

include hsorted

theorem performs_of_mem_values {key : Key} {stage : Stage Json}
    (hstage : stage ∈ order.values key) : Performs stage (file.writesOfStage stage) :=
  (stages_faithful hsorted _ (mem_stages_of_mem_values hholds hstage)).1

theorem writing {places : List Nat} (hwell : order.WellFormed)
    (hplaces : order.linearize = .ok places) (hseparate : file.SeparatesKeys order) :
    Writing order (order.arrangedKeys places) (file.keyWrites order) where
  settled := hwell.settledKeys hplaces
  sorted key _ write hwrite := by
    obtain ⟨stage, hstage, hwrite⟩ := List.mem_flatMap.mp hwrite
    exact (stages_faithful hsorted _ (mem_stages_of_mem_values hholds hstage)).2 write hwrite
  separate a ha b hb hab hba write hwrite other hother := by
    have hperm := hwell.arrangedKeys_perm hplaces
    exact hseparate a (hperm.mem_iff.mp ha) b (hperm.mem_iff.mp hb) hab hba _ _
      (writesUnder_of_mem hholds hwrite) (writesUnder_of_mem hholds hother)

theorem toOption_keys (keys : List Key) (document : Json) :
    (Run.entries document (keys.map fun key => (key, order.values key))).outcome.toOption =
      afterAll? (keys.flatMap (file.keyWrites order)) document := by
  rw [toOption_entries file.writesOfStage ?_ document, List.flatMap_map]
  · rfl
  · intro entry hentry stage hstage
    obtain ⟨key, -, rfl⟩ := List.mem_map.mp hentry
    exact performs_of_mem_values hsorted hholds hstage

private theorem toOption_runFor {places : List Nat} (hwell : order.WellFormed)
    (hplaces : order.linearize = .ok places) (targets : List Key) (document : Json) :
    (order.runFor targets document).toOption = Writing.documentFor order
      (order.arrangedKeys places) (file.keyWrites order) document targets := by
  rw [runFor, hwell.linearEntries_eq_map hplaces]
  dsimp only
  rw [List.filter_map]
  exact toOption_keys hsorted hholds _ document

theorem runFor_eq_ok_iff {places : List Nat} (hwell : order.WellFormed)
    (hplaces : order.linearize = .ok places) {targets : List Key} {document value : Json} :
    order.runFor targets document = .ok value ↔ Writing.documentFor order
      (order.arrangedKeys places) (file.keyWrites order) document targets = some value := by
  rw [← toOption_runFor hsorted hholds hwell hplaces]
  cases order.runFor targets document <;> simp [Except.toOption]

theorem keeps_of_keepsWrites {places : List Nat} (hwell : order.WellFormed)
    (hplaces : order.linearize = .ok places) (hkeeps : file.KeepsWrites order document)
    {merged : List Key} (hmerged : order.Merges merged) {earlier : List Key} {next : Key}
    (hearlier : earlier ≠ []) (hbegins : earlier ++ [next] <+: merged) :
    Writing.Keeps order (order.arrangedKeys places) (file.keyWrites order) document earlier
      next := by
  intro left right hleft hright key _ write hwrite
  exact hkeeps merged hmerged earlier next hearlier hbegins left right
    ((runFor_eq_ok_iff hsorted hholds hwell hplaces).mpr hleft)
    ((runFor_eq_ok_iff hsorted hholds hwell hplaces).mpr hright) key write.path
    (writesUnder_of_mem hholds hwrite)

end

/-! ## New fields -/

def fieldsUnder (file : PlanFile) (order : Order (Stage Json)) : List (Key × String) :=
  order.keys.flatMap fun key => (order.values key).flatMap fun stage =>
    (file.stages.filter (·.1 == stage)).flatMap fun entry =>
      entry.2.map fun write => (key, write.path)

theorem mem_keys_of_mem_values {V : Type} {order : Order V} {key : Key} {value : V}
    (h : value ∈ order.values key) : key ∈ order.keys := by
  rw [mem_keys_iff_place?]
  rw [Order.values] at h
  cases hplace : order.place? key with
  | none => simp [hplace] at h
  | some place => exact ⟨place, rfl⟩

theorem WritesUnder.mem_fieldsUnder {key : Key} {path : String}
    (h : file.WritesUnder order key path) : (key, path) ∈ file.fieldsUnder order := by
  obtain ⟨stage, hstage, writes, hwrites, write, hwrite, rfl⟩ := h
  refine List.mem_flatMap.mpr ⟨key, mem_keys_of_mem_values hstage, ?_⟩
  refine List.mem_flatMap.mpr ⟨stage, hstage, ?_⟩
  refine List.mem_flatMap.mpr ⟨(stage, writes), ?_, List.mem_map_of_mem hwrite⟩
  exact List.mem_filter.mpr ⟨hwrites, beq_self_eq_true stage.id⟩

def SeparatesFields (file : PlanFile) (order : Order (Stage Json)) : Prop :=
  ∀ field ∈ file.fieldsUnder order, ∀ other ∈ file.fieldsUnder order, field.1 ≠ other.1 →
    Unrelated (fieldParts field.2) (fieldParts other.2)

theorem SeparatesFields.separatesKeys (h : file.SeparatesFields order) :
    file.SeparatesKeys order := by
  intro a _ b _ hab _ path other hpath hother
  refine h _ hpath.mem_fieldsUnder _ hother.mem_fieldsUnder ?_
  rintro rfl
  exact hab .refl

/-- No merge loses a write, if no field is written under two keys and the document has none of the
fields, nor anything but objects on the way to them. -/
theorem keepsWrites_of_new (hsorted : file.Sorted)
    (hchosen : file.casePlan? document = some order)
    (hseparate : file.SeparatesFields order)
    (hnew : ∀ field ∈ file.fieldsUnder order, valueAt? (fieldParts field.2) document = none ∧
      blocks (fieldParts field.2) document = false) : file.KeepsWrites order document := by
  obtain ⟨hwell, hacyclic, hholds⟩ := casePlan?_sound hchosen
  obtain ⟨places, hplaces⟩ := hwell.linearize_ok_iff.mpr hacyclic
  intro merged _ earlier next _ _ left right hleft hright key path hpath
  have hstays : ∀ targets value, order.runFor targets document = .ok value →
      ¬ order.Needs targets key →
      valueAt? (fieldParts path) value = none ∧ blocks (fieldParts path) value = false := by
    intro targets value hvalue hnot
    have hwrites := (runFor_eq_ok_iff hsorted hholds hwell hplaces).mp hvalue
    have hunrelated : ∀ write ∈ writesOf (file.keyWrites order) (order.arrangedKeys places)
        (order.Needs targets), Unrelated (fieldParts path) write.parts := by
      intro write hwrite
      obtain ⟨other, -, hneeds, hwrite⟩ := mem_writesOf.mp hwrite
      refine hseparate _ hpath.mem_fieldsUnder _
        (writesUnder_of_mem hholds hwrite).mem_fieldsUnder ?_
      rintro rfl
      exact hnot hneeds
    obtain ⟨hnone, hopen⟩ := hnew _ hpath.mem_fieldsUnder
    exact ⟨(valueAt?_afterAll? hunrelated hwrites).trans hnone,
      blocks_afterAll? hunrelated hwrites hopen⟩
  constructor
  · intro _ hnot
    obtain ⟨hnone, hopen⟩ := hstays [next] right hright hnot
    exact ⟨hopen, by simp [hnone]⟩
  · intro _ hnot
    obtain ⟨hnone, -⟩ := hstays earlier left hleft hnot
    simp [KeepsRight, hnone]

/-! ## Both modes -/

def inMode (file : PlanFile) (mode : ExecutionMode) : PlanFile :=
  { file with executor := { file.executor with mode } }

section

variable {places : List Nat} {result : Json}

private theorem afterAll?_of_runSequential (hsorted : file.Sorted)
    (hholds : order.Holds fun stage => ∃ writes, (stage, writes) ∈ file.stages)
    (hwell : order.WellFormed) (hplaces : order.linearize = .ok places)
    (h : (runSequential order document).outcome = .ok result) :
    afterAll? ((order.arrangedKeys places).flatMap (file.keyWrites order)) document =
      some result := by
  rw [runSequential, hwell.linearEntries_eq_map hplaces] at h
  dsimp only at h
  rw [← toOption_keys hsorted hholds, h]
  rfl

variable (hsorted : file.Sorted) (hdocument : document.Sorted)
  (hchosen : file.casePlan? document = some order) (hseparate : file.SeparatesKeys order)
  (hkeeps : file.KeepsWrites order document) (hplaces : order.linearize = .ok places)
  (hall : afterAll? ((order.arrangedKeys places).flatMap (file.keyWrites order)) document =
    some result)

include hsorted hdocument hchosen hseparate hkeeps hplaces hall

theorem delivers_of_solves {out : Key → Except ExecutionError Json}
    (hout : SolvesOutcomes Json.merge order document out) :
    ∀ key ∈ order.keys, Writing.Delivers order (order.arrangedKeys places) (file.keyWrites order)
      document out key := by
  obtain ⟨hwell, -, hholds⟩ := casePlan?_sound hchosen
  intro key hkey
  refine (writing hsorted hholds hwell hplaces hseparate).delivers hdocument hall hout ?_ ?_
    (hwell.settledKeys hplaces) (by simp) key
    (List.mem_reverse.mpr ((hwell.arrangedKeys_perm hplaces).mem_iff.mpr hkey))
  · intro key context
    exact toOption_stages file.writesOfStage key
      (fun stage hstage => performs_of_mem_values hsorted hholds hstage) context
  · intro key hkey earlier next hearlier hbegins
    exact keeps_of_keepsWrites hsorted hholds hwell hplaces hkeeps (.inr ⟨key, hkey, rfl⟩)
      hearlier hbegins

private theorem runConcurrent_ok :
    (runConcurrent Json.merge order document).outcome = .ok result := by
  obtain ⟨hwell, hacyclic, hholds⟩ := casePlan?_sound hchosen
  obtain ⟨out, hout, hconcurrent⟩ := runConcurrent_outcome Json.merge document hwell hacyclic
  have hdelivers :=
    delivers_of_solves hsorted hdocument hchosen hseparate hkeeps hplaces hall hout
  obtain ⟨contexts, hgather, -, hmerged⟩ :=
    (writing hsorted hholds hwell hplaces hseparate).gather_delivered hdocument hall
      (fun key hkey => hdelivers key (mem_keys_of_end hkey))
      (fun earlier next hearlier hbegins => keeps_of_keepsWrites hsorted hholds hwell hplaces hkeeps
        (.inl rfl) hearlier hbegins)
  have hwhole : writesOf (file.keyWrites order) (order.arrangedKeys places)
      (order.Needs order.ends) = (order.arrangedKeys places).flatMap (file.keyWrites order) :=
    writesOf_all fun key hkey => hwell.needs_ends hplaces key
      ((hwell.arrangedKeys_perm hplaces).mem_iff.mp hkey)
  rw [Writing.documentFor, hwhole, hall] at hmerged
  rw [hconcurrent, finalOutcome, hgather, Option.some.inj hmerged]

end

def branching : PlanFile :=
  ⟨"plan", .default, none, [⟨none, [("kind", .string "x")],
    [.set none [("seen", .bool true)],
      .par [[.set none [("a.x", .number (.int 2))]], [.append none "log" (.string "b")]],
      .set (some "done") [("a.y", .bool true)]]⟩]⟩

def overwriting : PlanFile :=
  ⟨"plan", .default, none, [⟨none, [],
    [.par [[.set none [("a", .number (.int 2))]], [.set none [("b", .number (.int 1))]]]]⟩]⟩

end Plan.PlanFile

end Runbook
