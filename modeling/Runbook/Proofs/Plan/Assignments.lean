import Runbook.Proofs.Plan.Stages

/-!
# What a set stage assigns

A set stage writes its fields one after another, in the order of their paths, so that a path comes
before those that extend it.  Afterwards every field that no other one extends has its value, and
what parts from all fields is as it was.  A field cannot be assigned where something on the way to it
is neither an object nor null.
-/

namespace Runbook

namespace Json

/-! ## Paths by their keys -/

private theorem le_of_keys_begin {path other : String} (h : fieldParts path <+: fieldParts other) :
    path ≤ other := by
  have hpieces : Text.pieces '.' path.toList <+: Text.pieces '.' other.toList := by
    simpa [fieldParts, Text.split] using h.map String.toList
  exact (Text.prefix_of_pieces hpieces).le

/-! ## Descent -/

def reached (parts : List String) (document : Json) : Json := (valueAt? parts document).getD .null

def Enterable (document : Json) : Prop := document = .null ∨ ∃ fields, document = .object fields

theorem enterable_iff {document : Json} :
    Enterable document ↔ ∃ fields, fieldsOf? document = some fields := by
  cases document <;> simp [Enterable, fieldsOf?]

theorem reached_cons {document : Json} {fields : List (String × Json)}
    (hfields : fieldsOf? document = some fields) (part : String) (parts : List String) :
    reached (part :: parts) document = reached parts ((getField? fields part).getD .null) := by
  rw [reached, valueAt?_cons hfields]
  cases getField? fields part with
  | none => cases parts <;> rfl
  | some value => rfl

/-! ## One field -/

private theorem enterable_of_put {change : Json → Option Json} {parts before : List String}
    {document changed : Json} (h : put change parts document = some changed)
    (hbegins : before <+: parts) (hproper : before ≠ parts) :
    Enterable (reached before document) := by
  induction parts generalizing before document changed with
  | nil => exact absurd (List.prefix_nil.mp hbegins) hproper
  | cons part parts ih =>
      obtain ⟨fields, value, hfields, hvalue, -⟩ := put_cons_eq_some h
      cases before with
      | nil => exact enterable_iff.mpr ⟨fields, hfields⟩
      | cons first before =>
          obtain ⟨rfl, hrest⟩ := List.cons_prefix_cons.mp hbegins
          rw [reached_cons hfields]
          exact ih hvalue hrest fun hsame => hproper (by rw [hsame])

private theorem updateAt_cons (path : String) (change : Json → Except FieldError Json)
    (part : String)
    (parts : List String) (document : Json) :
    updateAt path change (part :: parts) document =
      match fieldsOf? document with
      | none => .error (.outsideObject path part)
      | some fields =>
        (updateAt path change parts ((getField? fields part).getD .null)).map fun value =>
          .object (setField fields part value) := by
  cases document <;> rfl

private theorem updateAt_error {path : String} {value : Json} {parts : List String}
    {document : Json}
    {error : FieldError} (h : updateAt path (fun _ => .ok value) parts document = .error error) :
    ∃ before part, before ++ [part] <+: parts ∧ ¬ Enterable (reached before document) ∧
      (∀ earlier, earlier <+: before → earlier ≠ before → Enterable (reached earlier document)) ∧
      error = .outsideObject path part := by
  induction parts generalizing document with
  | nil => cases h
  | cons part parts ih =>
      rw [updateAt_cons] at h
      cases hfields : fieldsOf? document with
      | none =>
          simp only [hfields, Except.error.injEq] at h
          refine ⟨[], part, by simp, ?_, ?_, h.symm⟩
          · simp [reached, valueAt?, enterable_iff, hfields]
          · intro earlier hearlier hproper
            exact absurd (List.prefix_nil.mp hearlier) hproper
      | some fields =>
          simp only [hfields] at h
          cases hinner : updateAt path (fun _ => .ok value) parts
              ((getField? fields part).getD .null) with
          | ok changed => simp [hinner, Except.map] at h
          | error own =>
              simp only [hinner, Except.map, Except.error.injEq] at h
              subst h
              obtain ⟨before, next, hbegins, hblocked, hopen, hown⟩ := ih hinner
              refine ⟨part :: before, next, by simpa using hbegins, ?_, ?_, hown⟩
              · rwa [reached_cons hfields]
              · intro earlier hearlier hproper
                cases earlier with
                | nil => simp [reached, valueAt?, enterable_iff, hfields]
                | cons first earlier =>
                    obtain ⟨rfl, hrest⟩ := List.cons_prefix_cons.mp hearlier
                    rw [reached_cons hfields]
                    exact hopen earlier hrest fun hsame => hproper (by rw [hsame])

/-! ## Several fields -/

private theorem reached_afterAll? {earlier later : List FieldWrite} {path : String} {value : Json}
    {document after : Json}
    (hafter : afterAll? (earlier ++ ⟨path, fun _ => .ok value⟩ :: later) document = some after)
    (hlater : ∀ write ∈ later, Unrelated (fieldParts path) write.parts) :
    reached (fieldParts path) after = value := by
  rw [afterAll?_append] at hafter
  obtain ⟨first, -, hafter⟩ := Option.bind_eq_some_iff.mp hafter
  rw [afterAll?_cons] at hafter
  obtain ⟨second, hsecond, hafter⟩ := Option.bind_eq_some_iff.mp hafter
  have hvalue : valueAt? (fieldParts path) second = some value := valueAt?_put_const hsecond
  rw [reached, valueAt?_afterAll? hlater hafter, hvalue, Option.getD_some]

end Json

namespace Plan

open Runbook.Json

theorem setStage_run (id : StageId) (name path : String) (value document : Json) :
    (setStage id name [(path, value)]).run document =
      match updateAt path (fun _ => .ok value) (fieldParts path) document with
      | .ok after => .finished after
      | .error error => .failed ⟨error.message⟩ := by
  simp only [setStage, Stage.ofEdit, setFields, updateField, List.foldlM]
  cases updateAt path (fun _ => .ok value) (fieldParts path) document <;> rfl

theorem setStage_finished {id : StageId} {name : String} {fields : List (String × Json)}
    {document after : Json} (hset : (setStage id name fields).run document = .finished after) :
    afterAll? (setWrites fields) document = some after := by
  have hperforms := setStage_performs id name fields document
  rw [hset] at hperforms
  exact hperforms.symm

private theorem set_field_assigned {id : StageId} {name : String} {fields : List (String × Json)}
    (hascending : Ascending fields) {document after : Json}
    (hset : (setStage id name fields).run document = .finished after) {path : String} {value : Json}
    (hfield : (path, value) ∈ fields)
    (hlast : ∀ other ∈ fields, fieldParts path <+: fieldParts other.1 →
      fieldParts other.1 = fieldParts path) :
    reached (fieldParts path) after = value := by
  obtain ⟨earlier, later, rfl⟩ := List.append_of_mem hfield
  have hbehind : ∀ other ∈ later, path < other.1 := by
    have htail := (List.pairwise_append.mp hascending).2.1
    exact (List.pairwise_cons.mp htail).1
  have hafter := setStage_finished hset
  simp only [setWrites, List.map_append, List.map_cons] at hafter
  refine reached_afterAll? hafter fun write hwrite => ?_
  obtain ⟨other, hother, rfl⟩ := List.mem_map.mp hwrite
  -- a path whose keys begin those of this one does not come behind it
  have hlater : ¬ fieldParts other.1 <+: fieldParts path := fun hbegins =>
    absurd (hbehind other hother) (String.not_lt.mpr (le_of_keys_begin hbegins))
  constructor
  · intro hextends
    have hsame := hlast other (by simp [hother]) hextends
    exact hlater (hsame ▸ List.prefix_rfl)
  · exact hlater

private theorem set_elsewhere_kept {id : StageId} {name : String} {fields : List (String × Json)}
    {document after : Json} (hset : (setStage id name fields).run document = .finished after)
    {way : List String} (hunrelated : ∀ field ∈ fields, Unrelated way (fieldParts field.1)) :
    reached way after = reached way document := by
  have hwrites : ∀ write ∈ setWrites fields, Unrelated way write.parts := by
    intro write hwrite
    obtain ⟨field, hfield, rfl⟩ := List.mem_map.mp hwrite
    exact hunrelated field hfield
  rw [reached, reached, valueAt?_afterAll? hwrites (setStage_finished hset)]

theorem set_field_failed {id : StageId} {name path : String} {value document : Json}
    {error : StageError} (hset : (setStage id name [(path, value)]).run document = .failed error) :
    ∃ before part, before ++ [part] <+: fieldParts path ∧ ¬ Enterable (reached before document) ∧
      (∀ earlier, earlier <+: before → earlier ≠ before → Enterable (reached earlier document)) ∧
      error = ⟨(FieldError.outsideObject path part).message⟩ := by
  rw [setStage_run] at hset
  cases hresult : updateAt path (fun _ => .ok value) (fieldParts path) document with
  | ok after => simp [hresult] at hset
  | error own =>
      obtain ⟨before, part, hbegins, hblocked, hopen, rfl⟩ := updateAt_error hresult
      simp only [hresult, StageOutcome.failed.injEq] at hset
      exact ⟨before, part, hbegins, hblocked, hopen, hset.symm⟩

private theorem set_field_blocked (id : StageId) (name : String) {path : String} (value : Json)
    {document : Json} {before : List String} (hbegins : before <+: fieldParts path)
    (hproper : before ≠ fieldParts path) (hblocked : ¬ Enterable (reached before document)) :
    ∃ error, (setStage id name [(path, value)]).run document = .failed error := by
  rw [setStage_run]
  cases hresult : updateAt path (fun _ => .ok value) (fieldParts path) document with
  | error error => exact ⟨_, rfl⟩
  | ok after =>
      have hput : put (fun _ => some value) (fieldParts path) document = some after := by
        have hupdate := toOption_updateAt path (fun _ => .ok value) (fieldParts path) document
        rw [hresult] at hupdate
        exact hupdate.symm
      exact absurd (enterable_of_put hput hbegins hproper) hblocked

/-- A stage that sets fields assigns them and nothing else.  If it finishes, a descent along the
path of a field that no other path extends leads to the value of the field, and a descent that parts
from all paths leads to what it led to before.  A single field fails exactly if some beginning of its
keys leads to what is neither null nor an object, and then the error names the key after the first
such beginning. -/
theorem set_assigns_fields_only (id : StageId) (name : String) :
    (∀ (fields : List (String × Json)) (document after : Json), Ascending fields →
      (setStage id name fields).run document = .finished after →
        (∀ field ∈ fields,
          (∀ other ∈ fields, fieldParts field.1 <+: fieldParts other.1 →
            fieldParts other.1 = fieldParts field.1) →
          reached (fieldParts field.1) after = field.2) ∧
        ∀ way, (∀ field ∈ fields, Unrelated way (fieldParts field.1)) →
          reached way after = reached way document) ∧
    ∀ (path : String) (value document : Json),
      ((∃ error, (setStage id name [(path, value)]).run document = .failed error) ↔
        ∃ before, before <+: fieldParts path ∧ before ≠ fieldParts path ∧
          ¬ Enterable (reached before document)) ∧
      ∀ error, (setStage id name [(path, value)]).run document = .failed error →
        ∃ before part, before ++ [part] <+: fieldParts path ∧
          ¬ Enterable (reached before document) ∧
          (∀ earlier, earlier <+: before → earlier ≠ before →
            Enterable (reached earlier document)) ∧
          error = ⟨(FieldError.outsideObject path part).message⟩ := by
  constructor
  · intro fields document after hascending hset
    constructor
    · rintro ⟨path, value⟩ hfield hlast
      exact set_field_assigned hascending hset hfield hlast
    · intro way hunrelated
      exact set_elsewhere_kept hset hunrelated
  · intro path value document
    constructor
    · constructor
      · rintro ⟨error, hset⟩
        obtain ⟨before, part, hbegins, hblocked, -⟩ := set_field_failed hset
        refine ⟨before, (List.prefix_append _ _).trans hbegins, ?_, hblocked⟩
        rintro rfl
        have hlength := hbegins.length_le
        rw [List.length_append, List.length_singleton] at hlength
        omega
      · rintro ⟨before, hbegins, hproper, hblocked⟩
        exact set_field_blocked id name value hbegins hproper hblocked
    · intro error hset
      exact set_field_failed hset

theorem set_assigns_fields_only_nested :
    ∃ after : Json,
      (setStage ⟨0, 1⟩ "set" [("a", .object [("x", .bool true)]), ("a.b", .string "new"),
          ("c.d.e", .null)]).run (.object [("c", .null), ("z", .object [("y", .string "old")])]) =
        .finished after ∧
      reached ["a", "b"] after = .string "new" ∧ reached ["c", "d", "e"] after = .null ∧
      reached ["z", "y"] after = .string "old" ∧
      (setStage ⟨0, 1⟩ "set" [("a.b.c", .null)]).run (.object [("a", .bool true)]) =
        .failed ⟨"Cannot reach a.b.c: b is not inside an object"⟩ ∧
      ∃ before, before <+: ["a", "b", "c"] ∧ before ≠ ["a", "b", "c"] ∧
        ¬ Enterable (reached before (.object [("a", .bool true)])) := by
  let fields : List (String × Json) :=
    [("a", .object [("x", .bool true)]), ("a.b", .string "new"), ("c.d.e", .null)]
  let document : Json := .object [("c", .null), ("z", .object [("y", .string "old")])]
  have hset : (setStage ⟨0, 1⟩ "set" fields).run document =
      .finished (.object [("a", .object [("b", .string "new"), ("x", .bool true)]),
        ("c", .object [("d", .object [("e", .null)])]), ("z", .object [("y", .string "old")])]) := by
    rfl
  have hfailed : (setStage ⟨0, 1⟩ "set" [("a.b.c", .null)]).run (.object [("a", .bool true)]) =
      .failed ⟨"Cannot reach a.b.c: b is not inside an object"⟩ := by rfl
  have hascending : Ascending fields := by unfold Ascending; decide +kernel
  obtain ⟨hmany, hsingle⟩ := set_assigns_fields_only ⟨0, 1⟩ "set"
  obtain ⟨hassigned, hkept⟩ := hmany fields document _ hascending hset
  refine ⟨_, hset, ?_, ?_, ?_, hfailed, ?_⟩
  · exact hassigned ("a.b", .string "new") (by simp [fields]) (by decide +kernel)
  · exact hassigned ("c.d.e", .null) (by simp [fields]) (by decide +kernel)
  · exact hkept ["z", "y"] (by decide +kernel)
  · exact (hsingle "a.b.c" .null (.object [("a", .bool true)])).1.mp ⟨_, hfailed⟩

end Plan

end Runbook
