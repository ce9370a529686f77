import Runbook.Json.Field
import Runbook.Proofs.Json.Fields

/-!
# Writes of fields

A write changes what lies at the end of some keys and makes objects on the way.  Writes whose keys
part before either ends do not see each other, so they can change places.
-/

namespace Runbook.Json

/-! ## Ways into a document -/

def Unrelated (a b : List String) : Prop := ¬ a <+: b ∧ ¬ b <+: a

instance (a b : List String) : Decidable (Unrelated a b) :=
  inferInstanceAs (Decidable (¬ a <+: b ∧ ¬ b <+: a))

theorem Unrelated.symm {a b : List String} (h : Unrelated a b) : Unrelated b a := ⟨h.2, h.1⟩

theorem Unrelated.tail {part : String} {a b : List String}
    (h : Unrelated (part :: a) (part :: b)) : Unrelated a b :=
  ⟨fun hbegins => h.1 ((List.prefix_cons_inj part).mpr hbegins),
    fun hbegins => h.2 ((List.prefix_cons_inj part).mpr hbegins)⟩

def valueAt? : List String → Json → Option Json
  | [], document => some document
  | part :: parts, .object fields => (getField? fields part).bind (valueAt? parts)
  | _ :: _, _ => none

def blocks : List String → Json → Bool
  | [], _ => false
  | part :: parts, .object fields =>
    match getField? fields part with
    | some value => blocks parts value
    | none => false
  | _ :: _, _ => true

/-- The fields that a write finds: those of an object, or none where nothing is. -/
def fieldsOf? : Json → Option (List (String × Json))
  | .null => some []
  | .object fields => some fields
  | _ => none

theorem Sorted.fieldsOf? {document : Json} (h : Sorted document) {fields : List (String × Json)}
    (hfields : fieldsOf? document = some fields) : Sorted (.object fields) := by
  cases document with
  | null =>
      cases hfields
      exact sorted_object.mpr ⟨List.Pairwise.nil, by simp⟩
  | object => exact Option.some.inj hfields ▸ h
  | bool => cases hfields
  | number => cases hfields
  | string => cases hfields
  | array => cases hfields

theorem valueAt?_cons {document : Json} {fields : List (String × Json)}
    (hfields : fieldsOf? document = some fields) (part : String) (parts : List String) :
    valueAt? (part :: parts) document = (getField? fields part).bind (valueAt? parts) := by
  cases document with
  | null =>
      cases hfields
      rfl
  | object => rw [valueAt?, Option.some.inj hfields]
  | bool => cases hfields
  | number => cases hfields
  | string => cases hfields
  | array => cases hfields

/-! ## Putting a value -/

def put (change : Json → Option Json) : List String → Json → Option Json
  | [], document => change document
  | part :: parts, document =>
    (fieldsOf? document).bind fun fields =>
      (put change parts ((getField? fields part).getD .null)).map fun value =>
        .object (setField fields part value)

theorem toOption_bind {ε α β : Type} (first : Except ε α) (rest : α → Except ε β) :
    (first >>= rest).toOption = first.toOption.bind fun value => (rest value).toOption := by
  cases first <;> rfl

theorem ok_of_toOption {ε α : Type} {result : Except ε α} {value : α}
    (h : result.toOption = some value) : result = .ok value := by
  cases result with
  | error error => cases h
  | ok own =>
      cases h
      rfl

theorem error_of_toOption {ε α : Type} {result : Except ε α} (h : result.toOption = none) :
    ∃ error, result = .error error := by
  cases result with
  | ok value => cases h
  | error error => exact ⟨error, rfl⟩

theorem toOption_updateAt (path : String) (change : Json → Except FieldError Json)
    (parts : List String) (document : Json) :
    (updateAt path change parts document).toOption =
      put (fun value => (change value).toOption) parts document := by
  induction parts generalizing document with
  | nil => rfl
  | cons part parts ih =>
      rw [put]
      cases document with
      | null =>
          rw [updateAt, toOption_bind, ih, fieldsOf?, Option.bind_some, getField?, Option.getD_none]
          cases put (fun value => (change value).toOption) parts .null <;> rfl
      | object fields =>
          rw [updateAt, toOption_bind, ih, fieldsOf?, Option.bind_some]
          cases put (fun value => (change value).toOption) parts
            ((getField? fields part).getD .null) <;> rfl
      | bool => rfl
      | number => rfl
      | string => rfl
      | array => rfl

section

variable {change other : Json → Option Json} {p q : List String} {document changed : Json}

theorem put_cons_eq_some {part : String} {parts : List String}
    (h : put change (part :: parts) document = some changed) :
    ∃ fields value, fieldsOf? document = some fields ∧
      put change parts ((getField? fields part).getD .null) = some value ∧
      changed = .object (setField fields part value) := by
  rw [put] at h
  obtain ⟨fields, hfields, h⟩ := Option.bind_eq_some_iff.mp h
  obtain ⟨value, hvalue, rfl⟩ := Option.map_eq_some_iff.mp h
  exact ⟨fields, value, hfields, hvalue, rfl⟩

theorem sorted_getD {fields : List (String × Json)} (h : Sorted (.object fields)) (part : String) :
    Sorted ((getField? fields part).getD .null) := by
  cases hfield : getField? fields part with
  | none => trivial
  | some value => exact h.getField? hfield

private theorem sorted_put
    (hchange : ∀ value next, Sorted value → change value = some next → Sorted next)
    (h : put change p document = some changed) (hsorted : Sorted document) : Sorted changed := by
  induction p generalizing document changed with
  | nil => exact hchange _ _ hsorted h
  | cons part parts ih =>
      obtain ⟨fields, value, hfields, hvalue, rfl⟩ := put_cons_eq_some h
      have hobject := hsorted.fieldsOf? hfields
      exact hobject.setField (ih hvalue (sorted_getD hobject part))

private theorem valueAt?_put (hunrelated : Unrelated q p)
    (h : put change p document = some changed) :
    valueAt? q changed = valueAt? q document := by
  induction p generalizing q document changed with
  | nil => exact absurd List.nil_prefix hunrelated.2
  | cons part parts ih =>
      obtain ⟨fields, value, hfields, hvalue, rfl⟩ := put_cons_eq_some h
      cases q with
      | nil => exact absurd List.nil_prefix hunrelated.1
      | cons first q =>
          rw [valueAt?_cons hfields, valueAt?, getField?_setField]
          by_cases hfirst : first = part
          · subst hfirst
            have hrest := ih hunrelated.tail hvalue
            rw [if_pos rfl, Option.bind_some, hrest]
            cases getField? fields first with
            | some old => rfl
            | none =>
                cases q with
                | nil => exact absurd List.nil_prefix hunrelated.tail.1
                | cons => rfl
          · rw [if_neg hfirst]

theorem valueAt?_put_const {value : Json} (h : put (fun _ => some value) p document = some changed) :
    valueAt? p changed = some value := by
  induction p generalizing document changed with
  | nil => exact congrArg some (Option.some.inj h).symm
  | cons part parts ih =>
      obtain ⟨fields, inner, -, hinner, rfl⟩ := put_cons_eq_some h
      rw [valueAt?, getField?_setField, if_pos rfl, Option.bind_some]
      exact ih hinner

private theorem blocks_put (hunrelated : Unrelated q p) (h : put change p document = some changed)
    (hopen : document = .null ∨ blocks q document = false) : blocks q changed = false := by
  induction p generalizing q document changed with
  | nil => exact absurd List.nil_prefix hunrelated.2
  | cons part parts ih =>
      obtain ⟨fields, value, hfields, hvalue, rfl⟩ := put_cons_eq_some h
      cases q with
      | nil => rfl
      | cons first q =>
          have hold : ∀ old, getField? fields first = some old → blocks q old = false := by
            intro old hold
            rcases hopen with rfl | hopen
            · cases hfields
              cases hold
            · cases document with
              | null => cases hopen
              | object own =>
                  cases hfields
                  rw [blocks, hold] at hopen
                  exact hopen
              | bool => cases hfields
              | number => cases hfields
              | string => cases hfields
              | array => cases hfields
          rw [blocks, getField?_setField]
          by_cases hfirst : first = part
          · subst hfirst
            rw [if_pos rfl]
            refine ih hunrelated.tail hvalue ?_
            cases hfield : getField? fields first with
            | none => exact .inl rfl
            | some old => exact .inr (hold old hfield)
          · rw [if_neg hfirst]
            cases hfield : getField? fields first with
            | none => rfl
            | some old => exact hold old hfield

private theorem object_of_put (hbegins : q <+: p) (hproper : q ≠ p)
    (h : put change p document = some changed) :
    ∃ fields, valueAt? q changed = some (.object fields) := by
  induction q generalizing p document changed with
  | nil =>
      cases p with
      | nil => exact absurd rfl hproper
      | cons part parts =>
          obtain ⟨fields, value, -, -, rfl⟩ := put_cons_eq_some h
          exact ⟨_, rfl⟩
  | cons part q ih =>
      cases p with
      | nil => simp at hbegins
      | cons first parts =>
          obtain ⟨rfl, hrest⟩ := List.cons_prefix_cons.mp hbegins
          obtain ⟨fields, value, -, hvalue, rfl⟩ := put_cons_eq_some h
          rw [valueAt?, getField?_setField, if_pos rfl, Option.bind_some]
          exact ih hrest (fun hsame => hproper (by rw [hsame])) hvalue

private theorem setField_setField {fields : List (String × Json)} (h : Ascending fields)
    (key : String)
    (value next : Json) : setField (setField fields key value) key next = setField fields key next := by
  refine ((h.setField key value).setField key next).ext (h.setField key next) fun name => ?_
  simp only [getField?_setField]
  split <;> rfl

private theorem setField_comm {fields : List (String × Json)} (h : Ascending fields) {a b : String}
    (hab : a ≠ b) (x y : Json) :
    setField (setField fields a x) b y = setField (setField fields b y) a x := by
  refine ((h.setField a x).setField b y).ext ((h.setField b y).setField a x) fun name => ?_
  simp only [getField?_setField]
  by_cases ha : name = a
  · subst ha
    simp [hab]
  · simp [ha]

private theorem put_comm (hunrelated : Unrelated p q) (hsorted : Sorted document) :
    (put change p document).bind (put other q) = (put other q document).bind (put change p) := by
  induction p generalizing q document with
  | nil => exact absurd List.nil_prefix hunrelated.1
  | cons a p ih =>
      cases q with
      | nil => exact absurd List.nil_prefix hunrelated.2
      | cons b q =>
          cases hfields : fieldsOf? document with
          | none => simp [put, hfields]
          | some fields =>
              have hobject := hsorted.fieldsOf? hfields
              have hascending := (sorted_object.mp hobject).1
              by_cases hab : a = b
              · subst hab
                have hinner := ih hunrelated.tail (sorted_getD hobject a)
                have hboth : ∀ (c d : Json → Option Json) (p q : List String),
                    (put c (a :: p) document).bind (put d (a :: q)) =
                      ((put c p ((getField? fields a).getD .null)).bind (put d q)).map
                        fun value => .object (setField fields a value) := by
                  intro c d p q
                  rw [put, hfields, Option.bind_some]
                  cases put c p ((getField? fields a).getD .null) with
                  | none => rfl
                  | some value =>
                      rw [Option.map_some, Option.bind_some, put, fieldsOf?, Option.bind_some,
                        getField?_setField, if_pos rfl, Option.getD_some, Option.bind_some]
                      simp only [setField_setField hascending]
                rw [hboth, hboth, hinner]
              · have hboth : ∀ (c d : Json → Option Json) (a b : String) (p q : List String),
                    a ≠ b → (put c (a :: p) document).bind (put d (b :: q)) =
                      (put c p ((getField? fields a).getD .null)).bind fun x =>
                        (put d q ((getField? fields b).getD .null)).map fun y =>
                          .object (setField (setField fields a x) b y) := by
                  intro c d a b p q hne
                  rw [put, hfields, Option.bind_some]
                  cases put c p ((getField? fields a).getD .null) with
                  | none => rfl
                  | some x =>
                      rw [Option.map_some, Option.bind_some, put, fieldsOf?, Option.bind_some,
                        getField?_setField, if_neg (Ne.symm hne), Option.bind_some]
                rw [hboth _ _ _ _ _ _ hab, hboth _ _ _ _ _ _ (Ne.symm hab)]
                cases put change p ((getField? fields a).getD .null) with
                | none => cases put other q ((getField? fields b).getD .null) <;> rfl
                | some x =>
                    cases put other q ((getField? fields b).getD .null) with
                    | none => rfl
                    | some y =>
                        simp only [Option.bind_some, Option.map_some]
                        rw [setField_comm hascending hab]

end

/-! ## Writes -/

structure FieldWrite where
  path : String
  change : Json → Except FieldError Json

namespace FieldWrite

def parts (write : FieldWrite) : List String := fieldParts write.path

def run (write : FieldWrite) (document : Json) : Except FieldError Json :=
  document.updateField write.path write.change

def KeepsSorted (write : FieldWrite) : Prop :=
  ∀ value changed, Sorted value → write.change value = .ok changed → Sorted changed

def after? (write : FieldWrite) : Json → Option Json :=
  put (fun value => (write.change value).toOption) write.parts

theorem toOption_run (write : FieldWrite) (document : Json) :
    (write.run document).toOption = write.after? document :=
  toOption_updateAt ..

theorem KeepsSorted.after? {write : FieldWrite} (h : write.KeepsSorted) {document changed : Json}
    (hafter : write.after? document = some changed) (hsorted : Sorted document) :
    Sorted changed := by
  refine sorted_put (fun value next hvalue hnext => ?_) hafter hsorted
  exact h value next hvalue (ok_of_toOption hnext)

end FieldWrite

def afterAll? (writes : List FieldWrite) (document : Json) : Option Json :=
  writes.foldlM (fun document write => write.after? document) document

theorem afterAll?_cons (write : FieldWrite) (writes : List FieldWrite) (document : Json) :
    afterAll? (write :: writes) document = (write.after? document).bind (afterAll? writes) := by
  rw [afterAll?, List.foldlM_cons]
  rfl

theorem afterAll?_two (write other : FieldWrite) (writes : List FieldWrite) (document : Json) :
    afterAll? (write :: other :: writes) document =
      ((write.after? document).bind other.after?).bind (afterAll? writes) := by
  rw [afterAll?_cons]
  cases write.after? document with
  | none => rfl
  | some next => exact afterAll?_cons ..

theorem afterAll?_append (writes others : List FieldWrite) (document : Json) :
    afterAll? (writes ++ others) document =
      (afterAll? writes document).bind (afterAll? others) := by
  rw [afterAll?, List.foldlM_append]
  rfl

def Separate (writes others : List FieldWrite) : Prop :=
  ∀ write ∈ writes, ∀ other ∈ others, Unrelated write.parts other.parts

theorem Separate.symm {writes others : List FieldWrite} (h : Separate writes others) :
    Separate others writes :=
  fun other hother write hwrite => (h write hwrite other hother).symm

section

variable {writes others : List FieldWrite} {document : Json}

theorem sorted_afterAll? (hkeep : ∀ write ∈ writes, write.KeepsSorted) {changed : Json}
    (h : afterAll? writes document = some changed) (hsorted : Sorted document) :
    Sorted changed := by
  induction writes generalizing document with
  | nil => exact Option.some.inj h ▸ hsorted
  | cons write writes ih =>
      rw [List.forall_mem_cons] at hkeep
      rw [afterAll?_cons] at h
      obtain ⟨next, hnext, h⟩ := Option.bind_eq_some_iff.mp h
      exact ih hkeep.2 h (hkeep.1.after? hnext hsorted)

theorem valueAt?_afterAll? {way : List String} {changed : Json}
    (hunrelated : ∀ write ∈ writes, Unrelated way write.parts)
    (h : afterAll? writes document = some changed) :
    valueAt? way changed = valueAt? way document := by
  induction writes generalizing document with
  | nil => rw [Option.some.inj h]
  | cons write writes ih =>
      rw [List.forall_mem_cons] at hunrelated
      rw [afterAll?_cons] at h
      obtain ⟨next, hnext, h⟩ := Option.bind_eq_some_iff.mp h
      rw [ih hunrelated.2 h]
      exact valueAt?_put hunrelated.1 hnext

theorem blocks_afterAll? {way : List String} {changed : Json}
    (hunrelated : ∀ write ∈ writes, Unrelated way write.parts)
    (h : afterAll? writes document = some changed) (hopen : blocks way document = false) :
    blocks way changed = false := by
  induction writes generalizing document with
  | nil => exact Option.some.inj h ▸ hopen
  | cons write writes ih =>
      rw [List.forall_mem_cons] at hunrelated
      rw [afterAll?_cons] at h
      obtain ⟨next, hnext, h⟩ := Option.bind_eq_some_iff.mp h
      exact ih hunrelated.2 h (blocks_put hunrelated.1 hnext (.inr hopen))

/-- On the way to a written field there is an object, unless something was written there or before
that. -/
theorem object_of_afterAll? {way : List String} {changed : Json}
    (hway : ∃ write ∈ writes, way <+: write.parts)
    (hfirst : ∀ write ∈ writes, ¬ write.parts <+: way)
    (h : afterAll? writes document = some changed) :
    ∃ fields, valueAt? way changed = some (.object fields) := by
  induction writes generalizing document with
  | nil =>
      obtain ⟨write, hwrite, -⟩ := hway
      cases hwrite
  | cons write writes ih =>
      rw [List.forall_mem_cons] at hfirst
      rw [afterAll?_cons] at h
      obtain ⟨next, hnext, h⟩ := Option.bind_eq_some_iff.mp h
      by_cases hlater : ∃ later ∈ writes, way <+: later.parts
      · exact ih hlater hfirst.2 h
      · have hown : way <+: write.parts := by
          obtain ⟨other, hother, hbegins⟩ := hway
          rcases List.mem_cons.mp hother with rfl | hother
          · exact hbegins
          · exact absurd ⟨other, hother, hbegins⟩ hlater
        have hobject := object_of_put hown
          (fun hsame => hfirst.1 (hsame ▸ List.prefix_rfl)) hnext
        rw [valueAt?_afterAll? (fun later hmem => ⟨fun hbegins => hlater ⟨later, hmem, hbegins⟩,
          hfirst.2 later hmem⟩) h]
        exact hobject

private theorem afterAll?_move {write : FieldWrite}
    (hseparate : ∀ other ∈ others, Unrelated write.parts other.parts)
    (hkeep : ∀ other ∈ others, other.KeepsSorted) (hsorted : Sorted document) :
    afterAll? (write :: others) document = afterAll? (others ++ [write]) document := by
  induction others generalizing document with
  | nil => rfl
  | cons other others ih =>
      rw [List.forall_mem_cons] at hseparate hkeep
      have hcomm : (write.after? document).bind other.after? =
          (other.after? document).bind write.after? := put_comm hseparate.1 hsorted
      have hswap : afterAll? (write :: other :: others) document =
          afterAll? (other :: write :: others) document := by
        rw [afterAll?_two, hcomm, ← afterAll?_two]
      rw [hswap, List.cons_append, afterAll?_cons, afterAll?_cons]
      cases hafter : other.after? document with
      | none => rfl
      | some next => exact ih hseparate.2 hkeep.2 (hkeep.1.after? hafter hsorted)

theorem afterAll?_comm (hseparate : Separate writes others)
    (hwrites : ∀ write ∈ writes, write.KeepsSorted)
    (hothers : ∀ other ∈ others, other.KeepsSorted) (hsorted : Sorted document) :
    afterAll? (writes ++ others) document = afterAll? (others ++ writes) document := by
  induction writes generalizing document with
  | nil => rw [List.nil_append, List.append_nil]
  | cons write writes ih =>
      have hfirst := hseparate write List.mem_cons_self
      have hrest : Separate writes others := fun other hother =>
        hseparate other (List.mem_cons_of_mem _ hother)
      rw [List.forall_mem_cons] at hwrites
      have hmoved : afterAll? (write :: (writes ++ others)) document =
          afterAll? (write :: (others ++ writes)) document := by
        rw [afterAll?_cons, afterAll?_cons]
        cases hafter : write.after? document with
        | none => rfl
        | some next => exact ih hrest hwrites.2 (hwrites.1.after? hafter hsorted)
      rw [List.cons_append, hmoved, ← List.cons_append, afterAll?_append,
        afterAll?_move hfirst hothers hsorted, ← afterAll?_append]
      simp

end

end Runbook.Json
