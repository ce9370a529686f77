import Runbook.Proofs.Decision.PathConditions
import Runbook.Proofs.Plan.Stages
import Mathlib.Data.List.TakeWhile

/-!
# Fields that are read where they are written

A field is written along the keys of its dotted path and read through a pointer.  Where a path has no
slash and no tilde that begins an escape, the pointer's tokens are the keys of the path, so a condition
on a field sees what a stage wrote to it.  A path that begins with a slash is a pointer as it stands,
and never leads to what is written under it as a dotted path.
-/

namespace Runbook

/-! ## Pointers of dotted paths -/

namespace Json

/-- Whether a dotted path says the same as a pointer: it has no slash, and no tilde in it begins an
escape. -/
def PlainPath (path : String) : Prop :=
  '/' ∉ path.toList ∧ ¬ ['~', '0'] <:+: path.toList ∧ ¬ ['~', '1'] <:+: path.toList

instance (path : String) : Decidable (PlainPath path) :=
  inferInstanceAs (Decidable ('/' ∉ path.toList ∧ ¬ ['~', '0'] <:+: path.toList ∧
    ¬ ['~', '1'] <:+: path.toList))

private theorem pointerToken_eq {token : List Char} (hzero : ¬ ['~', '0'] <:+: token)
    (hone : ¬ ['~', '1'] <:+: token) : pointerToken token = String.ofList token := by
  rw [pointerToken, Text.replacePair_of_not_infix hone, Text.replacePair_of_not_infix hzero]

theorem PlainPath.readField? {path : String} (h : PlainPath path) (document : Json) :
    document.readField? path = descend? document (fieldParts path) := by
  obtain ⟨hslash, hzero, hone⟩ := h
  have hpointer : fieldPointer path =
      String.ofList ('/' :: path.toList.map fun c => if c = '.' then '/' else c) := by
    rw [fieldPointer]
    split
    · next rest hpath => simp [hpath] at hslash
    · rfl
  have htokens : (Text.pieces '.' path.toList).map pointerToken = fieldParts path :=
    List.map_congr_left fun token htoken =>
      have hinfix := Text.infix_of_mem_pieces htoken
      pointerToken_eq (fun h => hzero (h.trans hinfix)) fun h => hone (h.trans hinfix)
  rw [Json.readField?, hpointer, pointer?, String.toList_ofList, ← htokens,
    ← Text.pieces_replace hslash]
  rfl

private theorem descend?_of_valueAt? {parts : List String} {document value : Json}
    (h : valueAt? parts document = some value) : descend? document parts = some value := by
  induction parts generalizing document with
  | nil => exact h
  | cons part parts ih =>
      cases document with
      | object fields =>
          obtain ⟨inner, hinner, h⟩ := Option.bind_eq_some_iff.mp h
          rw [descend?, child?, hinner]
          exact ih h
      | null => cases h
      | bool => cases h
      | number => cases h
      | string => cases h
      | array => cases h

/-! ## Paths that are pointers -/

private theorem length_pointerToken_le (token : List Char) :
    (pointerToken token).toList.length ≤ token.length := by
  rw [pointerToken, String.toList_ofList]
  exact (Text.length_replacePair_le ..).trans (Text.length_replacePair_le ..)

private theorem dot_mem_pointerToken {token : List Char} (h : '.' ∈ token) :
    '.' ∈ (pointerToken token).toList := by
  rw [pointerToken, String.toList_ofList]
  exact Text.mem_replacePair (Text.mem_replacePair h (by decide) (by decide)) (by decide)
    (by decide)

/-- The first token of a pointer is never the first key of the same text as a dotted path: a token
with a dot is no such key, and one without a dot is too short. -/
private theorem pointerToken_ne (rest : List Char) :
    pointerToken (rest.takeWhile (· ≠ '/')) ≠ String.ofList ('/' :: rest.takeWhile (· ≠ '.')) := by
  intro hsame
  have hlist : (pointerToken (rest.takeWhile (· ≠ '/'))).toList =
      '/' :: rest.takeWhile (· ≠ '.') := by
    rw [hsame, String.toList_ofList]
  by_cases hdot : '.' ∈ rest.takeWhile (· ≠ '/')
  · have hkey := dot_mem_pointerToken hdot
    rw [hlist, List.mem_cons] at hkey
    have hbefore := List.mem_takeWhile_imp (hkey.resolve_left (by decide))
    simp at hbefore
  · have hlonger : (rest.takeWhile (· ≠ '.')) = rest.takeWhile (· ≠ '/') ++
        (rest.dropWhile (· ≠ '/')).takeWhile (· ≠ '.') := by
      conv_lhs => rw [← List.takeWhile_append_dropWhile (p := (· ≠ '/')) (l := rest)]
      refine List.takeWhile_append_of_pos fun c hc => decide_eq_true ?_
      rintro rfl
      exact hdot hc
    have hlength := length_pointerToken_le (rest.takeWhile (· ≠ '/'))
    rw [hlist, hlonger, List.length_cons, List.length_append] at hlength
    omega

private theorem descend?_put {change : Json → Option Json} {part token : String}
    {parts tokens : List String}
    {document changed : Json} (hother : token ≠ part)
    (h : put change (part :: parts) document = some changed) :
    descend? changed (token :: tokens) = descend? document (token :: tokens) := by
  obtain ⟨fields, inner, hfields, -, rfl⟩ := put_cons_eq_some h
  have hchild : child? (.object (setField fields part inner)) token = child? document token := by
    rw [child?, getField?_setField, if_neg hother]
    cases document with
    | null =>
        cases hfields
        rfl
    | object => rw [child?, Option.some.inj hfields]
    | bool => cases hfields
    | number => cases hfields
    | string => cases hfields
    | array => cases hfields
  rw [descend?, descend?, hchild]

private theorem fieldPointer_of_slash {path : String} {rest : List Char}
    (hpath : path.toList = '/' :: rest) : fieldPointer path = path := by
  rw [fieldPointer]
  split
  · rfl
  · next hnone => exact absurd hpath (hnone rest)

theorem readField?_of_slash {path : String} {rest : List Char} (hpath : path.toList = '/' :: rest)
    (document : Json) :
    document.readField? path = descend? document ((Text.pieces '/' rest).map pointerToken) := by
  rw [readField?, fieldPointer_of_slash hpath, pointer?, hpath]
  rfl

private theorem readField?_put_slash {change : Json → Option Json} {path : String}
    {rest : List Char}
    {document changed : Json} (hpath : path.toList = '/' :: rest)
    (h : put change (fieldParts path) document = some changed) :
    changed.readField? path = document.readField? path := by
  obtain ⟨tokens, htokens⟩ := Text.pieces_eq_cons '/' rest
  obtain ⟨parts, hparts⟩ := Text.pieces_eq_cons '.' ('/' :: rest)
  have hfirst : ('/' :: rest).takeWhile (· ≠ '.') = '/' :: rest.takeWhile (· ≠ '.') :=
    List.takeWhile_cons_of_pos (by decide)
  rw [fieldParts, Text.split, hpath, hparts, List.map_cons, hfirst] at h
  rw [readField?_of_slash hpath, readField?_of_slash hpath, htokens, List.map_cons]
  exact descend?_put (pointerToken_ne rest) h

end Json

/-! ## Stages and conditions -/

namespace Plan

open Runbook.Json Runbook.Decision

variable {id : StageId} {name path : String} {value document after : Json}

private theorem put_of_setStage
    (hset : (setStage id name [(path, value)]).run document = .finished after) :
    put (fun _ => some value) (fieldParts path) document = some after := by
  have hperforms := setStage_performs id name [(path, value)] document
  rw [hset, setWrites, List.map_singleton, afterAll?_cons] at hperforms
  obtain ⟨next, hnext, hrest⟩ := Option.bind_eq_some_iff.mp hperforms.symm
  exact Option.some.inj hrest ▸ hnext

theorem firstValue_fieldVariable (path : String) (document : Json) :
    firstValue document (fieldVariable path) = .ok (.ofJson? (document.readField? path)) := rfl

/-- After a stage has set one field, the field reads as the value that was set, and a condition on it
holds exactly for values that read the same, whenever the path has no slash and no tilde that begins
an escape.  A path that begins with a slash reads as before. -/
theorem field_read_after_set
    (hset : (setStage id name [(path, value)]).run document = .finished after) :
    (PlainPath path →
      firstValue after (fieldVariable path) = .ok (.ofJson value) ∧
      ∀ expected : Json, Condition.holdsOn after ⟨fieldVariable path, .ofJson expected⟩ ↔
        Value.ofJson expected = Value.ofJson value) ∧
    (path.toList.head? = some '/' →
      firstValue after (fieldVariable path) = firstValue document (fieldVariable path)) := by
  have hput := put_of_setStage hset
  constructor
  · intro hplain
    have hread : firstValue after (fieldVariable path) = .ok (.ofJson value) := by
      rw [firstValue_fieldVariable, hplain.readField?,
        descend?_of_valueAt? (valueAt?_put_const hput), Value.ofJson?]
    refine ⟨hread, fun expected => ?_⟩
    rw [Condition.holdsOn_iff_firstValue, hread, Except.ok.injEq, eq_comm]
  · intro hslash
    obtain ⟨rest, hpath⟩ := List.head?_eq_some_iff.mp hslash
    rw [firstValue_fieldVariable, firstValue_fieldVariable, readField?_put_slash hpath hput]

theorem field_read_after_set_beside_pointer :
    ∃ first second : Json,
      (setStage ⟨0, 1⟩ "set" [(".0~2", .array [.null])]).run (.object [("", .null)]) =
        .finished first ∧
      PlainPath ".0~2" ∧
      firstValue first (fieldVariable ".0~2") = .ok (.list [.null]) ∧
      (setStage ⟨0, 1⟩ "set" [("/a", .bool true)]).run (.object [("a", .bool false)]) =
        .finished second ∧
      firstValue second (fieldVariable "/a") = .ok (.bool false) := by
  have hfirst : (setStage ⟨0, 1⟩ "set" [(".0~2", .array [.null])]).run (.object [("", .null)]) =
      .finished (.object [("", .object [("0~2", .array [.null])])]) := by cbv
  have hsecond : (setStage ⟨0, 1⟩ "set" [("/a", .bool true)]).run (.object [("a", .bool false)]) =
      .finished (.object [("/a", .bool true), ("a", .bool false)]) := by cbv
  have hplain : PlainPath ".0~2" := by decide
  exact ⟨_, _, hfirst, hplain, ((field_read_after_set hfirst).1 hplain).1, hsecond,
    (field_read_after_set hsecond).2 (by decide)⟩

/-- A pointer, a slash within a path and an escape within a path all read another field than the one
that is written. -/
theorem field_not_read_after_set :
    ((setStage ⟨0, 1⟩ "set" [("/a", .bool true)]).run (.object []) =
        .finished (.object [("/a", .bool true)]) ∧
      firstValue (.object [("/a", .bool true)]) (fieldVariable "/a") = .ok .null) ∧
    ((setStage ⟨0, 1⟩ "set" [("a/b", .bool true)]).run (.object []) =
        .finished (.object [("a/b", .bool true)]) ∧
      firstValue (.object [("a/b", .bool true)]) (fieldVariable "a/b") = .ok .null) ∧
    ((setStage ⟨0, 1⟩ "set" [("a~0b", .bool true)]).run (.object []) =
        .finished (.object [("a~0b", .bool true)]) ∧
      firstValue (.object [("a~0b", .bool true)]) (fieldVariable "a~0b") = .ok .null) ∧
    ((setStage ⟨0, 1⟩ "set" [("a~1b", .bool true)]).run (.object []) =
        .finished (.object [("a~1b", .bool true)]) ∧
      firstValue (.object [("a~1b", .bool true)]) (fieldVariable "a~1b") = .ok .null) :=
  ⟨⟨by cbv, by decide +kernel⟩, ⟨by cbv, by decide +kernel⟩, ⟨by cbv, by decide +kernel⟩,
    ⟨by cbv, by decide +kernel⟩⟩

end Plan

end Runbook
