import Runbook.Decision.PathExpression
import Mathlib.Data.List.Infix

/-!
# Steps of paths

Steps that are put behind slashes make a path that splits into these steps again.  One such path
begins another one when its steps do, where its last step may be cut off inside.
-/

namespace Runbook.Decision

open Text PathExpression

/-! ## Splitting -/

def IsStep (step : String) : Prop := step ≠ "" ∧ '/' ∉ step.toList

theorem parsePath_eq (path : String) :
    parsePath path = ((pieces '/' path.toList).filter (· ≠ [])).map String.ofList := by
  rw [parsePath, split, List.filter_map]
  refine congrArg (List.map String.ofList) (List.filter_congr fun piece _ => ?_)
  simp

theorem isStep_of_mem_parsePath {path step : String} (h : step ∈ parsePath path) : IsStep step := by
  rw [parsePath_eq] at h
  obtain ⟨piece, hpiece, rfl⟩ := List.mem_map.mp h
  obtain ⟨hmem, hpiece⟩ := List.mem_filter.mp hpiece
  refine ⟨by simpa using hpiece, ?_⟩
  rw [String.toList_ofList]
  exact separator_not_mem_pieces piece hmem

theorem length_parsePath_le (path : String) : 2 * (parsePath path).length ≤ path.length + 1 := by
  have hpieces := length_filter_le_joinPieces '/' (pieces '/' path.toList)
  rw [joinPieces_pieces, String.length_toList] at hpieces
  rw [parsePath_eq, List.length_map]
  exact hpieces

/-! ## Joining -/

def joined (steps : List String) : List Char := ['/'].intercalate (steps.map String.toList)

@[simp] theorem joined_nil : joined [] = [] := rfl

@[simp] theorem joined_singleton (step : String) : joined [step] = step.toList := by
  simp [joined]

theorem joined_cons_cons (first second : String) (steps : List String) :
    joined (first :: second :: steps) = first.toList ++ '/' :: joined (second :: steps) := by
  simp [joined]

theorem joined_ne_nil {step : String} (h : IsStep step) (steps : List String) :
    joined (step :: steps) ≠ [] := by
  cases steps with
  | nil => simpa using h.1
  | cons second steps => simp [joined_cons_cons]

theorem toList_canonicalPath (steps : List String) :
    (canonicalPath steps).toList = '/' :: joined steps := by
  rw [canonicalPath, String.toList_append, String.toList_intercalate]
  rfl

theorem parsePath_canonicalPath {steps : List String} (h : ∀ step ∈ steps, IsStep step) :
    parsePath (canonicalPath steps) = steps := by
  rw [parsePath_eq, toList_canonicalPath, pieces, if_pos rfl, List.filter_cons_of_neg (by simp)]
  by_cases hsteps : steps = []
  · subst hsteps
    rfl
  · rw [joined, pieces_intercalate (by simpa using hsteps) (by
      rw [List.forall_mem_map]
      exact fun step hstep => (h step hstep).2)]
    rw [List.filter_eq_self.mpr (by
      rw [List.forall_mem_map]
      exact fun step hstep => by simpa using (h step hstep).1)]
    simp

theorem canonicalPath_inj {first second : List String} (hfirst : ∀ step ∈ first, IsStep step)
    (hsecond : ∀ step ∈ second, IsStep step) :
    canonicalPath first = canonicalPath second ↔ first = second := by
  refine ⟨fun h => ?_, congrArg canonicalPath⟩
  rw [← parsePath_canonicalPath hfirst, h, parsePath_canonicalPath hsecond]

/-! ## Beginnings -/

section

variable {separator : Char} {first second : List Char}

private theorem prefix_append_separator_iff (hfirst : separator ∉ first) (rest : List Char) :
    first <+: second ++ separator :: rest ↔ first <+: second := by
  induction first generalizing second with
  | nil => simp
  | cons c first ih =>
      rw [List.mem_cons, not_or] at hfirst
      cases second with
      | nil => simp [Ne.symm hfirst.1]
      | cons d second => rw [List.cons_append, List.cons_prefix_cons, List.cons_prefix_cons, ih hfirst.2]

private theorem append_separator_prefix_iff (hfirst : separator ∉ first)
    (hsecond : separator ∉ second)
    (rest others : List Char) :
    first ++ separator :: rest <+: second ++ separator :: others ↔
      first = second ∧ rest <+: others := by
  induction first generalizing second with
  | nil =>
      cases second with
      | nil => simp
      | cons c second =>
          rw [List.mem_cons, not_or] at hsecond
          simp [hsecond.1]
  | cons c first ih =>
      rw [List.mem_cons, not_or] at hfirst
      cases second with
      | nil => simp [Ne.symm hfirst.1]
      | cons d second =>
          rw [List.mem_cons, not_or] at hsecond
          rw [List.cons_append, List.cons_append, List.cons_prefix_cons, ih hfirst.2 hsecond.2,
            List.cons.injEq, and_assoc]

end

/-- Whether steps lead to the place of another step, of which the last one is only a part. -/
def CutsStep (pattern steps : List String) : Prop :=
  ∃ front last step rest, pattern = front ++ [last] ∧ steps = front ++ step :: rest ∧
    last ≠ step ∧ last.toList <+: step.toList

private theorem not_cutsStep_nil (pattern : List String) : ¬ CutsStep pattern [] := by
  rintro ⟨front, last, step, rest, -, h, -⟩
  simp at h

private theorem cutsStep_singleton (last step : String) (rest : List String) :
    CutsStep [last] (step :: rest) ↔ last ≠ step ∧ last.toList <+: step.toList := by
  constructor
  · rintro ⟨front, own, other, others, hpattern, hsteps, hcut⟩
    obtain ⟨rfl, hown⟩ := List.append_eq_singleton_iff.mp hpattern.symm |>.resolve_right (by simp)
    cases hown
    cases hsteps
    exact hcut
  · intro hcut
    exact ⟨[], last, step, rest, rfl, rfl, hcut⟩

private theorem cutsStep_cons (first next step : String) (pattern steps : List String) :
    CutsStep (first :: next :: pattern) (step :: steps) ↔
      first = step ∧ CutsStep (next :: pattern) steps := by
  constructor
  · rintro ⟨front, last, own, rest, hpattern, hsteps, hcut⟩
    cases front with
    | nil => simp at hpattern
    | cons _ front =>
        injection hpattern with hfirst hpattern
        injection hsteps with hstep hsteps
        exact ⟨hfirst.trans hstep.symm, front, last, own, rest, hpattern, hsteps, hcut⟩
  · rintro ⟨rfl, front, last, own, rest, hpattern, hsteps, hcut⟩
    exact ⟨first :: front, last, own, rest, by rw [hpattern]; rfl, by rw [hsteps]; rfl, hcut⟩

private theorem singleton_prefix_or_cutsStep (last step : String) (steps : List String) :
    [last] <+: step :: steps ∨ CutsStep [last] (step :: steps) ↔ last.toList <+: step.toList := by
  rw [cutsStep_singleton, List.cons_prefix_cons, and_iff_left (List.nil_prefix)]
  constructor
  · rintro (rfl | ⟨-, hcut⟩)
    · exact List.prefix_rfl
    · exact hcut
  · intro hcut
    exact (eq_or_ne last step).imp id fun hdifferent => ⟨hdifferent, hcut⟩

private theorem cons_prefix_or_cutsStep (first next step : String) (pattern steps : List String) :
    first :: next :: pattern <+: step :: steps ∨ CutsStep (first :: next :: pattern) (step :: steps) ↔
      first = step ∧ (next :: pattern <+: steps ∨ CutsStep (next :: pattern) steps) := by
  rw [cutsStep_cons, List.cons_prefix_cons, and_or_left]

private theorem joined_prefix_iff {pattern steps : List String}
    (hpattern : ∀ step ∈ pattern, IsStep step)
    (hsteps : ∀ step ∈ steps, IsStep step) :
    joined pattern <+: joined steps ↔ pattern <+: steps ∨ CutsStep pattern steps := by
  induction pattern generalizing steps with
  | nil => simp
  | cons first pattern ih =>
      rw [List.forall_mem_cons] at hpattern
      obtain ⟨hfirst, hpattern⟩ := hpattern
      cases steps with
      | nil => simp [not_cutsStep_nil, joined_ne_nil hfirst]
      | cons step steps =>
          rw [List.forall_mem_cons] at hsteps
          obtain ⟨hstep, hsteps⟩ := hsteps
          cases pattern with
          | nil =>
              rw [singleton_prefix_or_cutsStep, joined_singleton]
              cases steps with
              | nil => rw [joined_singleton]
              | cons other steps =>
                  rw [joined_cons_cons, prefix_append_separator_iff hfirst.2]
          | cons next pattern =>
              rw [cons_prefix_or_cutsStep, ← ih hpattern hsteps, joined_cons_cons]
              cases steps with
              | nil =>
                  -- there is no slash in the only step
                  have hnone : ¬ first.toList ++ '/' :: joined (next :: pattern) <+: step.toList :=
                    fun h => hstep.2 (h.subset (by simp))
                  simp [hnone, joined_ne_nil (hpattern next (by simp))]
              | cons other steps =>
                  rw [joined_cons_cons, append_separator_prefix_iff hfirst.2 hstep.2,
                    String.toList_inj]

theorem canonicalPath_prefix_iff {pattern steps : List String}
    (hpattern : ∀ step ∈ pattern, IsStep step) (hsteps : ∀ step ∈ steps, IsStep step) :
    (canonicalPath pattern).toList <+: (canonicalPath steps).toList ↔
      pattern <+: steps ∨ CutsStep pattern steps := by
  rw [toList_canonicalPath, toList_canonicalPath, List.cons_prefix_cons, and_iff_right rfl,
    joined_prefix_iff hpattern hsteps]

end Runbook.Decision
