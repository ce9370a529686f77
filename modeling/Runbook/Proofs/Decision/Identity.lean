import Runbook.Proofs.Decision.Memo
import Mathlib.Data.List.Forall2

/-!
# Identity

What being the same means for variables: those that are the same differ in nothing but their
functions, a comparison that stops at a shared variable finds the same as one that goes on to the
end, and variables are the same if they feed the same to a hash function.
-/

namespace Runbook.Variable

variable {ι : Type}

/-! ## What variables that are the same agree in -/

theorem forall₂_of_sameAll {first second : List (Variable ι)} (h : sameAll first second) :
    List.Forall₂ (fun own other => own.same other = true) first second := by
  induction first generalizing second with
  | nil =>
      cases second with
      | nil => exact .nil
      | cons other others => cases h
  | cons subject subjects ih =>
      cases second with
      | nil => cases h
      | cons other others =>
          rw [sameAll, Bool.and_eq_true] at h
          exact .cons h.1 (ih h.2)

theorem length_of_sameAll {first second : List (Variable ι)} (h : sameAll first second) :
    first.length = second.length :=
  (forall₂_of_sameAll h).length_eq

inductive SameAs : Variable ι → Variable ι → Prop where
  | primary (name : String) (read otherRead : ι → Except VariableError Value)
      (traced otherTraced : Bool) :
      SameAs (.primary name read traced) (.primary name otherRead otherTraced)
  | identity (convert otherConvert : ι → Value) :
      SameAs (.identity convert) (.identity otherConvert)
  | predicate {source other : Variable ι} (label : String) (test otherTest : Value → Bool)
      (traced otherTraced : Bool) : source.same other →
      SameAs (.predicate source label test traced) (.predicate other label otherTest otherTraced)
  | derived {dependencies others : List (Variable ι)} (name : String)
      (derive otherDerive : List Value → Except VariableError Value) (traced otherTraced : Bool) :
      sameAll dependencies others →
      SameAs (.derived name dependencies derive traced)
        (.derived name others otherDerive otherTraced)
  | regexMatch {source other : Variable ι} (pattern : String) (regex otherRegex : Pattern.Regex) :
      source.same other →
      SameAs (.regexMatch source pattern regex) (.regexMatch other pattern otherRegex)
  | size {source other : Variable ι} : source.same other → SameAs (.size source) (.size other)

theorem sameAs_of_same {first second : Variable ι} (h : first.same second) :
    SameAs first second := by
  cases first <;> cases second <;> try (cases h; done)
  all_goals simp only [same, Bool.and_eq_true, beq_iff_eq] at h
  case primary.primary => exact h ▸ .primary ..
  case identity.identity => exact .identity ..
  case predicate.predicate => exact h.1 ▸ .predicate _ _ _ _ _ h.2
  case derived.derived => exact h.1 ▸ .derived _ _ _ _ _ h.2
  case regexMatch.regexMatch => exact h.1 ▸ .regexMatch _ _ _ h.2
  case size.size => exact .size h

theorem isMeta_of_same {first second : Variable ι} (h : first.same second) :
    first.isMeta = second.isMeta := by
  cases sameAs_of_same h <;> rfl

theorem display_of_same {first second : Variable ι} (h : first.same second) :
    first.display = second.display := by
  cases sameAs_of_same h with
  | primary => rfl
  | identity => rfl
  | predicate _ _ _ _ _ hsource => rw [display, display, display_of_same hsource]
  | derived => rfl
  | regexMatch _ _ _ hsource => rw [display, display, display_of_same hsource]
  | size hsource => rw [display, display, display_of_same hsource]

/-! ## Comparisons -/

def kindIndex : Variable ι → Nat
  | .primary .. => 0
  | .identity _ => 1
  | .predicate .. => 2
  | .derived .. => 3
  | .regexMatch .. => 4
  | .size _ => 5

mutual

/-- How two variables may be compared.  If both are one and the same, it may be seen without looking
into them; this may happen anywhere on the way down, or not. -/
inductive Compares : Variable ι → Variable ι → Bool → Prop where
  | shared (subject : Variable ι) : Compares subject subject true
  | kinds {first second : Variable ι} :
      first.kindIndex ≠ second.kindIndex → Compares first second false
  | primary (name otherName : String) (read otherRead : ι → Except VariableError Value)
      (traced otherTraced : Bool) :
      Compares (.primary name read traced) (.primary otherName otherRead otherTraced)
        (name == otherName)
  | identity (convert otherConvert : ι → Value) :
      Compares (.identity convert) (.identity otherConvert) true
  | predicate {source otherSource : Variable ι} {answer : Bool} (label otherLabel : String)
      (test otherTest : Value → Bool) (traced otherTraced : Bool) :
      Compares source otherSource answer →
      Compares (.predicate source label test traced)
        (.predicate otherSource otherLabel otherTest otherTraced) (label == otherLabel && answer)
  | derived {dependencies otherDependencies : List (Variable ι)} {answer : Bool}
      (name otherName : String) (derive otherDerive : List Value → Except VariableError Value)
      (traced otherTraced : Bool) :
      ComparesAll dependencies otherDependencies answer →
      Compares (.derived name dependencies derive traced)
        (.derived otherName otherDependencies otherDerive otherTraced)
        (name == otherName && answer)
  | regexMatch {source otherSource : Variable ι} {answer : Bool} (pattern otherPattern : String)
      (regex otherRegex : Pattern.Regex) :
      Compares source otherSource answer →
      Compares (.regexMatch source pattern regex) (.regexMatch otherSource otherPattern otherRegex)
        (pattern == otherPattern && answer)
  | size {source otherSource : Variable ι} {answer : Bool} :
      Compares source otherSource answer → Compares (.size source) (.size otherSource) answer

inductive ComparesAll : List (Variable ι) → List (Variable ι) → Bool → Prop where
  | lengths {first second : List (Variable ι)} :
      first.length ≠ second.length → ComparesAll first second false
  | nil : ComparesAll [] [] true
  | cons {subject other : Variable ι} {subjects others : List (Variable ι)} {answer rest : Bool} :
      subjects.length = others.length → Compares subject other answer →
      ComparesAll subjects others rest →
      ComparesAll (subject :: subjects) (other :: others) (answer && rest)

end

private theorem kindIndex_of_same {first second : Variable ι} (h : first.same second) :
    first.kindIndex = second.kindIndex := by
  cases sameAs_of_same h <;> rfl

mutual

theorem Compares.eq_same {first second : Variable ι} {answer : Bool}
    (h : Compares first second answer) : answer = first.same second := by
  cases h with
  | shared => exact (same_refl first).symm
  | kinds hkinds => exact (Bool.eq_false_iff.mpr fun hsame => hkinds (kindIndex_of_same hsame)).symm
  | primary => rw [same]
  | identity => rw [same]
  | predicate _ _ _ _ _ _ hsource => rw [same, hsource.eq_same]
  | derived _ _ _ _ _ _ hall => rw [same, hall.eq_sameAll]
  | regexMatch _ _ _ _ hsource => rw [same, hsource.eq_same]
  | size hsource => rw [same, hsource.eq_same]

theorem ComparesAll.eq_sameAll {first second : List (Variable ι)} {answer : Bool}
    (h : ComparesAll first second answer) : answer = sameAll first second := by
  cases h with
  | lengths hlengths =>
      exact (Bool.eq_false_iff.mpr fun hall => hlengths (length_of_sameAll hall)).symm
  | nil => rw [sameAll]
  | cons _ hfirst hrest => rw [sameAll, hfirst.eq_same, hrest.eq_sameAll]

end

mutual

theorem compares_same (first second : Variable ι) : Compares first second (first.same second) := by
  cases first <;> cases second <;> simp only [same]
  case primary.primary => exact .primary ..
  case identity.identity => exact .identity ..
  case predicate.predicate => exact .predicate _ _ _ _ _ _ (compares_same _ _)
  case derived.derived => exact .derived _ _ _ _ _ _ (comparesAll_sameAll _ _)
  case regexMatch.regexMatch => exact .regexMatch _ _ _ _ (compares_same _ _)
  case size.size => exact .size (compares_same _ _)
  all_goals exact .kinds (by simp [kindIndex])

theorem comparesAll_sameAll (first second : List (Variable ι)) :
    ComparesAll first second (sameAll first second) := by
  by_cases hlengths : first.length = second.length
  · match first, second with
    | [], [] => exact .nil
    | subject :: subjects, other :: others =>
        rw [sameAll]
        exact .cons (by simpa using hlengths) (compares_same subject other)
          (comparesAll_sameAll subjects others)
    | [], other :: others => cases hlengths
    | subject :: subjects, [] => cases hlengths
  · rw [Bool.eq_false_iff.mpr fun hall => hlengths (length_of_sameAll hall)]
    exact .lengths hlengths

end

theorem compares_iff {first second : Variable ι} {answer : Bool} :
    Compares first second answer ↔ answer = first.same second :=
  ⟨Compares.eq_same, fun h => h ▸ compares_same first second⟩

theorem same_equivalence :
    Equivalence fun first second : Variable ι => first.same second = true where
  refl := same_refl
  symm {first second} h := by rwa [same_comm]
  trans := same_trans

/-! ## What variables feed to a hash function -/

mutual

theorem hashInput_of_same {first second : Variable ι} (h : first.same second) :
    first.hashInput = second.hashInput := by
  cases sameAs_of_same h with
  | primary => rfl
  | identity => rfl
  | predicate _ _ _ _ _ hsource => rw [hashInput, hashInput, hashInput_of_same hsource]
  | derived _ _ _ _ _ hall =>
      rw [hashInput, hashInput, length_of_sameAll hall, hashInputs_of_sameAll hall]
  | regexMatch _ _ _ hsource => rw [hashInput, hashInput, hashInput_of_same hsource]
  | size hsource => rw [hashInput, hashInput, hashInput_of_same hsource]

theorem hashInputs_of_sameAll {first second : List (Variable ι)} (h : sameAll first second) :
    hashInputs first = hashInputs second := by
  match first, second with
  | [], [] => rfl
  | subject :: subjects, other :: others =>
      rw [sameAll, Bool.and_eq_true] at h
      rw [hashInputs, hashInputs, hashInput_of_same h.1, hashInputs_of_sameAll h.2]
  | [], other :: others => cases h
  | subject :: subjects, [] => cases h

end

mutual

/-- What a variable feeds to a hash function tells where it ends, whatever follows. -/
theorem same_of_hashInput_append {first second : Variable ι} {rest others : List HashWrite}
    (h : first.hashInput ++ rest = second.hashInput ++ others) :
    first.same second ∧ rest = others := by
  cases first <;> cases second <;> try (simp [hashInput] at h; done)
  · simpa [hashInput, same] using h
  · simpa [hashInput, same] using h
  · next source label _ _ other otherLabel _ _ =>
    simp only [hashInput, List.cons_append, List.cons.injEq, HashWrite.text.injEq, true_and] at h
    obtain ⟨rfl, hsource⟩ := h
    simpa [same] using same_of_hashInput_append hsource
  · next name own _ _ otherName dependencies _ _ =>
    simp only [hashInput, List.cons_append, List.cons.injEq, HashWrite.text.injEq,
      HashWrite.length.injEq, true_and] at h
    obtain ⟨rfl, hlength, hall⟩ := h
    simpa [same] using sameAll_of_hashInputs_append hlength hall
  · next source pattern _ other otherPattern _ =>
    simp only [hashInput, List.cons_append, List.cons.injEq, HashWrite.text.injEq, true_and] at h
    obtain ⟨rfl, hsource⟩ := h
    simpa [same] using same_of_hashInput_append hsource
  · next source other =>
    simp only [hashInput, List.cons_append, List.cons.injEq, true_and] at h
    simpa [same] using same_of_hashInput_append h

theorem sameAll_of_hashInputs_append {first second : List (Variable ι)}
    {rest others : List HashWrite} (hlength : first.length = second.length)
    (h : hashInputs first ++ rest = hashInputs second ++ others) :
    sameAll first second ∧ rest = others := by
  match first, second with
  | [], [] => exact ⟨rfl, h⟩
  | subject :: subjects, other :: members =>
      rw [hashInputs, hashInputs, List.append_assoc, List.append_assoc] at h
      obtain ⟨hsame, hbehind⟩ := same_of_hashInput_append h
      obtain ⟨hall, hrest⟩ := sameAll_of_hashInputs_append (Nat.succ.inj hlength) hbehind
      exact ⟨by rw [sameAll, hsame, hall]; rfl, hrest⟩
  | [], other :: members => cases hlength
  | subject :: subjects, [] => cases hlength

end

theorem same_iff_hashInput {first second : Variable ι} :
    first.same second ↔ first.hashInput = second.hashInput := by
  refine ⟨hashInput_of_same, fun h => ?_⟩
  have happend : first.hashInput ++ [] = second.hashInput ++ [] := by rw [h]
  exact (same_of_hashInput_append happend).1

end Runbook.Variable
