import Runbook.Pattern.Parser
import Mathlib.Data.List.Infix
import Mathlib.Data.List.TakeWhile
import Mathlib.Data.Option.Basic

/-!
# Texts with a tail

What a closing parenthesis behind a text, and whatever comes after it, changes for those who read
the text.  Where they come to an end within the text nothing changes, and else they either fail all
the same or take the parenthesis for a part of the text.
-/

namespace Runbook.Pattern

variable {α β γ : Type} {more text longer room : List Char}

/-! ## Texts with a tail -/

/-- Texts with a closing parenthesis and more behind another text, or with nothing there because a
comment has taken it. -/
inductive Extends (more : List Char) : List Char → List Char → Prop
  | closed : Extends more [] (')' :: more)
  | swallowed : Extends more [] []
  | cons {text longer : List Char} (c : Char) (h : Extends more text longer) :
    Extends more (c :: text) (c :: longer)

namespace Extends

theorem refl (more : List Char) : (text : List Char) → Extends more text text
  | [] => .swallowed
  | c :: text => .cons c (refl more text)

theorem append (more : List Char) : (text : List Char) → Extends more text (text ++ ')' :: more)
  | [] => .closed
  | c :: text => .cons c (append more text)

theorem eq_or_eq_append (h : Extends more text longer) :
    longer = text ∨ longer = text ++ ')' :: more := by
  induction h with
  | closed => exact .inr rfl
  | swallowed => exact .inl rfl
  | cons c h ih => simpa using ih

theorem head?_eq_iff (h : Extends more text longer) {c : Char} (hc : c ≠ ')') :
    longer.head? = some c ↔ text.head? = some c := by
  cases h <;> simp [hc.symm]

/-- Either a mark stands in a text, and the texts before its first place are the same, or it does
not and the text extends as a whole. -/
theorem mark_cases (h : Extends more text longer) (mark : Char) :
    (∃ front rest behind, mark ∉ front ∧ text = front ++ mark :: rest ∧
      longer = front ++ mark :: behind ∧ Extends more rest behind) ∨
    mark ∉ text ∧ (longer = text ∨ longer = text ++ ')' :: more) := by
  induction h with
  | closed => exact .inr ⟨List.not_mem_nil, .inr rfl⟩
  | swallowed => exact .inr ⟨List.not_mem_nil, .inl rfl⟩
  | @cons text longer c h ih =>
      by_cases hc : c = mark
      · subst hc
        exact .inl ⟨[], text, longer, List.not_mem_nil, rfl, rfl, h⟩
      · obtain ⟨front, rest, behind, hfront, rfl, rfl, hrest⟩ | ⟨hmark, hlonger⟩ := ih
        · exact .inl ⟨c :: front, rest, behind, by simp [Ne.symm hc, hfront], rfl, rfl, hrest⟩
        · exact .inr ⟨by simp [Ne.symm hc, hmark], by simpa using hlonger⟩

end Extends

section

variable {mark : Char} {front : List Char} (h : mark ∉ front)

include h

theorem ne_mark_of_mem : ∀ c ∈ front, (c != mark) = true := fun c hc => by
  simp only [bne_iff_ne]
  rintro rfl
  exact h hc

theorem takeWhile_front (rest : List Char) :
    (front ++ mark :: rest).takeWhile (· != mark) = front := by
  rw [List.takeWhile_append_of_pos (ne_mark_of_mem h)]
  simp

theorem dropWhile_front (rest : List Char) :
    (front ++ mark :: rest).dropWhile (· != mark) = mark :: rest := by
  rw [List.dropWhile_append_of_pos (ne_mark_of_mem h)]
  simp

theorem dropWhile_of_not_mem : front.dropWhile (· != mark) = [] := by
  rw [List.dropWhile_eq_nil_iff]
  exact ne_mark_of_mem h

theorem parenthesis_mem_takeWhile (hmark : mark ≠ ')') (more : List Char) :
    ')' ∈ (front ++ ')' :: more).takeWhile (· != mark) := by
  rw [List.takeWhile_append_of_pos (ne_mark_of_mem h), List.takeWhile_cons,
    if_pos (by simpa using hmark.symm)]
  simp

end

private theorem skipComments_in_comment (h : '\n' ∉ text) : skipComments text true = [] := by
  induction text with
  | nil => rfl
  | cons c text ih =>
      have hc : (c != '\n') = true := by
        simp only [bne_iff_ne]
        rintro rfl
        simp at h
      rw [skipComments, hc, ih fun hmem => h (.tail _ hmem)]

private theorem skipComments_suffix (text : List Char) (comment : Bool) :
    skipComments text comment <:+ text := by
  fun_induction skipComments text comment with
  | case1 => exact List.suffix_rfl
  | case2 c rest ih => exact ih.trans (List.suffix_cons c rest)
  | case3 c rest hblank ih => exact ih.trans (List.suffix_cons c rest)
  | case4 rest hblank ih => exact ih.trans (List.suffix_cons '#' rest)
  | case5 => exact List.suffix_rfl

theorem skip_suffix (spaced : Bool) (text : List Char) : skip spaced text <:+ text := by
  rw [skip]
  split
  · exact skipComments_suffix text false
  · exact List.suffix_rfl

theorem skipBlanks_suffix (text : List Char) : skipBlanks text <:+ text :=
  List.dropWhile_suffix _

theorem suffix_of_cons {c : Char} (h : c :: text <:+ longer) : text <:+ longer :=
  (List.suffix_cons c text).trans h

theorem tail_suffix_tail (h : text <:+ longer) : text.tail <:+ longer.tail := by
  obtain ⟨front, rfl⟩ := h
  cases front with
  | nil => exact List.suffix_rfl
  | cons c front => exact (List.tail_suffix text).trans (List.suffix_append front text)

theorem isBlank_parenthesis : Text.isBlank ')' = false := by decide +kernel

theorem Extends.skipBlanks (h : Extends more text longer) :
    Extends more (skipBlanks text) (skipBlanks longer) := by
  induction h with
  | closed =>
      simp only [Pattern.skipBlanks, List.dropWhile_cons, isBlank_parenthesis]
      exact .closed
  | swallowed => exact .swallowed
  | cons c h ih =>
      simp only [Pattern.skipBlanks, List.dropWhile_cons] at ih ⊢
      split
      · exact ih
      · exact .cons c h

theorem Extends.skipComments (hmore : '\n' ∉ more) (h : Extends more text longer) (comment : Bool) :
    Extends more (skipComments text comment) (skipComments longer comment) := by
  induction h generalizing comment with
  | closed =>
      cases comment with
      | false =>
          simp only [Pattern.skipComments, isBlank_parenthesis]
          exact .closed
      | true =>
          rw [Pattern.skipComments, skipComments_in_comment (by simpa using hmore)]
          exact .swallowed
  | swallowed => exact .swallowed
  | cons c h ih =>
      cases comment with
      | false =>
          simp only [Pattern.skipComments]
          split
          · exact ih false
          split
          · exact ih true
          · exact .cons c h
      | true =>
          simp only [Pattern.skipComments]
          exact ih _

section

variable (hmore : '\n' ∉ more) (spaced : Bool)

include hmore in
theorem Extends.skip (h : Extends more text longer) :
    Extends more (skip spaced text) (skip spaced longer) := by
  cases spaced with
  | false => exact h
  | true => exact h.skipComments hmore false

theorem Extends.peekAfter_eq_iff (h : Extends more text longer) {c : Char} (hc : c ≠ ')') :
    peekAfter spaced longer = some c ↔ peekAfter spaced text = some c := by
  cases spaced with
  | false => exact h.head?_eq_iff hc
  | true =>
      have hblanks := h.skipBlanks
      simp only [peekAfter, Bool.not_true]
      generalize Pattern.skipBlanks text = own at *
      generalize Pattern.skipBlanks longer = other at *
      cases hblanks with
      | closed => simp [hc.symm]
      | swallowed => rfl
      | cons d hrest =>
          by_cases hd : d = '#'
          · subst hd
            exact hrest.skipBlanks.head?_eq_iff hc
          · simp [hd]

end

/-! ## Results -/

def Shrinks (text : List Char) (result : Option (α × List Char)) : Prop :=
  ∀ value rest, result = some (value, rest) → rest <:+ text

/-- The results of reading a text and one that extends it: if the first one is read, the second one
is read alike, and the second one alone is read only so far that at most `room` is left. -/
inductive Agrees (more room text : List Char) :
    Option (α × List Char) → Option (α × List Char) → Prop
  | failed : Agrees more room text none none
  | read (value : α) {rest longer : List Char} (hrest : rest <:+ text)
    (h : Extends more rest longer) :
    Agrees more room text (some (value, rest)) (some (value, longer))
  | inside (value : α) {longer : List Char} (hlonger : longer <:+ room) :
    Agrees more room text none (some (value, longer))

namespace Shrinks

variable {larger : List Char} {result : Option (α × List Char)}

theorem none : Shrinks text (none : Option (α × List Char)) := fun _ _ h => by cases h

theorem some {value : α} {rest : List Char} (h : rest <:+ text) :
    Shrinks text (some (value, rest)) := fun _ _ hread => by cases hread; exact h

theorem mono (h : Shrinks text result) (htext : text <:+ larger) : Shrinks larger result :=
  fun value rest hread => (h value rest hread).trans htext

theorem bind {next : α × List Char → Option (β × List Char)} (h : Shrinks text result)
    (hnext : ∀ value rest, rest <:+ text → Shrinks larger (next (value, rest))) :
    Shrinks larger (result.bind next) := by
  cases result with
  | none => exact .none
  | some read => exact hnext _ _ (h _ _ rfl)

theorem after {result : Option γ} {next : γ → Option (β × List Char)}
    (hnext : ∀ value, Shrinks text (next value)) : Shrinks text (result.bind next) := by
  cases result with
  | none => exact .none
  | some value => exact hnext value

end Shrinks

namespace Agrees

variable {wider larger : List Char} {own other : Option (α × List Char)}

theorem mono (h : Agrees more room text own other) (hroom : room <:+ wider)
    (htext : text <:+ larger) : Agrees more wider larger own other := by
  cases h with
  | failed => exact .failed
  | read value hrest h => exact .read value (hrest.trans htext) h
  | inside value hlonger => exact .inside value (hlonger.trans hroom)

theorem within (h : Agrees more room text own other) (htext : text <:+ larger) :
    Agrees more room larger own other := h.mono List.suffix_rfl htext

theorem shrinks (h : Agrees more room text own other) : Shrinks text own := by
  cases h with
  | failed => exact .none
  | read value hrest h => exact .some hrest
  | inside value hlonger => exact .none

theorem of_shrinks (h : Shrinks room other) : Agrees more room text none other := by
  cases hother : other with
  | none => exact .failed
  | some read => exact .inside _ (h _ _ hother)

theorem refl (h : Shrinks text own) : Agrees more room text own own := by
  cases hown : own with
  | none => exact .failed
  | some read => exact .read _ (h _ _ hown) (.refl more _)

theorem bind {next follow : α × List Char → Option (β × List Char)}
    (h : Agrees more room text own other)
    (hread : ∀ value rest longer, rest <:+ text → Extends more rest longer →
      Agrees more wider larger (next (value, rest)) (follow (value, longer)))
    (hinside : ∀ value longer, longer <:+ room → Shrinks wider (follow (value, longer))) :
    Agrees more wider larger (own.bind next) (other.bind follow) := by
  cases h with
  | failed => exact .failed
  | read value hrest h => exact hread value _ _ hrest h
  | inside value hlonger => exact of_shrinks (hinside value _ hlonger)

theorem after {result : Option γ} {next follow : γ → Option (β × List Char)}
    (h : ∀ value, Agrees more room text (next value) (follow value)) :
    Agrees more room text (result.bind next) (result.bind follow) := by
  cases result with
  | none => exact .failed
  | some value => exact h value

theorem map (h : Agrees more room text own other) (f : α → β) :
    Agrees more room text (own.map fun read => (f read.1, read.2))
      (other.map fun read => (f read.1, read.2)) := by
  cases h with
  | failed => exact .failed
  | read value hrest h => exact .read (f value) hrest h
  | inside value hlonger => exact .inside (f value) hlonger

end Agrees

/-! ## Runs of characters -/

def readWhile (test : Char → Bool) (value : Char → α) (spaced : Bool) :
    Nat → List Char → List α × List Char
  | 0, text => ([], text)
  | fuel + 1, text =>
    match text with
    | c :: rest =>
      if test c then
        let (values, rest) := readWhile test value spaced fuel (skip spaced rest)
        (value c :: values, rest)
      else ([], text)
    | [] => ([], [])

section

variable {test : Char → Bool} {value : Char → α} {spaced : Bool} {fuel : Nat}

theorem readBoundaryName_eq (text : List Char) :
    readBoundaryName spaced fuel text = readWhile isBoundaryLetter id spaced fuel text := by
  induction fuel generalizing text with
  | zero => rfl
  | succ fuel ih => cases text <;> simp [readBoundaryName, readWhile, ih]

theorem readHyphens_eq (text : List Char) :
    readHyphens spaced fuel text =
      readWhile (· == '-') (fun c => ClassSet.literal ⟨c, false⟩) spaced fuel text := by
  induction fuel generalizing text with
  | zero => rfl
  | succ fuel ih =>
      cases text with
      | nil => rfl
      | cons c rest => by_cases hc : c = '-' <;> simp [readHyphens, readWhile, ih, hc]

theorem readDigits_eq (text : List Char) :
    readDigits spaced fuel text =
      readWhile Char.isDigit (fun c => c.toNat - 48) spaced fuel text := by
  induction fuel generalizing text with
  | zero => rfl
  | succ fuel ih => cases text <;> simp [readDigits, readWhile, ih]

variable (htest : test ')' = false)

include htest

theorem readWhile_stops (h : Extends more [] longer) :
    readWhile test value spaced fuel longer = ([], longer) := by
  cases h with
  | closed => cases fuel <;> simp [readWhile, htest]
  | swallowed => cases fuel <;> rfl

theorem readWhile_agrees (hmore : '\n' ∉ more) {other : Nat} (h : Extends more text longer)
    (hfuel : text.length ≤ fuel) (hother : longer.length ≤ other) :
    Agrees more room text (some (readWhile test value spaced fuel text))
      (some (readWhile test value spaced other longer)) := by
  induction fuel generalizing other text longer with
  | zero =>
      obtain rfl := List.length_eq_zero_iff.mp (Nat.le_zero.mp hfuel)
      rw [readWhile_stops htest h]
      exact .read [] List.suffix_rfl h
  | succ fuel ih =>
      cases h with
      | closed =>
          rw [readWhile_stops htest .closed]
          exact .read [] List.suffix_rfl .closed
      | swallowed =>
          simp only [readWhile_stops htest (.refl more [])]
          exact .read [] List.suffix_rfl .swallowed
      | @cons rest behind c h =>
          have hrest := skip_suffix spaced rest
          have hown := hrest.length_le
          have hlonger := (skip_suffix spaced behind).length_le
          simp only [List.length_cons] at hfuel hother
          obtain ⟨other, rfl⟩ := Nat.exists_eq_add_of_lt (show 0 < other by omega)
          simp only [readWhile, Nat.zero_add]
          split
          · exact ((ih (h.skip hmore spaced) (by omega) (by omega)).map (value c :: ·)).within
              (hrest.trans (List.suffix_cons c rest))
          · exact .read [] List.suffix_rfl (.cons c h)

end

end Runbook.Pattern
