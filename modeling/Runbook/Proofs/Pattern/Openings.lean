import Runbook.Proofs.Pattern.Tails

/-!
# Repetitions and openings

The counts of a repetition and what opens a group are read alike in front of a closing parenthesis
and at the end of the text.
-/

namespace Runbook.Pattern

variable {more text longer room : List Char}

/-! ## Repetitions -/

section

variable {spaced : Bool}

theorem readGreed_agrees (least : Nat) (most : Option Nat) (h : Extends more text longer) :
    Agrees more room text (some (readGreed least most text))
      (some (readGreed least most longer)) := by
  cases h with
  | closed => exact .read _ List.suffix_rfl .closed
  | swallowed => exact .read _ List.suffix_rfl .swallowed
  | cons c h =>
      by_cases hc : c = '?'
      · subst hc
        exact .read _ (List.suffix_cons '?' _) h
      · simp only [readGreed, List.cons.injEq, hc, false_and, imp_self, implies_true]
        exact .read _ List.suffix_rfl (.cons c h)

variable (hmore : '\n' ∉ more)

include hmore

theorem readCount_agrees (room : List Char) (h : Extends more text longer) :
    Agrees more room text (readCount spaced text) (readCount spaced longer) := by
  have hblanks := h.skipBlanks
  have hle := skipBlanks_suffix text
  have hdigits : Agrees more [] text
      (some (readDigits spaced ((skipBlanks text).length + 1) (skipBlanks text)))
      (some (readDigits spaced ((skipBlanks longer).length + 1) (skipBlanks longer))) := by
    rw [readDigits_eq, readDigits_eq]
    exact (readWhile_agrees (by decide) hmore hblanks (Nat.le_succ _) (Nat.le_succ _)).within hle
  rw [readCount, readCount]
  dsimp only
  generalize readDigits spaced _ (skipBlanks text) = own at *
  generalize readDigits spaced _ (skipBlanks longer) = other at *
  cases hdigits with
  | @read digits rest behind hleft h =>
      have hrest := (skip_suffix spaced (skipBlanks rest)).trans (skipBlanks_suffix rest)
      have hread {value : Option Nat} : Agrees more room text
          (some (value, skip spaced (skipBlanks rest)))
          (some (value, skip spaced (skipBlanks behind))) :=
        .read value (hrest.trans hleft) (h.skipBlanks.skip hmore spaced)
      dsimp only
      split
      · exact hread
      · split
        · exact hread
        · exact .failed

omit hmore in
def closeCounts (spaced : Bool) (least : Nat) (most : Option Nat) (text : List Char) :
    Option (Counts × List Char) :=
  match text with
  | '\x7d' :: rest => some (readGreed least most (skip spaced rest))
  | _ => none

omit hmore in
def countsFrom (spaced : Bool) (least : Option Nat) (text : List Char) :
    Option (Counts × List Char) :=
  match text with
  | ',' :: rest =>
    match skip spaced rest with
    | '\x7d' :: rest => least.bind fun least => some (readGreed least none (skip spaced rest))
    | rest => least.bind fun least => (readCount spaced rest).bind fun most =>
      most.1.bind fun bound =>
        (guard (least ≤ bound) : Option Unit).bind fun _ =>
          closeCounts spaced least (some bound) most.2
  | rest => least.bind fun least => closeCounts spaced least (some least) rest

omit hmore in
theorem readCounts_eq (text : List Char) :
    readCounts spaced text =
      (readCount spaced (skip spaced text)).bind
        fun least => countsFrom spaced least.1 least.2 := by
  rw [readCounts]
  refine congrArg _ (funext fun least => ?_)
  obtain ⟨least, rest⟩ := least
  unfold countsFrom
  dsimp only
  split
  next rest =>
    simp only
    generalize skip spaced rest = front
    cases front with
    | nil => rfl
    | cons c front =>
        by_cases hc : c = '\x7d'
        · subst hc
          rfl
        · simp only [List.cons.injEq, hc, false_and, imp_self, implies_true]
          rfl
  next rest => rfl
  next hcomma hbrace =>
    simp only
    cases least with
    | none => rfl
    | some least =>
        simp only [closeCounts, Option.bind_some]

theorem closeCounts_agrees (least : Nat) (most : Option Nat) (h : Extends more text longer) :
    Agrees more room text (closeCounts spaced least most text)
      (closeCounts spaced least most longer) := by
  cases h with
  | closed => exact .failed
  | swallowed => exact .failed
  | @cons rest _ c h =>
      by_cases hc : c = '\x7d'
      · subst hc
        exact (readGreed_agrees least most (h.skip hmore spaced)).within
          ((skip_suffix spaced rest).trans (List.suffix_cons '\x7d' rest))
      · simp only [closeCounts, List.cons.injEq, hc, false_and, imp_self, implies_true]
        exact .failed

private theorem countsFrom_agrees (least : Option Nat) (h : Extends more text longer) :
    Agrees more room text (countsFrom spaced least text)
      (countsFrom spaced least longer) := by
  have hclose (least : Option Nat) {rest behind : List Char} (h : Extends more rest behind) :
      Agrees more room rest (least.bind fun least => closeCounts spaced least (some least) rest)
        (least.bind fun least => closeCounts spaced least (some least) behind) :=
    .after fun least => closeCounts_agrees hmore least (some least) h
  cases h with
  | closed => exact hclose least .closed
  | swallowed => exact hclose least .swallowed
  | @cons rest behind c h =>
      by_cases hc : c = ','
      · subst hc
        have hskip := h.skip hmore spaced
        have hle := skip_suffix spaced rest
        simp only [countsFrom]
        generalize skip spaced rest = front at *
        generalize skip spaced behind = last at *
        have hbound {front last : List Char} (h : Extends more front last)
            (hle : front <:+ rest) :
            Agrees more room (',' :: rest)
              (least.bind fun least => (readCount spaced front).bind fun most =>
                most.1.bind fun bound => (guard (least ≤ bound) : Option Unit).bind fun _ =>
                  closeCounts spaced least (some bound) most.2)
              (least.bind fun least => (readCount spaced last).bind fun most =>
                most.1.bind fun bound => (guard (least ≤ bound) : Option Unit).bind fun _ =>
                  closeCounts spaced least (some bound) most.2) := by
          refine .after fun least => (readCount_agrees hmore [] h).bind
            (fun most rest behind hrest h => .after fun bound => .after fun _ =>
              (closeCounts_agrees hmore least (some bound) h).within
                ((hrest.trans hle).trans (List.suffix_cons ',' _))) fun most behind hbehind => ?_
          rw [List.suffix_nil.mp hbehind]
          exact .after fun bound => .after fun _ => .none
        cases hskip with
        | closed => exact hbound .closed hle
        | swallowed => exact hbound .swallowed hle
        | @cons rest behind d h =>
            by_cases hd : d = '\x7d'
            · subst hd
              have hrest := (skip_suffix spaced rest).trans (suffix_of_cons hle)
              exact .after fun least => (readGreed_agrees least none (h.skip hmore spaced)).within
                (hrest.trans (List.suffix_cons ',' _))
            · simp only [List.cons.injEq, hd, false_and, imp_self, implies_true]
              exact hbound (.cons d h) hle
      · simp only [countsFrom, List.cons.injEq, hc, false_and, imp_self, implies_true]
        exact hclose least (.cons c h)

theorem readCounts_agrees (room : List Char) (h : Extends more text longer) :
    Agrees more room text (readCounts spaced text) (readCounts spaced longer) := by
  have hle := skip_suffix spaced text
  rw [readCounts_eq, readCounts_eq]
  refine ((readCount_agrees hmore [] (h.skip hmore spaced)).within hle).bind
    (fun least rest behind hrest h => (countsFrom_agrees hmore least h).within hrest)
    fun least behind hbehind => ?_
  rw [List.suffix_nil.mp hbehind]
  cases least with
  | none => exact .none
  | some least => exact .none

end

/-! ## Openings of groups -/

theorem readGroupName_front {front : List Char} (h : '>' ∉ front) (rest : List Char) :
    readGroupName (front ++ '>' :: rest) =
      if !front.isEmpty && isNameStart (front.headD '>') && front.all isNameChar then
        some (String.ofList front, rest) else none := by
  have htake := takeWhile_front h rest
  have hdrop := dropWhile_front h rest
  cases front with
  | nil => rfl
  | cons c front =>
      rw [List.cons_append] at htake hdrop ⊢
      simp only [readGroupName, htake, hdrop]
      rfl

theorem readGroupName_of_not_mem (h : '>' ∉ text) : readGroupName text = none := by
  have hdrop := dropWhile_of_not_mem h
  cases text with
  | nil => rfl
  | cons c rest => simp only [readGroupName, hdrop]

private theorem readGroupName_agrees (room : List Char) (hname : '>' ∉ more)
    (h : Extends more text longer) :
    Agrees more room text (readGroupName text) (readGroupName longer) := by
  obtain ⟨front, rest, behind, hfront, rfl, rfl, hrest⟩ | ⟨hmark, hlonger⟩ := h.mark_cases '>'
  · rw [readGroupName_front hfront, readGroupName_front hfront]
    split
    · exact .read _ (suffix_of_cons (List.suffix_append front _)) hrest
    · exact .failed
  · have hlonger : '>' ∉ longer := by
      obtain rfl | rfl := hlonger
      · exact hmark
      · simp [hmark, hname]
    rw [readGroupName_of_not_mem hmark, readGroupName_of_not_mem hlonger]
    exact .failed

theorem readNamedOpening_agrees (hname : '>' ∉ more) (h : Extends more text longer) :
    Agrees more room text (readNamedOpening text) (readNamedOpening longer) :=
  (readGroupName_agrees room hname h).bind (fun _ _ _ hrest h => .read _ hrest h)
    fun _ _ hbehind => .some hbehind

private theorem readFlags_agrees (items : List FlagItem) (h : Extends more text longer) :
    Agrees more (')' :: more) text (readFlags items text) (readFlags items longer) := by
  induction h generalizing items with
  | closed =>
      rw [readFlags, readFlags, if_pos (.inr rfl)]
      split
      · exact .failed
      · exact .inside _ List.suffix_rfl
  | swallowed => exact .failed
  | cons c h ih =>
      rw [readFlags, readFlags]
      split
      · split
        · exact .failed
        · exact .read _ List.suffix_rfl (.cons c h)
      · dsimp only
        split
        · exact .failed
        · split
          · exact .failed
          · exact (ih _).within (List.suffix_cons c _)

def flagsEnd : List FlagItem × List Char → Option (Opening × List Char)
  | ([], ')' :: _) => none
  | (items, ')' :: rest) => some (.flags (flagChange items), rest)
  | (items, ':' :: rest) => some (.group (flagChange items), rest)
  | _ => none

theorem flagsEnd_agrees (items : List FlagItem) (h : Extends more text longer) :
    Agrees more more text.tail (flagsEnd (items, text))
      (flagsEnd (items, longer)) := by
  cases h with
  | closed => cases items <;> first | exact .failed | exact .inside _ List.suffix_rfl
  | swallowed => cases items <;> exact .failed
  | @cons rest behind c h =>
      by_cases hclose : c = ')'
      · subst hclose
        cases items <;> first | exact .failed | exact .read _ List.suffix_rfl h
      · by_cases hcolon : c = ':'
        · subst hcolon
          cases items <;> exact .read _ List.suffix_rfl h
        · have hnone (rest : List Char) : flagsEnd (items, c :: rest) = none := by
            unfold flagsEnd
            split <;> simp_all
          rw [hnone, hnone]
          exact .failed

theorem flagsOpening_agrees (h : Extends more text longer) :
    Agrees more more text ((readFlags [] text).bind flagsEnd)
      ((readFlags [] longer).bind flagsEnd) :=
  (readFlags_agrees [] h).bind
    (fun items rest _ hrest h => (flagsEnd_agrees items h).within
      ((List.tail_suffix rest).trans hrest))
    fun items behind hbehind => (flagsEnd_agrees items (.refl more behind)).shrinks.mono
      (tail_suffix_tail hbehind)

def questionOpening : List Char → Option (Opening × List Char)
  | 'P' :: '<' :: name => readNamedOpening name
  | '<' :: name =>
    if name.head? = some '=' ∨ name.head? = some '!' then none else readNamedOpening name
  | rest => (readFlags [] rest).bind flagsEnd

theorem questionOpening_flags {c : Char} (hleft : c ≠ '<')
    (hcapture : ¬ (c = 'P' ∧ text.head? = some '<')) :
    questionOpening (c :: text) = (readFlags [] (c :: text)).bind flagsEnd := by
  unfold questionOpening
  split
  next heq =>
    cases heq
    exact absurd ⟨rfl, rfl⟩ hcapture
  next heq =>
    cases heq
    exact absurd rfl hleft
  next => rfl

theorem readOpening_eq (spaced : Bool) (text : List Char) :
    readOpening spaced text =
      match skip spaced text with
      | '?' :: rest => questionOpening rest
      | rest => some (.capture none, rest) := by
  rw [readOpening]
  generalize skip spaced text = front
  split
  · rfl
  · rfl
  · rfl
  · rfl
  · rfl
  next rest hequal hmark =>
    simp only [questionOpening]
    rw [if_neg]
    rw [List.head?_eq_some_iff, List.head?_eq_some_iff]
    rintro (⟨name, rfl⟩ | ⟨name, rfl⟩)
    · exact hequal name rfl
    · exact hmark name rfl
  next rest hcapture _ _ _ _ hname =>
    simp only
    unfold questionOpening
    split
    · exact absurd rfl (hcapture _)
    · exact absurd rfl (hname _)
    · cases readFlags [] rest with
      | none => rfl
      | some read =>
          obtain ⟨items, rest⟩ := read
          unfold flagsEnd
          rfl
  next hquestion =>
    split
    · exact absurd rfl (hquestion _)
    · rfl

private theorem questionOpening_agrees (hname : '>' ∉ more) (h : Extends more text longer) :
    Agrees more more text (questionOpening text) (questionOpening longer) := by
  cases h with
  | closed => exact flagsOpening_agrees .closed
  | swallowed => exact flagsOpening_agrees .swallowed
  | @cons rest behind c h =>
      by_cases hleft : c = '<'
      · subst hleft
        simp only [questionOpening, h.head?_eq_iff (show '=' ≠ ')' by decide),
          h.head?_eq_iff (show '!' ≠ ')' by decide)]
        split
        · exact .failed
        · exact (readNamedOpening_agrees hname h).within (List.suffix_cons '<' rest)
      · have hflags (hcapture : ¬ (c = 'P' ∧ rest.head? = some '<')) :
            Agrees more more (c :: rest) (questionOpening (c :: rest))
              (questionOpening (c :: behind)) := by
          have hlonger : ¬ (c = 'P' ∧ behind.head? = some '<') := by
            rwa [h.head?_eq_iff (by decide)]
          rw [questionOpening_flags hleft hcapture, questionOpening_flags hleft hlonger]
          exact flagsOpening_agrees (.cons c h)
        by_cases hcapture : c = 'P' ∧ rest.head? = some '<'
        · obtain ⟨rfl, hhead⟩ := hcapture
          cases h with
          | closed => cases hhead
          | swallowed => cases hhead
          | cons d h =>
              cases hhead
              exact (readNamedOpening_agrees hname h).within
                (suffix_of_cons (List.suffix_cons 'P' _))
        · exact hflags hcapture

theorem readOpening_agrees (hmore : '\n' ∉ more) (hname : '>' ∉ more) {spaced : Bool}
    (h : Extends more text longer) :
    Agrees more more text (readOpening spaced text)
      (readOpening spaced longer) := by
  rw [readOpening_eq, readOpening_eq]
  have hskip := h.skip hmore spaced
  have hown := skip_suffix spaced text
  generalize skip spaced text = front at *
  generalize skip spaced longer = behind at *
  cases hskip with
  | closed => exact .read _ hown .closed
  | swallowed => exact .read _ hown .swallowed
  | @cons rest _ c h =>
      by_cases hc : c = '?'
      · subst hc
        exact (questionOpening_agrees hname h).within (suffix_of_cons hown)
      · simp only [List.cons.injEq, hc, false_and, imp_self, implies_true]
        exact .read _ hown (.cons c h)

theorem readOpening_shrinks (spaced : Bool) (text : List Char) :
    Shrinks text (readOpening spaced text) :=
  (readOpening_agrees List.not_mem_nil List.not_mem_nil (.refl [] text)).shrinks

end Runbook.Pattern
