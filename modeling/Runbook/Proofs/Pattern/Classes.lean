import Runbook.Proofs.Pattern.Tails

/-!
# Escapes and classes

Escapes and bracketed classes are read alike in front of a closing parenthesis and at the end of the
text.
-/

namespace Runbook.Pattern

variable {more text longer room : List Char}

/-! ## Escapes -/

def IsOpenBoundary (spaced : Bool) (text : List Char) : Prop :=
  ∃ inner, text = '\x7b' :: inner ∧ skip spaced inner = []

section

variable {spaced : Bool}

theorem hexValue?_parenthesis : hexValue? ')' = none := by decide +kernel

theorem isBoundaryLetter_parenthesis : isBoundaryLetter ')' = false := by decide +kernel

private theorem readBraced_shrinks (fuel : Nat) (text : List Char) :
    Shrinks text (readBraced spaced fuel text) := by
  induction fuel generalizing text with
  | zero => exact .none
  | succ fuel ih =>
      have hskip := skip_suffix spaced text
      rw [readBraced]
      split
      next c rest hrest =>
        rw [hrest] at hskip
        split
        · exact .some (suffix_of_cons hskip)
        · exact (ih rest).bind fun name behind hbehind =>
            .some (hbehind.trans (suffix_of_cons hskip))
      next => exact .none

section

variable (hmore : '\n' ∉ more)

include hmore

private theorem readFixedHex_agrees (count code : Nat) (h : Extends more text longer) :
    Agrees more more text (readFixedHex spaced count code text)
      (readFixedHex spaced count code longer) := by
  induction count generalizing code text longer with
  | zero => exact .read _ List.suffix_rfl h
  | succ count ih =>
      cases h with
      | closed =>
          simp only [readFixedHex, hexValue?_parenthesis]
          exact .failed
      | swallowed => exact .failed
      | @cons rest _ c h =>
          exact .after fun digit => (ih _ (h.skip hmore spaced)).within
            ((skip_suffix spaced rest).trans (List.suffix_cons c rest))

private theorem readBracedHex_agrees {fuel other : Nat} (seen : Bool) (code : Nat)
    (h : Extends more text longer) (hfuel : text.length < fuel) (hother : longer.length < other) :
    Agrees more more text (readBracedHex spaced fuel seen code text)
      (readBracedHex spaced other seen code longer) := by
  induction fuel generalizing other seen code text longer with
  | zero => omega
  | succ fuel ih =>
      obtain ⟨other, rfl⟩ := Nat.exists_eq_add_of_lt (show 0 < other by omega)
      rw [Nat.zero_add, readBracedHex, readBracedHex]
      have hskip := h.skip hmore spaced
      have hown := skip_suffix spaced text
      have hlonger := skip_suffix spaced longer
      generalize skip spaced text = front at *
      generalize skip spaced longer = behind at *
      cases hskip with
      | closed =>
          simp only [Char.reduceEq, ↓reduceIte, hexValue?_parenthesis, Option.bind_eq_bind,
            Option.bind_none]
          exact .failed
      | swallowed => exact .failed
      | @cons rest _ c h =>
          have hless := hown.length_le
          have hlongerLess := hlonger.length_le
          simp only [List.length_cons] at hless hlongerLess
          simp only
          split
          · split
            · exact .read code ((skip_suffix spaced rest).trans (suffix_of_cons hown))
                (h.skip hmore spaced)
            · exact .failed
          · exact .after fun digit => .after fun _ =>
              (ih _ _ h (by omega) (by omega)).within (suffix_of_cons hown)

private theorem readHex_agrees (count : Nat) (h : Extends more text longer) :
    Agrees more more text (readHex spaced count text)
      (readHex spaced count longer) := by
  rw [readHex, readHex]
  have hskip := h.skip hmore spaced
  have hown := skip_suffix spaced text
  generalize skip spaced text = front at *
  generalize skip spaced longer = behind at *
  have hfixed (byte : Bool) {front behind : List Char} (h : Extends more front behind)
      (hown : front <:+ text) :
      Agrees more more text
        ((readFixedHex spaced count 0 front).bind fun read =>
          (charOf? read.1).bind fun c => some ((⟨c, byte⟩ : Literal), read.2))
        ((readFixedHex spaced count 0 behind).bind fun read =>
          (charOf? read.1).bind fun c => some ((⟨c, byte⟩ : Literal), read.2)) :=
    (readFixedHex_agrees hmore count 0 h).bind
      (fun code rest longer hrest h => .after fun c => .read _ (hrest.trans hown) h)
      fun code longer hlonger => .after fun c => .some hlonger
  cases hskip with
  | closed => exact hfixed _ .closed hown
  | swallowed => exact hfixed _ .swallowed hown
  | @cons rest _ c h =>
      by_cases hc : c = '\x7b'
      · subst hc
        exact (readBracedHex_agrees hmore false 0 h (Nat.lt_succ_self _)
          (Nat.lt_succ_self _)).bind
          (fun code rest longer hrest h => .after fun c =>
            .read _ (hrest.trans (suffix_of_cons hown)) h)
          fun code longer hlonger => .after fun c => .some hlonger
      · simp only [List.cons.injEq, hc, false_and, imp_self, implies_true]
        exact hfixed _ (.cons c h) hown

private theorem readBraced_agrees {fuel other : Nat} (h : Extends more text longer)
    (hfuel : text.length < fuel) (hother : longer.length < other) :
    Agrees more more text (readBraced spaced fuel text)
      (readBraced spaced other longer) := by
  induction fuel generalizing other text longer with
  | zero => omega
  | succ fuel ih =>
      obtain ⟨other, rfl⟩ := Nat.exists_eq_add_of_lt (show 0 < other by omega)
      rw [Nat.zero_add, readBraced, readBraced]
      have hskip := h.skip hmore spaced
      have hown := skip_suffix spaced text
      have hlonger := skip_suffix spaced longer
      generalize skip spaced text = front at *
      generalize skip spaced longer = behind at *
      cases hskip with
      | closed =>
          refine .of_shrinks (.bind (readBraced_shrinks other more) ?_)
          exact fun name rest hrest => .some hrest
      | swallowed => exact .failed
      | @cons rest _ c h =>
          have hless := hown.length_le
          have hlongerLess := hlonger.length_le
          simp only [List.length_cons] at hless hlongerLess
          simp only
          split
          · exact .read [] (suffix_of_cons hown) h
          · exact ((ih h (by omega) (by omega)).within (suffix_of_cons hown)).bind
              (fun name rest longer hrest h => .read _ hrest h)
              fun name longer hlonger => .some hlonger

private theorem readNamedClass_agrees (h : Extends more text longer) :
    Agrees more more text (readNamedClass spaced text)
      (readNamedClass spaced longer) := by
  rw [readNamedClass, readNamedClass]
  have hskip := h.skip hmore spaced
  have hown := skip_suffix spaced text
  generalize skip spaced text = front at *
  generalize skip spaced longer = behind at *
  cases hskip with
  | closed => exact .inside _ (skip_suffix spaced more)
  | swallowed => exact .failed
  | @cons rest _ c h =>
      by_cases hbrace : c = '\x7b'
      · subst hbrace
        exact (readBraced_agrees hmore h (Nat.lt_succ_self _) (Nat.lt_succ_self _)).bind
          (fun name rest longer hrest h => .read _ (hrest.trans (suffix_of_cons hown)) h)
          fun name longer hlonger => .some hlonger
      · by_cases hslash : c = '\\'
        · subst hslash
          exact .failed
        · simp only
          exact .read _ ((skip_suffix spaced rest).trans (suffix_of_cons hown))
            (h.skip hmore spaced)

omit hmore in
def namedBoundary : List Char × List Char → Option (Assertion × List Char)
  | (name, '\x7d' :: rest) =>
    match String.ofList name with
    | "start" => some (.wordStart, rest)
    | "end" => some (.wordEnd, rest)
    | "start-half" => some (.wordStartHalf, rest)
    | "end-half" => some (.wordEndHalf, rest)
    | _ => none
  | _ => none

omit hmore in
theorem readBoundary_brace (inner : List Char) :
    readBoundary spaced ('\x7b' :: inner) =
      match skip spaced inner with
      | [] => none
      | first :: rest =>
        if !isBoundaryLetter first then some (.wordBoundary, '\x7b' :: inner)
        else namedBoundary (readBoundaryName spaced (rest.length + 1) (first :: rest)) := rfl

omit hmore in
private theorem namedBoundary_agrees (name : List Char) (h : Extends more text longer) :
    Agrees more room text (namedBoundary (name, text)) (namedBoundary (name, longer)) := by
  cases h with
  | closed => exact .failed
  | swallowed => exact .failed
  | @cons rest behind c h =>
      by_cases hclose : c = '\x7d'
      · subst hclose
        simp only [namedBoundary]
        split <;> first | exact .failed | exact .read _ (List.suffix_cons '\x7d' rest) h
      · simp only [namedBoundary, Prod.mk.injEq, List.cons.injEq, hclose, false_and, and_false,
          imp_self, implies_true]
        exact .failed

private theorem readBoundary_agrees (h : Extends more text longer)
    (hopen : ¬ IsOpenBoundary spaced text) :
    Agrees more more text (readBoundary spaced text)
      (readBoundary spaced longer) := by
  cases h with
  | closed => exact .read _ List.suffix_rfl .closed
  | swallowed => exact .read _ List.suffix_rfl .swallowed
  | @cons rest behind c h =>
      by_cases hbrace : c = '\x7b'
      · subst hbrace
        have hskip := h.skip hmore spaced
        have hown := (skip_suffix spaced rest).trans (List.suffix_cons '\x7b' rest)
        have hnonempty : skip spaced rest ≠ [] := fun hempty => hopen ⟨rest, rfl, hempty⟩
        rw [readBoundary_brace, readBoundary_brace]
        generalize skip spaced rest = front at *
        generalize skip spaced behind = follow at *
        cases hskip with
        | closed => exact absurd rfl hnonempty
        | swallowed => exact absurd rfl hnonempty
        | @cons inner last d hrest =>
            dsimp only
            split
            · exact .read _ List.suffix_rfl (.cons _ h)
            · have hname : Agrees more [] (d :: inner)
                  (some (readBoundaryName spaced (inner.length + 1) (d :: inner)))
                  (some (readBoundaryName spaced (last.length + 1) (d :: last))) := by
                rw [readBoundaryName_eq, readBoundaryName_eq]
                exact readWhile_agrees isBoundaryLetter_parenthesis hmore (.cons d hrest)
                  (Nat.le_refl _) (Nat.le_refl _)
              change Agrees more more _ ((some _).bind namedBoundary) ((some _).bind namedBoundary)
              refine hname.bind (fun name rest behind hleft h => ?_) fun name behind hbehind => ?_
              · exact (namedBoundary_agrees name h).within (hleft.trans hown)
              · rw [List.suffix_nil.mp hbehind]
                exact .none
      · simp only [readBoundary, List.cons.injEq, hbrace, false_and, imp_self, implies_true]
        exact .read _ List.suffix_rfl (.cons c h)

theorem readEscape_agrees (h : Extends more text longer)
    (hopen : ¬ ∃ name, text = 'b' :: name ∧ IsOpenBoundary spaced name) :
    Agrees more more text (readEscape spaced text) (readEscape spaced longer) := by
  cases h with
  | closed => exact .inside _ List.suffix_rfl
  | swallowed => exact .failed
  | @cons rest behind c h =>
      have hrest := List.suffix_cons c rest
      have hnamed (unequal : Bool → Bool) : Agrees more more (c :: rest)
          ((readNamedClass spaced rest).map fun named =>
            (Ast.unicode named.1.query (unequal named.1.unequal), named.2))
          ((readNamedClass spaced behind).map fun named =>
            (Ast.unicode named.1.query (unequal named.1.unequal), named.2)) :=
        ((readNamedClass_agrees hmore h).map
          fun named => Ast.unicode named.query (unequal named.unequal)).within hrest
      unfold readEscape
      dsimp only
      split
      case h_4 => exact hnamed id
      case h_5 => exact hnamed not
      case h_20 =>
        have hname : ¬ IsOpenBoundary spaced rest := fun hrest => hopen ⟨rest, rfl, hrest⟩
        exact ((readBoundary_agrees hmore h hname).map _).within hrest
      all_goals first
        | exact .read _ hrest h
        | exact ((readHex_agrees hmore _ h).map _).within hrest
        | skip
      split
      · exact .read _ hrest h
      · exact .failed

end

end

/-! ## Bracketed classes -/

private theorem asciiKind?_parenthesis {name : List Char} (h : ')' ∈ name) :
    asciiKind? (String.ofList name) = none := by
  unfold asciiKind?
  split <;> first
    | rfl
    | next hname =>
        have hlist := congrArg String.toList hname
        rw [String.toList_ofList] at hlist
        rw [hlist] at h
        exact absurd h (by decide +kernel)

def asciiClass? (negated : Bool) (text : List Char) : Option (ClassSet × List Char) :=
  (asciiKind? (String.ofList (text.takeWhile (· != ':')))).bind fun kind =>
    (after? [':', ']'] (text.dropWhile (· != ':'))).bind fun rest =>
      some (.ascii kind negated, rest)

theorem asciiClass?_agrees (room : List Char) (negated : Bool) (h : Extends more text longer) :
    Agrees more room text (asciiClass? negated text) (asciiClass? negated longer) ∧
      (asciiClass? negated text = none → asciiClass? negated longer = none) := by
  obtain ⟨front, rest, behind, hfront, rfl, rfl, hrest⟩ | ⟨hmark, hlonger⟩ := h.mark_cases ':'
  · simp only [asciiClass?, takeWhile_front hfront, dropWhile_front hfront]
    cases asciiKind? (String.ofList front) with
    | none => exact ⟨.failed, id⟩
    | some kind =>
        cases hrest with
        | closed => exact ⟨.failed, fun _ => rfl⟩
        | swallowed => exact ⟨.failed, id⟩
        | @cons rest _ c hrest =>
            by_cases hc : c = ']'
            · subst hc
              refine ⟨.read _ ?_ hrest, fun hnone => nomatch hnone⟩
              exact suffix_of_cons (suffix_of_cons (List.suffix_append front _))
            · simp only [after?, if_neg (Ne.symm hc)]
              exact ⟨.failed, fun _ => rfl⟩
  · have hown : asciiClass? negated text = none := by
      rw [asciiClass?, dropWhile_of_not_mem hmark]
      cases asciiKind? _ <;> rfl
    have hother : asciiClass? negated longer = none := by
      obtain rfl | rfl := hlonger
      · exact hown
      · rw [asciiClass?, asciiKind?_parenthesis (parenthesis_mem_takeWhile hmark (by decide) more)]
        rfl
    rw [hown, hother]
    exact ⟨.failed, id⟩

theorem readAsciiClass?_agrees (room : List Char) (h : Extends more text longer) :
    Agrees more room text (readAsciiClass? text) (readAsciiClass? longer) ∧
      (readAsciiClass? text = none → readAsciiClass? longer = none) := by
  cases h with
  | closed => exact asciiClass?_agrees room false .closed
  | swallowed => exact asciiClass?_agrees room false .swallowed
  | @cons rest behind c h =>
      by_cases hc : c = '^'
      · subst hc
        obtain ⟨hagrees, hnone⟩ := asciiClass?_agrees room true h
        exact ⟨hagrees.within (List.suffix_cons '^' rest), hnone⟩
      · have hplain (text : List Char) :
            readAsciiClass? (c :: text) = asciiClass? false (c :: text) := by
          simp only [readAsciiClass?]
          split
          next heq => exact absurd (List.cons.inj heq).1 hc
          next => rfl
        rw [hplain, hplain]
        exact asciiClass?_agrees room false (.cons c h)

section

variable {spaced : Bool} (hmore : '\n' ∉ more)

def escapeItem : Ast × List Char → Option (ClassSet × List Char)
  | (.literal literal, rest) => some (.literal literal, rest)
  | (.shorthand kind negated, rest) => some (.shorthand kind negated, rest)
  | (.unicode query negated, rest) => some (.unicode query negated, rest)
  | _ => none

theorem readClassItem_escape (rest : List Char) :
    readClassItem spaced ('\\' :: rest) = (readEscape spaced rest).bind escapeItem := by
  rw [readClassItem]
  cases readEscape spaced rest with
  | none => rfl
  | some read =>
      obtain ⟨ast, behind⟩ := read
      cases ast <;> rfl

theorem readEscape_boundary (text : List Char) :
    (readEscape spaced ('b' :: text)).bind escapeItem = none := by
  change ((readBoundary spaced text).map fun read => (Ast.assertion read.1, read.2)).bind _ = none
  cases readBoundary spaced text <;> rfl

def rangeTo (first : ClassSet) : ClassSet × List Char → Option (ClassSet × List Char)
  | (last, rest) =>
    match first, last with
    | .literal first, .literal last => do
      guard (first.char ≤ last.char)
      return (.range first last, rest)
    | _, _ => none

/-- What follows the first member of a range: a hyphen and the last member, unless the hyphen
stands for itself, or anything else if there is no range. -/
def rangeFrom (spaced : Bool) (first : ClassSet) (text : List Char) :
    Option (ClassSet × List Char) :=
  match skip spaced text with
  | [] => none
  | '-' :: rest =>
    let next := peekAfter spaced rest
    if next = some ']' ∨ next = some '-' then some (first, '-' :: rest)
    else
      match skip spaced rest with
      | [] => none
      | rest => (readClassItem spaced rest).bind (rangeTo first)
  | rest => some (first, rest)

theorem readClassRange_eq (text : List Char) :
    readClassRange spaced text =
      (readClassItem spaced text).bind fun item => rangeFrom spaced item.1 item.2 := by
  rfl

theorem rangeTo_shrinks (first last : ClassSet) {rest : List Char} (h : rest <:+ text) :
    Shrinks text (rangeTo first (last, rest)) := by
  cases first <;> first | exact .none | skip
  cases last <;> first | exact .none | skip
  exact .after fun _ => .some h

private theorem rangeTo_agrees (first last : ClassSet) {rest : List Char} (hrest : rest <:+ text)
    (h : Extends more rest longer) :
    Agrees more room text (rangeTo first (last, rest)) (rangeTo first (last, longer)) := by
  cases first <;> first | exact .failed | skip
  cases last <;> first | exact .failed | skip
  exact .after fun _ => .read _ hrest h

include hmore

theorem readClassItem_agrees (h : Extends more text longer) :
    Agrees more more text.tail (readClassItem spaced text)
      (readClassItem spaced longer) := by
  cases h with
  | closed => exact .inside _ List.suffix_rfl
  | swallowed => exact .failed
  | @cons rest behind c h =>
      by_cases hc : c = '\\'
      · subst hc
        rw [readClassItem_escape, readClassItem_escape]
        by_cases hopen : ∃ name, rest = 'b' :: name ∧ IsOpenBoundary spaced name
        · obtain ⟨name, rfl, -⟩ := hopen
          cases h with
          | cons _ h =>
              rw [readEscape_boundary, readEscape_boundary]
              exact .failed
        · refine (readEscape_agrees hmore h hopen).bind (fun ast rest behind hrest h => ?_)
            fun ast behind hbehind => ?_
          · cases ast <;> first | exact .failed | exact .read _ hrest h
          · cases ast <;> first | exact .none | exact .some hbehind
      · simp only [readClassItem]
        exact .read _ List.suffix_rfl h

theorem rangeFrom_agrees (first : ClassSet) (h : Extends more text longer) :
    Agrees more (')' :: more) text (rangeFrom spaced first text)
      (rangeFrom spaced first longer) := by
  rw [rangeFrom, rangeFrom]
  have hskip := h.skip hmore spaced
  have hown := skip_suffix spaced text
  generalize skip spaced text = front at *
  generalize skip spaced longer = behind at *
  cases hskip with
  | closed => exact .inside _ List.suffix_rfl
  | swallowed => exact .failed
  | @cons rest behind c h =>
      by_cases hc : c = '-'
      · subst hc
        simp only [h.peekAfter_eq_iff spaced (show ']' ≠ ')' by decide),
          h.peekAfter_eq_iff spaced (show '-' ≠ ')' by decide)]
        split
        · exact .read _ hown (.cons '-' h)
        · have hrest := skip_suffix spaced rest
          have hlast := h.skip hmore spaced
          generalize skip spaced rest = front at *
          generalize skip spaced behind = last at *
          cases hlast with
          | closed => exact .of_shrinks (rangeTo_shrinks first _ (List.suffix_cons ')' more))
          | swallowed => exact .failed
          | cons d h =>
              have hbehind := (suffix_of_cons hrest).trans (suffix_of_cons hown)
              exact (readClassItem_agrees hmore (.cons d h)).bind
                (fun last rest longer hlast h =>
                  rangeTo_agrees first last (hlast.trans hbehind) h)
                fun last longer hlonger => rangeTo_shrinks first last
                  (hlonger.trans (List.suffix_cons ')' more))
      · simp only [List.cons.injEq, hc, false_and, imp_self, implies_true]
        exact .read _ hown (.cons c h)

theorem readClassRange_agrees (h : Extends more text longer) :
    Agrees more (')' :: more) text.tail (readClassRange spaced text)
      (readClassRange spaced longer) := by
  rw [readClassRange_eq, readClassRange_eq]
  exact (readClassItem_agrees hmore h).bind
    (fun first rest longer hrest h => (rangeFrom_agrees hmore first h).within hrest)
    fun first longer hlonger =>
      (rangeFrom_agrees hmore first (.refl more longer)).shrinks.mono
        (hlonger.trans (List.suffix_cons ')' more))

def classFront (spaced negated : Bool) (text : List Char) :
    Option ((Bool × List ClassSet) × List Char) :=
  let (hyphens, rest) := readHyphens spaced (text.length + 1) text
  match hyphens, rest with
  | _, [] => none
  | [], ']' :: rest => some ((negated, [.literal ⟨']', false⟩]), skip spaced rest)
  | hyphens, rest => some ((negated, hyphens), rest)

theorem classFront_agrees (negated : Bool) (h : Extends more text longer) :
    Agrees more (')' :: more) text (classFront spaced negated text)
      (classFront spaced negated longer) := by
  have hhyphens : Agrees more [] text
      (some (readHyphens spaced (text.length + 1) text))
      (some (readHyphens spaced (longer.length + 1) longer)) := by
    rw [readHyphens_eq, readHyphens_eq]
    exact readWhile_agrees rfl hmore h (Nat.le_succ _) (Nat.le_succ _)
  rw [classFront, classFront]
  generalize readHyphens spaced _ text = own at *
  generalize readHyphens spaced _ longer = other at *
  cases hhyphens with
  | read hyphens hleft h =>
      cases h with
      | closed => exact .inside _ List.suffix_rfl
      | swallowed => exact .failed
      | @cons rest _ c h =>
          cases hyphens with
          | nil =>
              by_cases hc : c = ']'
              · subst hc
                exact .read _ ((skip_suffix spaced rest).trans (suffix_of_cons hleft))
                  (h.skip hmore spaced)
              · simp only [List.cons.injEq, hc, false_and, imp_self, implies_true]
                exact .read _ hleft (.cons c h)
          | cons hyphen hyphens =>
              simp only
              exact .read _ hleft (.cons c h)

def classStart (spaced : Bool) (text : List Char) : Option ((Bool × List ClassSet) × List Char) :=
  match skip spaced text with
  | '^' :: rest => classFront spaced true (skip spaced rest)
  | rest => classFront spaced false rest

omit hmore in
theorem readClassStart_eq (text : List Char) :
    readClassStart spaced text =
      (classStart spaced text).map fun read => (read.1.1, read.1.2, read.2) := by
  have hfront (negated : Bool) (text : List Char) :
      (match readHyphens spaced (text.length + 1) text with
        | (hyphens, text) =>
          match hyphens, text with
          | _, [] => none
          | [], ']' :: rest =>
            some (negated, [ClassSet.literal ⟨']', false⟩], skip spaced rest)
          | hyphens, text => some (negated, hyphens, text)) =
        (classFront spaced negated text).map fun read => (read.1.1, read.1.2, read.2) := by
    rw [classFront]
    generalize readHyphens spaced _ text = run
    obtain ⟨hyphens, rest⟩ := run
    dsimp only
    split <;> rfl
  rw [readClassStart, classStart]
  generalize skip spaced text = front
  cases front with
  | nil => exact hfront false []
  | cons c rest =>
      by_cases hc : c = '^'
      · subst hc
        exact hfront true (skip spaced rest)
      · simp only [List.cons.injEq, hc, false_and, imp_self, implies_true]
        exact hfront false (c :: rest)

theorem classStart_agrees (h : Extends more text longer) :
    Agrees more (')' :: more) text (classStart spaced text)
      (classStart spaced longer) := by
  rw [classStart, classStart]
  have hskip := h.skip hmore spaced
  have hown := skip_suffix spaced text
  generalize skip spaced text = front at *
  generalize skip spaced longer = behind at *
  cases hskip with
  | closed => exact (classFront_agrees hmore false .closed).within hown
  | swallowed => exact (classFront_agrees hmore false .swallowed).within hown
  | @cons rest _ c h =>
      by_cases hc : c = '^'
      · subst hc
        exact (classFront_agrees hmore true (h.skip hmore spaced)).within
          ((skip_suffix spaced rest).trans (suffix_of_cons hown))
      · simp only [List.cons.injEq, hc, false_and, imp_self, implies_true]
        exact (classFront_agrees hmore false (.cons c h)).within hown

omit hmore in
private theorem readClassRange_shrinks (spaced : Bool) (text : List Char) :
    Shrinks text.tail (readClassRange spaced text) :=
  (readClassRange_agrees List.not_mem_nil (.refl [] text)).shrinks

omit hmore in
theorem classStart_shrinks (spaced : Bool) (text : List Char) :
    Shrinks text (classStart spaced text) :=
  (classStart_agrees List.not_mem_nil (.refl [] text)).shrinks

end

/-! ### Members of a class -/

def operationOf? (first second : Char) : Option SetOperation :=
  if first ≠ second then none
  else if first = '&' then some .intersection
  else if first = '-' then some .difference
  else if first = '~' then some .symmetricDifference
  else none

private theorem operationOf?_parenthesis (c : Char) : operationOf? c ')' = none := by
  by_cases hc : c = ')'
  · subst hc
    rfl
  · simp [operationOf?, hc]

def operationAt : List Char → Option (SetOperation × List Char)
  | first :: second :: rest => (operationOf? first second).map (·, rest)
  | _ => none

private theorem operationAt_shrinks (text : List Char) : Shrinks text.tail (operationAt text) := by
  intro operation rest h
  match text, h with
  | [], h => cases h
  | [_], h => cases h
  | first :: second :: behind, h =>
      rw [operationAt, Option.map_eq_some_iff] at h
      obtain ⟨_, -, h⟩ := h
      cases h
      exact List.suffix_cons second _

def nestedClass (spaced : Bool)
    (next : PendingOperation → List ClassSet → List Char → Option (ClassSet × List Char))
    (pending : PendingOperation) (sets : List ClassSet) (text : List Char) :
    Option (ClassSet × List Char) :=
  (classStart spaced text).bind fun start =>
    (next none start.1.2 start.2).bind fun inner =>
      next pending (sets ++ [.bracket inner.1 start.1.1]) inner.2

def classStep (spaced : Bool)
    (next : PendingOperation → List ClassSet → List Char → Option (ClassSet × List Char))
    (pending : PendingOperation) (sets : List ClassSet) (text : List Char) :
    Option (ClassSet × List Char) :=
  match text with
  | [] => none
  | c :: rest =>
    if c = '[' then
      match rest with
      | ':' :: name =>
        match readAsciiClass? name with
        | some (set, rest) => next pending (sets ++ [set]) rest
        | none => nestedClass spaced next pending sets (':' :: name)
      | _ => nestedClass spaced next pending sets rest
    else if c = ']' then some (completeOperation pending sets, rest)
    else
      match operationAt (c :: rest) with
      | some (operation, rest) => next (some (operation, completeOperation pending sets)) [] rest
      | none => (readClassRange spaced (c :: rest)).bind fun range =>
        next pending (sets ++ [range.1]) range.2

theorem readClassBody_succ (spaced : Bool) (fuel : Nat) (pending : PendingOperation)
    (sets : List ClassSet) (text : List Char) :
    readClassBody spaced (fuel + 1) pending sets text =
      classStep spaced (readClassBody spaced fuel) pending sets (skip spaced text) := by
  have hnested (rest : List Char) :
      (readClassStart spaced rest).bind (fun start =>
        (readClassBody spaced fuel none start.2.1 start.2.2).bind fun inner =>
          readClassBody spaced fuel pending (sets ++ [.bracket inner.1 start.1]) inner.2) =
      nestedClass spaced (readClassBody spaced fuel) pending sets rest := by
    rw [readClassStart_eq, Option.bind_map]
    rfl
  rw [readClassBody]
  unfold classStep
  generalize skip spaced text = front
  dsimp only
  split
  · rfl
  next name =>
    simp only [↓reduceIte]
    cases readAsciiClass? name with
    | none => exact hnested _
    | some set => rfl
  next rest hcolon =>
    simp only [↓reduceIte]
    exact hnested rest
  · simp
  · simp [operationAt, operationOf?]
  · simp [operationAt, operationOf?]
  · simp [operationAt, operationOf?]
  next hnil hcolon hbracket hclose hand hminus htilde =>
    cases front with
    | nil => exact absurd rfl hnil
    | cons c rest =>
        have hopening : c ≠ '[' := fun hc => hbracket rest (by rw [hc])
        have hclosing : c ≠ ']' := fun hc => hclose rest (by rw [hc])
        have hoperation : operationAt (c :: rest) = none := by
          cases rest with
          | nil => rfl
          | cons d rest =>
              have hand := hand rest
              have hminus := hminus rest
              have htilde := htilde rest
              grind [operationAt, operationOf?]
        simp only [hopening, hclosing, hoperation, ↓reduceIte]
        rfl

private theorem operationAt_cases (h : Extends more text longer) :
    (operationAt text = none ∧ operationAt longer = none) ∨
    ∃ operation rest behind, operationAt text = some (operation, rest) ∧
      operationAt longer = some (operation, behind) ∧ Extends more rest behind ∧
      rest <:+ text.tail := by
  cases h with
  | closed => exact .inl ⟨rfl, by cases more <;> simp [operationAt, operationOf?]⟩
  | swallowed => exact .inl ⟨rfl, rfl⟩
  | cons c h =>
      cases h with
      | closed => exact .inl ⟨rfl, by rw [operationAt, operationOf?_parenthesis, Option.map_none]⟩
      | swallowed => exact .inl ⟨rfl, rfl⟩
      | @cons rest behind d h =>
          cases hoperation : operationOf? c d with
          | none =>
              exact .inl ⟨by simp [operationAt, hoperation], by simp [operationAt, hoperation]⟩
          | some operation =>
              exact .inr ⟨operation, rest, behind, by simp [operationAt, hoperation],
                by simp [operationAt, hoperation], h, List.suffix_cons d rest⟩

section

variable {spaced : Bool} {pending : PendingOperation} {sets : List ClassSet}
  {next other : PendingOperation → List ClassSet → List Char → Option (ClassSet × List Char)}

section

variable (hnext : ∀ pending sets rest, Shrinks rest.tail (next pending sets rest))

include hnext

theorem nestedClass_shrinks (pending : PendingOperation) (sets : List ClassSet)
    (text : List Char) : Shrinks text.tail (nestedClass spaced next pending sets text) := by
  refine (classStart_shrinks spaced text).bind fun start rest hrest =>
    (hnext none start.2 rest).bind fun set inner hinner => ?_
  exact (hnext pending _ inner).mono
    (((List.tail_suffix inner).trans hinner).trans (tail_suffix_tail hrest))

theorem classStep_shrinks :
    Shrinks text.tail (classStep spaced next pending sets text) := by
  unfold classStep
  split
  · exact .none
  next c rest =>
    rw [List.tail_cons]
    split
    · split
      next name =>
        split
        next set behind hset =>
          have hbehind := (readAsciiClass?_agrees [] (.refl [] name)).1.shrinks set behind hset
          exact (hnext pending _ behind).mono
            (((List.tail_suffix behind).trans hbehind).trans (List.suffix_cons ':' name))
        next => exact (nestedClass_shrinks hnext pending sets _).mono (List.tail_suffix _)
      next => exact (nestedClass_shrinks hnext pending sets _).mono (List.tail_suffix _)
    split
    · exact .some List.suffix_rfl
    split
    next operation behind hoperation =>
      have hbehind := operationAt_shrinks _ operation behind hoperation
      exact (hnext _ [] behind).mono ((List.tail_suffix behind).trans hbehind)
    next =>
      exact (readClassRange_shrinks spaced (c :: rest)).bind fun set behind hbehind =>
        (hnext pending _ behind).mono ((List.tail_suffix behind).trans hbehind)

end

section

variable {size : Nat} (hmore : '\n' ∉ more)
  (hother : ∀ pending sets rest, Shrinks rest.tail (other pending sets rest))
  (hnext : ∀ pending sets {rest behind}, Extends more rest behind → rest.length < size →
    Agrees more more rest (next pending sets rest) (other pending sets behind))

include hmore hother hnext

theorem nestedClass_agrees (h : Extends more text longer) (hsize : text.length < size) :
    Agrees more more text (nestedClass spaced next pending sets text)
      (nestedClass spaced other pending sets longer) := by
  refine (classStart_agrees hmore h).bind (fun start rest behind hrest h => ?_)
    fun start behind hbehind => ?_
  · have hless := hrest.length_le
    refine (hnext none start.2 h (by omega)).bind (fun set inner behind hinner h => ?_)
      fun set behind hbehind => (hother _ _ behind).mono ((List.tail_suffix behind).trans hbehind)
    have hinnerLess := hinner.length_le
    exact (hnext _ _ h (by omega)).within (hinner.trans hrest)
  · refine (hother none start.2 behind).bind fun set rest hrest => (hother _ _ rest).mono ?_
    exact ((List.tail_suffix rest).trans hrest).trans (tail_suffix_tail hbehind)

private theorem classStep_agrees (h : Extends more text longer) (hsize : text.length ≤ size) :
    Agrees more more text (classStep spaced next pending sets text)
      (classStep spaced other pending sets longer) := by
  cases h with
  | closed => exact .of_shrinks (classStep_shrinks hother)
  | swallowed => exact .failed
  | @cons rest behind c h =>
      rw [List.length_cons] at hsize
      unfold classStep
      dsimp only
      split
      · cases h with
        | closed =>
            exact (nestedClass_agrees hmore hother hnext .closed hsize).within
              (List.suffix_cons c [])
        | swallowed =>
            exact (nestedClass_agrees hmore hother hnext .swallowed hsize).within
              (List.suffix_cons c [])
        | @cons name nameBehind d h =>
            by_cases hd : d = ':'
            · subst hd
              obtain ⟨hclass, hnone⟩ := readAsciiClass?_agrees [] h
              simp only
              generalize readAsciiClass? name = own at *
              generalize readAsciiClass? nameBehind = class? at *
              cases hclass with
              | failed =>
                  exact (nestedClass_agrees hmore hother hnext (.cons ':' h) hsize).within
                    (List.suffix_cons c _)
              | read set hset h =>
                  have hless := hset.length_le
                  simp only [List.length_cons] at hsize
                  exact (hnext pending _ h (by omega)).within
                    ((hset.trans (List.suffix_cons ':' name)).trans (List.suffix_cons c _))
              | inside set => exact nomatch hnone rfl
            · simp only [List.cons.injEq, hd, false_and, imp_self, implies_true]
              exact (nestedClass_agrees hmore hother hnext (.cons d h) hsize).within
                (List.suffix_cons c _)
      split
      · exact .read _ (List.suffix_cons c rest) h
      obtain ⟨hown, hlonger⟩ | ⟨operation, inner, behind, hown, hlonger, hoperation, hinner⟩ :=
        operationAt_cases (.cons c h)
      · rw [hown, hlonger]
        refine (readClassRange_agrees hmore (.cons c h)).bind (fun set rest behind hrest h => ?_)
          fun set behind hbehind => (hother _ _ behind).mono (tail_suffix_tail hbehind)
        have hless := hrest.length_le
        rw [List.tail_cons] at hless
        exact (hnext pending _ h (by omega)).within (hrest.trans (List.suffix_cons c _))
      · rw [hown, hlonger]
        have hless := hinner.length_le
        rw [List.tail_cons] at hless
        exact (hnext _ _ hoperation (by omega)).within (hinner.trans (List.suffix_cons c rest))

end

theorem readClassBody_shrinks (fuel : Nat) (pending : PendingOperation) (sets : List ClassSet)
    (text : List Char) :
    Shrinks text.tail (readClassBody spaced fuel pending sets text) := by
  induction fuel generalizing pending sets text with
  | zero => exact .none
  | succ fuel ih =>
      have hskip := skip_suffix spaced text
      rw [readClassBody_succ]
      exact (classStep_shrinks ih).mono (tail_suffix_tail hskip)

private theorem readClassBody_agrees (hmore : '\n' ∉ more) {fuel other : Nat}
    (pending : PendingOperation) (sets : List ClassSet) (h : Extends more text longer)
    (hfuel : text.length < fuel) (hother : text.length + more.length + 1 < other) :
    Agrees more more text (readClassBody spaced fuel pending sets text)
      (readClassBody spaced other pending sets longer) := by
  induction fuel generalizing other pending sets text longer with
  | zero => omega
  | succ fuel ih =>
      obtain ⟨other, rfl⟩ := Nat.exists_eq_add_of_lt (show 0 < other by omega)
      have hskip := skip_suffix spaced text
      rw [Nat.zero_add, readClassBody_succ, readClassBody_succ]
      refine (classStep_agrees hmore (readClassBody_shrinks other) (fun pending sets rest behind h
        hrest => ?_) (h.skip hmore spaced) hskip.length_le).within hskip
      exact ih pending sets h (by omega) (by omega)

theorem readClass_eq (text : List Char) :
    readClass spaced text = (classStart spaced text).bind fun start =>
      (readClassBody spaced (text.length + 1) none start.1.2 start.2).bind fun body =>
        some (.bracket body.1 start.1.1, body.2) := by
  change (readClassStart spaced text).bind (fun start =>
      (readClassBody spaced (text.length + 1) none start.2.1 start.2.2).bind fun body =>
        some (Ast.bracket body.1 start.1, body.2)) = _
  rw [readClassStart_eq, Option.bind_map]
  rfl

private theorem readClass_shrinks (text : List Char) :
    Shrinks text (readClass spaced text) := by
  rw [readClass_eq]
  refine (classStart_shrinks spaced text).bind fun start rest hrest => ?_
  exact (readClassBody_shrinks _ none start.2 rest).bind fun body behind hbehind =>
    .some (hbehind.trans ((List.tail_suffix rest).trans hrest))

theorem readClass_agrees (hmore : '\n' ∉ more) (h : Extends more text longer) :
    Agrees more more text (readClass spaced text) (readClass spaced longer) := by
  obtain rfl | hlonger := h.eq_or_eq_append
  · exact .refl (readClass_shrinks longer)
  · have hlength : longer.length = text.length + more.length + 1 := by
      rw [hlonger, List.length_append, List.length_cons, Nat.add_assoc]
    rw [readClass_eq, readClass_eq]
    refine (classStart_agrees hmore h).bind (fun start rest behind hrest h => ?_)
      fun start behind hbehind => ?_
    · have hless := hrest.length_le
      exact (readClassBody_agrees hmore none start.2 h (by omega) (by omega)).bind
        (fun body rest behind hbody h => .read _ (hbody.trans hrest) h)
        fun body behind hbehind => .some hbehind
    · exact (readClassBody_shrinks _ none start.2 behind).bind fun body rest hrest =>
        .some (hrest.trans (tail_suffix_tail hbehind))

end

end Runbook.Pattern
