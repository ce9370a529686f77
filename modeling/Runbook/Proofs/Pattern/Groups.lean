import Runbook.Proofs.Pattern.Classes
import Runbook.Proofs.Pattern.Openings

/-!
# Groups

The body of a group is read alike in front of its closing parenthesis and at the end of the text,
unless what stands there is taken for a part of the body.
-/

namespace Runbook.Pattern

variable {more text longer room : List Char}

/-! ## Bodies of groups -/

def Reading.repeated (reading : Reading) (read : Counts × List Char) :
    Option (Reading × List Char) :=
  (repeatLast read.1 reading.parts).map fun parts => ({ reading with parts }, read.2)

def readPart (spaced : Bool) (reading : Reading) (c : Char) (rest : List Char) :
    Option (Reading × List Char) :=
  match c with
  | '|' => some (reading.nextBranch, rest)
  | '[' => (readClass spaced rest).map fun read => (reading.push read.1, read.2)
  | '?' => reading.repeated (readGreed 0 (some 1) rest)
  | '*' => reading.repeated (readGreed 0 none rest)
  | '+' => reading.repeated (readGreed 1 none rest)
  | '\x7b' => (readCounts spaced rest).bind reading.repeated
  | '\\' => (readEscape spaced rest).map fun read => (reading.push read.1, read.2)
  | '.' => some (reading.push .dot, rest)
  | '^' => some (reading.push (.assertion .startLine), rest)
  | '$' => some (reading.push (.assertion .endLine), rest)
  | c => some (reading.push (.literal ⟨c, false⟩), rest)

section

variable {spaced : Bool} {reading : Reading}

theorem repeated_agrees {own other : Counts × List Char}
    (h : Agrees more room text (some own) (some other)) :
    Agrees more room text (reading.repeated own) (reading.repeated other) := by
  cases h with
  | read counts hrest h =>
      rw [Reading.repeated, Reading.repeated]
      cases repeatLast counts reading.parts with
      | none => exact .failed
      | some parts => exact .read _ hrest h

private theorem repeated_shrinks {read : Counts × List Char} (h : read.2 <:+ text) :
    Shrinks text (reading.repeated read) := by
  rw [Reading.repeated]
  cases repeatLast read.1 reading.parts with
  | none => exact .none
  | some parts => exact .some h

theorem readPart_agrees (hmore : '\n' ∉ more) {c : Char} (h : Extends more text longer)
    (hopen : c = '\\' → ¬ ∃ name, text = 'b' :: name ∧ IsOpenBoundary spaced name) :
    Agrees more more text (readPart spaced reading c text)
      (readPart spaced reading c longer) := by
  unfold readPart
  split
  all_goals first
    | exact .read _ List.suffix_rfl h
    | exact repeated_agrees (readGreed_agrees _ _ h)
    | skip
  · exact (readClass_agrees hmore h).map reading.push
  · exact (readCounts_agrees hmore more h).bind
      (fun counts rest behind hrest h => repeated_agrees (.read counts hrest h))
      fun counts behind hbehind => repeated_shrinks hbehind
  · exact (readEscape_agrees hmore h (hopen rfl)).map reading.push

theorem readEscape_open {name : List Char} (h : IsOpenBoundary spaced name) :
    readEscape spaced ('b' :: name) = none := by
  obtain ⟨inner, rfl, hinner⟩ := h
  simp only [readEscape, readBoundary, hinner]
  rfl

private theorem readPart_shrinks (c : Char) (text : List Char) :
    Shrinks text (readPart spaced reading c text) := by
  by_cases hopen : c = '\\' ∧ ∃ name, text = 'b' :: name ∧ IsOpenBoundary spaced name
  · obtain ⟨rfl, name, rfl, hname⟩ := hopen
    simp only [readPart, readEscape_open hname]
    exact .none
  · exact (readPart_agrees List.not_mem_nil (.refl [] text)
      fun hc hname => hopen ⟨hc, hname⟩).shrinks

end

/-- What reads one group up to its closing parenthesis or the end of the text. -/
abbrev GroupReader :=
  Bool → Captures → Reading → List Char → Option ((Ast × Captures) × List Char)

def readGrouped (next : GroupReader) (inside outside : Bool) (captures : Captures)
    (close : Ast → Ast) (reading : Reading) (text : List Char) :
    Option ((Ast × Captures) × List Char) :=
  (next inside captures .start text).bind fun body =>
    match body.2 with
    | ')' :: rest => next outside body.1.2 (reading.push (close body.1.1)) rest
    | _ => none

def openGroup (next : GroupReader) (spaced : Bool) (captures : Captures) (reading : Reading) :
    Opening × List Char → Option ((Ast × Captures) × List Char)
  | (.flags change, rest) =>
    next (change.ignoreSpace.getD spaced) captures (reading.push (.flags change)) rest
  | (.group change, rest) =>
    readGrouped next (change.ignoreSpace.getD spaced) spaced captures (.group change) reading rest
  | (.capture name, rest) => (captures.add? name).bind fun captures =>
    readGrouped next spaced spaced captures (.capture captures.count) reading rest

def groupStep (next : GroupReader) : GroupReader := fun spaced captures reading text =>
  match text with
  | [] => some ((reading.close, captures), [])
  | c :: rest =>
    if c = ')' then some ((reading.close, captures), c :: rest)
    else if c = '(' then
      (readOpening spaced rest).bind (openGroup next spaced captures reading)
    else
      (readPart spaced reading c rest).bind fun part => next spaced captures part.1 part.2

/-- The reader of groups, with what is read on one side and the rest on the other. -/
def readGroup (fuel : Nat) : GroupReader := fun spaced captures reading text =>
  (readBody fuel spaced captures reading text).map fun read => ((read.1, read.2.1), read.2.2)

theorem readGrouped_readGroup (fuel : Nat) (inside outside : Bool) (captures : Captures)
    (close : Ast → Ast) (reading : Reading) (text : List Char) :
    readGrouped (readGroup fuel) inside outside captures close reading text =
      ((readBody fuel inside captures .start text).bind fun body =>
        match body.2.2 with
        | ')' :: rest => readBody fuel outside body.2.1 (reading.push (close body.1)) rest
        | _ => none).map fun read => ((read.1, read.2.1), read.2.2) := by
  rw [readGrouped, readGroup]
  cases readBody fuel inside captures .start text with
  | none => rfl
  | some body =>
      simp only [Option.map_some, Option.bind_some]
      split <;> rfl

theorem readGroup_succ (fuel : Nat) (spaced : Bool) (captures : Captures) (reading : Reading)
    (text : List Char) :
    readGroup (fuel + 1) spaced captures reading text =
      groupStep (readGroup fuel) spaced captures reading (skip spaced text) := by
  have hrepeated (read : Counts × List Char) :
      ((repeatLast read.1 reading.parts).bind fun parts =>
        readBody fuel spaced captures { reading with parts } read.2).map
          (fun read => ((read.1, read.2.1), read.2.2)) =
      (reading.repeated read).bind fun part => readGroup fuel spaced captures part.1 part.2 := by
    rw [Reading.repeated]
    cases repeatLast read.1 reading.parts <;> rfl
  rw [readGroup, readBody]
  unfold groupStep
  generalize skip spaced text = front
  dsimp only
  split
  · rfl
  · rfl
  · rfl
  next rest =>
    simp only [↓reduceIte, Char.reduceEq]
    cases readOpening spaced rest with
    | none => rfl
    | some opening =>
        obtain ⟨opening, rest⟩ := opening
        cases opening with
        | flags change => rfl
        | group change =>
            simp only [Option.bind_some, openGroup, readGrouped_readGroup]
            rfl
        | capture name =>
            simp only [Option.bind_some, openGroup, readGrouped_readGroup]
            change ((captures.add? name).bind _).map _ = _
            cases captures.add? name <;> rfl
  next rest =>
    simp only [↓reduceIte, Char.reduceEq, readPart]
    cases readClass spaced rest <;> rfl
  · exact hrepeated _
  · exact hrepeated _
  · exact hrepeated _
  next rest =>
    simp only [↓reduceIte, Char.reduceEq, readPart]
    cases readCounts spaced rest with
    | none => rfl
    | some read => exact hrepeated read
  next rest =>
    simp only [↓reduceIte, Char.reduceEq, readPart]
    cases readEscape spaced rest <;> rfl
  · rfl
  · rfl
  · rfl
  next hclose _ hopen _ _ _ _ _ _ _ _ _ =>
    simp only
    rw [if_neg hclose, if_neg hopen]
    simp only [readPart]
    rfl

section

variable {spaced : Bool} {captures : Captures} {reading : Reading} {next other : GroupReader}
  {read : (Ast × Captures) × List Char}

section

variable (hnext : ∀ spaced captures reading text read,
  next spaced captures reading text = some read → other spaced captures reading text = some read)

include hnext

theorem readGrouped_mono {inside outside : Bool} {close : Ast → Ast}
    (h : readGrouped next inside outside captures close reading text = some read) :
    readGrouped other inside outside captures close reading text = some read := by
  rw [readGrouped, Option.bind_eq_some_iff] at h ⊢
  obtain ⟨body, hbody, hrest⟩ := h
  refine ⟨body, hnext _ _ _ _ _ hbody, ?_⟩
  split at hrest
  · exact hnext _ _ _ _ _ hrest
  · cases hrest

private theorem openGroup_mono {opening : Opening}
    (h : openGroup next spaced captures reading (opening, text) = some read) :
    openGroup other spaced captures reading (opening, text) = some read := by
  cases opening with
  | flags change => exact hnext _ _ _ _ _ h
  | group change => exact readGrouped_mono hnext h
  | capture name =>
      simp only [openGroup, Option.bind_eq_some_iff] at h ⊢
      obtain ⟨captures, hcaptures, hgroup⟩ := h
      exact ⟨captures, hcaptures, readGrouped_mono hnext hgroup⟩

private theorem groupStep_mono (h : groupStep next spaced captures reading text = some read) :
    groupStep other spaced captures reading text = some read := by
  unfold groupStep at h ⊢
  split at h
  · exact h
  split at h
  next hclose => rwa [if_pos hclose]
  next hclose =>
    rw [if_neg hclose]
    split at h
    next hopen =>
      rw [if_pos hopen]
      rw [Option.bind_eq_some_iff] at h ⊢
      obtain ⟨opening, hopening, hgroup⟩ := h
      exact ⟨opening, hopening, openGroup_mono hnext hgroup⟩
    next hopen =>
      rw [if_neg hopen]
      rw [Option.bind_eq_some_iff] at h ⊢
      obtain ⟨part, hpart, hgroup⟩ := h
      exact ⟨part, hpart, hnext _ _ _ _ _ hgroup⟩

end

theorem readGroup_mono {fuel more : Nat} (hmore : fuel ≤ more)
    (h : readGroup fuel spaced captures reading text = some read) :
    readGroup more spaced captures reading text = some read := by
  induction fuel generalizing more spaced captures reading text read with
  | zero => cases h
  | succ fuel ih =>
      obtain ⟨more, rfl⟩ := Nat.exists_eq_add_of_lt (show 0 < more by omega)
      rw [readGroup_succ] at h
      rw [Nat.zero_add, readGroup_succ]
      exact groupStep_mono (fun _ _ _ _ _ => ih (by omega)) h

section

variable (hnext : ∀ spaced captures reading rest,
  Shrinks rest (next spaced captures reading rest))

include hnext

theorem readGrouped_shrinks (inside outside : Bool) (captures : Captures) (close : Ast → Ast)
    (text : List Char) :
    Shrinks text (readGrouped next inside outside captures close reading text) := by
  refine (hnext inside captures .start text).bind fun body rest hrest => ?_
  dsimp only
  split
  next rest =>
    exact (hnext _ _ _ rest).mono (suffix_of_cons hrest)
  next => exact .none

theorem openGroup_shrinks (opening : Opening) (text : List Char) :
    Shrinks text (openGroup next spaced captures reading (opening, text)) := by
  cases opening with
  | flags change => exact hnext _ _ _ text
  | group change => exact readGrouped_shrinks hnext _ _ _ _ text
  | capture name => exact .after fun captures => readGrouped_shrinks hnext _ _ captures _ text

private theorem groupStep_shrinks :
    Shrinks text (groupStep next spaced captures reading text) := by
  unfold groupStep
  split
  · exact .some List.suffix_rfl
  next c rest =>
    split
    · exact .some List.suffix_rfl
    split
    · exact (readOpening_shrinks spaced rest).bind fun opening behind hbehind =>
        (openGroup_shrinks hnext opening behind).mono (hbehind.trans (List.suffix_cons c rest))
    · exact (readPart_shrinks c rest).bind fun part behind hbehind =>
        (hnext _ _ _ behind).mono (hbehind.trans (List.suffix_cons c rest))

end

section

variable {size : Nat} (hmore : '\n' ∉ more) (hname : '>' ∉ more)
  (hother : ∀ spaced captures reading rest,
    Shrinks rest (other spaced captures reading rest))
  (hnext : ∀ spaced captures reading {rest behind}, Extends more rest behind →
    rest.length < size → Agrees more more rest (next spaced captures reading rest)
      (other spaced captures reading behind))

include hother hnext

theorem readGrouped_agrees (inside outside : Bool) (captures : Captures) (close : Ast → Ast)
    (h : Extends more text longer) (hsize : text.length < size) :
    Agrees more more text
      (readGrouped next inside outside captures close reading text)
      (readGrouped other inside outside captures close reading longer) := by
  refine (hnext inside captures .start h hsize).bind (fun body rest behind hrest h => ?_)
    fun body behind hbehind => ?_
  · cases h with
    | closed => exact .of_shrinks (hother _ _ _ more)
    | swallowed => exact .failed
    | @cons rest _ c h =>
        by_cases hc : c = ')'
        · subst hc
          have hless := (suffix_of_cons hrest).length_le
          exact (hnext _ _ _ h (by omega)).within (suffix_of_cons hrest)
        · simp only [List.cons.injEq, hc, false_and, imp_self, implies_true]
          exact .failed
  · dsimp only
    split
    next rest =>
      exact (hother _ _ _ rest).mono (suffix_of_cons hbehind)
    next => exact .none

private theorem openGroup_agrees (opening : Opening) (h : Extends more text longer)
    (hsize : text.length < size) :
    Agrees more more text (openGroup next spaced captures reading (opening, text))
      (openGroup other spaced captures reading (opening, longer)) := by
  cases opening with
  | flags change => exact hnext _ _ _ h hsize
  | group change => exact readGrouped_agrees hother hnext _ _ _ _ h hsize
  | capture name =>
      exact .after fun captures => readGrouped_agrees hother hnext _ _ captures _ h hsize

include hmore hname

private theorem groupStep_agrees (h : Extends more text longer) (hsize : text.length ≤ size)
    (hbrace : ∀ reading inner, skip spaced inner = ')' :: more →
      other spaced captures reading ('\x7b' :: inner) = none) :
    Agrees more more text (groupStep next spaced captures reading text)
      (groupStep other spaced captures reading longer) := by
  cases h with
  | closed => exact .read _ List.suffix_rfl .closed
  | swallowed => exact .read _ List.suffix_rfl .swallowed
  | @cons rest behind c h =>
      rw [List.length_cons] at hsize
      unfold groupStep
      dsimp only
      split
      · exact .read _ List.suffix_rfl (.cons c h)
      split
      · refine (readOpening_agrees hmore hname h).bind (fun opening inner behind hinner h => ?_)
          fun opening behind hbehind => (openGroup_shrinks hother opening behind).mono hbehind
        have hless := hinner.length_le
        exact (openGroup_agrees hother hnext opening h (by omega)).within
          (hinner.trans (List.suffix_cons c rest))
      by_cases hopen : c = '\\' ∧ ∃ name, rest = 'b' :: name ∧ IsOpenBoundary spaced name
      · -- Behind the letter of a word boundary the brace of a name counts for a repetition if no
        -- name can begin there, and then the repetition fails.
        obtain ⟨rfl, name, rfl, hname⟩ := hopen
        have hown := readEscape_open hname
        obtain ⟨inner, rfl, hinner⟩ := hname
        cases h with
        | cons _ h =>
        cases h with
        | @cons _ last _ h =>
        have hskip := h.skip hmore spaced
        rw [hinner] at hskip
        generalize hlast : skip spaced last = front at hskip
        simp only [readPart, hown]
        cases hskip with
        | closed =>
            have hescape : readEscape spaced ('b' :: '\x7b' :: last) =
                some (.assertion .wordBoundary, '\x7b' :: last) := by
              simp [readEscape, readBoundary, hlast, isBoundaryLetter_parenthesis]
            rw [hescape]
            simp only [Option.map_some, Option.bind_some, hbrace _ last hlast]
            exact .failed
        | swallowed =>
            rw [readEscape_open ⟨last, rfl, hlast⟩]
            exact .failed
      · refine (readPart_agrees hmore h fun hc hname => hopen ⟨hc, hname⟩).bind
          (fun part inner behind hinner h => ?_)
          fun part behind hbehind => (hother _ _ _ behind).mono hbehind
        have hless := hinner.length_le
        exact (hnext _ _ _ h (by omega)).within (hinner.trans (List.suffix_cons c rest))

end

private theorem readGroup_shrinks (fuel : Nat) (spaced : Bool) (captures : Captures)
    (reading : Reading)
    (text : List Char) : Shrinks text (readGroup fuel spaced captures reading text) := by
  induction fuel generalizing spaced captures reading text with
  | zero => exact .none
  | succ fuel ih =>
      rw [readGroup_succ]
      exact (groupStep_shrinks ih).mono (skip_suffix spaced text)

private theorem skipBlanks_parenthesis (more : List Char) :
    skipBlanks (')' :: more) = ')' :: more := by
  simp [skipBlanks, isBlank_parenthesis]

theorem skip_cons {c : Char} (hblank : Text.isBlank c = false) (hcomment : c ≠ '#')
    (spaced : Bool) (text : List Char) : skip spaced (c :: text) = c :: text := by
  cases spaced <;> simp [skip, skipComments, hblank, hcomment]

private theorem readCounts_parenthesis (h : skip spaced text = ')' :: more) :
    readCounts spaced text = none := by
  have hcount : readCount spaced (')' :: more) = some (none, ')' :: more) := by
    simp [readCount, skipBlanks_parenthesis, readDigits,
      skip_cons isBlank_parenthesis (by decide)]
  rw [readCounts_eq, h, hcount]
  rfl

private theorem readGroup_brace (fuel : Nat) (captures : Captures) (reading : Reading)
    (h : skip spaced text = ')' :: more) :
    readGroup fuel spaced captures reading ('\x7b' :: text) = none := by
  cases fuel with
  | zero => rfl
  | succ fuel =>
      rw [readGroup_succ, skip_cons (by decide +kernel) (by decide)]
      simp only [groupStep, ↓reduceIte, Char.reduceEq, readPart, readCounts_parenthesis h]
      rfl

/-- A group is read alike in front of a closing parenthesis and at the end of the text, unless what
stands there is taken for a part of the group. -/
theorem readGroup_agrees (hmore : '\n' ∉ more) (hname : '>' ∉ more) {fuel other : Nat}
    (spaced : Bool) (captures : Captures) (reading : Reading) (h : Extends more text longer)
    (hfuel : text.length < fuel) (hother : text.length + more.length + 1 < other) :
    Agrees more more text (readGroup fuel spaced captures reading text)
      (readGroup other spaced captures reading longer) := by
  induction fuel generalizing other spaced captures reading text longer with
  | zero => omega
  | succ fuel ih =>
      obtain ⟨other, rfl⟩ := Nat.exists_eq_add_of_lt (show 0 < other by omega)
      have hskip := skip_suffix spaced text
      rw [Nat.zero_add, readGroup_succ, readGroup_succ]
      refine (groupStep_agrees hmore hname (readGroup_shrinks other)
        (fun spaced captures reading rest behind h hrest => ?_) (h.skip hmore spaced)
        hskip.length_le
        fun reading inner hinner => readGroup_brace other captures reading hinner).within hskip
      have hless := hskip.length_le
      exact ih spaced captures reading h (by omega) (by omega)

end

end Runbook.Pattern
