import Runbook.Pattern.Syntax
import Runbook.Text.Blank
import Runbook.Unicode.Later

/-!
# Reading patterns

A pattern is read from left to right.  While the flag for it is set, blanks between the parts of a
pattern and comments up to the end of a line count for nothing; `spaced` says whether it is set.
-/

namespace Runbook.Pattern

/-! ## Blanks -/

def skipComments : List Char → Bool → List Char
  | [], _ => []
  | c :: rest, true => skipComments rest (c != '\n')
  | c :: rest, false =>
    if Text.isBlank c then skipComments rest false
    else if c = '#' then skipComments rest true
    else c :: rest

def skip (spaced : Bool) (text : List Char) : List Char :=
  if spaced then skipComments text false else text

def skipBlanks (text : List Char) : List Char := text.dropWhile Text.isBlank

def peekAfter (spaced : Bool) (text : List Char) : Option Char :=
  if !spaced then text.head?
  else
    match skipBlanks text with
    | '#' :: rest => (skipBlanks rest).head?
    | rest => rest.head?

def after? : List Char → List Char → Option (List Char)
  | [], text => some text
  | c :: word, d :: text => if c = d then after? word text else none
  | _ :: _, [] => none

/-! ## Escapes -/

def isMeta (c : Char) : Bool :=
  ['\\', '.', '+', '*', '?', '(', ')', '|', '[', ']', '\x7b', '\x7d', '^', '$', '#', '&', '-',
    '~'].contains c

def isEscapable (c : Char) : Bool :=
  isMeta c || (c.toNat < 0x80 && !c.isAlphanum && c != '<' && c != '>')

def hexValue? (c : Char) : Option Nat :=
  if c.isDigit then some (c.toNat - 48)
  else if 'a' ≤ c ∧ c ≤ 'f' then some (c.toNat - 87)
  else if 'A' ≤ c ∧ c ≤ 'F' then some (c.toNat - 55)
  else none

def charOf? (code : Nat) : Option Char :=
  if code < 0xd800 ∨ (0xdfff < code ∧ code < 0x110000) then some (Char.ofNat code) else none

def readFixedHex (spaced : Bool) : Nat → Nat → List Char → Option (Nat × List Char)
  | 0, code, text => some (code, text)
  | count + 1, code, text =>
    match text with
    | c :: rest => do
      let digit ← hexValue? c
      readFixedHex spaced count (code * 16 + digit) (skip spaced rest)
    | [] => none

/-- Reads hexadecimal digits up to a closing brace; `seen` says whether there was one yet. -/
def readBracedHex (spaced : Bool) : Nat → Bool → Nat → List Char → Option (Nat × List Char)
  | 0, _, _, _ => none
  | fuel + 1, seen, code, text =>
    match skip spaced text with
    | c :: rest =>
      if c = '\x7d' then if seen then some (code, skip spaced rest) else none
      else do
        let digit ← hexValue? c
        let code := code * 16 + digit
        guard (code < 0x100000000)
        readBracedHex spaced fuel true code rest
    | [] => none

def readHex (spaced : Bool) (count : Nat) (text : List Char) : Option (Literal × List Char) := do
  match skip spaced text with
  | '\x7b' :: rest =>
    let (code, rest) ← readBracedHex spaced (rest.length + 1) false 0 rest
    let c ← charOf? code
    return (⟨c, false⟩, rest)
  | text =>
    let (code, rest) ← readFixedHex spaced count 0 text
    let c ← charOf? code
    return (⟨c, count == 2⟩, rest)

def cutAt? (mark : List Char) : List Char → Option (List Char × List Char)
  | [] => none
  | c :: rest =>
    match after? mark (c :: rest) with
    | some behind => some ([], behind)
    | none => (cutAt? mark rest).map fun (front, behind) => (c :: front, behind)

/-- A named class; an unequal one has all characters for which the property has another value. -/
structure NamedClass where
  query : ClassQuery
  unequal : Bool

def namedClassOf (name : List Char) : NamedClass :=
  let value (property value : List Char) : ClassQuery :=
    .value (String.ofList property) (String.ofList value)
  match cutAt? ['!', '='] name with
  | some (property, other) => ⟨value property other, true⟩
  | none =>
    match cutAt? [':'] name <|> cutAt? ['='] name with
    | some (property, own) => ⟨value property own, false⟩
    | none => ⟨.name (String.ofList name), false⟩

def readBraced (spaced : Bool) : Nat → List Char → Option (List Char × List Char)
  | 0, _ => none
  | fuel + 1, text =>
    match skip spaced text with
    | c :: rest =>
      if c = '\x7d' then some ([], rest)
      else do
        let (name, rest) ← readBraced spaced fuel rest
        return (c :: name, rest)
    | [] => none

def readNamedClass (spaced : Bool) (text : List Char) : Option (NamedClass × List Char) := do
  match skip spaced text with
  | '\x7b' :: rest =>
    let (name, rest) ← readBraced spaced (rest.length + 1) rest
    return (namedClassOf name, rest)
  | '\\' :: _ => none
  | c :: rest => return (⟨.letter c, false⟩, skip spaced rest)
  | [] => none

def isBoundaryLetter (c : Char) : Bool := c.isAlpha || c == '-'

def readBoundaryName (spaced : Bool) : Nat → List Char → List Char × List Char
  | 0, text => ([], text)
  | fuel + 1, text =>
    match text with
    | c :: rest =>
      if isBoundaryLetter c then
        let (name, rest) := readBoundaryName spaced fuel (skip spaced rest)
        (c :: name, rest)
      else ([], text)
    | [] => ([], [])

/-- Reads a word boundary behind its letter: a plain one, or a special one with its name in braces.
Braces that cannot hold a name are left for a repetition. -/
def readBoundary (spaced : Bool) (text : List Char) : Option (Assertion × List Char) :=
  match text with
  | '\x7b' :: inner =>
    match skip spaced inner with
    | [] => none
    | first :: rest =>
      if !isBoundaryLetter first then some (.wordBoundary, text)
      else
        match readBoundaryName spaced (rest.length + 1) (first :: rest) with
        | (name, '\x7d' :: rest) =>
          match String.ofList name with
          | "start" => some (.wordStart, rest)
          | "end" => some (.wordEnd, rest)
          | "start-half" => some (.wordStartHalf, rest)
          | "end-half" => some (.wordEndHalf, rest)
          | _ => none
        | _ => none
  | _ => some (.wordBoundary, text)

def readEscape (spaced : Bool) (text : List Char) : Option (Ast × List Char) :=
  let special (code : Nat) (rest : List Char) : Option (Ast × List Char) :=
    some (.literal ⟨Char.ofNat code, false⟩, rest)
  match text with
  | [] => none
  | c :: rest =>
    match c with
    | 'x' => (readHex spaced 2 rest).map fun (literal, rest) => (.literal literal, rest)
    | 'u' => (readHex spaced 4 rest).map fun (literal, rest) => (.literal literal, rest)
    | 'U' => (readHex spaced 8 rest).map fun (literal, rest) => (.literal literal, rest)
    | 'p' =>
      (readNamedClass spaced rest).map fun (named, rest) =>
        (.unicode named.query named.unequal, rest)
    | 'P' =>
      (readNamedClass spaced rest).map fun (named, rest) =>
        (.unicode named.query (!named.unequal), rest)
    | 'd' => some (.shorthand .digit false, rest)
    | 's' => some (.shorthand .space false, rest)
    | 'w' => some (.shorthand .word false, rest)
    | 'D' => some (.shorthand .digit true, rest)
    | 'S' => some (.shorthand .space true, rest)
    | 'W' => some (.shorthand .word true, rest)
    | 'a' => special 0x07 rest
    | 'f' => special 0x0c rest
    | 't' => special 0x09 rest
    | 'n' => special 0x0a rest
    | 'r' => special 0x0d rest
    | 'v' => special 0x0b rest
    | 'A' => some (.assertion .startText, rest)
    | 'z' => some (.assertion .endText, rest)
    | 'b' => (readBoundary spaced rest).map fun (kind, rest) => (.assertion kind, rest)
    | 'B' => some (.assertion .notWordBoundary, rest)
    | '<' => some (.assertion .wordStart, rest)
    | '>' => some (.assertion .wordEnd, rest)
    | c => if isEscapable c then some (.literal ⟨c, false⟩, rest) else none

/-! ## Bracketed classes -/

def asciiKind? : String → Option AsciiKind
  | "alnum" => some .alnum
  | "alpha" => some .alpha
  | "ascii" => some .ascii
  | "blank" => some .blank
  | "cntrl" => some .cntrl
  | "digit" => some .digit
  | "graph" => some .graph
  | "lower" => some .lower
  | "print" => some .print
  | "punct" => some .punct
  | "space" => some .space
  | "upper" => some .upper
  | "word" => some .word
  | "xdigit" => some .xdigit
  | _ => none

def readAsciiClass? (text : List Char) : Option (ClassSet × List Char) := do
  let (negated, text) :=
    match text with
    | '^' :: rest => (true, rest)
    | _ => (false, text)
  let kind ← asciiKind? (String.ofList (text.takeWhile (· != ':')))
  let rest ← after? [':', ']'] (text.dropWhile (· != ':'))
  return (.ascii kind negated, rest)

def readClassItem (spaced : Bool) (text : List Char) : Option (ClassSet × List Char) :=
  match text with
  | [] => none
  | '\\' :: rest =>
    match readEscape spaced rest with
    | some (.literal literal, rest) => some (.literal literal, rest)
    | some (.shorthand kind negated, rest) => some (.shorthand kind negated, rest)
    | some (.unicode query negated, rest) => some (.unicode query negated, rest)
    | _ => none
  | c :: rest => some (.literal ⟨c, false⟩, rest)

def readClassRange (spaced : Bool) (text : List Char) : Option (ClassSet × List Char) := do
  let (first, rest) ← readClassItem spaced text
  match skip spaced rest with
  | [] => none
  | '-' :: rest =>
    let next := peekAfter spaced rest
    if next = some ']' ∨ next = some '-' then return (first, '-' :: rest)
    match skip spaced rest with
    | [] => none
    | rest =>
      let (last, rest) ← readClassItem spaced rest
      match first, last with
      | .literal first, .literal last =>
        guard (first.char ≤ last.char)
        return (.range first last, rest)
      | _, _ => none
  | rest => return (first, rest)

def readHyphens (spaced : Bool) : Nat → List Char → List ClassSet × List Char
  | 0, text => ([], text)
  | fuel + 1, text =>
    match text with
    | '-' :: rest =>
      let (sets, rest) := readHyphens spaced fuel (skip spaced rest)
      (.literal ⟨'-', false⟩ :: sets, rest)
    | _ => ([], text)

/-- Reads the start of a class behind its bracket: whether it is negated, the hyphens, and a closing
bracket that stands for itself because nothing comes before it. -/
def readClassStart (spaced : Bool) (text : List Char) : Option (Bool × List ClassSet × List Char) :=
  let text := skip spaced text
  let (negated, text) :=
    match text with
    | '^' :: rest => (true, skip spaced rest)
    | _ => (false, text)
  let (hyphens, text) := readHyphens spaced (text.length + 1) text
  match hyphens, text with
  | _, [] => none
  | [], ']' :: rest => some (negated, [.literal ⟨']', false⟩], skip spaced rest)
  | hyphens, text => some (negated, hyphens, text)

abbrev PendingOperation := Option (SetOperation × ClassSet)

def completeOperation (pending : PendingOperation) (sets : List ClassSet) : ClassSet :=
  match pending with
  | none => .unionOf sets
  | some (operation, left) => .combine operation left (.unionOf sets)

/-- Reads the members of a class up to its closing bracket.  `sets` holds those of the current
union, `pending` an operation before it. -/
def readClassBody (spaced : Bool) : Nat → PendingOperation → List ClassSet → List Char →
    Option (ClassSet × List Char)
  | 0, _, _, _ => none
  | fuel + 1, pending, sets, text =>
    let operation (operation : SetOperation) (rest : List Char) :=
      readClassBody spaced fuel (some (operation, completeOperation pending sets)) [] rest
    let range (text : List Char) := do
      let (set, rest) ← readClassRange spaced text
      readClassBody spaced fuel pending (sets ++ [set]) rest
    let nested (rest : List Char) := do
      let (negated, start, rest) ← readClassStart spaced rest
      let (set, rest) ← readClassBody spaced fuel none start rest
      readClassBody spaced fuel pending (sets ++ [.bracket set negated]) rest
    match skip spaced text with
    | [] => none
    | '[' :: ':' :: rest =>
      match readAsciiClass? rest with
      | some (set, rest) => readClassBody spaced fuel pending (sets ++ [set]) rest
      | none => nested (':' :: rest)
    | '[' :: rest => nested rest
    | ']' :: rest => some (completeOperation pending sets, rest)
    | '&' :: '&' :: rest => operation .intersection rest
    | '-' :: '-' :: rest => operation .difference rest
    | '~' :: '~' :: rest => operation .symmetricDifference rest
    | text => range text

def readClass (spaced : Bool) (text : List Char) : Option (Ast × List Char) := do
  let (negated, start, rest) ← readClassStart spaced text
  let (set, rest) ← readClassBody spaced (text.length + 1) none start rest
  return (.bracket set negated, rest)

/-! ## Repetitions -/

structure Counts where
  least : Nat
  most : Option Nat
  greedy : Bool

/-- A question mark behind a repetition makes it prefer few copies to many, which makes no
difference to the texts that it matches. -/
def readGreed (least : Nat) (most : Option Nat) (text : List Char) : Counts × List Char :=
  match text with
  | '?' :: rest => (⟨least, most, false⟩, rest)
  | _ => (⟨least, most, true⟩, text)

def countLimit : Nat := Nat.pow 2 32

def readDigits (spaced : Bool) : Nat → List Char → List Nat × List Char
  | 0, text => ([], text)
  | fuel + 1, text =>
    match text with
    | c :: rest =>
      if c.isDigit then
        let (digits, rest) := readDigits spaced fuel (skip spaced rest)
        ((c.toNat - 48) :: digits, rest)
      else ([], text)
    | [] => ([], [])

def readCount (spaced : Bool) (text : List Char) : Option (Option Nat × List Char) :=
  let text := skipBlanks text
  let (digits, rest) := readDigits spaced (text.length + 1) text
  let rest := skip spaced (skipBlanks rest)
  if digits.isEmpty then some (none, rest)
  else
    let count := digits.foldl (fun total digit => 10 * total + digit) 0
    if count < countLimit then some (some count, rest) else none

def readCounts (spaced : Bool) (text : List Char) : Option (Counts × List Char) := do
  let (least, rest) ← readCount spaced (skip spaced text)
  match rest with
  | ',' :: rest =>
    match skip spaced rest with
    | '\x7d' :: rest => return readGreed (← least) none (skip spaced rest)
    | rest =>
      let least ← least
      let (most, rest) ← readCount spaced rest
      let most ← most
      guard (least ≤ most)
      match rest with
      | '\x7d' :: rest => return readGreed least (some most) (skip spaced rest)
      | _ => none
  | '\x7d' :: rest =>
    let least ← least
    return readGreed least (some least) (skip spaced rest)
  | _ => none

def repeatLast (counts : Counts) : List Ast → Option (List Ast)
  | [] => none
  | .empty :: _ => none
  | .flags _ :: _ => none
  | part :: parts => some (.repetition part counts.least counts.most counts.greedy :: parts)

/-! ## Groups -/

def isNameStart (c : Char) : Bool := c == '_' || Unicode.laterAlphabetic.contains c.toNat

def isNameChar (c : Char) : Bool :=
  c == '.' || c == '[' || c == ']' || isNameStart c || Unicode.laterNumeric.contains c.toNat

def readGroupName (text : List Char) : Option (String × List Char) :=
  match text with
  | [] => none
  | first :: _ =>
    let name := text.takeWhile (· != '>')
    match text.dropWhile (· != '>') with
    | _ :: rest =>
      if !name.isEmpty && isNameStart first && name.all isNameChar then
        some (String.ofList name, rest)
      else none
    | [] => none

inductive FlagItem where
  | negation
  | flag (name : Char)
  deriving DecidableEq

/-- Reads flags up to a colon or a closing parenthesis, which stays; none may be repeated and a
negation must be followed by a flag. -/
def readFlags : List FlagItem → List Char → Option (List FlagItem × List Char)
  | _, [] => none
  | items, c :: rest =>
    if c = ':' ∨ c = ')' then
      if items.getLast? = some .negation then none else some (items, c :: rest)
    else
      let item : Option FlagItem :=
        if c = '-' then some .negation
        else if ['i', 'm', 's', 'U', 'u', 'R', 'x'].contains c then some (.flag c)
        else none
      match item with
      | none => none
      | some item => if item ∈ items then none else readFlags (items ++ [item]) rest

def flagState (name : Char) (items : List FlagItem) : Option Bool :=
  if .flag name ∈ items then some (!(items.takeWhile (· ≠ .flag name)).contains .negation) else none

def flagChange (items : List FlagItem) : FlagChange :=
  ⟨flagState 'i' items, flagState 'm' items, flagState 's' items, flagState 'u' items,
    flagState 'R' items, flagState 'x' items, flagState 'U' items⟩

inductive Opening where
  | flags (change : FlagChange)
  | group (change : FlagChange)
  | capture (name : Option String)

def readNamedOpening (text : List Char) : Option (Opening × List Char) := do
  let (name, rest) ← readGroupName text
  return (.capture (some name), rest)

def readOpening (spaced : Bool) (text : List Char) : Option (Opening × List Char) := do
  match skip spaced text with
  | '?' :: 'P' :: '<' :: rest => readNamedOpening rest
  | '?' :: '=' :: _ => none
  | '?' :: '!' :: _ => none
  | '?' :: '<' :: '=' :: _ => none
  | '?' :: '<' :: '!' :: _ => none
  | '?' :: '<' :: rest => readNamedOpening rest
  | '?' :: rest =>
    match ← readFlags [] rest with
    | ([], ')' :: _) => none
    | (items, ')' :: rest) => return (.flags (flagChange items), rest)
    | (items, ':' :: rest) => return (.group (flagChange items), rest)
    | _ => none
  | rest => return (.capture none, rest)

/-! ## Whole patterns -/

/-- The pattern read so far in one group: earlier branches, and the parts of the current one in
reverse. -/
structure Reading where
  branches : List Ast
  parts : List Ast

def Reading.start : Reading := ⟨[], []⟩

def Reading.push (reading : Reading) (part : Ast) : Reading :=
  { reading with parts := part :: reading.parts }

def Reading.nextBranch (reading : Reading) : Reading :=
  ⟨reading.branches ++ [.concatOf reading.parts.reverse], []⟩

def Reading.close (reading : Reading) : Ast := .alternationOf reading.nextBranch.branches

structure Captures where
  count : Nat
  names : List String

def Captures.start : Captures := ⟨0, []⟩

def Captures.add? (captures : Captures) : Option String → Option Captures
  | none => some ⟨captures.count + 1, captures.names⟩
  | some name =>
    if name ∈ captures.names then none else some ⟨captures.count + 1, name :: captures.names⟩

def readBody : Nat → Bool → Captures → Reading → List Char → Option (Ast × Captures × List Char)
  | 0, _, _, _, _ => none
  | fuel + 1, spaced, captures, reading, text =>
    let repeated (counts : Counts) (rest : List Char) := do
      let parts ← repeatLast counts reading.parts
      readBody fuel spaced captures { reading with parts } rest
    let grouped (spacedInside : Bool) (captures : Captures) (close : Ast → Ast)
        (rest : List Char) := do
      let (body, captures, rest) ← readBody fuel spacedInside captures .start rest
      match rest with
      | ')' :: rest => readBody fuel spaced captures (reading.push (close body)) rest
      | _ => none
    match skip spaced text with
    | [] => some (reading.close, captures, [])
    | ')' :: rest => some (reading.close, captures, ')' :: rest)
    | '|' :: rest => readBody fuel spaced captures reading.nextBranch rest
    | '(' :: rest => do
      match ← readOpening spaced rest with
      | (.flags change, rest) =>
        readBody fuel (change.ignoreSpace.getD spaced) captures (reading.push (.flags change)) rest
      | (.group change, rest) =>
        grouped (change.ignoreSpace.getD spaced) captures (.group change) rest
      | (.capture name, rest) =>
        let captures ← captures.add? name
        grouped spaced captures (.capture captures.count) rest
    | '[' :: rest => do
      let (set, rest) ← readClass spaced rest
      readBody fuel spaced captures (reading.push set) rest
    | '?' :: rest =>
      let (counts, rest) := readGreed 0 (some 1) rest
      repeated counts rest
    | '*' :: rest =>
      let (counts, rest) := readGreed 0 none rest
      repeated counts rest
    | '+' :: rest =>
      let (counts, rest) := readGreed 1 none rest
      repeated counts rest
    | '\x7b' :: rest => do
      let (counts, rest) ← readCounts spaced rest
      repeated counts rest
    | '\\' :: rest => do
      let (part, rest) ← readEscape spaced rest
      readBody fuel spaced captures (reading.push part) rest
    | '.' :: rest => readBody fuel spaced captures (reading.push .dot) rest
    | '^' :: rest => readBody fuel spaced captures (reading.push (.assertion .startLine)) rest
    | '$' :: rest => readBody fuel spaced captures (reading.push (.assertion .endLine)) rest
    | c :: rest => readBody fuel spaced captures (reading.push (.literal ⟨c, false⟩)) rest

def depthLimit : Nat := 250

def parse? (pattern : List Char) : Option Ast :=
  match readBody (pattern.length + 1) false .start .start pattern with
  | some (ast, _, []) => if ast.depth ≤ depthLimit then some ast else none
  | _ => none

end Runbook.Pattern
