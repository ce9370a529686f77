import Runbook.Pattern.Class
import Runbook.Pattern.Regex

/-!
# The meaning of patterns

Under its flags a pattern becomes a regular expression.  Some patterns have a syntax but no meaning:
a class in them means nothing, or they could match a part of a character.
-/

namespace Runbook.Pattern

open Unicode (CodeSet)

def Assertion.look (flags : Flags) : Assertion → Look
  | .startText => .start
  | .endText => .finish
  | .startLine =>
    if !flags.multiLine then .start else if flags.crlf then .startLineCrlf else .startLine
  | .endLine =>
    if !flags.multiLine then .finish else if flags.crlf then .finishLineCrlf else .finishLine
  | kind => .word flags.unicode kind

def dotSet (flags : Flags) : CodeSet :=
  if flags.dotNewline then .all
  else if flags.crlf then .read ["0-9 B-C E-10FFFF"]
  else .read ["0-9 B-10FFFF"]

def literalMeaning? (flags : Flags) (literal : Literal) : Option Regex :=
  if !flags.unicode && literal.byte && 0x80 ≤ literal.char.toNat then none
  else some (.ofSet (flags.fold (.single literal.char.toNat)))

def classMeaning? (flags : Flags) (set : ClassSet) : Option Regex := (set.set? flags).map .ofSet

mutual

/-- The meaning of a pattern under flags, and the flags behind it. -/
def Ast.meaning? (flags : Flags) : Ast → Option (Regex × Flags)
  | .empty => some (.empty, flags)
  | .flags change => some (.empty, flags.apply change)
  | .literal written => (literalMeaning? flags written).map (·, flags)
  | .dot => if flags.unicode then some (.ofSet (dotSet flags), flags) else none
  | .assertion kind => some (.look (kind.look flags), flags)
  | .shorthand kind negated => (classMeaning? flags (.shorthand kind negated)).map (·, flags)
  | .unicode query negated => (classMeaning? flags (.unicode query negated)).map (·, flags)
  | .bracket set negated => (classMeaning? flags (.bracket set negated)).map (·, flags)
  | .repetition body least most greedy => do
    let (body, flags) ← body.meaning? flags
    return (body.repeated least most (greedy != flags.swapGreed), flags)
  | .capture index body => do
    let (body, _) ← body.meaning? flags
    return (.capture index body, flags)
  | .group change body => do
    let (body, _) ← body.meaning? (flags.apply change)
    return (body, flags)
  | .alternation branches => do
    let (branches, flags) ← Ast.meanings? flags branches
    return (.choice branches, flags)
  | .concat parts => do
    let (parts, flags) ← Ast.meanings? flags parts
    return (.sequence parts, flags)

def Ast.meanings? (flags : Flags) : List Ast → Option (List Regex × Flags)
  | [] => some ([], flags)
  | ast :: asts => do
    let (first, flags) ← ast.meaning? flags
    let (others, flags) ← Ast.meanings? flags asts
    return (first :: others, flags)

end

def Ast.regex? (ast : Ast) : Option Regex := (ast.meaning? .default).map (·.1)

end Runbook.Pattern
