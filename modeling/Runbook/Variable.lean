import Runbook.Pattern.Matching
import Runbook.Value

/-!
# Variables

A variable is a named function of the input or of other variables.  Two variables are the same when
they are of one kind and agree in names, labels, patterns and the variables that they depend on;
their functions do not count.
-/

namespace Runbook

inductive VariableError where
  | failed (subject message : String)
  | typeMismatch (subject expected actual : String)
  | invalidPattern (pattern : String)
  | unexpectedInput (subject : String)
  | unexpectedDependency (subject dependency : String)
  deriving DecidableEq, Repr

def VariableError.message : VariableError → String
  | .failed subject message => "variable " ++ subject ++ " failed: " ++ message
  | .typeMismatch subject expected actual =>
    "variable " ++ subject ++ " expected a " ++ expected ++ " value but got " ++ actual
  | .invalidPattern pattern => "invalid pattern /" ++ pattern ++ "/"
  | .unexpectedInput subject => "unexpected input dependency for variable " ++ subject
  | .unexpectedDependency subject dependency =>
    "unexpected dependency on " ++ dependency ++ " for " ++ subject

/-- A function of inputs of type `ι`.  `traced` says whether calls of the variable's own function
are shown in traces. -/
inductive Variable (ι : Type) where
  /-- Reads the input. -/
  | primary (name : String) (read : ι → Except VariableError Value) (traced : Bool)
  /-- The input itself. -/
  | identity (convert : ι → Value)
  /-- Tests the value of another variable. -/
  | predicate (source : Variable ι) (label : String) (test : Value → Bool) (traced : Bool)
  /-- Computes a value from those of other variables. -/
  | derived (name : String) (dependencies : List (Variable ι))
      (derive : List Value → Except VariableError Value) (traced : Bool)
  /-- Whether the text of another variable matches a pattern in full. -/
  | regexMatch (source : Variable ι) (pattern : String) (regex : Pattern.Regex)
  /-- The length of another variable's list or text. -/
  | size (source : Variable ι)

namespace Variable

variable {ι : Type}

/-! ## Identity -/

mutual

def same : Variable ι → Variable ι → Bool
  | .primary a _ _, .primary b _ _ => a == b
  | .identity _, .identity _ => true
  | .predicate source a _ _, .predicate otherSource b _ _ => a == b && same source otherSource
  | .derived a dependencies _ _, .derived b otherDependencies _ _ =>
    a == b && sameAll dependencies otherDependencies
  | .regexMatch source a _, .regexMatch otherSource b _ => a == b && same source otherSource
  | .size source, .size otherSource => same source otherSource
  | _, _ => false

def sameAll : List (Variable ι) → List (Variable ι) → Bool
  | [], [] => true
  | a :: as, b :: bs => same a b && sameAll as bs
  | _, _ => false

end

inductive HashWrite where
  | byte (value : UInt8)
  | text (text : String)
  | length (count : Nat)
  deriving DecidableEq, Repr

mutual

/-- What a variable feeds to a hash function: a byte for its kind, then its own text, and then the
variables that it depends on. -/
def hashInput : Variable ι → List HashWrite
  | .primary name _ _ => [.byte 0, .text name]
  | .identity _ => [.byte 1]
  | .predicate source label _ _ => .byte 2 :: .text label :: hashInput source
  | .derived name dependencies _ _ =>
    .byte 3 :: .text name :: .length dependencies.length :: hashInputs dependencies
  | .regexMatch source pattern _ => .byte 4 :: .text pattern :: hashInput source
  | .size source => .byte 5 :: hashInput source

def hashInputs : List (Variable ι) → List HashWrite
  | [] => []
  | subject :: subjects => hashInput subject ++ hashInputs subjects

end

def display : Variable ι → String
  | .primary name _ _ => name
  | .derived name _ _ _ => name
  | .identity _ => "input"
  | .predicate source label _ _ => label ++ "(" ++ source.display ++ ")"
  | .regexMatch source pattern _ => source.display ++ " =~ /" ++ pattern ++ "/"
  | .size source => "size(" ++ source.display ++ ")"

def dependencies : Variable ι → List (Variable ι)
  | .primary .. => []
  | .identity _ => []
  | .predicate source .. => [source]
  | .derived _ dependencies _ _ => dependencies
  | .regexMatch source _ _ => [source]
  | .size source => [source]

def isMeta : Variable ι → Bool
  | .primary .. => false
  | .identity _ => false
  | _ => true

def traceName? : Variable ι → Option String
  | .primary name _ traced => if traced then some name else none
  | .predicate _ label _ traced => if traced then some label else none
  | .derived name _ _ traced => if traced then some name else none
  | _ => none

/-! ## The own function of a variable -/

inductive OwnFunction (ι : Type) where
  | ofInput (read : ι → Except VariableError Value)
  | ofValues (derive : List Value → Except VariableError Value)

def mismatch (subject : String) (expected : String) (actual : Value) : VariableError :=
  .typeMismatch subject expected actual.kind

def matchValue (subject : String) (regex : Pattern.Regex) : Value → Except VariableError Value
  | .str text => .ok (.bool (regex.matchesText text))
  | .null => .ok (.bool false)
  | other => .error (mismatch subject "string" other)

def sizeOfValue (subject : String) : Value → Except VariableError Value
  | .list items => .ok (.ofNat items.length)
  | .str text => .ok (.ofNat text.length)
  | .null => .ok (.int 0)
  | other => .error (mismatch subject "list" other)

def ownFunction (subject : Variable ι) : OwnFunction ι :=
  match subject with
  | .primary _ read _ => .ofInput read
  | .identity convert => .ofInput fun input => .ok (convert input)
  | .predicate _ _ test _ => .ofValues fun values => .ok (.bool (test (values.headD .null)))
  | .derived _ _ derive _ => .ofValues derive
  | .regexMatch _ _ regex => .ofValues fun values =>
    matchValue subject.display regex (values.headD .null)
  | .size _ => .ofValues fun values => sizeOfValue subject.display (values.headD .null)

/-! ## Making variables -/

/-- A variable for full matches of a pattern, if the pattern is one when put between anchors. -/
def regexMatch? (source : Variable ι) (pattern : String) : Except VariableError (Variable ι) :=
  match Pattern.compile? (Pattern.anchored pattern) with
  | some regex => .ok (.regexMatch source pattern regex)
  | none => .error (.invalidPattern pattern)

/-! ## Tables of variables -/

def find? (table : List (Variable ι × α)) (subject : Variable ι) : Option α :=
  (table.find? (·.1.same subject)).map (·.2)

end Variable

end Runbook
