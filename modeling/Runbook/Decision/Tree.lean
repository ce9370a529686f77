import Runbook.Decision.Context
import Runbook.Decision.Rule
import Runbook.Firsts

/-!
# Decision trees

Rules are compiled into a tree that asks for one variable at a time.  Below a value of the variable
stand the rules that ask for it and the rules that do not mention the variable; the latter also
stand alone, for all other values.  A variable whose dependencies are all pinned by the way down to
a node is not asked for: its value is computed while the tree is built.

Nodes are numbered in the order in which they are made: a node before the nodes below it, and among
these the one for all other values first.
-/

namespace Runbook.Decision

inductive Tree (ι τ : Type) where
  | leaf (id : Nat) (items : List τ)
  | split (id : Nat) (subject : Variable ι) (items : List τ)
      (branches : List (Value × Tree ι τ)) (otherwise : Option (Tree ι τ))

variable {ι τ : Type}

/-! ## The variable to ask for -/

/-- How often variables are counted, in the order of their first mention. -/
abbrev Tally (ι : Type) := List (Variable ι × Nat)

def Tally.bump (subject : Variable ι) : Tally ι → Tally ι
  | [] => []
  | (other, count) :: rest =>
    if other.same subject then (other, count + 1) :: rest else (other, count) :: bump subject rest

def Tally.mention (tally : Tally ι) (subject : Variable ι) : Tally ι :=
  if tally.any (·.1.same subject) then tally.bump subject else tally ++ [(subject, 1)]

def mentions (rules : List (Rule ι τ)) : List (Variable ι) :=
  rules.flatMap fun rule => rule.conditions.map (·.subject)

def tally (rules : List (Rule ι τ)) : Tally ι :=
  let mentioned := mentions rules
  (mentioned.flatMap Variable.dependencies).foldl (fun tally subject => tally.bump subject)
    (mentioned.foldl Tally.mention [])

def best (counted : Tally ι) : Option (Variable ι × Nat) :=
  counted.foldl (fun best entry =>
    match best with
    | none => some entry
    | some (_, count) => if count < entry.2 then some entry else best) none

/-- The variable to ask for: the one that is mentioned most, where mentions of a variable that
depends on it count too. -/
def pickSplit (rules : List (Rule ι τ)) : Option (Variable ι) := (best (tally rules)).map (·.1)

/-! ## Compilation -/

/-- What a compilation has done so far: the number of nodes made, and the variables whose own
functions were called. -/
structure Progress (ι : Type) where
  nodes : Nat
  calls : List (Variable ι)

abbrev Compile (ι : Type) := EStateM DecisionError (Progress ι)

def newNode (limit : Option Nat) : Compile ι Nat := fun progress =>
  match limit with
  | some most =>
    if most ≤ progress.nodes then .error (.treeTooLarge most) progress
    else .ok progress.nodes { progress with nodes := progress.nodes + 1 }
  | none => .ok progress.nodes { progress with nodes := progress.nodes + 1 }

/-- Whether the assumptions pin a variable: it has dependencies, and all of them are assumed. -/
def isPinned (assumptions : Assumptions ι) (subject : Variable ι) : Bool :=
  subject.isMeta && !subject.dependencies.isEmpty &&
    subject.dependencies.all fun dependency => (assumed? assumptions dependency).isSome

def pinnedValue (assumptions : Assumptions ι) (subject : Variable ι) :
    Compile ι (Option Value) := fun progress =>
  if isPinned assumptions subject then
    let (result, called) := evaluateAssumed subject assumptions
    let progress :=
      if called then { progress with calls := progress.calls ++ [subject] } else progress
    match result with
    | .ok value => .ok (some value) progress
    | .error error => .error (.assumptionViolated subject.display error) progress
  else .ok none progress

/-- The rules that remain when a variable is known: those that ask for its value, without that
condition, and those that do not mention it. -/
def settle (rules : List (Rule ι τ)) (subject : Variable ι) (known : Value) : List (Rule ι τ) :=
  rules.filterMap fun rule =>
    match rule.asks? subject with
    | none => some rule
    | some value => if value = known then some (rule.without subject) else none

def askedValues (rules : List (Rule ι τ)) (subject : Variable ι) : List Value :=
  firsts (rules.filterMap (·.asks? subject))

def askingFor (rules : List (Rule ι τ)) (subject : Variable ι) (value : Value) :
    List (Rule ι τ) :=
  (rules.filter fun rule => rule.asks? subject = some value).map (·.without subject)

def silentOn (rules : List (Rule ι τ)) (subject : Variable ι) : List (Rule ι τ) :=
  rules.filter fun rule => (rule.asks? subject).isNone

def isUnconditional (rule : Rule ι τ) : Bool := rule.conditions.isEmpty

/-- Compiles rules under assumptions.  Every level settles one condition at least, so as many levels
as there are conditions are enough. -/
def compile (limit : Option Nat) : Nat → List (Rule ι τ) → Assumptions ι → Compile ι (Tree ι τ)
  | 0, rules, _ => do
    let id ← newNode limit
    return .leaf id (rules.map (·.item))
  | fuel + 1, rules, assumptions =>
    match pickSplit rules with
    | none => do
      let id ← newNode limit
      return .leaf id (rules.map (·.item))
    | some subject => do
      match ← pinnedValue assumptions subject with
      | some known =>
        compile limit fuel (settle rules subject known) ((subject, known) :: assumptions)
      | none =>
        let silent := silentOn rules subject
        let conditional := silent.filter (!isUnconditional ·)
        let id ← newNode limit
        let otherwise ←
          if conditional.isEmpty then pure none
          else some <$> compile limit fuel conditional assumptions
        let branches ← (askedValues rules subject).mapM fun value => do
          let tree ← compile limit fuel (askingFor rules subject value ++ conditional)
            ((subject, value) :: assumptions)
          return (value, tree)
        return .split id subject ((silent.filter isUnconditional).map (·.item)) branches otherwise

def conditionCount (rules : List (Rule ι τ)) : Nat := (rules.flatMap (·.conditions)).length

def compileRules (limit : Option Nat) (rules : List (Rule ι τ)) : Compile ι (Tree ι τ) :=
  compile limit (conditionCount rules) rules []

/-! ## Walking -/

structure WalkEnd (τ : Type) where
  node : Nat
  items : List τ

namespace Tree

mutual

/-- Walks down the tree; a value without a branch of its own leads to the branch for all other
values, or ends the walk if there is none.  `collected` are the items on the way so far. -/
def walkFrom (collected : List τ) : Tree ι τ → Live ι (WalkEnd τ)
  | .leaf id items => pure ⟨id, collected ++ items⟩
  | .split id subject items branches otherwise => do
    let value ← Live.get subject
    let collected := collected ++ items
    match walkBranches collected value branches with
    | some walk => walk
    | none =>
      match walkOtherwise collected otherwise with
      | some walk => walk
      | none => pure ⟨id, collected⟩

def walkBranches (collected : List τ) (value : Value) :
    List (Value × Tree ι τ) → Option (Live ι (WalkEnd τ))
  | [] => none
  | (own, tree) :: branches =>
    if own = value then some (walkFrom collected tree) else walkBranches collected value branches

def walkOtherwise (collected : List τ) : Option (Tree ι τ) → Option (Live ι (WalkEnd τ))
  | none => none
  | some tree => some (walkFrom collected tree)

end

def walk (tree : Tree ι τ) : Live ι (WalkEnd τ) := tree.walkFrom []

/-! ## Shape -/

mutual

def depth : Tree ι τ → Nat
  | .leaf .. => 1
  | .split _ _ _ branches otherwise => max (branchesDepth branches) (otherwiseDepth otherwise) + 1

def branchesDepth : List (Value × Tree ι τ) → Nat
  | [] => 0
  | (_, tree) :: branches => max tree.depth (branchesDepth branches)

def otherwiseDepth : Option (Tree ι τ) → Nat
  | none => 0
  | some tree => tree.depth

end

mutual

def size : Tree ι τ → Nat
  | .leaf .. => 1
  | .split _ _ _ branches otherwise => branchesSize branches + otherwiseSize otherwise + 1

def branchesSize : List (Value × Tree ι τ) → Nat
  | [] => 0
  | (_, tree) :: branches => tree.size + branchesSize branches

def otherwiseSize : Option (Tree ι τ) → Nat
  | none => 0
  | some tree => tree.size

end

/-! ## Text -/

def itemLines (showItem : τ → String) (offset : String) (items : List τ) : String :=
  String.join (items.map fun item => offset ++ "- " ++ showItem item ++ "\n")

mutual

def renderAt (showItem : τ → String) (offset : String) : Tree ι τ → String
  | .leaf _ items => offset ++ "* leaf\n" ++ itemLines showItem offset items
  | .split _ subject items branches otherwise =>
    offset ++ "* by " ++ subject.display ++ "\n" ++ itemLines showItem offset items ++
      renderBranches showItem offset branches ++ renderOtherwise showItem offset otherwise

def renderBranches (showItem : τ → String) (offset : String) : List (Value × Tree ι τ) → String
  | [] => ""
  | (value, tree) :: branches =>
    offset ++ "+ when " ++ value.display ++ "\n" ++ renderAt showItem (offset ++ "\t") tree ++
      renderBranches showItem offset branches

def renderOtherwise (showItem : τ → String) (offset : String) : Option (Tree ι τ) → String
  | none => ""
  | some tree => offset ++ "+ else\n" ++ renderAt showItem (offset ++ "\t") tree

end

def render (showItem : τ → String) (tree : Tree ι τ) : String := renderAt showItem "" tree

end Tree

end Runbook.Decision
