import Runbook.Proofs.Decision.Identity
import Mathlib.Data.List.Induction

/-!
# Variables as keys

Values that are kept by variable may be kept in hash tables: whatever the hash function is, a lookup
finds what was stored last for a variable that is the same, and a context that remembers values in a
hash table gives what one with a list gives.
-/

namespace Runbook.Decision

open Variable

abbrev Digest := List HashWrite → UInt64

structure MapKey (digest : Digest) (ι : Type) where
  subject : Variable ι

variable {digest : Digest} {ι τ α β : Type}

instance : BEq (MapKey digest ι) := ⟨fun first second => first.subject.same second.subject⟩

instance : Hashable (MapKey digest ι) := ⟨fun key => digest key.subject.hashInput⟩

instance : EquivBEq (MapKey digest ι) where
  rfl := same_refl _
  symm := same_equivalence.symm
  trans := same_trans

instance : LawfulHashable (MapKey digest ι) where
  hash_eq _ _ h := congrArg digest (hashInput_of_same h)

/-! ## Tables -/

abbrev HashTable (digest : Digest) (ι α : Type) := Std.HashMap (MapKey digest ι) α

namespace HashTable

def find? (table : HashTable digest ι α) (subject : Variable ι) : Option α :=
  table[(⟨subject⟩ : MapKey digest ι)]?

def store (table : HashTable digest ι α) (subject : Variable ι) (value : α) :
    HashTable digest ι α :=
  table.insert ⟨subject⟩ value

def ofStores (digest : Digest) (stores : List (Variable ι × α)) : HashTable digest ι α :=
  stores.foldl (fun table entry => store table entry.1 entry.2) ∅

@[simp] theorem find?_empty (subject : Variable ι) :
    find? (∅ : HashTable digest ι α) subject = none :=
  Std.HashMap.getElem?_empty

theorem find?_store (table : HashTable digest ι α) (subject other : Variable ι) (value : α) :
    find? (store table subject value) other =
      if subject.same other then some value else find? table other :=
  Std.HashMap.getElem?_insert

theorem find?_ofStores (stores : List (Variable ι × α)) (subject : Variable ι) :
    find? (ofStores digest stores) subject = Variable.find? stores.reverse subject := by
  induction stores using List.reverseRecOn with
  | nil => exact find?_empty subject
  | append_singleton stores entry ih =>
      rw [ofStores, List.foldl_concat, ← ofStores, find?_store, ih, List.reverse_concat,
        Variable.find?, Variable.find?, List.find?_cons]
      cases entry.1.same subject <;> rfl

private theorem isSome_find?_ofStores (stores : List (Variable ι × α)) (subject : Variable ι) :
    (find? (ofStores digest stores) subject).isSome ↔
      ∃ entry ∈ stores, entry.1.same subject := by
  rw [find?_ofStores, Variable.find?, Option.isSome_map, List.find?_isSome]
  simp

end HashTable

/-! ## Contexts -/

structure HashedContext (digest : Digest) (ι : Type) where
  input : ι
  memo : HashTable digest ι Value
  calls : List (Variable ι)

abbrev HashedLive (digest : Digest) (ι : Type) := EStateM VariableError (HashedContext digest ι)

namespace HashedLive

def call (subject : Variable ι) (values : List Value) : HashedLive digest ι Value := fun context =>
  let next := { context with calls := context.calls ++ [subject] }
  match subject.apply context.input values with
  | .ok value => .ok value next
  | .error error => .error error next

def fetch (subject : Variable ι) (compute : HashedLive digest ι Value) :
    HashedLive digest ι Value := fun context =>
  match HashTable.find? context.memo subject with
  | some value => .ok value context
  | none =>
    match compute context with
    | .ok value next => .ok value { next with memo := HashTable.store next.memo subject value }
    | .error error next => .error error next

def evaluate (subject : Variable ι) : HashedLive digest ι Value := do
  let values ← subject.dependencies.attach.mapM fun ⟨dependency, _⟩ =>
    fetch dependency (evaluate dependency)
  call subject values
termination_by sizeOf subject
decreasing_by exact sizeOf_dependency ‹_›

def get (subject : Variable ι) : HashedLive digest ι Value := fetch subject (evaluate subject)

theorem evaluate_eq (subject : Variable ι) :
    (evaluate subject : HashedLive digest ι Value) =
      subject.dependencies.mapM get >>= call subject := by
  rw [evaluate]
  congr 1
  conv_rhs => rw [← List.attach_map_subtype_val subject.dependencies, List.mapM_map]
  rfl

end HashedLive

namespace HashedContext

def new (digest : Digest) (input : ι) : HashedContext digest ι := ⟨input, ∅, []⟩

def get (context : HashedContext digest ι) (subject : Variable ι) :
    Except VariableError Value × HashedContext digest ι :=
  match HashedLive.get subject context with
  | .ok value next => (.ok value, next)
  | .error error next => (.error error, next)

def gets (context : HashedContext digest ι) :
    List (Variable ι) → List (Except VariableError Value) × HashedContext digest ι
  | [] => ([], context)
  | subject :: subjects =>
    let (result, next) := context.get subject
    let (results, last) := next.gets subjects
    (result :: results, last)

end HashedContext

/-! ## What a lookup finds -/

private theorem find?_of_same {first second : Variable ι} (h : first.same second)
    (table : List (Variable ι × α)) : Variable.find? table first = Variable.find? table second := by
  simp only [Variable.find?, same_right h]

theorem value?_remember {context : Context ι} {subject : Variable ι}
    (hnone : context.value? subject = none) (value : Value) (other : Variable ι) :
    (context.remember subject value).value? other =
      if subject.same other then some value else context.value? other := by
  have hentries : context.remember subject value =
      { context with resolved := context.resolved ++ [(subject, value)] } := by
    rw [Context.remember, hnone]
  rw [hentries, Context.value?, Context.value?, Variable.find?, List.find?_append, Option.map_or]
  by_cases hsame : subject.same other
  · have hother : Variable.find? context.resolved other = none :=
      (find?_of_same hsame _).symm.trans hnone
    rw [← Variable.find?, hother]
    simp [hsame]
  · rw [← Variable.find?]
    simp [hsame]

private theorem height_of_same {first second : Variable ι} (h : first.same second) :
    first.height = second.height :=
  Nat.le_antisymm (height_same_le h) (height_same_le (same_equivalence.symm h))

/-! ## Both contexts side by side -/

/-- Whether a context with a hash table is like one with a list. -/
structure Mirrors (hashed : HashedContext digest ι) (context : Context ι) : Prop where
  input_eq : hashed.input = context.input
  calls_eq : hashed.calls = context.calls
  find?_eq : ∀ subject, HashTable.find? hashed.memo subject = context.value? subject

def KeepsFrom (bound : Nat) (context last : Context ι) : Prop :=
  ∀ subject, bound ≤ subject.height → last.value? subject = context.value? subject

inductive EndsAlike {σ ρ : Type} (related : σ → ρ → Prop) :
    EStateM.Result VariableError σ α → EStateM.Result VariableError ρ α → Prop where
  | ok {next : σ} {last : ρ} (value : α) :
      related next last → EndsAlike related (.ok value next) (.ok value last)
  | error {next : σ} {last : ρ} (error : VariableError) :
      related next last → EndsAlike related (.error error next) (.error error last)

theorem EndsAlike.imp {σ ρ : Type} {related other : σ → ρ → Prop}
    {first : EStateM.Result VariableError σ α} {second : EStateM.Result VariableError ρ α}
    (h : EndsAlike related first second)
    (himp : ∀ next last, related next last → other next last) : EndsAlike other first second := by
  cases h with
  | ok value hnext => exact .ok value (himp _ _ hnext)
  | error error hnext => exact .error error (himp _ _ hnext)

/-- Whether a computation in a context with a hash table does what one in a context with a list
does, and remembers variables below some height only. -/
def Follows (bound : Nat) (hashed : HashedLive digest ι α) (listed : Live ι α) : Prop :=
  ∀ own context, Mirrors own context →
    EndsAlike (fun next last => Mirrors next last ∧ KeepsFrom bound context last)
      (hashed own) (listed context)

section

variable {bound higher : Nat} {hashed : HashedLive digest ι α} {listed : Live ι α}

theorem Follows.mono (h : Follows bound hashed listed) (hle : bound ≤ higher) :
    Follows higher hashed listed := fun own context hmirrors =>
  (h own context hmirrors).imp fun _ _ hend =>
    ⟨hend.1, fun subject hsubject => hend.2 subject (Nat.le_trans hle hsubject)⟩

theorem Follows.pure (value : α) :
    Follows bound (pure value : HashedLive digest ι α) (pure value) :=
  fun _ _ hmirrors => .ok value ⟨hmirrors, fun _ _ => rfl⟩

theorem Follows.bind {later : α → HashedLive digest ι β} {rest : α → Live ι β}
    (h : Follows bound hashed listed) (hrest : ∀ value, Follows bound (later value) (rest value)) :
    Follows bound (hashed >>= later) (listed >>= rest) := by
  intro own context hmirrors
  have hfirst := h own context hmirrors
  change EndsAlike _ (EStateM.bind hashed later own) (EStateM.bind listed rest context)
  rw [EStateM.bind, EStateM.bind]
  generalize hashed own = first, listed context = second at hfirst ⊢
  cases hfirst with
  | ok value hnext =>
      refine (hrest value _ _ hnext.1).imp fun _ _ hend => ⟨hend.1, fun subject hsubject => ?_⟩
      rw [hend.2 subject hsubject, hnext.2 subject hsubject]
  | error error hnext => exact .error error hnext

private theorem follows_call (subject : Variable ι) (values : List Value) :
    Follows bound (HashedLive.call subject values : HashedLive digest ι Value)
      (Live.call subject values) := by
  intro own context hmirrors
  have hnext : Mirrors { own with calls := own.calls ++ [subject] } (context.noteCall subject) :=
    ⟨hmirrors.input_eq, by rw [hmirrors.calls_eq]; rfl, hmirrors.find?_eq⟩
  rw [HashedLive.call, call_eq, ← hmirrors.input_eq]
  cases subject.apply own.input values with
  | ok value => exact .ok value ⟨hnext, fun _ _ => rfl⟩
  | error error => exact .error error ⟨hnext, fun _ _ => rfl⟩

/-- A value is stored for a variable that has no entry: while it was computed, only lower variables
were remembered. -/
theorem Follows.fetch {subject : Variable ι} {hashed : HashedLive digest ι Value}
    {listed : Live ι Value} (h : Follows subject.height hashed listed) :
    Follows (subject.height + 1) (HashedLive.fetch subject hashed) (Live.fetch subject listed) := by
  intro own context hmirrors
  rw [HashedLive.fetch, Live.fetch, hmirrors.find?_eq]
  cases hvalue : context.value? subject with
  | some value => exact .ok value ⟨hmirrors, fun _ _ => rfl⟩
  | none =>
      have hrun := h own context hmirrors
      generalize hashed own = first, listed context = second at hrun ⊢
      cases hrun with
      | ok value hend =>
          have hnone := (hend.2 subject (Nat.le_refl _)).trans hvalue
          refine .ok value ⟨⟨?_, ?_, fun other => ?_⟩, fun other hother => ?_⟩
          · rw [Context.remember, hnone]
            exact hend.1.input_eq
          · rw [Context.remember, hnone]
            exact hend.1.calls_eq
          · rw [value?_remember hnone, HashTable.find?_store, hend.1.find?_eq]
          · have hdifferent : ¬ subject.same other := fun hsame => by
              rw [height_of_same hsame] at hother
              omega
            rw [value?_remember hnone, if_neg hdifferent, hend.2 other (Nat.le_of_succ_le hother)]
      | error error hend =>
          exact .error error ⟨hend.1, fun other hother => hend.2 other (Nat.le_of_succ_le hother)⟩

private theorem follows_fetchAll {subjects : List (Variable ι)}
    (h : ∀ subject ∈ subjects,
      Follows bound (HashedLive.get subject : HashedLive digest ι Value) (Live.get subject)) :
    Follows bound (subjects.mapM HashedLive.get : HashedLive digest ι (List Value))
      (Live.fetchAll subjects) := by
  induction subjects with
  | nil =>
      rw [List.mapM_nil, Live.fetchAll]
      exact .pure []
  | cons subject subjects ih =>
      obtain ⟨hfirst, hrest⟩ := List.forall_mem_cons.mp h
      rw [List.mapM_cons, Live.fetchAll]
      exact hfirst.bind fun value => (ih hrest).bind fun values => .pure _

theorem follows_evaluate (subject : Variable ι) :
    Follows subject.height (HashedLive.evaluate subject : HashedLive digest ι Value)
      (Live.evaluate subject) := by
  rw [HashedLive.evaluate_eq, Decision.evaluate_eq]
  refine Follows.bind (follows_fetchAll fun dependency hdependency => ?_)
    fun values => follows_call subject values
  exact (follows_evaluate dependency).fetch.mono (height_dependency hdependency)
termination_by sizeOf subject
decreasing_by exact sizeOf_dependency hdependency

theorem Mirrors.gets {own : HashedContext digest ι} {context : Context ι}
    (h : Mirrors own context) (subjects : List (Variable ι)) :
    (own.gets subjects).1 = (context.gets subjects).1 ∧
      Mirrors (own.gets subjects).2 (context.gets subjects).2 := by
  induction subjects generalizing own context with
  | nil => exact ⟨rfl, h⟩
  | cons subject subjects ih =>
      have hfirst : (own.get subject).1 = (context.get subject).1 ∧
          Mirrors (own.get subject).2 (context.get subject).2 := by
        have hget := (follows_evaluate subject).fetch own context h
        rw [← HashedLive.get, ← Live.get] at hget
        rw [HashedContext.get, Context.get]
        generalize HashedLive.get subject own = first, Live.get subject context = second at hget ⊢
        cases hget with
        | ok value hend => exact ⟨rfl, hend.1⟩
        | error error hend => exact ⟨rfl, hend.1⟩
      obtain ⟨hresults, hlast⟩ := ih hfirst.2
      exact ⟨congrArg₂ List.cons hfirst.1 hresults, hlast⟩

theorem Mirrors.new (digest : Digest) (input : ι) :
    Mirrors (HashedContext.new digest input) (.new input) :=
  ⟨rfl, rfl, HashTable.find?_empty⟩

end

/-! ## Counts -/

/-- Counts in the order of the first mentions of their variables, and for each variable the place
of its count. -/
structure Counter (digest : Digest) (ι : Type) where
  counts : Tally ι
  places : HashTable digest ι Nat

namespace Counter

def raise (counter : Counter digest ι) (place : Nat) : Counter digest ι :=
  { counter with counts := counter.counts.modify place fun entry => (entry.1, entry.2 + 1) }

def mention (counter : Counter digest ι) (subject : Variable ι) : Counter digest ι :=
  match HashTable.find? counter.places subject with
  | some place => counter.raise place
  | none =>
    ⟨counter.counts ++ [(subject, 1)],
      HashTable.store counter.places subject counter.counts.length⟩

def credit (counter : Counter digest ι) (subject : Variable ι) : Counter digest ι :=
  match HashTable.find? counter.places subject with
  | some place => counter.raise place
  | none => counter

def ofRules (digest : Digest) (rules : List (Rule ι τ)) : Counter digest ι :=
  ((mentions rules).flatMap dependencies).foldl credit ((mentions rules).foldl mention ⟨[], ∅⟩)

def Placed (counter : Counter digest ι) : Prop :=
  ∀ subject, HashTable.find? counter.places subject =
    counter.counts.findIdx? (·.1.same subject)

end Counter

section

variable {counter : Counter digest ι}

private theorem bump_eq_modify (subject : Variable ι) (counted : Tally ι) :
    counted.bump subject =
      match counted.findIdx? (·.1.same subject) with
      | some place => counted.modify place fun entry => (entry.1, entry.2 + 1)
      | none => counted := by
  induction counted with
  | nil => rfl
  | cons entry counted ih =>
      rw [Tally.bump, List.findIdx?_cons]
      by_cases hsame : entry.1.same subject
      · rw [if_pos hsame, if_pos hsame]
        rfl
      · rw [if_neg hsame, if_neg hsame, ih]
        cases counted.findIdx? (·.1.same subject) <;> rfl

private theorem findIdx?_bump (subject other : Variable ι) (counted : Tally ι) :
    (counted.bump subject).findIdx? (·.1.same other) = counted.findIdx? (·.1.same other) := by
  have hplace (members : Tally ι) : members.findIdx? (·.1.same other) =
      (members.map (·.1)).findIdx? (·.same other) := by
    rw [List.findIdx?_map]
    rfl
  rw [hplace, hplace, map_bump]

private theorem findIdx?_of_same {first second : Variable ι} (h : first.same second)
    (counted : Tally ι) :
    counted.findIdx? (·.1.same first) = counted.findIdx? (·.1.same second) := by
  simp only [same_right h]

theorem Counter.Placed.credit (h : counter.Placed) (subject : Variable ι) :
    (counter.credit subject).Placed ∧
      (counter.credit subject).counts = counter.counts.bump subject := by
  have hcredit : counter.credit subject =
      { counter with counts := counter.counts.bump subject } := by
    rw [Counter.credit, bump_eq_modify, h subject]
    cases counter.counts.findIdx? (·.1.same subject) <;> rfl
  rw [hcredit]
  exact ⟨fun other => (h other).trans (findIdx?_bump subject other _).symm, rfl⟩

theorem Counter.Placed.mention (h : counter.Placed) (subject : Variable ι) :
    (counter.mention subject).Placed ∧
      (counter.mention subject).counts = counter.counts.mention subject := by
  have hknown : counter.counts.any (·.1.same subject) =
      (HashTable.find? counter.places subject).isSome := by
    rw [h subject, List.findIdx?_isSome]
  rw [Tally.mention, hknown]
  cases hplace : HashTable.find? counter.places subject with
  | some place =>
      have hcredit : counter.mention subject = counter.credit subject := by
        rw [Counter.mention, Counter.credit, hplace]
      rw [hcredit]
      exact h.credit subject
  | none =>
      have hmention : counter.mention subject = ⟨counter.counts ++ [(subject, 1)],
          HashTable.store counter.places subject counter.counts.length⟩ := by
        rw [Counter.mention, hplace]
      rw [hmention]
      refine ⟨fun other => ?_, rfl⟩
      rw [HashTable.find?_store, List.findIdx?_append, ← h other]
      by_cases hsame : subject.same other
      · have hnone : HashTable.find? counter.places other = none := by
          rw [h other, ← findIdx?_of_same hsame, ← h subject, hplace]
        simp [hsame, hnone, List.findIdx?_cons]
      · simp [hsame, List.findIdx?_cons]

theorem Counter.Placed.foldl (h : counter.Placed)
    (count : Counter digest ι → Variable ι → Counter digest ι)
    (tallied : Tally ι → Variable ι → Tally ι)
    (hstep : ∀ counter : Counter digest ι, counter.Placed → ∀ subject,
      (count counter subject).Placed ∧
        (count counter subject).counts = tallied counter.counts subject)
    (subjects : List (Variable ι)) :
    (subjects.foldl count counter).Placed ∧
      (subjects.foldl count counter).counts = subjects.foldl tallied counter.counts := by
  induction subjects generalizing counter with
  | nil => exact ⟨h, rfl⟩
  | cons subject subjects ih =>
      obtain ⟨hplaced, hcounts⟩ := hstep counter h subject
      rw [List.foldl_cons, List.foldl_cons, ← hcounts]
      exact ih hplaced

theorem Counter.ofRules_placed (digest : Digest) (rules : List (Rule ι τ)) :
    (Counter.ofRules digest rules).Placed ∧
      (Counter.ofRules digest rules).counts = tally rules := by
  have hempty : (⟨[], ∅⟩ : Counter digest ι).Placed := HashTable.find?_empty
  obtain ⟨hplaced, hcounts⟩ := hempty.foldl Counter.mention Tally.mention
    (fun _ h subject => h.mention subject) (mentions rules)
  have hall := hplaced.foldl Counter.credit (fun counted subject => counted.bump subject)
    (fun _ h subject => h.credit subject) ((mentions rules).flatMap dependencies)
  rw [hcounts] at hall
  exact hall

end

/-! ## Keys -/

/-- Being the same is an equivalence, and a comparison finds it whether or not it stops at shared
variables.  Variables are the same exactly if they feed the same to a hash function; then their
dependencies are the same one by one, both may read the input or neither does, and their texts are
equal.

So, whatever the hash function is, a table has an entry for a variable exactly if something was
stored for one that is the same.  A context that remembers values in such a table gives what one
gives that looks through all its entries, assumptions are found in a table as in a list, a table of
places counts mentions as a look through all counts does, and a rule asks for something of a
variable exactly if it mentions one that is the same. -/
theorem same_serves_as_key (digest : Digest) :
    (Equivalence fun first second : Variable ι => first.same second = true) ∧
    (∀ (first second : Variable ι) (answer : Bool),
      Compares first second answer ↔ answer = first.same second) ∧
    (∀ first second : Variable ι, first.same second ↔ first.hashInput = second.hashInput) ∧
    (∀ first second : Variable ι, first.same second →
      List.Forall₂ (fun own other => own.same other = true)
        first.dependencies second.dependencies ∧
      first.isMeta = second.isMeta ∧ first.display = second.display) ∧
    (∀ (stores : List (Variable ι × α)) (subject : Variable ι),
      HashTable.find? (HashTable.ofStores digest stores) subject =
        Variable.find? stores.reverse subject ∧
      ((HashTable.find? (HashTable.ofStores digest stores) subject).isSome ↔
        ∃ entry ∈ stores, entry.1.same subject)) ∧
    (∀ (input : ι) (subjects : List (Variable ι)), ∃ results own context,
      (HashedContext.new digest input).gets subjects = (results, own) ∧
      Context.gets (.new input) subjects = (results, context) ∧
      own.calls = context.calls ∧
      ∀ subject, HashTable.find? own.memo subject = context.value? subject ∧
        ((HashTable.find? own.memo subject).isSome ↔ context.Knows subject)) ∧
    (∀ (assumptions : Assumptions ι) (subject : Variable ι),
      HashTable.find? (HashTable.ofStores digest assumptions.reverse) subject =
        assumed? assumptions subject) ∧
    (∀ rules : List (Rule ι τ), (Counter.ofRules digest rules).counts = tally rules ∧
      (Counter.ofRules digest rules).Placed) ∧
    ∀ (rule : Rule ι τ) (subject : Variable ι), (rule.asks? subject).isSome ↔
      ∃ condition ∈ rule.conditions, condition.subject.same subject := by
  refine ⟨same_equivalence, fun _ _ _ => compares_iff, fun _ _ => same_iff_hashInput,
    fun first second h => ?_, fun stores subject => ?_, fun input subjects => ?_,
    fun assumptions subject => ?_, fun rules => (Counter.ofRules_placed digest rules).symm,
    fun rule subject => ?_⟩
  · exact ⟨forall₂_of_sameAll (sameAll_dependencies h), isMeta_of_same h, display_of_same h⟩
  · exact ⟨HashTable.find?_ofStores stores subject,
      HashTable.isSome_find?_ofStores stores subject⟩
  · obtain ⟨hresults, hlast⟩ := (Mirrors.new digest input).gets subjects
    refine ⟨_, _, _, rfl, Prod.ext hresults.symm rfl, hlast.calls_eq, fun subject =>
      ⟨hlast.find?_eq subject, ?_⟩⟩
    rw [hlast.find?_eq, ← not_iff_not, Bool.not_eq_true, Option.isSome_eq_false_iff,
      Option.isNone_iff_eq_none]
    exact value?_eq_none_iff
  · rw [HashTable.find?_ofStores, List.reverse_reverse]
    rfl
  · rw [Rule.asks?, askedValue?, Option.isSome_map, List.find?_isSome]

def totalAgain : Variable Nat :=
  .derived "total"
    [.primary "number" (fun _ => .ok .null) false,
      .predicate (.primary "number" (fun _ => .ok .null) true) "big" (fun _ => false) false,
      .primary "positive" (fun _ => .ok (.bool true)) false]
    (fun values => .ok (.list values)) false

theorem same_serves_as_key_total :
    total.same totalAgain ∧ total.hashInput = totalAgain.hashInput ∧
      total.display = totalAgain.display ∧
      HashTable.find? (HashTable.ofStores (fun writes => .ofNat writes.length)
        [(number, 1), (total, 2), (positive, 3)]) totalAgain = some 2 ∧
      HashTable.find? (HashTable.ofStores (fun writes => .ofNat writes.length)
        [(number, 1), (total, 2), (positive, 3)]) big = none := by
  obtain ⟨-, -, hhash, hagree, htable, -⟩ :=
    same_serves_as_key (ι := Nat) (τ := String) (α := Nat) fun writes => .ofNat writes.length
  have hsame : total.same totalAgain := rfl
  exact ⟨hsame, (hhash _ _).mp hsame, (hagree _ _ hsame).2.2, (htable _ totalAgain).1,
    (htable _ big).1⟩

end Runbook.Decision
