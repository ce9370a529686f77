import Runbook.Proofs.Decision.Structure

/-!
# Remembered values

A live context remembers every value that it finds, and a plain evaluation remembers none.  Both
give the same values and the same errors, and what a context remembers is just what plain
evaluations have found so far, each variable once.
-/

namespace Runbook

namespace Variable

variable {ι : Type}

/-! ## Heights -/

mutual

def height : Variable ι → Nat
  | .primary .. => 1
  | .identity _ => 1
  | .predicate source .. => height source + 1
  | .derived _ dependencies _ _ => heightAll dependencies + 1
  | .regexMatch source _ _ => height source + 1
  | .size source => height source + 1

def heightAll : List (Variable ι) → Nat
  | [] => 0
  | subject :: subjects => max (height subject) (heightAll subjects)

end

theorem height_eq (subject : Variable ι) :
    subject.height = heightAll subject.dependencies + 1 := by
  cases subject <;> simp [height, heightAll, dependencies]

theorem height_le_heightAll {subject : Variable ι} {subjects : List (Variable ι)}
    (h : subject ∈ subjects) : subject.height ≤ heightAll subjects := by
  induction subjects with
  | nil => cases h
  | cons first subjects ih =>
      rw [heightAll]
      rcases List.mem_cons.mp h with rfl | h
      · exact Nat.le_max_left _ _
      · exact Nat.le_trans (ih h) (Nat.le_max_right _ _)

theorem height_dependency {subject dependency : Variable ι}
    (h : dependency ∈ subject.dependencies) : dependency.height < subject.height := by
  rw [height_eq subject]
  exact Nat.lt_succ_of_le (height_le_heightAll h)

theorem sameAll_dependencies {first second : Variable ι} (h : first.same second) :
    sameAll first.dependencies second.dependencies := by
  cases first <;> cases second <;> try (simp [same] at h; done)
  · rfl
  · rfl
  all_goals
    simp only [same, Bool.and_eq_true] at h
    simp [dependencies, sameAll, h]

theorem exists_same_of_sameAll {first second : List (Variable ι)} (h : sameAll first second)
    {subject : Variable ι} (hsubject : subject ∈ first) :
    ∃ other ∈ second, subject.same other := by
  induction first generalizing second with
  | nil => cases hsubject
  | cons own rest ih =>
      cases second with
      | nil => cases h
      | cons other others =>
          obtain ⟨hfirst, hrest⟩ : own.same other ∧ sameAll rest others := by
            simpa [sameAll] using h
          rcases List.mem_cons.mp hsubject with rfl | hsubject
          · exact ⟨other, List.mem_cons_self, hfirst⟩
          · obtain ⟨found, hfound, hsame⟩ := ih hrest hsubject
            exact ⟨found, List.mem_cons_of_mem _ hfound, hsame⟩

private theorem heightAll_le {subjects : List (Variable ι)} {bound : Nat}
    (h : ∀ subject ∈ subjects, subject.height ≤ bound) : heightAll subjects ≤ bound := by
  induction subjects with
  | nil => exact Nat.zero_le _
  | cons subject subjects ih =>
      obtain ⟨hsubject, hsubjects⟩ := List.forall_mem_cons.mp h
      rw [heightAll]
      exact Nat.max_le.mpr ⟨hsubject, ih hsubjects⟩

theorem height_same_le {first second : Variable ι} (h : first.same second) :
    first.height ≤ second.height := by
  rw [height_eq first, height_eq second]
  refine Nat.succ_le_succ (heightAll_le fun dependency hdependency => ?_)
  obtain ⟨other, hother, hsame⟩ := exists_same_of_sameAll (sameAll_dependencies h) hdependency
  exact Nat.le_trans (height_same_le hsame) (height_le_heightAll hother)
termination_by sizeOf first
decreasing_by exact sizeOf_dependency hdependency

/-! ## Plain evaluations -/

def ifValued (input : ι) (subject : Variable ι) : List (Variable ι) :=
  if (subject.valueOn input).isOk then [subject] else []

mutual

/-- The variables that a plain evaluation of a variable evaluates successfully, as often as it does:
the dependencies one after another up to the first that fails, and then the variable itself. -/
def evaluatedOn (input : ι) : Variable ι → List (Variable ι)
  | .primary name read traced => ifValued input (.primary name read traced)
  | .identity convert => ifValued input (.identity convert)
  | .predicate source label test traced =>
    evaluatedOn input source ++ ifValued input (.predicate source label test traced)
  | .derived name dependencies derive traced =>
    evaluatedAllOn input dependencies ++ ifValued input (.derived name dependencies derive traced)
  | .regexMatch source pattern regex =>
    evaluatedOn input source ++ ifValued input (.regexMatch source pattern regex)
  | .size source => evaluatedOn input source ++ ifValued input (.size source)

def evaluatedAllOn (input : ι) : List (Variable ι) → List (Variable ι)
  | [] => []
  | subject :: subjects =>
    evaluatedOn input subject ++
      if (subject.valueOn input).isOk then evaluatedAllOn input subjects else []

end

theorem evaluatedOn_eq (input : ι) (subject : Variable ι) :
    subject.evaluatedOn input =
      evaluatedAllOn input subject.dependencies ++ subject.ifValued input := by
  cases subject <;> simp [evaluatedOn, evaluatedAllOn, dependencies]

theorem exists_of_mem_evaluatedAllOn {input : ι} {subjects : List (Variable ι)}
    {found : Variable ι} (h : found ∈ evaluatedAllOn input subjects) :
    ∃ subject ∈ subjects, found ∈ subject.evaluatedOn input := by
  induction subjects with
  | nil => cases h
  | cons subject subjects ih =>
      rw [evaluatedAllOn] at h
      rcases List.mem_append.mp h with hfirst | hrest
      · exact ⟨subject, List.mem_cons_self, hfirst⟩
      · split at hrest
        · obtain ⟨other, hother, hfound⟩ := ih hrest
          exact ⟨other, List.mem_cons_of_mem _ hother, hfound⟩
        · cases hrest

theorem mem_ifValued {input : ι} {subject found : Variable ι} :
    found ∈ subject.ifValued input ↔ found = subject ∧ (subject.valueOn input).isOk := by
  rw [ifValued]
  split <;> simp_all

theorem height_evaluatedOn {input : ι} {subject found : Variable ι}
    (h : found ∈ subject.evaluatedOn input) : found.height ≤ subject.height := by
  rw [evaluatedOn_eq] at h
  rcases List.mem_append.mp h with hbelow | hown
  · obtain ⟨dependency, hdependency, hfound⟩ := exists_of_mem_evaluatedAllOn hbelow
    exact Nat.le_trans (height_evaluatedOn hfound) (Nat.le_of_lt (height_dependency hdependency))
  · exact Nat.le_of_eq (congrArg height (mem_ifValued.mp hown).1)
termination_by sizeOf subject
decreasing_by exact sizeOf_dependency hdependency

/-- A plain evaluation of the dependencies of a variable does not come to the variable itself. -/
private theorem not_same_below {input : ι} {subject found : Variable ι}
    (h : found ∈ evaluatedAllOn input subject.dependencies) : found.same subject = false := by
  refine Bool.eq_false_iff.mpr fun hsame => ?_
  obtain ⟨dependency, hdependency, hfound⟩ := exists_of_mem_evaluatedAllOn h
  rw [same_comm] at hsame
  have hle := height_same_le hsame
  have hbelow := height_evaluatedOn hfound
  have hlt := height_dependency hdependency
  omega

private theorem mem_evaluatedAllOn_of_ok {input : ι} {subjects : List (Variable ι)}
    {values : List Value}
    (h : valuesOn input subjects = .ok values) :
    ∀ subject ∈ subjects, subject ∈ evaluatedAllOn input subjects := by
  induction subjects generalizing values with
  | nil => simp
  | cons first subjects ih =>
      rw [valuesOn] at h
      cases hfirst : first.valueOn input with
      | error error => simp [hfirst, bind, Except.bind] at h
      | ok value =>
          cases hrest : valuesOn input subjects with
          | error error => simp [hfirst, hrest, bind, Except.bind] at h
          | ok rest =>
              have hvalued : (first.valueOn input).isOk = true := by rw [hfirst]; rfl
              rw [evaluatedAllOn, if_pos hvalued, evaluatedOn_eq]
              refine List.forall_mem_cons.mpr ⟨?_, fun subject hsubject => ?_⟩
              · simp [mem_ifValued, hvalued]
              · exact List.mem_append_right _ (ih hrest subject hsubject)

end Variable

namespace Decision

open Variable

variable {ι α : Type} {known : Variable ι → Prop} {input : ι} {context next : Context ι}

/-! ## Known variables -/

def Context.Knows (context : Context ι) (subject : Variable ι) : Prop :=
  ∃ entry ∈ context.resolved, entry.1.same subject

theorem value?_eq_none_iff {subject : Variable ι} :
    context.value? subject = none ↔ ¬ context.Knows subject := by
  simp [Context.value?, Variable.find?, Context.Knows]

theorem Context.Knows.of_same {subject other : Variable ι} (h : context.Knows subject)
    (hsame : subject.same other) : context.Knows other := by
  obtain ⟨entry, hentry, hown⟩ := h
  exact ⟨entry, hentry, same_trans hown hsame⟩

/-- A context that has seen no value but those on its input, that knows with every variable its
dependencies, and in which the variables whose own functions succeeded are those that it knows. -/
structure Remembers (known : Variable ι → Prop) (input : ι) (context : Context ι) : Prop
    extends Faithful known input context where
  separate : Separate (context.resolved.map (·.1))
  closed : ∀ entry ∈ context.resolved, ∀ dependency ∈ entry.1.dependencies,
    context.Knows dependency
  succeeded : context.calls.filter (fun subject => (subject.valueOn input).isOk) =
    context.resolved.map (·.1)
  supplied : ∀ subject ∈ context.calls, ∃ values, valuesOn input subject.dependencies = .ok values

theorem Remembers.new (known : Variable ι → Prop) (input : ι) :
    Remembers known input (.new input) where
  toFaithful := .new known input
  separate := List.Pairwise.nil
  closed := by simp [Context.new]
  succeeded := rfl
  supplied := by simp [Context.new]

theorem Remembers.dependency (h : Remembers known input context) {subject dependency : Variable ι}
    (hknows : context.Knows subject) (hdependency : dependency ∈ subject.dependencies) :
    context.Knows dependency := by
  obtain ⟨entry, hentry, hsame⟩ := hknows
  rw [same_comm] at hsame
  obtain ⟨other, hother, hown⟩ := exists_same_of_sameAll (sameAll_dependencies hsame) hdependency
  rw [same_comm] at hown
  exact (h.closed entry hentry other hother).of_same hown

theorem Remembers.knows (h : Remembers known input context) {subject found : Variable ι}
    (hknows : context.Knows subject) (hfound : found ∈ subject.evaluatedOn input) :
    context.Knows found := by
  rw [evaluatedOn_eq] at hfound
  rcases List.mem_append.mp hfound with hbelow | hown
  · obtain ⟨dependency, hdependency, hfound⟩ := exists_of_mem_evaluatedAllOn hbelow
    exact Remembers.knows h (h.dependency hknows hdependency) hfound
  · rw [(mem_ifValued.mp hown).1]
    exact hknows
termination_by sizeOf subject
decreasing_by exact sizeOf_dependency hdependency

/-! ## What a computation adds -/

def Learns (context next : Context ι) (found : List (Variable ι)) : Prop :=
  ∀ subject, next.Knows subject ↔
    context.Knows subject ∨ ∃ other ∈ found, other.same subject

theorem Learns.nothing (context : Context ι) : Learns context context [] := by
  simp [Learns]

theorem Learns.append {last : Context ι} {found others : List (Variable ι)}
    (h : Learns context next found) (hlast : Learns next last others) :
    Learns context last (found ++ others) := by
  intro subject
  rw [hlast subject, h subject, or_assoc]
  simp only [List.mem_append, or_and_right, exists_or]

def ended (result : Except VariableError α) (context : Context ι) :
    EStateM.Result VariableError (Context ι) α :=
  match result with
  | .ok value => .ok value context
  | .error error => .error error context

theorem bind_run {β : Type} (computation : Live ι α) (rest : α → Live ι β) (context : Context ι) :
    (computation >>= rest) context =
      match computation context with
      | .ok value next => rest value next
      | .error error next => .error error next := by
  change EStateM.bind computation rest context = _
  rw [EStateM.bind]
  cases computation context <;> rfl

/-- Whether a computation gives a result in all contexts and learns some variables. -/
def Fills (known : Variable ι → Prop) (input : ι) (computation : Live ι α)
    (result : Except VariableError α) (found : List (Variable ι)) : Prop :=
  ∀ context, Remembers known input context → ∃ next, computation context = ended result next ∧
    Remembers known input next ∧ Learns context next found

private theorem fills_fetchAll {subjects : List (Variable ι)}
    (h : ∀ subject ∈ subjects,
      Fills known input (Live.get subject) (subject.valueOn input) (subject.evaluatedOn input)) :
    Fills known input (Live.fetchAll subjects) (valuesOn input subjects)
      (evaluatedAllOn input subjects) := by
  induction subjects with
  | nil => exact fun context hcontext => ⟨context, rfl, hcontext, .nothing context⟩
  | cons subject subjects ih =>
      obtain ⟨hfirst, hrest⟩ := List.forall_mem_cons.mp h
      intro context hcontext
      obtain ⟨next, hget, hnext, hlearns⟩ := hfirst context hcontext
      have hrun : Live.fetch subject (Live.evaluate subject) context = _ := hget
      rw [Live.fetchAll, valuesOn, evaluatedAllOn, bind_run, hrun]
      cases hvalue : subject.valueOn input with
      | error error =>
          refine ⟨next, rfl, hnext, ?_⟩
          simpa [Except.isOk, Except.toBool] using hlearns
      | ok value =>
          obtain ⟨last, hall, hlast, hlater⟩ := ih hrest next hnext
          refine ⟨last, ?_, hlast, hlearns.append hlater⟩
          dsimp only [ended]
          rw [bind_run, hall]
          cases valuesOn input subjects <;> rfl

theorem remember_new {subject : Variable ι} (hnew : ¬ context.Knows subject) (value : Value) :
    (context.noteCall subject).remember subject value =
      { context with
        resolved := context.resolved ++ [(subject, value)]
        calls := context.calls ++ [subject] } := by
  have hnone : (context.noteCall subject).value? subject = none := value?_eq_none_iff.mpr hnew
  rw [Context.remember, hnone]
  rfl

theorem Learns.remember {subject : Variable ι} (hnew : ¬ context.Knows subject) (value : Value) :
    Learns context ((context.noteCall subject).remember subject value) [subject] := by
  intro other
  rw [remember_new hnew]
  simp [Context.Knows, or_and_right, exists_or]

theorem Remembers.noteFailure (h : Remembers known input context) {subject : Variable ι}
    {values : List Value} (hvalues : valuesOn input subject.dependencies = .ok values)
    (hfails : (subject.valueOn input).isOk = false) :
    Remembers known input (context.noteCall subject) where
  input_eq := h.input_eq
  agrees := h.agrees
  separate := h.separate
  closed := h.closed
  succeeded := by
    rw [Context.noteCall, List.filter_append, h.succeeded]
    simp [hfails]
  supplied other hother := by
    rcases List.mem_append.mp hother with hold | hnew
    · exact h.supplied other hold
    · exact List.mem_singleton.mp hnew ▸ ⟨values, hvalues⟩

theorem Remembers.noteSuccess (h : Remembers known input context) {subject : Variable ι}
    (hknown : known subject) (hnew : ¬ context.Knows subject) {values : List Value}
    (hvalues : valuesOn input subject.dependencies = .ok values)
    (hdependencies : ∀ dependency ∈ subject.dependencies, context.Knows dependency) {value : Value}
    (hvalue : subject.valueOn input = .ok value) :
    Remembers known input ((context.noteCall subject).remember subject value) := by
  have hlearns := Learns.remember hnew value
  have hfaithful : Faithful known input ((context.noteCall subject).remember subject value) :=
    Faithful.remember ⟨h.input_eq, h.agrees⟩ hknown hvalue
  rw [remember_new hnew] at hlearns hfaithful ⊢
  refine ⟨hfaithful, ?_, fun entry hentry dependency hdependency => ?_, ?_, fun other hother => ?_⟩
  · rw [List.map_append, Separate, List.pairwise_append]
    refine ⟨h.separate, List.pairwise_singleton _ _, fun earlier hearlier later hlater => ?_⟩
    obtain ⟨entry, hentry, rfl⟩ := List.mem_map.mp hearlier
    rw [List.mem_singleton.mp hlater]
    exact Bool.eq_false_iff.mpr fun hsame => hnew ⟨entry, hentry, hsame⟩
  · refine (hlearns dependency).mpr (.inl ?_)
    rcases List.mem_append.mp hentry with hold | hlast
    · exact h.closed entry hold dependency hdependency
    · rw [List.mem_singleton.mp hlast] at hdependency
      exact hdependencies dependency hdependency
  · have hvalued : (subject.valueOn input).isOk = true := by rw [hvalue]; rfl
    rw [List.filter_append, h.succeeded, List.map_append]
    simp [hvalued]
  · rcases List.mem_append.mp hother with hold | hlast
    · exact h.supplied other hold
    · exact List.mem_singleton.mp hlast ▸ ⟨values, hvalues⟩

/-- By induction on the variable.  A variable is not among those that the evaluation of its own
dependencies learns, so its own function is not called for it twice. -/
theorem fills_get (hcoherent : Coherent known) {subject : Variable ι} (hknown : known subject) :
    Fills known input (Live.get subject) (subject.valueOn input) (subject.evaluatedOn input) := by
  intro context hcontext
  rw [Live.get, Live.fetch]
  cases hfind : context.value? subject with
  | some value =>
      have hknows : context.Knows subject := by
        by_contra hnew
        rw [value?_eq_none_iff.mpr hnew] at hfind
        cases hfind
      rw [hcontext.agrees.find? hcoherent hknown hfind]
      refine ⟨context, rfl, hcontext, fun other => ⟨.inl, ?_⟩⟩
      rintro (hother | ⟨found, hfound, hsame⟩)
      · exact hother
      · exact (hcontext.knows hknows hfound).of_same hsame
  | none =>
      obtain ⟨middle, hrun, hmiddle, hbelow⟩ :=
        fills_fetchAll (fun dependency hdependency =>
          fills_get hcoherent (hcoherent.closed subject hknown dependency hdependency))
          context hcontext
      have hnew : ¬ middle.Knows subject := by
        rw [hbelow subject, not_or]
        refine ⟨value?_eq_none_iff.mp hfind, ?_⟩
        rintro ⟨found, hfound, hsame⟩
        rw [not_same_below hfound] at hsame
        cases hsame
      dsimp only
      rw [evaluate_eq, evaluatedOn_eq, bind_run, hrun]
      cases hvalues : valuesOn input subject.dependencies with
      | error error =>
          have hvalue : subject.valueOn input = .error error := by rw [valueOn_eq, hvalues]; rfl
          have hfails : (subject.valueOn input).isOk = false := by rw [hvalue]; rfl
          refine ⟨middle, by rw [hvalue]; rfl, hmiddle, ?_⟩
          rw [ifValued, hfails, if_neg Bool.false_ne_true, List.append_nil]
          exact hbelow
      | ok values =>
          have happly : subject.valueOn input = subject.apply input values := by
            rw [valueOn_eq, hvalues]
            rfl
          dsimp only [ended]
          rw [call_eq, hmiddle.input_eq, ← happly]
          cases hvalue : subject.valueOn input with
          | error error =>
              have hfails : (subject.valueOn input).isOk = false := by rw [hvalue]; rfl
              refine ⟨middle.noteCall subject, rfl, hmiddle.noteFailure hvalues hfails, ?_⟩
              rw [ifValued, hfails, if_neg Bool.false_ne_true, List.append_nil]
              exact hbelow
          | ok value =>
              have hvalued : (subject.valueOn input).isOk = true := by rw [hvalue]; rfl
              have hdependencies : ∀ dependency ∈ subject.dependencies, middle.Knows dependency :=
                fun dependency hdependency => (hbelow dependency).mpr (.inr ⟨dependency,
                  mem_evaluatedAllOn_of_ok hvalues dependency hdependency, same_refl dependency⟩)
              refine ⟨_, rfl, hmiddle.noteSuccess hknown hnew hvalues hdependencies hvalue, ?_⟩
              rw [ifValued, if_pos hvalued]
              exact hbelow.append (.remember hnew value)
termination_by sizeOf subject
decreasing_by exact sizeOf_dependency hdependency

/-! ## Series of requests -/

def Context.get (context : Context ι) (subject : Variable ι) :
    Except VariableError Value × Context ι :=
  match Live.get subject context with
  | .ok value next => (.ok value, next)
  | .error error next => (.error error, next)

def Context.gets (context : Context ι) :
    List (Variable ι) → List (Except VariableError Value) × Context ι
  | [] => ([], context)
  | subject :: subjects =>
    let (result, next) := context.get subject
    let (results, last) := next.gets subjects
    (result :: results, last)

theorem Remembers.gets (hcoherent : Coherent known) (h : Remembers known input context)
    {subjects : List (Variable ι)} (hknown : ∀ subject ∈ subjects, known subject) :
    ∃ last, context.gets subjects = (subjects.map (valueOn input), last) ∧
      Remembers known input last ∧ Learns context last (subjects.flatMap (evaluatedOn input)) := by
  induction subjects generalizing context with
  | nil => exact ⟨context, rfl, h, .nothing context⟩
  | cons subject subjects ih =>
      obtain ⟨hfirst, hrest⟩ := List.forall_mem_cons.mp hknown
      obtain ⟨next, hget, hnext, hlearns⟩ := fills_get hcoherent hfirst context h
      obtain ⟨last, hgets, hlast, hlater⟩ := ih hnext hrest
      refine ⟨last, ?_, hlast, hlearns.append hlater⟩
      rw [Context.gets, Context.get, hget]
      cases hvalue : subject.valueOn input <;> simp [ended, hgets, hvalue]

def Requested (subjects : List (Variable ι)) (subject : Variable ι) : Prop :=
  ∃ asked ∈ subjects, Relation.ReflTransGen (fun a b => b ∈ a.dependencies) asked subject

private theorem distinct_separate (subjects : List (Variable ι)) : Separate (distinct subjects) :=
  List.pairwise_pwFilter _

theorem Remembers.resolvedCount (h : Remembers known input context) {found : List (Variable ι)}
    (hfound : ∀ subject, context.Knows subject ↔ ∃ other ∈ found, other.same subject) :
    context.resolvedCount = (distinct found).length := by
  rw [Context.resolvedCount, ← List.length_map (·.1)]
  refine Nat.le_antisymm (h.separate.length_le_of_same fun subject hsubject => ?_)
    ((distinct_separate found).length_le_of_same fun subject hsubject => ?_)
  · obtain ⟨entry, hentry, rfl⟩ := List.mem_map.mp hsubject
    obtain ⟨other, hother, hsame⟩ := (hfound entry.1).mp ⟨entry, hentry, same_refl entry.1⟩
    obtain ⟨kept, hkept, hkeeps⟩ := exists_mem_distinct hother
    rw [same_comm] at hsame
    exact ⟨kept, hkept, same_trans hsame hkeeps⟩
  · obtain ⟨entry, hentry, hsame⟩ :=
      (hfound subject).mpr ⟨subject, List.pwFilter_subset _ hsubject, same_refl subject⟩
    rw [same_comm] at hsame
    exact ⟨entry.1, List.mem_map_of_mem hentry, hsame⟩

/-- Getting variables from one context, however they hang on each other and whichever of them fail,
gives for each the value or the error of its plain evaluation.  Own functions are called on plain
values; those that succeed belong to different variables; and what the context knows in the end is
what the plain evaluations find, each variable once. -/
theorem gets_plain (input : ι) {subjects : List (Variable ι)}
    (hsame : ∀ a b, Requested subjects a → Requested subjects b → a.same b →
      ∀ input, a.valueOn input = b.valueOn input) :
    ∃ last : Context ι,
      Context.gets (.new input) subjects = (subjects.map (valueOn input), last) ∧
      (∀ subject ∈ last.calls, ∃ values, valuesOn input subject.dependencies = .ok values ∧
        subject.valueOn input = subject.apply input values) ∧
      Separate (last.calls.filter fun subject => (subject.valueOn input).isOk) ∧
      last.calls.filter (fun subject => (subject.valueOn input).isOk) = last.resolved.map (·.1) ∧
      (∀ entry ∈ last.resolved, entry.1.valueOn input = .ok entry.2) ∧
      (∀ subject, last.Knows subject ↔
        ∃ found ∈ subjects.flatMap (evaluatedOn input), found.same subject) ∧
      last.resolvedCount = (distinct (subjects.flatMap (evaluatedOn input))).length := by
  have hcoherent : Coherent (Requested subjects) := by
    refine ⟨?_, hsame⟩
    rintro subject ⟨asked, hasked, hpath⟩ dependency hdependency
    exact ⟨asked, hasked, hpath.tail hdependency⟩
  obtain ⟨last, hgets, hlast, hlearns⟩ := (Remembers.new (Requested subjects) input).gets hcoherent
    fun subject hsubject => ⟨subject, hsubject, .refl⟩
  have hknows : ∀ subject, last.Knows subject ↔
      ∃ found ∈ subjects.flatMap (evaluatedOn input), found.same subject := by
    intro subject
    rw [hlearns subject]
    simp [Context.Knows, Context.new]
  refine ⟨last, hgets, fun subject hsubject => ?_, ?_, hlast.succeeded,
    fun entry hentry => (hlast.agrees entry hentry).2, hknows, hlast.resolvedCount hknows⟩
  · obtain ⟨values, hvalues⟩ := hlast.supplied subject hsubject
    refine ⟨values, hvalues, ?_⟩
    rw [valueOn_eq, hvalues]
    rfl
  · rw [hlast.succeeded]
    exact hlast.separate

def number : Variable Nat := .primary "number" (fun input => .ok (.ofNat input)) true

def positive : Variable Nat :=
  .primary "positive" (fun input => if input = 0 then .error (.failed "positive" "zero") else
    .ok (.ofNat input)) true

def big : Variable Nat := .predicate number "big" (fun value => value = .int 9) true

def total : Variable Nat := .derived "total" [number, big, positive] (fun _ => .ok .null) true

theorem mem_of_requested {subjects members : List (Variable ι)} (hsubjects : subjects ⊆ members)
    (hclosed : ∀ member ∈ members, member.dependencies ⊆ members) {subject : Variable ι}
    (h : Requested subjects subject) : subject ∈ members := by
  obtain ⟨asked, hasked, hpath⟩ := h
  induction hpath with
  | refl => exact hsubjects hasked
  | tail _ hdependency ih => exact hclosed _ ih hdependency

theorem gets_plain_after_failure :
    ∃ last : Context Nat,
      Context.gets (.new 0) [total, big, positive, number, total] =
        ([.error (.failed "positive" "zero"), .ok (.bool false),
          .error (.failed "positive" "zero"), .ok (.int 0),
          .error (.failed "positive" "zero")], last) ∧
      last.resolvedCount = 2 ∧ last.calls.length = 5 := by
  have hsame : ∀ a b, Requested [total, big, positive, number, total] a →
      Requested [total, big, positive, number, total] b → a.same b →
      ∀ input, a.valueOn input = b.valueOn input := by
    intro a b ha hb hsame input
    have hsubjects : [total, big, positive, number, total] ⊆ [total, big, positive, number] := by
      simp
    have hclosed : ∀ member ∈ [total, big, positive, number],
        member.dependencies ⊆ [total, big, positive, number] := by
      simp [total, big, positive, number, dependencies]
    have hfirst := mem_of_requested hsubjects hclosed ha
    have hsecond := mem_of_requested hsubjects hclosed hb
    simp only [List.mem_cons, List.not_mem_nil, or_false] at hfirst hsecond
    rcases hfirst with rfl | rfl | rfl | rfl <;> rcases hsecond with rfl | rfl | rfl | rfl <;>
      first | rfl | cases hsame
  obtain ⟨last, hgets, -, -, -, -, -, hcount⟩ := gets_plain 0 hsame
  refine ⟨last, hgets, ?_, ?_⟩
  · rw [hcount]
    rfl
  · rw [show last = (Context.gets (.new 0) [total, big, positive, number, total]).2 by rw [hgets]]
    rfl

end Decision

end Runbook
