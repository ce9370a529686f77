import Runbook.Proofs.Decision.PathConditions
import Mathlib.Data.List.Induction

/-!
# Parameters of paths

What the named parameters of a path expression are in a path.  A path is long enough for them if it
goes beyond the last one, and where the conditions of an exact expression hold, the values of the
parameters put back into the expression give the steps of the path.
-/

namespace Runbook.Decision

open PathExpression Variable

variable {ι : Type} {known : Variable ι → Prop} {input : ι} {context : Context ι}

/-! ## Values in any context -/

def holdAll : List (Condition ι) → Live ι Bool
  | [] => pure true
  | condition :: conditions => do
    let value ← Live.get condition.subject
    if value = condition.value then holdAll conditions else pure false

theorem get_of_value (hcoherent : Coherent known) (hfaithful : Faithful known input context)
    {subject : Variable ι} (hknown : known subject) {value : Value}
    (h : subject.valueOn input = .ok value) :
    ∃ next, Live.get subject context = .ok value next ∧ Faithful known input next := by
  have hget := computes_get hcoherent hknown context hfaithful
  cases hrun : Live.get subject context with
  | ok found next =>
      rw [hrun, h] at hget
      obtain ⟨hvalue, hnext⟩ := hget
      cases hvalue
      exact ⟨next, rfl, hnext⟩
  | error error next =>
      rw [hrun, h] at hget
      cases hget.1

theorem value_of_get (hcoherent : Coherent known) (hfaithful : Faithful known input context)
    {subject : Variable ι} (hknown : known subject) {value : Value} {next : Context ι}
    (h : Live.get subject context = .ok value next) :
    subject.valueOn input = .ok value ∧ Faithful known input next := by
  have hget := computes_get hcoherent hknown context hfaithful
  rwa [h] at hget

private theorem hold_of_holdAll (hcoherent : Coherent known) {conditions : List (Condition ι)}
    (hknown : ∀ condition ∈ conditions, known condition.subject)
    (hfaithful : Faithful known input context) {next : Context ι}
    (h : holdAll conditions context = .ok true next) :
    conditions.all (·.holdsOn input) ∧ Faithful known input next := by
  induction conditions generalizing context with
  | nil =>
      cases h
      exact ⟨rfl, hfaithful⟩
  | cons condition conditions ih =>
      rw [List.forall_mem_cons] at hknown
      rw [holdAll] at h
      change EStateM.bind (Live.get condition.subject) _ context = _ at h
      rw [EStateM.bind] at h
      cases hrun : Live.get condition.subject context with
      | error error seen =>
          rw [hrun] at h
          cases h
      | ok value seen =>
          rw [hrun] at h
          obtain ⟨hvalue, hseen⟩ := value_of_get hcoherent hfaithful hknown.1 hrun
          dsimp only at h
          split at h
          · next hequal =>
            obtain ⟨hothers, hnext⟩ := ih hknown.2 hseen h
            have hholds : condition.holdsOn input := by
              rw [Condition.holdsOn_iff hcoherent hknown.1, hvalue, hequal]
            exact ⟨by simp [hholds, hothers], hnext⟩
          · cases h

private theorem firstValue_eq (hcoherent : Coherent known) {subject : Variable ι}
    (hknown : known subject) :
    firstValue input subject = subject.valueOn input := by
  have hget := computes_get hcoherent hknown (.new input) (.new known input)
  rw [firstValue]
  cases hrun : Live.get subject (.new input) <;> rw [hrun] at hget <;> exact hget.1.symm

private theorem valueOn_segmentsOf {path : Variable ι} {text : String}
    (h : path.valueOn input = .ok (.str text)) :
    (segmentsOf path).valueOn input = .ok (.list ((parsePath text).map .str)) := by
  rw [segmentsOf, valueOn, valuesOn, valuesOn, h]
  rfl

/-! ## Steps and parameters -/

/-- The steps of a source with the values of parameters in place of the named ones and the steps of
a path in place of the other parameters, if there are just as many of each. -/
def refilled? : List String → List (String × String) → List String → Option (List String)
  | [], [], [] => some []
  | step :: steps, values, text :: texts =>
    match Parameter.read? step, values with
    | none, values => (refilled? steps values texts).map (step :: ·)
    | some { name := none, .. }, values => (refilled? steps values texts).map (text :: ·)
    | some { name := some name, .. }, (own, value) :: values =>
      if own = name then (refilled? steps values texts).map (value :: ·) else none
    | some { name := some _, .. }, [] => none
  | _, _, _ => none

private theorem parameterValues?_eq_some_iff (texts : List String)
    (parameters : List (Nat × String)) :
    (∃ values, parameterValues? (texts.map .str) parameters = some values) ↔
      ∀ parameter ∈ parameters, parameter.1 < texts.length := by
  induction parameters with
  | nil => simp [parameterValues?]
  | cons parameter parameters ih =>
      rw [List.forall_mem_cons, ← ih]
      by_cases hlong : parameter.1 < texts.length
      · simp [parameterValues?, hlong, Value.str?, Option.bind_eq_some_iff]
      · simp [parameterValues?, hlong]

private theorem parameterValues?_names {steps : List Value} {parameters : List (Nat × String)}
    {values : List (String × String)} (h : parameterValues? steps parameters = some values) :
    values.map (·.1) = parameters.map (·.2) := by
  induction parameters generalizing values with
  | nil =>
      cases h
      rfl
  | cons parameter parameters ih =>
      simp only [parameterValues?, Option.bind_eq_bind, Option.bind_eq_some_iff, Option.pure_def,
        Option.some.injEq] at h
      obtain ⟨step, -, text, -, others, hothers, rfl⟩ := h
      simp [ih hothers]

private theorem refilled_of_admits {steps texts : List String} (front : List String)
    (h : List.Forall₂ Admits steps texts) :
    ∃ values, parameterValues? ((front ++ texts).map .str)
        (namedParameters (steps.zipIdx front.length)) = some values ∧
      refilled? steps values texts = some texts := by
  induction h generalizing front with
  | nil => exact ⟨[], rfl, rfl⟩
  | @cons step text steps texts hadmits _ ih =>
      obtain ⟨values, hvalues, hrefilled⟩ := ih (front ++ [text])
      rw [List.append_assoc, List.singleton_append, List.length_append, List.length_singleton] at hvalues
      cases hread : Parameter.read? step with
      | none =>
          rw [admits_literal_iff hread] at hadmits
          subst hadmits
          exact ⟨values, by simpa [namedParameters, List.zipIdx_cons, hread] using hvalues,
            by simp [refilled?, hread, hrefilled]⟩
      | some parameter =>
          obtain ⟨name, pattern⟩ := parameter
          cases name with
          | none =>
              exact ⟨values, by simpa [namedParameters, List.zipIdx_cons, hread] using hvalues,
                by simp [refilled?, hread, hrefilled]⟩
          | some name =>
              refine ⟨(name, text) :: values, ?_, by simp [refilled?, hread, hrefilled]⟩
              have hnamed : namedParameters ((step :: steps).zipIdx front.length) =
                  (front.length, name) :: namedParameters (steps.zipIdx (front.length + 1)) := by
                simp [namedParameters, List.zipIdx_cons, hread]
              rw [hnamed, parameterValues?, hvalues]
              simp [Value.str?]

private theorem namedParameters_ascend (steps : List String) (first : Nat) :
    (namedParameters (steps.zipIdx first)).Pairwise (·.1 < ·.1) := by
  have hplaces : (steps.zipIdx first).Pairwise (·.2 < ·.2) := by
    rw [← List.pairwise_map (f := Prod.snd) (R := (· < ·)), List.zipIdx_map_snd]
    exact List.pairwise_lt_range'
  refine List.pairwise_filterMap.mpr (hplaces.imp fun {entry other} hbefore => ?_)
  obtain ⟨step, place⟩ := entry
  obtain ⟨later, laterPlace⟩ := other
  rintro parameter hparameter another hanother
  dsimp only at hparameter hanother
  split at hparameter <;> cases hparameter
  split at hanother <;> cases hanother
  exact hbefore

private theorem lt_length_iff_last {parameters : List (Nat × String)}
    (h : parameters.Pairwise (·.1 < ·.1))
    (length : Nat) : (∀ parameter ∈ parameters, parameter.1 < length) ↔
      ∀ parameter ∈ parameters.getLast?, parameter.1 < length := by
  induction parameters using List.reverseRecOn with
  | nil => simp
  | append_singleton front last _ =>
      have hlast : ∀ parameter ∈ front, parameter.1 < last.1 := by
        simpa using (List.pairwise_append.mp h).2.2
      constructor
      · intro hall parameter hparameter
        exact hall parameter (List.mem_of_getLast? hparameter)
      · intro hlength parameter hparameter
        have hlong : last.1 < length := hlength last (by simp)
        rcases List.mem_append.mp hparameter with hfront | hown
        · exact Nat.lt_trans (hlast parameter hfront) hlong
        · rw [List.mem_singleton.mp hown]
          exact hlong

/-! ## Expressions -/

namespace PathExpression

variable {path : Variable ι} {source : String} {exact : Bool} {expression : PathExpression ι}

theorem new_eq (h : new path source exact = .ok expression) :
    expression.path = path ∧ expression.segments = segmentsOf path ∧
      expression.parameters = namedParameters (parsePath source).zipIdx := by
  by_cases hsource : IsParametrized source
  · rw [new, if_pos (by simpa [IsParametrized] using hsource)] at h
    cases hconditions : stepConditions (segmentsOf path) (parsePath source).zipIdx with
    | error error => simp [hconditions, bind, Except.bind] at h
    | ok conditions =>
        simp only [hconditions, bind, Except.bind, pure, Except.pure, Except.ok.injEq] at h
        subst h
        exact ⟨rfl, rfl, rfl⟩
  · have hplain := read?_of_plain hsource
    rw [new, if_neg (by simpa [IsParametrized] using hsource)] at h
    cases h
    refine ⟨rfl, rfl, ?_⟩
    rw [namedParameters, List.filterMap_eq_nil_iff.mpr]
    intro entry hentry
    have hstep : entry.1 ∈ parsePath source := by
      have hmem := List.mem_map_of_mem (f := Prod.fst) hentry
      rwa [List.zipIdx_map_fst] at hmem
    simp [hplain entry.1 hstep]

theorem extractParameters_eq (hcoherent : Coherent known)
    (h : new path source exact = .ok expression) (hknown : known (segmentsOf path))
    (hfaithful : Faithful known input context) {text : String}
    (hpath : path.valueOn input = .ok (.str text)) :
    ∃ last, expression.extractParameters context =
      match parameterValues? ((parsePath text).map .str)
        (namedParameters (parsePath source).zipIdx) with
      | some values => .ok values last
      | none => .error (.pathMismatch (Value.str text).display expression.display) last := by
  obtain ⟨hownPath, hsegments, hparameters⟩ := new_eq h
  obtain ⟨next, hget, hnext⟩ := get_of_value hcoherent hfaithful hknown (valueOn_segmentsOf hpath)
  have hpathKnown : known path := hcoherent.closed _ hknown path (List.mem_singleton_self path)
  obtain ⟨last, hgetPath, -⟩ := get_of_value hcoherent hnext hpathKnown hpath
  rw [extractParameters, hownPath, hsegments, hparameters]
  change ∃ final, EStateM.bind (lift (Live.get (segmentsOf path))) _ context = _
  rw [EStateM.bind, lift, hget]
  cases hvalues : parameterValues? ((parsePath text).map Value.str)
      (namedParameters (parsePath source).zipIdx) with
  | some values =>
      refine ⟨next, ?_⟩
      simp only [Value.list?, Option.getD_some, hvalues]
      rfl
  | none =>
      refine ⟨last, ?_⟩
      simp only [Value.list?, Option.getD_some, hvalues]
      change EStateM.bind (lift (Live.get path)) _ next = _
      rw [EStateM.bind, lift, hgetPath]
      rfl

private theorem forall₂_of_holds (h : new path source true = .ok expression)
    (hsource : IsParametrized source) (hsize : source.length ≤ Int64.maxValue.toInt) {text : String}
    (hpath : firstValue input path = .ok (.str text))
    (hholds : expression.conditions.all (·.holdsOn input)) :
    List.Forall₂ Admits (parsePath source) (parsePath text) := by
  have hlength : (parsePath source).length < Int64.maxValue.toInt := by
    have hsteps := length_parsePath_le source
    rw [greatestWord_toInt] at hsize ⊢
    omega
  obtain ⟨hadmits, hcount⟩ := (holds_of_parametrized h hsource hpath).mp hholds
  rw [← admitsAll_and_length_iff]
  exact ⟨hadmits, (Value.ofNat_eq_iff hlength).mp (hcount rfl)⟩

/-- Where all conditions of an exact expression with parameters hold in a context, extraction in
that context gives a value for each named parameter in the order of the path, and the values put
back into the source give the steps of the path.  Extraction succeeds just if the path goes beyond
the last named parameter, and the path does not match otherwise.  Equal variables that are known
have equal values, and the context has read only known ones. -/
theorem extracts_parameters (hcoherent : Coherent known) (h : new path source exact = .ok expression)
    (hsize : source.length ≤ Int64.maxValue.toInt) (hsegments : known expression.segments)
    (hconditions : ∀ condition ∈ expression.conditions, known condition.subject)
    (hfaithful : Faithful known input context) {text : String} {seen : Context ι}
    (hpath : Live.get path context = .ok (.str text) seen) :
    (exact = true → IsParametrized source →
      ∀ next, holdAll expression.conditions context = .ok true next →
      ∃ values last, expression.extractParameters next = .ok values last ∧
        values.map (·.1) = expression.parameterNames ∧
        refilled? (parsePath source) values (parsePath text) = some (parsePath text)) ∧
    ((∃ values last, expression.extractParameters context = .ok values last) ↔
      ∀ parameter ∈ (namedParameters (parsePath source).zipIdx).getLast?,
        parameter.1 < (parsePath text).length) ∧
    ((∃ parameter ∈ (namedParameters (parsePath source).zipIdx).getLast?,
        (parsePath text).length ≤ parameter.1) →
      ∃ last, expression.extractParameters context =
        .error (.pathMismatch (Value.str text).display expression.display) last) := by
  obtain ⟨hownPath, hownSegments, hparameters⟩ := new_eq h
  rw [hownSegments] at hsegments
  have hpathKnown : known path := hcoherent.closed _ hsegments path (List.mem_singleton_self path)
  have hvalue := (value_of_get hcoherent hfaithful hpathKnown hpath).1
  have hcomplete := parameterValues?_eq_some_iff (parsePath text)
    (namedParameters (parsePath source).zipIdx)
  rw [lt_length_iff_last (namedParameters_ascend _ _)] at hcomplete
  obtain ⟨last, hextract⟩ := extractParameters_eq hcoherent h hsegments hfaithful hvalue
  refine ⟨?_, ?_, ?_⟩
  · rintro rfl hsource next hnext
    obtain ⟨hholds, hnextFaithful⟩ := hold_of_holdAll hcoherent hconditions hfaithful hnext
    have hadmits := forall₂_of_holds h hsource hsize
      ((firstValue_eq hcoherent hpathKnown).trans hvalue) hholds
    obtain ⟨values, hvalues, hrefilled⟩ := refilled_of_admits [] hadmits
    obtain ⟨final, hfinal⟩ := extractParameters_eq hcoherent h hsegments hnextFaithful hvalue
    have hfound : parameterValues? ((parsePath text).map .str)
        (namedParameters (parsePath source).zipIdx) = some values := hvalues
    rw [hfound] at hfinal
    refine ⟨values, final, hfinal, ?_, hrefilled⟩
    rw [parameterNames, hparameters, parameterValues?_names hfound]
  · rw [← hcomplete, hextract]
    cases parameterValues? ((parsePath text).map .str) (namedParameters (parsePath source).zipIdx) <;>
      simp
  · rintro ⟨parameter, hparameter, hshort⟩
    refine ⟨last, ?_⟩
    have hnone : parameterValues? ((parsePath text).map .str)
        (namedParameters (parsePath source).zipIdx) = none := by
      rw [Option.eq_none_iff_forall_ne_some]
      intro values hvalues
      have hlong := hcomplete.mp ⟨values, hvalues⟩ parameter hparameter
      omega
    rw [hextract, hnone]

def lineRoute : String := "/orders/:number/:"

def heldPath : Variable String := .identity .str

theorem parsePath_lineRoute : parsePath lineRoute = ["orders", ":number", ":"] := by decide +kernel

theorem new_lineRoute : new heldPath lineRoute true =
    .ok ⟨heldPath, segmentsOf heldPath, lineRoute, true,
      [⟨stepOf (segmentsOf heldPath) 0, .str "orders"⟩, ⟨.size (segmentsOf heldPath), .ofNat 3⟩],
      [(1, "number")]⟩ := by
  have horders : Parameter.read? "orders" = none := by decide +kernel
  have hnumber : Parameter.read? ":number" = some ⟨some "number", none⟩ := by decide +kernel
  have hunnamed : Parameter.read? ":" = some ⟨none, none⟩ := by decide +kernel
  simp [new, parsePath_lineRoute, stepConditions, stepCondition?, namedParameters, horders, hnumber,
    hunnamed, bind, Except.bind, pure, Except.pure, List.zipIdx]

private theorem isParametrized_lineRoute : IsParametrized lineRoute :=
  ⟨":number", by simp [parsePath_lineRoute], by decide +kernel⟩

theorem extracts_parameters_line :
    ∃ expression, new heldPath lineRoute true = .ok expression ∧
    ∃ next, holdAll expression.conditions (.new "/orders/7/lines") = .ok true next ∧
    (∃ values last, expression.extractParameters next = .ok values last ∧
      refilled? ["orders", ":number", ":"] values ["orders", "7", "lines"] =
        some ["orders", "7", "lines"]) ∧
    (∃ values last, expression.extractParameters (.new "/users/7") = .ok values last) ∧
    ∃ last, expression.extractParameters (.new "/users") =
      .error (.pathMismatch (Value.str "/users").display expression.display) last := by
  let known (subject : Variable String) : Prop := subject ∈
    [heldPath, segmentsOf heldPath, stepOf (segmentsOf heldPath) 0, .size (segmentsOf heldPath)]
  have hcoherent : Coherent known := by
    constructor
    · intro subject hsubject
      simp only [known, List.mem_cons, List.not_mem_nil, or_false] at hsubject
      rcases hsubject with rfl | rfl | rfl | rfl <;>
        simp [known, heldPath, segmentsOf, stepOf, dependencies]
    · intro a b ha hb hsame input
      simp only [known, List.mem_cons, List.not_mem_nil, or_false] at ha hb
      rcases ha with rfl | rfl | rfl | rfl <;> rcases hb with rfl | rfl | rfl | rfl <;>
        first | rfl | exact absurd hsame (by decide)
  have hpath (text : String) : ∃ seen, Live.get heldPath (.new text) = .ok (.str text) seen :=
    ⟨_, rfl⟩
  have hextracts := fun text : String => extracts_parameters hcoherent new_lineRoute
    (by decide +kernel) (by simp [known]) (by simp [known]) (.new known text) (hpath text).choose_spec
  have hlines : parsePath "/orders/7/lines" = ["orders", "7", "lines"] := by decide +kernel
  have husers : parsePath "/users/7" = ["users", "7"] := by decide +kernel
  have hshort : parsePath "/users" = ["users"] := by decide +kernel
  have hlast : (namedParameters (parsePath lineRoute).zipIdx).getLast? = some (1, "number") := by
    rw [← (new_eq new_lineRoute).2.2]
    rfl
  refine ⟨_, new_lineRoute, ?_⟩
  have hholds : ∃ next, holdAll [⟨stepOf (segmentsOf heldPath) 0, .str "orders"⟩,
      ⟨.size (segmentsOf heldPath), .ofNat 3⟩] (.new "/orders/7/lines") = .ok true next :=
    ⟨_, rfl⟩
  obtain ⟨next, hnext⟩ := hholds
  refine ⟨next, hnext, ?_, ?_, ?_⟩
  · obtain ⟨values, last, hvalues, -, hrefilled⟩ :=
      (hextracts "/orders/7/lines").1 rfl isParametrized_lineRoute next hnext
    rw [parsePath_lineRoute, hlines] at hrefilled
    exact ⟨values, last, hvalues, hrefilled⟩
  · refine (hextracts "/users/7").2.1.mpr ?_
    simp [hlast, husers]
  · refine (hextracts "/users").2.2 ?_
    simp [hlast, hshort]

def falseSegments : Variable String :=
  .derived "path parsed from input" [heldPath] (fun _ =>
    .ok (.list [.str "orders", .str "9", .str "lines"])) false

/-- A context that remembers other steps under the name of the path's steps gives the parameters of
those, although the conditions hold in it. -/
theorem extracts_other_parameters :
    ∃ expression, new heldPath lineRoute true = .ok expression ∧
    ∃ context next values last,
      Live.get falseSegments (.new "/orders/7/lines") = .ok
        (.list [.str "orders", .str "9", .str "lines"]) context ∧
      holdAll expression.conditions context = .ok true next ∧
      Live.get heldPath next = .ok (.str "/orders/7/lines") next ∧
      expression.extractParameters next = .ok values last ∧
      refilled? (parsePath lineRoute) values (parsePath "/orders/7/lines") ≠
        some (parsePath "/orders/7/lines") := by
  have hlines : parsePath "/orders/7/lines" = ["orders", "7", "lines"] := by decide +kernel
  refine ⟨_, new_lineRoute, _, _, [("number", "9")], _, rfl, rfl, rfl, rfl, ?_⟩
  rw [parsePath_lineRoute, hlines]
  decide +kernel

end PathExpression

end Runbook.Decision
