import Runbook.Proofs.Pattern.Groups
import Runbook.Proofs.Pattern.Spans
import Runbook.Proofs.Decision.PathConditions

/-!
# Patterns between anchors

A pattern is put between anchors as a text.  Its parentheses and its comments can therefore reach
what stands around it, and the anchors count towards the limits of a pattern.  For a pattern that
keeps clear of all that, the text between anchors is a pattern just if the pattern is one by itself,
and matches just the texts that the pattern matches from their start to their finish.
-/

namespace Runbook

namespace Pattern

variable {pattern : String} {text : List Char}

/-! ## Patterns that can be enclosed -/

def bodyOf? (text : List Char) : Option (Ast × Captures × List Char) :=
  readBody (text.length + 1) false .start .start text

def closing : List Char := [')', '$']

/-- A pattern that does not reach what stands around it between anchors. -/
structure Enclosable (pattern : String) : Prop where
  /-- No parenthesis closes a group that the pattern has not opened. -/
  balanced : ∀ body ∈ bodyOf? pattern.toList, body.2.2.head? ≠ some ')'
  /-- The pattern does not end within a comment, which would take in what is put behind it. -/
  uncommented : ∀ body ∈ bodyOf? pattern.toList, body.2.2 = [] →
    ∀ longer ∈ bodyOf? (pattern.toList ++ closing), longer.2.2 ≠ []
  /-- The nesting of the pattern is not so near to its limit that the anchors go beyond. -/
  shallow : ∀ body ∈ bodyOf? pattern.toList, body.2.2 = [] →
    body.1.depth ≤ depthLimit → body.1.depth + 2 ≤ depthLimit
  /-- The memory that the pattern takes is not so near to its limit that the anchors decide. -/
  limited : ∀ body ∈ bodyOf? pattern.toList, body.2.2 = [] →
    ∀ regex ∈ body.1.regex?, regex.inFull.isTooLarge = regex.isTooLarge

instance (pattern : String) : Decidable (Enclosable pattern) :=
  decidable_of_iff
    ((∀ body ∈ bodyOf? pattern.toList, body.2.2.head? ≠ some ')') ∧
      (∀ body ∈ bodyOf? pattern.toList, body.2.2 = [] →
        ∀ longer ∈ bodyOf? (pattern.toList ++ closing), longer.2.2 ≠ []) ∧
      (∀ body ∈ bodyOf? pattern.toList, body.2.2 = [] →
        body.1.depth ≤ depthLimit → body.1.depth + 2 ≤ depthLimit) ∧
      ∀ body ∈ bodyOf? pattern.toList, body.2.2 = [] →
        ∀ regex ∈ body.1.regex?, regex.inFull.isTooLarge = regex.isTooLarge)
    ⟨fun ⟨balanced, uncommented, shallow, limited⟩ =>
      ⟨balanced, uncommented, shallow, limited⟩,
      fun h => ⟨h.balanced, h.uncommented, h.shallow, h.limited⟩⟩

example : ¬ Enclosable "a)|(b" ∧ ¬ Enclosable "(?x)a#" := by decide +kernel

/-! ## Reading between anchors -/

def enclosed (ast : Ast) : Ast :=
  .concat [.assertion .startLine, .group (flagChange []) ast, .assertion .endLine]

private theorem enclosed_depth (ast : Ast) : (enclosed ast).depth = ast.depth + 2 := by
  simp [enclosed, Ast.depth, Ast.depths]

private theorem enclosed_regex? (ast : Ast) :
    (enclosed ast).regex? = ast.regex?.map Regex.inFull := by
  have hflags : Flags.default.apply (flagChange []) = .default := rfl
  rw [enclosed, Ast.regex?, Ast.regex?]
  simp only [Ast.meaning?, Ast.meanings?, Option.bind_eq_bind, Option.bind_some, hflags]
  cases ast.meaning? .default <;> rfl

private theorem anchored_toList (pattern : String) :
    (anchored pattern).toList = '^' :: '(' :: '?' :: ':' :: (pattern.toList ++ closing) := by
  simp [anchored, closing, String.toList_append]

theorem bodyOf?_eq_map (text : List Char) :
    bodyOf? text = (readGroup (text.length + 1) false .start .start text).map
      fun read => (read.1.1, read.1.2, read.2) := by
  rw [bodyOf?, readGroup, Option.map_map]
  exact Option.map_id'.symm

theorem bodyOf?_eq_some_iff {ast : Ast} {captures : Captures} {rest : List Char} :
    bodyOf? text = some (ast, captures, rest) ↔
      readGroup (text.length + 1) false .start .start text = some ((ast, captures), rest) := by
  rw [bodyOf?_eq_map, Option.map_eq_some_iff]
  constructor
  · rintro ⟨⟨⟨ast, captures⟩, rest⟩, hread, heq⟩
    cases heq
    exact hread
  · exact fun hread => ⟨_, hread, rfl⟩

private theorem readGroup_opening (fuel : Nat) (text : List Char) :
    readGroup (fuel + 2) false .start .start ('^' :: '(' :: '?' :: ':' :: text) =
      readGrouped (readGroup fuel) false false .start (.group (flagChange []))
        (Reading.start.push (.assertion .startLine)) text := by
  rw [readGroup_succ]
  change readGroup (fuel + 1) false .start _ ('(' :: '?' :: ':' :: text) = _
  rw [readGroup_succ]
  rfl

private theorem readGroup_closing (fuel : Nat) (captures : Captures) (reading : Reading) :
    readGroup (fuel + 2) false captures reading ['$'] =
      some (((reading.push (.assertion .endLine)).close, captures), []) := by
  rw [readGroup_succ]
  change readGroup (fuel + 1) false captures _ [] = _
  rw [readGroup_succ]
  rfl

theorem readGroup_closing_agrees (text : List Char) {fuel : Nat} (hfuel : text.length + 2 < fuel) :
    Agrees ['$'] ['$'] text (readGroup (text.length + 1) false .start .start text)
      (readGroup fuel false .start .start (text ++ closing)) :=
  readGroup_agrees (by decide) (by decide) false .start .start (.append ['$'] text)
    (Nat.lt_succ_self _) hfuel

private theorem bodyOf?_swallowed {ast : Ast} {captures : Captures} {fuel : Nat}
    (hfuel : text.length + 2 < fuel) (hown : bodyOf? text = some (ast, captures, []))
    (hlonger : readGroup fuel false .start .start (text ++ closing) = some ((ast, captures), [])) :
    bodyOf? (text ++ closing) = some (ast, captures, []) := by
  have hagrees := readGroup_closing_agrees text (Nat.lt_succ_self (text.length + 2))
  rw [bodyOf?_eq_some_iff.mp hown] at hagrees
  rw [bodyOf?_eq_some_iff, List.length_append]
  generalize hread : readGroup (text.length + 3) false .start .start (text ++ closing) = read
    at hagrees
  cases hagrees with
  | read =>
      have hmore := readGroup_mono hfuel hread
      rw [hlonger] at hmore
      rw [hmore]
      exact hread

/-- The text between anchors is read just if the pattern by itself is read as a whole. -/
private theorem bodyOf?_anchored (h : Enclosable pattern) :
    (∃ ast captures, bodyOf? pattern.toList = some (ast, captures, []) ∧
      bodyOf? (anchored pattern).toList = some (enclosed ast, captures, [])) ∨
    (∀ body ∈ bodyOf? pattern.toList, body.2.2 ≠ []) ∧
      bodyOf? (anchored pattern).toList = none := by
  obtain ⟨hbalanced, huncommented, -, -⟩ := h
  have hanchored : bodyOf? (anchored pattern).toList =
      ((readGrouped (readGroup (pattern.toList.length + 5)) false false .start
        (.group (flagChange [])) (Reading.start.push (.assertion .startLine))
        (pattern.toList ++ closing)).map fun read => (read.1.1, read.1.2, read.2)) := by
    rw [bodyOf?_eq_map, ← readGroup_opening, anchored_toList]
    simp [closing]
  rw [hanchored, readGrouped]
  generalize pattern.toList = text at *
  have hagrees := readGroup_closing_agrees text (show text.length + 2 < text.length + 5 by omega)
  generalize hown : readGroup (text.length + 1) false .start .start text = own at hagrees
  generalize hlonger : readGroup _ false .start .start (text ++ closing) = read at hagrees
  cases hagrees with
  | failed => exact .inr ⟨by rw [bodyOf?_eq_map, hown]; rintro _ ⟨⟩, rfl⟩
  | @read value rest longer _ hextends =>
      obtain ⟨ast, captures⟩ := value
      have hbody := bodyOf?_eq_some_iff.mpr hown
      cases hextends with
      | closed =>
          refine .inl ⟨ast, captures, hbody, ?_⟩
          simp only [Option.bind_some, readGroup_closing, Option.map_some]
          rfl
      | swallowed =>
          have hswallowed := bodyOf?_swallowed (by omega) hbody hlonger
          exact absurd rfl (huncommented _ hbody rfl _ hswallowed)
      | @cons rest behind c _ =>
          have hc : c ≠ ')' := fun hc => hbalanced _ hbody (congrArg some hc)
          refine .inr ⟨?_, by simp [hc]⟩
          rw [hbody]
          rintro _ ⟨⟩
          exact List.cons_ne_nil c rest
  | @inside value longer hroom =>
      -- Nothing is left for the group to be closed with.
      refine .inr ⟨by rw [bodyOf?_eq_map, hown]; rintro _ ⟨⟩, ?_⟩
      obtain rfl | rfl : longer = [] ∨ longer = ['$'] := by
        simpa [List.suffix_cons_iff, or_comm] using hroom
      · rfl
      · rfl

theorem parse?_eq (text : List Char) :
    parse? text = (bodyOf? text).bind fun body =>
      if body.2.2 = [] ∧ body.1.depth ≤ depthLimit then some body.1 else none := by
  rw [parse?, bodyOf?]
  split
  next hread => simp [hread]
  next hread =>
    cases hbody : readBody (text.length + 1) false .start .start text with
    | none => rfl
    | some body =>
        obtain ⟨ast, captures, rest⟩ := body
        have hrest : rest ≠ [] := by
          rintro rfl
          exact hread ast captures hbody
        simp [hrest]

theorem compile?_anchored (h : Enclosable pattern) :
    compile? (anchored pattern) = (compile? pattern).map Regex.inFull := by
  rw [compile?, compile?, parse?_eq, parse?_eq]
  obtain ⟨ast, captures, hown, hanchored⟩ | ⟨hown, hanchored⟩ := bodyOf?_anchored h
  · simp only [hown, hanchored, Option.bind_eq_bind, Option.bind_some, enclosed_depth, true_and]
    by_cases hdepth : ast.depth ≤ depthLimit
    · rw [if_pos (h.shallow _ hown rfl hdepth), if_pos hdepth, Option.bind_some, Option.bind_some,
        enclosed_regex?]
      cases hregex : ast.regex? with
      | none => rfl
      | some regex =>
          simp only [Option.map_some, Option.bind_some, h.limited _ hown rfl regex hregex]
          split <;> rfl
    · rw [if_neg (by omega), if_neg hdepth]
      rfl
  · rw [hanchored]
    cases hbody : bodyOf? pattern.toList with
    | none => rfl
    | some body => simp [hown body hbody]

def MatchesFully (pattern text : String) : Prop :=
  ∃ regex, compile? pattern = some regex ∧ regex.Spans text.toList 0 text.toList.length

theorem matchesFully_iff (h : Enclosable pattern) (text : String) :
    MatchesFully pattern text ↔
      ∃ regex, compile? (anchored pattern) = some regex ∧ regex.matchesText text := by
  simp only [MatchesFully, compile?_anchored h, Option.map_eq_some_iff, Regex.matchesText]
  constructor
  · rintro ⟨regex, hregex, hspans⟩
    exact ⟨_, ⟨regex, hregex, rfl⟩, regex.occursIn_inFull_iff _ |>.mpr hspans⟩
  · rintro ⟨_, ⟨regex, hregex, rfl⟩, hoccurs⟩
    exact ⟨regex, hregex, regex.occursIn_inFull_iff _ |>.mp hoccurs⟩

end Pattern

namespace Decision

open Pattern PathExpression Variable

variable {ι : Type} {pattern : String}

/-! ## Variables for full matches -/

theorem regexMatch?_ok_iff {source matcher : Variable ι} :
    source.regexMatch? pattern = .ok matcher ↔
      ∃ regex, compile? (anchored pattern) = some regex ∧
        matcher = .regexMatch source pattern regex := by
  rw [regexMatch?]
  cases compile? (anchored pattern) <;> simp [eq_comm]

private theorem regexMatch?_isOk_iff (h : Enclosable pattern) (source : Variable ι) :
    (∃ matcher, source.regexMatch? pattern = .ok matcher) ↔ (compile? pattern).isSome := by
  simp only [regexMatch?_ok_iff, compile?_anchored h]
  cases compile? pattern <;> simp

private theorem evaluate_regexMatch (h : Enclosable pattern) {source matcher : Variable ι}
    (hmatcher : source.regexMatch? pattern = .ok matcher) {context next : Context ι} {text : String}
    (hsource : Live.get source context = .ok (.str text) next) :
    ∃ answer, Live.evaluate matcher context = .ok (.bool answer) (next.noteCall matcher) ∧
      (answer ↔ MatchesFully pattern text) := by
  obtain ⟨regex, hregex, rfl⟩ := regexMatch?_ok_iff.mp hmatcher
  refine ⟨regex.matchesText text, ?_, ?_⟩
  · rw [evaluate_of_source rfl, hsource]
    rfl
  · rw [matchesFully_iff h, hregex]
    simp

/-! ## Patterns of parameters -/

/-- Whether a step of an expression takes a step of a path: a literal step takes itself, a parameter
what its pattern by itself matches in full, and one without pattern everything. -/
def Takes (step text : String) : Prop :=
  match Parameter.read? step with
  | none => step = text
  | some { pattern := none, .. } => True
  | some { pattern := some pattern, .. } => MatchesFully pattern text

def patternsOf (source : String) : List String :=
  (parsePath source).filterMap fun step => (Parameter.read? step).bind (·.pattern)

theorem mem_patternsOf_iff {source : String} :
    pattern ∈ patternsOf source ↔
      ∃ step ∈ parsePath source, ∃ name, Parameter.read? step = some ⟨name, some pattern⟩ := by
  rw [patternsOf, List.mem_filterMap]
  refine exists_congr fun step => and_congr_right fun _ => ?_
  rw [Option.bind_eq_some_iff]
  constructor
  · rintro ⟨⟨name, _⟩, hread, rfl⟩
    exact ⟨name, hread⟩
  · rintro ⟨name, hread⟩
    exact ⟨_, hread, rfl⟩

private theorem admits_iff_takes {step : String}
    (h : ∀ name pattern, Parameter.read? step = some ⟨name, some pattern⟩ → Enclosable pattern)
    (text : String) : Admits step text ↔ Takes step text := by
  cases hread : Parameter.read? step with
  | none => rw [admits_literal_iff hread, Takes, hread]
  | some parameter =>
      obtain ⟨name, pattern⟩ := parameter
      cases pattern with
      | none => simp [admits_parameter hread, Takes, hread]
      | some pattern =>
          rw [admits_pattern_iff hread, Takes, hread]
          exact (matchesFully_iff (h name pattern hread) text).symm

namespace PathExpression

private theorem stepCondition?_isOk_iff {segments : Variable ι} {index : Nat} {step : String} :
    (∃ condition, stepCondition? segments index step = .ok condition) ↔
      ∀ name pattern, Parameter.read? step = some ⟨name, some pattern⟩ →
        (compile? (anchored pattern)).isSome := by
  rw [stepCondition?]
  cases hread : Parameter.read? step with
  | none => simp
  | some parameter =>
      obtain ⟨name, pattern⟩ := parameter
      cases pattern with
      | none => simp
      | some pattern =>
          simp only [regexMatch?]
          cases hregex : compile? (anchored pattern) <;> simp [Except.map, hregex]

private theorem stepConditions_isOk_iff {segments : Variable ι} {steps : List (String × Nat)} :
    (∃ conditions, stepConditions segments steps = .ok conditions) ↔
      ∀ entry ∈ steps, ∃ condition, stepCondition? segments entry.2 entry.1 = .ok condition := by
  induction steps with
  | nil => simp [stepConditions]
  | cons entry steps ih =>
      rw [List.forall_mem_cons, ← ih]
      constructor
      · rintro ⟨conditions, h⟩
        obtain ⟨condition, others, hfirst, hrest, -⟩ := stepConditions_cons_ok h
        exact ⟨⟨condition, hfirst⟩, others, hrest⟩
      · rintro ⟨⟨condition, hfirst⟩, others, hrest⟩
        refine ⟨condition.toList ++ others, ?_⟩
        simp [stepConditions, hfirst, hrest, bind, Except.bind, pure, Except.pure]

private theorem new_isOk_iff {path : Variable ι} {source : String} {exact : Bool} :
    (∃ expression, new path source exact = .ok expression) ↔
      ∀ pattern ∈ patternsOf source, (compile? (anchored pattern)).isSome := by
  by_cases hsource : IsParametrized source
  · have hsteps : (∃ expression, new path source exact = .ok expression) ↔
        ∃ conditions,
          stepConditions (segmentsOf path) (parsePath source).zipIdx = .ok conditions := by
      rw [new, if_pos (by simpa [IsParametrized] using hsource)]
      cases stepConditions (segmentsOf path) (parsePath source).zipIdx <;>
        simp [bind, Except.bind, pure, Except.pure]
    have hplaces : (∀ entry ∈ (parsePath source).zipIdx, ∀ name pattern,
          Parameter.read? entry.1 = some ⟨name, some pattern⟩ →
            (compile? (anchored pattern)).isSome) ↔
        ∀ step ∈ parsePath source, ∀ name pattern,
          Parameter.read? step = some ⟨name, some pattern⟩ →
            (compile? (anchored pattern)).isSome := by
      conv => rhs; rw [← List.zipIdx_map_fst 0 (parsePath source), List.forall_mem_map]
    rw [hsteps, stepConditions_isOk_iff]
    simp only [stepCondition?_isOk_iff, hplaces, mem_patternsOf_iff]
    constructor
    · rintro h pattern ⟨step, hstep, name, hread⟩
      exact h step hstep name pattern hread
    · exact fun h step hstep name pattern hread => h pattern ⟨step, hstep, name, hread⟩
  · have hplain := read?_of_plain hsource
    rw [new, if_neg (by simpa [IsParametrized] using hsource)]
    refine iff_of_true ⟨_, rfl⟩ fun pattern hpattern => ?_
    obtain ⟨step, hstep, name, hread⟩ := mem_patternsOf_iff.mp hpattern
    rw [hplain step hstep] at hread
    cases hread

private theorem holds_iff_takes {path : Variable ι} {source : String} {exact : Bool}
    {expression : PathExpression ι} {input : ι} {text : String}
    (hpatterns : ∀ pattern ∈ patternsOf source, Enclosable pattern)
    (h : new path source exact = .ok expression) (hsource : IsParametrized source)
    (hpath : firstValue input path = .ok (.str text)) :
    expression.conditions.all (·.holdsOn input) ↔
      (∀ entry ∈ (parsePath source).zipIdx, Takes entry.1 ((parsePath text).getD entry.2 "")) ∧
        (exact → Value.ofNat (parsePath text).length = .ofNat (parsePath source).length) := by
  rw [holds_of_parametrized h hsource hpath, AdmitsAll]
  refine and_congr (forall₂_congr fun entry hentry => admits_iff_takes ?_ _) Iff.rfl
  intro name pattern hread
  have hstep : entry.1 ∈ parsePath source := by
    rw [← List.zipIdx_map_fst 0 (parsePath source)]
    exact List.mem_map_of_mem hentry
  exact hpatterns pattern (mem_patternsOf_iff.mpr ⟨entry.1, hstep, name, hread⟩)

end PathExpression

/-- A pattern that keeps clear of its anchors makes a variable for full matches just if it is a
pattern by itself, and the variable is then true of just the texts that the pattern by itself
matches in full; and so with the patterns of the parameters of a path expression. -/
theorem patterns_match_fully (source path : Variable ι) :
    (∀ pattern, Enclosable pattern →
      ((∃ matcher, source.regexMatch? pattern = .ok matcher) ↔ (compile? pattern).isSome) ∧
      ∀ matcher, source.regexMatch? pattern = .ok matcher →
        ∀ (context next : Context ι) (text : String),
          Live.get source context = .ok (.str text) next →
          ∃ answer, Live.evaluate matcher context = .ok (.bool answer) (next.noteCall matcher) ∧
            (answer ↔ MatchesFully pattern text)) ∧
    ∀ route exact, (∀ pattern ∈ patternsOf route, Enclosable pattern) →
      ((∃ expression, PathExpression.new path route exact = .ok expression) ↔
        ∀ pattern ∈ patternsOf route, (compile? pattern).isSome) ∧
      ∀ expression, PathExpression.new path route exact = .ok expression → IsParametrized route →
        ∀ (input : ι) (text : String), firstValue input path = .ok (.str text) →
          (expression.conditions.all (·.holdsOn input) ↔
            (∀ entry ∈ (parsePath route).zipIdx,
              Takes entry.1 ((parsePath text).getD entry.2 "")) ∧
            (exact → Value.ofNat (parsePath text).length = .ofNat (parsePath route).length)) := by
  constructor
  · intro pattern h
    exact ⟨regexMatch?_isOk_iff h source, fun matcher hmatcher context next text hsource =>
      evaluate_regexMatch h hmatcher hsource⟩
  · intro route exact hpatterns
    refine ⟨?_, fun expression h hroute input text hpath =>
      holds_iff_takes hpatterns h hroute hpath⟩
    rw [new_isOk_iff]
    refine forall₂_congr fun pattern hpattern => ?_
    rw [compile?_anchored (hpatterns pattern hpattern), Option.isSome_map]

theorem patterns_match_fully_states :
    Enclosable "new|old" ∧ patternsOf "/orders/:state(new|old)" = ["new|old"] ∧
    (∃ matcher, (Variable.identity Value.str).regexMatch? "new|old" = .ok matcher ∧
      (∃ next, Live.evaluate matcher (.new "old") = .ok (.bool true) next) ∧
      ∃ next, Live.evaluate matcher (.new "older") = .ok (.bool false) next) ∧
    ∃ expression,
      PathExpression.new (.identity Value.str) "/orders/:state(new|old)" true = .ok expression ∧
      expression.conditions.all (·.holdsOn "/orders/old") ∧
      ¬ expression.conditions.all (·.holdsOn "/orders/older") := by
  have hstates : Enclosable "new|old" := by decide +kernel
  have hpatterns : patternsOf "/orders/:state(new|old)" = ["new|old"] := by decide +kernel
  have hpattern : (compile? "new|old").isSome := by decide +kernel
  have hold : MatchesFully "new|old" "old" := (matchesFully_iff hstates "old").mpr
    ((Option.any_eq_true _ _).mp (by decide +kernel))
  have holder : ¬ MatchesFully "new|old" "older" := fun h => by
    obtain ⟨regex, hregex, hmatches⟩ := (matchesFully_iff hstates "older").mp h
    have hnone : (compile? (anchored "new|old")).any (·.matchesText "older") = false := by
      decide +kernel
    rw [hregex, Option.any_some, hmatches] at hnone
    cases hnone
  obtain ⟨hmatch, hroute⟩ :=
    patterns_match_fully (Variable.identity Value.str) (Variable.identity Value.str)
  obtain ⟨hsome, hvalue⟩ := hmatch "new|old" hstates
  obtain ⟨matcher, hmatcher⟩ := hsome.mpr hpattern
  obtain ⟨onOld, hevaluated, honOld⟩ := hvalue matcher hmatcher (.new "old") _ "old" rfl
  obtain ⟨onOlder, hevaluatedOlder, honOlder⟩ :=
    hvalue matcher hmatcher (.new "older") _ "older" rfl
  obtain rfl : onOld = true := honOld.mpr hold
  obtain rfl : onOlder = false := Bool.eq_false_iff.mpr fun h => holder (honOlder.mp h)
  obtain ⟨hnew, hholds⟩ := hroute "/orders/:state(new|old)" true
    (by rw [hpatterns]; simpa using hstates)
  obtain ⟨expression, hexpression⟩ := hnew.mpr (by rw [hpatterns]; simpa using hpattern)
  have hsteps : parsePath "/orders/:state(new|old)" = ["orders", ":state(new|old)"] := by
    decide +kernel
  have hstate : Parameter.read? ":state(new|old)" = some ⟨some "state", some "new|old"⟩ := by
    decide +kernel
  have horders : Parameter.read? "orders" = none := by decide +kernel
  have hparametrized : IsParametrized "/orders/:state(new|old)" :=
    ⟨":state(new|old)", by rw [hsteps]; simp, by rw [hstate]; rfl⟩
  have hon := fun text => hholds expression hexpression hparametrized text text rfl
  refine ⟨hstates, hpatterns, ⟨matcher, hmatcher, ⟨_, hevaluated⟩, _, hevaluatedOlder⟩,
    expression, hexpression, ?_, ?_⟩
  · rw [hon, hsteps, show parsePath "/orders/old" = ["orders", "old"] by decide +kernel]
    simp [Takes, hstate, horders, hold]
  · rw [hon, hsteps, show parsePath "/orders/older" = ["orders", "older"] by decide +kernel]
    simp [Takes, hstate, horders, holder]

/-- A parenthesis can close the group around a pattern, so that the anchors hold for a part of it
each; and a comment takes in what closes the group. -/
theorem patterns_reach_anchors :
    (compile? "a)|(b" = none ∧
      ∃ matcher, (Variable.identity Value.str).regexMatch? "a)|(b" = .ok matcher ∧
        matcher.valueOn "another" = .ok (.bool true)) ∧
    (compile? "(?x)a#").isSome ∧
      ¬ ∃ matcher, (Variable.identity Value.str).regexMatch? "(?x)a#" = .ok matcher := by
  have hnone : (compile? "a)|(b").isNone := by decide +kernel
  have hsome : (compile? "(?x)a#").isSome := by decide +kernel
  have hanchored : (compile? (anchored "(?x)a#")).isNone := by decide +kernel
  obtain ⟨regex, hregex, hmatches⟩ : ∃ regex, compile? (anchored "a)|(b") = some regex ∧
      regex.matchesText "another" :=
    (Option.any_eq_true _ _).mp (by decide +kernel)
  refine ⟨⟨Option.isNone_iff_eq_none.mp hnone, _, regexMatch?_ok_iff.mpr ⟨regex, hregex, rfl⟩, ?_⟩,
    hsome, ?_⟩
  · change Except.ok (Value.bool (regex.matchesText "another")) = _
    rw [hmatches]
  · rintro ⟨matcher, hmatcher⟩
    obtain ⟨regex, hregex, -⟩ := regexMatch?_ok_iff.mp hmatcher
    rw [hregex] at hanchored
    cases hanchored

end Decision

end Runbook
