import Runbook.Pattern.Matching
import Mathlib.Data.Nat.Bitwise
import Mathlib.Logic.Function.Iterate

/-!
# Spans of a text

The spans of a text that a regular expression matches, each given by where it starts and where it
stops.  The sets of positions that matching computes are the ends of such spans.
-/

namespace Runbook.Pattern

/-! ## Repeated steps -/

def Times (step : Nat → Nat → Prop) : Nat → Nat → Nat → Prop
  | 0, start, stop => start = stop
  | count + 1, start, stop => ∃ middle, step start middle ∧ Times step count middle stop

section

variable {step : Nat → Nat → Prop} {count start stop : Nat}

theorem Times.congr {other : Nat → Nat → Prop} {bound : Nat} (hstart : start ≤ bound)
    (hbound : ∀ i j, i ≤ bound → step i j → j ≤ bound)
    (hother : ∀ i j, i ≤ bound → (other i j ↔ step i j)) :
    Times other count start stop ↔ Times step count start stop := by
  induction count generalizing start with
  | zero => rfl
  | succ count ih =>
      refine exists_congr fun middle => ?_
      rw [hother start middle hstart]
      exact and_congr_right fun hfirst => ih (hbound _ _ hstart hfirst)

theorem Times.trans {more middle : Nat} (hfirst : Times step count start middle)
    (hrest : Times step more middle stop) : Times step (count + more) start stop := by
  induction count generalizing start with
  | zero =>
      obtain rfl : start = middle := hfirst
      rwa [Nat.zero_add]
  | succ count ih =>
      obtain ⟨next, hnext, hlater⟩ := hfirst
      rw [Nat.succ_add]
      exact ⟨next, hnext, ih hlater⟩

theorem Times.split {more : Nat} (h : Times step (count + more) start stop) :
    ∃ middle, Times step count start middle ∧ Times step more middle stop := by
  induction count generalizing start with
  | zero => exact ⟨start, rfl, by rwa [Nat.zero_add] at h⟩
  | succ count ih =>
      rw [Nat.succ_add] at h
      obtain ⟨next, hnext, hlater⟩ := h
      obtain ⟨middle, hfirst, hrest⟩ := ih hlater
      exact ⟨middle, ⟨next, hnext, hfirst⟩, hrest⟩

theorem Times.le_bound {bound : Nat} (hstep : ∀ i j, i ≤ bound → step i j → j ≤ bound)
    (hstart : start ≤ bound) (h : Times step count start stop) : stop ≤ bound := by
  induction count generalizing start with
  | zero => exact (show start = stop from h) ▸ hstart
  | succ count ih =>
      obtain ⟨middle, hfirst, hrest⟩ := h
      exact ih (hstep _ _ hstart hfirst) hrest

variable (hforward : ∀ i j, step i j → i ≤ j)

include hforward

theorem Times.forward (h : Times step count start stop) : start ≤ stop := by
  induction count generalizing start with
  | zero => exact le_of_eq h
  | succ count ih =>
      obtain ⟨middle, hfirst, hrest⟩ := h
      exact (hforward _ _ hfirst).trans (ih hrest)

theorem Times.shorten (h : Times step count start stop) :
    ∃ fewer ≤ count, fewer ≤ stop - start ∧ Times step fewer start stop := by
  induction count generalizing start with
  | zero => exact ⟨0, le_rfl, Nat.zero_le _, h⟩
  | succ count ih =>
      obtain ⟨middle, hfirst, hrest⟩ := h
      obtain ⟨fewer, hcount, hdistance, hfewer⟩ := ih hrest
      have hmiddle := hforward _ _ hfirst
      have hstop := Times.forward hforward hrest
      obtain rfl | hmoved := hmiddle.eq_or_lt
      · exact ⟨fewer, by omega, hdistance, hfewer⟩
      · exact ⟨fewer + 1, by omega, by omega, middle, hfirst, hfewer⟩

theorem Times.lengthen (h : Times step count start stop) (hcount : stop - start < count)
    {other : Nat} (hother : stop - start ≤ other) : Times step other start stop := by
  induction count generalizing start other with
  | zero => omega
  | succ count ih =>
      obtain ⟨middle, hfirst, hrest⟩ := h
      have hmiddle := hforward _ _ hfirst
      have hstop := Times.forward hforward hrest
      obtain rfl | hmoved := hmiddle.eq_or_lt
      · obtain ⟨fewer, -, hdistance, hfewer⟩ := Times.shorten hforward hrest
        obtain ⟨stays, rfl⟩ := Nat.exists_eq_add_of_le (hdistance.trans hother)
        clear hother
        induction stays with
        | zero => exact hfewer
        | succ stays ih => exact ⟨start, hfirst, ih⟩
      · obtain ⟨other, rfl⟩ := Nat.exists_eq_add_of_lt (show 0 < other by omega)
        rw [Nat.zero_add]
        exact ⟨middle, hfirst, ih hrest (by omega) (by omega)⟩

theorem Times.cut_iff {least enough : Nat} {most : Option Nat} (henough : stop - start < enough) :
    (∃ count, min least enough ≤ count ∧
      count ≤ min least enough + min ((most.map (· - least)).getD enough) enough ∧
      Times step count start stop) ↔
    ∃ count, least ≤ count ∧ (∀ bound ∈ most, count ≤ max least bound) ∧
      Times step count start stop := by
  constructor
  · rintro ⟨count, hleast, hmost, htimes⟩
    obtain hfew | hmany := le_or_gt least enough
    · refine ⟨count, by omega, ?_, htimes⟩
      rintro bound rfl
      simp only [Option.map_some, Option.getD_some] at hmost
      omega
    · exact ⟨least, le_rfl, fun bound _ => le_max_left .., htimes.lengthen hforward (by omega)
        (by omega)⟩
  · rintro ⟨count, hleast, hmost, htimes⟩
    have hmore : count - least ≤ (most.map (· - least)).getD count := by
      cases most with
      | none => simp
      | some bound =>
          have hbound := hmost bound rfl
          simp only [Option.map_some, Option.getD_some]
          omega
    obtain hfew | hmany := le_or_gt count enough
    · refine ⟨count, by omega, ?_, htimes⟩
      cases most <;> simp only [Option.map_none, Option.map_some, Option.getD_none,
        Option.getD_some] at hmore ⊢ <;> omega
    · refine ⟨enough, by omega, ?_, htimes.lengthen hforward (by omega) (by omega)⟩
      cases most <;> simp only [Option.map_none, Option.map_some, Option.getD_none,
        Option.getD_some] at hmore ⊢ <;> omega

end

/-! ## Movements -/

namespace Movement

def Leads : Movement → Nat → Nat → Prop
  | .stay places, start, stop => places.testBit start ∧ start = stop
  | .step places, start, stop => places.testBit start ∧ start + 1 = stop
  | .follow first second, start, stop =>
    ∃ middle, first.Leads start middle ∧ second.Leads middle stop
  | .either left right, start, stop => left.Leads start stop ∨ right.Leads start stop
  | .repetition body least more, start, stop =>
    ∃ count, least ≤ count ∧ count ≤ least + more ∧ Times body.Leads count start stop

/-- Whether a function of sets of positions takes each set to where a relation leads from it. -/
def Follows (step : Nat → Nat → Prop) (move : Nat → Nat) : Prop :=
  ∀ positions stop, (move positions).testBit stop ↔
    ∃ start, positions.testBit start ∧ step start stop

section

variable {step : Nat → Nat → Prop} {move : Nat → Nat} (hmove : Follows step move)

private theorem steps_eq_iterate (move : Nat → Nat) (count positions : Nat) :
    steps move count positions = move^[count] positions := by
  induction count generalizing positions with
  | zero => rfl
  | succ count ih =>
      rw [steps, Function.iterate_succ_apply]
      split
      next hfixed => rw [hfixed, Function.iterate_fixed hfixed]
      next => rw [ih]

/-- A walk from a position that was reached goes through one that was reached last, or ends where
something was reached. -/
theorem reached_or_from_latest {reached latest count start stop : Nat}
    (hclosed : ∀ i j, reached.testBit i → latest.testBit i = false → step i j → reached.testBit j)
    (hstart : reached.testBit start) (h : Times step count start stop) :
    reached.testBit stop ∨
      ∃ fewer ≤ count, ∃ middle, latest.testBit middle ∧ Times step fewer middle stop := by
  induction count generalizing start with
  | zero => exact .inl (h ▸ hstart)
  | succ count ih =>
      by_cases hlatest : latest.testBit start
      · exact .inr ⟨count + 1, le_rfl, start, hlatest, h⟩
      · obtain ⟨middle, hfirst, hrest⟩ := h
        refine (ih (hclosed _ _ hstart (by simpa using hlatest) hfirst) hrest).imp id ?_
        rintro ⟨fewer, hfewer, hlater⟩
        exact ⟨fewer, by omega, hlater⟩

private theorem testBit_added (reached next i : Nat) :
    ((reached ||| next) ^^^ reached).testBit i ↔
      (reached ||| next).testBit i ∧ reached.testBit i = false := by
  rw [Nat.testBit_xor, Nat.testBit_or]
  cases reached.testBit i <;> simp

include hmove

private theorem steps_follows (count : Nat) : Follows (Times step count) (steps move count) := by
  intro positions stop
  rw [steps_eq_iterate]
  induction count generalizing positions with
  | zero => simp [Times]
  | succ count ih =>
      rw [Function.iterate_succ_apply, ih]
      simp only [hmove positions, Times]
      constructor
      · rintro ⟨middle, ⟨start, hstart, hfirst⟩, hrest⟩
        exact ⟨start, hstart, middle, hfirst, hrest⟩
      · rintro ⟨start, hstart, middle, hfirst, hrest⟩
        exact ⟨middle, ⟨start, hstart, hfirst⟩, hrest⟩

/-- What was reached earlier leads only to what was reached.  This holds again with what the next
step reaches, so that it is enough to go on from there. -/
private theorem spread_testBit {count reached latest : Nat}
    (hlatest : ∀ i, latest.testBit i → reached.testBit i)
    (hclosed : ∀ i j, reached.testBit i → latest.testBit i = false → step i j → reached.testBit j)
    (stop : Nat) :
    (spread move count reached latest).testBit stop ↔ reached.testBit stop ∨
      ∃ fewer ≤ count, ∃ start, latest.testBit start ∧ Times step fewer start stop := by
  induction count generalizing reached latest with
  | zero =>
      refine ⟨.inl, ?_⟩
      rintro (hreached | ⟨fewer, hfewer, start, hstart, htimes⟩)
      · exact hreached
      · obtain rfl := Nat.le_zero.mp hfewer
        exact htimes ▸ hlatest _ hstart
  | succ count ih =>
      have hall (i : Nat) : (reached ||| move latest).testBit i ↔
          reached.testBit i ∨ ∃ start, latest.testBit start ∧ step start i := by
        rw [Nat.testBit_or, Bool.or_eq_true, hmove]
      have hstep (i j : Nat) (hi : reached.testBit i) (h : step i j) :
          (reached ||| move latest).testBit j := by
        rw [hall]
        by_cases hlast : latest.testBit i
        · exact .inr ⟨i, hlast, h⟩
        · exact .inl (hclosed i j hi (by simpa using hlast) h)
      rw [spread]
      split
      next hsame =>
        rw [hsame] at hstep
        refine ⟨.inl, ?_⟩
        rintro (hreached | ⟨fewer, -, start, hstart, htimes⟩)
        · exact hreached
        · obtain hreached | ⟨_, _, middle, hmiddle, -⟩ :=
            reached_or_from_latest (fun i j hi _ => hstep i j hi) (hlatest _ hstart) htimes
          · exact hreached
          · exact absurd hmiddle (by rw [Nat.zero_testBit]; exact Bool.false_ne_true)
      next =>
        have hadded := testBit_added reached (move latest)
        have hnext (i j : Nat) (hi : (reached ||| move latest).testBit i)
            (hold : ((reached ||| move latest) ^^^ reached).testBit i = false) (h : step i j) :
            (reached ||| move latest).testBit j := by
          refine hstep i j ?_ h
          simpa [hi] using (hadded i).not.mp (by simpa using hold)
        rw [ih (fun i hi => ((hadded i).mp hi).1) hnext]
        constructor
        · rintro (hreached | ⟨fewer, hfewer, middle, hmiddle, htimes⟩)
          · refine ((hall _).mp hreached).imp id ?_
            rintro ⟨start, hstart, h⟩
            exact ⟨1, by omega, start, hstart, stop, h, rfl⟩
          · obtain ⟨hmiddle, hold⟩ := (hadded _).mp hmiddle
            obtain hmiddle | ⟨start, hstart, h⟩ := (hall _).mp hmiddle
            · simp [hmiddle] at hold
            · exact .inr ⟨fewer + 1, by omega, start, hstart, middle, h, htimes⟩
        · rintro (hreached | ⟨fewer, hfewer, start, hstart, htimes⟩)
          · exact .inl ((hall _).mpr (.inl hreached))
          · cases fewer with
            | zero => exact .inl ((hall _).mpr (.inl (htimes ▸ hlatest _ hstart)))
            | succ fewer =>
                obtain ⟨middle, hfirst, hrest⟩ := htimes
                refine (reached_or_from_latest hnext (hstep _ _ (hlatest _ hstart) hfirst)
                  hrest).imp id ?_
                rintro ⟨even, heven, hlater⟩
                exact ⟨even, by omega, hlater⟩

end

private theorem ends_follows (movement : Movement) : Follows movement.Leads movement.ends := by
  induction movement with
  | stay places =>
      intro positions stop
      simp only [ends, Nat.testBit_and, Bool.and_eq_true, Leads]
      constructor
      · rintro ⟨hstop, hplace⟩
        exact ⟨stop, hstop, hplace, rfl⟩
      · rintro ⟨start, hstart, hplace, rfl⟩
        exact ⟨hstart, hplace⟩
  | step places =>
      intro positions stop
      simp only [ends, Nat.testBit_shiftLeft, Nat.testBit_and, Bool.and_eq_true,
        decide_eq_true_eq, Leads]
      constructor
      · rintro ⟨hstop, hstart, hplace⟩
        exact ⟨stop - 1, hstart, hplace, by omega⟩
      · rintro ⟨start, hstart, hplace, rfl⟩
        exact ⟨by omega, hstart, hplace⟩
  | follow first second ihFirst ihSecond =>
      intro positions stop
      simp only [ends, ihSecond (first.ends positions), ihFirst positions, Leads]
      constructor
      · rintro ⟨middle, ⟨start, hstart, hfirst⟩, hsecond⟩
        exact ⟨start, hstart, middle, hfirst, hsecond⟩
      · rintro ⟨start, hstart, middle, hfirst, hsecond⟩
        exact ⟨middle, ⟨start, hstart, hfirst⟩, hsecond⟩
  | either left right ihLeft ihRight =>
      intro positions stop
      simp only [ends, Nat.testBit_or, Bool.or_eq_true, ihLeft positions, ihRight positions, Leads,
        and_or_left, exists_or]
  | repetition body least more ih =>
      intro positions stop
      have hleast := steps_follows ih least positions
      rw [ends, spread_testBit ih (fun _ => id) fun i j hi hold => absurd hi (by simp [hold])]
      simp only [hleast, Leads]
      constructor
      · rintro (⟨start, hstart, htimes⟩ | ⟨fewer, hfewer, middle, ⟨start, hstart, htimes⟩, hrest⟩)
        · exact ⟨start, hstart, least, le_rfl, by omega, htimes⟩
        · exact ⟨start, hstart, least + fewer, by omega, by omega, Times.trans htimes hrest⟩
      · rintro ⟨start, hstart, count, hleast, hmore, htimes⟩
        obtain ⟨fewer, rfl⟩ := Nat.exists_eq_add_of_le hleast
        obtain ⟨middle, hfirst, hrest⟩ := htimes.split
        exact .inr ⟨fewer, by omega, middle, ⟨start, hstart, hfirst⟩, hrest⟩

end Movement

/-! ## Spans -/

mutual

/-- Whether an expression matches the span of a text between two positions. -/
def Regex.Spans (text : List Char) : Regex → Nat → Nat → Prop
  | .empty, start, stop => start = stop
  | .literal word, start, stop => word <+: text.drop start ∧ start + word.length = stop
  | .chars set, start, stop =>
    (∃ c, text[start]? = some c ∧ set.contains c.toNat) ∧ start + 1 = stop
  | .look test, start, stop =>
    test.holds (text.take start).getLast? text[start]? ∧ start = stop
  | .repetition body least most _, start, stop =>
    ∃ count, least ≤ count ∧ (∀ bound ∈ most, count ≤ max least bound) ∧
      Times (body.Spans text) count start stop
  | .capture _ body, start, stop => body.Spans text start stop
  | .concat parts, start, stop => Regex.SequenceSpans text parts start stop
  | .alternation branches, start, stop => Regex.ChoiceSpans text branches start stop

def Regex.SequenceSpans (text : List Char) : List Regex → Nat → Nat → Prop
  | [], start, stop => start = stop
  | part :: parts, start, stop =>
    ∃ middle, part.Spans text start middle ∧ Regex.SequenceSpans text parts middle stop

def Regex.ChoiceSpans (text : List Char) : List Regex → Nat → Nat → Prop
  | [], _, _ => False
  | branch :: branches, start, stop =>
    branch.Spans text start stop ∨ Regex.ChoiceSpans text branches start stop

end

mutual

theorem Regex.Spans.le {text : List Char} : ∀ {regex : Regex} {start stop : Nat},
    regex.Spans text start stop → start ≤ stop
  | .empty, _, _, h => by rw [Regex.Spans] at h; omega
  | .literal _, _, _, h => by rw [Regex.Spans] at h; omega
  | .chars _, _, _, h => by rw [Regex.Spans] at h; omega
  | .look _, _, _, h => by rw [Regex.Spans] at h; omega
  | .repetition body _ _ _, _, _, h => by
      rw [Regex.Spans] at h
      obtain ⟨count, -, -, htimes⟩ := h
      exact htimes.forward fun _ _ => Regex.Spans.le
  | .capture _ body, _, _, h => by
      rw [Regex.Spans] at h
      exact Regex.Spans.le h
  | .concat parts, _, _, h => by
      rw [Regex.Spans] at h
      exact Regex.SequenceSpans.le h
  | .alternation branches, _, _, h => by
      rw [Regex.Spans] at h
      exact Regex.ChoiceSpans.le h

theorem Regex.SequenceSpans.le {text : List Char} : ∀ {parts : List Regex} {start stop : Nat},
    Regex.SequenceSpans text parts start stop → start ≤ stop
  | [], _, _, h => by rw [Regex.SequenceSpans] at h; omega
  | part :: parts, _, _, h => by
      rw [Regex.SequenceSpans] at h
      obtain ⟨middle, hfirst, hrest⟩ := h
      exact (Regex.Spans.le hfirst).trans (Regex.SequenceSpans.le hrest)

theorem Regex.ChoiceSpans.le {text : List Char} : ∀ {branches : List Regex} {start stop : Nat},
    Regex.ChoiceSpans text branches start stop → start ≤ stop
  | [], _, _, h => by rw [Regex.ChoiceSpans] at h; exact h.elim
  | branch :: branches, _, _, h => by
      rw [Regex.ChoiceSpans] at h
      exact h.elim Regex.Spans.le Regex.ChoiceSpans.le

end

mutual

theorem Regex.Spans.le_length {text : List Char} : ∀ {regex : Regex} {start stop : Nat},
    start ≤ text.length → regex.Spans text start stop → stop ≤ text.length
  | .empty, _, _, hstart, h => by rw [Regex.Spans] at h; omega
  | .literal word, start, _, hstart, h => by
      rw [Regex.Spans] at h
      have hword := h.1.length_le
      rw [List.length_drop] at hword
      omega
  | .chars _, start, _, _, h => by
      rw [Regex.Spans] at h
      obtain ⟨⟨c, hc, -⟩, hstop⟩ := h
      have hlength := (List.getElem?_eq_some_iff.mp hc).1
      omega
  | .look _, _, _, hstart, h => by rw [Regex.Spans] at h; omega
  | .repetition body _ _ _, _, _, hstart, h => by
      rw [Regex.Spans] at h
      obtain ⟨count, -, -, htimes⟩ := h
      exact htimes.le_bound (fun _ _ => Regex.Spans.le_length) hstart
  | .capture _ body, _, _, hstart, h => by
      rw [Regex.Spans] at h
      exact Regex.Spans.le_length hstart h
  | .concat parts, _, _, hstart, h => by
      rw [Regex.Spans] at h
      exact Regex.SequenceSpans.le_length hstart h
  | .alternation branches, _, _, hstart, h => by
      rw [Regex.Spans] at h
      exact Regex.ChoiceSpans.le_length hstart h

theorem Regex.SequenceSpans.le_length {text : List Char} :
    ∀ {parts : List Regex} {start stop : Nat}, start ≤ text.length →
    Regex.SequenceSpans text parts start stop → stop ≤ text.length
  | [], _, _, hstart, h => by rw [Regex.SequenceSpans] at h; omega
  | part :: parts, _, _, hstart, h => by
      rw [Regex.SequenceSpans] at h
      obtain ⟨middle, hfirst, hrest⟩ := h
      exact Regex.SequenceSpans.le_length (Regex.Spans.le_length hstart hfirst) hrest

theorem Regex.ChoiceSpans.le_length {text : List Char} :
    ∀ {branches : List Regex} {start stop : Nat}, start ≤ text.length →
    Regex.ChoiceSpans text branches start stop → stop ≤ text.length
  | [], _, _, _, h => by rw [Regex.ChoiceSpans] at h; exact h.elim
  | branch :: branches, _, _, hstart, h => by
      rw [Regex.ChoiceSpans] at h
      exact h.elim (Regex.Spans.le_length hstart) (Regex.ChoiceSpans.le_length hstart)

end

/-! ## Sets of positions -/

theorem testBit_positionsOf (answers : List Bool) (i : Nat) :
    (positionsOf answers).testBit i ↔ answers[i]? = some true := by
  induction answers generalizing i with
  | nil => simp [positionsOf]
  | cons answer answers ih =>
      have hcons : positionsOf (answer :: answers) = 2 * positionsOf answers + answer.toNat := rfl
      cases i with
      | zero =>
          rw [hcons, Nat.testBit_zero]
          cases answer
          · simp
          · simp
      | succ i =>
          have hhalf : (2 * positionsOf answers + answer.toNat) / 2 = positionsOf answers := by
            have hbit := answer.toNat_lt
            omega
          rw [hcons, Nat.testBit_add_one, hhalf, ih, List.getElem?_cons_succ]

theorem testBit_charPositions (test : Char → Bool) (text : List Char) (i : Nat) :
    (charPositions test text).testBit i ↔ ∃ c, text[i]? = some c ∧ test c := by
  rw [charPositions, testBit_positionsOf, List.getElem?_map, Option.map_eq_some_iff]

theorem testBit_allPositions (text : List Char) (i : Nat) :
    (allPositions text).testBit i ↔ i ≤ text.length := by
  have hpositions : allPositions text = 2 ^ (text.length + 1) - 1 := rfl
  rw [hpositions, Nat.testBit_two_pow_sub_one, decide_eq_true_iff, Nat.lt_succ_iff]

private theorem testBit_lookPositions {text : List Char} {i : Nat} (hi : i ≤ text.length)
    (look : Look) :
    (lookPositions look text).testBit i ↔ look.holds (text.take i).getLast? text[i]? := by
  have hbefore : (none :: text.map some)[i]? = some (text.take i).getLast? := by
    cases i with
    | zero => rfl
    | succ i =>
        have hlast : text[i]? = some text[i] := List.getElem?_eq_getElem _
        simp [List.getLast?_take, hlast]
  have hafter : (text.map some ++ [none])[i]? = some text[i]? := by
    obtain hlast | hinside := hi.eq_or_lt
    · simp [hlast]
    · rw [List.getElem?_append_left (by simpa using hinside), List.getElem?_map,
        List.getElem?_eq_getElem hinside, Option.map_some]
  rw [lookPositions, testBit_positionsOf, List.getElem?_zipWith, hbefore, hafter]
  simp

private theorem literal_leads_iff {text : List Char} (word : List Char) {start : Nat} (stop : Nat)
    (hstart : start ≤ text.length) :
    (word.foldr (fun c rest => .follow (.step (charPositions (· == c) text)) rest)
      (.stay (allPositions text)) : Movement).Leads start stop ↔
    word <+: text.drop start ∧ start + word.length = stop := by
  induction word generalizing start with
  | nil =>
      rw [List.foldr_nil, Movement.Leads, testBit_allPositions]
      simp [hstart]
  | cons c word ih =>
      rw [List.foldr_cons, Movement.Leads]
      simp only [Movement.Leads, testBit_charPositions, beq_iff_eq]
      constructor
      · rintro ⟨middle, ⟨⟨d, hd, rfl⟩, rfl⟩, hrest⟩
        obtain ⟨hlength, hd⟩ := List.getElem?_eq_some_iff.mp hd
        obtain ⟨hword, hstop⟩ := (ih hlength).mp hrest
        rw [List.drop_eq_getElem_cons hlength, hd, List.length_cons]
        exact ⟨(List.prefix_cons_inj d).mpr hword, by omega⟩
      · rintro ⟨hword, hstop⟩
        have hlength : start < text.length := by
          have := hword.length_le
          rw [List.length_drop, List.length_cons] at this
          omega
        rw [List.drop_eq_getElem_cons hlength, List.cons_prefix_cons] at hword
        obtain ⟨rfl, hword⟩ := hword
        rw [List.length_cons] at hstop
        exact ⟨start + 1, ⟨⟨_, List.getElem?_eq_getElem hlength, rfl⟩, rfl⟩,
          (ih hlength).mpr ⟨hword, by omega⟩⟩

mutual

theorem Regex.leads_iff {text : List Char} : ∀ (regex : Regex) {start : Nat} (stop : Nat),
    start ≤ text.length →
    ((regex.movement text).Leads start stop ↔ regex.Spans text start stop)
  | .empty, start, stop, hstart => by
      rw [Regex.movement, Movement.Leads, Regex.Spans, testBit_allPositions]
      simp [hstart]
  | .literal word, start, stop, hstart => by
      rw [Regex.movement, Regex.Spans, literal_leads_iff word stop hstart]
  | .chars set, start, stop, _ => by
      rw [Regex.movement, Movement.Leads, Regex.Spans, testBit_charPositions]
  | .look test, start, stop, hstart => by
      rw [Regex.movement, Movement.Leads, Regex.Spans, testBit_lookPositions hstart]
  | .repetition body least most _, start, stop, hstart => by
      have hbound (i j : Nat) (hi : i ≤ text.length) (h : body.Spans text i j) :
          j ≤ text.length := h.le_length hi
      simp only [Regex.movement, Movement.Leads, Regex.Spans]
      simp only [Times.congr hstart hbound fun i j => Regex.leads_iff body j]
      by_cases hstop : stop ≤ text.length
      · rw [Times.cut_iff (fun _ _ => Regex.Spans.le) (by omega)]
      · have hnever (count : Nat) : ¬ Times (body.Spans text) count start stop := fun h =>
          hstop (h.le_bound hbound hstart)
        simp [hnever]
  | .capture _ body, start, stop, hstart => by
      rw [Regex.movement, Regex.Spans, Regex.leads_iff body stop hstart]
  | .concat parts, start, stop, hstart => by
      rw [Regex.movement, Regex.Spans, Regex.sequence_leads_iff parts stop hstart]
  | .alternation branches, start, stop, hstart => by
      rw [Regex.movement, Regex.Spans, Regex.choice_leads_iff branches stop hstart]

theorem Regex.sequence_leads_iff {text : List Char} :
    ∀ (parts : List Regex) {start : Nat} (stop : Nat), start ≤ text.length →
    ((Regex.sequenceMovement text parts).Leads start stop ↔
      Regex.SequenceSpans text parts start stop)
  | [], start, stop, hstart => by
      rw [Regex.sequenceMovement, Movement.Leads, Regex.SequenceSpans, testBit_allPositions]
      simp [hstart]
  | part :: parts, start, stop, hstart => by
      rw [Regex.sequenceMovement, Movement.Leads, Regex.SequenceSpans]
      refine exists_congr fun middle => ?_
      rw [Regex.leads_iff part middle hstart]
      refine and_congr_right fun hfirst => ?_
      exact Regex.sequence_leads_iff parts stop (hfirst.le_length hstart)

theorem Regex.choice_leads_iff {text : List Char} :
    ∀ (branches : List Regex) {start : Nat} (stop : Nat), start ≤ text.length →
    ((Regex.choiceMovement text branches).Leads start stop ↔
      Regex.ChoiceSpans text branches start stop)
  | [], start, stop, _ => by
      simp [Regex.choiceMovement, Movement.nowhere, Movement.Leads, Regex.ChoiceSpans]
  | branch :: branches, start, stop, hstart => by
      rw [Regex.choiceMovement, Movement.Leads, Regex.ChoiceSpans,
        Regex.leads_iff branch stop hstart, Regex.choice_leads_iff branches stop hstart]

end

theorem Regex.occursIn_iff (regex : Regex) (text : List Char) :
    regex.occursIn text ↔ ∃ start stop, start ≤ text.length ∧ regex.Spans text start stop := by
  have hends (stop : Nat) :
      ((regex.movement text).ends (allPositions text)).testBit stop ↔
        ∃ start, start ≤ text.length ∧ regex.Spans text start stop := by
    rw [Movement.ends_follows (regex.movement text)]
    refine exists_congr fun start => ?_
    rw [testBit_allPositions]
    exact and_congr_right (regex.leads_iff stop)
  rw [occursIn, bne_iff_ne]
  constructor
  · intro hends'
    obtain ⟨stop, hstop⟩ := Nat.exists_testBit_of_ne_zero hends'
    obtain ⟨start, hspan⟩ := (hends stop).mp hstop
    exact ⟨start, stop, hspan⟩
  · rintro ⟨start, stop, hspan⟩ hzero
    have hstop := (hends stop).mpr ⟨start, hspan⟩
    simp [hzero] at hstop

/-! ## Sequences -/

theorem Regex.sequenceSpans_append {text : List Char} {first second : List Regex}
    {start stop : Nat} :
    SequenceSpans text (first ++ second) start stop ↔
      ∃ middle, SequenceSpans text first start middle ∧ SequenceSpans text second middle stop := by
  induction first generalizing start with
  | nil => simp [SequenceSpans]
  | cons part first ih =>
      simp only [List.cons_append, SequenceSpans, ih]
      constructor
      · rintro ⟨i, hpart, j, hfirst, hsecond⟩
        exact ⟨j, ⟨i, hpart, hfirst⟩, hsecond⟩
      · rintro ⟨j, ⟨i, hpart, hfirst⟩, hsecond⟩
        exact ⟨i, hpart, j, hfirst, hsecond⟩

theorem Regex.sequenceSpans_singleton {text : List Char} {part : Regex} {start stop : Nat} :
    SequenceSpans text [part] start stop ↔ part.Spans text start stop := by
  simp [SequenceSpans]

theorem Regex.sequenceSpans_parts {text : List Char} (part : Regex) {start stop : Nat} :
    SequenceSpans text part.sequenceParts start stop ↔ part.Spans text start stop := by
  cases part <;> simp [sequenceParts, SequenceSpans, Spans]

theorem Regex.sequenceSpans_flatMap {text : List Char} (parts : List Regex) {start stop : Nat} :
    SequenceSpans text (parts.flatMap sequenceParts) start stop ↔
      SequenceSpans text parts start stop := by
  induction parts generalizing start with
  | nil => rfl
  | cons part parts ih =>
      rw [List.flatMap_cons, sequenceSpans_append, SequenceSpans]
      simp only [sequenceSpans_parts, ih]

theorem Regex.spans_append {text word other : List Char} {start stop : Nat} :
    (literal (word ++ other)).Spans text start stop ↔
      ∃ middle, (literal word).Spans text start middle ∧
        (literal other).Spans text middle stop := by
  simp only [Spans, List.length_append]
  constructor
  · rintro ⟨⟨rest, hrest⟩, hstop⟩
    rw [List.append_assoc] at hrest
    refine ⟨start + word.length, ⟨⟨_, hrest⟩, rfl⟩, ⟨rest, ?_⟩, by omega⟩
    rw [← List.drop_drop, ← hrest, List.drop_left]
  · rintro ⟨middle, ⟨⟨behind, hbehind⟩, rfl⟩, ⟨rest, hrest⟩, hstop⟩
    refine ⟨⟨rest, ?_⟩, by omega⟩
    rw [← List.drop_drop, ← hbehind, List.drop_left] at hrest
    rw [List.append_assoc, hrest, hbehind]

/-- A text that joins the text behind it matches what the two match one after the other. -/
theorem Regex.sequenceSpans_before {text : List Char} (part : Regex) (parts : List Regex)
    {start stop : Nat} :
    SequenceSpans text (before part parts) start stop ↔
      SequenceSpans text (part :: parts) start stop := by
  rw [before.eq_def]
  split
  next word other rest =>
    simp only [SequenceSpans, spans_append]
    constructor
    · rintro ⟨j, ⟨i, hword, hother⟩, hrest⟩
      exact ⟨i, hword, j, hother, hrest⟩
    · rintro ⟨i, hword, j, hother, hrest⟩
      exact ⟨j, ⟨i, hword, hother⟩, hrest⟩
  next => rfl

theorem Regex.sequenceSpans_foldr {text : List Char} (parts : List Regex) {start stop : Nat} :
    SequenceSpans text (parts.foldr before []) start stop ↔
      SequenceSpans text parts start stop := by
  induction parts generalizing start with
  | nil => rfl
  | cons part parts ih =>
      rw [List.foldr_cons, sequenceSpans_before, SequenceSpans, SequenceSpans]
      simp only [ih]

theorem Regex.sequence_spans {text : List Char} (parts : List Regex) {start stop : Nat} :
    (sequence parts).Spans text start stop ↔ SequenceSpans text parts start stop := by
  rw [← sequenceSpans_flatMap, ← sequenceSpans_foldr, sequence]
  split
  next hnone => rw [hnone, Spans, SequenceSpans]
  next part hone => rw [hone, sequenceSpans_singleton]
  next parts _ _ => rw [Spans]

/-! ## Full matches -/

def Regex.inFull (regex : Regex) : Regex := sequence [.look .start, regex, .look .finish]

theorem Regex.look_start_spans {text : List Char} {start stop : Nat}
    (hstart : start ≤ text.length) :
    (look .start).Spans text start stop ↔ start = 0 ∧ stop = 0 := by
  simp only [Spans, Look.holds, Option.isNone_iff_eq_none, List.getLast?_eq_none_iff,
    List.take_eq_nil_iff]
  constructor
  · rintro ⟨rfl | rfl, rfl⟩
    · exact ⟨rfl, rfl⟩
    · simpa using hstart
  · rintro ⟨rfl, rfl⟩
    exact ⟨.inl rfl, rfl⟩

theorem Regex.look_finish_spans {text : List Char} {start stop : Nat} :
    (look .finish).Spans text start stop ↔ text.length ≤ start ∧ start = stop := by
  simp [Spans, Look.holds]

theorem Regex.occursIn_inFull_iff (regex : Regex) (text : List Char) :
    regex.inFull.occursIn text ↔ regex.Spans text 0 text.length := by
  rw [occursIn_iff]
  simp only [inFull, sequence_spans, SequenceSpans, look_finish_spans]
  constructor
  · rintro ⟨start, stop, hstart, middle, hfirst, finish, hspans, last, ⟨hfinish, rfl⟩, rfl⟩
    obtain ⟨rfl, rfl⟩ := (look_start_spans hstart).mp hfirst
    obtain rfl := hfinish.antisymm (hspans.le_length hstart)
    exact hspans
  · intro hspans
    exact ⟨0, text.length, Nat.zero_le _, 0, (look_start_spans (Nat.zero_le _)).mpr ⟨rfl, rfl⟩,
      text.length, hspans, text.length, ⟨le_rfl, rfl⟩, rfl⟩

end Runbook.Pattern
