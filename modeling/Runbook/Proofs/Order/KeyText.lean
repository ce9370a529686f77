import Runbook.Order.Basic
import Mathlib.Data.List.Forall2

/-!
# Texts of keys

A key is written with words in front of its name, and its text is read by taking such words off.  It
reads as the same key just if the name by itself reads as a name and is one line wherever a word
stands before it.
-/

namespace Runbook.Key

/-! ## Words in front of a key -/

inductive Side where
  | before
  | after

namespace Side

def wrap : Side → Key → Key
  | .before => .pre
  | .after => .post

def word : Side → List (List Char)
  | .before => [['p', 'P'], ['r', 'R'], ['e', 'E']]
  | .after => [['p', 'P'], ['o', 'O'], ['s', 'S', 'ſ'], ['t', 'T']]

def written : Side → List Char
  | .before => ['p', 'r', 'e']
  | .after => ['p', 'o', 's', 't']

end Side

/-- Whether a text is the word for a side, a separator, and a rest that is one line. -/
def Marks (side : Side) (text rest : List Char) : Prop :=
  ∃ letters separator, text = letters ++ separator :: rest ∧
    List.Forall₂ (fun c spellings => c ∈ spellings) letters side.word ∧
    separator ∈ ['-', ':', ' '] ∧ rest ≠ [] ∧ '\n' ∉ rest

theorem isSeparator_iff {c : Char} : isSeparator c ↔ c ∈ ['-', ':', ' '] := by
  simp [isSeparator, or_assoc]

theorem isBody_iff {text : List Char} : isBody text ↔ text ≠ [] ∧ '\n' ∉ text := by
  simp [isBody]

theorem isPreWord_iff {a b c : Char} :
    isPreWord a b c ↔ a ∈ ['p', 'P'] ∧ b ∈ ['r', 'R'] ∧ c ∈ ['e', 'E'] := by
  have hcapitals : 'p'.toUpper = 'P' ∧ 'r'.toUpper = 'R' ∧ 'e'.toUpper = 'E' := by decide
  obtain ⟨hp, hr, he⟩ := hcapitals
  simp [isPreWord, agreesWith, hp, hr, he, and_assoc]

theorem isPostWord_iff {a b c d : Char} :
    isPostWord a b c d ↔
      a ∈ ['p', 'P'] ∧ b ∈ ['o', 'O'] ∧ c ∈ ['s', 'S', 'ſ'] ∧ d ∈ ['t', 'T'] := by
  have hcapitals : 'p'.toUpper = 'P' ∧ 'o'.toUpper = 'O' ∧ 's'.toUpper = 'S' ∧
      't'.toUpper = 'T' := by decide
  obtain ⟨hp, ho, hs, ht⟩ := hcapitals
  simp [isPostWord, agreesWith, hp, ho, hs, ht, and_assoc, or_assoc]

theorem marks_before_iff {text rest : List Char} :
    Marks .before text rest ↔
      ∃ a b c d, text = a :: b :: c :: d :: rest ∧ isPreWord a b c ∧ isSeparator d ∧
        isBody rest := by
  constructor
  · rintro ⟨letters, d, rfl, hletters, hseparator, hrest⟩
    cases hletters with
    | cons ha hletters => cases hletters with
      | cons hb hletters => cases hletters with
        | cons hc hletters =>
            cases hletters
            exact ⟨_, _, _, d, rfl, isPreWord_iff.mpr ⟨ha, hb, hc⟩,
              isSeparator_iff.mpr hseparator, isBody_iff.mpr hrest⟩
  · rintro ⟨a, b, c, d, rfl, hword, hseparator, hrest⟩
    obtain ⟨ha, hb, hc⟩ := isPreWord_iff.mp hword
    exact ⟨[a, b, c], d, rfl, .cons ha (.cons hb (.cons hc .nil)),
      isSeparator_iff.mp hseparator, isBody_iff.mp hrest⟩

theorem marks_after_iff {text rest : List Char} :
    Marks .after text rest ↔
      ∃ a b c d e, text = a :: b :: c :: d :: e :: rest ∧ isPostWord a b c d ∧ isSeparator e ∧
        isBody rest := by
  constructor
  · rintro ⟨letters, e, rfl, hletters, hseparator, hrest⟩
    cases hletters with
    | cons ha hletters => cases hletters with
      | cons hb hletters => cases hletters with
        | cons hc hletters => cases hletters with
          | cons hd hletters =>
              cases hletters
              exact ⟨_, _, _, _, e, rfl, isPostWord_iff.mpr ⟨ha, hb, hc, hd⟩,
                isSeparator_iff.mpr hseparator, isBody_iff.mpr hrest⟩
  · rintro ⟨a, b, c, d, e, rfl, hword, hseparator, hrest⟩
    obtain ⟨ha, hb, hc, hd⟩ := isPostWord_iff.mp hword
    exact ⟨[a, b, c, d], e, rfl, .cons ha (.cons hb (.cons hc (.cons hd .nil))),
      isSeparator_iff.mp hseparator, isBody_iff.mp hrest⟩

theorem not_blank_of_p {a : Char} (h : a ∈ ['p', 'P']) : ¬ Text.isBlank a := by
  simp only [List.mem_cons, List.not_mem_nil, or_false] at h
  rcases h with rfl | rfl <;> decide

/-! ## Reading -/

theorem parseText_blank {text : List Char} (h : text.all Text.isBlank) :
    parseText text = .error text := by
  unfold parseText
  rw [if_pos h]

theorem parseText_marked {side : Side} {text rest : List Char} (h : Marks side text rest) :
    parseText text = (parseText rest).map side.wrap := by
  cases side with
  | before =>
      obtain ⟨a, b, c, d, rfl, hword, hseparator, hrest⟩ := marks_before_iff.mp h
      have hvisible := not_blank_of_p (isPreWord_iff.mp hword).1
      rw [parseText.eq_def]
      simp [hvisible, hword, hseparator, hrest, Side.wrap]
  | after =>
      obtain ⟨a, b, c, d, e, rfl, hword, hseparator, hrest⟩ := marks_after_iff.mp h
      have hvisible := not_blank_of_p (isPostWord_iff.mp hword).1
      have hother : ¬ isPreWord a b c := by
        intro hpre
        have ho := (isPostWord_iff.mp hword).2.1
        have hr := (isPreWord_iff.mp hpre).2.1
        simp only [List.mem_cons, List.not_mem_nil, or_false] at ho hr
        rcases ho with rfl | rfl <;> simp at hr
      rw [parseText.eq_def]
      simp [hvisible, hother, hword, hseparator, hrest, Side.wrap]

theorem parseText_unmarked {text : List Char} (hvisible : ¬ text.all Text.isBlank)
    (h : ∀ side rest, ¬ Marks side text rest) :
    parseText text = .ok (.constant (String.ofList text)) := by
  unfold parseText
  rw [if_neg hvisible]
  split
  · next a b c d rest =>
    split
    · next hmarks =>
      simp only [Bool.and_eq_true] at hmarks
      exact absurd (marks_before_iff.mpr ⟨a, b, c, d, rfl, hmarks.1.1, hmarks.1.2, hmarks.2⟩)
        (h .before rest)
    · split
      · next e rest _ =>
        split
        · next hmarks =>
          simp only [Bool.and_eq_true] at hmarks
          exact absurd
            (marks_after_iff.mpr ⟨a, b, c, d, e, rfl, hmarks.1.1, hmarks.1.2, hmarks.2⟩)
            (h .after rest)
        · rfl
      · rfl
  · rfl

private theorem parseText_eq_ok {text : List Char} {key : Key} (h : parseText text = .ok key) :
    key = .constant (String.ofList text) ∨
      ∃ side rest base, Marks side text rest ∧ parseText rest = .ok base ∧
        key = side.wrap base := by
  by_cases hblank : text.all Text.isBlank
  · rw [parseText_blank hblank] at h
    cases h
  by_cases hmarked : ∃ side rest, Marks side text rest
  · obtain ⟨side, rest, hmarks⟩ := hmarked
    rw [parseText_marked hmarks] at h
    cases hbase : parseText rest with
    | error blank =>
        rw [hbase] at h
        cases h
    | ok base =>
        rw [hbase] at h
        cases h
        exact .inr ⟨side, rest, base, hmarks, hbase, rfl⟩
  · simp only [not_exists] at hmarked
    rw [parseText_unmarked hblank hmarked] at h
    cases h
    exact .inl rfl

/-! ## Reading what was written -/

private theorem wrap_inj {side : Side} {a b : Key} : side.wrap a = side.wrap b ↔ a = b := by
  cases side <;> simp [Side.wrap]

theorem wrap_ne_constant (side : Side) (base : Key) (name : String) :
    side.wrap base ≠ .constant name := by
  cases side <;> simp [Side.wrap]

theorem displayText_wrap (side : Side) (base : Key) :
    displayText (side.wrap base) = side.written ++ ':' :: displayText base := by
  cases side <;> rfl

private theorem marks_written (side : Side) {rest : List Char} (hrest : rest ≠ [])
    (hline : '\n' ∉ rest) :
    Marks side (side.written ++ ':' :: rest) rest := by
  refine ⟨side.written, ':', rfl, ?_, by simp, hrest, hline⟩
  cases side <;> simp [Side.written, Side.word]

private theorem eq_of_marks_written {side other : Side} {text rest : List Char}
    (h : Marks other (side.written ++ ':' :: text) rest) : rest = text := by
  cases other with
  | before =>
      obtain ⟨a, b, c, d, htext, hword, -⟩ := marks_before_iff.mp h
      have hb := (isPreWord_iff.mp hword).2.1
      cases side with
      | before => simp_all [Side.written]
      | after =>
          simp only [Side.written, List.cons_append, List.cons.injEq] at htext
          simp [← htext.2.1] at hb
  | after =>
      obtain ⟨a, b, c, d, e, htext, hword, -⟩ := marks_after_iff.mp h
      have hb := (isPostWord_iff.mp hword).2.1
      cases side with
      | before =>
          simp only [Side.written, List.cons_append, List.cons.injEq] at htext
          simp [← htext.2.1] at hb
      | after => simp_all [Side.written]

theorem parseText_displayText_wrap (side : Side) (base : Key) :
    parseText (displayText (side.wrap base)) = .ok (side.wrap base) ↔
      displayText base ≠ [] ∧ '\n' ∉ displayText base ∧
        parseText (displayText base) = .ok base := by
  rw [displayText_wrap, ← and_assoc]
  by_cases hline : displayText base ≠ [] ∧ '\n' ∉ displayText base
  · rw [parseText_marked (marks_written side hline.1 hline.2)]
    cases parseText (displayText base) <;> simp [Except.map, hline, wrap_inj]
  · have hvisible : ¬ (side.written ++ ':' :: displayText base).all Text.isBlank := by
      cases side <;> simp [Side.written, not_blank_of_p]
    have hunmarked : ∀ other rest,
        ¬ Marks other (side.written ++ ':' :: displayText base) rest := by
      intro other rest hmarks
      obtain rfl := eq_of_marks_written hmarks
      obtain ⟨-, -, -, -, -, hrest⟩ := hmarks
      exact hline hrest
    rw [parseText_unmarked hvisible hunmarked]
    simp [hline, (wrap_ne_constant side base _).symm]

/-! ## Names -/

def coreName? : Key → Option String
  | .unique _ => none
  | .constant name => some name
  | .pre base => coreName? base
  | .post base => coreName? base

private theorem coreName?_wrap (side : Side) (base : Key) :
    coreName? (side.wrap base) = coreName? base := by
  cases side <;> rfl

/-- Whether a name reads as itself: something in it is not blank, and it is no word with a rest. -/
structure IsPlainName (name : String) : Prop where
  visible : ¬ name.toList.all Text.isBlank
  unmarked : ∀ side rest, ¬ Marks side name.toList rest

def IsBeside (key : Key) : Prop := ∃ (side : Side) (base : Key), key = side.wrap base

/-- What holds of a name, and of a key next to another one whenever it holds of that one, holds of
all keys with that name at their core. -/
@[elab_as_elim]
theorem coreInduction {name : String} {motive : (key : Key) → key.coreName? = some name → Prop}
    (constant : motive (.constant name) rfl)
    (wrap : ∀ (side : Side) (base : Key) (hbase : base.coreName? = some name), motive base hbase →
      motive (side.wrap base) ((coreName?_wrap side base).trans hbase)) :
    ∀ (key : Key) (h : key.coreName? = some name), motive key h := by
  intro key h
  induction key with
  | unique id => cases h
  | constant own =>
      cases h
      exact constant
  | pre base ih => exact wrap .before base h (ih h)
  | post base ih => exact wrap .after base h (ih h)

private theorem newline_mem_displayText {key : Key} {name : String}
    (h : key.coreName? = some name) :
    '\n' ∈ displayText key ↔ '\n' ∈ name.toList := by
  induction key, h using coreInduction with
  | constant => rfl
  | wrap side base _ ih =>
      rw [displayText_wrap]
      cases side <;> simp [Side.written, ih]

theorem IsPlainName.displayText_ne_nil {key : Key} {name : String} (hname : IsPlainName name)
    (h : key.coreName? = some name) : displayText key ≠ [] := by
  induction key, h using coreInduction with
  | constant =>
      intro hnil
      have hempty : name.toList = [] := hnil
      exact hname.visible (by simp [hempty])
  | wrap side base =>
      rw [displayText_wrap]
      simp

private theorem parseText_constant_iff (name : String) :
    parseText (displayText (.constant name)) = .ok (.constant name) ↔ IsPlainName name := by
  constructor
  · intro h
    refine ⟨fun hblank => ?_, fun side rest hmarks => ?_⟩
    · rw [displayText, parseText_blank hblank] at h
      cases h
    · rw [displayText, parseText_marked hmarks] at h
      cases hbase : parseText rest with
      | error blank => simp [hbase, Except.map] at h
      | ok base => simp [hbase, Except.map, wrap_ne_constant] at h
  · intro hname
    rw [displayText, parseText_unmarked hname.visible hname.unmarked, String.ofList_toList]

private theorem parseText_displayText_iff {key : Key} {name : String}
    (h : key.coreName? = some name) :
    parseText (displayText key) = .ok key ↔
      IsPlainName name ∧ (IsBeside key → '\n' ∉ name.toList) := by
  induction key, h using coreInduction with
  | constant =>
      rw [parseText_constant_iff]
      simp [IsBeside, (wrap_ne_constant _ _ name).symm]
  | wrap side base hbase ih =>
      rw [parseText_displayText_wrap, ih, newline_mem_displayText hbase]
      constructor
      · rintro ⟨-, hline, hname, -⟩
        exact ⟨hname, fun _ => hline⟩
      · rintro ⟨hname, hline⟩
        have hline := hline ⟨side, base, rfl⟩
        exact ⟨hname.displayText_ne_nil hbase, hline, hname, fun _ => hline⟩

theorem Marks.length_lt {side : Side} {text rest : List Char} (h : Marks side text rest) :
    rest.length < text.length := by
  obtain ⟨letters, separator, rfl, -⟩ := h
  simp
  omega

theorem parseText_displayText {text : List Char} {key : Key} (h : parseText text = .ok key) :
    parseText (displayText key) = .ok key ∧ ('\n' ∈ displayText key → '\n' ∈ text) := by
  rcases parseText_eq_ok h with rfl | ⟨side, rest, base, hmarks, hbase, rfl⟩
  · simpa [displayText] using h
  · obtain ⟨hread, hline⟩ := parseText_displayText hbase
    obtain ⟨letters, separator, -, -, -, hrest, hnone⟩ := id hmarks
    have hnonempty : displayText base ≠ [] := by
      intro hnil
      rw [hnil] at hread
      cases hread
    have hone : '\n' ∉ displayText base := fun hmem => hnone (hline hmem)
    refine ⟨(parseText_displayText_wrap side base).mpr ⟨hnonempty, hone, hread⟩, fun hmem => ?_⟩
    rw [displayText_wrap] at hmem
    exact absurd hmem (by cases side <;> simp [Side.written, hone])
termination_by text.length
decreasing_by exact hmarks.length_lt

theorem parse_eq_ok {source : String} {key : Key} :
    Key.parse source = .ok key ↔ parseText source.toList = .ok key := by
  rw [Key.parse]
  cases parseText source.toList <;> simp

/-- The text of a key without a generated part reads as that key just if the name at its core is not
blank and not itself a word with a rest, and is one line if it stands next to something; and what is
read from any text reads back from its own text. -/
theorem text_reads_back :
    (∀ (key : Key) (name : String), key.coreName? = some name →
      (Key.parse key.display = .ok key ↔
        IsPlainName name ∧ (IsBeside key → '\n' ∉ name.toList))) ∧
    ∀ (source : String) (key : Key), Key.parse source = .ok key →
      Key.parse key.display = .ok key := by
  constructor
  · intro key name h
    rw [parse_eq_ok, display, String.toList_ofList]
    exact parseText_displayText_iff h
  · intro source key h
    rw [parse_eq_ok, display, String.toList_ofList]
    exact (parseText_displayText (parse_eq_ok.mp h)).1

theorem text_reads_back_words :
    (coreName? (.post (.constant "pre:")) = some "pre:" ∧
      Key.parse (display (.post (.constant "pre:"))) = .ok (.post (.constant "pre:")) ∧
      IsPlainName "pre:") ∧
    (coreName? (.constant "pre:\nx") = some "pre:\nx" ∧ IsPlainName "pre:\nx" ∧
      Key.parse (display (.pre (.constant "pre:\nx"))) ≠ .ok (.pre (.constant "pre:\nx"))) ∧
    ¬ IsPlainName "Pre-x" ∧
    Key.parse "POſT-pre x" = .ok (.post (.pre (.constant "x"))) ∧
      Key.parse (display (.post (.pre (.constant "x")))) = .ok (.post (.pre (.constant "x"))) := by
  obtain ⟨hreads, hback⟩ := text_reads_back
  have hafter : Key.parse (display (.post (.constant "pre:"))) =
      .ok (.post (.constant "pre:")) := by
    decide +kernel
  have hlines : Key.parse (display (.constant "pre:\nx")) = .ok (.constant "pre:\nx") := by
    decide +kernel
  have hprefixed : Key.parse (display (.constant "Pre-x")) ≠ .ok (.constant "Pre-x") := by
    decide +kernel
  have hlong : Key.parse "POſT-pre x" = .ok (.post (.pre (.constant "x"))) := by decide +kernel
  refine ⟨⟨rfl, hafter, ((hreads _ "pre:" rfl).mp hafter).1⟩, ⟨rfl, ?_, ?_⟩, ?_, hlong,
    hback _ _ hlong⟩
  · exact ((hreads _ "pre:\nx" rfl).mp hlines).1
  · intro h
    exact ((hreads _ "pre:\nx" rfl).mp h).2 ⟨.before, _, rfl⟩ (by decide +kernel)
  · intro hname
    refine hprefixed ((hreads _ "Pre-x" rfl).mpr ⟨hname, ?_⟩)
    rintro ⟨side, base, hwrap⟩
    exact absurd hwrap.symm (wrap_ne_constant side base _)

end Runbook.Key
