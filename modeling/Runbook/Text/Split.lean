/-!
# Splitting and joining text

A text is cut at every separator, so the pieces joined by the separator give the text back.
-/

namespace Runbook.Text

def pieces (separator : Char) : List Char → List (List Char)
  | [] => [[]]
  | c :: rest =>
    if c = separator then [] :: pieces separator rest
    else
      match pieces separator rest with
      | [] => [[c]]
      | piece :: others => (c :: piece) :: others

def split (separator : Char) (text : String) : List String :=
  (pieces separator text.toList).map String.ofList

def joinPieces (separator : Char) : List (List Char) → List Char
  | [] => []
  | [piece] => piece
  | piece :: others => piece ++ separator :: joinPieces separator others

theorem pieces_ne_nil (separator : Char) (text : List Char) : pieces separator text ≠ [] := by
  cases text with
  | nil => simp [pieces]
  | cons c rest =>
    rw [pieces]
    split
    · simp
    · split <;> simp

theorem joinPieces_pieces (separator : Char) (text : List Char) :
    joinPieces separator (pieces separator text) = text := by
  induction text with
  | nil => rfl
  | cons c rest ih =>
    rw [pieces]
    split
    · next same =>
      subst same
      cases parts : pieces c rest with
      | nil => exact absurd parts (pieces_ne_nil c rest)
      | cons piece others => rw [parts] at ih; simp [joinPieces, ih]
    · cases parts : pieces separator rest with
      | nil => exact absurd parts (pieces_ne_nil separator rest)
      | cons piece others =>
        rw [parts] at ih
        cases others <;> simp_all [joinPieces]

private theorem joinPieces_append (separator : Char) {parts others : List (List Char)}
    (hparts : parts ≠ [])
    (hothers : others ≠ []) :
    joinPieces separator (parts ++ others) =
      joinPieces separator parts ++ separator :: joinPieces separator others := by
  induction parts with
  | nil => exact absurd rfl hparts
  | cons piece parts ih =>
      cases parts with
      | nil =>
          cases others with
          | nil => exact absurd rfl hothers
          | cons other others => rfl
      | cons next parts =>
          have hrest := ih (by simp)
          simp only [List.cons_append] at hrest ⊢
          simp [joinPieces, hrest]

theorem prefix_of_pieces {separator : Char} {text other : List Char}
    (h : pieces separator text <+: pieces separator other) : text <+: other := by
  obtain ⟨rest, hrest⟩ := h
  rw [← joinPieces_pieces separator other, ← hrest]
  cases rest with
  | nil => simp [joinPieces_pieces]
  | cons piece rest =>
      rw [joinPieces_append separator (pieces_ne_nil _ _) (by simp), joinPieces_pieces]
      exact List.prefix_append _ _

private theorem pieces_of_not_mem {separator : Char} {piece : List Char} (h : separator ∉ piece) :
    pieces separator piece = [piece] := by
  induction piece with
  | nil => rfl
  | cons c piece ih =>
    rw [List.mem_cons, not_or] at h
    rw [pieces, if_neg (Ne.symm h.1), ih h.2]

private theorem pieces_append_separator {separator : Char} {piece : List Char}
    (h : separator ∉ piece)
    (rest : List Char) :
    pieces separator (piece ++ separator :: rest) = piece :: pieces separator rest := by
  induction piece with
  | nil => rw [List.nil_append, pieces, if_pos rfl]
  | cons c piece ih =>
    rw [List.mem_cons, not_or] at h
    rw [List.cons_append, pieces, if_neg (Ne.symm h.1), ih h.2]

theorem pieces_intercalate {separator : Char} {parts : List (List Char)} (hparts : parts ≠ [])
    (h : ∀ piece ∈ parts, separator ∉ piece) :
    pieces separator ([separator].intercalate parts) = parts := by
  induction parts with
  | nil => exact absurd rfl hparts
  | cons piece others ih =>
    rw [List.forall_mem_cons] at h
    cases others with
    | nil => rw [List.intercalate_singleton, pieces_of_not_mem h.1]
    | cons next others =>
      rw [List.intercalate_cons_cons, List.append_assoc, List.singleton_append,
        pieces_append_separator h.1, ih (by simp) h.2]

theorem separator_not_mem_pieces {separator : Char} {text : List Char} :
    ∀ piece ∈ pieces separator text, separator ∉ piece := by
  induction text with
  | nil => simp [pieces]
  | cons c rest ih =>
    rw [pieces]
    split
    · simpa using ih
    · next different =>
      cases parts : pieces separator rest with
      | nil => exact absurd parts (pieces_ne_nil separator rest)
      | cons piece others =>
        rw [parts, List.forall_mem_cons] at ih
        rw [List.forall_mem_cons, List.mem_cons, not_or]
        exact ⟨⟨Ne.symm different, ih.1⟩, ih.2⟩

private theorem infix_joinPieces (separator : Char) {parts : List (List Char)} {piece : List Char}
    (h : piece ∈ parts) : piece <:+: joinPieces separator parts := by
  induction parts with
  | nil => cases h
  | cons first others ih =>
      cases others with
      | nil =>
          rw [List.mem_singleton.mp h]
          exact List.infix_rfl
      | cons next others =>
          rw [joinPieces]
          · rcases List.mem_cons.mp h with rfl | h
            · exact (List.prefix_append _ _).isInfix
            · exact ((ih h).trans (List.suffix_cons _ _).isInfix).trans
                (List.suffix_append _ _).isInfix
          · simp

theorem infix_of_mem_pieces {separator : Char} {text piece : List Char}
    (h : piece ∈ pieces separator text) : piece <:+: text := by
  have := infix_joinPieces separator h
  rwa [joinPieces_pieces] at this

theorem pieces_replace {separator other : Char} {text : List Char} (h : other ∉ text) :
    pieces other (text.map fun c => if c = separator then other else c) =
      pieces separator text := by
  induction text with
  | nil => rfl
  | cons c text ih =>
      rw [List.mem_cons, not_or] at h
      rw [List.map_cons, pieces, pieces, ih h.2]
      by_cases hc : c = separator
      · simp [hc]
      · simp [hc, Ne.symm h.1]

theorem pieces_eq_cons (separator : Char) (text : List Char) :
    ∃ others, pieces separator text = text.takeWhile (· ≠ separator) :: others := by
  induction text with
  | nil => exact ⟨[], rfl⟩
  | cons c text ih =>
      obtain ⟨others, hothers⟩ := ih
      rw [pieces, hothers]
      by_cases hc : c = separator
      · exact ⟨text.takeWhile (· ≠ separator) :: others, by simp [hc]⟩
      · exact ⟨others, by simp [hc]⟩

theorem length_filter_le_joinPieces (separator : Char) (parts : List (List Char)) :
    2 * (parts.filter (· ≠ [])).length ≤ (joinPieces separator parts).length + 1 := by
  have hfirst : ∀ (piece : List Char) others,
      ((piece :: others).filter (· ≠ [])).length ≤
        min piece.length 1 + (others.filter (· ≠ [])).length := by
    intro piece others
    cases piece with
    | nil => simp
    | cons c piece => simp [Nat.add_comm]
  induction parts with
  | nil => simp
  | cons piece others ih =>
    have hcount := hfirst piece others
    cases others with
    | nil =>
      rw [List.filter_nil, List.length_nil] at hcount
      rw [joinPieces]
      omega
    | cons next others =>
      rw [joinPieces, List.length_append, List.length_cons]
      · omega
      · simp

def replacePair (first second replacement : Char) : List Char → List Char
  | [] => []
  | [c] => [c]
  | c :: d :: rest =>
    if c = first ∧ d = second then replacement :: replacePair first second replacement rest
    else c :: replacePair first second replacement (d :: rest)

theorem replacePair_of_not_infix {first second replacement : Char} {text : List Char}
    (h : ¬ [first, second] <:+: text) : replacePair first second replacement text = text := by
  fun_induction replacePair first second replacement text with
  | case1 => rfl
  | case2 => rfl
  | case3 c d rest hpair =>
      obtain ⟨rfl, rfl⟩ := hpair
      exact absurd (List.prefix_append [c, d] rest).isInfix h
  | case4 c d rest hpair ih =>
      rw [ih fun hrest => h (hrest.trans (List.suffix_cons _ _).isInfix)]

theorem length_replacePair_le (first second replacement : Char) (text : List Char) :
    (replacePair first second replacement text).length ≤ text.length := by
  fun_induction replacePair first second replacement text with
  | case1 => exact Nat.le_refl _
  | case2 => exact Nat.le_refl _
  | case3 c d rest _ ih => exact Nat.le_succ_of_le (Nat.succ_le_succ ih)
  | case4 c d rest _ ih => exact Nat.succ_le_succ ih

theorem mem_replacePair {first second replacement c : Char} {text : List Char} (h : c ∈ text)
    (hfirst : c ≠ first) (hsecond : c ≠ second) : c ∈ replacePair first second replacement text := by
  fun_induction replacePair first second replacement text with
  | case1 => exact h
  | case2 => exact h
  | case3 a b rest hpair ih =>
      obtain ⟨rfl, rfl⟩ := hpair
      simp only [List.mem_cons, hfirst, hsecond, false_or] at h
      exact List.mem_cons_of_mem _ (ih h)
  | case4 a b rest _ ih =>
      rcases List.mem_cons.mp h with rfl | h
      · exact List.mem_cons_self
      · exact List.mem_cons_of_mem _ (ih h)

def decimalNat? (text : List Char) : Option Nat :=
  if text.isEmpty || !text.all Char.isDigit then none
  else some (text.foldl (fun total digit => 10 * total + (digit.toNat - 48)) 0)

end Runbook.Text
