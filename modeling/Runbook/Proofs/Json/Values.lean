import Runbook.Value

/-!
# Values from documents

A document can be read as a value or converted to one.  Reading takes just the documents that values
are written as, and there the conversion agrees with it.
-/

namespace Runbook.Value

/-! ## Words -/

def Fits (number : Int) : Prop :=
  Int64.minValue.toInt ≤ number ∧ number ≤ Int64.maxValue.toInt

instance (number : Int) : Decidable (Fits number) :=
  inferInstanceAs (Decidable (Int64.minValue.toInt ≤ number ∧ number ≤ Int64.maxValue.toInt))

theorem fits_toInt (word : Int64) : Fits word.toInt := by
  have hleast : Int64.minValue.toInt = -2 ^ 63 := by decide
  have hgreatest : Int64.maxValue.toInt = 2 ^ 63 - 1 := by decide
  have hlow := Int64.le_toInt word
  have hhigh := Int64.toInt_lt word
  unfold Fits
  omega

theorem Fits.toInt_ofInt {number : Int} (h : Fits number) :
    (Int64.ofInt number).toInt = number := by
  have hleast : Int64.minValue.toInt = -2 ^ 63 := by decide
  have hgreatest : Int64.maxValue.toInt = 2 ^ 63 - 1 := by decide
  unfold Fits at h
  exact Int64.toInt_ofInt_of_le (by omega) (by omega)

theorem ofInt?_eq_some_iff {number : Int} {word : Int64} :
    ofInt? number = some word ↔ number = word.toInt := by
  unfold ofInt?
  constructor
  · intro h
    split at h
    · next hfits =>
      cases h
      exact (Fits.toInt_ofInt hfits).symm
    · cases h
  · rintro rfl
    exact (if_pos (fits_toInt word)).trans (congrArg some (Int64.ofInt_toInt word))

/-! ## Reading what was written -/

mutual

theorem read?_toJson (value : Value) : read? (toJson value) = some value := by
  cases value with
  | null => rfl
  | bool value => rfl
  | int word => simp [toJson, read?, ofInt?_eq_some_iff]
  | str text => rfl
  | list items => simp [toJson, read?, readItems?_itemsToJson items]

theorem readItems?_itemsToJson (items : List Value) :
    readItems? (itemsToJson items) = some items := by
  cases items with
  | nil => rfl
  | cons item items =>
      simp [itemsToJson, readItems?, read?_toJson item, readItems?_itemsToJson items]

end

mutual

theorem ofJson_toJson (value : Value) : ofJson (toJson value) = value := by
  cases value with
  | null => rfl
  | bool value => rfl
  | int word =>
      have hword : ofInt? word.toInt = some word := ofInt?_eq_some_iff.mpr rfl
      simp [toJson, ofJson, ofNumber, hword]
  | str text => rfl
  | list items => simp [toJson, ofJson, ofItems_itemsToJson items]

theorem ofItems_itemsToJson (items : List Value) : ofItems (itemsToJson items) = items := by
  cases items with
  | nil => rfl
  | cons item items =>
      simp [itemsToJson, ofItems, ofJson_toJson item, ofItems_itemsToJson items]

end

mutual

theorem toJson_of_read? {document : Json} {value : Value} (h : read? document = some value) :
    document = toJson value := by
  cases document with
  | null =>
      cases h
      rfl
  | bool own =>
      cases h
      rfl
  | number number =>
      cases number with
      | int own =>
          obtain ⟨word, hword, rfl⟩ := Option.map_eq_some_iff.mp h
          rw [toJson, ofInt?_eq_some_iff.mp hword]
      | double own => cases h
  | string text =>
      cases h
      rfl
  | array items =>
      obtain ⟨values, hvalues, rfl⟩ := Option.map_eq_some_iff.mp h
      rw [toJson, itemsToJson_of_readItems? hvalues]
  | object fields => cases h

theorem itemsToJson_of_readItems? {items : List Json} {values : List Value}
    (h : readItems? items = some values) : items = itemsToJson values := by
  cases items with
  | nil =>
      cases h
      rfl
  | cons item items =>
      obtain ⟨value, hvalue, h⟩ := Option.bind_eq_some_iff.mp h
      obtain ⟨others, hothers, h⟩ := Option.bind_eq_some_iff.mp h
      cases h
      rw [itemsToJson, ← toJson_of_read? hvalue, ← itemsToJson_of_readItems? hothers]

end

private theorem ofJson_of_read? {document : Json} {value : Value}
    (h : read? document = some value) :
    ofJson document = value := by
  rw [toJson_of_read? h, ofJson_toJson]

/-! ## What can be read -/

inductive Within (part : Json) : Json → Prop
  | whole : Within part part
  | item {items : List Json} {item : Json} (hitem : item ∈ items) (hpart : Within part item) :
      Within part (.array items)
  | field {fields : List (String × Json)} {field : String × Json} (hfield : field ∈ fields)
      (hpart : Within part field.2) : Within part (.object fields)

/-- Documents for which there is no value of their kind: objects, doubles, and whole numbers that
fit no word. -/
inductive Foreign : Json → Prop
  | object (fields : List (String × Json)) : Foreign (.object fields)
  | double (number : Decimal.Binary64) : Foreign (.number (.double number))
  | outside {number : Int} (h : ¬ Fits number) : Foreign (.number (.int number))

def IsNative (document : Json) : Prop := ∀ part, Within part document → ¬ Foreign part

private theorem isNative_array_iff {items : List Json} :
    IsNative (.array items) ↔ ∀ item ∈ items, IsNative item := by
  constructor
  · intro h item hitem part hpart
    exact h part (.item hitem hpart)
  · intro h part hpart
    cases hpart with
    | whole => intro hforeign; cases hforeign
    | item hitem hpart => exact h _ hitem part hpart

private theorem not_isNative_object (fields : List (String × Json)) : ¬ IsNative (.object fields) :=
  fun h => h _ .whole (.object fields)

private theorem isNative_number_iff {number : Json.Number} :
    IsNative (.number number) ↔ ∃ word : Int64, number = .int word.toInt := by
  constructor
  · intro h
    cases number with
    | double own => exact absurd (.double own) (h _ .whole)
    | int own =>
        have hfits : Fits own := Decidable.byContradiction fun hout => h _ .whole (.outside hout)
        exact ⟨.ofInt own, congrArg _ hfits.toInt_ofInt.symm⟩
  · rintro ⟨word, rfl⟩ part hpart hforeign
    cases hpart
    cases hforeign with
    | outside hout => exact hout (fits_toInt word)

theorem exists_map_eq_some {α β : Type} {value? : Option α} {f : α → β} :
    (∃ image, value?.map f = some image) ↔ ∃ value, value? = some value := by
  cases value? <;> simp

mutual

theorem exists_read?_iff (document : Json) :
    (∃ value, read? document = some value) ↔ IsNative document := by
  cases document with
  | null => exact iff_of_true ⟨_, rfl⟩ (by rintro part ⟨⟩ ⟨⟩)
  | bool own => exact iff_of_true ⟨_, rfl⟩ (by rintro part ⟨⟩ ⟨⟩)
  | string text => exact iff_of_true ⟨_, rfl⟩ (by rintro part ⟨⟩ ⟨⟩)
  | number number =>
      rw [isNative_number_iff]
      cases number with
      | int own =>
          rw [read?, exists_map_eq_some]
          simp [ofInt?_eq_some_iff]
      | double own => simp [read?]
  | array items =>
      rw [isNative_array_iff, ← exists_readItems?_iff, read?, exists_map_eq_some]
  | object fields => simp [read?, not_isNative_object]

theorem exists_readItems?_iff (items : List Json) :
    (∃ values, readItems? items = some values) ↔ ∀ item ∈ items, IsNative item := by
  cases items with
  | nil => simp [readItems?]
  | cons item items =>
      rw [List.forall_mem_cons, ← exists_read?_iff item, ← exists_readItems?_iff items]
      simp only [readItems?, Option.bind_eq_bind, Option.bind_eq_some_iff, Option.pure_def,
        Option.some.injEq]
      constructor
      · rintro ⟨_, value, hvalue, values, hvalues, -⟩
        exact ⟨⟨value, hvalue⟩, values, hvalues⟩
      · rintro ⟨⟨value, hvalue⟩, values, hvalues⟩
        exact ⟨_, value, hvalue, values, hvalues, rfl⟩

end

/-! ## One kind after another -/

def readNull? : Json → Option Value
  | .null => some .null
  | _ => none

def readBool? : Json → Option Value
  | .bool value => some (.bool value)
  | _ => none

def readInt? : Json → Option Value
  | .number (.int value) => (ofInt? value).map .int
  | _ => none

def readStr? : Json → Option Value
  | .string text => some (.str text)
  | _ => none

def readList? : Json → Option Value
  | .array items => (items.mapM read?).map .list
  | _ => none

def readInTurn? (document : Json) : Option Value :=
  [readNull?, readBool?, readInt?, readStr?, readList?].findSome? fun reader => reader document

private theorem readItems?_eq_mapM (items : List Json) : readItems? items = items.mapM read? := by
  induction items with
  | nil => rfl
  | cons item items ih => rw [readItems?, List.mapM_cons, ih]

private theorem read?_eq_inTurn (document : Json) : read? document = readInTurn? document := by
  cases document with
  | number number =>
      cases number with
      | int own =>
          simp only [read?, readInTurn?, List.findSome?, readNull?, readBool?, readInt?, readStr?,
            readList?]
          cases ofInt? own <;> rfl
      | double own => rfl
  | array items =>
      simp only [read?, readItems?_eq_mapM, readInTurn?, List.findSome?, readNull?, readBool?,
        readInt?, readStr?, readList?]
      cases items.mapM read? <;> rfl
  | _ => rfl

/-- Both ways from documents to values agree.  Reading takes the first kind that fits and succeeds
just where no part of the document is foreign; what it gives is what the conversion gives; and a
value is got back from what it is written as both ways. -/
theorem readings_agree :
    (∀ document, read? document = readInTurn? document) ∧
    (∀ document, (∃ value, read? document = some value) ↔ IsNative document) ∧
    (∀ document value, read? document = some value → ofJson document = value) ∧
    ∀ value, read? (toJson value) = some value ∧ ofJson (toJson value) = value :=
  ⟨read?_eq_inTurn, exists_read?_iff, fun _ _ h => ofJson_of_read? h,
    fun value => ⟨read?_toJson value, ofJson_toJson value⟩⟩

def behindWords : Json := .array [.null, .array [.number (.int 9223372036854775808)]]

theorem readings_agree_at_greatest_word :
    read? (.array [.number (.int 9223372036854775807), .array [.null, .string "x"]]) =
        some (.list [.int .maxValue, .list [.null, .str "x"]]) ∧
      ofJson (.array [.number (.int 9223372036854775807), .array [.null, .string "x"]]) =
        .list [.int .maxValue, .list [.null, .str "x"]] ∧
      ¬ IsNative behindWords ∧ ¬ (∃ value, read? behindWords = some value) ∧
      ofJson behindWords = .list [.null, .list [.str "9223372036854775808"]] := by
  obtain ⟨-, hreadable, hconverted, -⟩ := readings_agree
  have hread : read? (.array [.number (.int 9223372036854775807), .array [.null, .string "x"]]) =
      some (.list [.int .maxValue, .list [.null, .str "x"]]) := by decide +kernel
  have hforeign : ¬ IsNative behindWords := by
    intro hnative
    have hpart : Within (.number (.int 9223372036854775808)) behindWords :=
      .item (List.mem_cons_of_mem _ List.mem_cons_self) (.item List.mem_cons_self .whole)
    exact hnative _ hpart (.outside (by decide))
  exact ⟨hread, hconverted _ _ hread, hforeign, fun h => hforeign ((hreadable _).mp h),
    by decide +kernel⟩

end Runbook.Value
