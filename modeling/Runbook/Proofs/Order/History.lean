import Runbook.Order.Edit
import Runbook.Order.Linear
import Mathlib.Logic.Relation

/-!
# Histories of orders

What an order can become.  However deep its blocks are nested, an edit comes down to a chain of a
few kinds of changes, so whatever every change keeps is kept by every edit and holds of every order
that edits and reads lead to.
-/

namespace Runbook.Order

variable {V : Type}

/-! ## Values that are written down -/

mutual

def Step.values : Step V → List V
  | .add value => [value]
  | .addKeyed _ value => [value]
  | .expect _ => []
  | .seq steps => stepsValues steps
  | .par steps => stepsValues steps
  | .independently steps => stepsValues steps
  | .attempt step => step.values
  | .note => []

def stepsValues : List (Step V) → List V
  | [] => []
  | step :: steps => step.values ++ stepsValues steps

end

def Edit.values : Edit V → List V
  | .register _ value => [value]
  | .registerUnique value => [value]
  | .item _ _ value => [value]
  | .sequence _ steps => stepsValues steps
  | .link .. | .expect _ | .unregister _ => []

/-! ## Changes -/

inductive Change (allowed : V → Prop) : Order V → Order V → Prop where
  | expect (order : Order V) (key : Key) : Change allowed order (order.expect key)
  | attach (order : Order V) (key : Key) (value : V) :
      allowed value →
      Change allowed order ((order.ensure key).2.addItem (order.ensure key).1 value)
  | link (order : Order V) (source target : Key) :
      Change allowed order (order.link source target).2
  | fresh (order : Order V) : Change allowed order order.freshKey.2
  | unregister (order : Order V) (token : Token) :
      Change allowed order (order.unregister token).2
  | read (order : Order V) : Change allowed order order.arrange.2

def Changes (allowed : V → Prop) : Order V → Order V → Prop :=
  Relation.ReflTransGen (Change allowed)

namespace Changes

variable {allowed : V → Prop} {first second third : Order V}

theorem refl (order : Order V) : Changes allowed order order := Relation.ReflTransGen.refl

theorem trans (earlier : Changes allowed first second) (later : Changes allowed second third) :
    Changes allowed first third :=
  Relation.ReflTransGen.trans earlier later

theorem of_change (change : Change allowed first second) : Changes allowed first second :=
  Relation.ReflTransGen.single change

theorem keeps {kept : Order V → Prop}
    (hstep : ∀ {before after}, Change allowed before after → kept before → kept after)
    (h : Changes allowed first second) (hfirst : kept first) : kept second := by
  induction h with
  | refl => exact hfirst
  | tail _ change ih => exact hstep change ih

end Changes

/-! ## Calls as changes -/

section Calls

variable [BEq V] {allowed : V → Prop}

theorem register_eq (order : Order V) (key : Key) (value : V) :
    order.register key value =
      if ((order.ensure key).2.valuesAt (order.ensure key).1).contains value then
        (.error (.duplicateValue key), (order.ensure key).2)
      else
        (.ok ⟨(order.ensure key).2.nextItem, key⟩,
          (order.ensure key).2.addItem (order.ensure key).1 value) := rfl

theorem register_changes (order : Order V) (key : Key) {value : V} (hvalue : allowed value) :
    Changes allowed order (order.register key value).2 := by
  rw [register_eq]
  split
  · exact .of_change (.expect order key)
  · exact .of_change (.attach order key value hvalue)

omit [BEq V] in
private theorem registerUnique_changes (order : Order V) {value : V} (hvalue : allowed value) :
    Changes allowed order (order.registerUnique value).2 :=
  (Changes.of_change (.fresh order)).trans
    (.of_change (.attach order.freshKey.2 order.freshKey.1 value hvalue))

omit [BEq V] in
private theorem linkAll_changes (order : Order V) (key : Key) (links : List (Side × KeySource)) :
    Changes allowed order (order.linkAll key links).2 := by
  induction links generalizing order with
  | nil => exact .refl order
  | cons entry links ih =>
      obtain ⟨side, other⟩ := entry
      rw [linkAll]
      split
      · exact .refl order
      · cases side with
        | before => exact (Changes.of_change (.link order key _)).trans (ih _)
        | after => exact (Changes.of_change (.link order _ key)).trans (ih _)

private theorem registerLinked_changes (order : Order V) (key : Key)
    (links : List (Side × KeySource))
    {value : V} (hvalue : allowed value) :
    Changes allowed order (order.registerLinked key links value).2 := by
  have hlinks : Changes allowed order _ := linkAll_changes order key links
  rw [registerLinked]
  split
  · next hfailed => rw [hfailed] at hlinks; exact hlinks
  · next hlinked =>
    rw [hlinked] at hlinks
    exact hlinks.trans (register_changes _ key hvalue)

end Calls

/-! ## Sequences as changes -/

namespace Builder

variable {allowed : V → Prop}

@[simp] theorem advance_order (builder : Builder V) (keys : List Key) :
    (builder.advance keys).order = builder.order := by
  rw [advance]; split <;> rfl

@[simp] theorem nested_order (builder : Builder V) (mode : Mode) (start : List Key) :
    (builder.nested mode start).order = builder.order := rfl

@[simp] theorem absorb_order (builder inner : Builder V) :
    (builder.absorb inner).order = inner.order := rfl

private theorem waitFor_changes (builder : Builder V) (target source : Key) :
    Changes allowed builder.order (builder.waitFor target source).order :=
  .of_change (.link builder.order source target)

private theorem foldl_waitFor_changes (builder : Builder V) (target : Key) (sources : List Key) :
    Changes allowed builder.order (sources.foldl (·.waitFor target ·) builder).order := by
  induction sources generalizing builder with
  | nil => exact .refl _
  | cons source sources ih => exact (builder.waitFor_changes target source).trans (ih _)

theorem stepTo_changes (builder : Builder V) (key : Key) :
    Changes allowed builder.order (builder.stepTo key).order := by
  rw [stepTo, advance_order]
  exact builder.foldl_waitFor_changes key builder.predecessors

variable [BEq V]

private theorem addUnder_changes (builder : Builder V) (key : Key) {value : V}
    (hvalue : allowed value) :
    Changes allowed builder.order (builder.addUnder key value).2.order := by
  have hregister := register_changes builder.order key hvalue
  rw [addUnder]
  split
  · next token order hdone =>
    rw [hdone] at hregister
    exact hregister.trans
      (stepTo_changes { builder with order, tokens := builder.tokens ++ [Token.item token] } key)
  · next hfailed => rw [hfailed] at hregister; exact hregister

/-- A relation between what a builder is before and after, which passes through every part of a run:
so it passes through the run. -/
structure Tracks (allowed : V → Prop) (relation : Builder V → Builder V → Prop) : Prop where
  refl : ∀ builder, relation builder builder
  trans : ∀ {first second third},
    relation first second → relation second third → relation first third
  fresh : ∀ builder, relation builder { builder with order := builder.order.freshKey.2 }
  addUnder : ∀ builder key value, allowed value → relation builder (builder.addUnder key value).2
  expect : ∀ builder key,
    relation builder ({ builder with order := builder.order.expect key }.stepTo key)
  nested : ∀ builder mode start {inner},
    relation (builder.nested mode start) inner → relation builder (builder.absorb inner)
  advance : ∀ builder keys, relation builder (builder.advance keys)
  note : ∀ builder, relation builder { builder with notes := builder.notes ++ [builder.ends] }

section

variable {relation : Builder V → Builder V → Prop}

mutual

theorem Tracks.runStep (h : Tracks allowed relation) (builder : Builder V) (step : Step V)
    (hvalues : ∀ value ∈ step.values, allowed value) :
    relation builder (builder.runStep step).2 := by
  cases step with
  | add value =>
      rw [Builder.runStep]
      exact h.trans (h.fresh builder)
        (h.addUnder _ _ value (hvalues value (by simp [Step.values])))
  | addKeyed key value =>
      rw [Builder.runStep]
      split
      · exact h.addUnder _ _ value (hvalues value (by simp [Step.values]))
      · exact h.refl builder
  | expect key =>
      rw [Builder.runStep]
      split
      · exact h.expect builder _
      · exact h.refl builder
  | seq steps =>
      have hinner := h.nested builder _ _ (h.runSteps
        (builder.nested .sequential builder.predecessors) steps
        (by simpa [Step.values] using hvalues))
      rw [Builder.runStep]
      cases hrun : (builder.nested .sequential builder.predecessors).runSteps steps with
      | mk outcome inner =>
          rw [hrun] at hinner
          cases outcome with
          | ok _ => exact h.trans hinner (h.advance _ _)
          | error _ => exact hinner
  | par steps =>
      have hinner := h.nested builder _ _ (h.runSteps
        (builder.nested .parallel builder.predecessors) steps
        (by simpa [Step.values] using hvalues))
      rw [Builder.runStep]
      cases hrun : (builder.nested .parallel builder.predecessors).runSteps steps with
      | mk outcome inner =>
          rw [hrun] at hinner
          cases outcome with
          | ok _ => exact h.trans hinner (h.advance _ _)
          | error _ => exact hinner
  | independently steps =>
      rw [Builder.runStep]
      exact h.nested builder _ _ (h.runSteps (builder.nested .sequential []) steps
        (by simpa [Step.values] using hvalues))
  | attempt step =>
      rw [Builder.runStep]
      exact h.runStep builder step (by simpa [Step.values] using hvalues)
  | note => exact h.note builder

theorem Tracks.runSteps (h : Tracks allowed relation) (builder : Builder V)
    (steps : List (Step V)) (hvalues : ∀ value ∈ stepsValues steps, allowed value) :
    relation builder (builder.runSteps steps).2 := by
  cases steps with
  | nil => exact h.refl builder
  | cons step steps =>
      simp only [stepsValues, List.mem_append] at hvalues
      have hstep := h.runStep builder step fun value hvalue => hvalues value (.inl hvalue)
      rw [Builder.runSteps]
      split
      · next hdone =>
        rw [hdone] at hstep
        exact h.trans hstep (h.runSteps _ steps fun value hvalue => hvalues value (.inr hvalue))
      · next hfailed => rw [hfailed] at hstep; exact hstep

end

end

private theorem tracks_changes (allowed : V → Prop) :
    Tracks allowed fun before after => Changes allowed before.order after.order where
  refl := fun builder => .refl builder.order
  trans := Changes.trans
  fresh := fun builder => .of_change (.fresh builder.order)
  addUnder := fun builder key _ hvalue => builder.addUnder_changes key hvalue
  expect := fun builder key =>
    (Changes.of_change (.expect builder.order key)).trans
      (stepTo_changes { builder with order := builder.order.expect key } key)
  nested := fun _ _ _ _ hinner => hinner
  advance := by
    intro builder keys
    rw [advance_order]
    exact .refl builder.order
  note := fun builder => .refl builder.order

theorem runSteps_changes (builder : Builder V) (steps : List (Step V))
    (hvalues : ∀ value ∈ stepsValues steps, allowed value) :
    Changes allowed builder.order (builder.runSteps steps).2.order :=
  (tracks_changes allowed).runSteps builder steps hvalues

end Builder

/-! ## Edits as changes -/

theorem Edit.run_changes [BEq V] {allowed : V → Prop} (order : Order V) (edit : Edit V)
    (hvalues : ∀ value ∈ edit.values, allowed value) :
    Changes allowed order (edit.run order).order := by
  cases edit with
  | register key value =>
      have hvalue : allowed value := hvalues value (by simp [Edit.values])
      rw [Edit.run]
      split
      · exact .refl _
      · next key _ =>
        have hregister := register_changes order key hvalue
        split <;> next hrun => rw [hrun] at hregister; exact hregister
  | registerUnique value =>
      exact registerUnique_changes order (hvalues value (by simp [Edit.values]))
  | link source target =>
      rw [Edit.run]
      split
      · exact .of_change (.link order _ _)
      · exact .refl _
      · exact .refl _
  | expect key =>
      rw [Edit.run]
      split
      · exact .refl _
      · exact .of_change (.expect order _)
  | item key links value =>
      have hvalue : allowed value := hvalues value (by simp [Edit.values])
      rw [Edit.run]
      split
      · exact .refl _
      · next key _ =>
        have hlinked := registerLinked_changes order key links hvalue
        split <;> next hrun => rw [hrun] at hlinked; exact hlinked
  | sequence sources steps =>
      rw [Edit.run]
      split
      · exact .refl _
      · next keys _ =>
        exact Builder.runSteps_changes (Builder.startingAfter order keys) steps
          (by simpa [Edit.values] using hvalues)
  | unregister token =>
      have hchange : Change allowed order _ := .unregister order token
      rw [Edit.run]
      split <;> next hrun => rw [hrun] at hchange; exact .of_change hchange

def edited [BEq V] (order : Order V) (edits : List (Edit V)) : Order V :=
  edits.foldl (fun order edit => (edit.run order).order) order

theorem edited_changes [BEq V] {allowed : V → Prop} (order : Order V) (edits : List (Edit V))
    (hvalues : ∀ edit ∈ edits, ∀ value ∈ edit.values, allowed value) :
    Changes allowed order (order.edited edits) := by
  induction edits generalizing order with
  | nil => exact .refl order
  | cons edit edits ih =>
      obtain ⟨hfirst, hrest⟩ := List.forall_mem_cons.mp hvalues
      exact (edit.run_changes order hfirst).trans (ih _ hrest)

/-! ## Reachable orders -/

/-- The orders that edits and reads make of an empty one. -/
inductive Reachable [BEq V] : Order V → Prop where
  | empty : Reachable .empty
  | edit {order : Order V} (edit : Edit V) : Reachable order → Reachable (edit.run order).order
  | read {order : Order V} : Reachable order → Reachable order.arrange.2

theorem Reachable.changes [BEq V] {order : Order V} (h : Reachable order) :
    Changes (fun _ => True) .empty order := by
  induction h with
  | empty => exact .refl _
  | edit edit _ ih => exact ih.trans (edit.run_changes _ fun _ _ => trivial)
  | read _ ih => exact ih.trans (.of_change (.read _))

theorem Reachable.edited [BEq V] {order : Order V} (h : Reachable order) (edits : List (Edit V)) :
    Reachable (order.edited edits) := by
  induction edits generalizing order with
  | nil => exact h
  | cons edit edits ih => exact ih (h.edit edit)

end Runbook.Order
