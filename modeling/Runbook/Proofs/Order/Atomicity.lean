import Runbook.Proofs.Order.Numbering
import Mathlib.Data.List.Permutation

/-!
# Calls that fail

A registration makes sure of its key before it looks for the value, yet one that is refused leaves
the order as it was: a key that is new holds no value, so only a known key refuses one.  No other
call fails after a change.  A step of a sequence that fails therefore leaves its builder as it was,
and where the error is dropped, the sequence goes on as if the step were not there.
-/

namespace Runbook.Order

variable {V : Type}

def Atomic {σ ε α : Type} (call : σ → Except ε α × σ) : Prop :=
  ∀ state error, (call state).1 = .error error → (call state).2 = state

/-! ## Registrations -/

private theorem itemsAt_ensure (order : Order V) (key : Key) (place : Nat) :
    (order.ensure key).2.itemsAt place = order.itemsAt place :=
  @ensure_keeps V (fun made => made.itemsAt place = order.itemsAt place)
    (fun _ hsame => (itemsAt_addNode _ _ _).trans hsame) (fun _ _ hsame => hsame) order rfl key

theorem nextItem_ensure (order : Order V) (key : Key) :
    (order.ensure key).2.nextItem = order.nextItem :=
  @ensure_keeps V (fun made => made.nextItem = order.nextItem) (fun _ hsame => hsame)
    (fun _ _ hsame => hsame) order rfl key

private theorem ensure_place_of_new {order : Order V} {key : Key} (hnew : key ∉ order.keys) :
    (order.ensure key).1 = order.nodeCount := by
  refine ensure_induction
    (motive := fun order key made => key ∉ order.keys → made.1 = order.nodeCount)
    ?_ ?_ ?_ ?_ order key hnew
  · intro order key place hplace hnew
    exact absurd ((mem_keys_iff_place? order key).mpr ⟨place, hplace⟩) hnew
  · intro order key _ _
    rfl
  · intro order base place made _ _ _ _
    rfl
  · intro order base place made _ _ _ _
    rfl

private theorem valuesAt_ensure (order : Order V) (key : Key) :
    (order.ensure key).2.valuesAt (order.ensure key).1 = order.values key := by
  cases hplace : order.place? key with
  | some place => rw [ensure_of_place? hplace, values, hplace]
  | none =>
      have hnew := ensure_place_of_new ((place?_eq_none_iff order key).mp hplace)
      have hnone : order.nodes[order.nodeCount]? = none := Array.getElem?_eq_none (Nat.le_refl _)
      rw [valuesAt_eq, itemsAt_ensure, hnew, itemsAt, hnone, values, hplace]
      rfl

theorem mem_keys_of_mem_values {order : Order V} {key : Key} {value : V}
    (hvalue : value ∈ order.values key) : key ∈ order.keys := by
  refine (mem_keys_iff_place? order key).mpr ?_
  rw [values] at hvalue
  cases hplace : order.place? key with
  | none => simp [hplace] at hvalue
  | some place => exact ⟨place, rfl⟩

section

variable [BEq V]

theorem register_outcome (order : Order V) (key : Key) (value : V) :
    order.register key value =
      if (order.values key).contains value then (.error (.duplicateValue key), order)
      else (.ok ⟨order.nextItem, key⟩,
        (order.ensure key).2.addItem (order.ensure key).1 value) := by
  rw [register_eq, valuesAt_ensure, nextItem_ensure]
  split
  · next hholds =>
    obtain ⟨old, hold, -⟩ := List.contains_iff_exists_mem_beq.mp hholds
    obtain ⟨place, hplace⟩ := (mem_keys_iff_place? order key).mp (mem_keys_of_mem_values hold)
    rw [ensure_of_place? hplace]
  · rfl

theorem register_atomic (key : Key) (value : V) :
    Atomic fun order : Order V => order.register key value := by
  intro order error
  simp only [register_outcome]
  split
  · exact fun _ => rfl
  · exact fun herror => by cases herror

private theorem put_atomic (text : String) (value : V) :
    Atomic fun order : Order V => order.put text value := by
  intro order error
  simp only [put]
  cases Key.parse text with
  | ok key => exact register_atomic key value order error
  | error own => exact fun _ => rfl

end

private theorem connect_atomic (source target : String) :
    Atomic fun order : Order V => order.connect source target := by
  intro order error
  simp only [connect]
  cases Key.parse source with
  | error own => exact fun _ => rfl
  | ok sourceKey =>
      cases Key.parse target with
      | error own => exact fun _ => rfl
      | ok targetKey => exact fun herror => by cases herror

theorem unregister_atomic (token : Token) :
    Atomic fun order : Order V => order.unregister token := by
  intro order error
  cases token with
  | item token =>
      simp only [unregister]
      split
      · exact fun herror => by cases herror
      · exact fun _ => rfl
  | link token =>
      simp only [unregister]
      split
      · exact fun herror => by cases herror
      · exact fun _ => rfl

/-! ## Edits -/

/-- Whether an edit is one call, with keys that are still to be read. -/
def Edit.Single : Edit V → Prop
  | .register .. | .registerUnique _ | .link .. | .expect _ | .unregister _ => True
  | .item .. | .sequence .. => False

theorem Edit.run_failed [BEq V] {edit : Edit V} (hsingle : edit.Single) {order : Order V}
    {error : OrderError} (herror : (edit.run order).outcome = .error error) :
    edit.run order = .failed order error := by
  cases edit with
  | register source value =>
      rw [run] at herror ⊢
      cases hkey : source.resolve with
      | error own =>
          rw [hkey] at herror
          cases herror
          rfl
      | ok key =>
          have hkept := register_atomic key value order
          cases hrun : order.register key value with
          | mk outcome after =>
              simp only [hkey, hrun] at herror hkept ⊢
              cases outcome with
              | ok token => cases herror
              | error own =>
                  cases herror
                  rw [hkept _ rfl]
  | registerUnique value => cases herror
  | link source target =>
      rw [run] at herror ⊢
      cases hsource : source.resolve with
      | error own =>
          rw [hsource] at herror
          cases herror
          rfl
      | ok sourceKey =>
          cases htarget : target.resolve with
          | error own =>
              rw [hsource, htarget] at herror
              cases herror
              rfl
          | ok targetKey =>
              rw [hsource, htarget] at herror
              cases herror
  | expect source =>
      rw [run] at herror ⊢
      cases hkey : source.resolve with
      | error own =>
          rw [hkey] at herror
          cases herror
          rfl
      | ok key =>
          rw [hkey] at herror
          cases herror
  | unregister token =>
      have hkept := unregister_atomic token order
      rw [run] at herror ⊢
      cases hrun : order.unregister token with
      | mk outcome after =>
          simp only [hrun] at herror hkept ⊢
          cases outcome with
          | ok _ => cases herror
          | error own =>
              cases herror
              rw [hkept _ rfl]
  | item source links value => exact absurd hsingle id
  | sequence sources steps => exact absurd hsingle id

/-! ## Steps -/

def Step.Keyed : Step V → Prop
  | .addKeyed .. | .expect _ => True
  | .add _ | .seq _ | .par _ | .independently _ | .attempt _ | .note => False

instance Step.decidableKeyed : (step : Step V) → Decidable step.Keyed
  | .addKeyed .. | .expect _ => .isTrue trivial
  | .add _ | .seq _ | .par _ | .independently _ | .attempt _ | .note => .isFalse id

namespace Builder

variable [BEq V]

theorem addUnder_atomic (key : Key) (value : V) :
    Atomic fun builder : Builder V => builder.addUnder key value := by
  intro builder error
  have hkept := register_atomic key value builder.order
  simp only [addUnder]
  cases hrun : builder.order.register key value with
  | mk outcome after =>
      simp only [hrun] at hkept
      cases outcome with
      | ok token => exact fun herror => by cases herror
      | error own =>
          intro _
          rw [hkept own rfl]

theorem runStep_atomic {step : Step V} (hkeyed : step.Keyed) :
    Atomic fun builder : Builder V => builder.runStep step := by
  intro builder error
  cases step with
  | addKeyed source value =>
      simp only [runStep]
      cases source.resolve with
      | ok key => exact addUnder_atomic key value builder error
      | error own => exact fun _ => rfl
  | expect source =>
      simp only [runStep]
      cases source.resolve with
      | ok key => exact fun herror => by cases herror
      | error own => exact fun _ => rfl
  | add | seq | par | independently | attempt | note => exact absurd hkeyed id

/-- A value under a generated key is refused only if the key was known already, and then nothing but
the generated key is used up. -/
private theorem runStep_add_failed {builder : Builder V} {value : V} {error : OrderError}
    (herror : (builder.runStep (.add value)).1 = .error error) :
    builder.order.freshKey.1 ∈ builder.order.keys ∧
      (builder.runStep (.add value)).2 = { builder with order := builder.order.freshKey.2 } := by
  rw [runStep] at herror ⊢
  refine ⟨?_, addUnder_atomic _ value _ error herror⟩
  have houtcome := register_outcome builder.order.freshKey.2 builder.order.freshKey.1 value
  by_contra hnew
  have hnone : builder.order.freshKey.2.values builder.order.freshKey.1 = [] :=
    List.eq_nil_iff_forall_not_mem.mpr fun old hold => hnew (mem_keys_of_mem_values hold)
  rw [hnone, List.contains_nil, if_neg Bool.false_ne_true] at houtcome
  simp only [addUnder, houtcome] at herror
  cases herror

/-! ## Steps whose errors are dropped -/

def drops (builder : Builder V) : Step V → Bool
  | .attempt step => decide step.Keyed && !(builder.runStep step).1.isOk
  | _ => false

mutual

/-- A step without the steps inside of it that fail and whose errors are dropped. -/
def pruneStep (builder : Builder V) : Step V → Step V
  | .seq steps => .seq ((builder.nested .sequential builder.predecessors).prune steps)
  | .par steps => .par ((builder.nested .parallel builder.predecessors).prune steps)
  | .independently steps => .independently ((builder.nested .sequential []).prune steps)
  | .attempt step => .attempt (builder.pruneStep step)
  | .add value => .add value
  | .addKeyed key value => .addKeyed key value
  | .expect key => .expect key
  | .note => .note

def prune (builder : Builder V) : List (Step V) → List (Step V)
  | [] => []
  | step :: steps =>
    if builder.drops step then (builder.runStep step).2.prune steps
    else builder.pruneStep step :: (builder.runStep step).2.prune steps

end

theorem runStep_of_drops {builder : Builder V} {step : Step V} (h : builder.drops step) :
    builder.runStep step = (.ok (), builder) := by
  cases step with
  | attempt step =>
      simp only [drops, Bool.and_eq_true, decide_eq_true_eq, Bool.not_eq_true'] at h
      obtain ⟨hkeyed, hfails⟩ := h
      rw [runStep]
      cases hrun : (builder.runStep step).1 with
      | ok _ => simp [hrun, Except.isOk, Except.toBool] at hfails
      | error error => rw [runStep_atomic hkeyed builder error hrun]
  | add | addKeyed | expect | seq | par | independently | note => cases h

mutual

theorem runStep_pruneStep (builder : Builder V) (step : Step V) :
    builder.runStep (builder.pruneStep step) = builder.runStep step := by
  cases step with
  | seq steps => rw [pruneStep, runStep, runStep, runSteps_prune]
  | par steps => rw [pruneStep, runStep, runStep, runSteps_prune]
  | independently steps => rw [pruneStep, runStep, runStep, runSteps_prune]
  | attempt step => rw [pruneStep, runStep, runStep, runStep_pruneStep]
  | add value => rw [pruneStep]
  | addKeyed key value => rw [pruneStep]
  | expect key => rw [pruneStep]
  | note => rw [pruneStep]

theorem runSteps_prune (builder : Builder V) (steps : List (Step V)) :
    builder.runSteps (builder.prune steps) = builder.runSteps steps := by
  cases steps with
  | nil => rfl
  | cons step steps =>
      have hrest := runSteps_prune (builder.runStep step).2 steps
      rw [prune]
      by_cases hdrops : builder.drops step = true
      · rw [if_pos hdrops, runSteps, runStep_of_drops hdrops]
        rwa [runStep_of_drops hdrops] at hrest
      · rw [if_neg hdrops, runSteps, runSteps, runStep_pruneStep]
        cases hrun : builder.runStep step with
        | mk outcome next =>
            rw [hrun] at hrest
            cases outcome with
            | ok _ => exact hrest
            | error error => rfl

end

end Builder

/-! ## All or nothing -/

/-- Calls that fail change nothing.  A registration is refused exactly for a value that its key
holds, and like a key that cannot be read or a token that was taken back it leaves the order as it
was; so does a step of a sequence leave its builder, where a generated key is refused only if it was
known.  Where the errors of steps are dropped, a sequence runs as if these steps were not there,
however deep they are. -/
theorem calls_all_or_nothing [BEq V] :
    (∀ (order : Order V) (key : Key) (value : V), order.register key value =
      if (order.values key).contains value then (.error (.duplicateValue key), order)
      else (.ok ⟨order.nextItem, key⟩,
        (order.ensure key).2.addItem (order.ensure key).1 value)) ∧
    (∀ (text : String) (value : V), Atomic fun order : Order V => order.put text value) ∧
    (∀ source target : String, Atomic fun order : Order V => order.connect source target) ∧
    (∀ token : Token, Atomic fun order : Order V => order.unregister token) ∧
    (∀ edit : Edit V, edit.Single → ∀ order error, (edit.run order).outcome = .error error →
      edit.run order = .failed order error) ∧
    (∀ step : Step V, step.Keyed → Atomic fun builder : Builder V => builder.runStep step) ∧
    (∀ (builder : Builder V) (value : V) (error : OrderError),
      (builder.runStep (.add value)).1 = .error error →
      builder.order.freshKey.1 ∈ builder.order.keys ∧
        (builder.runStep (.add value)).2 = { builder with order := builder.order.freshKey.2 }) ∧
    ∀ (builder : Builder V) (steps : List (Step V)),
      builder.runSteps (builder.prune steps) = builder.runSteps steps :=
  ⟨register_outcome, put_atomic, connect_atomic, unregister_atomic,
    fun _ hsingle _ _ herror => Edit.run_failed hsingle herror,
    fun _ hkeyed => Builder.runStep_atomic hkeyed,
    fun _ _ _ herror => Builder.runStep_add_failed herror, Builder.runSteps_prune⟩

theorem all_or_nothing_among_steps :
    ∃ order : Order Nat, Reachable order ∧
      order.register (.pre (.constant "a")) 1 =
        (.error (.duplicateValue (.pre (.constant "a"))), order) ∧
      (order.unregister (.link ⟨1, .constant "a", .constant "b"⟩)).1 =
        .error (.alreadyRemoved (.link ⟨1, .constant "a", .constant "b"⟩)) ∧
      (order.unregister (.link ⟨1, .constant "a", .constant "b"⟩)).2 = order ∧
      (order.connect "a" " ").1 = .error (.invalidKey " ") ∧ (order.connect "a" " ").2 = order ∧
      (Builder.startingAfter order []).runSteps
          [.add 2, .attempt (.addKeyed (.pre (.key (.constant "a"))) 1),
            .par [.attempt (.expect (.text " ")), .addKeyed (.key (.constant "c")) 3], .add 4] =
        (Builder.startingAfter order []).runSteps
          [.add 2, .par [.addKeyed (.key (.constant "c")) 3], .add 4] := by
  obtain ⟨hregister, -, hconnect, hunregister, -, -, -, hprune⟩ := calls_all_or_nothing (V := Nat)
  let edits : List (Edit Nat) :=
    [.register (.pre (.key (.constant "a"))) 1, .link (.key (.constant "a")) (.key (.constant "b")),
      .unregister (.link ⟨1, .constant "a", .constant "b"⟩)]
  let gone : Token := .link ⟨1, .constant "a", .constant "b"⟩
  have hheld : ((Order.empty.edited edits).values (.pre (.constant "a"))).contains 1 = true := by
    cbv
  have hremoved : ((Order.empty.edited edits).unregister gone).1 =
      .error (.alreadyRemoved gone) := by cbv
  have hblank : ((Order.empty.edited edits).connect "a" " ").1 = .error (.invalidKey " ") := by
    cbv
  have hpruned : (Builder.startingAfter (Order.empty.edited edits) []).prune
      [.add 2, .attempt (.addKeyed (.pre (.key (.constant "a"))) 1),
        .par [.attempt (.expect (.text " ")), .addKeyed (.key (.constant "c")) 3], .add 4] =
      [.add 2, .par [.addKeyed (.key (.constant "c")) 3], .add 4] := by cbv
  refine ⟨_, Reachable.empty.edited _, ?_, hremoved, hunregister _ _ _ hremoved, hblank,
    hconnect _ _ _ _ hblank, ?_⟩
  · rw [hregister, if_pos hheld]
  · rw [← hprune, hpruned]

end Runbook.Order
