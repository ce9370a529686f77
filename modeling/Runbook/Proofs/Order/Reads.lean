import Runbook.Proofs.Order.Folding

/-!
# Reads between edits

An order remembers an arrangement from one read to the next, until an edit changes something.  Reads
leave no other trace: edits do the same whatever is remembered, and what is remembered is what would
be found now.  So every read answers as if nobody had read before.
-/

namespace Runbook.Order

variable {V : Type}

/-! ## Orders without memory -/

def forget (order : Order V) : Order V := { order with arranged := none }

private theorem arrange_forget (order : Order V) : order.arrange.2.forget = order.forget := by
  rw [arrange]
  split
  · rfl
  · split <;> rfl

private theorem linearize_forget (order : Order V) : order.forget.linearize = order.linearize :=
  linearize_congr order.forget order rfl rfl

/-! ## Calls without memory -/

theorem ensure_forget (order : Order V) (key : Key) :
    order.forget.ensure key = (order.ensure key).map id forget := by
  have hsame : order.forget.place? key = order.place? key := rfl
  cases hplace : order.place? key with
  | some place => rw [ensure_of_place? hplace, ensure_of_place? (hsame.trans hplace)]; rfl
  | none =>
      -- making the node forgets anyway
      cases key with
      | unique id => rw [ensure_unique hplace, ensure_unique (hsame.trans hplace)]; rfl
      | constant name => rw [ensure_constant hplace, ensure_constant (hsame.trans hplace)]; rfl
      | pre base => rw [ensure_pre hplace, ensure_pre (hsame.trans hplace)]; rfl
      | post base => rw [ensure_post hplace, ensure_post (hsame.trans hplace)]; rfl

theorem expect_forget (order : Order V) (key : Key) :
    order.forget.expect key = (order.expect key).forget :=
  congrArg Prod.snd (ensure_forget order key)

theorem link_forget (order : Order V) (source target : Key) :
    order.forget.link source target = (order.link source target).map id forget := by
  simp only [link, ensure_forget, Prod.map_fst, Prod.map_snd]
  rfl

theorem register_forget [BEq V] (order : Order V) (key : Key) (value : V) :
    order.forget.register key value = (order.register key value).map id forget := by
  rw [register_eq, register_eq, ensure_forget]
  simp only [Prod.map_fst, Prod.map_snd, id_eq]
  change (if ((order.ensure key).2.valuesAt (order.ensure key).1).contains value then _ else _) = _
  split <;> rfl

private theorem registerUnique_forget (order : Order V) (value : V) :
    order.forget.registerUnique value = (order.registerUnique value).map id forget := by
  have hensure := ensure_forget order.freshKey.2 order.freshKey.1
  simp only [registerUnique]
  rw [show order.forget.freshKey = (order.freshKey.1, order.freshKey.2.forget) from rfl]
  simp only [hensure]
  rfl

private theorem unregister_forget (order : Order V) (token : Token) :
    order.forget.unregister token = (order.unregister token).map id forget := by
  cases token with
  | item token =>
      rw [unregister, unregister]
      change (if order.nodes.any (·.holds token.id) then _ else _) = _
      split <;> rfl
  | link token =>
      rw [unregister, unregister]
      change (if order.links.any (·.id = token.id) then _ else _) = _
      split <;> rfl

private theorem linkAll_forget (order : Order V) (key : Key) (links : List (Side × KeySource)) :
    order.forget.linkAll key links = (order.linkAll key links).map id forget := by
  induction links generalizing order with
  | nil => rfl
  | cons entry links ih =>
      obtain ⟨side, other⟩ := entry
      rw [linkAll, linkAll]
      cases other.resolve with
      | error error => rfl
      | ok other =>
          cases side with
          | before =>
              simp only [link_forget, Prod.map_fst, Prod.map_snd, ih]
              rfl
          | after =>
              simp only [link_forget, Prod.map_fst, Prod.map_snd, ih]
              rfl

private theorem registerLinked_forget [BEq V] (order : Order V) (key : Key)
    (links : List (Side × KeySource)) (value : V) :
    order.forget.registerLinked key links value =
      (order.registerLinked key links value).map id forget := by
  rw [registerLinked, registerLinked, linkAll_forget]
  cases order.linkAll key links with
  | mk outcome linked =>
      cases outcome with
      | error error => rfl
      | ok tokens =>
          simp only [Prod.map_apply, id_eq, register_forget]
          rfl

/-! ## Sequences without memory -/

namespace Builder

def forget (builder : Builder V) : Builder V := { builder with order := builder.order.forget }

theorem advance_forget (builder : Builder V) (keys : List Key) :
    builder.forget.advance keys = (builder.advance keys).forget := by
  obtain ⟨order, mode, start, frontier, tokens, notes⟩ := builder
  cases mode <;> rfl

private theorem waitFor_forget (builder : Builder V) (target source : Key) :
    builder.forget.waitFor target source = (builder.waitFor target source).forget := by
  have hlink := link_forget builder.order source target
  simp only [waitFor, forget, hlink]
  rfl

private theorem foldl_waitFor_forget (builder : Builder V) (target : Key) (sources : List Key) :
    sources.foldl (·.waitFor target ·) builder.forget =
      (sources.foldl (·.waitFor target ·) builder).forget := by
  induction sources generalizing builder with
  | nil => rfl
  | cons source sources ih => rw [List.foldl_cons, List.foldl_cons, waitFor_forget, ih]

theorem stepTo_forget (builder : Builder V) (key : Key) :
    builder.forget.stepTo key = (builder.stepTo key).forget := by
  rw [stepTo, stepTo, ← advance_forget, ← foldl_waitFor_forget]
  rfl

private theorem expect_stepTo_forget (builder : Builder V) (key : Key) :
    { builder.forget with order := builder.forget.order.expect key }.stepTo key =
      ({ builder with order := builder.order.expect key }.stepTo key).forget := by
  have hexpect : builder.forget.order.expect key = (builder.order.expect key).forget :=
    expect_forget builder.order key
  rw [← stepTo_forget, hexpect]
  rfl

variable [BEq V]

theorem addUnder_forget (builder : Builder V) (key : Key) (value : V) :
    builder.forget.addUnder key value = (builder.addUnder key value).map id forget := by
  rw [addUnder, addUnder, show builder.forget.order = builder.order.forget from rfl,
    register_forget]
  cases builder.order.register key value with
  | mk outcome order =>
      cases outcome with
      | error error => rfl
      | ok token =>
          simp only [Prod.map_apply, id_eq, ← stepTo_forget]
          rfl

mutual

theorem runStep_forget (builder : Builder V) (step : Step V) :
    builder.forget.runStep step = (builder.runStep step).map id forget := by
  cases step with
  | add value =>
      rw [runStep, runStep]
      exact addUnder_forget { builder with order := builder.order.freshKey.2 } _ value
  | addKeyed key value =>
      rw [runStep, runStep]
      cases key.resolve with
      | error error => rfl
      | ok key => exact addUnder_forget builder key value
  | expect key =>
      rw [runStep, runStep]
      cases key.resolve with
      | error error => rfl
      | ok key => exact congrArg (Prod.mk (Except.ok ())) (expect_stepTo_forget builder key)
  | seq steps =>
      have hinner : (builder.forget.nested .sequential builder.forget.predecessors).runSteps steps =
          ((builder.nested .sequential builder.predecessors).runSteps steps).map id forget :=
        runSteps_forget (builder.nested .sequential builder.predecessors) steps
      rw [runStep, runStep, hinner]
      cases (builder.nested .sequential builder.predecessors).runSteps steps with
      | mk outcome inner =>
          cases outcome with
          | error error => rfl
          | ok _ => exact congrArg _ (advance_forget (builder.absorb inner) inner.ends)
  | par steps =>
      have hinner : (builder.forget.nested .parallel builder.forget.predecessors).runSteps steps =
          ((builder.nested .parallel builder.predecessors).runSteps steps).map id forget :=
        runSteps_forget (builder.nested .parallel builder.predecessors) steps
      rw [runStep, runStep, hinner]
      cases (builder.nested .parallel builder.predecessors).runSteps steps with
      | mk outcome inner =>
          cases outcome with
          | error error => rfl
          | ok _ => exact congrArg _ (advance_forget (builder.absorb inner) inner.ends)
  | independently steps =>
      have hinner : (builder.forget.nested .sequential []).runSteps steps =
          ((builder.nested .sequential []).runSteps steps).map id forget :=
        runSteps_forget (builder.nested .sequential []) steps
      rw [runStep, runStep, hinner]
      rfl
  | attempt step =>
      rw [runStep, runStep, runStep_forget builder step]
      rfl
  | note => rfl

theorem runSteps_forget (builder : Builder V) (steps : List (Step V)) :
    builder.forget.runSteps steps = (builder.runSteps steps).map id forget := by
  cases steps with
  | nil => rfl
  | cons step steps =>
      rw [runSteps, runSteps, runStep_forget builder step]
      cases builder.runStep step with
      | mk outcome next =>
          cases outcome with
          | error error => rfl
          | ok _ => exact runSteps_forget next steps

end

end Builder

/-! ## Edits without memory -/

def Edited.forget (edited : Edited V) : Edited V := { edited with order := edited.order.forget }

private theorem runSequence_forget [BEq V] (order : Order V) (sources : List Key)
    (steps : List (Step V)) :
    order.forget.runSequence sources steps = (order.runSequence sources steps).forget := by
  have hrun : (Builder.startingAfter order.forget sources).runSteps steps =
      ((Builder.startingAfter order sources).runSteps steps).map id Builder.forget :=
    Builder.runSteps_forget (Builder.startingAfter order sources) steps
  rw [runSequence, runSequence, hrun]
  rfl

theorem Edit.run_forget [BEq V] (order : Order V) (edit : Edit V) :
    edit.run order.forget = (edit.run order).forget := by
  cases edit with
  | register key value =>
      rw [Edit.run, Edit.run]
      cases key.resolve with
      | error error => rfl
      | ok key =>
          simp only [register_forget]
          cases order.register key value with
          | mk outcome next => cases outcome <;> rfl
  | registerUnique value =>
      rw [Edit.run, Edit.run, registerUnique_forget]
      rfl
  | link source target =>
      rw [Edit.run, Edit.run]
      cases source.resolve with
      | error error => rfl
      | ok source =>
          cases target.resolve with
          | error error => rfl
          | ok target =>
              simp only [link_forget]
              rfl
  | expect key =>
      rw [Edit.run, Edit.run]
      cases key.resolve with
      | error error => rfl
      | ok key =>
          simp only [expect_forget]
          rfl
  | item key links value =>
      rw [Edit.run, Edit.run]
      cases key.resolve with
      | error error => rfl
      | ok key =>
          simp only [registerLinked_forget]
          cases order.registerLinked key links value with
          | mk outcome next => cases outcome <;> rfl
  | sequence sources steps =>
      rw [Edit.run, Edit.run]
      cases sources.mapM KeySource.resolve with
      | error error => rfl
      | ok keys => exact runSequence_forget order keys steps
  | unregister token =>
      rw [Edit.run, Edit.run, unregister_forget]
      cases order.unregister token with
      | mk outcome next => cases outcome <;> rfl

/-! ## Reads -/

inductive Read (V : Type) : Type 1 where
  | validate
  | linearEntries
  | toLinearList
  | visit (α : Type) (fold : Key → List V → List α → α)

namespace Read

def Answer : Read V → Type
  | .validate => Unit
  | .linearEntries => List (Key × List V)
  | .toLinearList => List V
  | .visit α _ => List α × List α

def run (order : Order V) : (read : Read V) → Except OrderError read.Answer × Order V
  | .validate => order.validate
  | .linearEntries => order.linearEntries
  | .toLinearList => order.toLinearList
  | .visit _ fold => order.visit fold

def ofArrangement (order : Order V) : (read : Read V) → List Nat → read.Answer
  | .validate, _ => ()
  | .linearEntries, places => places.filterMap order.entryAt?
  | .toLinearList, places => (places.filterMap order.entryAt?).flatMap (·.2)
  | .visit _ fold, places =>
    let results := order.foldPlaces fold places
    let ends := (List.range order.nodeCount).filter fun place => !order.hasDependents place
    (results.map (·.2), ends.filterMap (resultAt? results))

private theorem run_eq (order : Order V) (read : Read V) :
    (read.run order).1 = order.arrange.1.map (read.ofArrangement order) := by
  cases read with
  | validate => rfl
  | linearEntries => exact linearEntries_eq order
  | toLinearList =>
      change order.toLinearList.1 = _
      rw [toLinearList_eq, linearEntries_eq]
      cases order.arrange.1 <;> rfl
  | visit α fold => exact visit_eq_arrange order fold

theorem run_order (order : Order V) (read : Read V) : (read.run order).2 = order.arrange.2 := by
  cases read <;> rfl

theorem run_of_wellFormed {order : Order V} (h : order.WellFormed) (read : Read V) :
    (read.run order).1 = order.linearize.map (read.ofArrangement order) := by
  rw [run_eq, h.arrange_eq]

private theorem ofArrangement_forget (order : Order V) (read : Read V) :
    read.ofArrangement order.forget = read.ofArrangement order := by
  cases read <;> rfl

end Read

/-! ## Edits and reads -/

inductive Act (V : Type) : Type 1 where
  | edit (edit : Edit V)
  | read (read : Read V)

def Act.run [BEq V] (order : Order V) : Act V → Order V
  | .edit own => (own.run order).order
  | .read own => (own.run order).2

def Act.edit? : Act V → Option (Edit V)
  | .edit own => some own
  | .read _ => none

def acted [BEq V] (order : Order V) (acts : List (Act V)) : Order V :=
  acts.foldl (fun order act => act.run order) order

def editsOf (acts : List (Act V)) : List (Edit V) := acts.filterMap Act.edit?

variable [BEq V]

theorem Act.run_forget (order : Order V) (act : Act V) :
    (act.run order).forget = order.forget.edited act.edit?.toList := by
  cases act with
  | edit own => exact (congrArg Edited.order (Edit.run_forget order own)).symm
  | read own => exact (congrArg Order.forget (Read.run_order order own)).trans (arrange_forget order)

private theorem edited_append (order : Order V) (edits others : List (Edit V)) :
    order.edited (edits ++ others) = (order.edited edits).edited others :=
  List.foldl_append

private theorem acted_forget (order : Order V) (acts : List (Act V)) :
    (order.acted acts).forget = order.forget.edited (editsOf acts) := by
  induction acts generalizing order with
  | nil => rfl
  | cons act acts ih =>
      calc (order.acted (act :: acts)).forget
          = (act.run order).forget.edited (editsOf acts) := ih (act.run order)
        _ = order.forget.edited (act.edit?.toList ++ editsOf acts) := by
          rw [Act.run_forget, edited_append]
        _ = order.forget.edited (editsOf (act :: acts)) := by cases act <;> rfl

theorem Reachable.acted {order : Order V} (h : Reachable order) (acts : List (Act V)) :
    Reachable (order.acted acts) := by
  induction acts generalizing order with
  | nil => exact h
  | cons act acts ih =>
      cases act with
      | edit edit => exact ih (h.edit edit)
      | read read =>
          refine ih ?_
          change Reachable (read.run order).2
          rw [Read.run_order]
          exact h.read

/-- Whatever edits and reads were made before, in whatever turn, a read answers as it does after the
edits alone, where nothing is remembered; an edit does the same as there; and an arrangement that is
remembered is the one that would be found now. -/
theorem reads_leave_no_trace (acts : List (Act V)) :
    (Order.empty.edited (editsOf acts) : Order V).arranged = none ∧
    (Order.empty.acted acts : Order V).forget = Order.empty.edited (editsOf acts) ∧
    (∀ read : Read V, (read.run (Order.empty.acted acts)).1 =
      (read.run (Order.empty.edited (editsOf acts))).1) ∧
    (∀ edit : Edit V, (edit.run (Order.empty.acted acts)).forget =
      edit.run (Order.empty.edited (editsOf acts))) ∧
    ∀ places, (Order.empty.acted acts : Order V).arranged = some places →
      (Order.empty.acted acts : Order V).linearize = .ok places := by
  have hforget : (Order.empty.acted acts : Order V).forget = Order.empty.edited (editsOf acts) :=
    acted_forget Order.empty acts
  have hwell := (Reachable.empty.acted acts : Reachable (V := V) _).wellFormed
  have hunread := (Reachable.empty.edited (editsOf acts) : Reachable (V := V) _).wellFormed
  refine ⟨by rw [← hforget]; rfl, hforget, fun read => ?_, fun edit => ?_, hwell.arranged⟩
  · rw [read.run_of_wellFormed hwell, read.run_of_wellFormed hunread, ← hforget, linearize_forget,
      Read.ofArrangement_forget]
  · rw [← hforget, Edit.run_forget]

theorem list_read_around_edits :
    ∃ (acts : List (Act Nat)) (linked : Token),
      (Order.empty.acted acts).arranged = some [1, 0] ∧
      (Order.empty.acted acts).linearize = .ok [1, 0] ∧
      (Order.empty.acted (acts ++ [.edit (.unregister linked)])).arranged = none ∧
      (Read.toLinearList.run (Order.empty.acted (acts ++ [.edit (.unregister linked)]))).1 =
        (.ok [1, 2] : Except OrderError (List Nat)) := by
  let acts : List (Act Nat) :=
    [.edit (.register (.key (.constant "a")) 1), .read .validate,
      .edit (.item (.key (.constant "b")) [(.before, .key (.constant "a"))] 2),
      .read .toLinearList, .edit (.register (.key (.constant "a")) 1),
      .edit (.expect (.key (.constant "b")))]
  let linked : Token := .link ⟨0, .constant "b", .constant "a"⟩
  obtain ⟨-, -, -, -, hkept⟩ := reads_leave_no_trace acts
  obtain ⟨-, -, hread, -, -⟩ := reads_leave_no_trace (acts ++ [.edit (.unregister linked)])
  have hremembered : (Order.empty.acted acts).arranged = some [1, 0] := by cbv
  exact ⟨acts, linked, hremembered, hkept _ hremembered, by cbv, (hread .toLinearList).trans (by cbv)⟩

end Runbook.Order
