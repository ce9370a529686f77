import Runbook.Proofs.Order.Linearization

/-!
# Repeats

An order refuses a value that its key holds already.  Where the values that are still to be
registered differ from each other and from all that the order holds, nothing is refused for that
reason: steps fail only at a key that cannot be read, and what the order holds differs in the end.
-/

namespace Runbook

/-! ## Keys that cannot be read -/

theorem Key.parse_error {source : String} {error : OrderError} (h : Key.parse source = .error error) :
    ∃ blank, error = .invalidKey blank := by
  rw [Key.parse] at h
  split at h
  · cases h
  · cases h
    exact ⟨_, rfl⟩

theorem KeySource.resolve_error {key : KeySource} {error : OrderError}
    (h : key.resolve = .error error) : ∃ blank, error = .invalidKey blank := by
  induction key generalizing error with
  | key own => cases h
  | text source => exact Key.parse_error h
  | pre base ih | post base ih =>
      rw [resolve] at h
      cases hbase : base.resolve with
      | ok own =>
          rw [hbase] at h
          cases h
      | error own =>
          rw [hbase] at h
          cases h
          exact ih hbase

namespace Order

variable {V : Type} {order : Order V}

/-! ## Values that an order holds -/

def held (order : Order V) : List V := order.nodes.toList.flatMap (·.values)

@[simp] theorem held_addNode (order : Order V) (key : Key) :
    (order.addNode key).held = order.held := by
  simp [held, addNode, Node.values]

@[simp] theorem held_addLink (order : Order V) (source target : Nat) :
    (order.addLink source target).held = order.held := rfl

@[simp] theorem held_ensure (order : Order V) (key : Key) :
    (order.ensure key).2.held = order.held :=
  @ensure_keeps V (fun made => made.held = order.held)
    (fun _ hsame => (held_addNode _ _).trans hsame) (fun _ _ hsame => hsame) order rfl key

@[simp] theorem held_link (order : Order V) (source target : Key) :
    (order.link source target).2.held = order.held := by
  rw [link_eq, held_addLink, held_ensure, held_ensure]

@[simp] theorem held_arrange (order : Order V) : order.arrange.2.held = order.held := by
  rw [arrange]
  split
  · rfl
  · split <;> rfl

private theorem flatMap_modify_perm {α β : Type} {view : α → List β} {change : α → α}
    {added : List β}
    (hchange : ∀ member, view (change member) = view member ++ added) {members : List α} {index : Nat}
    (hindex : index < members.length) :
    ((members.modify index change).flatMap view).Perm (members.flatMap view ++ added) := by
  rw [List.modify_eq_take_cons_drop hindex, List.flatMap_append, List.flatMap_cons, hchange]
  conv => rhs; rw [← List.take_append_drop index members, List.drop_eq_getElem_cons hindex]
  rw [List.flatMap_append, List.flatMap_cons, List.append_assoc, List.append_assoc,
    List.append_assoc]
  exact (List.perm_append_comm.append_left _).append_left _

private theorem held_addItem {place : Nat} (hplace : place < order.nodeCount) (value : V) :
    (order.addItem place value).held.Perm (order.held ++ [value]) := by
  rw [held, addItem, Array.toList_modify]
  exact flatMap_modify_perm (fun node => List.map_append) (by simpa [nodeCount] using hplace)

theorem mem_held {place : Nat} {value : V} (h : value ∈ order.valuesAt place) :
    value ∈ order.held := by
  rw [valuesAt] at h
  split at h
  · next node hnode =>
    exact List.mem_flatMap.mpr ⟨node, Array.mem_toList_iff.mpr (Array.mem_of_getElem? hnode), h⟩
  · cases h

theorem Arranges.perm_held {places : List Nat} (h : order.Arranges places) :
    ((places.filterMap order.entryAt?).flatMap (·.2)).Perm order.held := by
  have hentries := (h.perm.filterMap order.entryAt?).flatMap_right (·.2)
  rwa [entryAt?_range, List.flatMap_map] at hentries

/-! ## Values that differ -/

def Apart [BEq V] (order : Order V) (coming : List V) : Prop :=
  (order.held ++ coming).Pairwise fun earlier later => (earlier == later) = false

section

variable [BEq V] {value : V} {values coming : List V}

theorem Apart.of_held {next : Order V} (h : order.Apart coming) (hheld : next.held = order.held) :
    next.Apart coming := by
  rwa [Apart, hheld]

theorem Apart.drop (h : order.Apart (values ++ coming)) : order.Apart coming :=
  h.sublist ((List.sublist_append_right values coming).append_left order.held)

theorem Apart.of_perm [PartialEquivBEq V] {next : Order V} (h : order.Apart (values ++ coming))
    (hheld : next.held.Perm (order.held ++ values)) : next.Apart coming := by
  rw [Apart, ← List.append_assoc] at h
  exact (hheld.append_right coming).symm.pairwise h fun hdifferent => by rwa [BEq.comm]

theorem Apart.register [PartialEquivBEq V] (h : order.Apart (value :: coming)) (key : Key) :
    ∃ token next, order.register key value = (.ok token, next) ∧ next.Apart coming := by
  obtain ⟨hplace, -⟩ := ensure_bounds order key
  have hfresh : ((order.ensure key).2.valuesAt (order.ensure key).1).contains value = false := by
    rw [Bool.eq_false_iff]
    intro hcontains
    -- an equal value under this key would be among those that are held
    obtain ⟨old, hold, hsame⟩ := List.contains_iff_exists_mem_beq.mp hcontains
    have hheld := mem_held hold
    rw [held_ensure] at hheld
    have hdifferent := (List.pairwise_append.mp h).2.2 old hheld value List.mem_cons_self
    rw [BEq.comm, hsame] at hdifferent
    cases hdifferent
  refine ⟨_, _, by rw [register_eq, if_neg (by rw [hfresh]; simp)], ?_⟩
  have hmade : (order.ensure key).2.Apart ([value] ++ coming) := h.of_held (held_ensure order key)
  exact hmade.of_perm (held_addItem hplace value)

end

/-! ## Steps -/

namespace Builder

@[simp] theorem held_stepTo (builder : Builder V) (key : Key) :
    (builder.stepTo key).order.held = builder.order.held := by
  have hlinks : ∀ (sources : List Key) (builder : Builder V),
      (sources.foldl (·.waitFor key ·) builder).order.held = builder.order.held := by
    intro sources
    induction sources with
    | nil => exact fun _ => rfl
    | cons source sources ih => exact fun builder => (ih _).trans (held_link builder.order source key)
  rw [stepTo, advance_order, hlinks]

variable [BEq V]

/-- Whether a result is no failure but that of a key which cannot be read, and values that are still
to come differ from each other and from what is held. -/
def Settles (coming : List V) (result : Except OrderError Unit × Builder V) : Prop :=
  (∀ error, result.1 = .error error → ∃ blank, error = .invalidKey blank) ∧
    result.2.order.Apart coming

theorem Settles.done {builder : Builder V} {coming : List V} (h : builder.order.Apart coming) :
    Settles coming (.ok (), builder) :=
  ⟨by simp, h⟩

theorem settles_block {builder : Builder V} {result : Except OrderError Unit × Builder V}
    {coming : List V} :
    Settles coming result → Settles coming
      (let (outcome, inner) := result
      match outcome with
      | .ok () => (.ok (), (builder.absorb inner).advance inner.ends)
      | .error error => (.error error, builder.absorb inner)) := by
  obtain ⟨outcome, inner⟩ := result
  intro h
  cases outcome with
  | ok _ => exact .done (h.2.of_held (by simp))
  | error error => exact h

theorem settles_addUnder [PartialEquivBEq V] (builder : Builder V) (key : Key) {value : V}
    {coming : List V} (h : builder.order.Apart (value :: coming)) :
    Settles coming (builder.addUnder key value) := by
  obtain ⟨token, next, hregister, hnext⟩ := h.register key
  rw [Builder.addUnder, hregister]
  exact .done (hnext.of_held (by simp))

mutual

theorem settles_runStep [PartialEquivBEq V] (builder : Builder V) (step : Step V) (coming : List V)
    (h : builder.order.Apart (step.values ++ coming)) :
    Settles coming (builder.runStep step) := by
  cases step with
  | add value =>
      have hfresh : builder.order.freshKey.2.Apart (value :: coming) := h.of_held rfl
      rw [runStep]
      exact settles_addUnder { builder with order := builder.order.freshKey.2 } _ hfresh
  | addKeyed key value =>
      rw [runStep]
      split
      · exact settles_addUnder builder _ h
      · next error hresolve =>
        exact ⟨fun _ herror => Except.error.inj herror ▸ KeySource.resolve_error hresolve, h.drop⟩
  | expect key =>
      rw [runStep]
      split
      · exact .done (h.of_held (by simp [Order.expect]))
      · next error hresolve =>
        exact ⟨fun _ herror => Except.error.inj herror ▸ KeySource.resolve_error hresolve, h⟩
  | seq steps =>
      rw [runStep]
      exact settles_block
        (settles_runSteps (builder.nested .sequential builder.predecessors) steps coming h)
  | par steps =>
      rw [runStep]
      exact settles_block
        (settles_runSteps (builder.nested .parallel builder.predecessors) steps coming h)
  | independently steps =>
      rw [runStep]
      exact settles_runSteps (builder.nested .sequential []) steps coming h
  | attempt step =>
      rw [runStep]
      exact .done (settles_runStep builder step coming h).2
  | note =>
      rw [runStep]
      exact .done h

theorem settles_runSteps [PartialEquivBEq V] (builder : Builder V) (steps : List (Step V))
    (coming : List V) (h : builder.order.Apart (stepsValues steps ++ coming)) :
    Settles coming (builder.runSteps steps) := by
  cases steps with
  | nil => exact .done h
  | cons step steps =>
      rw [stepsValues, List.append_assoc] at h
      -- while the first step runs, the values of the others are still to come
      have hstep := settles_runStep builder step (stepsValues steps ++ coming) h
      rw [runSteps]
      split
      · next next hdone =>
        rw [hdone] at hstep
        exact settles_runSteps next steps coming hstep.2
      · next error next hfailed =>
        rw [hfailed] at hstep
        exact ⟨hstep.1, hstep.2.drop⟩

end

end Builder

end Order

end Runbook
