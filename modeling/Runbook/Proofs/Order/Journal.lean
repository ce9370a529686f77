import Runbook.Proofs.Order.Atomicity
import Runbook.Proofs.Order.Drawing
import Runbook.Proofs.Order.Ties

/-!
# What a sequence hands out

A sequence comes down to calls on its order, one after another.  Its inner blocks keep tokens of
their own until they end or fail; what the outermost block hands out are the tokens of all these
calls, in the order in which they were made.  A block that fails stays on the list of what was done,
but nothing waits for it.
-/

namespace Runbook.Order

variable {V : Type}

/-! ## Calls on an order -/

inductive Call (V : Type) where
  | generate
  | expect (key : Key)
  | register (key : Key) (value : V)
  | link (source target : Key)

section

variable [BEq V]

def Call.run (order : Order V) : Call V → List Token × Order V
  | .generate => ([], order.freshKey.2)
  | .expect key => ([], order.expect key)
  | .register key value =>
    (itemTokens (order.register key value).1, (order.register key value).2)
  | .link source target => ([.link (order.link source target).1], (order.link source target).2)

def perform (order : Order V) : List (Call V) → List Token × Order V
  | [] => ([], order)
  | call :: calls =>
    let (tokens, order) := call.run order
    let (later, order) := order.perform calls
    (tokens ++ later, order)

private theorem perform_append (order : Order V) (calls others : List (Call V)) :
    order.perform (calls ++ others) =
      ((order.perform calls).1 ++ ((order.perform calls).2.perform others).1,
        ((order.perform calls).2.perform others).2) := by
  induction calls generalizing order with
  | nil => rfl
  | cons call calls ih => simp only [List.cons_append, perform, ih, List.append_assoc]

namespace Builder

/-! ## Calls of a sequence -/

def addCalls (builder : Builder V) (key : Key) (value : V) : List (Call V) :=
  .register key value ::
    match (builder.order.register key value).1 with
    | .ok _ => builder.predecessors.map (.link · key)
    | .error _ => []

mutual

def stepCalls (builder : Builder V) : Step V → List (Call V)
  | .add value =>
    let (key, order) := builder.order.freshKey
    .generate :: { builder with order }.addCalls key value
  | .addKeyed key value =>
    match key.resolve with
    | .ok key => builder.addCalls key value
    | .error _ => []
  | .expect key =>
    match key.resolve with
    | .ok key => .expect key :: builder.predecessors.map (.link · key)
    | .error _ => []
  | .seq steps => (builder.nested .sequential builder.predecessors).calls steps
  | .par steps => (builder.nested .parallel builder.predecessors).calls steps
  | .independently steps => (builder.nested .sequential []).calls steps
  | .attempt step => builder.stepCalls step
  | .note => []

def calls (builder : Builder V) : List (Step V) → List (Call V)
  | [] => []
  | step :: steps =>
    builder.stepCalls step ++
      match builder.runStep step with
      | (.ok (), builder) => builder.calls steps
      | (.error _, _) => []

end

def Does (before : Builder V) (calls : List (Call V)) (after : Builder V) : Prop :=
  after.tokens = before.tokens ++ (before.order.perform calls).1 ∧
    after.order = (before.order.perform calls).2

section

variable {first second third : Builder V}

theorem Does.of_same (htokens : second.tokens = first.tokens)
    (horder : second.order = first.order) : Does first [] second :=
  ⟨by simp [htokens, perform], horder⟩

theorem Does.trans {earlier later : List (Call V)} (hfirst : Does first earlier second)
    (hsecond : Does second later third) : Does first (earlier ++ later) third := by
  obtain ⟨htokens, horder⟩ := hfirst
  obtain ⟨htokens', horder'⟩ := hsecond
  rw [Does, perform_append, ← horder]
  exact ⟨by rw [htokens', htokens, List.append_assoc], horder'⟩

theorem Does.of_call {call : Call V}
    (htokens : second.tokens = first.tokens ++ (call.run first.order).1)
    (horder : second.order = (call.run first.order).2) : Does first [call] second := by
  simp only [Does, perform, List.append_nil]
  exact ⟨htokens, horder⟩

end

theorem runStep_block (builder : Builder V) (mode : Mode) (steps : List (Step V)) :
    builder.runStep (.block mode steps) =
      match (builder.nested mode builder.predecessors).runSteps steps with
      | (.ok (), inner) => (.ok (), (builder.absorb inner).advance inner.ends)
      | (.error error, inner) => (.error error, builder.absorb inner) := by
  cases hrun : (builder.nested mode builder.predecessors).runSteps steps with
  | mk outcome inner =>
      cases mode <;> cases outcome <;> simp [Step.block, runStep, hrun]

theorem does_advance (builder : Builder V) (keys : List Key) :
    Does builder [] (builder.advance keys) := by
  rw [advance]
  split <;> exact .of_same rfl rfl

theorem does_stepTo (builder : Builder V) (key : Key) :
    Does builder (builder.predecessors.map (.link · key)) (builder.stepTo key) := by
  have hwaits : ∀ (sources : List Key) (builder : Builder V),
      Does builder (sources.map (.link · key)) (sources.foldl (·.waitFor key ·) builder) := by
    intro sources
    induction sources with
    | nil => exact fun builder => .of_same rfl rfl
    | cons source sources ih =>
        intro builder
        have hwait : Does builder [.link source key] (builder.waitFor key source) :=
          .of_call rfl rfl
        exact hwait.trans (ih _)
  simpa [stepTo] using (hwaits builder.predecessors builder).trans (does_advance _ [key])

theorem does_addUnder (builder : Builder V) (key : Key) (value : V) :
    Does builder (builder.addCalls key value) (builder.addUnder key value).2 := by
  rw [addUnder, addCalls]
  cases hrun : builder.order.register key value with
  | mk outcome order =>
      cases outcome with
      | ok token =>
          have hitem : Does builder [.register key value]
              { builder with order, tokens := builder.tokens ++ [Token.item token] } :=
            .of_call (by simp [Call.run, hrun, itemTokens]) (by simp [Call.run, hrun])
          exact hitem.trans (does_stepTo _ key)
      | error error =>
          exact .of_call (by simp [Call.run, hrun, itemTokens]) (by simp [Call.run, hrun])

theorem Does.absorbed {builder inner : Builder V} {mode : Mode} {start : List Key}
    {calls : List (Call V)} (h : Does (builder.nested mode start) calls inner) :
    Does builder calls (builder.absorb inner) := by
  obtain ⟨htokens, horder⟩ := h
  exact ⟨by simpa [absorb, nested] using htokens, horder⟩

theorem Does.block {builder : Builder V} (mode : Mode) {steps : List (Step V)}
    {calls : List (Call V)}
    (h : Does (builder.nested mode builder.predecessors) calls
      ((builder.nested mode builder.predecessors).runSteps steps).2) :
    Does builder calls (builder.runStep (.block mode steps)).2 := by
  have hinner := h.absorbed
  rw [runStep_block]
  cases hrun : (builder.nested mode builder.predecessors).runSteps steps with
  | mk outcome inner =>
      rw [hrun] at hinner
      cases outcome with
      | ok _ => simpa using hinner.trans (does_advance _ inner.ends)
      | error error => exact hinner

mutual

theorem does_runStep (builder : Builder V) (step : Step V) :
    Does builder (builder.stepCalls step) (builder.runStep step).2 := by
  cases step with
  | add value =>
      have hgenerate : Does builder [.generate]
          { builder with order := builder.order.freshKey.2 } :=
        .of_call (by simp [Call.run]) rfl
      rw [runStep, stepCalls]
      exact hgenerate.trans (does_addUnder _ _ value)
  | addKeyed source value =>
      rw [runStep, stepCalls]
      cases source.resolve with
      | ok key => exact does_addUnder builder key value
      | error error => exact .of_same rfl rfl
  | expect source =>
      rw [runStep, stepCalls]
      cases source.resolve with
      | ok key =>
          have hmade : Does builder [.expect key]
              { builder with order := builder.order.expect key } :=
            .of_call (by simp [Call.run]) rfl
          exact hmade.trans (does_stepTo _ key)
      | error error => exact .of_same rfl rfl
  | seq steps => exact Does.block .sequential (does_runSteps _ steps)
  | par steps => exact Does.block .parallel (does_runSteps _ steps)
  | independently steps =>
      rw [runStep, stepCalls]
      exact (does_runSteps (builder.nested .sequential []) steps).absorbed
  | attempt step =>
      rw [runStep, stepCalls]
      exact does_runStep builder step
  | note => exact .of_same rfl rfl

theorem does_runSteps (builder : Builder V) (steps : List (Step V)) :
    Does builder (builder.calls steps) (builder.runSteps steps).2 := by
  cases steps with
  | nil => exact .of_same rfl rfl
  | cons step steps =>
      have hstep := does_runStep builder step
      rw [runSteps, calls]
      cases hrun : builder.runStep step with
      | mk outcome next =>
          rw [hrun] at hstep
          cases outcome with
          | ok _ => exact hstep.trans (does_runSteps next steps)
          | error error => simpa using hstep

end

/-! ## Failed blocks -/

/-- Whether two builders have come equally far: a next step waits for the same keys in both, and so
does whatever follows them. -/
def SameFrontier (first second : Builder V) : Prop :=
  first.frontier = second.frontier ∧ first.predecessors = second.predecessors ∧
    first.ends = second.ends

private theorem addUnder_failed_frontier (builder : Builder V) (key : Key) (value : V)
    {error : OrderError}
    (herror : (builder.addUnder key value).1 = .error error) :
    SameFrontier (builder.addUnder key value).2 builder := by
  rw [addUnder_atomic key value builder error herror]
  exact ⟨rfl, rfl, rfl⟩

theorem block_failed_frontier {builder : Builder V} (mode : Mode) {steps : List (Step V)}
    {error : OrderError} (herror : (builder.runStep (.block mode steps)).1 = .error error) :
    SameFrontier (builder.runStep (.block mode steps)).2 builder := by
  rw [runStep_block] at herror ⊢
  cases hrun : (builder.nested mode builder.predecessors).runSteps steps with
  | mk outcome inner =>
      cases outcome with
      | ok _ => simp [hrun] at herror
      | error error => exact ⟨rfl, rfl, rfl⟩

private theorem runStep_failed_frontier {builder : Builder V} {step : Step V} {error : OrderError}
    (herror : (builder.runStep step).1 = .error error) :
    SameFrontier (builder.runStep step).2 builder := by
  cases step with
  | add value =>
      rw [runStep] at herror ⊢
      exact addUnder_failed_frontier { builder with order := builder.order.freshKey.2 } _ value
        herror
  | addKeyed source value =>
      have hkeyed : (Step.addKeyed source value).Keyed := trivial
      rw [runStep_atomic hkeyed builder error herror]
      exact ⟨rfl, rfl, rfl⟩
  | expect source =>
      have hkeyed : (Step.expect source : Step V).Keyed := trivial
      rw [runStep_atomic hkeyed builder error herror]
      exact ⟨rfl, rfl, rfl⟩
  | seq steps => exact block_failed_frontier .sequential herror
  | par steps => exact block_failed_frontier .parallel herror
  | independently steps =>
      rw [runStep]
      exact ⟨rfl, rfl, rfl⟩
  | attempt step => cases herror
  | note => cases herror

end Builder

end

/-! ## Counting -/

/-- Whether tokens number all values that were registered and all links that were made, except those
that came along with new keys. -/
structure Tally (before : Order V) (tokens : List Token) (after : Order V) : Prop where
  nextItem_le : before.nextItem ≤ after.nextItem
  items : itemIds tokens = List.range' before.nextItem (after.nextItem - before.nextItem)
  links : (linkIds tokens).Pairwise (· < ·)
  linkBounds : ∀ id ∈ linkIds tokens, before.nextLink ≤ id ∧ id < after.nextLink
  ties : ∃ new, after.keys = before.keys ++ new ∧
    after.nextLink =
      before.nextLink + (linkIds tokens).length + (new.filterMap Key.tie?).length

section

variable {first second third : Order V} {earlier later : List Token}

theorem Tally.nextLink_le (h : Tally first earlier second) : first.nextLink ≤ second.nextLink := by
  obtain ⟨new, -, hcount⟩ := h.ties
  omega

theorem Tally.of_silent (hitems : second.nextItem = first.nextItem)
    (hties : ∃ new, second.keys = first.keys ++ new ∧
      second.nextLink = first.nextLink + (new.filterMap Key.tie?).length) :
    Tally first [] second where
  nextItem_le := Nat.le_of_eq hitems.symm
  items := by simp [itemIds, hitems]
  links := List.Pairwise.nil
  linkBounds := by simp [linkIds]
  ties := by simpa [linkIds] using hties

theorem Tally.trans (hfirst : Tally first earlier second) (hsecond : Tally second later third) :
    Tally first (earlier ++ later) third where
  nextItem_le := Nat.le_trans hfirst.nextItem_le hsecond.nextItem_le
  items := by
    have hle := hfirst.nextItem_le
    have hle' := hsecond.nextItem_le
    have hends : first.nextItem + (second.nextItem - first.nextItem) = second.nextItem := by omega
    have hsum : second.nextItem - first.nextItem + (third.nextItem - second.nextItem) =
        third.nextItem - first.nextItem := by omega
    rw [itemIds_append, hfirst.items, hsecond.items, ← hsum, ← List.range'_append_1, hends]
  links := by
    rw [linkIds_append, List.pairwise_append]
    refine ⟨hfirst.links, hsecond.links, fun old hold new hnew => ?_⟩
    have := (hfirst.linkBounds old hold).2
    have := (hsecond.linkBounds new hnew).1
    omega
  linkBounds := by
    intro id hid
    have hle := hfirst.nextLink_le
    have hle' := hsecond.nextLink_le
    rw [linkIds_append, List.mem_append] at hid
    rcases hid with hid | hid
    · have := hfirst.linkBounds id hid
      omega
    · have := hsecond.linkBounds id hid
      omega
  ties := by
    obtain ⟨old, hold, holdCount⟩ := hfirst.ties
    obtain ⟨new, hnew, hnewCount⟩ := hsecond.ties
    refine ⟨old ++ new, by rw [hnew, hold, List.append_assoc], ?_⟩
    rw [linkIds_append, List.filterMap_append, List.length_append, List.length_append]
    omega

private theorem ensure_ties (order : Order V) (key : Key) :
    ∃ new, (order.ensure key).2.keys = order.keys ++ new ∧
      (order.ensure key).2.nextLink = order.nextLink + (new.filterMap Key.tie?).length := by
  induction key generalizing order with
  | unique id =>
      cases hplace : order.place? (.unique id) with
      | some place => exact ⟨[], by simp [ensure_of_place? hplace]⟩
      | none =>
          refine ⟨[.unique id], by simp [ensure_unique hplace], ?_⟩
          rw [ensure_unique hplace]
          rfl
  | constant name =>
      cases hplace : order.place? (.constant name) with
      | some place => exact ⟨[], by simp [ensure_of_place? hplace]⟩
      | none =>
          refine ⟨[.constant name], by simp [ensure_constant hplace], ?_⟩
          rw [ensure_constant hplace]
          rfl
  | pre base ih =>
      cases hplace : order.place? (.pre base) with
      | some place => exact ⟨[], by simp [ensure_of_place? hplace]⟩
      | none =>
          obtain ⟨new, hkeys, hcount⟩ := ih (order.addNode (.pre base))
          have htie : Key.tie? (.pre base) = some (.pre base, base) := rfl
          refine ⟨.pre base :: new, by simp [ensure_pre hplace, hkeys], ?_⟩
          rw [ensure_pre hplace, List.filterMap_cons_some htie, List.length_cons, ← Nat.add_assoc]
          exact congrArg (· + 1) hcount
  | post base ih =>
      cases hplace : order.place? (.post base) with
      | some place => exact ⟨[], by simp [ensure_of_place? hplace]⟩
      | none =>
          obtain ⟨new, hkeys, hcount⟩ := ih (order.addNode (.post base))
          have htie : Key.tie? (.post base) = some (base, .post base) := rfl
          refine ⟨.post base :: new, by simp [ensure_post hplace, hkeys], ?_⟩
          rw [ensure_post hplace, List.filterMap_cons_some htie, List.length_cons, ← Nat.add_assoc]
          exact congrArg (· + 1) hcount

theorem tally_ensure (order : Order V) (key : Key) : Tally order [] (order.ensure key).2 :=
  .of_silent (nextItem_ensure order key) (ensure_ties order key)

private theorem tally_addItem (order : Order V) (place : Nat) (key : Key) (value : V) :
    Tally order [.item ⟨order.nextItem, key⟩] (order.addItem place value) where
  nextItem_le := Nat.le_succ _
  items := by simp [itemIds, addItem]
  links := List.Pairwise.nil
  linkBounds := by simp [linkIds]
  ties := ⟨[], by simp, rfl⟩

private theorem tally_addLink (order : Order V) (sourcePlace targetPlace : Nat)
    (source target : Key) :
    Tally order [.link ⟨order.nextLink, source, target⟩]
      (order.addLink sourcePlace targetPlace) where
  nextItem_le := Nat.le_refl _
  items := by simp [itemIds, addLink]
  links := List.pairwise_singleton _ _
  linkBounds := by simp [linkIds, addLink]
  ties := ⟨[], by simp, rfl⟩

private theorem composes_tally : Composes (Tally (V := V)) where
  refl _ := .of_silent rfl ⟨[], by simp, rfl⟩
  trans := .trans
  fresh _ := .of_silent rfl ⟨[], (List.append_nil _).symm, rfl⟩
  ensure := tally_ensure
  attach order key value := (tally_ensure order key).trans (tally_addItem _ _ key value)
  link order source target :=
    ((tally_ensure order source).trans (tally_ensure _ target)).trans
      (tally_addLink _ _ _ source target)

end

/-! ## Sequences -/

/-- What a sequence hands out when it is finished, or has failed, is the log of what it did.  Its
tokens are those of the calls that its steps made, at whatever depth and however they ended, in the
order of the calls.  They number the values that were registered and the links that were made; only
the links that came along with new keys have no token.  A step that fails, a block with all that it
did before, leaves the frontier where it was. -/
theorem Reachable.sequence_log [BEq V] {order : Order V} (hreachable : Reachable order)
    (after : List Key) (steps : List (Step V)) {outcome : Except OrderError Unit}
    {final : Builder V}
    (hrun : (Builder.startingAfter order after).runSteps steps = (outcome, final)) :
    (final.tokens, final.order) =
        order.perform ((Builder.startingAfter order after).calls steps) ∧
      Tally order final.tokens final.order ∧ Ledger order final.tokens final.order ∧
      ∀ (builder : Builder V) (step : Step V) (error : OrderError),
        (builder.runStep step).1 = .error error →
          Builder.SameFrontier (builder.runStep step).2 builder := by
  have hdoes := Builder.does_runSteps (Builder.startingAfter order after) steps
  have htally := composes_tally.runSteps order after steps
  have hledger := Builder.yields_runSteps order after steps hreachable.regular
  rw [hrun] at hdoes htally hledger
  exact ⟨Prod.ext hdoes.1 hdoes.2, htally, hledger.2,
    fun _ _ _ herror => Builder.runStep_failed_frontier herror⟩

theorem sequence_log_of_failed_blocks :
    ∃ (steps : List (Step Nat)) (final : Builder Nat),
      (Builder.startingAfter .empty []).runSteps steps = (.error (.invalidKey " "), final) ∧
      final.tokens =
        [.item ⟨0, .constant "a"⟩, .item ⟨1, .pre (.constant "b")⟩,
          .link ⟨1, .constant "a", .pre (.constant "b")⟩, .item ⟨2, .constant "c"⟩,
          .link ⟨2, .constant "a", .constant "c"⟩, .item ⟨3, .constant "d"⟩,
          .link ⟨3, .constant "a", .constant "d"⟩] ∧
      final.order.nextLink = 4 ∧ Ledger .empty final.tokens final.order := by
  let steps : List (Step Nat) :=
    [.addKeyed (.key (.constant "a")) 1,
      .attempt (.par [.addKeyed (.pre (.key (.constant "b"))) 2,
        .seq [.addKeyed (.key (.constant "c")) 3, .addKeyed (.key (.constant "a")) 1],
        .addKeyed (.key (.constant "e")) 5]),
      .addKeyed (.key (.constant "d")) 4, .expect (.text " ")]
  have hfails : ((Builder.startingAfter .empty []).runSteps steps).1 =
      .error (.invalidKey " ") := by cbv
  have hrun : (Builder.startingAfter .empty []).runSteps steps =
      (.error (.invalidKey " "), ((Builder.startingAfter .empty []).runSteps steps).2) :=
    Prod.ext hfails rfl
  obtain ⟨hlog, -, hledger, -⟩ := (Reachable.empty (V := Nat)).sequence_log [] steps hrun
  exact ⟨steps, _, hrun, (congrArg Prod.fst hlog).trans (by cbv),
    (congrArg (·.2.nextLink) hlog).trans (by cbv), hledger⟩

end Runbook.Order
