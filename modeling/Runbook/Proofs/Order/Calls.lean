import Runbook.Proofs.Order.Ledger

/-!
# Tokens of calls and edits

What a call or an adding edit gives out accounts for all that it adds, also where it fails half way:
a failed registration leaves nodes only, and a failed sequence still hands out what it took before.
-/

namespace Runbook.Order

variable {V : Type}

/-! ## Tokens -/

def itemTokens : Except OrderError ItemToken → List Token
  | .ok token => [.item token]
  | .error _ => []

def linkTokens (order : Order V) (key : Key) : List (Side × KeySource) → List Token
  | [] => []
  | (side, other) :: links =>
    match other.resolve with
    | .error _ => []
    | .ok other =>
      let (token, order) :=
        match side with
        | .before => order.link key other
        | .after => order.link other key
      .link token :: order.linkTokens key links

def Edit.given [BEq V] (order : Order V) : Edit V → List Token
  | .item key links value =>
    match key.resolve with
    | .error _ => []
    | .ok key =>
      match order.linkAll key links with
      | (.error _, _) => order.linkTokens key links
      | (.ok _, linked) =>
        order.linkTokens key links ++ itemTokens (linked.register key value).1
  | edit => (edit.run order).tokens

private theorem map_eq_ok {ε α β : Type} {view : α → β} {outcome : Except ε α} {result : β}
    (h : outcome.map view = .ok result) : ∃ inner, outcome = .ok inner ∧ view inner = result := by
  cases outcome with
  | error error => cases h
  | ok inner => exact ⟨inner, rfl, Except.ok.inj h⟩

private theorem linkAll_tokens {order : Order V} {tokens : List Token} (key : Key)
    (links : List (Side × KeySource)) (hdone : (order.linkAll key links).1 = .ok tokens) :
    order.linkTokens key links = tokens := by
  induction links generalizing order tokens with
  | nil =>
      cases hdone
      rfl
  | cons entry links ih =>
      obtain ⟨side, source⟩ := entry
      rw [linkAll] at hdone
      rw [linkTokens]
      cases hother : source.resolve with
      | error error => simp [hother] at hdone
      | ok other =>
          simp only [hother] at hdone ⊢
          obtain ⟨rest, hrest, rfl⟩ := map_eq_ok hdone
          exact congrArg _ (ih hrest)

/-! ## Calls -/

structure Composes (relation : Order V → List Token → Order V → Prop) : Prop where
  refl : ∀ order, relation order [] order
  trans : ∀ {first second third earlier later},
    relation first earlier second → relation second later third →
      relation first (earlier ++ later) third
  fresh : ∀ order, relation order [] order.freshKey.2
  ensure : ∀ order key, relation order [] (order.ensure key).2
  attach : ∀ order key value,
    relation order [.item ⟨(order.ensure key).2.nextItem, key⟩]
      ((order.ensure key).2.addItem (order.ensure key).1 value)
  link : ∀ order source target,
    relation order [.link (order.link source target).1] (order.link source target).2

section Calls

variable {relation : Order V → List Token → Order V → Prop}

theorem Composes.register [BEq V] (h : Composes relation) (order : Order V) (key : Key)
    (value : V) :
    relation order (itemTokens (order.register key value).1) (order.register key value).2 := by
  rw [register_eq]
  split
  · exact h.ensure order key
  · exact h.attach order key value

theorem Composes.registerUnique (h : Composes relation) (order : Order V) (value : V) :
    relation order [.item (order.registerUnique value).1] (order.registerUnique value).2 :=
  h.trans (h.fresh order) (h.attach order.freshKey.2 order.freshKey.1 value)

theorem Composes.linkAll (h : Composes relation) (order : Order V) (key : Key)
    (links : List (Side × KeySource)) :
    relation order (order.linkTokens key links) (order.linkAll key links).2 := by
  induction links generalizing order with
  | nil => exact h.refl order
  | cons entry links ih =>
      obtain ⟨side, source⟩ := entry
      rw [Order.linkAll, linkTokens]
      cases source.resolve with
      | error error => exact h.refl order
      | ok other =>
          cases side with
          | before => exact h.trans (h.link order key other) (ih _)
          | after => exact h.trans (h.link order other key) (ih _)

end Calls

/-! ## Sequences -/

namespace Builder

variable {relation : Order V → List Token → Order V → Prop}

def Gives (relation : Order V → List Token → Order V → Prop) (before after : Builder V) : Prop :=
  ∃ tokens, after.tokens = before.tokens ++ tokens ∧ relation before.order tokens after.order

section

variable {first second third : Builder V}

theorem Gives.of_same (htokens : second.tokens = first.tokens)
    (horder : relation first.order [] second.order) : Gives relation first second :=
  ⟨[], by simp [htokens], horder⟩

theorem Gives.refl (h : Composes relation) (builder : Builder V) : Gives relation builder builder :=
  .of_same rfl (h.refl _)

theorem Gives.trans (h : Composes relation) (hfirst : Gives relation first second)
    (hsecond : Gives relation second third) : Gives relation first third := by
  obtain ⟨earlier, hearlier, horder⟩ := hfirst
  obtain ⟨later, hlater, horder'⟩ := hsecond
  exact ⟨earlier ++ later, by rw [hlater, hearlier, List.append_assoc], h.trans horder horder'⟩

theorem gives_advance (h : Composes relation) (builder : Builder V) (keys : List Key) :
    Gives relation builder (builder.advance keys) := by
  rw [advance]
  split <;> exact .of_same rfl (h.refl _)

private theorem gives_waitFor (h : Composes relation) (builder : Builder V) (target source : Key) :
    Gives relation builder (builder.waitFor target source) :=
  ⟨_, rfl, h.link builder.order source target⟩

private theorem gives_waitForAll (h : Composes relation) (builder : Builder V) (target : Key)
    (sources : List Key) : Gives relation builder (sources.foldl (·.waitFor target ·) builder) := by
  induction sources generalizing builder with
  | nil => exact .refl h builder
  | cons source sources ih => exact (gives_waitFor h builder target source).trans h (ih _)

theorem gives_stepTo (h : Composes relation) (builder : Builder V) (key : Key) :
    Gives relation builder (builder.stepTo key) :=
  (gives_waitForAll h builder key builder.predecessors).trans h (gives_advance h _ [key])

private theorem gives_addUnder [BEq V] (h : Composes relation) (builder : Builder V) (key : Key)
    (value : V) : Gives relation builder (builder.addUnder key value).2 := by
  have hregister := h.register builder.order key value
  rw [addUnder]
  split
  · next token order hdone =>
    rw [hdone] at hregister
    have hitem : Gives relation builder
        { builder with order, tokens := builder.tokens ++ [Token.item token] } :=
      ⟨[.item token], rfl, hregister⟩
    exact hitem.trans h (gives_stepTo h _ key)
  · next error order hfailed =>
    rw [hfailed] at hregister
    exact .of_same rfl hregister

private theorem tracks_gives [BEq V] (h : Composes relation) :
    Tracks (fun _ => True) (Gives relation) where
  refl := .refl h
  trans := .trans h
  fresh builder := .of_same rfl (h.fresh builder.order)
  addUnder builder key value _ := gives_addUnder h builder key value
  expect builder key := by
    have hmade : Gives relation builder { builder with order := builder.order.expect key } :=
      .of_same rfl (h.ensure builder.order key)
    exact hmade.trans h (gives_stepTo h _ key)
  nested := by
    rintro builder mode start inner ⟨tokens, htokens, horder⟩
    exact ⟨tokens, by simp [absorb, htokens, nested], horder⟩
  advance := gives_advance h
  note _ := .of_same rfl (h.refl _)

end

end Builder

theorem Composes.runSteps [BEq V] {relation : Order V → List Token → Order V → Prop}
    (h : Composes relation) (order : Order V) (after : List Key) (steps : List (Step V)) :
    relation order ((Builder.startingAfter order after).runSteps steps).2.tokens
      ((Builder.startingAfter order after).runSteps steps).2.order := by
  obtain ⟨tokens, htokens, horder⟩ := (Builder.tracks_gives h).runSteps
    (Builder.startingAfter order after) steps fun _ _ => trivial
  rw [htokens]
  exact horder

/-! ## Edits -/

theorem Composes.edit [BEq V] {relation : Order V → List Token → Order V → Prop}
    (h : Composes relation) (order : Order V) {edit : Edit V}
    (hadds : ∀ token, edit ≠ .unregister token) :
    relation order (edit.given order) (edit.run order).order := by
  cases edit with
  | register source value =>
      rw [Edit.given, Edit.run]
      · cases source.resolve with
        | error error => exact h.refl order
        | ok key =>
            have hregister := h.register order key value
            cases hrun : order.register key value with
            | mk outcome after =>
                rw [hrun] at hregister
                simp only [hrun]
                cases outcome with
                | ok token => exact hregister
                | error error => exact hregister
      · simp
  | registerUnique value => exact h.registerUnique order value
  | link source target =>
      rw [Edit.given, Edit.run]
      · cases source.resolve with
        | error error => exact h.refl order
        | ok sourceKey =>
            cases target.resolve with
            | error error => exact h.refl order
            | ok targetKey => exact h.link order sourceKey targetKey
      · simp
  | expect source =>
      rw [Edit.given, Edit.run]
      · cases source.resolve with
        | error error => exact h.refl order
        | ok key => exact h.ensure order key
      · simp
  | item source links value =>
      rw [Edit.given, Edit.run]
      cases source.resolve with
      | error error => exact h.refl order
      | ok key =>
          have hlinks := h.linkAll order key links
          simp only [registerLinked]
          cases hrun : order.linkAll key links with
          | mk outcome linked =>
              rw [hrun] at hlinks
              cases outcome with
              | error error => exact hlinks
              | ok tokens =>
                  have hboth := h.trans hlinks (h.register linked key value)
                  cases hregister : linked.register key value with
                  | mk outcome after =>
                      rw [hregister] at hboth
                      simp only [hregister]
                      cases outcome with
                      | ok token => exact hboth
                      | error error => exact hboth
  | sequence sources steps =>
      rw [Edit.given, Edit.run]
      · cases sources.mapM KeySource.resolve with
        | error error => exact h.refl order
        | ok after => exact h.runSteps order after steps
      · simp
  | unregister token => exact absurd rfl (hadds token)

/-- Whether an edit adds to an order and hands out tokens for what it adds: it takes nothing back,
and is no value with links whose registration fails. -/
def Edit.AddsTo [BEq V] (order : Order V) : Edit V → Prop
  | .unregister _ => False
  | .item key links value => ((Edit.item key links value).run order).outcome = .ok ()
  | .register .. | .registerUnique _ | .link .. | .expect _ | .sequence .. => True

theorem Edit.given_eq [BEq V] {order : Order V} {edit : Edit V} (hadds : edit.AddsTo order) :
    edit.given order = (edit.run order).tokens := by
  cases edit with
  | item source links value =>
      rw [AddsTo, Edit.run] at hadds
      rw [given, Edit.run]
      cases hkey : source.resolve with
      | error error => rfl
      | ok key =>
          simp only [hkey, registerLinked] at hadds ⊢
          cases hrun : order.linkAll key links with
          | mk outcome linked =>
              cases outcome with
              | error error => simp [hrun, Edited.failed] at hadds
              | ok tokens =>
                  have htokens := linkAll_tokens key links (by rw [hrun])
                  cases hregister : linked.register key value with
                  | mk outcome after =>
                      cases outcome with
                      | error error => simp [hrun, hregister, Except.map, Edited.failed] at hadds
                      | ok token =>
                          simp [hregister, htokens, itemTokens, Except.map, Edited.done]
  | unregister token => exact absurd hadds id
  | register source value => rfl
  | registerUnique value => rfl
  | link source target => rfl
  | expect source => rfl
  | sequence sources steps => rfl

/-! ## Ledgers of calls -/

theorem yields_ensure (order : Order V) (key : Key) : Yields order [] (order.ensure key).2 := by
  intro hregular
  obtain ⟨hafter, hledger, -⟩ := ledger_ensure hregular key
  exact ⟨hafter, hledger⟩

private theorem yields_attach (order : Order V) (key : Key) (value : V) :
    Yields order [.item ⟨(order.ensure key).2.nextItem, key⟩]
      ((order.ensure key).2.addItem (order.ensure key).1 value) := by
  intro hregular
  obtain ⟨-, -, hkey⟩ := ledger_ensure hregular key
  exact ((yields_ensure order key).trans (yields_addItem hkey value)) hregular

private theorem yields_link (order : Order V) (source target : Key) :
    Yields order [.link (order.link source target).1] (order.link source target).2 := by
  intro hregular
  obtain ⟨hmade, hfirst, hsource⟩ := ledger_ensure hregular source
  obtain ⟨hboth, hsecond, htarget⟩ := ledger_ensure hmade target
  obtain ⟨hafter, hlast⟩ :=
    yields_addLink (keyAt?_later hsecond.keys hsource) htarget hboth
  exact ⟨hafter, (hfirst.trans hsecond).trans hlast⟩

theorem composes_yields : Composes (Yields (V := V)) where
  refl := .refl
  trans := .trans
  fresh := yields_freshKey
  ensure := yields_ensure
  attach := yields_attach
  link := yields_link

theorem Builder.yields_runSteps [BEq V] (order : Order V) (after : List Key)
    (steps : List (Step V)) :
    Yields order ((startingAfter order after).runSteps steps).2.tokens
      ((startingAfter order after).runSteps steps).2.order :=
  composes_yields.runSteps order after steps

theorem Edit.yields_run [BEq V] {order : Order V} {edit : Edit V} (hadds : edit.AddsTo order) :
    Yields order (edit.run order).tokens (edit.run order).order := by
  rw [← edit.given_eq hadds]
  refine composes_yields.edit order fun token htoken => ?_
  subst htoken
  exact hadds

end Runbook.Order
