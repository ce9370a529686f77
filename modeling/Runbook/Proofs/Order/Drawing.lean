import Runbook.Proofs.Order.Calls
import Runbook.Proofs.Order.Plot

/-!
# Drawing plots

A sequence that runs without error draws its plot: it reaches the keys that the plot reaches, makes
the links that the plot says, and gives nodes to the keys of the steps.
-/

namespace Runbook

def Key.Plain : Key → Prop
  | .unique _ | .constant _ => True
  | .pre _ | .post _ => False

namespace Order

variable {V : Type}

/-! ## Plots of steps -/

mutual

def Step.Straight : Step V → Prop
  | .add _ | .addKeyed _ _ | .expect _ | .note => True
  | .seq steps => stepsStraight steps
  | .par steps => stepsStraight steps
  | .independently steps => stepsStraight steps
  | .attempt _ => False

def stepsStraight : List (Step V) → Prop
  | [] => True
  | step :: steps => step.Straight ∧ stepsStraight steps

end

def Step.block : Mode → List (Step V) → Step V
  | .sequential, steps => .seq steps
  | .parallel, steps => .par steps

/-- The plot of some steps, where the keys that are generated have the numbers from the first one up to
the last one. -/
inductive Plots : Nat → List (Step V) → Plot → Nat → Prop where
  | done (next : Nat) : Plots next [] .done next
  | add {next value steps rest last} :
      Plots (next + 1) steps rest last →
      Plots next (.add value :: steps) (.step (.unique (.fresh next)) rest) last
  | addKeyed {next source key value steps rest last} :
      source.resolve = .ok key →
      Plots next steps rest last →
      Plots next (.addKeyed source value :: steps) (.step key rest) last
  | expect {next source key steps rest last} :
      source.resolve = .ok key →
      Plots next steps rest last →
      Plots next (.expect source :: steps) (.step key rest) last
  | block (mode : Mode) {next inner body middle steps rest last} :
      Plots next inner body middle →
      Plots middle steps rest last →
      Plots next (.block mode inner :: steps) (.block mode body rest) last
  | independently {next inner body middle steps rest last} :
      Plots next inner body middle →
      Plots middle steps rest last →
      Plots next (.independently inner :: steps) (.detached body rest) last
  | note {next steps plot last} :
      Plots next steps plot last →
      Plots next (.note :: steps) plot last

/-! ## Runs without error -/

namespace Builder

def bare (builder : Builder V) : Builder V :=
  { builder with order := .empty, tokens := [], notes := [] }

theorem bare_predecessors (builder : Builder V) : builder.bare.predecessors = builder.predecessors :=
  rfl

theorem bare_ends (builder : Builder V) : builder.bare.ends = builder.ends := rfl

theorem advance_bare (builder : Builder V) (keys : List Key) :
    (builder.advance keys).bare = builder.bare.advance keys := by
  rw [advance, advance]
  cases hmode : builder.mode <;> simp [bare, hmode]

end Builder

def linkPairs (tokens : List Token) : List (Key × Key) :=
  tokens.filterMap fun
    | .item _ => none
    | .link token => some (token.source, token.target)

theorem linkPairs_append (first second : List Token) :
    linkPairs (first ++ second) = linkPairs first ++ linkPairs second := List.filterMap_append

theorem nextUnique_ensure (order : Order V) (key : Key) :
    (order.ensure key).2.nextUnique = order.nextUnique :=
  @ensure_keeps V (fun made => made.nextUnique = order.nextUnique) (fun _ hkept => hkept)
    (fun _ _ hkept => hkept) order rfl key

private theorem nextUnique_link (order : Order V) (source target : Key) :
    (order.link source target).2.nextUnique = order.nextUnique := by
  rw [link_eq]
  exact (nextUnique_ensure _ target).trans (nextUnique_ensure order source)

private theorem nextUnique_register [BEq V] (order : Order V) (key : Key) (value : V) :
    (order.register key value).2.nextUnique = order.nextUnique := by
  rw [register_eq]
  split <;> exact nextUnique_ensure order key

theorem ensure_of_mem {order : Order V} {key : Key} (hkey : key ∈ order.keys) :
    (order.ensure key).2 = order := by
  obtain ⟨place, hplace⟩ := (mem_keys_iff_place? order key).mp hkey
  rw [ensure_of_place? hplace]

theorem keys_ensure (order : Order V) {key : Key} (hplain : key.Plain) :
    (order.ensure key).2.keys = appendNew order.keys [key] := by
  rw [appendNew_cons]
  cases hplace : order.place? key with
  | some place =>
      rw [ensure_of_place? hplace, if_pos ((mem_keys_iff_place? order key).mpr ⟨place, hplace⟩)]
      rfl
  | none =>
      rw [if_neg ((place?_eq_none_iff order key).mp hplace)]
      cases key with
      | unique id => rw [ensure_unique hplace, keys_addNode]; rfl
      | constant name => rw [ensure_constant hplace, keys_addNode]; rfl
      | pre base => exact hplain.elim
      | post base => exact hplain.elim

private theorem keys_link {order : Order V} {source target : Key} (hsource : source ∈ order.keys)
    (htarget : target ∈ order.keys) : (order.link source target).2.keys = order.keys := by
  rw [link_eq, keys_addLink, ensure_of_mem hsource, ensure_of_mem htarget]

private theorem keys_register [BEq V] (order : Order V) (key : Key) (value : V) :
    (order.register key value).2.keys = (order.ensure key).2.keys := by
  rw [register_eq]
  split
  · rfl
  · exact keys_addItem _ _ _

/-! ## Runs of plots -/

namespace Builder

structure Visits (builder : Builder V) (key : Key) (made : Builder V) : Prop where
  bare : made.bare = builder.bare
  links : linkPairs made.tokens = linkPairs builder.tokens
  keys : key.Plain → made.order.keys = appendNew builder.order.keys [key]

private theorem visits_expect (builder : Builder V) (key : Key) :
    builder.Visits key { builder with order := builder.order.expect key } where
  bare := rfl
  links := rfl
  keys := keys_ensure builder.order

theorem visits_addUnder [BEq V] {builder : Builder V} {key : Key} {value : V}
    (hdone : (builder.addUnder key value).1 = .ok ()) :
    ∃ made, builder.Visits key made ∧ made.order.nextUnique = builder.order.nextUnique ∧
      (builder.addUnder key value).2 = made.stepTo key := by
  rw [addUnder] at hdone ⊢
  cases hregister : builder.order.register key value with
  | mk outcome order =>
      have hnext := nextUnique_register builder.order key value
      have hkeys := keys_register builder.order key value
      rw [hregister] at hnext hkeys
      cases outcome with
      | error error => simp [hregister] at hdone
      | ok token =>
          refine ⟨{ builder with order, tokens := builder.tokens ++ [Token.item token] }, ?_,
            hnext, rfl⟩
          exact ⟨rfl, by simp [linkPairs], fun hplain =>
            hkeys.trans (keys_ensure builder.order hplain)⟩

theorem waitForAll_spec (builder : Builder V) (target : Key) (sources : List Key) :
    (sources.foldl (·.waitFor target ·) builder).bare = builder.bare ∧
      (sources.foldl (·.waitFor target ·) builder).order.nextUnique = builder.order.nextUnique ∧
      linkPairs (sources.foldl (·.waitFor target ·) builder).tokens =
        linkPairs builder.tokens ++ sources.map (·, target) := by
  induction sources generalizing builder with
  | nil => exact ⟨rfl, rfl, by simp⟩
  | cons source sources ih =>
      obtain ⟨hbare, hnext, hpairs⟩ := ih (builder.waitFor target source)
      refine ⟨hbare, hnext.trans (nextUnique_link builder.order source target), ?_⟩
      rw [List.foldl_cons, hpairs, waitFor, linkPairs_append, List.append_assoc]
      rfl

theorem nextUnique_stepTo (builder : Builder V) (key : Key) :
    (builder.stepTo key).order.nextUnique = builder.order.nextUnique := by
  rw [stepTo, advance_order]
  exact (waitForAll_spec builder key builder.predecessors).2.1

/-- The runs of a plot from a builder to what it becomes, part by part. -/
inductive Runs : Plot → Builder V → Builder V → Prop where
  | done (builder : Builder V) : Runs .done builder builder
  | step {key rest builder made final} :
      Visits builder key made →
      Runs rest (made.stepTo key) final →
      Runs (.step key rest) builder final
  | block {mode body rest builder inner final} :
      Runs body (builder.nested mode builder.predecessors) inner →
      Runs rest ((builder.absorb inner).advance inner.ends) final →
      Runs (.block mode body rest) builder final
  | detached {body rest builder inner final} :
      Runs body (builder.nested .sequential []) inner →
      Runs rest (builder.absorb inner) final →
      Runs (.detached body rest) builder final
  | note {plot builder final} :
      Runs plot { builder with notes := builder.notes ++ [builder.ends] } final →
      Runs plot builder final

section

variable [BEq V]

theorem runSteps_cons_ok {builder : Builder V} {step : Step V} {steps : List (Step V)}
    (hdone : (builder.runSteps (step :: steps)).1 = .ok ()) :
    (builder.runStep step).1 = .ok () ∧
      ((builder.runStep step).2.runSteps steps).1 = .ok () ∧
      (builder.runSteps (step :: steps)).2 = ((builder.runStep step).2.runSteps steps).2 := by
  rw [runSteps] at hdone ⊢
  cases hrun : builder.runStep step with
  | mk outcome next =>
      cases outcome with
      | error error => simp [hrun] at hdone
      | ok _ => simpa [hrun] using hdone

theorem runStep_block_ok (mode : Mode) {builder : Builder V} {steps : List (Step V)}
    (hdone : (builder.runStep (.block mode steps)).1 = .ok ()) :
    ∃ inner, (builder.nested mode builder.predecessors).runSteps steps = (.ok (), inner) ∧
      (builder.runStep (.block mode steps)).2 = (builder.absorb inner).advance inner.ends := by
  cases hrun : (builder.nested mode builder.predecessors).runSteps steps with
  | mk outcome inner =>
      cases outcome with
      | error error => cases mode <;> simp [Step.block, runStep, hrun] at hdone
      | ok _ => exact ⟨inner, rfl, by cases mode <;> simp [Step.block, runStep, hrun]⟩

theorem runStep_independently_ok {builder : Builder V} {steps : List (Step V)}
    (hdone : (builder.runStep (.independently steps)).1 = .ok ()) :
    ∃ inner, (builder.nested .sequential []).runSteps steps = (.ok (), inner) ∧
      (builder.runStep (.independently steps)).2 = builder.absorb inner := by
  rw [runStep] at hdone ⊢
  cases hrun : (builder.nested .sequential []).runSteps steps with
  | mk outcome inner =>
      rw [hrun] at hdone
      cases hdone
      exact ⟨inner, rfl, rfl⟩

theorem runs_of_plots {next last : Nat} {steps : List (Step V)} {plot : Plot}
    (hplots : Plots next steps plot last) {builder : Builder V}
    (hnext : builder.order.nextUnique = next) (hdone : (builder.runSteps steps).1 = .ok ()) :
    (builder.runSteps steps).2.order.nextUnique = last ∧
      Runs plot builder (builder.runSteps steps).2 := by
  induction hplots generalizing builder with
  | done next =>
      rw [runSteps]
      exact ⟨hnext, .done builder⟩
  | @add next value steps rest last _ ih =>
      obtain ⟨hstep, hrest, hfinal⟩ := runSteps_cons_ok hdone
      simp only [runStep, freshKey, hnext] at hstep hrest hfinal
      obtain ⟨made, hmade, hsame, hvisited⟩ := visits_addUnder hstep
      rw [hvisited] at hrest hfinal
      rw [hfinal]
      obtain ⟨hlast, hruns⟩ := ih ((nextUnique_stepTo made _).trans hsame) hrest
      exact ⟨hlast, .step ⟨hmade.bare, hmade.links, hmade.keys⟩ hruns⟩
  | addKeyed hkey _ ih =>
      obtain ⟨hstep, hrest, hfinal⟩ := runSteps_cons_ok hdone
      simp only [runStep, hkey] at hstep hrest hfinal
      obtain ⟨made, hmade, hsame, hvisited⟩ := visits_addUnder hstep
      rw [hvisited] at hrest hfinal
      rw [hfinal]
      obtain ⟨hlast, hruns⟩ :=
        ih ((nextUnique_stepTo made _).trans (hsame.trans hnext)) hrest
      exact ⟨hlast, .step hmade hruns⟩
  | @expect next source key steps rest last hkey _ ih =>
      obtain ⟨-, hrest, hfinal⟩ := runSteps_cons_ok hdone
      simp only [runStep, hkey] at hrest hfinal
      rw [hfinal]
      have hsame := nextUnique_ensure builder.order key
      obtain ⟨hlast, hruns⟩ := ih ((nextUnique_stepTo _ key).trans (hsame.trans hnext)) hrest
      exact ⟨hlast, .step (visits_expect builder key) hruns⟩
  | block mode _ _ ihBody ihRest =>
      obtain ⟨hstep, hrest, hfinal⟩ := runSteps_cons_ok hdone
      obtain ⟨inner, hinner, hstep⟩ := runStep_block_ok mode hstep
      rw [hstep] at hrest hfinal
      rw [hfinal]
      obtain ⟨hmiddle, hbody⟩ := ihBody
        (show (builder.nested mode builder.predecessors).order.nextUnique = _ from hnext)
        (by rw [hinner])
      rw [hinner] at hmiddle hbody
      obtain ⟨hlast, hruns⟩ := ihRest (by simpa using hmiddle) hrest
      exact ⟨hlast, .block hbody hruns⟩
  | independently _ _ ihBody ihRest =>
      obtain ⟨hstep, hrest, hfinal⟩ := runSteps_cons_ok hdone
      obtain ⟨inner, hinner, hstep⟩ := runStep_independently_ok hstep
      rw [hstep] at hrest hfinal
      rw [hfinal]
      obtain ⟨hmiddle, hbody⟩ := ihBody
        (show (builder.nested .sequential []).order.nextUnique = _ from hnext) (by rw [hinner])
      rw [hinner] at hmiddle hbody
      obtain ⟨hlast, hruns⟩ := ihRest (by simpa using hmiddle) hrest
      exact ⟨hlast, .detached hbody hruns⟩
  | note _ ih =>
      obtain ⟨-, hrest, hfinal⟩ := runSteps_cons_ok hdone
      simp only [runStep] at hrest hfinal
      rw [hfinal]
      obtain ⟨hlast, hruns⟩ := ih
        (show { builder with notes := builder.notes ++ [builder.ends] }.order.nextUnique = _
          from hnext) hrest
      exact ⟨hlast, .note hruns⟩

theorem exists_plot (steps : List (Step V)) (hstraight : stepsStraight steps)
    {builder : Builder V} (hdone : (builder.runSteps steps).1 = .ok ()) (next : Nat) :
    ∃ plot last, Plots next steps plot last := by
  match steps with
  | [] => exact ⟨_, _, .done next⟩
  | step :: steps =>
      obtain ⟨hstep, hrest, -⟩ := runSteps_cons_ok hdone
      obtain ⟨hhead, htail⟩ := hstraight
      have hnext := exists_plot steps htail hrest
      cases step with
      | add value =>
          obtain ⟨plot, last, hplots⟩ := hnext (next + 1)
          exact ⟨_, _, .add hplots⟩
      | addKeyed source value =>
          obtain ⟨plot, last, hplots⟩ := hnext next
          cases hkey : source.resolve with
          | error error => simp [runStep, hkey] at hstep
          | ok key => exact ⟨_, _, .addKeyed hkey hplots⟩
      | expect source =>
          obtain ⟨plot, last, hplots⟩ := hnext next
          cases hkey : source.resolve with
          | error error => simp [runStep, hkey] at hstep
          | ok key => exact ⟨_, _, .expect hkey hplots⟩
      | seq inner =>
          obtain ⟨made, hinner, -⟩ := runStep_block_ok .sequential hstep
          obtain ⟨body, middle, hbody⟩ := exists_plot inner hhead (by rw [hinner]) next
          obtain ⟨plot, last, hplots⟩ := hnext middle
          exact ⟨_, _, .block .sequential hbody hplots⟩
      | par inner =>
          obtain ⟨made, hinner, -⟩ := runStep_block_ok .parallel hstep
          obtain ⟨body, middle, hbody⟩ := exists_plot inner hhead (by rw [hinner]) next
          obtain ⟨plot, last, hplots⟩ := hnext middle
          exact ⟨_, _, .block .parallel hbody hplots⟩
      | independently inner =>
          obtain ⟨made, hinner, -⟩ := runStep_independently_ok hstep
          obtain ⟨body, middle, hbody⟩ := exists_plot inner hhead (by rw [hinner]) next
          obtain ⟨plot, last, hplots⟩ := hnext middle
          exact ⟨_, _, .independently hbody hplots⟩
      | attempt step => exact hhead.elim
      | note =>
          obtain ⟨plot, last, hplots⟩ := hnext next
          exact ⟨_, _, .note hplots⟩

end

/-! ## What a run leaves behind -/

section

variable {plot : Plot} {builder final : Builder V}

theorem stepTo_bare (builder : Builder V) (key : Key) :
    (builder.stepTo key).bare = builder.bare.advance [key] := by
  rw [stepTo, advance_bare, (waitForAll_spec builder key builder.predecessors).1]

theorem linkPairs_advance (builder : Builder V) (keys : List Key) :
    linkPairs (builder.advance keys).tokens = linkPairs builder.tokens := by
  rw [advance]
  split <;> rfl

private theorem linkPairs_stepTo (builder : Builder V) (key : Key) :
    linkPairs (builder.stepTo key).tokens =
      linkPairs builder.tokens ++ builder.predecessors.map (·, key) := by
  rw [stepTo, linkPairs_advance, (waitForAll_spec builder key builder.predecessors).2.2]

theorem ends_of_bare {mode : Mode} {body : Plot} {inner : Builder V}
    (h : inner.bare = body.after (builder.nested mode builder.predecessors).bare) :
    inner.ends = (body.after (builder.bare.nested mode builder.bare.predecessors)).ends := by
  rw [← bare_ends, h]
  rfl

theorem Runs.bare (h : Runs plot builder final) : final.bare = plot.after builder.bare := by
  induction h with
  | done builder => rfl
  | @step key rest builder made final hmade _ ih =>
      rw [ih, stepTo_bare, hmade.bare]
      rfl
  | @block mode body rest builder inner final _ _ ihBody ihRest =>
      rw [ihRest, advance_bare, ends_of_bare ihBody]
      rfl
  | detached _ _ _ ihRest => exact ihRest
  | note _ ih => exact ih

theorem Runs.links (h : Runs plot builder final) :
    linkPairs final.tokens = linkPairs builder.tokens ++ plot.links builder.bare := by
  induction h with
  | done builder => simp [Plot.links]
  | @step key rest builder made final hmade _ ih =>
      have hwaits : made.predecessors = builder.bare.predecessors := by
        rw [← bare_predecessors, hmade.bare]
      rw [ih, linkPairs_stepTo, stepTo_bare, hmade.bare, hmade.links, hwaits, List.append_assoc]
      rfl
  | @block mode body rest builder inner final hbody _ ihBody ihRest =>
      have hinner : linkPairs (builder.absorb inner).tokens = linkPairs builder.tokens ++
          body.links (builder.bare.nested mode builder.bare.predecessors) := by
        rw [absorb, linkPairs_append, ihBody]
        rfl
      rw [ihRest, linkPairs_advance, hinner, advance_bare, ends_of_bare hbody.bare,
        List.append_assoc]
      rfl
  | @detached body rest builder inner final _ _ ihBody ihRest =>
      have hinner : linkPairs (builder.absorb inner).tokens = linkPairs builder.tokens ++
          body.links (builder.bare.nested .sequential []) := by
        rw [absorb, linkPairs_append, ihBody]
        rfl
      rw [ihRest, hinner, List.append_assoc]
      rfl
  | note _ ih => exact ih

def Knows (builder : Builder V) : Prop :=
  ∀ key, key ∈ builder.predecessors ∨ key ∈ builder.ends → key ∈ builder.order.keys

theorem Knows.of_bare (h : builder.Knows) {other : Builder V} (hbare : other.bare = builder.bare)
    (hkeys : builder.order.keys ⊆ other.order.keys) : other.Knows := by
  intro key hkey
  rw [← bare_predecessors, ← bare_ends, hbare] at hkey
  exact hkeys (h key hkey)

theorem Knows.absorb (h : builder.Knows) {inner : Builder V}
    (hkeys : builder.order.keys ⊆ inner.order.keys) : (builder.absorb inner).Knows :=
  h.of_bare rfl (by rwa [absorb_order])

theorem knows_nested (mode : Mode) {start : List Key} (hstart : start ⊆ builder.order.keys) :
    (builder.nested mode start).Knows := by
  intro key hkey
  rw [nested_predecessors, nested_ends, or_self] at hkey
  exact hstart hkey

theorem Knows.advance (h : builder.Knows) {keys : List Key} (hkeys : keys ⊆ builder.order.keys) :
    (builder.advance keys).Knows := by
  intro key hkey
  rw [advance_order]
  rcases hkey with hwaits | hends
  · rw [predecessors_advance] at hwaits
    split at hwaits
    · exact hkeys hwaits
    · exact h key (.inl hwaits)
  · rcases builder.mem_ends_advance hends with hends | hmem
    · exact h key (.inr hends)
    · exact hkeys hmem

private theorem keys_waitForAll {target : Key} {sources : List Key}
    (htarget : target ∈ builder.order.keys)
    (hsources : sources ⊆ builder.order.keys) :
    (sources.foldl (·.waitFor target ·) builder).order.keys = builder.order.keys := by
  induction sources generalizing builder with
  | nil => rfl
  | cons source sources ih =>
      obtain ⟨hsource, hsources⟩ := List.cons_subset.mp hsources
      have hlink : (builder.waitFor target source).order.keys = builder.order.keys :=
        keys_link hsource htarget
      rw [List.foldl_cons, ih (hlink ▸ htarget) (hlink ▸ hsources), hlink]

theorem Knows.stepTo (h : builder.Knows) {key : Key} (hkey : key ∈ builder.order.keys) :
    (builder.stepTo key).Knows ∧ (builder.stepTo key).order.keys = builder.order.keys := by
  have hkeys := keys_waitForAll hkey fun source hsource => h source (.inl hsource)
  rw [Builder.stepTo, advance_order]
  refine ⟨Knows.advance ?_ ?_, hkeys⟩
  · exact h.of_bare (waitForAll_spec builder key builder.predecessors).1 (by rw [hkeys]; simp)
  · simpa [hkeys] using hkey

theorem Runs.keys (h : Runs plot builder final) (hknows : builder.Knows)
    (hplain : ∀ key ∈ plot.keys, key.Plain) :
    final.Knows ∧ final.order.keys = appendNew builder.order.keys plot.keys := by
  induction h with
  | done builder => exact ⟨hknows, rfl⟩
  | @step key rest builder made final hmade _ ih =>
      obtain ⟨hkey, hplain⟩ := List.forall_mem_cons.mp hplain
      have hkeys := hmade.keys hkey
      have hmadeKnows : made.Knows :=
        hknows.of_bare hmade.bare (by rw [hkeys]; exact subset_appendNew _ _)
      have hmem : key ∈ made.order.keys := by
        rw [hkeys]
        exact (mem_appendNew _ _).mpr (.inr List.mem_cons_self)
      obtain ⟨hstep, hstepKeys⟩ := hmadeKnows.stepTo hmem
      obtain ⟨hfinal, hfinalKeys⟩ := ih hstep hplain
      refine ⟨hfinal, ?_⟩
      rw [hfinalKeys, hstepKeys, hkeys, ← appendNew_append]
      rfl
  | @block mode body rest builder inner final _ _ ihBody ihRest =>
      obtain ⟨hbody, hrest⟩ := List.forall_mem_append.mp hplain
      have hstart : builder.predecessors ⊆ builder.order.keys :=
        fun source hsource => hknows source (.inl hsource)
      obtain ⟨hinner, hinnerKeys⟩ := ihBody (knows_nested mode hstart) hbody
      have habsorbed : (builder.absorb inner).Knows :=
        hknows.absorb (by rw [hinnerKeys]; exact subset_appendNew _ _)
      obtain ⟨hfinal, hfinalKeys⟩ :=
        ihRest (habsorbed.advance fun key hkey => hinner key (.inr hkey)) hrest
      refine ⟨hfinal, ?_⟩
      rw [hfinalKeys, advance_order, absorb_order, hinnerKeys, nested_order, ← appendNew_append]
      rfl
  | @detached body rest builder inner final _ _ ihBody ihRest =>
      obtain ⟨hbody, hrest⟩ := List.forall_mem_append.mp hplain
      obtain ⟨-, hinnerKeys⟩ := ihBody (knows_nested .sequential (List.nil_subset _)) hbody
      have habsorbed : (builder.absorb inner).Knows :=
        hknows.absorb (by rw [hinnerKeys]; exact subset_appendNew _ _)
      obtain ⟨hfinal, hfinalKeys⟩ := ihRest habsorbed hrest
      refine ⟨hfinal, ?_⟩
      rw [hfinalKeys, absorb_order, hinnerKeys, nested_order, ← appendNew_append]
      rfl
  | note _ ih => exact ih hknows hplain

end

end Builder

end Order

end Runbook
