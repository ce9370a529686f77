import Runbook.Proofs.Order.Drawing

/-!
# Order from sequences

A sequence that runs without error orders what it says it orders: between the keys of its steps there
is a path for each series of its plot.  Where the steps have new keys of their own, there are no other
paths, and the old keys are ordered as before.
-/

namespace Runbook.Order

open Relation

variable {V : Type}

/-! ## Links between keys -/

section

variable {before after : Order V} {tokens : List Token} {source target : Key}

theorem Ledger.mem_dependencies_of_token (h : Ledger before tokens after) (hafter : after.WellFormed)
    (hpair : (source, target) ∈ linkPairs tokens) : source ∈ after.dependencies target := by
  obtain ⟨token, htoken, hpair⟩ := List.mem_filterMap.mp hpair
  cases token with
  | item token => cases hpair
  | link token =>
      cases hpair
      obtain ⟨link, hlink, -, hsource, htarget⟩ := h.inForce _ htoken
      exact hafter.mem_dependencies.mpr
        ⟨link.source, link.target, hsource, htarget, link, hlink, rfl, rfl⟩

theorem Ledger.mem_dependencies_of_old (h : Ledger before tokens after) (hbefore : before.WellFormed)
    (hafter : after.WellFormed) (hsource : source ∈ before.dependencies target) :
    source ∈ after.dependencies target := by
  obtain ⟨first, second, hfirst, hsecond, link, hlink, rfl, rfl⟩ :=
    hbefore.mem_dependencies.mp hsource
  exact hafter.mem_dependencies.mpr ⟨link.source, link.target, keyAt?_later h.keys hfirst,
    keyAt?_later h.keys hsecond, link, (h.mem_links hlink).1, rfl, rfl⟩

theorem Ledger.not_automatic (h : Ledger before tokens after) (hafter : after.WellFormed)
    (hplain : ∀ key ∈ after.keys, key ∈ before.keys ∨ key.Plain) (link : Link) :
    ¬ Automatic before after link := by
  have hold : ∀ {place key}, after.keyAt? place = some key → ¬ key.Plain →
      place < before.nodeCount := by
    intro place key hkey hnot
    obtain ⟨known, hknown⟩ := (mem_keys_iff_place? before key).mp
      ((hplain key (mem_keys_of_keyAt? hkey)).resolve_right hnot)
    have hsame := hafter.place_unique hkey (keyAt?_later h.keys (keyAt?_place? hknown))
    rw [hsame]
    exact place?_lt hknown
  rintro (⟨base, hsource, -, hnew⟩ | ⟨base, -, htarget, hnew⟩)
  · exact absurd (hold hsource id) (Nat.not_lt.mpr hnew)
  · exact absurd (hold htarget id) (Nat.not_lt.mpr hnew)

theorem Ledger.dependencies_cases (h : Ledger before tokens after) (hbefore : before.WellFormed)
    (hafter : after.Regular) (hplain : ∀ key ∈ after.keys, key ∈ before.keys ∨ key.Plain)
    (hsource : source ∈ after.dependencies target) :
    source ∈ before.dependencies target ∨ (source, target) ∈ linkPairs tokens := by
  obtain ⟨first, second, hfirst, hsecond, link, hlink, rfl, rfl⟩ :=
    hafter.wellFormed.mem_dependencies.mp hsource
  by_cases hid : link.id ∈ linkIds tokens
  · obtain ⟨token, htoken, hid⟩ := mem_linkIds.mp hid
    obtain ⟨other, hother, hsame, hsource, htarget⟩ := h.inForce _ htoken
    obtain rfl := hafter.numbered.link_unique other hother link hlink (hsame.trans hid)
    rw [hfirst, Option.some.injEq] at hsource
    rw [hsecond, Option.some.injEq] at htarget
    exact .inr (List.mem_filterMap.mpr ⟨_, htoken, by rw [hsource, htarget]⟩)
  · obtain ⟨automatic, heq, hall⟩ := h.links
    have hmem : link ∈ before.links.toList ++ automatic := by
      rw [← heq, List.mem_filter]
      exact ⟨Array.mem_toList_iff.mpr hlink, by simpa using hid⟩
    rcases List.mem_append.mp hmem with hold | hnew
    · have hold := Array.mem_toList_iff.mp hold
      obtain ⟨hsource, htarget⟩ := hbefore.link_bounds link hold
      exact .inl (hbefore.mem_dependencies.mpr ⟨link.source, link.target,
        (h.keyAt?_old hsource).symm.trans hfirst, (h.keyAt?_old htarget).symm.trans hsecond,
        link, hold, rfl, rfl⟩)
    · exact absurd (hall link hnew) (h.not_automatic hafter.wellFormed hplain link)

end

/-! ## Series are kept -/

section

variable [BEq V] {order : Order V} {start : List Key} {steps : List (Step V)} {plot : Plot}
  {last : Nat}

theorem run_of_plots (hreachable : Reachable order) (hplots : Plots order.nextUnique steps plot last)
    (hdone : ((Builder.startingAfter order start).runSteps steps).1 = .ok ()) :
    ∃ final, ((Builder.startingAfter order start).runSteps steps).2 = final ∧
      Builder.Runs plot (Builder.startingAfter order start) final ∧ final.order.Regular ∧
      Ledger order final.tokens final.order ∧
      linkPairs final.tokens = plot.links (Builder.startingAfter order start).bare := by
  obtain ⟨hregular, hledger⟩ :=
    Builder.yields_runSteps order start steps hreachable.regular
  obtain ⟨-, hruns⟩ := Builder.runs_of_plots hplots rfl hdone
  exact ⟨_, rfl, hruns, hregular, hledger, hruns.links⟩

omit [BEq V] in
theorem Ledger.draws {final : Builder V} (hledger : Ledger order final.tokens final.order)
    (hfinal : final.order.WellFormed)
    (hpairs : linkPairs final.tokens = plot.links (Builder.startingAfter order start).bare) :
    final.order.Draws plot (Builder.startingAfter order start).bare := by
  rintro ⟨source, target⟩ hlink
  exact hledger.mem_dependencies_of_token hfinal (hpairs ▸ hlink)

/-- A sequence orders what it says it orders.  Each one that runs without error has a plot, and where
two of its steps come in series, a path of links leads from the key of the first to that of the
second, so the linear list has the values under the first key before those under the second. -/
theorem Reachable.keeps_series (hreachable : Reachable order) (start : List Key)
    (hstraight : stepsStraight steps)
    (hdone : ((Builder.startingAfter order start).runSteps steps).1 = .ok ()) :
    (∃ plot last, Plots order.nextUnique steps plot last) ∧
    ∀ plot last, Plots order.nextUnique steps plot last →
      ∀ first second, plot.Series .sequential first second →
        ((Builder.startingAfter order start).runSteps steps).2.order.ComesBefore first second ∧
        ((Builder.startingAfter order start).runSteps steps).2.order.ListsBefore first second := by
  refine ⟨Builder.exists_plot steps hstraight hdone order.nextUnique, ?_⟩
  intro plot last hplots first second hseries
  obtain ⟨final, hfinal, -, hregular, hledger, hpairs⟩ := run_of_plots hreachable hplots hdone
  have hpath := (hledger.draws hregular.wellFormed hpairs).comesBefore_series hseries
  rw [hfinal]
  exact ⟨hpath, hregular.wellFormed.listsBefore hpath⟩

omit [BEq V] in
theorem series_kept_through_blocks :
    ∃ steps : List (Step Nat), stepsStraight steps ∧
      ((Builder.startingAfter .empty []).runSteps steps).1 = .ok () ∧
      ((Builder.startingAfter .empty []).runSteps steps).2.order.ComesBefore
        (.unique (.fresh 0)) (.post (.constant "c")) ∧
      ((Builder.startingAfter .empty []).runSteps steps).2.order.ListsBefore
        (.unique (.fresh 0)) (.post (.constant "c")) ∧
      ((Builder.startingAfter .empty []).runSteps steps).2.order.toLinearList.1 =
        .ok [1, 2, 8, 3, 4, 5] := by
  let steps : List (Step Nat) :=
    [.addKeyed (.key (.constant "a")) 1,
      .par [.seq [.add 2, .independently [.addKeyed (.key (.constant "x")) 8],
          .addKeyed (.key (.constant "b")) 3],
        .addKeyed (.key (.constant "c")) 4],
      .addKeyed (.post (.key (.constant "c"))) 5]
  have hstraight : stepsStraight steps := by simp [steps, stepsStraight, Step.Straight]
  have hdone : ((Builder.startingAfter .empty []).runSteps steps).1 = .ok () := by cbv
  let plot : Plot :=
    .step (.constant "a") (.block .parallel
      (.block .sequential
        (.step (.unique (.fresh 0)) (.detached (.step (.constant "x") .done)
          (.step (.constant "b") .done)))
        (.step (.constant "c") .done))
      (.step (.post (.constant "c")) .done))
  have hplots : Plots 0 steps plot 1 :=
    .addKeyed rfl (.block .parallel
      (.block .sequential
        (.add (.independently (.addKeyed rfl (.done _)) (.addKeyed rfl (.done _))))
        (.addKeyed rfl (.done _)))
      (.addKeyed rfl (.done _)))
  have hseries : plot.Series .sequential (.unique (.fresh 0)) (.post (.constant "c")) :=
    .inr (.inl ⟨rfl, by simp [Plot.exposed], by simp [Plot.exposed]⟩)
  obtain ⟨hpath, hlists⟩ :=
    (Reachable.empty.keeps_series [] hstraight hdone).2 plot 1 hplots _ _ hseries
  exact ⟨steps, hstraight, hdone, hpath, hlists, by cbv⟩

end

/-! ## Nothing but series is added -/

/-- What a sequence with keys of its own makes of an order: its steps are ordered by the series of its
plot, those that are not detached come after the given keys and all that these need, and the old keys
are ordered as before. -/
structure OrdersOnly (before after : Order V) (start : List Key) (plot : Plot) : Prop where
  acyclic : after.Acyclic
  steps : ∀ first ∈ plot.keys, ∀ second ∈ plot.keys,
    (after.ComesBefore first second ↔ plot.Series .sequential first second)
  waits : ∀ old ∈ before.keys, ∀ key ∈ plot.keys,
    (after.ComesBefore old key ↔ before.Needs start old ∧ key ∈ plot.exposed)
  apart : ∀ key ∈ plot.keys, ∀ old ∈ before.keys, ¬ after.ComesBefore key old
  kept : ∀ first ∈ before.keys, ∀ second ∈ before.keys,
    (after.ComesBefore first second ↔ before.ComesBefore first second)

section

variable {before after : Order V} {start : List Key} {plot : Plot}

theorem WellFormed.mem_keys_of_comesBefore (hwell : before.WellFormed) {first second : Key}
    (hpath : before.ComesBefore first second) : first ∈ before.keys ∧ second ∈ before.keys := by
  obtain ⟨source, target, hsource, htarget, -⟩ := hwell.comesBefore_iff.mp hpath
  exact ⟨mem_keys_of_keyAt? hsource, mem_keys_of_keyAt? htarget⟩

theorem mem_keys_of_needs (hstart : start ⊆ before.keys) {key : Key} (h : before.Needs start key) :
    key ∈ before.keys := by
  obtain ⟨target, htarget, hpath⟩ := h
  have hclosed : before.Closed (· ∈ before.keys) :=
    fun _ _ dependency hdependency => mem_keys_of_dependency hdependency
  exact hclosed.of_leadsTo hpath (hstart htarget)

private theorem comesBefore_cases (hwell : before.WellFormed) (hstart : start ⊆ before.keys)
    (hnodup : plot.keys.Nodup) (hnew : ∀ key ∈ plot.keys, key ∉ before.keys)
    (hlinks : ∀ source target, source ∈ after.dependencies target →
      source ∈ before.dependencies target ∨ plot.Series .sequential source target ∨
        (source ∈ start ∧ target ∈ plot.exposed))
    {first second : Key} (hpath : after.ComesBefore first second) :
    before.ComesBefore first second ∨ plot.Series .sequential first second ∨
      (before.Needs start first ∧ second ∈ plot.exposed) := by
  -- No link leads back from a step to an old key, so a path among the steps goes on as a series.
  induction hpath with
  | single hstep =>
      rcases hlinks _ _ hstep with hold | hseries | ⟨hwaits, hexposed⟩
      · exact .inl (.single hold)
      · exact .inr (.inl hseries)
      · exact .inr (.inr ⟨needs_of_mem hwaits, hexposed⟩)
  | @tail middle target _ hstep ih =>
      rcases ih with hold | hseries | ⟨hneeds, hexposed⟩
      · have hmiddle := (hwell.mem_keys_of_comesBefore hold).2
        rcases hlinks _ _ hstep with hlast | hlast | ⟨hwaits, htarget⟩
        · exact .inl (.tail hold hlast)
        · exact absurd hmiddle (hnew middle hlast.mem_keys.1)
        · exact .inr (.inr ⟨⟨middle, hwaits, hold.to_reflTransGen⟩, htarget⟩)
      · have hmiddle := hnew middle hseries.mem_keys.2
        rcases hlinks _ _ hstep with hlast | hlast | ⟨hwaits, -⟩
        · exact absurd (mem_keys_of_dependency hlast) hmiddle
        · exact .inr (.inl (hseries.trans hnodup hlast))
        · exact absurd (hstart hwaits) hmiddle
      · have hmiddle := hnew middle (plot.exposed_subset hexposed)
        rcases hlinks _ _ hstep with hlast | hlast | ⟨hwaits, -⟩
        · exact absurd (mem_keys_of_dependency hlast) hmiddle
        · exact .inr (.inr ⟨hneeds, (hlast.exposed_iff hnodup).mp hexposed⟩)
        · exact absurd (hstart hwaits) hmiddle

theorem Ledger.leadsTo {tokens : List Token} (h : Ledger before tokens after)
    (hbefore : before.WellFormed) (hafter : after.WellFormed) {first second : Key}
    (hpath : before.LeadsTo first second) : after.LeadsTo first second :=
  ReflTransGen.mono (fun _ _ hstep => h.mem_dependencies_of_old hbefore hafter hstep) _ _ hpath

theorem Ledger.comesBefore {tokens : List Token} (h : Ledger before tokens after)
    (hbefore : before.WellFormed) (hafter : after.WellFormed) {first second : Key}
    (hpath : before.ComesBefore first second) : after.ComesBefore first second :=
  TransGen.mono (fun _ _ hstep => h.mem_dependencies_of_old hbefore hafter hstep) _ _ hpath

private theorem ordersOnly_of_links {tokens : List Token} (hbefore : before.WellFormed)
    (hacyclic : before.Acyclic) (hafter : after.WellFormed) (hledger : Ledger before tokens after)
    (hdraws : after.Draws plot (Builder.startingAfter before start).bare)
    (hstart : start ⊆ before.keys) (hnodup : plot.keys.Nodup)
    (hnew : ∀ key ∈ plot.keys, key ∉ before.keys)
    (hlinks : ∀ source target, source ∈ after.dependencies target →
      source ∈ before.dependencies target ∨ plot.Series .sequential source target ∨
        (source ∈ start ∧ target ∈ plot.exposed)) :
    OrdersOnly before after start plot := by
  have hcases : ∀ {first second}, after.ComesBefore first second →
      before.ComesBefore first second ∨ plot.Series .sequential first second ∨
        (before.Needs start first ∧ second ∈ plot.exposed) :=
    comesBefore_cases hbefore hstart hnodup hnew hlinks
  constructor
  case acyclic =>
    refine hafter.acyclic_iff.mpr fun key hcycle => ?_
    rcases hcases hcycle with hold | hseries | ⟨hneeds, hexposed⟩
    · exact hbefore.acyclic_iff.mp hacyclic key hold
    · exact Plot.Series.irrefl hnodup hseries
    · exact hnew key (plot.exposed_subset hexposed) (mem_keys_of_needs hstart hneeds)
  case steps =>
    intro first hfirst second _
    refine ⟨fun hpath => ?_, fun hseries => hdraws.comesBefore_series hseries⟩
    rcases hcases hpath with hold | hseries | ⟨hneeds, -⟩
    · exact absurd (hbefore.mem_keys_of_comesBefore hold).1 (hnew first hfirst)
    · exact hseries
    · exact absurd (mem_keys_of_needs hstart hneeds) (hnew first hfirst)
  case waits =>
    intro old hold key hkey
    constructor
    · intro hpath
      rcases hcases hpath with hpath | hseries | hwaits
      · exact absurd (hbefore.mem_keys_of_comesBefore hpath).2 (hnew key hkey)
      · exact absurd hold (hnew old hseries.mem_keys.1)
      · exact hwaits
    · rintro ⟨⟨target, htarget, hpath⟩, hexposed⟩
      exact hdraws.comesBefore_exposed
        ⟨target, htarget, hledger.leadsTo hbefore hafter hpath⟩ hexposed
  case apart =>
    intro key hkey old hold hpath
    rcases hcases hpath with hpath | hseries | ⟨-, hexposed⟩
    · exact hnew key hkey (hbefore.mem_keys_of_comesBefore hpath).1
    · exact hnew old hseries.mem_keys.2 hold
    · exact hnew old (plot.exposed_subset hexposed) hold
  case kept =>
    intro first hfirst second hsecond
    refine ⟨fun hpath => ?_, hledger.comesBefore hbefore hafter⟩
    rcases hcases hpath with hold | hseries | ⟨-, hexposed⟩
    · exact hold
    · exact absurd hfirst (hnew first hseries.mem_keys.1)
    · exact absurd hsecond (hnew second (plot.exposed_subset hexposed))

end

/-- A sequence imposes no other order than it says.  If it runs without error after keys of an order
without loops, and the keys of its steps are plain, different and new, then it adds the series of its
plot, puts the steps that are not detached after the given keys, and orders nothing else. -/
theorem Reachable.adds_only_series [BEq V] {order : Order V} (hreachable : Reachable order)
    (hacyclic : order.Acyclic) {start : List Key} (hstart : start ⊆ order.keys)
    {steps : List (Step V)} {plot : Plot} {last : Nat}
    (hplots : Plots order.nextUnique steps plot last)
    (hdone : ((Builder.startingAfter order start).runSteps steps).1 = .ok ())
    (hplain : ∀ key ∈ plot.keys, key.Plain) (hnodup : plot.keys.Nodup)
    (hnew : ∀ key ∈ plot.keys, key ∉ order.keys) :
    OrdersOnly order ((Builder.startingAfter order start).runSteps steps).2.order start plot := by
  have hwell := hreachable.wellFormed
  obtain ⟨final, hfinal, hruns, hregular, hledger, hpairs⟩ :=
    run_of_plots hreachable hplots hdone
  have hdraws := hledger.draws hregular.wellFormed hpairs
  have hknows : (Builder.startingAfter order start).Knows :=
    fun key hkey => hstart (or_self_iff.mp hkey)
  have hkeys : ∀ key ∈ final.order.keys, key ∈ order.keys ∨ key.Plain := by
    intro key hkey
    rw [(hruns.keys hknows hplain).2, mem_appendNew] at hkey
    exact hkey.imp_right (hplain key)
  rw [hfinal]
  refine ordersOnly_of_links hwell hacyclic hregular.wellFormed hledger hdraws hstart hnodup hnew ?_
  intro source target hsource
  refine (hledger.dependencies_cases hwell hregular hkeys hsource).imp_right fun hpair => ?_
  exact (Plot.links_cases (hpairs ▸ hpair)).symm

theorem only_series_added_after_key :
    ∃ order final : Order Nat, Reachable order ∧ order.keys = [.constant "r", .constant "s"] ∧
      final.Acyclic ∧
      final.ComesBefore (.constant "r") (.constant "c") ∧
      final.ComesBefore (.unique (.fresh 0)) (.constant "b") ∧
      ¬ final.ComesBefore (.constant "a") (.constant "b") ∧
      ¬ final.ComesBefore (.constant "s") (.constant "d") := by
  let order : Order Nat := Order.empty.edited [.link (.key (.constant "r")) (.key (.constant "s"))]
  let steps : List (Step Nat) :=
    [.par [.addKeyed (.key (.constant "a")) 1,
        .seq [.add 2, .independently [.addKeyed (.key (.constant "d")) 3],
          .addKeyed (.key (.constant "b")) 4]],
      .expect (.key (.constant "c"))]
  let plot : Plot :=
    .block .parallel
      (.step (.constant "a") (.block .sequential
        (.step (.unique (.fresh 0)) (.detached (.step (.constant "d") .done)
          (.step (.constant "b") .done)))
        .done))
      (.step (.constant "c") .done)
  have hreachable : Reachable order := Reachable.empty.edited _
  have hacyclic : order.Acyclic := hreachable.wellFormed.linearize_ok_iff.mp ⟨[0, 1], by cbv⟩
  have hkeys : order.keys = [.constant "r", .constant "s"] := by cbv
  have hwaits : order.dependencies (.constant "s") = [.constant "r"] := by cbv
  have hneeds : order.Needs [.constant "s"] (.constant "r") :=
    ⟨.constant "s", List.mem_cons_self, .single (hwaits ▸ List.mem_cons_self)⟩
  have hplots : Plots order.nextUnique steps plot 1 := by
    rw [show order.nextUnique = 0 by cbv]
    exact .block .parallel
      (.addKeyed rfl (.block .sequential
        (.add (.independently (.addKeyed rfl (.done _)) (.addKeyed rfl (.done _))))
        (.done _)))
      (.expect rfl (.done _))
  have hdone : ((Builder.startingAfter order [.constant "s"]).runSteps steps).1 = .ok () := by cbv
  have honly := hreachable.adds_only_series hacyclic (by simp [hkeys]) hplots hdone
    (by simp [plot, Plot.keys, Key.Plain]) (by decide) (by simp [hkeys, plot, Plot.keys])
  refine ⟨order, _, hreachable, hkeys, honly.acyclic, ?_, ?_, ?_, ?_⟩
  · exact (honly.waits _ (by simp [hkeys]) _ (by simp [plot, Plot.keys])).mpr
      ⟨hneeds, by simp [plot, Plot.exposed]⟩
  · exact (honly.steps _ (by simp [plot, Plot.keys]) _ (by simp [plot, Plot.keys])).mpr
      (by simp [plot, Plot.Series, Plot.exposed])
  · rw [honly.steps _ (by simp [plot, Plot.keys]) _ (by simp [plot, Plot.keys])]
    simp [plot, Plot.Series, Plot.exposed]
  · rw [honly.waits _ (by simp [hkeys]) _ (by simp [plot, Plot.keys])]
    simp [plot, Plot.exposed]

end Runbook.Order
