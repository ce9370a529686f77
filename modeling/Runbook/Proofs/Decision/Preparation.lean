import Runbook.Proofs.Decision.Arena

/-!
# Preparations

A decider prepares its output once for each node at which a walk ends.  What it has prepared is
determined by the nodes at which walks have ended so far, so that no decision depends on earlier
ones.
-/

namespace Runbook.Decision

variable {ι τ π ω : Type}

/-! ## What a decider has prepared -/

def Tree.endNode? (tree : Tree ι τ) (input : ι) : Option Nat :=
  match tree.walk (.new input) with
  | .ok walk _ => some walk.node
  | .error _ _ => none

def Factory.preparedAt (factory : Factory ι τ π ω) (items : Nat → List τ) (node : Nat) :
    Prepared τ π :=
  ⟨node, items node, factory.prepare (items node)⟩

namespace Decider

def preparedFor (tree : Tree ι τ) (factory : Factory ι τ π ω) (items : Nat → List τ)
    (nodes : List Nat) : Decider ι τ π ω :=
  ⟨tree, factory, nodes.map (factory.preparedAt items)⟩

section

variable {tree : Tree ι τ} {factory : Factory ι τ π ω} {items : Nat → List τ}

private theorem find?_preparedAt (node : Nat) (nodes : List Nat) :
    (nodes.map (factory.preparedAt items)).find? (·.node = node) =
      if node ∈ nodes then some (factory.preparedAt items node) else none := by
  induction nodes with
  | nil => rfl
  | cons first nodes ih =>
      by_cases hfirst : first = node
      · simp [Factory.preparedAt, hfirst]
      · rw [List.map_cons, List.find?_cons_of_neg (by simp [Factory.preparedAt, hfirst]), ih]
        simp [Ne.symm hfirst]

private theorem prepare_preparedFor {walk : WalkEnd τ} (hitems : items walk.node = walk.items)
    (nodes : List Nat) :
    (preparedFor tree factory items nodes).prepare walk =
      (factory.prepare walk.items,
        preparedFor tree factory items (appendNew nodes [walk.node])) := by
  have hfind : (preparedFor tree factory items nodes).prepared.find? (·.node = walk.node) = _ :=
    find?_preparedAt walk.node nodes
  rw [prepare, hfind, appendNew_cons, ← hitems]
  by_cases hmem : walk.node ∈ nodes
  · rw [if_pos hmem, if_pos hmem]
    rfl
  · rw [if_neg hmem, if_neg hmem]
    simp [preparedFor, Factory.preparedAt, appendNew]

theorem decide_preparedFor (hitems : ∀ walk ∈ tree.ends [], items walk.node = walk.items)
    (nodes : List Nat) (input : ι) :
    (preparedFor tree factory items nodes).decide input =
      match tree.walk (.new input) with
      | .error error context =>
        ⟨.error (.evaluation error), context.calls, preparedFor tree factory items nodes⟩
      | .ok walk context =>
        ⟨(factory.finish (factory.prepare walk.items) context).1,
          (factory.finish (factory.prepare walk.items) context).2.calls,
          preparedFor tree factory items (appendNew nodes [walk.node])⟩ := by
  have htree : (preparedFor tree factory items nodes).tree = tree := rfl
  rw [decide, htree]
  cases hwalk : tree.walk (.new input) with
  | error error context => rfl
  | ok walk context =>
      have hend := Tree.walk_mem_ends [] tree hwalk
      dsimp only
      rw [prepare_preparedFor (hitems walk hend)]
      rfl

theorem prepared_walk (hitems : ∀ walk ∈ tree.ends [], items walk.node = walk.items)
    {nodes : List Nat} (honce : nodes.Nodup) {input : ι} {walk : WalkEnd τ} {context : Context ι}
    (hwalk : tree.walk (.new input) = .ok walk context) :
    ((preparedFor tree factory items nodes).decide input).decider.prepared.filter
      (·.node = walk.node) = [⟨walk.node, walk.items, factory.prepare walk.items⟩] := by
  have hprepared : ((preparedFor tree factory items nodes).decide input).decider.prepared =
      (appendNew nodes [walk.node]).map (factory.preparedAt items) := by
    rw [decide_preparedFor hitems, hwalk]
    rfl
  have hmem : walk.node ∈ appendNew nodes [walk.node] :=
    (mem_appendNew _ _).mpr (.inr (List.mem_singleton_self _))
  rw [hprepared, List.filter_map]
  change ((appendNew nodes [walk.node]).filter (· == walk.node)).map (factory.preparedAt items) = _
  rw [List.filter_beq, List.count_eq_one_of_mem (nodup_appendNew _ honce) hmem]
  simp [Factory.preparedAt, hitems walk (Tree.walk_mem_ends [] tree hwalk)]

private theorem after_preparedFor (hitems : ∀ walk ∈ tree.ends [], items walk.node = walk.items)
    (nodes : List Nat) (inputs : List ι) :
    (preparedFor tree factory items nodes).after inputs =
      preparedFor tree factory items (appendNew nodes (inputs.filterMap tree.endNode?)) := by
  induction inputs generalizing nodes with
  | nil => rfl
  | cons input inputs ih =>
      have hnext : ((preparedFor tree factory items nodes).decide input).decider =
          preparedFor tree factory items (appendNew nodes (tree.endNode? input).toList) := by
        rw [decide_preparedFor hitems, Tree.endNode?]
        cases tree.walk (.new input) <;> rfl
      rw [after, List.foldl_cons, hnext, List.filterMap_cons]
      refine (ih _).trans ?_
      cases tree.endNode? input <;> rfl

end

end Decider

def Tree.itemsAt (tree : Tree ι τ) (node : Nat) : List τ :=
  itemsDownTo tree.nodes (node + 1) node

theorem Tree.Layout.nodes_at {known : Variable ι → Prop} {tree : Tree ι τ} {last : Nat}
    (h : tree.Layout known [] 0 last) :
    ∀ placed ∈ tree.placed none [], tree.nodes[placed.id]? = some placed.node :=
  fun placed hplaced => h.node_iff.mpr ⟨placed, hplaced, rfl, rfl⟩

theorem Tree.Layout.itemsAt_end {known : Variable ι → Prop} {tree : Tree ι τ} {last : Nat}
    (h : tree.Layout known [] 0 last) {walk : WalkEnd τ} (hwalk : walk ∈ tree.ends []) :
    tree.itemsAt walk.node = walk.items := by
  refine Tree.itemsDownTo_end h.nodes_at (fun placed hplaced above habove => ?_) rfl hwalk
    (Nat.lt_succ_self _)
  exact (h.nodes_structured.parent _ _ above (h.nodes_at placed hplaced) habove).1

theorem Tree.Layout.after_eq {known : Variable ι → Prop} {tree : Tree ι τ} {last : Nat}
    (h : tree.Layout known [] 0 last) (factory : Factory ι τ π ω) (inputs : List ι) :
    (Decider.new tree factory).after inputs =
      .preparedFor tree factory tree.itemsAt (firsts (inputs.filterMap tree.endNode?)) :=
  Decider.after_preparedFor (fun _ hwalk => h.itemsAt_end hwalk) [] inputs

/-! ## Deciders -/

/-- A decision depends on its input alone, whatever was decided before.  A decider has prepared its
output once for each node at which a walk has ended so far, whether or not it could finish the
output, in the order in which they were met first and from the items from the first node down to
that node. -/
theorem Collected.decides_afresh {config : DeciderConfig} {builder : DeciderBuilder ι τ}
    {entries : List (Entry ι τ)} (hcollected : Collected config builder entries)
    {factory : Factory ι τ π ω} {decider : Decider ι τ π ω}
    (hbuild : (builder.build factory).outcome = .ok decider) :
    (∀ (earlier : List ι) (input : ι),
      ((decider.after earlier).decide input).outcome = (decider.decide input).outcome ∧
      ((decider.after earlier).decide input).calls = (decider.decide input).calls) ∧
    ∃ arena : Arena ι τ,
      Arena.grow config.maxNodes (conditionCount builder.rules) builder.rules [] none .empty =
        .ok 0 arena ∧
      (∀ fuel, decider.tree.depth ≤ fuel →
        descend arena.nodes fuel 0 = WalkEnd.node <$> decider.tree.walk) ∧
      ∀ inputs : List ι,
        (decider.after inputs).prepared =
          (firsts (inputs.filterMap decider.tree.endNode?)).map
            (factory.preparedAt fun node => itemsDownTo arena.nodes (node + 1) node) := by
  obtain ⟨rfl, hopen⟩ := hcollected.opens
  obtain ⟨tree, last, rfl, hcompile⟩ := DeciderBuilder.build_ok hbuild
  have hlayout := compile_layout _ _ hopen ⟨by simp, .nil, by simp⟩ hcompile
  have hitems : ∀ walk ∈ tree.ends [], tree.itemsAt walk.node = walk.items :=
    fun walk hwalk => hlayout.itemsAt_end hwalk
  have hfirst : tree.id = 0 := hlayout.id
  refine ⟨fun earlier input => ?_, ⟨tree.nodes, last.calls⟩, ?_, fun fuel hfuel => ?_,
    fun inputs => ?_⟩
  · have hfresh : (Decider.new tree factory).decide input = _ :=
      Decider.decide_preparedFor hitems [] input
    rw [hlayout.after_eq, Decider.decide_preparedFor hitems, hfresh]
    cases tree.walk (.new input) <;> exact ⟨rfl, rfl⟩
  · rw [compileRules] at hcompile
    rw [Arena.grow_ok hcompile, hfirst]
  · rw [← hfirst]
    exact Tree.descend_eq hfuel hlayout.nodes_at
      (fun placed hplaced => (hlayout.fits none placed hplaced).values) []
  · rw [hlayout.after_eq]
    rfl

theorem decides_afresh_levels :
    ∃ decider : Decider Nat String (List String) Nat,
      (∀ earlier : List Nat, ((decider.after earlier).decide 3).outcome =
        .error (.output "too few")) ∧
      (decider.after [0, 2, 1, 3, 0, 1]).prepared.map (·.node) = [0, 1] ∧
      (decider.after [0, 2, 1, 3, 0, 1]).prepared.map (·.items) =
        [["always"], ["always", "once"]] := by
  let level : Variable Nat :=
    .primary "level" (fun n => if n = 0 then .error (.failed "level" "none") else .ok (.ofNat n)) true
  let factory : Factory Nat String (List String) Nat :=
    ⟨id, fun items context =>
      (if items.length < 2 then .error (.output "too few") else .ok items.length, context)⟩
  let rules : List (Entry Nat String) := [([⟨level, .int 1⟩], "once"), ([], "always")]
  let builder : DeciderBuilder Nat String :=
    rules.foldl (fun builder rule => (builder.addRule rule.1 rule.2).2) (.new .unlimited)
  have hcollected : Collected .unlimited builder rules :=
    (Collected.new.accept rfl).accept rfl
  let tree : Tree Nat String := .split 0 level ["always"] [(.int 1, .leaf 1 ["once"])] none
  have hbuild : (builder.build factory).outcome = .ok (Decider.new tree factory) := rfl
  obtain ⟨houtcome, arena, hgrow, -, hprepared⟩ := hcollected.decides_afresh hbuild
  refine ⟨_, fun earlier => (houtcome earlier 3).1.trans rfl, ?_, ?_⟩
  · rw [hprepared, List.map_map]
    rfl
  · rw [hprepared, List.map_map]
    have hgrown : Arena.grow DeciderConfig.unlimited.maxNodes (conditionCount builder.rules)
        builder.rules [] none .empty = .ok 0 ⟨tree.nodes, []⟩ := rfl
    obtain rfl : (⟨tree.nodes, []⟩ : Arena Nat String) = arena := by
      rw [hgrown] at hgrow
      exact (EStateM.Result.ok.inj hgrow).2
    rfl

end Runbook.Decision
