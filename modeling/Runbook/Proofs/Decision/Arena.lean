import Runbook.Proofs.Decision.Structure

/-!
# Trees in an arena

The nodes of a tree can be made one by one in a list, each of them before the nodes below it, and
changed later when the numbers of those are known.  A compilation that works like that makes the
nodes of the compiled tree.
-/

namespace Runbook.Decision

open Variable

variable {ι τ α β : Type}

structure Arena (ι τ : Type) where
  nodes : List (Node ι τ)
  calls : List (Variable ι)

abbrev Grow (ι τ : Type) := EStateM DecisionError (Arena ι τ)

namespace Arena

def empty : Arena ι τ := ⟨[], []⟩

def progress (arena : Arena ι τ) : Progress ι := ⟨arena.nodes.length, arena.calls⟩

/-! ## Growing -/

def ofCompile (compute : Compile ι α) : Grow ι τ α := fun arena =>
  match compute arena.progress with
  | .ok value progress => .ok value { arena with calls := progress.calls }
  | .error error progress => .error error { arena with calls := progress.calls }

def push (limit : Option Nat) (parent? : Option Nat) (subject? : Option (Variable ι))
    (items : List τ) : Grow ι τ Nat := do
  let id ← ofCompile (newNode limit)
  modify fun arena => { arena with nodes := arena.nodes ++ [.new parent? subject? items] }
  return id

def change (id : Nat) (edit : Node ι τ → Node ι τ) : Grow ι τ Unit :=
  modify fun arena => { arena with nodes := arena.nodes.modify id edit }

def grow (limit : Option Nat) :
    Nat → List (Rule ι τ) → Assumptions ι → Option Nat → Grow ι τ Nat
  | 0, rules, _, parent? => push limit parent? none (rules.map (·.item))
  | fuel + 1, rules, assumptions, parent? =>
    match pickSplit rules with
    | none => push limit parent? none (rules.map (·.item))
    | some subject => do
      match ← ofCompile (pinnedValue assumptions subject) with
      | some known =>
        grow limit fuel (settle rules subject known) ((subject, known) :: assumptions) parent?
      | none =>
        let silent := silentOn rules subject
        let conditional := silent.filter (!isUnconditional ·)
        let id ← push limit parent? (some subject) ((silent.filter isUnconditional).map (·.item))
        if conditional.isEmpty then pure ()
        else do
          let child ← grow limit fuel conditional assumptions (some id)
          change id (.setOtherwise child)
        forM (askedValues rules subject) fun value => do
          let child ← grow limit fuel (askingFor rules subject value ++ conditional)
            ((subject, value) :: assumptions) (some id)
          change id (.addChild · (value, child))
        return id

/-! ## Compiling side by side -/

/-- Whether a compilation and a growth end alike, with related results. -/
def Alike (R : α → β → List (Node ι τ) → Prop) :
    EStateM.Result DecisionError (Progress ι) α → EStateM.Result DecisionError (Arena ι τ) β → Prop
  | .ok value progress, .ok result arena => progress = arena.progress ∧ R value result arena.nodes
  | .error error progress, .error other arena => error = other ∧ progress.calls = arena.calls
  | _, _ => False

section

variable {γ δ : Type} {R : α → β → List (Node ι τ) → Prop} {S : γ → δ → List (Node ι τ) → Prop}
  {arena : Arena ι τ}

theorem Alike.pure {value : α} {result : β} (h : R value result arena.nodes) :
    Alike R ((Pure.pure value : Compile ι α) arena.progress)
      ((Pure.pure result : Grow ι τ β) arena) :=
  ⟨rfl, h⟩

theorem Alike.bind {first : Compile ι α} {start : Grow ι τ β} {rest : α → Compile ι γ}
    {next : β → Grow ι τ δ} {progress : Progress ι} (h : Alike R (first progress) (start arena))
    (hrest : ∀ value result seen, R value result seen.nodes →
      Alike S (rest value seen.progress) (next result seen)) :
    Alike S ((first >>= rest) progress) ((start >>= next) arena) := by
  change Alike S (EStateM.bind first rest progress) (EStateM.bind start next arena)
  rw [EStateM.bind, EStateM.bind]
  cases hfirst : first progress with
  | ok value seen =>
      cases hstart : start arena with
      | ok result left =>
          rw [hfirst, hstart] at h
          obtain ⟨rfl, hresult⟩ := h
          exact hrest value result left hresult
      | error error left =>
          rw [hfirst, hstart] at h
          exact h.elim
  | error error seen =>
      cases hstart : start arena with
      | ok result left =>
          rw [hfirst, hstart] at h
          exact h.elim
      | error other left =>
          rw [hfirst, hstart] at h
          exact h

theorem Alike.convert {first : Compile ι α} {start : Grow ι τ β} {convert : α → γ}
    {T : γ → β → List (Node ι τ) → Prop} {progress : Progress ι}
    (h : Alike R (first progress) (start arena))
    (hconvert : ∀ value result nodes, R value result nodes → T (convert value) result nodes) :
    Alike T ((first >>= fun value => Pure.pure (convert value)) progress) (start arena) := by
  rw [← bind_pure start]
  exact h.bind fun value result seen hresult => .pure (hconvert value result _ hresult)

private theorem pinnedValue_alike (assumptions : Assumptions ι) (subject : Variable ι)
    (arena : Arena ι τ) :
    Alike (fun value result nodes => result = value ∧ nodes = arena.nodes)
      (pinnedValue assumptions subject arena.progress)
      (ofCompile (pinnedValue assumptions subject) arena) := by
  rw [ofCompile]
  cases hpinned : pinnedValue assumptions subject arena.progress with
  | ok value progress =>
      have hnodes : progress.nodes = arena.nodes.length := (pinnedValue_ok hpinned).1
      exact ⟨by rw [Arena.progress, ← hnodes], rfl, rfl⟩
  | error error progress => exact ⟨rfl, rfl⟩

theorem push_alike (limit : Option Nat) (parent? : Option Nat) (subject? : Option (Variable ι))
    (items : List τ) (arena : Arena ι τ) :
    Alike (fun id result nodes => id = arena.nodes.length ∧ result = id ∧
        nodes = arena.nodes ++ [.new parent? subject? items])
      (newNode limit arena.progress) (push limit parent? subject? items arena) := by
  change Alike _ _ (EStateM.bind (ofCompile (newNode limit)) _ arena)
  rw [EStateM.bind, ofCompile]
  cases hid : newNode limit arena.progress with
  | ok id progress =>
      obtain ⟨rfl, rfl⟩ := newNode_eq hid
      refine ⟨?_, rfl, rfl, rfl⟩
      simp [Arena.progress]
  | error error progress => exact ⟨rfl, rfl⟩

private theorem modify_middle {α : Type} (before : List α) (middle : α) (rest : List α)
    (edit : α → α) :
    (before ++ middle :: rest).modify before.length edit = before ++ edit middle :: rest := by
  induction before with
  | nil => rfl
  | cons first before ih => simp [ih]

theorem change_alike {R : α → Unit → List (Node ι τ) → Prop} {before rest : List (Node ι τ)}
    {node : Node ι τ} (hnodes : arena.nodes = before ++ node :: rest)
    {edit : Node ι τ → Node ι τ} {value : α} (h : R value () (before ++ edit node :: rest)) :
    Alike R ((Pure.pure value : Compile ι α) arena.progress) (change before.length edit arena) := by
  refine ⟨?_, ?_⟩
  · simp [Arena.progress]
  · change R value () (arena.nodes.modify before.length edit)
    rw [hnodes, modify_middle]
    exact h

/-- Whether the nodes of a tree are made behind some nodes. -/
def Grown (before : List (Node ι τ)) (parent? : Option Nat) (tree : Tree ι τ) (id : Nat)
    (nodes : List (Node ι τ)) : Prop :=
  id = tree.id ∧ nodes = before ++ (tree.placed parent? []).map (·.node)

theorem leaf_alike (limit : Option Nat) (rules : List (Rule ι τ)) (parent? : Option Nat)
    (arena : Arena ι τ) :
    Alike (Grown arena.nodes parent?)
      ((do let id ← newNode limit; return .leaf id (rules.map (·.item)) : Compile ι (Tree ι τ))
        arena.progress)
      (push limit parent? none (rules.map (·.item)) arena) := by
  refine (push_alike limit parent? none _ arena).convert ?_
  rintro id _ nodes ⟨rfl, rfl, hnodes⟩
  exact ⟨rfl, hnodes⟩

private theorem otherwise_alike {compute : Compile ι (Tree ι τ)} {step : Grow ι τ Nat}
    {before : List (Node ι τ)} {parent? : Option Nat} {subject : Variable ι} {items : List τ}
    (hmade : arena.nodes = before ++ [.new parent? (some subject) items])
    (hstep : Alike (Grown arena.nodes (some before.length)) (compute arena.progress) (step arena)) :
    Alike (fun otherwise _ nodes => nodes = before ++
        Tree.splitNode parent? subject items [] otherwise ::
          (Tree.otherwisePlaced before.length subject [] otherwise).map (·.node))
      ((some <$> compute) arena.progress)
      ((do
        let child ← step
        change before.length (.setOtherwise child) : Grow ι τ Unit) arena) := by
  rw [map_eq_pure_bind]
  refine hstep.bind ?_
  rintro tree child last ⟨rfl, hlast⟩
  rw [hmade, List.append_assoc, List.singleton_append] at hlast
  refine change_alike hlast ?_
  have hsame := Tree.placed_nodes (some before.length) ([] ++ [⟨subject, none⟩]) [] tree
  rw [Tree.otherwisePlaced, hsame]
  rfl

private theorem branches_alike (subject : Variable ι) {compute : Value → Compile ι (Tree ι τ)}
    {step : Value → Grow ι τ Nat} {before : List (Node ι τ)}
    (hstep : ∀ value (arena : Arena ι τ), Alike (Grown arena.nodes (some before.length))
      (compute value arena.progress) (step value arena))
    (values : List Value) {rest : List (Node ι τ)} {node : Node ι τ} {arena : Arena ι τ}
    (hnodes : arena.nodes = before ++ node :: rest) :
    Alike (fun branches _ nodes => nodes = before ++
        node.addChildren (branches.map fun (value, tree) => (value, tree.id)) ::
          (rest ++ (Tree.branchesPlaced before.length subject [] branches).map (·.node)))
      ((values.mapM fun value => do
        let tree ← compute value
        return (value, tree) : Compile ι (List (Value × Tree ι τ))) arena.progress)
      ((forM values fun value => do
        let child ← step value
        change before.length (.addChild · (value, child)) : Grow ι τ Unit) arena) := by
  induction values generalizing rest node arena with
  | nil => exact .pure (by simp [hnodes, Node.addChildren, Tree.branchesPlaced])
  | cons value values ih =>
      rw [List.mapM_cons, List.forM_cons]
      refine Alike.bind (R := fun branch _ nodes => branch.1 = value ∧ nodes = before ++
        node.addChild (value, branch.2.id) ::
          (rest ++ (branch.2.placed (some before.length) []).map (·.node))) ?_ ?_
      · refine (hstep value arena).bind ?_
        rintro tree child seen ⟨rfl, hseen⟩
        rw [hnodes, List.append_assoc, List.cons_append] at hseen
        exact change_alike hseen ⟨rfl, rfl⟩
      · rintro ⟨own, tree⟩ _ seen ⟨rfl, hseen⟩
        refine (ih hseen).convert fun branches _ nodes hbranches => ?_
        have hsame := Tree.placed_nodes (some before.length) ([] ++ [⟨subject, some own⟩]) [] tree
        rw [hbranches, Tree.branchesPlaced, List.map_append, hsame, List.append_assoc]
        rfl

theorem split_alike {subject : Variable ι} {items : List τ}
    {compute : Value → Compile ι (Tree ι τ)} {step : Value → Grow ι τ Nat}
    {before : List (Node ι τ)}
    (hstep : ∀ value (arena : Arena ι τ), Alike (Grown arena.nodes (some before.length))
      (compute value arena.progress) (step value arena))
    (values : List Value) {parent? : Option Nat} {otherwise : Option (Tree ι τ)} {arena : Arena ι τ}
    (hnodes : arena.nodes = before ++ Tree.splitNode parent? subject items [] otherwise ::
      (Tree.otherwisePlaced before.length subject [] otherwise).map (·.node)) :
    Alike (Grown before parent?)
      ((do
        let branches ← values.mapM fun value => do
          let tree ← compute value
          return (value, tree)
        return .split before.length subject items branches otherwise :
          Compile ι (Tree ι τ)) arena.progress)
      ((do
        forM values fun value => do
          let child ← step value
          change before.length (.addChild · (value, child))
        return before.length : Grow ι τ Nat) arena) := by
  refine (branches_alike subject hstep values hnodes).bind ?_
  intro branches _ last hlast
  refine .pure ⟨rfl, ?_⟩
  rw [hlast, Tree.placed, List.map_cons, List.map_append]
  rfl

private theorem grow_alike (limit : Option Nat) (fuel : Nat) (rules : List (Rule ι τ))
    (assumptions : Assumptions ι) (parent? : Option Nat) (arena : Arena ι τ) :
    Alike (Grown arena.nodes parent?) (compile limit fuel rules assumptions arena.progress)
      (grow limit fuel rules assumptions parent? arena) := by
  induction fuel generalizing rules assumptions parent? arena with
  | zero => exact leaf_alike limit rules parent? arena
  | succ fuel ih =>
      rw [compile, grow]
      cases hpick : pickSplit rules with
      | none => exact leaf_alike limit rules parent? arena
      | some subject =>
          refine (pinnedValue_alike assumptions subject arena).bind ?_
          rintro _ pinned seen ⟨rfl, hseen⟩
          rw [← hseen]
          cases pinned with
          | some value => exact ih _ _ _ seen
          | none =>
              refine (push_alike limit parent? (some subject) _ seen).bind ?_
              rintro id _ made ⟨rfl, rfl, hmade⟩
              simp only
              by_cases hnone : ((silentOn rules subject).filter (!isUnconditional ·)).isEmpty
              · simp only [hnone, if_true, pure_bind]
                exact split_alike (fun value arena => ih _ _ _ arena) _ hmade
              · simp only [hnone]
                rw [← bind_assoc]
                refine (otherwise_alike hmade (ih _ _ _ made)).bind ?_
                intro otherwise _ below hbelow
                exact split_alike (fun value arena => ih _ _ _ arena) _ hbelow

end

theorem grow_ok {limit : Option Nat} {fuel : Nat} {rules : List (Rule ι τ)} {tree : Tree ι τ}
    {last : Progress ι} (h : compile limit fuel rules [] ⟨0, []⟩ = .ok tree last) :
    grow limit fuel rules [] none .empty = .ok tree.id ⟨tree.nodes, last.calls⟩ := by
  have halike := grow_alike limit fuel rules [] none .empty
  rw [show (Arena.empty : Arena ι τ).progress = ⟨0, []⟩ from rfl, h] at halike
  cases hgrow : grow limit fuel rules [] none .empty with
  | ok id arena =>
      rw [hgrow] at halike
      obtain ⟨rfl, rfl, hnodes⟩ := halike
      rw [show (Arena.empty : Arena ι τ).nodes = [] from rfl, List.nil_append] at hnodes
      rw [Tree.nodes, ← hnodes]
      rfl
  | error error arena =>
      rw [hgrow] at halike
      exact halike.elim

end Arena

/-! ## Going down -/

namespace Node

def next? (node : Node ι τ) (value : Value) : Option Nat := (node.index value).or node.otherwise?

end Node

def descend (nodes : List (Node ι τ)) : Nat → Nat → Live ι Nat
  | 0, id => pure id
  | fuel + 1, id =>
    match nodes[id]? with
    | none => pure id
    | some node =>
      match node.subject? with
      | none => pure id
      | some subject => do
        let value ← Live.get subject
        match node.next? value with
        | none => pure id
        | some child => descend nodes fuel child

namespace Tree

private theorem walkBranches_eq (collected : List τ) (value : Value)
    (branches : List (Value × Tree ι τ)) :
    walkBranches collected value branches =
      (branches.find? (·.1 = value)).map fun branch => branch.2.walkFrom collected := by
  induction branches with
  | nil => rfl
  | cons branch branches ih =>
      obtain ⟨own, tree⟩ := branch
      rw [walkBranches, List.find?_cons, ih]
      by_cases hvalue : own = value <;> simp [hvalue]

private theorem depth_le_branchesDepth {branches : List (Value × Tree ι τ)}
    {branch : Value × Tree ι τ}
    (h : branch ∈ branches) : branch.2.depth ≤ branchesDepth branches := by
  induction branches with
  | nil => cases h
  | cons first branches ih =>
      rw [branchesDepth]
      rcases List.mem_cons.mp h with rfl | h
      · exact Nat.le_max_left _ _
      · exact Nat.le_trans (ih h) (Nat.le_max_right _ _)

theorem row_depth_lt {id : Nat} {subject : Variable ι} {items : List τ}
    {branches : List (Value × Tree ι τ)} {otherwise : Option (Tree ι τ)}
    {row : Option Value × Tree ι τ} (h : row ∈ rows branches otherwise) :
    row.2.depth < (split id subject items branches otherwise).depth := by
  rw [depth, Nat.lt_succ_iff]
  rcases List.mem_append.mp h with h | h
  · obtain ⟨tree, htree, rfl⟩ := List.mem_map.mp h
    rw [Option.mem_toList] at htree
    subst htree
    exact Nat.le_max_right _ _
  · obtain ⟨branch, hbranch, rfl⟩ := List.mem_map.mp h
    exact Nat.le_trans (depth_le_branchesDepth hbranch) (Nat.le_max_left _ _)

private theorem splitNode_next? (parent? : Option Nat) (subject : Variable ι) (items : List τ)
    {branches : List (Value × Tree ι τ)} (otherwise : Option (Tree ι τ))
    (hnodup : (branches.map (·.1)).Nodup) (value : Value) :
    (splitNode parent? subject items branches otherwise).next? value =
      ((branches.find? (·.1 = value)).map (·.2.id)).or (otherwise.map Tree.id) := by
  have hindex : (splitNode parent? subject items branches otherwise).index value =
      (branches.find? (·.1 = value)).map (·.2.id) := by
    cases hfind : branches.find? (·.1 = value) with
    | some branch =>
        obtain ⟨own, tree⟩ := branch
        have hown : own = value := by simpa using List.find?_some hfind
        rw [Option.map_some, splitNode_index _ _ _ _ _ hnodup]
        exact List.mem_map.mpr ⟨_, List.mem_of_find?_eq_some hfind, by rw [hown]⟩
    | none =>
        rw [Option.map_none, Option.eq_none_iff_forall_ne_some]
        intro child hchild
        rw [splitNode_index _ _ _ _ _ hnodup] at hchild
        obtain ⟨branch, hbranch, hequal⟩ := List.mem_map.mp hchild
        rw [List.find?_eq_none] at hfind
        exact hfind branch hbranch (by simpa using congrArg Prod.fst hequal)
  rw [Node.next?, hindex, splitNode_otherwise?]

theorem descend_eq {nodes : List (Node ι τ)} {parent? : Option Nat} {way : List (Edge ι)}
    {tree : Tree ι τ} {fuel : Nat} (hfuel : tree.depth ≤ fuel)
    (hnodes : ∀ placed ∈ tree.placed parent? way, nodes[placed.id]? = some placed.node)
    (hvalues : ∀ placed ∈ tree.placed parent? way, (placed.node.children.map (·.1)).Nodup)
    (collected : List τ) :
    descend nodes fuel tree.id = WalkEnd.node <$> tree.walkFrom collected := by
  induction fuel generalizing parent? way tree collected with
  | zero =>
      have := tree.depth_pos
      omega
  | succ fuel ih =>
      cases tree with
      | leaf id items =>
          have hnode := hnodes _ (List.mem_singleton_self _)
          rw [Tree.id, descend, hnode, walkFrom]
          simp [Node.new]
      | split id subject items branches otherwise =>
          rw [placed_split] at hnodes hvalues
          rw [List.forall_mem_cons] at hnodes hvalues
          have hnodup : (branches.map (·.1)).Nodup := by
            have hown := hvalues.1
            rw [splitNode_children, List.map_map] at hown
            exact hown
          have hrow : ∀ row ∈ rows branches otherwise,
              descend nodes fuel row.2.id =
                WalkEnd.node <$> row.2.walkFrom (collected ++ items) := by
            intro row hrow
            have hbelow : ∀ placed ∈ row.2.placed (some id) (way ++ [⟨subject, row.1⟩]),
                placed ∈ rowsPlaced id subject way (rows branches otherwise) :=
              fun placed hplaced => List.mem_flatMap.mpr ⟨row, hrow, hplaced⟩
            have hdepth : row.2.depth < (split id subject items branches otherwise).depth :=
              row_depth_lt hrow
            exact ih (by omega) (fun placed hplaced => hnodes.2 placed (hbelow placed hplaced))
              (fun placed hplaced => hvalues.2 placed (hbelow placed hplaced)) _
          rw [Tree.id, descend, hnodes.1, walkFrom, map_bind]
          simp only [splitNode_subject?]
          refine bind_congr fun value => ?_
          rw [splitNode_next? _ _ _ _ hnodup, walkBranches_eq]
          cases hfind : branches.find? (·.1 = value) with
          | some branch =>
              have hmem := List.mem_of_find?_eq_some hfind
              exact hrow (some branch.1, branch.2)
                (List.mem_append_right _ (List.mem_map.mpr ⟨_, hmem, rfl⟩))
          | none =>
              cases otherwise with
              | none => simp [walkOtherwise]
              | some tree => exact hrow (none, tree) (List.mem_append_left _ (by simp))

end Tree

/-! ## Going up -/

def ascend (nodes : List (Node ι τ)) : Nat → Nat → List Nat
  | 0, _ => []
  | fuel + 1, id =>
    match nodes[id]?.bind (·.parent?) with
    | none => [id]
    | some above => id :: ascend nodes fuel above

def itemsDownTo (nodes : List (Node ι τ)) (fuel id : Nat) : List τ :=
  (ascend nodes fuel id).reverse.flatMap fun id => (nodes[id]?.map (·.items)).getD []

def height (nodes : List (Node ι τ)) : Nat :=
  ((List.range nodes.length).map fun id => (ascend nodes nodes.length id).length).max?.getD 0

namespace Tree

theorem Layout.ascend_length {known : Variable ι → Prop} {tree : Tree ι τ} {last : Nat}
    (h : tree.Layout known [] 0 last) {fuel : Nat} {placed : Placed ι τ}
    (hplaced : placed ∈ tree.placed none []) (hfuel : placed.id < fuel) :
    (ascend tree.nodes fuel placed.id).length = placed.way.length + 1 := by
  induction fuel generalizing placed with
  | zero => omega
  | succ fuel ih =>
      have hnode := h.node_iff.mpr ⟨placed, hplaced, rfl, rfl⟩
      rw [ascend, hnode, Option.bind_some]
      rcases h.above none placed hplaced with ⟨-, hparent, hway⟩ | ⟨upper, hupper, hunder⟩
      · simp [hparent, hway]
      · obtain ⟨subject, value?, -, -, hway⟩ := hunder.edge
        have hlater := hunder.later
        simp only [hunder.parent, List.length_cons]
        rw [ih hupper (by omega), hway, List.length_append, List.length_singleton]

private theorem itemsDownTo_succ {nodes : List (Node ι τ)} {fuel id : Nat} {node : Node ι τ}
    (hnode : nodes[id]? = some node) :
    itemsDownTo nodes (fuel + 1) id =
      (match node.parent? with
        | none => []
        | some above => itemsDownTo nodes fuel above) ++ node.items := by
  rw [itemsDownTo, ascend, hnode, Option.bind_some]
  cases hparent : node.parent? with
  | none => simp [hnode]
  | some above => simp [hnode, itemsDownTo]

theorem mem_ends_split {collected : List τ} {id : Nat} {subject : Variable ι} {items : List τ}
    {branches : List (Value × Tree ι τ)} {otherwise : Option (Tree ι τ)} {walk : WalkEnd τ}
    (h : walk ∈ (split id subject items branches otherwise).ends collected) :
    walk = ⟨id, collected ++ items⟩ ∨
      ∃ row ∈ rows branches otherwise, walk ∈ row.2.ends (collected ++ items) := by
  have hbranches : ∀ (branches : List (Value × Tree ι τ)),
      walk ∈ branchEnds (collected ++ items) branches →
        ∃ branch ∈ branches, walk ∈ branch.2.ends (collected ++ items) := by
    intro branches hwalk
    induction branches with
    | nil => cases hwalk
    | cons branch branches ih =>
        obtain ⟨value, tree⟩ := branch
        rcases List.mem_append.mp hwalk with hfirst | hrest
        · exact ⟨_, List.mem_cons_self, hfirst⟩
        · obtain ⟨found, hfound, hends⟩ := ih hrest
          exact ⟨found, List.mem_cons_of_mem _ hfound, hends⟩
  rw [ends, List.mem_cons, List.mem_append] at h
  rcases h with h | h | h
  · exact .inl h
  · cases otherwise with
    | none => cases h
    | some tree => exact .inr ⟨(none, tree), List.mem_append_left _ (by simp), h⟩
  · obtain ⟨branch, hbranch, hends⟩ := hbranches branches h
    exact .inr ⟨(some branch.1, branch.2), List.mem_append_right _
      (List.mem_map.mpr ⟨branch, hbranch, rfl⟩), hends⟩

theorem itemsDownTo_end {nodes : List (Node ι τ)} {parent? : Option Nat} {way : List (Edge ι)}
    {tree : Tree ι τ} {collected : List τ}
    (hnodes : ∀ placed ∈ tree.placed parent? way, nodes[placed.id]? = some placed.node)
    (hlater : ∀ placed ∈ tree.placed parent? way, ∀ above, placed.node.parent? = some above →
      above < placed.id)
    (hcollected : match parent? with
      | none => collected = []
      | some above => ∀ fuel, above < fuel → itemsDownTo nodes fuel above = collected)
    {walk : WalkEnd τ} (hwalk : walk ∈ tree.ends collected) {fuel : Nat}
    (hfuel : walk.node < fuel) :
    itemsDownTo nodes fuel walk.node = walk.items := by
  induction hdepth : tree.depth using Nat.strongRecOn
    generalizing parent? way tree collected walk fuel with
  | ind depth ih =>
      have hroot : ∀ placed ∈ tree.placed parent? way, placed.node.parent? = parent? →
          ∀ fuel, placed.id < fuel →
            itemsDownTo nodes fuel placed.id = collected ++ placed.node.items := by
        intro placed hplaced hparent fuel hfuel
        cases fuel with
        | zero => omega
        | succ fuel =>
            rw [itemsDownTo_succ (hnodes placed hplaced), hparent]
            cases parent? with
            | none => rw [hcollected]
            | some above =>
                have hbelow := hlater placed hplaced above hparent
                simp only
                rw [hcollected fuel (by omega)]
      cases tree with
      | leaf id items =>
          rw [ends, List.mem_singleton] at hwalk
          subst hwalk
          exact hroot _ (List.mem_singleton_self _) rfl fuel hfuel
      | split id subject items branches otherwise =>
          rw [placed_split] at hnodes hlater hroot
          rw [List.forall_mem_cons] at hnodes hlater hroot
          have hown := hroot.1 (splitNode_parent? ..)
          rw [splitNode_items] at hown
          rcases mem_ends_split hwalk with rfl | ⟨row, hrow, hends⟩
          · exact hown fuel hfuel
          · have hbelow : ∀ placed ∈ row.2.placed (some id) (way ++ [⟨subject, row.1⟩]),
                placed ∈ rowsPlaced id subject way (rows branches otherwise) :=
              fun placed hplaced => List.mem_flatMap.mpr ⟨row, hrow, hplaced⟩
            subst hdepth
            exact ih row.2.depth (row_depth_lt hrow)
              (fun placed hplaced => hnodes.2 placed (hbelow placed hplaced))
              (fun placed hplaced => hlater.2 placed (hbelow placed hplaced)) hown hends hfuel rfl

theorem Layout.height_eq {known : Variable ι → Prop} {tree : Tree ι τ} {last : Nat}
    (h : tree.Layout known [] 0 last) : height tree.nodes = tree.depth := by
  have hplaced : ∀ id < tree.nodes.length, ∃ placed ∈ tree.placed none [], placed.id = id := by
    intro id hid
    obtain ⟨placed, hplaced, hsame, -⟩ := h.node_iff.mp (List.getElem?_eq_getElem hid)
    exact ⟨placed, hplaced, hsame⟩
  have hbound : ∀ placed ∈ tree.placed none [], placed.id < tree.nodes.length :=
    fun placed hplaced => (List.getElem?_eq_some_iff.mp
      (h.node_iff.mpr ⟨placed, hplaced, rfl, rfl⟩)).1
  have hmax : ((List.range tree.nodes.length).map fun id =>
      (ascend tree.nodes tree.nodes.length id).length).max? = some tree.depth := by
    rw [List.max?_eq_some_iff]
    constructor
    · obtain ⟨deepest, hdeepest, hdepth⟩ := tree.exists_deepest none []
      refine List.mem_map.mpr ⟨deepest.id, List.mem_range.mpr (hbound deepest hdeepest), ?_⟩
      rw [h.ascend_length hdeepest (hbound deepest hdeepest)]
      simpa using hdepth
    · intro length hlength
      obtain ⟨id, hid, rfl⟩ := List.mem_map.mp hlength
      obtain ⟨placed, hplaced, rfl⟩ := hplaced id (List.mem_range.mp hid)
      rw [h.ascend_length hplaced (hbound placed hplaced)]
      have hlength := tree.way_length_lt none [] hplaced
      rw [List.length_nil, Nat.zero_add] at hlength
      exact hlength
  rw [height, hmax, Option.getD_some]

end Tree

/-! ## Built trees -/

/-- Whatever rules a tree was built from, growing it takes no more levels than there are conditions,
and its nodes are structured; going down from the first node is a walk, going up from the end of a
walk gives the items of the walk, and the longest way up is no longer than there are variables. -/
theorem Collected.structured {config : DeciderConfig} {builder : DeciderBuilder ι τ}
    {entries : List (Entry ι τ)} (hcollected : Collected config builder entries) {π ω : Type}
    {factory : Factory ι τ π ω} {decider : Decider ι τ π ω}
    (hbuild : (builder.build factory).outcome = .ok decider) :
    ∃ arena : Arena ι τ,
      (∀ fuel, conditionCount builder.rules ≤ fuel →
        Arena.grow config.maxNodes fuel builder.rules [] none .empty = .ok 0 arena) ∧
      Structured arena.nodes ∧
      (∀ fuel, decider.tree.depth ≤ fuel →
        descend arena.nodes fuel 0 = WalkEnd.node <$> decider.tree.walk) ∧
      (∀ walk ∈ decider.tree.ends [], ∀ fuel, walk.node < fuel →
        itemsDownTo arena.nodes fuel walk.node = walk.items) ∧
      height arena.nodes = decider.tree.depth ∧
      height arena.nodes ≤ (distinct (subjects entries)).length + 1 := by
  obtain ⟨rfl, hopen⟩ := hcollected.opens
  obtain ⟨tree, last, rfl, hcompile⟩ := DeciderBuilder.build_ok hbuild
  have hlayout := compile_layout _ _ hopen ⟨by simp, .nil, by simp⟩ hcompile
  have hfirst : tree.id = 0 := hlayout.id
  have hnodes : ∀ placed ∈ tree.placed none [], tree.nodes[placed.id]? = some placed.node :=
    fun placed hplaced => hlayout.node_iff.mpr ⟨placed, hplaced, rfl, rfl⟩
  refine ⟨⟨tree.nodes, last.calls⟩, fun fuel hfuel => ?_, hlayout.nodes_structured,
    fun fuel hfuel => ?_, fun walk hwalk fuel hfuel => ?_, hlayout.height_eq, ?_⟩
  · rw [compileRules, compile_fuel _ (Nat.le_refl _) hfuel] at hcompile
    rw [Arena.grow_ok hcompile, hfirst]
  · rw [← hfirst]
    exact Tree.descend_eq hfuel hnodes
      (fun placed hplaced => (hlayout.fits none placed hplaced).values) []
  · refine Tree.itemsDownTo_end hnodes (fun placed hplaced above habove => ?_) rfl hwalk hfuel
    exact (hlayout.nodes_structured.parent _ _ above (hnodes placed hplaced) habove).1
  · rw [hlayout.height_eq]
    obtain ⟨deepest, hdeepest, hdepth⟩ := tree.exists_deepest none []
    rw [List.length_nil, Nat.zero_add] at hdepth
    have hfits := hlayout.fits none deepest hdeepest
    have hseparate : Separate (deepest.way.map (·.subject)) :=
      hfits.distinct.sublist (List.sublist_append_left _ _)
    have hlength := hseparate.length_le fun subject hsubject =>
      hfits.known subject (List.mem_append_left _ hsubject)
    rw [List.length_map] at hlength
    omega

theorem structured_flagRules :
    ∃ (decider : Decider Bool String (List String) (List String)) (arena : Arena Bool String),
      Collected .unlimited flagBuilder flagRules ∧
      (flagBuilder.build (.ofItems id)).outcome = .ok decider ∧
      Arena.grow none 4 flagBuilder.rules [] none .empty = .ok 0 arena ∧
      Structured arena.nodes ∧ height arena.nodes = 3 ∧
      (distinct (subjects flagRules)).length = 2 := by
  have hcollected : Collected .unlimited flagBuilder flagRules :=
    ((Collected.new.accept rfl).accept rfl).accept rfl
  have hbuild : (flagBuilder.build (.ofItems id)).outcome =
      .ok (Decider.new flagTree (.ofItems id)) := rfl
  obtain ⟨arena, hgrow, hstructured, -, -, hheight, -⟩ := hcollected.structured hbuild
  exact ⟨_, arena, hcollected, hbuild, hgrow 4 (by decide), hstructured, hheight, by decide⟩

end Runbook.Decision
