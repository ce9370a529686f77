import Runbook.Proofs.Decision.Compilation
import Mathlib.Data.List.Nodup

/-!
# Nodes by number

A tree as a list of nodes that refer to each other by number: a node knows the node above it and,
by value, the nodes below it.  A subtree takes up a range of numbers.
-/

namespace Runbook.Decision

open Variable

variable {ι τ : Type}

/-! ## Nodes -/

/-- A node with the numbers of the nodes above and below it.  The nodes below it are listed in order,
and found by value in a table. -/
structure Node (ι τ : Type) where
  parent? : Option Nat
  subject? : Option (Variable ι)
  items : List τ
  children : List (Value × Nat)
  index : Value → Option Nat
  otherwise? : Option Nat

/-- A step down a tree: the variable that is asked for, and its value unless the branch for all other
values is taken. -/
structure Edge (ι : Type) where
  subject : Variable ι
  value? : Option Value

namespace Node

def new (parent? : Option Nat) (subject? : Option (Variable ι)) (items : List τ) : Node ι τ :=
  ⟨parent?, subject?, items, [], fun _ => none, none⟩

def setOtherwise (child : Nat) (node : Node ι τ) : Node ι τ := { node with otherwise? := some child }

def addChild (node : Node ι τ) (entry : Value × Nat) : Node ι τ :=
  { node with
    children := node.children ++ [entry]
    index := Function.update node.index entry.1 (some entry.2) }

def addChildren (node : Node ι τ) (entries : List (Value × Nat)) : Node ι τ :=
  entries.foldl addChild node

def below (node : Node ι τ) : List (Option Value × Nat) :=
  node.otherwise?.toList.map (none, ·) ++ node.children.map fun (value, child) => (some value, child)

section

variable (node : Node ι τ) (entries : List (Value × Nat))

theorem addChildren_eq : node.addChildren entries =
    { node with
      children := node.children ++ entries
      index := (node.addChildren entries).index } := by
  induction entries generalizing node with
  | nil => simp [addChildren]
  | cons entry entries ih =>
      have hrest := ih (node.addChild entry)
      rw [addChild, List.append_assoc] at hrest
      exact hrest

private theorem addChildren_index (hnodup : (entries.map (·.1)).Nodup) (value : Value)
    (child : Nat) :
    (node.addChildren entries).index value = some child ↔
      (value, child) ∈ entries ∨ (value ∉ entries.map (·.1) ∧ node.index value = some child) := by
  induction entries generalizing node with
  | nil => simp [addChildren]
  | cons entry entries ih =>
      obtain ⟨own, other⟩ := entry
      obtain ⟨hnew, hrest⟩ := List.nodup_cons.mp hnodup
      rw [addChildren, List.foldl_cons, ← addChildren, ih _ hrest]
      by_cases hown : value = own
      · subst hown
        have hnone : (value, child) ∉ entries :=
          fun hmem => hnew (List.mem_map.mpr ⟨_, hmem, rfl⟩)
        simp [addChild, hnone, hnew, eq_comm]
      · simp [addChild, hown]

end

end Node

inductive Way (nodes : List (Node ι τ)) : Nat → List (Edge ι) → Prop where
  | root : Way nodes 0 []
  | step {id node subject edges value? child} :
      Way nodes id edges → nodes[id]? = some node → node.subject? = some subject →
      (value?, child) ∈ node.below → Way nodes child (edges ++ [⟨subject, value?⟩])

/-- Whether nodes are those of one tree: each one but the first has a node above it, which lists it
once; a table by value agrees with the list that it was made from; and on every way down the
variables are different from each other, and none of them is pinned by the values on the way. -/
structure Structured (nodes : List (Node ι τ)) : Prop where
  nonempty : nodes ≠ []
  root : ∀ (id : Nat) (node : Node ι τ), nodes[id]? = some node → (node.parent? = none ↔ id = 0)
  parent : ∀ (id : Nat) (node : Node ι τ) above, nodes[id]? = some node → node.parent? = some above →
    above < id ∧ ∃ upper, nodes[above]? = some upper ∧ (upper.below.map (·.2)).count id = 1
  child : ∀ (above : Nat) (upper : Node ι τ) value? id, nodes[above]? = some upper →
    (value?, id) ∈ upper.below → ∃ node, nodes[id]? = some node ∧ node.parent? = some above
  reached : ∀ (id : Nat) (node : Node ι τ), nodes[id]? = some node → ∃ edges, Way nodes id edges
  values : ∀ (id : Nat) (node : Node ι τ), nodes[id]? = some node → (node.children.map (·.1)).Nodup
  index : ∀ (id : Nat) (node : Node ι τ), nodes[id]? = some node →
    ∀ value child, node.index value = some child ↔ (value, child) ∈ node.children
  leaf : ∀ (id : Nat) (node : Node ι τ), nodes[id]? = some node → node.subject? = none → node.below = []
  split : ∀ (id : Nat) (node : Node ι τ), nodes[id]? = some node → node.subject? ≠ none →
    node.children ≠ []
  distinct : ∀ (id : Nat) (node : Node ι τ) edges, nodes[id]? = some node → Way nodes id edges →
    (edges.map (·.subject) ++ node.subject?.toList).Pairwise
      fun earlier later => earlier.same later = false
  unpinned : ∀ (id : Nat) (node : Node ι τ) edges subject, nodes[id]? = some node → Way nodes id edges →
    node.subject? = some subject → subject.isMeta → subject.dependencies ≠ [] →
    ∃ dependency ∈ subject.dependencies,
      ∀ edge ∈ edges, edge.value? ≠ none → edge.subject.same dependency = false

/-! ## Nodes of a tree -/

structure Placed (ι τ : Type) where
  id : Nat
  way : List (Edge ι)
  node : Node ι τ

namespace Tree

def id : Tree ι τ → Nat
  | .leaf id _ => id
  | .split id .. => id

def splitNode (parent? : Option Nat) (subject : Variable ι) (items : List τ)
    (branches : List (Value × Tree ι τ)) (otherwise : Option (Tree ι τ)) : Node ι τ :=
  Node.addChildren { Node.new parent? (some subject) items with otherwise? := otherwise.map Tree.id }
    (branches.map fun (value, tree) => (value, tree.id))

mutual

/-- The nodes of a tree below a node and at the end of a way, in the order in which they are made. -/
def placed (parent? : Option Nat) (way : List (Edge ι)) : Tree ι τ → List (Placed ι τ)
  | .leaf id items => [⟨id, way, .new parent? none items⟩]
  | .split id subject items branches otherwise =>
    ⟨id, way, splitNode parent? subject items branches otherwise⟩ ::
      (otherwisePlaced id subject way otherwise ++ branchesPlaced id subject way branches)

def branchesPlaced (parent : Nat) (subject : Variable ι) (way : List (Edge ι)) :
    List (Value × Tree ι τ) → List (Placed ι τ)
  | [] => []
  | (value, tree) :: branches =>
    tree.placed (some parent) (way ++ [⟨subject, some value⟩]) ++
      branchesPlaced parent subject way branches

def otherwisePlaced (parent : Nat) (subject : Variable ι) (way : List (Edge ι)) :
    Option (Tree ι τ) → List (Placed ι τ)
  | none => []
  | some tree => tree.placed (some parent) (way ++ [⟨subject, none⟩])

end

def nodes (tree : Tree ι τ) : List (Node ι τ) := (tree.placed none []).map (·.node)

def rows (branches : List (Value × Tree ι τ)) (otherwise : Option (Tree ι τ)) :
    List (Option Value × Tree ι τ) :=
  otherwise.toList.map (none, ·) ++ branches.map fun (value, tree) => (some value, tree)

def rowsPlaced (parent : Nat) (subject : Variable ι) (way : List (Edge ι))
    (rows : List (Option Value × Tree ι τ)) : List (Placed ι τ) :=
  rows.flatMap fun row => row.2.placed (some parent) (way ++ [⟨subject, row.1⟩])

section

variable (parent? : Option Nat) (subject : Variable ι) (items : List τ)
  (branches : List (Value × Tree ι τ)) (otherwise : Option (Tree ι τ))

@[simp] theorem splitNode_parent? :
    (splitNode parent? subject items branches otherwise).parent? = parent? := by
  rw [splitNode, Node.addChildren_eq, Node.new]

@[simp] theorem splitNode_subject? :
    (splitNode parent? subject items branches otherwise).subject? = some subject := by
  rw [splitNode, Node.addChildren_eq, Node.new]

@[simp] theorem splitNode_items :
    (splitNode parent? subject items branches otherwise).items = items := by
  rw [splitNode, Node.addChildren_eq, Node.new]

@[simp] theorem splitNode_otherwise? :
    (splitNode parent? subject items branches otherwise).otherwise? = otherwise.map Tree.id := by
  rw [splitNode, Node.addChildren_eq]

@[simp] theorem splitNode_children : (splitNode parent? subject items branches otherwise).children =
    branches.map fun (value, tree) => (value, tree.id) := by
  rw [splitNode, Node.addChildren_eq, Node.new]
  rfl

theorem splitNode_index (hnodup : (branches.map (·.1)).Nodup) (value : Value) (child : Nat) :
    (splitNode parent? subject items branches otherwise).index value = some child ↔
      (value, child) ∈ branches.map fun (value, tree) => (value, tree.id) := by
  rw [splitNode, Node.addChildren_index]
  · simp [Node.new]
  · rw [List.map_map]
    exact hnodup

theorem splitNode_below : (splitNode parent? subject items branches otherwise).below =
    (rows branches otherwise).map fun row => (row.1, row.2.id) := by
  rw [Node.below, splitNode_children, splitNode_otherwise?]
  cases otherwise <;> simp [rows]

end

private theorem branchesPlaced_eq (parent : Nat) (subject : Variable ι) (way : List (Edge ι))
    (branches : List (Value × Tree ι τ)) :
    branchesPlaced parent subject way branches =
      rowsPlaced parent subject way (branches.map fun (value, tree) => (some value, tree)) := by
  induction branches with
  | nil => rfl
  | cons branch branches ih =>
      obtain ⟨value, tree⟩ := branch
      rw [branchesPlaced, ih]
      rfl

theorem placed_split (parent? : Option Nat) (way : List (Edge ι)) (id : Nat)
    (subject : Variable ι) (items : List τ) (branches : List (Value × Tree ι τ))
    (otherwise : Option (Tree ι τ)) :
    (Tree.split id subject items branches otherwise).placed parent? way =
      ⟨id, way, splitNode parent? subject items branches otherwise⟩ ::
        rowsPlaced id subject way (rows branches otherwise) := by
  rw [placed, branchesPlaced_eq, rows]
  cases otherwise with
  | none => rfl
  | some tree => rw [otherwisePlaced, rowsPlaced, rowsPlaced, List.flatMap_append]; simp

mutual

theorem placed_nodes (parent? : Option Nat) (way other : List (Edge ι)) (tree : Tree ι τ) :
    (tree.placed parent? way).map (·.node) = (tree.placed parent? other).map (·.node) := by
  cases tree with
  | leaf id items => rfl
  | split id subject items branches otherwise =>
      rw [placed, placed, List.map_cons, List.map_cons, List.map_append, List.map_append,
        otherwisePlaced_nodes id subject way other otherwise,
        branchesPlaced_nodes id subject way other branches]

theorem branchesPlaced_nodes (parent : Nat) (subject : Variable ι) (way other : List (Edge ι))
    (branches : List (Value × Tree ι τ)) :
    (branchesPlaced parent subject way branches).map (·.node) =
      (branchesPlaced parent subject other branches).map (·.node) := by
  cases branches with
  | nil => rfl
  | cons branch branches =>
      obtain ⟨value, tree⟩ := branch
      rw [branchesPlaced, branchesPlaced, List.map_append, List.map_append,
        placed_nodes (some parent) _ (other ++ [⟨subject, some value⟩]) tree,
        branchesPlaced_nodes parent subject way other branches]

private theorem otherwisePlaced_nodes (parent : Nat) (subject : Variable ι)
    (way other : List (Edge ι))
    (otherwise : Option (Tree ι τ)) :
    (otherwisePlaced parent subject way otherwise).map (·.node) =
      (otherwisePlaced parent subject other otherwise).map (·.node) := by
  cases otherwise with
  | none => rfl
  | some tree => exact placed_nodes (some parent) _ _ tree

end

end Tree

/-! ## Layouts -/

section

variable {known : Variable ι → Prop}

/-- Whether a node, at the end of a way, is as a compilation makes it. -/
structure Placed.Fits (known : Variable ι → Prop) (placed : Placed ι τ) : Prop where
  values : (placed.node.children.map (·.1)).Nodup
  index : ∀ value child, placed.node.index value = some child ↔ (value, child) ∈ placed.node.children
  listed : (placed.node.below.map (·.2)).Nodup
  leaf : placed.node.subject? = none → placed.node.below = []
  split : placed.node.subject? ≠ none → placed.node.children ≠ []
  known : ∀ subject ∈ placed.way.map (·.subject) ++ placed.node.subject?.toList, known subject
  distinct : (placed.way.map (·.subject) ++ placed.node.subject?.toList).Pairwise
    fun earlier later => earlier.same later = false
  unpinned : ∀ subject, placed.node.subject? = some subject → subject.isMeta →
    subject.dependencies ≠ [] → ∃ dependency ∈ subject.dependencies,
      ∀ edge ∈ placed.way, edge.value? ≠ none → edge.subject.same dependency = false

structure Placed.Under (placed upper : Placed ι τ) : Prop where
  parent : placed.node.parent? = some upper.id
  later : upper.id < placed.id
  edge : ∃ subject value?, upper.node.subject? = some subject ∧
    (value?, placed.id) ∈ upper.node.below ∧ placed.way = upper.way ++ [⟨subject, value?⟩]

structure Tree.Layout (known : Variable ι → Prop) (way : List (Edge ι)) (tree : Tree ι τ)
    (first last : Nat) : Prop where
  id : tree.id = first
  lt : first < last
  ids : ∀ parent?, (tree.placed parent? way).map (·.id) = List.range' first (last - first)
  fits : ∀ parent?, ∀ placed ∈ tree.placed parent? way, placed.Fits known
  above : ∀ parent?, ∀ placed ∈ tree.placed parent? way,
    (placed.id = first ∧ placed.node.parent? = parent? ∧ placed.way = way) ∨
      ∃ upper ∈ tree.placed parent? way, placed.Under upper
  below : ∀ parent?, ∀ upper ∈ tree.placed parent? way, ∀ value? child,
    (value?, child) ∈ upper.node.below →
      ∃ placed ∈ tree.placed parent? way, placed.id = child ∧ placed.Under upper

theorem Tree.Layout.range {way : List (Edge ι)} {tree : Tree ι τ} {first last : Nat}
    (h : tree.Layout known way first last) {parent? : Option Nat} {placed : Placed ι τ}
    (hplaced : placed ∈ tree.placed parent? way) : first ≤ placed.id ∧ placed.id < last := by
  have hid := List.mem_map_of_mem (f := Placed.id) hplaced
  rw [h.ids, List.mem_range'_1] at hid
  omega

theorem Tree.Layout.root {way : List (Edge ι)} {tree : Tree ι τ} {first last : Nat}
    (h : tree.Layout known way first last) (parent? : Option Nat) :
    ∃ placed ∈ tree.placed parent? way,
      placed.id = first ∧ placed.node.parent? = parent? ∧ placed.way = way := by
  have hfirst : first ∈ (tree.placed parent? way).map (·.id) := by
    rw [h.ids, List.mem_range'_1]
    have := h.lt
    omega
  obtain ⟨placed, hplaced, hid⟩ := List.mem_map.mp hfirst
  refine ⟨placed, hplaced, ?_⟩
  rcases h.above parent? placed hplaced with hroot | ⟨upper, hupper, hunder⟩
  · exact hroot
  · have := (h.range hupper).1
    have := hunder.later
    omega

/-! ## Trees side by side -/

private theorem range'_append {first next last : Nat} (hfirst : first ≤ next)
    (hnext : next ≤ last) :
    List.range' first (next - first) ++ List.range' next (last - next) =
      List.range' first (last - first) := by
  obtain ⟨left, rfl⟩ := Nat.exists_eq_add_of_le hfirst
  obtain ⟨right, rfl⟩ := Nat.exists_eq_add_of_le hnext
  rw [Nat.add_sub_cancel_left, Nat.add_sub_cancel_left, List.range'_append_1, Nat.add_assoc,
    Nat.add_sub_cancel_left]

structure Tree.RowsLayout (known : Variable ι → Prop) (parent : Nat) (subject : Variable ι)
    (way : List (Edge ι)) (rows : List (Option Value × Tree ι τ)) (first last : Nat) : Prop where
  le : first ≤ last
  ids : (rowsPlaced parent subject way rows).map (·.id) = List.range' first (last - first)
  fits : ∀ placed ∈ rowsPlaced parent subject way rows, placed.Fits known
  above : ∀ placed ∈ rowsPlaced parent subject way rows,
    (∃ row ∈ rows, placed.id = row.2.id ∧ placed.node.parent? = some parent ∧
      placed.way = way ++ [⟨subject, row.1⟩]) ∨
      ∃ upper ∈ rowsPlaced parent subject way rows, placed.Under upper
  below : ∀ upper ∈ rowsPlaced parent subject way rows, ∀ value? child,
    (value?, child) ∈ upper.node.below →
      ∃ placed ∈ rowsPlaced parent subject way rows, placed.id = child ∧ placed.Under upper
  roots : ∀ row ∈ rows, ∃ placed ∈ rowsPlaced parent subject way rows,
    placed.id = row.2.id ∧ placed.node.parent? = some parent ∧
      placed.way = way ++ [⟨subject, row.1⟩]
  listed : (rows.map (·.2.id)).Nodup
  lower : ∀ row ∈ rows, first ≤ row.2.id

theorem Tree.rowsLayout {parent : Nat} {subject : Variable ι} {way : List (Edge ι)}
    {values : List (Option Value)} {rows : List (Option Value × Tree ι τ)} {first last : Nat}
    (h : Branches (fun value? tree lower upper =>
      tree.Layout known (way ++ [⟨subject, value?⟩]) lower upper) values rows first last) :
    RowsLayout known parent subject way rows first last := by
  induction h with
  | nil =>
      constructor <;> simp [rowsPlaced]
  | @cons value? tree values rows first next last htree _ ih =>
      have hplaced : rowsPlaced parent subject way ((value?, tree) :: rows) =
          tree.placed (some parent) (way ++ [⟨subject, value?⟩]) ++
            rowsPlaced parent subject way rows := rfl
      have hlt := htree.lt
      have hle := ih.le
      constructor
      · omega
      · rw [hplaced, List.map_append, htree.ids, ih.ids, range'_append (Nat.le_of_lt hlt) hle]
      · intro placed hmem
        rcases List.mem_append.mp hmem with hfirst | hrest
        · exact htree.fits _ placed hfirst
        · exact ih.fits placed hrest
      · intro placed hmem
        rcases List.mem_append.mp hmem with hfirst | hrest
        · rcases htree.above _ placed hfirst with ⟨hid, hparent, hway⟩ | ⟨upper, hupper, hunder⟩
          · exact .inl ⟨_, List.mem_cons_self, hid.trans htree.id.symm, hparent, hway⟩
          · exact .inr ⟨upper, List.mem_append_left _ hupper, hunder⟩
        · rcases ih.above placed hrest with ⟨row, hrow, hroot⟩ | ⟨upper, hupper, hunder⟩
          · exact .inl ⟨row, List.mem_cons_of_mem _ hrow, hroot⟩
          · exact .inr ⟨upper, List.mem_append_right _ hupper, hunder⟩
      · intro upper hmem edge child hchild
        rcases List.mem_append.mp hmem with hfirst | hrest
        · obtain ⟨placed, hplaced, hunder⟩ := htree.below _ upper hfirst edge child hchild
          exact ⟨placed, List.mem_append_left _ hplaced, hunder⟩
        · obtain ⟨placed, hplaced, hunder⟩ := ih.below upper hrest edge child hchild
          exact ⟨placed, List.mem_append_right _ hplaced, hunder⟩
      · intro row hrow
        rcases List.mem_cons.mp hrow with rfl | hrow
        · obtain ⟨placed, hmem, hid, hroot⟩ := htree.root (some parent)
          exact ⟨placed, List.mem_append_left _ hmem, hid.trans htree.id.symm, hroot⟩
        · obtain ⟨placed, hmem, hroot⟩ := ih.roots row hrow
          exact ⟨placed, List.mem_append_right _ hmem, hroot⟩
      · refine List.nodup_cons.mpr ⟨fun hmem => ?_, ih.listed⟩
        obtain ⟨row, hrow, hid⟩ := List.mem_map.mp hmem
        have := ih.lower row hrow
        have := htree.id
        simp only at hid
        omega
      · intro row hrow
        rcases List.mem_cons.mp hrow with rfl | hrow
        · exact Nat.le_of_eq htree.id.symm
        · exact Nat.le_trans (Nat.le_of_lt hlt) (ih.lower row hrow)

/-! ## Layouts of trees -/

theorem Tree.Layout.leaf {way : List (Edge ι)} {id : Nat} {items : List τ}
    (hknown : ∀ subject ∈ way.map (·.subject), known subject)
    (hdistinct : (way.map (·.subject)).Pairwise fun earlier later => earlier.same later = false) :
    (Tree.leaf id items).Layout known way id (id + 1) := by
  constructor
  · rfl
  · exact Nat.lt_succ_self id
  · intro parent?
    simp [placed]
  · intro parent? placed hplaced
    rw [List.mem_singleton.mp hplaced]
    constructor <;> simp_all [Node.below, Node.new]
  · intro parent? placed hplaced
    rw [List.mem_singleton.mp hplaced]
    exact .inl ⟨rfl, rfl, rfl⟩
  · intro parent? upper hupper value? child hchild
    rw [List.mem_singleton.mp hupper] at hchild
    simp [Node.below, Node.new] at hchild

theorem Tree.Layout.split {way : List (Edge ι)} {id last : Nat} {subject : Variable ι}
    {items : List τ} {branches : List (Value × Tree ι τ)} {otherwise : Option (Tree ι τ)}
    (hrows : RowsLayout known id subject way (rows branches otherwise) (id + 1) last)
    (hvalues : (branches.map (·.1)).Nodup) (hsome : branches ≠ [])
    (hknown : ∀ other ∈ way.map (·.subject) ++ [subject], known other)
    (hdistinct : (way.map (·.subject) ++ [subject]).Pairwise
      fun earlier later => earlier.same later = false)
    (hunpinned : subject.isMeta → subject.dependencies ≠ [] →
      ∃ dependency ∈ subject.dependencies,
        ∀ edge ∈ way, edge.value? ≠ none → edge.subject.same dependency = false) :
    (Tree.split id subject items branches otherwise).Layout known way id last := by
  have hle := hrows.le
  constructor
  · rfl
  · omega
  · intro parent?
    rw [placed_split, List.map_cons, hrows.ids]
    have hone : last - id = last - (id + 1) + 1 := by omega
    rw [hone, List.range'_succ]
  · intro parent? placed hplaced
    rw [placed_split] at hplaced
    rcases List.mem_cons.mp hplaced with rfl | hplaced
    · constructor
      · rw [splitNode_children, List.map_map]
        exact hvalues
      · rw [splitNode_children]
        exact splitNode_index _ _ _ _ _ hvalues
      · rw [splitNode_below, List.map_map]
        exact hrows.listed
      · simp
      · simpa using hsome
      · simpa using hknown
      · simpa using hdistinct
      · intro other hother
        rw [splitNode_subject?] at hother
        cases hother
        exact hunpinned
    · exact hrows.fits placed hplaced
  · intro parent? placed hplaced
    rw [placed_split] at hplaced ⊢
    rcases List.mem_cons.mp hplaced with rfl | hplaced
    · exact .inl ⟨rfl, splitNode_parent? .., rfl⟩
    · refine .inr ?_
      rcases hrows.above placed hplaced with ⟨row, hrow, hid, hparent, hway⟩ | ⟨upper, hupper, hunder⟩
      · refine ⟨_, List.mem_cons_self, hparent, ?_, subject, row.1, splitNode_subject? .., ?_, hway⟩
        · have := hrows.lower row hrow
          change id < placed.id
          omega
        · rw [splitNode_below, hid]
          exact List.mem_map_of_mem hrow
      · exact ⟨upper, List.mem_cons_of_mem _ hupper, hunder⟩
  · intro parent? upper hupper value? child hchild
    rw [placed_split] at hupper ⊢
    rcases List.mem_cons.mp hupper with rfl | hupper
    · rw [splitNode_below] at hchild
      obtain ⟨row, hrow, hsame⟩ := List.mem_map.mp hchild
      obtain ⟨rfl, rfl⟩ := Prod.mk.inj hsame
      obtain ⟨placed, hplaced, hid, hparent, hway⟩ := hrows.roots row hrow
      refine ⟨placed, List.mem_cons_of_mem _ hplaced, hid, hparent, ?_, subject, row.1,
        splitNode_subject? .., ?_, hway⟩
      · have := hrows.lower row hrow
        change id < placed.id
        omega
      · rw [splitNode_below, hid]
        exact List.mem_map_of_mem hrow
    · obtain ⟨placed, hplaced, hunder⟩ := hrows.below upper hupper value? child hchild
      exact ⟨placed, List.mem_cons_of_mem _ hplaced, hunder⟩

end

/-! ## Whole trees -/

namespace Tree

section

variable {known : Variable ι → Prop} {tree : Tree ι τ} {last : Nat}

theorem Layout.node_iff (h : tree.Layout known [] 0 last) {id : Nat} {node : Node ι τ} :
    tree.nodes[id]? = some node ↔
      ∃ placed ∈ tree.placed none [], placed.id = id ∧ placed.node = node := by
  have hid : ∀ index (placed : Placed ι τ), (tree.placed none [])[index]? = some placed →
      placed.id = index := by
    intro index placed hplaced
    have hsame := congrArg (·[index]?) (h.ids none)
    simp only [List.getElem?_map, hplaced, Option.map_some] at hsame
    have hrange := (List.getElem?_eq_some_iff.mp hsame.symm).2
    simpa using hrange.symm
  rw [nodes, List.getElem?_map, Option.map_eq_some_iff]
  constructor
  · rintro ⟨placed, hplaced, rfl⟩
    exact ⟨placed, List.mem_of_getElem? hplaced, hid id placed hplaced, rfl⟩
  · rintro ⟨placed, hmem, rfl, rfl⟩
    obtain ⟨index, hplaced⟩ := List.mem_iff_getElem?.mp hmem
    exact ⟨placed, hid index placed hplaced ▸ hplaced, rfl⟩

theorem Layout.placed_unique (h : tree.Layout known [] 0 last) {placed other : Placed ι τ}
    (hplaced : placed ∈ tree.placed none []) (hother : other ∈ tree.placed none [])
    (hid : placed.id = other.id) : placed = other :=
  List.inj_on_of_nodup_map (h.ids none ▸ List.nodup_range') hplaced hother hid

theorem Layout.way_iff (h : tree.Layout known [] 0 last) {id : Nat} {edges : List (Edge ι)} :
    Way tree.nodes id edges ↔
      ∃ placed ∈ tree.placed none [], placed.id = id ∧ placed.way = edges := by
  constructor
  · intro hway
    induction hway with
    | root =>
        obtain ⟨placed, hplaced, hid, -, hway⟩ := h.root none
        exact ⟨placed, hplaced, hid, hway⟩
    | @step id node subject edges value? child _ hnode hsubject hchild ih =>
        obtain ⟨upper, hupper, rfl, rfl⟩ := ih
        obtain ⟨other, hother, hid, rfl⟩ := h.node_iff.mp hnode
        obtain rfl := h.placed_unique hother hupper hid
        obtain ⟨placed, hplaced, rfl, hunder⟩ := h.below none other hother value? child hchild
        obtain ⟨own, ownValue?, hown, hbelow, hway⟩ := hunder.edge
        have hedge := List.inj_on_of_nodup_map (h.fits none other hother).listed hbelow hchild rfl
        rw [Option.some.inj (hsubject.symm.trans hown), ← (Prod.mk.inj hedge).1]
        exact ⟨placed, hplaced, rfl, hway⟩
  · rintro ⟨placed, hplaced, rfl, rfl⟩
    -- by the number of the node: the node above has a smaller one
    induction hid : placed.id using Nat.strongRecOn generalizing placed with
    | ind id ih =>
        subst hid
        rcases h.above none placed hplaced with ⟨hid, -, hway⟩ | ⟨upper, hupper, hunder⟩
        · rw [hid, hway]
          exact .root
        · obtain ⟨subject, value?, hsubject, hbelow, hway⟩ := hunder.edge
          rw [hway]
          exact .step (ih upper.id hunder.later upper hupper rfl)
            (h.node_iff.mpr ⟨upper, hupper, rfl, rfl⟩) hsubject hbelow

theorem Layout.nodes_structured (h : tree.Layout known [] 0 last) : Structured tree.nodes where
  nonempty := by
    obtain ⟨placed, hplaced, -⟩ := h.root none
    exact List.ne_nil_of_mem (List.mem_map_of_mem (f := Placed.node) hplaced)
  root id node hnode := by
    obtain ⟨placed, hplaced, rfl, rfl⟩ := h.node_iff.mp hnode
    rcases h.above none placed hplaced with ⟨hid, hparent, -⟩ | ⟨upper, -, hunder⟩
    · simp [hid, hparent]
    · have hlater := hunder.later
      simp only [hunder.parent, reduceCtorEq, false_iff]
      omega
  parent id node above hnode hparent := by
    obtain ⟨placed, hplaced, rfl, rfl⟩ := h.node_iff.mp hnode
    rcases h.above none placed hplaced with ⟨-, hnone, -⟩ | ⟨upper, hupper, hunder⟩
    · rw [hnone] at hparent
      cases hparent
    · obtain rfl := Option.some.inj (hunder.parent.symm.trans hparent)
      obtain ⟨-, value?, -, hbelow, -⟩ := hunder.edge
      refine ⟨hunder.later, upper.node, h.node_iff.mpr ⟨upper, hupper, rfl, rfl⟩, ?_⟩
      exact List.count_eq_one_of_mem (h.fits none upper hupper).listed
        (List.mem_map_of_mem (f := Prod.snd) hbelow)
  child above upper value? id hupper hbelow := by
    obtain ⟨placed, hplaced, rfl, rfl⟩ := h.node_iff.mp hupper
    obtain ⟨lower, hlower, rfl, hunder⟩ := h.below none placed hplaced value? id hbelow
    exact ⟨lower.node, h.node_iff.mpr ⟨lower, hlower, rfl, rfl⟩, hunder.parent⟩
  reached id node hnode := by
    obtain ⟨placed, hplaced, hid, -⟩ := h.node_iff.mp hnode
    exact ⟨placed.way, h.way_iff.mpr ⟨placed, hplaced, hid, rfl⟩⟩
  values id node hnode := by
    obtain ⟨placed, hplaced, -, rfl⟩ := h.node_iff.mp hnode
    exact (h.fits none placed hplaced).values
  index id node hnode := by
    obtain ⟨placed, hplaced, -, rfl⟩ := h.node_iff.mp hnode
    exact (h.fits none placed hplaced).index
  leaf id node hnode := by
    obtain ⟨placed, hplaced, -, rfl⟩ := h.node_iff.mp hnode
    exact (h.fits none placed hplaced).leaf
  split id node hnode := by
    obtain ⟨placed, hplaced, -, rfl⟩ := h.node_iff.mp hnode
    exact (h.fits none placed hplaced).split
  distinct id node edges hnode hway := by
    obtain ⟨placed, hplaced, hid, rfl⟩ := h.node_iff.mp hnode
    obtain ⟨other, hother, hsame, rfl⟩ := h.way_iff.mp hway
    obtain rfl := h.placed_unique hplaced hother (hid.trans hsame.symm)
    exact (h.fits none placed hplaced).distinct
  unpinned id node edges subject hnode hway := by
    obtain ⟨placed, hplaced, hid, rfl⟩ := h.node_iff.mp hnode
    obtain ⟨other, hother, hsame, rfl⟩ := h.way_iff.mp hway
    obtain rfl := h.placed_unique hplaced hother (hid.trans hsame.symm)
    exact (h.fits none placed hplaced).unpinned subject

end

/-! ## Depth -/

theorem depth_pos (tree : Tree ι τ) : 0 < tree.depth := by
  cases tree <;> simp [depth]

mutual

theorem way_length_lt (parent? : Option Nat) (way : List (Edge ι)) (tree : Tree ι τ)
    {placed : Placed ι τ} (h : placed ∈ tree.placed parent? way) :
    placed.way.length < way.length + tree.depth := by
  cases tree with
  | leaf id items =>
      rw [List.mem_singleton.mp h]
      exact Nat.lt_succ_self _
  | split id subject items branches otherwise =>
      rw [Tree.placed, List.mem_cons, List.mem_append] at h
      rw [depth]
      rcases h with rfl | h | h
      · change way.length < _
        omega
      · have := otherwise_way_length_lt id subject way otherwise h
        omega
      · have := branches_way_length_lt id subject way branches h
        omega

theorem branches_way_length_lt (parent : Nat) (subject : Variable ι) (way : List (Edge ι))
    (branches : List (Value × Tree ι τ)) {placed : Placed ι τ}
    (h : placed ∈ branchesPlaced parent subject way branches) :
    placed.way.length < way.length + 1 + branchesDepth branches := by
  cases branches with
  | nil => cases h
  | cons branch branches =>
      obtain ⟨value, tree⟩ := branch
      rw [branchesPlaced, List.mem_append] at h
      rw [branchesDepth]
      rcases h with h | h
      · have := way_length_lt (some parent) (way ++ [⟨subject, some value⟩]) tree h
        rw [List.length_append, List.length_singleton] at this
        omega
      · have := branches_way_length_lt parent subject way branches h
        omega

private theorem otherwise_way_length_lt (parent : Nat) (subject : Variable ι) (way : List (Edge ι))
    (otherwise : Option (Tree ι τ)) {placed : Placed ι τ}
    (h : placed ∈ otherwisePlaced parent subject way otherwise) :
    placed.way.length < way.length + 1 + otherwiseDepth otherwise := by
  cases otherwise with
  | none => cases h
  | some tree =>
      have := way_length_lt (some parent) (way ++ [⟨subject, none⟩]) tree h
      rw [List.length_append, List.length_singleton] at this
      exact this

end

mutual

theorem exists_deepest (parent? : Option Nat) (way : List (Edge ι)) (tree : Tree ι τ) :
    ∃ placed ∈ tree.placed parent? way, placed.way.length + 1 = way.length + tree.depth := by
  cases tree with
  | leaf id items => exact ⟨_, List.mem_singleton_self _, rfl⟩
  | split id subject items branches otherwise =>
      rw [Tree.placed, depth]
      by_cases hbranches : otherwiseDepth otherwise < branchesDepth branches
      · obtain ⟨placed, hplaced, hlength⟩ := exists_deepest_branch id subject way branches (by omega)
        refine ⟨placed, List.mem_cons_of_mem _ (List.mem_append_right _ hplaced), ?_⟩
        omega
      · cases otherwise with
        | none =>
            refine ⟨_, List.mem_cons_self, ?_⟩
            rw [otherwiseDepth] at hbranches ⊢
            change way.length + 1 = _
            omega
        | some tree =>
            obtain ⟨placed, hplaced, hlength⟩ :=
              exists_deepest (some id) (way ++ [⟨subject, none⟩]) tree
            refine ⟨placed, List.mem_cons_of_mem _ (List.mem_append_left _ hplaced), ?_⟩
            rw [List.length_append, List.length_singleton] at hlength
            rw [otherwiseDepth] at hbranches ⊢
            omega

theorem exists_deepest_branch (parent : Nat) (subject : Variable ι) (way : List (Edge ι))
    (branches : List (Value × Tree ι τ)) (h : branchesDepth branches ≠ 0) :
    ∃ placed ∈ branchesPlaced parent subject way branches,
      placed.way.length + 1 = way.length + 1 + branchesDepth branches := by
  cases branches with
  | nil => exact absurd rfl h
  | cons branch branches =>
      obtain ⟨value, tree⟩ := branch
      have hpos := tree.depth_pos
      rw [branchesPlaced, branchesDepth]
      by_cases hrest : tree.depth < branchesDepth branches
      · obtain ⟨placed, hplaced, hlength⟩ :=
          exists_deepest_branch parent subject way branches (by omega)
        exact ⟨placed, List.mem_append_right _ hplaced, by omega⟩
      · obtain ⟨placed, hplaced, hlength⟩ :=
          exists_deepest (some parent) (way ++ [⟨subject, some value⟩]) tree
        rw [List.length_append, List.length_singleton] at hlength
        exact ⟨placed, List.mem_append_left _ hplaced, by omega⟩

end

end Tree

end Runbook.Decision
