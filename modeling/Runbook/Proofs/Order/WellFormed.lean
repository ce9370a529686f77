import Runbook.Proofs.Order.History
import Mathlib.Data.List.Nodup

/-!
# Well-formed orders

Every key has one node, links lead from node to node, and a remembered arrangement is the one that
would be found now.  All reachable orders are so.  An order holds only values that the changes that
led to it were allowed to register.
-/

namespace Runbook.Order

variable {V : Type}

structure WellFormed (order : Order V) : Prop where
  keys_nodup : order.keys.Nodup
  link_bounds : ∀ link ∈ order.links,
    link.source < order.nodeCount ∧ link.target < order.nodeCount
  arranged : ∀ places, order.arranged = some places → order.linearize = .ok places

/-! ## Places of keys -/

theorem mem_keys_iff_place? (order : Order V) (key : Key) :
    key ∈ order.keys ↔ ∃ place, order.place? key = some place := by
  rw [← Option.isSome_iff_exists, place?, Array.findIdx?_isSome]
  simp [keys, Array.mem_iff_getElem]

theorem place?_eq_none_iff (order : Order V) (key : Key) :
    order.place? key = none ↔ key ∉ order.keys := by
  rw [mem_keys_iff_place?, ← Option.isSome_iff_exists, Option.not_isSome_iff_eq_none]

theorem place?_lt {order : Order V} {key : Key} {place : Nat}
    (h : order.place? key = some place) : place < order.nodeCount := by
  rw [place?, Array.findIdx?_eq_some_iff_getElem] at h
  exact h.1

theorem keyAt?_place? {order : Order V} {key : Key} {place : Nat}
    (h : order.place? key = some place) : order.keyAt? place = some key := by
  rw [place?, Array.findIdx?_eq_some_iff_getElem] at h
  obtain ⟨hlt, hkey, -⟩ := h
  simp only [decide_eq_true_eq] at hkey
  simp [keyAt?, hlt, hkey]

theorem keyAt?_eq (order : Order V) (place : Nat) : order.keyAt? place = order.keys[place]? := by
  simp [keyAt?, keys]

theorem nodeCount_eq (order : Order V) : order.nodeCount = order.keys.length := by
  simp [nodeCount, keys]

theorem keyAt?_lt {order : Order V} {place : Nat} {key : Key}
    (hkey : order.keyAt? place = some key) : place < order.nodeCount := by
  rw [keyAt?_eq] at hkey
  rw [nodeCount_eq]
  exact (List.getElem?_eq_some_iff.mp hkey).1

/-! ## Single changes -/

section Primitive

variable {order : Order V}

theorem empty_wellFormed : (empty : Order V).WellFormed where
  keys_nodup := List.nodup_nil
  link_bounds := by simp [empty]
  arranged := by simp [empty]

@[simp] theorem nodeCount_addNode (order : Order V) (key : Key) :
    (order.addNode key).nodeCount = order.nodeCount + 1 := by
  simp [nodeCount, addNode]

@[simp] theorem nodeCount_addLink (order : Order V) (source target : Nat) :
    (order.addLink source target).nodeCount = order.nodeCount := rfl

@[simp] theorem nodeCount_addItem (order : Order V) (place : Nat) (value : V) :
    (order.addItem place value).nodeCount = order.nodeCount := by
  simp [nodeCount, addItem]

@[simp] theorem keys_addNode (order : Order V) (key : Key) :
    (order.addNode key).keys = order.keys ++ [key] := by
  simp [keys, addNode]

@[simp] theorem keys_addLink (order : Order V) (source target : Nat) :
    (order.addLink source target).keys = order.keys := rfl

@[simp] theorem keys_addItem (order : Order V) (place : Nat) (value : V) :
    (order.addItem place value).keys = order.keys := by
  apply List.ext_getElem?
  intro index
  simp only [keys, addItem, List.getElem?_map, Array.getElem?_toList, Array.getElem?_modify]
  split
  · cases order.nodes[index]? <;> rfl
  · rfl

theorem WellFormed.addNode (h : order.WellFormed) {key : Key} (hnew : key ∉ order.keys) :
    (order.addNode key).WellFormed where
  keys_nodup := by
    rw [keys_addNode, List.nodup_append]
    refine ⟨h.keys_nodup, List.nodup_singleton key, ?_⟩
    intro known hknown other hother
    rw [List.mem_singleton.mp hother]
    rintro rfl
    exact hnew hknown
  link_bounds := by
    intro link hlink
    obtain ⟨hsource, htarget⟩ := h.link_bounds link hlink
    rw [nodeCount_addNode]
    omega
  arranged := by simp [Order.addNode]

theorem WellFormed.addLink (h : order.WellFormed) {source target : Nat}
    (hsource : source < order.nodeCount) (htarget : target < order.nodeCount) :
    (order.addLink source target).WellFormed where
  keys_nodup := h.keys_nodup
  link_bounds := by
    intro link hlink
    rw [nodeCount_addLink]
    rcases Array.mem_push.mp hlink with hold | rfl
    · exact h.link_bounds link hold
    · exact ⟨hsource, htarget⟩
  arranged := by simp [Order.addLink]

theorem WellFormed.addItem (h : order.WellFormed) (place : Nat) (value : V) :
    (order.addItem place value).WellFormed where
  keys_nodup := by rw [keys_addItem]; exact h.keys_nodup
  link_bounds := by
    intro link hlink
    rw [nodeCount_addItem]
    exact h.link_bounds link hlink
  arranged := by simp [Order.addItem]

end Primitive

/-! ## Making sure of a node -/

theorem ensure_of_place? {order : Order V} {key : Key} {place : Nat}
    (h : order.place? key = some place) : order.ensure key = (place, order) := by
  rw [ensure.eq_def, h]

theorem ensure_pre {order : Order V} {base : Key} (h : order.place? (.pre base) = none) :
    order.ensure (.pre base) =
      (order.nodeCount,
        ((order.addNode (.pre base)).ensure base).2.addLink order.nodeCount
          ((order.addNode (.pre base)).ensure base).1) := by
  rw [ensure.eq_def, h]

theorem ensure_post {order : Order V} {base : Key} (h : order.place? (.post base) = none) :
    order.ensure (.post base) =
      (order.nodeCount,
        ((order.addNode (.post base)).ensure base).2.addLink
          ((order.addNode (.post base)).ensure base).1 order.nodeCount) := by
  rw [ensure.eq_def, h]

theorem ensure_unique {order : Order V} {id : KeyId} (h : order.place? (.unique id) = none) :
    order.ensure (.unique id) = (order.nodeCount, order.addNode (.unique id)) := by
  rw [ensure.eq_def, h]

theorem ensure_constant {order : Order V} {name : String}
    (h : order.place? (.constant name) = none) :
    order.ensure (.constant name) = (order.nodeCount, order.addNode (.constant name)) := by
  rw [ensure.eq_def, h]

/-- A key is there, or it gets a node; one that stands before or after another key then has that
key made sure of and is linked to it. -/
theorem ensure_induction {motive : Order V → Key → Nat × Order V → Prop}
    (known : ∀ {order key place}, order.place? key = some place → motive order key (place, order))
    (plain : ∀ {order key}, key ∉ order.keys →
      motive order key (order.nodeCount, order.addNode key))
    (pre : ∀ {order base place made}, .pre base ∉ order.keys →
      (order.addNode (.pre base)).ensure base = (place, made) →
      motive (order.addNode (.pre base)) base (place, made) →
      motive order (.pre base) (order.nodeCount, made.addLink order.nodeCount place))
    (post : ∀ {order base place made}, .post base ∉ order.keys →
      (order.addNode (.post base)).ensure base = (place, made) →
      motive (order.addNode (.post base)) base (place, made) →
      motive order (.post base) (order.nodeCount, made.addLink place order.nodeCount))
    (order : Order V) (key : Key) : motive order key (order.ensure key) := by
  induction key generalizing order with
  | unique id =>
      cases hplace : order.place? (.unique id) with
      | some place => rw [ensure_of_place? hplace]; exact known hplace
      | none => rw [ensure_unique hplace]; exact plain ((place?_eq_none_iff order _).mp hplace)
  | constant name =>
      cases hplace : order.place? (.constant name) with
      | some place => rw [ensure_of_place? hplace]; exact known hplace
      | none => rw [ensure_constant hplace]; exact plain ((place?_eq_none_iff order _).mp hplace)
  | pre base ih =>
      cases hplace : order.place? (.pre base) with
      | some place => rw [ensure_of_place? hplace]; exact known hplace
      | none =>
          rw [ensure_pre hplace]
          exact pre ((place?_eq_none_iff order _).mp hplace) rfl (ih _)
  | post base ih =>
      cases hplace : order.place? (.post base) with
      | some place => rw [ensure_of_place? hplace]; exact known hplace
      | none =>
          rw [ensure_post hplace]
          exact post ((place?_eq_none_iff order _).mp hplace) rfl (ih _)

theorem ensure_bounds (order : Order V) (key : Key) :
    (order.ensure key).1 < (order.ensure key).2.nodeCount ∧
      order.nodeCount ≤ (order.ensure key).2.nodeCount := by
  refine ensure_induction
    (motive := fun order _ made => made.1 < made.2.nodeCount ∧ order.nodeCount ≤ made.2.nodeCount)
    ?_ ?_ ?_ ?_ order key
  · intro order key place hplace
    exact ⟨place?_lt hplace, Nat.le_refl _⟩
  · intro order key _
    simp
  · rintro order base place made - - ⟨-, hgrows⟩
    simp only [nodeCount_addNode, nodeCount_addLink] at hgrows ⊢
    omega
  · rintro order base place made - - ⟨-, hgrows⟩
    simp only [nodeCount_addNode, nodeCount_addLink] at hgrows ⊢
    omega

theorem ensure_keeps {kept : Order V → Prop}
    (hnode : ∀ {order : Order V} {key}, key ∉ order.keys → kept order → kept (order.addNode key))
    (hlink : ∀ {order : Order V} {source target}, source < order.nodeCount →
      target < order.nodeCount → kept order → kept (order.addLink source target))
    {order : Order V} (h : kept order) (key : Key) : kept (order.ensure key).2 := by
  refine ensure_induction (motive := fun order _ made => kept order → kept made.2)
    ?_ ?_ ?_ ?_ order key h
  · intro order key place _ hkept
    exact hkept
  · intro order key hnew hkept
    exact hnode hnew hkept
  · intro order base place made hnew hmade ih hkept
    obtain ⟨hplace, hgrows⟩ := ensure_bounds (order.addNode (.pre base)) base
    simp only [hmade, nodeCount_addNode] at hplace hgrows
    exact hlink (by omega) hplace (ih (hnode hnew hkept))
  · intro order base place made hnew hmade ih hkept
    obtain ⟨hplace, hgrows⟩ := ensure_bounds (order.addNode (.post base)) base
    simp only [hmade, nodeCount_addNode] at hplace hgrows
    exact hlink hplace (by omega) (ih (hnode hnew hkept))

theorem WellFormed.ensure {order : Order V} (h : order.WellFormed) (key : Key) :
    (order.ensure key).2.WellFormed :=
  ensure_keeps (fun hnew hwell => hwell.addNode hnew)
    (fun hsource htarget hwell => hwell.addLink hsource htarget) h key

/-! ## All changes -/

theorem link_eq (order : Order V) (source target : Key) :
    (order.link source target).2 =
      ((order.ensure source).2.ensure target).2.addLink (order.ensure source).1
        ((order.ensure source).2.ensure target).1 := rfl

theorem WellFormed.link {order : Order V} (h : order.WellFormed) (source target : Key) :
    (order.link source target).2.WellFormed := by
  rw [link_eq]
  obtain ⟨hsource, -⟩ := ensure_bounds order source
  obtain ⟨htarget, hgrows⟩ := ensure_bounds (order.ensure source).2 target
  exact ((h.ensure source).ensure target).addLink (by omega) htarget

private theorem placeStack_congr {first second : Order V} (hlinks : first.links = second.links)
    (fuel : Nat) (stack : List Frame) (placed : List Nat) :
    first.placeStack fuel stack placed = second.placeStack fuel stack placed := by
  have hdependencies : first.dependenciesAt = second.dependenciesAt := by
    funext place
    rw [dependenciesAt, dependenciesAt, hlinks]
  fun_induction first.placeStack fuel stack placed <;> simp_all [placeStack]

theorem linearize_congr (first second : Order V) (hnodes : first.nodes = second.nodes)
    (hlinks : first.links = second.links) : first.linearize = second.linearize := by
  have hroot : first.placeRoot = second.placeRoot := by
    funext placed root
    simp only [placeRoot, placeFuel, dependenciesAt, hnodes, hlinks, placeStack_congr hlinks]
  have hkeyAt : first.keyAt? = second.keyAt? := by
    funext place
    rw [keyAt?, keyAt?, hnodes]
  rw [linearize, linearize, nodeCount, nodeCount, hnodes, hroot, hkeyAt]

theorem WellFormed.of_same_graph {first second : Order V} (h : first.WellFormed)
    (hnodes : second.nodes = first.nodes) (hlinks : second.links = first.links)
    (harranged : ∀ places, second.arranged = some places → second.linearize = .ok places) :
    second.WellFormed where
  keys_nodup := by rw [keys, hnodes]; exact h.keys_nodup
  link_bounds := by rw [nodeCount, hnodes, hlinks]; exact h.link_bounds
  arranged := harranged

theorem WellFormed.freshKey {order : Order V} (h : order.WellFormed) :
    order.freshKey.2.WellFormed :=
  h.of_same_graph rfl rfl fun places hplaces =>
    (linearize_congr order.freshKey.2 order rfl rfl).trans (h.arranged places hplaces)

theorem WellFormed.arrange {order : Order V} (h : order.WellFormed) :
    order.arrange.2.WellFormed := by
  rw [Order.arrange]
  split
  · exact h
  · split
    · next places hplaces =>
      refine h.of_same_graph rfl rfl ?_
      rintro places' ⟨rfl⟩
      exact (linearize_congr { order with arranged := some places } order rfl rfl).trans hplaces
    · exact h

theorem WellFormed.arrange_eq {order : Order V} (h : order.WellFormed) :
    order.arrange.1 = order.linearize := by
  rw [Order.arrange]
  split
  · next places hplaces => exact (h.arranged places hplaces).symm
  · split <;> next hlinearize => exact hlinearize.symm

@[simp] theorem keys_unregister (order : Order V) (token : Token) :
    (order.unregister token).2.keys = order.keys := by
  cases token with
  | item token =>
      rw [unregister]
      split
      · simp [keys, Node.remove, Function.comp_def]
      · rfl
  | link token =>
      rw [unregister]
      split <;> rfl

theorem keyAt?_unregister (order : Order V) (token : Token) (place : Nat) :
    (order.unregister token).2.keyAt? place = order.keyAt? place := by
  rw [keyAt?_eq, keyAt?_eq, keys_unregister]

theorem WellFormed.unregister {order : Order V} (h : order.WellFormed) (token : Token) :
    (order.unregister token).2.WellFormed := by
  have hkeys : (order.unregister token).2.keys.Nodup := by
    rw [keys_unregister]
    exact h.keys_nodup
  cases token with
  | item token =>
      rw [Order.unregister] at hkeys ⊢
      split
      · next hholds =>
        rw [if_pos hholds] at hkeys
        exact ⟨hkeys, by simpa [nodeCount] using h.link_bounds, by simp⟩
      · exact h
  | link token =>
      rw [Order.unregister]
      split
      · refine ⟨h.keys_nodup, ?_, by simp⟩
        intro link hlink
        exact h.link_bounds link (Array.mem_filter.mp hlink).1
      · exact h

theorem WellFormed.change {allowed : V → Prop} {before after : Order V}
    (hchange : Change allowed before after) (h : before.WellFormed) : after.WellFormed := by
  cases hchange with
  | expect key => exact h.ensure key
  | attach key value _ => exact (h.ensure key).addItem _ value
  | link source target => exact h.link source target
  | fresh => exact h.freshKey
  | unregister token => exact h.unregister token
  | read => exact h.arrange

theorem WellFormed.changes {allowed : V → Prop} {before after : Order V}
    (hchanges : Changes allowed before after) (h : before.WellFormed) : after.WellFormed :=
  hchanges.keeps WellFormed.change h

theorem Reachable.wellFormed [BEq V] {order : Order V} (h : Reachable order) :
    order.WellFormed :=
  empty_wellFormed.changes h.changes

/-! ## Registered values -/

def Holds (allowed : V → Prop) (order : Order V) : Prop :=
  ∀ node ∈ order.nodes, ∀ value ∈ node.values, allowed value

section

variable {allowed : V → Prop} {order : Order V}

theorem Holds.values (h : order.Holds allowed) {key : Key} {value : V}
    (hvalue : value ∈ order.values key) : allowed value := by
  rw [Order.values] at hvalue
  cases hplace : order.place? key with
  | none => simp [hplace] at hvalue
  | some place =>
      simp only [hplace, valuesAt] at hvalue
      cases hnode : order.nodes[place]? with
      | none => simp [hnode] at hvalue
      | some node =>
          simp only [hnode] at hvalue
          exact h node (Array.mem_of_getElem? hnode) value hvalue

theorem Holds.addNode (h : order.Holds allowed) (key : Key) :
    (order.addNode key).Holds allowed := by
  intro node hnode
  rcases Array.mem_push.mp hnode with hold | rfl
  · exact h node hold
  · simp [Node.values]

theorem Holds.addLink (h : order.Holds allowed) (source target : Nat) :
    (order.addLink source target).Holds allowed := h

theorem Holds.addItem (h : order.Holds allowed) (place : Nat) {value : V} (hvalue : allowed value) :
    (order.addItem place value).Holds allowed := by
  intro node hnode
  obtain ⟨index, hnode⟩ := Array.mem_iff_getElem?.mp hnode
  rw [Order.addItem, Array.getElem?_modify] at hnode
  by_cases hindex : place = index
  · rw [if_pos hindex] at hnode
    obtain ⟨old, hold, rfl⟩ := Option.map_eq_some_iff.mp hnode
    intro other hother
    simp only [Node.values, List.map_append, List.mem_append, List.map_cons, List.map_nil,
      List.mem_singleton] at hother
    rcases hother with hother | rfl
    · exact h old (Array.mem_of_getElem? hold) other hother
    · exact hvalue
  · rw [if_neg hindex] at hnode
    exact h node (Array.mem_of_getElem? hnode)

theorem Holds.ensure (h : order.Holds allowed) (key : Key) :
    (order.ensure key).2.Holds allowed :=
  ensure_keeps (fun _ hholds => hholds.addNode _) (fun _ _ hholds => hholds.addLink _ _) h key

theorem Holds.unregister (h : order.Holds allowed) (token : Token) :
    (order.unregister token).2.Holds allowed := by
  cases token with
  | item token =>
      rw [Order.unregister]
      split
      · intro node hnode value hvalue
        obtain ⟨old, hold, rfl⟩ := Array.mem_map.mp hnode
        obtain ⟨item, hitem, rfl⟩ := List.mem_map.mp hvalue
        exact h old hold item.value (List.mem_map_of_mem (List.mem_filter.mp hitem).1)
      · exact h
  | link token =>
      rw [Order.unregister]
      split <;> exact h

theorem Holds.arrange (h : order.Holds allowed) : order.arrange.2.Holds allowed := by
  rw [Order.arrange]
  split
  · exact h
  · split <;> exact h

theorem Holds.change {after : Order V} (hchange : Change allowed order after)
    (h : order.Holds allowed) : after.Holds allowed := by
  cases hchange with
  | expect key => exact h.ensure key
  | attach key value hvalue => exact (h.ensure key).addItem _ hvalue
  | link source target =>
      rw [link_eq]
      exact ((h.ensure source).ensure target).addLink _ _
  | fresh => exact h
  | unregister token => exact h.unregister token
  | read => exact h.arrange

theorem Changes.holds (hchanges : Changes allowed .empty order) : order.Holds allowed :=
  hchanges.keeps Holds.change (by simp [Holds, empty])

end

end Runbook.Order
