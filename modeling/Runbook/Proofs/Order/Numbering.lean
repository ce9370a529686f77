import Runbook.Proofs.Order.WellFormed

/-!
# Numbers of values and links

Registered values and links are numbered as they are added.  No number is given twice, so a token
takes back the one value or link that it was given for.
-/

namespace Runbook.Order

variable {V : Type} {order : Order V}

/-! ## Registered values by place -/

def itemsAt (order : Order V) (place : Nat) : List (Item V) :=
  match order.nodes[place]? with
  | some node => node.items
  | none => []

theorem valuesAt_eq (order : Order V) (place : Nat) :
    order.valuesAt place = (order.itemsAt place).map (·.value) := by
  rw [valuesAt, itemsAt]
  cases order.nodes[place]? <;> rfl

theorem mem_itemsAt {place : Nat} {item : Item V} :
    item ∈ order.itemsAt place ↔ ∃ node, order.nodes[place]? = some node ∧ item ∈ node.items := by
  rw [itemsAt]
  cases order.nodes[place]? <;> simp

@[simp] theorem itemsAt_addNode (order : Order V) (key : Key) (place : Nat) :
    (order.addNode key).itemsAt place = order.itemsAt place := by
  simp only [itemsAt, addNode, Array.getElem?_push]
  by_cases hplace : place = order.nodes.size
  · simp [hplace]
  · rw [if_neg hplace]

@[simp] theorem itemsAt_addLink (order : Order V) (source target place : Nat) :
    (order.addLink source target).itemsAt place = order.itemsAt place := rfl

theorem itemsAt_addItem {place : Nat} (hplace : place < order.nodeCount) (value : V)
    (other : Nat) :
    (order.addItem place value).itemsAt other =
      order.itemsAt other ++ if place = other then [⟨order.nextItem, value⟩] else [] := by
  simp only [itemsAt, addItem, Array.getElem?_modify]
  by_cases hother : place = other
  · subst hother
    have hnode : order.nodes[place]? = some order.nodes[place] := Array.getElem?_eq_getElem hplace
    simp [hnode]
  · simp [hother]

/-! ## Taking one back -/

theorem itemsAt_unregister_item (order : Order V) (token : ItemToken) (place : Nat) :
    (order.unregister (.item token)).2.itemsAt place =
      (order.itemsAt place).filter (·.id ≠ token.id) := by
  rw [unregister]
  split
  · simp only [itemsAt, Array.getElem?_map]
    cases order.nodes[place]? <;> rfl
  · next hnone =>
    refine (List.filter_eq_self.mpr fun item hitem => ?_).symm
    obtain ⟨node, hnode, hitem⟩ := mem_itemsAt.mp hitem
    have hnot : ∀ item ∈ node.items, item.id ≠ token.id := by
      simpa [Node.holds] using fun h => hnone (Array.any_eq_true'.mpr
        ⟨node, Array.mem_of_getElem? hnode, h⟩)
    simpa using hnot item hitem

theorem links_unregister_item (order : Order V) (token : ItemToken) :
    (order.unregister (.item token)).2.links = order.links := by
  rw [unregister]
  split <;> rfl

theorem itemsAt_unregister_link (order : Order V) (token : LinkToken) (place : Nat) :
    (order.unregister (.link token)).2.itemsAt place = order.itemsAt place := by
  rw [unregister]
  split <;> rfl

theorem links_unregister_link (order : Order V) (token : LinkToken) :
    (order.unregister (.link token)).2.links.toList =
      order.links.toList.filter (·.id ≠ token.id) := by
  rw [unregister]
  split
  · simp
  · next hnone =>
    refine (List.filter_eq_self.mpr fun link hlink => ?_).symm
    simpa using fun hid => hnone (Array.any_eq_true'.mpr
      ⟨link, Array.mem_toList_iff.mp hlink, by simpa using hid⟩)

theorem unregister_item_ok {token : ItemToken} {place : Nat} {item : Item V}
    (hitem : item ∈ order.itemsAt place) (hid : item.id = token.id) :
    (order.unregister (.item token)).1 = .ok () := by
  obtain ⟨node, hnode, hitem⟩ := mem_itemsAt.mp hitem
  have hholds : order.nodes.any (·.holds token.id) = true :=
    Array.any_eq_true'.mpr ⟨node, Array.mem_of_getElem? hnode,
      List.any_eq_true.mpr ⟨item, hitem, by simpa using hid⟩⟩
  rw [unregister, if_pos hholds]

theorem unregister_link_ok {token : LinkToken} {link : Link} (hlink : link ∈ order.links)
    (hid : link.id = token.id) : (order.unregister (.link token)).1 = .ok () := by
  have hholds : order.links.any (·.id = token.id) = true :=
    Array.any_eq_true'.mpr ⟨link, hlink, by simpa using hid⟩
  rw [unregister, if_pos hholds]

theorem unregister_item_refused {token : ItemToken}
    (hnone : ∀ place, ∀ item ∈ order.itemsAt place, item.id ≠ token.id) :
    order.unregister (.item token) = (.error (.alreadyRemoved (.item token)), order) := by
  have hholds : ¬ order.nodes.any (·.holds token.id) = true := by
    intro hany
    obtain ⟨node, hnode, hholds⟩ := Array.any_eq_true'.mp hany
    obtain ⟨item, hitem, hid⟩ := List.any_eq_true.mp hholds
    obtain ⟨place, hplace⟩ := Array.mem_iff_getElem?.mp hnode
    exact hnone place item (mem_itemsAt.mpr ⟨node, hplace, hitem⟩) (by simpa using hid)
  rw [unregister, if_neg hholds]

theorem unregister_link_refused {token : LinkToken}
    (hnone : ∀ link ∈ order.links, link.id ≠ token.id) :
    order.unregister (.link token) = (.error (.alreadyRemoved (.link token)), order) := by
  have hholds : ¬ order.links.any (·.id = token.id) = true := by
    intro hany
    obtain ⟨link, hlink, hid⟩ := Array.any_eq_true'.mp hany
    exact hnone link hlink (by simpa using hid)
  rw [unregister, if_neg hholds]

/-! ## Numbers -/

structure Numbered (order : Order V) : Prop where
  item_lt : ∀ place, ∀ item ∈ order.itemsAt place, item.id < order.nextItem
  link_lt : ∀ link ∈ order.links, link.id < order.nextLink
  link_unique : ∀ first ∈ order.links, ∀ second ∈ order.links,
    first.id = second.id → first = second

private theorem empty_numbered : (empty : Order V).Numbered where
  item_lt := by simp [itemsAt, empty]
  link_lt := by simp [empty]
  link_unique := by simp [empty]

theorem Numbered.addNode (h : order.Numbered) (key : Key) : (order.addNode key).Numbered where
  item_lt := by
    intro place item hitem
    rw [itemsAt_addNode] at hitem
    exact h.item_lt place item hitem
  link_lt := h.link_lt
  link_unique := h.link_unique

theorem Numbered.addLink (h : order.Numbered) (source target : Nat) :
    (order.addLink source target).Numbered where
  item_lt := h.item_lt
  link_lt := by
    intro link hlink
    change link.id < order.nextLink + 1
    rcases Array.mem_push.mp hlink with hold | rfl
    · exact Nat.lt_succ_of_lt (h.link_lt link hold)
    · exact Nat.lt_succ_self _
  link_unique := by
    intro first hfirst second hsecond hid
    rcases Array.mem_push.mp hfirst with hfirst | rfl <;>
      rcases Array.mem_push.mp hsecond with hsecond | rfl
    · exact h.link_unique first hfirst second hsecond hid
    · exact absurd hid (Nat.ne_of_lt (h.link_lt first hfirst))
    · exact absurd hid.symm (Nat.ne_of_lt (h.link_lt second hsecond))
    · rfl

theorem Numbered.addItem (h : order.Numbered) {place : Nat} (hplace : place < order.nodeCount)
    (value : V) : (order.addItem place value).Numbered where
  item_lt := by
    intro other item hitem
    change item.id < order.nextItem + 1
    rw [itemsAt_addItem hplace, List.mem_append] at hitem
    rcases hitem with hold | hnew
    · exact Nat.lt_succ_of_lt (h.item_lt other item hold)
    · split at hnew
      · rw [List.mem_singleton.mp hnew]
        exact Nat.lt_succ_self _
      · simp at hnew
  link_lt := h.link_lt
  link_unique := h.link_unique

theorem Numbered.ensure (h : order.Numbered) (key : Key) : (order.ensure key).2.Numbered :=
  ensure_keeps (fun _ hnumbered => hnumbered.addNode _)
    (fun _ _ hnumbered => hnumbered.addLink _ _) h key

theorem nextItem_unregister (order : Order V) (token : Token) :
    (order.unregister token).2.nextItem = order.nextItem := by
  cases token <;> rw [unregister] <;> split <;> rfl

theorem nextLink_unregister (order : Order V) (token : Token) :
    (order.unregister token).2.nextLink = order.nextLink := by
  cases token <;> rw [unregister] <;> split <;> rfl

theorem Numbered.unregister (h : order.Numbered) (token : Token) :
    (order.unregister token).2.Numbered := by
  have hlinks : ∀ link ∈ (order.unregister token).2.links, link ∈ order.links := by
    intro link hlink
    rw [← Array.mem_toList_iff] at hlink
    cases token with
    | item token =>
        rw [links_unregister_item] at hlink
        exact Array.mem_toList_iff.mp hlink
    | link token =>
        rw [links_unregister_link] at hlink
        exact Array.mem_toList_iff.mp (List.mem_filter.mp hlink).1
  constructor
  · intro place item hitem
    rw [nextItem_unregister]
    cases token with
    | item token =>
        rw [itemsAt_unregister_item] at hitem
        exact h.item_lt place item (List.mem_filter.mp hitem).1
    | link token =>
        rw [itemsAt_unregister_link] at hitem
        exact h.item_lt place item hitem
  · intro link hlink
    rw [nextLink_unregister]
    exact h.link_lt link (hlinks link hlink)
  · intro first hfirst second hsecond
    exact h.link_unique first (hlinks first hfirst) second (hlinks second hsecond)

theorem Numbered.arrange (h : order.Numbered) : order.arrange.2.Numbered := by
  rw [Order.arrange]
  split
  · exact h
  · split
    · exact ⟨h.item_lt, h.link_lt, h.link_unique⟩
    · exact h

theorem Numbered.change {allowed : V → Prop} {after : Order V}
    (hchange : Change allowed order after) (h : order.Numbered) : after.Numbered := by
  cases hchange with
  | expect key => exact h.ensure key
  | attach key value _ => exact (h.ensure key).addItem (ensure_bounds order key).1 value
  | link source target =>
      rw [link_eq]
      exact ((h.ensure source).ensure target).addLink _ _
  | fresh => exact ⟨h.item_lt, h.link_lt, h.link_unique⟩
  | unregister token => exact h.unregister token
  | read => exact h.arrange

theorem Reachable.numbered [BEq V] (h : Reachable order) : order.Numbered :=
  h.changes.keeps Numbered.change empty_numbered

/-! ## Links by age -/

structure Aged (order : Order V) : Prop where
  ascending : order.links.toList.Pairwise fun older newer => older.id < newer.id
  link_lt : ∀ link ∈ order.links, link.id < order.nextLink

private theorem empty_aged : (empty : Order V).Aged where
  ascending := List.Pairwise.nil
  link_lt := by simp [empty]

theorem Aged.of_same_links {other : Order V} (h : order.Aged) (hlinks : other.links = order.links)
    (hnext : other.nextLink = order.nextLink) : other.Aged where
  ascending := by rw [hlinks]; exact h.ascending
  link_lt := by rw [hlinks, hnext]; exact h.link_lt

theorem Aged.addLink (h : order.Aged) (source target : Nat) : (order.addLink source target).Aged where
  ascending := by
    rw [Order.addLink, Array.toList_push, List.pairwise_append]
    refine ⟨h.ascending, List.pairwise_singleton _ _, fun older hold newer hnew => ?_⟩
    rw [List.mem_singleton.mp hnew]
    exact h.link_lt older (Array.mem_toList_iff.mp hold)
  link_lt := by
    intro link hlink
    change link.id < order.nextLink + 1
    rcases Array.mem_push.mp hlink with hold | rfl
    · exact Nat.lt_succ_of_lt (h.link_lt link hold)
    · exact Nat.lt_succ_self _

theorem Aged.ensure (h : order.Aged) (key : Key) : (order.ensure key).2.Aged :=
  ensure_keeps (fun _ haged => haged.of_same_links rfl rfl)
    (fun _ _ haged => haged.addLink _ _) h key

theorem Aged.unregister (h : order.Aged) (token : Token) : (order.unregister token).2.Aged := by
  cases token with
  | item token =>
      exact h.of_same_links (links_unregister_item order token) (nextLink_unregister order _)
  | link token =>
      have hlinks := links_unregister_link order token
      constructor
      · rw [hlinks]
        exact h.ascending.filter _
      · intro link hlink
        rw [nextLink_unregister]
        rw [← Array.mem_toList_iff, hlinks] at hlink
        exact h.link_lt link (Array.mem_toList_iff.mp (List.mem_filter.mp hlink).1)

theorem Aged.arrange (h : order.Aged) : order.arrange.2.Aged := by
  rw [Order.arrange]
  split
  · exact h
  · split <;> exact h.of_same_links rfl rfl

theorem Aged.change {allowed : V → Prop} {after : Order V} (hchange : Change allowed order after)
    (h : order.Aged) : after.Aged := by
  cases hchange with
  | expect key => exact h.ensure key
  | attach key value _ => exact (h.ensure key).of_same_links rfl rfl
  | link source target => exact ((h.ensure source).ensure target).addLink _ _
  | fresh => exact h.of_same_links rfl rfl
  | unregister token => exact h.unregister token
  | read => exact h.arrange

theorem Reachable.aged [BEq V] (h : Reachable order) : order.Aged :=
  h.changes.keeps Aged.change empty_aged

end Runbook.Order
