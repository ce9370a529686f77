import Runbook.Proofs.Order.Numbering

/-!
# Ledgers

The tokens that edits give out account for all that the edits add.  Take away the values and links
that the tokens stand for, and an order is what it was before, but for new nodes without values and
the links that were made along with these nodes.
-/

namespace Runbook.Order

variable {V : Type}

/-! ## Tokens -/

def itemIds (tokens : List Token) : List Nat :=
  tokens.filterMap fun
    | .item token => some token.id
    | .link _ => none

def linkIds (tokens : List Token) : List Nat :=
  tokens.filterMap fun
    | .item _ => none
    | .link token => some token.id

theorem mem_itemIds {tokens : List Token} {id : Nat} :
    id ∈ itemIds tokens ↔ ∃ token : ItemToken, Token.item token ∈ tokens ∧ token.id = id := by
  simp only [itemIds, List.mem_filterMap]
  constructor
  · rintro ⟨token, htoken, hid⟩
    cases token with
    | item token => exact ⟨token, htoken, by simpa using hid⟩
    | link token => simp at hid
  · rintro ⟨token, htoken, rfl⟩
    exact ⟨.item token, htoken, rfl⟩

theorem mem_linkIds {tokens : List Token} {id : Nat} :
    id ∈ linkIds tokens ↔ ∃ token : LinkToken, Token.link token ∈ tokens ∧ token.id = id := by
  simp only [linkIds, List.mem_filterMap]
  constructor
  · rintro ⟨token, htoken, hid⟩
    cases token with
    | item token => simp at hid
    | link token => exact ⟨token, htoken, by simpa using hid⟩
  · rintro ⟨token, htoken, rfl⟩
    exact ⟨.link token, htoken, rfl⟩

theorem itemIds_append (first second : List Token) :
    itemIds (first ++ second) = itemIds first ++ itemIds second := List.filterMap_append

theorem linkIds_append (first second : List Token) :
    linkIds (first ++ second) = linkIds first ++ linkIds second := List.filterMap_append

def InForce (order : Order V) : Token → Prop
  | .item token => ∃ place item,
    order.keyAt? place = some token.key ∧ item ∈ order.itemsAt place ∧ item.id = token.id
  | .link token => ∃ link ∈ order.links, link.id = token.id ∧
    order.keyAt? link.source = some token.source ∧ order.keyAt? link.target = some token.target

/-! ## Ledgers -/

/-- Whether a link was made along with a node that was not there before: from a key to the one that
it stands before, or from a key to the one that stands after it. -/
def Automatic (before after : Order V) (link : Link) : Prop :=
  (∃ base, after.keyAt? link.source = some (.pre base) ∧ after.keyAt? link.target = some base ∧
    before.nodeCount ≤ link.source) ∨
  (∃ base, after.keyAt? link.source = some base ∧ after.keyAt? link.target = some (.post base) ∧
    before.nodeCount ≤ link.target)

/-- Whether tokens account for what an order has become. -/
structure Ledger (before : Order V) (tokens : List Token) (after : Order V) : Prop where
  keys : before.keys <+: after.keys
  items : ∀ place,
    (after.itemsAt place).filter (fun item => item.id ∉ itemIds tokens) = before.itemsAt place
  links : ∃ automatic,
    after.links.toList.filter (fun link => link.id ∉ linkIds tokens) =
      before.links.toList ++ automatic ∧
    ∀ link ∈ automatic, Automatic before after link
  inForce : ∀ token ∈ tokens, after.InForce token
  itemIds_nodup : (itemIds tokens).Nodup
  linkIds_nodup : (linkIds tokens).Nodup

section

variable {first second third : Order V} {earlier later tokens : List Token}

theorem Ledger.nodeCount_le (h : Ledger first tokens second) :
    first.nodeCount ≤ second.nodeCount := by
  rw [nodeCount_eq, nodeCount_eq]
  exact h.keys.length_le

theorem keyAt?_later (hkeys : first.keys <+: second.keys) {place : Nat} {key : Key}
    (hkey : first.keyAt? place = some key) : second.keyAt? place = some key := by
  obtain ⟨new, hnew⟩ := hkeys
  rw [keyAt?_eq] at hkey ⊢
  rw [← hnew, List.getElem?_append_left (List.getElem?_eq_some_iff.mp hkey).1, hkey]

theorem Ledger.keyAt?_old (h : Ledger first tokens second) {place : Nat}
    (hplace : place < first.nodeCount) : second.keyAt? place = first.keyAt? place := by
  obtain ⟨new, hnew⟩ := h.keys
  rw [nodeCount_eq] at hplace
  rw [keyAt?_eq, keyAt?_eq, ← hnew, List.getElem?_append_left hplace]

theorem Ledger.mem_items (h : Ledger first tokens second) {place : Nat} {item : Item V}
    (hitem : item ∈ first.itemsAt place) :
    item ∈ second.itemsAt place ∧ item.id ∉ itemIds tokens := by
  rw [← h.items place, List.mem_filter] at hitem
  exact ⟨hitem.1, by simpa using hitem.2⟩

theorem Ledger.mem_links (h : Ledger first tokens second) {link : Link}
    (hlink : link ∈ first.links) : link ∈ second.links ∧ link.id ∉ linkIds tokens := by
  obtain ⟨automatic, hlinks, -⟩ := h.links
  have hmem : link ∈ first.links.toList ++ automatic :=
    List.mem_append_left _ (Array.mem_toList_iff.mpr hlink)
  rw [← hlinks, List.mem_filter] at hmem
  exact ⟨Array.mem_toList_iff.mp hmem.1, by simpa using hmem.2⟩

theorem Ledger.inForce_later (h : Ledger first later second) {token : Token}
    (htoken : first.InForce token) : second.InForce token := by
  cases token with
  | item token =>
      obtain ⟨place, item, hkey, hitem, hid⟩ := htoken
      exact ⟨place, item, keyAt?_later h.keys hkey, (h.mem_items hitem).1, hid⟩
  | link token =>
      obtain ⟨link, hlink, hid, hsource, htarget⟩ := htoken
      exact ⟨link, (h.mem_links hlink).1, hid, keyAt?_later h.keys hsource,
        keyAt?_later h.keys htarget⟩

theorem Ledger.itemId_not_mem (h : Ledger first later second) {token : ItemToken}
    (htoken : first.InForce (.item token)) : token.id ∉ itemIds later := by
  obtain ⟨place, item, -, hitem, hid⟩ := htoken
  exact hid ▸ (h.mem_items hitem).2

theorem Ledger.linkId_not_mem (h : Ledger first later second) {token : LinkToken}
    (htoken : first.InForce (.link token)) : token.id ∉ linkIds later := by
  obtain ⟨link, hlink, hid, -⟩ := htoken
  exact hid ▸ (h.mem_links hlink).2

theorem filter_not_mem_append {α : Type} (id : α → Nat) (members : List α)
    (some others : List Nat) :
    members.filter (fun member => id member ∉ some ++ others) =
      (members.filter fun member => id member ∉ others).filter fun member => id member ∉ some := by
  rw [List.filter_filter]
  refine List.filter_congr fun member _ => ?_
  simp [not_or]

theorem Automatic.keep {link : Link} (h : Automatic first second link)
    (hkeys : second.keys <+: third.keys) : Automatic first third link := by
  rcases h with ⟨base, hsource, htarget, hnew⟩ | ⟨base, hsource, htarget, hnew⟩
  · exact .inl ⟨base, keyAt?_later hkeys hsource, keyAt?_later hkeys htarget, hnew⟩
  · exact .inr ⟨base, keyAt?_later hkeys hsource, keyAt?_later hkeys htarget, hnew⟩

theorem Automatic.since {link : Link} (h : Automatic second third link)
    (hcount : first.nodeCount ≤ second.nodeCount) : Automatic first third link := by
  rcases h with ⟨base, hsource, htarget, hnew⟩ | ⟨base, hsource, htarget, hnew⟩
  · exact .inl ⟨base, hsource, htarget, by omega⟩
  · exact .inr ⟨base, hsource, htarget, by omega⟩

theorem Ledger.trans (hfirst : Ledger first earlier second) (hsecond : Ledger second later third) :
    Ledger first (earlier ++ later) third where
  keys := hfirst.keys.trans hsecond.keys
  items := by
    intro place
    rw [itemIds_append, filter_not_mem_append, hsecond.items, hfirst.items]
  links := by
    obtain ⟨old, hold, holdAutomatic⟩ := hfirst.links
    obtain ⟨new, hnew, hnewAutomatic⟩ := hsecond.links
    refine ⟨old ++ new.filter fun link => link.id ∉ linkIds earlier, ?_, ?_⟩
    · rw [linkIds_append, filter_not_mem_append, hnew, List.filter_append, hold, List.append_assoc]
    · intro link hlink
      rcases List.mem_append.mp hlink with hlink | hlink
      · exact (holdAutomatic link hlink).keep hsecond.keys
      · exact (hnewAutomatic link (List.mem_filter.mp hlink).1).since hfirst.nodeCount_le
  inForce := by
    intro token htoken
    rcases List.mem_append.mp htoken with htoken | htoken
    · exact hsecond.inForce_later (hfirst.inForce token htoken)
    · exact hsecond.inForce token htoken
  itemIds_nodup := by
    rw [itemIds_append, List.nodup_append']
    refine ⟨hfirst.itemIds_nodup, hsecond.itemIds_nodup, fun id hearlier => ?_⟩
    obtain ⟨token, htoken, rfl⟩ := mem_itemIds.mp hearlier
    exact hsecond.itemId_not_mem (hfirst.inForce _ htoken)
  linkIds_nodup := by
    rw [linkIds_append, List.nodup_append']
    refine ⟨hfirst.linkIds_nodup, hsecond.linkIds_nodup, fun id hearlier => ?_⟩
    obtain ⟨token, htoken, rfl⟩ := mem_linkIds.mp hearlier
    exact hsecond.linkId_not_mem (hfirst.inForce _ htoken)

theorem Ledger.of_same_content (hkeys : first.keys <+: second.keys)
    (hitems : ∀ place, second.itemsAt place = first.itemsAt place)
    (hlinks : second.links = first.links) : Ledger first [] second where
  keys := hkeys
  items := by simp [itemIds, hitems]
  links := ⟨[], by simp [linkIds, hlinks], by simp⟩
  inForce := by simp
  itemIds_nodup := List.nodup_nil
  linkIds_nodup := List.nodup_nil

end

/-! ## Single changes -/

structure Regular (order : Order V) : Prop where
  wellFormed : order.WellFormed
  numbered : order.Numbered

theorem Reachable.regular [BEq V] {order : Order V} (h : Reachable order) : order.Regular :=
  ⟨h.wellFormed, h.numbered⟩

def Yields (before : Order V) (tokens : List Token) (after : Order V) : Prop :=
  before.Regular → after.Regular ∧ Ledger before tokens after

section

variable {order first second third : Order V} {earlier later tokens : List Token}

theorem Yields.refl (order : Order V) : Yields order [] order :=
  fun hregular => ⟨hregular, .of_same_content (List.prefix_refl _) (fun _ => rfl) rfl⟩

theorem Yields.trans (hfirst : Yields first earlier second) (hsecond : Yields second later third) :
    Yields first (earlier ++ later) third := by
  intro hregular
  obtain ⟨hmiddle, hearlier⟩ := hfirst hregular
  obtain ⟨hlast, hlater⟩ := hsecond hmiddle
  exact ⟨hlast, hearlier.trans hlater⟩

theorem yields_addNode {key : Key} (hnew : key ∉ order.keys) :
    Yields order [] (order.addNode key) := by
  intro hregular
  refine ⟨⟨hregular.wellFormed.addNode hnew, hregular.numbered.addNode key⟩, ?_⟩
  refine .of_same_content ?_ (fun place => itemsAt_addNode order key place) rfl
  rw [keys_addNode]
  exact List.prefix_append _ _

theorem yields_freshKey (order : Order V) : Yields order [] order.freshKey.2 := by
  intro hregular
  exact ⟨⟨hregular.wellFormed.freshKey, ⟨hregular.numbered.item_lt, hregular.numbered.link_lt,
    hregular.numbered.link_unique⟩⟩, .of_same_content (List.prefix_refl _) (fun _ => rfl) rfl⟩

theorem yields_arrange (order : Order V) : Yields order [] order.arrange.2 := by
  intro hregular
  refine ⟨⟨hregular.wellFormed.arrange, hregular.numbered.arrange⟩, ?_⟩
  rw [arrange]
  split
  · exact .of_same_content (List.prefix_refl _) (fun _ => rfl) rfl
  · split <;> exact .of_same_content (List.prefix_refl _) (fun _ => rfl) rfl

theorem yields_addItem {place : Nat} {key : Key} (hkey : order.keyAt? place = some key)
    (value : V) :
    Yields order [.item ⟨order.nextItem, key⟩] (order.addItem place value) := by
  intro hregular
  have hplace := keyAt?_lt hkey
  refine ⟨⟨hregular.wellFormed.addItem place value, hregular.numbered.addItem hplace value⟩, ?_⟩
  constructor
  · exact (keys_addItem order place value).symm ▸ List.prefix_refl order.keys
  · intro other
    rw [itemsAt_addItem hplace, List.filter_append]
    have hold : (order.itemsAt other).filter
        (fun item => item.id ∉ itemIds [.item ⟨order.nextItem, key⟩]) = order.itemsAt other := by
      refine List.filter_eq_self.mpr fun item hitem => ?_
      have hlt := hregular.numbered.item_lt other item hitem
      simpa [itemIds] using Nat.ne_of_lt hlt
    rw [hold]
    split <;> simp [itemIds]
  · exact ⟨[], by simp [linkIds, addItem], by simp⟩
  · simp only [List.mem_singleton, forall_eq]
    refine ⟨place, ⟨order.nextItem, value⟩, ?_, ?_, rfl⟩
    · rw [keyAt?_eq, keys_addItem, ← keyAt?_eq, hkey]
    · rw [itemsAt_addItem hplace, if_pos rfl]
      exact List.mem_append_right _ (List.mem_singleton_self _)
  · simp [itemIds]
  · simp [linkIds]

theorem yields_addLink {sourcePlace targetPlace : Nat} {source target : Key}
    (hsource : order.keyAt? sourcePlace = some source)
    (htarget : order.keyAt? targetPlace = some target) :
    Yields order [.link ⟨order.nextLink, source, target⟩]
      (order.addLink sourcePlace targetPlace) := by
  intro hregular
  refine ⟨⟨hregular.wellFormed.addLink (keyAt?_lt hsource) (keyAt?_lt htarget),
    hregular.numbered.addLink sourcePlace targetPlace⟩, ?_⟩
  constructor
  · exact List.prefix_refl _
  · intro place
    simp [itemIds]
  · refine ⟨[], ?_, by simp⟩
    have hold : order.links.toList.filter
        (fun link => link.id ∉ linkIds [.link ⟨order.nextLink, source, target⟩]) =
        order.links.toList := by
      refine List.filter_eq_self.mpr fun link hlink => ?_
      have hlt := hregular.numbered.link_lt link (Array.mem_toList_iff.mp hlink)
      simpa [linkIds] using Nat.ne_of_lt hlt
    rw [addLink, Array.toList_push, List.filter_append, hold]
    simp [linkIds]
  · simp only [List.mem_singleton, forall_eq]
    exact ⟨⟨order.nextLink, sourcePlace, targetPlace⟩, Array.mem_push_self, rfl, hsource, htarget⟩
  · simp [itemIds]
  · simp [linkIds]

theorem Ledger.addLink (h : Ledger first tokens second) (hnumbered : second.Numbered)
    {source target : Nat} (hautomatic : Automatic first second ⟨second.nextLink, source, target⟩) :
    Ledger first tokens (second.addLink source target) where
  keys := h.keys
  items := h.items
  links := by
    obtain ⟨automatic, hlinks, hall⟩ := h.links
    have hnew : second.nextLink ∉ linkIds tokens := by
      intro hmem
      obtain ⟨token, htoken, hid⟩ := mem_linkIds.mp hmem
      obtain ⟨link, hlink, hsame, -⟩ := h.inForce _ htoken
      have hlt := hnumbered.link_lt link hlink
      omega
    refine ⟨automatic ++ [⟨second.nextLink, source, target⟩], ?_, ?_⟩
    · rw [Order.addLink, Array.toList_push, List.filter_append, hlinks, List.append_assoc]
      simp [hnew]
    · intro link hlink
      rcases List.mem_append.mp hlink with hlink | hlink
      · exact hall link hlink
      · rw [List.mem_singleton.mp hlink]
        exact hautomatic
  inForce := by
    intro token htoken
    have hforce := h.inForce token htoken
    cases token with
    | item token => exact hforce
    | link token =>
        obtain ⟨link, hlink, hrest⟩ := hforce
        exact ⟨link, Array.mem_push_of_mem _ hlink, hrest⟩
  itemIds_nodup := h.itemIds_nodup
  linkIds_nodup := h.linkIds_nodup

theorem keyAt?_addNode (order : Order V) (key : Key) :
    (order.addNode key).keyAt? order.nodeCount = some key := by
  simp [keyAt?, addNode, nodeCount]

theorem ledger_made {key : Key} {made : Order V} (hmade : Yields (order.addNode key) [] made)
    (hnew : key ∉ order.keys) (hregular : order.Regular) :
    made.Regular ∧ Ledger order [] made ∧ made.keyAt? order.nodeCount = some key := by
  obtain ⟨hnode, hadded⟩ := yields_addNode hnew hregular
  obtain ⟨hlast, hledger⟩ := hmade hnode
  exact ⟨hlast, hadded.trans hledger, keyAt?_later hledger.keys (keyAt?_addNode order key)⟩

theorem ledger_ensure (hregular : order.Regular) (key : Key) :
    (order.ensure key).2.Regular ∧ Ledger order [] (order.ensure key).2 ∧
      (order.ensure key).2.keyAt? (order.ensure key).1 = some key := by
  refine ensure_induction
    (motive := fun order key made => order.Regular →
      made.2.Regular ∧ Ledger order [] made.2 ∧ made.2.keyAt? made.1 = some key)
    ?_ ?_ ?_ ?_ order key hregular
  · intro order key place hplace hregular
    exact ⟨hregular, (Yields.refl order hregular).2, keyAt?_place? hplace⟩
  · intro order key hnew hregular
    exact ledger_made (.refl _) hnew hregular
  · intro order base place made hnew _ ih hregular
    obtain ⟨hmade, hledger, hbase⟩ := ih (yields_addNode hnew hregular).1
    obtain ⟨hlast, hall, hkey⟩ := ledger_made (fun _ => ⟨hmade, hledger⟩) hnew hregular
    exact ⟨⟨hlast.wellFormed.addLink (keyAt?_lt hkey) (keyAt?_lt hbase),
      hlast.numbered.addLink _ _⟩,
      hall.addLink hlast.numbered (.inl ⟨base, hkey, hbase, Nat.le_refl _⟩), hkey⟩
  · intro order base place made hnew _ ih hregular
    obtain ⟨hmade, hledger, hbase⟩ := ih (yields_addNode hnew hregular).1
    obtain ⟨hlast, hall, hkey⟩ := ledger_made (fun _ => ⟨hmade, hledger⟩) hnew hregular
    exact ⟨⟨hlast.wellFormed.addLink (keyAt?_lt hbase) (keyAt?_lt hkey),
      hlast.numbered.addLink _ _⟩,
      hall.addLink hlast.numbered (.inr ⟨base, hbase, hkey, Nat.le_refl _⟩), hkey⟩

end

end Runbook.Order
