import Runbook.Proofs.Order.Paths
import Runbook.Proofs.Order.Ties

/-!
# Logs of calls

An order is what the calls that were made on it amount to.  A log says which keys were mentioned,
which values were registered, which links were made, and which of these were taken back, one after
another; all that can be read of the order can be read off its log.
-/

namespace Runbook.Order

variable {V : Type}

/-! ## Logs -/

/-- What calls did to an order, one after another. -/
inductive Log (V : Type) where
  | nothing
  /-- A key was made sure of. -/
  | mention (earlier : Log V) (key : Key)
  | register (earlier : Log V) (token : ItemToken) (value : V)
  | link (earlier : Log V) (token : LinkToken)
  | remove (earlier : Log V) (token : Token)

namespace Log

def mentions : Log V → List Key
  | .nothing => []
  | .mention log key => log.mentions ++ [key]
  | .register log _ _ => log.mentions
  | .link log _ => log.mentions
  | .remove log _ => log.mentions

def keys (log : Log V) : List Key := firsts (log.mentions.flatMap Key.chain)

def registered : Log V → List (ItemToken × V)
  | .nothing => []
  | .mention log _ => log.registered
  | .register log token value => log.registered ++ [(token, value)]
  | .link log _ => log.registered
  | .remove log _ => log.registered

/-- All links, oldest first, with those that came along with keys.  Links are numbered as they are
made. -/
def linked : Log V → List LinkToken
  | .nothing => []
  | .mention log key => log.linked ++ numbered log.linked.length (key.ties log.keys)
  | .register log _ _ => log.linked
  | .link log token => log.linked ++ [token]
  | .remove log _ => log.linked

def issued : Log V → List Token
  | .nothing => []
  | .mention log _ => log.issued
  | .register log token _ => log.issued ++ [.item token]
  | .link log token => log.issued ++ [.link token]
  | .remove log _ => log.issued

def removed : Log V → List Token
  | .nothing => []
  | .mention log _ => log.removed
  | .register log _ _ => log.removed
  | .link log _ => log.removed
  | .remove log token => log.removed ++ [token]

def items (log : Log V) : List (ItemToken × V) :=
  log.registered.filter fun entry => .item entry.1 ∉ log.removed

def links (log : Log V) : List LinkToken :=
  log.linked.filter fun token => .link token ∉ log.removed

def itemsUnder (log : Log V) (key : Key) : List (ItemToken × V) :=
  log.items.filter (·.1.key = key)

def values (log : Log V) (key : Key) : List V := (log.itemsUnder key).map (·.2)

def dependencies (log : Log V) (key : Key) : List Key :=
  firsts ((log.links.filter (·.target = key)).map (·.source))

theorem keys_mention (log : Log V) (key : Key) :
    (log.mention key).keys = appendNew log.keys key.chain := by
  simp [keys, mentions, firsts, appendNew_append]

private theorem items_register {log : Log V} {token : ItemToken} (h : .item token ∉ log.removed)
    (value : V) : (log.register token value).items = log.items ++ [(token, value)] := by
  change (log.registered ++ [(token, value)]).filter (fun entry => .item entry.1 ∉ log.removed) = _
  rw [List.filter_append, List.filter_cons_of_pos (by simpa using h)]
  rfl

private theorem links_link {log : Log V} {token : LinkToken} (h : .link token ∉ log.removed) :
    (log.link token).links = log.links ++ [token] := by
  change (log.linked ++ [token]).filter (fun token => .link token ∉ log.removed) = _
  rw [List.filter_append, List.filter_cons_of_pos (by simpa using h)]
  rfl

theorem items_remove (log : Log V) (token : Token) :
    (log.remove token).items = log.items.filter fun entry => .item entry.1 ≠ token := by
  rw [items, items, List.filter_filter]
  exact List.filter_congr fun entry _ => by simp [removed, and_comm]

theorem links_remove (log : Log V) (token : Token) :
    (log.remove token).links = log.links.filter fun other => .link other ≠ token := by
  rw [links, links, List.filter_filter]
  exact List.filter_congr fun other _ => by simp [removed, and_comm]

theorem itemsUnder_register {log : Log V} {token : ItemToken} (h : .item token ∉ log.removed)
    (value : V) (key : Key) :
    (log.register token value).itemsUnder key =
      log.itemsUnder key ++ if token.key = key then [(token, value)] else [] := by
  rw [itemsUnder, items_register h, List.filter_append]
  by_cases hkey : token.key = key <;> simp [itemsUnder, hkey]

theorem itemsUnder_remove (log : Log V) (token : Token) (key : Key) :
    (log.remove token).itemsUnder key =
      (log.itemsUnder key).filter fun entry => .item entry.1 ≠ token := by
  rw [itemsUnder, items_remove, itemsUnder, List.filter_filter, List.filter_filter]
  exact List.filter_congr fun entry _ => by rw [Bool.and_comm]

theorem item_mem_issued (log : Log V) {token : ItemToken} :
    .item token ∈ log.issued ↔ ∃ value, (token, value) ∈ log.registered := by
  induction log with
  | nothing => simp [issued, registered]
  | mention log key ih => exact ih
  | register log other value ih => simp [issued, registered, ih, exists_or, eq_comm]
  | link log other ih => simpa [issued, registered] using ih
  | remove log other ih => exact ih

theorem link_mem_issued (log : Log V) {token : LinkToken} (h : .link token ∈ log.issued) :
    token ∈ log.linked := by
  induction log with
  | nothing => simp [issued] at h
  | mention log key ih => exact List.mem_append_left _ (ih h)
  | register log other value ih =>
      simp only [issued, List.mem_append, List.mem_singleton, reduceCtorEq, or_false] at h
      exact ih h
  | link log other ih =>
      simp only [issued, List.mem_append, List.mem_singleton, Token.link.injEq] at h
      rcases h with h | rfl
      · exact List.mem_append_left _ (ih h)
      · exact List.mem_append_right _ (List.mem_singleton_self _)
  | remove log other ih => exact ih h

end Log

/-! ## Orders and their logs -/

/-- Whether an order is what a log amounts to. -/
structure Accounts (log : Log V) (order : Order V) : Prop where
  wellFormed : order.WellFormed
  closed : ∀ key ∈ order.keys, key.chain ⊆ order.keys
  keys : order.keys = log.keys
  items : ∀ place key, order.keyAt? place = some key →
    order.itemsAt place = (log.itemsUnder key).map fun entry => ⟨entry.1.id, entry.2⟩
  bonds : order.bonds = log.links
  nextItem : order.nextItem = log.registered.length
  nextLink : order.nextLink = log.linked.length
  itemKeys : ∀ entry ∈ log.registered, entry.1.key ∈ order.keys
  itemIds : log.registered.map (·.1.id) = List.range log.registered.length
  linkIds : log.linked.map (·.id) = List.range log.linked.length
  issued : log.issued.Nodup
  removed : log.removed ⊆ log.issued

section

variable {log : Log V} {order : Order V}

theorem Accounts.nothing : Accounts (.nothing : Log V) .empty where
  wellFormed := empty_wellFormed
  closed := by simp [Order.keys, empty]
  keys := rfl
  items := by simp [keyAt?, empty]
  bonds := rfl
  nextItem := rfl
  nextLink := rfl
  itemKeys := by simp [Log.registered]
  itemIds := rfl
  linkIds := rfl
  issued := List.nodup_nil
  removed := List.Subset.refl _

theorem Accounts.item_id_lt (h : Accounts log order) {entry : ItemToken × V}
    (hentry : entry ∈ log.registered) : entry.1.id < log.registered.length := by
  have hid := List.mem_map_of_mem (f := fun entry : ItemToken × V => entry.1.id) hentry
  rw [h.itemIds] at hid
  exact List.mem_range.mp hid

theorem Accounts.link_id_lt (h : Accounts log order) {token : LinkToken}
    (htoken : token ∈ log.linked) : token.id < log.linked.length := by
  have hid := List.mem_map_of_mem (f := LinkToken.id) htoken
  rw [h.linkIds] at hid
  exact List.mem_range.mp hid

theorem Accounts.item_unique (h : Accounts log order) {entry other : ItemToken × V}
    (hentry : entry ∈ log.registered) (hother : other ∈ log.registered)
    (hid : entry.1.id = other.1.id) : entry = other :=
  List.inj_on_of_nodup_map (h.itemIds ▸ List.nodup_range) hentry hother hid

theorem Accounts.link_unique (h : Accounts log order) {token other : LinkToken}
    (htoken : token ∈ log.linked) (hother : other ∈ log.linked) (hid : token.id = other.id) :
    token = other :=
  List.inj_on_of_nodup_map (h.linkIds ▸ List.nodup_range) htoken hother hid

theorem Accounts.item_not_issued (h : Accounts log order) {token : ItemToken}
    (hnew : log.registered.length ≤ token.id) : .item token ∉ log.issued := by
  intro hissued
  obtain ⟨value, hvalue⟩ := log.item_mem_issued.mp hissued
  exact Nat.lt_irrefl _ (Nat.lt_of_lt_of_le (h.item_id_lt hvalue) hnew)

theorem Accounts.link_not_issued (h : Accounts log order) {token : LinkToken}
    (hnew : log.linked.length ≤ token.id) : .link token ∉ log.issued := by
  intro hissued
  exact Nat.lt_irrefl _ (Nat.lt_of_lt_of_le (h.link_id_lt (log.link_mem_issued hissued)) hnew)

theorem nodup_append_new {tokens : List Token} {token : Token} (h : tokens.Nodup)
    (hnew : token ∉ tokens) : (tokens ++ [token]).Nodup := by
  rw [List.nodup_append']
  refine ⟨h, List.nodup_singleton _, fun other hother hsame => ?_⟩
  exact hnew (List.mem_singleton.mp hsame ▸ hother)

theorem Accounts.itemsUnder_eq_nil (h : Accounts log order) {key : Key}
    (hkey : key ∉ order.keys) : log.itemsUnder key = [] := by
  refine List.filter_eq_nil_iff.mpr fun entry hentry => ?_
  have hold := h.itemKeys entry (List.mem_filter.mp hentry).1
  simpa using fun hsame : entry.1.key = key => hkey (hsame ▸ hold)

/-! ## Calls and their entries -/

theorem Accounts.ensures (h : Accounts log order) (key : Key) :
    Ensures order key (order.ensure key).1 (order.ensure key).2 :=
  ensures_ensure h.wellFormed fun member _ hknown => h.closed member hknown

theorem Accounts.mention (h : Accounts log order) (key : Key) :
    Accounts (log.mention key) (order.ensure key).2 := by
  have hmade := h.ensures key
  have hkeys : (order.ensure key).2.keys = appendNew order.keys key.chain := by
    rw [hmade.keys, Key.appendNew_chain]
  have hties : key.ties order.keys = key.ties log.keys := by rw [h.keys]
  constructor
  · exact hmade.wellFormed
  · intro member hmember
    rw [hkeys] at hmember ⊢
    rcases (mem_appendNew _ _).mp hmember with hold | hnew
    · exact List.Subset.trans (h.closed member hold) (subset_appendNew _ _)
    · intro other hother
      exact (mem_appendNew _ _).mpr (.inr (Key.chain_subset hnew hother))
  · rw [hkeys, h.keys, Log.keys_mention]
  · intro place own hown
    rw [hmade.items]
    by_cases hplace : place < order.nodeCount
    · have hold : order.keyAt? place = some own := by
        rw [keyAt?_eq, hmade.keys, List.getElem?_append_left (nodeCount_eq order ▸ hplace),
          ← keyAt?_eq] at hown
        exact hown
      exact h.items place own hold
    · have hnew : own ∈ key.arrivals order.keys := by
        rw [keyAt?_eq, hmade.keys, List.getElem?_append_right
          (nodeCount_eq order ▸ Nat.le_of_not_lt hplace)] at hown
        exact List.mem_of_getElem? hown
      have hunknown : own ∉ order.keys := by simpa using (List.mem_filter.mp hnew).2
      have hnone : order.nodes[place]? = none :=
        Array.getElem?_eq_none (Nat.le_of_not_lt hplace)
      change order.itemsAt place = (log.itemsUnder own).map _
      rw [h.itemsUnder_eq_nil hunknown, itemsAt, hnone]
      rfl
  · rw [hmade.bonds, h.bonds, h.nextLink, hties, Log.links, Log.links, Log.linked,
      List.filter_append]
    refine congrArg _ (List.filter_eq_self.mpr fun token htoken => ?_).symm
    have hid := List.mem_map_of_mem (f := LinkToken.id) htoken
    rw [numbered_ids] at hid
    exact decide_eq_true fun hremoved =>
      h.link_not_issued (List.mem_range'_1.mp hid).1 (h.removed hremoved)
  · exact hmade.nextItem.trans h.nextItem
  · rw [hmade.nextLink, h.nextLink, hties, Log.linked, List.length_append, numbered_length]
  · intro entry hentry
    rw [hkeys]
    exact subset_appendNew _ _ (h.itemKeys entry hentry)
  · exact h.itemIds
  · rw [Log.linked, List.map_append, h.linkIds, numbered_ids, List.length_append,
      List.range_eq_range', List.range_eq_range', numbered_length]
    simpa using List.range'_append_1 (s := 0)
  · exact h.issued
  · exact h.removed

theorem Accounts.register (h : Accounts log order) {place : Nat} {key : Key}
    (hkey : order.keyAt? place = some key) (value : V) :
    Accounts (log.register ⟨order.nextItem, key⟩ value) (order.addItem place value) := by
  have hplace := keyAt?_lt hkey
  have hnew : .item ⟨order.nextItem, key⟩ ∉ log.issued :=
    h.item_not_issued (Nat.le_of_eq h.nextItem.symm)
  have hsame : ∀ other, (order.addItem place value).keyAt? other = order.keyAt? other := by
    intro other
    rw [keyAt?_eq, keys_addItem, ← keyAt?_eq]
  constructor
  · exact h.wellFormed.addItem place value
  · rw [keys_addItem]
    exact h.closed
  · rw [keys_addItem]
    exact h.keys
  · intro other own hown
    rw [hsame] at hown
    have hitems := Log.itemsUnder_register (fun hremoved => hnew (h.removed hremoved)) value own
    have hunder : place = other ↔ key = own := by
      constructor
      · rintro rfl
        exact Option.some.inj (hkey.symm.trans hown)
      · rintro rfl
        exact h.wellFormed.place_unique hkey hown
    rw [itemsAt_addItem hplace, h.items other own hown, hitems, List.map_append]
    by_cases hkeys : key = own <;> simp [hunder, hkeys]
  · have hbond : (order.addItem place value).bond? = order.bond? := by
      funext link
      rw [bond?, bond?, hsame, hsame]
    rw [Order.bonds, hbond]
    exact h.bonds
  · change order.nextItem + 1 = (log.registered ++ [_]).length
    rw [h.nextItem, List.length_append]
    rfl
  · exact h.nextLink
  · intro entry hentry
    rw [keys_addItem]
    rcases List.mem_append.mp hentry with hold | hnew
    · exact h.itemKeys entry hold
    · rw [List.mem_singleton.mp hnew]
      exact mem_keys_of_keyAt? hkey
  · rw [Log.registered, List.map_append, h.itemIds, List.length_append]
    simp [h.nextItem, List.range_succ]
  · exact h.linkIds
  · exact nodup_append_new h.issued hnew
  · exact List.subset_append_of_subset_left _ h.removed

theorem Accounts.link (h : Accounts log order) {sourcePlace targetPlace : Nat} {source target : Key}
    (hsource : order.keyAt? sourcePlace = some source)
    (htarget : order.keyAt? targetPlace = some target) :
    Accounts (log.link ⟨order.nextLink, source, target⟩)
      (order.addLink sourcePlace targetPlace) := by
  have hnew : .link ⟨order.nextLink, source, target⟩ ∉ log.issued :=
    h.link_not_issued (Nat.le_of_eq h.nextLink.symm)
  constructor
  · exact h.wellFormed.addLink (keyAt?_lt hsource) (keyAt?_lt htarget)
  · exact h.closed
  · exact h.keys
  · exact h.items
  · rw [bonds_addLink hsource htarget, h.bonds, Log.links_link fun hremoved => hnew (h.removed hremoved)]
  · exact h.nextItem
  · change order.nextLink + 1 = (log.linked ++ [_]).length
    rw [h.nextLink, List.length_append]
    rfl
  · exact h.itemKeys
  · exact h.itemIds
  · rw [Log.linked, List.map_append, h.linkIds, List.length_append]
    simp [h.nextLink, List.range_succ]
  · exact nodup_append_new h.issued hnew
  · exact List.subset_append_of_subset_left _ h.removed

theorem Accounts.attach (h : Accounts log order) (key : Key) (value : V) :
    Accounts ((log.mention key).register ⟨(order.ensure key).2.nextItem, key⟩ value)
      ((order.ensure key).2.addItem (order.ensure key).1 value) :=
  (h.mention key).register (h.ensures key).keyAt value

theorem Accounts.connect (h : Accounts log order) (source target : Key) :
    Accounts (((log.mention source).mention target).link (order.link source target).1)
      (order.link source target).2 := by
  have hfirst := h.mention source
  have hsecond := hfirst.mention target
  have hsource := keyAt?_later ⟨_, (hfirst.ensures target).keys.symm⟩ (h.ensures source).keyAt
  exact hsecond.link hsource (hfirst.ensures target).keyAt

theorem Accounts.of_same_content (h : Accounts log order) {nextUnique : Nat}
    {arranged : Option (List Nat)} (hwell : { order with nextUnique, arranged }.WellFormed) :
    Accounts log { order with nextUnique, arranged } :=
  ⟨hwell, h.closed, h.keys, h.items, h.bonds, h.nextItem, h.nextLink, h.itemKeys, h.itemIds,
    h.linkIds, h.issued, h.removed⟩

theorem Accounts.freshKey (h : Accounts log order) : Accounts log order.freshKey.2 :=
  h.of_same_content h.wellFormed.freshKey

theorem Accounts.arrange (h : Accounts log order) : Accounts log order.arrange.2 := by
  have hwell := h.wellFormed.arrange
  revert hwell
  rw [Order.arrange]
  split
  · exact fun _ => h
  · split
    · exact h.of_same_content
    · exact fun _ => h

/-! ## Taking back -/

theorem Accounts.item_id_iff (h : Accounts log order) {token : ItemToken}
    (hissued : .item token ∈ log.issued) {entry : ItemToken × V} (hentry : entry ∈ log.registered) :
    entry.1.id = token.id ↔ entry.1 = token := by
  obtain ⟨value, hvalue⟩ := log.item_mem_issued.mp hissued
  exact ⟨fun hid => congrArg Prod.fst (h.item_unique hentry hvalue hid), fun hsame => hsame ▸ rfl⟩

theorem Accounts.link_id_iff (h : Accounts log order) {token : LinkToken}
    (hissued : .link token ∈ log.issued) {other : LinkToken} (hother : other ∈ log.linked) :
    other.id = token.id ↔ other = token :=
  ⟨h.link_unique hother (log.link_mem_issued hissued), fun hsame => hsame ▸ rfl⟩

theorem bond?_unregister (order : Order V) (token : Token) :
    (order.unregister token).2.bond? = order.bond? := by
  funext link
  rw [bond?, bond?, keyAt?_unregister, keyAt?_unregister]

private theorem bonds_unregister_link (order : Order V) (token : LinkToken) :
    (order.unregister (.link token)).2.bonds = order.bonds.filter (·.id ≠ token.id) := by
  rw [bonds, bonds, bond?_unregister, links_unregister_link, List.filterMap_filter,
    List.filter_filterMap]
  refine List.filterMap_congr fun link _ => ?_
  cases hbond : order.bond? link with
  | none => simp
  | some bond =>
      rw [(bond?_eq_some_iff.mp hbond).1]
      by_cases hid : bond.id = token.id <;> simp [Option.filter, hid]

theorem Accounts.unregistered (h : Accounts log order) {token : Token}
    (hissued : token ∈ log.issued)
    (hitems : ∀ place key, order.keyAt? place = some key →
      (order.unregister token).2.itemsAt place =
        ((log.remove token).itemsUnder key).map fun entry => ⟨entry.1.id, entry.2⟩)
    (hbonds : (order.unregister token).2.bonds = (log.remove token).links) :
    Accounts (log.remove token) (order.unregister token).2 where
  wellFormed := h.wellFormed.unregister token
  closed := by
    rw [keys_unregister]
    exact h.closed
  keys := by
    rw [keys_unregister]
    exact h.keys
  items place key hkey := hitems place key (keyAt?_unregister order token place ▸ hkey)
  bonds := hbonds
  nextItem := (nextItem_unregister order token).trans h.nextItem
  nextLink := (nextLink_unregister order token).trans h.nextLink
  itemKeys := by
    rw [keys_unregister]
    exact h.itemKeys
  itemIds := h.itemIds
  linkIds := h.linkIds
  issued := h.issued
  removed := List.append_subset.mpr ⟨h.removed, List.cons_subset.mpr ⟨hissued, List.nil_subset _⟩⟩

theorem Accounts.remove_item (h : Accounts log order) {token : ItemToken}
    (hissued : .item token ∈ log.issued) (hkept : .item token ∉ log.removed) :
    (order.unregister (.item token)).1 = .ok () ∧
      Accounts (log.remove (.item token)) (order.unregister (.item token)).2 := by
  constructor
  · obtain ⟨value, hvalue⟩ := log.item_mem_issued.mp hissued
    obtain ⟨place, hplace⟩ := (mem_keys_iff_place? order token.key).mp (h.itemKeys _ hvalue)
    have hitem : ⟨token.id, value⟩ ∈ order.itemsAt place := by
      rw [h.items place token.key (keyAt?_place? hplace)]
      refine List.mem_map.mpr ⟨(token, value), ?_, rfl⟩
      simp [Log.itemsUnder, Log.items, hvalue, hkept]
    exact unregister_item_ok hitem rfl
  · refine h.unregistered hissued (fun place key hkey => ?_) ?_
    · rw [itemsAt_unregister_item, h.items place key hkey, Log.itemsUnder_remove, List.filter_map]
      refine congrArg _ (List.filter_congr fun entry hentry => ?_)
      have hregistered := (List.mem_filter.mp (List.mem_filter.mp hentry).1).1
      simpa using h.item_id_iff hissued hregistered
    · rw [Order.bonds, bond?_unregister, links_unregister_item, Log.links_remove]
      refine h.bonds.trans (List.filter_eq_self.mpr fun other _ => ?_).symm
      simp

theorem Accounts.remove_link (h : Accounts log order) {token : LinkToken}
    (hissued : .link token ∈ log.issued) (hkept : .link token ∉ log.removed) :
    (order.unregister (.link token)).1 = .ok () ∧
      Accounts (log.remove (.link token)) (order.unregister (.link token)).2 := by
  constructor
  · have hbond : token ∈ order.bonds := by
      rw [h.bonds]
      exact List.mem_filter.mpr ⟨log.link_mem_issued hissued, decide_eq_true hkept⟩
    obtain ⟨link, hlink, hid, -⟩ := mem_bonds.mp hbond
    exact unregister_link_ok hlink hid
  · refine h.unregistered hissued (fun place key hkey => ?_) ?_
    · rw [itemsAt_unregister_link, h.items place key hkey, Log.itemsUnder_remove]
      refine congrArg _ (List.filter_eq_self.mpr fun entry _ => ?_).symm
      simp
    · rw [bonds_unregister_link, h.bonds, Log.links_remove]
      refine List.filter_congr fun other hother => ?_
      simpa using h.link_id_iff hissued (List.mem_filter.mp hother).1

theorem Accounts.remove (h : Accounts log order) {token : Token} (hissued : token ∈ log.issued)
    (hkept : token ∉ log.removed) :
    (order.unregister token).1 = .ok () ∧
      Accounts (log.remove token) (order.unregister token).2 := by
  cases token with
  | item token => exact h.remove_item hissued hkept
  | link token => exact h.remove_link hissued hkept

theorem Accounts.refused (h : Accounts log order) {token : Token} (hremoved : token ∈ log.removed) :
    order.unregister token = (.error (.alreadyRemoved token), order) := by
  have hissued := h.removed hremoved
  cases token with
  | item token =>
      refine unregister_item_refused fun place item hitem hid => ?_
      obtain ⟨node, hnode, -⟩ := mem_itemsAt.mp hitem
      have hkey : order.keyAt? place = some node.key := by rw [keyAt?, hnode, Option.map_some]
      rw [h.items place _ hkey] at hitem
      obtain ⟨entry, hentry, rfl⟩ := List.mem_map.mp hitem
      obtain ⟨hregistered, hkept⟩ := List.mem_filter.mp (List.mem_filter.mp hentry).1
      rw [(h.item_id_iff hissued hregistered).mp hid] at hkept
      exact of_decide_eq_true hkept hremoved
  | link token =>
      refine unregister_link_refused fun link hlink hid => ?_
      obtain ⟨bond, hbond⟩ := h.wellFormed.bond?_isSome hlink
      have hmem : bond ∈ order.bonds :=
        List.mem_filterMap.mpr ⟨link, Array.mem_toList_iff.mpr hlink, hbond⟩
      rw [h.bonds] at hmem
      obtain ⟨hlinked, hkept⟩ := List.mem_filter.mp hmem
      have hsame := (bond?_eq_some_iff.mp hbond).1.symm.trans hid
      rw [(h.link_id_iff hissued hlinked).mp hsame] at hkept
      exact of_decide_eq_true hkept hremoved

end

end Runbook.Order
