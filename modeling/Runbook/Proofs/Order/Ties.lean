import Runbook.Proofs.Order.Ledger

/-!
# Keys that come along

A key that stands before or after another one comes with that key and with a link between the two.
Making sure of a key adds the keys of its chain that are new, the outermost one first, and then the
links that come along with these, the innermost one first.
-/

namespace Runbook

/-! ## Chains of keys -/

namespace Key

def chain : Key → List Key
  | .unique id => [.unique id]
  | .constant name => [.constant name]
  | .pre base => .pre base :: base.chain
  | .post base => .post base :: base.chain

def tie? : Key → Option (Key × Key)
  | .unique _ => none
  | .constant _ => none
  | .pre base => some (.pre base, base)
  | .post base => some (base, .post base)

private theorem mem_chain_self (key : Key) : key ∈ key.chain := by
  cases key <;> simp [chain]

theorem chain_subset {key member : Key} (h : member ∈ key.chain) : member.chain ⊆ key.chain := by
  induction key with
  | unique id =>
      rw [List.mem_singleton.mp h]
      exact List.Subset.refl _
  | constant name =>
      rw [List.mem_singleton.mp h]
      exact List.Subset.refl _
  | pre base ih =>
      rcases List.mem_cons.mp h with rfl | h
      · exact List.Subset.refl _
      · exact List.subset_cons_of_subset _ (ih h)
  | post base ih =>
      rcases List.mem_cons.mp h with rfl | h
      · exact List.Subset.refl _
      · exact List.subset_cons_of_subset _ (ih h)

theorem sizeOf_of_mem_chain {key member : Key} (h : member ∈ key.chain) :
    sizeOf member ≤ sizeOf key := by
  induction key with
  | unique id => exact List.mem_singleton.mp h ▸ Nat.le_refl _
  | constant name => exact List.mem_singleton.mp h ▸ Nat.le_refl _
  | pre base ih =>
      rcases List.mem_cons.mp h with rfl | h
      · exact Nat.le_refl _
      · have := ih h
        simp only [pre.sizeOf_spec]
        omega
  | post base ih =>
      rcases List.mem_cons.mp h with rfl | h
      · exact Nat.le_refl _
      · have := ih h
        simp only [post.sizeOf_spec]
        omega

theorem pre_not_mem_chain (base : Key) : .pre base ∉ base.chain := by
  intro h
  have := sizeOf_of_mem_chain h
  simp only [pre.sizeOf_spec] at this
  omega

theorem post_not_mem_chain (base : Key) : .post base ∉ base.chain := by
  intro h
  have := sizeOf_of_mem_chain h
  simp only [post.sizeOf_spec] at this
  omega

private theorem chain_nodup (key : Key) : key.chain.Nodup := by
  induction key with
  | unique id => exact List.nodup_singleton _
  | constant name => exact List.nodup_singleton _
  | pre base ih => exact List.nodup_cons.mpr ⟨pre_not_mem_chain base, ih⟩
  | post base ih => exact List.nodup_cons.mpr ⟨post_not_mem_chain base, ih⟩

def arrivals (known : List Key) (key : Key) : List Key := key.chain.filter (· ∉ known)

def ties (known : List Key) (key : Key) : List (Key × Key) :=
  (key.arrivals known).reverse.filterMap tie?

theorem appendNew_chain (known : List Key) (key : Key) :
    appendNew known key.chain = known ++ key.arrivals known :=
  appendNew_of_nodup key.chain_nodup known

/-- Whether no member of a key's chain is known without the keys that come along with it. -/
def ClosedIn (known : List Key) (key : Key) : Prop :=
  ∀ member ∈ key.chain, member ∈ known → member.chain ⊆ known

theorem ClosedIn.base {known : List Key} {key base : Key} (h : key.ClosedIn known)
    (hchain : key.chain = key :: base.chain) (hself : key ∉ base.chain) :
    base.ClosedIn (known ++ [key]) := by
  intro member hmember hknown
  have hold : member ∈ known := by
    rcases List.mem_append.mp hknown with hold | hnew
    · exact hold
    · rw [List.mem_singleton.mp hnew] at hmember
      exact absurd hmember hself
  have hchain' : member ∈ key.chain := hchain ▸ List.mem_cons_of_mem _ hmember
  exact List.subset_append_of_subset_left _ (h member hchain' hold)

private theorem arrivals_of_mem {known : List Key} {key : Key} (h : key.ClosedIn known)
    (hknown : key ∈ known) : key.arrivals known = [] := by
  refine List.filter_eq_nil_iff.mpr fun member hmember => ?_
  simpa using h key (mem_chain_self key) hknown hmember

private theorem arrivals_of_not_mem {known : List Key} {key base : Key} (hnew : key ∉ known)
    (hchain : key.chain = key :: base.chain) (hself : key ∉ base.chain) :
    key.arrivals known = key :: base.arrivals (known ++ [key]) := by
  rw [arrivals, hchain, List.filter_cons_of_pos (by simpa using hnew), arrivals]
  congr 1
  refine List.filter_congr fun member hmember => ?_
  have hdifferent : member ≠ key := fun hsame => hself (hsame ▸ hmember)
  simp [hdifferent]

end Key

namespace Order

variable {V : Type} {order : Order V}

/-! ## Links by their keys -/

def bond? (order : Order V) (link : Link) : Option LinkToken := do
  let source ← order.keyAt? link.source
  let target ← order.keyAt? link.target
  return ⟨link.id, source, target⟩

def bonds (order : Order V) : List LinkToken := order.links.toList.filterMap order.bond?

theorem bond?_eq_some_iff {link : Link} {bond : LinkToken} :
    order.bond? link = some bond ↔ link.id = bond.id ∧
      order.keyAt? link.source = some bond.source ∧
      order.keyAt? link.target = some bond.target := by
  obtain ⟨id, source, target⟩ := bond
  simp only [bond?, Option.bind_eq_bind, Option.bind_eq_some_iff, Option.pure_def,
    Option.some.injEq, LinkToken.mk.injEq]
  constructor
  · rintro ⟨first, hfirst, second, hsecond, rfl, rfl, rfl⟩
    exact ⟨rfl, hfirst, hsecond⟩
  · rintro ⟨rfl, hfirst, hsecond⟩
    exact ⟨source, hfirst, target, hsecond, rfl, rfl, rfl⟩

theorem mem_bonds {bond : LinkToken} : bond ∈ order.bonds ↔ order.InForce (.link bond) := by
  simp only [bonds, List.mem_filterMap, bond?_eq_some_iff, Array.mem_toList_iff, InForce]

theorem WellFormed.bond?_isSome (hwell : order.WellFormed) {link : Link}
    (hlink : link ∈ order.links) : ∃ bond, order.bond? link = some bond := by
  obtain ⟨hsource, htarget⟩ := hwell.link_bounds link hlink
  rw [nodeCount_eq] at hsource htarget
  refine ⟨⟨link.id, order.keys[link.source], order.keys[link.target]⟩,
    bond?_eq_some_iff.mpr ⟨rfl, ?_, ?_⟩⟩
  · rw [keyAt?_eq, List.getElem?_eq_getElem hsource]
  · rw [keyAt?_eq, List.getElem?_eq_getElem htarget]

def numbered (first : Nat) (ends : List (Key × Key)) : List LinkToken :=
  (ends.zipIdx first).map fun (pair, id) => ⟨id, pair.1, pair.2⟩

private theorem numbered_append (first : Nat) (ends others : List (Key × Key)) :
    numbered first (ends ++ others) =
      numbered first ends ++ numbered (first + ends.length) others := by
  rw [numbered, List.zipIdx_append, List.map_append]
  rfl

@[simp] theorem numbered_length (first : Nat) (ends : List (Key × Key)) :
    (numbered first ends).length = ends.length := by
  simp [numbered]

theorem numbered_ids (first : Nat) (ends : List (Key × Key)) :
    (numbered first ends).map (·.id) = List.range' first ends.length := by
  rw [numbered, List.map_map, ← List.zipIdx_map_snd first ends]
  rfl

theorem bonds_addNode (hwell : order.WellFormed) (key : Key) :
    (order.addNode key).bonds = order.bonds := by
  refine List.filterMap_congr fun link hlink => ?_
  obtain ⟨hsource, htarget⟩ := hwell.link_bounds link (Array.mem_toList_iff.mp hlink)
  have hkeys : ∀ place < order.nodeCount,
      (order.addNode key).keyAt? place = order.keyAt? place := by
    intro place hplace
    rw [nodeCount_eq] at hplace
    rw [keyAt?_eq, keyAt?_eq, keys_addNode, List.getElem?_append_left hplace]
  rw [bond?, bond?, hkeys _ hsource, hkeys _ htarget]

theorem bonds_addLink {sourcePlace targetPlace : Nat} {source target : Key}
    (hsource : order.keyAt? sourcePlace = some source)
    (htarget : order.keyAt? targetPlace = some target) :
    (order.addLink sourcePlace targetPlace).bonds =
      order.bonds ++ [⟨order.nextLink, source, target⟩] := by
  have hkept : (order.addLink sourcePlace targetPlace).bond? = order.bond? := rfl
  have hadded : order.bond? ⟨order.nextLink, sourcePlace, targetPlace⟩ =
      some ⟨order.nextLink, source, target⟩ :=
    bond?_eq_some_iff.mpr ⟨rfl, hsource, htarget⟩
  rw [bonds, hkept, addLink, Array.toList_push, List.filterMap_append,
    List.filterMap_cons_some hadded]
  rfl

/-! ## What comes along -/

/-- What making sure of a key adds. -/
structure Ensures (order : Order V) (key : Key) (place : Nat) (after : Order V) : Prop where
  wellFormed : after.WellFormed
  keyAt : after.keyAt? place = some key
  keys : after.keys = order.keys ++ key.arrivals order.keys
  bonds : after.bonds = order.bonds ++ numbered order.nextLink (key.ties order.keys)
  nextLink : after.nextLink = order.nextLink + (key.ties order.keys).length
  nextItem : after.nextItem = order.nextItem
  items : ∀ place, after.itemsAt place = order.itemsAt place

theorem Ensures.known (hwell : order.WellFormed) {key : Key} {place : Nat}
    (hclosed : key.ClosedIn order.keys) (hplace : order.place? key = some place) :
    Ensures order key place order := by
  have hkey := keyAt?_place? hplace
  have hnone : key.arrivals order.keys = [] :=
    Key.arrivals_of_mem hclosed ((mem_keys_iff_place? order key).mpr ⟨place, hplace⟩)
  constructor <;> simp [hwell, hkey, hnone, Key.ties, numbered]

theorem Ensures.plain (hwell : order.WellFormed) {key : Key} (hnew : key ∉ order.keys)
    (hchain : key.chain = [key]) (htie : key.tie? = none) :
    Ensures order key order.nodeCount (order.addNode key) := by
  have hone : key.arrivals order.keys = [key] := by simp [Key.arrivals, hchain, hnew]
  have hnone : key.ties order.keys = [] := by simp [Key.ties, hone, htie]
  constructor
  · exact hwell.addNode hnew
  · exact keyAt?_addNode order key
  · rw [keys_addNode, hone]
  · rw [bonds_addNode hwell, hnone]
    exact (List.append_nil _).symm
  · rw [hnone]
    rfl
  · rfl
  · exact itemsAt_addNode order key

theorem Ensures.tied (hwell : order.WellFormed) {key base : Key} (hnew : key ∉ order.keys)
    (hchain : key.chain = key :: base.chain) (hself : key ∉ base.chain) {source target : Key}
    (htie : key.tie? = some (source, target)) {basePlace : Nat} {made : Order V}
    (hmade : Ensures (order.addNode key) base basePlace made) {sourcePlace targetPlace : Nat}
    (hsource : made.keyAt? sourcePlace = some source)
    (htarget : made.keyAt? targetPlace = some target) :
    Ensures order key order.nodeCount (made.addLink sourcePlace targetPlace) := by
  have harrivals : key.arrivals order.keys =
      key :: base.arrivals (order.addNode key).keys := by
    rw [keys_addNode]
    exact Key.arrivals_of_not_mem hnew hchain hself
  have hties : key.ties order.keys =
      base.ties (order.addNode key).keys ++ [(source, target)] := by
    simp [Key.ties, harrivals, htie]
  have hbefore : (order.addNode key).keys <+: made.keys := ⟨_, hmade.keys.symm⟩
  constructor
  · exact hmade.wellFormed.addLink (keyAt?_lt hsource) (keyAt?_lt htarget)
  · exact keyAt?_later hbefore (keyAt?_addNode order key)
  · rw [keys_addLink, hmade.keys, keys_addNode, harrivals, keys_addNode]
    simp
  · rw [bonds_addLink hsource htarget, hmade.bonds, bonds_addNode hwell, hmade.nextLink, hties,
      numbered_append, List.append_assoc]
    rfl
  · change made.nextLink + 1 = _
    rw [hmade.nextLink, hties, List.length_append, ← Nat.add_assoc]
    rfl
  · exact hmade.nextItem
  · intro place
    rw [itemsAt_addLink, hmade.items, itemsAt_addNode]

theorem ensures_ensure (hwell : order.WellFormed) {key : Key} (hclosed : key.ClosedIn order.keys) :
    Ensures order key (order.ensure key).1 (order.ensure key).2 := by
  induction key generalizing order with
  | unique id =>
      cases hplace : order.place? (.unique id) with
      | some place =>
          rw [ensure_of_place? hplace]
          exact .known hwell hclosed hplace
      | none =>
          rw [ensure_unique hplace]
          exact .plain hwell ((place?_eq_none_iff order _).mp hplace) rfl rfl
  | constant name =>
      cases hplace : order.place? (.constant name) with
      | some place =>
          rw [ensure_of_place? hplace]
          exact .known hwell hclosed hplace
      | none =>
          rw [ensure_constant hplace]
          exact .plain hwell ((place?_eq_none_iff order _).mp hplace) rfl rfl
  | pre base ih =>
      cases hplace : order.place? (.pre base) with
      | some place =>
          rw [ensure_of_place? hplace]
          exact .known hwell hclosed hplace
      | none =>
          have hnew := (place?_eq_none_iff order _).mp hplace
          have hself := Key.pre_not_mem_chain base
          have hmade := ih (hwell.addNode hnew) (keys_addNode order _ ▸ hclosed.base rfl hself)
          rw [ensure_pre hplace]
          exact .tied hwell hnew rfl hself rfl hmade
            (keyAt?_later ⟨_, hmade.keys.symm⟩ (keyAt?_addNode order _)) hmade.keyAt
  | post base ih =>
      cases hplace : order.place? (.post base) with
      | some place =>
          rw [ensure_of_place? hplace]
          exact .known hwell hclosed hplace
      | none =>
          have hnew := (place?_eq_none_iff order _).mp hplace
          have hself := Key.post_not_mem_chain base
          have hmade := ih (hwell.addNode hnew) (keys_addNode order _ ▸ hclosed.base rfl hself)
          rw [ensure_post hplace]
          exact .tied hwell hnew rfl hself rfl hmade hmade.keyAt
            (keyAt?_later ⟨_, hmade.keys.symm⟩ (keyAt?_addNode order _))

end Order

end Runbook
