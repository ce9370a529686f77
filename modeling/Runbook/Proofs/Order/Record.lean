import Runbook.Proofs.Order.Log

/-!
# Orders read off their logs

Every run of single calls keeps a log, and the keys, the values, the dependencies and the size of
the order that it leads to are those of the log.  Every token that was given out is accepted once and
takes back what it was given for, and nothing else.
-/

namespace Runbook.Order

variable {V : Type}

/-! ## Readings -/

section

variable {log : Log V} {order : Order V}

theorem Accounts.valuesAt_eq (h : Accounts log order) {place : Nat} {key : Key}
    (hkey : order.keyAt? place = some key) : order.valuesAt place = log.values key := by
  rw [Order.valuesAt_eq, h.items place key hkey, List.map_map]
  rfl

theorem Accounts.values_eq (h : Accounts log order) (key : Key) :
    order.values key = log.values key := by
  rw [Order.values]
  cases hplace : order.place? key with
  | some place => exact h.valuesAt_eq (keyAt?_place? hplace)
  | none =>
      have hnone := h.itemsUnder_eq_nil ((place?_eq_none_iff order key).mp hplace)
      rw [Log.values, hnone]
      rfl

theorem WellFormed.sources_eq (hwell : order.WellFormed) {place : Nat} {key : Key}
    (hkey : order.keyAt? place = some key) :
    ((order.links.toList.filter (·.target = place)).map (·.source)).filterMap order.keyAt? =
      (order.bonds.filter (·.target = key)).map (·.source) := by
  rw [List.filterMap_map, List.filterMap_filter, bonds, List.filter_filterMap, List.map_filterMap]
  refine List.filterMap_congr fun link hlink => ?_
  obtain ⟨bond, hbond⟩ := hwell.bond?_isSome (Array.mem_toList_iff.mp hlink)
  obtain ⟨-, hsource, htarget⟩ := bond?_eq_some_iff.mp hbond
  have htargets : link.target = place ↔ bond.target = key := by
    constructor
    · rintro rfl
      exact Option.some.inj (htarget.symm.trans hkey)
    · rintro rfl
      exact hwell.place_unique htarget hkey
  by_cases hsame : bond.target = key <;> simp [hbond, htargets, hsource, hsame, Option.filter]

theorem Accounts.dependencies_eq (h : Accounts log order) (key : Key) :
    order.dependencies key = log.dependencies key := by
  rw [Log.dependencies, ← h.bonds]
  cases hplace : order.place? key with
  | none =>
      have hnone : order.bonds.filter (·.target = key) = [] := by
        refine List.filter_eq_nil_iff.mpr fun bond hbond => ?_
        obtain ⟨link, -, -, -, htarget⟩ := mem_bonds.mp hbond
        have hunknown := (place?_eq_none_iff order key).mp hplace
        simpa using fun hsame : bond.target = key =>
          hunknown (hsame ▸ mem_keys_of_keyAt? htarget)
      rw [Order.dependencies, hplace, hnone]
      rfl
  | some place =>
      have hkey := keyAt?_place? hplace
      rw [dependencies_of_keyAt? h.wellFormed hkey, dependenciesAt, filterMap_firsts
        fun first second own hfirst hsecond => h.wellFormed.place_unique hfirst hsecond]
      exact congrArg firsts (h.wellFormed.sources_eq hkey)

private theorem length_under {keys : List Key} (hkeys : keys.Nodup) (entries : List (ItemToken × V))
    (hknown : ∀ entry ∈ entries, entry.1.key ∈ keys) :
    (keys.flatMap fun key => entries.filter (·.1.key = key)).length = entries.length := by
  induction keys generalizing entries with
  | nil =>
      have hnone : entries = [] := List.eq_nil_iff_forall_not_mem.mpr fun entry hentry =>
        absurd (hknown entry hentry) List.not_mem_nil
      rw [hnone]
      rfl
  | cons key keys ih =>
      obtain ⟨hnew, hrest⟩ := List.nodup_cons.mp hkeys
      have hothers : (keys.flatMap fun other => entries.filter (·.1.key = other)) =
          keys.flatMap fun other =>
            (entries.filter fun entry => !decide (entry.1.key = key)).filter
              (·.1.key = other) := by
        refine List.flatMap_congr fun other hother => ?_
        rw [List.filter_filter]
        refine List.filter_congr fun entry _ => ?_
        by_cases hkey : entry.1.key = other
        · have hdifferent : other ≠ key := fun hsame => hnew (hsame ▸ hother)
          simp [hkey, hdifferent]
        · simp [hkey]
      have hbehind : ∀ entry ∈ entries.filter fun entry => !decide (entry.1.key = key),
          entry.1.key ∈ keys := by
        intro entry hentry
        obtain ⟨hmem, hdifferent⟩ := List.mem_filter.mp hentry
        exact (List.mem_cons.mp (hknown entry hmem)).resolve_left (by simpa using hdifferent)
      rw [List.flatMap_cons, List.length_append, hothers, ih hrest _ hbehind]
      exact (List.length_eq_length_filter_add _).symm

theorem Accounts.size_eq (h : Accounts log order) : order.size = log.items.length := by
  have hnode : ∀ node ∈ order.nodes.toList,
      node.items.length = (log.itemsUnder node.key).length := by
    intro node hnode
    obtain ⟨place, hplace⟩ := List.mem_iff_getElem?.mp hnode
    rw [Array.getElem?_toList] at hplace
    have hkey : order.keyAt? place = some node.key := by rw [keyAt?, hplace, Option.map_some]
    have hitems : node.items = order.itemsAt place := by rw [itemsAt, hplace]
    rw [hitems, h.items place node.key hkey, List.length_map]
  have hknown : ∀ entry ∈ log.items, entry.1.key ∈ order.keys :=
    fun entry hentry => h.itemKeys entry (List.mem_filter.mp hentry).1
  rw [← length_under h.wellFormed.keys_nodup log.items hknown, size, List.length_flatMap,
    List.length_flatMap, Order.keys, List.map_map, List.map_congr_left hnode]
  rfl

end

/-! ## Runs of calls -/

/-- Whether an edit is a single call: one that takes back has a token that was given out, and a
generated key is new. -/
def Edit.IsCall (log : Log V) (order : Order V) : Edit V → Prop
  | .register .. | .link .. | .expect _ => True
  | .registerUnique _ => order.freshKey.1 ∉ order.keys
  | .unregister token => token ∈ log.issued
  | .item .. | .sequence .. => False

instance Edit.decidableIsCall (log : Log V) (order : Order V) :
    (edit : Edit V) → Decidable (edit.IsCall log order)
  | .register .. | .link .. | .expect _ => .isTrue trivial
  | .registerUnique _ => inferInstanceAs (Decidable (order.freshKey.1 ∉ order.keys))
  | .unregister token => inferInstanceAs (Decidable (token ∈ log.issued))
  | .item .. | .sequence .. => .isFalse id

def Log.noting [BEq V] (log : Log V) (order : Order V) : Edit V → Log V
  | .register key value =>
    match key.resolve with
    | .error _ => log
    | .ok key =>
      match (order.register key value).1 with
      | .ok token => (log.mention key).register token value
      | .error _ => log.mention key
  | .registerUnique value =>
    let token := (order.registerUnique value).1
    (log.mention token.key).register token value
  | .link source target =>
    match source.resolve, target.resolve with
    | .ok source, .ok target =>
      ((log.mention source).mention target).link (order.link source target).1
    | .error _, _ | _, .error _ => log
  | .expect key =>
    match key.resolve with
    | .error _ => log
    | .ok key => log.mention key
  | .unregister token =>
    match (order.unregister token).1 with
    | .ok () => log.remove token
    | .error _ => log
  | .item .. | .sequence .. => log

/-- The orders that calls and reads make of an empty one, with their logs. -/
inductive Recorded [BEq V] : Log V → Order V → Prop where
  | nothing : Recorded .nothing .empty
  | call {log order} (edit : Edit V) :
      edit.IsCall log order → Recorded log order →
      Recorded (log.noting order edit) (edit.run order).order
  | read {log order} : Recorded log order → Recorded log order.arrange.2

section

variable [BEq V] {log : Log V} {order : Order V}

theorem Accounts.call (h : Accounts log order) {edit : Edit V} (hcall : edit.IsCall log order) :
    Accounts (log.noting order edit) (edit.run order).order := by
  cases edit with
  | register source value =>
      rw [Log.noting, Edit.run]
      cases source.resolve with
      | error error => exact h
      | ok key =>
          simp only [register_eq]
          by_cases hheld :
              ((order.ensure key).2.valuesAt (order.ensure key).1).contains value = true
          · simp only [if_pos hheld]
            exact h.mention key
          · simp only [if_neg hheld]
            exact h.attach key value
  | registerUnique value => exact h.freshKey.attach _ value
  | link source target =>
      rw [Log.noting, Edit.run]
      cases source.resolve with
      | error error => exact h
      | ok sourceKey =>
          cases target.resolve with
          | error error => exact h
          | ok targetKey => exact h.connect sourceKey targetKey
  | expect source =>
      rw [Log.noting, Edit.run]
      cases source.resolve with
      | error error => exact h
      | ok key => exact h.mention key
  | unregister token =>
      rw [Log.noting, Edit.run]
      by_cases hremoved : token ∈ log.removed
      · rw [h.refused hremoved]
        exact h
      · obtain ⟨haccepted, hafter⟩ := h.remove hcall hremoved
        cases hrun : order.unregister token with
        | mk outcome after =>
            rw [hrun] at haccepted hafter
            cases haccepted
            exact hafter
  | item source links value => exact absurd hcall id
  | sequence sources steps => exact absurd hcall id

theorem Recorded.accounts (h : Recorded log order) : Accounts log order := by
  induction h with
  | nothing => exact .nothing
  | call edit hcall _ ih => exact ih.call hcall
  | read _ ih => exact ih.arrange

/-! ## Values that differ -/

def Log.Distinct (log : Log V) : Prop :=
  ∀ key, (log.values key).Pairwise fun older newer => (newer == older) = false

theorem Log.Distinct.register (h : log.Distinct) {token : ItemToken}
    (hkept : .item token ∉ log.removed) {value : V}
    (hnew : ∀ older ∈ log.values token.key, (value == older) = false) :
    (log.register token value).Distinct := by
  intro key
  rw [Log.values, Log.itemsUnder_register hkept, List.map_append]
  by_cases hkey : token.key = key
  · subst hkey
    refine List.pairwise_append.mpr ⟨h token.key, by simp, fun older holder newer hnewer => ?_⟩
    simp only [if_true, List.map_cons, List.map_nil, List.mem_singleton] at hnewer
    exact hnewer ▸ hnew older holder
  · rw [if_neg hkey, List.map_nil, List.append_nil]
    exact h key

theorem Log.Distinct.remove (h : log.Distinct) (token : Token) : (log.remove token).Distinct := by
  intro key
  refine (h key).sublist ?_
  rw [Log.values, Log.itemsUnder_remove]
  exact List.filter_sublist.map _

theorem Accounts.register_outcome (h : Accounts log order) (key : Key) (value : V) :
    (order.register key value).1 =
      if (log.values key).contains value then .error (.duplicateValue key)
      else .ok ⟨log.registered.length, key⟩ := by
  have hvalues : (order.ensure key).2.valuesAt (order.ensure key).1 = log.values key :=
    (h.mention key).valuesAt_eq (h.ensures key).keyAt
  have hnext : (order.ensure key).2.nextItem = log.registered.length := (h.mention key).nextItem
  rw [register_eq, hvalues, hnext]
  split <;> rfl

theorem Accounts.distinct_call (h : Accounts log order) (hdistinct : log.Distinct) {edit : Edit V}
    (hcall : edit.IsCall log order) : (log.noting order edit).Distinct := by
  have hfresh : ∀ key, .item ⟨log.registered.length, key⟩ ∉ log.removed :=
    fun key hremoved => h.item_not_issued (Nat.le_refl _) (h.removed hremoved)
  cases edit with
  | register source value =>
      rw [Log.noting]
      cases source.resolve with
      | error error => exact hdistinct
      | ok key =>
          simp only [h.register_outcome]
          by_cases hheld : (log.values key).contains value = true
          · simp only [if_pos hheld]
            exact hdistinct
          · simp only [if_neg hheld]
            have hmention : (log.mention key).Distinct := hdistinct
            refine hmention.register (hfresh key) fun older holder => ?_
            rw [List.contains_eq_any_beq] at hheld
            simpa using fun hsame => hheld (List.any_eq_true.mpr ⟨older, holder, hsame⟩)
  | registerUnique value =>
      have hnext : (order.freshKey.2.ensure order.freshKey.1).2.nextItem =
          log.registered.length := (h.freshKey.mention _).nextItem
      have hnone : (log.mention order.freshKey.1).values order.freshKey.1 = [] := by
        change (log.itemsUnder order.freshKey.1).map (·.2) = []
        rw [h.itemsUnder_eq_nil hcall]
        rfl
      rw [Log.noting, registerUnique]
      simp only [hnext]
      have hmention : (log.mention order.freshKey.1).Distinct := hdistinct
      refine hmention.register (hfresh _) fun older holder => ?_
      rw [hnone] at holder
      simp at holder
  | link source target =>
      rw [Log.noting]
      split <;> exact hdistinct
  | expect source =>
      rw [Log.noting]
      split <;> exact hdistinct
  | unregister token =>
      rw [Log.noting]
      split
      · exact hdistinct.remove token
      · exact hdistinct
  | item source links value => exact absurd hcall id
  | sequence sources steps => exact absurd hcall id

theorem Recorded.distinct (h : Recorded log order) : log.Distinct := by
  induction h with
  | nothing => simp [Log.Distinct, Log.values, Log.itemsUnder, Log.items, Log.registered]
  | call edit hcall hrecorded ih => exact hrecorded.accounts.distinct_call ih hcall
  | read _ ih => exact ih

end

/-! ## What a token takes out -/

/-- Whether a token takes out the one registration or link that it was given for. -/
def Log.TakesOut (log : Log V) : Token → Prop
  | .item token => ∃ value older newer,
      log.items = older ++ (token, value) :: newer ∧
      (log.remove (.item token)).items = older ++ newer ∧
      (log.remove (.item token)).links = log.links
  | .link token => ∃ older newer,
      log.links = older ++ token :: newer ∧
      (log.remove (.link token)).links = older ++ newer ∧
      (log.remove (.link token)).items = log.items

theorem split_of_nodup {α β : Type} [DecidableEq β] {view : α → β} {members : List α}
    (hnodup : (members.map view).Nodup) {member : α} (hmember : member ∈ members) :
    ∃ older newer, members = older ++ member :: newer ∧
      members.filter (fun other => view other ≠ view member) = older ++ newer := by
  obtain ⟨older, newer, rfl⟩ := List.append_of_mem hmember
  refine ⟨older, newer, rfl, ?_⟩
  rw [List.map_append, List.map_cons, List.nodup_middle, List.nodup_cons] at hnodup
  have hothers : ∀ other ∈ older ++ newer, view other ≠ view member := by
    intro other hother hsame
    rw [← List.map_append] at hnodup
    exact hnodup.1 (hsame ▸ List.mem_map_of_mem hother)
  have hkept : (older ++ newer).filter (fun other => view other ≠ view member) = older ++ newer :=
    List.filter_eq_self.mpr fun other hother => decide_eq_true (hothers other hother)
  rw [List.filter_append, List.filter_cons_of_neg (by simp), ← List.filter_append, hkept]

section

variable {log : Log V} {order : Order V}

theorem Accounts.takesOut (h : Accounts log order) {token : Token} (hissued : token ∈ log.issued)
    (hkept : token ∉ log.removed) : log.TakesOut token := by
  cases token with
  | item token =>
      obtain ⟨value, hvalue⟩ := log.item_mem_issued.mp hissued
      have hnodup : (log.items.map (·.1)).Nodup := by
        have hids : (log.registered.map (·.1)).Nodup := by
          refine List.Nodup.of_map ItemToken.id ?_
          rw [List.map_map]
          exact h.itemIds ▸ List.nodup_range
        exact hids.sublist (List.filter_sublist.map _)
      have hitem : (token, value) ∈ log.items :=
        List.mem_filter.mpr ⟨hvalue, decide_eq_true hkept⟩
      obtain ⟨older, newer, hitems, hrest⟩ := split_of_nodup hnodup hitem
      refine ⟨value, older, newer, hitems, ?_, ?_⟩
      · rw [Log.items_remove, ← hrest]
        exact List.filter_congr fun entry _ => by simp
      · rw [Log.links_remove]
        exact List.filter_eq_self.mpr fun other _ => by simp
  | link token =>
      have hnodup : (log.links.map id).Nodup := by
        have hids : log.linked.Nodup := List.Nodup.of_map _ (h.linkIds ▸ List.nodup_range)
        rw [List.map_id]
        exact hids.sublist List.filter_sublist
      have hlink : token ∈ log.links :=
        List.mem_filter.mpr ⟨log.link_mem_issued hissued, decide_eq_true hkept⟩
      obtain ⟨older, newer, hlinks, hrest⟩ := split_of_nodup hnodup hlink
      refine ⟨older, newer, hlinks, ?_, ?_⟩
      · rw [Log.links_remove, ← hrest]
        exact List.filter_congr fun other _ => by simp
      · rw [Log.items_remove]
        exact List.filter_eq_self.mpr fun entry _ => by simp

end

/-! ## Orders and their logs -/

/-- Every order that calls lead to reads as its log says, and so do the outcomes of the calls: a
registration fails on a value that its key holds, and every token that was given out is accepted the
first time, where it takes out its own registration or link, and refused from then on. -/
theorem Recorded.refines_log [BEq V] {log : Log V} {order : Order V} (h : Recorded log order) :
    order.keys = firsts (log.mentions.flatMap Key.chain) ∧
    (∀ key, order.values key = log.values key ∧
      (order.values key).Pairwise fun older newer => (newer == older) = false) ∧
    (∀ key, order.dependencies key = log.dependencies key) ∧
    order.size = log.items.length ∧
    (∀ key value, (order.register key value).1 =
      if (log.values key).contains value then .error (.duplicateValue key)
      else .ok ⟨log.registered.length, key⟩) ∧
    log.issued.Nodup ∧
    ∀ token ∈ log.issued,
      if token ∈ log.removed then
        order.unregister token = (.error (.alreadyRemoved token), order)
      else
        ∃ after, order.unregister token = (.ok (), after) ∧
          Recorded (log.remove token) after ∧ log.TakesOut token := by
  have haccounts := h.accounts
  refine ⟨haccounts.keys, fun key => ?_, haccounts.dependencies_eq, haccounts.size_eq,
    haccounts.register_outcome, haccounts.issued, fun token hissued => ?_⟩
  · rw [haccounts.values_eq]
    exact ⟨rfl, h.distinct key⟩
  · split
    · next hremoved => exact haccounts.refused hremoved
    · next hkept =>
      obtain ⟨haccepted, -⟩ := haccounts.remove hissued hkept
      have hcall := Recorded.call (.unregister token) hissued h
      rw [Log.noting, Edit.run] at hcall
      cases hrun : order.unregister token with
      | mk outcome after =>
          rw [hrun] at haccepted hcall
          cases haccepted
          exact ⟨after, rfl, hcall, haccounts.takesOut hissued hkept⟩

theorem refines_log_parallel_links :
    ∃ (log : Log Nat) (order : Order Nat), Recorded log order ∧
      order.keys = [.pre (.constant "a"), .constant "a", .constant "b", .unique (.fresh 0)] ∧
      order.values (.constant "b") = [2] ∧
      order.dependencies (.constant "b") = [.constant "a"] ∧
      order.size = 3 ∧
      order.unregister (.link ⟨1, .constant "a", .constant "b"⟩) =
        (.error (.alreadyRemoved (.link ⟨1, .constant "a", .constant "b"⟩)), order) := by
  have hrecorded := (Recorded.nothing (V := Nat))
    |>.call (.register (.pre (.key (.constant "a"))) 1) trivial
    |>.call (.link (.key (.constant "a")) (.key (.constant "b"))) trivial
    |>.call (.link (.key (.constant "a")) (.key (.constant "b"))) trivial
    |>.read
    |>.call (.register (.key (.constant "b")) 2) trivial
    |>.call (.register (.key (.constant "b")) 2) trivial
    |>.call (.registerUnique 3) (by decide +kernel)
    |>.call (.unregister (.link ⟨1, .constant "a", .constant "b"⟩)) (by decide +kernel)
  obtain ⟨hkeys, hvalues, hdependencies, hsize, -, -, htokens⟩ := hrecorded.refines_log
  have hrefused := htokens (.link ⟨1, .constant "a", .constant "b"⟩) (by decide +kernel)
  exact ⟨_, _, hrecorded, hkeys.trans (by decide +kernel),
    (hvalues _).1.trans (by decide +kernel), (hdependencies _).trans (by decide +kernel),
    hsize.trans (by decide +kernel), (if_pos (by decide +kernel)).mp hrefused⟩

end Runbook.Order
