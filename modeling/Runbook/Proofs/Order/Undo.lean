import Runbook.Proofs.Order.Calls
import Runbook.Proofs.Order.Leftovers

/-!
# Taking edits back

All tokens of a series of edits are accepted once, in any order, and then an order reads as it did
before these edits.
-/

namespace Runbook.Order

variable {V : Type}

/-! ## Tokens taken back -/

def takeBack (order : Order V) : List Token → Except OrderError Unit × Order V
  | [] => (.ok (), order)
  | token :: tokens =>
    match order.unregister token with
    | (.ok (), order) => order.takeBack tokens
    | (.error error, order) => (.error error, order)

section

variable {before after : Order V} {tokens others : List Token}

theorem Ledger.perm (h : Ledger before tokens after) (hperm : others.Perm tokens) :
    Ledger before others after := by
  have hitems : (itemIds others).Perm (itemIds tokens) := hperm.filterMap _
  have hlinks : (linkIds others).Perm (linkIds tokens) := hperm.filterMap _
  constructor
  · exact h.keys
  · intro place
    rw [← h.items place]
    exact List.filter_congr fun item _ => by simp [hitems.mem_iff]
  · obtain ⟨automatic, heq, hall⟩ := h.links
    refine ⟨automatic, ?_, hall⟩
    rw [← heq]
    exact List.filter_congr fun link _ => by simp [hlinks.mem_iff]
  · exact fun token htoken => h.inForce token (hperm.mem_iff.mp htoken)
  · exact hitems.nodup_iff.mpr h.itemIds_nodup
  · exact hlinks.nodup_iff.mpr h.linkIds_nodup

theorem Automatic.unregister {link : Link} (h : Automatic before after link) (token : Token) :
    Automatic before (after.unregister token).2 link := by
  simpa only [Automatic, keyAt?_unregister] using h

theorem Ledger.unregister_item {token : ItemToken} (h : Ledger before (.item token :: tokens) after) :
    (after.unregister (.item token)).1 = .ok () ∧
      Ledger before tokens (after.unregister (.item token)).2 := by
  have hids : itemIds (.item token :: tokens) = token.id :: itemIds tokens := rfl
  obtain ⟨hnew, hnodup⟩ := List.nodup_cons.mp (hids ▸ h.itemIds_nodup)
  refine ⟨?_, ?_, fun place => ?_, ?_, fun other hother => ?_, hnodup, h.linkIds_nodup⟩
  · obtain ⟨place, item, -, hitem, hid⟩ := h.inForce _ List.mem_cons_self
    exact unregister_item_ok hitem hid
  · rw [keys_unregister]
    exact h.keys
  · rw [itemsAt_unregister_item, List.filter_filter, ← h.items place, hids]
    refine List.filter_congr fun item _ => ?_
    simp [Bool.and_comm]
  · obtain ⟨automatic, heq, hall⟩ := h.links
    refine ⟨automatic, ?_, fun link hlink => (hall link hlink).unregister _⟩
    rw [links_unregister_item]
    exact heq
  · have hforce := h.inForce other (List.mem_cons_of_mem _ hother)
    cases other with
    | item other =>
        obtain ⟨place, item, hkey, hitem, hid⟩ := hforce
        have hdifferent : item.id ≠ token.id := by
          intro hsame
          exact hnew (mem_itemIds.mpr ⟨other, hother, hid.symm.trans hsame⟩)
        refine ⟨place, item, (keyAt?_unregister _ _ _).trans hkey, ?_, hid⟩
        rw [itemsAt_unregister_item]
        exact List.mem_filter.mpr ⟨hitem, by simpa using hdifferent⟩
    | link other =>
        simpa only [InForce, links_unregister_item, keyAt?_unregister] using hforce

theorem Ledger.unregister_link {token : LinkToken} (h : Ledger before (.link token :: tokens) after) :
    (after.unregister (.link token)).1 = .ok () ∧
      Ledger before tokens (after.unregister (.link token)).2 := by
  have hids : linkIds (.link token :: tokens) = token.id :: linkIds tokens := rfl
  obtain ⟨hnew, hnodup⟩ := List.nodup_cons.mp (hids ▸ h.linkIds_nodup)
  refine ⟨?_, ?_, fun place => ?_, ?_, fun other hother => ?_, h.itemIds_nodup, hnodup⟩
  · obtain ⟨link, hlink, hid, -⟩ := h.inForce _ List.mem_cons_self
    exact unregister_link_ok hlink hid
  · rw [keys_unregister]
    exact h.keys
  · rw [itemsAt_unregister_link]
    exact h.items place
  · obtain ⟨automatic, heq, hall⟩ := h.links
    refine ⟨automatic, ?_, fun link hlink => (hall link hlink).unregister _⟩
    rw [links_unregister_link, List.filter_filter, ← heq, hids]
    refine List.filter_congr fun link _ => ?_
    simp [Bool.and_comm]
  · have hforce := h.inForce other (List.mem_cons_of_mem _ hother)
    cases other with
    | item other =>
        simpa only [InForce, itemsAt_unregister_link, keyAt?_unregister] using hforce
    | link other =>
        obtain ⟨link, hlink, hid, hsource, htarget⟩ := hforce
        have hdifferent : link.id ≠ token.id := by
          intro hsame
          exact hnew (mem_linkIds.mpr ⟨other, hother, hid.symm.trans hsame⟩)
        refine ⟨link, ?_, hid, (keyAt?_unregister _ _ _).trans hsource,
          (keyAt?_unregister _ _ _).trans htarget⟩
        rw [← Array.mem_toList_iff, links_unregister_link]
        exact List.mem_filter.mpr ⟨Array.mem_toList_iff.mpr hlink, by simpa using hdifferent⟩

theorem Ledger.takeBack (h : Ledger before tokens after) (hafter : after.WellFormed) :
    ∃ undone, after.takeBack tokens = (.ok (), undone) ∧ undone.WellFormed ∧
      Ledger before [] undone ∧ undone.keys = after.keys := by
  induction tokens generalizing after with
  | nil => exact ⟨after, rfl, hafter, h, rfl⟩
  | cons token tokens ih =>
      obtain ⟨haccepted, hrest⟩ : (after.unregister token).1 = .ok () ∧
          Ledger before tokens (after.unregister token).2 := by
        cases token with
        | item token => exact h.unregister_item
        | link token => exact h.unregister_link
      obtain ⟨undone, hundone, hwell, hledger, hkeys⟩ := ih hrest (hafter.unregister token)
      refine ⟨undone, ?_, hwell, hledger, hkeys.trans (keys_unregister after token)⟩
      rw [Order.takeBack]
      cases hrun : after.unregister token with
      | mk outcome next =>
          rw [hrun] at haccepted hundone
          cases haccepted
          exact hundone

end

/-! ## Series of edits -/

/-- The orders that adding edits and reads make of one, with all the tokens that were given out. -/
inductive Adds [BEq V] (order : Order V) : List Token → Order V → Prop where
  | nothing : Adds order [] order
  | edit {tokens after} (edit : Edit V) :
      edit.AddsTo after → Adds order tokens after →
      Adds order (tokens ++ (edit.run after).tokens) (edit.run after).order
  | read {tokens after} : Adds order tokens after → Adds order tokens after.arrange.2

theorem Adds.yields [BEq V] {order after : Order V} {tokens : List Token}
    (h : Adds order tokens after) : Yields order tokens after := by
  induction h with
  | nothing => exact .refl order
  | edit edit hadds _ ih => exact ih.trans (Edit.yields_run hadds)
  | @read tokens after _ ih => exact List.append_nil tokens ▸ ih.trans (yields_arrange after)

/-- The tokens of adding edits undo them: each is accepted once, in whatever order they are taken
back, and then the linear list, the check for loops and the values under every key are what they were
before the edits, although the nodes stay. -/
theorem Reachable.taken_back [BEq V] {order after : Order V} (hreachable : Reachable order)
    {tokens taken : List Token} (hadds : Adds order tokens after) (htaken : taken.Perm tokens) :
    ∃ undone, after.takeBack taken = (.ok (), undone) ∧ undone.keys = after.keys ∧
      undone.toLinearList.1 = order.toLinearList.1 ∧
      undone.validate.1 = order.validate.1 ∧
      ∀ key, undone.values key = order.values key := by
  have hwell := hreachable.wellFormed
  obtain ⟨hregular, hledger⟩ := hadds.yields hreachable.regular
  obtain ⟨undone, hundone, hundoneWell, hrest, hkeys⟩ :=
    (hledger.perm htaken).takeBack hregular.wellFormed
  obtain ⟨hlist, hvalid⟩ := hrest.readings_eq hwell hundoneWell
  exact ⟨undone, hundone, hkeys, hlist, hvalid, hrest.values_eq hwell hundoneWell⟩

theorem taken_back_after_failed_sequence :
    ∃ (order after undone : Order Nat) (tokens : List Token),
      Reachable order ∧ Adds order tokens after ∧ after.toLinearList.1 = .ok [3, 1, 2, 4] ∧
      after.takeBack tokens.reverse = (.ok (), undone) ∧
      undone.toLinearList.1 = .ok [1, 2] ∧
      undone.keys = order.keys ++
        [.constant "c", .pre (.constant "a"), .unique (.fresh 0)] := by
  let edits : List (Edit Nat) :=
    [.register (.key (.constant "a")) 1,
      .item (.key (.constant "b")) [(.after, .key (.constant "a"))] 2]
  have hreachable := (Reachable.empty (V := Nat)).edited edits
  have hadds := (Adds.nothing : Adds (Order.empty.edited edits) [] _)
    |>.edit (.item (.pre (.key (.constant "a"))) [(.after, .key (.constant "c"))] 3) (by cbv)
    |>.read
    |>.edit (.sequence [.key (.constant "b")] [.add 4, .addKeyed (.key (.constant "a")) 1]) trivial
  obtain ⟨undone, hundone, hkeys, hlist, -, -⟩ :=
    hreachable.taken_back hadds (List.reverse_perm _)
  exact ⟨_, _, undone, _, hreachable, hadds, by cbv, hundone, hlist.trans (by cbv),
    hkeys.trans (by cbv)⟩

end Runbook.Order
