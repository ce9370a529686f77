import Runbook.Proofs.Json.Separation
import Runbook.Proofs.Order.Paths

/-!
# Writes of some keys

The document that the writes of some keys make, where keys that no path of links connects write
unrelated fields.  If the keys that come before a key are always among them, their writes can be
done first.  So the documents of two sets of keys, merged, are the document of both sets.
-/

namespace Runbook

open Runbook.Json Runbook.Order

/-! ## Writes -/

section

variable {writes : Key → List FieldWrite} {keys : List Key} {member other : Key → Prop}
  {document : Json}

open Classical in
noncomputable def writesOf (writes : Key → List FieldWrite) (keys : List Key)
    (member : Key → Prop) : List FieldWrite :=
  (keys.filter fun key => member key).flatMap writes

theorem writesOf_cons_of_mem {key : Key} (h : member key) :
    writesOf writes (key :: keys) member = writes key ++ writesOf writes keys member := by
  rw [writesOf, List.filter_cons_of_pos (by simpa using h), List.flatMap_cons]
  rfl

theorem writesOf_cons_of_not_mem {key : Key} (h : ¬ member key) :
    writesOf writes (key :: keys) member = writesOf writes keys member := by
  rw [writesOf, List.filter_cons_of_neg (by simpa using h)]
  rfl

theorem writesOf_congr (h : ∀ key ∈ keys, member key ↔ other key) :
    writesOf writes keys member = writesOf writes keys other := by
  rw [writesOf, writesOf, List.filter_congr fun key hkey => decide_eq_decide.mpr (h key hkey)]

theorem mem_writesOf {write : FieldWrite} :
    write ∈ writesOf writes keys member ↔ ∃ key ∈ keys, member key ∧ write ∈ writes key := by
  simp [writesOf, and_assoc]

theorem writesOf_all (h : ∀ key ∈ keys, member key) :
    writesOf writes keys member = keys.flatMap writes := by
  rw [writesOf, List.filter_eq_self.mpr]
  intro key hkey
  simpa using h key hkey

theorem writesOf_eq {key : Key} (hnodup : keys.Nodup) (hkey : key ∈ keys) :
    writesOf writes keys (· = key) = writes key := by
  induction keys with
  | nil => simp at hkey
  | cons first keys ih =>
      obtain ⟨hfirst, hrest⟩ := List.nodup_cons.mp hnodup
      by_cases hsame : first = key
      · have hnone : writesOf writes keys (· = key) = [] := by
          refine List.eq_nil_iff_forall_not_mem.mpr fun write hwrite => ?_
          obtain ⟨other, hother, rfl, -⟩ := mem_writesOf.mp hwrite
          exact hfirst (hsame ▸ hother)
        refine (writesOf_cons_of_mem ?_).trans ?_
        · exact hsame
        · rw [hnone, List.append_nil, hsame]
      · refine (writesOf_cons_of_not_mem ?_).trans ?_
        · exact hsame
        · exact ih hrest ((List.mem_cons.mp hkey).resolve_left (Ne.symm hsame))

private theorem afterAll?_members_first
    (hkeep : ∀ key ∈ keys, ∀ write ∈ writes key, write.KeepsSorted)
    (hpairs : keys.Pairwise fun earlier later =>
      ¬ member earlier → member later → Separate (writes earlier) (writes later))
    (hsorted : Sorted document) (within : Key → Prop) :
    afterAll? (writesOf writes keys within) document =
      (afterAll? (writesOf writes keys fun key => within key ∧ member key) document).bind
        (afterAll? (writesOf writes keys fun key => within key ∧ ¬ member key)) := by
  induction keys generalizing document with
  | nil => rfl
  | cons key keys ih =>
      rw [List.forall_mem_cons] at hkeep
      obtain ⟨hfirst, hrest⟩ := List.pairwise_cons.mp hpairs
      by_cases hwithin : within key
      · have hstep : ∀ next, afterAll? (writes key) document = some next →
            afterAll? (writesOf writes keys within) next =
              (afterAll? (writesOf writes keys fun key => within key ∧ member key) next).bind
                (afterAll? (writesOf writes keys fun key => within key ∧ ¬ member key)) :=
          fun next hnext => ih hkeep.2 hrest (sorted_afterAll? hkeep.1 hnext hsorted)
        by_cases hmember : member key
        · rw [writesOf_cons_of_mem hwithin, writesOf_cons_of_mem ⟨hwithin, hmember⟩,
            writesOf_cons_of_not_mem (fun h => h.2 hmember), afterAll?_append, afterAll?_append]
          cases hnext : afterAll? (writes key) document with
          | none => rfl
          | some next => exact hstep next hnext
        · have hseparate : Separate (writes key)
              (writesOf writes keys fun key => within key ∧ member key) := by
            intro write hwrite later hlater
            obtain ⟨name, hname, ⟨-, hlaterMember⟩, hlater⟩ := mem_writesOf.mp hlater
            exact hfirst name hname hmember hlaterMember write hwrite later hlater
          have hmembersKeep : ∀ write ∈ writesOf writes keys fun key => within key ∧ member key,
              write.KeepsSorted := by
            intro write hwrite
            obtain ⟨name, hname, -, hwrite⟩ := mem_writesOf.mp hwrite
            exact hkeep.2 name hname write hwrite
          rw [writesOf_cons_of_mem hwithin, writesOf_cons_of_not_mem (fun h => hmember h.2),
            writesOf_cons_of_mem ⟨hwithin, hmember⟩, ← afterAll?_append, ← List.append_assoc,
            afterAll?_append _ (writesOf writes keys fun key => within key ∧ ¬ member key),
            ← afterAll?_comm hseparate hkeep.1 hmembersKeep hsorted, afterAll?_append,
            afterAll?_append]
          cases hnext : afterAll? (writes key) document with
          | none => rfl
          | some next => exact hstep next hnext
      · rw [writesOf_cons_of_not_mem hwithin, writesOf_cons_of_not_mem (fun h => hwithin h.1),
          writesOf_cons_of_not_mem (fun h => hwithin h.1)]
        exact ih hkeep.2 hrest hsorted

end

/-! ## Orders of writes -/

/-- The keys of an order, arranged, with writes that are unrelated where no path of links leads from
one key to the other. -/
structure Writing {V : Type} (order : Order V) (keys : List Key)
    (writes : Key → List FieldWrite) : Prop where
  settled : SettledKeys order keys.reverse
  sorted : ∀ key ∈ keys, ∀ write ∈ writes key, write.KeepsSorted
  separate : ∀ a ∈ keys, ∀ b ∈ keys, ¬ order.LeadsTo a b → ¬ order.LeadsTo b a →
    Separate (writes a) (writes b)

namespace Writing

variable {V : Type} {order : Order V} {keys : List Key} {writes : Key → List FieldWrite}
  {member other : Key → Prop} {document : Json}

theorem nodup (h : Writing order keys writes) : keys.Nodup := by
  refine (List.pairwise_reverse.mp h.settled.pairwise).imp ?_
  rintro earlier later hpath rfl
  exact hpath .refl

theorem writesOf_sorted (h : Writing order keys writes) (member : Key → Prop) :
    ∀ write ∈ writesOf writes keys member, write.KeepsSorted := by
  intro write hwrite
  obtain ⟨key, hkey, -, hwrite⟩ := mem_writesOf.mp hwrite
  exact h.sorted key hkey write hwrite

theorem closed_first (h : Writing order keys writes) {within : Key → Prop}
    (hclosed : order.Closed member) (common rest : Key → Prop)
    (hcommon : ∀ key, common key ↔ within key ∧ member key)
    (hrest : ∀ key, rest key ↔ within key ∧ ¬ member key) (hsorted : Sorted document) :
    afterAll? (writesOf writes keys within) document =
      (afterAll? (writesOf writes keys common) document).bind
        (afterAll? (writesOf writes keys rest)) := by
  rw [writesOf_congr fun key _ => hcommon key, writesOf_congr fun key _ => hrest key]
  refine afterAll?_members_first h.sorted ?_ hsorted within
  refine (List.pairwise_reverse.mp h.settled.pairwise).imp_of_mem ?_
  intro earlier later hearlier hlater hpath hnot hmember
  exact h.separate earlier hearlier later hlater
    (fun hleads => hnot (hclosed.of_leadsTo hleads hmember)) hpath

theorem exists_of_all (h : Writing order keys writes) (hclosed : order.Closed member)
    (hsorted : Sorted document) {result : Json}
    (hall : afterAll? (keys.flatMap writes) document = some result) :
    ∃ value, afterAll? (writesOf writes keys member) document = some value := by
  have hwhole : writesOf writes keys (fun _ => True) = keys.flatMap writes :=
    writesOf_all fun _ _ => trivial
  rw [← hwhole, h.closed_first hclosed member (fun key => ¬ member key) (by simp) (by simp)
    hsorted] at hall
  obtain ⟨value, hvalue, -⟩ := Option.bind_eq_some_iff.mp hall
  exact ⟨value, hvalue⟩

/-- Two closed sets of keys: their documents, merged, are the document of both, if the merge keeps
every field that only one side wrote. -/
theorem merge_closed (h : Writing order keys writes) (hmember : order.Closed member)
    (hother : order.Closed other) (hsorted : Sorted document) {left right both : Json}
    (hleft : afterAll? (writesOf writes keys member) document = some left)
    (hright : afterAll? (writesOf writes keys other) document = some right)
    (hboth : afterAll? (writesOf writes keys fun key => member key ∨ other key) document =
      some both)
    (hkeepLeft : ∀ key ∈ keys, member key → ¬ other key → ∀ write ∈ writes key,
      KeepsLeft left right write.parts)
    (hkeepRight : ∀ key ∈ keys, other key → ¬ member key → ∀ write ∈ writes key,
      KeepsRight left right write.parts) :
    merge left right = both := by
  obtain ⟨base, hbase⟩ : ∃ base,
      afterAll? (writesOf writes keys fun key => member key ∧ other key) document = some base := by
    rw [h.closed_first hother _ _ (fun _ => Iff.rfl) (fun _ => Iff.rfl) hsorted] at hleft
    obtain ⟨base, hbase, -⟩ := Option.bind_eq_some_iff.mp hleft
    exact ⟨base, hbase⟩
  have honlyLeft : afterAll? (writesOf writes keys fun key => member key ∧ ¬ other key) base =
      some left := by
    rw [← hleft, h.closed_first hother _ _ (fun _ => Iff.rfl) (fun _ => Iff.rfl) hsorted, hbase]
    rfl
  have honlyRight : afterAll? (writesOf writes keys fun key => other key ∧ ¬ member key) base =
      some right := by
    rw [← hright, h.closed_first hmember _ _ (fun _ => And.comm) (fun _ => Iff.rfl) hsorted, hbase]
    rfl
  have hbothLeft : afterAll? (writesOf writes keys fun key => other key ∧ ¬ member key) left =
      some both := by
    rw [← hboth, h.closed_first hmember member
      (fun key => other key ∧ ¬ member key) (by tauto) (by tauto) hsorted, hleft]
    rfl
  have hbothRight : afterAll? (writesOf writes keys fun key => member key ∧ ¬ other key) right =
      some both := by
    rw [← hboth, h.closed_first hother other
      (fun key => member key ∧ ¬ other key) (by tauto) (by tauto) hsorted, hright]
    rfl
  have hseparate : Separate (writesOf writes keys fun key => member key ∧ ¬ other key)
      (writesOf writes keys fun key => other key ∧ ¬ member key) := by
    intro write hwrite otherWrite hotherWrite
    obtain ⟨a, ha, ⟨haMember, haNot⟩, hwrite⟩ := mem_writesOf.mp hwrite
    obtain ⟨b, hb, ⟨hbMember, hbNot⟩, hotherWrite⟩ := mem_writesOf.mp hotherWrite
    exact h.separate a ha b hb (fun hpath => haNot (hother.of_leadsTo hpath hbMember))
      (fun hpath => hbNot (hmember.of_leadsTo hpath haMember)) write hwrite otherWrite hotherWrite
  refine merge_afterAll? hseparate (h.writesOf_sorted _) (h.writesOf_sorted _)
    (sorted_afterAll? (h.writesOf_sorted _) hbase hsorted) honlyLeft honlyRight hbothLeft
    hbothRight ?_ ?_
  · intro write hwrite
    obtain ⟨key, hkey, ⟨hkeyMember, hkeyNot⟩, hwrite⟩ := mem_writesOf.mp hwrite
    exact hkeepLeft key hkey hkeyMember hkeyNot write hwrite
  · intro write hwrite
    obtain ⟨key, hkey, ⟨hkeyMember, hkeyNot⟩, hwrite⟩ := mem_writesOf.mp hwrite
    exact hkeepRight key hkey hkeyMember hkeyNot write hwrite

end Writing

end Runbook
