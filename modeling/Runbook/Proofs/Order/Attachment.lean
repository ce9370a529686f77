import Runbook.Proofs.Order.Calls
import Runbook.Proofs.Order.Log

/-!
# Links that stay

The link that comes along with a key before or after another one is made once, with the key's node.
No token is given out for it, so it stays in force for the whole life of an order, whatever is edited
and taken back.
-/

namespace Runbook

/-! ## Keys with a link of their own -/

theorem Key.tie?_injective {first second : Key} {ends : Key × Key} (hfirst : first.tie? = some ends)
    (hsecond : second.tie? = some ends) : first = second := by
  have hends := hfirst.trans hsecond.symm
  cases first <;> cases second <;> simp only [tie?, Option.some.injEq, Prod.mk.injEq, reduceCtorEq]
    at hends hfirst hsecond
  · next base other => rw [hends.2]
  · next base other =>
    obtain ⟨rfl, hbase⟩ := hends
    have hsize := congrArg sizeOf hbase
    simp only [pre.sizeOf_spec, post.sizeOf_spec] at hsize
    omega
  · next base other =>
    obtain ⟨rfl, hother⟩ := hends
    have hsize := congrArg sizeOf hother
    simp only [pre.sizeOf_spec, post.sizeOf_spec] at hsize
    omega
  · next base other => rw [hends.1]

namespace Order

variable {V : Type}

/-! ## Links without tokens -/

def Log.attachments (log : Log V) : List LinkToken :=
  log.linked.filter fun link => .link link ∉ log.issued

/-- Whether the links without tokens are those that the keys come with, each once. -/
def Log.Tied (log : Log V) : Prop :=
  (log.attachments.map fun link => (link.source, link.target)).Perm (log.keys.filterMap Key.tie?)

section

variable {log : Log V} {order : Order V}

private theorem numbered_ends (first : Nat) (ends : List (Key × Key)) :
    (numbered first ends).map (fun link => (link.source, link.target)) = ends := by
  rw [numbered, List.map_map]
  exact List.zipIdx_map_fst first ends

theorem Accounts.tied_mention (h : Accounts log order) (htied : log.Tied) (key : Key) :
    (log.mention key).Tied := by
  have hnew : (numbered log.linked.length (key.ties log.keys)).filter
      (fun link => .link link ∉ log.issued) = numbered log.linked.length (key.ties log.keys) := by
    refine List.filter_eq_self.mpr fun link hlink => ?_
    have hid := List.mem_map_of_mem (f := LinkToken.id) hlink
    rw [numbered_ids] at hid
    exact decide_eq_true (h.link_not_issued (List.mem_range'_1.mp hid).1)
  have hattachments : (log.mention key).attachments =
      log.attachments ++ numbered log.linked.length (key.ties log.keys) := by
    rw [Log.attachments, Log.linked, List.filter_append]
    exact congrArg _ hnew
  have hties : (key.ties log.keys).Perm ((key.arrivals log.keys).filterMap Key.tie?) :=
    (List.reverse_perm _).filterMap _
  rw [Log.Tied, hattachments, List.map_append, numbered_ends, Log.keys_mention, Key.appendNew_chain,
    List.filterMap_append]
  exact htied.append hties

theorem Log.Tied.register (htied : log.Tied) (token : ItemToken) (value : V) :
    (log.register token value).Tied := by
  have hattachments : (log.register token value).attachments = log.attachments :=
    List.filter_congr fun link _ => by simp [issued]
  rw [Tied, hattachments]
  exact htied

theorem Accounts.tied_link (h : Accounts log order) (htied : log.Tied) {token : LinkToken}
    (hid : token.id = log.linked.length) : (log.link token).Tied := by
  have hattachments : (log.link token).attachments = log.attachments := by
    rw [Log.attachments, Log.linked, List.filter_append, List.filter_cons_of_neg (by simp [Log.issued]),
      List.filter_nil, List.append_nil]
    refine List.filter_congr fun link hlink => ?_
    have hdifferent : link ≠ token := by
      rintro rfl
      exact Nat.lt_irrefl _ (hid ▸ h.link_id_lt hlink)
    simp [Log.issued, hdifferent]
  rw [Log.Tied, hattachments]
  exact htied

theorem Accounts.attachment_unique (h : Accounts log order) (htied : log.Tied) {key : Key}
    (hkey : key ∈ order.keys) {source target : Key} (htie : key.tie? = some (source, target)) :
    ∃ link, log.attachments.filter (fun other => (other.source, other.target) = (source, target)) =
      [link] := by
  have hmem : (source, target) ∈ log.keys.filterMap Key.tie? :=
    List.mem_filterMap.mpr ⟨key, h.keys ▸ hkey, htie⟩
  have hnodup : (log.keys.filterMap Key.tie?).Nodup := by
    refine List.Nodup.filterMap (fun first second ends hfirst hsecond => ?_)
      (h.keys ▸ h.wellFormed.keys_nodup)
    exact Key.tie?_injective hfirst hsecond
  have hcount := List.count_eq_one_of_mem hnodup hmem
  rw [← htied.count_eq, List.count_eq_countP, List.countP_map, List.countP_eq_length_filter] at hcount
  obtain ⟨link, hlink⟩ := List.length_eq_one_iff.mp hcount
  refine ⟨link, hlink ▸ List.filter_congr fun other _ => ?_⟩
  simp [beq_eq_decide]

theorem Accounts.attachment_mem_bonds (h : Accounts log order) {link : LinkToken}
    (hlink : link ∈ log.attachments) : link ∈ order.bonds := by
  obtain ⟨hlinked, hnew⟩ := List.mem_filter.mp hlink
  rw [h.bonds]
  exact List.mem_filter.mpr
    ⟨hlinked, decide_eq_true fun hremoved => of_decide_eq_true hnew (h.removed hremoved)⟩

end

/-! ## Logs of edits -/

def Grows (before : Order V) (tokens : List Token) (after : Order V) : Prop :=
  ∀ {log}, Accounts log before → log.Tied →
    ∃ log', Accounts log' after ∧ log'.Tied ∧ log'.issued = log.issued ++ tokens ∧
      log'.removed = log.removed ∧ log.linked <+: log'.linked

section

variable {first second third : Order V} {earlier later : List Token}

theorem Grows.refl (order : Order V) : Grows order [] order :=
  fun h htied => ⟨_, h, htied, (List.append_nil _).symm, rfl, List.prefix_refl _⟩

theorem Grows.trans (hfirst : Grows first earlier second) (hsecond : Grows second later third) :
    Grows first (earlier ++ later) third := by
  intro log h htied
  obtain ⟨log', h', htied', hissued, hremoved, hlinked⟩ := hfirst h htied
  obtain ⟨log'', h'', htied'', hissued', hremoved', hlinked'⟩ := hsecond h' htied'
  refine ⟨log'', h'', htied'', ?_, hremoved'.trans hremoved, hlinked.trans hlinked'⟩
  rw [hissued', hissued, List.append_assoc]

private theorem composes_grows : Composes (Grows (V := V)) where
  refl := .refl
  trans := .trans
  fresh order log h htied :=
    ⟨log, h.freshKey, htied, (List.append_nil _).symm, rfl, List.prefix_refl _⟩
  ensure order key log h htied :=
    ⟨log.mention key, h.mention key, h.tied_mention htied key, (List.append_nil _).symm, rfl,
      List.prefix_append _ _⟩
  attach order key value log h htied :=
    ⟨_, h.attach key value, (h.tied_mention htied key).register _ value, rfl, rfl,
      List.prefix_append _ _⟩
  link order source target log h htied := by
    have hfirst := h.mention source
    have hsecond := hfirst.mention target
    have htied' := hfirst.tied_mention (h.tied_mention htied source) target
    refine ⟨_, h.connect source target, hsecond.tied_link htied' hsecond.nextLink, rfl, rfl, ?_⟩
    exact ((List.prefix_append _ _).trans (List.prefix_append _ _)).trans (List.prefix_append _ _)

end

/-! ## Logs of whole runs -/

def newBonds (before after : Order V) : List LinkToken :=
  after.bonds.filter (before.nextLink ≤ ·.id)

/-- The orders that edits and reads make of an empty one, with all tokens that were given out for
calls and all links that were made.  Edits take back only with such tokens. -/
inductive Traced [BEq V] : List Token → List LinkToken → Order V → Prop where
  | empty : Traced [] [] .empty
  | edit {given made order} (edit : Edit V) :
      (∀ token, edit = .unregister token → token ∈ given) → Traced given made order →
      Traced (given ++ edit.given order) (made ++ newBonds order (edit.run order).order)
        (edit.run order).order
  | read {given made order} : Traced given made order → Traced given made order.arrange.2

section

variable {log log' : Log V} {order after : Order V}

theorem Accounts.le_id_of_new (h : Accounts log order) (h' : Accounts log' after)
    {new : List LinkToken} (hlinked : log'.linked = log.linked ++ new) {link : LinkToken}
    (hlink : link ∈ new) : log.linked.length ≤ link.id := by
  have hids := h'.linkIds
  rw [hlinked, List.map_append, h.linkIds, List.length_append, List.range_add] at hids
  have hid := List.mem_map_of_mem (f := LinkToken.id) hlink
  rw [(List.append_inj hids rfl).2] at hid
  obtain ⟨index, -, hsame⟩ := List.mem_map.mp hid
  omega

theorem Accounts.newBonds_eq (h : Accounts log order) (h' : Accounts log' after)
    {new : List LinkToken} (hlinked : log'.linked = log.linked ++ new)
    (hkept : ∀ link ∈ new, .link link ∉ log'.removed) : newBonds order after = new := by
  have hold : (log.linked.filter fun link => .link link ∉ log'.removed).filter
      (order.nextLink ≤ ·.id) = [] := by
    refine List.filter_eq_nil_iff.mpr fun link hlink => ?_
    have := h.link_id_lt (List.mem_filter.mp hlink).1
    rw [h.nextLink]
    simpa using this
  have hnew : new.filter (fun link => .link link ∉ log'.removed) = new :=
    List.filter_eq_self.mpr fun link hlink => decide_eq_true (hkept link hlink)
  rw [newBonds, h'.bonds, Log.links, hlinked, List.filter_append, List.filter_append, hold, hnew,
    List.nil_append]
  refine List.filter_eq_self.mpr fun link hlink => decide_eq_true ?_
  rw [h.nextLink]
  exact h.le_id_of_new h' hlinked hlink

theorem Accounts.unregister (h : Accounts log order) (htied : log.Tied) {token : Token}
    (hissued : token ∈ log.issued) :
    ∃ log', Accounts log' (order.unregister token).2 ∧ log'.Tied ∧ log'.issued = log.issued ∧
      log'.linked = log.linked := by
  by_cases hremoved : token ∈ log.removed
  · rw [h.refused hremoved]
    exact ⟨log, h, htied, rfl, rfl⟩
  · exact ⟨log.remove token, (h.remove hissued hremoved).2, htied, rfl, rfl⟩

end

section

variable [BEq V] {given : List Token} {made : List LinkToken} {order : Order V}

theorem run_unregister (order : Order V) (token : Token) :
    ((Edit.unregister token).run order).tokens = [] ∧
      ((Edit.unregister token).run order).order = (order.unregister token).2 := by
  rw [Edit.run]
  cases order.unregister token with
  | mk outcome after => cases outcome <;> exact ⟨rfl, rfl⟩

theorem Traced.exists_log (h : Traced given made order) :
    ∃ log, Accounts log order ∧ log.Tied ∧ log.issued = given ∧ log.linked = made := by
  induction h with
  | empty => exact ⟨.nothing, .nothing, List.Perm.refl [], rfl, rfl⟩
  | @edit given made order edit hgiven _ ih =>
      obtain ⟨log, haccounts, htied, rfl, rfl⟩ := ih
      by_cases htakes : ∃ token, edit = .unregister token
      · obtain ⟨token, rfl⟩ := htakes
        obtain ⟨log', h', htied', hissued, hlinked⟩ :=
          haccounts.unregister htied (hgiven token rfl)
        obtain ⟨htokens, hafter⟩ := run_unregister order token
        have hgave : (Edit.unregister token).given order = [] := htokens
        have hnone := haccounts.newBonds_eq h' (hlinked.trans (List.append_nil _).symm) (by simp)
        refine ⟨log', hafter ▸ h', htied', ?_, ?_⟩
        · rw [hgave, hissued, List.append_nil]
        · rw [hafter, hnone, hlinked, List.append_nil]
      · obtain ⟨log', h', htied', hissued, hremoved, new, hlinked⟩ :=
          composes_grows.edit order (fun token htoken => htakes ⟨token, htoken⟩) haccounts htied
        have hnew := haccounts.newBonds_eq h' hlinked.symm fun link hlink hgone =>
          haccounts.link_not_issued (haccounts.le_id_of_new h' hlinked.symm hlink)
            (haccounts.removed (hremoved ▸ hgone))
        exact ⟨log', h', htied', hissued, hnew ▸ hlinked.symm⟩
  | read _ ih =>
      obtain ⟨log, haccounts, hrest⟩ := ih
      exact ⟨log, haccounts.arrange, hrest⟩

theorem Accounts.unregistered_all {log : Log V} (h : Accounts log order) (htied : log.Tied)
    {tokens : List Token} (htokens : tokens ⊆ log.issued) :
    ∃ log', Accounts log' (order.edited (tokens.map .unregister)) ∧ log'.issued = log.issued ∧
      log'.linked = log.linked := by
  induction tokens generalizing log order with
  | nil => exact ⟨log, h, rfl, rfl⟩
  | cons token tokens ih =>
      obtain ⟨hfirst, hrest⟩ := List.cons_subset.mp htokens
      obtain ⟨log', h', htied', hissued, hlinked⟩ := h.unregister htied hfirst
      rw [← (run_unregister order token).2] at h'
      obtain ⟨log'', h'', hissued', hlinked'⟩ := ih h' htied' (hissued ▸ hrest)
      exact ⟨log'', h'', hissued'.trans hissued, hlinked'.trans hlinked⟩

/-- A key before or after another one comes with that key and with one link between the two.  This
link is the only one between them that was ever made without a token; no tokens can take it back, so
every linear reading lists the two in its direction. -/
theorem Traced.keeps_ties (h : Traced given made order) {key : Key} (hkey : key ∈ order.keys)
    {source target : Key} (htie : key.tie? = some (source, target)) :
    source ∈ order.keys ∧ target ∈ order.keys ∧
    order.ListsBefore source target ∧
    ∃ link : LinkToken,
      made.filter (fun other => (other.source, other.target) = (source, target) ∧
        .link other ∉ given) = [link] ∧
      ∀ tokens ⊆ given, (order.edited (tokens.map .unregister)).InForce (.link link) := by
  obtain ⟨log, haccounts, htied, rfl, rfl⟩ := h.exists_log
  obtain ⟨link, honce⟩ := haccounts.attachment_unique htied hkey htie
  have hmem : link ∈ log.attachments.filter
      (fun other => (other.source, other.target) = (source, target)) := honce ▸ List.mem_singleton_self _
  obtain ⟨hattachment, hends⟩ := List.mem_filter.mp hmem
  obtain ⟨rfl, rfl⟩ := Prod.mk.inj (of_decide_eq_true hends)
  obtain ⟨inner, hinner, -, hsource, htarget⟩ :=
    mem_bonds.mp (haccounts.attachment_mem_bonds hattachment)
  have hwell := haccounts.wellFormed
  refine ⟨mem_keys_of_keyAt? hsource, mem_keys_of_keyAt? htarget, ?_, link, ?_, ?_⟩
  · refine hwell.listsBefore (.single (hwell.mem_dependencies.mpr ?_))
    exact ⟨_, _, hsource, htarget, inner, hinner, rfl, rfl⟩
  · rw [← honce, Log.attachments, List.filter_filter]
    exact List.filter_congr fun other _ => by simp
  · intro tokens htokens
    obtain ⟨log', h', hissued, hlinked⟩ := haccounts.unregistered_all htied htokens
    refine mem_bonds.mp (h'.attachment_mem_bonds ?_)
    rw [Log.attachments, hissued, hlinked]
    exact hattachment

end

theorem ties_kept_beside_links :
    ∃ (given : List Token) (made : List LinkToken) (order : Order Nat), Traced given made order ∧
      made.length = 4 ∧
      order.ListsBefore (.pre (.post (.constant "a"))) (.post (.constant "a")) ∧
      ∀ tokens ⊆ given, (order.edited (tokens.map .unregister)).InForce
        (.link ⟨1, .pre (.post (.constant "a")), .post (.constant "a")⟩) := by
  have htraced := (Traced.empty (V := Nat))
    |>.edit (.register (.pre (.post (.text "a"))) 1) nofun
    |>.edit (.link (.text "pre:post:a") (.text "post:a")) nofun
    |>.edit (.item (.text "b") [(.before, .text "a"), (.after, .text " ")] 2) nofun
    |>.read
    |>.edit (.unregister (.link ⟨2, .pre (.post (.constant "a")), .post (.constant "a")⟩))
      (by rintro token ⟨⟩; decide +kernel)
  obtain ⟨-, -, hlists, link, honce, hkept⟩ :=
    htraced.keeps_ties (by decide +kernel : Key.pre (.post (.constant "a")) ∈ _) rfl
  obtain rfl : ⟨1, .pre (.post (.constant "a")), .post (.constant "a")⟩ = link :=
    List.singleton_inj.mp ((by decide +kernel : _ = _).trans honce)
  exact ⟨_, _, _, htraced, by decide +kernel, hlists, hkept⟩

end Order

end Runbook
