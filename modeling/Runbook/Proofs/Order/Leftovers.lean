import Runbook.Proofs.Order.Folding
import Runbook.Proofs.Order.Ledger

/-!
# Leftovers

An order that has become larger by nodes without values, and by the links made along with them, reads
as before.  What an old node additionally waits for are new nodes that stand before others; these lead
to more such nodes only, and never round, so the placement works them off without touching the rest.
-/

namespace Runbook

def Key.depth : Key → Nat
  | .unique _ | .constant _ => 0
  | .pre base | .post base => base.depth + 1

namespace Order

open Relation

variable {V : Type} {order padded : Order V}

def depthAt (order : Order V) (place : Nat) : Nat := ((order.keyAt? place).map Key.depth).getD 0

def Leading (order padded : Order V) (place : Nat) : Prop :=
  order.nodeCount ≤ place ∧ ∃ base, padded.keyAt? place = some (.pre base)

def Trailing (order padded : Order V) (place : Nat) : Prop :=
  order.nodeCount ≤ place ∧ ∃ base, padded.keyAt? place = some (.post base)

/-! ## Links of leftovers -/

theorem Ledger.itemsAt_eq (h : Ledger order [] padded) (place : Nat) :
    padded.itemsAt place = order.itemsAt place := by
  simpa [itemIds] using h.items place

theorem Ledger.links_eq (h : Ledger order [] padded) :
    ∃ automatic, padded.links.toList = order.links.toList ++ automatic ∧
      ∀ link ∈ automatic, Automatic order padded link := by
  simpa [linkIds] using h.links

theorem Automatic.cases {link : Link} (h : Automatic order padded link) :
    (order.Leading padded link.source ∧
      padded.depthAt link.source = padded.depthAt link.target + 1) ∨
    (order.Trailing padded link.target ∧
      padded.depthAt link.target = padded.depthAt link.source + 1) := by
  rcases h with ⟨base, hsource, htarget, hnew⟩ | ⟨base, hsource, htarget, hnew⟩
  · exact .inl ⟨⟨hnew, base, hsource⟩, by simp [depthAt, hsource, htarget, Key.depth]⟩
  · exact .inr ⟨⟨hnew, base, htarget⟩, by simp [depthAt, hsource, htarget, Key.depth]⟩

theorem Ledger.linked_cases (h : Ledger order [] padded) {source target : Nat}
    (hlinked : padded.Linked source target) :
    order.Linked source target ∨
    (order.Leading padded source ∧ padded.depthAt source = padded.depthAt target + 1) ∨
    (order.Trailing padded target ∧ padded.depthAt target = padded.depthAt source + 1) := by
  obtain ⟨automatic, hlinks, hautomatic⟩ := h.links_eq
  obtain ⟨link, hlink, rfl, rfl⟩ := hlinked
  rw [← Array.mem_toList_iff, hlinks, List.mem_append] at hlink
  rcases hlink with hold | hnew
  · exact .inl ⟨link, Array.mem_toList_iff.mp hold, rfl, rfl⟩
  · exact .inr (hautomatic link hnew).cases

theorem Leading.not_trailing {place : Nat} (h : order.Leading padded place) :
    ¬ order.Trailing padded place := by
  rintro ⟨-, base, hpost⟩
  obtain ⟨-, other, hpre⟩ := h
  rw [hpre] at hpost
  cases hpost

theorem Ledger.leading_source (h : Ledger order [] padded) (hwell : order.WellFormed)
    {source target : Nat} (htarget : order.Leading padded target)
    (hlinked : padded.Linked source target) :
    order.Leading padded source ∧ padded.depthAt target < padded.depthAt source := by
  rcases h.linked_cases hlinked with hold | ⟨hsource, hdepth⟩ | ⟨htrailing, -⟩
  · have := (hwell.linked_lt hold).2
    have := htarget.1
    omega
  · exact ⟨hsource, by omega⟩
  · exact absurd htrailing htarget.not_trailing

theorem Ledger.trailing_target (h : Ledger order [] padded) (hwell : order.WellFormed)
    {source target : Nat} (hsource : order.Trailing padded source)
    (hlinked : padded.Linked source target) :
    order.Trailing padded target ∧ padded.depthAt source < padded.depthAt target := by
  rcases h.linked_cases hlinked with hold | ⟨hleading, -⟩ | ⟨htarget, hdepth⟩
  · have := (hwell.linked_lt hold).1
    have := hsource.1
    omega
  · exact absurd hsource hleading.not_trailing
  · exact ⟨htarget, by omega⟩

theorem WellFormed.precedes_lt (hwell : order.WellFormed) {source target : Nat}
    (hpath : order.Precedes source target) :
    source < order.nodeCount ∧ target < order.nodeCount := by
  constructor
  · obtain ⟨next, hfirst, -⟩ := TransGen.head'_iff.mp hpath
    exact (hwell.linked_lt hfirst).1
  · obtain ⟨last, -, hlast⟩ := TransGen.tail'_iff.mp hpath
    exact (hwell.linked_lt hlast).2

theorem Ledger.precedes_cases (h : Ledger order [] padded) (hwell : order.WellFormed)
    {source target : Nat} (hpath : padded.Precedes source target) :
    order.Precedes source target ∨
    (order.Leading padded source ∧
      (order.Leading padded target → padded.depthAt target < padded.depthAt source)) ∨
    (order.Trailing padded target ∧
      (order.Trailing padded source → padded.depthAt source < padded.depthAt target)) := by
  induction hpath with
  | single hlinked =>
      rcases h.linked_cases hlinked with hold | ⟨hleading, hdepth⟩ | ⟨htrailing, hdepth⟩
      · exact .inl (.single hold)
      · exact .inr (.inl ⟨hleading, fun _ => by omega⟩)
      · exact .inr (.inr ⟨htrailing, fun _ => by omega⟩)
  | @tail middle target _ hlinked ih =>
      rcases ih with hold | ⟨hleading, hdepth⟩ | ⟨htrailing, hdepth⟩
      · obtain ⟨hsource, hmiddle⟩ := hwell.precedes_lt hold
        rcases h.linked_cases hlinked with hlast | ⟨⟨hnew, -⟩, -⟩ | ⟨htrailing, -⟩
        · exact .inl (.tail hold hlast)
        · omega
        · exact .inr (.inr ⟨htrailing, fun ⟨hnew, _⟩ => by omega⟩)
      · refine .inr (.inl ⟨hleading, fun htarget => ?_⟩)
        obtain ⟨hmiddle, hlast⟩ := h.leading_source hwell htarget hlinked
        exact hlast.trans (hdepth hmiddle)
      · obtain ⟨htarget, hlast⟩ := h.trailing_target hwell htrailing hlinked
        exact .inr (.inr ⟨htarget, fun hsource => (hdepth hsource).trans hlast⟩)

theorem Ledger.acyclic (h : Ledger order [] padded) (hwell : order.WellFormed)
    (hacyclic : order.Acyclic) : padded.Acyclic := by
  intro place hcycle
  rcases h.precedes_cases hwell hcycle with hold | ⟨hleading, hdepth⟩ | ⟨htrailing, hdepth⟩
  · exact hacyclic place hold
  · exact Nat.lt_irrefl _ (hdepth hleading)
  · exact Nat.lt_irrefl _ (hdepth htrailing)

/-! ## Dependencies of old nodes -/

theorem Ledger.dependenciesAt_eq (h : Ledger order [] padded) {place : Nat}
    (hplace : place < order.nodeCount) :
    ∃ extra, padded.dependenciesAt place = order.dependenciesAt place ++ extra ∧
      ∀ source ∈ extra, order.Leading padded source := by
  obtain ⟨automatic, hlinks, hautomatic⟩ := h.links_eq
  obtain ⟨extra, hextra, hsubset⟩ := appendNew_eq
    ((automatic.filter (·.target = place)).map (·.source)) (order.dependenciesAt place)
  refine ⟨extra, ?_, fun source hsource => ?_⟩
  · rw [← hextra, dependenciesAt, hlinks, List.filter_append, List.map_append, dependenciesAt]
    exact List.foldl_append
  · obtain ⟨link, hlink, rfl⟩ := List.mem_map.mp (hsubset hsource)
    obtain ⟨hlink, htarget⟩ := List.mem_filter.mp hlink
    rcases (hautomatic link hlink).cases with ⟨hleading, -⟩ | ⟨⟨hnew, -⟩, -⟩
    · exact hleading
    · have : link.target = place := by simpa using htarget
      omega

/-! ## Placement with leftovers -/

/-- The stacks of two placements, of which the first also works off leftovers: its open nodes are
those of the other one, which may wait for leftovers too, and on top of them leftovers, each deeper
than those below. -/
inductive Shadows (order padded : Order V) : List Frame → List Frame → Prop where
  | nil : Shadows order padded [] []
  | known {place waiting pending extra stack' stack} :
      place < order.nodeCount →
      waiting = pending ++ extra →
      (∀ source ∈ pending, source < order.nodeCount) →
      (∀ source ∈ extra, order.Leading padded source) →
      (∀ frame ∈ stack', frame.place < order.nodeCount) →
      Shadows order padded stack' stack →
      Shadows order padded (⟨place, waiting⟩ :: stack') (⟨place, pending⟩ :: stack)
  | leading {place pending stack' stack} :
      order.Leading padded place →
      (∀ source ∈ pending, padded.Linked source place) →
      (∀ frame ∈ stack', order.nodeCount ≤ frame.place →
        padded.depthAt frame.place < padded.depthAt place) →
      Shadows order padded stack' stack →
      Shadows order padded (⟨place, pending⟩ :: stack') stack

inductive Agree (count : Nat) :
    Except (List Nat) (List Nat) → Except (List Nat) (List Nat) → Prop where
  | ok (placed : List Nat) : Agree count (.ok placed) (.ok (placed.filter (· < count)))
  | loop {places : List Nat} :
      (∀ place ∈ places, place < count) → Agree count (.error places) (.error places)

theorem Shadows.places_eq {stack' stack : List Frame} (h : Shadows order padded stack' stack)
    (hknown : ∀ frame ∈ stack', frame.place < order.nodeCount) :
    stack'.map (·.place) = stack.map (·.place) := by
  induction h with
  | nil => rfl
  | known _ _ _ _ hrest _ ih => simp [ih hrest]
  | leading hleading _ _ _ _ =>
      exact absurd (List.forall_mem_cons.mp hknown).1 (Nat.not_lt.mpr hleading.1)

private theorem openBackTo_congr {place : Nat} {stack' stack : List Frame}
    (h : stack'.map (·.place) = stack.map (·.place)) :
    openBackTo place stack' = openBackTo place stack := by
  induction stack' generalizing stack with
  | nil =>
      rw [List.map_nil, eq_comm, List.map_eq_nil_iff] at h
      rw [h]
  | cons frame' stack' ih =>
      cases stack with
      | nil => simp at h
      | cons frame stack =>
          obtain ⟨hframe, hrest⟩ := List.cons.inj h
          simp only at hframe
          rw [openBackTo, openBackTo, hframe, ih hrest]

theorem mem_places_congr {place : Nat} {stack' stack : List Frame}
    (h : stack'.map (·.place) = stack.map (·.place)) :
    (∃ frame ∈ stack', frame.place = place) ↔ ∃ frame ∈ stack, frame.place = place := by
  rw [← List.mem_map, h, List.mem_map]

private theorem mem_openBackTo {place other : Nat} {stack : List Frame}
    (h : other ∈ openBackTo place stack) : ∃ frame ∈ stack, frame.place = other := by
  induction stack with
  | nil => simp [openBackTo] at h
  | cons frame stack ih =>
      rw [openBackTo] at h
      split at h
      · exact ⟨frame, List.mem_cons_self, (List.mem_singleton.mp h).symm⟩
      · rcases List.mem_cons.mp h with rfl | hrest
        · exact ⟨frame, List.mem_cons_self, rfl⟩
        · obtain ⟨inner, hinner, hplace⟩ := ih hrest
          exact ⟨inner, List.mem_cons_of_mem _ hinner, hplace⟩

theorem mem_filter_lt {place count : Nat} {placed : List Nat} (hlt : place < count) :
    place ∈ placed.filter (· < count) ↔ place ∈ placed := by
  simp [hlt]

/-- What the innermost node looks at next is a leftover, deeper than all that are open, or else the
other placement looks at it too. -/
theorem Shadows.next (hwell : order.WellFormed) (h : Ledger order [] padded) {place next : Nat}
    {waiting : List Nat} {stack' stack : List Frame}
    (hshadows : Shadows order padded (⟨place, next :: waiting⟩ :: stack') stack) :
    (order.Leading padded next ∧
      (∀ frame ∈ (⟨place, waiting⟩ :: stack' : List Frame), order.nodeCount ≤ frame.place →
        padded.depthAt frame.place < padded.depthAt next) ∧
      Shadows order padded (⟨place, waiting⟩ :: stack') stack) ∨
    (∃ pending rest, stack = ⟨place, next :: pending⟩ :: rest ∧ next < order.nodeCount ∧
      (∀ frame ∈ (⟨place, waiting⟩ :: stack' : List Frame), frame.place < order.nodeCount) ∧
      Shadows order padded (⟨place, waiting⟩ :: stack') (⟨place, pending⟩ :: rest)) := by
  cases hshadows with
  | leading hplace hpending hdeeper hrest =>
      obtain ⟨hnext, hwaiting⟩ := List.forall_mem_cons.mp hpending
      obtain ⟨hleading, hdepth⟩ := h.leading_source hwell hplace hnext
      refine .inl ⟨hleading, List.forall_mem_cons.mpr ⟨fun _ => hdepth, fun frame hframe hnew => ?_⟩,
        .leading hplace hwaiting hdeeper hrest⟩
      exact (hdeeper frame hframe hnew).trans hdepth
  | @known _ _ pending extra _ rest hplace hwaiting hpending hextra hknown hrest =>
      cases pending with
      | nil =>
          rw [List.nil_append] at hwaiting
          subst hwaiting
          obtain ⟨hleading, hextra⟩ := List.forall_mem_cons.mp hextra
          refine .inl ⟨hleading, fun frame hframe hnew => ?_,
            .known hplace rfl hpending hextra hknown hrest⟩
          rcases List.mem_cons.mp hframe with rfl | hframe
          · exact absurd hplace (Nat.not_lt.mpr hnew)
          · exact absurd (hknown frame hframe) (Nat.not_lt.mpr hnew)
      | cons first pending =>
          rw [List.cons_append] at hwaiting
          obtain ⟨rfl, rfl⟩ := List.cons.inj hwaiting
          obtain ⟨hnext, hpending⟩ := List.forall_mem_cons.mp hpending
          exact .inr ⟨pending, rest, rfl, hnext, List.forall_mem_cons.mpr ⟨hplace, hknown⟩,
            .known hplace rfl hpending hextra hknown hrest⟩

/-- A placement with leftovers does what the one without them does, and works off leftovers between
its moves. -/
theorem Places.shadow (hwell : order.WellFormed) (h : Ledger order [] padded)
    {stack' : List Frame} {placed' : List Nat} {outcome' : Except (List Nat) (List Nat)}
    (hrun : Places padded stack' placed' outcome') {stack : List Frame}
    (hshadows : Shadows order padded stack' stack) :
    ∃ outcome, Places order stack (placed'.filter (· < order.nodeCount)) outcome ∧
      Agree order.nodeCount outcome' outcome := by
  -- A move at a leftover is none of the other run; every other move is matched by the same one.
  induction hrun generalizing stack with
  | done placed =>
      cases hshadows
      exact ⟨_, .done _, .ok placed⟩
  | @close place stack' placed' outcome' _ ih =>
      cases hshadows with
      | leading hleading _ _ hrest =>
          obtain ⟨outcome, hrun, hagree⟩ := ih hrest
          rw [List.filter_cons_of_neg (by simpa using hleading.1)] at hrun
          exact ⟨outcome, hrun, hagree⟩
      | known hplace hwaiting _ _ _ hrest =>
          obtain ⟨rfl, -⟩ := List.append_eq_nil_iff.mp hwaiting.symm
          obtain ⟨outcome, hrun, hagree⟩ := ih hrest
          rw [List.filter_cons_of_pos (by simpa using hplace)] at hrun
          exact ⟨outcome, .close hrun, hagree⟩
  | @skip place next waiting stack' placed' outcome' hplaced _ ih =>
      rcases hshadows.next hwell h with ⟨-, -, hrest⟩ | ⟨pending, rest, rfl, hnext, -, hrest⟩
      · exact ih hrest
      · obtain ⟨outcome, hrun, hagree⟩ := ih hrest
        exact ⟨outcome, .skip ((mem_filter_lt hnext).mpr hplaced) hrun, hagree⟩
  | @loop place next waiting stack' placed' hnew hloop =>
      have hframe : ∃ frame ∈ (⟨place, waiting⟩ :: stack' : List Frame), frame.place = next := by
        simpa using hloop
      rcases hshadows.next hwell h with
        ⟨hleading, hdepth, -⟩ | ⟨pending, rest, rfl, hnext, hknown, hrest⟩
      · obtain ⟨frame, hmem, rfl⟩ := hframe
        exact absurd (hdepth frame hmem hleading.1) (Nat.lt_irrefl _)
      · have hplaces := hrest.places_eq hknown
        refine ⟨_, .loop (fun hmem => hnew ((mem_filter_lt hnext).mp hmem)) ?_, ?_⟩
        · simpa using (mem_places_congr hplaces).mp hframe
        · rw [← openBackTo_congr hplaces]
          refine .loop fun other hother => ?_
          obtain ⟨frame, hmem, rfl⟩ := mem_openBackTo hother
          exact hknown frame hmem
  | @enter place next waiting stack' placed' outcome' hnew hself hstack _ ih =>
      rcases hshadows.next hwell h with
        ⟨hleading, hdepth, hrest⟩ | ⟨pending, rest, rfl, hnext, hknown, hrest⟩
      · exact ih (.leading hleading (fun source => mem_dependenciesAt.mp) hdepth hrest)
      · obtain ⟨extra, hextra, hleading⟩ := h.dependenciesAt_eq hnext
        obtain ⟨outcome, hrun, hagree⟩ := ih (.known hnext hextra
          (fun source hsource => hwell.dependency_lt hsource) hleading hknown hrest)
        have hclosed : ∀ frame ∈ rest, frame.place ≠ next := by
          intro frame hframe hsame
          obtain ⟨other, hother, hplace⟩ := (mem_places_congr (hrest.places_eq hknown)).mpr
            ⟨frame, List.mem_cons_of_mem _ hframe, hsame⟩
          rcases List.mem_cons.mp hother with rfl | hother
          · exact hself hplace
          · exact hstack other hother hplace
        have hunseen := fun hmem => hnew ((mem_filter_lt hnext).mp hmem)
        exact ⟨outcome, .enter hunseen hself hclosed hrun, hagree⟩

/-! ## Linear readings -/

theorem Places.suffix {stack : List Frame} {placed result : List Nat}
    (h : Places order stack placed (.ok result)) : placed <:+ result := by
  generalize houtcome : Except.ok result = outcome at h
  induction h with
  | done placed => cases houtcome; exact List.suffix_refl _
  | close _ ih => exact (List.suffix_cons _ _).trans (ih houtcome)
  | skip _ _ ih => exact ih houtcome
  | loop _ _ => cases houtcome
  | enter _ _ _ _ ih => exact ih houtcome

theorem PlacesAll.suffix {roots placed result : List Nat}
    (h : PlacesAll order roots placed (.ok result)) : placed <:+ result := by
  generalize houtcome : Except.ok result = outcome at h
  induction h with
  | done placed => cases houtcome; exact List.suffix_refl _
  | known _ _ ih => exact ih houtcome
  | found _ hrun _ ih => exact hrun.suffix.trans (ih houtcome)
  | loop _ _ => cases houtcome

theorem PlacesAll.shadow (hwell : order.WellFormed) (h : Ledger order [] padded)
    {roots placed' : List Nat} {outcome' : Except (List Nat) (List Nat)}
    (hrun : PlacesAll padded roots placed' outcome')
    (hroots : ∀ root ∈ roots, root < order.nodeCount) :
    ∃ outcome, PlacesAll order roots (placed'.filter (· < order.nodeCount)) outcome ∧
      Agree order.nodeCount outcome' outcome := by
  have hroot : ∀ {root : Nat}, root < order.nodeCount →
      Shadows order padded [⟨root, padded.dependenciesAt root⟩]
        [⟨root, order.dependenciesAt root⟩] := by
    intro root hroot
    obtain ⟨extra, hextra, hleading⟩ := h.dependenciesAt_eq hroot
    exact .known hroot hextra (fun source hsource => hwell.dependency_lt hsource) hleading
      (by simp) .nil
  induction hrun with
  | done placed => exact ⟨_, .done _, .ok placed⟩
  | known hplaced _ ih =>
      obtain ⟨hlt, hroots⟩ := List.forall_mem_cons.mp hroots
      obtain ⟨outcome, hrest, hagree⟩ := ih hroots
      exact ⟨outcome, .known ((mem_filter_lt hlt).mpr hplaced) hrest, hagree⟩
  | found hnew hfirst _ ih =>
      obtain ⟨hlt, hroots⟩ := List.forall_mem_cons.mp hroots
      obtain ⟨_, hfirst', ⟨result⟩⟩ := hfirst.shadow hwell h (hroot hlt)
      obtain ⟨outcome, hrest, hagree⟩ := ih hroots
      exact ⟨outcome, .found (fun hmem => hnew ((mem_filter_lt hlt).mp hmem)) hfirst' hrest, hagree⟩
  | loop hnew hfirst =>
      obtain ⟨hlt, -⟩ := List.forall_mem_cons.mp hroots
      obtain ⟨_, hfirst', hagree⟩ := hfirst.shadow hwell h (hroot hlt)
      cases hagree with
      | loop hknown =>
          exact ⟨_, .loop (fun hmem => hnew ((mem_filter_lt hlt).mp hmem)) hfirst', .loop hknown⟩

theorem PlacesAll.split {first second placed : List Nat} {outcome : Except (List Nat) (List Nat)}
    (h : PlacesAll order (first ++ second) placed outcome) :
    (∃ result, PlacesAll order first placed (.ok result) ∧ PlacesAll order second result outcome) ∨
    (∃ places, PlacesAll order first placed (.error places) ∧ outcome = .error places) := by
  induction first generalizing placed with
  | nil => exact .inl ⟨placed, .done placed, h⟩
  | cons root first ih =>
      cases h with
      | known hplaced hrest =>
          rcases ih hrest with ⟨result, hfirst, hsecond⟩ | ⟨places, hfirst, houtcome⟩
          · exact .inl ⟨result, .known hplaced hfirst, hsecond⟩
          · exact .inr ⟨places, .known hplaced hfirst, houtcome⟩
      | found hnew hrun hrest =>
          rcases ih hrest with ⟨result, hfirst, hsecond⟩ | ⟨places, hfirst, houtcome⟩
          · exact .inl ⟨result, .found hnew hrun hfirst, hsecond⟩
          · exact .inr ⟨places, .found hnew hrun hfirst, houtcome⟩
      | loop hnew hrun => exact .inr ⟨_, .loop hnew hrun, rfl⟩

theorem PlacesAll.filter_eq (hwell : order.WellFormed) {roots placed result : List Nat}
    {count : Nat} (h : PlacesAll order roots placed (.ok result))
    (hroots : ∀ root ∈ roots, root < order.nodeCount) (hsettled : Settled order placed)
    (hplaced : List.range count ⊆ placed) :
    placed.filter (· < count) = result.filter (· < count) := by
  -- The first places are finished, so what the run adds to them are later ones.
  obtain ⟨later, rfl⟩ := h.suffix
  obtain ⟨hresult, -⟩ := h.placed hwell hroots hsettled
  have hlater : later.filter (· < count) = [] := by
    refine List.filter_eq_nil_iff.mpr fun place hplace hlt => ?_
    have hmem : place ∈ placed := hplaced (List.mem_range.mpr (by simpa using hlt))
    exact List.disjoint_of_nodup_append hresult.nodup hplace hmem
  rw [List.filter_append, hlater, List.nil_append]

theorem Ledger.linearize_agree (h : Ledger order [] padded) (hwell : order.WellFormed)
    (hpadded : padded.WellFormed) :
    ∃ outcome' outcome, padded.linearize = padded.answer outcome' ∧
      order.linearize = order.answer outcome ∧ Agree order.nodeCount outcome' outcome := by
  obtain ⟨outcome', hrun, hanswer⟩ := (hpadded.linearizes_iff _).mpr rfl
  obtain ⟨added, hadded⟩ := Nat.exists_eq_add_of_le h.nodeCount_le
  rw [hadded, List.range_add] at hrun
  rcases hrun.split with ⟨middle, hold, hnew⟩ | ⟨places, hold, rfl⟩
  · obtain ⟨_, hshadow, ⟨_⟩⟩ := hold.shadow hwell h fun root => List.mem_range.mp
    have hlinearize := (hwell.linearizes_iff _).mp ⟨_, hshadow, rfl⟩
    have hacyclic := h.acyclic hwell (hwell.linearize_ok_iff.mp ⟨_, hlinearize.symm⟩)
    obtain ⟨places, hplaces⟩ := hpadded.linearize_ok_iff.mpr hacyclic
    cases outcome' with
    | error loop => rw [hplaces] at hanswer; cases hanswer
    | ok result =>
        refine ⟨_, _, hanswer, hlinearize.symm, ?_⟩
        obtain ⟨hsettled, -, hall⟩ := hold.placed hpadded
          (fun root hroot => (List.mem_range.mp hroot).trans_le h.nodeCount_le) .nil
        have hsame : middle.filter (· < order.nodeCount) = result.filter (· < order.nodeCount) := by
          refine hnew.filter_eq hpadded (fun root hroot => ?_) hsettled hall
          obtain ⟨index, hindex, rfl⟩ := List.mem_map.mp hroot
          rw [hadded]
          exact Nat.add_lt_add_left (List.mem_range.mp hindex) _
        rw [hsame]
        exact .ok result
  · obtain ⟨_, hshadow, hagree⟩ := hold.shadow hwell h fun root => List.mem_range.mp
    exact ⟨_, _, hanswer, ((hwell.linearizes_iff _).mp ⟨_, hshadow, rfl⟩).symm, hagree⟩

theorem valuesAt_eq_nil {place : Nat} (hplace : order.nodeCount ≤ place) :
    order.valuesAt place = [] := by
  rw [valuesAt, Array.getElem?_eq_none hplace]

private theorem flatMap_entryAt? (order : Order V) (places : List Nat) :
    (places.filterMap order.entryAt?).flatMap (·.2) = places.flatMap order.valuesAt := by
  induction places with
  | nil => rfl
  | cons place places ih =>
      rw [List.filterMap_cons, List.flatMap_cons, ← ih, entryAt?, valuesAt]
      cases order.nodes[place]? <;> simp

theorem WellFormed.linearList_eq (hwell : order.WellFormed) :
    order.toLinearList.1 = order.linearize.map fun places => places.flatMap order.valuesAt := by
  rw [toLinearList_eq, linearEntries_eq, hwell.arrange_eq]
  cases order.linearize with
  | error error => rfl
  | ok places => exact congrArg Except.ok (flatMap_entryAt? order places)

theorem WellFormed.validate_eq (hwell : order.WellFormed) :
    order.validate.1 = order.linearize.map fun _ => () := by
  rw [← hwell.arrange_eq]
  rfl

theorem Ledger.valuesAt_eq (h : Ledger order [] padded) (place : Nat) :
    padded.valuesAt place = order.valuesAt place := by
  rw [Order.valuesAt_eq, Order.valuesAt_eq, h.itemsAt_eq]

theorem Ledger.flatMap_valuesAt (h : Ledger order [] padded) (places : List Nat) :
    places.flatMap padded.valuesAt =
      (places.filter (· < order.nodeCount)).flatMap order.valuesAt := by
  induction places with
  | nil => rfl
  | cons place places ih =>
      rw [List.flatMap_cons, ih, h.valuesAt_eq]
      by_cases hplace : place < order.nodeCount
      · rw [List.filter_cons_of_pos (by simpa using hplace), List.flatMap_cons]
      · rw [List.filter_cons_of_neg (by simpa using hplace),
          valuesAt_eq_nil (Nat.not_lt.mp hplace), List.nil_append]

theorem Ledger.values_eq (h : Ledger order [] padded) (hwell : order.WellFormed)
    (hpadded : padded.WellFormed) (key : Key) : padded.values key = order.values key := by
  cases hplace : order.place? key with
  | some place =>
      have hsame : padded.place? key = some place :=
        hpadded.keyAt?_iff.mp (keyAt?_later h.keys (keyAt?_place? hplace))
      rw [values, values, hplace, hsame]
      exact h.valuesAt_eq place
  | none =>
      rw [values, values, hplace]
      cases hadded : padded.place? key with
      | none => rfl
      | some place =>
          have hnew : order.nodeCount ≤ place := by
            by_contra hlt
            have hkey := keyAt?_place? hadded
            rw [h.keyAt?_old (Nat.not_le.mp hlt), hwell.keyAt?_iff, hplace] at hkey
            cases hkey
          exact (h.valuesAt_eq place).trans (valuesAt_eq_nil hnew)

theorem Ledger.readings_eq (h : Ledger order [] padded) (hwell : order.WellFormed)
    (hpadded : padded.WellFormed) :
    padded.toLinearList.1 = order.toLinearList.1 ∧ padded.validate.1 = order.validate.1 := by
  rw [hwell.linearList_eq, hpadded.linearList_eq, hwell.validate_eq, hpadded.validate_eq]
  obtain ⟨outcome', outcome, houtcome', houtcome, hagree⟩ := h.linearize_agree hwell hpadded
  rw [houtcome', houtcome]
  cases hagree with
  | ok placed =>
      have hvalues := h.flatMap_valuesAt placed.reverse
      rw [List.filter_reverse] at hvalues
      exact ⟨congrArg Except.ok hvalues, rfl⟩
  | @loop places hknown =>
      have hkeys : places.filterMap padded.keyAt? = places.filterMap order.keyAt? :=
        List.filterMap_congr fun place hplace => h.keyAt?_old (hknown place hplace)
      rw [answer, answer, hkeys]
      exact ⟨rfl, rfl⟩

end Order

end Runbook
