import Runbook.Proofs.Order.Atomicity
import Runbook.Proofs.Order.Reads
import Runbook.Proofs.Order.Repeats

/-!
# Lines

A plain sequence of values under named keys makes a line of nodes, each linked to the next one.
Where links lead forward only, the nodes are listed as they were made.  A step under the key of the
step before it is linked to itself, and the first such key is the loop that every read reports.
-/

namespace Runbook.Order

variable {V : Type} {order : Order V}

/-! ## Links that lead forward -/

def Forward (order : Order V) : Prop :=
  ∀ source target, order.Linked source target → source ≤ target

private theorem places_forward (order : Order V) {place : Nat} {placed : List Nat}
    (hplaced : ∀ other < place, other ∈ placed) (hnew : place ∉ placed) {pending : List Nat}
    (hpending : ∀ source ∈ pending, source ≤ place) :
    Places order [⟨place, pending⟩] placed
      (if place ∈ pending then .error [place] else .ok (place :: placed)) := by
  induction pending with
  | nil => exact .close (.done _)
  | cons source pending ih =>
      obtain ⟨hsource, hrest⟩ := List.forall_mem_cons.mp hpending
      by_cases hself : place = source
      · subst hself
        have hloop : openBackTo place [⟨place, pending⟩] = [place] := if_pos rfl
        rw [if_pos List.mem_cons_self, ← hloop]
        exact .loop hnew (.inl rfl)
      · have hmem : place ∈ source :: pending ↔ place ∈ pending := by simp [hself]
        simp only [hmem]
        exact .skip (hplaced source (by omega)) (ih hrest)

private theorem placesAll_forward (hforward : order.Forward) (start count : Nat) :
    PlacesAll order (List.range' start count) (List.range start).reverse
      (match (List.range' start count).find? fun place => place ∈ order.dependenciesAt place with
      | none => .ok (List.range (start + count)).reverse
      | some place => .error [place]) := by
  induction count generalizing start with
  | zero => exact .done _
  | succ count ih =>
      have hnew : start ∉ (List.range start).reverse := by simp
      have hplaced : ∀ other < start, other ∈ (List.range start).reverse := by simp
      have hrun := places_forward order hplaced hnew fun source hsource =>
        hforward source start (mem_dependenciesAt.mp hsource)
      rw [List.range'_succ, List.find?_cons]
      by_cases hself : start ∈ order.dependenciesAt start
      · rw [if_pos hself] at hrun
        simp only [hself, decide_true]
        exact .loop hnew hrun
      · rw [if_neg hself] at hrun
        simp only [hself, decide_false]
        have hrest := ih (start + 1)
        rw [List.range_succ, List.reverse_append, Nat.add_right_comm, Nat.add_assoc] at hrest
        exact .found hnew hrun hrest

/-- Where links lead forward, nodes are arranged as they were made, or the first one that is linked
to itself is a loop. -/
theorem WellFormed.linearize_forward (hwell : order.WellFormed) (hforward : order.Forward) :
    order.linearize =
      match (List.range order.nodeCount).find? fun place => place ∈ order.dependenciesAt place with
      | none => .ok (List.range order.nodeCount)
      | some place => .error (.cycleDetected (order.keyAt? place).toList) := by
  have hrun := placesAll_forward hforward 0 order.nodeCount
  rw [← List.range_eq_range'] at hrun
  refine ((hwell.linearizes_iff _).mp ⟨_, hrun, ?_⟩).symm
  split
  · simp [answer]
  · next place _ => cases hkey : order.keyAt? place <;> simp [answer, hkey]

/-! ## Names -/

def Grouped : List String → Prop
  | [] => True
  | name :: names => (name ∈ names → names.head? = some name) ∧ Grouped names

instance Grouped.decidable : (names : List String) → Decidable (Grouped names)
  | [] => .isTrue trivial
  | _ :: names => @instDecidableAnd _ _ inferInstance (Grouped.decidable names)

def repeated? (names : List String) : Option String := names.find? fun name => 2 ≤ names.count name

theorem Grouped.last {names others : List String} {name : String}
    (h : Grouped (names ++ name :: others)) (hmem : name ∈ names) : names.getLast? = some name := by
  induction names with
  | nil => simp at hmem
  | cons first names ih =>
      obtain ⟨hfirst, hrest⟩ := h
      by_cases hlater : name ∈ names
      · rw [List.getLast?_cons, ih hrest hlater, Option.getD_some]
      · obtain rfl : name = first := by simpa [hlater] using hmem
        have hnext := hfirst (by simp)
        cases names with
        | nil => rfl
        | cons second names => simp_all

theorem repeated?_eq_none_iff {names : List String} : repeated? names = none ↔ names.Nodup := by
  simp only [repeated?, List.find?_eq_none, List.nodup_iff_count_le_one, decide_eq_true_eq]
  constructor
  · intro h name
    by_cases hmem : name ∈ names
    · have := h name hmem
      omega
    · rw [List.count_eq_zero_of_not_mem hmem]
      omega
  · intro h name _
    have := h name
    omega

/-! ## Values in a line -/

theorem linked_addLink {source target first last : Nat} :
    (order.addLink first last).Linked source target ↔
      order.Linked source target ∨ (first = source ∧ last = target) := by
  simp [Linked, addLink, or_and_right, exists_or]

theorem held_addItem_last {place : Nat} (hlast : order.nodeCount = place + 1) (value : V) :
    (order.addItem place value).held = order.held ++ [value] := by
  have hsize : order.nodes.toList.length = place + 1 := hlast
  have hlt : place < order.nodes.toList.length := by omega
  have hend : order.nodes.toList.drop (place + 1) = [] := List.drop_eq_nil_of_le (by omega)
  have hsplit := List.take_append_drop place order.nodes.toList
  rw [List.drop_eq_getElem_cons hlt, hend] at hsplit
  rw [held, addItem, Array.toList_modify, List.modify_eq_take_cons_drop hlt, hend, held]
  conv => rhs; rw [← hsplit]
  simp [Node.values]

private theorem mem_held_of_mem_values {key : Key} {value : V} (h : value ∈ order.values key) :
    value ∈ order.held := by
  rw [values] at h
  split at h
  · exact mem_held h
  · cases h

theorem WellFormed.link_known (hwell : order.WellFormed) {source target : Key} {first last : Nat}
    (hsource : order.keyAt? first = some source) (htarget : order.keyAt? last = some target) :
    (order.link source target).2 = order.addLink first last := by
  rw [link_eq, ensure_of_place? (hwell.keyAt?_iff.mp hsource),
    ensure_of_place? (hwell.keyAt?_iff.mp htarget)]

/-- Whether values under names, as they came, make up an order.  The nodes that are linked to
themselves are those of the names that came more than once. -/
structure Line (names : List String) (values : List V) (order : Order V) : Prop where
  wellFormed : order.WellFormed
  keys : order.keys = (firsts names).map Key.constant
  last : (firsts names).getLast? = names.getLast?
  held : order.held = values
  forward : order.Forward
  loops : ∀ place name, (firsts names)[place]? = some name →
    (order.Linked place place ↔ 2 ≤ names.count name)

private theorem line_empty : Line [] [] (.empty : Order V) where
  wellFormed := empty_wellFormed
  keys := rfl
  last := rfl
  held := rfl
  forward := by simp [Forward, Linked, empty]
  loops := by simp [firsts, appendNew]

section

variable {names : List String} {values : List V} {name : String}

theorem Line.nodeCount (h : Line names values order) :
    order.nodeCount = (firsts names).length := by
  rw [nodeCount_eq, h.keys, List.length_map]

theorem Line.keyAt? (h : Line names values order) (place : Nat) :
    order.keyAt? place = (firsts names)[place]?.map Key.constant := by
  rw [keyAt?_eq, h.keys, List.getElem?_map]

theorem Line.last_place (h : Line names values order) (hlast : names.getLast? = some name) :
    ∃ place, order.nodeCount = place + 1 ∧ (firsts names)[place]? = some name := by
  rw [← h.last] at hlast
  have hnonempty : firsts names ≠ [] := by
    intro hnone
    simp [hnone] at hlast
  have hlength := List.length_pos_iff.mpr hnonempty
  refine ⟨(firsts names).length - 1, by rw [h.nodeCount]; omega, ?_⟩
  rwa [← List.getLast?_eq_getElem?]

theorem Line.grow (h : Line names values order) (hnew : name ∉ names) (value : V) :
    Line (names ++ [name]) (values ++ [value])
      ((order.addNode (.constant name)).addItem order.nodeCount value) := by
  have hnames : firsts (names ++ [name]) = firsts names ++ [name] := by
    simp [firsts_concat, mem_firsts, hnew]
  have hunknown : Key.constant name ∉ order.keys := by
    simpa [h.keys, mem_firsts] using hnew
  constructor
  · exact (h.wellFormed.addNode hunknown).addItem _ _
  · simp [hnames, h.keys]
  · simp [hnames]
  · rw [held_addItem_last (by simp), held_addNode, h.held]
  · exact h.forward
  · intro place other hother
    change order.Linked place place ↔ _
    rw [hnames] at hother
    by_cases hplace : place < (firsts names).length
    · rw [List.getElem?_append_left hplace] at hother
      have hdifferent : other ≠ name := by
        rintro rfl
        exact hnew (mem_firsts.mp (List.mem_of_getElem? hother))
      rw [h.loops place other hother, List.count_append, List.count_singleton]
      simp [hdifferent.symm]
    · have hsame : other = name := by
        rw [List.getElem?_append_right (by omega)] at hother
        have := List.mem_of_getElem? hother
        simpa using this
      have hnone : ¬ order.Linked place place := by
        intro hlinked
        have := (h.wellFormed.linked_lt hlinked).1
        rw [h.nodeCount] at this
        omega
      simp [hsame, hnone, List.count_append, List.count_eq_zero_of_not_mem hnew]

theorem Line.connect (h : Line names values order) {first last : Nat} (hlt : first < last)
    (hlast : last < order.nodeCount) : Line names values (order.addLink first last) := by
  constructor
  · exact h.wellFormed.addLink (by omega) hlast
  · exact h.keys
  · exact h.last
  · exact h.held
  · intro source target hlinked
    rcases linked_addLink.mp hlinked with hold | ⟨rfl, rfl⟩
    · exact h.forward source target hold
    · omega
  · intro place name hname
    have hdifferent : ¬ (first = place ∧ last = place) := by omega
    simp [linked_addLink, hdifferent, h.loops place name hname]

theorem Line.again (h : Line names values order) (hlast : names.getLast? = some name)
    {place : Nat} (hplace : order.nodeCount = place + 1) (value : V) :
    Line (names ++ [name]) (values ++ [value])
      ((order.addItem place value).addLink place place) := by
  have hmem : name ∈ names := List.mem_of_getLast? hlast
  have hnames : firsts (names ++ [name]) = firsts names := by
    simp [firsts_concat, mem_firsts, hmem]
  have hname : (firsts names)[place]? = some name := by
    obtain ⟨other, hother, hname⟩ := h.last_place hlast
    obtain rfl : other = place := by omega
    exact hname
  have hitem : (order.addItem place value).WellFormed := h.wellFormed.addItem _ _
  constructor
  · exact hitem.addLink (by simp [hplace]) (by simp [hplace])
  · simp [hnames, h.keys]
  · simp [hnames, h.last, hlast]
  · rw [held_addLink, held_addItem_last hplace, h.held]
  · intro source target hlinked
    rcases linked_addLink.mp hlinked with hold | ⟨rfl, rfl⟩
    · exact h.forward source target hold
    · exact Nat.le_refl _
  · intro other own hown
    rw [hnames] at hown
    rw [linked_addLink]
    change order.Linked other other ∨ _ ↔ _
    by_cases hsame : own = name
    · subst hsame
      have hlt := (List.getElem?_eq_some_iff.mp hname).1
      obtain rfl := (List.getElem?_inj hlt (nodup_firsts names)).mp (hname.trans hown.symm)
      have hcount := List.count_pos_iff.mpr hmem
      simp
      omega
    · have hother : place ≠ other := by
        rintro rfl
        exact hsame (Option.some.inj (hown.symm.trans hname))
      simp [h.loops other own hown, hother, List.count_append, Ne.symm hsame]

theorem Line.register [BEq V] (h : Line names values order) {value : V}
    (hfresh : ∀ old ∈ values, (value == old) = false) (key : Key) :
    order.register key value =
      (.ok ⟨order.nextItem, key⟩, (order.ensure key).2.addItem (order.ensure key).1 value) := by
  have haccepted : (order.values key).contains value = false := by
    rw [List.contains_eq_any_beq, List.any_eq_false]
    intro old hold
    simp [hfresh old (h.held ▸ mem_held_of_mem_values hold)]
  rw [register_outcome, haccepted, if_neg Bool.false_ne_true]

/-! ## Reading a line -/

theorem Line.linearize (h : Line names values order) :
    order.linearize =
      match repeated? names with
      | none => .ok (List.range order.nodeCount)
      | some name => .error (.cycleDetected [.constant name]) := by
  have hloops : ∀ place (hlt : place < (firsts names).length),
      place ∈ order.dependenciesAt place ↔ 2 ≤ names.count (firsts names)[place] :=
    fun place hlt => mem_dependenciesAt.trans (h.loops place _ (List.getElem?_eq_getElem hlt))
  rw [h.wellFormed.linearize_forward h.forward, repeated?, ← find?_firsts _ names]
  cases hfound : (List.range order.nodeCount).find? fun place =>
      place ∈ order.dependenciesAt place with
  | none =>
      have hnone : (firsts names).find? (fun name => 2 ≤ names.count name) = none := by
        rw [List.find?_eq_none]
        intro name hname
        obtain ⟨place, hlt, rfl⟩ := List.mem_iff_getElem.mp hname
        have hclear := List.find?_range_eq_none.mp hfound place (by rwa [h.nodeCount])
        simpa [hloops place hlt] using hclear
      simp [hnone]
  | some place =>
      obtain ⟨hself, hlt, hclear⟩ := List.find?_range_eq_some.mp hfound
      rw [List.mem_range, h.nodeCount] at hlt
      have hsome : (firsts names).find? (fun name => 2 ≤ names.count name) =
          some (firsts names)[place] := by
        refine List.find?_eq_some_iff_getElem.mpr ⟨?_, place, hlt, rfl, fun other hother => ?_⟩
        · simpa [hloops place hlt] using hself
        · simpa [hloops other (hother.trans hlt)] using hclear other hother
      simp [hsome, h.keyAt?, hlt]

theorem Line.reads (h : Line names values order) (hnodup : names.Nodup) :
    order.validate.1 = .ok () ∧ order.toLinearList.1 = .ok values := by
  have hplaces := h.linearize
  rw [repeated?_eq_none_iff.mpr hnodup] at hplaces
  constructor
  · exact (Read.run_of_wellFormed h.wellFormed .validate).trans (congrArg _ hplaces)
  · refine (Read.run_of_wellFormed h.wellFormed .toLinearList).trans ?_
    have hvalues :
        ((List.range order.nodeCount).filterMap order.entryAt?).flatMap (·.2) = values := by
      rw [entryAt?_range, List.flatMap_map]
      exact h.held
    rw [hplaces, ← hvalues]
    rfl

theorem Line.reads_loop (h : Line names values order) (hrepeated : repeated? names = some name)
    (read : Read V) : (read.run order).1 = .error (.cycleDetected [.constant name]) := by
  rw [read.run_of_wellFormed h.wellFormed, h.linearize, hrepeated]
  rfl

end

/-! ## Plain sequences -/

def lineSteps (entries : List (String × V)) : List (Step V) :=
  entries.map fun entry => .addKeyed (.key (.constant entry.1)) entry.2

structure Builder.AtEnd (names : List String) (values : List V) (builder : Builder V) : Prop where
  line : Line names values builder.order
  mode : builder.mode = .sequential
  frontier : builder.frontier = (names.getLast?.map Key.constant).toList

section

variable {names : List String} {values : List V} {name : String} {builder : Builder V}

theorem Builder.atEnd_start (hmode : builder.mode = .sequential) (hfrontier : builder.frontier = [])
    (hlast : names.getLast? = some name) (hline : Line names values builder.order) :
    (builder.stepTo (.constant name)).AtEnd names values := by
  have hstep : builder.stepTo (.constant name) = { builder with frontier := [.constant name] } := by
    simp [stepTo, predecessors, advance, hmode, hfrontier]
  rw [hstep]
  exact ⟨hline, hmode, by simp [hlast]⟩

theorem Builder.atEnd_after (hmode : builder.mode = .sequential) {source : Key}
    (hfrontier : builder.frontier = [source]) (hlast : names.getLast? = some name)
    (hline : Line names values (builder.order.link source (.constant name)).2) :
    (builder.stepTo (.constant name)).AtEnd names values := by
  have hstep : builder.stepTo (.constant name) =
      { builder.waitFor (.constant name) source with frontier := [.constant name] } := by
    simp [stepTo, predecessors, advance, waitFor, hmode, hfrontier]
  rw [hstep]
  exact ⟨hline, hmode, by simp [hlast]⟩

theorem Builder.AtEnd.step [BEq V] (h : builder.AtEnd names values)
    (hgrouped : name ∈ names → names.getLast? = some name) {value : V}
    (hfresh : ∀ old ∈ values, (value == old) = false) :
    ∃ next, builder.runStep (.addKeyed (.key (.constant name)) value) = (.ok (), next) ∧
      next.AtEnd (names ++ [name]) (values ++ [value]) := by
  obtain ⟨hline, hmode, hfrontier⟩ := h
  simp only [runStep, KeySource.resolve, addUnder, hline.register hfresh]
  refine ⟨_, rfl, ?_⟩
  by_cases hmem : name ∈ names
  · have hlast := hgrouped hmem
    obtain ⟨place, hcount, hname⟩ := hline.last_place hlast
    have hkey : builder.order.keyAt? place = some (.constant name) := by
      simp [hline.keyAt?, hname]
    have hkey' : (builder.order.addItem place value).keyAt? place = some (.constant name) := by
      rwa [keyAt?_eq, keys_addItem, ← keyAt?_eq]
    have hsource : builder.frontier = [.constant name] := by simp [hfrontier, hlast]
    rw [ensure_of_place? (hline.wellFormed.keyAt?_iff.mp hkey)]
    refine Builder.atEnd_after hmode hsource (by simp) ?_
    rw [(hline.wellFormed.addItem place value).link_known hkey' hkey']
    exact hline.again hlast hcount value
  · have hgrown := hline.grow hmem value
    have hunknown : builder.order.place? (.constant name) = none := by
      rw [place?_eq_none_iff, hline.keys]
      simpa [mem_firsts] using hmem
    rw [ensure_constant hunknown]
    cases hlast : names.getLast? with
    | none => exact Builder.atEnd_start hmode (by simp [hfrontier, hlast]) (by simp) hgrown
    | some last =>
        obtain ⟨place, hcount, hname⟩ := hline.last_place hlast
        have hsource : builder.frontier = [.constant last] := by simp [hfrontier, hlast]
        have hnames : firsts (names ++ [name]) = firsts names ++ [name] := by
          simp [firsts_concat, mem_firsts, hmem]
        have hlt := (List.getElem?_eq_some_iff.mp hname).1
        have hkey : ((builder.order.addNode (.constant name)).addItem builder.order.nodeCount
            value).keyAt? place = some (.constant last) := by
          rw [hgrown.keyAt?, hnames, List.getElem?_append_left hlt, hname]
          rfl
        have hkey' : ((builder.order.addNode (.constant name)).addItem builder.order.nodeCount
            value).keyAt? builder.order.nodeCount = some (.constant name) := by
          rw [hgrown.keyAt?, hnames, hline.nodeCount]
          simp
        refine Builder.atEnd_after hmode hsource (by simp) ?_
        rw [hgrown.wellFormed.link_known hkey hkey']
        exact hgrown.connect (by omega) (by simp)

theorem Builder.AtEnd.run [BEq V] {entries : List (String × V)} (h : builder.AtEnd names values)
    (hgrouped : Grouped (names ++ entries.map (·.1)))
    (hvalues : (values ++ entries.map (·.2)).Pairwise fun older newer => (newer == older) = false) :
    ∃ final, builder.runSteps (lineSteps entries) = (.ok (), final) ∧
      final.AtEnd (names ++ entries.map (·.1)) (values ++ entries.map (·.2)) := by
  induction entries generalizing names values builder with
  | nil => exact ⟨builder, rfl, by simpa using h⟩
  | cons entry entries ih =>
      obtain ⟨name, value⟩ := entry
      simp only [List.map_cons] at hgrouped hvalues
      have hfresh : ∀ old ∈ values, (value == old) = false := fun old hold =>
        (List.pairwise_append.mp hvalues).2.2 old hold value List.mem_cons_self
      obtain ⟨next, hstep, hnext⟩ := h.step hgrouped.last hfresh
      obtain ⟨final, hrun, hfinal⟩ := ih hnext (by simpa using hgrouped) (by simpa using hvalues)
      refine ⟨final, ?_, by simpa using hfinal⟩
      rw [lineSteps, List.map_cons, runSteps, hstep]
      exact hrun

end

/-- Values that differ, one after another under names of which equal ones stand together, are all
registered.  If no name comes twice, the sequence is valid and lists the values in its own order.
Otherwise the first name that comes again is a loop: its second step waits for its first one, which
has the same key, and every read fails. -/
theorem line_runs_in_order [BEq V] {entries : List (String × V)}
    (hgrouped : Grouped (entries.map (·.1)))
    (hvalues : (entries.map (·.2)).Pairwise fun older newer => (newer == older) = false) :
    ∃ final : Builder V,
      (Builder.startingAfter .empty []).runSteps (lineSteps entries) = (.ok (), final) ∧
      final.order.held = entries.map (·.2) ∧
      ((entries.map (·.1)).Nodup →
        final.order.validate.1 = .ok () ∧ final.order.toLinearList.1 = .ok (entries.map (·.2))) ∧
      (¬ (entries.map (·.1)).Nodup → ∃ name, repeated? (entries.map (·.1)) = some name ∧
        ∀ read : Read V, (read.run final.order).1 = .error (.cycleDetected [.constant name])) := by
  have hstart : (Builder.startingAfter (.empty : Order V) []).AtEnd [] [] := ⟨line_empty, rfl, rfl⟩
  obtain ⟨final, hrun, hend⟩ := hstart.run (by simpa using hgrouped) (by simpa using hvalues)
  refine ⟨final, hrun, hend.line.held, hend.line.reads, fun hagain => ?_⟩
  cases hrepeated : repeated? (entries.map (·.1)) with
  | none => exact absurd (repeated?_eq_none_iff.mp hrepeated) hagain
  | some name => exact ⟨name, rfl, hend.line.reads_loop hrepeated⟩

theorem line_with_and_without_repeats :
    (∃ final : Builder Nat,
      (Builder.startingAfter .empty []).runSteps (lineSteps [("c", 1), ("a", 2), ("b", 3)]) =
        (.ok (), final) ∧
      final.order.validate.1 = .ok () ∧ final.order.toLinearList.1 = .ok [1, 2, 3]) ∧
    ∃ final : Builder Nat,
      (Builder.startingAfter .empty []).runSteps
        (lineSteps [("c", 1), ("a", 2), ("a", 3), ("b", 4)]) = (.ok (), final) ∧
      final.order.held = [1, 2, 3, 4] ∧
      final.order.validate.1 = .error (.cycleDetected [.constant "a"]) := by
  let once : List (String × Nat) := [("c", 1), ("a", 2), ("b", 3)]
  let twice : List (String × Nat) := [("c", 1), ("a", 2), ("a", 3), ("b", 4)]
  have honce : Grouped (once.map (·.1)) := by decide
  have htwice : Grouped (twice.map (·.1)) := by decide
  obtain ⟨first, hfirst, -, hreads, -⟩ := line_runs_in_order honce (by decide)
  obtain ⟨second, hsecond, hheld, -, hloop⟩ := line_runs_in_order htwice (by decide)
  obtain ⟨name, hname, hfails⟩ := hloop (by decide)
  obtain rfl : "a" = name := Option.some.inj ((by decide : some "a" = repeated? _).trans hname)
  exact ⟨⟨first, hfirst, hreads (by decide)⟩, second, hsecond, hheld, hfails .validate⟩

/-- Two steps under one key, right after each other, are no plain sequence that can be read. -/
theorem line_with_repeat_not_in_order :
    ¬ ∀ entries : List (String × Nat), Grouped (entries.map (·.1)) →
      (entries.map (·.2)).Pairwise (fun older newer => (newer == older) = false) →
      ∃ final : Builder Nat,
        (Builder.startingAfter .empty []).runSteps (lineSteps entries) = (.ok (), final) ∧
        final.order.validate.1 = .ok () ∧
        final.order.toLinearList.1 = .ok (entries.map (·.2)) := by
  intro hall
  obtain ⟨final, hrun, hvalid, -⟩ := hall [("k", 1), ("k", 2)] (by decide) (by decide)
  have hfinal := congrArg Prod.snd hrun
  have hloop : ((Builder.startingAfter (.empty : Order Nat) []).runSteps
      (lineSteps [("k", 1), ("k", 2)])).2.order.validate.1 =
        .error (.cycleDetected [.constant "k"]) := by cbv
  rw [hfinal, hvalid] at hloop
  cases hloop

end Runbook.Order
