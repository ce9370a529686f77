import Runbook.Proofs.Order.Paths

/-!
# Plots of sequences

A plot is what is left of a sequence when each step stands for its key.  It tells which steps come in
series, and, from the keys that a builder has reached, which links the builder makes.  The paths of
these links are the series and nothing else.
-/

namespace Runbook.Order

variable {V : Type}

/-! ## Plots -/

inductive Plot where
  | done
  | step (key : Key) (rest : Plot)
  | block (mode : Mode) (body rest : Plot)
  | detached (body rest : Plot)

namespace Plot

def keys : Plot → List Key
  | .done => []
  | .step key rest => key :: rest.keys
  | .block _ body rest => body.keys ++ rest.keys
  | .detached body rest => body.keys ++ rest.keys

/-- The keys of the steps that are inside no detached block. -/
def exposed : Plot → List Key
  | .done => []
  | .step key rest => key :: rest.exposed
  | .block _ body rest => body.exposed ++ rest.exposed
  | .detached _ rest => rest.exposed

/-- Whether there is a step under one key and one under another such that the innermost block that
holds both is sequential and has the first in an earlier part, and no detached block lies between that
block and either step.  The mode is that of the outermost block. -/
def Series : Plot → Mode → Key → Key → Prop
  | .done, _, _, _ => False
  | .step key rest, mode, first, second =>
    (mode = .sequential ∧ first = key ∧ second ∈ rest.exposed) ∨ rest.Series mode first second
  | .block inner body rest, mode, first, second =>
    (mode = .sequential ∧ first ∈ body.exposed ∧ second ∈ rest.exposed) ∨
      body.Series inner first second ∨ rest.Series mode first second
  | .detached body rest, mode, first, second =>
    body.Series .sequential first second ∨ rest.Series mode first second

def after : Plot → Builder V → Builder V
  | .done, builder => builder
  | .step key rest, builder => rest.after (builder.advance [key])
  | .block mode body rest, builder =>
    rest.after (builder.advance (body.after (builder.nested mode builder.predecessors)).ends)
  | .detached _ rest, builder => rest.after builder

def links : Plot → Builder V → List (Key × Key)
  | .done, _ => []
  | .step key rest, builder =>
    builder.predecessors.map (·, key) ++ rest.links (builder.advance [key])
  | .block mode body rest, builder =>
    body.links (builder.nested mode builder.predecessors) ++
      rest.links (builder.advance (body.after (builder.nested mode builder.predecessors)).ends)
  | .detached body rest, builder =>
    body.links (builder.nested .sequential []) ++ rest.links builder

end Plot

/-! ## Moves of a builder -/

namespace Builder

variable (builder : Builder V)

@[simp] theorem advance_mode (keys : List Key) : (builder.advance keys).mode = builder.mode := by
  rw [advance]; split <;> rfl

@[simp] theorem nested_predecessors (mode : Mode) (start : List Key) :
    (builder.nested mode start).predecessors = start := by
  cases mode <;> rfl

@[simp] theorem nested_ends (mode : Mode) (start : List Key) :
    (builder.nested mode start).ends = start := by
  cases mode <;> rfl

theorem predecessors_advance (keys : List Key) :
    (builder.advance keys).predecessors =
      if builder.mode = .sequential then keys else builder.predecessors := by
  cases hmode : builder.mode <;> simp [advance, predecessors, hmode]

theorem mem_ends_advance {keys : List Key} {key : Key} (h : key ∈ (builder.advance keys).ends) :
    key ∈ builder.ends ∨ key ∈ keys := by
  cases hmode : builder.mode with
  | sequential =>
      refine .inr ?_
      simpa [advance, ends, hmode] using h
  | parallel =>
      simp only [advance, ends, hmode] at h ⊢
      split at h
      · next hempty =>
        have hfrontier : builder.frontier = [] := by
          rw [List.isEmpty_iff, List.eq_nil_iff_forall_not_mem] at hempty
          exact List.eq_nil_iff_forall_not_mem.mpr fun other hother =>
            hempty other ((mem_appendNew _ _).mpr (.inl hother))
        simpa [hfrontier] using Or.inl h
      · rcases (mem_appendNew _ _).mp h with hold | hnew
        · have hfrontier : builder.frontier ≠ [] := List.ne_nil_of_mem hold
          simpa [hfrontier] using Or.inl hold
        · exact .inr hnew

theorem subset_ends_advance (keys : List Key) : keys ⊆ (builder.advance keys).ends := by
  intro key hkey
  cases hmode : builder.mode with
  | sequential => simpa [advance, ends, hmode] using hkey
  | parallel =>
      have hmem : key ∈ appendNew builder.frontier keys := (mem_appendNew _ _).mpr (.inr hkey)
      simpa [advance, ends, hmode, List.ne_nil_of_mem hmem] using hmem

/-- A key that holds back what follows still does, directly or not, provided that the keys to which
the builder advances wait for it if a next step would. -/
theorem needs_ends_advance {order : Order V} {keys : List Key} {key : Key}
    (h : order.Needs builder.ends key)
    (hadvance : order.Needs builder.predecessors key → order.Needs keys key) :
    order.Needs (builder.advance keys).ends key := by
  by_cases hsame : builder.ends = builder.predecessors
  · rw [hsame] at h
    obtain ⟨target, htarget, hpath⟩ := hadvance h
    exact ⟨target, builder.subset_ends_advance keys htarget, hpath⟩
  · obtain ⟨target, htarget, hpath⟩ := h
    refine ⟨target, ?_, hpath⟩
    cases hmode : builder.mode with
    | sequential => simp [ends, predecessors, hmode] at hsame
    | parallel =>
        have hfrontier : builder.frontier ≠ [] := by
          intro hempty
          simp [ends, predecessors, hmode, hempty] at hsame
        simp only [ends, hmode, List.isEmpty_iff, hfrontier, if_false] at htarget
        have hmem : target ∈ appendNew builder.frontier keys := (mem_appendNew _ _).mpr (.inl htarget)
        simpa [advance, ends, hmode, List.ne_nil_of_mem hmem] using hmem

end Builder

/-! ## Series are paths -/

section

variable {order : Order V} {plot : Plot} {builder : Builder V} {key other : Key}

def Draws (order : Order V) (plot : Plot) (builder : Builder V) : Prop :=
  ∀ link ∈ plot.links builder, link.1 ∈ order.dependencies link.2

theorem Draws.step {rest : Plot} (h : order.Draws (.step key rest) builder) :
    (∀ source ∈ builder.predecessors, source ∈ order.dependencies key) ∧
      order.Draws rest (builder.advance [key]) := by
  obtain ⟨hfirst, hrest⟩ := List.forall_mem_append.mp h
  refine ⟨fun source hsource => ?_, hrest⟩
  exact hfirst (source, key) (List.mem_map_of_mem hsource)

theorem Draws.block {mode : Mode} {body rest : Plot}
    (h : order.Draws (.block mode body rest) builder) :
    order.Draws body (builder.nested mode builder.predecessors) ∧
      order.Draws rest
        (builder.advance (body.after (builder.nested mode builder.predecessors)).ends) :=
  List.forall_mem_append.mp h

theorem Draws.detached {body rest : Plot} (h : order.Draws (.detached body rest) builder) :
    order.Draws body (builder.nested .sequential []) ∧ order.Draws rest builder :=
  List.forall_mem_append.mp h

theorem needs_singleton_of_needs {keys : List Key}
    (hlinks : ∀ source ∈ keys, source ∈ order.dependencies other) (h : order.Needs keys key) :
    order.ComesBefore key other := by
  obtain ⟨target, htarget, hpath⟩ := h
  exact .tail' hpath (hlinks target htarget)

theorem Draws.needs_ends (h : order.Draws plot builder) (hkey : order.Needs builder.ends key) :
    order.Needs (plot.after builder).ends key := by
  induction plot generalizing builder with
  | done => exact hkey
  | step other rest ih =>
      obtain ⟨hlinks, hrest⟩ := h.step
      refine ih hrest (builder.needs_ends_advance hkey fun hwaits => ?_)
      exact ⟨other, List.mem_singleton_self _,
        (needs_singleton_of_needs hlinks hwaits).to_reflTransGen⟩
  | block mode body rest ihBody ihRest =>
      obtain ⟨hbody, hrest⟩ := h.block
      refine ihRest hrest (builder.needs_ends_advance hkey fun hwaits => ?_)
      -- The block starts and, before its first step, ends with what a next step would wait for.
      exact ihBody hbody (by simpa using hwaits)
  | detached body rest _ ih => exact ih h.detached.2 hkey

theorem Draws.comesBefore_exposed (h : order.Draws plot builder)
    (hkey : order.Needs builder.predecessors key) (hother : other ∈ plot.exposed) :
    order.ComesBefore key other := by
  induction plot generalizing builder with
  | done => simp [Plot.exposed] at hother
  | step first rest ih =>
      obtain ⟨hlinks, hrest⟩ := h.step
      have hfirst := needs_singleton_of_needs hlinks hkey
      rcases List.mem_cons.mp hother with rfl | hother
      · exact hfirst
      · refine ih hrest ?_ hother
        rw [Builder.predecessors_advance]
        split
        · exact ⟨first, List.mem_singleton_self _, hfirst.to_reflTransGen⟩
        · exact hkey
  | block mode body rest ihBody ihRest =>
      obtain ⟨hbody, hrest⟩ := h.block
      rcases List.mem_append.mp hother with hother | hother
      · exact ihBody hbody (by simpa using hkey) hother
      · refine ihRest hrest ?_ hother
        rw [Builder.predecessors_advance]
        split
        · exact hbody.needs_ends (by simpa using hkey)
        · exact hkey
  | detached body rest _ ih => exact ih h.detached.2 hkey hother

theorem Draws.exposed_needs (h : order.Draws plot builder) (hkey : key ∈ plot.exposed) :
    order.Needs (plot.after builder).ends key := by
  induction plot generalizing builder with
  | done => simp [Plot.exposed] at hkey
  | step first rest ih =>
      obtain ⟨-, hrest⟩ := h.step
      rcases List.mem_cons.mp hkey with rfl | hkey
      · exact hrest.needs_ends (needs_of_mem (builder.subset_ends_advance _ List.mem_cons_self))
      · exact ih hrest hkey
  | block mode body rest ihBody ihRest =>
      obtain ⟨hbody, hrest⟩ := h.block
      rcases List.mem_append.mp hkey with hkey | hkey
      · obtain ⟨target, htarget, hpath⟩ := ihBody hbody hkey
        exact hrest.needs_ends ⟨target, builder.subset_ends_advance _ htarget, hpath⟩
      · exact ihRest hrest hkey
  | detached body rest _ ih => exact ih h.detached.2 hkey

theorem Draws.comesBefore_series (h : order.Draws plot builder)
    (hseries : plot.Series builder.mode key other) : order.ComesBefore key other := by
  induction plot generalizing builder with
  | done => exact hseries.elim
  | step first rest ih =>
      obtain ⟨-, hrest⟩ := h.step
      rcases hseries with ⟨hmode, rfl, hother⟩ | hseries
      · refine hrest.comesBefore_exposed ?_ hother
        rw [Builder.predecessors_advance, if_pos hmode]
        exact needs_of_mem (List.mem_singleton_self _)
      · exact ih hrest (by simpa using hseries)
  | block mode body rest ihBody ihRest =>
      obtain ⟨hbody, hrest⟩ := h.block
      rcases hseries with ⟨hmode, hkey, hother⟩ | hseries | hseries
      · refine hrest.comesBefore_exposed ?_ hother
        rw [Builder.predecessors_advance, if_pos hmode]
        exact hbody.exposed_needs hkey
      · exact ihBody hbody hseries
      · exact ihRest hrest (by simpa using hseries)
  | detached body rest ihBody ihRest =>
      obtain ⟨hbody, hrest⟩ := h.detached
      rcases hseries with hseries | hseries
      · exact ihBody hbody hseries
      · exact ihRest hrest hseries

end

/-! ## Links are series -/

namespace Plot

variable {plot : Plot} {mode : Mode} {first second third : Key}

theorem mem_ends {builder : Builder V} {key : Key} (h : key ∈ (plot.after builder).ends) :
    key ∈ builder.ends ∨ key ∈ builder.predecessors ∨ key ∈ plot.exposed := by
  induction plot generalizing builder with
  | done => exact .inl h
  | step other rest ih =>
      have hstep : key ∈ [other] → key ∈ (Plot.step other rest).exposed := by
        intro hkey
        exact List.mem_cons.mpr (.inl (List.mem_singleton.mp hkey))
      rcases ih h with hends | hwaits | hexposed
      · exact (builder.mem_ends_advance hends).imp_right fun hkey => .inr (hstep hkey)
      · rw [Builder.predecessors_advance] at hwaits
        split at hwaits
        · exact .inr (.inr (hstep hwaits))
        · exact .inr (.inl hwaits)
      · exact .inr (.inr (List.mem_cons_of_mem _ hexposed))
  | block inner body rest ihBody ihRest =>
      have hbody : key ∈ (body.after (builder.nested inner builder.predecessors)).ends →
          key ∈ builder.predecessors ∨ key ∈ (Plot.block inner body rest).exposed := by
        intro hkey
        rcases ihBody hkey with hends | hwaits | hexposed
        · exact .inl (by simpa using hends)
        · exact .inl (by simpa using hwaits)
        · exact .inr (List.mem_append_left _ hexposed)
      rcases ihRest h with hends | hwaits | hexposed
      · exact (builder.mem_ends_advance hends).imp_right hbody
      · rw [Builder.predecessors_advance] at hwaits
        split at hwaits
        · exact .inr (hbody hwaits)
        · exact .inr (.inl hwaits)
      · exact .inr (.inr (List.mem_append_right _ hexposed))
  | detached body rest _ ih => exact ih h

theorem links_cases {builder : Builder V} (h : (first, second) ∈ plot.links builder) :
    (first ∈ builder.predecessors ∧ second ∈ plot.exposed) ∨
      plot.Series builder.mode first second := by
  induction plot generalizing builder with
  | done => simp [links] at h
  | step key rest ih =>
      rcases List.mem_append.mp h with h | h
      · obtain ⟨source, hsource, hlink⟩ := List.mem_map.mp h
        cases hlink
        exact .inl ⟨hsource, List.mem_cons_self⟩
      · rcases ih h with ⟨hwaits, hexposed⟩ | hseries
        · rw [Builder.predecessors_advance] at hwaits
          split at hwaits
          · next hmode => exact .inr (.inl ⟨hmode, List.mem_singleton.mp hwaits, hexposed⟩)
          · exact .inl ⟨hwaits, List.mem_cons_of_mem _ hexposed⟩
        · exact .inr (.inr (by simpa using hseries))
  | block inner body rest ihBody ihRest =>
      rcases List.mem_append.mp h with h | h
      · rcases ihBody h with ⟨hwaits, hexposed⟩ | hseries
        · exact .inl ⟨by simpa using hwaits, List.mem_append_left _ hexposed⟩
        · exact .inr (.inr (.inl hseries))
      · rcases ihRest h with ⟨hwaits, hexposed⟩ | hseries
        · rw [Builder.predecessors_advance] at hwaits
          split at hwaits
          · next hmode =>
            rcases mem_ends hwaits with hends | hwaits | hbody
            · exact .inl ⟨by simpa using hends, List.mem_append_right _ hexposed⟩
            · exact .inl ⟨by simpa using hwaits, List.mem_append_right _ hexposed⟩
            · exact .inr (.inl ⟨hmode, hbody, hexposed⟩)
          · exact .inl ⟨hwaits, List.mem_append_right _ hexposed⟩
        · exact .inr (.inr (.inr (by simpa using hseries)))
  | detached body rest ihBody ihRest =>
      rcases List.mem_append.mp h with h | h
      · rcases ihBody h with ⟨hwaits, -⟩ | hseries
        · simp at hwaits
        · exact .inr (.inl hseries)
      · rcases ihRest h with hwaits | hseries
        · exact .inl hwaits
        · exact .inr (.inr hseries)

/-! ## Series of different keys -/

theorem exposed_subset (plot : Plot) : plot.exposed ⊆ plot.keys := by
  induction plot with
  | done => exact List.nil_subset _
  | step key rest ih => exact List.cons_subset_cons _ ih
  | block mode body rest ihBody ihRest =>
      exact List.append_subset.mpr ⟨List.subset_append_of_subset_left _ ihBody,
        List.subset_append_of_subset_right _ ihRest⟩
  | detached body rest _ ih => exact List.subset_append_of_subset_right _ ih

theorem Series.mem_keys (h : plot.Series mode first second) :
    first ∈ plot.keys ∧ second ∈ plot.keys := by
  induction plot generalizing mode with
  | done => exact h.elim
  | step key rest ih =>
      rcases h with ⟨-, rfl, hsecond⟩ | h
      · exact ⟨List.mem_cons_self, List.mem_cons_of_mem _ (rest.exposed_subset hsecond)⟩
      · exact ⟨List.mem_cons_of_mem _ (ih h).1, List.mem_cons_of_mem _ (ih h).2⟩
  | block inner body rest ihBody ihRest =>
      rcases h with ⟨-, hfirst, hsecond⟩ | h | h
      · exact ⟨List.mem_append_left _ (body.exposed_subset hfirst),
          List.mem_append_right _ (rest.exposed_subset hsecond)⟩
      · exact ⟨List.mem_append_left _ (ihBody h).1, List.mem_append_left _ (ihBody h).2⟩
      · exact ⟨List.mem_append_right _ (ihRest h).1, List.mem_append_right _ (ihRest h).2⟩
  | detached body rest ihBody ihRest =>
      rcases h with h | h
      · exact ⟨List.mem_append_left _ (ihBody h).1, List.mem_append_left _ (ihBody h).2⟩
      · exact ⟨List.mem_append_right _ (ihRest h).1, List.mem_append_right _ (ihRest h).2⟩

theorem Series.not_exposed {other : Plot} (h : plot.Series mode first second)
    (hdisjoint : plot.keys.Disjoint other.keys) : first ∉ other.exposed ∧ second ∉ other.exposed :=
  ⟨fun hmem => hdisjoint h.mem_keys.1 (other.exposed_subset hmem),
    fun hmem => hdisjoint h.mem_keys.2 (other.exposed_subset hmem)⟩

/-- Of two steps that come in series both are inside a detached block of the plot, or neither. -/
theorem Series.exposed_iff (hnodup : plot.keys.Nodup) (h : plot.Series mode first second) :
    first ∈ plot.exposed ↔ second ∈ plot.exposed := by
  induction plot generalizing mode with
  | done => exact h.elim
  | step key rest ih =>
      obtain ⟨hkey, hnodup⟩ := List.nodup_cons.mp hnodup
      rcases h with ⟨-, rfl, hsecond⟩ | h
      · simp [exposed, hsecond]
      · have hfirst : first ≠ key := by rintro rfl; exact hkey h.mem_keys.1
        have hsecond : second ≠ key := by rintro rfl; exact hkey h.mem_keys.2
        simp [exposed, hfirst, hsecond, ih hnodup h]
  | block inner body rest ihBody ihRest =>
      obtain ⟨hbody, hrest, hdisjoint⟩ := List.nodup_append'.mp hnodup
      rcases h with ⟨-, hfirst, hsecond⟩ | h | h
      · simp [exposed, hfirst, hsecond]
      · obtain ⟨hfirst, hsecond⟩ := h.not_exposed hdisjoint
        simp [exposed, hfirst, hsecond, ihBody hbody h]
      · obtain ⟨hfirst, hsecond⟩ := h.not_exposed hdisjoint.symm
        simp [exposed, hfirst, hsecond, ihRest hrest h]
  | detached body rest ihBody ihRest =>
      obtain ⟨hbody, hrest, hdisjoint⟩ := List.nodup_append'.mp hnodup
      rcases h with h | h
      · obtain ⟨hfirst, hsecond⟩ := h.not_exposed hdisjoint
        simp [exposed, hfirst, hsecond]
      · exact ihRest hrest h

theorem Series.irrefl (hnodup : plot.keys.Nodup) : ¬ plot.Series mode first first := by
  induction plot generalizing mode with
  | done => exact id
  | step key rest ih =>
      obtain ⟨hkey, hnodup⟩ := List.nodup_cons.mp hnodup
      rintro (⟨-, rfl, hfirst⟩ | h)
      · exact hkey (rest.exposed_subset hfirst)
      · exact ih hnodup h
  | block inner body rest ihBody ihRest =>
      obtain ⟨hbody, hrest, hdisjoint⟩ := List.nodup_append'.mp hnodup
      rintro (⟨-, hfirst, hsecond⟩ | h | h)
      · exact hdisjoint (body.exposed_subset hfirst) (rest.exposed_subset hsecond)
      · exact ihBody hbody h
      · exact ihRest hrest h
  | detached body rest ihBody ihRest =>
      obtain ⟨hbody, hrest, -⟩ := List.nodup_append'.mp hnodup
      rintro (h | h)
      · exact ihBody hbody h
      · exact ihRest hrest h

theorem Series.trans (hnodup : plot.keys.Nodup) (hfirst : plot.Series mode first second)
    (hsecond : plot.Series mode second third) : plot.Series mode first third := by
  induction plot generalizing mode with
  | done => exact hfirst.elim
  | step key rest ih =>
      obtain ⟨hkey, hnodup⟩ := List.nodup_cons.mp hnodup
      have hlater : rest.Series mode second third := by
        rcases hsecond with ⟨-, rfl, -⟩ | hlater
        · rcases hfirst with ⟨-, -, hmem⟩ | hfirst
          · exact absurd (rest.exposed_subset hmem) hkey
          · exact absurd hfirst.mem_keys.2 hkey
        · exact hlater
      rcases hfirst with ⟨hmode, hfirst, hmem⟩ | hfirst
      · exact .inl ⟨hmode, hfirst, (hlater.exposed_iff hnodup).mp hmem⟩
      · exact .inr (ih hnodup hfirst hlater)
  | block inner body rest ihBody ihRest =>
      obtain ⟨hbody, hrest, hdisjoint⟩ := List.nodup_append'.mp hnodup
      rcases hfirst with ⟨hmode, hfirst, hmem⟩ | hfirst | hfirst
      · have hlater : rest.Series mode second third := by
          rcases hsecond with ⟨-, hother, -⟩ | hsecond | hlater
          · exact (hdisjoint (body.exposed_subset hother) (rest.exposed_subset hmem)).elim
          · exact (hdisjoint hsecond.mem_keys.1 (rest.exposed_subset hmem)).elim
          · exact hlater
        exact .inl ⟨hmode, hfirst, (hlater.exposed_iff hrest).mp hmem⟩
      · rcases hsecond with ⟨hmode, hother, hthird⟩ | hsecond | hsecond
        · exact .inl ⟨hmode, (hfirst.exposed_iff hbody).mpr hother, hthird⟩
        · exact .inr (.inl (ihBody hbody hfirst hsecond))
        · exact (hdisjoint hfirst.mem_keys.2 hsecond.mem_keys.1).elim
      · rcases hsecond with ⟨-, hother, -⟩ | hsecond | hsecond
        · exact (hdisjoint (body.exposed_subset hother) hfirst.mem_keys.2).elim
        · exact (hdisjoint hsecond.mem_keys.1 hfirst.mem_keys.2).elim
        · exact .inr (.inr (ihRest hrest hfirst hsecond))
  | detached body rest ihBody ihRest =>
      obtain ⟨hbody, hrest, hdisjoint⟩ := List.nodup_append'.mp hnodup
      rcases hfirst with hfirst | hfirst <;> rcases hsecond with hsecond | hsecond
      · exact .inl (ihBody hbody hfirst hsecond)
      · exact (hdisjoint hfirst.mem_keys.2 hsecond.mem_keys.1).elim
      · exact (hdisjoint hsecond.mem_keys.1 hfirst.mem_keys.2).elim
      · exact .inr (ihRest hrest hfirst hsecond)

end Plot

end Runbook.Order
