import Runbook.Proofs.Execution.Schedule
import Runbook.Proofs.Order.Paths

/-!
# Failures

A stage that reports a failure ends the task of its key.  Keys that depend on a failed key start no
stage and fail too, each with the failure of its first failed dependency; all other keys go on.  So
an execution fails exactly when some key fails, and every failure leads back along a path of links
to a stage that reported one.
-/

namespace Runbook

open Runbook.Order

variable {γ : Type}

/-! ## Stages in a row -/

def Stage.Reports (stage : Stage γ) : Prop :=
  ∀ context message, stage.run context ≠ .aborted message

theorem Stage.reports_ofEdit (id : StageId) (name : String) (edit : γ → Except String γ) :
    (Stage.ofEdit id name edit).Reports := by
  intro context message
  simp only [Stage.ofEdit]
  cases edit context <;> simp

inductive Passes : γ → List (Stage γ) → γ → Prop where
  | nil (context : γ) : Passes context [] context
  | cons {context next result stage stages} :
      stage.run context = .finished next → Passes next stages result →
      Passes context (stage :: stages) result

/-- Whether one of some stages reports a failure on the context that it receives; it is the last of
the stages that are started. -/
def FailsAfter (context : γ) (stages started : List (Stage γ)) (failure : StageError) : Prop :=
  ∃ earlier stage later reached,
    stages = earlier ++ stage :: later ∧ started = earlier ++ [stage] ∧
    Passes context earlier reached ∧ stage.run reached = .failed failure

theorem Passes.stages {key : Key} {context result : γ} {stages : List (Stage γ)}
    (h : Passes context stages result) :
    Run.stages key context stages = ⟨.ok result, stages, 0⟩ := by
  induction h with
  | nil context => rfl
  | cons hrun _ ih =>
      rw [Run.stages_cons, hrun]
      simp only [ih]

theorem FailsAfter.stages {key : Key} {context : γ} {stages started : List (Stage γ)}
    {failure : StageError} (h : FailsAfter context stages started failure) :
    Run.stages key context stages = ⟨.error (.stageFailed key failure), started, 0⟩ := by
  obtain ⟨earlier, stage, later, reached, rfl, rfl, hpasses, hfails⟩ := h
  induction hpasses with
  | nil context =>
      rw [List.nil_append, Run.stages_cons, hfails]
      rfl
  | cons hrun _ ih =>
      rw [List.cons_append, Run.stages_cons, hrun]
      simp only [ih hfails, List.cons_append]

theorem passes_or_fails (context : γ) {stages : List (Stage γ)}
    (hreports : ∀ stage ∈ stages, stage.Reports) :
    (∃ result, Passes context stages result) ∨
      ∃ started failure, FailsAfter context stages started failure := by
  induction stages generalizing context with
  | nil => exact .inl ⟨context, .nil context⟩
  | cons stage stages ih =>
      obtain ⟨hstage, hreports⟩ := List.forall_mem_cons.mp hreports
      cases hrun : stage.run context with
      | aborted message => exact absurd hrun (hstage context message)
      | failed failure =>
          exact .inr ⟨[stage], failure, [], stage, stages, context, rfl, rfl, .nil context, hrun⟩
      | finished next =>
          rcases ih next hreports with ⟨result, hpasses⟩ | ⟨started, failure, hfails⟩
          · exact .inl ⟨result, .cons hrun hpasses⟩
          · obtain ⟨earlier, last, later, reached, rfl, rfl, hpasses, hlast⟩ := hfails
            exact .inr ⟨stage :: earlier ++ [last], failure, stage :: earlier, last, later, reached,
              rfl, rfl, .cons hrun hpasses, hlast⟩

/-! ## Gathered outcomes -/

theorem gather_eq_ok_iff {outputs : List (Key × Except ExecutionError γ)} {contexts : List γ} :
    gather outputs = .ok contexts ↔ outputs.map (·.2) = contexts.map .ok := by
  induction outputs generalizing contexts with
  | nil => cases contexts <;> simp [gather]
  | cons output outputs ih =>
      obtain ⟨key, outcome⟩ := output
      cases outcome with
      | error error => cases contexts <;> simp [gather]
      | ok first =>
          rw [gather]
          cases contexts with
          | nil => cases gather outputs <;> simp [Except.map]
          | cons context contexts =>
              cases hrest : gather outputs with
              | error failure =>
                  have hnone : outputs.map (·.2) ≠ contexts.map .ok := by
                    intro hsame
                    rw [ih.mpr hsame] at hrest
                    cases hrest
                  simp [Except.map, hnone]
              | ok rest =>
                  have hsame : rest = contexts ↔ outputs.map (·.2) = contexts.map .ok := by
                    rw [← ih, hrest, Except.ok.injEq]
                  simp [Except.map, hsame]

theorem gather_eq_error_iff {outputs : List (Key × Except ExecutionError γ)} {key : Key}
    {error : ExecutionError} :
    gather outputs = .error (key, error) ↔
      ∃ earlier later, outputs = earlier ++ (key, .error error) :: later ∧
        ∀ output ∈ earlier, ∃ context, output.2 = .ok context := by
  induction outputs with
  | nil => simp [gather]
  | cons output outputs ih =>
      obtain ⟨first, outcome⟩ := output
      cases outcome with
      | error other =>
          rw [gather]
          constructor
          · rintro ⟨rfl⟩
            exact ⟨[], outputs, rfl, by simp⟩
          · rintro ⟨earlier, later, hsplit, hearlier⟩
            cases earlier with
            | nil =>
                cases hsplit
                rfl
            | cons output earlier =>
                obtain ⟨context, hcontext⟩ := hearlier output (by simp)
                simp [← (List.cons.inj hsplit).1] at hcontext
      | ok context =>
          have hskip : gather ((first, .ok context) :: outputs) = .error (key, error) ↔
              gather outputs = .error (key, error) := by
            rw [gather]
            cases gather outputs <;> simp [Except.map]
          rw [hskip, ih]
          constructor
          · rintro ⟨earlier, later, rfl, hearlier⟩
            exact ⟨(first, .ok context) :: earlier, later, rfl,
              List.forall_mem_cons.mpr ⟨⟨context, rfl⟩, hearlier⟩⟩
          · rintro ⟨earlier, later, hsplit, hearlier⟩
            cases earlier with
            | nil => simp at hsplit
            | cons output earlier =>
                exact ⟨earlier, later, (List.cons.inj hsplit).2,
                  fun other hother => hearlier other (List.mem_cons_of_mem _ hother)⟩

/-! ## What becomes of a key -/

/-- Whether a key runs its stages on a context that it received: it hands on what they make of the
context, or fails with the first failure that one of them reports, after which none is started. -/
structure RunsStages (received : γ) (key : Key) (stages : List (Stage γ))
    (outcome : Except ExecutionError γ) (started : List (Stage γ)) : Prop where
  ok_iff : ∀ result, outcome = .ok result ↔ Passes received stages result
  error_iff : ∀ error, outcome = .error error ↔
    ∃ ran failure, FailsAfter received stages ran failure ∧ error = .stageFailed key failure
  started_all : ∀ result, Passes received stages result → started = stages
  started_until : ∀ ran failure, FailsAfter received stages ran failure → started = ran

private theorem runsStages (received : γ) (key : Key) {stages : List (Stage γ)}
    (hreports : ∀ stage ∈ stages, stage.Reports) :
    RunsStages received key stages (Run.stages key received stages).outcome
      (Run.stages key received stages).started := by
  constructor
  · intro result
    constructor
    · intro houtcome
      rcases passes_or_fails received hreports with ⟨other, hpasses⟩ | ⟨ran, failure, hfails⟩
      · rw [hpasses.stages] at houtcome
        cases houtcome
        exact hpasses
      · rw [hfails.stages] at houtcome
        cases houtcome
    · intro hpasses
      rw [hpasses.stages]
  · intro error
    constructor
    · intro houtcome
      rcases passes_or_fails received hreports with ⟨other, hpasses⟩ | ⟨ran, failure, hfails⟩
      · rw [hpasses.stages] at houtcome
        cases houtcome
      · rw [hfails.stages] at houtcome
        cases houtcome
        exact ⟨ran, failure, hfails, rfl⟩
    · rintro ⟨ran, failure, hfails, rfl⟩
      rw [hfails.stages]
  · intro result hpasses
    rw [hpasses.stages]
  · intro ran failure hfails
    rw [hfails.stages]

/-- How failures spread over the keys of an order, where `out` says what each key hands on and
`started` which of its stages it starts. -/
structure SpreadsFailures (reducer : γ → γ → γ) (order : Order (Stage γ)) (input : γ)
    (out : Key → Except ExecutionError γ) (started : Key → List (Stage γ)) : Prop where
  /-- A key fails with the first of its failed dependencies, and starts nothing. -/
  skipped : ∀ key ∈ order.keys, ∀ earlier dependency later error,
    order.dependencies key = earlier ++ dependency :: later →
    (∀ other ∈ earlier, ∃ context, out other = .ok context) → out dependency = .error error →
    out key = .error (.dependencyFailed key dependency error) ∧ started key = []
  /-- A key whose dependencies all succeeded runs its stages. -/
  runs : ∀ key ∈ order.keys, ∀ contexts, (order.dependencies key).map out = contexts.map .ok →
    RunsStages (combine reducer input contexts) key (order.values key) (out key) (started key)
  /-- Only failures of keys that come before a key keep it from running its stages. -/
  unaffected : ∀ key ∈ order.keys,
    (∀ ancestor, order.ComesBefore ancestor key → ∃ context, out ancestor = .ok context) →
    ∃ contexts : List γ, (order.dependencies key).map out = contexts.map .ok ∧
      RunsStages (combine reducer input contexts) key (order.values key) (out key) (started key)
  /-- Every failure leads back to a stage that reported one. -/
  rooted : ∀ key ∈ order.keys, ∀ error, out key = .error error →
    ∃ origin failure, error.rootCause = .stageFailed origin failure ∧
      out origin = .error (.stageFailed origin failure) ∧ order.LeadsTo origin key

section

variable {reducer : γ → γ → γ} {order : Order (Stage γ)} {input : γ}
  {out : Key → Except ExecutionError γ} {started : Key → List (Stage γ)}

theorem contexts_iff {keys : List Key} :
    (∃ contexts : List γ, keys.map out = contexts.map .ok) ↔
      ∀ key ∈ keys, ∃ context, out key = .ok context := by
  constructor
  · rintro ⟨contexts, hcontexts⟩ key hkey
    have hout : out key ∈ contexts.map .ok := hcontexts ▸ List.mem_map_of_mem hkey
    obtain ⟨context, -, hcontext⟩ := List.mem_map.mp hout
    exact ⟨context, hcontext.symm⟩
  · intro h
    induction keys with
    | nil => exact ⟨[], rfl⟩
    | cons key keys ih =>
        obtain ⟨⟨context, hcontext⟩, hrest⟩ := List.forall_mem_cons.mp h
        obtain ⟨contexts, hcontexts⟩ := ih hrest
        exact ⟨context :: contexts, by rw [List.map_cons, List.map_cons, hcontext, hcontexts]⟩

theorem contexts_or_first (out : Key → Except ExecutionError γ) (keys : List Key) :
    (∃ contexts : List γ, keys.map out = contexts.map .ok) ∨
      ∃ earlier key later error, keys = earlier ++ key :: later ∧
        (∀ other ∈ earlier, ∃ context, out other = .ok context) ∧ out key = .error error := by
  induction keys with
  | nil => exact .inl ⟨[], rfl⟩
  | cons key keys ih =>
      cases hout : out key with
      | error error => exact .inr ⟨[], key, keys, error, rfl, by simp, hout⟩
      | ok context =>
          rcases ih with ⟨contexts, hcontexts⟩ | ⟨earlier, first, later, error, rfl, hearlier, hfirst⟩
          · exact .inl ⟨context :: contexts, by rw [List.map_cons, List.map_cons, hout, hcontexts]⟩
          · exact .inr ⟨key :: earlier, first, later, error, rfl,
              List.forall_mem_cons.mpr ⟨⟨context, hout⟩, hearlier⟩, hfirst⟩

theorem gather_of_contexts {keys : List Key} {contexts : List γ}
    (h : keys.map out = contexts.map .ok) :
    gather (keys.map fun key => (key, out key)) = .ok contexts := by
  rw [gather_eq_ok_iff, List.map_map]
  exact h

theorem gather_of_first {keys earlier later : List Key} {key : Key} {error : ExecutionError}
    (hsplit : keys = earlier ++ key :: later)
    (hearlier : ∀ other ∈ earlier, ∃ context, out other = .ok context)
    (herror : out key = .error error) :
    gather (keys.map fun key => (key, out key)) = .error (key, error) := by
  rw [gather_eq_error_iff, hsplit, List.map_append, List.map_cons, herror]
  refine ⟨_, _, rfl, fun output houtput => ?_⟩
  obtain ⟨other, hother, rfl⟩ := List.mem_map.mp houtput
  exact hearlier other hother

theorem skipped_of_solves (hsolves : SolvesOutcomes reducer order input out)
    (hstarted : SolvesStarted reducer order input out started) {key : Key}
    (hkey : key ∈ order.keys) {earlier later : List Key} {dependency : Key}
    {error : ExecutionError} (hsplit : order.dependencies key = earlier ++ dependency :: later)
    (hearlier : ∀ other ∈ earlier, ∃ context, out other = .ok context)
    (herror : out dependency = .error error) :
    out key = .error (.dependencyFailed key dependency error) ∧ started key = [] := by
  have hgather := gather_of_first hsplit hearlier herror
  rw [hsolves key hkey, hstarted key hkey, keyOutcome, keyStarted, hgather]
  exact ⟨rfl, rfl⟩

theorem runs_of_solves (hsolves : SolvesOutcomes reducer order input out)
    (hstarted : SolvesStarted reducer order input out started) {key : Key}
    (hkey : key ∈ order.keys) (hreports : ∀ stage ∈ order.values key, stage.Reports)
    {contexts : List γ} (hcontexts : (order.dependencies key).map out = contexts.map .ok) :
    RunsStages (combine reducer input contexts) key (order.values key) (out key) (started key) := by
  have hgather := gather_of_contexts hcontexts
  rw [hsolves key hkey, hstarted key hkey, keyOutcome, keyStarted, hgather]
  exact runsStages _ key hreports

/-- By induction along the links: a key that fails without a failed dependency has a failed stage,
and any other failure is the one of a dependency, handed on. -/
private theorem rooted_of_solves (hwell : order.WellFormed) (hacyclic : order.Acyclic)
    (hsolves : SolvesOutcomes reducer order input out)
    (hstarted : SolvesStarted reducer order input out started)
    (hreports : ∀ key ∈ order.keys, ∀ stage ∈ order.values key, stage.Reports) :
    ∀ key ∈ order.keys, ∀ error, out key = .error error →
      ∃ origin failure, error.rootCause = .stageFailed origin failure ∧
        out origin = .error (.stageFailed origin failure) ∧ order.LeadsTo origin key := by
  obtain ⟨places, hplaces⟩ := hwell.linearize_ok_iff.mpr hacyclic
  have hmem : ∀ key, key ∈ (order.arrangedKeys places).reverse ↔ key ∈ order.keys := by
    intro key
    rw [List.mem_reverse, (hwell.arrangedKeys_perm hplaces).mem_iff]
  by_contra hunrooted
  obtain ⟨key, hkey, hlacks, hdependencies⟩ :=
    (hwell.settledKeys hplaces).exists_first
      (P := fun key => ∀ error, out key = .error error →
        ∃ origin failure, error.rootCause = .stageFailed origin failure ∧
          out origin = .error (.stageFailed origin failure) ∧ order.LeadsTo origin key)
      (by simpa only [hmem, not_forall, exists_prop] using hunrooted)
  rw [hmem] at hkey
  refine hlacks fun error herror => ?_
  rcases contexts_or_first out (order.dependencies key) with
    ⟨contexts, hcontexts⟩ | ⟨earlier, dependency, later, cause, hsplit, hearlier, hcause⟩
  · have hruns := runs_of_solves hsolves hstarted hkey (hreports key hkey) hcontexts
    obtain ⟨ran, failure, -, rfl⟩ := (hruns.error_iff error).mp herror
    exact ⟨key, failure, rfl, herror, .refl⟩
  · have hdependency : dependency ∈ order.dependencies key := by simp [hsplit]
    obtain ⟨hout, -⟩ := skipped_of_solves hsolves hstarted hkey hsplit hearlier hcause
    rw [herror, Except.error.injEq] at hout
    obtain ⟨origin, failure, hroot, horigin, hpath⟩ :=
      hdependencies dependency hdependency cause hcause
    refine ⟨origin, failure, ?_, horigin, hpath.tail hdependency⟩
    rw [hout, ExecutionError.rootCause, hroot]

private theorem spreadsFailures (hwell : order.WellFormed) (hacyclic : order.Acyclic)
    (hsolves : SolvesOutcomes reducer order input out)
    (hstarted : SolvesStarted reducer order input out started)
    (hreports : ∀ key ∈ order.keys, ∀ stage ∈ order.values key, stage.Reports) :
    SpreadsFailures reducer order input out started where
  skipped := fun key hkey earlier dependency later error hsplit hearlier herror =>
    skipped_of_solves hsolves hstarted hkey hsplit hearlier herror
  runs := fun key hkey contexts hcontexts =>
    runs_of_solves hsolves hstarted hkey (hreports key hkey) hcontexts
  unaffected := by
    intro key hkey hancestors
    obtain ⟨contexts, hcontexts⟩ :
        ∃ contexts : List γ, (order.dependencies key).map out = contexts.map .ok :=
      contexts_iff.mpr fun dependency hdependency => hancestors dependency (.single hdependency)
    exact ⟨contexts, hcontexts,
      runs_of_solves hsolves hstarted hkey (hreports key hkey) hcontexts⟩
  rooted := rooted_of_solves hwell hacyclic hsolves hstarted hreports

/-! ## What becomes of the execution -/

theorem SpreadsFailures.dependencies_ok (h : SpreadsFailures reducer order input out started)
    {key : Key} (hkey : key ∈ order.keys) {result : γ} (hok : out key = .ok result) :
    ∀ dependency ∈ order.dependencies key, ∃ context, out dependency = .ok context := by
  rcases contexts_or_first out (order.dependencies key) with
    ⟨contexts, hcontexts⟩ | ⟨earlier, first, later, error, hsplit, hearlier, herror⟩
  · exact contexts_iff.mp ⟨contexts, hcontexts⟩
  · obtain ⟨hfailed, -⟩ := h.skipped key hkey earlier first later error hsplit hearlier herror
    rw [hok] at hfailed
    cases hfailed

/-- No failure is swallowed: it reaches a key that nothing depends on. -/
theorem SpreadsFailures.exists_failed_end (hwell : order.WellFormed) (hacyclic : order.Acyclic)
    (h : SpreadsFailures reducer order input out started) {key : Key} (hkey : key ∈ order.keys)
    {error : ExecutionError} (herror : out key = .error error) :
    ∃ last ∈ order.ends, ∃ error, out last = .error error := by
  obtain ⟨places, hplaces⟩ := hwell.linearize_ok_iff.mpr hacyclic
  by_contra hnone
  have hends : ∀ last ∈ order.ends, ∃ context, out last = .ok context := by
    intro last hlast
    cases hout : out last with
    | ok context => exact ⟨context, rfl⟩
    | error error => exact absurd ⟨last, hlast, error, hout⟩ hnone
  -- What a key that goes well depends on went well, and every key leads to one of the ends.
  have hall : ∀ key ∈ order.keys, key ∈ order.keys ∧ ∃ context, out key = .ok context := by
    refine (hwell.settledKeys hplaces).of_ends hwell
      (fun last hlast => ⟨mem_keys_of_end hlast, hends last hlast⟩) ?_ ?_
    · rintro other ⟨hother, context, hcontext⟩ dependency hdependency
      exact ⟨mem_keys_of_dependency hdependency,
        h.dependencies_ok hother hcontext dependency hdependency⟩
    · intro other hother hnot
      have harranged := (hwell.arrangedKeys_perm hplaces).mem_iff.mpr hother
      exact absurd (List.mem_reverse.mpr harranged) hnot
  obtain ⟨-, context, hcontext⟩ := hall key hkey
  rw [herror] at hcontext
  cases hcontext

theorem finalOutcome_eq_error_iff (reducer : γ → γ → γ) (input : γ)
    (out : Key → Except ExecutionError γ) (ends : List Key) (error : ExecutionError) :
    finalOutcome reducer input (ends.map fun key => (key, out key)) = .error error ↔
      ∃ earlier last later, ends = earlier ++ last :: later ∧
        (∀ other ∈ earlier, ∃ context, out other = .ok context) ∧ out last = .error error := by
  rcases contexts_or_first out ends with
    ⟨contexts, hcontexts⟩ | ⟨earlier, last, later, cause, hsplit, hearlier, hcause⟩
  · rw [finalOutcome, gather_of_contexts hcontexts]
    constructor
    · rintro ⟨⟩
    · rintro ⟨earlier, last, later, rfl, -, herror⟩
      obtain ⟨context, hcontext⟩ := contexts_iff.mp ⟨contexts, hcontexts⟩ last (by simp)
      rw [herror] at hcontext
      cases hcontext
  · rw [finalOutcome, gather_of_first hsplit hearlier hcause]
    constructor
    · rintro ⟨rfl⟩
      exact ⟨earlier, last, later, hsplit, hearlier, hcause⟩
    · rintro ⟨earlier', last', later', hsplit', hearlier', herror'⟩
      have hother := gather_of_first hsplit' hearlier' herror'
      rw [gather_of_first hsplit hearlier hcause] at hother
      cases hother
      rfl

end

/-! ## Where failures come from -/

/-- Whether a failure is one of a stage in an order, or comes from one along dependencies. -/
inductive ExecutionError.FromStages (order : Order (Stage γ)) : ExecutionError → Prop where
  | stage {key error} :
      key ∈ order.keys → OfStage key (order.values key) error → FromStages order error
  | dependency (key dependency : Key) {source : ExecutionError} :
      FromStages order source → FromStages order (.dependencyFailed key dependency source)

section

variable {reducer : γ → γ → γ} {order : Order (Stage γ)} {input : γ} {error : ExecutionError}

theorem ExecutionError.FromStages.rootCause (h : error.FromStages order) :
    ∃ key ∈ order.keys, error.rootCause.OfStage key (order.values key) := by
  induction h with
  | @stage key error hkey hstage =>
    exact ⟨key, hkey, by cases hstage <;> constructor <;> assumption⟩
  | dependency key dependency _ ih => exact ih

private theorem fromStages_of_keyOutcome {key : Key} (hkey : key ∈ order.keys)
    {outputs : List (Key × Except ExecutionError γ)}
    (houtputs : ∀ output ∈ outputs, ∀ error, output.2 = .error error → error.FromStages order)
    (h : keyOutcome reducer input key (order.values key) outputs = .error error) :
    error.FromStages order := by
  rw [keyOutcome] at h
  cases hgather : gather outputs with
  | ok contexts =>
      rw [hgather] at h
      exact .stage hkey (Run.stages_ofStage h)
  | error failure =>
      obtain ⟨dependency, source⟩ := failure
      rw [hgather] at h
      cases h
      obtain ⟨earlier, later, rfl, -⟩ := gather_eq_error_iff.mp hgather
      exact .dependency key dependency (houtputs (dependency, .error source) (by simp) source rfl)

theorem SolvesOutcomes.fromStages {out : Key → Except ExecutionError γ} (hwell : order.WellFormed)
    (hacyclic : order.Acyclic) (hsolves : SolvesOutcomes reducer order input out) :
    ∀ key ∈ order.keys, ∀ error, out key = .error error → error.FromStages order := by
  obtain ⟨places, hplaces⟩ := hwell.linearize_ok_iff.mpr hacyclic
  have hmem : ∀ key, key ∈ (order.arrangedKeys places).reverse ↔ key ∈ order.keys := by
    intro key
    rw [List.mem_reverse, (hwell.arrangedKeys_perm hplaces).mem_iff]
  -- take the first key, along the links, whose failure comes from elsewhere
  by_contra hforeign
  obtain ⟨key, hkey, hlacks, hdependencies⟩ := (hwell.settledKeys hplaces).exists_first
    (P := fun key => ∀ error, out key = .error error → error.FromStages order)
    (by simpa only [hmem, not_forall, exists_prop] using hforeign)
  rw [hmem] at hkey
  refine hlacks fun error herror => ?_
  rw [hsolves key hkey] at herror
  refine fromStages_of_keyOutcome hkey (fun output houtput => ?_) herror
  obtain ⟨dependency, hdependency, rfl⟩ := List.mem_map.mp houtput
  exact hdependencies dependency hdependency

theorem runConcurrent_fromStages (hwell : order.WellFormed) (hacyclic : order.Acyclic)
    (h : (runConcurrent reducer order input).outcome = .error error) : error.FromStages order := by
  obtain ⟨out, hsolves, houtcome⟩ := runConcurrent_outcome reducer input hwell hacyclic
  rw [houtcome, finalOutcome_eq_error_iff] at h
  obtain ⟨earlier, last, later, hends, -, hlast⟩ := h
  have hend : last ∈ order.ends := by simp [hends]
  exact hsolves.fromStages hwell hacyclic last (mem_keys_of_end hend) error hlast

theorem runSequential_eq (hwell : order.WellFormed) {places : List Nat}
    (hplaces : order.linearize = .ok places) (input : γ) :
    runSequential order input =
      .entries input ((order.arrangedKeys places).map fun key => (key, order.values key)) := by
  rw [runSequential, hwell.linearEntries_eq_map hplaces]

theorem runSequential_halted (hwell : order.WellFormed) (hacyclic : order.Acyclic) {halt : Halt}
    (h : (runSequential order input).outcome = .error halt) :
    ∃ key ∈ order.keys, ∃ error : ExecutionError,
      error.OfStage key (order.values key) ∧ halt = error.inTurn := by
  obtain ⟨places, hplaces⟩ := hwell.linearize_ok_iff.mpr hacyclic
  rw [runSequential_eq hwell hplaces] at h
  obtain ⟨entry, hentry, error, hown, hhalt⟩ := Run.entries_halted h
  obtain ⟨key, hkey, rfl⟩ := List.mem_map.mp hentry
  exact ⟨key, (hwell.arrangedKeys_perm hplaces).mem_iff.mp hkey, error, hown, hhalt⟩

end

/-! ## Started stages in all schedules -/

/-- Whether the stages that a task has started, with those that it is still to start, are the ones
that its key is to start in total. -/
def Task.Accounts (key : Key) (total started : List (Stage γ)) : Task γ → Prop
  | .unspawned | .waiting => started = []
  | .ready context left => started ++ (Run.stages key context left).started = total
  | .running context stage left =>
    ∃ more, (Run.stages key context (stage :: left)).started = stage :: more ∧
      started ++ more = total
  | .finished _ => started = total

theorem Task.accounts_merged {reducer : γ → γ → γ} {input : γ} {key : Key}
    {stages : List (Stage γ)} {outputs : List (Key × Except ExecutionError γ)} :
    (Task.merged reducer input key stages outputs).Accounts key
      (keyStarted reducer input key stages outputs) [] := by
  rw [Task.merged, keyStarted]
  cases gather outputs with
  | error failure => rfl
  | ok contexts => rfl

theorem Task.accounts_start {key : Key} {context : γ} {stage : Stage γ}
    {left total started : List (Stage γ)}
    (h : (Task.ready context (stage :: left)).Accounts key total started) :
    (Task.running context stage left).Accounts key total (started ++ [stage]) := by
  have hfirst : ∃ more, (Run.stages key context (stage :: left)).started = stage :: more := by
    rw [Run.stages_cons]
    cases stage.run context <;> exact ⟨_, rfl⟩
  obtain ⟨more, hmore⟩ := hfirst
  refine ⟨more, hmore, ?_⟩
  have htotal : started ++ (Run.stages key context (stage :: left)).started = total := h
  rw [hmore] at htotal
  rw [List.append_assoc, ← htotal]
  rfl

theorem Task.accounts_afterStage {key : Key} {context : γ} {stage : Stage γ}
    {left total started : List (Stage γ)}
    (h : (Task.running context stage left).Accounts key total started) :
    (Task.afterStage key left (stage.run context)).Accounts key total started := by
  obtain ⟨more, hmore, htotal⟩ := h
  rw [Run.stages_cons] at hmore
  cases hrun : stage.run context with
  | finished next =>
      rw [hrun] at hmore
      cases hmore
      exact htotal
  | failed error =>
      rw [hrun] at hmore
      cases hmore
      exact (List.append_nil started).symm.trans htotal
  | aborted message =>
      rw [hrun] at hmore
      cases hmore
      exact (List.append_nil started).symm.trans htotal

namespace Schedule

variable {reducer : γ → γ → γ} {order : Order (Stage γ)} {input : γ} {limit : Option Nat}
  {out : Key → Except ExecutionError γ} {started : Key → List (Stage γ)}
  {state next : Schedule γ}

def Accounted (started : Key → List (Stage γ)) (state : Schedule γ) : Prop :=
  ∀ key, (state.task key).Accounts key (started key) (state.startedBy key)

theorem Accounted.move {key : Key} (h : state.Accounted started) (task : Task γ)
    (stages : List (Stage γ)) (htask : next.task = Function.update state.task key task)
    (hstarted : ∀ other,
      next.startedBy other = state.startedBy other ++ if key = other then stages else [])
    (haccounts : task.Accounts key (started key) (state.startedBy key ++ stages)) :
    next.Accounted started := by
  intro other
  rw [hstarted other, htask]
  by_cases hother : other = key
  · subst hother
    rw [Function.update_self, if_pos rfl]
    exact haccounts
  · rw [Function.update_of_ne hother, if_neg (Ne.symm hother), List.append_nil]
    exact h other

theorem Accounted.step (hsound : Sound reducer order input limit out state)
    (hruns : SolvesStarted reducer order input out started) (h : state.Accounted started)
    (hstep : Step reducer order input state next) : next.Accounted started := by
  cases hstep with
  | @spawn key rest hqueue =>
      have hnone : state.startedBy key = [] := by
        have htask : state.task key = .unspawned :=
          (hsound.unspawned_iff key).mpr (.inl (by simp [hqueue]))
        simpa [htask, Task.Accounts] using h key
      refine h.move .waiting [] rfl ?_ ?_
      · simp [startedBy, Schedule.move]
      · simpa [Task.Accounts] using hnone
  | @merge key outcome htask hdependencies =>
      have hkey : key ∈ order.keys := hsound.mem_keys (by simp [htask])
      have hnone : state.startedBy key = [] := by simpa [htask, Task.Accounts] using h key
      -- What the dependencies have handed on by now is what they hand on in every schedule.
      have houtputs := hsound.outputs_eq hdependencies
      refine h.move _ [] rfl ?_ ?_
      · simp [startedBy, Schedule.move]
      · rw [hnone, houtputs, hruns key hkey]
        exact Task.accounts_merged
  | @start key context stage left permits htask hpermit =>
      have haccounts := h key
      rw [htask] at haccounts
      exact h.move _ [stage] rfl (startedBy_append key · stage) (Task.accounts_start haccounts)
  | @complete key context stage left htask =>
      have haccounts := h key
      rw [htask] at haccounts
      refine h.move _ [] rfl ?_ ?_
      · simp [startedBy, Schedule.move]
      · rw [List.append_nil]
        exact Task.accounts_afterStage haccounts
  | @finish key context htask =>
      have haccounts := h key
      rw [htask] at haccounts
      refine h.move _ [] rfl ?_ ?_
      · simp [startedBy, Schedule.move]
      · exact haccounts
  | join outcome hqueue hnone hends => exact h

theorem Accounted.reaches (hnodup : order.keys.Nodup)
    (hsolves : SolvesOutcomes reducer order input out)
    (hruns : SolvesStarted reducer order input out started)
    (hsound : Sound reducer order input limit out state) (h : state.Accounted started)
    (hreaches : Reaches reducer order input state next) : next.Accounted started := by
  induction hreaches with
  | refl => exact h
  | tail hearlier hstep ih =>
      exact ih.step (hsound.reaches hnodup hsolves hearlier) hruns hstep

end Schedule

/-! ## The failure policy -/

/-- How a concurrent execution fails, whatever the order of its steps.  Failures spread along links
and nowhere else; the execution fails exactly when some key fails, with the failure of the first
failed key that nothing depends on; and once it has an answer, every key has handed on and started
what is said of it here. -/
theorem Order.Reachable.failures {order : Order (Stage γ)} (hreachable : order.Reachable)
    (hacyclic : order.Acyclic)
    (hreports : ∀ key ∈ order.keys, ∀ stage ∈ order.values key, stage.Reports)
    (reducer : γ → γ → γ) (input : γ) :
    ∃ (out : Key → Except ExecutionError γ) (started : Key → List (Stage γ)),
      SpreadsFailures reducer order input out started ∧
      (∀ error, (runConcurrent reducer order input).outcome = .error error ↔
        ∃ earlier last later, order.ends = earlier ++ last :: later ∧
          (∀ other ∈ earlier, ∃ context, out other = .ok context) ∧ out last = .error error) ∧
      ((∃ error, (runConcurrent reducer order input).outcome = .error error) ↔
        ∃ key ∈ order.keys, ∃ error, out key = .error error) ∧
      (runConcurrent reducer order input).started.Perm (order.keys.flatMap started) ∧
      ∀ (limit : Option Nat) (state : Schedule γ),
        Schedule.Reaches reducer order input (.initial order limit) state →
        (∀ key outcome, state.task key = .finished outcome →
          outcome = out key ∧ state.startedBy key = started key) ∧
        ∀ answer, state.answer = some answer →
          answer = (runConcurrent reducer order input).outcome ∧
          ∀ key ∈ order.keys, state.task key = .finished (out key) := by
  have hwell := hreachable.wellFormed
  obtain ⟨out, started, hsolves, hruns, houtcome, hstarted⟩ :=
    runConcurrent_runs reducer input hwell hacyclic
  have hspreads := spreadsFailures hwell hacyclic hsolves hruns hreports
  have herror : ∀ error, (runConcurrent reducer order input).outcome = .error error ↔
      ∃ earlier last later, order.ends = earlier ++ last :: later ∧
        (∀ other ∈ earlier, ∃ context, out other = .ok context) ∧ out last = .error error := by
    intro error
    rw [houtcome]
    exact finalOutcome_eq_error_iff reducer input out order.ends error
  refine ⟨out, started, hspreads, herror, ?_, hstarted, ?_⟩
  · constructor
    · rintro ⟨error, hfails⟩
      obtain ⟨earlier, last, later, hends, -, hlast⟩ := (herror error).mp hfails
      exact ⟨last, mem_keys_of_end (by simp [hends]), error, hlast⟩
    · rintro ⟨key, hkey, error, hfails⟩
      obtain ⟨last, hlast, cause, hcause⟩ :=
        hspreads.exists_failed_end hwell hacyclic hkey hfails
      rcases contexts_or_first out order.ends with
        ⟨contexts, hcontexts⟩ | ⟨earlier, first, later, error, hfirst⟩
      · obtain ⟨context, hcontext⟩ := contexts_iff.mp ⟨contexts, hcontexts⟩ last hlast
        rw [hcause] at hcontext
        cases hcontext
      · exact ⟨error, (herror error).mpr ⟨earlier, first, later, hfirst⟩⟩
  · intro limit state hreaches
    have hinitial : Schedule.Sound reducer order input limit out (.initial order limit) :=
      .initial hwell hacyclic
    have hsound := hinitial.reaches hwell.keys_nodup hsolves hreaches
    have haccounted : state.Accounted started :=
      Schedule.Accounted.reaches hwell.keys_nodup hsolves hruns hinitial (fun key => rfl) hreaches
    refine ⟨fun key outcome hfinished => ?_, fun answer hanswer => ?_⟩
    · have hpromises := hsound.promises key
      have haccounts := haccounted key
      rw [hfinished] at hpromises haccounts
      exact ⟨hpromises.1, haccounts⟩
    · obtain ⟨hfinal, hends⟩ := hsound.answer answer hanswer
      refine ⟨hfinal.trans houtcome.symm, fun key hkey => ?_⟩
      exact hsound.finished (hsound.all_finished hwell hacyclic hends key hkey)

theorem failures_through_two_keys :
    ∃ order : Order (Stage Nat), order.Reachable ∧ order.Acyclic ∧
      (∀ key ∈ order.keys, ∀ stage ∈ order.values key, stage.Reports) ∧
      order.ends = [.constant "d"] ∧
      ∃ (out : Key → Except ExecutionError Nat) (started : Key → List (Stage Nat)),
        SpreadsFailures (· + ·) order 0 out started ∧
        out (.constant "d") = .error (.dependencyFailed (.constant "d") (.constant "b")
          (.dependencyFailed (.constant "b") (.constant "a")
            (.stageFailed (.constant "a") ⟨"boom"⟩))) := by
  let edits : List (Edit (Stage Nat)) :=
    [.register (.key (.constant "a")) (.ofEdit ⟨0, 0⟩ "one" fun _ => .error "boom"),
      .item (.key (.constant "b")) [(.after, .key (.constant "a"))]
        (.ofEdit ⟨0, 1⟩ "two" fun n => .ok (n + 2)),
      .register (.key (.constant "c")) (.ofEdit ⟨0, 2⟩ "three" fun n => .ok (n + 3)),
      .item (.key (.constant "d")) [(.after, .key (.constant "c")), (.after, .key (.constant "b"))]
        (.ofEdit ⟨0, 3⟩ "four" fun n => .ok (n + 4))]
  have hreachable := (Reachable.empty (V := Stage Nat)).edited edits
  have hacyclic := hreachable.wellFormed.linearize_ok_iff.mp ⟨[0, 1, 2, 3], by cbv⟩
  have hchanges : Changes Stage.Reports .empty (Order.empty.edited edits) :=
    edited_changes .empty edits (by simp [edits, Edit.values, Stage.reports_ofEdit])
  have hreports : ∀ key ∈ (Order.empty.edited edits).keys,
      ∀ stage ∈ (Order.empty.edited edits).values key, stage.Reports :=
    fun key _ stage hstage => hchanges.holds.values hstage
  have hends : (Order.empty.edited edits).ends = [.constant "d"] := by cbv
  obtain ⟨out, started, hspreads, herror, -⟩ := hreachable.failures hacyclic hreports (· + ·) 0
  refine ⟨_, hreachable, hacyclic, hreports, hends, out, started, hspreads, ?_⟩
  obtain ⟨earlier, last, later, hsplit, -, hlast⟩ := (herror _).mp (by cbv)
  rw [hends, eq_comm, List.append_eq_singleton_iff] at hsplit
  rcases hsplit with ⟨-, hsplit⟩ | ⟨-, hsplit⟩
  · cases hsplit
    exact hlast
  · cases hsplit

end Runbook
