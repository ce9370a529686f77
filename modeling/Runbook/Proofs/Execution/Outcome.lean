import Runbook.Execution.Executor
import Runbook.Proofs.Order.Folding

/-!
# Outcomes of concurrent executions

What each key hands on, as an equation in terms of the keys that it depends on: their contexts,
merged from left to right, go through the stages of the key one after another.  The concurrent
execution of an order without loops computes the solution of these equations.
-/

namespace Runbook

open Runbook.Order

variable {γ : Type}

/-! ## Stages of a key -/

theorem Run.stages_cons (key : Key) (context : γ) (stage : Stage γ) (stages : List (Stage γ)) :
    Run.stages key context (stage :: stages) =
      match stage.run context with
      | .finished next =>
        ⟨(Run.stages key next stages).outcome, stage :: (Run.stages key next stages).started, 0⟩
      | outcome => ⟨outcome.inTask key, [stage], 0⟩ := by
  rw [Run.stages, runStages]
  cases stage.run context <;> rfl

private theorem runStages_ended (context : γ) (stages : List (Stage γ)) :
    (∃ result, (runStages context stages).1 = .finished result) ∨
      ∃ stage ∈ stages, ∃ reached, stage.run reached = (runStages context stages).1 := by
  induction stages generalizing context with
  | nil => exact .inl ⟨context, rfl⟩
  | cons stage stages ih =>
      rw [runStages]
      cases hrun : stage.run context with
      | finished next =>
          rcases ih next with hfinished | ⟨last, hlast, hended⟩
          · exact .inl hfinished
          · exact .inr ⟨last, List.mem_cons_of_mem _ hlast, hended⟩
      | failed failure => exact .inr ⟨stage, List.mem_cons_self, context, hrun⟩
      | aborted message => exact .inr ⟨stage, List.mem_cons_self, context, hrun⟩

inductive ExecutionError.OfStage (key : Key) (stages : List (Stage γ)) : ExecutionError → Prop where
  | failed {stage context failure} :
      stage ∈ stages → stage.run context = .failed failure →
      OfStage key stages (.stageFailed key failure)
  | aborted {stage context message} :
      stage ∈ stages → stage.run context = .aborted message →
      OfStage key stages (.taskAborted key message)

theorem Run.stages_ofStage {key : Key} {context : γ} {stages : List (Stage γ)}
    {error : ExecutionError} (h : (Run.stages key context stages).outcome = .error error) :
    error.OfStage key stages := by
  change (runStages context stages).1.inTask key = .error error at h
  rcases runStages_ended context stages with ⟨result, hfinished⟩ | ⟨stage, hstage, reached, hended⟩
  · rw [hfinished] at h
    cases h
  · rw [← hended] at h
    cases hrun : stage.run reached with
    | finished next =>
        rw [hrun] at h
        cases h
    | failed failure =>
        rw [hrun] at h
        cases h
        exact .failed hstage hrun
    | aborted message =>
        rw [hrun] at h
        cases h
        exact .aborted hstage hrun

/-! ## Stages in turn -/

def ExecutionError.inTurn : ExecutionError → Halt
  | .taskAborted .. => .unwound
  | error => .reported error

theorem StageOutcome.inTurn_eq (key : Key) (outcome : StageOutcome γ) :
    outcome.inTurn key = (outcome.inTask key).mapError ExecutionError.inTurn := by
  cases outcome <;> rfl

theorem Run.entries_cons (context : γ) (key : Key) (stages : List (Stage γ))
    (entries : List (Key × List (Stage γ))) :
    Run.entries context ((key, stages) :: entries) =
      match (Run.stages key context stages).outcome with
      | .error error => ⟨.error error.inTurn, (Run.stages key context stages).started, 0⟩
      | .ok next =>
        let others := Run.entries next entries
        { others with started := (Run.stages key context stages).started ++ others.started } := by
  rw [Run.entries, Run.stages]
  simp only [StageOutcome.inTurn_eq]
  cases (runStages context stages).1.inTask key <;> rfl

theorem Run.entries_halted {context : γ} {entries : List (Key × List (Stage γ))} {halt : Halt}
    (h : (Run.entries context entries).outcome = .error halt) :
    ∃ entry ∈ entries, ∃ error : ExecutionError,
      error.OfStage entry.1 entry.2 ∧ halt = error.inTurn := by
  induction entries generalizing context with
  | nil => cases h
  | cons entry entries ih =>
      obtain ⟨key, stages⟩ := entry
      rw [Run.entries_cons] at h
      cases hfirst : (Run.stages key context stages).outcome with
      | error own =>
          simp only [hfirst] at h
          cases h
          exact ⟨(key, stages), List.mem_cons_self, own, Run.stages_ofStage hfirst, rfl⟩
      | ok next =>
          simp only [hfirst] at h
          obtain ⟨later, hlater, hown⟩ := ih h
          exact ⟨later, List.mem_cons_of_mem _ hlater, hown⟩

/-! ## Equations -/

def gather : List (Key × Except ExecutionError γ) → Except (Key × ExecutionError) (List γ)
  | [] => .ok []
  | (_, .ok context) :: rest => (gather rest).map (context :: ·)
  | (key, .error error) :: _ => .error (key, error)

def combine (reducer : γ → γ → γ) (input : γ) : List γ → γ
  | [] => input
  | first :: rest => rest.foldl reducer first

/-- What a key hands on, given what its dependencies hand on. -/
def keyOutcome (reducer : γ → γ → γ) (input : γ) (key : Key) (stages : List (Stage γ))
    (outputs : List (Key × Except ExecutionError γ)) : Except ExecutionError γ :=
  match gather outputs with
  | .error (dependency, error) => .error (.dependencyFailed key dependency error)
  | .ok contexts => (Run.stages key (combine reducer input contexts) stages).outcome

def finalOutcome (reducer : γ → γ → γ) (input : γ)
    (outputs : List (Key × Except ExecutionError γ)) : Except ExecutionError γ :=
  match gather outputs with
  | .error (_, error) => .error error
  | .ok contexts => .ok (combine reducer input contexts)

/-- Whether every key of an order hands on what its equation says. -/
def SolvesOutcomes (reducer : γ → γ → γ) (order : Order (Stage γ)) (input : γ)
    (out : Key → Except ExecutionError γ) : Prop :=
  ∀ key ∈ order.keys, out key =
    keyOutcome reducer input key (order.values key)
      ((order.dependencies key).map fun dependency => (dependency, out dependency))

/-! ## Merging -/

def mergeNext (reducer : γ → γ → γ) : Option γ → γ → Option γ
  | none, context => some context
  | some earlier, context => some (reducer earlier context)

private theorem foldl_mergeNext_some (reducer : γ → γ → γ) (earlier : γ) (contexts : List γ) :
    contexts.foldl (mergeNext reducer) (some earlier) =
      some (contexts.foldl reducer earlier) := by
  induction contexts generalizing earlier with
  | nil => rfl
  | cons context contexts ih => exact ih _

theorem getD_foldl_mergeNext (reducer : γ → γ → γ) (input : γ) (contexts : List γ) :
    (contexts.foldl (mergeNext reducer) none).getD input = combine reducer input contexts := by
  cases contexts with
  | nil => rfl
  | cons first rest =>
      rw [List.foldl_cons, mergeNext, foldl_mergeNext_some]
      rfl

theorem Merged.add_context (reducer : γ → γ → γ) (merged : Merged γ) (context : γ) :
    (merged.add reducer context).context = mergeNext reducer merged.context context := by
  rw [Merged.add]
  split <;> next hcontext => rw [hcontext]; rfl

def KeyRun.output (task : KeyRun γ) : Key × Except ExecutionError γ :=
  (task.key, task.run.outcome)

theorem mergeRuns_eq (reducer : γ → γ → γ) (merged : Merged γ) (tasks : List (KeyRun γ)) :
    match gather (tasks.map KeyRun.output) with
    | .error failure => (mergeRuns reducer merged tasks).2 = some failure
    | .ok contexts =>
      (mergeRuns reducer merged tasks).2 = none ∧
        (mergeRuns reducer merged tasks).1.context =
          contexts.foldl (mergeNext reducer) merged.context := by
  induction tasks generalizing merged with
  | nil => exact ⟨rfl, rfl⟩
  | cons task tasks ih =>
      rw [List.map_cons, KeyRun.output, mergeRuns]
      cases houtcome : task.run.outcome with
      | error error => rfl
      | ok context =>
          have hrest := ih (merged.add reducer context)
          rw [gather]
          cases hgather : gather (tasks.map KeyRun.output) with
          | error failure => simpa [hgather, Except.map] using hrest
          | ok contexts =>
              simpa [hgather, Except.map, Merged.add_context] using hrest

theorem KeyRun.of_eq (reducer : γ → γ → γ) (input : γ) (key : Key) (stages : List (Stage γ))
    (dependencies : List (KeyRun γ)) :
    ∃ merges, KeyRun.of reducer input key stages dependencies =
      match gather (dependencies.map KeyRun.output) with
      | .error (dependency, error) =>
        ⟨key, .error (.dependencyFailed key dependency error), [], merges⟩
      | .ok contexts =>
        ⟨key, { Run.stages key (combine reducer input contexts) stages with merges }⟩ := by
  have hmerge := mergeRuns_eq reducer .nothing dependencies
  refine ⟨(mergeRuns reducer .nothing dependencies).1.merges, ?_⟩
  rw [KeyRun.of]
  cases hgather : gather (dependencies.map KeyRun.output) with
  | error failure =>
      rw [hgather] at hmerge
      cases hruns : mergeRuns reducer .nothing dependencies with
      | mk merged found =>
          rw [hruns] at hmerge
          cases hmerge
          rfl
  | ok contexts =>
      rw [hgather] at hmerge
      cases hruns : mergeRuns reducer .nothing dependencies with
      | mk merged found =>
          rw [hruns] at hmerge
          obtain ⟨hfound, hcontext⟩ := hmerge
          have hmerged : merged.context = contexts.foldl (mergeNext reducer) none := hcontext
          cases hfound
          simp only [← getD_foldl_mergeNext, ← hmerged]

theorem KeyRun.of_output (reducer : γ → γ → γ) (input : γ) (key : Key) (stages : List (Stage γ))
    (dependencies : List (KeyRun γ)) :
    (KeyRun.of reducer input key stages dependencies).output =
      (key, keyOutcome reducer input key stages (dependencies.map KeyRun.output)) := by
  obtain ⟨merges, hof⟩ := KeyRun.of_eq reducer input key stages dependencies
  rw [hof, keyOutcome]
  cases gather (dependencies.map KeyRun.output) <;> rfl

def keyStarted (reducer : γ → γ → γ) (input : γ) (key : Key) (stages : List (Stage γ))
    (outputs : List (Key × Except ExecutionError γ)) : List (Stage γ) :=
  match gather outputs with
  | .error _ => []
  | .ok contexts => (Run.stages key (combine reducer input contexts) stages).started

theorem KeyRun.of_started (reducer : γ → γ → γ) (input : γ) (key : Key) (stages : List (Stage γ))
    (dependencies : List (KeyRun γ)) :
    (KeyRun.of reducer input key stages dependencies).run.started =
      keyStarted reducer input key stages (dependencies.map KeyRun.output) := by
  obtain ⟨merges, hof⟩ := KeyRun.of_eq reducer input key stages dependencies
  rw [hof, keyStarted]
  cases gather (dependencies.map KeyRun.output) <;> rfl

/-! ## Executions -/

def SolvesStarted (reducer : γ → γ → γ) (order : Order (Stage γ)) (input : γ)
    (out : Key → Except ExecutionError γ) (started : Key → List (Stage γ)) : Prop :=
  ∀ key ∈ order.keys, started key =
    keyStarted reducer input key (order.values key)
      ((order.dependencies key).map fun dependency => (dependency, out dependency))

/-- The equations of an order without loops have a solution, and the concurrent execution gives the
result that belongs to it and starts the stages that belong to it. -/
theorem runConcurrent_runs (reducer : γ → γ → γ) {order : Order (Stage γ)} (input : γ)
    (hwell : order.WellFormed) (hacyclic : order.Acyclic) :
    ∃ (out : Key → Except ExecutionError γ) (started : Key → List (Stage γ)),
      SolvesOutcomes reducer order input out ∧ SolvesStarted reducer order input out started ∧
      (runConcurrent reducer order input).outcome =
        finalOutcome reducer input (order.ends.map fun key => (key, out key)) ∧
      (runConcurrent reducer order input).started.Perm (order.keys.flatMap started) := by
  obtain ⟨places, hplaces⟩ := hwell.linearize_ok_iff.mpr hacyclic
  have hperm := hwell.arrangedKeys_perm hplaces
  have : Nonempty (KeyRun γ) := ⟨⟨default, .ofError (.unknownOperation "")⟩⟩
  obtain ⟨result, hsolved⟩ := (hwell.settledKeys hplaces).exists_result
    fun key dependencies => KeyRun.of reducer input key (order.values key) dependencies
  have hresult : ∀ key ∈ order.keys, result key =
      KeyRun.of reducer input key (order.values key) ((order.dependencies key).map result) := by
    intro key hkey
    exact hsolved key (List.mem_reverse.mpr (hperm.mem_iff.mpr hkey))
  have hkeyed : ∀ key ∈ order.keys, (result key).output = (key, (result key).run.outcome) := by
    intro key hkey
    have hname : (result key).key = key := by
      rw [hresult key hkey]
      exact congrArg Prod.fst (KeyRun.of_output reducer input key (order.values key) _)
    rw [KeyRun.output, hname]
  have hinputs : ∀ key, ((order.dependencies key).map result).map KeyRun.output =
      (order.dependencies key).map fun dependency =>
        (dependency, (result dependency).run.outcome) := by
    intro key
    rw [List.map_map]
    exact List.map_congr_left fun dependency h => hkeyed dependency (mem_keys_of_dependency h)
  refine ⟨fun key => (result key).run.outcome, fun key => (result key).run.started, ?_, ?_, ?_, ?_⟩
  · intro key hkey
    have houtput := congrArg Prod.snd (KeyRun.of_output reducer input key (order.values key)
      ((order.dependencies key).map result))
    rw [← hresult key hkey, hinputs key] at houtput
    exact houtput
  · intro key hkey
    have hstarted := KeyRun.of_started reducer input key (order.values key)
      ((order.dependencies key).map result)
    rw [← hresult key hkey, hinputs key] at hstarted
    exact hstarted
  · have hmerge := mergeRuns_eq reducer .nothing (order.ends.map result)
    rw [List.map_map] at hmerge
    rw [← List.map_congr_left fun key h => hkeyed key (mem_keys_of_end h)]
    rw [runConcurrent, hwell.visit_eq hplaces hresult, finalOutcome]
    dsimp only
    change match gather (order.ends.map fun key => (result key).output) with
      | .error failure => _
      | .ok contexts => _ at hmerge
    cases hgather : gather (order.ends.map fun key => (result key).output) with
    | error failure =>
        rw [hgather] at hmerge
        simp only at hmerge
        simp only [hmerge]
    | ok contexts =>
        rw [hgather] at hmerge
        obtain ⟨hfound, hcontext⟩ := hmerge
        simp only [hfound, hcontext]
        rw [← getD_foldl_mergeNext]
        rfl
  · rw [runConcurrent, hwell.visit_eq hplaces hresult]
    dsimp only
    rw [List.flatMap_map]
    exact hperm.flatMap_right _

theorem runConcurrent_outcome (reducer : γ → γ → γ) {order : Order (Stage γ)} (input : γ)
    (hwell : order.WellFormed) (hacyclic : order.Acyclic) :
    ∃ out : Key → Except ExecutionError γ,
      SolvesOutcomes reducer order input out ∧
      (runConcurrent reducer order input).outcome =
        finalOutcome reducer input (order.ends.map fun key => (key, out key)) := by
  obtain ⟨out, -, hsolves, -, houtcome, -⟩ :=
    runConcurrent_runs reducer input hwell hacyclic
  exact ⟨out, hsolves, houtcome⟩

end Runbook
