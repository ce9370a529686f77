import Runbook.Proofs.Execution.Failure
import Runbook.Proofs.Order.Visits

/-!
# Chains

An order whose keys wait for at most one key each, and in which just one key has nothing that waits
for it, is a chain: its arrangement is the chain itself.  There is nothing to merge along a chain,
so running its keys side by side is running them one after another, up to how a failure is wrapped
on its way.
-/

namespace Runbook

/-! ## Arrangements of chains -/

namespace Order

variable {V : Type} {order : Order V}

structure IsChain (order : Order V) : Prop where
  single : ∀ key ∈ order.keys, ∀ first ∈ order.dependencies key,
    ∀ second ∈ order.dependencies key, first = second
  last : ∃! last, last ∈ order.keys ∧ ∀ key ∈ order.keys, last ∉ order.dependencies key

/-- Keys, latest first, each of which waits for just the one before it. -/
inductive Chained (order : Order V) : List Key → Prop where
  | nil : Chained order []
  | cons {key keys} :
      order.dependencies key = keys.head?.toList → Chained order keys →
      Chained order (key :: keys)

theorem WellFormed.dependencies_nodup (hwell : order.WellFormed) (key : Key) :
    (order.dependencies key).Nodup := by
  rw [dependencies]
  cases order.place? key with
  | none => exact List.nodup_nil
  | some place =>
      refine (order.dependenciesAt_nodup place).filterMap fun first second source hfirst hsecond => ?_
      exact hwell.place_unique hfirst hsecond

private theorem dependencies_of_not_mem {key : Key} (hkey : key ∉ order.keys) :
    order.dependencies key = [] := by
  rw [dependencies, (place?_eq_none_iff order key).mpr hkey]

theorem WellFormed.mem_ends_iff (hwell : order.WellFormed) {key : Key} :
    key ∈ order.ends ↔
      key ∈ order.keys ∧ ∀ other ∈ order.keys, key ∉ order.dependencies other := by
  rw [hwell.mem_ends]
  refine and_congr_right fun hkey => ⟨fun hnone other _ hwaits => ?_, fun hnone => ?_⟩
  · obtain ⟨first, second, hfirst, hsecond, hlinked⟩ := hwell.mem_dependencies.mp hwaits
    exact hnone ⟨other, hlinked.joins hfirst hsecond⟩
  · by_contra hjoins
    have hend : key ∉ order.ends := fun hend => (hwell.mem_ends.mp hend).2 hjoins
    obtain ⟨dependent, hdependent, hwaits⟩ := hwell.exists_dependent hkey hend
    exact hnone dependent hdependent hwaits

theorem WellFormed.ends_nodup (hwell : order.WellFormed) : order.ends.Nodup :=
  hwell.keys_nodup.sublist order.ends_sublist

theorem eq_singleton_of_nodup {members : List Key} {member : Key} (hnodup : members.Nodup)
    (hmember : member ∈ members) (hsame : ∀ other ∈ members, other = member) :
    members = [member] := by
  by_contra hne
  rcases (hnodup.ne_singleton_iff member).mp hne with rfl | ⟨other, hother, hdiffers⟩
  · exact absurd hmember List.not_mem_nil
  · exact hdiffers (hsame other hother)

theorem IsChain.dependencies_eq (hchain : order.IsChain) (hwell : order.WellFormed)
    {key dependency : Key} (h : dependency ∈ order.dependencies key) :
    order.dependencies key = [dependency] := by
  have hkey : key ∈ order.keys := by
    by_contra hkey
    simp [dependencies_of_not_mem hkey] at h
  exact eq_singleton_of_nodup (hwell.dependencies_nodup key) h fun other hother =>
    hchain.single key hkey other hother dependency h

theorem IsChain.ends_eq (hchain : order.IsChain) (hwell : order.WellFormed) :
    ∃ last, order.ends = [last] := by
  obtain ⟨last, hlast, hunique⟩ := hchain.last
  exact ⟨last, eq_singleton_of_nodup hwell.ends_nodup (hwell.mem_ends_iff.mpr hlast)
    fun other hother => hunique other (hwell.mem_ends_iff.mp hother)⟩

theorem IsChain.dependencies_toList (hchain : order.IsChain) (hwell : order.WellFormed)
    (key : Key) : order.dependencies key = (order.dependencies key).head?.toList := by
  cases hdependencies : order.dependencies key with
  | nil => rfl
  | cons dependency rest =>
      rw [← hdependencies, hchain.dependencies_eq hwell (hdependencies ▸ List.mem_cons_self)]
      rfl

theorem IsChain.dependencies_length (hchain : order.IsChain) (hwell : order.WellFormed)
    (key : Key) : (order.dependencies key).length ≤ 1 := by
  rw [hchain.dependencies_toList hwell key]
  exact Option.length_toList_le

theorem WellFormed.isChain_iff (hwell : order.WellFormed) :
    order.IsChain ↔ (∀ key ∈ order.keys, (order.dependencies key).length ≤ 1) ∧
      ∃ last, order.ends = [last] := by
  constructor
  · intro hchain
    exact ⟨fun key _ => hchain.dependencies_length hwell key, hchain.ends_eq hwell⟩
  · rintro ⟨hsingle, last, hends⟩
    refine ⟨fun key hkey first hfirst second hsecond => ?_, last, ?_, fun other hother => ?_⟩
    · match hdependencies : order.dependencies key, hsingle key hkey with
      | [], _ => simp [hdependencies] at hfirst
      | [dependency], _ =>
          rw [hdependencies, List.mem_singleton] at hfirst hsecond
          exact hfirst.trans hsecond.symm
    · exact hwell.mem_ends_iff.mp (hends ▸ List.mem_cons_self)
    · exact List.mem_singleton.mp (hends ▸ hwell.mem_ends_iff.mpr hother)

theorem SettledKeys.nodup {keys : List Key} (h : SettledKeys order keys) : keys.Nodup := by
  refine h.pairwise.imp ?_
  rintro key _ hunrelated rfl
  exact hunrelated .refl

theorem SettledKeys.latest {key : Key} {keys : List Key} (h : SettledKeys order (key :: keys)) :
    ∀ other ∈ key :: keys, key ∉ order.dependencies other := by
  cases h with
  | cons _ hnew hdependencies hsettled =>
      intro other hother hwaits
      rcases List.mem_cons.mp hother with rfl | hother
      · exact hnew (hdependencies _ hwaits)
      · exact hnew (hsettled.closed hother _ hwaits)

theorem SettledKeys.chained (hwell : order.WellFormed) (hchain : order.IsChain) {keys : List Key}
    (h : SettledKeys order keys)
    (hwaited : ∀ key ∈ keys.tail, ∃ dependent ∈ keys, key ∈ order.dependencies dependent) :
    Chained order keys := by
  induction h with
  | nil => exact .nil
  | @cons key keys hkey hnew hdependencies hsettled ih =>
      cases keys with
      | nil =>
          refine .cons (List.eq_nil_iff_forall_not_mem.mpr fun dependency h => ?_) .nil
          exact absurd (hdependencies dependency h) List.not_mem_nil
      | cons next keys =>
          obtain ⟨dependent, hdependent, hwaits⟩ := hwaited next List.mem_cons_self
          -- nothing below `next` waits for it, so it is `key` that does
          have hfirst : dependent = key := by
            rcases List.mem_cons.mp hdependent with rfl | hbelow
            · rfl
            · exact absurd hwaits (hsettled.latest dependent hbelow)
          rw [hfirst] at hwaits
          have hsingle := hchain.dependencies_eq hwell hwaits
          refine .cons hsingle (ih fun other hother => ?_)
          obtain ⟨user, huser, huses⟩ := hwaited other (List.mem_cons_of_mem _ hother)
          rcases List.mem_cons.mp huser with rfl | huser
          · rw [hsingle, List.mem_singleton] at huses
            subst huses
            exact absurd hother (List.nodup_cons.mp hsettled.nodup).1
          · exact ⟨user, huser, huses⟩

theorem WellFormed.latest_mem_ends (hwell : order.WellFormed) {places : List Nat}
    (hplaces : order.linearize = .ok places) {latest : Key} {keys : List Key}
    (hkeys : (order.arrangedKeys places).reverse = latest :: keys) : latest ∈ order.ends := by
  have hmem : ∀ key, key ∈ latest :: keys ↔ key ∈ order.keys := by
    intro key
    rw [← hkeys, List.mem_reverse, (hwell.arrangedKeys_perm hplaces).mem_iff]
  have hsettled := hkeys ▸ hwell.settledKeys hplaces
  exact hwell.mem_ends_iff.mpr ⟨(hmem latest).mp List.mem_cons_self, fun other hother =>
    hsettled.latest other ((hmem other).mpr hother)⟩

theorem IsChain.chained (hchain : order.IsChain) (hwell : order.WellFormed) {places : List Nat}
    (hplaces : order.linearize = .ok places) :
    Chained order (order.arrangedKeys places).reverse := by
  have hsettled := hwell.settledKeys hplaces
  have hmem : ∀ key, key ∈ (order.arrangedKeys places).reverse ↔ key ∈ order.keys := by
    intro key
    rw [List.mem_reverse, (hwell.arrangedKeys_perm hplaces).mem_iff]
  obtain ⟨last, hends⟩ := hchain.ends_eq hwell
  refine hsettled.chained hwell hchain fun key hkey => ?_
  cases hkeys : (order.arrangedKeys places).reverse with
  | nil => simp [hkeys] at hkey
  | cons latest keys =>
      have hlatest := hwell.latest_mem_ends hplaces hkeys
      rw [hkeys] at hsettled hmem hkey
      have hnotEnd : key ∉ order.ends := by
        intro hend
        rw [hends, List.mem_singleton] at hlatest hend
        exact (List.nodup_cons.mp hsettled.nodup).1 (hlatest ▸ hend ▸ hkey)
      obtain ⟨dependent, hdependent, hwaits⟩ :=
        hwell.exists_dependent ((hmem key).mp (List.mem_cons_of_mem _ hkey)) hnotEnd
      exact ⟨dependent, (hmem dependent).mpr hdependent, hwaits⟩

end Order

open Runbook.Order

variable {γ : Type}

/-! ## One key after the others -/

theorem Run.stages_mapError (key : Key) (context : γ) (stages : List (Stage γ)) :
    (Run.stages key context stages).outcome.mapError (·.rootCause.inTurn) =
      (Run.stages key context stages).outcome.mapError ExecutionError.inTurn := by
  cases houtcome : (Run.stages key context stages).outcome with
  | ok result => rfl
  | error error => cases Run.stages_ofStage houtcome <;> rfl

theorem Run.entries_concat_error {input : γ} {entries : List (Key × List (Stage γ))} {halt : Halt}
    (h : (Run.entries input entries).outcome = .error halt) (entry : Key × List (Stage γ)) :
    Run.entries input (entries ++ [entry]) = Run.entries input entries := by
  induction entries generalizing input with
  | nil => cases h
  | cons first entries ih =>
      obtain ⟨key, stages⟩ := first
      rw [List.cons_append, Run.entries_cons, Run.entries_cons]
      rw [Run.entries_cons] at h
      cases hfirst : (Run.stages key input stages).outcome with
      | error own => rfl
      | ok context =>
          simp only [hfirst] at h
          simp only [ih h]

theorem Run.entries_concat_ok {input context : γ} {entries : List (Key × List (Stage γ))}
    (h : (Run.entries input entries).outcome = .ok context) (key : Key)
    (stages : List (Stage γ)) :
    Run.entries input (entries ++ [(key, stages)]) =
      ⟨(Run.stages key context stages).outcome.mapError ExecutionError.inTurn,
        (Run.entries input entries).started ++ (Run.stages key context stages).started, 0⟩ := by
  induction entries generalizing input with
  | nil =>
      cases h
      rw [List.nil_append, Run.entries_cons]
      cases (Run.stages key context stages).outcome <;> simp [Run.entries, Except.mapError]
  | cons first entries ih =>
      obtain ⟨other, earlier⟩ := first
      rw [List.cons_append, Run.entries_cons, Run.entries_cons]
      rw [Run.entries_cons] at h
      cases hfirst : (Run.stages other input earlier).outcome with
      | error own =>
          simp only [hfirst] at h
          cases h
      | ok next =>
          simp only [hfirst] at h
          simp only [ih h, List.append_assoc]

/-! ## Tasks without merges -/

def handedOn (input : γ) : Option (KeyRun γ) → Except ExecutionError γ
  | none => .ok input
  | some dependency => dependency.run.outcome

theorem mergeRuns_singleton (reducer : γ → γ → γ) (task : KeyRun γ) :
    mergeRuns reducer .nothing [task] =
      match task.run.outcome with
      | .ok context => (⟨some context, 0⟩, none)
      | .error error => (.nothing, some (task.key, error)) := by
  rw [mergeRuns]
  cases task.run.outcome <;> rfl

theorem KeyRun.of_handedOn {input context : γ} {dependency : Option (KeyRun γ)}
    (h : handedOn input dependency = .ok context) (reducer : γ → γ → γ) (key : Key)
    (stages : List (Stage γ)) :
    KeyRun.of reducer input key stages dependency.toList =
      ⟨key, Run.stages key context stages⟩ := by
  cases dependency with
  | none =>
      cases h
      rfl
  | some dependency =>
      have houtcome : dependency.run.outcome = .ok context := h
      rw [Option.toList_some, KeyRun.of, mergeRuns_singleton, houtcome]
      rfl

theorem KeyRun.of_handedOn_error {input : γ} {dependency : Option (KeyRun γ)}
    {error : ExecutionError} (h : handedOn input dependency = .error error)
    (reducer : γ → γ → γ) (key : Key) (stages : List (Stage γ)) :
    ∃ name, KeyRun.of reducer input key stages dependency.toList =
      ⟨key, .error (.dependencyFailed key name error), [], 0⟩ := by
  cases dependency with
  | none => cases h
  | some dependency =>
      have houtcome : dependency.run.outcome = .error error := h
      refine ⟨dependency.key, ?_⟩
      rw [Option.toList_some, KeyRun.of, mergeRuns_singleton, houtcome]
      rfl

theorem KeyRun.of_unmerged (reducer other : γ → γ → γ) (input : γ) (key : Key)
    (stages : List (Stage γ)) (dependency : Option (KeyRun γ)) :
    KeyRun.of other input key stages dependency.toList =
      KeyRun.of reducer input key stages dependency.toList := by
  cases dependency with
  | none => rfl
  | some dependency =>
      simp only [Option.toList_some, KeyRun.of, mergeRuns_singleton]

theorem Order.Chained.runs {reducer : γ → γ → γ} {order : Order (Stage γ)} {input : γ}
    {result : Key → KeyRun γ} {keys : List Key} (h : order.Chained keys)
    (hresult : ∀ key ∈ keys, result key =
      KeyRun.of reducer input key (order.values key) ((order.dependencies key).map result)) :
    Run.entries input (keys.reverse.map fun key => (key, order.values key)) =
        ⟨(handedOn input (keys.head?.map result)).mapError (·.rootCause.inTurn),
          keys.reverse.flatMap fun key => (result key).run.started, 0⟩ ∧
      ∀ key ∈ keys, (result key).run.merges = 0 := by
  induction h with
  | nil => exact ⟨rfl, by simp⟩
  | @cons key keys hdependencies hchained ih =>
      obtain ⟨hkey, hresult⟩ := List.forall_mem_cons.mp hresult
      obtain ⟨hentries, hmerges⟩ := ih hresult
      rw [hdependencies, ← Option.toList_map] at hkey
      rw [List.reverse_cons, List.map_append, List.map_singleton, List.flatMap_append,
        List.flatMap_singleton]
      have houtcome := congrArg Run.outcome hentries
      cases hreceived : handedOn input (keys.head?.map result) with
      | ok context =>
          have hrun : (result key).run = Run.stages key context (order.values key) := by
            rw [hkey, KeyRun.of_handedOn hreceived]
          rw [hreceived] at houtcome
          rw [Run.entries_concat_ok houtcome, hentries, List.head?_cons, Option.map_some, handedOn,
            hrun, Run.stages_mapError]
          exact ⟨rfl, List.forall_mem_cons.mpr ⟨by rw [hrun]; rfl, hmerges⟩⟩
      | error error =>
          obtain ⟨dependency, hskipped⟩ :=
            KeyRun.of_handedOn_error hreceived reducer key (order.values key)
          rw [hreceived] at houtcome
          rw [Run.entries_concat_error houtcome, hentries, hreceived, List.head?_cons,
            Option.map_some, handedOn, hkey, hskipped, List.append_nil]
          exact ⟨rfl, List.forall_mem_cons.mpr ⟨by rw [hkey, hskipped], hmerges⟩⟩

/-! ## Schedules without merges -/

theorem combine_unmerged {contexts : List γ} (h : contexts.length ≤ 1) (reducer other : γ → γ → γ)
    (input : γ) : combine other input contexts = combine reducer input contexts := by
  match contexts, h with
  | [], _ => rfl
  | [context], _ => rfl

theorem gather_length {outputs : List (Key × Except ExecutionError γ)} {contexts : List γ}
    (h : gather outputs = .ok contexts) : contexts.length = outputs.length := by
  simpa using (congrArg List.length (gather_eq_ok_iff.mp h)).symm

theorem Task.merged_unmerged {outputs : List (Key × Except ExecutionError γ)}
    (h : outputs.length ≤ 1) (reducer other : γ → γ → γ) (input : γ) (key : Key)
    (stages : List (Stage γ)) :
    Task.merged other input key stages outputs = Task.merged reducer input key stages outputs := by
  rw [Task.merged, Task.merged]
  cases hgather : gather outputs with
  | error failure => rfl
  | ok contexts =>
      simp only [combine_unmerged (gather_length hgather ▸ h) reducer other]

private theorem finalOutcome_unmerged {outputs : List (Key × Except ExecutionError γ)}
    (h : outputs.length ≤ 1) (reducer other : γ → γ → γ) (input : γ) :
    finalOutcome other input outputs = finalOutcome reducer input outputs := by
  rw [finalOutcome, finalOutcome]
  cases hgather : gather outputs with
  | error failure => rfl
  | ok contexts =>
      simp only [combine_unmerged (gather_length hgather ▸ h) reducer other]

theorem Schedule.Step.unmerged {order : Order (Stage γ)} {reducer : γ → γ → γ} {input : γ}
    {state next : Schedule γ} (hsingle : ∀ key, (order.dependencies key).length ≤ 1)
    (hends : order.ends.length ≤ 1) (h : Step reducer order input state next)
    (other : γ → γ → γ) : Step other order input state next := by
  cases h with
  | spawn hqueue => exact .spawn hqueue
  | @merge key outcome hwaiting hdependencies =>
      rw [← Task.merged_unmerged (by simpa using hsingle key) reducer other]
      exact .merge outcome hwaiting hdependencies
  | start hready hpermit => exact .start hready hpermit
  | complete hrunning => exact .complete hrunning
  | finish hready => exact .finish hready
  | join outcome hqueue hnone hfinished =>
      rw [← finalOutcome_unmerged (by simpa using hends) reducer other]
      exact .join outcome hqueue hnone hfinished

/-! ## Executors on chains -/

theorem Order.IsChain.runs {order : Order (Stage γ)} (hchain : order.IsChain)
    (hwell : order.WellFormed) (hacyclic : order.Acyclic) (reducer : γ → γ → γ) (input : γ) :
    (runSequential order input).outcome =
        (runConcurrent reducer order input).outcome.mapError (·.rootCause.inTurn) ∧
      (runSequential order input).started = (runConcurrent reducer order input).started ∧
      (runConcurrent reducer order input).merges = 0 ∧
      ∀ other, runConcurrent other order input = runConcurrent reducer order input := by
  obtain ⟨places, hplaces⟩ := hwell.linearize_ok_iff.mpr hacyclic
  obtain ⟨last, hends⟩ := hchain.ends_eq hwell
  obtain ⟨result, hresult, -⟩ := hwell.exists_solution hplaces (KeyRun.of reducer input)
  have hmem : ∀ key, key ∈ (order.arrangedKeys places).reverse ↔ key ∈ order.keys := by
    intro key
    rw [List.mem_reverse, (hwell.arrangedKeys_perm hplaces).mem_iff]
  obtain ⟨hentries, hmerges⟩ := (hchain.chained hwell hplaces).runs fun key hkey =>
    hresult key ((hmem key).mp hkey)
  have hlatest : (order.arrangedKeys places).reverse.head? = some last := by
    cases hkeys : (order.arrangedKeys places).reverse with
    | nil =>
        have hlast := (hmem last).mpr (mem_keys_of_end (hends ▸ List.mem_cons_self))
        simp [hkeys] at hlast
    | cons latest keys =>
        have hend := hwell.latest_mem_ends hplaces hkeys
        rw [hends, List.mem_singleton] at hend
        rw [hend, List.head?_cons]
  rw [hlatest, List.reverse_reverse] at hentries
  -- the tasks are the same for all reducers, and so is the only context at the end
  have hconcurrent : ∀ other, runConcurrent other order input =
      ⟨(result last).run.outcome,
        (order.arrangedKeys places).flatMap fun key => (result key).run.started, 0⟩ := by
    intro other
    have hsolves : order.Solves (KeyRun.of other input) result := by
      intro key hkey
      rw [hresult key hkey, hchain.dependencies_toList hwell key, ← Option.toList_map]
      exact KeyRun.of_unmerged other reducer input key _ _
    have hnone : (((order.arrangedKeys places).map result).map fun task =>
        task.run.merges).sum = 0 := by
      refine List.sum_eq_zero fun count hcount => ?_
      simp only [List.map_map, List.mem_map] at hcount
      obtain ⟨key, hkey, rfl⟩ := hcount
      exact hmerges key (List.mem_reverse.mpr hkey)
    rw [runConcurrent, hwell.visit_eq hplaces hsolves, hends, List.map_singleton]
    dsimp only
    rw [mergeRuns_singleton, List.flatMap_map]
    cases (result last).run.outcome with
    | error error => exact congrArg (Run.mk _ _) hnone
    | ok context => exact congrArg (Run.mk _ _) hnone
  rw [runSequential_eq hwell hplaces, hconcurrent reducer, hentries]
  exact ⟨rfl, rfl, rfl, hconcurrent⟩

/-- Running a chain one key after another and running its keys side by side come to the same: both
start the same stages and hand on the same context, or both report the failure of one stage, or one
stage breaks off, which unwinds the one run and is the root cause of the failure of the other.
There is no third case if all stages report.  Nothing is ever merged, so neither the runs nor the
steps of any schedule depend on the reducer. -/
theorem Order.Reachable.runs_chain {order : Order (Stage γ)} (hreachable : order.Reachable)
    (hacyclic : order.Acyclic) (hchain : order.IsChain) (reducer : γ → γ → γ) (input : γ) :
    ((∃ context, (runSequential order input).outcome = .ok context ∧
        (runConcurrent reducer order input).outcome = .ok context) ∨
      (∃ error, (runConcurrent reducer order input).outcome = .error error ∧
        ∃ key ∈ order.keys, ∃ stage ∈ order.values key, ∃ context failure,
          stage.run context = .failed failure ∧ error.rootCause = .stageFailed key failure ∧
          (runSequential order input).outcome = .error (.reported error.rootCause)) ∨
      ∃ error, (runConcurrent reducer order input).outcome = .error error ∧
        ∃ key ∈ order.keys, ∃ stage ∈ order.values key, ∃ context message,
          stage.run context = .aborted message ∧ error.rootCause = .taskAborted key message ∧
          (runSequential order input).outcome = .error .unwound) ∧
    (runSequential order input).started = (runConcurrent reducer order input).started ∧
    (runConcurrent reducer order input).merges = 0 ∧
    (∀ other, runConcurrent other order input = runConcurrent reducer order input) ∧
    (∀ other state next, Schedule.Step other order input state next ↔
      Schedule.Step reducer order input state next) ∧
    ∀ (limit : Option Nat) (state : Schedule γ),
      Schedule.Reaches reducer order input (.initial order limit) state →
      ∀ answer, state.answer = some answer →
        answer = (runConcurrent reducer order input).outcome := by
  have hwell := hreachable.wellFormed
  obtain ⟨houtcome, hstarted, hmerges, hreducers⟩ := hchain.runs hwell hacyclic reducer input
  refine ⟨?_, hstarted, hmerges, hreducers, fun other state next => ?_, ?_⟩
  · cases hconcurrent : (runConcurrent reducer order input).outcome with
    | ok context => exact .inl ⟨context, by rw [houtcome, hconcurrent]; rfl, rfl⟩
    | error error =>
        have hsequential : (runSequential order input).outcome = .error error.rootCause.inTurn := by
          rw [houtcome, hconcurrent]
          rfl
        obtain ⟨key, hkey, hroot⟩ := (runConcurrent_fromStages hwell hacyclic hconcurrent).rootCause
        generalize hcause : error.rootCause = cause at hroot
        rw [hcause] at hsequential
        cases hroot with
        | failed hstage hrun =>
            exact .inr (.inl ⟨error, rfl, key, hkey, _, hstage, _, _, hrun, hcause,
              hcause ▸ hsequential⟩)
        | aborted hstage hrun =>
            exact .inr (.inr ⟨error, rfl, key, hkey, _, hstage, _, _, hrun, hcause, hsequential⟩)
  · have hends : order.ends.length ≤ 1 := by
      obtain ⟨last, hlast⟩ := hchain.ends_eq hwell
      rw [hlast, List.length_singleton]
    have hsingle := hchain.dependencies_length hwell
    exact ⟨fun hstep => hstep.unmerged hsingle hends reducer,
      fun hstep => hstep.unmerged hsingle hends other⟩
  · intro limit state hreaches answer hanswer
    obtain ⟨out, hsolves, hfinal⟩ := runConcurrent_outcome reducer input hwell hacyclic
    have hsound : state.Sound reducer order input limit out :=
      (Schedule.Sound.initial hwell hacyclic).reaches hwell.keys_nodup hsolves hreaches
    rw [hfinal]
    exact (hsound.answer answer hanswer).1

theorem runs_chain_of_three :
    ∃ order : Order (Stage Nat), order.Reachable ∧ order.Acyclic ∧ order.IsChain ∧
      (runSequential order 1).outcome = .ok 8 ∧
      (∀ reducer, (runConcurrent reducer order 1).outcome = .ok 8) ∧
      (runSequential order 0).outcome =
        .error (.reported (.stageFailed (.constant "b") ⟨"boom"⟩)) ∧
      (∀ reducer, ∃ error, (runConcurrent reducer order 0).outcome = .error error ∧
        error.rootCause = .stageFailed (.constant "b") ⟨"boom"⟩ ∧
        (runConcurrent reducer order 0).started.map (·.name) = ["one", "two"]) ∧
      (runSequential order 2).outcome = .error .unwound ∧
      ∀ reducer, ∃ error, (runConcurrent reducer order 2).outcome = .error error ∧
        error.rootCause = .taskAborted (.constant "b") "bang" := by
  let edits : List (Edit (Stage Nat)) :=
    [.item (.key (.constant "c")) [(.after, .key (.constant "b"))]
        (.ofEdit ⟨0, 0⟩ "four" fun n => .ok (n + 4)),
      .item (.key (.constant "b")) [(.after, .key (.constant "a"))]
        (.ofEdit ⟨0, 1⟩ "two" fun n => if n = 1 then .error "boom" else .ok (n + 1)),
      .item (.key (.constant "b")) [(.after, .key (.constant "a"))]
        ⟨⟨0, 2⟩, "three", fun n => if n = 4 then .aborted "bang" else .finished (n + 1)⟩,
      .register (.key (.constant "a")) (.ofEdit ⟨0, 3⟩ "one" fun n => .ok (n + 1))]
  have hreachable := (Reachable.empty (V := Stage Nat)).edited edits
  have hwell := hreachable.wellFormed
  have hacyclic := hwell.linearize_ok_iff.mp ⟨[2, 0, 1], by cbv⟩
  have hsingle : (Order.empty.edited edits).keys.all
      (fun key => decide (((Order.empty.edited edits).dependencies key).length ≤ 1)) = true := by
    cbv
  have hchain : (Order.empty.edited edits).IsChain := hwell.isChain_iff.mpr
    ⟨fun key hkey => of_decide_eq_true (List.all_eq_true.mp hsingle key hkey),
      .constant "c", by cbv⟩
  -- the reducer makes no difference, so any one will do to run the chain
  have hreducer (input : Nat) (reducer : Nat → Nat → Nat) :
      runConcurrent reducer (Order.empty.edited edits) input =
        runConcurrent (· + ·) (Order.empty.edited edits) input :=
    (hreachable.runs_chain hacyclic hchain (· + ·) input).2.2.2.1 reducer
  refine ⟨_, hreachable, hacyclic, hchain, by cbv, fun reducer => ?_, by cbv, fun reducer => ?_,
    by cbv, fun reducer => ?_⟩
  · rw [hreducer 1 reducer]
    cbv
  · rw [hreducer 0 reducer]
    exact ⟨.dependencyFailed (.constant "c") (.constant "b")
      (.stageFailed (.constant "b") ⟨"boom"⟩), by cbv, rfl, by cbv⟩
  · rw [hreducer 2 reducer]
    exact ⟨.dependencyFailed (.constant "c") (.constant "b")
      (.taskAborted (.constant "b") "bang"), by cbv, rfl⟩

end Runbook
