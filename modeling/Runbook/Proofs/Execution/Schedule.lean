import Runbook.Proofs.Execution.Outcome
import Runbook.Proofs.Order.Linearization

/-!
# Schedules

Concurrent executions as steps of tasks.  Tasks are spawned in a linear arrangement; a task waits
for the tasks of all dependencies of its key, merges what they hand on, and runs its stages one after
another, each of which takes a permit when there is a limit.  Steps of different tasks come in any
order.  No order of steps changes what a key hands on or what the execution answers.
-/

namespace Runbook

open Runbook.Order

variable {γ : Type}

/-! ## Tasks -/

inductive Task (γ : Type) where
  | unspawned
  | waiting
  | ready (context : γ) (left : List (Stage γ))
  | running (context : γ) (stage : Stage γ) (left : List (Stage γ))
  | finished (outcome : Except ExecutionError γ)

namespace Task

def merged (reducer : γ → γ → γ) (input : γ) (key : Key) (stages : List (Stage γ))
    (outputs : List (Key × Except ExecutionError γ)) : Task γ :=
  match gather outputs with
  | .error (dependency, error) => .finished (.error (.dependencyFailed key dependency error))
  | .ok contexts => .ready (combine reducer input contexts) stages

def afterStage (key : Key) (left : List (Stage γ)) : StageOutcome γ → Task γ
  | .finished context => .ready context left
  | .failed error => .finished (.error (.stageFailed key error))
  | .aborted message => .finished (.error (.taskAborted key message))

def isRunning : Task γ → Bool
  | .running .. => true
  | _ => false

def isFinished : Task γ → Bool
  | .finished _ => true
  | _ => false

def isMerged : Task γ → Bool
  | .unspawned | .waiting => false
  | _ => true

end Task

/-! ## States -/

/-- A state of a concurrent execution: the keys without a task yet, the tasks, the free permits if
there is a limit, the stages started so far, and the answer once there is one. -/
structure Schedule (γ : Type) where
  unspawned : List Key
  task : Key → Task γ
  permits : Option Nat
  started : List (Key × Stage γ)
  answer : Option (Except ExecutionError γ)

def Order.spawnOrder (order : Order (Stage γ)) : List Key :=
  match order.arrange.1 with
  | .ok places => order.arrangedKeys places
  | .error _ => []

def takePermit : Option Nat → Option (Option Nat)
  | none => some none
  | some 0 => none
  | some (free + 1) => some (some free)

private theorem takePermit_eq {permits taken : Option Nat} (h : takePermit permits = some taken) :
    taken.map (· + 1) = permits := by
  match permits, h with
  | none, rfl => rfl
  | some (free + 1), rfl => rfl

namespace Schedule

def initial (order : Order (Stage γ)) (limit : Option Nat) : Schedule γ :=
  ⟨order.spawnOrder, fun _ => .unspawned, limit, [], none⟩

def move (state : Schedule γ) (key : Key) (task : Task γ) : Schedule γ :=
  { state with task := Function.update state.task key task }

def inProgress (order : Order (Stage γ)) (state : Schedule γ) : Nat :=
  order.keys.countP fun key => (state.task key).isRunning

def startedBy (state : Schedule γ) (key : Key) : List (Stage γ) :=
  (state.started.filter (·.1 = key)).map (·.2)

/-- One step of an execution. -/
inductive Step (reducer : γ → γ → γ) (order : Order (Stage γ)) (input : γ) :
    Schedule γ → Schedule γ → Prop where
  | spawn {state key rest} :
      state.unspawned = key :: rest →
      Step reducer order input state ({ state with unspawned := rest }.move key .waiting)
  | merge {state key} (outcome : Key → Except ExecutionError γ) :
      state.task key = .waiting →
      (∀ dependency ∈ order.dependencies key,
        state.task dependency = .finished (outcome dependency)) →
      Step reducer order input state (state.move key (.merged reducer input key (order.values key)
        ((order.dependencies key).map fun dependency => (dependency, outcome dependency))))
  | start {state key context stage left permits} :
      state.task key = .ready context (stage :: left) →
      takePermit state.permits = some permits →
      Step reducer order input state
        ({ state with permits := permits, started := state.started ++ [(key, stage)] }.move key
          (.running context stage left))
  | complete {state key context stage left} :
      state.task key = .running context stage left →
      Step reducer order input state ({ state with permits := state.permits.map (· + 1) }.move key
        (.afterStage key left (stage.run context)))
  | finish {state key context} :
      state.task key = .ready context [] →
      Step reducer order input state (state.move key (.finished (.ok context)))
  | join {state} (outcome : Key → Except ExecutionError γ) :
      state.unspawned = [] →
      state.answer = none →
      (∀ key ∈ order.ends, state.task key = .finished (outcome key)) →
      Step reducer order input state { state with
        answer := some (finalOutcome reducer input
          (order.ends.map fun key => (key, outcome key))) }

abbrev Reaches (reducer : γ → γ → γ) (order : Order (Stage γ)) (input : γ) :
    Schedule γ → Schedule γ → Prop :=
  Relation.ReflTransGen (Step reducer order input)

/-! ## Moves of one task -/

variable {state : Schedule γ} {key : Key}

private theorem move_task_self (task : Task γ) : (state.move key task).task key = task :=
  Function.update_self ..

private theorem move_task_of_ne {other : Key} (hne : other ≠ key) (task : Task γ) :
    (state.move key task).task other = state.task other :=
  Function.update_of_ne hne ..

private theorem countP_update {keys : List Key} {holds : Key → Bool} (hnodup : keys.Nodup)
    (hkey : key ∈ keys) (value : Bool) :
    keys.countP (Function.update holds key value) + (holds key).toNat =
      keys.countP holds + value.toNat := by
  have hperm := List.perm_cons_erase hkey
  have hsame : (keys.erase key).countP (Function.update holds key value) =
      (keys.erase key).countP holds := by
    refine List.countP_congr fun other hother => ?_
    rw [Function.update_of_ne ((hnodup.mem_erase_iff).mp hother).1]
  rw [hperm.countP_eq, hperm.countP_eq, List.countP_cons, List.countP_cons, hsame,
    Function.update_self]
  cases holds key <;> cases value <;> simp

private theorem inProgress_move {order : Order (Stage γ)} (hnodup : order.keys.Nodup)
    (hkey : key ∈ order.keys) (task : Task γ) :
    (state.move key task).inProgress order + (state.task key).isRunning.toNat =
      state.inProgress order + task.isRunning.toNat := by
  have hmoved : (fun other => ((state.move key task).task other).isRunning) =
      Function.update (fun other => (state.task other).isRunning) key task.isRunning := by
    funext other
    by_cases hother : other = key
    · rw [hother, move_task_self, Function.update_self]
    · rw [move_task_of_ne hother, Function.update_of_ne hother]
  rw [inProgress, hmoved]
  exact countP_update hnodup hkey _

theorem startedBy_append (key other : Key) (stage : Stage γ) :
    startedBy { state with started := state.started ++ [(key, stage)] } other =
      state.startedBy other ++ if key = other then [stage] else [] := by
  by_cases hsame : key = other <;> simp [startedBy, hsame]

end Schedule

/-! ## What tasks promise -/

/-- What the stages that a task has left lead to, and which stages it has started, given what its
key hands on and its stages. -/
def Task.Promises (key : Key) (out : Except ExecutionError γ) (stages started : List (Stage γ)) :
    Task γ → Prop
  | .unspawned | .waiting => started = []
  | .ready context left => (Run.stages key context left).outcome = out ∧ started ++ left = stages
  | .running context stage left =>
    (Run.stages key context (stage :: left)).outcome = out ∧ started ++ left = stages
  | .finished outcome => outcome = out ∧ started <+: stages

theorem Task.promises_merged (reducer : γ → γ → γ) (input : γ) (key : Key)
    (stages : List (Stage γ)) (outputs : List (Key × Except ExecutionError γ)) :
    (Task.merged reducer input key stages outputs).Promises key
      (keyOutcome reducer input key stages outputs) stages [] := by
  rw [Task.merged, keyOutcome]
  cases gather outputs with
  | error failure => exact ⟨rfl, List.nil_prefix⟩
  | ok contexts => exact ⟨rfl, rfl⟩

theorem Task.promises_afterStage {key : Key} {out : Except ExecutionError γ}
    {stages started left : List (Stage γ)} {context : γ} {stage : Stage γ}
    (h : (Task.running context stage left).Promises key out stages started) :
    (Task.afterStage key left (stage.run context)).Promises key out stages started := by
  obtain ⟨hout, hstages⟩ := h
  rw [Run.stages_cons] at hout
  cases hrun : stage.run context with
  | finished context =>
      rw [hrun] at hout
      exact ⟨hout, hstages⟩
  | failed error =>
      rw [hrun] at hout
      exact ⟨hout, ⟨left, hstages⟩⟩
  | aborted message =>
      rw [hrun] at hout
      exact ⟨hout, ⟨left, hstages⟩⟩

theorem Task.Promises.within {key : Key} {out : Except ExecutionError γ}
    {stages started : List (Stage γ)} {task : Task γ} (h : task.Promises key out stages started) :
    started <+: stages := by
  cases task with
  | unspawned => simp_all [Task.Promises]
  | waiting => simp_all [Task.Promises]
  | ready context left => exact ⟨left, h.2⟩
  | running context stage left => exact ⟨left, h.2⟩
  | finished outcome => exact h.2

namespace Schedule

/-- What holds in every state that an execution reaches, where `out` solves the equations of the
order. -/
structure Sound (reducer : γ → γ → γ) (order : Order (Stage γ)) (input : γ) (limit : Option Nat)
    (out : Key → Except ExecutionError γ) (state : Schedule γ) : Prop where
  queue_nodup : state.unspawned.Nodup
  queue_keys : ∀ key ∈ state.unspawned, key ∈ order.keys
  unspawned_iff : ∀ key, state.task key = .unspawned ↔ key ∈ state.unspawned ∨ key ∉ order.keys
  promises : ∀ key,
    (state.task key).Promises key (out key) (order.values key) (state.startedBy key)
  merged : ∀ key, (state.task key).isMerged →
    ∀ dependency ∈ order.dependencies key, (state.task dependency).isFinished
  permits : state.permits.map (· + state.inProgress order) = limit
  answer : ∀ answer, state.answer = some answer →
    answer = finalOutcome reducer input (order.ends.map fun key => (key, out key)) ∧
    ∀ key ∈ order.ends, (state.task key).isFinished

section

variable {reducer : γ → γ → γ} {order : Order (Stage γ)} {input : γ} {limit : Option Nat}
  {out : Key → Except ExecutionError γ} {state next : Schedule γ} {key : Key}

theorem Sound.finished (h : Sound reducer order input limit out state)
    (hfinished : (state.task key).isFinished) : state.task key = .finished (out key) := by
  have hpromises := h.promises key
  cases htask : state.task key with
  | finished outcome =>
      rw [htask] at hpromises
      rw [hpromises.1]
  | unspawned => simp [htask, Task.isFinished] at hfinished
  | waiting => simp [htask, Task.isFinished] at hfinished
  | ready => simp [htask, Task.isFinished] at hfinished
  | running => simp [htask, Task.isFinished] at hfinished

theorem Sound.outputs_eq (h : Sound reducer order input limit out state) {keys : List Key}
    {outcome : Key → Except ExecutionError γ}
    (hfinished : ∀ key ∈ keys, state.task key = .finished (outcome key)) :
    keys.map (fun key => (key, outcome key)) = keys.map fun key => (key, out key) := by
  refine List.map_congr_left fun key hkey => ?_
  have hdone : (state.task key).isFinished = true := by
    rw [hfinished key hkey]
    rfl
  have hsame := h.finished hdone
  rw [hfinished key hkey] at hsame
  rw [Task.finished.inj hsame]

theorem Sound.mem_keys (h : Sound reducer order input limit out state)
    (hspawned : state.task key ≠ .unspawned) : key ∈ order.keys := by
  by_contra hkey
  exact hspawned ((h.unspawned_iff key).mpr (.inr hkey))

theorem Sound.erase_spawned (h : Sound reducer order input limit out state)
    (hspawned : state.task key ≠ .unspawned) : state.unspawned = state.unspawned.erase key := by
  refine (List.erase_of_not_mem fun hqueued => hspawned ?_).symm
  exact (h.unspawned_iff key).mpr (.inl hqueued)

theorem Sound.move (hnodup : order.keys.Nodup) (h : Sound reducer order input limit out state)
    (task : Task γ) (stages : List (Stage γ)) (hkey : key ∈ order.keys)
    (htask : next.task = Function.update state.task key task)
    (hqueue : next.unspawned = state.unspawned.erase key) (hanswer : next.answer = state.answer)
    (hstarted : ∀ other,
      next.startedBy other = state.startedBy other ++ if key = other then stages else [])
    (hunfinished : (state.task key).isFinished = false) (hspawned : task ≠ .unspawned)
    (hpromises : task.Promises key (out key) (order.values key) (state.startedBy key ++ stages))
    (hmerged : task.isMerged →
      ∀ dependency ∈ order.dependencies key, (state.task dependency).isFinished)
    (hpermits : next.permits.map (· + task.isRunning.toNat) =
      state.permits.map (· + (state.task key).isRunning.toNat)) :
    Sound reducer order input limit out next := by
  have hself : next.task key = task := by rw [htask, Function.update_self]
  have hothers : ∀ other, other ≠ key → next.task other = state.task other := by
    intro other hother
    rw [htask, Function.update_of_ne hother]
  have hfinished : ∀ other, (state.task other).isFinished → (next.task other).isFinished := by
    intro other hother
    rw [hothers]
    · exact hother
    · rintro rfl
      simp [hunfinished] at hother
  refine ⟨hqueue ▸ h.queue_nodup.erase key, ?_, ?_, ?_, ?_, ?_, ?_⟩
  · rw [hqueue]
    exact fun other hother => h.queue_keys other (List.mem_of_mem_erase hother)
  · intro other
    rw [hqueue, h.queue_nodup.mem_erase_iff]
    by_cases hother : other = key
    · subst hother
      rw [hself]
      exact iff_of_false hspawned (by simp [hkey])
    · rw [hothers other hother, h.unspawned_iff other]
      simp [hother]
  · intro other
    rw [hstarted other]
    by_cases hother : other = key
    · subst hother
      simpa [hself] using hpromises
    · rw [hothers other hother, if_neg (Ne.symm hother), List.append_nil]
      exact h.promises other
  · intro other hother dependency hdependency
    apply hfinished
    by_cases hsame : other = key
    · subst hsame
      exact hmerged (hself ▸ hother) dependency hdependency
    · exact h.merged other (hothers other hsame ▸ hother) dependency hdependency
  · have hcount : next.inProgress order + (state.task key).isRunning.toNat =
        state.inProgress order + task.isRunning.toNat := by
      rw [← inProgress_move hnodup hkey task, inProgress, inProgress, htask]
      rfl
    rw [← h.permits]
    cases hnext : next.permits <;> cases hfree : state.permits <;>
      simp only [hnext, hfree, Option.map_some, Option.map_none, Option.some.injEq,
        reduceCtorEq] at hpermits ⊢
    omega
  · intro answer hsome
    obtain ⟨hfinal, hends⟩ := h.answer answer (hanswer ▸ hsome)
    exact ⟨hfinal, fun other hother => hfinished other (hends other hother)⟩

theorem Sound.step (hnodup : order.keys.Nodup) (hsolves : SolvesOutcomes reducer order input out)
    (h : Sound reducer order input limit out state)
    (hstep : Step reducer order input state next) :
    Sound reducer order input limit out next := by
  cases hstep with
  | @spawn key rest hqueue =>
      have hqueued : key ∈ state.unspawned := by simp [hqueue]
      have htask : state.task key = .unspawned := (h.unspawned_iff key).mpr (.inl hqueued)
      have hkey : key ∈ order.keys := h.queue_keys key hqueued
      have hstarted : state.startedBy key = [] := by
        simpa [htask, Task.Promises] using h.promises key
      refine h.move hnodup .waiting [] hkey rfl ?_ rfl ?_ ?_ ?_ ?_ ?_ ?_
      · simp [Schedule.move, hqueue]
      · simp [startedBy, Schedule.move]
      · simp [htask, Task.isFinished]
      · simp
      · simpa [Task.Promises] using hstarted
      · simp [Task.isMerged]
      · rw [htask]
        rfl
  | @merge key outcome htask hdependencies =>
      have hspawned : state.task key ≠ .unspawned := by simp [htask]
      have hkey : key ∈ order.keys := h.mem_keys hspawned
      have hfinished : ∀ dependency ∈ order.dependencies key,
          (state.task dependency).isFinished := by
        intro dependency hdependency
        rw [hdependencies dependency hdependency]
        rfl
      have houtputs := h.outputs_eq hdependencies
      have hstarted : state.startedBy key = [] := by
        simpa [htask, Task.Promises] using h.promises key
      refine h.move hnodup _ [] hkey rfl (h.erase_spawned hspawned) rfl ?_ ?_ ?_ ?_
        (fun _ => hfinished) ?_
      · simp [startedBy, Schedule.move]
      · simp [htask, Task.isFinished]
      · rw [Task.merged]
        split <;> simp
      · rw [houtputs, hsolves key hkey, hstarted]
        exact Task.promises_merged ..
      · rw [htask, Task.merged]
        split <;> rfl
  | @start key context stage left permits htask hpermit =>
      have hspawned : state.task key ≠ .unspawned := by simp [htask]
      have hpromises := h.promises key
      rw [htask] at hpromises
      refine h.move hnodup _ [stage] (h.mem_keys hspawned) rfl
        (h.erase_spawned hspawned) rfl (startedBy_append key · stage) ?_ ?_ ?_ (fun _ => ?_) ?_
      · simp [htask, Task.isFinished]
      · simp
      · exact ⟨hpromises.1, by simpa using hpromises.2⟩
      · exact h.merged key (by simp [htask, Task.isMerged])
      · rw [htask, ← takePermit_eq hpermit]
        cases permits <;> rfl
  | @complete key context stage left htask =>
      have hspawned : state.task key ≠ .unspawned := by simp [htask]
      have hpromises := h.promises key
      rw [htask] at hpromises
      refine h.move hnodup _ [] (h.mem_keys hspawned) rfl
        (h.erase_spawned hspawned) rfl ?_ ?_ ?_ ?_ (fun _ => ?_) ?_
      · simp [startedBy, Schedule.move]
      · simp [htask, Task.isFinished]
      · cases stage.run context <;> simp [Task.afterStage]
      · rw [List.append_nil]
        exact Task.promises_afterStage hpromises
      · exact h.merged key (by simp [htask, Task.isMerged])
      · rw [htask]
        cases stage.run context <;> cases state.permits <;> rfl
  | @finish key context htask =>
      have hspawned : state.task key ≠ .unspawned := by simp [htask]
      have hpromises := h.promises key
      rw [htask] at hpromises
      refine h.move hnodup _ [] (h.mem_keys hspawned) rfl
        (h.erase_spawned hspawned) rfl ?_ ?_ ?_ ?_ (fun _ => ?_) ?_
      · simp [startedBy, Schedule.move]
      · simp [htask, Task.isFinished]
      · simp
      · rw [List.append_nil]
        exact ⟨hpromises.1, ⟨[], hpromises.2⟩⟩
      · exact h.merged key (by simp [htask, Task.isMerged])
      · rw [htask]
        rfl
  | join outcome hqueue hnone hends =>
      refine ⟨h.queue_nodup, h.queue_keys, h.unspawned_iff, h.promises, h.merged, h.permits, ?_⟩
      intro answer hanswer
      have hfinished : ∀ key ∈ order.ends, (state.task key).isFinished := by
        intro key hkey
        rw [hends key hkey]
        rfl
      rw [← h.outputs_eq hends]
      exact ⟨(Option.some.inj hanswer).symm, hfinished⟩

private theorem spawnOrder_perm (hwell : order.WellFormed) (hacyclic : order.Acyclic) :
    order.spawnOrder.Perm order.keys := by
  obtain ⟨places, hplaces⟩ := hwell.linearize_ok_iff.mpr hacyclic
  rw [Order.spawnOrder, hwell.arrange_eq, hplaces]
  exact hwell.arrangedKeys_perm hplaces

theorem Sound.initial (hwell : order.WellFormed) (hacyclic : order.Acyclic) :
    Sound reducer order input limit out (.initial order limit) := by
  have hperm := spawnOrder_perm hwell hacyclic
  refine ⟨hperm.nodup_iff.mpr hwell.keys_nodup, fun key => hperm.mem_iff.mp, ?_, ?_, ?_, ?_, ?_⟩
  · intro key
    have : key ∈ order.spawnOrder ∨ key ∉ order.keys := by
      rw [hperm.mem_iff]
      exact Decidable.em _
    exact iff_of_true rfl this
  · exact fun key => rfl
  · intro key hmerged
    cases hmerged
  · have hnone : (Schedule.initial order limit).inProgress order = 0 := by
      simp [inProgress, Schedule.initial, Task.isRunning]
    rw [hnone]
    cases limit <;> rfl
  · intro answer hanswer
    cases hanswer

theorem Sound.reaches (hnodup : order.keys.Nodup) (hsolves : SolvesOutcomes reducer order input out)
    (h : Sound reducer order input limit out state)
    (hreaches : Reaches reducer order input state next) :
    Sound reducer order input limit out next := by
  induction hreaches with
  | refl => exact h
  | tail _ hstep ih => exact ih.step hnodup hsolves hstep

/-! ## Progress -/

private theorem exists_running (hrunning : state.inProgress order ≠ 0) :
    ∃ key context stage left, state.task key = .running context stage left := by
  obtain ⟨key, -, hkey⟩ := List.countP_pos_iff.mp (Nat.pos_of_ne_zero hrunning)
  cases htask : state.task key with
  | running context stage left => exact ⟨key, context, stage, left, htask⟩
  | unspawned => simp [htask, Task.isRunning] at hkey
  | waiting => simp [htask, Task.isRunning] at hkey
  | ready => simp [htask, Task.isRunning] at hkey
  | finished => simp [htask, Task.isRunning] at hkey

/-- While all permits are taken, some stage is running, so permits come back. -/
theorem Sound.step_of_ready (h : Sound reducer order input limit out state)
    (hlimit : ∀ n, limit = some n → 1 ≤ n) {context : γ} {left : List (Stage γ)}
    (htask : state.task key = .ready context left) :
    ∃ next, Step reducer order input state next := by
  cases left with
  | nil => exact ⟨_, .finish htask⟩
  | cons stage left =>
      cases hpermit : takePermit state.permits with
      | some permits => exact ⟨_, .start htask hpermit⟩
      | none =>
          have hpermits : state.permits = some 0 := by
            match hstate : state.permits, hpermit with
            | some 0, _ => rfl
          have hcount := h.permits
          rw [hpermits] at hcount
          have hrunning : 1 ≤ state.inProgress order := by
            have := hlimit (0 + state.inProgress order) hcount.symm
            omega
          obtain ⟨other, _, _, _, hother⟩ := exists_running (Nat.ne_of_gt hrunning)
          exact ⟨_, .complete hother⟩

theorem Sound.progress (hwell : order.WellFormed) (hacyclic : order.Acyclic)
    (h : Sound reducer order input limit out state) (hlimit : ∀ n, limit = some n → 1 ≤ n)
    (hnone : state.answer = none) : ∃ next, Step reducer order input state next := by
  cases hqueue : state.unspawned with
  | cons key rest => exact ⟨_, .spawn hqueue⟩
  | nil =>
      by_cases hall : ∀ key ∈ order.keys, (state.task key).isFinished
      · exact ⟨_, .join out hqueue hnone fun key hkey =>
          h.finished (hall key (mem_keys_of_end hkey))⟩
      · obtain ⟨places, hplaces⟩ := hwell.linearize_ok_iff.mpr hacyclic
        have hmem : ∀ key, key ∈ (order.arrangedKeys places).reverse ↔ key ∈ order.keys := by
          intro key
          rw [List.mem_reverse, (hwell.arrangedKeys_perm hplaces).mem_iff]
        obtain ⟨key, hkey, hunfinished, hdependencies⟩ :=
          (hwell.settledKeys hplaces).exists_first (P := fun key => (state.task key).isFinished)
            (by simpa [hmem] using hall)
        cases htask : state.task key with
        | unspawned =>
            have := (h.unspawned_iff key).mp htask
            simp [hqueue, (hmem key).mp hkey] at this
        | waiting =>
            exact ⟨_, .merge out htask fun dependency hdependency =>
              h.finished (hdependencies dependency hdependency)⟩
        | ready context left => exact h.step_of_ready hlimit htask
        | running context stage left => exact ⟨_, .complete htask⟩
        | finished outcome => simp [htask, Task.isFinished] at hunfinished

theorem Sound.all_finished (hwell : order.WellFormed) (hacyclic : order.Acyclic)
    (h : Sound reducer order input limit out state)
    (hends : ∀ key ∈ order.ends, (state.task key).isFinished) :
    ∀ key ∈ order.keys, (state.task key).isFinished := by
  obtain ⟨places, hplaces⟩ := hwell.linearize_ok_iff.mpr hacyclic
  refine (hwell.settledKeys hplaces).of_ends hwell hends ?_ ?_
  · intro key hfinished
    refine h.merged key ?_
    rw [h.finished hfinished]
    rfl
  · intro key hkey hnot
    rw [List.mem_reverse, (hwell.arrangedKeys_perm hplaces).mem_iff] at hnot
    exact absurd hkey hnot

end

end Schedule

/-! ## All schedules -/

/-- What a concurrent execution answers, whatever the order of its steps.  Every key hands on the
solution of its equation; no more stages are in progress than the limit allows; an execution without
an answer can go on; its answer is the one of the execution without a schedule; and no stage of a
key is started twice. -/
theorem Order.Reachable.schedules {order : Order (Stage γ)} (hreachable : order.Reachable)
    (hacyclic : order.Acyclic) (reducer : γ → γ → γ) (input : γ) (limit : Option Nat)
    (hlimit : ∀ n, limit = some n → 1 ≤ n) :
    ∃ out : Key → Except ExecutionError γ,
      SolvesOutcomes reducer order input out ∧
      (runConcurrent reducer order input).outcome =
        finalOutcome reducer input (order.ends.map fun key => (key, out key)) ∧
      ∀ state : Schedule γ,
        Schedule.Reaches reducer order input (.initial order limit) state →
        (∀ n, limit = some n → state.inProgress order ≤ n) ∧
        (state.answer = none → ∃ next, Schedule.Step reducer order input state next) ∧
        (∀ answer, state.answer = some answer →
          answer = (runConcurrent reducer order input).outcome ∧
          ∀ key ∈ order.keys, state.task key = .finished (out key)) ∧
        ∀ key, state.startedBy key <+: order.values key := by
  have hwell := hreachable.wellFormed
  obtain ⟨out, hsolves, houtcome⟩ := runConcurrent_outcome reducer input hwell hacyclic
  refine ⟨out, hsolves, houtcome, fun state hreaches => ?_⟩
  have hsound : state.Sound reducer order input limit out :=
    (Schedule.Sound.initial hwell hacyclic).reaches hwell.keys_nodup hsolves hreaches
  refine ⟨?_, hsound.progress hwell hacyclic hlimit, ?_, fun key =>
    Task.Promises.within (hsound.promises key)⟩
  · rintro n rfl
    obtain ⟨free, -, hcount⟩ := Option.map_eq_some_iff.mp hsound.permits
    omega
  · intro answer hanswer
    obtain ⟨hfinal, hends⟩ := hsound.answer answer hanswer
    refine ⟨hfinal.trans houtcome.symm, fun key hkey => ?_⟩
    exact hsound.finished (hsound.all_finished hwell hacyclic hends key hkey)

theorem schedules_after_edits :
    ∃ order : Order (Stage Nat), order.Reachable ∧ order.Acyclic ∧
      order.keys = [.constant "a", .constant "b", .constant "c"] ∧
      ∀ state : Schedule Nat,
        Schedule.Reaches (10 * · + ·) order 0 (.initial order (some 1)) state →
        state.inProgress order ≤ 1 ∧ ∀ answer, state.answer = some answer → answer = .ok 34 := by
  have hreachable := (Reachable.empty (V := Stage Nat))
    |>.edit (.register (.key (.constant "a")) (.ofEdit ⟨0, 0⟩ "one" fun n => .ok (n + 1)))
    |>.edit (.item (.key (.constant "b")) [(.after, .key (.constant "a"))]
      (.ofEdit ⟨0, 1⟩ "two" fun n => .ok (n + 2)))
    |>.edit (.item (.key (.constant "c")) [(.after, .key (.constant "a"))]
      (.ofEdit ⟨0, 2⟩ "three" fun n => .ok (n + 3)))
    |>.read
  have hacyclic := hreachable.wellFormed.linearize_ok_iff.mp ⟨[0, 1, 2], by cbv⟩
  obtain ⟨out, -, -, hstates⟩ := hreachable.schedules hacyclic (10 * · + ·) 0 (some 1) (by simp)
  refine ⟨_, hreachable, hacyclic, by cbv, fun state hreaches => ?_⟩
  obtain ⟨hlimit, -, hanswer, -⟩ := hstates state hreaches
  refine ⟨hlimit 1 rfl, fun answer hsome => ?_⟩
  rw [(hanswer answer hsome).1]
  cbv

end Runbook
