import Runbook.Proofs.Execution.Outcome
import Runbook.Proofs.Plan.Partial

/-!
# What keys hand on

In a concurrent execution a key hands on what the stages of all keys that it needs make of the
input, one after another, as long as every merge keeps the fields that only one of its sides wrote.
-/

namespace Runbook

open Runbook.Json Runbook.Order

/-! ## Runs for some keys -/

section

variable {γ : Type} {order : Order (Stage γ)}

open Classical in
/-- What the stages of the keys that some keys need make of an input, one after another. -/
noncomputable def Order.runFor (order : Order (Stage γ)) (targets : List Key) (input : γ) :
    Except Halt γ :=
  match order.linearEntries.1 with
  | .error error => .error (.reported (.order error))
  | .ok entries =>
    (Run.entries input (entries.filter fun entry => order.Needs targets entry.1)).outcome

end

/-! ## Merged contexts -/

section

variable {γ : Type}

private theorem gather_append_ok {outputs : List (Key × Except ExecutionError γ)}
    {contexts : List γ}
    (h : gather outputs = .ok contexts) (key : Key) (context : γ) :
    gather (outputs ++ [(key, .ok context)]) = .ok (contexts ++ [context]) := by
  induction outputs generalizing contexts with
  | nil =>
      cases h
      rfl
  | cons output outputs ih =>
      obtain ⟨name, outcome⟩ := output
      cases outcome with
      | error error => cases h
      | ok first =>
          rw [gather] at h
          cases hrest : gather outputs with
          | error failure => simp [hrest, Except.map] at h
          | ok rest =>
              simp only [hrest, Except.map, Except.ok.injEq] at h
              subst h
              rw [List.cons_append, gather, ih hrest]
              rfl

private theorem combine_append (reducer : γ → γ → γ) (input : γ) {contexts : List γ}
    (h : contexts ≠ []) (context : γ) :
    combine reducer input (contexts ++ [context]) =
      reducer (combine reducer input contexts) context := by
  cases contexts with
  | nil => exact absurd rfl h
  | cons first rest => simp [combine, List.foldl_append]

end

/-! ## What keys hand on -/

namespace Writing

variable {order : Order (Stage Json)} {keys : List Key} {writes : Key → List FieldWrite}
  {document : Json} {out : Key → Except ExecutionError Json}

noncomputable def documentFor (order : Order (Stage Json)) (keys : List Key)
    (writes : Key → List FieldWrite) (document : Json) (targets : List Key) : Option Json :=
  afterAll? (writesOf writes keys (order.Needs targets)) document

def Delivers (order : Order (Stage Json)) (keys : List Key) (writes : Key → List FieldWrite)
    (document : Json) (out : Key → Except ExecutionError Json) (key : Key) : Prop :=
  ∃ value, out key = .ok value ∧ documentFor order keys writes document [key] = some value

/-- Whether the merge of what one more key hands on to what earlier ones did keeps every field that
only one side wrote. -/
def Keeps (order : Order (Stage Json)) (keys : List Key) (writes : Key → List FieldWrite)
    (document : Json) (earlier : List Key) (next : Key) : Prop :=
  ∀ left right, documentFor order keys writes document earlier = some left →
    documentFor order keys writes document [next] = some right →
    ∀ key ∈ keys, ∀ write ∈ writes key,
      (order.Needs earlier key → ¬ order.Needs [next] key → KeepsLeft left right write.parts) ∧
      (order.Needs [next] key → ¬ order.Needs earlier key → KeepsRight left right write.parts)

private theorem documentFor_append (h : Writing order keys writes) (hsorted : Sorted document)
    {result : Json} (hall : afterAll? (keys.flatMap writes) document = some result)
    {earlier : List Key} {next : Key} {left right : Json}
    (hleft : documentFor order keys writes document earlier = some left)
    (hright : documentFor order keys writes document [next] = some right)
    (hkeeps : Keeps order keys writes document earlier next) :
    documentFor order keys writes document (earlier ++ [next]) = some (merge left right) := by
  obtain ⟨both, hboth⟩ := h.exists_of_all (order.closed_needs (earlier ++ [next])) hsorted hall
  have hunion : writesOf writes keys (order.Needs (earlier ++ [next])) =
      writesOf writes keys fun key => order.Needs earlier key ∨ order.Needs [next] key :=
    writesOf_congr fun key _ => needs_append
  rw [documentFor, hboth, h.merge_closed (order.closed_needs earlier) (order.closed_needs [next])
    hsorted hleft hright (hunion ▸ hboth)]
  · intro key hkey hneeds hnot write hwrite
    exact (hkeeps left right hleft hright key hkey write hwrite).1 hneeds hnot
  · intro key hkey hneeds hnot write hwrite
    exact (hkeeps left right hleft hright key hkey write hwrite).2 hneeds hnot

/-- Contexts merged from left to right are the document of all keys that are needed for them, by
induction on how many are merged. -/
theorem gather_delivered (h : Writing order keys writes) (hsorted : Sorted document)
    {result : Json} (hall : afterAll? (keys.flatMap writes) document = some result)
    {merged : List Key} (hdelivers : ∀ key ∈ merged, Delivers order keys writes document out key)
    (hkeeps : ∀ earlier next, earlier ≠ [] → earlier ++ [next] <+: merged →
      Keeps order keys writes document earlier next) :
    ∃ contexts, gather (merged.map fun key => (key, out key)) = .ok contexts ∧
      contexts.length = merged.length ∧
      documentFor order keys writes document merged =
        some (combine merge document contexts) := by
  induction merged using List.reverseRecOn with
  | nil =>
      have hnone : writesOf writes keys (order.Needs []) = [] := by simp [writesOf, Needs]
      exact ⟨[], rfl, rfl, by rw [documentFor, hnone]; rfl⟩
  | append_singleton earlier next ih =>
      obtain ⟨contexts, hgather, hlength, hearlier⟩ := ih
        (fun key hkey => hdelivers key (List.mem_append_left _ hkey))
        (fun first second hne hbegins => hkeeps first second hne
          (hbegins.trans (List.prefix_append _ _)))
      obtain ⟨context, hout, hnext⟩ := hdelivers next (by simp)
      refine ⟨contexts ++ [context], ?_, by simp [hlength], ?_⟩
      · rw [List.map_append, List.map_singleton, hout]
        exact gather_append_ok hgather next context
      · by_cases hempty : earlier = []
        · subst hempty
          rw [List.length_nil, List.length_eq_zero_iff] at hlength
          rw [hlength, List.nil_append, hnext]
          rfl
        · have hcontexts : contexts ≠ [] := by
            rintro rfl
            exact hempty (List.length_eq_zero_iff.mp hlength.symm)
          rw [combine_append merge document hcontexts]
          exact h.documentFor_append hsorted hall hearlier hnext
            (hkeeps earlier next hempty (List.prefix_refl _))

private theorem documentFor_key (h : Writing order keys writes) (hsorted : Sorted document)
    {key : Key}
    (hkey : key ∈ keys) (hloop : ¬ order.Needs (order.dependencies key) key) :
    documentFor order keys writes document [key] =
      (documentFor order keys writes document (order.dependencies key)).bind
        (afterAll? (writes key)) := by
  rw [documentFor, h.closed_first (order.closed_needs (order.dependencies key))
    (order.Needs (order.dependencies key)) (· = key) ?_ ?_ hsorted, writesOf_eq h.nodup hkey]
  · rfl
  · intro other
    rw [needs_singleton]
    tauto
  · intro other
    rw [needs_singleton]
    constructor
    · rintro rfl
      exact ⟨.inl rfl, hloop⟩
    · rintro ⟨hsame | hneeds, hnot⟩
      · exact hsame
      · exact absurd hneeds hnot

/-- All keys hand on the document of the keys that they need, by induction on an arrangement. -/
theorem delivers (h : Writing order keys writes) (hsorted : Sorted document)
    {result : Json} (hall : afterAll? (keys.flatMap writes) document = some result)
    (hout : SolvesOutcomes merge order document out)
    (hstages : ∀ key context, (Run.stages key context (order.values key)).outcome.toOption =
      afterAll? (writes key) context)
    (hkeeps : ∀ key ∈ order.keys, ∀ earlier next, earlier ≠ [] →
      earlier ++ [next] <+: order.dependencies key →
      Keeps order keys writes document earlier next)
    {settled : List Key} (hsettled : SettledKeys order settled)
    (hwithin : ∀ key ∈ settled, key ∈ keys) :
    ∀ key ∈ settled, Delivers order keys writes document out key := by
  induction hsettled with
  | nil => simp
  | @cons key settled hkey hnew hdependencies hrest ih =>
      rw [List.forall_mem_cons] at hwithin
      have hearlier := ih hwithin.2
      refine List.forall_mem_cons.mpr ⟨?_, hearlier⟩
      obtain ⟨contexts, hgather, -, hmerged⟩ := h.gather_delivered hsorted hall
        (fun dependency hdependency => hearlier dependency (hdependencies dependency hdependency))
        (hkeeps key hkey)
      have hloop : ¬ order.Needs (order.dependencies key) key := by
        rintro ⟨dependency, hdependency, hpath⟩
        exact hnew (Closed.of_leadsTo (fun _ hmem => hrest.closed hmem) hpath
          (hdependencies dependency hdependency))
      obtain ⟨value, hvalue⟩ := h.exists_of_all (order.closed_needs [key]) hsorted hall
      have hdocument : documentFor order keys writes document [key] = some value := hvalue
      refine ⟨value, ?_, hdocument⟩
      rw [h.documentFor_key hsorted hwithin.1 hloop, hmerged, Option.bind_some, ← hstages]
        at hdocument
      rw [hout key hkey, keyOutcome, hgather]
      dsimp only
      exact ok_of_toOption hdocument

end Writing

end Runbook
