import Ontogram.Instance.Basic
import Ontogram.Proofs.TermGraph.Labels
import Ontogram.Proofs.TermGraph.Walks

/-!
# Renames of an instance

A rename of a term that is there succeeds and touches graph and registry only. Of the labels it
takes out the old one alone, so a list of renames whose old labels differ goes through to its end,
whatever merges happen on the way. The two scopings are such lists.

* `replace_done`, `replace_of_error` — the two outcomes of a rename.
* `replaceAll_done` — renames of distinct terms all succeed.
* `scopeFree_done`, `scopeUnder_done` — scoping succeeds on every instance.
-/

namespace Ontogram

theorem Outcome.andThen_done {σ : Type} (s : σ) (f : σ → Outcome σ) :
    (Outcome.done s).andThen f = f s := rfl

namespace Instance

variable {e : Instance}

/-- A rename of a term that is there succeeds, and takes no other label out. -/
theorem replace_done {old : String} (ho : e.graph.contains old = true) (new : String)
    (silent : Bool) :
    ∃ graph registry, e.replace old new silent = .done { e with graph, registry } ∧
      ∀ label, label ≠ old → e.graph.contains label = true → graph.contains label = true := by
  unfold replace
  split
  · exact ⟨e.graph, e.registry, rfl, fun _ _ hc => hc⟩
  · obtain ⟨graph, hr⟩ := TermGraph.exists_relabel? ho new
    rw [hr]
    refine ⟨graph, _, rfl, fun label hne hc => ?_⟩
    exact (Arena.contains_relabel? (TermGraph.relabel?_eq_some.1 hr) label).2 (Or.inr ⟨hne, hc⟩)

/-- A rename that fails changes nothing. -/
theorem replace_of_error {old new : String} {silent : Bool} {error : InstanceError}
    (hf : (e.replace old new silent).error? = some error) :
    (e.replace old new silent).state = e := by
  unfold replace at hf ⊢
  split
  · rfl
  · next hne =>
    rw [if_neg hne] at hf
    cases hr : e.graph.relabel? old new with
    | none => rfl
    | some graph =>
      rw [hr] at hf
      cases hf

/-- **Renames of distinct terms all succeed**, also where a new label is one of the old ones. -/
theorem replaceAll_done {renames : List (String × String)} {e : Instance}
    (hn : (renames.map Prod.fst).Nodup)
    (hc : ∀ r ∈ renames, e.graph.contains r.1 = true) :
    ∃ graph registry, e.replaceAll renames = .done { e with graph, registry } := by
  induction renames generalizing e with
  | nil => exact ⟨e.graph, e.registry, rfl⟩
  | cons r renames ih =>
    obtain ⟨old, new⟩ := r
    rw [List.map_cons, List.nodup_cons] at hn
    obtain ⟨graph, registry, hdone, hkeep⟩ :=
      replace_done (hc (old, new) List.mem_cons_self) new false
    have hrest : ∀ r ∈ renames, graph.contains r.1 = true := by
      intro r hr
      refine hkeep r.1 ?_ (hc r (List.mem_cons_of_mem _ hr))
      rintro rfl
      exact hn.1 (List.mem_map.2 ⟨r, hr, rfl⟩)
    rw [replaceAll, hdone, Outcome.andThen_done]
    exact ih (e := { e with graph, registry }) hn.2 hrest

/-! ## Scoping -/

theorem scopings_map_fst (scope : String) (labels : List String) :
    (scopings scope labels).map Prod.fst = labels.filter Label.isFree := by
  unfold scopings
  rw [List.map_map]
  exact List.map_id _

theorem replaceAll_scopings_done (scope : String) {labels : List String} (hn : labels.Nodup)
    (hc : ∀ label ∈ labels, e.graph.contains label = true) :
    ∃ graph registry,
      e.replaceAll (scopings scope labels) = .done { e with graph, registry } := by
  refine replaceAll_done ?_ fun r hr => ?_
  · rw [scopings_map_fst]
    exact hn.filter _
  · have hm : r.1 ∈ labels.filter Label.isFree := by
      rw [← scopings_map_fst scope]
      exact List.mem_map_of_mem hr
    exact hc _ (List.mem_filter.1 hm).1

/-- Scoping what is below the instance term succeeds. -/
theorem scopeFree_done (e : Instance) :
    ∃ graph registry, e.scopeFree = .done { e with graph, registry } :=
  replaceAll_scopings_done e.name (TermGraph.descendants_nodup _ _) fun _ hl =>
    TermGraph.contains_of_mem_descendants hl

/-- Scoping all variables succeeds. -/
theorem scopeUnder_done (e : Instance) (scope : String) :
    ∃ graph registry, e.scopeUnder scope = .done { e with graph, registry } :=
  replaceAll_scopings_done scope (e.graph.valid.labels_nodup.filter _) fun _ hl =>
    (TermGraph.mem_variableLabels.1 hl).1

end Instance

end Ontogram
