import Ontogram.Proofs.Instance.Unrecorded
import Ontogram.Proofs.TermGraph.Removed

/-!
# What an adopt splices

An adopt walks down from the model along all arcs, and from everything it finds, the model included,
up along rank arcs. What it adds is the part of the template that these terms have, once the model is
called like the instance. Placeholders are taken out before the scoping, and no scoping brings one
back: terms are only scoped if the name of the instance is a term then, and so no placeholder.

* `mem_splicedTerms_iff` — the terms that the walks find.
* `isPart_retain_splicedTerms`, `isQuotient_splice` — their part, and the model renamed in it.
* `adopt_splices` — what an adopt adds, and that no placeholder is left.
-/

namespace Ontogram.Instance

open Arena

variable {template : TermGraph} {model name x : String}

/-! ## The spliced terms -/

/-- Says that a term is spliced with a model: it is the model or a term that the model leads to, or
rank arcs lead from it to one of these. -/
def IsSpliced (template : TermGraph) (model x : String) : Prop :=
  ∃ y, (y = model ∨ template.Leads model y) ∧ (x = y ∨ template.RankLeads x y)

theorem mem_below_iff :
    x ∈ model :: template.descendants model ↔ x = model ∨ template.Leads model x := by
  rw [List.mem_cons, TermGraph.mem_descendants]
  by_cases hx : x = model
  · exact iff_of_true (Or.inl hx) (Or.inl hx)
  · rw [and_iff_right hx]

/-- **The walks find the spliced terms**, and no others. -/
theorem mem_splicedTerms_iff : x ∈ splicedTerms template model ↔ IsSpliced template model x := by
  unfold splicedTerms IsSpliced
  simp only [List.mem_append, List.mem_flatMap, mem_below_iff, TermGraph.mem_rankAncestors]
  constructor
  · rintro (hx | ⟨y, hy, -, hrank⟩)
    · exact ⟨x, hx, Or.inl rfl⟩
    · exact ⟨y, hy, Or.inr hrank⟩
  · rintro ⟨y, hy, hxy⟩
    by_cases hne : x = y
    · exact Or.inl (hne ▸ hy)
    · exact Or.inr ⟨y, hy, hne, hxy.resolve_left hne⟩

theorem IsSpliced.self (template : TermGraph) (model : String) : IsSpliced template model model :=
  ⟨model, Or.inl rfl, Or.inl rfl⟩

theorem IsSpliced.of_leads (h : template.Leads model x) : IsSpliced template model x :=
  ⟨x, Or.inr h, Or.inl rfl⟩

/-! ## The spliced part -/

theorem isPart_retain_splicedTerms (template : TermGraph) (model : String) :
    IsPart (IsSpliced template model) template.toArena
      (template.retain (splicedTerms template model)).toArena := by
  have hkeep : IsSpliced template model = fun x => x ∈ splicedTerms template model := by
    funext x
    exact propext mem_splicedTerms_iff.symm
  rw [hkeep]
  exact template.valid.isPart_retain _

/-- The model is in the part. -/
theorem contains_retain_splicedTerms (hm : template.contains model = true) :
    (template.retain (splicedTerms template model)).contains model = true := by
  rw [← template.valid.isSome_term?] at hm
  obtain ⟨t, ht⟩ := Option.isSome_iff_exists.1 hm
  rw [← (template.retain _).valid.isSome_term?,
    ((isPart_retain_splicedTerms template model).term model t).2 ⟨.self template model, ht⟩]
  rfl

theorem splice_eq_of_relabel? {g : TermGraph}
    (hg : (template.retain (splicedTerms template model)).relabel? model name = some g) :
    splice template model name = g := by
  unfold splice
  simp only
  rw [hg]
  rfl

/-- The rename of the model in the part succeeds. -/
theorem relabel?_retain_splicedTerms (name : String) (hm : template.contains model = true) :
    (template.retain (splicedTerms template model)).relabel? model name =
      some (splice template model name) := by
  obtain ⟨g, hg⟩ := TermGraph.exists_relabel? (contains_retain_splicedTerms hm) name
  rw [splice_eq_of_relabel? hg, hg]

/-- **In what is spliced the model has become the instance.** -/
theorem isQuotient_splice (hm : template.contains model = true) (hne : model ≠ name) :
    IsQuotient model name (template.retain (splicedTerms template model)).toArena
      (splice template model name).toArena :=
  (template.retain _).valid.isQuotient_relabel? hne
    (TermGraph.relabel?_eq_some.1 (relabel?_retain_splicedTerms name hm))

/-- A model that is called like the instance is not renamed. -/
theorem splice_self (hm : template.contains model = true) :
    splice template model model = template.retain (splicedTerms template model) :=
  TermGraph.toArena_inj <| eq_of_relabel?_self <|
    TermGraph.relabel?_eq_some.1 (relabel?_retain_splicedTerms model hm)

/-! ## Adopting -/

/--
**An adopt adds the part of the template that is spliced, and leaves no placeholder.**

The part has the spliced terms of the template and the relations between them, and nothing else.
What is added is this part with the model under the name of the instance. If a spliced term has that
name already, both become one. The model is there, so the adopt succeeds: it takes out the placeholders
and scopes the variables below the instance term. No term is a placeholder after that, even if the
name of the instance is one.
-/
theorem adopt_splices (e : Instance) (hm : template.contains model = true) :
    ∃ part : TermGraph, IsPart (IsSpliced template model) template.toArena part.toArena ∧
      (model = e.name → splice template model e.name = part) ∧
      (model ≠ e.name →
        IsQuotient model e.name part.toArena (splice template model e.name).toArena) ∧
      (e.adopt template model).error? = none ∧
      e.adopt template model = Instance.scopeFree { e with
        graph := ((e.graph.compose (splice template model e.name)).removeWhere fun t =>
          Label.isPlaceholder t.label).1 } ∧
      (e.adopt template model).state.PlaceholderFree := by
  have hok : (e.adopt template model).error? = none := by rw [adopt_error?, if_pos hm]
  refine ⟨template.retain (splicedTerms template model), isPart_retain_splicedTerms template model,
    ?_, isQuotient_splice hm, hok, adopt_ok hok, placeholderFree_adopt hok⟩
  rintro rfl
  exact splice_self hm

/-- A pump below a class, with a placeholder and a flow of a term that is called like the instance:
the class comes along, and the two terms become one. -/
theorem adopt_splices_pump :
    let motor := TermGraph.empty.relate ⟨"motor_", "speed_", ⟨"has", false⟩⟩
    let pump := (((TermGraph.empty.relate ⟨"Pump", "pump_", ⟨"type", true⟩⟩).relate
      ⟨"pump_", "flow_", ⟨"has", false⟩⟩).relate ⟨"flow_", "M", ⟨"of", false⟩⟩).relate
      ⟨"pump_", "*part_", ⟨"has", false⟩⟩
    ∃ e, ofGraph "M" "Motor" "motor_" motor = .ok e ∧ pump.contains "pump_" = true ∧
      IsSpliced pump "pump_" "Pump" ∧
      (splice pump "pump_" "M").relation? "Pump" "M" = some ⟨"type", true⟩ ∧
      (splice pump "pump_" "M").relation? "flow_" "M" = some ⟨"of", false⟩ ∧
      (e.adopt pump "pump_").error? = none ∧ (e.adopt pump "pump_").state.PlaceholderFree := by
  intro motor pump
  have hrun : (ofGraph "M" "Motor" "motor_" motor).toOption.any fun e => decide (e.name = "M") := by
    decide +kernel
  obtain ⟨e, he, hname⟩ := exists_ok_of_any hrun
  replace hname := of_decide_eq_true hname
  have hm : pump.contains "pump_" = true := by decide +kernel
  obtain ⟨part, hpart, -, hq, hok, -, hfree⟩ := adopt_splices e hm
  rw [hname] at hq
  replace hq := hq (by decide)
  have hclass : IsSpliced pump "pump_" "Pump" :=
    ⟨"pump_", Or.inl rfl, Or.inr (.single ⟨⟨"type", true⟩, by decide +kernel, rfl⟩)⟩
  have hflow : pump.Leads "pump_" "flow_" := .single (by decide +kernel)
  have hmotor : pump.Leads "pump_" "M" := hflow.tail (by decide +kernel)
  refine ⟨e, he, hm, hclass, ?_, ?_, hok, hfree⟩
  · have hrow : part.relation? "Pump" "pump_" = some ⟨"type", true⟩ :=
      (hpart.relation _ _ _).2 ⟨hclass, .self pump "pump_", by decide +kernel⟩
    rw [hq.incoming "Pump" (by decide) (by decide), hrow]
    rfl
  · have hrow : part.relation? "flow_" "M" = some ⟨"of", false⟩ :=
      (hpart.relation _ _ _).2 ⟨.of_leads hflow, .of_leads hmotor, by decide +kernel⟩
    have hapart : pump.relation? "flow_" "pump_" = none := by decide +kernel
    have hnone : part.relation? "flow_" "pump_" = none := by
      rw [Option.eq_none_iff_forall_ne_some] at hapart ⊢
      exact fun r hr => hapart r ((hpart.relation _ _ _).1 hr).2.2
    rw [hq.incoming "flow_" (by decide) (by decide), hnone, hrow]
    rfl

end Ontogram.Instance
