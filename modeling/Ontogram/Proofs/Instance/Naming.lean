import Ontogram.Proofs.Instance.Resolved

/-!
# When an instance gets its name

The rename of the self term is the only step of making an instance that can fail, and what follows
neither takes the instance term out nor makes another term it. But a rename to the same label looks
nothing up. So an instance that is called like its self term is made of any graph, and of one
without that term it comes out as it went in, with no instance term at all.

* `replace_of_not_contains` — a rename of what is no term.
* `ofGraph_of_contains`, `ofGraph_of_not_contains` — the two cases.
* `ofGraph_succeeds_iff` — when an instance is made, and what the error says.
-/

namespace Ontogram.Instance

variable {e : Instance} {name base selfTerm old new : String} {graph : TermGraph}

/-! ## What is no term -/

/-- A rename of what is no term fails, if it would change something. -/
theorem replace_of_not_contains (hc : e.graph.contains old = false) (hne : old ≠ new)
    (silent : Bool) : e.replace old new silent = .failed e (.unknownTerm e.name old) := by
  have hnone : e.graph.relabel? old new = none := by
    rwa [← TermGraph.isSome_relabel? e.graph old new, Option.isSome_eq_false_iff,
      Option.isNone_iff_eq_none] at hc
  unfold replace
  rw [if_neg hne, hnone]

/-- Nothing is below what is no term, so there is nothing to scope. -/
theorem scopeFree_of_not_contains (hc : e.graph.contains e.name = false) :
    e.scopeFree = .done e := by
  have hnone : e.graph.descendants e.name = [] := by
    refine List.eq_nil_iff_forall_not_mem.2 fun label hl => ?_
    rw [TermGraph.contains_of_descendants hl] at hc
    cases hc
  unfold scopeFree
  rw [hnone]
  rfl

/-- A rename that succeeds leaves a term of the new label. -/
theorem contains_replace {f : Instance} (hd : e.replace old new false = .done f)
    (hc : e.graph.contains old = true) : f.graph.contains new = true := by
  rcases replace_ok hd with ⟨rfl, rfl⟩ | ⟨-, graph, hr, rfl⟩
  · exact hc
  · exact (Arena.contains_relabel? (TermGraph.relabel?_eq_some.1 hr) new).2 (Or.inl rfl)

/-- Scoping leaves the instance term. -/
theorem contains_scopeFree {f : Instance} (hd : e.scopeFree = .done f)
    (hc : e.graph.contains e.name = true) : f.graph.contains e.name = true :=
  contains_replaceAll hd
    (fun _ hr => TermGraph.ne_of_mem_descendants (mem_scopings.1 hr).1) hc

/-! ## Making an instance -/

/-- **An instance is made of a graph with its self term**, and has a term of its name. -/
theorem ofGraph_of_contains (name base : String) (hself : graph.contains selfTerm = true) :
    ∃ e, ofGraph name base selfTerm graph = .ok e ∧ e.graph.contains name = true := by
  obtain ⟨graph₁, registry₁, hdone, -⟩ :=
    replace_done (e := unbound name base selfTerm graph) hself name false
  have hnamed := contains_replace hdone hself
  obtain ⟨graph₂, registry₂, hscoped⟩ := scopeFree_done
    { unbound name base selfTerm graph with graph := graph₁, registry := registry₁ }
  refine ⟨_, ofGraph_eq_ok.2 ⟨_, ?_, hscoped⟩, contains_scopeFree hscoped hnamed⟩
  rw [selfLabel_unbound]
  exact hdone

/-- **Without the self term an instance is only made under the same name**, and nothing is
renamed. -/
theorem ofGraph_of_not_contains (name base : String) (hself : graph.contains selfTerm = false) :
    ofGraph name base selfTerm graph =
      if selfTerm = name then .ok (unbound name base selfTerm graph)
      else .error (.unknownTerm name selfTerm) := by
  by_cases he : selfTerm = name
  · subst he
    rw [if_pos rfl]
    refine ofGraph_eq_ok.2 ⟨unbound selfTerm base selfTerm graph, ?_, ?_⟩
    · rw [selfLabel_unbound]
      exact if_pos rfl
    · exact scopeFree_of_not_contains hself
  · have hfailed : (unbound name base selfTerm graph).replace selfTerm name false =
        .failed (unbound name base selfTerm graph) (.unknownTerm name selfTerm) :=
      replace_of_not_contains hself he false
    unfold ofGraph
    simp only
    rw [if_neg he, selfLabel_unbound, hfailed]
    rfl

/--
**When an instance is made of a graph.**

It is made exactly if the self term is a term of the graph or the instance is called like it. The
instance has a term of its name exactly in the first case; in the other one it is the graph as it
was, with every variable standing for itself. The only error there is says that the self term is
missing.
-/
theorem ofGraph_succeeds_iff (name base selfTerm : String) (graph : TermGraph) :
    ((∃ e, ofGraph name base selfTerm graph = .ok e) ↔
      graph.contains selfTerm = true ∨ selfTerm = name) ∧
    (∀ e, ofGraph name base selfTerm graph = .ok e →
      (e.graph.contains name = true ↔ graph.contains selfTerm = true) ∧
      (graph.contains selfTerm = false → e = unbound name base selfTerm graph)) ∧
    (∀ error, ofGraph name base selfTerm graph = .error error ↔
      graph.contains selfTerm = false ∧ selfTerm ≠ name ∧ error = .unknownTerm name selfTerm) := by
  cases hself : graph.contains selfTerm with
  | true =>
    obtain ⟨e, hok, hname⟩ := ofGraph_of_contains name base hself
    rw [hok]
    refine ⟨iff_of_true ⟨e, rfl⟩ (Or.inl rfl), fun f hf => ?_, fun error => ?_⟩
    · cases hf
      exact ⟨iff_of_true hname rfl, nofun⟩
    · exact iff_of_false nofun nofun
  | false =>
    rw [ofGraph_of_not_contains name base hself]
    by_cases he : selfTerm = name
    · subst he
      rw [if_pos rfl]
      refine ⟨iff_of_true ⟨_, rfl⟩ (Or.inr rfl), fun f hf => ?_, fun error => ?_⟩
      · cases hf
        exact ⟨Eq.congr_left hself, fun _ => rfl⟩
      · exact iff_of_false nofun fun h => h.2.1 rfl
    · rw [if_neg he]
      refine ⟨iff_of_false nofun fun h => h.elim nofun he, nofun, fun error => ?_⟩
      rw [Except.error.injEq, eq_comm]
      exact ⟨fun h => ⟨rfl, he, h⟩, fun h => h.2.2⟩

/-- A motor has no rotor: under the name `M` that is an error, and under the name `rotor_` an
instance without a term of its name. -/
theorem ofGraph_succeeds_iff_rotor :
    let motor := TermGraph.empty.relate ⟨"motor_", "speed_", ⟨"has", false⟩⟩
    (∃ e, ofGraph "M" "Motor" "motor_" motor = .ok e ∧ e.graph.contains "M" = true) ∧
    ofGraph "M" "Motor" "rotor_" motor = .error (.unknownTerm "M" "rotor_") ∧
    ∃ e, ofGraph "rotor_" "Motor" "rotor_" motor = .ok e ∧
      e.graph.contains "rotor_" = false := by
  intro motor
  have hmotor : motor.contains "motor_" = true := by decide
  have hrotor : motor.contains "rotor_" = false := by decide
  obtain ⟨hok, hname, -⟩ := ofGraph_succeeds_iff "M" "Motor" "motor_" motor
  obtain ⟨e, he⟩ := hok.2 (Or.inl hmotor)
  obtain ⟨hok', hname', -⟩ := ofGraph_succeeds_iff "rotor_" "Motor" "rotor_" motor
  obtain ⟨f, hf⟩ := hok'.2 (Or.inr rfl)
  refine ⟨⟨e, he, (hname e he).1.2 hmotor⟩, ?_, f, hf, ?_⟩
  · exact ((ofGraph_succeeds_iff "M" "Motor" "rotor_" motor).2.2 _).2 ⟨hrotor, by decide, rfl⟩
  · rw [← Bool.not_eq_true, (hname' f hf).1, hrotor]
    decide

end Ontogram.Instance
