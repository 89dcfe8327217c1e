import Ontogram.Proofs.Instance.Atomic
import Ontogram.Proofs.Instance.Tracked
import Ontogram.Proofs.TermGraph.Grows

/-!
# Registered terms are terms of the graph

A rename takes one label out of the graph. If a variable stands for it, that variable is the one
that the registry points at the new label, so nothing in the registry is left behind, whatever the
rename merges. Everything else that the recording operations do to a graph adds to it.

`Grounded` speaks of the registered terms with a property, because some operations keep only those.

* `Grounded.replace`, `Grounded.replaceAll` — what renames keep.
* `recorded_grounded` — every registered term is there on an instance whose changes were recorded,
  and so a registered variable can always be defined.
-/

namespace Ontogram

/-- What holds of a state and is kept by what comes after it holds in the end. -/
theorem Outcome.state_andThen {σ : Type} {P : σ → Prop} {o : Outcome σ} {f : σ → Outcome σ}
    (ho : P o.state) (hf : ∀ s, P s → P (f s).state) : P (o.andThen f).state := by
  unfold andThen
  split
  · exact hf _ ho
  · exact ho

/-- What a run says about its result, if it has one, holds of the result. -/
theorem exists_ok_of_any {ε α : Type} {x : Except ε α} {q : α → Bool}
    (h : x.toOption.any q = true) : ∃ a, x = .ok a ∧ q a = true := by
  cases x with
  | error cause => cases h
  | ok a => exact ⟨a, rfl, h⟩

namespace Instance

variable {e child : Instance} {p : String → Prop} {old new key value : String}

/-- The registry is in step, and the registered terms with a property are terms of the graph. -/
structure Grounded (p : String → Prop) (e : Instance) : Prop where
  valid : e.registry.Valid
  contains : ∀ key term, e.registry.get? key = some term → p term → e.graph.contains term = true

/-! ## Renames -/

/-- A rename leaves no registered term behind. -/
theorem Grounded.relabel {graph : TermGraph} (h : e.Grounded p)
    (hr : e.graph.relabel? old new = some graph) :
    Grounded p { e with graph := graph, registry := e.registry.recordRename old new } := by
  refine ⟨h.valid.recordRename old new, fun key term hget hp => ?_⟩
  refine (Arena.contains_relabel? (TermGraph.relabel?_eq_some.1 hr) term).2 ?_
  rcases h.valid.eq_or_get?_of_recordRename hget with hnew | ⟨hold, hget⟩
  · exact Or.inl hnew
  · exact Or.inr ⟨hold, h.contains key term hget hp⟩

theorem Grounded.replace (h : e.Grounded p) (old new : String) :
    (e.replace old new false).state.Grounded p := by
  unfold Instance.replace
  split
  · exact h
  · split
    · exact h
    · next graph hr => exact h.relabel hr

/-- **Renames leave no registered term behind**, also up to a failure. -/
theorem Grounded.replaceAll (h : e.Grounded p) (renames : List (String × String)) :
    (e.replaceAll renames).state.Grounded p := by
  induction renames generalizing e with
  | nil => exact h
  | cons r renames ih => exact Outcome.state_andThen (h.replace r.1 r.2) fun _ hs => ih hs

/-! ## What adds to the graph -/

theorem Grounded.grow {f : Instance} (h : e.Grounded p) (hr : f.registry = e.registry)
    (hg : Arena.Grows e.graph.toArena f.graph.toArena) : f.Grounded p :=
  ⟨hr ▸ h.valid, fun key term hget hp => hg.contains (h.contains key term (hr ▸ hget) hp)⟩

theorem Grounded.composeGraph (h : e.Grounded p) (graph : TermGraph) :
    (e.composeGraph graph).Grounded p :=
  h.grow rfl (Arena.grows_compose _ _)

theorem Grounded.relate (h : e.Grounded p) (a : Arc) : (e.relate a).Grounded p :=
  h.grow rfl (Arena.grows_relate _ a)

/-! ## Operations -/

theorem Grounded.define (h : e.Grounded p) (key value : String) :
    (e.define key value).state.Grounded p := by
  unfold Instance.define
  split
  · exact h
  · next current _ => exact h.replace current value

/-- The parent of a bind takes the graph of the child up, and its registry stays. -/
theorem Grounded.bind_parent (h : e.Grounded p) (child : Instance) :
    (e.bind child).state.1.Grounded p := by
  unfold bind
  split
  · exact h
  · split
    · exact h
    · simp only
      split
      · exact h
      · exact h.grow rfl (Arena.grows_compose _ _)

/-- The child of a bind is renamed term by term. -/
theorem Grounded.bind_child (h : child.Grounded p) (e : Instance) :
    (e.bind child).state.2.Grounded p := by
  unfold bind
  split
  · exact h
  · split
    · exact h
    · next path _ =>
      have hrenamed : (((child.replaceAll (sharings e child path)).andThen fun child =>
          if e.isComponent then child.scopeUnder e.name else .done child).state).Grounded p := by
        refine Outcome.state_andThen (h.replaceAll _) fun c hc => ?_
        split
        · exact hc.replaceAll _
        · exact hc
      simp only
      split
      · exact hrenamed
      · exact hrenamed.grow rfl (Arena.Grows.refl _)

/-! ## Instances of a graph -/

theorem grounded_unbound (name base selfTerm : String) (graph : TermGraph) :
    (unbound name base selfTerm graph).Grounded fun _ => True := by
  refine ⟨(Registry.valid_unbound_identity graph.variableLabels).1, fun key term hget _ => ?_⟩
  change (Registry.identity graph.variableLabels).get? key = some term at hget
  rw [Registry.get?_identity] at hget
  split at hget
  · next hkey =>
    obtain rfl := Option.some.inj hget
    exact (TermGraph.mem_variableLabels.1 hkey).1
  · cases hget

/-- **Every registered term of an instance that was made of a graph is there.** -/
theorem grounded_ofGraph {name base selfTerm : String} {graph : TermGraph}
    (h : ofGraph name base selfTerm graph = .ok e) : e.Grounded fun _ => True := by
  obtain ⟨e₁, hself, hscope⟩ := ofGraph_eq_ok.1 h
  have hg := (grounded_unbound name base selfTerm graph).replace
    (unbound name base selfTerm graph).selfLabel name
  rw [hself] at hg
  have hscoped : e₁.scopeFree.state.Grounded fun _ => True := hg.replaceAll _
  rwa [hscope] at hscoped

/-! ## Runs -/

/-- The instances that recording operations lead to, whether they succeed or fail. -/
inductive Recorded : Instance → Prop where
  | ofGraph {name base selfTerm : String} {graph : TermGraph} {e : Instance} :
      ofGraph name base selfTerm graph = .ok e → Recorded e
  | component {e : Instance} (isComponent : Bool) :
      Recorded e → Recorded { e with isComponent := isComponent }
  | define {e : Instance} (key value : String) : Recorded e → Recorded (e.define key value).state
  | replace {e : Instance} (old new : String) :
      Recorded e → Recorded (e.replace old new false).state
  | bindParent {e : Instance} (child : Instance) : Recorded e → Recorded (e.bind child).state.1
  | bindChild {e : Instance} (parent : Instance) : Recorded e → Recorded (parent.bind e).state.2
  | composeGraph {e : Instance} (graph : TermGraph) : Recorded e → Recorded (e.composeGraph graph)
  | relate {e : Instance} (a : Arc) : Recorded e → Recorded (e.relate a)

theorem Recorded.grounded (h : e.Recorded) : e.Grounded fun _ => True := by
  induction h with
  | ofGraph h => exact grounded_ofGraph h
  | component _ _ ih => exact ih.grow rfl (Arena.Grows.refl _)
  | define key value _ ih => exact ih.define key value
  | replace old new _ ih => exact ih.replace old new
  | bindParent child _ ih => exact ih.bind_parent child
  | bindChild parent _ ih => exact ih.bind_child parent
  | composeGraph graph _ ih => exact ih.composeGraph graph
  | relate a _ ih => exact ih.relate a

/-- A registered variable whose term is there can be defined. -/
theorem Grounded.define_done (h : e.Grounded fun _ => True) {current : String}
    (hget : e.registry.get? key = some current) (value : String) :
    (e.define key value).error? = none ∧
      (e.define key value).state.registry.get? key = some value ∧
      (e.define key value).state.graph.contains value = true := by
  have hcurrent := h.contains key current hget trivial
  have hdefine : e.define key value = e.replace current value false := by
    unfold Instance.define Registry.resolve
    rw [hget]
  rw [hdefine]
  obtain ⟨graph, registry, hdone, -⟩ := replace_done hcurrent value false
  rcases replace_ok hdone with ⟨rfl, he⟩ | ⟨-, graph, hr, he⟩
  · rw [hdone, he]
    exact ⟨rfl, hget, hcurrent⟩
  · rw [hdone, he]
    have hkey : e.registry.variableOf current = key :=
      Registry.variableOf_eq_of_keyOf? (h.valid.get?_eq_some_iff_keyOf?.1 hget)
    refine ⟨rfl, ?_, ?_⟩
    · show (e.registry.recordRename current value).get? key = some value
      rw [Registry.recordRename_eq_set, h.valid.get?_set, hkey, if_pos rfl]
    · exact (Arena.contains_relabel? (TermGraph.relabel?_eq_some.1 hr) value).2 (Or.inl rfl)

/--
**Every registered term is a term of the graph, as long as all renames are recorded.**

So a define of a registered variable always gets through: the variable stands for the value
afterwards, and the value is a term of the graph.
-/
theorem recorded_grounded (h : e.Recorded) :
    (∀ key term, e.registry.get? key = some term → e.graph.contains term = true) ∧
    ∀ key value, e.registry.containsKey key = true →
      (e.define key value).error? = none ∧
        (e.define key value).state.registry.get? key = some value ∧
        (e.define key value).state.graph.contains value = true := by
  refine ⟨fun key term hget => h.grounded.contains key term hget trivial, fun key value hkey => ?_⟩
  obtain ⟨current, hget⟩ := Option.isSome_iff_exists.1 hkey
  exact h.grounded.define_done hget value

/-- A coil that was bound into a motor takes its own name for the motor's: two of its terms merge,
and `coil_` stands for nothing any more. -/
theorem recorded_grounded_merged :
    let motor := TermGraph.empty.relate ⟨"motor_", "speed_", ⟨"has", false⟩⟩
    let coil := TermGraph.empty.relate ⟨"motor_", "coil_", ⟨"part", false⟩⟩
    ∃ p c, ofGraph "M" "Motor" "motor_" motor = .ok p ∧ ofGraph "C" "Coil" "coil_" coil = .ok c ∧
      let e := (p.bind c).state.2
      e.Recorded ∧ e.registry.entries = [("coil_", "C"), ("motor_", "M")] ∧
        (e.define "motor_" "C").error? = none ∧
        (e.define "motor_" "C").state.registry.get? "motor_" = some "C" ∧
        (e.define "motor_" "C").state.graph.contains "C" = true := by
  intro motor coil
  have hrun : (ofGraph "M" "Motor" "motor_" motor).toOption.any fun p =>
      (ofGraph "C" "Coil" "coil_" coil).toOption.any fun c =>
        decide ((p.bind c).state.2.registry.entries = [("coil_", "C"), ("motor_", "M")] ∧
          (p.bind c).state.2.registry.containsKey "motor_" = true) := by decide +kernel
  obtain ⟨p, hp, hrun⟩ := exists_ok_of_any hrun
  obtain ⟨c, hc, hrun⟩ := exists_ok_of_any hrun
  obtain ⟨hentries, hkey⟩ := of_decide_eq_true hrun
  have he : (p.bind c).state.2.Recorded := .bindChild p (.ofGraph hc)
  exact ⟨p, c, hp, hc, he, hentries, (recorded_grounded he).2 "motor_" "C" hkey⟩

end Instance

end Ontogram
