import Ontogram.Proofs.Instance.Grounded
import Ontogram.Proofs.Label

/-!
# Changes that the registry does not hear of

An adopt removes every placeholder from the graph, and a link renames the stand-in of its identifier
without a record. Both leave the registry alone, so a variable that stood for such a term goes on to
stand for it although it is no term any more. All other registered terms stay.

* `placeholderFree_adopt` — no placeholder is left after an adopt, scoped variables included.
* `registered_after_adopt_and_link` — which registered terms are still there.
* `adopt_and_link_leave_registered` — an adopt and a link after which one is not.
-/

namespace Ontogram

namespace Instance

variable {e : Instance} {template : TermGraph} {model : String}

/-! ## No placeholder is left -/

/-- No term of the graph is a placeholder. -/
def PlaceholderFree (e : Instance) : Prop :=
  ∀ label, e.graph.contains label = true → Label.isPlaceholder label = false

theorem PlaceholderFree.replace {old new : String} (h : e.PlaceholderFree)
    (hn : Label.isPlaceholder new = false) : (e.replace old new false).state.PlaceholderFree := by
  unfold Instance.replace
  split
  · exact h
  · split
    · exact h
    · next graph hr =>
      intro label hl
      have hl := (Arena.contains_relabel? (TermGraph.relabel?_eq_some.1 hr) label).1 hl
      rcases hl with rfl | ⟨-, hl⟩
      · exact hn
      · exact h label hl

theorem PlaceholderFree.replaceAll {renames : List (String × String)} (h : e.PlaceholderFree)
    (hr : ∀ r ∈ renames, Label.isPlaceholder r.2 = false) :
    (e.replaceAll renames).state.PlaceholderFree := by
  induction renames generalizing e with
  | nil => exact h
  | cons r renames ih =>
    refine Outcome.state_andThen (h.replace (hr r List.mem_cons_self)) fun _ hs => ?_
    exact ih hs fun s hs => hr s (List.mem_cons_of_mem r hs)

/-- The terms below the instance term are scoped under its name, which is a term itself. -/
theorem PlaceholderFree.scopeFree (h : e.PlaceholderFree) :
    e.scopeFree.state.PlaceholderFree := by
  refine h.replaceAll fun r hr => ?_
  obtain ⟨label, hl, rfl⟩ := List.mem_map.1 hr
  have hmem := (List.mem_filter.1 hl).1
  exact Label.isPlaceholder_scopedVariable
    (h e.name (TermGraph.contains_of_descendants hmem))
    (h label (TermGraph.contains_of_mem_descendants hmem))

/-! ## Adopting -/

/-- The graph of an adopt before the scoping. -/
def purged (e : Instance) (template : TermGraph) (model : String) : TermGraph :=
  ((e.graph.compose (splice template model e.name)).removeWhere fun t =>
    Label.isPlaceholder t.label).1

theorem contains_purged (e : Instance) (template : TermGraph) (model label : String) :
    (purged e template model).contains label = true ↔ Label.isPlaceholder label = false ∧
      (e.graph.compose (splice template model e.name)).contains label = true :=
  (e.graph.compose (splice template model e.name)).valid.contains_removeWhere
    Label.isPlaceholder label

/-- An adopt that succeeds purges and then scopes. -/
theorem adopt_ok (h : (e.adopt template model).error? = none) :
    e.adopt template model = Instance.scopeFree { e with graph := purged e template model } := by
  rw [adopt_error?] at h
  split at h
  · next hc =>
    unfold adopt
    rw [if_pos hc]
    rfl
  · cases h

/-- **No placeholder is left after an adopt.** -/
theorem placeholderFree_adopt (h : (e.adopt template model).error? = none) :
    (e.adopt template model).state.PlaceholderFree := by
  rw [adopt_ok h]
  refine PlaceholderFree.scopeFree fun label hl => ?_
  exact ((contains_purged e template model label).1 hl).1

/-- An adopt keeps the registered terms that are no placeholders. -/
theorem Grounded.adopt (hg : e.Grounded fun _ => True)
    (h : (e.adopt template model).error? = none) :
    (e.adopt template model).state.Grounded fun term => Label.isPlaceholder term = false := by
  rw [adopt_ok h]
  have hpurged : Grounded (fun term => Label.isPlaceholder term = false)
      { e with graph := purged e template model } := by
    refine ⟨hg.valid, fun key term hget hp => (contains_purged e template model term).2 ⟨hp, ?_⟩⟩
    exact (Arena.grows_compose _ _).contains (hg.contains key term hget trivial)
  exact hpurged.replaceAll _

/-! ## Linking -/

/-- A link that succeeds leaves the registry alone and adds to the graph, but for the stand-in of
the identifier. -/
theorem link_ok {target : TermGraph} {id : String} {key? : Option String} {kinds : RelationKinds}
    (h : (e.link target id key? kinds).error? = none) :
    (e.link target id key? kinds).state.registry = e.registry ∧
    ∀ label, label ≠ kinds.identifierPlaceholder ∨ id = kinds.identifierPlaceholder →
      e.graph.contains label = true →
      (e.link target id key? kinds).state.graph.contains label = true := by
  unfold link at h ⊢
  split
  · next error hterm =>
    rw [hterm] at h
    cases h
  · next term hterm =>
    rw [hterm] at h
    simp only at h ⊢
    split at h
    · next hc =>
      rw [if_pos hc]
      have hgrow := (Arena.grows_compose e.graph.toArena target.toArena).trans
        (Arena.grows_relate _ ⟨term, kinds.identifierPlaceholder, ⟨kinds.resource, false⟩⟩)
      unfold Instance.replace at h ⊢
      split
      · exact ⟨rfl, fun label _ hl => hgrow.contains hl⟩
      · next hne =>
        split
        · next hr =>
          rw [if_neg hne, hr] at h
          cases h
        · next graph hr =>
          refine ⟨rfl, fun label hlabel hl => ?_⟩
          refine (Arena.contains_relabel? (TermGraph.relabel?_eq_some.1 hr) label).2
            (Or.inr ⟨?_, hgrow.contains hl⟩)
          exact hlabel.resolve_right (Ne.symm hne)
    · cases h

/-! ## What is left -/

/--
**An adopt loses the registered placeholders and nothing else, and a link at most the stand-in.**

After an adopt a registered term is a term of the graph exactly if it is no placeholder. After a
link every registered term is one that is not the stand-in of the identifier, and the stand-in too
if it is the identifier. The registry is in step on every run (`Registry.Reachable.valid`).
-/
theorem registered_after_adopt_and_link (hv : e.registry.Valid)
    (hg : ∀ key term, e.registry.get? key = some term → e.graph.contains term = true) :
    (∀ template model, (e.adopt template model).error? = none →
      ∀ key term, (e.adopt template model).state.registry.get? key = some term →
        ((e.adopt template model).state.graph.contains term = true ↔
          Label.isPlaceholder term = false)) ∧
    (∀ target id key? kinds, (e.link target id key? kinds).error? = none →
      ∀ key term, (e.link target id key? kinds).state.registry.get? key = some term →
        term ≠ kinds.identifierPlaceholder ∨ id = kinds.identifierPlaceholder →
        (e.link target id key? kinds).state.graph.contains term = true) := by
  have hgrounded : e.Grounded fun _ => True := ⟨hv, fun key term hget _ => hg key term hget⟩
  constructor
  · intro template model h key term hget
    exact ⟨placeholderFree_adopt h term, (hgrounded.adopt h).contains key term hget⟩
  · intro target id key? kinds h key term hget hterm
    obtain ⟨hregistry, hkeep⟩ := link_ok h
    rw [hregistry] at hget
    exact hkeep term hterm (hg key term hget)

/-- A motor with a placeholder, below a variable that is called like the stand-in: both operations
keep the motor itself. -/
theorem registered_after_adopt_and_link_motor :
    let motor := (TermGraph.empty.relate ⟨"db_identifier_", "motor_", ⟨"has", false⟩⟩).relate
      ⟨"motor_", "*part_", ⟨"has", false⟩⟩
    let pump := TermGraph.empty.relate ⟨"pump_", "flow_", ⟨"has", false⟩⟩
    ∃ e, ofGraph "M" "Motor" "motor_" motor = .ok e ∧
      (e.adopt pump "pump_").error? = none ∧
      (e.adopt pump "pump_").state.registry.get? "motor_" = some "M" ∧
      (e.adopt pump "pump_").state.graph.contains "M" = true ∧
      (e.link pump "ID" (some "motor_") .standard).error? = none ∧
      (e.link pump "ID" (some "motor_") .standard).state.registry.get? "motor_" = some "M" ∧
      (e.link pump "ID" (some "motor_") .standard).state.graph.contains "M" = true := by
  intro motor pump
  have hrun : (ofGraph "M" "Motor" "motor_" motor).toOption.any fun e =>
      decide ((e.adopt pump "pump_").error? = none ∧
        (e.adopt pump "pump_").state.registry.get? "motor_" = some "M" ∧
        (e.link pump "ID" (some "motor_") .standard).error? = none ∧
        (e.link pump "ID" (some "motor_") .standard).state.registry.get? "motor_" = some "M") := by
    decide +kernel
  obtain ⟨e, he, hrun⟩ := exists_ok_of_any hrun
  obtain ⟨hadopt, hadopted, hlink, hlinked⟩ := of_decide_eq_true hrun
  have hg := grounded_ofGraph he
  obtain ⟨hafterAdopt, hafterLink⟩ := registered_after_adopt_and_link hg.valid
    fun key term hget => hg.contains key term hget trivial
  exact ⟨e, he, hadopt, hadopted, (hafterAdopt _ _ hadopt _ _ hadopted).2 (by decide), hlink,
    hlinked, hafterLink _ _ _ _ hlink _ _ hlinked (Or.inl (by decide))⟩

/-- **A registered term can be lost to an adopt and to a link**: here the placeholder, and the
variable that is called like the stand-in. -/
theorem adopt_and_link_leave_registered :
    let motor := (TermGraph.empty.relate ⟨"db_identifier_", "motor_", ⟨"has", false⟩⟩).relate
      ⟨"motor_", "*part_", ⟨"has", false⟩⟩
    let pump := TermGraph.empty.relate ⟨"pump_", "flow_", ⟨"has", false⟩⟩
    ∃ e, ofGraph "M" "Motor" "motor_" motor = .ok e ∧
      (∀ key term, e.registry.get? key = some term → e.graph.contains term = true) ∧
      (e.adopt pump "pump_").error? = none ∧
      (e.adopt pump "pump_").state.registry.get? "*part_" = some "*part_" ∧
      (e.adopt pump "pump_").state.graph.contains "*part_" = false ∧
      (e.link pump "ID" (some "motor_") .standard).error? = none ∧
      (e.link pump "ID" (some "motor_") .standard).state.registry.get? "db_identifier_" =
        some "db_identifier_" ∧
      (e.link pump "ID" (some "motor_") .standard).state.graph.contains "db_identifier_" =
        false := by
  intro motor pump
  have hrun : (ofGraph "M" "Motor" "motor_" motor).toOption.any fun e =>
      decide ((e.adopt pump "pump_").error? = none ∧
        (e.adopt pump "pump_").state.registry.get? "*part_" = some "*part_" ∧
        (e.adopt pump "pump_").state.graph.contains "*part_" = false ∧
        (e.link pump "ID" (some "motor_") .standard).error? = none ∧
        (e.link pump "ID" (some "motor_") .standard).state.registry.get? "db_identifier_" =
          some "db_identifier_" ∧
        (e.link pump "ID" (some "motor_") .standard).state.graph.contains "db_identifier_" =
          false) := by
    decide +kernel
  obtain ⟨e, he, hrun⟩ := exists_ok_of_any hrun
  have hg := grounded_ofGraph he
  exact ⟨e, he, fun key term hget => hg.contains key term hget trivial, of_decide_eq_true hrun⟩

end Instance

end Ontogram
