import Ontogram.Instance.Adopt
import Ontogram.Instance.Bind
import Ontogram.Instance.Link
import Ontogram.Proofs.Instance.Rename

/-!
# Failing operations change nothing

Each operation looks at everything that can go wrong before it changes anything. What it does
afterwards is a union, a removal or a list of renames of distinct terms, and none of these fails.
-/

namespace Ontogram.Instance

variable {e child : Instance}

/-! ## Operations on one instance -/

theorem define_of_error {key value : String} {error : InstanceError}
    (hf : (e.define key value).error? = some error) : (e.define key value).state = e := by
  unfold define at hf ⊢
  split
  · rfl
  · next current hr =>
    rw [hr] at hf
    exact replace_of_error hf

/-- A link gets through once its term is known to be there. -/
theorem link_of_error {target : TermGraph} {id : String} {key? : Option String}
    {kinds : RelationKinds} {error : InstanceError}
    (hf : (e.link target id key? kinds).error? = some error) :
    (e.link target id key? kinds).state = e := by
  unfold link at hf ⊢
  split
  · rfl
  · next term hterm =>
    rw [hterm] at hf
    simp only at hf ⊢
    split
    · next hc =>
      rw [if_pos hc] at hf
      -- The stand-in was added right before it is renamed.
      have hp : ((e.composeGraph target).relate
          ⟨term, kinds.identifierPlaceholder, ⟨kinds.resource, false⟩⟩).graph.contains
            kinds.identifierPlaceholder = true :=
        (Arena.contains_relate _ _ _).2 (Or.inr (Or.inl rfl))
      obtain ⟨graph, registry, hdone, -⟩ := replace_done hp id true
      rw [hdone] at hf
      cases hf
    · rfl

theorem adopt_error? (e : Instance) (template : TermGraph) (model : String) :
    (e.adopt template model).error? =
      if template.contains model then none else some (.unknownModel e.name model) := by
  unfold adopt
  split
  · obtain ⟨graph, registry, hdone⟩ := scopeFree_done { e with
      graph := ((e.graph.compose (splice template model e.name)).removeWhere fun t =>
        Label.isPlaceholder t.label).1 }
    simp only
    rw [hdone]
    rfl
  · rfl

theorem adopt_of_error {template : TermGraph} {model : String} {error : InstanceError}
    (hf : (e.adopt template model).error? = some error) :
    (e.adopt template model).state = e := by
  rw [adopt_error?] at hf
  split at hf
  · cases hf
  · next hc =>
    unfold adopt
    rw [if_neg hc]
    rfl

/-! ## Binding -/

theorem sharings_sublist (parent child : Instance) (path : List String) :
    ((sharings parent child path).map Prod.fst).Sublist path := by
  unfold sharings
  induction path with
  | nil => exact List.Sublist.refl _
  | cons label path ih =>
    rw [List.filterMap_cons]
    cases shared? parent child label with
    | none => exact ih.cons label
    | some value => exact ih.cons_cons label

theorem bindPath?_eq_some {path : List String} (hp : bindPath? e child = some path) :
    child.graph.shortestPath? e.selfTerm child.selfLabel = some path ∧ 2 ≤ path.length := by
  unfold bindPath? at hp
  split at hp
  · next q hq =>
    split at hp
    · next hl => exact ⟨hq.trans hp, Option.some.inj hp ▸ hl⟩
    · cases hp
  · cases hp

/-- The renames that let the child share terms with the parent all succeed. -/
theorem sharings_done {path : List String} (hp : bindPath? e child = some path) :
    ∃ graph registry,
      child.replaceAll (sharings e child path) = .done { child with graph, registry } := by
  have hpath := (bindPath?_eq_some hp).1
  have hsub := sharings_sublist e child path
  refine replaceAll_done ((TermGraph.shortestPath?_nodup hpath).sublist hsub) fun r hr => ?_
  exact TermGraph.contains_of_mem_shortestPath? hpath (hsub.subset (List.mem_map_of_mem hr))

/-- All renames of a bind succeed, those of the path and those of the scoping. -/
theorem bind_renames_done {path : List String} (hp : bindPath? e child = some path) :
    ∃ graph registry, ((child.replaceAll (sharings e child path)).andThen fun child =>
      if e.isComponent then child.scopeUnder e.name else .done child)
        = .done { child with graph, registry } := by
  obtain ⟨graph, registry, hdone⟩ := sharings_done hp
  rw [hdone, Outcome.andThen_done]
  split
  · exact scopeUnder_done _ e.name
  · exact ⟨graph, registry, rfl⟩

theorem bind_error? (e child : Instance) :
    (e.bind child).error? =
      match child.parent with
      | some former => some (.reparent child.name former)
      | none =>
        match bindPath? e child with
        | none => some (.structuralPath e.name child.name e.selfTerm child.selfLabel)
        | some _ => none := by
  unfold bind
  cases child.parent with
  | some former => rfl
  | none =>
    simp only
    cases hp : bindPath? e child with
    | none => rfl
    | some path =>
      obtain ⟨graph, registry, hdone⟩ := bind_renames_done hp
      simp only
      rw [hdone]
      rfl

/-- **A bind that succeeds** has renamed the child and united the two graphs. -/
theorem bind_eq_done (h : (e.bind child).error? = none) :
    ∃ path graph registry, child.parent = none ∧ bindPath? e child = some path ∧
      ((child.replaceAll (sharings e child path)).andThen fun child =>
        if e.isComponent then child.scopeUnder e.name else .done child)
          = .done { child with graph, registry } ∧
      e.bind child = .done
        ({ e with
            children := Text.insertAscending child.name e.children
            connector := some (connectorAfter (lastButOne path) (sharings e child path))
            graph := e.graph.compose graph },
          { child with graph, registry, parent := some e.name }) := by
  rw [bind_error?] at h
  split at h
  · cases h
  · next hparent =>
    split at h
    · cases h
    · next path hp =>
      obtain ⟨graph, registry, hdone⟩ := bind_renames_done hp
      refine ⟨path, graph, registry, hparent, hp, hdone, ?_⟩
      unfold bind
      rw [hparent]
      simp only
      rw [hp]
      simp only
      rw [hdone]
      rfl

theorem bind_of_error {error : InstanceError} (hf : (e.bind child).error? = some error) :
    (e.bind child).state = (e, child) := by
  rw [bind_error?] at hf
  unfold bind
  cases hparent : child.parent with
  | some former => rfl
  | none =>
    rw [hparent] at hf
    simp only at hf ⊢
    cases hp : bindPath? e child with
    | none => rfl
    | some path =>
      rw [hp] at hf
      cases hf

/-! ## All operations -/

/--
**A failed operation leaves everything as it was.**

The last two parts say why nothing fails half way: the renames of a bind, of the path and then of
the scoping, and the renames after the removal in an adopt go through whatever they merge.
-/
theorem failed_operation_changes_nothing (e child : Instance) :
    (∀ old new silent error, (e.replace old new silent).error? = some error →
      (e.replace old new silent).state = e) ∧
    (∀ key value error, (e.define key value).error? = some error →
      (e.define key value).state = e) ∧
    (∀ target id key? kinds error, (e.link target id key? kinds).error? = some error →
      (e.link target id key? kinds).state = e) ∧
    (∀ template model error, (e.adopt template model).error? = some error →
      (e.adopt template model).state = e) ∧
    (∀ error, (e.bind child).error? = some error → (e.bind child).state = (e, child)) ∧
    (∀ path, bindPath? e child = some path →
      (child.replaceAll (sharings e child path)).error? = none ∧
      ((child.replaceAll (sharings e child path)).state.scopeUnder e.name).error? = none) ∧
    (∀ template model, template.contains model = true →
      let spliced := e.graph.compose (splice template model e.name)
      let purged := (spliced.removeWhere fun t => Label.isPlaceholder t.label).1
      ({ e with graph := purged }.scopeFree).error? = none) := by
  refine ⟨fun _ _ _ _ => replace_of_error, fun _ _ _ => define_of_error,
    fun _ _ _ _ _ => link_of_error, fun _ _ _ => adopt_of_error, fun _ => bind_of_error, ?_, ?_⟩
  · intro path hp
    obtain ⟨graph, registry, hdone⟩ := sharings_done hp
    obtain ⟨graph', registry', hdone'⟩ :=
      scopeUnder_done (child.replaceAll (sharings e child path)).state e.name
    exact ⟨by rw [hdone]; rfl, by rw [hdone']; rfl⟩
  · intro template model _ spliced purged
    obtain ⟨graph, registry, hdone⟩ := scopeFree_done { e with graph := purged }
    rw [hdone]
    rfl

/-- A parent that resolves the second term of the path to the third, which is renamed after it. -/
theorem failed_operation_changes_nothing_colliding :
    let rows :=
      (TermGraph.empty.relate ⟨"a_", "b_", ⟨"r", false⟩⟩).relate ⟨"b_", "c_", ⟨"r", false⟩⟩
    let child := unbound "C" "T" "c_" rows
    let e := { unbound "P" "T" "a_" rows with
      registry := ((Registry.empty.set "a_" "P").set "b_" "c_").set "c_" "X" }
    (e.replace "d_" "D" false).error? = some (.unknownTerm "P" "d_") ∧
    (e.replace "d_" "D" false).state = e ∧
    (e.adopt rows "d_").error? = some (.unknownModel "P" "d_") ∧ (e.adopt rows "d_").state = e ∧
    sharings e child ["a_", "b_", "c_"] = [("a_", "P"), ("b_", "c_"), ("c_", "X")] ∧
    (child.replaceAll (sharings e child ["a_", "b_", "c_"])).error? = none := by
  intro rows child e
  obtain ⟨hreplace, -, -, hadopt, -, hbind, -⟩ := failed_operation_changes_nothing e child
  have h1 : (e.replace "d_" "D" false).error? = some (.unknownTerm "P" "d_") := by decide
  have h2 : (e.adopt rows "d_").error? = some (.unknownModel "P" "d_") := by decide
  have h3 : bindPath? e child = some ["a_", "b_", "c_"] := by decide
  exact ⟨h1, hreplace _ _ _ _ h1, h2, hadopt _ _ _ h2, by decide, (hbind _ h3).1⟩

end Ontogram.Instance
