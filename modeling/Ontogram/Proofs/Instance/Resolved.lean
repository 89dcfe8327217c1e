import Ontogram.Proofs.Instance.Connection
import Ontogram.Proofs.Instance.Unrecorded

/-!
# Terms that a variable already stands for

A bind and an adopt rename terms that nobody named. To share a path, a bind renames variables that
still stand for themselves, and no others. But scoping goes by the look of a term, so a term that a
variable was given is scoped too if it looks like a free variable. And a rename to such a term takes
it away from its variable, since a term has one variable at most.

A variable keeps its term through everything else. This leaves out one case, in which a rename
takes out a term that is called like the variable and that no variable stands for: the rename is
recorded under the variable then, whatever it stood for (`Registry.overwrites`).

* `Registry.get?_recordAll_append_iff` — which variables keep their term.
* `Instance.resolved_terms_stay` — the same for a bind and an adopt.
* `Instance.bind_and_adopt_scope_resolved` — a term that was given and is scoped.
-/

namespace Ontogram

/-! ## Scoped variables -/

namespace Label

/-- The number of characters that are no variable markers. -/
def unmarked (label : String) : Nat :=
  label.toList.countP (· != variableMarker)

theorem unmarked_stem (label : String) : unmarked (stem label) = unmarked label := by
  unfold stem
  split
  · next hv =>
    unfold isVariable at hv
    rw [beq_iff_eq] at hv
    unfold unmarked
    rw [String.toList_ofList, ← List.dropLast_append_getLast? _ hv, List.countP_append]
    simp
  · rfl

/-- A scoped variable has the blank more, if nothing else. -/
theorem unmarked_lt_scopedVariable (scope label : String) :
    unmarked label < unmarked (scopedVariable scope label) := by
  have happend : ∀ s t : String, unmarked (s ++ t) = unmarked s + unmarked t := by
    intro s t
    simp [unmarked]
  have hblank : unmarked " " = 1 := by decide
  rw [scopedVariable, happend, happend, unmarked_stem, hblank]
  omega

end Label

/-! ## Renames in turn -/

namespace Registry

variable {r : Registry} {old key term : String} {renames : List (String × String)}

/-- Records renames in turn. -/
def recordAll (r : Registry) (renames : List (String × String)) : Registry :=
  renames.foldl (fun r p => r.recordRename p.1 p.2) r

/-- Says that a rename takes out a term called like the variable when no variable stands for it. -/
def overwrites : Registry → List (String × String) → String → Bool
  | _, [], _ => false
  | r, p :: renames, key =>
    p.1 == key && (r.keyOf? p.1).isNone || overwrites (r.recordRename p.1 p.2) renames key

theorem overwrites_cons {p : String × String} :
    r.overwrites (p :: renames) key = false ↔
      (p.1 = key → r.keyOf? p.1 ≠ none) ∧
        (r.recordRename p.1 p.2).overwrites renames key = false := by
  rw [overwrites, Bool.or_eq_false_iff, Bool.and_eq_false_imp, beq_iff_eq,
    Option.isNone_eq_false_iff, Option.isSome_iff_ne_none]

theorem overwrites_append {renames' : List (String × String)} :
    r.overwrites (renames ++ renames') key = false ↔
      r.overwrites renames key = false ∧ (r.recordAll renames).overwrites renames' key = false := by
  induction renames generalizing r with
  | nil => simp [overwrites, recordAll]
  | cons p renames ih =>
    rw [List.cons_append, overwrites_cons, overwrites_cons, ih, and_assoc]
    rfl

/-- A variable that is not overwritten keeps its term in a rename, or follows it, or loses it. -/
theorem Valid.get?_recordRename_of_ne_none (hr : r.Valid)
    (ho : old = key → r.keyOf? old ≠ none) (new : String) :
    (r.recordRename old new).get? key =
      if r.get? key = some old then some new
      else if r.get? key = some new then none else r.get? key := by
  have hvariable : key = r.variableOf old ↔ r.get? key = some old :=
    hr.eq_variableOf_iff.trans (or_iff_left fun h => ho h.1.symm h.2)
  rw [recordRename_eq_set, hr.get?_set]
  simp only [hvariable]

theorem Valid.recordAll (hr : r.Valid) (renames : List (String × String)) :
    (r.recordAll renames).Valid := by
  induction renames generalizing r with
  | nil => exact hr
  | cons p renames ih => exact ih (hr.recordRename p.1 p.2)

/-- A variable that stands for nothing gets no term. -/
theorem Valid.get?_recordAll_of_none (hr : r.Valid) (ho : r.overwrites renames key = false)
    (hk : r.get? key = none) : (r.recordAll renames).get? key = none := by
  induction renames generalizing r with
  | nil => exact hk
  | cons p renames ih =>
    obtain ⟨hp, ho⟩ := overwrites_cons.1 ho
    refine ih (hr.recordRename p.1 p.2) ho ?_
    rw [hr.get?_recordRename_of_ne_none hp, hk]
    simp

/-- A term that is not renamed stays with its variable, unless another one is renamed to it. -/
theorem Valid.get?_recordAll_of_forall_ne (hr : r.Valid) (ho : r.overwrites renames key = false)
    (hne : ∀ p ∈ renames, p.1 ≠ term) (hk : r.get? key = some term) :
    (∀ p ∈ renames, p.2 ≠ term) ∧ (r.recordAll renames).get? key = some term ∨
      (¬∀ p ∈ renames, p.2 ≠ term) ∧ (r.recordAll renames).get? key = none := by
  induction renames generalizing r with
  | nil => exact Or.inl ⟨nofun, hk⟩
  | cons p renames ih =>
    obtain ⟨hp, hrest⟩ := overwrites_cons.1 ho
    obtain ⟨hold, hne⟩ := List.forall_mem_cons.1 hne
    have hv := hr.recordRename p.1 p.2
    have hstep := hr.get?_recordRename_of_ne_none hp p.2
    rw [hk, if_neg (by simpa using hold.symm)] at hstep
    rw [List.forall_mem_cons]
    by_cases hnew : p.2 = term
    · rw [if_pos (by rw [hnew])] at hstep
      exact Or.inr ⟨fun h => h.1 hnew, hv.get?_recordAll_of_none hrest hstep⟩
    · rw [if_neg (by simpa using Ne.symm hnew)] at hstep
      rw [and_iff_right hnew]
      exact ih hv hrest hne hstep

/-- Renames to greater terms leave a variable with a greater term, or none. -/
theorem Valid.lt_of_recordAll {size : String → Nat} (hr : r.Valid)
    (ho : r.overwrites renames key = false) (hsize : ∀ p ∈ renames, size p.1 < size p.2)
    (hk : ∀ t, r.get? key = some t → size term < size t) :
    ∀ t, (r.recordAll renames).get? key = some t → size term < size t := by
  induction renames generalizing r with
  | nil => exact hk
  | cons p renames ih =>
    obtain ⟨hp, hrest⟩ := overwrites_cons.1 ho
    obtain ⟨hlt, hsize⟩ := List.forall_mem_cons.1 hsize
    refine ih (hr.recordRename p.1 p.2) hrest hsize fun t ht => ?_
    rw [hr.get?_recordRename_of_ne_none hp] at ht
    split at ht
    · next hold =>
      cases ht
      exact Nat.lt_trans (hk _ hold) hlt
    · split at ht
      · cases ht
      · exact hk t ht

/-- Renames to greater terms take a term away from its variable for good. -/
theorem Valid.lt_of_recordAll_of_mem {size : String → Nat} (hr : r.Valid)
    (ho : r.overwrites renames key = false) (hsize : ∀ p ∈ renames, size p.1 < size p.2)
    (hk : r.get? key = some term) {p : String × String} (hp : p ∈ renames)
    (ht : p.1 = term ∨ p.2 = term) :
    ∀ t, (r.recordAll renames).get? key = some t → size term < size t := by
  induction renames generalizing r with
  | nil => exact absurd hp List.not_mem_nil
  | cons q renames ih =>
    obtain ⟨hq, hrest⟩ := overwrites_cons.1 ho
    obtain ⟨hlt, hsize⟩ := List.forall_mem_cons.1 hsize
    have hv := hr.recordRename q.1 q.2
    have hstep := hr.get?_recordRename_of_ne_none hq q.2
    rw [hk] at hstep
    by_cases hold : q.1 = term
    · rw [if_pos (by rw [hold])] at hstep
      refine hv.lt_of_recordAll hrest hsize fun t ht => ?_
      cases hstep.symm.trans ht
      exact hold ▸ hlt
    · rw [if_neg (by simpa using Ne.symm hold)] at hstep
      by_cases hnew : q.2 = term
      · rw [if_pos (by rw [hnew])] at hstep
        refine hv.lt_of_recordAll hrest hsize fun t ht => ?_
        cases hstep.symm.trans ht
      · rw [if_neg (by simpa using Ne.symm hnew)] at hstep
        refine ih hv hrest hsize hstep ((List.mem_cons.1 hp).resolve_left ?_)
        rintro rfl
        exact ht.elim hold hnew

/-- Says that renames neither take a term out nor make another one it. -/
def Spares (renames : List (String × String)) (term : String) : Prop :=
  ∀ p ∈ renames, p.1 ≠ term ∧ p.2 ≠ term

/-- **A variable keeps its term exactly if the renames spare the term**, where the first ones do not
take it out and the others are to greater terms. -/
theorem Valid.get?_recordAll_append_iff {size : String → Nat}
    {shared scopes : List (String × String)} (hr : r.Valid)
    (ho : r.overwrites (shared ++ scopes) key = false) (hshared : ∀ p ∈ shared, p.1 ≠ term)
    (hscopes : ∀ p ∈ scopes, size p.1 < size p.2) (hk : r.get? key = some term) :
    (r.recordAll (shared ++ scopes)).get? key = some term ↔ Spares (shared ++ scopes) term := by
  obtain ⟨ho, ho'⟩ := overwrites_append.1 ho
  have hv := hr.recordAll shared
  have happend : r.recordAll (shared ++ scopes) = (r.recordAll shared).recordAll scopes :=
    List.foldl_append
  unfold Spares
  rw [happend, List.forall_mem_append]
  rcases hr.get?_recordAll_of_forall_ne ho hshared hk with ⟨hnew, hafter⟩ | ⟨hnew, hafter⟩
  · rw [and_iff_right fun p hp => ⟨hshared p hp, hnew p hp⟩]
    constructor
    · intro hlast p hp
      -- A touched term would be less than itself.
      by_contra htouch
      rw [not_and_or, not_not, not_not] at htouch
      exact absurd (hv.lt_of_recordAll_of_mem ho' hscopes hafter hp htouch term hlast)
        (Nat.lt_irrefl _)
    · intro hspares
      rcases hv.get?_recordAll_of_forall_ne ho' (fun p hp => (hspares p hp).1) hafter with h | h
      · exact h.2
      · exact absurd (fun p hp => (hspares p hp).2) h.1
  · rw [hv.get?_recordAll_of_none ho' hafter]
    exact iff_of_false nofun fun h => hnew fun p hp => (h.1 p hp).2

theorem Valid.get?_recordAll_iff {size : String → Nat} (hr : r.Valid)
    (ho : r.overwrites renames key = false) (hsize : ∀ p ∈ renames, size p.1 < size p.2)
    (hk : r.get? key = some term) :
    (r.recordAll renames).get? key = some term ↔ Spares renames term := by
  have ho' : r.overwrites ([] ++ renames) key = false := ho
  exact hr.get?_recordAll_append_iff ho' nofun hsize hk

end Registry

/-- Says that an operation succeeds and what holds of its state. -/
def Outcome.any {σ : Type} (o : Outcome σ) (q : σ → Bool) : Bool :=
  o.error?.isNone && q o.state

theorem exists_done_of_any {σ : Type} {o : Outcome σ} {q : σ → Bool} (h : o.any q = true) :
    ∃ s, o = .done s ∧ q s = true := by
  obtain ⟨hnone, hq⟩ := Bool.and_eq_true_iff.1 h
  exact ⟨o.state, congrArg (Outcome.mk _) (Option.isNone_iff_eq_none.1 hnone), hq⟩

/-! ## Renames of an instance -/

namespace Instance

open Registry (Spares)

variable {e f : Instance} {renames : List (String × String)} {key term : String}

/-- Renames that change something are recorded, each in its turn. -/
theorem registry_replaceAll (hd : e.replaceAll renames = .done f)
    (hne : ∀ p ∈ renames, p.1 ≠ p.2) : f.registry = e.registry.recordAll renames := by
  induction renames generalizing e with
  | nil =>
    cases hd
    rfl
  | cons p renames ih =>
    obtain ⟨e₁, h₁, hd⟩ := replaceAll_cons_ok.1 hd
    obtain ⟨hp, hne⟩ := List.forall_mem_cons.1 hne
    rcases replace_ok h₁ with ⟨heq, -⟩ | ⟨-, graph, -, rfl⟩
    · exact absurd heq hp
    · exact ih hd hne

/-- A term that is not renamed stays a term. -/
theorem contains_replaceAll (hd : e.replaceAll renames = .done f)
    (hne : ∀ p ∈ renames, p.1 ≠ term) (hc : e.graph.contains term = true) :
    f.graph.contains term = true := by
  induction renames generalizing e with
  | nil =>
    cases hd
    exact hc
  | cons p renames ih =>
    obtain ⟨e₁, h₁, hd⟩ := replaceAll_cons_ok.1 hd
    obtain ⟨hp, hne⟩ := List.forall_mem_cons.1 hne
    refine ih hd hne ?_
    rcases replace_ok h₁ with ⟨-, rfl⟩ | ⟨-, graph, hr, rfl⟩
    · exact hc
    · exact (Arena.contains_relabel? (TermGraph.relabel?_eq_some.1 hr) term).2
        (Or.inr ⟨Ne.symm hp, hc⟩)

theorem mem_scopings {scope : String} {labels : List String} {p : String × String} :
    p ∈ scopings scope labels ↔
      p.1 ∈ labels ∧ Label.isFree p.1 = true ∧ p.2 = Label.scopedVariable scope p.1 := by
  unfold scopings
  rw [List.mem_map]
  constructor
  · rintro ⟨label, hl, rfl⟩
    obtain ⟨hmem, hfree⟩ := List.mem_filter.1 hl
    exact ⟨hmem, hfree, rfl⟩
  · rintro ⟨hmem, hfree, hnew⟩
    exact ⟨p.1, List.mem_filter.2 ⟨hmem, hfree⟩, Prod.ext rfl hnew.symm⟩

theorem unmarked_lt_of_mem_scopings {scope : String} {labels : List String} {p : String × String}
    (hp : p ∈ scopings scope labels) : Label.unmarked p.1 < Label.unmarked p.2 := by
  rw [(mem_scopings.1 hp).2.2]
  exact Label.unmarked_lt_scopedVariable scope p.1

/-- What is renamed to share a path stands for itself, and becomes another term. -/
theorem shared?_eq_some {parent child : Instance} {label value : String}
    (h : shared? parent child label = some value) :
    child.registry.variableOf label = label ∧ parent.registry.get? label = some value ∧
      value ≠ label := by
  unfold shared? at h
  split at h
  · next hkey =>
    split at h
    · next found hget =>
      split at h
      · cases h
      · next hne =>
        cases h
        exact ⟨hkey, hget, hne⟩
    · cases h
  · cases h

theorem shared?_of_mem_sharings {parent child : Instance} {path : List String} {p : String × String}
    (hp : p ∈ sharings parent child path) : shared? parent child p.1 = some p.2 := by
  obtain ⟨label, -, hl⟩ := List.mem_filterMap.1 hp
  obtain ⟨value, hv, rfl⟩ := Option.map_eq_some_iff.1 hl
  exact hv

/-- A term that a variable was given is not renamed to share a path. -/
theorem ne_of_mem_sharings {parent child : Instance} {path : List String}
    (hv : child.registry.Valid) (hk : child.registry.get? key = some term) (hne : key ≠ term)
    {p : String × String} (hp : p ∈ sharings parent child path) : p.1 ≠ term := by
  rintro rfl
  have hself := (shared?_eq_some (shared?_of_mem_sharings hp)).1
  rw [Registry.variableOf_eq_of_keyOf? (hv.get?_eq_some_iff_keyOf?.1 hk)] at hself
  exact hne hself

/-! ## Binding and adopting -/

/-- Behind the renames that share a path, a bind has those that scope free variables. There are some
only under a component. -/
theorem exists_bindRenames_eq {parent child : Instance} {path : List String}
    (hp : bindPath? parent child = some path) :
    ∃ scopes, bindRenames parent child = sharings parent child path ++ scopes ∧
      ∀ p ∈ scopes, parent.isComponent = true ∧ Label.isFree p.1 = true ∧
        Label.unmarked p.1 < Label.unmarked p.2 := by
  unfold bindRenames
  rw [hp]
  refine ⟨_, rfl, fun p hmem => ?_⟩
  split at hmem
  · next hcomponent =>
    exact ⟨hcomponent, (mem_scopings.1 hmem).2.1, unmarked_lt_of_mem_scopings hmem⟩
  · exact absurd hmem List.not_mem_nil

/-- A variable of a bound instance keeps its term if the renames spare it. -/
theorem get?_bind_iff {parent : Instance} (hv : e.registry.Valid)
    (hbind : (parent.bind e).error? = none) (hk : e.registry.get? key = some term)
    (hne : key ≠ term) (ho : e.registry.overwrites (bindRenames parent e) key = false) :
    ((parent.bind e).state.2.registry.get? key = some term ↔ Spares (bindRenames parent e) term) ∧
    (∀ p ∈ bindRenames parent e, p.1 = term →
      parent.isComponent = true ∧ Label.isFree term = true) ∧
    (Spares (bindRenames parent e) term → e.graph.contains term = true →
      (parent.bind e).state.2.graph.contains term = true) := by
  obtain ⟨path, c, hp, hdone, -, -, hchild⟩ := bind_ok hbind
  obtain ⟨scopes, hrenames, hscopes⟩ := exists_bindRenames_eq hp
  have hshared : ∀ p ∈ sharings parent e path, p.1 ≠ term :=
    fun p hmem => ne_of_mem_sharings hv hk hne hmem
  have hregistry : c.registry = e.registry.recordAll (bindRenames parent e) := by
    refine registry_replaceAll hdone fun p hmem heq => ?_
    rw [hrenames] at hmem
    rcases List.mem_append.1 hmem with hmem | hmem
    · exact (shared?_eq_some (shared?_of_mem_sharings hmem)).2.2 heq.symm
    · exact Nat.ne_of_lt (hscopes p hmem).2.2 (congrArg Label.unmarked heq)
  refine ⟨?_, fun p hmem hterm => ?_, fun hspares hc => ?_⟩
  · rw [hchild]
    show c.registry.get? key = some term ↔ _
    rw [hregistry]
    rw [hrenames] at ho ⊢
    exact hv.get?_recordAll_append_iff ho hshared (fun p hmem => (hscopes p hmem).2.2) hk
  · rw [hrenames] at hmem
    rcases List.mem_append.1 hmem with hmem | hmem
    · exact absurd hterm (hshared p hmem)
    · obtain ⟨hcomponent, hfree, -⟩ := hscopes p hmem
      exact ⟨hcomponent, hterm ▸ hfree⟩
  · rw [hchild]
    show c.graph.contains term = true
    exact contains_replaceAll hdone (fun p hmem => (hspares p hmem).1) hc

/-- The renames of an adopt in turn. -/
def adoptRenames (e : Instance) (template : TermGraph) (model : String) : List (String × String) :=
  scopings e.name ((purged e template model).descendants e.name)

/-- A variable of an instance keeps its term in an adopt if the renames spare it. -/
theorem get?_adopt_iff {template : TermGraph} {model : String} (hv : e.registry.Valid)
    (hadopt : (e.adopt template model).error? = none) (hk : e.registry.get? key = some term)
    (ho : e.registry.overwrites (adoptRenames e template model) key = false) :
    ((e.adopt template model).state.registry.get? key = some term ↔
      Spares (adoptRenames e template model) term) ∧
    (∀ p ∈ adoptRenames e template model, p.1 = term → Label.isFree term = true) ∧
    (Spares (adoptRenames e template model) term → e.graph.contains term = true →
      ((e.adopt template model).state.graph.contains term = true ↔
        Label.isPlaceholder term = false)) := by
  obtain ⟨graph, registry, hscope⟩ := scopeFree_done { e with graph := purged e template model }
  have hdone : ({ e with graph := purged e template model } : Instance).replaceAll
      (adoptRenames e template model) = .done { e with graph, registry } := hscope
  have hstate : (e.adopt template model).state = { e with graph, registry } := by
    rw [adopt_ok hadopt, hscope]
    rfl
  have hsize : ∀ p ∈ adoptRenames e template model, Label.unmarked p.1 < Label.unmarked p.2 :=
    fun p hp => unmarked_lt_of_mem_scopings hp
  have hregistry : registry = e.registry.recordAll (adoptRenames e template model) :=
    registry_replaceAll hdone fun p hp heq =>
      Nat.ne_of_lt (hsize p hp) (congrArg Label.unmarked heq)
  have hfree : ∀ p ∈ adoptRenames e template model, Label.isFree p.1 = true :=
    fun p hp => (mem_scopings.1 hp).2.1
  refine ⟨?_, fun p hp hterm => hterm ▸ hfree p hp, fun hspares hc => ⟨?_, ?_⟩⟩
  · rw [hstate]
    show registry.get? key = some term ↔ _
    rw [hregistry]
    exact hv.get?_recordAll_iff ho hsize hk
  · exact placeholderFree_adopt hadopt term
  · intro hp
    rw [hstate]
    refine contains_replaceAll hdone (fun p hmem => (hspares p hmem).1) ?_
    exact (contains_purged e template model term).2
      ⟨hp, (Arena.grows_compose _ _).contains hc⟩

/--
**What a bind and an adopt leave of the terms that variables were given.**

A variable that stands for another term keeps the term exactly if no rename takes it out or makes
another term it. A rename takes it out only if it looks like a free variable, and in a bind only
under a component. A term that is spared stays one, but for placeholders in an adopt. Variables that
a rename overwrites are left out.
-/
theorem resolved_terms_stay (hv : e.registry.Valid) {key term : String}
    (hk : e.registry.get? key = some term) (hne : key ≠ term) :
    (∀ parent : Instance, (parent.bind e).error? = none →
      let renames := bindRenames parent e
      let child := (parent.bind e).state.2
      e.registry.overwrites renames key = false →
      (child.registry.get? key = some term ↔ Spares renames term) ∧
      (∀ p ∈ renames, p.1 = term → parent.isComponent = true ∧ Label.isFree term = true) ∧
      (Spares renames term → e.graph.contains term = true →
        child.graph.contains term = true)) ∧
    (∀ template model, (e.adopt template model).error? = none →
      let renames := adoptRenames e template model
      let adopted := (e.adopt template model).state
      e.registry.overwrites renames key = false →
      (adopted.registry.get? key = some term ↔ Spares renames term) ∧
      (∀ p ∈ renames, p.1 = term → Label.isFree term = true) ∧
      (Spares renames term → e.graph.contains term = true →
        (adopted.graph.contains term = true ↔ Label.isPlaceholder term = false))) :=
  ⟨fun _ hbind => get?_bind_iff hv hbind hk hne, fun _ _ hadopt => get?_adopt_iff hv hadopt hk⟩

/-- A motor whose speed is given, bound into a plant and given a pump: the speed stays. -/
theorem resolved_terms_stay_motor :
    let plant := TermGraph.empty.relate ⟨"plant_", "site_", ⟨"has", false⟩⟩
    let motor := (TermGraph.empty.relate ⟨"plant_", "motor_", ⟨"has", false⟩⟩).relate
      ⟨"motor_", "speed_", ⟨"has", false⟩⟩
    let pump := TermGraph.empty.relate ⟨"pump_", "flow_", ⟨"has", false⟩⟩
    ∃ p m e, ofGraph "P" "Plant" "plant_" plant = .ok p ∧
      ofGraph "M" "Motor" "motor_" motor = .ok m ∧ m.define "speed_" "fast" = .done e ∧
      e.registry.get? "speed_" = some "fast" ∧
      ({ p with isComponent := true }.bind e).error? = none ∧
      ({ p with isComponent := true }.bind e).state.2.registry.get? "speed_" = some "fast" ∧
      ({ p with isComponent := true }.bind e).state.2.graph.contains "fast" = true ∧
      (e.adopt pump "pump_").error? = none ∧
      (e.adopt pump "pump_").state.registry.get? "speed_" = some "fast" ∧
      (e.adopt pump "pump_").state.graph.contains "fast" = true := by
  intro plant motor pump
  have hrun : (ofGraph "P" "Plant" "plant_" plant).toOption.any fun p =>
      (ofGraph "M" "Motor" "motor_" motor).toOption.any fun m =>
        (m.define "speed_" "fast").any fun e =>
          decide (e.registry.get? "speed_" = some "fast" ∧
            e.graph.contains "fast" = true ∧
            ({ p with isComponent := true }.bind e).error? = none ∧
            e.registry.overwrites (bindRenames { p with isComponent := true } e) "speed_" = false ∧
            (∀ r ∈ bindRenames { p with isComponent := true } e, r.1 ≠ "fast" ∧ r.2 ≠ "fast") ∧
            (e.adopt pump "pump_").error? = none ∧
            e.registry.overwrites (adoptRenames e pump "pump_") "speed_" = false ∧
            ∀ r ∈ adoptRenames e pump "pump_", r.1 ≠ "fast" ∧ r.2 ≠ "fast") := by decide +kernel
  obtain ⟨p, hp, hrun⟩ := exists_ok_of_any hrun
  obtain ⟨m, hm, hrun⟩ := exists_ok_of_any hrun
  obtain ⟨e, he, hrun⟩ := exists_done_of_any hrun
  obtain ⟨hk, hc, hbind, hbo, hbs, hadopt, hao, has⟩ := of_decide_eq_true hrun
  have hv : e.registry.Valid := by
    have hg := (grounded_ofGraph hm).define "speed_" "fast"
    rw [he] at hg
    exact hg.valid
  obtain ⟨hbound, hadopted⟩ := resolved_terms_stay hv hk (by decide)
  obtain ⟨hb, -, hbc⟩ := hbound _ hbind hbo
  obtain ⟨ha, -, hac⟩ := hadopted _ _ hadopt hao
  exact ⟨p, m, e, hp, hm, he, hk, hbind, hb.2 hbs, hbc hbs hc, hadopt, ha.2 has,
    (hac has hc).2 (by decide)⟩

/-- **A given term that looks like a free variable is scoped**, by a bind under a component and by
an adopt. -/
theorem bind_and_adopt_scope_resolved :
    let plant := TermGraph.empty.relate ⟨"plant_", "site_", ⟨"has", false⟩⟩
    let motor := (TermGraph.empty.relate ⟨"plant_", "motor_", ⟨"has", false⟩⟩).relate
      ⟨"motor_", "speed_", ⟨"has", false⟩⟩
    let pump := TermGraph.empty.relate ⟨"pump_", "flow_", ⟨"has", false⟩⟩
    ∃ p m e, ofGraph "P" "Plant" "plant_" plant = .ok p ∧
      ofGraph "M" "Motor" "motor_" motor = .ok m ∧ m.define "speed_" "fast_" = .done e ∧
      e.registry.get? "speed_" = some "fast_" ∧ e.graph.contains "fast_" = true ∧
      ({ p with isComponent := true }.bind e).error? = none ∧
      ({ p with isComponent := true }.bind e).state.2.registry.get? "speed_" = some "P fast" ∧
      ({ p with isComponent := true }.bind e).state.2.graph.contains "fast_" = false ∧
      (e.adopt pump "pump_").error? = none ∧
      (e.adopt pump "pump_").state.registry.get? "speed_" = some "M fast" ∧
      (e.adopt pump "pump_").state.graph.contains "fast_" = false := by
  intro plant motor pump
  have hrun : (ofGraph "P" "Plant" "plant_" plant).toOption.any fun p =>
      (ofGraph "M" "Motor" "motor_" motor).toOption.any fun m =>
        (m.define "speed_" "fast_").any fun e =>
          decide (e.registry.get? "speed_" = some "fast_" ∧
            e.graph.contains "fast_" = true ∧
            ({ p with isComponent := true }.bind e).error? = none ∧
            ({ p with isComponent := true }.bind e).state.2.registry.get? "speed_" =
              some "P fast" ∧
            ({ p with isComponent := true }.bind e).state.2.graph.contains "fast_" = false ∧
            (e.adopt pump "pump_").error? = none ∧
            (e.adopt pump "pump_").state.registry.get? "speed_" = some "M fast" ∧
            (e.adopt pump "pump_").state.graph.contains "fast_" = false) := by decide +kernel
  obtain ⟨p, hp, hrun⟩ := exists_ok_of_any hrun
  obtain ⟨m, hm, hrun⟩ := exists_ok_of_any hrun
  obtain ⟨e, he, hrun⟩ := exists_done_of_any hrun
  exact ⟨p, m, e, hp, hm, he, of_decide_eq_true hrun⟩

end Instance

end Ontogram
