import Ontogram.Instance.Bind
import Ontogram.Proofs.Instance.Rename
import Ontogram.Proofs.Label
import Ontogram.Proofs.Registry
import Ontogram.Proofs.TermGraph.Leads

/-!
# Following terms through renames

A rename of a tracked instance carries its ways along, and its registry follows the instance term,
unless another term becomes that term: then the registry lets go of the self term.

`connectorAfter` says what becomes of any label under renames, not of the connector alone.

* `leads_replaceAll` — what renames do to the ways of the graph.
* `Tracked.replaceAll` — the registry still resolves the self term to the instance term.
* `anchored_ofGraph` — an instance that was made of a graph is tracked, under its own name.
-/

namespace Ontogram

theorem Outcome.andThen_eq_done {σ : Type} {o : Outcome σ} {f : σ → Outcome σ} {s : σ} :
    o.andThen f = .done s ↔ ∃ t, o = .done t ∧ f t = .done s := by
  obtain ⟨t, error?⟩ := o
  cases error? with
  | none =>
    refine ⟨fun h => ⟨t, rfl, h⟩, ?_⟩
    rintro ⟨_, ht, h⟩
    cases ht
    exact h
  | some error =>
    refine ⟨nofun, ?_⟩
    rintro ⟨_, ht, -⟩
    cases ht

namespace Instance

variable {e f : Instance} {old new a b label : String} {renames : List (String × String)}

/-! ## Renames that succeed -/

/-- What a rename that succeeds has done. -/
theorem replace_ok (hd : e.replace old new false = .done f) :
    (old = new ∧ f = e) ∨
    (old ≠ new ∧ ∃ graph, e.graph.relabel? old new = some graph ∧
      f = { e with graph := graph, registry := e.registry.recordRename old new }) := by
  unfold replace at hd
  split at hd
  · next he =>
    cases hd
    exact Or.inl ⟨he, rfl⟩
  · next hne =>
    split at hd
    · cases hd
    · next graph hr =>
      cases hd
      exact Or.inr ⟨hne, graph, hr, rfl⟩

theorem contains_of_relabel? {graph : TermGraph} (hr : e.graph.relabel? old new = some graph) :
    e.graph.contains old = true := by
  rw [← TermGraph.isSome_relabel? e.graph old new, hr]
  rfl

/-- A rename touches graph and registry only. -/
theorem replace_fields (hd : e.replace old new false = .done f) :
    ∃ graph registry, f = { e with graph, registry } := by
  rcases replace_ok hd with ⟨-, rfl⟩ | ⟨-, graph, -, rfl⟩
  · exact ⟨_, _, rfl⟩
  · exact ⟨graph, _, rfl⟩

theorem replaceAll_cons_ok {r : String × String} :
    e.replaceAll (r :: renames) = .done f ↔
      ∃ e₁, e.replace r.1 r.2 false = .done e₁ ∧ e₁.replaceAll renames = .done f :=
  Outcome.andThen_eq_done

theorem replaceAll_fields (hd : e.replaceAll renames = .done f) :
    ∃ graph registry, f = { e with graph, registry } := by
  induction renames generalizing e with
  | nil =>
    cases hd
    exact ⟨_, _, rfl⟩
  | cons r renames ih =>
    obtain ⟨e₁, h₁, hd⟩ := replaceAll_cons_ok.1 hd
    obtain ⟨_, _, rfl⟩ := replace_fields h₁
    obtain ⟨graph, registry, rfl⟩ := ih hd
    exact ⟨graph, registry, rfl⟩

theorem replaceAll_append_ok {renames' : List (String × String)} :
    e.replaceAll (renames ++ renames') = .done f ↔
      ∃ e₁, e.replaceAll renames = .done e₁ ∧ e₁.replaceAll renames' = .done f := by
  induction renames generalizing e with
  | nil =>
    refine ⟨fun h => ⟨e, rfl, h⟩, ?_⟩
    rintro ⟨_, he, h⟩
    cases he
    exact h
  | cons r renames ih =>
    rw [List.cons_append, replaceAll_cons_ok]
    simp only [ih, replaceAll_cons_ok]
    grind

/-! ## Ways -/

theorem leads_replace (hd : e.replace old new false = .done f) (hl : e.graph.Leads a b) :
    f.graph.Leads (if old = a then new else a) (if old = b then new else b) := by
  rcases replace_ok hd with ⟨rfl, rfl⟩ | ⟨-, graph, hr, rfl⟩
  · have hsame : ∀ label, (if old = label then old else label) = label := fun _ =>
      ite_eq_right_iff.2 id
    rwa [hsame, hsame]
  · exact e.graph.valid.leads_relabel? (TermGraph.relabel?_eq_some.1 hr) hl

/-- **Renames carry ways along.** -/
theorem leads_replaceAll (hd : e.replaceAll renames = .done f) (hl : e.graph.Leads a b) :
    f.graph.Leads (connectorAfter a renames) (connectorAfter b renames) := by
  induction renames generalizing e a b with
  | nil =>
    cases hd
    exact hl
  | cons r renames ih =>
    obtain ⟨e₁, h₁, hd⟩ := replaceAll_cons_ok.1 hd
    exact ih hd (leads_replace h₁ hl)

/-- A rename relates what was related under the labels that have become these, and nothing else. -/
theorem relation?_replace_iff {x y : String} (hd : e.replace old new false = .done f) :
    (f.graph.relation? x y).isSome ↔ ∃ a b, (if old = a then new else a) = x ∧
      (if old = b then new else b) = y ∧ (e.graph.relation? a b).isSome := by
  rcases replace_ok hd with ⟨rfl, rfl⟩ | ⟨-, graph, hr, rfl⟩
  · have hsame : ∀ label, (if old = label then old else label) = label := fun _ =>
      ite_eq_right_iff.2 id
    simp only [hsame, exists_eq_left, exists_and_left]
  · have hr := TermGraph.relabel?_eq_some.1 hr
    constructor
    · exact e.graph.valid.exists_relation?_of_relabel? hr
    · rintro ⟨a, b, rfl, rfl, hab⟩
      exact e.graph.valid.relation?_relabel? hr hab

/-- **Renames in turn relate what was related**, under the labels that have become of it. -/
theorem relation?_replaceAll_iff {x y : String} (hd : e.replaceAll renames = .done f) :
    (f.graph.relation? x y).isSome ↔ ∃ a b, connectorAfter a renames = x ∧
      connectorAfter b renames = y ∧ (e.graph.relation? a b).isSome := by
  induction renames generalizing e with
  | nil =>
    cases hd
    constructor
    · exact fun hxy => ⟨x, y, rfl, rfl, hxy⟩
    · rintro ⟨a, b, rfl, rfl, hab⟩
      exact hab
  | cons r renames ih =>
    obtain ⟨e₁, h₁, hd⟩ := replaceAll_cons_ok.1 hd
    rw [ih hd]
    constructor
    · rintro ⟨a₁, b₁, rfl, rfl, hab₁⟩
      obtain ⟨a, b, rfl, rfl, hab⟩ := (relation?_replace_iff h₁).1 hab₁
      exact ⟨a, b, rfl, rfl, hab⟩
    · rintro ⟨a, b, rfl, rfl, hab⟩
      exact ⟨_, _, rfl, rfl, (relation?_replace_iff h₁).2 ⟨a, b, rfl, rfl, hab⟩⟩

/-! ## What becomes of a label -/

theorem connectorAfter_append (label : String) (renames renames' : List (String × String)) :
    connectorAfter label (renames ++ renames') =
      connectorAfter (connectorAfter label renames) renames' :=
  List.foldl_append

/-- A label that no rename takes out stays. -/
theorem connectorAfter_of_forall_ne (h : ∀ r ∈ renames, r.1 ≠ label) :
    connectorAfter label renames = label := by
  unfold connectorAfter
  induction renames with
  | nil => rfl
  | cons r renames ih =>
    rw [List.foldl_cons, if_neg (h r List.mem_cons_self)]
    exact ih fun s hs => h s (List.mem_cons_of_mem r hs)

/-- A label that one rename takes out becomes the new label, if no rename takes that out. -/
theorem connectorAfter_of_mem (hn : (renames.map Prod.fst).Nodup) (hr : (label, new) ∈ renames)
    (hnew : ∀ r ∈ renames, r.1 ≠ new) : connectorAfter label renames = new := by
  obtain ⟨pre, post, rfl⟩ := List.append_of_mem hr
  rw [List.map_append, List.map_cons, List.nodup_append] at hn
  have hpre : ∀ r ∈ pre, r.1 ≠ label := fun r hr =>
    hn.2.2 _ (List.mem_map_of_mem hr) _ List.mem_cons_self
  rw [connectorAfter_append, connectorAfter_of_forall_ne hpre]
  show connectorAfter (if label = label then new else label) post = new
  rw [if_pos rfl]
  exact connectorAfter_of_forall_ne fun r hr =>
    hnew r (List.mem_append_right _ (List.mem_cons_of_mem _ hr))

/-! ## The instance term -/

theorem selfLabel_eq (e : Instance) : e.selfLabel = e.registry.termOf e.selfTerm :=
  rfl

/-- The registry can follow the instance term. -/
structure Tracked (e : Instance) : Prop where
  valid : e.registry.Valid
  /-- The variable of a label stands for the label. -/
  termOf_variableOf : ∀ label, e.graph.contains label = true →
    e.registry.termOf (e.registry.variableOf label) = label
  /-- The variable of the instance term is the self term. -/
  variableOf_selfLabel : e.registry.variableOf e.selfLabel = e.selfTerm

/-- Says that no rename makes another term the given one, which is followed through them. -/
def keepsApart : List (String × String) → String → Bool
  | [], _ => true
  | r :: renames, label =>
    (r.2 != label || r.1 == label) && keepsApart renames (if r.1 = label then r.2 else label)

/-- The labels of a graph after a rename are the variables' terms again. -/
theorem Tracked.termOf_variableOf_recordRename (h : e.Tracked)
    (hc : e.graph.contains old = true)
    (hl : label = new ∨ label ≠ old ∧ e.graph.contains label = true) :
    (e.registry.recordRename old new).termOf ((e.registry.recordRename old new).variableOf label)
      = label := by
  rw [Registry.recordRename_eq_set, h.valid.termOf_set, h.valid.variableOf_set]
  have hold := h.termOf_variableOf old hc
  by_cases hnew : label = new
  · rw [if_pos hnew, if_pos rfl, hnew]
  -- The rename does not touch the variable of the label.
  · obtain ⟨hne, hcl⟩ := hl.resolve_left hnew
    have hlabel := h.termOf_variableOf label hcl
    have hkey : e.registry.keyOf? label ≠ some (e.registry.variableOf old) := fun hk =>
      hne (hold ▸ (Registry.termOf_eq_of_get? (h.valid.get?_eq_some_iff_keyOf?.2 hk)).symm)
    have hvar : e.registry.variableOf label ≠ e.registry.variableOf old := fun hv =>
      hne (hlabel.symm.trans ((congrArg e.registry.termOf hv).trans hold))
    have hget : e.registry.get? (e.registry.variableOf label) ≠ some new := fun hg =>
      hnew (hlabel.symm.trans (Registry.termOf_eq_of_get? hg))
    rw [if_neg hnew, if_neg hkey, if_neg hvar, if_neg hget, hlabel]

/-- A rename of the instance term goes by the self term, and no other rename does. -/
theorem Tracked.variableOf_eq_selfTerm_iff (h : e.Tracked) (hc : e.graph.contains old = true) :
    e.selfTerm = e.registry.variableOf old ↔ old = e.selfLabel := by
  constructor
  · intro hs
    rw [selfLabel_eq, hs, h.termOf_variableOf old hc]
  · rintro rfl
    exact h.variableOf_selfLabel.symm

/-- The self term stands for what became of the instance term. -/
theorem Tracked.termOf_recordRename_selfTerm (h : e.Tracked) (hc : e.graph.contains old = true)
    (hm : new = e.selfLabel → old = e.selfLabel) :
    (e.registry.recordRename old new).termOf e.selfTerm =
      if old = e.selfLabel then new else e.selfLabel := by
  rw [Registry.recordRename_eq_set, h.valid.termOf_set]
  by_cases ho : old = e.selfLabel
  · rw [if_pos ho, if_pos ((h.variableOf_eq_selfTerm_iff hc).2 ho)]
  · have hget : e.registry.get? e.selfTerm ≠ some new := fun hg =>
      ho (hm (Registry.termOf_eq_of_get? hg).symm)
    rw [if_neg ho, if_neg (mt (h.variableOf_eq_selfTerm_iff hc).1 ho), if_neg hget, selfLabel_eq]

/-- What became of the instance term has the self term as its variable. -/
theorem Tracked.variableOf_recordRename_selfLabel (h : e.Tracked)
    (hc : e.graph.contains old = true) (hm : new = e.selfLabel → old = e.selfLabel) :
    (e.registry.recordRename old new).variableOf (if old = e.selfLabel then new else e.selfLabel)
      = e.selfTerm := by
  rw [Registry.recordRename_eq_set, h.valid.variableOf_set]
  by_cases ho : old = e.selfLabel
  · rw [if_pos ho, if_pos rfl, (h.variableOf_eq_selfTerm_iff hc).2 ho]
  · have hkey : e.registry.keyOf? e.selfLabel ≠ some (e.registry.variableOf old) := fun hk =>
      mt (h.variableOf_eq_selfTerm_iff hc).1 ho
        (h.variableOf_selfLabel.symm.trans (Registry.variableOf_eq_of_keyOf? hk))
    rw [if_neg ho, if_neg fun hl => ho (hm hl.symm), if_neg hkey, h.variableOf_selfLabel]

/-- **The registry follows the instance term through a rename**, unless the rename makes another
term the instance term. -/
theorem Tracked.replace (h : e.Tracked) (hd : e.replace old new false = .done f)
    (hm : new = e.selfLabel → old = e.selfLabel) :
    f.Tracked ∧ f.selfLabel = if old = e.selfLabel then new else e.selfLabel := by
  rcases replace_ok hd with ⟨rfl, rfl⟩ | ⟨hne, graph, hr, rfl⟩
  · exact ⟨h, (ite_eq_right_iff.2 id).symm⟩
  · have hc := contains_of_relabel? hr
    have hself := h.termOf_recordRename_selfTerm hc hm
    refine ⟨⟨h.valid.recordRename old new, fun label hl => ?_, ?_⟩, hself⟩
    · have hl := (Arena.contains_relabel? (TermGraph.relabel?_eq_some.1 hr) label).1 hl
      exact h.termOf_variableOf_recordRename hc hl
    · rw [selfLabel_eq]
      exact (congrArg _ hself).trans (h.variableOf_recordRename_selfLabel hc hm)

/-- **The registry follows the instance term through renames** that keep other terms apart from
it. -/
theorem Tracked.replaceAll (h : e.Tracked) (hd : e.replaceAll renames = .done f)
    (hk : keepsApart renames e.selfLabel = true) :
    f.Tracked ∧ f.selfLabel = connectorAfter e.selfLabel renames := by
  induction renames generalizing e with
  | nil =>
    cases hd
    exact ⟨h, rfl⟩
  | cons r renames ih =>
    obtain ⟨e₁, h₁, hd⟩ := replaceAll_cons_ok.1 hd
    rw [keepsApart, Bool.and_eq_true] at hk
    have hm : r.2 = e.selfLabel → r.1 = e.selfLabel := by
      intro he
      simpa [he] using hk.1
    obtain ⟨ht, hl⟩ := h.replace h₁ hm
    rw [← hl] at hk
    obtain ⟨hf, hlf⟩ := ih ht hd hk.2
    refine ⟨hf, ?_⟩
    rw [hlf, hl]
    rfl

/-! ## Instances of a graph -/

/-- A name that stands for itself goes on to do so if its own term is not renamed. -/
theorem Tracked.recordRename_stands {name : String} (h : e.Tracked)
    (hc : e.graph.contains old = true) (hn : e.registry.termOf name = name) (ho : old ≠ name) :
    (e.registry.recordRename old new).termOf name = name := by
  have hkey : name ≠ e.registry.variableOf old := by
    intro hv
    rw [hv, h.termOf_variableOf old hc] at hn
    exact ho (hn.trans hv.symm)
  rw [Registry.recordRename_eq_set, h.valid.termOf_set, if_neg hkey, hn]
  exact ite_id _

/-- The instance term has the name of the instance, and the name stands for nothing else. -/
structure Anchored (e : Instance) : Prop extends Tracked e where
  selfLabel_eq_name : e.selfLabel = e.name
  termOf_name : e.registry.termOf e.name = e.name

theorem Anchored.replace (h : e.Anchored) (hd : e.replace old new false = .done f)
    (ho : old ≠ e.name) (hn : new ≠ e.name) : f.Anchored := by
  have hm : new = e.selfLabel → old = e.selfLabel := fun he =>
    absurd (he.trans h.selfLabel_eq_name) hn
  obtain ⟨ht, hl⟩ := h.toTracked.replace hd hm
  rw [h.selfLabel_eq_name, if_neg ho] at hl
  rcases replace_ok hd with ⟨-, rfl⟩ | ⟨-, graph, hr, rfl⟩
  · exact h
  · exact ⟨ht, hl, h.recordRename_stands (contains_of_relabel? hr) h.termOf_name ho⟩

theorem Anchored.replaceAll (h : e.Anchored) (hd : e.replaceAll renames = .done f)
    (hr : ∀ r ∈ renames, r.1 ≠ e.name ∧ r.2 ≠ e.name) : f.Anchored := by
  induction renames generalizing e with
  | nil =>
    cases hd
    exact h
  | cons r renames ih =>
    obtain ⟨e₁, h₁, hd⟩ := replaceAll_cons_ok.1 hd
    obtain ⟨ho, hn⟩ := hr r List.mem_cons_self
    have ha := h.replace h₁ ho hn
    obtain ⟨graph, registry, rfl⟩ := replace_fields h₁
    exact ih ha hd fun s hs => hr s (List.mem_cons_of_mem r hs)

/-- Scoping what is below the instance term takes neither the term nor its name. -/
theorem Anchored.scopeFree (h : e.Anchored) (hd : e.scopeFree = .done f) : f.Anchored := by
  refine h.replaceAll hd fun r hr => ?_
  obtain ⟨label, hl, rfl⟩ := List.mem_map.1 hr
  exact ⟨TermGraph.ne_of_mem_descendants (List.mem_filter.1 hl).1,
    Label.scopedVariable_ne e.name label⟩

theorem selfLabel_unbound (name base selfTerm : String) (graph : TermGraph) :
    (unbound name base selfTerm graph).selfLabel = selfTerm :=
  (Registry.valid_unbound_identity graph.variableLabels).2 selfTerm

theorem tracked_unbound (name base selfTerm : String) (graph : TermGraph) :
    (unbound name base selfTerm graph).Tracked := by
  obtain ⟨hvalid, hself⟩ := Registry.valid_unbound_identity graph.variableLabels
  refine ⟨hvalid, fun label _ => ?_, ?_⟩
  · exact (hself _).trans (hself.variableOf hvalid label)
  · exact (hself.variableOf hvalid _).trans (hself selfTerm)

/-- An instance is made of a graph by the rename of the self term and the scoping. -/
theorem ofGraph_eq_ok {name base selfTerm : String} {graph : TermGraph} :
    ofGraph name base selfTerm graph = .ok e ↔
      ∃ e₁, (unbound name base selfTerm graph).replace
        (unbound name base selfTerm graph).selfLabel name false = .done e₁ ∧
        e₁.scopeFree = .done e := by
  rw [← Outcome.andThen_eq_done]
  unfold ofGraph
  simp only
  split
  · next he =>
    constructor
    · intro h
      cases h
      exact congrArg (Outcome.mk _) he
    · intro h
      rw [h]
      rfl
  · next error he =>
    refine iff_of_false nofun fun h => ?_
    rw [h] at he
    cases he

/-- **An instance that was made of a graph is anchored under its name.** -/
theorem anchored_ofGraph {name base selfTerm : String} {graph : TermGraph}
    (h : ofGraph name base selfTerm graph = .ok e) :
    e.Anchored ∧ e.name = name ∧ e.selfTerm = selfTerm := by
  obtain ⟨e₁, h₁, hscope⟩ := ofGraph_eq_ok.1 h
  have htracked := tracked_unbound name base selfTerm graph
  have hself := (Registry.valid_unbound_identity graph.variableLabels).2
  obtain ⟨ht, hl⟩ := htracked.replace h₁ fun _ => rfl
  rw [if_pos rfl] at hl
  -- The rename of the self term takes its name from whatever had it.
  have hnamed : e₁.registry.termOf name = name := by
    rcases replace_ok h₁ with ⟨-, rfl⟩ | ⟨hne, _, hr, rfl⟩
    · exact hself name
    · exact htracked.recordRename_stands (contains_of_relabel? hr) (hself name) hne
  obtain ⟨graph₁, registry₁, rfl⟩ := replace_fields h₁
  have ha : Anchored { unbound name base selfTerm graph with
    graph := graph₁, registry := registry₁ } := ⟨ht, hl, hnamed⟩
  have he := ha.scopeFree hscope
  obtain ⟨_, _, rfl⟩ := replaceAll_fields hscope
  exact ⟨he, rfl, rfl⟩

end Instance

end Ontogram
