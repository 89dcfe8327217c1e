import Ontogram.Proofs.Instance.Grounded
import Ontogram.Proofs.Label
import Ontogram.Proofs.TermGraph.Relabeled

/-!
# An instance is its template under new labels

Making an instance renames the self term, and then each free variable below it. If neither the name
nor a scoped variable is a label of the template, no rename makes two terms one, and none takes a
term from another variable. So the renames in turn are one change of labels, and the graph and the
registry both go through it.

* `replaceAll_renamed` — what renames to labels that are not taken do to graph and registry.
* `TermNames` — the labels of an instance.
* `exists_ofGraph_relabeled` — an instance of a graph that has none of the new labels.
* `ofGraph_relabels_faithfully` — the same for a name that starts no label.
-/

namespace Ontogram.Instance

variable {e e₁ e₂ : Instance} {f f' : String → String} {renames : List (String × String)}
  {old new : String}

/-! ## Renames to labels that are not taken -/

/-- Says that the terms and the registered terms of an instance were changed by a map. -/
structure Renamed (f : String → String) (e e₁ : Instance) : Prop where
  graph : Arena.Relabeled f e.graph.toArena e₁.graph.toArena
  registry : ∀ key, e₁.registry.get? key = (e.registry.get? key).map f

theorem Renamed.refl (e : Instance) : Renamed (fun l => l) e e :=
  ⟨Arena.Relabeled.refl _, fun _ => Option.map_id'.symm⟩

theorem Renamed.trans (h₁ : Renamed f e e₁) (h₂ : Renamed f' e₁ e₂) :
    Renamed (fun l => f' (f l)) e e₂ := by
  refine ⟨h₁.graph.trans h₂.graph, fun key => ?_⟩
  rw [h₂.registry, h₁.registry, Option.map_map]
  rfl

theorem Renamed.isSome_keyOf? (h : Renamed f e e₁) (hv : e.registry.Valid)
    (hv₁ : e₁.registry.Valid) {term : String} (ht : (e.registry.keyOf? term).isSome) :
    (e₁.registry.keyOf? (f term)).isSome := by
  obtain ⟨key, hkey⟩ := hv.isSome_keyOf?.1 ht
  refine hv₁.isSome_keyOf?.2 ⟨key, ?_⟩
  rw [h.registry, hkey]
  rfl

theorem Grounded.contains_of_keyOf? (hg : e.Grounded fun _ => True) {term : String}
    (ht : (e.registry.keyOf? term).isSome) : e.graph.contains term = true := by
  obtain ⟨key, hkey⟩ := hg.valid.isSome_keyOf?.1 ht
  exact hg.contains key term hkey trivial

/-- A registered term is renamed to a label that is not taken. -/
theorem replace_renamed (hg : e.Grounded fun _ => True) (hold : (e.registry.keyOf? old).isSome)
    (hnew : e.graph.contains new = false) :
    ∃ e₁, e.replace old new false = .done e₁ ∧
      Renamed (fun l => if old = l then new else l) e e₁ := by
  have hcontains := hg.contains_of_keyOf? hold
  obtain ⟨graph, registry, hdone, -⟩ := replace_done hcontains new false
  refine ⟨_, hdone, ?_⟩
  rcases replace_ok hdone with ⟨rfl, -⟩ | ⟨-, graph, hr, he⟩
  · rw [hcontains] at hnew
    cases hnew
  · rw [he]
    refine ⟨e.graph.valid.relabeled (TermGraph.relabel?_eq_some.1 hr) hnew, fun k => ?_⟩
    refine hg.valid.get?_recordRename hold fun k hk => ?_
    rw [hg.contains k new hk trivial] at hnew
    cases hnew

/-- Different registered terms are renamed to different labels that are not taken. -/
structure Fresh (renames : List (String × String)) (e : Instance) : Prop where
  olds_nodup : (renames.map Prod.fst).Nodup
  news_nodup : (renames.map Prod.snd).Nodup
  registered : ∀ r ∈ renames, (e.registry.keyOf? r.1).isSome
  free : ∀ r ∈ renames, e.graph.contains r.2 = false

/-- The first rename leaves the others as good as before. -/
theorem Fresh.tail (h : Fresh ((old, new) :: renames) e) (hv : e.registry.Valid)
    (hv₁ : e₁.registry.Valid) (hr : Renamed (fun l => if old = l then new else l) e e₁) :
    Fresh renames e₁ := by
  have holds := List.nodup_cons.1 h.olds_nodup
  have hnews := List.nodup_cons.1 h.news_nodup
  refine ⟨holds.2, hnews.2, fun r hmem => ?_, fun r hmem => ?_⟩
  · have hne : old ≠ r.1 := fun he => holds.1 (List.mem_map.2 ⟨r, hmem, he.symm⟩)
    have hkey := hr.isSome_keyOf? hv hv₁ (h.registered r (List.mem_cons_of_mem _ hmem))
    rwa [if_neg hne] at hkey
  · rw [← Bool.not_eq_true]
    intro hc
    obtain ⟨l, hl, he⟩ := hr.graph.exists_contains e.graph.valid e₁.graph.valid hc
    split at he
    · exact hnews.1 (List.mem_map.2 ⟨r, hmem, he.symm⟩)
    · have hfree := h.free r (List.mem_cons_of_mem _ hmem)
      rw [← he, hl] at hfree
      cases hfree

/-- **Renames to labels that are not taken are one change of labels.** -/
theorem replaceAll_renamed (h : Fresh renames e) (hg : e.Grounded fun _ => True) :
    ∃ e₁, e.replaceAll renames = .done e₁ ∧ Renamed (connectorAfter · renames) e e₁ := by
  induction renames generalizing e with
  | nil => exact ⟨e, rfl, Renamed.refl e⟩
  | cons r renames ih =>
    obtain ⟨e₁, hdone, hrenamed⟩ := replace_renamed hg (h.registered r List.mem_cons_self)
      (h.free r List.mem_cons_self)
    have hg₁ : e₁.Grounded fun _ => True := by
      have hstep := hg.replace r.1 r.2
      rwa [hdone] at hstep
    obtain ⟨e₂, hdone₂, hrenamed₂⟩ := ih (h.tail hg.valid hg₁.valid hrenamed) hg₁
    exact ⟨e₂, replaceAll_cons_ok.2 ⟨e₁, hdone, hdone₂⟩, hrenamed.trans hrenamed₂⟩

/-! ## The rename of the self term -/

variable {name base selfTerm label : String} {graph : TermGraph}

/-- Says that an instance of a graph is at the point where its self term has its name, and every
other variable stands for itself. -/
structure SelfNamed (graph : TermGraph) (selfTerm name : String) (e : Instance) : Prop where
  name_eq : e.name = name
  grounded : e.Grounded fun _ => True
  relabeled : Arena.Relabeled (fun l => if selfTerm = l then name else l) graph.toArena
    e.graph.toArena
  registry : ∀ key, e.registry.get? key = if key = selfTerm then some name else
    if key ∈ graph.variableLabels then some key else none

theorem replace_selfNamed (base : String) (hself : graph.contains selfTerm = true)
    (hname : graph.contains name = false) :
    ∃ e₁, (unbound name base selfTerm graph).replace
        (unbound name base selfTerm graph).selfLabel name false = .done e₁ ∧
      e₁.SelfNamed graph selfTerm name := by
  obtain ⟨hvalid, hunbound⟩ := Registry.valid_unbound_identity graph.variableLabels
  obtain ⟨graph₁, registry, hdone, -⟩ :=
    replace_done (e := unbound name base selfTerm graph) hself name false
  have hg := (grounded_unbound name base selfTerm graph).replace selfTerm name
  rw [hdone] at hg
  rw [selfLabel_unbound]
  rcases replace_ok hdone with ⟨rfl, -⟩ | ⟨-, graph₁, hr, he⟩
  · rw [hself] at hname
    cases hname
  · rw [he] at hdone hg
    refine ⟨_, hdone, rfl, hg, graph.valid.relabeled (TermGraph.relabel?_eq_some.1 hr) hname,
      fun key => ?_⟩
    show ((Registry.identity graph.variableLabels).recordRename selfTerm name).get? key = _
    have hstands : (Registry.identity graph.variableLabels).get? key ≠ some name := by
      rw [Registry.get?_identity]
      split
      · next hkey =>
        intro heq
        have hcontains := (TermGraph.mem_variableLabels.1 hkey).1
        rw [Option.some.inj heq, hname] at hcontains
        cases hcontains
      · nofun
    rw [Registry.recordRename_eq_set, hunbound.variableOf hvalid, hvalid.get?_set, if_neg hstands,
      Registry.get?_identity]

/-- Below the name is what was below the self term. -/
theorem SelfNamed.mem_scopings (h : e.SelfNamed graph selfTerm name)
    (hself : graph.contains selfTerm = true) (hname : graph.contains name = false) :
    (label, new) ∈ scopings name (e.graph.descendants name) ↔
      label ≠ selfTerm ∧ Label.isFree label = true ∧ graph.Leads selfTerm label ∧
        new = Label.scopedVariable name label := by
  have hleads : ∀ {y}, e.graph.Leads name y ↔
      ∃ b, (if selfTerm = b then name else b) = y ∧ graph.Leads selfTerm b := by
    intro y
    have hl := h.relabeled.leads_iff graph.valid e.graph.valid hself (y := y)
    rwa [if_pos rfl] at hl
  unfold scopings
  rw [List.mem_map]
  constructor
  · rintro ⟨l, hl, he⟩
    obtain ⟨rfl, rfl⟩ := Prod.mk.inj he
    obtain ⟨hmem, hfree⟩ := List.mem_filter.1 hl
    obtain ⟨hne, hbelow⟩ := TermGraph.mem_descendants.1 hmem
    obtain ⟨b, hb, hlead⟩ := hleads.1 hbelow
    split at hb
    · exact absurd hb.symm hne
    · next hbs =>
      subst hb
      exact ⟨Ne.symm hbs, hfree, hlead, rfl⟩
  · rintro ⟨hne, hfree, hlead, rfl⟩
    refine ⟨label, List.mem_filter.2 ⟨TermGraph.mem_descendants.2 ⟨?_, ?_⟩, hfree⟩, rfl⟩
    · rintro rfl
      rw [(Arena.contains_of_leads hlead).2] at hname
      cases hname
    · exact hleads.2 ⟨label, if_neg (Ne.symm hne), hlead⟩

/-- The scopings rename to labels that are not taken, if no scoped variable is a label. -/
theorem SelfNamed.fresh_scopings (h : e.SelfNamed graph selfTerm name)
    (hself : graph.contains selfTerm = true) (hname : graph.contains name = false)
    (hfree : ∀ v, Label.isFree v = true → graph.Leads selfTerm v →
      graph.contains (Label.scopedVariable name v) = false) :
    Fresh (scopings name (e.graph.descendants name)) e := by
  have hmem : ∀ r ∈ scopings name (e.graph.descendants name), r.1 ≠ selfTerm ∧
      Label.isFree r.1 = true ∧ graph.Leads selfTerm r.1 ∧ r.2 = Label.scopedVariable name r.1 :=
    fun _ hr => (h.mem_scopings hself hname).1 hr
  have holds : ((scopings name (e.graph.descendants name)).map Prod.fst).Nodup := by
    rw [scopings_map_fst]
    exact (TermGraph.descendants_nodup _ _).filter _
  refine ⟨holds, ?_, fun r hr => ?_, fun r hr => ?_⟩
  · refine List.Nodup.map_on (fun r hr s hs he => ?_) (holds.of_map _)
    obtain ⟨-, hrfree, -, hrnew⟩ := hmem r hr
    obtain ⟨-, hsfree, -, hsnew⟩ := hmem s hs
    rw [hrnew, hsnew] at he
    exact Prod.ext (Label.scopedVariable_inj hrfree hsfree he) (by rw [hrnew, hsnew, he])
  · obtain ⟨hne, hrfree, hlead, -⟩ := hmem r hr
    have hvariable : r.1 ∈ graph.variableLabels := TermGraph.mem_variableLabels.2
      ⟨(Arena.contains_of_leads hlead).2, (Bool.and_eq_true_iff.1 hrfree).1⟩
    refine h.grounded.valid.isSome_keyOf?.2 ⟨r.1, ?_⟩
    rw [h.registry, if_neg hne, if_pos hvariable]
  · obtain ⟨-, hrfree, hlead, hrnew⟩ := hmem r hr
    rw [← Bool.not_eq_true]
    intro hc
    obtain ⟨l, hl, he⟩ := h.relabeled.exists_contains graph.valid e.graph.valid hc
    split at he
    · exact Label.scopedVariable_ne name r.1 (hrnew.symm.trans he.symm)
    · have hscoped := hfree r.1 hrfree hlead
      rw [← hrnew, ← he, hl] at hscoped
      cases hscoped

/-! ## The labels of an instance -/

/-- The labels of an instance by those of its graph: the self term has the name of the instance, the
free variables below it are scoped under the name, and the other labels stay. -/
structure TermNames (f : String → String) (graph : TermGraph) (selfTerm name : String) : Prop where
  self : f selfTerm = name
  below : ∀ v, v ≠ selfTerm → Label.isFree v = true → graph.Leads selfTerm v →
    f v = Label.scopedVariable name v
  kept : ∀ l, l ≠ selfTerm → ¬(Label.isFree l = true ∧ graph.Leads selfTerm l) → f l = l

/-- The rename of the self term and the scopings in turn give the labels of an instance. -/
theorem SelfNamed.termNames (h : e.SelfNamed graph selfTerm name)
    (hself : graph.contains selfTerm = true) (hname : graph.contains name = false)
    (hfresh : Fresh (scopings name (e.graph.descendants name)) e) :
    TermNames (fun l => connectorAfter (if selfTerm = l then name else l)
      (scopings name (e.graph.descendants name))) graph selfTerm name := by
  refine ⟨?_, fun v hne hfree hlead => ?_, fun l hne hl => ?_⟩
  · simp only [if_true]
    refine connectorAfter_of_forall_ne fun r hr => ?_
    obtain ⟨-, -, hlead, -⟩ := (h.mem_scopings hself hname).1 hr
    intro he
    rw [← he, (Arena.contains_of_leads hlead).2] at hname
    cases hname
  · simp only [if_neg (Ne.symm hne)]
    have hmem := (h.mem_scopings hself hname).2 ⟨hne, hfree, hlead, rfl⟩
    refine connectorAfter_of_mem hfresh.olds_nodup hmem fun r hr he => ?_
    have hcontains := h.grounded.contains_of_keyOf? (hfresh.registered r hr)
    rw [he, hfresh.free _ hmem] at hcontains
    cases hcontains
  · simp only [if_neg (Ne.symm hne)]
    refine connectorAfter_of_forall_ne fun r hr he => ?_
    obtain ⟨-, hfree, hlead, -⟩ := (h.mem_scopings hself hname).1 hr
    exact hl (he ▸ ⟨hfree, hlead⟩)

/-- An instance of a graph that has neither the name nor a scoped variable. -/
theorem exists_ofGraph_relabeled (base : String) (hself : graph.contains selfTerm = true)
    (hname : graph.contains name = false)
    (hfree : ∀ v, Label.isFree v = true → graph.Leads selfTerm v →
      graph.contains (Label.scopedVariable name v) = false) :
    ∃ f e, ofGraph name base selfTerm graph = .ok e ∧ TermNames f graph selfTerm name ∧
      Arena.Relabeled f graph.toArena e.graph.toArena ∧
      ∀ key term, e.registry.get? key = some term ↔
        (key = selfTerm ∨ graph.contains key = true ∧ Label.isVariable key = true) ∧
          f key = term := by
  obtain ⟨e₁, hdone, h⟩ := replace_selfNamed base hself hname
  have hfresh := h.fresh_scopings hself hname hfree
  have hnames := h.termNames hself hname hfresh
  obtain ⟨e, hscoped, hrenamed⟩ := replaceAll_renamed hfresh h.grounded
  refine ⟨_, e, ofGraph_eq_ok.2 ⟨e₁, hdone, ?_⟩, hnames, h.relabeled.trans hrenamed.graph,
    fun key term => ?_⟩
  · rw [scopeFree, h.name_eq, hscoped]
  · rw [hrenamed.registry, h.registry, ← TermGraph.mem_variableLabels]
    by_cases hkey : key = selfTerm
    · simp [hkey]
    · by_cases hvariable : key ∈ graph.variableLabels
      · simp [hkey, hvariable, Ne.symm hkey]
      · simp [hkey, hvariable]

/--
**Making an instance is a faithful renaming**, if neither the name nor a label that starts with the
name and a blank is a term of the graph.

The terms and the relations stay in their slots, with all that is known of them, under labels of
which no two are the same. The registry has the self term and every variable of the graph stand for
its new label, and nothing else.
-/
theorem ofGraph_relabels_faithfully (base : String) (hself : graph.contains selfTerm = true)
    (hname : graph.contains name = false)
    (hscope : ∀ text, graph.contains (name ++ " " ++ text) = false) :
    ∃ f e, ofGraph name base selfTerm graph = .ok e ∧ TermNames f graph selfTerm name ∧
      Set.InjOn f {l | graph.contains l = true} ∧
      Arena.Relabeled f graph.toArena e.graph.toArena ∧
      (∀ label slot, e.graph.index label = some slot ↔
        ∃ l, graph.index l = some slot ∧ f l = label) ∧
      e.registry.Valid ∧
      ∀ key term, e.registry.get? key = some term ↔
        (key = selfTerm ∨ graph.contains key = true ∧ Label.isVariable key = true) ∧
          f key = term := by
  obtain ⟨f, e, hok, hnames, hr, hregistry⟩ :=
    exists_ofGraph_relabeled base hself hname fun v _ _ => hscope (Label.stem v)
  refine ⟨f, e, hok, hnames, hr.injOn graph.valid e.graph.valid, hr, fun label slot => ?_,
    (grounded_ofGraph hok).valid, hregistry⟩
  constructor
  · exact hr.exists_index graph.valid e.graph.valid
  · rintro ⟨l, hl, rfl⟩
    exact hr.index graph.valid e.graph.valid hl

/-- A motor with a rank, a speed that leads back to it, a placeholder, and a plant above it. -/
theorem ofGraph_relabels_faithfully_motor :
    let labels := ["pmd:Motor", "motor_", "speed_", "*part_", "plant_"]
    let rows : List Row := [⟨"pmd:Motor", "motor_", "is", true⟩,
      ⟨"motor_", "speed_", "has", false⟩, ⟨"speed_", "motor_", "of", false⟩,
      ⟨"motor_", "*part_", "has", false⟩, ⟨"plant_", "motor_", "has", false⟩]
    ∃ graph, TermGraph.ofRows rows = .ok graph ∧ graph.labels = labels ∧
      ∃ f e, ofGraph "M" "Motor" "motor_" graph = .ok e ∧
        Arena.Relabeled f graph.toArena e.graph.toArena ∧
        labels.map f = ["pmd:Motor", "M", "M speed", "*part_", "plant_"] ∧
        e.registry.get? "motor_" = some "M" ∧ e.registry.get? "speed_" = some "M speed" := by
  intro labels rows
  have hrun : (TermGraph.ofRows rows).toOption.any fun graph =>
      decide (graph.labels = labels ∧ graph.descendants "motor_" = ["speed_", "*part_"]) := by
    decide +kernel
  obtain ⟨graph, hok, hrun⟩ := exists_ok_of_any hrun
  obtain ⟨hlabels, hbelow⟩ := of_decide_eq_true hrun
  have hcontains : ∀ l, graph.contains l = true ↔ l ∈ labels := fun l => by
    rw [← graph.valid.mem_labels, hlabels]
  have hleads : ∀ l, l ≠ "motor_" → (graph.Leads "motor_" l ↔ l ∈ ["speed_", "*part_"]) := by
    intro l hl
    rw [← hbelow, TermGraph.mem_descendants]
    exact (and_iff_right hl).symm
  have hscope : ∀ text, graph.contains ("M" ++ " " ++ text) = false := by
    intro text
    rw [← Bool.not_eq_true, hcontains]
    intro hmem
    have hinitial : ∀ l ∈ labels, l.toList.head? ≠ some 'M' := by decide
    refine hinitial _ hmem ?_
    rw [String.toList_append, String.toList_append]
    rfl
  obtain ⟨f, e, he, hnames, -, hr, -, -, hregistry⟩ :=
    ofGraph_relabels_faithfully "Motor" ((hcontains "motor_").2 (by decide))
      (Bool.not_eq_true _ ▸ mt (hcontains "M").1 (by decide)) hscope
  have hspeed : f "speed_" = "M speed" :=
    hnames.below _ (by decide) (by decide) ((hleads _ (by decide)).2 (by decide))
  have hkept : ∀ l ∈ ["pmd:Motor", "*part_", "plant_"], f l = l := by
    intro l hl
    have hne : l ≠ "motor_" := by
      rintro rfl
      exact absurd hl (by decide)
    refine hnames.kept l hne fun ⟨hfree, hlead⟩ => ?_
    have hbound : ∀ l ∈ ["speed_", "*part_"], Label.isFree l = true →
        l ∉ ["pmd:Motor", "*part_", "plant_"] := by decide
    exact hbound l ((hleads l hne).1 hlead) hfree hl
  refine ⟨graph, hok, hlabels, f, e, he, hr, ?_, ?_, ?_⟩
  · show [f "pmd:Motor", f "motor_", f "speed_", f "*part_", f "plant_"] = _
    rw [hnames.self, hspeed, hkept _ (by decide), hkept _ (by decide), hkept _ (by decide)]
  · exact (hregistry _ _).2 ⟨Or.inl rfl, hnames.self⟩
  · exact (hregistry _ _).2 ⟨Or.inr ⟨(hcontains _).2 (by decide), by decide⟩, hspeed⟩

end Ontogram.Instance
