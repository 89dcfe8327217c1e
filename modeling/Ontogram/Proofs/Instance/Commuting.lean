import Ontogram.Proofs.Instance.Linked
import Ontogram.Proofs.TermGraph.Permuted

/-!
# Operations in either order

A define of a value that is no term gives one term another label, and no operation looks into a
label. So a define and another operation leave the same in either order, down to the slots of the
terms, if the other one names neither the value nor the term that the variable stood for. A link
does name that term, but it goes by the variable, and it does not touch the registry.

* `define_eq_done` — a define of a value that is no term.
* `renamed_comm` — two of them, in either order.
* `link_renamed` — one of them and a link, in either order.
* `define_commutes` — all of it.
-/

namespace Ontogram.Instance

variable {e : Instance} {target : TermGraph} {kinds : RelationKinds}
  {key key' current current' value value' term id : String}

/-! ## Defining -/

/-- The instance in which a term has another label, which was none of the graph. -/
def renamed (e : Instance) (old new : String) : Instance :=
  { e with
    graph := e.graph.permute (Equiv.swap old new)
    registry := e.registry.recordRename old new }

/-- A term is not what is no term. -/
theorem ne_of_contains (hc : e.graph.contains term = true) (hv : e.graph.contains value = false) :
    term ≠ value := by
  rintro rfl
  rw [hc] at hv
  cases hv

/-- A define of a value that is no term renames the term that the variable stands for. -/
theorem define_eq_done (hk : e.registry.get? key = some current)
    (hc : e.graph.contains current = true) (hv : e.graph.contains value = false) :
    e.define key value = .done (e.renamed current value) := by
  have hresolve : e.registry.resolve key = .ok current := by
    rw [Registry.resolve, hk]
  unfold define
  rw [hresolve]
  simp only
  rw [replace, if_neg (ne_of_contains hc hv), TermGraph.relabel?_eq_permute hc hv]
  rfl

theorem contains_renamed_of_ne (hold : term ≠ current) (hnew : term ≠ value) :
    (e.renamed current value).graph.contains term = e.graph.contains term :=
  TermGraph.contains_permute_of_eq (Equiv.swap_apply_of_ne_of_ne hold hnew)

theorem get?_renamed (hv : e.registry.Valid) (hk : e.registry.get? key = some current) :
    (e.renamed current value).registry.get? key = some value := by
  show (e.registry.recordRename current value).get? key = some value
  rw [Registry.recordRename_eq_set,
    Registry.variableOf_eq_of_keyOf? (hv.get?_eq_some_iff_keyOf?.1 hk), hv.get?_set, if_pos rfl]

theorem contains_renamed (hc : e.graph.contains current = true) :
    (e.renamed current value).graph.contains value = true := by
  have hswap := e.graph.toArena.contains_permute (Equiv.swap current value) current
  rw [Equiv.swap_apply_left] at hswap
  exact hswap.trans hc

/-- A define after a rename of another term. -/
theorem define_renamed (hg : e.Grounded fun _ => True) (hk : e.registry.get? key = some current)
    (hk' : e.registry.get? key' = some current') (hne : current ≠ current')
    (hv : e.graph.contains value = false) (hv' : e.graph.contains value' = false)
    (hvalue : value ≠ value') :
    (e.renamed current value).define key' value' =
      .done ((e.renamed current value).renamed current' value') := by
  have hc := hg.contains key current hk trivial
  have hc' := hg.contains key' current' hk' trivial
  refine define_eq_done ?_ ?_ ?_
  · show (e.registry.recordRename current value).get? key' = some current'
    rw [hg.valid.get?_recordRename (hg.valid.isSome_keyOf?.2 ⟨key, hk⟩) fun k h =>
      ne_of_contains (hg.contains k _ h trivial) hv rfl, hk', Option.map_some, if_neg hne]
  · rw [contains_renamed_of_ne hne.symm (ne_of_contains hc' hv), hc']
  · rw [contains_renamed_of_ne (ne_of_contains hc hv').symm hvalue.symm, hv']

/-- Two terms get labels that were none of the graph, in either order. -/
theorem renamed_comm (hg : e.Grounded fun _ => True) (hk : e.registry.get? key = some current)
    (hk' : e.registry.get? key' = some current') (hne : current ≠ current')
    (hv : e.graph.contains value = false) (hv' : e.graph.contains value' = false)
    (hvalue : value ≠ value') :
    (e.renamed current value).renamed current' value' =
      (e.renamed current' value').renamed current value := by
  have hc : ∀ k t, e.registry.get? k = some t → e.graph.contains t = true :=
    fun k t h => hg.contains k t h trivial
  have hregistry : (e.registry.recordRename current value).recordRename current' value' =
      (e.registry.recordRename current' value').recordRename current value :=
    hg.valid.recordRename_comm hk hk' hne (fun k h => ne_of_contains (hc k _ h) hv rfl)
      (fun k h => ne_of_contains (hc k _ h) hv' rfl) hvalue
  have hgraph : (e.graph.permute (Equiv.swap current value)).permute
      (Equiv.swap current' value') = (e.graph.permute (Equiv.swap current' value')).permute
        (Equiv.swap current value) :=
    TermGraph.permute_comm (hc _ _ hk') hv'
      (Equiv.swap_apply_of_ne_of_ne hne.symm (ne_of_contains (hc _ _ hk') hv))
      (Equiv.swap_apply_of_ne_of_ne (ne_of_contains (hc _ _ hk) hv').symm hvalue.symm)
  unfold renamed
  simp only [hregistry, hgraph]

/-! ## Linking -/

/-- Says that a link has nothing to do with a term: it is not the identifier, nor its stand-in, nor
a term of the linking template. -/
structure ApartFrom (target : TermGraph) (id : String) (kinds : RelationKinds) (term : String) :
    Prop where
  identifier : term ≠ id
  standIn : term ≠ kinds.identifierPlaceholder
  template : target.contains term = false

/-- The exchange of two terms that are apart from a link keeps the terms of the link. -/
theorem ApartFrom.swap_eq_self (hc : ApartFrom target id kinds current)
    (hv : ApartFrom target id kinds value) (hterm : ¬ApartFrom target id kinds term) :
    Equiv.swap current value term = term := by
  refine Equiv.swap_apply_of_ne_of_ne ?_ ?_
  · rintro rfl
    exact hterm hc
  · rintro rfl
    exact hterm hv

/-- A link keeps the terms that it has nothing to do with, and adds none. -/
theorem ApartFrom.contains_iff {graph : TermGraph} (h : ApartFrom target id kinds term)
    (hc : e.graph.contains current = true)
    (hr : (attached e target current kinds).relabel? kinds.identifierPlaceholder id = some graph) :
    graph.contains term = true ↔ e.graph.contains term = true := by
  refine (Arena.contains_relabel? (TermGraph.relabel?_eq_some.1 hr) term).trans ?_
  rw [or_iff_right h.identifier, and_iff_right h.standIn, contains_attached,
    or_iff_right h.standIn, h.template]
  constructor
  · rintro (rfl | h | h)
    · exact hc
    · cases h
    · exact h
  · exact fun h => Or.inr (Or.inr h)

/-- What a link attaches to a renamed term. -/
theorem attached_renamed (hc : e.graph.contains current = true)
    (hapart : ApartFrom target id kinds current) (hapart' : ApartFrom target id kinds value) :
    attached (e.renamed current value) target value kinds =
      (attached e target current kinds).permute (Equiv.swap current value) := by
  have hstandIn : Equiv.swap current value kinds.identifierPlaceholder =
      kinds.identifierPlaceholder := hapart.swap_eq_self hapart' fun h => h.standIn rfl
  have htarget : ∀ label, target.contains label = true →
      Equiv.swap current value label = label := fun label hl =>
    hapart.swap_eq_self hapart' fun h => Bool.false_ne_true (h.template.symm.trans hl)
  have hcurrent : (e.graph.compose target).contains current = true :=
    (Arena.grows_compose _ _).contains hc
  have hrelate := (e.graph.compose target).relate_permute (Equiv.swap current value)
    ⟨current, kinds.identifierPlaceholder, ⟨kinds.resource, false⟩⟩ (Or.inl hcurrent)
    (Or.inr hstandIn)
  rw [← TermGraph.compose_permute e.graph htarget] at hrelate
  simp only [hstandIn, Equiv.swap_apply_left] at hrelate
  exact hrelate

/-- **A link of a renamed term is the renamed link.** -/
theorem link_renamed (hg : e.Grounded fun _ => True) (hk : e.registry.get? key = some current)
    (hv : e.graph.contains value = false) (hapart : ApartFrom target id kinds current)
    (hapart' : ApartFrom target id kinds value) :
    ∃ f : Instance, e.link target id (some key) kinds = .done f ∧
      f.define key value = .done (f.renamed current value) ∧
      (e.renamed current value).link target id (some key) kinds =
        .done (f.renamed current value) := by
  have hc := hg.contains key current hk trivial
  have hterm : e.linkTerm (some key) kinds = .ok current := linkTerm_eq_ok hk
  have hterm' : (e.renamed current value).linkTerm (some key) kinds = .ok value :=
    linkTerm_eq_ok (get?_renamed hg.valid hk)
  obtain ⟨graph, hr, hlink⟩ := link_eq_done target hterm hc id
  obtain ⟨graph', hr', hlink'⟩ := link_eq_done target hterm' (contains_renamed hc) id
  have hgraph : graph' = graph.permute (Equiv.swap current value) := by
    have hpermuted := (attached e target current kinds).relabel?_permute (Equiv.swap current value)
      kinds.identifierPlaceholder id
    rw [hapart.swap_eq_self hapart' fun h => h.standIn rfl,
      hapart.swap_eq_self hapart' fun h => h.identifier rfl, hr,
      ← attached_renamed hc hapart hapart', hr'] at hpermuted
    exact Option.some.inj hpermuted
  refine ⟨_, hlink, define_eq_done hk ((hapart.contains_iff hc hr).2 hc) ?_, ?_⟩
  · rw [Bool.eq_false_iff]
    intro hcontains
    exact Bool.false_ne_true (hv.symm.trans ((hapart'.contains_iff hc hr).1 hcontains))
  · rw [hlink', hgraph]
    rfl

/--
**A define is independent of what else is defined and linked.**

Where every registered term is a term of the graph, defines of two variables to two values that are
no terms leave the same in either order. So do a define and a link of the same variable, if the
identifier, its stand-in and the linking template have nothing to do with the value and with the
term that the variable stands for, and the value is no term. All of them succeed.
-/
theorem define_commutes (hv : e.registry.Valid)
    (hc : ∀ key term, e.registry.get? key = some term → e.graph.contains term = true) :
    (∀ key key' value value', key ≠ key' → e.registry.containsKey key = true →
      e.registry.containsKey key' = true → value ≠ value' → e.graph.contains value = false →
      e.graph.contains value' = false →
      ∃ f, (e.define key value).andThen (·.define key' value') = .done f ∧
        (e.define key' value').andThen (·.define key value) = .done f) ∧
    ∀ key current value target id kinds, e.registry.get? key = some current →
      ApartFrom target id kinds current → ApartFrom target id kinds value →
      e.graph.contains value = false →
      ∃ f, (e.define key value).andThen (·.link target id (some key) kinds) = .done f ∧
        (e.link target id (some key) kinds).andThen (·.define key value) = .done f := by
  have hg : e.Grounded fun _ => True := ⟨hv, fun key term h _ => hc key term h⟩
  constructor
  · intro key key' value value' hkeys hkey hkey' hvalues hvalue hvalue'
    obtain ⟨current, hk⟩ := Option.isSome_iff_exists.1 hkey
    obtain ⟨current', hk'⟩ := Option.isSome_iff_exists.1 hkey'
    have hne : current ≠ current' := by
      rintro rfl
      have hkey' := (hv.get?_eq_some_iff_keyOf?.1 hk).symm.trans (hv.get?_eq_some_iff_keyOf?.1 hk')
      exact hkeys (Option.some.inj hkey')
    refine ⟨(e.renamed current value).renamed current' value', ?_, ?_⟩
    · rw [define_eq_done hk (hc _ _ hk) hvalue, Outcome.andThen_done,
        define_renamed hg hk hk' hne hvalue hvalue' hvalues]
    · rw [define_eq_done hk' (hc _ _ hk') hvalue', Outcome.andThen_done,
        define_renamed hg hk' hk hne.symm hvalue' hvalue hvalues.symm,
        renamed_comm hg hk hk' hne hvalue hvalue' hvalues]
  · intro key current value target id kinds hk hapart hapart' hvalue
    obtain ⟨f, hlink, hdefine, hlink'⟩ := link_renamed hg hk hvalue hapart hapart'
    refine ⟨f.renamed current value, ?_, ?_⟩
    · rw [define_eq_done hk (hc _ _ hk) hvalue, Outcome.andThen_done, hlink']
    · rw [hlink, Outcome.andThen_done, hdefine]

/-- A motor with a speed and a torque, and a sensor for the speed. -/
theorem define_commutes_motor :
    let motor := (TermGraph.empty.relate ⟨"motor_", "speed_", ⟨"has", false⟩⟩).relate
      ⟨"motor_", "torque_", ⟨"has", false⟩⟩
    let identifier := TermGraph.empty.relate ⟨"Identifier", "db_identifier_", ⟨"type", true⟩⟩
    ∃ m f g, ofGraph "M" "Motor" "motor_" motor = .ok m ∧
      (m.define "speed_" "1500").andThen (·.define "torque_" "20") = .done f ∧
      (m.define "torque_" "20").andThen (·.define "speed_" "1500") = .done f ∧
      (m.define "speed_" "1500").andThen
        (·.link identifier "sensor" (some "speed_") .standard) = .done g ∧
      (m.link identifier "sensor" (some "speed_") .standard).andThen
        (·.define "speed_" "1500") = .done g := by
  intro motor identifier
  have hrun : (ofGraph "M" "Motor" "motor_" motor).toOption.any fun m =>
      decide (m.registry.get? "speed_" = some "M speed" ∧
        m.registry.containsKey "torque_" = true ∧
        m.graph.contains "1500" = false ∧ m.graph.contains "20" = false) := by decide +kernel
  obtain ⟨m, hm, hrun⟩ := exists_ok_of_any hrun
  obtain ⟨hspeed, htorque, hvalue, hvalue'⟩ := of_decide_eq_true hrun
  have hg := grounded_ofGraph hm
  obtain ⟨hdefines, hlinks⟩ := define_commutes hg.valid fun k t h => hg.contains k t h trivial
  have hkey : m.registry.containsKey "speed_" = true := by
    rw [Registry.containsKey, hspeed]
    rfl
  obtain ⟨f, hf, hf'⟩ := hdefines "speed_" "torque_" "1500" "20" (by decide) hkey htorque
    (by decide) hvalue hvalue'
  obtain ⟨g, hg, hg'⟩ := hlinks "speed_" "M speed" "1500" identifier "sensor" .standard hspeed
    ⟨by decide, by decide, by decide +kernel⟩ ⟨by decide, by decide, by decide +kernel⟩ hvalue
  exact ⟨m, f, g, hm, hf, hf', hg, hg'⟩

end Ontogram.Instance
