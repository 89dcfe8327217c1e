import Ontogram.Proofs.Instance.Unrecorded
import Ontogram.Proofs.TermGraph.Tables
import Ontogram.Proofs.TermGraph.Union

/-!
# What a link attaches

A link unites the graph with the linking template, relates its term to the stand-in of the
identifier, and then the stand-in becomes the identifier. Each of the three can meet terms that are
there already: the template may have terms of the instance, or relate the stand-in to the term of
the link, and the identifier may be a term of both. The relations of the stand-in go before those of
the identifier, and the relation that the link makes goes before them all.

* `mem_linkCandidates`, `linkTerm_eq_ok` — which term a link attaches to.
* `relation?_attached`, `contains_attached` — the graph before the stand-in becomes the identifier.
* `isLinked_of_isQuotient` — and after that.
* `link_attaches_identifier` — when a link succeeds, and what it leaves.
-/

namespace Ontogram.Instance

open Arena

variable {e : Instance} {target g : TermGraph} {kind term id : String} {key? : Option String}
  {kinds : RelationKinds}

/-! ## The term of a link -/

/-- Says that a term is the end of a relation of a kind. -/
def IsEndOfKind (e : Instance) (kind term : String) : Prop :=
  ∃ parent r, e.graph.relation? parent term = some r ∧ r.rel = kind

/-- Says that a link attaches to a term: the variable stands for it, or no variable is named and
nothing else is the end of a characteristic relation. -/
def LinksTo (e : Instance) (key? : Option String) (kinds : RelationKinds) (term : String) : Prop :=
  match key? with
  | some key => e.registry.get? key = some term
  | none => ∀ t, e.IsEndOfKind kinds.characteristic t ↔ t = term

theorem mem_linkCandidates : term ∈ e.linkCandidates kind ↔ e.IsEndOfKind kind term := by
  unfold linkCandidates pairsOfKind IsEndOfKind
  simp only [Text.mem_ascending, List.mem_map, List.mem_filter, beq_iff_eq,
    e.graph.valid.relation?_eq_some]
  constructor
  · rintro ⟨_, ⟨a, ⟨ha, hkind⟩, rfl⟩, rfl⟩
    exact ⟨a.parent, a.relation, ha, hkind⟩
  · rintro ⟨parent, r, ha, hkind⟩
    exact ⟨_, ⟨_, ⟨ha, hkind⟩, rfl⟩, rfl⟩

theorem linkCandidates_pairwise (e : Instance) (kind : String) :
    (e.linkCandidates kind).Pairwise (· < ·) :=
  Text.ascending_pairwise _

/-- The only end of a kind is the only candidate. -/
theorem linkCandidates_eq_singleton (h : ∀ t, e.IsEndOfKind kind t ↔ t = term) :
    e.linkCandidates kind = [term] := by
  have hnodup : (e.linkCandidates kind).Nodup :=
    (linkCandidates_pairwise e kind).imp String.ne_of_lt
  refine List.perm_singleton.1 ((List.perm_ext_iff_of_nodup hnodup (List.nodup_singleton _)).2 ?_)
  intro t
  rw [mem_linkCandidates, h, List.mem_singleton]

theorem linkTerm_eq_ok (h : e.LinksTo key? kinds term) : e.linkTerm key? kinds = .ok term := by
  cases key? with
  | some key =>
    have hget : e.registry.get? key = some term := h
    simp only [linkTerm, Registry.resolve, hget]
  | none => simp only [linkTerm, linkCandidates_eq_singleton h]

/-- Without a variable a link relies on there being one end of a characteristic relation. -/
theorem linkTerm_of_not_existsUnique (h : ¬∃! t, e.IsEndOfKind kinds.characteristic t) :
    e.linkTerm none kinds =
      .error (.ambiguousLink e.name (e.linkCandidates kinds.characteristic)) := by
  unfold linkTerm
  simp only
  split
  · next only honly =>
    have hiff : ∀ t, e.IsEndOfKind kinds.characteristic t ↔ t = only := fun t => by
      rw [← mem_linkCandidates, honly, List.mem_singleton]
    exact absurd ⟨only, (hiff only).2 rfl, fun t ht => (hiff t).1 ht⟩ h
  · rfl

/-! ## Attaching -/

/-- The graph of a link before the stand-in becomes the identifier. -/
def attached (e : Instance) (target : TermGraph) (term : String) (kinds : RelationKinds) :
    TermGraph :=
  (e.graph.compose target).relate ⟨term, kinds.identifierPlaceholder, ⟨kinds.resource, false⟩⟩

theorem contains_attached (e : Instance) (target : TermGraph) (term : String)
    (kinds : RelationKinds) (label : String) :
    (attached e target term kinds).contains label = true ↔
      label = term ∨ label = kinds.identifierPlaceholder ∨
        target.contains label = true ∨ e.graph.contains label = true := by
  refine (contains_relate _ _ label).trans (or_congr_right (or_congr_right ?_))
  rw [← Bool.or_eq_true]
  exact Eq.congr_left (e.graph.valid.contains_compose target.valid label)

theorem relation?_attached (e : Instance) (target : TermGraph) (term : String)
    (kinds : RelationKinds) (a b : String) :
    (attached e target term kinds).relation? a b =
      if (term, kinds.identifierPlaceholder) = (a, b) then some ⟨kinds.resource, false⟩
      else (target.relation? a b).or (e.graph.relation? a b) := by
  rw [← e.graph.valid.relation?_compose target.valid]
  exact (e.graph.compose target).valid.relation?_relate _ a b

theorem relation?_attached_of_ne {a b : String}
    (h : a ≠ term ∨ b ≠ kinds.identifierPlaceholder) :
    (attached e target term kinds).relation? a b =
      (target.relation? a b).or (e.graph.relation? a b) := by
  rw [relation?_attached, if_neg]
  intro heq
  obtain ⟨rfl, rfl⟩ := Prod.mk.inj heq
  exact h.elim (fun h => h rfl) fun h => h rfl

/-- The stand-in is there, so it becomes the identifier. The registry does not hear of it. -/
theorem link_eq_done (target : TermGraph) (hterm : e.linkTerm key? kinds = .ok term)
    (hc : e.graph.contains term = true) (id : String) :
    ∃ graph, (attached e target term kinds).relabel? kinds.identifierPlaceholder id = some graph ∧
      e.link target id key? kinds = .done { e with graph := graph } := by
  obtain ⟨graph, hr⟩ := TermGraph.exists_relabel?
    ((contains_attached e target term kinds _).2 (Or.inr (Or.inl rfl))) id
  have hr' : ((e.composeGraph target).relate
      ⟨term, kinds.identifierPlaceholder, ⟨kinds.resource, false⟩⟩).graph.relabel?
        kinds.identifierPlaceholder id = some graph := hr
  refine ⟨graph, hr, ?_⟩
  unfold link
  rw [hterm]
  simp only
  rw [if_pos hc]
  unfold replace
  split
  · next hid =>
    rw [← hid, TermGraph.relabel?_eq_some] at hr
    rw [TermGraph.toArena_inj (Arena.eq_of_relabel?_self hr)]
    rfl
  · rw [hr']
    rfl

/-! ## Linking -/

/-- Says that a graph is that of an instance once an identifier was attached to a term of it. -/
structure IsLinked (e : Instance) (target : TermGraph) (term id : String) (kinds : RelationKinds)
    (g : TermGraph) : Prop where
  identifier : g.relation? term id = some ⟨kinds.resource, false⟩
  standIn : g.contains kinds.identifierPlaceholder = false
  /-- What the template relates the stand-in to, the identifier is related to. -/
  outgoing : ∀ label r, label ≠ kinds.identifierPlaceholder → label ≠ id →
    target.relation? kinds.identifierPlaceholder label = some r → g.relation? id label = some r
  /-- What is related to the stand-in in the template is related to the identifier. -/
  incoming : ∀ label r, label ≠ kinds.identifierPlaceholder → label ≠ id → label ≠ term →
    target.relation? label kinds.identifierPlaceholder = some r → g.relation? label id = some r
  /-- Other relations of the template go before those of the instance. -/
  others : ∀ a b, a ≠ kinds.identifierPlaceholder → a ≠ id → b ≠ kinds.identifierPlaceholder →
    b ≠ id → g.relation? a b = (target.relation? a b).or (e.graph.relation? a b)
  contains : ∀ label, g.contains label = true ↔ label = id ∨
    label ≠ kinds.identifierPlaceholder ∧
      (target.contains label = true ∨ e.graph.contains label = true)

/-- **The stand-in takes its relations to the identifier.** -/
theorem isLinked_of_isQuotient (hc : e.graph.contains term = true)
    (hp : term ≠ kinds.identifierPlaceholder) (ht : term ≠ id)
    (hid : id ≠ kinds.identifierPlaceholder)
    (hq : IsQuotient kinds.identifierPlaceholder id (attached e target term kinds).toArena
      g.toArena) : IsLinked e target term id kinds g where
  identifier := by
    rw [hq.incoming term hp ht, relation?_attached, if_pos rfl, Option.some_or]
  standIn := by
    rw [Bool.eq_false_iff, Ne, hq.contains]
    exact fun h => h.elim (Ne.symm hid) fun h => h.1 rfl
  outgoing := by
    intro label r hlp hli hr
    rw [hq.outgoing label hlp hli, relation?_attached_of_ne (Or.inl hp.symm), hr, Option.some_or,
      Option.some_or]
  incoming := by
    intro label r hlp hli hlt hr
    rw [hq.incoming label hlp hli, relation?_attached_of_ne (Or.inl hlt), hr, Option.some_or,
      Option.some_or]
  others := by
    intro a b hap hai hbp hbi
    rw [hq.relation a b hap hai hbp hbi, relation?_attached_of_ne (Or.inr hbp)]
  contains := by
    intro label
    rw [hq.contains, contains_attached]
    refine or_congr_right (and_congr_right fun hlp => ?_)
    rw [or_iff_right hlp]
    -- The term of the link was there already.
    refine ⟨?_, Or.inr⟩
    rintro (rfl | h)
    · exact Or.inr hc
    · exact h

/--
**A link attaches the identifier to its term.**

Without a variable it fails unless there is one end of a characteristic relation, and the error
lists them all in ascending order. With a variable that stands for a term, or that one end, it
succeeds if this is a term of the graph and neither the stand-in nor the identifier, and these two
are not the same. Then only the graph changes, and it is that of the instance with the identifier
attached.
-/
theorem link_attaches_identifier (e : Instance) (target : TermGraph) (id : String)
    (kinds : RelationKinds) :
    ((¬∃! t, e.IsEndOfKind kinds.characteristic t) →
      let candidates := e.linkCandidates kinds.characteristic
      e.link target id none kinds = .failed e (.ambiguousLink e.name candidates) ∧
        candidates.Pairwise (· < ·) ∧
        ∀ t, t ∈ candidates ↔ e.IsEndOfKind kinds.characteristic t) ∧
    ∀ key? term, e.LinksTo key? kinds term → e.graph.contains term = true →
      term ≠ kinds.identifierPlaceholder → term ≠ id → id ≠ kinds.identifierPlaceholder →
      ∃ graph, e.link target id key? kinds = .done { e with graph := graph } ∧
        IsLinked e target term id kinds graph := by
  constructor
  · intro hmany
    refine ⟨?_, linkCandidates_pairwise e _, fun t => mem_linkCandidates⟩
    unfold link
    rw [linkTerm_of_not_existsUnique hmany]
  · intro key? term hterm hc hp ht hid
    obtain ⟨graph, hr, hdone⟩ := link_eq_done target (linkTerm_eq_ok hterm) hc id
    exact ⟨graph, hdone, isLinked_of_isQuotient hc hp ht hid
      ((attached e target term kinds).valid.isQuotient_relabel? hid.symm
        (TermGraph.relabel?_eq_some.1 hr))⟩

/-- A motor with one characteristic gets its sensor there, below the class that the template has for
an identifier. An engine with two of them gets none. -/
theorem link_attaches_identifier_sensor :
    let motor := TermGraph.empty.relate ⟨"motor_", "speed_", ⟨"pmd:characteristic", false⟩⟩
    let engine := motor.relate ⟨"motor_", "torque_", ⟨"pmd:characteristic", false⟩⟩
    let identifier := (TermGraph.empty.relate
      ⟨"Identifier", "db_identifier_", ⟨"type", true⟩⟩).relate
        ⟨"db_identifier_", "value_", ⟨"has", false⟩⟩
    ∃ m n graph, ofGraph "M" "Motor" "motor_" motor = .ok m ∧
      m.link identifier "sensor" none .standard = .done { m with graph := graph } ∧
      graph.relation? "M speed" "sensor" = some ⟨"pmd:resource", false⟩ ∧
      graph.relation? "Identifier" "sensor" = some ⟨"type", true⟩ ∧
      graph.relation? "sensor" "value_" = some ⟨"has", false⟩ ∧
      graph.relation? "M" "M speed" = some ⟨"pmd:characteristic", false⟩ ∧
      graph.contains "db_identifier_" = false ∧
      ofGraph "E" "Engine" "motor_" engine = .ok n ∧
      n.link identifier "sensor" none .standard =
        .failed n (.ambiguousLink n.name ["E speed", "E torque"]) := by
  intro motor engine identifier
  have hrun : (ofGraph "M" "Motor" "motor_" motor).toOption.any fun m =>
      (ofGraph "E" "Engine" "motor_" engine).toOption.any fun n =>
        decide (m.linkCandidates "pmd:characteristic" = ["M speed"] ∧
          m.graph.contains "M speed" = true ∧
          m.graph.relation? "M" "M speed" = some ⟨"pmd:characteristic", false⟩ ∧
          n.linkCandidates "pmd:characteristic" = ["E speed", "E torque"]) := by decide +kernel
  obtain ⟨m, hm, hrun⟩ := exists_ok_of_any hrun
  obtain ⟨n, hn, hrun⟩ := exists_ok_of_any hrun
  obtain ⟨honly, hspeed, hrelation, htwo⟩ := of_decide_eq_true hrun
  have hlinks : m.LinksTo none .standard "M speed" := fun t => by
    rw [← mem_linkCandidates]
    exact (iff_of_eq (congrArg (t ∈ ·) honly)).trans List.mem_singleton
  obtain ⟨graph, hdone, hlinked⟩ := (link_attaches_identifier m identifier "sensor" .standard).2
    none "M speed" hlinks hspeed (by decide) (by decide) (by decide)
  have hmany : ¬∃! t, n.IsEndOfKind RelationKinds.standard.characteristic t := by
    rintro ⟨t, -, honly⟩
    have hend : ∀ s ∈ ["E speed", "E torque"], s = t := fun s hs =>
      honly s (mem_linkCandidates.1 (htwo.symm ▸ hs))
    have heq := (hend "E speed" (by decide)).trans (hend "E torque" (by decide)).symm
    exact absurd heq (by decide)
  refine ⟨m, n, graph, hm, hdone, hlinked.identifier, ?_, ?_, ?_, hlinked.standIn, hn, ?_⟩
  · exact hlinked.incoming "Identifier" _ (by decide) (by decide) (by decide) (by decide +kernel)
  · exact hlinked.outgoing "value_" _ (by decide) (by decide) (by decide +kernel)
  · rw [hlinked.others _ _ (by decide) (by decide) (by decide) (by decide), hrelation]
    decide +kernel
  · rw [← htwo]
    exact ((link_attaches_identifier n identifier "sensor" .standard).1 hmany).1

end Ontogram.Instance
