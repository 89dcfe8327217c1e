import Mathlib.Data.List.Pairwise
import Ontogram.Proofs.Diagram.Stitching

/-!
# Components in another order

A component sees the instances of another one only at the ends of its secondary relations, as that
one left them if it came first, and as they were made if it comes later. So two runs over the same
components give the same ontologies if they start from the same instances, and if every component
has the others whose elements it sees on the same side of it in both.

* `agree_by_order` — what a component finds of another one.
* `Reordered.comesOutAlike` — a component comes out of both runs alike.
* `Reordered.ontologies_perm` — both runs give the same ontologies.
-/

namespace Ontogram

variable {library : Library} {settings : Settings}

namespace ComponentPlan

variable {c d : ComponentPlan}

/-- The elements whose instances a component sees: its own and the ends of its secondary
relations. -/
def seen (c : ComponentPlan) : List String :=
  c.nodes ++ c.secondary.flatMap fun r => [r.parentId, r.childId]

/-- A component sees an element of another. -/
def Sees (c d : ComponentPlan) : Prop :=
  ∃ id ∈ c.seen, id ∈ d.nodes

instance (c d : ComponentPlan) : Decidable (c.Sees d) :=
  inferInstanceAs (Decidable (∃ id ∈ c.seen, id ∈ d.nodes))

/-- Two plans of one component: the same elements, and the same to do with them. -/
structure Counterpart (c d : ComponentPlan) : Prop where
  rootId : c.rootId = d.rootId
  operations : c.operations = d.operations
  secondary : c.secondary = d.secondary
  nodes : ∀ id, id ∈ c.nodes ↔ id ∈ d.nodes

/-- Plans of one component compile alike. A component without root names one of its elements in the
error, so it does not count. -/
theorem Counterpart.compile_eq (h : c.Counterpart d) (hroot : c.rootId.isSome) (w : Workshop) :
    c.compile library settings w = d.compile library settings w := by
  obtain ⟨rootId, hroot⟩ := Option.isSome_iff_exists.1 hroot
  unfold compile conclude
  simp only [← h.rootId, hroot, h.operations, h.secondary]

end ComponentPlan

open ComponentPlan

/-! ## Components with nothing in common -/

/-- Components that only look after their own elements, and have none in common. -/
structure Separate (cs : List ComponentPlan) : Prop where
  enclosed : ∀ c ∈ cs, c.Enclosed
  apart : cs.Pairwise Apart

/-- The roots of some components. -/
def rootsOf (cs : List ComponentPlan) : List String :=
  cs.filterMap ComponentPlan.rootId

instance : Std.Symm Apart :=
  ⟨fun _ _ h id hid hc => h id hc hid⟩

section Separate

variable {cs : List ComponentPlan} {c d : ComponentPlan} {a b id : String}

theorem separate_components (drawing : Drawing) (settings : Settings) (ids : IdSource) :
    Separate (ExecutionPlan.ofDrawing drawing settings ids).components :=
  ⟨fun _ => enclosed_of_mem_components, pairwise_apart_components drawing settings ids⟩

/-- Two components with an element in common are the same. -/
theorem Separate.eq_of_mem_nodes (h : Separate cs) (hc : c ∈ cs) (hd : d ∈ cs) (hic : id ∈ c.nodes)
    (hid : id ∈ d.nodes) : c = d := by
  by_contra hne
  exact h.apart.forall hc hd hne id hic hid

theorem Separate.rootsOf_nodup (h : Separate cs) : (rootsOf cs).Nodup := by
  refine List.pairwise_filterMap.2 (h.apart.imp_of_mem fun hc hd hcd a ha b hb => ?_)
  rintro rfl
  exact hcd a ((h.enclosed _ hc).root a ha) ((h.enclosed _ hd).root a hb)

end Separate

/-! ## One run -/

section Run

variable {cs : List ComponentPlan} {s t : ComponentPlan × Workshop} {w : Workshop}
  {a b id : String}

/-- Components with a root run in the order of their roots. -/
theorem precedes_rootsOf (h : Precedes (starts library settings cs w) t s)
    (ht : t.1.rootId = some b) (hs : s.1.rootId = some a) : Precedes (rootsOf cs) b a := by
  have hroots := (h.map Prod.fst).filterMap ComponentPlan.rootId
  rw [starts_map_fst] at hroots
  simpa [Precedes, rootsOf, ht, hs] using hroots

/-- **What a component finds of another one**: the instances as that one left them if its root comes
first, and as they were made if not. -/
theorem agree_by_order (hcs : Separate cs) (htm : t ∈ starts library settings cs w)
    (hsm : s ∈ starts library settings cs w) (ht : t.1.rootId = some b)
    (hs : s.1.rootId = some a) (hne : b ≠ a) :
    Workshop.Agree t.1.nodes s.2 (if Precedes (rootsOf cs) b a
      then (t.1.compile library settings t.2).workshop else w) := by
  have hts : t ≠ s := by
    rintro rfl
    exact hne (Option.some.inj (ht.symm.trans hs))
  rcases Precedes.total htm hsm hts with h | h
  · rw [if_pos (precedes_rootsOf h ht hs)]
    exact agree_of_precedes hcs.enclosed hcs.apart h
  · rw [if_neg (Precedes.asymm hcs.rootsOf_nodup (precedes_rootsOf h hs ht))]
    exact agree_of_followed hcs.enclosed hcs.apart h

/-- An instance that no component with a root looks after stays as it was made. -/
theorem agree_of_unrooted (hcs : Separate cs) (hs : s ∈ starts library settings cs w)
    (hid : ∀ c ∈ cs, c.rootId.isSome → id ∉ c.nodes) : Workshop.Agree [id] s.2 w := by
  refine agree_of_mem_starts hcs.enclosed (fun c hc hroot x hx hxid => hid c hc hroot ?_) hs
  exact List.mem_singleton.1 hxid ▸ hx

/-- The ontologies of a run. -/
def ontologiesOf (library : Library) (settings : Settings) (cs : List ComponentPlan)
    (w : Workshop) : List CompiledOntology :=
  (starts library settings cs w).filterMap fun s => (s.1.compile library settings s.2).ontology?

theorem ontologies_compile (library : Library) (settings : Settings) (drawing : Drawing)
    (ids : IdSource) : (compile library settings drawing ids).ontologies =
      ontologiesOf library settings (ExecutionPlan.ofDrawing drawing settings ids).components
        (Workshop.create library (OperationGraph.build drawing settings ids).1) := by
  unfold compile
  simp only
  rw [compileComponents_eq_map_starts _ (References.sound_empty library), List.filterMap_map]
  rfl

theorem mem_ontologiesOf {x : CompiledOntology} : x ∈ ontologiesOf library settings cs w ↔
    ∃ s ∈ starts library settings cs w, (s.1.compile library settings s.2).ontology = .ok x := by
  simp [ontologiesOf, ComponentResult.ontology?_eq_some]

/-- An ontology has the root of its component. -/
theorem ComponentPlan.rootId_of_compile_ok {c : ComponentPlan} {x : CompiledOntology}
    (hx : (c.compile library settings w).ontology = .ok x) : c.rootId = some x.rootId := by
  obtain ⟨rootId, _, _, hroot, -, -, hemit, -⟩ := compile_ok hx
  obtain ⟨root, -, rfl⟩ := Workshop.emitOntology_eq_ok.1 hemit
  exact hroot

theorem ontologiesOf_nodup (hcs : Separate cs) (w : Workshop) :
    (ontologiesOf library settings cs w).Nodup := by
  have hapart := hcs.apart
  rw [← starts_map_fst library settings cs w, List.pairwise_map] at hapart
  refine List.pairwise_filterMap.2 (hapart.imp_of_mem fun hs ht h x hx y hy => ?_)
  rw [ComponentResult.ontology?_eq_some] at hx hy
  have hroot : ∀ {s}, s ∈ starts library settings cs w → ∀ {x : CompiledOntology},
      (s.1.compile library settings s.2).ontology = .ok x → x.rootId ∈ s.1.nodes :=
    fun hs _ hx => (hcs.enclosed _ (mem_of_mem_starts hs)).root _ (rootId_of_compile_ok hx)
  rintro rfl
  exact h x.rootId (hroot hs hx) (hroot ht hy)

end Run

/-! ## Two runs -/

/-- The same components in another order, in which those that see each other have kept theirs.
Components without root leave everything as it is, so they may be others. -/
structure Reordered (cs cs' : List ComponentPlan) : Prop where
  counterpart : ∀ c ∈ cs, c.rootId.isSome → ∃ c' ∈ cs', c.Counterpart c'
  counterpart' : ∀ c' ∈ cs', c'.rootId.isSome → ∃ c ∈ cs, c.Counterpart c'
  sees : ∀ c ∈ cs, ∀ d ∈ cs, c.Sees d → ∀ a b, c.rootId = some a → d.rootId = some b →
    (Precedes (rootsOf cs) b a ↔ Precedes (rootsOf cs') b a)

/-- The component with a root comes out of both runs alike. -/
def ComesOutAlike (library : Library) (settings : Settings) (cs cs' : List ComponentPlan)
    (w w' : Workshop) (root : String) : Prop :=
  ∀ s ∈ starts library settings cs w, ∀ s' ∈ starts library settings cs' w',
    s.1.rootId = some root → s.1.Counterpart s'.1 →
    Workshop.Agree s.1.nodes (s.1.compile library settings s.2).workshop
        (s'.1.compile library settings s'.2).workshop ∧
      (s.1.compile library settings s.2).ontology = (s'.1.compile library settings s'.2).ontology

namespace Reordered

variable {cs cs' : List ComponentPlan} {w w' : Workshop} {s s' : ComponentPlan × Workshop}
  {d : ComponentPlan} {a id : String}

section Seen

variable (h : Reordered cs cs') (hcs : Separate cs) (hcs' : Separate cs')
  (hw : ∀ ids, Workshop.Agree ids w w') (hs : s ∈ starts library settings cs w)
  (hs' : s' ∈ starts library settings cs' w') (hss' : s.1.Counterpart s'.1)
  (ha : s.1.rootId = some a)
  (ih : ∀ b, Precedes (rootsOf cs) b a → ComesOutAlike library settings cs cs' w w' b)

include hcs hcs' hw hs hs' hss'

/-- What a component finds of its own is as it was made. -/
theorem agree_own (hid : id ∈ s.1.nodes) : Workshop.Agree [id] s.2 s'.2 := by
  have hl := (agree_start hcs.enclosed hcs.apart hs).single hid
  have hr := (agree_start hcs'.enclosed hcs'.apart hs').single ((hss'.nodes id).1 hid)
  exact (hl.trans (hw [id])).trans hr.symm

include h ha ih

/-- What a component finds of another one with a root is what that one left, in both runs or in
none. -/
theorem agree_other (hid : id ∈ s.1.seen) (hown : id ∉ s.1.nodes) (hd : d ∈ cs)
    (hroot : d.rootId.isSome) (hidd : id ∈ d.nodes) : Workshop.Agree [id] s.2 s'.2 := by
  have hsm := mem_of_mem_starts hs
  obtain ⟨b, hb⟩ := Option.isSome_iff_exists.1 hroot
  obtain ⟨d', hd', hdd'⟩ := h.counterpart d hd hroot
  obtain ⟨v, ht⟩ : ∃ v, (d, v) ∈ starts library settings cs w := exists_start hd w
  obtain ⟨v', ht'⟩ : ∃ v', (d', v') ∈ starts library settings cs' w' := exists_start hd' w'
  have hne : b ≠ a := by
    rintro rfl
    have hds := hcs.eq_of_mem_nodes hd hsm ((hcs.enclosed d hd).root b hb)
      ((hcs.enclosed _ hsm).root b ha)
    exact hown (hds ▸ hidd)
  have hl := (agree_by_order hcs ht hs hb ha hne).single hidd
  have hr := (agree_by_order hcs' ht' hs' (hdd'.rootId ▸ hb) (hss'.rootId ▸ ha) hne).single
    ((hdd'.nodes id).1 hidd)
  have hsame := h.sees s.1 hsm d hd ⟨id, hid, hidd⟩ a b ha hb
  by_cases hba : Precedes (rootsOf cs) b a
  · rw [if_pos hba] at hl
    rw [if_pos (hsame.1 hba)] at hr
    have hleft := (ih b hba _ ht _ ht' hb hdd').1.single hidd
    exact (hl.trans hleft).trans hr.symm
  · rw [if_neg hba] at hl
    rw [if_neg (mt hsame.2 hba)] at hr
    exact (hl.trans (hw [id])).trans hr.symm

/-- A component finds the same in both runs. -/
theorem agree_seen : Workshop.Agree s.1.seen s.2 s'.2 := by
  refine .of_forall fun id hid => ?_
  by_cases hown : id ∈ s.1.nodes
  · exact agree_own hcs hcs' hw hs hs' hss' hown
  by_cases hother : ∃ d ∈ cs, d.rootId.isSome ∧ id ∈ d.nodes
  · obtain ⟨d, hd, hroot, hidd⟩ := hother
    exact h.agree_other hcs hcs' hw hs hs' hss' ha ih hid hown hd hroot hidd
  · have hl := agree_of_unrooted hcs hs fun d hd hroot hidd => hother ⟨d, hd, hroot, hidd⟩
    have hr := agree_of_unrooted hcs' hs' fun d' hd' hroot hidd => by
      obtain ⟨d, hd, hdd'⟩ := h.counterpart' d' hd' hroot
      exact hother ⟨d, hd, hdd'.rootId ▸ hroot, (hdd'.nodes id).2 hidd⟩
    exact (hl.trans (hw [id])).trans hr.symm

end Seen

/-- **A component comes out of both runs alike.** By induction on the roots of the first run: those
that come before it in one run and are seen by it come before it in the other one. -/
theorem comesOutAlike (h : Reordered cs cs') (hcs : Separate cs) (hcs' : Separate cs')
    (hw : ∀ ids, Workshop.Agree ids w w') :
    ∀ a ∈ rootsOf cs, ComesOutAlike library settings cs cs' w w' a := by
  refine Precedes.induction hcs.rootsOf_nodup fun a _ ih s hs s' hs' ha hss' => ?_
  have hseen := h.agree_seen hcs hcs' hw hs hs' hss' ha ih
  have hends : ∀ r ∈ s.1.secondary, r.parentId ∈ s.1.seen ∧ r.childId ∈ s.1.seen := by
    intro r hr
    constructor
    all_goals exact List.mem_append_right _ (List.mem_flatMap.2 ⟨r, hr, by simp⟩)
  obtain ⟨hagree, hontology, -⟩ := compile_eq_of_agree library settings
    (hcs.enclosed _ (mem_of_mem_starts hs)) (List.subset_append_left _ _) hends hseen
  rw [← hss'.compile_eq (Option.isSome_of_eq_some ha)]
  exact ⟨hagree.mono (List.subset_append_left _ _), hontology⟩

/-- **Both runs give the same ontologies.** -/
theorem ontologies_perm (h : Reordered cs cs') (hcs : Separate cs) (hcs' : Separate cs')
    (hw : ∀ ids, Workshop.Agree ids w w') :
    (ontologiesOf library settings cs w).Perm (ontologiesOf library settings cs' w') := by
  rw [List.perm_ext_iff_of_nodup (ontologiesOf_nodup hcs w) (ontologiesOf_nodup hcs' w')]
  have hsame : ∀ s ∈ starts library settings cs w, ∀ s' ∈ starts library settings cs' w',
      s.1.rootId.isSome → s.1.Counterpart s'.1 →
      (s.1.compile library settings s.2).ontology =
        (s'.1.compile library settings s'.2).ontology := by
    intro s hs s' hs' hroot hss'
    obtain ⟨a, ha⟩ := Option.isSome_iff_exists.1 hroot
    have ham : a ∈ rootsOf cs := List.mem_filterMap.2 ⟨s.1, mem_of_mem_starts hs, ha⟩
    exact (h.comesOutAlike hcs hcs' hw a ham s hs s' hs' ha hss').2
  intro x
  rw [mem_ontologiesOf, mem_ontologiesOf]
  constructor
  · rintro ⟨s, hs, hx⟩
    have hroot := Option.isSome_of_eq_some (rootId_of_compile_ok hx)
    obtain ⟨c', hc', hss'⟩ := h.counterpart s.1 (mem_of_mem_starts hs) hroot
    obtain ⟨v', hs'⟩ : ∃ v', (c', v') ∈ starts library settings cs' w' := exists_start hc' w'
    exact ⟨_, hs', (hsame s hs _ hs' hroot hss').symm.trans hx⟩
  · rintro ⟨s', hs', hx⟩
    have hroot := Option.isSome_of_eq_some (rootId_of_compile_ok hx)
    obtain ⟨c, hc, hss'⟩ := h.counterpart' s'.1 (mem_of_mem_starts hs') hroot
    obtain ⟨v, hs⟩ : ∃ v, (c, v) ∈ starts library settings cs w := exists_start hc w
    exact ⟨_, hs, (hsame _ hs s' hs' (hss'.rootId ▸ hroot) hss').trans hx⟩

end Reordered

end Ontogram
