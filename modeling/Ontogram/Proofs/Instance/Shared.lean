import Ontogram.Proofs.Instance.Instantiation

/-!
# When two instances share a term

A scoped variable is called after the instance and the variable, with a blank between them. So two
instances of one template have terms of their own, unless one name goes on, after a blank, where the
other one ends: `y_` of `M x` and `x y_` of `M` are both called `M x y`.

* `registered_ofGraph` — the variables of an instance stand for texts in the scope of its name.
* `exists_sharesTerm` — a template with which such two names share a term.
* `exists_sharesTerm_iff_extends` — no others do.
-/

namespace Ontogram.Instance

variable {e f : Instance} {a b name base selfTerm v term : String} {graph : TermGraph}
  {renames : List (String × String)}

/-! ## What the variables stand for -/

/-- Renames to terms with a property give it to what a variable stands for. -/
theorem registered_replaceAll {p : String → Prop} (hd : e.replaceAll renames = .done f)
    (hv : e.registry.Valid) (hnew : ∀ r ∈ renames, p r.2)
    (h : ∀ t, e.registry.get? v = some t → p t ∨ t ∈ renames.map Prod.fst) :
    ∀ t, f.registry.get? v = some t → p t := by
  induction renames generalizing e with
  | nil =>
    cases hd
    exact fun t ht => (h t ht).resolve_right List.not_mem_nil
  | cons r renames ih =>
    obtain ⟨e₁, h₁, hd₁⟩ := replaceAll_cons_ok.1 hd
    have hr := hnew r List.mem_cons_self
    have hrest : ∀ s ∈ renames, p s.2 := fun s hs => hnew s (List.mem_cons_of_mem r hs)
    -- Up to here, what the variable stands for has the property or is still to be renamed.
    rcases replace_ok h₁ with ⟨heq, rfl⟩ | ⟨-, graph₁, -, rfl⟩
    · refine ih hd₁ hv hrest fun t ht => ?_
      rcases h t ht with hp | hmem
      · exact Or.inl hp
      · rcases List.mem_cons.1 hmem with rfl | hmem
        · exact Or.inl (heq ▸ hr)
        · exact Or.inr hmem
    · refine ih hd₁ (hv.recordRename r.1 r.2) hrest fun t ht => ?_
      rcases hv.eq_or_get?_of_recordRename ht with rfl | ⟨hold, ht⟩
      · exact Or.inl hr
      · exact (h t ht).imp_right fun hmem => (List.mem_cons.1 hmem).resolve_left hold

/-- Once the self term has its name, a variable stands for the name or for itself. -/
theorem registered_replace_self
    (h : (unbound name base selfTerm graph).replace selfTerm name false = .done e)
    (hget : e.registry.get? v = some term) : term = name ∨ term = v ∧ v ≠ selfTerm := by
  obtain ⟨hvalid, hunbound⟩ := Registry.valid_unbound_identity graph.variableLabels
  rcases replace_ok h with ⟨rfl, rfl⟩ | ⟨-, graph₁, -, rfl⟩
  · obtain rfl := hunbound.eq_of_get? hget
    exact (eq_or_ne term selfTerm).imp_right fun hne => ⟨rfl, hne⟩
  · rcases hvalid.eq_or_get?_of_recordRename hget with hnew | ⟨hold, hget⟩
    · exact Or.inl hnew
    · obtain rfl := hunbound.eq_of_get? hget
      exact Or.inr ⟨rfl, hold⟩

/-- The free variables of a graph that are its self term or below it. -/
def OwnVariable (graph : TermGraph) (selfTerm v : String) : Prop :=
  Label.isFree v = true ∧ (v = selfTerm ∨ graph.Leads selfTerm v)

/-- **The variables of an instance stand for texts in the scope of its name**, whatever merges happen
on the way. -/
theorem registered_ofGraph (h : ofGraph name base selfTerm graph = .ok e)
    (hv : OwnVariable graph selfTerm v) (hget : e.registry.get? v = some term) :
    Label.InScope name term := by
  obtain ⟨hfree, hv⟩ := hv
  obtain ⟨e₁, hself, hscope⟩ := ofGraph_eq_ok.1 h
  rw [selfLabel_unbound] at hself
  have hg := (grounded_unbound name base selfTerm graph).replace selfTerm name
  rw [hself] at hg
  have hname : e₁.name = name := by
    obtain ⟨_, _, rfl⟩ := replace_fields hself
    rfl
  rw [scopeFree, hname] at hscope
  refine registered_replaceAll hscope hg.valid (fun r hr => ?_) (fun t ht => ?_) term hget
  · obtain ⟨l, hl, rfl⟩ := List.mem_map.1 hr
    exact Label.inScope_scopedVariable (List.mem_filter.1 hl).2
  · rcases registered_replace_self hself ht with rfl | ⟨rfl, hne⟩
    · exact Or.inl (Or.inl rfl)
    · have hway := leads_replace hself (hv.resolve_left hne)
      rw [if_pos rfl, if_neg (Ne.symm hne)] at hway
      rcases eq_or_ne t name with heq | hnew
      · exact Or.inl (Or.inl heq)
      · rw [scopings_map_fst]
        exact Or.inr (List.mem_filter.2 ⟨TermGraph.mem_descendants.2 ⟨hnew, hway⟩, hfree⟩)

/-! ## Names that share a term -/

/-- Says that a variable of one instance stands for the same term as a variable of another. -/
def SharesTerm (e f : Instance) (v w : String) : Prop :=
  ∃ term, e.registry.get? v = some term ∧ f.registry.get? w = some term

/-- An instance of a graph whose variables all end in its self term and the marker. -/
theorem exists_ofGraph_of_suffix (base : String) (hself : graph.contains selfTerm = true)
    (hlabels : ∀ l, graph.contains l = true → l = selfTerm ∨ ∃ text, l = text ++ selfTerm ++ "_")
    (hvariable : Label.isVariable selfTerm = false) (hlength : name.length < selfTerm.length) :
    ∃ e, ofGraph name base selfTerm graph = .ok e ∧
      ∀ text, Label.isPlaceholder (text ++ selfTerm) = false →
        graph.Leads selfTerm (text ++ selfTerm ++ "_") →
        e.registry.get? (text ++ selfTerm ++ "_") = some (name ++ " " ++ (text ++ selfTerm)) := by
  have hne : selfTerm ≠ "" := by
    rintro rfl
    exact absurd hlength (Nat.not_lt_zero _)
  have hscoped : ∀ text, Label.scopedVariable name (text ++ selfTerm ++ "_") =
      name ++ " " ++ (text ++ selfTerm) := fun text => by
    rw [Label.scopedVariable, Label.stem_append_marker]
  have hname : graph.contains name = false := by
    rw [← Bool.not_eq_true]
    intro hc
    rcases hlabels name hc with rfl | ⟨text, rfl⟩
    · exact absurd hlength (Nat.lt_irrefl _)
    · simp only [String.length_append] at hlength
      omega
  have hfresh : ∀ u, Label.isFree u = true → graph.Leads selfTerm u →
      graph.contains (Label.scopedVariable name u) = false := by
    intro u hfree hlead
    rw [← Bool.not_eq_true]
    intro hc
    rcases hlabels u (Arena.contains_of_leads hlead).2 with rfl | ⟨text, rfl⟩
    · rw [Label.isFree, hvariable] at hfree
      cases hfree
    · rw [hscoped] at hc
      rcases hlabels _ hc with heq | ⟨text', heq⟩
      · have hl := congrArg String.length heq
        have hblank : " ".length = 1 := rfl
        simp only [String.length_append] at hl
        omega
      · -- A scoped variable ends like the self term, which is none.
        have hl := congrArg Label.isVariable heq
        rw [← String.append_assoc, Label.isVariable_append hne, hvariable,
          Label.isVariable_append_marker] at hl
        cases hl
  obtain ⟨names, e, hok, hnames, -, hregistry⟩ :=
    exists_ofGraph_relabeled base hself hname hfresh
  refine ⟨e, hok, fun text hp hlead => ?_⟩
  have hmarked := Label.isVariable_append_marker (text ++ selfTerm)
  rw [hregistry, ← hscoped]
  refine ⟨Or.inr ⟨(Arena.contains_of_leads hlead).2, hmarked⟩, hnames.below _ ?_ ?_ hlead⟩
  · intro heq
    rw [heq, hvariable] at hmarked
    cases hmarked
  · rw [Label.isFree_append_marker, hp]
    rfl

/-- A template with two terms below the self term. -/
def fork (selfTerm v w : String) : TermGraph :=
  (TermGraph.empty.relate ⟨selfTerm, v, ⟨"has", false⟩⟩).relate ⟨selfTerm, w, ⟨"has", false⟩⟩

theorem leads_fork (selfTerm v w : String) :
    (fork selfTerm v w).Leads selfTerm v ∧ (fork selfTerm v w).Leads selfTerm w := by
  constructor
  · exact Relation.TransGen.single
      ((Arena.grows_relate _ _).relation?_isSome (Arena.relation?_relate_isSome _ _))
  · exact Relation.TransGen.single (Arena.relation?_relate_isSome _ _)

theorem eq_of_contains_fork {l w : String} (h : (fork selfTerm v w).contains l = true) :
    l = selfTerm ∨ l = v ∨ l = w := by
  rcases (Arena.contains_relate _ _ l).1 h with hl | hl | h
  · exact Or.inl hl
  · exact Or.inr (Or.inr hl)
  · rcases (Arena.contains_relate _ _ l).1 h with hl | hl | h
    · exact Or.inl hl
    · exact Or.inr (Or.inl hl)
    · cases h

/-- **A name and one that extends it share a term of some template.** -/
theorem exists_sharesTerm (h : Label.Extends a b) :
    ∃ graph selfTerm v w e f, ofGraph a "" selfTerm graph = .ok e ∧
      ofGraph b "" selfTerm graph = .ok f ∧ OwnVariable graph selfTerm v ∧
      OwnVariable graph selfTerm w ∧ SharesTerm e f v w := by
  obtain ⟨x, hx, rfl⟩ := h
  -- The self term is longer than both names, so they are no labels.
  obtain ⟨s, hlength, hvariable, hplain⟩ := Label.exists_unmarked ((a ++ " " ++ x).length + 1)
  have hlonger : (a ++ " " ++ x).length < s.length := by omega
  have hlong : a.length < s.length := by
    simp only [String.length_append] at hlonger
    omega
  obtain ⟨hv, hw⟩ := leads_fork s (x ++ " " ++ s ++ "_") ("" ++ s ++ "_")
  have hself := (Arena.contains_of_leads hv).1
  have hlabels : ∀ l, (fork s (x ++ " " ++ s ++ "_") ("" ++ s ++ "_")).contains l = true →
      l = s ∨ ∃ text, l = text ++ s ++ "_" := by
    intro l hl
    rcases eq_of_contains_fork hl with rfl | rfl | rfl
    · exact Or.inl rfl
    · exact Or.inr ⟨_, rfl⟩
    · exact Or.inr ⟨_, rfl⟩
  have hpv : Label.isPlaceholder (x ++ " " ++ s) = false := by
    rw [Label.isPlaceholder_append, Label.isPlaceholder_append, hx, hplain]
    rfl
  have hpw : Label.isPlaceholder ("" ++ s) = false := by
    rw [Label.isPlaceholder_append, hplain]
    rfl
  obtain ⟨e, he, hstands⟩ := exists_ofGraph_of_suffix "" hself hlabels hvariable hlong
  obtain ⟨f, hf, hstands'⟩ := exists_ofGraph_of_suffix "" hself hlabels hvariable hlonger
  refine ⟨_, s, _, _, e, f, he, hf, ⟨?_, Or.inr hv⟩, ⟨?_, Or.inr hw⟩, _, hstands _ hpv hv, ?_⟩
  · rw [Label.isFree_append_marker, hpv]
    rfl
  · rw [Label.isFree_append_marker, hpw]
    rfl
  · rw [hstands' _ hpw hw]
    simp only [String.append_assoc, String.empty_append]

/--
**Two names have a template whose instances share a variable term exactly if one extends the other.**

So instances whose names have no blanks have terms of their own.
-/
theorem exists_sharesTerm_iff_extends (hne : a ≠ b) :
    (∃ graph selfTerm base base' v w e f, ofGraph a base selfTerm graph = .ok e ∧
      ofGraph b base' selfTerm graph = .ok f ∧ OwnVariable graph selfTerm v ∧
      OwnVariable graph selfTerm w ∧ SharesTerm e f v w) ↔
    Label.Extends a b ∨ Label.Extends b a := by
  constructor
  · rintro ⟨graph, selfTerm, base, base', v, w, e, f, he, hf, hv, hw, term, hget, hget'⟩
    have ha := registered_ofGraph he hv hget
    have hb := registered_ofGraph hf hw hget'
    exact (ha.comparable hb).resolve_left hne
  · rintro (h | h)
    · obtain ⟨graph, selfTerm, v, w, e, f, he, hf, hv, hw, hshared⟩ := exists_sharesTerm h
      exact ⟨graph, selfTerm, "", "", v, w, e, f, he, hf, hv, hw, hshared⟩
    · obtain ⟨graph, selfTerm, v, w, e, f, he, hf, hv, hw, term, hget, hget'⟩ :=
        exists_sharesTerm h
      exact ⟨graph, selfTerm, "", "", w, v, f, e, hf, he, hw, hv, term, hget', hget⟩

/-- `M x y` is `x y_` of `M` and `y_` of `M x`. Nothing is shared by `A` and `B`. -/
theorem exists_sharesTerm_iff_extends_blank :
    (∃ e f, ofGraph "M" "T" "t_" (fork "t_" "x y_" "y_") = .ok e ∧
      ofGraph "M x" "T" "t_" (fork "t_" "x y_" "y_") = .ok f ∧
      e.registry.get? "x y_" = some "M x y" ∧ f.registry.get? "y_" = some "M x y") ∧
    ¬∃ graph selfTerm base base' v w e f, ofGraph "A" base selfTerm graph = .ok e ∧
      ofGraph "B" base' selfTerm graph = .ok f ∧ OwnVariable graph selfTerm v ∧
      OwnVariable graph selfTerm w ∧ SharesTerm e f v w := by
  constructor
  · have hrun : (ofGraph "M" "T" "t_" (fork "t_" "x y_" "y_")).toOption.any fun e =>
        (ofGraph "M x" "T" "t_" (fork "t_" "x y_" "y_")).toOption.any fun f =>
          decide (e.registry.get? "x y_" = some "M x y" ∧
            f.registry.get? "y_" = some "M x y") := by decide +kernel
    obtain ⟨e, he, hrun⟩ := exists_ok_of_any hrun
    obtain ⟨f, hf, hrun⟩ := exists_ok_of_any hrun
    obtain ⟨hget, hget'⟩ := of_decide_eq_true hrun
    exact ⟨e, f, he, hf, hget, hget'⟩
  · intro h
    rcases (exists_sharesTerm_iff_extends (by decide)).1 h with h | h
    · exact Label.not_extends_of_blank_notMem (by decide) h
    · exact Label.not_extends_of_blank_notMem (by decide) h

end Ontogram.Instance
