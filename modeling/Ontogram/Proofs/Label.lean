import Mathlib.Data.List.Basic
import Ontogram.Label.Marker

/-!
# Stems and scopes

The stem of a variable is all of it but the final marker. A scoped variable is the scope, a blank
and the stem: it tells the variable if the scope is known, and has no placeholder marker of its own.

* `scopedVariable_inj` — under one scope, a free variable is known by its scoped name.
* `isPlaceholder_scopedVariable` — scoping makes no placeholder.
* `InScope.comparable` — names that have a text in the scope of both.
-/

namespace Ontogram.Label

variable {v w scope a b term : String}

/-! ## Stems -/

/-- A text with a final marker is a variable. -/
theorem isVariable_append_marker (text : String) : isVariable (text ++ "_") = true := by
  unfold isVariable
  rw [String.toList_append, beq_iff_eq]
  exact List.getLast?_concat

/-- The last character of a text decides. -/
theorem isVariable_append {s t : String} (ht : t ≠ "") : isVariable (s ++ t) = isVariable t := by
  have hlist : t.toList ≠ [] := mt String.toList_eq_nil_iff.1 ht
  unfold isVariable
  rw [String.toList_append, List.getLast?_append_of_ne_nil _ hlist]

theorem stem_append_marker (text : String) : stem (text ++ "_") = text := by
  unfold stem
  rw [if_pos (isVariable_append_marker text), String.toList_append]
  exact (congrArg String.ofList List.dropLast_concat).trans (String.ofList_toList)

theorem isPlaceholder_append (s t : String) :
    isPlaceholder (s ++ t) = (isPlaceholder s || isPlaceholder t) := by
  simp [isPlaceholder, Bool.decide_or]

theorem isFree_append_marker (text : String) : isFree (text ++ "_") = !isPlaceholder text := by
  have hmarker : isPlaceholder "_" = false := by decide
  rw [isFree, isVariable_append_marker, isPlaceholder_append, hmarker, Bool.or_false, Bool.true_and]

/-- A variable is known by its stem. -/
theorem stem_inj (hv : isVariable v = true) (hw : isVariable w = true) (h : stem v = stem w) :
    v = w := by
  unfold stem at h
  rw [if_pos hv, if_pos hw] at h
  unfold isVariable at hv hw
  rw [beq_iff_eq] at hv hw
  have hdrop : v.toList.dropLast = w.toList.dropLast := String.ofList_injective h
  rw [← String.toList_inj, ← List.dropLast_append_getLast? _ hv,
    ← List.dropLast_append_getLast? _ hw, hdrop]

theorem isPlaceholder_stem {label : String} (h : isPlaceholder label = false) :
    isPlaceholder (stem label) = false := by
  unfold stem
  split
  · unfold isPlaceholder at h ⊢
    rw [String.toList_ofList]
    simp only [List.contains_eq_mem, decide_eq_false_iff_not] at h ⊢
    exact fun hm => h ((List.dropLast_sublist _).subset hm)
  · exact h

/-- A text of any length without markers. -/
theorem exists_unmarked (n : Nat) :
    ∃ text : String, text.length = n ∧ isVariable text = false ∧ isPlaceholder text = false := by
  refine ⟨String.ofList (List.replicate n 't'), ?_, ?_, ?_⟩
  · rw [String.length_ofList, List.length_replicate]
  · unfold isVariable
    rw [String.toList_ofList, List.getLast?_replicate]
    split <;> rfl
  · unfold isPlaceholder
    rw [String.toList_ofList, List.contains_eq_mem, decide_eq_false_iff_not]
    exact fun hmem => absurd (List.eq_of_mem_replicate hmem) (by decide)

/-! ## Scopes -/

theorem scopedVariable_ne (scope label : String) : scopedVariable scope label ≠ scope := by
  intro he
  have hl := congrArg String.length he
  unfold scopedVariable at hl
  rw [String.length_append, String.length_append] at hl
  have hblank : " ".length = 1 := rfl
  omega

/-- Under one scope, a free variable is known by its scoped name. -/
theorem scopedVariable_inj (hv : isFree v = true) (hw : isFree w = true)
    (h : scopedVariable scope v = scopedVariable scope w) : v = w := by
  rw [isFree, Bool.and_eq_true] at hv hw
  exact stem_inj hv.1 hw.1 ((String.append_right_inj _).1 h)

/-- Scoping makes no placeholder. -/
theorem isPlaceholder_scopedVariable {scope label : String} (hs : isPlaceholder scope = false)
    (hl : isPlaceholder label = false) : isPlaceholder (scopedVariable scope label) = false := by
  unfold scopedVariable
  rw [isPlaceholder_append, isPlaceholder_append, hs, isPlaceholder_stem hl]
  rfl

/-- Says that a name goes on, after a blank and without placeholder markers, where another ends. -/
def Extends (a b : String) : Prop :=
  ∃ text, isPlaceholder text = false ∧ b = a ++ " " ++ text

/-- A name without a blank extends none. -/
theorem not_extends_of_blank_notMem (hb : ' ' ∉ b.toList) : ¬Extends a b := by
  rintro ⟨text, -, rfl⟩
  refine hb ?_
  rw [String.toList_append, String.toList_append]
  exact List.mem_append_left _ (List.mem_append_right _ List.mem_cons_self)

/-- Says that a text is a name or extends it. -/
def InScope (name term : String) : Prop :=
  term = name ∨ Extends name term

theorem inScope_scopedVariable (h : isFree v = true) : InScope scope (scopedVariable scope v) := by
  rw [isFree, Bool.and_eq_true, Bool.not_eq_true'] at h
  exact Or.inr ⟨stem v, isPlaceholder_stem h.2, rfl⟩

theorem eq_or_extends_of_append {text : List Char} (hp : placeholderMarker ∉ text)
    (h : b.toList ++ [' '] = a.toList ++ [' '] ++ text) : a = b ∨ Extends a b := by
  rcases List.eq_nil_or_concat text with rfl | ⟨init, last, rfl⟩
  · rw [List.append_nil] at h
    exact Or.inl (String.toList_inj.1 (List.append_cancel_right h).symm)
  · rw [List.concat_eq_append, ← List.append_assoc] at h
    have hb : b.toList = a.toList ++ [' '] ++ init := (List.append_inj' h rfl).1
    refine Or.inr ⟨String.ofList init, ?_, String.toList_inj.1 ?_⟩
    · unfold isPlaceholder
      rw [String.toList_ofList, List.contains_eq_mem, decide_eq_false_iff_not]
      exact fun hmem => hp (by simp [hmem])
    · simp only [String.toList_append, String.toList_ofList]
      exact hb

/-- **Of two names with a text in the scope of both, one is the other or extends it.** -/
theorem InScope.comparable (ha : InScope a term) (hb : InScope b term) :
    a = b ∨ Extends a b ∨ Extends b a := by
  rcases ha with rfl | ⟨x, hx, rfl⟩
  · rcases hb with rfl | hb
    · exact Or.inl rfl
    · exact Or.inr (Or.inr hb)
  · rcases hb with rfl | ⟨y, hy, h⟩
    · exact Or.inr (Or.inl ⟨x, hx, rfl⟩)
    · have hlist := congrArg String.toList h
      simp only [String.toList_append] at hlist
      unfold isPlaceholder at hx hy
      rw [List.contains_eq_mem, decide_eq_false_iff_not] at hx hy
      -- The shorter of the two scopes starts the longer one.
      rcases List.append_eq_append_iff.1 hlist with ⟨text, hscope, hrest⟩ | ⟨text, hscope, hrest⟩
      · have hp : placeholderMarker ∉ text := fun hm => hx (hrest ▸ List.mem_append_left _ hm)
        exact (eq_or_extends_of_append hp hscope).imp_right Or.inl
      · have hp : placeholderMarker ∉ text := fun hm => hy (hrest ▸ List.mem_append_left _ hm)
        exact (eq_or_extends_of_append hp hscope).imp Eq.symm Or.inr

end Ontogram.Label
