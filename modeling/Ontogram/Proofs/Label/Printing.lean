import Ontogram.Proofs.Label.Greedy
import Ontogram.Proofs.Label.Plain

/-!
# Labels that are written and read

A directive that is written as a label is read back, without the blanks around its parts. The name
of an instantiation and the value of a binding may hold any delimiters, and anything may follow that
does not close the form again in the same line.

* `TermMapping.parse?_written` — the head and the body of a form that is written out.
* `parse_undoes_printing` — both directives.
-/

namespace Ontogram.Label

open Ontogram.Text

/-! ## Writing -/

/-- The label of an instantiation. -/
def Instantiation.print (d : Instantiation) : String :=
  d.name ++ "[" ++ d.base ++ "|" ++ d.selfTerm ++ "]"

/-- The label of a binding. -/
def Binding.print (b : Binding) : String :=
  b.value ++ "(" ++ b.key ++ ")"

/-- An instantiation without the blanks around its parts. -/
def Instantiation.trimmed (d : Instantiation) : Instantiation :=
  ⟨trim d.name, trim d.base, trim d.selfTerm⟩

/-- A binding without the blanks around its parts. -/
def Binding.trimmed (b : Binding) : Binding :=
  ⟨trim b.value, trim b.key⟩

/-- Says that a text is in one line and holds no markup. -/
structure IsLine (text : String) : Prop where
  noMarkup : hasMarkup text.toList = false
  noBreak : '\n' ∉ text.toList

/-- Says that a text is not all blank. -/
def NotBlank (text : String) : Prop :=
  ∃ c ∈ text.toList, isBlank c = false

/-- Says that a text can be a part of a body. -/
structure IsPart (d : Delimiters) (text : String) : Prop extends IsLine text where
  notBlank : NotBlank text
  noOpening : d.opening ∉ text.toList
  noClosing : d.closing ∉ text.toList
  noSeparator : '|' ∉ text.toList

/-- Says that a text can follow a form. -/
structure IsTail (d : Delimiters) (text : String) : Prop where
  noMarkup : hasMarkup text.toList = false
  noClosing : d.closing ∉ firstLine text.toList

/-! ## Reading a form -/

variable {d : Delimiters} {c : Char} {cs body tail : List Char}

theorem Delimiters.isBlank_opening (d : Delimiters) : isBlank d.opening = false := by
  cases d <;> decide

theorem Delimiters.isBlank_closing (d : Delimiters) : isBlank d.closing = false := by
  cases d <;> decide

theorem Delimiters.opening_ne_separator (d : Delimiters) : d.opening ≠ '|' := by
  cases d <;> decide

theorem Delimiters.opening_not_markup (d : Delimiters) : d.opening ≠ '<' ∧ d.opening ≠ '&' := by
  cases d <;> decide

theorem Delimiters.closing_not_markup (d : Delimiters) : d.closing ≠ '<' ∧ d.closing ≠ '&' := by
  cases d <;> decide

/-- The text of a body with several parts. -/
def bodyOf (parts : List String) : List Char :=
  ['|'].intercalate (parts.map String.toList)

theorem mem_bodyOf {parts : List String} (hc : c ∈ bodyOf parts) :
    c = '|' ∨ ∃ part ∈ parts, c ∈ part.toList := by
  unfold bodyOf at hc
  induction parts with
  | nil => simp [List.intercalate] at hc
  | cons part parts ih =>
    cases parts with
    | nil => exact Or.inr ⟨part, List.mem_cons_self, by simpa using hc⟩
    | cons next parts =>
      rw [List.map_cons, List.map_cons, List.intercalate_cons_cons, List.append_assoc,
        List.mem_append, List.mem_append, List.mem_singleton] at hc
      rcases hc with hc | rfl | hc
      · exact Or.inr ⟨part, List.mem_cons_self, hc⟩
      · exact Or.inl rfl
      · obtain he | ⟨part', hpart', hc'⟩ := ih (by rwa [List.map_cons])
        · exact Or.inl he
        · exact Or.inr ⟨part', List.mem_cons_of_mem _ hpart', hc'⟩

theorem splitOn_bodyOf {parts : List String} (hne : parts ≠ [])
    (hparts : ∀ part ∈ parts, '|' ∉ part.toList) :
    (bodyOf parts).splitOn '|' = parts.map String.toList :=
  List.splitOn_intercalate _ (by simpa using hparts) (by simpa using hne)

/-- A body has the characters that separate its parts and those of its parts. -/
theorem notMem_bodyOf {parts : List String} (hc : c ≠ '|')
    (hparts : ∀ part ∈ parts, c ∉ part.toList) : c ∉ bodyOf parts := by
  intro hmem
  obtain rfl | ⟨part, hpart, hc'⟩ := mem_bodyOf hmem
  · exact hc rfl
  · exact hparts part hpart hc'

theorem cutForm?_form {head : List Char} (hbody : d.opening ∉ body) (htail : d.closing ∉ tail) :
    cutForm? d (head ++ d.opening :: (body ++ d.closing :: tail)) = some (head, body) := by
  have hclose : cutLast d.closing (head ++ d.opening :: (body ++ d.closing :: tail)) =
      some (head ++ d.opening :: body, tail) :=
    cutLast_eq_some.2 ⟨by rw [List.append_assoc, List.cons_append], htail⟩
  rw [cutForm?, hclose, Option.bind_some]
  exact cutLast_eq_some.2 ⟨rfl, hbody⟩

/-- A text that goes on has no less in its first line. -/
theorem firstLine_subset_append (xs ys : List Char) : firstLine xs ⊆ firstLine (xs ++ ys) := by
  unfold firstLine
  rw [List.takeWhile_append]
  split
  · next hlen =>
    rw [(List.takeWhile_prefix _).eq_of_length hlen]
    exact List.subset_append_left _ _
  · exact List.Subset.refl _

theorem notMem_firstLine_trimEnd (htail : d.closing ∉ firstLine tail) :
    d.closing ∉ firstLine (trimEnd tail) := by
  obtain ⟨blanks, he, -⟩ := trimEnd_append tail
  rw [he] at htail
  exact fun hmem => htail (firstLine_subset_append _ _ hmem)

variable {label head tailText : String} {parts : List String}

theorem hasMarkup_written (hlabel : label.toList =
      head.toList ++ d.opening :: (bodyOf parts ++ d.closing :: tailText.toList))
    (hhead : IsLine head) (hparts : ∀ part ∈ parts, IsPart d part) (htail : IsTail d tailText) :
    hasMarkup label.toList = false := by
  rw [hasMarkup_eq_false_iff, hlabel]
  simp only [List.mem_append, List.mem_cons]
  rintro c (hc | rfl | hc | rfl | hc)
  · exact hasMarkup_eq_false_iff.1 hhead.noMarkup c hc
  · exact d.opening_not_markup
  · obtain rfl | ⟨part, hpart, hc⟩ := mem_bodyOf hc
    · decide
    · exact hasMarkup_eq_false_iff.1 (hparts part hpart).noMarkup c hc
  · exact d.closing_not_markup
  · exact hasMarkup_eq_false_iff.1 htail.noMarkup c hc

/-- **A form that is written out is read as its head and the parts of its body.** -/
theorem TermMapping.parse?_written (hlabel : label.toList =
      head.toList ++ d.opening :: (bodyOf parts ++ d.closing :: tailText.toList))
    (hhead : IsLine head) (hne : parts ≠ []) (hparts : ∀ part ∈ parts, IsPart d part)
    (htail : IsTail d tailText) :
    TermMapping.parse? d label = some ⟨trim head, parts.map trim⟩ := by
  have hmarkup := hasMarkup_written hlabel hhead hparts htail
  have htrim : (plain label).toList = trimStart head.toList ++
      d.opening :: (bodyOf parts ++ d.closing :: trimEnd tailText.toList) := by
    rw [plain_of_not_hasMarkup hmarkup, trim, String.toList_ofList, hlabel,
      trimChars_between d.isBlank_opening d.isBlank_closing]
  have hstart : '\n' ∉ trimStart head.toList := fun hm =>
    hhead.noBreak (List.dropWhile_subset _ hm)
  have hbreak := notMem_bodyOf (by decide) fun part hpart => (hparts part hpart).noBreak
  have hopening := notMem_bodyOf d.opening_ne_separator fun part hpart =>
    (hparts part hpart).noOpening
  have hsplit := splitOn_bodyOf hne fun part hpart => (hparts part hpart).noSeparator
  rw [TermMapping.parse?_eq, htrim, firstLine_form hstart hbreak,
    cutForm?_form hopening (notMem_firstLine_trimEnd htail.noClosing), Option.map_some, ofGroups]
  simp [trimChars_trimStart, hsplit, trim]

/-! ## Reading a directive -/

theorem trim_ne_empty {text : String} (h : NotBlank text) : trim text ≠ "" := by
  obtain ⟨c, hmem, hc⟩ := h
  intro he
  have hc' := (mem_trimChars hc).2 hmem
  rw [String.ofList_eq_empty_iff.1 he] at hc'
  cases hc'

variable {i : Instantiation} {b : Binding}

theorem TermMapping.parseParts_eq_ok {m : TermMapping} {expected : Nat}
    (hread : TermMapping.parse? d label = some m) (hlen : m.parts.length = expected) :
    TermMapping.parseParts d expected label = .ok m := by
  simp only [TermMapping.parseParts, hread, hlen, if_true]

theorem Instantiation.parse_eq_ok
    (hread : TermMapping.parseParts .brackets 2 label = .ok ⟨i.name, [i.base, i.selfTerm]⟩)
    (hempty : i.emptyPart? = none) : Instantiation.parse label = .ok i := by
  simp only [Instantiation.parse, hread, List.getD_cons_zero, List.getD_cons_succ, hempty]

theorem Binding.parse_eq_ok
    (hread : TermMapping.parseParts .parens 1 label = .ok ⟨b.value, [b.key]⟩)
    (hkey : b.key ≠ "") : Binding.parse label = .ok b := by
  simp only [Binding.parse, hread, List.getD_cons_zero, if_neg hkey]

/-- **An instantiation that is written as a label is read back, and so is its name.** -/
theorem Instantiation.parse_print (hname : IsLine i.name) (hnot : NotBlank i.name)
    (hbase : IsPart .brackets i.base) (hself : IsPart .brackets i.selfTerm)
    (htail : IsTail .brackets tailText) :
    Instantiation.parse (i.print ++ tailText) = .ok i.trimmed ∧
      displayName (i.print ++ tailText) = trim i.name := by
  have hparts : ∀ part ∈ [i.base, i.selfTerm], IsPart .brackets part := by
    simpa using ⟨hbase, hself⟩
  have hlabel : (i.print ++ tailText).toList = i.name.toList ++ Delimiters.brackets.opening ::
      (bodyOf [i.base, i.selfTerm] ++ Delimiters.brackets.closing :: tailText.toList) := by
    simp [Instantiation.print, bodyOf, Delimiters.opening, Delimiters.closing]
  have hread := TermMapping.parse?_written hlabel hname (by simp) hparts htail
  have hempty : i.trimmed.emptyPart? = none := by
    simp [Instantiation.emptyPart?, Instantiation.trimmed, trim_ne_empty hnot,
      trim_ne_empty hbase.notBlank, trim_ne_empty hself.notBlank]
  exact ⟨Instantiation.parse_eq_ok (TermMapping.parseParts_eq_ok hread rfl) hempty,
    by rw [displayName, hread]⟩

/-- **A binding that is written as a label is read back.** -/
theorem Binding.parse_print (hvalue : IsLine b.value) (hkey : IsPart .parens b.key)
    (htail : IsTail .parens tailText) :
    Binding.parse (b.print ++ tailText) = .ok b.trimmed := by
  have hlabel : (b.print ++ tailText).toList = b.value.toList ++ Delimiters.parens.opening ::
      (bodyOf [b.key] ++ Delimiters.parens.closing :: tailText.toList) := by
    simp [Binding.print, bodyOf, Delimiters.opening, Delimiters.closing]
  have hread := TermMapping.parse?_written hlabel hvalue (by simp) (by simpa using hkey) htail
  exact Binding.parse_eq_ok (TermMapping.parseParts_eq_ok hread rfl)
    (trim_ne_empty hkey.notBlank)

/--
**Reading undoes writing for both directives.** The name of an instantiation and the value of a
binding may hold any delimiters, the name must not be blank, and the tail may be any text that does
not close the form in its first line.
-/
theorem parse_undoes_printing :
    (∀ (i : Instantiation) (tail : String), IsLine i.name → NotBlank i.name →
      IsPart .brackets i.base → IsPart .brackets i.selfTerm → IsTail .brackets tail →
        Instantiation.parse (i.print ++ tail) = .ok i.trimmed ∧
          displayName (i.print ++ tail) = trim i.name) ∧
    ∀ (b : Binding) (tail : String), IsLine b.value → IsPart .parens b.key → IsTail .parens tail →
      Binding.parse (b.print ++ tail) = .ok b.trimmed :=
  ⟨fun _ _ => Instantiation.parse_print, fun _ _ => Binding.parse_print⟩

/-- A name with a form of its own before the form, and a value with unbalanced delimiters, each with
a tail that closes the form again in its second line. -/
theorem parse_undoes_printing_nested :
    IsLine "f(x)[y|z] ]" ∧ NotBlank "f(x)[y|z] ]" ∧ IsPart .brackets " Motor" ∧
      IsPart .brackets "m_ (" ∧ IsTail .brackets " [\n]" ∧
      Instantiation.parse ("f(x)[y|z] ]" ++ "[" ++ " Motor" ++ "|" ++ "m_ (" ++ "]" ++ " [\n]") =
        .ok ⟨"f(x)[y|z] ]", "Motor", "m_ ("⟩ ∧
    IsLine " 3.5 (m/s)) " ∧ IsPart .parens "speed_ " ∧ IsTail .parens "(\n)" ∧
      Binding.parse (" 3.5 (m/s)) " ++ "(" ++ "speed_ " ++ ")" ++ "(\n)") =
        .ok ⟨"3.5 (m/s))", "speed_"⟩ := by
  have hname : IsLine "f(x)[y|z] ]" := ⟨by decide, by decide⟩
  have hnot : NotBlank "f(x)[y|z] ]" := ⟨'f', by decide, by decide⟩
  have hbase : IsPart .brackets " Motor" :=
    ⟨⟨by decide, by decide⟩, ⟨'M', by decide, by decide⟩, by decide, by decide, by decide⟩
  have hself : IsPart .brackets "m_ (" :=
    ⟨⟨by decide, by decide⟩, ⟨'m', by decide, by decide⟩, by decide, by decide, by decide⟩
  have htail : IsTail .brackets " [\n]" := ⟨by decide, by decide⟩
  have hvalue : IsLine " 3.5 (m/s)) " := ⟨by decide, by decide⟩
  have hkey : IsPart .parens "speed_ " :=
    ⟨⟨by decide, by decide⟩, ⟨'s', by decide, by decide⟩, by decide, by decide, by decide⟩
  have htail' : IsTail .parens "(\n)" := ⟨by decide, by decide⟩
  have hparse := (parse_undoes_printing.1 ⟨"f(x)[y|z] ]", " Motor", "m_ ("⟩ " [\n]" hname hnot hbase
    hself htail).1
  have hbinding := parse_undoes_printing.2 ⟨" 3.5 (m/s)) ", "speed_ "⟩ "(\n)" hvalue hkey htail'
  exact ⟨hname, hnot, hbase, hself, htail, hparse, hvalue, hkey, htail', hbinding⟩

end Ontogram.Label
