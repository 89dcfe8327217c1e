import Ontogram.Label.Plain

/-!
# Directives

The surface forms inside a label that drive a compilation: `Name[Base|Self]` instantiates the
template `Base`, and `Value(Variable)` binds a template variable.

The form is looked for in the first line of the plain text of the label. The body ends at the last
closing delimiter and starts at the last opening delimiter before it; what follows the closing
delimiter is ignored. So `3.5 (m/s)(speed_)` binds `speed_` to `3.5 (m/s)`.

* `cutLast_eq_some` — a text is cut at the last occurrence of a character.
-/

namespace Ontogram.Label

open Ontogram.Text

/-- The two pairs of delimiters around a body. -/
inductive Delimiters where
  /-- The form `Head[Body]`. -/
  | brackets
  /-- The form `Head(Body)`. -/
  | parens
deriving Repr, DecidableEq

/-- The character that opens a body. -/
def Delimiters.opening : Delimiters → Char
  | .brackets => '['
  | .parens => '('

/-- The character that closes a body. -/
def Delimiters.closing : Delimiters → Char
  | .brackets => ']'
  | .parens => ')'

/-- The form as error texts show it. -/
def Delimiters.form : Delimiters → String
  | .brackets => "Head[Body]"
  | .parens => "Head(Body)"

/-- The parts of a directive that must not be empty. -/
inductive DirectivePart where
  | instanceName
  | baseOntology
  | selfTerm
  | boundVariable
deriving Repr, DecidableEq

/-- The part as error texts show it. -/
def DirectivePart.name : DirectivePart → String
  | .instanceName => "instance name"
  | .baseOntology => "base ontology"
  | .selfTerm => "self term"
  | .boundVariable => "variable"

/-- Why a label is no directive. Every cause carries the plain text of the label. -/
inductive DirectiveError where
  | noMatch (text : String) (delimiters : Delimiters)
  | partCount (text : String) (found expected : Nat)
  | emptyPart (text : String) (part : DirectivePart)
deriving Repr, DecidableEq

/-- The text of a directive error. -/
def DirectiveError.message : DirectiveError → String
  | .noMatch text delimiters => s!"`{text}` does not match {delimiters.form}"
  | .partCount text found expected => s!"`{text}` has {found} part(s), expected {expected}"
  | .emptyPart text part => s!"`{text}` has an empty {part.name}"

/-- Cuts a text at the last occurrence of a character, which belongs to neither side. -/
def cutLast (c : Char) : List Char → Option (List Char × List Char)
  | [] => none
  | x :: xs =>
    match cutLast c xs with
    | some (before, after) => some (x :: before, after)
    | none => if x = c then some ([], xs) else none

/-- Cuts a text at every occurrence of a character. -/
def fields (c : Char) : List Char → List (List Char)
  | [] => [[]]
  | x :: xs =>
    if x = c then [] :: fields c xs
    else
      match fields c xs with
      | [] => [[x]]
      | f :: fs => (x :: f) :: fs

/-- A text up to its first line break. -/
def firstLine (cs : List Char) : List Char :=
  cs.takeWhile (· != '\n')

/-- The head of a form and the parts of its body. -/
structure TermMapping where
  head : String
  parts : List String
deriving Repr, DecidableEq

/-- Reads a form from a plain text. -/
def TermMapping.ofPlain? (delimiters : Delimiters) (plain : List Char) : Option TermMapping := do
  let (inside, _) ← cutLast delimiters.closing (firstLine plain)
  let (head, body) ← cutLast delimiters.opening inside
  pure ⟨String.ofList (trimChars head), (fields '|' body).map fun f => String.ofList (trimChars f)⟩

/-- Reads a form from a label. -/
def TermMapping.parse? (delimiters : Delimiters) (label : String) : Option TermMapping :=
  TermMapping.ofPlain? delimiters (plain label).toList

/-- Reads a form with a given number of parts from a label. -/
def TermMapping.parseParts (delimiters : Delimiters) (expected : Nat) (label : String) :
    Except DirectiveError TermMapping :=
  match TermMapping.parse? delimiters label with
  | none => .error (.noMatch (plain label) delimiters)
  | some mapping =>
    if mapping.parts.length = expected then .ok mapping
    else .error (.partCount (plain label) mapping.parts.length expected)

/-- The form `Name[Base|Self]`. -/
structure Instantiation where
  name : String
  base : String
  selfTerm : String
deriving Repr, DecidableEq

/-- The first part that must not be empty and is. -/
def Instantiation.emptyPart? (d : Instantiation) : Option DirectivePart :=
  if d.name = "" then some .instanceName
  else if d.base = "" then some .baseOntology
  else if d.selfTerm = "" then some .selfTerm
  else none

/-- Reads `Name[Base|Self]` from a label. -/
def Instantiation.parse (label : String) : Except DirectiveError Instantiation :=
  match TermMapping.parseParts .brackets 2 label with
  | .error e => .error e
  | .ok mapping =>
    let d : Instantiation := ⟨mapping.head, mapping.parts.getD 0 "", mapping.parts.getD 1 ""⟩
    match d.emptyPart? with
    | some part => .error (.emptyPart (plain label) part)
    | none => .ok d

/-- The form `Value(Variable)`. The variable is the key of a registry. -/
structure Binding where
  value : String
  key : String
deriving Repr, DecidableEq

/-- Reads `Value(Variable)` from a label. The value may be empty. -/
def Binding.parse (label : String) : Except DirectiveError Binding :=
  match TermMapping.parseParts .parens 1 label with
  | .error e => .error e
  | .ok mapping =>
    let d : Binding := ⟨mapping.head, mapping.parts.getD 0 ""⟩
    if d.key = "" then .error (.emptyPart (plain label) .boundVariable) else .ok d

/-- The display name of a label: the head of a form with brackets if there is one, else its plain
text. -/
def displayName (label : String) : String :=
  match TermMapping.parse? .brackets label with
  | some mapping => mapping.head
  | none => plain label

/-! ## Cutting -/

theorem cutLast_eq_none {c : Char} {cs : List Char} : cutLast c cs = none ↔ c ∉ cs := by
  induction cs with
  | nil => simp [cutLast]
  | cons x xs ih =>
    unfold cutLast
    cases h : cutLast c xs with
    | some p =>
      have : c ∈ xs := by
        refine Classical.byContradiction fun hn => ?_
        rw [ih.2 hn] at h
        cases h
      simp [this]
    | none =>
      have := ih.1 h
      by_cases hx : x = c
      · simp [hx]
      · simp [hx, this, Ne.symm hx]

/-- **A text is cut at the last occurrence of a character.** -/
theorem cutLast_eq_some {c : Char} {cs before after : List Char} :
    cutLast c cs = some (before, after) ↔ cs = before ++ c :: after ∧ c ∉ after := by
  induction cs generalizing before with
  | nil => simp [cutLast]
  | cons x xs ih =>
    unfold cutLast
    cases h : cutLast c xs with
    | some p =>
      obtain ⟨b, a⟩ := p
      simp only [Option.some.injEq, Prod.mk.injEq]
      constructor
      · rintro ⟨rfl, rfl⟩
        rw [ih.1 h |>.1]
        exact ⟨rfl, (ih.1 h).2⟩
      · rintro ⟨he, hn⟩
        cases before with
        | nil =>
          simp only [List.nil_append, List.cons.injEq] at he
          rw [← he.2] at hn
          exact absurd (cutLast_eq_none.2 hn) (by simp [h])
        | cons y ys =>
          simp only [List.cons_append, List.cons.injEq] at he
          have := ih.2 ⟨he.2, hn⟩
          rw [h] at this
          simp only [Option.some.injEq, Prod.mk.injEq] at this
          exact ⟨by rw [he.1, this.1], this.2⟩
    | none =>
      have hn := cutLast_eq_none.1 h
      by_cases hx : x = c
      · simp only [hx, if_true, Option.some.injEq, Prod.mk.injEq]
        constructor
        · rintro ⟨rfl, rfl⟩
          exact ⟨rfl, hn⟩
        · rintro ⟨he, -⟩
          cases before with
          | nil => simpa using he
          | cons y ys =>
            simp only [List.cons_append, List.cons.injEq] at he
            exact absurd (by rw [he.2]; simp) hn
      · simp only [hx, if_false, reduceCtorEq, false_iff]
        rintro ⟨he, -⟩
        cases before with
        | nil => exact hx (by simpa using (List.cons.inj he).1)
        | cons y ys =>
          simp only [List.cons_append, List.cons.injEq] at he
          exact absurd (by rw [he.2]; simp) hn

end Ontogram.Label
