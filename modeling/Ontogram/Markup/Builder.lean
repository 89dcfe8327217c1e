import Ontogram.Markup.Element
import Ontogram.Markup.Token

/-!
# Building the tree

The state in which a markup text is built into a tree, and the moves the construction rules are made
of: opening and closing elements, scopes, implied end tags, the place where a node goes (which is in
front of the table for content that does not belong in one), and the list of formatting elements
that are reopened where they were cut off.

The text is a fragment in the context of a `body` element, so the bottom of the open elements is the
root alone.
-/

namespace Ontogram.Markup

/-- The insertion modes that a fragment in a body can be in. -/
inductive Mode where
  | inHead
  | inBody
  | text
  | inTable
  | inTableText
  | inCaption
  | inColumnGroup
  | inTableBody
  | inRow
  | inCell
  | inSelect
  | inSelectInTable
  | inTemplate
deriving DecidableEq

/-- An entry of the list of formatting elements. -/
inductive Formatting where
  | marker
  | element (node : Nat) (tag : Tag)
deriving DecidableEq

/-- Says whether an entry is that of a node. -/
def Formatting.isOf (node : Nat) : Formatting → Bool
  | .element n _ => n == node
  | .marker => false

/-- The state of the construction. -/
structure Builder where
  tree : Tree
  /-- The open elements, the current one first. -/
  opened : List Nat
  /-- The formatting elements, the latest one first. -/
  formatting : List Formatting
  mode : Mode
  /-- The mode to come back to after a text. -/
  returnMode : Mode
  /-- The modes of the open templates, the innermost first. -/
  templateModes : List Mode
  /-- Text in a table whose place is not decided yet, last character first. -/
  pending : List Char
  /-- Says whether content that does not belong in a table goes in front of it. -/
  fostering : Bool
  /-- The form that is open. -/
  form : Option Nat
  /-- Says whether a line feed that comes next is dropped. -/
  skipBreak : Bool
  /-- How the text that comes next is read, if it is raw. -/
  raw : Option RawText

/-- Where a node goes. -/
inductive Place where
  | inside (parent : Nat)
  /-- In front of a table, or at the end of the element above it if the table has no parent. -/
  | beside (table above : Nat)

namespace Builder

/-- The number of the root. -/
def root : Nat := 0

/-- The state before the first token. -/
def start : Builder where
  tree := .ofContent (.element (ElementName.html "html"))
  opened := [root]
  formatting := []
  mode := .inBody
  returnMode := .inBody
  templateModes := []
  pending := []
  fostering := false
  form := none
  skipBreak := false
  raw := none

/-- The name of a node. -/
def nameOf (b : Builder) (i : Nat) : ElementName :=
  (b.tree.name? i).getD (ElementName.html "")

/-- Says whether a node is the HTML element of a name. -/
def isHtml (b : Builder) (name : String) (i : Nat) : Bool :=
  b.nameOf i == ElementName.html name

/-- The current node. -/
def current (b : Builder) : Nat :=
  b.opened.headD root

/-- The name of the current node. -/
def currentName (b : Builder) : ElementName :=
  b.nameOf b.current

/-- Says whether the current node is the HTML element of a name. -/
def atHtml (b : Builder) (name : String) : Bool :=
  b.isHtml name b.current

/-- Says whether an HTML element of a name is open. -/
def hasOpen (b : Builder) (name : String) : Bool :=
  b.opened.any (b.isHtml name)

/-- Looks for an open element from the current one on, up to the end of the scope. -/
def inScope (b : Builder) (ends : ElementName → Bool) (p : Nat → Bool) : Bool :=
  go b.opened
where
  go : List Nat → Bool
    | [] => false
    | i :: rest => if p i then true else if ends (b.nameOf i) then false else go rest

/-- Says whether an HTML element of a name is in scope. -/
def hasInScope (b : Builder) (ends : ElementName → Bool) (name : String) : Bool :=
  b.inScope ends (b.isHtml name)

/-! ## Closing elements -/

/-- Closes the current node. -/
def pop (b : Builder) : Builder :=
  { b with opened := b.opened.drop 1 }

/-- Closes elements until the current node satisfies `p`. -/
def popUntilCurrent (b : Builder) (p : ElementName → Bool) : Builder :=
  { b with opened := b.opened.dropWhile fun i => !p (b.nameOf i) }

/-- Closes elements until one that satisfies `p` is closed. -/
def popThrough (b : Builder) (p : ElementName → Bool) : Builder :=
  (b.popUntilCurrent p).pop

/-- Closes elements until an HTML element of a name is closed. -/
def popNamed (b : Builder) (name : String) : Builder :=
  b.popThrough (· == ElementName.html name)

/-- Closes the elements at the end whose end tag is implied. -/
def closeImplied (b : Builder) (implied : ElementName → Bool) : Builder :=
  { b with opened := b.opened.dropWhile fun i => implied (b.nameOf i) }

/-- Closes the elements at the end whose end tag is implied, up to an HTML element of a name. -/
def closeImpliedUpTo (b : Builder) (name : String) : Builder :=
  b.closeImplied fun e => e.isImpliedEnd && e != ElementName.html name

/-- Closes a paragraph. -/
def closeParagraph (b : Builder) : Builder :=
  (b.closeImpliedUpTo "p").popNamed "p"

/-- Closes a paragraph that is in button scope. -/
def closeParagraphInScope (b : Builder) : Builder :=
  if b.hasInScope ElementName.endsButtonScope "p" then b.closeParagraph else b

/-- Takes a node out of the open elements. -/
def removeOpen (b : Builder) (i : Nat) : Builder :=
  { b with opened := b.opened.erase i }

/-! ## Placing nodes -/

/-- The innermost table or template among the open elements. -/
def fosterPlace (b : Builder) : List Nat → Place
  | [] => .inside root
  | i :: rest =>
    if b.isHtml "template" i then .inside i
    else if b.isHtml "table" i then .beside i (rest.headD root)
    else b.fosterPlace rest

/-- Where a node goes that is meant for `target`. -/
def placeFor (b : Builder) (target : Nat) : Place :=
  if b.fostering && (b.nameOf target).isFosterTarget then b.fosterPlace b.opened
  else .inside target

/-- Puts a node in its place. -/
def put (b : Builder) (place : Place) (node : Nat) : Builder :=
  match place with
  | .inside parent => { b with tree := b.tree.append parent node }
  | .beside table above =>
    if (b.tree.parent? table).isSome then { b with tree := b.tree.insertBefore table node }
    else { b with tree := b.tree.append above node }

/-- Adds a character at the current node. -/
def addChar (b : Builder) (c : Char) : Builder :=
  match b.placeFor b.current with
  | .inside parent => { b with tree := b.tree.appendChar parent c }
  | .beside table above =>
    if (b.tree.parent? table).isSome then { b with tree := b.tree.insertCharBefore table c }
    else { b with tree := b.tree.appendChar above c }

/-- Makes an element without parent. -/
def make (b : Builder) (name : ElementName) : Builder × Nat :=
  let (tree, i) := b.tree.add (.element name)
  ({ b with tree := tree }, i)

/-- Adds an element at the current node and opens it. -/
def openElement (b : Builder) (name : ElementName) : Builder :=
  let (b, i) := b.make name
  let b := b.put (b.placeFor b.current) i
  { b with opened := i :: b.opened }

/-- Adds an element at the current node without opening it. -/
def addElement (b : Builder) (name : ElementName) : Builder :=
  let (b, i) := b.make name
  b.put (b.placeFor b.current) i

/-- Adds a comment at the current node. -/
def addComment (b : Builder) : Builder :=
  let (tree, i) := b.tree.add .comment
  let b := { b with tree := tree }
  b.put (b.placeFor b.current) i

/-- Adds and opens an HTML element. -/
def openHtml (b : Builder) (name : String) : Builder :=
  b.openElement (ElementName.html name)

/-- Adds an HTML element that has no content. -/
def addHtml (b : Builder) (name : String) : Builder :=
  b.addElement (ElementName.html name)

/-- Opens an element whose text is raw. -/
def openRaw (b : Builder) (name : String) (raw : RawText) : Builder :=
  let b := b.openHtml name
  { b with returnMode := b.mode, mode := .text, raw := some raw }

/-! ## Formatting elements -/

/-- The formatting elements up to the latest marker, the latest one first. -/
def formattingToMarker (b : Builder) : List Formatting :=
  b.formatting.takeWhile (· != .marker)

/-- Forgets the formatting elements up to the latest marker and the marker itself. -/
def clearFormatting (b : Builder) : Builder :=
  { b with formatting := (b.formatting.dropWhile (· != .marker)).drop 1 }

/-- Puts a marker in front of the formatting elements. -/
def pushMarker (b : Builder) : Builder :=
  { b with formatting := .marker :: b.formatting }

/-- Takes the entry of a node out of the formatting elements. -/
def removeFormatting (b : Builder) (node : Nat) : Builder :=
  { b with formatting := b.formatting.eraseP (Formatting.isOf node) }

/-- Says whether an entry need not be reopened. -/
def isSettled (b : Builder) : Formatting → Bool
  | .marker => true
  | .element node _ => b.opened.contains node

/-- Opens an element for each entry, the oldest first, and gives the entries that stand for them. -/
def reopen (b : Builder) : List Formatting → Builder × List Formatting
  | [] => (b, [])
  | .marker :: rest =>
    let (b, rest) := reopen b rest
    (b, .marker :: rest)
  | .element _ tag :: rest =>
    let (b, rest) := reopen b rest
    let b := b.openHtml tag.name
    (b, .element b.current tag :: rest)

/-- Reopens the formatting elements that were cut off. -/
def reconstruct (b : Builder) : Builder :=
  let cut := b.formatting.takeWhile fun e => !b.isSettled e
  let kept := b.formatting.dropWhile fun e => !b.isSettled e
  let (b, reopened) := b.reopen cut
  { b with formatting := reopened ++ kept }

/-- Says whether two tags have the same name and the same attributes in any order. -/
def sameTag (s t : Tag) : Bool :=
  s.name == t.name && s.attributes.length == t.attributes.length
    && s.attributes.all fun a => t.attributes.contains a

/-- Takes out the oldest entry that satisfies `p`, counted from the latest one. -/
def dropOldest (p : Formatting → Bool) (entries : List Formatting) : List Formatting :=
  (entries.reverse.eraseP p).reverse

/-- Opens a formatting element and remembers it. Of four equal ones since the latest marker the
oldest is forgotten. -/
def openFormatting (b : Builder) (tag : Tag) : Builder :=
  let same : Formatting → Bool
    | .element _ t => sameTag tag t
    | .marker => false
  let recent := b.formattingToMarker
  let older := b.formatting.drop recent.length
  let recent := if 3 ≤ (recent.filter same).length then dropOldest same recent else recent
  let b := { b with formatting := recent ++ older }
  let b := b.openHtml tag.name
  { b with formatting := .element b.current tag :: b.formatting }

/-! ## Modes -/

/-- The mode that the open elements call for. -/
def modeOfOpened (b : Builder) : List Nat → Mode
  | [] => .inBody
  | [_] => .inBody
  | i :: rest =>
    let e := b.nameOf i
    if e.isOneOf ["select"] then modeOfSelect rest
    else if e.isOneOf ["td", "th"] then .inCell
    else if e.isOneOf ["tr"] then .inRow
    else if e.isOneOf ["tbody", "thead", "tfoot"] then .inTableBody
    else if e.isOneOf ["caption"] then .inCaption
    else if e.isOneOf ["colgroup"] then .inColumnGroup
    else if e.isOneOf ["table"] then .inTable
    else if e.isOneOf ["template"] then b.templateModes.headD .inBody
    else if e.isOneOf ["head"] then .inHead
    else if e.isOneOf ["body"] then .inBody
    else b.modeOfOpened rest
where
  /-- The mode of a select, by the elements around it. -/
  modeOfSelect : List Nat → Mode
    | [] => .inSelect
    | i :: rest =>
      if b.isHtml "template" i then .inSelect
      else if b.isHtml "table" i then .inSelectInTable
      else modeOfSelect rest

/-- Sets the mode that the open elements call for. -/
def resetMode (b : Builder) : Builder :=
  { b with mode := b.modeOfOpened b.opened }

/-! ## End tags in the body -/

/-- Closes elements from the end through the nearest one of a name, unless a special element is in
the way. -/
def closeAny (b : Builder) (name : String) : Builder :=
  match go b.opened with
  | none => b
  | some i =>
    let b := b.closeImpliedUpTo name
    { b with opened := (b.opened.dropWhile (· != i)).drop 1 }
where
  /-- The nearest open element of the name. -/
  go : List Nat → Option Nat
    | [] => none
    | i :: rest =>
      if b.isHtml name i then some i
      else if (b.nameOf i).isSpecial then none
      else go rest

end Builder

end Ontogram.Markup
