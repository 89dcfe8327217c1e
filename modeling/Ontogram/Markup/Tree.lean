/-!
# Markup trees

The tree that a markup text is built into: elements, texts and comments, addressed by number. Only
what the text of the tree hangs on is kept, so elements have a name and no attributes, and comments
no content.

Nodes are linked: each to its parent, to its neighbours in the row of its siblings, and to the first
and the last of its children. A row that moves to another parent as a whole is relinked at its ends
only. The nodes in between keep naming their former parent, and this shows: a node that is taken
away is struck from the parent that it names, and `text`, which walks along the links, leaves a row
for the parent that the last node of the row names. What stands between the two is not read then.
-/

namespace Ontogram.Markup

/-- The three vocabularies of markup. -/
inductive Space where
  | html
  | svg
  | mathml
deriving DecidableEq

/-- The name of an element. -/
structure ElementName where
  space : Space
  name : String
deriving DecidableEq

/-- What a node is. Characters of a text are kept last one first. -/
inductive NodeContent where
  | element (name : ElementName)
  | text (chars : List Char)
  | comment
deriving DecidableEq

/-- A node and its links. -/
structure Node where
  content : NodeContent
  parent : Option Nat
  previous : Option Nat
  next : Option Nat
  /-- The first and the last child. -/
  children : Option (Nat × Nat)
deriving DecidableEq

/-- A node that is linked to no other. -/
def Node.single (content : NodeContent) : Node :=
  ⟨content, none, none, none, none⟩

/-- Nodes by number. -/
structure Tree where
  nodes : Array Node

namespace Tree

/-- The tree of one node. -/
def ofContent (content : NodeContent) : Tree :=
  ⟨#[.single content]⟩

/-! ## Reading -/

/-- The name of an element. -/
def name? (t : Tree) (i : Nat) : Option ElementName :=
  match (t.nodes[i]?).map Node.content with
  | some (.element name) => some name
  | _ => none

/-- The parent that a node names. -/
def parent? (t : Tree) (i : Nat) : Option Nat :=
  (t.nodes[i]?).bind Node.parent

/-- The sibling before a node. -/
def previous? (t : Tree) (i : Nat) : Option Nat :=
  (t.nodes[i]?).bind Node.previous

/-- The sibling after a node. -/
def next? (t : Tree) (i : Nat) : Option Nat :=
  (t.nodes[i]?).bind Node.next

/-- The first and the last child of a node. -/
def ends? (t : Tree) (i : Nat) : Option (Nat × Nat) :=
  (t.nodes[i]?).bind Node.children

/-- The first child of a node. -/
def firstChild? (t : Tree) (i : Nat) : Option Nat :=
  (t.ends? i).map Prod.fst

/-- The last child of a node. -/
def lastChild? (t : Tree) (i : Nat) : Option Nat :=
  (t.ends? i).map Prod.snd

/-- Says whether a node is a text. -/
def isText (t : Tree) (i : Nat) : Bool :=
  match (t.nodes[i]?).map Node.content with
  | some (.text _) => true
  | _ => false

/-! ## Linking -/

/-- Rewrites a node. -/
def update (t : Tree) (i : Nat) (f : Node → Node) : Tree :=
  match t.nodes[i]? with
  | some node => ⟨t.nodes.setIfInBounds i (f node)⟩
  | none => t

/-- Rewrites a node, if there is one to rewrite. -/
def update? (t : Tree) (i? : Option Nat) (f : Node → Node) : Tree :=
  match i? with
  | some i => t.update i f
  | none => t

/-- Adds a node that is linked to no other and gives its number. -/
def add (t : Tree) (content : NodeContent) : Tree × Nat :=
  (⟨t.nodes.push (.single content)⟩, t.nodes.size)

/-- The first and the last child without a child that had the given neighbours. -/
def endsWithout (i : Nat) (previous next : Option Nat) : Nat × Nat → Option (Nat × Nat)
  | (first, last) =>
    if first = last then none
    else if first = i then next.map fun n => (n, last)
    else if last = i then previous.map fun p => (first, p)
    else some (first, last)

/-- Takes a node out of its row and away from the parent that it names. -/
def detach (t : Tree) (i : Nat) : Tree :=
  match t.nodes[i]? with
  | none => t
  | some node =>
    match node.parent with
    | none => t
    | some parent =>
      let t := t.update i fun n => { n with parent := none, previous := none, next := none }
      let t := t.update? node.previous fun n => { n with next := node.next }
      let t := t.update? node.next fun n => { n with previous := node.previous }
      t.update parent fun n =>
        { n with children := n.children.bind (endsWithout i node.previous node.next) }

/-- Makes a node the last child of another. -/
def append (t : Tree) (parent child : Nat) : Tree :=
  let last? := t.lastChild? parent
  if last? = some child then t
  else
    let t := (t.detach child).update child fun n =>
      { n with parent := some parent, previous := last? }
    let t := t.update? last? fun n => { n with next := some child }
    t.update parent fun n =>
      { n with children := some ((n.children.map Prod.fst).getD child, child) }

/-- Makes a node the previous sibling of another one that names a parent. -/
def insertBefore (t : Tree) (sibling child : Nat) : Tree :=
  let t := t.detach child
  match t.parent? sibling with
  | none => t
  | some parent =>
    let previous? := t.previous? sibling
    let t := t.update child fun n =>
      { n with parent := some parent, previous := previous?, next := some sibling }
    let t := t.update? previous? fun n => { n with next := some child }
    let t := t.update sibling fun n => { n with previous := some child }
    t.update parent fun n =>
      { n with children := n.children.map fun (first, last) =>
          (if first = sibling then child else first, last) }

/-- Moves the row of children of a node behind the children of another. The first and the last of
the row name the new parent; those in between go on naming the former one. -/
def moveChildren (t : Tree) (source target : Nat) : Tree :=
  match t.ends? source with
  | none => t
  | some (first, last) =>
    let t := t.update source fun n => { n with children := none }
    let t := t.update first fun n => { n with parent := some target }
    let t := t.update last fun n => { n with parent := some target }
    match t.ends? target with
    | none => t.update target fun n => { n with children := some (first, last) }
    | some (targetFirst, targetLast) =>
      let t := t.update targetLast fun n => { n with next := some first }
      let t := t.update first fun n => { n with previous := some targetLast }
      t.update target fun n => { n with children := some (targetFirst, last) }

/-! ## Characters -/

/-- Adds a character to a text node. -/
def extendText (t : Tree) (i : Nat) (c : Char) : Tree :=
  t.update i fun n =>
    match n.content with
    | .text chars => { n with content := .text (c :: chars) }
    | _ => n

/-- Adds a character to a text that is there, or else to a new one, which `place` puts in its
place. -/
def addChar (t : Tree) (text? : Option Nat) (c : Char) (place : Tree → Nat → Tree) : Tree :=
  match text?.filter t.isText with
  | some i => t.extendText i c
  | none =>
    let (t, i) := t.add (.text [c])
    place t i

/-- Adds a character at the end of a node. -/
def appendChar (t : Tree) (parent : Nat) (c : Char) : Tree :=
  t.addChar (t.lastChild? parent) c fun t i => t.append parent i

/-- Adds a character before a node. -/
def insertCharBefore (t : Tree) (sibling : Nat) (c : Char) : Tree :=
  t.addChar (t.previous? sibling) c fun t i => t.insertBefore sibling i

/-! ## The text of a tree -/

/-- A step of a walk along the links. -/
inductive Step where
  | enter (i : Nat)
  | leave (i : Nat)

/-- The characters of a text node, last one first. -/
def charsOf (t : Tree) (i : Nat) : List Char :=
  match (t.nodes[i]?).map Node.content with
  | some (.text chars) => chars
  | _ => []

/-- The step after another in a walk below a node. The walk ends when it leaves the node. -/
def step? (t : Tree) (root : Nat) : Step → Option Step
  | .enter i =>
    match t.firstChild? i with
    | some child => some (.enter child)
    | none => some (.leave i)
  | .leave i =>
    if i = root then none
    else
      match t.next? i with
      | some sibling => some (.enter sibling)
      | none => (t.parent? i).map .leave

/-- Collects the characters of a walk, last one first. -/
def collect (t : Tree) (root : Nat) : Nat → Step → List Char → List Char
  | 0, _, chars => chars
  | fuel + 1, step, chars =>
    let chars :=
      match step with
      | .enter i => t.charsOf i ++ chars
      | .leave _ => chars
    match t.step? root step with
    | some step => collect t root fuel step chars
    | none => chars

/-- The text of a node and of what a walk finds below it. A walk that ends takes no step twice, so
there are at most two steps for each node. -/
def text (t : Tree) (i : Nat) : List Char :=
  (t.collect i (2 * t.nodes.size) (.enter i) []).reverse

end Tree

end Ontogram.Markup
