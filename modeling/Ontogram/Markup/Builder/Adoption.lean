import Ontogram.Markup.Builder

/-!
# Misnested formatting

What the HTML standard calls the adoption agency: the end tag of a formatting element that is not
the current node. When a block was opened inside the formatting element, the block is moved out of
it and its content goes into a fresh copy of the formatting element, so that `<b>1<p>2</b>3` reads
as `<b>1</b><p><b>2</b>3</p>`.
-/

namespace Ontogram.Markup.Builder

/-- The entries of formatting elements with one replaced. -/
def replaceEntry (node : Nat) (e : Formatting) (entries : List Formatting) : List Formatting :=
  entries.map fun f => if f.isOf node then e else f

/-- Places an entry right after another in time, that is, before it in the list. -/
def insertEntryAfter (node : Nat) (e : Formatting) : List Formatting → List Formatting
  | [] => []
  | f :: rest => if f.isOf node then e :: f :: rest else f :: insertEntryAfter node e rest

/-- Where the copy of the formatting element goes in the list of formatting elements. -/
inductive Bookmark where
  /-- In the place of the entry of a node. -/
  | replace (node : Nat)
  /-- After the entry of a node. -/
  | after (node : Nat)

/-- Walks from the block up to the formatting element and rebuilds the chain of formatting elements
between them. `above` lists the open elements above the block, the nearest one first, up to the
formatting element, which is excluded. The result is the last node of the chain. -/
def rebuildChain (block : Nat) : List Nat → Nat → Nat → Bookmark → Builder →
    Builder × Nat × Bookmark
  | [], _, last, bookmark, b => (b, last, bookmark)
  | node :: above, count, last, bookmark, b =>
    -- Only the three nearest elements can be kept. What lies above them is closed for good.
    if 3 ≤ count then
      rebuildChain block above (count + 1) last bookmark ((b.removeFormatting node).removeOpen node)
    else
      match b.formatting.find? (Formatting.isOf node) with
      | some (.element _ tag) =>
        let (b, copy) := b.make (ElementName.html tag.name)
        let b := { b with
          opened := b.opened.map fun i => if i = node then copy else i
          formatting := replaceEntry node (.element copy tag) b.formatting }
        -- The first copy is the deepest one, and the entry of the final copy follows its entry.
        let bookmark := if last = block then .after copy else bookmark
        let b := { b with tree := (b.tree.detach last).append copy last }
        rebuildChain block above (count + 1) copy bookmark b
      | _ => rebuildChain block above (count + 1) last bookmark (b.removeOpen node)

/-- Places an open element right after another in time, that is, before it in the list. -/
def insertOpenAfter (node new : Nat) : List Nat → List Nat
  | [] => []
  | i :: rest => if i = node then new :: i :: rest else i :: insertOpenAfter node new rest

/-- Moves the block out of the formatting element and gives it a copy of it. -/
def moveBlock (b : Builder) (formattingNode : Nat) (tag : Tag) (block : Nat) : Builder :=
  let ancestor := ((b.opened.dropWhile (· != formattingNode)).drop 1).headD root
  let above := ((b.opened.dropWhile (· != block)).drop 1).takeWhile (· != formattingNode)
  let (b, last, bookmark) := rebuildChain block above 0 block (.replace formattingNode) b
  -- The chain, with the block at its end, goes where the parent of the formatting element wants it.
  let b := { b with tree := b.tree.detach last }
  let b := b.put (b.placeFor ancestor) last
  let (b, copy) := b.make (ElementName.html tag.name)
  -- Only now does the block get its copy, which takes over all that was in the block.
  let b := { b with tree := (b.tree.moveChildren block copy).append block copy }
  let entry : Formatting := .element copy tag
  let b :=
    match bookmark with
    | .replace node => { b with formatting := replaceEntry node entry b.formatting }
    | .after node =>
      { b with formatting :=
          (insertEntryAfter node entry b.formatting).eraseP (Formatting.isOf formattingNode) }
  let b := b.removeOpen formattingNode
  { b with opened := insertOpenAfter block copy b.opened }

/-- One round of the adoption agency. The flag says whether another round follows. -/
def adoptRound (b : Builder) (name : String) : Builder × Bool :=
  let named : Formatting → Bool
    | .element _ tag => tag.name == name
    | .marker => false
  match b.formattingToMarker.find? named with
  | some (.element node tag) =>
    if !b.opened.contains node then (b.removeFormatting node, false)
    else if !b.inScope ElementName.endsScope (· == node) then (b, false)
    else
      -- Of the special elements inside, the outermost one is moved.
      let below := b.opened.takeWhile (· != node)
      match below.reverse.find? fun i => (b.nameOf i).isSpecial with
      | none =>
        let b := { b with opened := (b.opened.dropWhile (· != node)).drop 1 }
        (b.removeFormatting node, false)
      | some block => (b.moveBlock node tag block, true)
  | _ => (b.closeAny name, false)

/-- Rounds of the adoption agency, at most as many as the fuel. -/
def adoptRounds (name : String) : Nat → Builder → Builder
  | 0, b => b
  | fuel + 1, b =>
    match b.adoptRound name with
    | (b, true) => adoptRounds name fuel b
    | (b, false) => b

/-- The end tag of a formatting element. There are at most eight rounds. -/
def adopt (b : Builder) (name : String) : Builder :=
  if b.atHtml name && !(b.formatting.any (Formatting.isOf b.current)) then b.pop
  else b.adoptRounds name 8

/-- A start tag `a` closes the `a` element that is open. -/
def closeOpenAnchor (b : Builder) : Builder :=
  let isAnchor : Formatting → Bool
    | .element node _ => b.isHtml "a" node
    | .marker => false
  match b.formattingToMarker.find? isAnchor with
  | some (.element node _) => ((b.adopt "a").removeFormatting node).removeOpen node
  | _ => b

end Ontogram.Markup.Builder
