import Ontogram.Markup.Builder.Rules

/-!
# The text of a markup fragment

Reads a text as an HTML fragment in a body and joins the texts of the tree in document order. Each
step of the loop takes at least one character, so the length of the text is fuel enough.
-/

namespace Ontogram.Markup

/-- A text without a byte order mark at its start. -/
def withoutByteOrderMark (cs : List Char) : List Char :=
  if cs.head? = some (Char.ofNat 0xFEFF) then cs.drop 1 else cs

/-- A text as it goes into the loop: without a byte order mark at its start, and with line breaks
normalized. -/
def preprocess (cs : List Char) : List Char :=
  normalizeBreaks (withoutByteOrderMark cs)

namespace Builder

/-- Processes characters in turn. -/
def processChars (b : Builder) (cs : List Char) : Builder :=
  cs.foldl (fun b c => b.process (.character c)) b

/-- Processes the characters of a reference. A missing semicolon is an error, and after an error a
line feed is not dropped. -/
def processReference (b : Builder) (found : Reference.Found) : Builder :=
  (if found.closed then b else { b with skipBreak := false }).processChars found.chars

/-- Processes the text of a raw element. The fuel is the length of the text. -/
def processRaw (references : Bool) : Nat → List Char → Builder → Builder
  | 0, _, b => b
  | _ + 1, [], b => b
  | fuel + 1, '&' :: cs, b =>
    match references, Reference.read? false cs with
    | true, some found => processRaw references fuel found.rest (b.processReference found)
    | _, _ => processRaw references fuel cs (b.process (.character '&'))
  | fuel + 1, c :: cs, b =>
    processRaw references fuel cs (b.process (.character (rawChar c)))

/-- Says whether a CDATA section may stand at the current node. -/
def allowsCdata (b : Builder) : Bool :=
  1 < b.opened.length && b.currentName.space != .html

/-- Says whether a token ends a script. A script could have written the text that follows, so a byte
order mark is dropped there as at the start. -/
def endsScript (b : Builder) (t : Token) : Bool :=
  b.mode == .text && t == .endTag "script"

/-- Reads the next piece of the text. -/
def step (b : Builder) (cs : List Char) : Builder × List Char :=
  match cs with
  | [] => (b, [])
  | '<' :: cs =>
    match readAngle b.allowsCdata cs with
    | (.token t, rest) => (b.process t, if b.endsScript t then withoutByteOrderMark rest else rest)
    | (.characters inside, rest) => (b.processChars inside, rest)
  | '&' :: cs =>
    match Reference.read? false cs with
    | some found => (b.processReference found, found.rest)
    | none => (b.process (.character '&'), cs)
  | c :: cs => (b.process (.character c), cs)

/-- Reads the raw text that the last token announced, if it did. -/
def stepRaw (b : Builder) (cs : List Char) : Builder × List Char :=
  match b.raw with
  | none => (b, cs)
  | some raw =>
    let (inside, rest) := raw.split cs
    (processRaw raw.hasReferences inside.length inside { b with raw := none }, rest)

/-- Reads a text to its end. -/
def run : Nat → List Char → Builder → Builder
  | 0, _, b => b.process .endOfText
  | _ + 1, [], b => b.process .endOfText
  | fuel + 1, cs, b =>
    let (b, rest) := b.step cs
    let (b, rest) := b.stepRaw rest
    run fuel rest b

end Builder

/-- The text of a markup fragment, in document order. -/
def fragmentText (cs : List Char) : List Char :=
  let cs := preprocess cs
  (Builder.start.run cs.length cs).tree.text Builder.root

end Ontogram.Markup
