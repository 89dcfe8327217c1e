import Ontogram.Markup.Reference

/-!
# Markup tokens

Reading the next tag, comment or character of a markup text, by the tokenization rules of the HTML
standard. Line breaks are normalized before. Processing instructions, unknown declarations and end
tags without a name count as comments; document types and the empty end tag leave nothing behind. A
tag that the end of the text cuts off is dropped.

The text of raw elements (`script`, `title`, …) is not read token by token: `RawText.split` finds
where it ends.
-/

namespace Ontogram.Markup

open Reference (replacement)

/-- An attribute of a tag. -/
structure Attribute where
  name : List Char
  value : List Char
deriving DecidableEq

/-- A start tag. -/
structure Tag where
  name : String
  attributes : List Attribute
  selfClosing : Bool
deriving DecidableEq

/-- A token of a markup text. -/
inductive Token where
  | character (c : Char)
  | startTag (tag : Tag)
  | endTag (name : String)
  | comment
  /-- A construct that the tree never sees. -/
  | nothing
  | endOfText
deriving DecidableEq

/-- The blanks of markup: tab, line feed, form feed, carriage return and space. -/
def isMarkupBlank (c : Char) : Bool :=
  c = '\t' || c = '\n' || c = '\x0c' || c = '\r' || c = ' '

/-- ASCII letters. -/
def isLetter (c : Char) : Bool :=
  c.isAlpha

/-- A character of a name: NUL is replaced, ASCII capitals become small letters. -/
def nameChar (c : Char) : Char :=
  if c = '\x00' then replacement else c.toLower

/-- A character of a raw text or an attribute value: NUL is replaced. -/
def rawChar (c : Char) : Char :=
  if c = '\x00' then replacement else c

/-- CR LF and CR become LF. -/
def normalizeBreaks : List Char → List Char
  | [] => []
  | '\r' :: '\n' :: cs => '\n' :: normalizeBreaks cs
  | '\r' :: cs => '\n' :: normalizeBreaks cs
  | c :: cs => c :: normalizeBreaks cs

/-! ## Attributes -/

/-- Where the reader of a tag is. Names and values are collected last character first. -/
inductive TagPhase where
  | beforeName
  | name (letters : List Char)
  | afterName (name : List Char)
  | beforeValue (name : List Char)
  | quoted (name : List Char) (quote : Char) (letters : List Char)
  | unquoted (name : List Char) (letters : List Char)
  | afterQuoted
  | solidus

/-- Adds an attribute unless the tag has one of that name. -/
def addAttribute (attributes : List Attribute) (name value : List Char) : List Attribute :=
  let name := name.reverse
  if attributes.any fun a => a.name = name then attributes
  else attributes ++ [⟨name, Reference.attributeValue value.reverse⟩]

/-- What a tag reader does at a character where a name may start: it goes on, or the tag ends. -/
def startOfName (c : Char) : Option TagPhase :=
  if isMarkupBlank c then some .beforeName
  else if c = '/' then some .solidus
  else if c = '>' then none
  else some (.name [nameChar c])

/-- The rest of a tag: its attributes, whether it closes itself, and the text after it. None if the
text ends first. -/
def readTagRest : TagPhase → List Attribute → List Char → Option (List Attribute × Bool × List Char)
  | _, _, [] => none
  | .beforeName, attributes, c :: cs =>
    match startOfName c with
    | some phase => readTagRest phase attributes cs
    | none => some (attributes, false, cs)
  | .name letters, attributes, c :: cs =>
    if isMarkupBlank c then readTagRest (.afterName letters) attributes cs
    else if c = '/' then readTagRest .solidus (addAttribute attributes letters []) cs
    else if c = '=' then readTagRest (.beforeValue letters) attributes cs
    else if c = '>' then some (addAttribute attributes letters [], false, cs)
    else readTagRest (.name (nameChar c :: letters)) attributes cs
  | .afterName name, attributes, c :: cs =>
    if isMarkupBlank c then readTagRest (.afterName name) attributes cs
    else if c = '=' then readTagRest (.beforeValue name) attributes cs
    else
      let attributes := addAttribute attributes name []
      match startOfName c with
      | some phase => readTagRest phase attributes cs
      | none => some (attributes, false, cs)
  | .beforeValue name, attributes, c :: cs =>
    if isMarkupBlank c then readTagRest (.beforeValue name) attributes cs
    else if c = '"' || c = '\x27' then readTagRest (.quoted name c []) attributes cs
    else if c = '>' then some (addAttribute attributes name [], false, cs)
    else readTagRest (.unquoted name [rawChar c]) attributes cs
  | .quoted name quote letters, attributes, c :: cs =>
    if c = quote then readTagRest .afterQuoted (addAttribute attributes name letters) cs
    else readTagRest (.quoted name quote (rawChar c :: letters)) attributes cs
  | .unquoted name letters, attributes, c :: cs =>
    if isMarkupBlank c then readTagRest .beforeName (addAttribute attributes name letters) cs
    else if c = '>' then some (addAttribute attributes name letters, false, cs)
    else readTagRest (.unquoted name (rawChar c :: letters)) attributes cs
  | .afterQuoted, attributes, c :: cs =>
    match startOfName c with
    | some phase => readTagRest phase attributes cs
    | none => some (attributes, false, cs)
  | .solidus, attributes, c :: cs =>
    if c = '>' then some (attributes, true, cs)
    else
      match startOfName c with
      | some phase => readTagRest phase attributes cs
      | none => some (attributes, false, cs)

/-- Says whether a character ends the name of a tag. -/
def endsTagName (c : Char) : Bool :=
  isMarkupBlank c || c = '/' || c = '>'

/-- A tag whose name starts the text. None if the text ends first. -/
def readTag (cs : List Char) : Option (Tag × List Char) :=
  let name := cs.takeWhile fun c => !endsTagName c
  match readTagRest .beforeName [] (cs.drop name.length) with
  | some (attributes, selfClosing, rest) =>
    some (⟨String.ofList (name.map nameChar), attributes, selfClosing⟩, rest)
  | none => none

/-! ## Comments and declarations -/

/-- The text after the first `>`. -/
def afterAngle (cs : List Char) : List Char :=
  (cs.dropWhile (· != '>')).drop 1

/-- The text after the first `-->` or `--!>`. -/
def afterCommentEnd : List Char → List Char
  | [] => []
  | '-' :: '-' :: '>' :: cs => cs
  | '-' :: '-' :: '!' :: '>' :: cs => cs
  | _ :: cs => afterCommentEnd cs

/-- The text after a comment that was opened by `<!--`. -/
def afterComment : List Char → List Char
  | '>' :: cs => cs
  | '-' :: '>' :: cs => cs
  | cs => afterCommentEnd cs

/-- The text of a CDATA section and the text after it. -/
def splitCdata : List Char → List Char × List Char
  | [] => ([], [])
  | ']' :: ']' :: '>' :: cs => ([], cs)
  | c :: cs =>
    let (inside, rest) := splitCdata cs
    (c :: inside, rest)

/-- A piece of a markup text. -/
inductive Piece where
  | token (t : Token)
  /-- Characters that are text whatever they are. -/
  | characters (cs : List Char)

/-- Says whether a text starts with the word `doctype` in any case. -/
def startsDoctype (cs : List Char) : Bool :=
  (cs.take 7).map Char.toLower = "doctype".toList

/-- Reads what follows `<!`. -/
def readDeclaration (cdata : Bool) (cs : List Char) : Piece × List Char :=
  match cs with
  | '-' :: '-' :: rest => (.token .comment, afterComment rest)
  | _ =>
    if startsDoctype cs then (.token .nothing, afterAngle cs)
    else
      match Reference.after? "[CDATA[".toList cs, cdata with
      | some rest, true =>
        let (inside, rest) := splitCdata rest
        (.characters inside, rest)
      | _, _ => (.token .comment, afterAngle cs)

/-- Reads what follows `</`. -/
def readEndTag (cs : List Char) : Piece × List Char :=
  match cs with
  | [] => (.characters ['<', '/'], [])
  | c :: rest =>
    if isLetter c then
      match readTag cs with
      | some (tag, rest) => (.token (.endTag tag.name), rest)
      | none => (.token .endOfText, [])
    else if c = '>' then (.token .nothing, rest)
    else (.token .comment, afterAngle cs)

/-- Reads what follows `<`. A CDATA section is one only where `cdata` allows it. -/
def readAngle (cdata : Bool) (cs : List Char) : Piece × List Char :=
  match cs with
  | [] => (.characters ['<'], [])
  | c :: rest =>
    if c = '!' then readDeclaration cdata rest
    else if c = '/' then readEndTag rest
    else if c = '?' then (.token .comment, afterAngle cs)
    else if isLetter c then
      match readTag cs with
      | some (tag, rest) => (.token (.startTag tag), rest)
      | none => (.token .endOfText, [])
    else (.characters ['<'], cs)

/-! ## Raw text -/

/-- How the text of a raw element is read. -/
inductive RawText where
  /-- Up to the end tag, with references (`title`, `textarea`). -/
  | escapable (name : String)
  /-- Up to the end tag, without references. -/
  | plain (name : String)
  /-- Up to the end tag that is not inside a commented-out script. -/
  | script
  /-- To the end of the text. -/
  | toEnd

/-- Says whether a text starts with `</`, the name in any case, and a character that ends a name. -/
def startsEndTag (name : List Char) (cs : List Char) : Bool :=
  match cs with
  | '<' :: '/' :: rest =>
    (rest.take name.length).map Char.toLower = name
      && (rest.drop name.length).head?.any endsTagName
  | _ => false

/-- Splits a text where the end tag of that name starts. -/
def splitAtEndTag (name : List Char) : List Char → List Char × List Char
  | [] => ([], [])
  | c :: cs =>
    if startsEndTag name (c :: cs) then ([], c :: cs)
    else
      let (inside, rest) := splitAtEndTag name cs
      (c :: inside, rest)

/-- Where the reader of a script is: outside a comment, in a comment, or in a script inside a
comment. -/
inductive ScriptPhase where
  | outside
  | escaped
  | doubleEscaped
deriving DecidableEq

/-- Says whether a text starts with the name `script`, in any case, and a character that ends a
name. -/
def startsScriptName (cs : List Char) : Bool :=
  (cs.take 6).map Char.toLower = "script".toList && (cs.drop 6).head?.any endsTagName

/-- Splits a text where the end tag of a script starts. The number counts the dashes read last, two
standing for two and more. -/
def splitScript : ScriptPhase → Nat → List Char → List Char × List Char
  | _, _, [] => ([], [])
  | phase, dashes, c :: cs =>
    if phase ≠ .doubleEscaped && startsEndTag "script".toList (c :: cs) then ([], c :: cs)
    else
      let (phase', dashes') : ScriptPhase × Nat :=
        match phase with
        | .outside =>
          if c = '<' && cs.take 3 = ['!', '-', '-'] then (.escaped, 0) else (.outside, 0)
        | .escaped =>
          if c = '-' then (.escaped, min 2 (dashes + 1))
          else if c = '>' && dashes = 2 then (.outside, 0)
          else if c = '<' && startsScriptName cs then (.doubleEscaped, 0)
          else (.escaped, 0)
        | .doubleEscaped =>
          if c = '-' then (.doubleEscaped, min 2 (dashes + 1))
          else if c = '>' && dashes = 2 then (.outside, 0)
          else if c = '<' && cs.head? = some '/' && startsScriptName (cs.drop 1) then (.escaped, 0)
          else (.doubleEscaped, 0)
      let (inside, rest) := splitScript phase' dashes' cs
      (c :: inside, rest)

/-- Splits a text into the raw text at its start and the rest, which starts with the end tag. -/
def RawText.split : RawText → List Char → List Char × List Char
  | .escapable name, cs => splitAtEndTag name.toList cs
  | .plain name, cs => splitAtEndTag name.toList cs
  | .script, cs => splitScript .outside 0 cs
  | .toEnd, cs => (cs, [])

/-- Says whether references are read in the raw text. -/
def RawText.hasReferences : RawText → Bool
  | .escapable _ => true
  | _ => false

end Ontogram.Markup
