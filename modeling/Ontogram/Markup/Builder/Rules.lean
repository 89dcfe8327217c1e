import Ontogram.Markup.Builder.Adoption

/-!
# Construction rules

What each token does in each insertion mode, by the tree construction rules of the HTML standard for
a fragment in a body with scripting on. A rule either finishes the token, hands it to the rules of
another mode, or has it processed again in the mode that it set.

`settle` follows these hand-overs to the end. Each repetition closes an element or moves on through
the table modes towards the body, so a fuel in proportion to the open elements is enough.
-/

namespace Ontogram.Markup.Builder

/-- What remains to be done with a token. -/
inductive Next where
  | done (b : Builder)
  /-- The rules of another mode apply. -/
  | byMode (mode : Mode) (b : Builder) (t : Token)
  /-- The token is processed again from the start. -/
  | again (b : Builder) (t : Token)

/-- Sets the mode. -/
def goTo (b : Builder) (mode : Mode) : Builder :=
  { b with mode := mode }

/-- Has a token that does not belong in a table processed by the rules of the body, with its content
in front of the table. -/
def foster (b : Builder) (t : Token) : Next :=
  .byMode .inBody { b with fostering := true } t

/-! ## Head -/

/-- Says whether the start tag of a template starts a shadow tree of the current node. The root has
no shadow. -/
def startsShadow (b : Builder) (tag : Tag) : Bool :=
  1 < b.opened.length && tag.attributes.any fun a => a.name = "shadowrootmode".toList

/-- The rules for the elements of a head, wherever they stand. The template of a shadow tree sets
the mode for its content, but the content is that of the current node, and no end tag belongs to
it. -/
def rulesInHead (b : Builder) (t : Token) : Next :=
  match t with
  | .startTag tag =>
    if ["base", "basefont", "bgsound", "link", "meta"].contains tag.name then
      .done (b.addHtml tag.name)
    else if tag.name = "title" then .done (b.openRaw tag.name (.escapable tag.name))
    else if ["noframes", "style", "noscript"].contains tag.name then
      .done (b.openRaw tag.name (.plain tag.name))
    else if tag.name = "script" then .done (b.openRaw tag.name .script)
    else if tag.name = "template" then
      let b := { b.pushMarker with templateModes := .inTemplate :: b.templateModes }
      let b := b.goTo .inTemplate
      .done (if b.startsShadow tag then b else b.openHtml tag.name)
    else .done b
  | .comment => .done b.addComment
  | .endTag "template" =>
    if b.hasOpen "template" then
      let b := (b.closeImplied ElementName.isThoroughImpliedEnd).popNamed "template"
      let b := { b.clearFormatting with templateModes := b.templateModes.drop 1 }
      .done b.resetMode
    else .done b
  | _ => .done b

/-! ## Body -/

/-- A list item or a definition closes the open one of its kind. -/
def closeListItem (b : Builder) (names : List String) : Builder :=
  match go b.opened with
  | some name => (b.closeImpliedUpTo name).popNamed name
  | none => b
where
  /-- The nearest open element of the kind, unless a special element is in the way. -/
  go : List Nat → Option String
    | [] => none
    | i :: rest =>
      let e := b.nameOf i
      if e.isOneOf names then some e.name
      else if e.isSpecial && !e.isOneOf ["address", "div", "p"] then none
      else go rest

/-- The name of an element in SVG, where one name has a capital letter that matters. -/
def svgName (name : String) : String :=
  if name = "foreignobject" then "foreignObject" else name

/-- Opens an element of a foreign vocabulary, or only adds it if its tag closes itself. -/
def openForeign (b : Builder) (space : Space) (name : String) (tag : Tag) : Builder :=
  if tag.selfClosing then b.addElement ⟨space, name⟩ else b.openElement ⟨space, name⟩

/-- A start tag in the body. -/
def startTagInBody (b : Builder) (tag : Tag) : Next :=
  let name := tag.name
  if ["html", "body", "frameset", "caption", "col", "colgroup", "frame", "head", "tbody", "td",
      "tfoot", "th", "thead", "tr"].contains name then .done b
  else if ["base", "basefont", "bgsound", "link", "meta", "noframes", "script", "style", "template",
      "title"].contains name then .byMode .inHead b (.startTag tag)
  else if blockNames.contains name then .done (b.closeParagraphInScope.openHtml name)
  else if headingNames.contains name then
    let b := b.closeParagraphInScope
    .done ((if b.currentName.isHeading then b.pop else b).openHtml name)
  else if name = "pre" || name = "listing" then
    .done { b.closeParagraphInScope.openHtml name with skipBreak := true }
  else if name = "form" then
    if b.form.isSome && !b.hasOpen "template" then .done b
    else
      let inTemplate := b.hasOpen "template"
      let b := b.closeParagraphInScope.openHtml name
      .done (if inTemplate then b else { b with form := some b.current })
  else if name = "li" then
    .done ((b.closeListItem ["li"]).closeParagraphInScope.openHtml name)
  else if name = "dd" || name = "dt" then
    .done ((b.closeListItem ["dd", "dt"]).closeParagraphInScope.openHtml name)
  else if name = "plaintext" then
    .done { b.closeParagraphInScope.openHtml name with raw := some .toEnd }
  else if name = "button" then
    let b :=
      if b.hasInScope ElementName.endsScope "button" then
        (b.closeImplied ElementName.isImpliedEnd).popNamed "button"
      else b
    .done (b.reconstruct.openHtml name)
  else if name = "a" then .done (b.closeOpenAnchor.reconstruct.openFormatting tag)
  else if name = "nobr" then
    let b := b.reconstruct
    let b :=
      if b.hasInScope ElementName.endsScope "nobr" then (b.adopt "nobr").reconstruct else b
    .done (b.openFormatting tag)
  else if formattingNames.contains name then .done (b.reconstruct.openFormatting tag)
  else if ["applet", "marquee", "object"].contains name then
    .done (b.reconstruct.openHtml name).pushMarker
  else if name = "table" then .done ((b.closeParagraphInScope.openHtml name).goTo .inTable)
  else if ["area", "br", "embed", "img", "keygen", "wbr", "input"].contains name then
    .done (b.reconstruct.addHtml name)
  else if ["param", "source", "track"].contains name then .done (b.addHtml name)
  else if name = "hr" then .done (b.closeParagraphInScope.addHtml name)
  else if name = "image" then .byMode .inBody b (.startTag { tag with name := "img" })
  else if name = "textarea" then
    .done { b.openRaw name (.escapable name) with skipBreak := true }
  else if name = "xmp" then
    .done (b.closeParagraphInScope.reconstruct.openRaw name (.plain name))
  else if ["iframe", "noembed", "noscript"].contains name then .done (b.openRaw name (.plain name))
  else if name = "select" then
    let inTable :=
      [Mode.inTable, .inCaption, .inTableBody, .inRow, .inCell].contains b.mode
    .done ((b.reconstruct.openHtml name).goTo (if inTable then .inSelectInTable else .inSelect))
  else if name = "optgroup" || name = "option" then
    .done ((if b.atHtml "option" then b.pop else b).reconstruct.openHtml name)
  else if name = "rb" || name = "rtc" then
    let b :=
      if b.hasInScope ElementName.endsScope "ruby" then b.closeImplied ElementName.isImpliedEnd
      else b
    .done (b.openHtml name)
  else if name = "rp" || name = "rt" then
    let b :=
      if b.hasInScope ElementName.endsScope "ruby" then b.closeImpliedUpTo "rtc" else b
    .done (b.openHtml name)
  else if name = "math" then .done (b.openForeign .mathml name tag)
  else if name = "svg" then .done (b.openForeign .svg name tag)
  else .done (b.reconstruct.openHtml name)

/-- An end tag in the body. -/
def endTagInBody (b : Builder) (name : String) : Next :=
  if name = "template" then .byMode .inHead b (.endTag name)
  else if name = "body" || name = "html" then .done b
  else if blockEndNames.contains name then
    if b.hasInScope ElementName.endsScope name then
      .done ((b.closeImplied ElementName.isImpliedEnd).popNamed name)
    else .done b
  else if name = "form" then
    if b.hasOpen "template" then
      if b.hasInScope ElementName.endsScope "form" then
        .done ((b.closeImplied ElementName.isImpliedEnd).popNamed "form")
      else .done b
    else
      match b.form with
      | none => .done b
      | some form =>
        let b := { b with form := none }
        if b.inScope ElementName.endsScope (· == form) then
          .done ((b.closeImplied ElementName.isImpliedEnd).removeOpen form)
        else .done b
  else if name = "p" then
    -- A lone end tag makes an empty paragraph.
    let b := if b.hasInScope ElementName.endsButtonScope "p" then b else b.openHtml "p"
    .done b.closeParagraph
  else if name = "li" then
    if b.hasInScope ElementName.endsListScope name then
      .done ((b.closeImpliedUpTo name).popNamed name)
    else .done b
  else if name = "dd" || name = "dt" then
    if b.hasInScope ElementName.endsScope name then
      .done ((b.closeImpliedUpTo name).popNamed name)
    else .done b
  else if headingNames.contains name then
    if b.inScope ElementName.endsScope fun i => (b.nameOf i).isHeading then
      .done ((b.closeImplied ElementName.isImpliedEnd).popThrough ElementName.isHeading)
    else .done b
  else if formattingNames.contains name then .done (b.adopt name)
  else if ["applet", "marquee", "object"].contains name then
    if b.hasInScope ElementName.endsScope name then
      .done ((b.closeImplied ElementName.isImpliedEnd).popNamed name).clearFormatting
    else .done b
  else if name = "br" then .byMode .inBody b (.startTag ⟨"br", [], false⟩)
  else .done (b.closeAny name)

/-- The rules of the body. -/
def rulesInBody (b : Builder) (t : Token) : Next :=
  match t with
  | .character '\x00' => .done b
  | .character c => .done (b.reconstruct.addChar c)
  | .startTag tag => startTagInBody b tag
  | .endTag name => endTagInBody b name
  | .comment => .done b.addComment
  | .nothing => .done b
  | .endOfText => if b.templateModes.isEmpty then .done b else .byMode .inTemplate b t

/-- The rules of an element with raw text. -/
def rulesInText (b : Builder) (t : Token) : Next :=
  match t with
  | .character c => .done (b.addChar c)
  | .endOfText => .again (b.pop.goTo b.returnMode) t
  | .endTag _ => .done (b.pop.goTo b.returnMode)
  | _ => .done b

/-! ## Tables -/

/-- Says whether a tag is that of a hidden input. -/
def isHiddenInput (tag : Tag) : Bool :=
  match tag.attributes.find? fun a => a.name = "type".toList with
  | some a => a.value.map Char.toLower = "hidden".toList
  | none => false

/-- The rules of a table. -/
def rulesInTable (b : Builder) (t : Token) : Next :=
  match t with
  | .character _ =>
    if b.currentName.isFosterTarget then
      .again { b with returnMode := b.mode, mode := .inTableText } t
    else b.foster t
  | .startTag tag =>
    let name := tag.name
    let cleared := b.popUntilCurrent ElementName.endsTableScope
    if name = "caption" then .done ((cleared.pushMarker.openHtml name).goTo .inCaption)
    else if name = "colgroup" then .done ((cleared.openHtml name).goTo .inColumnGroup)
    else if name = "col" then .again ((cleared.openHtml "colgroup").goTo .inColumnGroup) t
    else if ["tbody", "tfoot", "thead"].contains name then
      .done ((cleared.openHtml name).goTo .inTableBody)
    else if ["td", "th", "tr"].contains name then
      .again ((cleared.openHtml "tbody").goTo .inTableBody) t
    else if name = "table" then
      if b.hasInScope ElementName.endsTableScope "table" then
        .again (b.popNamed "table").resetMode t
      else .done b
    else if ["style", "script", "template"].contains name then .byMode .inHead b t
    else if name = "input" then
      if isHiddenInput tag then .done (b.addHtml name) else b.foster t
    else if name = "form" then
      if b.hasOpen "template" || b.form.isSome then .done b
      else
        -- The form stays empty: its content belongs to the table.
        let b := b.openHtml name
        .done { b with form := some b.current, opened := b.opened.drop 1 }
    else b.foster t
  | .endTag name =>
    if name = "table" then
      if b.hasInScope ElementName.endsTableScope "table" then
        .done (b.popNamed "table").resetMode
      else .done b
    else if ["body", "caption", "col", "colgroup", "html", "tbody", "td", "tfoot", "th", "thead",
        "tr"].contains name then .done b
    else if name = "template" then .byMode .inHead b t
    else b.foster t
  | .comment => .done b.addComment
  | .nothing => .done b
  | .endOfText => .byMode .inBody b t

/-- Places the text that waited in a table: in the table if it is blank, else in front of it. -/
def flushPending (b : Builder) : Builder :=
  let text := b.pending.reverse
  let b := { b with pending := [] }
  if text.all isMarkupBlank then text.foldl addChar b
  else
    let b := text.foldl (fun b c => b.reconstruct.addChar c) { b with fostering := true }
    { b with fostering := false }

/-- The rules of text in a table. -/
def rulesInTableText (b : Builder) (t : Token) : Next :=
  match t with
  | .character '\x00' => .done b
  | .character c => .done { b with pending := c :: b.pending }
  -- Any other token ends the text, so its place can be decided.
  | _ => .again (b.flushPending.goTo b.returnMode) t

/-- The rules of a caption. -/
def rulesInCaption (b : Builder) (t : Token) : Next :=
  let close : Option Builder :=
    if b.hasInScope ElementName.endsTableScope "caption" then
      let b := (b.closeImplied ElementName.isImpliedEnd).popNamed "caption"
      some (b.clearFormatting.goTo .inTable)
    else none
  match t with
  | .startTag tag =>
    if ["caption", "col", "colgroup", "tbody", "td", "tfoot", "th", "thead",
        "tr"].contains tag.name then
      match close with
      | some b => .again b t
      | none => .done b
    else .byMode .inBody b t
  | .endTag name =>
    if name = "caption" then
      match close with
      | some b => .done b
      | none => .done b
    else if name = "table" then
      match close with
      | some b => .again b t
      | none => .done b
    else if ["body", "col", "colgroup", "html", "tbody", "td", "tfoot", "th", "thead",
        "tr"].contains name then .done b
    else .byMode .inBody b t
  | _ => .byMode .inBody b t

/-- The rules of a column group. -/
def rulesInColumnGroup (b : Builder) (t : Token) : Next :=
  let leave : Next :=
    if b.atHtml "colgroup" then .again (b.pop.goTo .inTable) t else .done b
  match t with
  | .character c => if isMarkupBlank c then .done (b.addChar c) else leave
  | .comment => .done b.addComment
  | .nothing => .done b
  | .startTag tag =>
    if tag.name = "html" then .byMode .inBody b t
    else if tag.name = "col" then .done (b.addHtml "col")
    else if tag.name = "template" then .byMode .inHead b t
    else leave
  | .endTag name =>
    if name = "colgroup" then
      if b.atHtml "colgroup" then .done (b.pop.goTo .inTable) else .done b
    else if name = "col" then .done b
    else if name = "template" then .byMode .inHead b t
    else leave
  | .endOfText => .byMode .inBody b t

/-- Ends the scope of rows in a table body. -/
def endsBodyContext (e : ElementName) : Bool :=
  e.isOneOf ["tbody", "tfoot", "thead", "template", "html"]

/-- Ends the scope of cells in a row. -/
def endsRowContext (e : ElementName) : Bool :=
  e.isOneOf ["tr", "template", "html"]

/-- The rules of a table body. -/
def rulesInTableBody (b : Builder) (t : Token) : Next :=
  let cleared := b.popUntilCurrent endsBodyContext
  let leave : Next :=
    if b.inScope ElementName.endsTableScope fun i =>
        (b.nameOf i).isOneOf ["table", "tbody", "tfoot"] then
      .again (cleared.pop.goTo .inTable) t
    else .done b
  match t with
  | .startTag tag =>
    let name := tag.name
    if name = "tr" then .done ((cleared.openHtml name).goTo .inRow)
    else if name = "th" || name = "td" then .again ((cleared.openHtml "tr").goTo .inRow) t
    else if ["caption", "col", "colgroup", "tbody", "tfoot", "thead"].contains name then leave
    else .byMode .inTable b t
  | .endTag name =>
    if ["tbody", "tfoot", "thead"].contains name then
      if b.hasInScope ElementName.endsTableScope name then .done (cleared.pop.goTo .inTable)
      else .done b
    else if name = "table" then leave
    else if ["body", "caption", "col", "colgroup", "html", "td", "th", "tr"].contains name then
      .done b
    else .byMode .inTable b t
  | _ => .byMode .inTable b t

/-- The rules of a row. -/
def rulesInRow (b : Builder) (t : Token) : Next :=
  let cleared := b.popUntilCurrent endsRowContext
  let rowInScope := b.hasInScope ElementName.endsTableScope "tr"
  let leave : Next :=
    if rowInScope then .again (cleared.pop.goTo .inTableBody) t else .done b
  match t with
  | .startTag tag =>
    let name := tag.name
    if name = "th" || name = "td" then
      .done ((cleared.openHtml name).goTo .inCell).pushMarker
    else if ["caption", "col", "colgroup", "tbody", "tfoot", "thead", "tr"].contains name then leave
    else .byMode .inTable b t
  | .endTag name =>
    if name = "tr" then
      if rowInScope then .done (cleared.pop.goTo .inTableBody) else .done b
    else if name = "table" then leave
    else if ["tbody", "tfoot", "thead"].contains name then
      if b.hasInScope ElementName.endsTableScope name then leave else .done b
    else if ["body", "caption", "col", "colgroup", "html", "td", "th"].contains name then .done b
    else .byMode .inTable b t
  | _ => .byMode .inTable b t

/-- Closes the open cell. -/
def closeCell (b : Builder) : Builder :=
  ((b.closeImplied ElementName.isImpliedEnd).popThrough fun e =>
    e.isOneOf ["td", "th"]).clearFormatting.goTo .inRow

/-- The rules of a cell. -/
def rulesInCell (b : Builder) (t : Token) : Next :=
  match t with
  | .startTag tag =>
    if ["caption", "col", "colgroup", "tbody", "td", "tfoot", "th", "thead",
        "tr"].contains tag.name then
      if b.inScope ElementName.endsTableScope fun i => (b.nameOf i).isOneOf ["td", "th"] then
        .again b.closeCell t
      else .done b
    else .byMode .inBody b t
  | .endTag name =>
    if name = "td" || name = "th" then
      if b.hasInScope ElementName.endsTableScope name then
        let b := (b.closeImplied ElementName.isImpliedEnd).popNamed name
        .done (b.clearFormatting.goTo .inRow)
      else .done b
    else if ["body", "caption", "col", "colgroup", "html"].contains name then .done b
    else if ["table", "tbody", "tfoot", "thead", "tr"].contains name then
      if b.hasInScope ElementName.endsTableScope name then .again b.closeCell t else .done b
    else .byMode .inBody b t
  | _ => .byMode .inBody b t

/-! ## Selects -/

/-- Closes an option that is the current node. -/
def closeOption (b : Builder) : Builder :=
  if b.atHtml "option" then b.pop else b

/-- Closes an option group that is the current node. -/
def closeOptionGroup (b : Builder) : Builder :=
  if b.atHtml "optgroup" then b.pop else b

/-- The rules of a select. -/
def rulesInSelect (b : Builder) (t : Token) : Next :=
  let selectInScope := b.hasInScope ElementName.endsSelectScope "select"
  match t with
  | .character '\x00' => .done b
  | .character c => .done (b.addChar c)
  | .comment => .done b.addComment
  | .nothing => .done b
  | .startTag tag =>
    let name := tag.name
    if name = "html" then .byMode .inBody b t
    else if name = "option" then .done (b.closeOption.openHtml name)
    else if name = "optgroup" then .done (b.closeOption.closeOptionGroup.openHtml name)
    else if name = "hr" then .done (b.closeOption.closeOptionGroup.addHtml name)
    else if name = "select" then
      if selectInScope then .done (b.popNamed "select").resetMode else .done b
    else if ["input", "keygen", "textarea"].contains name then
      if selectInScope then .again (b.popNamed "select").resetMode t else .done b
    else if name = "script" || name = "template" then .byMode .inHead b t
    else .done b
  | .endTag name =>
    -- The end of a group also closes an option that stands directly in it.
    if name = "optgroup" then
      let b :=
        if b.atHtml "option" && (b.opened.drop 1).head?.any (b.isHtml "optgroup") then b.pop else b
      .done b.closeOptionGroup
    else if name = "option" then .done b.closeOption
    else if name = "select" then
      if selectInScope then .done (b.popNamed "select").resetMode else .done b
    else if name = "template" then .byMode .inHead b t
    else .done b
  | .endOfText => .byMode .inBody b t

/-- The rules of a select in a table. -/
def rulesInSelectInTable (b : Builder) (t : Token) : Next :=
  let names := ["caption", "table", "tbody", "tfoot", "thead", "tr", "td", "th"]
  match t with
  | .startTag tag =>
    if names.contains tag.name then .again (b.popNamed "select").resetMode t
    else .byMode .inSelect b t
  | .endTag name =>
    if names.contains name then
      if b.hasInScope ElementName.endsTableScope name then
        .again (b.popNamed "select").resetMode t
      else .done b
    else .byMode .inSelect b t
  | _ => .byMode .inSelect b t

/-! ## Templates -/

/-- Replaces the mode of the innermost template and goes there. -/
def retemplate (b : Builder) (mode : Mode) : Builder :=
  { b with templateModes := mode :: b.templateModes.drop 1, mode := mode }

/-- The rules of a template. -/
def rulesInTemplate (b : Builder) (t : Token) : Next :=
  match t with
  | .character '\x00' => .done b
  | .character _ => .byMode .inBody b t
  | .comment => .done b.addComment
  | .nothing => .done b
  | .startTag tag =>
    let name := tag.name
    if ["base", "basefont", "bgsound", "link", "meta", "noframes", "script", "style", "template",
        "title"].contains name then .byMode .inHead b t
    else if ["caption", "colgroup", "tbody", "tfoot", "thead"].contains name then
      .again (b.retemplate .inTable) t
    else if name = "col" then .again (b.retemplate .inColumnGroup) t
    else if name = "tr" then .again (b.retemplate .inTableBody) t
    else if name = "td" || name = "th" then .again (b.retemplate .inRow) t
    else .again (b.retemplate .inBody) t
  | .endTag name => if name = "template" then .byMode .inHead b t else .done b
  | .endOfText =>
    if b.hasOpen "template" then
      let b := (b.popNamed "template").clearFormatting
      .again { b with templateModes := b.templateModes.drop 1 }.resetMode t
    else .done b

/-! ## Foreign content -/

/-- Says whether a token is processed by the rules of foreign content. -/
def isForeign (b : Builder) (t : Token) : Bool :=
  match b.opened with
  | [] => false
  | [_] => false
  | i :: _ =>
    let e := b.nameOf i
    match e.space, t with
    | .html, _ => false
    | _, .endOfText => false
    | _, .character _ => !(e.isMathTextPoint || e.isSvgHtmlPoint)
    | _, .startTag tag =>
      if e.isMathTextPoint && tag.name != "mglyph" && tag.name != "malignmark" then false
      else if e.isSvgHtmlPoint then false
      else if e == ⟨.mathml, "annotation-xml"⟩ && tag.name == "svg" then false
      else true
    | _, _ => true

/-- Says whether a start tag leaves foreign content. -/
def breaksOut (tag : Tag) : Bool :=
  breakoutNames.contains tag.name
    || (tag.name == "font"
      && tag.attributes.any fun a => ["color", "face", "size"].contains (String.ofList a.name))

/-- Closes foreign elements up to HTML or a point where HTML may stand. -/
def leaveForeign (b : Builder) : Builder :=
  b.popUntilCurrent fun e => e.space == .html || e.isMathTextPoint || e.isSvgHtmlPoint

/-- An end tag in foreign content closes the nearest element of that name, in any case; from the
first HTML element on, the rules of the mode apply. -/
def endTagInForeign (b : Builder) (name : String) : Next :=
  go true b.opened
where
  /-- Looks through the open elements, the current one first. -/
  go (atCurrent : Bool) : List Nat → Next
    | [] => .done b
    | [_] => .done b
    | i :: rest =>
      let e := b.nameOf i
      if !atCurrent && e.space == .html then .byMode b.mode b (.endTag name)
      else if e.name.toLower == name then .done { b with opened := rest }
      else go false rest

/-- The rules of foreign content. -/
def rulesInForeign (b : Builder) (t : Token) : Next :=
  match t with
  | .character c => .done (b.addChar (rawChar c))
  | .startTag tag =>
    if breaksOut tag then .byMode b.mode b.leaveForeign t
    else
      let space := b.currentName.space
      let name := if space == .svg then svgName tag.name else tag.name
      .done (b.openForeign space name tag)
  | .endTag name =>
    if name = "br" || name = "p" then .byMode b.mode b.leaveForeign t else b.endTagInForeign name
  | .comment => .done b.addComment
  | _ => .done b

/-! ## Following the rules -/

/-- The rules of a mode. -/
def rules : Mode → Builder → Token → Next
  | .inHead => rulesInHead
  | .inBody => rulesInBody
  | .text => rulesInText
  | .inTable => rulesInTable
  | .inTableText => rulesInTableText
  | .inCaption => rulesInCaption
  | .inColumnGroup => rulesInColumnGroup
  | .inTableBody => rulesInTableBody
  | .inRow => rulesInRow
  | .inCell => rulesInCell
  | .inSelect => rulesInSelect
  | .inSelectInTable => rulesInSelectInTable
  | .inTemplate => rulesInTemplate

/-- The first rules that apply to a token. -/
def firstRules (b : Builder) (t : Token) : Next :=
  if b.isForeign t then rulesInForeign b t else rules b.mode b t

/-- Follows what remains to be done with a token. -/
def settle : Nat → Next → Builder
  | _, .done b => { b with fostering := false }
  | 0, .byMode _ b _ => { b with fostering := false }
  | 0, .again b _ => { b with fostering := false }
  | fuel + 1, .byMode mode b t => settle fuel (rules mode b t)
  | fuel + 1, .again b t => settle fuel (firstRules { b with fostering := false } t)

/-- Processes a token. -/
def process (b : Builder) (t : Token) : Builder :=
  let skip := b.skipBreak && t == .character '\n'
  let b := { b with skipBreak := false }
  if skip || t == .nothing then b
  else settle (8 * (b.opened.length + b.templateModes.length + 4)) (b.firstRules t)

end Ontogram.Markup.Builder
