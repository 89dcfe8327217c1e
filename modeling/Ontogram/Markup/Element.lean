import Ontogram.Markup.Tree

/-!
# Element categories

The sets of elements that the tree construction rules of the HTML standard speak of: scopes, special
elements, elements whose end tag may be implied, and the points where foreign content takes HTML.
-/

namespace Ontogram.Markup

namespace ElementName

/-- An HTML element. -/
def html (name : String) : ElementName :=
  ⟨.html, name⟩

/-- Says whether an element is the HTML element of one of the names. -/
def isOneOf (e : ElementName) (names : List String) : Bool :=
  e.space == .html && names.contains e.name

/-- MathML elements whose content is text with HTML in it. -/
def isMathTextPoint (e : ElementName) : Bool :=
  e.space == .mathml && ["mi", "mo", "mn", "ms", "mtext"].contains e.name

/-- SVG elements whose content is HTML. -/
def isSvgHtmlPoint (e : ElementName) : Bool :=
  e.space == .svg && ["foreignObject", "desc", "title"].contains e.name

/-- Ends the scope in which an open element is looked for. -/
def endsScope (e : ElementName) : Bool :=
  e.isOneOf ["applet", "caption", "html", "table", "td", "th", "marquee", "object", "template"]
    || e.isMathTextPoint || e.isSvgHtmlPoint

/-- Ends the scope of list items. -/
def endsListScope (e : ElementName) : Bool :=
  e.endsScope || e.isOneOf ["ol", "ul"]

/-- Ends the scope of buttons. -/
def endsButtonScope (e : ElementName) : Bool :=
  e.endsScope || e.isOneOf ["button"]

/-- Ends the scope of tables. -/
def endsTableScope (e : ElementName) : Bool :=
  e.isOneOf ["html", "table", "template"]

/-- Ends the scope of selects: everything but options and their groups. -/
def endsSelectScope (e : ElementName) : Bool :=
  !e.isOneOf ["optgroup", "option"]

/-- Elements whose end tag is implied by most tags around them. -/
def isImpliedEnd (e : ElementName) : Bool :=
  e.isOneOf ["dd", "dt", "li", "option", "optgroup", "p", "rb", "rp", "rt", "rtc"]

/-- Elements whose end tag is implied by the end of a template. -/
def isThoroughImpliedEnd (e : ElementName) : Bool :=
  e.isImpliedEnd
    || e.isOneOf ["caption", "colgroup", "tbody", "td", "tfoot", "th", "thead", "tr"]

/-- The headings. -/
def isHeading (e : ElementName) : Bool :=
  e.isOneOf ["h1", "h2", "h3", "h4", "h5", "h6"]

/-- Elements whose direct text belongs in front of the table. -/
def isFosterTarget (e : ElementName) : Bool :=
  e.isOneOf ["table", "tbody", "tfoot", "thead", "tr"]

/-- The elements with a parsing rule of their own. -/
def isSpecial (e : ElementName) : Bool :=
  e.isOneOf ["address", "applet", "area", "article", "aside", "base", "basefont", "bgsound",
    "blockquote", "body", "br", "button", "caption", "center", "col", "colgroup", "dd", "details",
    "dir", "div", "dl", "dt", "embed", "fieldset", "figcaption", "figure", "footer", "form",
    "frame", "frameset", "h1", "h2", "h3", "h4", "h5", "h6", "head", "header", "hgroup", "hr",
    "html", "iframe", "img", "input", "isindex", "li", "link", "listing", "main", "marquee", "menu",
    "meta", "nav", "noembed", "noframes", "noscript", "object", "ol", "p", "param", "plaintext",
    "pre", "script", "section", "select", "source", "style", "summary", "table", "tbody", "td",
    "template", "textarea", "tfoot", "th", "thead", "title", "tr", "track", "ul", "wbr", "xmp"]

end ElementName

/-- The start tags of blocks, which close an open paragraph. -/
def blockNames : List String :=
  ["address", "article", "aside", "blockquote", "center", "details", "dialog", "dir", "div", "dl",
    "fieldset", "figcaption", "figure", "footer", "header", "hgroup", "main", "menu", "nav", "ol",
    "p", "search", "section", "summary", "ul"]

/-- The end tags of blocks. -/
def blockEndNames : List String :=
  ["address", "article", "aside", "blockquote", "button", "center", "details", "dialog", "dir",
    "div", "dl", "fieldset", "figcaption", "figure", "footer", "header", "hgroup", "listing",
    "main", "menu", "nav", "ol", "pre", "search", "section", "summary", "ul"]

/-- The formatting elements, `a` and `nobr` included. -/
def formattingNames : List String :=
  ["a", "b", "big", "code", "em", "font", "i", "nobr", "s", "small", "strike", "strong", "tt", "u"]

/-- The headings, by name. -/
def headingNames : List String :=
  ["h1", "h2", "h3", "h4", "h5", "h6"]

/-- The start tags that leave foreign content. -/
def breakoutNames : List String :=
  ["b", "big", "blockquote", "body", "br", "center", "code", "dd", "div", "dl", "dt", "em", "embed",
    "h1", "h2", "h3", "h4", "h5", "h6", "head", "hr", "i", "img", "li", "listing", "menu", "meta",
    "nobr", "ol", "p", "pre", "ruby", "s", "small", "span", "strong", "strike", "sub", "sup",
    "table", "tt", "u", "ul", "var"]

end Ontogram.Markup
