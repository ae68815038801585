import DotDiagram.Markdown.Spacing
import DotDiagram.Text.Scan

/-! Raw HTML: tags, comments and the like within a line, and the beginnings of blocks
of HTML. Readers start after the opening angle bracket. -/

namespace DotDiagram.Markdown

/-- Blanks, and line ends if they are allowed; something has to follow. -/
def tagSpace? (multiline : Bool) (cs : List Char) : Option (List Char) :=
  match cs.dropWhile isSpacing with
  | [] => none
  | c :: rest =>
    if isLineEnd c then
      if multiline then
        match rest.dropWhile isSpacingOrLineEnd with
        | [] => none
        | rest => some rest
      else none
    else some (c :: rest)

def isAttributeNameChar (c : Char) : Bool :=
  c.isAlphanum || c == '_' || c == '.' || c == ':' || c == '-'

def attributeName? : List Char → Option (List Char)
  | c :: cs =>
    if c.isAlpha || c == '_' || c == ':' then some (cs.dropWhile isAttributeNameChar) else none
  | [] => none

def endsBareValue (c : Char) : Bool :=
  c == ' ' || c == '=' || c == '>' || c == '<' || c == '\x60' || isLineEnd c

def attributeValue? (multiline : Bool) : List Char → Option (List Char)
  | [] => none
  | c :: cs =>
    if c == '"' || c == '\'' then
      let value := cs.takeWhile (· != c)
      if !multiline && value.any isLineEnd then none
      else
        match cs.dropWhile (· != c) with
        | _ :: rest => some rest
        | [] => none
    else if endsBareValue c then none
    else some (cs.dropWhile fun d => !(endsBareValue d || d == '"' || d == '\''))

/-- A name, and a value if an equals sign follows. -/
def attribute? (multiline : Bool) (cs : List Char) : Option (List Char) :=
  match attributeName? cs with
  | none => none
  | some afterName =>
    match tagSpace? multiline afterName with
    | none => none
    | some ('=' :: rest) => (tagSpace? multiline rest).bind (attributeValue? multiline)
    | some _ => some afterName

/-- Attributes up to the end of the tag, each after white space. -/
def attributes? (multiline : Bool) : Nat → List Char → Option (List Char)
  | 0, _ => none
  | fuel + 1, cs =>
    match tagSpace? multiline cs with
    | none => none
    | some rest =>
      if rest.head? == some '/' || rest.head? == some '>' then some rest
      else if rest.length == cs.length then none
      else (attribute? multiline rest).bind (attributes? multiline fuel)

def isTagNameChar (c : Char) : Bool := c.isAlphanum || c == '-'

def openingTag? (multiline : Bool) (cs : List Char) : Option (List Char) :=
  if (cs.takeWhile Char.isAlpha).isEmpty then none
  else
    let rest := cs.dropWhile isTagNameChar
    match attributes? multiline (rest.length + 1) rest with
    | some ('/' :: '>' :: rest) => some rest
    | some ('>' :: rest) => some rest
    | _ => none

def closingTag? (cs : List Char) : Option (List Char) :=
  if (cs.takeWhile Char.isAlpha).isEmpty then none
  else
    match (cs.dropWhile isTagNameChar).dropWhile isSpacing with
    | '>' :: rest => some rest
    | _ => none

def tag? (multiline : Bool) : List Char → Option (List Char)
  | '/' :: cs => closingTag? cs
  | cs => openingTag? multiline cs

def comment? : List Char → Option (List Char)
  | '>' :: rest => some rest
  | '-' :: '>' :: rest => some rest
  | cs => (splitAtFirst? "-->".toList cs).map Prod.snd

/-- A run of closing brackets ends the section if an angle bracket follows it. -/
def characterData? (cs : List Char) : Option (List Char) :=
  match cs.dropWhile (· != ']') with
  | [] => none
  | rest =>
    match rest.dropWhile (· == ']') with
    | '>' :: rest => some rest
    | _ => none

/-- The text after a piece of HTML within a paragraph. -/
def inlineHtml? : List Char → Option (List Char)
  | '!' :: '-' :: '-' :: cs => comment? cs
  | '!' :: '[' :: 'C' :: 'D' :: 'A' :: 'T' :: 'A' :: '[' :: cs => characterData? cs
  | '!' :: c :: cs => if c.isAlpha then (splitAtFirst? ['>'] cs).map Prod.snd else none
  | '?' :: cs => (splitAtFirst? "?>".toList cs).map Prod.snd
  | cs => tag? true cs

/-- Elements whose tags begin a block that lasts to a blank line. -/
def blockElements : List String :=
  ["address", "article", "aside", "base", "basefont", "blockquote", "body", "caption",
    "center", "col", "colgroup", "dd", "details", "dialog", "dir", "div", "dl", "dt",
    "fieldset", "figcaption", "figure", "footer", "form", "frame", "frameset", "h1", "h2",
    "h3", "h4", "h5", "h6", "head", "header", "hr", "html", "iframe", "legend", "li", "link",
    "main", "menu", "menuitem", "nav", "noframes", "ol", "optgroup", "option", "p", "param",
    "search", "section", "summary", "table", "tbody", "td", "tfoot", "th", "thead", "title",
    "tr", "track", "ul"]

def beginsElementBlock (cs : List Char) : Bool :=
  let cs := if cs.head? == some '/' then cs.drop 1 else cs
  let name := cs.takeWhile Char.isAlphanum
  blockElements.contains (String.ofList (name.map Char.toLower)) &&
    match cs.drop name.length with
    | [] => true
    | '/' :: '>' :: _ => true
    | c :: _ => c == ' ' || c == '\t' || isLineEnd c || c == '>'

/-- The mark that ends a block of HTML of its own kind, by what the block begins with. -/
def blockEndMark? (cs : List Char) : Option String :=
  let verbatim := ["pre", "style", "script", "textarea"].find? fun name =>
    match afterIgnoringCase? name.toList cs with
    | some [] => true
    | some (c :: _) => isSpacingOrLineEnd c || c == '>'
    | none => false
  match verbatim with
  | some name => some ("</" ++ name ++ ">")
  | none =>
    match cs with
    | '!' :: '-' :: '-' :: _ => some "-->"
    | '?' :: _ => some "?>"
    | '!' :: '[' :: 'C' :: 'D' :: 'A' :: 'T' :: 'A' :: '[' :: _ => some "]]>"
    | '!' :: c :: _ => if c.isAlpha then some ">" else none
    | _ => none

/-- A line that holds one complete tag and nothing else. -/
def isLoneTag (cs : List Char) : Bool :=
  match tag? false cs with
  | some rest => isBlankLine rest
  | none => false

end DotDiagram.Markdown
