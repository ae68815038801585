import DotDiagram.Markdown.Delimiter
import DotDiagram.Markdown.Html
import DotDiagram.Markdown.LinkTarget

/-! Reading the content of a paragraph, a heading or a table cell: code, raw HTML,
links, breaks and character references first, then runs of marks. -/

namespace DotDiagram.Markdown

/-- Text to be read. In a table cell, a backslash before a bar is dropped everywhere. -/
structure Source where
  inCell : Bool
  chars : List Char

/-- A bracket that may begin a link: the text from the bracket on, and what was read
before it, last first. -/
structure Bracket where
  image : Bool
  active : Bool
  source : List Char
  before : List Piece

/-- Characters and pieces read so far, last first. -/
structure Progress where
  pending : List Char
  pieces : List Piece
  brackets : List Bracket

namespace Progress

def flush (p : Progress) : Progress :=
  if p.pending.isEmpty then p
  else
    { p with
      pending := []
      pieces := .inline (.text (String.ofList p.pending.reverse)) :: p.pieces }

def addChar (p : Progress) (c : Char) : Progress := { p with pending := c :: p.pending }

def addPiece (p : Progress) (piece : Piece) : Progress :=
  { p.flush with pieces := piece :: p.flush.pieces }

def openBracket (p : Progress) (image : Bool) (source : List Char) : Progress :=
  let p := p.flush
  ⟨[], [], ⟨image, true, source, p.pieces⟩ :: p.brackets⟩

def Bracket.literal (b : Bracket) : Piece := .inline (.text (if b.image then "![" else "["))

/-- The innermost bracket turns out to be text. -/
def dropBracket (p : Progress) (b : Bracket) (outer : List Bracket) : Progress :=
  ⟨[], p.flush.pieces ++ Bracket.literal b :: b.before, outer⟩

/-- A break after a backslash is a backslash at the end of a link that holds runs. -/
def settleLastBreak (pieces : List Piece) : List Piece :=
  match pieces with
  | .backslashBreak :: rest =>
    if rest.any Piece.isRun then .inline (.text "\\") :: rest else pieces
  | _ => pieces

/-- No link holds another link, but images hold links. -/
def closeBracket (p : Progress) (b : Bracket) (outer : List Bracket) : Progress :=
  let content := resolveRuns (settleLastBreak p.flush.pieces).reverse
  let outer := if b.image then outer
    else outer.map fun o => if o.image then o else { o with active := false }
  ⟨[], .inline (.span (if b.image then .image else .link) content) :: b.before, outer⟩

def finish (p : Progress) : List Piece :=
  let p := { p with pending := p.pending.dropWhile isSpacing }.flush
  (p.brackets.foldl (fun pieces b => pieces ++ Bracket.literal b :: b.before) p.pieces).reverse

end Progress

/-- The text up to a run of exactly `n` backticks, and the text after it. -/
def codeEnd? (n : Nat) : Nat → List Char → List Char → Option (List Char × List Char)
  | 0, _, _ => none
  | fuel + 1, read, cs =>
    match cs with
    | [] => none
    | '\x60' :: _ =>
      let k := runLength '\x60' cs
      if k = n then some (read.reverse, cs.drop k)
      else codeEnd? n fuel (List.replicate k '\x60' ++ read) (cs.drop k)
    | c :: rest => codeEnd? n fuel (c :: read) rest

def unescapeBars : List Char → List Char
  | '\\' :: '|' :: cs => '|' :: unescapeBars cs
  | c :: cs => c :: unescapeBars cs
  | [] => []

/-- Line ends become spaces, and one space is taken off both ends unless all is
spaces. -/
def codeContent (inCell : Bool) (cs : List Char) : String :=
  let cs := if inCell then unescapeBars cs else cs
  let cs := cs.map fun c => if isLineEnd c then ' ' else c
  if cs.head? == some ' ' && cs.getLast? == some ' ' && cs.any (· != ' ') then
    String.ofList (cs.drop 1).dropLast
  else String.ofList cs

/-- The text after a link whose closing bracket has been read, if it is one. A label
that follows has to be known; only without one may the bracket's own text serve. -/
def linkEnd? (known : List (List Char)) (b : Bracket) (rest : List Char) : Option (List Char) :=
  match inlineTarget? rest with
  | some after => some after
  | none =>
    let own : Option (List Char) :=
      match label? some b.source with
      | some (label, after) =>
        if after.length == rest.length && known.contains label then some rest else none
      | none => none
    match rest with
    | '[' :: ']' :: after => own.map fun _ => after
    | _ =>
      match label? some rest with
      | some (label, after) => if known.contains label then some after else none
      | none => own

/-- One step of reading: the last character passed, the text left and the progress. -/
structure Step where
  last : Char
  rest : List Char
  progress : Progress

def readBackslash (source : Source) (rest : List Char) (p : Progress) : Step :=
  match rest with
  | [] => ⟨'\\', [], p.addChar '\\'⟩
  | c :: after =>
    if c == '\x60' then
      let n := runLength '\x60' rest
      let after := rest.drop n
      let p := p.flush
      match if n = 1 then none else codeEnd? (n - 1) (after.length + 1) [] after with
      | some (code, after) =>
        ⟨'\x60', after, ((p.addChar '\x60').addPiece
          (.inline (.code (codeContent source.inCell code))))⟩
      | none =>
        ⟨'\x60', after, p.addPiece (.inline (literalRun '\x60' n))⟩
    else if source.inCell && c == '\\' && after.head? == some '|' then
      ⟨'|', after.drop 1, p.flush.addChar '|'⟩
    else if isAsciiPunctuation c then ⟨c, after, p.flush.addChar c⟩
    else if isLineEnd c then
      match newline? rest with
      | some (d :: below) =>
        ⟨'\n', (d :: below).dropWhile fun c => c == ' ' || c == '\t', p.addPiece .backslashBreak⟩
      | _ => ⟨'\\', rest, p.addChar '\\'⟩
    else ⟨'\\', rest, p.addChar '\\'⟩

def readBacktick (source : Source) (cs : List Char) (p : Progress) : Step :=
  let n := runLength '\x60' cs
  let rest := cs.drop n
  match codeEnd? n (rest.length + 1) [] rest with
  | some (code, after) =>
    ⟨'\x60', after, p.addPiece (.inline (.code (codeContent source.inCell code)))⟩
  | none => ⟨'\x60', rest, p.addPiece (.inline (literalRun '\x60' n))⟩

def readAngle (rest : List Char) (p : Progress) : Step :=
  match autolink? rest with
  | some (target, after) =>
    ⟨'>', after, p.addPiece (.inline (.span .link [.text (String.ofList target)]))⟩
  | none =>
    match inlineHtml? rest with
    | some after =>
      let html := '<' :: rest.take (rest.length - after.length)
      ⟨'>', after, p.addPiece (.inline (.html (String.ofList html)))⟩
    | none => ⟨'<', rest, p.addChar '<'⟩

def readClosing (known : List (List Char)) (rest : List Char) (p : Progress) : Step :=
  match p.brackets with
  | [] => ⟨']', rest, p.addChar ']'⟩
  | b :: outer =>
    match if b.active then linkEnd? known b rest else none with
    | some after => ⟨']', after, p.closeBracket b outer⟩
    | none => ⟨']', rest, (p.dropBracket b outer).addChar ']'⟩

/-- Two blanks before a line end make a hard break, and blanks around it are dropped. -/
def readLineEnd (cs : List Char) (p : Progress) : Step :=
  let blanks := p.pending.takeWhile isSpacing
  let p := { p with pending := p.pending.dropWhile isSpacing }
  let below := ((newline? cs).getD []).dropWhile fun c => c == ' ' || c == '\t'
  ⟨'\n', below, p.addPiece (.inline (if 2 ≤ blanks.length then .hardBreak else .softBreak))⟩

def readRun (before : Option Char) (mark : Char) (cs : List Char) (p : Progress) : Step :=
  let n := runLength mark cs
  let rest := cs.drop n
  let canOpen := canOpenRun mark n before rest.head?
  let canClose := canCloseRun mark n before rest.head?
  if (canOpen || canClose) && (mark != '~' || n ≤ 2) then
    ⟨mark, rest, p.addPiece (.run ⟨mark, n, canOpen, canClose⟩)⟩
  else ⟨mark, rest, { p with pending := List.replicate n mark ++ p.pending }⟩

def readReference (rest : List Char) (p : Progress) : Step :=
  match reference? rest with
  | some (text, after) => ⟨';', after, p.addPiece (.inline (.text text))⟩
  | none => ⟨'&', rest, p.addChar '&'⟩

def step (known : List (List Char)) (source : Source) (before : Option Char) (c : Char)
    (rest : List Char) (p : Progress) : Step :=
  if c == '\\' then readBackslash source rest p
  else if c == '*' || c == '_' || c == '~' then readRun before c (c :: rest) p
  else if c == '\x60' then readBacktick source (c :: rest) p
  else if c == '<' && rest.head? != some '\\' then readAngle rest p
  else if c == '!' && rest.head? == some '[' then ⟨'[', rest.drop 1, p.openBracket true rest⟩
  else if c == '[' then ⟨'[', rest, p.openBracket false (c :: rest)⟩
  else if c == ']' then readClosing known rest p
  else if c == '&' then readReference rest p
  else if isLineEnd c then readLineEnd (c :: rest) p
  else ⟨c, rest, p.addChar c⟩

/-- Every step reads at least one character, so the length of the text is fuel enough. -/
def pieces (known : List (List Char)) (source : Source) :
    Nat → Option Char → List Char → Progress → List Piece
  | 0, _, _, p => p.finish
  | _, _, [], p => p.finish
  | fuel + 1, before, c :: rest, p =>
    let s := step known source before c rest p
    pieces known source fuel (some s.last) s.rest s.progress

/-- The content of a source, given the labels of all link definitions. -/
def Source.inlines (known : List (List Char)) (source : Source) : List Inline :=
  resolveRuns (pieces known source source.chars.length none source.chars ⟨[], [], []⟩)

end DotDiagram.Markdown
