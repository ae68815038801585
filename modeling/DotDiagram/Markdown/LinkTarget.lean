import DotDiagram.Markdown.Reference
import DotDiagram.Markdown.Spacing
import DotDiagram.Text.Fold
import DotDiagram.Text.Punctuation

/-! Where links point. A label shows no target, so targets are read over: the readers
return the text after them. -/

namespace DotDiagram.Markdown

def pointedDestination? : List Char → Option (List Char)
  | [] => none
  | '\\' :: c :: cs =>
    if isAsciiPunctuation c then pointedDestination? cs
    else if isLineEnd c || c == '<' then none
    else if c == '>' then some cs
    else pointedDestination? cs
  | c :: cs =>
    if isLineEnd c || c == '<' then none
    else if c == '>' then some cs
    else pointedDestination? cs

/-- Parentheses have to balance, and open only where at most `nesting` others are open. -/
def bareDestination? (nesting depth : Nat) : List Char → Option (List Char)
  | [] => if depth = 0 then some [] else none
  | '\\' :: c :: cs =>
    if isAsciiPunctuation c then bareDestination? nesting depth cs
    else if c.toNat ≤ 0x20 then (if depth = 0 then some (c :: cs) else none)
    else bareDestination? nesting depth cs
  | c :: cs =>
    if c.toNat ≤ 0x20 then (if depth = 0 then some (c :: cs) else none)
    else if c == '(' then
      (if nesting < depth then none else bareDestination? nesting (depth + 1) cs)
    else if c == ')' then
      (if depth = 0 then some (c :: cs) else bareDestination? nesting (depth - 1) cs)
    else bareDestination? nesting depth cs

def destination? (nesting : Nat) : List Char → Option (List Char)
  | '<' :: cs => pointedDestination? cs
  | cs => bareDestination? nesting 0 cs

def titleEnd? : Char → Option Char
  | '"' => some '"'
  | '\'' => some '\''
  | '(' => some ')'
  | _ => none

/-- The text after the mark that ends a title; parentheses do not nest. -/
def titleRest? (opening closing : Char) : List Char → Option (List Char)
  | [] => none
  | c :: cs =>
    if c == closing then some cs
    else if c == opening then none
    else if c == '\\' then
      match cs with
      | d :: cs => if isAsciiPunctuation d then titleRest? opening closing cs
        else titleRest? opening closing (d :: cs)
      | [] => none
    else titleRest? opening closing cs

def title? : List Char → Option (List Char)
  | c :: cs => (titleEnd? c).bind fun closing => titleRest? c closing cs
  | [] => none

/-- Blanks with at most one line end among them. -/
def skipSeparator (cs : List Char) : List Char :=
  let cs := cs.dropWhile isSpacing
  ((newline? cs).getD cs).dropWhile isSpacing

/-- A target in parentheses. -/
def inlineTarget? : List Char → Option (List Char)
  | '(' :: cs =>
    match destination? 32 (skipSeparator cs) with
    | none => none
    | some rest =>
      let rest := skipSeparator rest
      let rest := match title? rest with
        | some rest => skipSeparator rest
        | none => rest
      match rest with
      | ')' :: rest => some rest
      | _ => none
  | _ => none

/-- White space within a label: the text after it, unless it holds two line ends or
the text cannot go on after the line end. -/
def labelSpace? (nextLine : List Char → Option (List Char)) :
    Nat → Bool → List Char → Option (List Char)
  | 0, _, _ => none
  | fuel + 1, lineEnded, cs =>
    match cs.dropWhile isSpacing with
    | [] => some []
    | c :: rest =>
      if isLineEnd c then
        if lineEnded then none
        else
          match (newline? (c :: rest)).bind nextLine with
          | none => none
          | some rest => labelSpace? nextLine fuel true rest
      else some (c :: rest)

/-- The characters of a label up to its closing bracket, runs of white space written
as one space. A label of white space alone is none. -/
def labelRest? (nextLine : List Char → Option (List Char)) :
    Nat → Bool → List Char → List Char → Option (List Char × List Char)
  | 0, _, _, _ => none
  | fuel + 1, visible, read, cs =>
    match cs with
    | [] => none
    | '[' :: _ => none
    | ']' :: rest => if visible && read.length < 1000 then some (read.reverse, rest) else none
    | '\\' :: c :: rest => labelRest? nextLine fuel visible (c :: '\\' :: read) rest
    | c :: rest =>
      if isSpacingOrLineEnd c then
        match labelSpace? nextLine (rest.length + 2) false (c :: rest) with
        | none => none
        | some rest => labelRest? nextLine fuel visible (' ' :: read) rest
      else labelRest? nextLine fuel true (c :: read) rest

/-- A label in brackets, folded for comparison, and the text after it. -/
def label? (nextLine : List Char → Option (List Char)) :
    List Char → Option (List Char × List Char)
  | '[' :: cs =>
    (labelRest? nextLine (cs.length + 1) false [] cs).map fun (label, rest) =>
      (foldCase label, rest)
  | _ => none

def isSchemeChar (c : Char) : Bool := c.isAlphanum || c == '.' || c == '-' || c == '+'

/-- An address with a scheme, written between angle brackets. -/
def address? (cs : List Char) : Option (List Char × List Char) :=
  let scheme := cs.takeWhile isSchemeChar
  match scheme, cs.drop scheme.length with
  | c :: _, ':' :: rest =>
    if c.isAlpha && 2 ≤ scheme.length && scheme.length ≤ 32 then
      let path := rest.takeWhile fun c => 0x20 < c.toNat && c != '<' && c != '>'
      match rest.drop path.length with
      | '>' :: after => some (scheme ++ ':' :: path, after)
      | _ => none
    else none
  | _, _ => none

def isMailboxChar (c : Char) : Bool := c.isAlphanum || ".!#$%&'*+/=?^_\x60\x7b|\x7d~-".contains c

def isDomainLabel (cs : List Char) : Bool :=
  !cs.isEmpty && cs.length ≤ 63 && cs.head? != some '-' && cs.getLast? != some '-'

def splitDomain : List Char → List (List Char)
  | [] => [[]]
  | c :: cs =>
    match splitDomain cs with
    | [] => [[c]]
    | l :: ls => if c = '.' then [] :: l :: ls else (c :: l) :: ls

def mailAddress? (cs : List Char) : Option (List Char × List Char) :=
  let mailbox := cs.takeWhile isMailboxChar
  match mailbox, cs.drop mailbox.length with
  | _ :: _, '@' :: rest =>
    let domain := rest.takeWhile fun c => c.isAlphanum || c == '-' || c == '.'
    match rest.drop domain.length with
    | '>' :: after =>
      if (splitDomain domain).all isDomainLabel then some (mailbox ++ '@' :: domain, after)
      else none
    | _ => none
  | _, _ => none

/-- A link that shows its own target. -/
def autolink? (cs : List Char) : Option (List Char × List Char) :=
  match address? cs with
  | some found => some found
  | none => mailAddress? cs

end DotDiagram.Markdown
