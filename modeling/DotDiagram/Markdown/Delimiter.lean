import DotDiagram.Markdown.Inline
import DotDiagram.Text.Blank
import DotDiagram.Text.Punctuation

/-! Runs of asterisks, underscores and tildes. A run that can close is matched with
the innermost run that it can close, and what stands between them becomes a span. -/

namespace DotDiagram.Markdown

structure Run where
  mark : Char
  length : Nat
  canOpen : Bool
  canClose : Bool

/-- Underscores and lone tildes do not open within a word. -/
def canOpenRun (mark : Char) (length : Nat) (before after : Option Char) : Bool :=
  match after with
  | none => false
  | some next =>
    if isBlank next then false
    else
      match before with
      | none => true
      | some last =>
        (mark == '*' && !isPunctuation next) || (mark == '~' && 1 < length) ||
          (mark == '~' && last == '~' && !isPunctuation next) ||
          isBlank last || isPunctuation last

def canCloseRun (mark : Char) (length : Nat) (before after : Option Char) : Bool :=
  match before with
  | none => false
  | some last =>
    if isBlank last then false
    else
      match after with
      | none => true
      | some next =>
        ((mark == '*' || (mark == '~' && 1 < length)) && !isPunctuation last) ||
          (mark == '~' && last == '~') || isBlank next || isPunctuation next

inductive Piece where
  | inline (x : Inline)
  | backslashBreak
  | run (r : Run)

def Piece.isRun : Piece → Bool
  | .run _ => true
  | _ => false

/-- A run that may still be closed: how many of its marks are left, and what was read
after it, last first. -/
structure Opener where
  mark : Char
  left : Nat
  length : Nat
  both : Bool
  after : List Inline

def literalRun (mark : Char) (n : Nat) : Inline := .text (String.ofList (List.replicate n mark))

/-- What has been read: the content outside all openers, last first, and the openers,
innermost first. Tildes below the floor no longer open. -/
structure Spans where
  base : List Inline
  openers : List Opener
  tildeFloor : Nat

namespace Spans

def push (s : Spans) (x : Inline) : Spans :=
  match s.openers with
  | [] => { s with base := x :: s.base }
  | o :: rest => { s with openers := { o with after := x :: o.after } :: rest }

/-- Openers that were never closed are text; the result has the last content first. -/
def literalContent (openers : List Opener) : List Inline :=
  openers.flatMap fun o => o.after ++ [literalRun o.mark o.left]

/-- Runs of tildes match in length. A run that could both open and close matches only
if the lengths do not add up to a multiple of three, or are multiples of three. -/
def closes (r : Run) (o : Opener) : Bool :=
  let both := r.canOpen && r.canClose
  o.mark == r.mark && (r.mark != '~' || r.length == o.length) &&
    ((!both && !o.both) || (r.length + o.length) % 3 != 0 || r.length % 3 == 0)

/-- The openers within the innermost one that a run closes, that one, and those
around it. -/
def findOpener? (r : Run) : List Opener → Option (List Opener × Opener × List Opener)
  | [] => none
  | o :: rest =>
    if closes r o then some ([], o, rest)
    else (findOpener? r rest).map fun (inner, found, outer) => (o :: inner, found, outer)

/-- Pairs of marks wrap the content first, then a single one. -/
def wrap (mark : Char) : Nat → List Inline → List Inline
  | 0, content => content
  | 1, content => [.span (if mark == '~' then .strikethrough else .emphasis) content]
  | n + 2, content =>
    wrap mark n [.span (if mark == '~' then .strikethrough else .strong) content]

/-- Closes openers with a run of which `left` marks remain; returns how many are left
over. -/
def closeRun (r : Run) : Nat → Nat → Spans → Nat × Spans
  | 0, left, s => (left, s)
  | fuel + 1, left, s =>
    if left = 0 then (0, s)
    else
      let eligible :=
        if r.mark == '~' then s.openers.take (s.openers.length - s.tildeFloor) else s.openers
      match findOpener? r eligible with
      | none =>
        (left, if r.mark == '~' then { s with tildeFloor := s.openers.length } else s)
      | some (inner, o, _) =>
        let outer := s.openers.drop (inner.length + 1)
        let n := min left o.left
        let wrapped := wrap r.mark n (literalContent inner ++ o.after).reverse
        let floor := min s.tildeFloor outer.length
        let s : Spans :=
          if n < o.left then
            ⟨s.base, { o with left := o.left - n, after := wrapped.reverse } :: outer, floor⟩
          else wrapped.foldl push ⟨s.base, outer, floor⟩
        closeRun r fuel (left - n) s

def addRun (s : Spans) (r : Run) : Spans :=
  let (left, s) := if r.canClose then closeRun r r.length r.length s else (r.length, s)
  if left = 0 then s
  else if r.canOpen then
    { s with openers := ⟨r.mark, left, r.length, r.canOpen && r.canClose, []⟩ :: s.openers }
  else s.push (literalRun r.mark left)

def add (s : Spans) : Piece → Spans
  | .inline x => s.push x
  | .backslashBreak => s.push .hardBreak
  | .run r => s.addRun r

def close (s : Spans) : List Inline := (literalContent s.openers ++ s.base).reverse

end Spans

def resolveRuns (pieces : List Piece) : List Inline :=
  (pieces.foldl Spans.add ⟨[], [], 0⟩).close

end DotDiagram.Markdown
