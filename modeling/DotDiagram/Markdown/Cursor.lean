import DotDiagram.Markdown.Spacing

/-! A place in a line, with its column. Tab stops are four columns apart, and the rest
of a tab that was entered in part still counts as spaces. -/

namespace DotDiagram.Markdown

structure Cursor where
  rest : List Char
  column : Nat
  pending : Nat

namespace Cursor

def ofLine (line : List Char) : Cursor := ⟨line, 0, 0⟩

def takeFrom (column : Nat) : Nat → List Char → Nat × Cursor
  | 0, cs => (0, ⟨cs, column, 0⟩)
  | n + 1, ' ' :: cs =>
    let (taken, c) := takeFrom (column + 1) n cs
    (taken + 1, c)
  | n + 1, '\t' :: cs =>
    let width := 4 - column % 4
    if width ≤ n + 1 then
      let (taken, c) := takeFrom (column + width) (n + 1 - width) cs
      (taken + width, c)
    else (n + 1, ⟨cs, column + width, width - (n + 1)⟩)
  | _ + 1, cs => (0, ⟨cs, column, 0⟩)

/-- Takes up to `n` columns of spaces; returns how many there were. -/
def takeSpaces (n : Nat) (c : Cursor) : Nat × Cursor :=
  if n ≤ c.pending then (n, { c with pending := c.pending - n })
  else
    let (taken, after) := takeFrom c.column (n - c.pending) c.rest
    (taken + c.pending, after)

/-- Takes exactly `n` columns of spaces. -/
def spaces? (n : Nat) (c : Cursor) : Option Cursor :=
  let (taken, after) := c.takeSpaces n
  if taken = n then some after else none

def skipSpaces (n : Nat) (c : Cursor) : Cursor := (c.takeSpaces n).2

def skip (n : Nat) (c : Cursor) : Cursor :=
  { c with rest := c.rest.drop n, column := c.column + n }

def atLineEnd (c : Cursor) : Bool := (newline? c.rest).isSome

end Cursor

end DotDiagram.Markdown
