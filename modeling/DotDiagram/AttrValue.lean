import DotDiagram.Decimal.Shortest

/-! Attribute values and their two texts: the plain one, and the one written into
a document. Markup bodies stand between angle brackets, all else between quotes. -/

namespace DotDiagram

inductive AttrValue where
  | text (s : String)
  | integer (n : Int)
  | number (x : Binary64)
  | flag (b : Bool)
  | markup (body : String)
  deriving DecidableEq, Inhabited

/-- Backslashes and quotes get a backslash in front. -/
def escapeChar (c : Char) : List Char :=
  if c = '\\' then ['\\', '\\'] else if c = '"' then ['\\', '"'] else [c]

def escape (s : String) : String := String.ofList (s.toList.flatMap escapeChar)

def quoted (s : String) : String := "\"" ++ escape s ++ "\""

namespace AttrValue

instance : Coe String AttrValue := ⟨.text⟩

def isMarkup : AttrValue → Bool
  | .markup _ => true
  | _ => false

/-- The characters of a text or of markup. -/
def characters? : AttrValue → Option String
  | .text s | .markup s => some s
  | _ => none

def display : AttrValue → String
  | .text s | .markup s => s
  | .integer n => toString n
  | .number x => x.text
  | .flag b => if b then "true" else "false"

/-- Integers are displayed in decimal digits, behind a sign if they are negative, and flags in
words. -/
theorem display_integer_flag :
    (∀ n : Int, (integer n).display.toList =
      (if n < 0 then ['-'] else []) ++ Nat.toDigits 10 n.natAbs) ∧
    (flag true).display = "true" ∧ (flag false).display = "false" := by
  have hdigits (n : Nat) : (toString n).toList = Nat.toDigits 10 n := by
    rw [Nat.toString_eq_ofList_toDigits, String.toList_ofList]
  refine ⟨fun n => ?_, rfl, rfl⟩
  cases n with
  | ofNat n => exact hdigits n
  | negSucc n =>
    have hsign : (integer (.negSucc n)).display = "-" ++ toString (n + 1) := rfl
    rw [hsign, String.toList_append, hdigits, if_pos (Int.negSucc_lt_zero n)]
    rfl

def written : AttrValue → String
  | .markup body => "<" ++ body ++ ">"
  | v => quoted v.display

/-- Equality of values, numbers taken as numbers. -/
def same : AttrValue → AttrValue → Bool
  | .number x, .number y => x.sameNumber y
  | v, w => v == w

end AttrValue

end DotDiagram
