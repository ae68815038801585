/-! The direction in which ranks are laid out. -/

namespace DotDiagram

inductive RankDir where
  | topBottom | bottomTop | leftRight | rightLeft
  deriving DecidableEq, Repr, Inhabited

def RankDir.name : RankDir → String
  | .topBottom => "TB"
  | .bottomTop => "BT"
  | .leftRight => "LR"
  | .rightLeft => "RL"

/-- ASCII case does not matter, and `TD` is another name of `TB`. -/
def RankDir.ofText? (text : String) : Option RankDir :=
  match String.ofList (text.toList.map Char.toUpper) with
  | "TB" | "TD" => some .topBottom
  | "BT" => some .bottomTop
  | "LR" => some .leftRight
  | "RL" => some .rightLeft
  | _ => none

end DotDiagram
