/-! Handles of the things made in a workspace. They are numbered by kind, in the order
of their making. -/

namespace DotDiagram

structure NodeId where
  index : Nat
  deriving DecidableEq, Inhabited

structure EdgeId where
  index : Nat
  deriving DecidableEq, Inhabited

structure SubgraphId where
  index : Nat
  deriving DecidableEq, Inhabited

structure GraphId where
  index : Nat
  deriving DecidableEq, Inhabited

end DotDiagram
