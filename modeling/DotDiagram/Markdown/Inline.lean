import DotDiagram.Markdown.Event

/-! The content of a Markdown paragraph as a tree of spans. -/

namespace DotDiagram.Markdown

inductive SpanKind where
  | emphasis | strong | strikethrough | link | image
  deriving DecidableEq

def SpanKind.tag : SpanKind → Tag
  | .emphasis => .emphasis
  | .strong => .strong
  | .strikethrough => .strikethrough
  | .link => .link
  | .image => .image

inductive Inline where
  | text (s : String)
  | code (s : String)
  | html (s : String)
  | softBreak
  | hardBreak
  | span (kind : SpanKind) (content : List Inline)

mutual

def Inline.events : Inline → List Event
  | .text s => [.text s]
  | .code s => [.code s]
  | .html s => [.html s]
  | .softBreak => [.softBreak]
  | .hardBreak => [.hardBreak]
  | .span kind content => .start kind.tag :: (inlineEvents content ++ [.stop])

def inlineEvents : List Inline → List Event
  | [] => []
  | x :: xs => x.events ++ inlineEvents xs

end

end DotDiagram.Markdown
