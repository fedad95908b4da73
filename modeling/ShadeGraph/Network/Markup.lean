import ShadeGraph.Text.Points

/-!
# Markup elements

The written form of an element: attributes in their order, characters with a meaning of their own as
entities, and a short form for an element without children. An encoded document refers by number to
code points that its encoding has no form for.
-/

namespace ShadeGraph

inductive Element where
  | mk (tag : String) (attributes : List (String × String)) (children : List Element)

namespace Element

def tag : Element → String
  | mk tag _ _ => tag

def attributes : Element → List (String × String)
  | mk _ attributes _ => attributes

def children : Element → List Element
  | mk _ _ children => children

def get? (e : Element) (name : String) : Option String := e.attributes.lookup name

def escapeChar : Char → String
  | '&' => "&amp;"
  | '<' => "&lt;"
  | '>' => "&gt;"
  | '"' => "&quot;"
  | '\t' => "&#09;"
  | '\n' => "&#10;"
  | '\r' => "&#13;"
  | c => c.toString

def escape (s : String) : String := String.join (s.toList.map escapeChar)

def attributeText (a : String × String) : String := " " ++ a.1 ++ "=\"" ++ escape a.2 ++ "\""

mutual

def render : Element → String
  | mk tag attributes children =>
    let opening := "<" ++ tag ++ String.join (attributes.map attributeText)
    match children with
    | [] => opening ++ " />"
    | _ :: _ => opening ++ ">" ++ renderAll children ++ "</" ++ tag ++ ">"

def renderAll : List Element → String
  | [] => ""
  | e :: es => e.render ++ renderAll es

end

/-- A surrogate that stands alone cannot be encoded. -/
def encodePoint (p : CodePoint) : String :=
  if p.IsSurrogate then s!"&#{p.val};" else Text.spell [p]

/-- A document begins with its version and encoding. -/
def document (e : Element) : String :=
  "<?xml version='1.0' encoding='UTF-8'?>\n" ++
    String.join ((Text.points e.render).map encodePoint)

end Element

end ShadeGraph
