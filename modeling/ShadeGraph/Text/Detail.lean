/-!
# Texts without details

Some phrases announce a detail that is of no use to a reader. What stands behind such a phrase, up to
the end of the line, is left out.
-/

namespace ShadeGraph.Text

/-- A line up to the end of the first of the phrases in it. -/
def cutLine (phrases : List (List Char)) : List Char → List Char
  | [] => []
  | c :: rest =>
    match phrases.find? (·.isPrefixOf (c :: rest)) with
    | some phrase => phrase
    | none => c :: cutLine phrases rest

/-- Every line up to the end of the first of the phrases in it. -/
def cutDetails (phrases : List String) (s : String) : String :=
  "\n".intercalate
    ((s.splitOn "\n").map fun line =>
      String.ofList (cutLine (phrases.map (·.toList)) line.toList))

end ShadeGraph.Text
