/-!
# File paths

Paths are divided by slashes. The extension of a file name starts at its last dot, unless only dots
stand before it.
-/

namespace ShadeGraph.Text

/-- The part up to and including the last `c`, and the part behind it. -/
def splitAfterLast (c : Char) (cs : List Char) : List Char × List Char :=
  ((cs.reverse.dropWhile (· != c)).reverse, (cs.reverse.takeWhile (· != c)).reverse)

/-- The part behind the last slash. -/
def fileName (path : String) : String := String.ofList (splitAfterLast '/' path.toList).2

/-- The part before the last slash, without the slashes at its end unless there is nothing else. -/
def directoryName (path : String) : String :=
  let head := (splitAfterLast '/' path.toList).1
  if head.all (· == '/') then String.ofList head
  else String.ofList (head.reverse.dropWhile (· == '/')).reverse

/-- A file name as its stem and its extension, the dot with the latter. -/
def splitExtension (name : String) : String × String :=
  let dots := name.toList.takeWhile (· == '.')
  let rest := name.toList.dropWhile (· == '.')
  if rest.contains '.' then
    let (stem, extension) := splitAfterLast '.' rest
    (String.ofList (dots ++ stem.dropLast), String.ofList ('.' :: extension))
  else (name, "")

/-- The stem of the file at a path. -/
def fileStem (path : String) : String := (splitExtension (fileName path)).1

/-- The path of `name` in `directory`. -/
def joinPath (directory name : String) : String :=
  if name.startsWith "/" || directory.isEmpty then name
  else if directory.endsWith "/" then directory ++ name
  else directory ++ "/" ++ name

/-- A name below the path of names, whose last one is in front. -/
def descend (names : List String) (name : String) : List String :=
  if name = "" ∨ name = "." then names
  else if name = ".." then names.tail
  else name :: names

/-- A path from the root without empty names, dots and pairs of dots. Paths that do not begin with a
slash are taken from the root; two slashes in front are kept. -/
def absolutePath (path : String) : String :=
  let names := ((path.splitOn "/").foldl descend []).reverse
  let root := if path.startsWith "//" && !path.startsWith "///" then "//" else "/"
  root ++ "/".intercalate names

end ShadeGraph.Text
