/-
  File names: which kind of document a file holds, told by its extension.

  The extension is what follows the last point of the last component of a
  path, unless the component starts with that point.  Slashes at the end do
  not count, and neither do components `.`, except in front; a component `..`
  has no extension.
-/

namespace ValueGraph

/-- The kinds of documents. -/
inductive DocumentKind where
  | json
  | yaml
deriving DecidableEq, Repr

namespace FileName

/-- The components of a path: the parts between slashes, without the empty
    ones. -/
def components (path : String) : List String :=
  ((path.toList.splitOn '/').map String.ofList).filter (· ≠ "")

/-- The name of the file that a path leads to, if its last component is a
    name. -/
def last? (path : String) : Option String :=
  match (components path).reverse.dropWhile (· = ".") with
  | name :: _ => if name = ".." then none else some name
  | [] => none

/-- The extension of a file name: what follows its last point, unless that is
    the first character. -/
def extensionOf? (name : String) : Option String :=
  let backwards := name.toList.reverse
  match backwards.dropWhile (· ≠ '.') with
  | _ :: _ :: _ => some (String.ofList (backwards.takeWhile (· ≠ '.')).reverse)
  | _ => none

/-- The extension of the file that a path leads to, in lower case.  Only ASCII
    letters change: no other character has a lower case among the letters of
    the known extensions. -/
def extension? (path : String) : Option String :=
  ((last? path).bind extensionOf?).map fun name => String.ofList (name.toList.map Char.toLower)

/-- The kind of document that an extension announces. -/
def kind? (path : String) : Option DocumentKind :=
  match extension? path with
  | some "json" | some "jsonc" | some "json5" => some .json
  | some "yaml" | some "yml" => some .yaml
  | _ => none

end FileName

end ValueGraph
