import TagSearch.Text.Pieces

/-! File paths: names between slashes. Empty names and single points lead nowhere. -/
namespace TagSearch.Path

/-- What stands between the slashes of a path. -/
def pieces (path : String) : List (List Char) := Text.pieces (· = '/') path.toList

def isAbsolute (path : String) : Bool := path.toList.head? = some '/'

/-- Whether a path can only mean a folder. -/
def endsInSlash (path : String) : Bool := path.toList.getLast? = some '/'

/-- A piece that leads nowhere, unless it comes first. -/
def isIdle (piece : List Char) : Bool := piece.isEmpty || piece = ['.']

/-- The names of a path that lead somewhere. A point counts where a relative path starts with it. -/
def names (path : String) : List String :=
  match pieces path with
  | [] => []
  | first :: rest =>
    (if first.isEmpty then [] else [String.ofList first]) ++
      (rest.filter fun piece => !isIdle piece).map String.ofList

/-- The last name, if the path ends in a name and not in a step upwards or on the spot. -/
def fileName? (path : String) : Option String :=
  match (names path).getLast? with
  | some ".." => none
  | some "." => none
  | last => last

/-- What follows the last point of a name, unless the point is its first character. -/
def extensionOf? (name : List Char) : Option (List Char) :=
  let extension := (name.reverse.takeWhile (· ≠ '.')).reverse
  if extension.length + 1 < name.length then some extension else none

def extension? (path : String) : Option String :=
  (fileName? path).bind fun name => (extensionOf? name.toList).map String.ofList

/-- The path of its first piece and the pieces after it, without idle pieces at the end. -/
def ofPieces (first : List Char) (rest : List (List Char)) : String :=
  let kept := (rest.reverse.dropWhile isIdle).reverse
  if first.isEmpty && kept.isEmpty then "/"
  else String.intercalate "/" ((first :: kept).map String.ofList)

/-- The path without its last name; a path without names has no parent. What leads to the parent stays as it is
written. -/
def parent? (path : String) : Option String :=
  match pieces path with
  | [] => none
  | first :: rest =>
    match rest.reverse.dropWhile isIdle with
    | [] => if first.isEmpty then none else some ""
    | _ :: outer => some (ofPieces first outer.reverse)

/-- A path and its parents, the nearest first; no path has more parents than characters. -/
def ancestorsFrom : Nat → String → List String
  | 0, path => [path]
  | n + 1, path =>
    path :: match parent? path with
      | some outer => ancestorsFrom n outer
      | none => []

def ancestors (path : String) : List String := ancestorsFrom path.length path

/-- A path inside a folder; an absolute path stays. -/
def join (folder path : String) : String :=
  if isAbsolute path || folder.isEmpty then path
  else if endsInSlash folder then folder ++ path
  else folder ++ "/" ++ path

end TagSearch.Path
