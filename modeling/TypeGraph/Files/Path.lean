import TypeGraph.Text.Split

/-! Paths as they are written: names with slashes between them. -/

namespace TypeGraph.Files

namespace Path

/-- The names of a path, with empty ones where slashes follow each other. -/
def pieces (path : String) : List String := (Text.pieces '/' path.toList).map String.ofList

/-- Whether a path starts from the top of all files. -/
def isAbsolute (path : String) : Bool := path.toList.head? = some '/'

/-- Whether a path ends with a slash. -/
def endsWithSlash (path : String) : Bool := path.toList.getLast? = some '/'

/-- The steps that a path asks for; a slash at its end asks to stay in a directory. -/
def steps (path : String) : List String :=
  (pieces path).filter (· ≠ "") ++ if endsWithSlash path then ["."] else []

/-- The path of something in a directory with a path. -/
def join (directory name : String) : String :=
  if endsWithSlash directory then directory ++ name else directory ++ "/" ++ name

/-- Whether a name leads nowhere. -/
def isIdle (name : String) : Bool := name = "" || name = "."

/-- The path before the last name; names that lead nowhere count only at the very start. -/
def parent? (path : String) : Option String :=
  match pieces path with
  | [] => none
  | first :: rest => match rest.reverse.dropWhile isIdle with
    | [] => if first = "" then none else some ""
    | _ :: before => match before.dropWhile isIdle with
      | [] => some (if first = "" then "/" else first)
      | kept => some ("/".intercalate (first :: kept.reverse))

/-- The directory in which the last name of a path stands. -/
def directory (path : String) : String :=
  match parent? path with
  | none | some "" => "."
  | some parent => parent

/-- The part of a file name after its last dot, if something stands before that dot. -/
def extension? (name : String) : Option String :=
  let last := name.toList.reverse.takeWhile (· ≠ '.')
  match name.toList.reverse.drop last.length with
  | [] | [_] => none
  | _ :: _ :: _ => some (String.ofList last.reverse)

/-- The paths that start a path, shortest first, without the path itself. -/
def ancestors (path : String) : List String :=
  let names := pieces path
  (List.range names.length).filterMap fun count =>
    let start := "/".intercalate (names.take count)
    if start = "" then none else some start

end Path

end TypeGraph.Files
