/-!
# Paths

A path is a text whose parts stand between slashes.  Data files are found by the extension of their
name, and the description of a data file lies beside it under a related name.

* `Path.extension?` and `Path.stem` take a file name apart at its last dot.
* `Path.withExtension` replaces the extension of the last part of a path: `Path.cutExtension` takes
  the old one off, `Path.setExtension` puts the new one on.
* `Path.join` puts a path below another one.
-/

namespace MarketTape.Path

/-! ## File names -/

/-- Cuts a file name at its last dot.  A name that has no dot, or only one in front, has no
extension, and neither has the name of the directory above. -/
def splitName (name : List Char) : List Char × Option (List Char) :=
  if name = ['.', '.'] then (name, none)
  else
    let backwards := name.reverse
    match backwards.dropWhile (· != '.') with
    | [] => (name, none)
    | [_] => (name, none)
    | _ :: before => (before.reverse, some (backwards.takeWhile (· != '.')).reverse)

/-- The part of a file name after its last dot. -/
def extension? (name : String) : Option String :=
  (splitName name.toList).2.map String.ofList

/-- The part of a file name before its last dot. -/
def stem (name : String) : String := String.ofList (splitName name.toList).1

/-! ## Whole paths -/

/-- Drops what a path that is written backwards has after its last named part: slashes, and parts
that stand for the directory itself. -/
def dropTail : List Char → List Char
  | '/' :: rest => dropTail rest
  | '.' :: '/' :: rest => dropTail ('/' :: rest)
  | cs => cs
termination_by cs => cs.length

/-- The last named part of a path that is written backwards and without its tail. -/
def lastName (backwards : List Char) : List Char := (backwards.takeWhile (· != '/')).reverse

/-- Takes as many characters off the end of a path as its last part has in its extension.  If
anything follows that part, it still ends in an extension afterwards. -/
def cutExtension (path : List Char) : List Char :=
  let name := lastName (dropTail path.reverse)
  path.take (path.length - ((splitName name).2.getD []).length)

/-- Gives the last part of a path this extension in place of its own.  A path that ends in no name
is left as it is. -/
def setExtension (path extension : List Char) : List Char :=
  let backwards := dropTail path.reverse
  let name := lastName backwards
  if name = [] ∨ name = ['.'] ∨ name = ['.', '.'] then path
  else (backwards.dropWhile (· != '/')).reverse ++ (splitName name).1 ++ '.' :: extension

/-- Replaces the extension of the last part of a path.  What is left of a path when its extension is
gone may end in the directory above, and that takes no extension: `..csv` becomes `..`. -/
def withExtension (path extension : String) : String :=
  String.ofList (setExtension (cutExtension path.toList) extension.toList)

/-- A path below another one.  A path from the root stands for itself. -/
def join (root path : String) : String :=
  if path.startsWith "/" then path
  else if root = "" then path
  else if root.endsWith "/" then root ++ path
  else root ++ "/" ++ path

/-- The parts of a path as they are written, with empty parts between adjacent slashes. -/
def parts : List Char → List (List Char)
  | [] => [[]]
  | c :: rest =>
    match parts rest with
    | [] => [[c]]
    | first :: others => if c = '/' then [] :: first :: others else (c :: first) :: others

/-- Names from the outermost directory inwards, written as one path. -/
def ofNames (names : List String) : String := "/".intercalate names

end MarketTape.Path
