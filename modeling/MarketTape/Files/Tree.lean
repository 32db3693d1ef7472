import MarketTape.Files.Path

/-!
# File trees

A run reads and writes files, and what it reads decides what it reports.  So files are part of the
program's data: a tree of directories with files of known content, seen from a working directory.

* `Node` is a file or a directory; `FileProblem` says why an operation on a path fails.
* `FileTree` is a tree together with the directory that relative paths start from.
* `FileTree.flawOf?` rules out paths that name nothing, whatever the files are, and
  `FileTree.locate` follows a path to the names that lead to its target.
* `FileTree.read`, `FileTree.list` and `FileTree.write` read a file, list a directory and write a
  file.
* `FileTree.place` and `FileTree.makeDirectory` build a tree path by path.
-/

namespace MarketTape

/-- A file with its bytes and the nanosecond at which it was last changed, or a directory with its
entries, in no particular order. -/
inductive Node where
  | file (content : List UInt8) (modified : Int)
  | dir (entries : List (String × Node))
  deriving Inhabited

/-- Why an operation on a path fails: there is nothing at the path, a part of it that should be a
directory is not one, it leads to a directory where a file is needed, the file does not hold text,
the path holds the zero character, which is part of no name, or the path, or a name in it, is longer
than any that a file can have. -/
inductive FileProblem
  | missing
  | notDirectory
  | isDirectory
  | notText
  | zeroInPath
  | tooLong
  deriving DecidableEq, Repr

def FileProblem.message : FileProblem → String
  | missing => "No such file or directory (os error 2)"
  | notDirectory => "Not a directory (os error 20)"
  | isDirectory => "Is a directory (os error 21)"
  | notText => "stream did not contain valid UTF-8"
  | zeroInPath => "file name contained an unexpected NUL byte"
  | tooLong => "File name too long (os error 36)"

namespace Node

/-! ## Following names -/

def child? (name : String) : List (String × Node) → Option Node
  | [] => none
  | (other, node) :: rest => if other = name then some node else child? name rest

/-- What lies at a sequence of names. -/
def get? : Node → List String → Option Node
  | node, [] => some node
  | file _ _, _ :: _ => none
  | dir entries, name :: rest =>
    match child? name entries with
    | some node => node.get? rest
    | none => none

/-- Replaces the entry of a directory, or adds it at the end. -/
def setChild (name : String) (node : Node) : List (String × Node) → List (String × Node)
  | [] => [(name, node)]
  | (other, old) :: rest =>
    if other = name then (name, node) :: rest else (other, old) :: setChild name node rest

/-- A written entry is found under its name, and no other name notices. -/
theorem child?_setChild (name : String) (node : Node) (entries : List (String × Node))
    (other : String) :
    child? other (setChild name node entries) =
      if other = name then some node else child? other entries := by
  induction entries with
  | nil => simp [setChild, child?, eq_comm]
  | cons entry rest ih =>
    by_cases h : entry.1 = name <;> by_cases ho : other = name <;>
      simp_all [setChild, child?, eq_comm]

/-- Puts a node at a sequence of names.  Directories on the way that do not exist are made; nothing
changes below a file. -/
def set (node : Node) (names : List String) (new : Node) : Node :=
  match names with
  | [] => new
  | name :: rest =>
    match node with
    | file content modified => file content modified
    | dir entries =>
      dir (setChild name (((child? name entries).getD (dir [])).set rest new) entries)

def textOf? (content : List UInt8) : Option String := String.fromUTF8? ⟨content.toArray⟩

def bytesOf (text : String) : List UInt8 := text.toUTF8.toList

end Node

/-- A tree of files, seen from the directory that the names `here` lead to. -/
structure FileTree where
  top : Node
  here : List String
  deriving Inhabited

namespace FileTree

/-! ## Following paths -/

/-- The greatest number of bytes in a name. -/
def longestName : Nat := 255

/-- The greatest number of bytes in a path. -/
def longestPath : Nat := 4095

/-- What rules a path out before any file is looked at. -/
def flawOf? (path : String) : Option FileProblem :=
  if path = "" then some .missing
  else if path.toList.contains (Char.ofNat 0) then some .zeroInPath
  else if longestPath < path.utf8ByteSize then some .tooLong
  else none

/-- One step along a path, from the names that lead to a directory.  The parts that are empty or a
single dot stand for the directory itself, two dots for the one above; above the top is the top. -/
def step (files : FileTree) (names : List String) (part : List Char) :
    Except FileProblem (List String) :=
  match files.top.get? names with
  | none => .error .missing
  | some (.file _ _) => .error .notDirectory
  | some (.dir entries) =>
    if part = [] ∨ part = ['.'] then .ok names
    else if part = ['.', '.'] then .ok names.dropLast
    else
      let name := String.ofList part
      if longestName < name.utf8ByteSize then .error .tooLong
      else
        match Node.child? name entries with
        | some _ => .ok (names ++ [name])
        | none => .error .missing

/-- The names that a path starts from, and its parts. -/
def split (files : FileTree) (path : String) : List String × List (List Char) :=
  match path.toList with
  | '/' :: rest => ([], Path.parts rest)
  | cs => (files.here, Path.parts cs)

/-- Follows parts from the names that lead to a directory. -/
def follow (files : FileTree) : List String → List (List Char) → Except FileProblem (List String)
  | names, [] => .ok names
  | names, part :: rest =>
    match files.step names part with
    | .ok names => follow files names rest
    | .error e => .error e

/-- The names that lead to what a path stands for. -/
def locate (files : FileTree) (path : String) : Except FileProblem (List String) :=
  match flawOf? path with
  | some problem => .error problem
  | none =>
    let (names, parts) := files.split path
    files.follow names parts

/-- What a path stands for. -/
def find (files : FileTree) (path : String) : Except FileProblem Node :=
  match files.locate path with
  | .error e => .error e
  | .ok names =>
    match files.top.get? names with
    | some node => .ok node
    | none => .error .missing

/-! ## Files and directories -/

/-- What comes of opening and reading a path: the bytes, or why it cannot be opened, or why it can
be opened and not be read. -/
inductive Reading where
  | bytes (content : List UInt8)
  | unopened (problem : FileProblem)
  | unread (problem : FileProblem)

/-- Opens and reads a file.  A directory can be opened and has no bytes. -/
def read (files : FileTree) (path : String) : Reading :=
  match files.find path with
  | .error e => .unopened e
  | .ok (.file content _) => .bytes content
  | .ok (.dir _) => .unread .isDirectory

def readText (files : FileTree) (path : String) : Except FileProblem String :=
  match files.read path with
  | .unopened e => .error e
  | .unread e => .error e
  | .bytes content =>
    match Node.textOf? content with
    | some text => .ok text
    | none => .error .notText

def list (files : FileTree) (path : String) : Except FileProblem (List (String × Node)) :=
  match files.find path with
  | .error e => .error e
  | .ok (.file _ _) => .error .notDirectory
  | .ok (.dir entries) => .ok entries

/-- The names that lead to a file that is about to be written: all but the last part of the path
lead to a directory, and the last part is a name that does not belong to a directory.  A slash at
the end asks for a directory. -/
def target (files : FileTree) (path : String) : Except FileProblem (List String) :=
  match flawOf? path with
  | some problem => .error problem
  | none =>
    let (start, written) := files.split path
    let named := (written.reverse.dropWhile (· = [])).reverse
    match files.follow start named.dropLast with
    | .error e => .error e
    | .ok parent =>
      match files.top.get? parent with
      | none => .error .missing
      | some (.file _ _) => .error .notDirectory
      | some (.dir entries) =>
        let last := named.getLastD []
        if last = [] ∨ last = ['.'] ∨ last = ['.', '.'] ∨ named.length < written.length then
          .error .isDirectory
        else
          let name := String.ofList last
          if longestName < name.utf8ByteSize then .error .tooLong
          else
            match Node.child? name entries with
            | some (.dir _) => .error .isDirectory
            | _ => .ok (parent ++ [name])

/-- Writes a file, replacing its content. -/
def write (files : FileTree) (path : String) (content : List UInt8) :
    Except FileProblem FileTree :=
  match files.target path with
  | .error e => .error e
  | .ok names => .ok { files with top := files.top.set names (.file content 0) }

/-! ## Building a tree -/

/-- Makes the directories along the parts of a path, as far as they do not exist, and gives the
names that lead to the last one.  A directory that the path leaves again by two dots is made too. -/
def makeWay : FileTree → List String → List (List Char) → FileTree × List String
  | files, names, [] => (files, names)
  | files, names, part :: rest =>
    if part = [] ∨ part = ['.'] then makeWay files names rest
    else if part = ['.', '.'] then makeWay files names.dropLast rest
    else
      let names := names ++ [String.ofList part]
      let top := match files.top.get? names with
        | some _ => files.top
        | none => files.top.set names (.dir [])
      makeWay { files with top } names rest

/-- Makes a directory, with the directories on the way to it. -/
def makeDirectory (files : FileTree) (path : String) : FileTree :=
  let (names, parts) := files.split path
  (files.makeWay names parts).1

/-- Puts a file at a path, with the directories on the way to it. -/
def place (files : FileTree) (path : String) (content : List UInt8) (modified : Int) : FileTree :=
  let (names, parts) := files.split path
  let (files, names) := files.makeWay names parts.dropLast
  let names := names ++ [String.ofList (parts.getLastD [])]
  { files with top := files.top.set names (.file content modified) }

end FileTree

end MarketTape
