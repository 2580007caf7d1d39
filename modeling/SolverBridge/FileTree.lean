/-! Files, as far as writing a text to a path depends on them. A path is followed from
the root or from the current directory, name by name, through directories. Writing makes
the file or replaces its text. A device takes a text without keeping it, or takes
none. -/

namespace SolverBridge

/-- What a path can lead to. -/
inductive FileNode
  | file (text : String)
  | directory
  /-- A device that keeps nothing. -/
  | null
  /-- A device without space. -/
  | full
  deriving DecidableEq, Repr

/-- Why a text cannot be written. -/
inductive FileFault
  | missing
  | notDirectory
  | isDirectory
  | noSpace
  | nameTooLong
  /-- The path contains the character that ends names. -/
  | nulCharacter
  deriving DecidableEq, Repr

def FileFault.message : FileFault → String
  | .missing => "No such file or directory (os error 2)"
  | .notDirectory => "Not a directory (os error 20)"
  | .isDirectory => "Is a directory (os error 21)"
  | .noSpace => "No space left on device (os error 28)"
  | .nameTooLong => "File name too long (os error 36)"
  | .nulCharacter => "file name contained an unexpected NUL byte"

/-- A place in the tree: the names from the root. -/
abbrev FilePlace := List String

structure FileTree where
  nodes : List (FilePlace × FileNode) := []
  current : FilePlace := []
  deriving Repr

namespace FileTree

/-- A tree with the usual directories and devices. -/
def standard : FileTree where
  nodes :=
    ["bin", "dev", "etc", "home", "lib", "opt", "proc", "root", "run", "sbin", "srv", "sys", "tmp",
      "usr", "var"].map (fun name => ([name], .directory)) ++
    [(["dev", "null"], .null), (["dev", "full"], .full), (["etc", "passwd"], .file "")]

/-- The root is a directory, and everything else is what the tree says. -/
def node? (t : FileTree) (place : FilePlace) : Option FileNode :=
  if place = [] then some .directory else t.nodes.lookup place

/-- The longest name and the longest path, in bytes; a path has one more at its end. -/
def maxName : Nat := 255

def maxPath : Nat := 4095

/-- One step on the way to a file. -/
def enter (t : FileTree) (here : FilePlace) (name : String) : Except FileFault FilePlace :=
  if name = "." then .ok here
  else if name = ".." then .ok here.dropLast
  else if maxName < name.utf8ByteSize then .error .nameTooLong
  else
    match t.node? (here ++ [name]) with
    | some .directory => .ok (here ++ [name])
    | some _ => .error .notDirectory
    | none => .error .missing

/-- The place that a path of a file to be written leads to. A path that ends with a slash
can only lead to a directory. -/
def placeOf (t : FileTree) (path : String) : Except FileFault FilePlace :=
  let start := if path.startsWith "/" then [] else t.current
  let names := (path.splitOn "/").filter (· ≠ "")
  if path.contains '\x00' then .error .nulCharacter
  else if path.isEmpty then .error .missing
  else if maxPath < path.utf8ByteSize then .error .nameTooLong
  else
    (names.dropLast.foldlM t.enter start).bind fun here =>
      match names.getLast? with
      | none => .error .isDirectory
      | some name =>
        if name = "." ∨ name = ".." ∨ path.endsWith "/" then .error .isDirectory
        else if maxName < name.utf8ByteSize then .error .nameTooLong
        else .ok (here ++ [name])

/-- Keeps a text as a file. -/
def put (t : FileTree) (place : FilePlace) (text : String) : FileTree :=
  { t with nodes := (place, .file text) :: t.nodes.filter (·.1 ≠ place) }

/-- The tree after a text was written. -/
def write (t : FileTree) (path text : String) : Except FileFault FileTree :=
  (t.placeOf path).bind fun place =>
    match t.node? place with
    | none | some (.file _) => .ok (t.put place text)
    | some .directory => .error .isDirectory
    | some .null => .ok t
    | some .full => .error .noSpace

/-- The text of a file. -/
def read? (t : FileTree) (path : String) : Option String :=
  match t.placeOf path with
  | .ok place =>
    match t.node? place with
    | some (.file text) => some text
    | _ => none
  | .error _ => none

end FileTree

end SolverBridge
