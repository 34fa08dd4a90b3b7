import HouseStyle.Error.Operation
import HouseStyle.Path

/-!
# Files

A tree of files and directories, and the reader of source files. A place in the tree
is a list of names. Databases live in the tree under a number by which their contents
are kept elsewhere.
-/

namespace HouseStyle

inductive FileNode where
  | text (content : String)
  /-- Bytes that are not UTF-8, of which only the number matters. -/
  | binary (size : Nat)
  | database (handle : Nat)
  | directory (entries : List (String × FileNode))
  deriving Inhabited

/-- Why a file cannot be read. -/
inductive ReadFailure where
  | missing
  | notDirectory
  | isDirectory
  | notText
  | nameTooLong
  | notName
  deriving DecidableEq, Repr, Inhabited

def ReadFailure.message : ReadFailure → String
  | missing => "No such file or directory (os error 2)"
  | notDirectory => "Not a directory (os error 20)"
  | isDirectory => "Is a directory (os error 21)"
  | notText => "stream did not contain valid UTF-8"
  | nameTooLong => "File name too long (os error 36)"
  | notName => "file name contained an unexpected NUL byte"

namespace FileNode

def emptyDirectory : FileNode := directory []

def isDirectory : FileNode → Bool
  | directory _ => true
  | _ => false

/-- The number of bytes. -/
def size : FileNode → Nat
  | text content => content.utf8ByteSize
  | binary size => size
  | database _ | directory _ => 4096

/-- The node at a place. -/
def find : FileNode → List String → Except ReadFailure FileNode
  | node, [] => .ok node
  | directory entries, name :: names =>
    match entries.lookup name with
    | some node => node.find names
    | none => .error .missing
  | _, _ :: _ => .error .notDirectory

def exists? (tree : FileNode) (place : List String) : Bool :=
  match tree.find place with
  | .ok _ => true
  | .error _ => false

private def putEntry (name : String) (node : FileNode) :
    List (String × FileNode) → List (String × FileNode)
  | [] => [(name, node)]
  | entry :: entries =>
    if entry.1 == name then (name, node) :: entries else entry :: putEntry name node entries

/-- Put a node at a place and make the directories above it. A file above it gives way. -/
def put (node : FileNode) : FileNode → List String → FileNode
  | _, [] => node
  | directory entries, name :: names =>
    let below := (entries.lookup name).getD emptyDirectory
    directory (putEntry name (put node below names) entries)
  | _, name :: names => directory [(name, put node emptyDirectory names)]

/-- Take away the node at a place. -/
def remove : FileNode → List String → FileNode
  | directory entries, [name] => directory (entries.filter (·.1 != name))
  | directory entries, name :: names =>
    match entries.lookup name with
    | some node => directory (putEntry name (node.remove names) entries)
    | none => directory entries
  | node, _ => node

/-- Make the directories of a place that are missing. Nothing happens to what is there. -/
def makeDirectory (tree : FileNode) (place : List String) : FileNode :=
  if tree.exists? place then tree else emptyDirectory.put tree place

/-- Whether a place is a directory or can be made one: nothing but directories lies on the
way to it. -/
def admitsDirectory (tree : FileNode) (place : List String) : Bool :=
  match tree.find place with
  | .ok node => node.isDirectory
  | .error failure => failure = .missing

/-- Whether a place is a file or can be made one. -/
def admitsFile (tree : FileNode) (place : List String) : Bool :=
  match tree.find place with
  | .ok node => !node.isDirectory
  | .error failure => failure = .missing

/-- The text of a file. -/
def readText (tree : FileNode) (place : List String) : Except ReadFailure String := do
  match ← tree.find place with
  | text content => return content
  | binary _ | database _ => throw .notText
  | directory _ => throw .isDirectory

end FileNode

namespace Path

/-- The names along a path. `..` goes back one name. -/
def namesOf (path : String) : List String :=
  ((segments path.toList).map String.ofList).foldl (fun names segment =>
    if segment = "" ∨ segment = "." then names
    else if segment = ".." then names.dropLast
    else names ++ [segment]) []

/-- The absolute path of a place. A place below a named root starts with the root's name. -/
def ofNames (names : List String) : String := "/".intercalate names

end Path

namespace FileNode

/-- The most bytes that a name may have. -/
def nameBytes : Nat := 255

/-- Walk along the parts of a path from a place, each of which has to be there. Empty parts
and `.` stay where they are, `..` goes back. -/
def walk (tree : FileNode) : List String → List String → Except ReadFailure (List String)
  | place, [] => (tree.find place).map fun _ => place
  | place, part :: parts => do
    if !(← tree.find place).isDirectory then throw .notDirectory
    if part = "" ∨ part = "." then tree.walk place parts
    else if part = ".." then tree.walk place.dropLast parts
    else if nameBytes < part.utf8ByteSize then throw .nameTooLong
    else tree.walk (place ++ [part]) parts

/-- The place that a path leads to from a directory, or from the top when it starts with
a slash, and what is there. -/
def resolve (tree : FileNode) (start : List String) (path : String) :
    Except ReadFailure (List String × FileNode) := do
  if '\x00' ∈ path.toList then throw .notName
  let start := if path.toList.head? = some '/' then [] else start
  let place ← tree.walk start ((Path.segments path.toList).map String.ofList)
  return (place, ← tree.find place)

end FileNode

/-- The text of a source file below a root, if it is at most `limit` bytes long. -/
def readSource (tree : FileNode) (root : List String) (limit : Nat) (path : String) :
    Except ExtractionError String := do
  let failed (failure : ReadFailure) := ExtractionError.readFailed path failure.message
  let (place, node) ← (tree.resolve root path).mapError failed
  if limit < node.size && !node.isDirectory then throw (.tooLarge path node.size limit)
  (tree.readText place).mapError failed

end HouseStyle
