/-
# Files

The program looks at files through one question: what is at a path?  The answer (`Entry`) is the
bytes of a file, or the cause why something that is there cannot be read, or the cause why there
is nothing.

`FileTree` answers it for a finite tree of names.  A path is a list of names divided by slashes;
an empty name and `.` stay where they are, `..` goes to the directory above, and only a directory
has anything below it.  A path has up to 4095 bytes and a name up to 255, and neither holds U+0000.
-/
import CpScan.Failure

namespace CpScan

/-! ## 1. What is at a path -/

/-- What is at a path. -/
inductive Entry where
  /-- A file with these bytes. -/
  | file (bytes : List UInt8)
  /-- Something that cannot be read, such as a directory. -/
  | unreadable (cause : IoCause)
  /-- Nothing. -/
  | absent (cause : IoCause)
deriving DecidableEq, Repr

namespace Entry

/-- Whether there is anything. -/
def isPresent : Entry → Bool
  | absent _ => false
  | _ => true

/-- The bytes of a file, or the cause why there are none. -/
def read : Entry → Except IoCause (List UInt8)
  | file bytes => .ok bytes
  | unreadable cause => .error cause
  | absent cause => .error cause

end Entry

/-- The files that can be seen: what is at each path. -/
abbrev Files := String → Entry

/-! ## 2. Paths -/

/-- The names of a path, divided at the slashes. -/
def pathNames (path : String) : List String := path.splitOn "/"

/-- The greatest number of bytes of a path. -/
def longestPath : Nat := 4095

/-- The greatest number of bytes of a name. -/
def longestName : Nat := 255

/-- One path behind another: the second by itself if it is absolute or the first is empty. -/
def joinPath (first second : String) : String :=
  if first.isEmpty || second.startsWith "/" then second
  else if first.endsWith "/" then first ++ second
  else first ++ "/" ++ second

/-! ## 3. A finite tree of files -/

/-- A place in a tree. -/
inductive Node where
  | file (bytes : List UInt8)
  | directory
deriving DecidableEq, Repr

/-- What is at a place in a tree. -/
def Node.entry : Node → Entry
  | file bytes => .file bytes
  | directory => .unreadable .isDirectory

/-- The places of a tree, each by the names from the top.  A name with anything below it is a
directory without being listed. -/
structure FileTree where
  nodes : List (List String × Node)
deriving Repr

namespace FileTree

/-- The place with these names from the top. -/
def node? (t : FileTree) (names : List String) : Option Node :=
  match t.nodes.find? (fun n => n.1 == names) with
  | some (_, node) => some node
  | none =>
    if names.isEmpty || t.nodes.any (fun n => names.isPrefixOf n.1) then some .directory else none

/-- Walk from a place, given by its names, the last first, along the names of a path; at the top,
`..` stays there. -/
def walk (t : FileTree) (place : List String) : List String → Entry
  | [] =>
    match t.node? place.reverse with
    | some node => node.entry
    | none => .absent .notFound
  | name :: more =>
    match t.node? place.reverse with
    | some .directory =>
      if name = "" ∨ name = "." then t.walk place more
      else if name = ".." then t.walk place.tail more
      else if longestName < name.utf8ByteSize then .absent .nameTooLong
      else t.walk (name :: place) more
    | some (.file _) => .absent .notDirectory
    | none => .absent .notFound

/-- The tree as seen from the directory with the names `home` from the top. -/
def seenFrom (t : FileTree) (home : List String) : Files := fun path =>
  if path.contains '\x00' then .absent .nulInPath
  else if path.isEmpty then .absent .notFound
  else if longestPath < path.utf8ByteSize then .absent .nameTooLong
  else t.walk (if path.startsWith "/" then [] else home.reverse) (pathNames path)

end FileTree

end CpScan
