import NodeHealth.Bytes
import NodeHealth.IoFailure

/-!
# Files and directories

A tree of files. A path leads through directories only; `.` and empty parts of it stay where
they are and `..` goes up. The working directory, the directories above it and the root
exist in any case.
-/

namespace NodeHealth

/-- What lies at a place of a tree. -/
inductive FileNode
  | file (content : Bytes)
  | directory
  deriving DecidableEq, Repr

/-- A place in a tree: the names that lead to it from the working directory, of which the
first may be `/` for the root, or `..` once or more. -/
abbrev Place := List String

/-- Files and directories. -/
structure FileTree where
  nodes : List (Place × FileNode) := []
  deriving DecidableEq, Repr

namespace FileTree

/-- Whether a place is the working directory or lies above it. -/
def isAncestor (place : Place) : Bool :=
  place.all (· = "..") || place = ["/"]

/-- The place one level up. -/
def above (place : Place) : Place :=
  if place = ["/"] then place
  else if isAncestor place then place ++ [".."]
  else place.dropLast

/-- What lies at a place, if anything. -/
def node? (tree : FileTree) (place : Place) : Option FileNode :=
  if isAncestor place then some .directory else tree.nodes.lookup place

/-- Put something at a place. -/
def put (tree : FileTree) (place : Place) (node : FileNode) : FileTree :=
  ⟨(place, node) :: tree.nodes.filter fun entry => entry.1 ≠ place⟩

/-- What was put at a place lies there. -/
theorem node?_put (tree : FileTree) {place : Place} (node : FileNode)
    (h : isAncestor place = false) : (tree.put place node).node? place = some node := by
  simp [node?, put, h]

/-- Go from a place along the parts of a path; all but the last place have to be
directories. -/
def walk (tree : FileTree) : Place → List String → Except IoCause Place
  | place, [] => .ok place
  | place, part :: rest =>
      match tree.node? place with
      | none => .error .notFound
      | some (.file _) => .error .notADirectory
      | some .directory =>
          if part = "" ∨ part = "." then tree.walk place rest
          else if part = ".." then tree.walk (above place) rest
          else tree.walk (place ++ [part]) rest

/-- Where a path begins. -/
def origin (path : String) : Place :=
  if path.startsWith "/" then ["/"] else []

/-- The place to which a path leads. -/
def resolve (tree : FileTree) (path : String) : Except IoCause Place :=
  if path = "" then .error .notFound else tree.walk (origin path) (path.splitOn "/")

/-- Whether a path leads to something. -/
def contains (tree : FileTree) (path : String) : Bool :=
  match tree.resolve path with
  | .ok place => (tree.node? place).isSome
  | .error _ => false

/-- The content of a file. -/
def read (tree : FileTree) (path : String) : Except IoCause Bytes := do
  match tree.node? (← tree.resolve path) with
  | some (.file content) => .ok content
  | some .directory => .error .isADirectory
  | none => .error .notFound

/-- The parts of a path with a slash at its end that come before the last name. -/
def partsBefore (path : String) : List String :=
  ((path.splitOn "/").reverse.dropWhile (· = "")).tail.reverse

/-- Give a file its content; the file is created if it does not exist. A path with a slash at
its end means a directory, whether or not it exists. -/
def write (tree : FileTree) (path : String) (content : Bytes) : Except IoCause FileTree := do
  if path.endsWith "/" then
    let _ ← tree.walk (origin path) (partsBefore path ++ [""])
    throw .isADirectory
  let place ← tree.resolve path
  match tree.node? place with
  | some .directory => .error .isADirectory
  | _ => .ok (tree.put place (.file content))

/-- The parts of a path that change the place. -/
def parts (path : String) : List String :=
  (path.splitOn "/").filter fun part => part ≠ "" ∧ part ≠ "."

/-- Create one directory, unless it is there already. -/
def createDirectory (tree : FileTree) (origin : Place) (parts : List String) :
    Except IoCause FileTree := do
  let place ← tree.walk origin parts
  match tree.node? place with
  | some .directory => .ok tree
  | some (.file _) => .error .alreadyExists
  | none => .ok (tree.put place .directory)

/-- Create the directory to which parts, the last one first, lead, and those above it. -/
def createDirectories (tree : FileTree) (origin : Place) :
    (reversed : List String) → Except IoCause FileTree
  | [] => .ok tree
  | part :: above =>
      match tree.createDirectory origin (part :: above).reverse with
      | .error .notFound => do
          let tree ← tree.createDirectories origin above
          tree.createDirectory origin (part :: above).reverse
      | result => result

/-- Create the directory to which a path leads, and those above it. -/
def createPath (tree : FileTree) (path : String) : Except IoCause FileTree :=
  tree.createDirectories (origin path) (parts path).reverse

/-- Create the directory in which a path lies, and those above it. -/
def createParents (tree : FileTree) (path : String) : Except IoCause FileTree :=
  tree.createDirectories (origin path) (parts path).dropLast.reverse

end FileTree

end NodeHealth
