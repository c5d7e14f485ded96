import PercentFormat.Fault
import PercentFormat.Storage.Path

/-! # File trees

A tree of directories and files with a working directory. Paths are followed part by part; all parts
but the last have to be directories that are there. -/

namespace PercentFormat

inductive FileTree.Node
  | file (bytes : ByteArray)
  | directory

structure FileTree where
  /-- Nodes by the names on the way to them. The root is not among them. -/
  nodes : List (List String × FileTree.Node) := []
  workingDirectory : List String := []

namespace FileTree

/-- What a path leads to; the last name may be free. -/
inductive Place
  | taken (node : Node)
  | free

def node? (t : FileTree) (way : List String) : Option Node :=
  if way = [] then some .directory else t.nodes.lookup way

def maxName : Nat := 255

def maxPath : Nat := 4095

/-- Follows parts of a path from a directory. -/
def follow (t : FileTree) (way : List String) : List String → Except Fault (List String × Place)
  | [] => .ok (way, .taken .directory)
  | name :: rest =>
    if name = "" ∨ name = "." then t.follow way rest
    else if name = ".." then t.follow way.dropLast rest
    else if maxName < name.utf8ByteSize then .error .nameTooLong
    else
      match t.node? (way ++ [name]) with
      | some .directory => t.follow (way ++ [name]) rest
      | some (.file bytes) =>
        if rest = [] then .ok (way ++ [name], .taken (.file bytes)) else .error .notADirectory
      | none => if rest = [] then .ok (way ++ [name], .free) else .error .notFound

def find (t : FileTree) (path : String) : Except Fault (List String × Place) :=
  if path.toList.contains '\x00' then .error .zeroInPath
  else if path = "" then .error .notFound
  else if maxPath < path.utf8ByteSize then .error .nameTooLong
  else t.follow (if Path.isAbsolute path then [] else t.workingDirectory) (Path.parts path)

def isDirectory (t : FileTree) (path : String) : Bool :=
  match t.find path with
  | .ok (_, .taken .directory) => true
  | _ => false

def read (t : FileTree) (path : String) : Except Fault ByteArray :=
  match t.find path with
  | .ok (_, .taken (.file bytes)) => .ok bytes
  | .ok (_, .taken .directory) => .error .isADirectory
  | .ok (_, .free) => .error .notFound
  | .error fault => .error fault

/-- The last name on a way, if the way is just below a directory. -/
def nameIn? (dir way : List String) : Option String :=
  if way.dropLast = dir then way.getLast? else none

def names (t : FileTree) (path : String) : Except Fault (List String) :=
  match t.find path with
  | .ok (way, .taken .directory) => .ok (t.nodes.filterMap fun n => nameIn? way n.1)
  | .ok (_, .taken (.file _)) => .error .notADirectory
  | .ok (_, .free) => .error .notFound
  | .error fault => .error fault

def put (t : FileTree) (way : List String) (node : Node) : FileTree :=
  if (t.node? way).isSome then
    { t with nodes := t.nodes.map fun n => if n.1 = way then (way, node) else n }
  else { t with nodes := t.nodes ++ [(way, node)] }

def write (t : FileTree) (path : String) (bytes : ByteArray) : Except Fault FileTree :=
  match t.find path with
  | .ok (_, .taken .directory) => .error .isADirectory
  | .ok (way, _) => .ok (t.put way (.file bytes))
  | .error fault => .error fault

/-- Makes directories on a way, the first part of which is there. Names that are taken stay. -/
def addDirectories (t : FileTree) (done : List String) : List String → FileTree
  | [] => t
  | name :: rest =>
    let t := if (t.node? (done ++ [name])).isSome then t else t.put (done ++ [name]) .directory
    t.addDirectories (done ++ [name]) rest

def addDirectory (t : FileTree) (way : List String) : FileTree := t.addDirectories [] way

def addFile (t : FileTree) (way : List String) (bytes : ByteArray) : FileTree :=
  (t.addDirectory way.dropLast).put way (.file bytes)

end FileTree

end PercentFormat
