import DocLint.Encoding
import DocLint.Location

/-!
File trees: folders with their files, and what a path leads to.
-/

set_option autoImplicit false

namespace DocLint

inductive Folder where
  | empty
  | file (name : Text) (content : Bytes) (rest : Folder)
  | folder (name : Text) (inside : Folder) (rest : Folder)
  deriving DecidableEq, Repr

inductive Node where
  | file (content : Bytes)
  | folder (inside : Folder)
  deriving DecidableEq, Repr

namespace Node

def isFolder : Node → Bool
  | .folder _ => true
  | .file _ => false

end Node

namespace Folder

def get? (name : Text) : Folder → Option Node
  | .empty => none
  | .file n content rest => if n = name then some (.file content) else rest.get? name
  | .folder n inside rest => if n = name then some (.folder inside) else rest.get? name

def fileNames : Folder → List Text
  | .empty => []
  | .file n _ rest => n :: rest.fileNames
  | .folder _ _ rest => rest.fileNames

def place (name : Text) (node : Option Node) (rest : Folder) : Folder :=
  match node with
  | none => rest
  | some (.file content) => .file name content rest
  | some (.folder inside) => .folder name inside rest

def update (name : Text) (change : Option Node → Option Node) : Folder → Folder
  | .empty => place name (change none) .empty
  | .file n content rest =>
    if n = name then place name (change (some (.file content))) rest
    else if Text.before name n then place name (change none) (.file n content rest)
    else .file n content (rest.update name change)
  | .folder n inside rest =>
    if n = name then place name (change (some (.folder inside))) rest
    else if Text.before name n then place name (change none) (.folder n inside rest)
    else .folder n inside (rest.update name change)

def ofNode : Option Node → Folder
  | some (.folder inside) => inside
  | _ => .empty

/-- Puts something at a path below a folder. Missing folders on the way are made. -/
def put (node : Option Node) : List Text → Folder → Folder
  | [], d => d
  | [name], d => d.update name fun _ => node
  | name :: names, d => d.update name fun old => some (.folder (put node names (ofNode old)))

end Folder

inductive PathFault where
  | missing
  | notAFolder
  | isAFolder
  deriving DecidableEq, Repr

namespace PathFault

def number : PathFault → Nat
  | .missing => 2
  | .notAFolder => 20
  | .isAFolder => 21

def reason : PathFault → Text
  | .missing => "No such file or directory"
  | .notAFolder => "Not a directory"
  | .isAFolder => "Is a directory"

end PathFault

structure FileTree where
  root : Folder
  working : List Text

namespace FileTree

def follow : List Text → List Folder → Folder → Except PathFault Node
  | [], _, here => .ok (.folder here)
  | name :: names, above, here =>
    if name.isEmpty || name = "." then follow names above here
    else if name = ".." then
      match above with
      | [] => follow names [] here
      | up :: more => follow names more up
    else
      match here.get? name with
      | none => .error .missing
      | some (.folder inside) => follow names (here :: above) inside
      | some (.file content) => if names.isEmpty then .ok (.file content) else .error .notAFolder

def workingLocation (t : FileTree) : Text := '/' :: Text.join "/" t.working

def find (t : FileTree) (location : Text) : Except PathFault Node :=
  if location.isEmpty then .error .missing
  else if Location.isAbsolute location then follow (Text.splitOn '/' location) [] t.root
  else follow (t.working ++ Text.splitOn '/' location) [] t.root

def isFolder (t : FileTree) (location : Text) : Bool :=
  match t.find location with
  | .ok node => node.isFolder
  | .error _ => false

def isFile (t : FileTree) (location : Text) : Bool :=
  match t.find location with
  | .ok node => !node.isFolder
  | .error _ => false

def exists? (t : FileTree) (location : Text) : Bool :=
  match t.find location with
  | .ok _ => true
  | .error _ => false

def read (t : FileTree) (location : Text) : Except PathFault Bytes :=
  match t.find location with
  | .ok (.file content) => .ok content
  | .ok (.folder _) => .error .isAFolder
  | .error e => .error e

def absolute (t : FileTree) (location : Text) : Text := Location.absolute t.workingLocation location

/-- Puts something at a path below the working folder. A path that ends in a slash is a folder. -/
def put (t : FileTree) (path : Text) (content : Option Bytes) : FileTree :=
  let names := (Text.splitOn '/' path).filter (!·.isEmpty)
  let node : Option Node :=
    if path.getLast? = some '/' then some (.folder .empty) else content.map .file
  { t with root := t.root.put node (t.working ++ names) }

def ofWorking (working : List Text) : FileTree :=
  { root := Folder.empty.put (some (.folder .empty)) working, working }

end FileTree

end DocLint
