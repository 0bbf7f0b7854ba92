import DocLint.Resources.Builtin
import DocLint.Run

/-!
The command line: takes up the files that a run can look at, runs it, and writes what it says.
-/

set_option autoImplicit false

namespace DocLint

/-- The contents of a folder with all below it. Links to folders are not followed. -/
partial def takeEntries (entries : Array IO.FS.DirEntry) : IO Folder := do
  let mut inside := Folder.empty
  for e in entries do
    let node : Option Node ← try
      match (← e.path.symlinkMetadata).type with
      | .dir => (some <| .folder ·) <$> takeEntries (← e.path.readDir)
      | _ => (some <| .file ·.toList) <$> IO.FS.readBinFile e.path
      catch _ => pure none
    inside := inside.update e.fileName.toList fun _ => node
  return inside

def takeNode (location : Text) : IO (Option Node) := do
  try
    let place ← IO.FS.realPath (String.ofList location)
    match (← place.metadata).type with
    | .dir => (some <| .folder ·) <$> takeEntries (← place.readDir)
    | _ => (some <| .file ·.toList) <$> IO.FS.readBinFile place
  catch _ => return none

def takeUpNode (t : FileTree) (location : Text) : IO FileTree := do
  let names := (Lookup.namesOf (t.absolute location)).reverse
  match ← takeNode (t.absolute location), names with
  | some (.folder inside), [] => return { t with root := inside }
  | some node, names => return { t with root := t.root.put (some node) names }
  | none, _ => return t

def takeUpConfigs (t : FileTree) : List Text → IO FileTree
  | [] => takeHere t []
  | n :: up => do takeUpConfigs (← takeHere t (n :: up)) up
where
  takeHere (t : FileTree) (names : List Text) : IO FileTree := do
    let mut t := t
    for name in Config.fileNames do
      let location := Location.join (Lookup.locationOf names) name
      if !t.exists? location then t ← takeUpNode t location
    return t

def takeUpFiles (working : Text) (words : List Text) : IO FileTree := do
  let mut t := FileTree.ofWorking (Lookup.namesOf working).reverse
  match Arguments.ofWords words with
  | .error _ => return t
  | .ok a =>
    let targets := if a.targets.isEmpty then [".".toList] else a.targets
    for location in targets ++ a.run.config.toList do
      t ← takeUpNode t location
    for location in targets do
      t ← takeUpConfigs t (Lookup.namesOf (t.absolute location))
    return t

end DocLint

open DocLint.Resources.Builtin in
def main (words : List String) : IO UInt32 := do
  let working ← IO.currentDir
  let words := words.map String.toList
  let files ← DocLint.takeUpFiles working.toString.toList words
  let transcript := DocLint.run { files } [] words
  IO.print (String.ofList transcript.out)
  IO.eprint (String.ofList transcript.err)
  match transcript.ending with
  | .exit status => return status.toUInt32
  | .broken _ =>
    IO.eprintln "The run broke off."
    return 1
