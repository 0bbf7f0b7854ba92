import DocLint.Text

/-!
Paths as sequences of names, with or without a root.
-/

set_option autoImplicit false

namespace DocLint

/-- A path without empty names and without dots for the directory itself. Two slashes at the
beginning are a root of their own. -/
structure Path where
  root : Text
  names : List Text
  deriving DecidableEq, Repr

namespace Path

def ofText (t : Text) : Path :=
  let slashes := (t.takeWhile (· = '/')).length
  let root := if slashes = 0 then [] else if slashes = 2 then "//" else "/"
  { root, names := (Text.splitOn '/' t).filter fun n => !n.isEmpty && n ≠ "." }

def name (p : Path) : Text := p.names.getLastD []

def parent (p : Path) : Path := { p with names := p.names.dropLast }

def beginnings {α : Type} : List α → List (List α)
  | [] => []
  | a :: as => (beginnings as).map (a :: ·) ++ [[a]]

def ancestry (p : Path) : List Path := (beginnings p.names).map ({ p with names := · })

def stem (p : Path) : Text :=
  match Text.cut? "." p.name.reverse with
  | some (ending, front) => if ending.isEmpty || front.isEmpty then p.name else front.reverse
  | none => p.name

def shown (p : Path) : Text :=
  let t := p.root ++ Text.join "/" p.names
  if t.isEmpty then "." else t

end Path

end DocLint
