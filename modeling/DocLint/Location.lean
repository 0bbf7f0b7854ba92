import DocLint.Text.Strip

/-!
Locations: paths as they are written, joined, taken apart and made absolute without a look at any
file.
-/

set_option autoImplicit false

namespace DocLint.Location

def isAbsolute (location : Text) : Bool := location.head? == some '/'

def join (folder location : Text) : Text :=
  if isAbsolute location then location
  else if folder.isEmpty || folder.getLast? == some '/' then folder ++ location
  else folder ++ '/' :: location

def base (location : Text) : Text := Text.afterLast '/' location

def parent (location : Text) : Text :=
  let head := location.take (location.length - (base location).length)
  if head.all (· = '/') then head else Text.stripRightOf ['/'] head

/-- The names of a path put on those before it, which are reversed: dots fall away, and two dots take
back a name where there is one. -/
def settle (rooted : Bool) : List Text → List Text → List Text
  | done, [] => done.reverse
  | done, n :: ns =>
    if n.isEmpty || n = "." then settle rooted done ns
    else if n ≠ ".." then settle rooted (n :: done) ns
    else
      match done with
      | [] => settle rooted (if rooted then [] else [n]) ns
      | d :: ds => if d = ".." then settle rooted (n :: d :: ds) ns else settle rooted ds ns

/-- The shortest way to write a location. Two slashes at the beginning are a root of their own. -/
def normalize (location : Text) : Text :=
  let slashes := (location.takeWhile (· = '/')).length
  let root : Text := if slashes = 0 then [] else if slashes = 2 then ['/', '/'] else ['/']
  let short := root ++ Text.join "/" (settle (slashes > 0) [] (Text.splitOn '/' location))
  if short.isEmpty then "." else short

def absolute (working location : Text) : Text := normalize (join working location)

end DocLint.Location
