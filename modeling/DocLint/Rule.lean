import DocLint.Template

/-!
The rules that docstrings can break, in groups, and the conventions that select among them.
-/

set_option autoImplicit false

namespace DocLint

/-- Rules by their codes. Code D401 stands for two of them. -/
inductive Rule where
  | D100 | D101 | D102 | D103 | D104 | D105 | D106 | D107 | D200 | D201 | D202 | D203 | D204
  | D205 | D206 | D207 | D208 | D209 | D210 | D211 | D212 | D213 | D214 | D215 | D300 | D301
  | D302 | D400 | D401 | D401b | D402 | D403 | D404 | D405 | D406 | D407 | D408 | D409 | D410
  | D411 | D412 | D413 | D414 | D415 | D416 | D417 | D418 | D419
  deriving DecidableEq, Repr

namespace Rule

def all : List Rule :=
  [.D100, .D101, .D102, .D103, .D104, .D105, .D106, .D107, .D200, .D201, .D202, .D203, .D204,
    .D205, .D206, .D207, .D208, .D209, .D210, .D211, .D212, .D213, .D214, .D215, .D300, .D301,
    .D302, .D400, .D401, .D401b, .D402, .D403, .D404, .D405, .D406, .D407, .D408, .D409, .D410,
    .D411, .D412, .D413, .D414, .D415, .D416, .D417, .D418, .D419]

def code : Rule → Text
  | .D100 => "D100"
  | .D101 => "D101"
  | .D102 => "D102"
  | .D103 => "D103"
  | .D104 => "D104"
  | .D105 => "D105"
  | .D106 => "D106"
  | .D107 => "D107"
  | .D200 => "D200"
  | .D201 => "D201"
  | .D202 => "D202"
  | .D203 => "D203"
  | .D204 => "D204"
  | .D205 => "D205"
  | .D206 => "D206"
  | .D207 => "D207"
  | .D208 => "D208"
  | .D209 => "D209"
  | .D210 => "D210"
  | .D211 => "D211"
  | .D212 => "D212"
  | .D213 => "D213"
  | .D214 => "D214"
  | .D215 => "D215"
  | .D300 => "D300"
  | .D301 => "D301"
  | .D302 => "D302"
  | .D400 => "D400"
  | .D401 => "D401"
  | .D401b => "D401"
  | .D402 => "D402"
  | .D403 => "D403"
  | .D404 => "D404"
  | .D405 => "D405"
  | .D406 => "D406"
  | .D407 => "D407"
  | .D408 => "D408"
  | .D409 => "D409"
  | .D410 => "D410"
  | .D411 => "D411"
  | .D412 => "D412"
  | .D413 => "D413"
  | .D414 => "D414"
  | .D415 => "D415"
  | .D416 => "D416"
  | .D417 => "D417"
  | .D418 => "D418"
  | .D419 => "D419"

def summary : Rule → Text
  | .D100 => "Missing docstring in public module"
  | .D101 => "Missing docstring in public class"
  | .D102 => "Missing docstring in public method"
  | .D103 => "Missing docstring in public function"
  | .D104 => "Missing docstring in public package"
  | .D105 => "Missing docstring in magic method"
  | .D106 => "Missing docstring in public nested class"
  | .D107 => "Missing docstring in __init__"
  | .D200 => "One-line docstring should fit on one line with quotes"
  | .D201 => "No blank lines allowed before function docstring"
  | .D202 => "No blank lines allowed after function docstring"
  | .D203 => "1 blank line required before class docstring"
  | .D204 => "1 blank line required after class docstring"
  | .D205 => "1 blank line required between summary line and description"
  | .D206 => "Docstring should be indented with spaces, not tabs"
  | .D207 => "Docstring is under-indented"
  | .D208 => "Docstring is over-indented"
  | .D209 => "Multi-line docstring closing quotes should be on a separate line"
  | .D210 => "No whitespaces allowed surrounding docstring text"
  | .D211 => "No blank lines allowed before class docstring"
  | .D212 => "Multi-line docstring summary should start at the first line"
  | .D213 => "Multi-line docstring summary should start at the second line"
  | .D214 => "Section is over-indented"
  | .D215 => "Section underline is over-indented"
  | .D300 => "Use \"\"\"triple double quotes\"\"\""
  | .D301 => "Use r\"\"\" if any backslashes in a docstring"
  | .D302 => "Deprecated: Use u\"\"\" for Unicode docstrings"
  | .D400 => "First line should end with a period"
  | .D401 => "First line should be in imperative mood"
  | .D401b => "First line should be in imperative mood; try rephrasing"
  | .D402 => "First line should not be the function's \"signature\""
  | .D403 => "First word of the first line should be properly capitalized"
  | .D404 => "First word of the docstring should not be \x60This\x60"
  | .D405 => "Section name should be properly capitalized"
  | .D406 => "Section name should end with a newline"
  | .D407 => "Missing dashed underline after section"
  | .D408 => "Section underline should be in the line following the section's name"
  | .D409 => "Section underline should match the length of its name"
  | .D410 => "Missing blank line after section"
  | .D411 => "Missing blank line before section"
  | .D412 => "No blank lines allowed between a section header and its content"
  | .D413 => "Missing blank line after last section"
  | .D414 => "Section has no content"
  | .D415 => "First line should end with a period, question mark, or exclamation point"
  | .D416 => "Section name should end with a colon"
  | .D417 => "Missing argument descriptions in the docstring"
  | .D418 => "Function/ Method decorated with @overload shouldn't contain a docstring"
  | .D419 => "Docstring is empty"

def context : Rule → Option Text
  | .D200 => some "found \x7b0\x7d"
  | .D201 => some "found \x7b0\x7d"
  | .D202 => some "found \x7b0\x7d"
  | .D203 => some "found \x7b0\x7d"
  | .D204 => some "found \x7b0\x7d"
  | .D205 => some "found \x7b0\x7d"
  | .D211 => some "found \x7b0\x7d"
  | .D214 => some "\x7b0!r\x7d"
  | .D215 => some "in section \x7b0!r\x7d"
  | .D300 => some "found \x7b0\x7d-quotes"
  | .D400 => some "not \x7b0!r\x7d"
  | .D401 => some "perhaps '\x7b0\x7d', not '\x7b1\x7d'"
  | .D401b => some "found '\x7b0\x7d'"
  | .D403 => some "\x7b0!r\x7d, not \x7b1!r\x7d"
  | .D405 => some "\x7b0!r\x7d, not \x7b1!r\x7d"
  | .D406 => some "\x7b0!r\x7d, not \x7b1!r\x7d"
  | .D407 => some "\x7b0!r\x7d"
  | .D408 => some "\x7b0!r\x7d"
  | .D409 => some "Expected \x7b0!r\x7d dashes in section \x7b1!r\x7d, got \x7b2!r\x7d"
  | .D410 => some "\x7b0!r\x7d"
  | .D411 => some "\x7b0!r\x7d"
  | .D412 => some "\x7b0!r\x7d"
  | .D413 => some "\x7b0!r\x7d"
  | .D414 => some "\x7b0!r\x7d"
  | .D415 => some "not \x7b0!r\x7d"
  | .D416 => some "\x7b0!r\x7d, not \x7b1!r\x7d"
  | .D417 => some "argument(s) \x7b0\x7d are missing descriptions in \x7b1!r\x7d docstring"
  | _ => none

end Rule

structure RuleGroup where
  mark : Text
  name : Text
  rules : List Rule

namespace RuleGroup

def ofMark (mark name : Text) : RuleGroup :=
  { mark, name, rules := Rule.all.filter fun r => mark.isPrefixOf r.code }

def all : List RuleGroup :=
  [ofMark "D1" "Missing Docstrings",
    ofMark "D2" "Whitespace Issues",
    ofMark "D3" "Quotes Issues",
    ofMark "D4" "Docstring Content Issues"]

end RuleGroup

abbrev CodeSet := List Text

namespace CodeSet

def all : CodeSet := (Rule.all.map Rule.code).eraseDups

def union (a b : CodeSet) : CodeSet := a ++ b.filter (!a.contains ·)

def without (a b : CodeSet) : CodeSet := a.filter (!b.contains ·)

def sorted (s : CodeSet) : List Text := s.mergeSort fun a b => !Text.before b a

end CodeSet

inductive Convention where
  | pep257 | numpy | google
  deriving DecidableEq, Repr

namespace Convention

def all : List Convention := [.pep257, .numpy, .google]

def name : Convention → Text
  | .pep257 => "pep257"
  | .numpy => "numpy"
  | .google => "google"

def ofName? (name : Text) : Option Convention := all.find? (·.name == name)

def omitted : Convention → CodeSet
  | .pep257 => Text.literals
    ["D203", "D212", "D213", "D214", "D215", "D404", "D405", "D406", "D407", "D408", "D409",
      "D410", "D411", "D413", "D415", "D416", "D417", "D418"]
  | .numpy => Text.literals
    ["D107", "D203", "D212", "D213", "D402", "D413", "D415", "D416", "D417"]
  | .google => Text.literals
    ["D203", "D204", "D213", "D215", "D400", "D401", "D404", "D406", "D407", "D408", "D409",
      "D413"]

def codes (c : Convention) : CodeSet := CodeSet.all.without c.omitted

end Convention

/-! ### The rules as a table -/

namespace RuleTable

def width : Nat := ((Rule.all.map fun r => r.summary.length).max?).getD 0

def separator : Text :=
  "+------+".toList ++ List.replicate (width + 2) '-' ++ "+\n".toList

def emptyRow : Text := "|".toList ++ List.replicate (width + 9) ' ' ++ "|\n".toList

def heading (name : Text) : Text :=
  let title := "**".toList ++ name ++ "**".toList
  "|".toList ++ Text.center (width + 9) title ++ "|\n".toList

def row (r : Rule) : Text :=
  "|".toList ++ Text.center 6 r.code ++ "| ".toList ++ Text.padRight (width + 1) r.summary ++
    "|\n".toList

def section_ (g : RuleGroup) : Text :=
  separator ++ emptyRow ++ heading g.name ++ emptyRow ++ g.rules.flatMap fun r => separator ++ row r

def text : Text := RuleGroup.all.flatMap section_ ++ separator

end RuleTable

end DocLint
