import DocLint.CommandLine.Arguments
import DocLint.Text.Wrap

/-!
The help text: usage, and the flags in columns with what they do.
-/

set_option autoImplicit false

namespace DocLint.Help

def width : Nat := 78

def column : Nat := 24

def usage : Text := "Usage: pydocstyle [options] [<file|dir>...]\n"

def blanks (n : Nat) : Text := List.replicate n ' '

def spelling (f : Flag) : Text :=
  let value := match f.placeholder? with
    | some p => '=' :: p
    | none => []
  let letter := match f.short? with
    | some c => ['-', c, ',', ' ']
    | none => []
  letter ++ f.long ++ value

/-- A flag with its description, which begins on a line of its own if the flag is too long. -/
def entry (indent : Nat) (f : Flag) : Text :=
  let room := column - indent - 2
  let written := spelling f
  let lines := Text.wrap (width - column) f.description
  let opening := blanks indent ++ written
  match lines with
  | [] => opening ++ "\n".toList
  | first :: rest =>
    let start :=
      if room < written.length then opening ++ "\n".toList ++ blanks column
      else blanks indent ++ Text.padRight (room + 2) written
    start ++ first ++ "\n".toList ++
      rest.flatMap fun line => blanks column ++ line ++ "\n".toList

def paragraph (indent : Nat) (t : Text) : Text :=
  Text.join "\n" ((Text.wrap (width - 2 * indent) t).map (blanks indent ++ ·)) ++ "\n".toList

def quoting : Text :=
  "When using --match, --match-dir or --ignore-decorators consider whether you should use a single " ++
    "quote (') or a double quote (\"), depending on your OS, Shell, etc."

def choosing : Text :=
  "Only one of --select, --ignore or --convention can be specified. If none is specified, defaults " ++
    "to \x60--convention=pep257\x60. These three options select the \"basic list\" of error codes to " ++
    "check. If you wish to change that list (for example, if you selected a known convention but " ++
    "wish to ignore a specific error from it or add a new one) you can use " ++
    "\x60--add-[ignore/select]\x60 in order to do so."

def text : Text :=
  usage ++ "\nOptions:\n".toList ++ Flag.general.flatMap (entry 2) ++ "\n  Note:\n".toList ++
    paragraph 4 quoting ++ "\n  Error Check Options:\n".toList ++ paragraph 4 choosing ++
    "\n".toList ++ Flag.ofCodes.flatMap (entry 4)

def misuse (fault : UsageFault) : Text :=
  usage ++ "\npydocstyle: error: ".toList ++ fault.message ++ "\n".toList

end DocLint.Help
