import DocLint.CommandLine.Flag

/-!
Reading the arguments of the command line. Long flags may be shortened as long as they remain
distinct, and short ones may stand together behind one hyphen.
-/

set_option autoImplicit false

namespace DocLint

structure RunOptions where
  explain : Bool := false
  source : Bool := false
  debug : Bool := false
  verbose : Bool := false
  count : Bool := false
  config : Option Text := none
  deriving DecidableEq, Repr

structure Arguments where
  run : RunOptions := {}
  given : GivenSettings := {}
  targets : List Text := []
  deriving Repr

inductive UsageFault where
  | unknown (flag : Text)
  | ambiguous (flag : Text) (candidates : List Text)
  | valueMissing (flag : Text)
  | valueNotTaken (flag : Text)
  deriving DecidableEq, Repr

namespace UsageFault

def message : UsageFault → Text
  | .unknown flag => "no such option: ".toList ++ flag
  | .ambiguous flag candidates =>
    "ambiguous option: ".toList ++ flag ++ " (".toList ++ Text.join ", " candidates ++ "?)".toList
  | .valueMissing flag => flag ++ " option requires 1 argument".toList
  | .valueNotTaken flag => flag ++ " option does not take a value".toList

end UsageFault

inductive EarlyEnd where
  | help
  | version
  | misuse (fault : UsageFault)
  deriving DecidableEq, Repr

namespace Arguments

/-- The flag that a word stands for, by its full name or by a beginning that no other flag shares. -/
def longFlag (word : Text) : Except UsageFault Flag :=
  match Flag.all.find? fun f => f.long == word with
  | some f => .ok f
  | none =>
    match Flag.all.filter fun f => word.isPrefixOf f.long with
    | [f] => .ok f
    | [] => .error (.unknown word)
    | several =>
      .error (.ambiguous word ((several.map Flag.long).mergeSort fun a b => !Text.before b a))

def shortFlag (letter : Char) : Except UsageFault Flag :=
  match Flag.all.find? fun f => f.short? == some letter with
  | some f => .ok f
  | none => .error (.unknown ['-', letter])

def turnOn (a : Arguments) : Flag → Except EarlyEnd Arguments
  | .help => .error .help
  | .version => .error .version
  | .explain => .ok { a with run := { a.run with explain := true } }
  | .source => .ok { a with run := { a.run with source := true } }
  | .debug => .ok { a with run := { a.run with debug := true } }
  | .verbose => .ok { a with run := { a.run with verbose := true } }
  | .count => .ok { a with run := { a.run with count := true } }
  | .config | .setting _ => .ok a

def give (a : Arguments) (f : Flag) (value : Text) : Arguments :=
  match f with
  | .config => { a with run := { a.run with config := some value } }
  | .setting key => { a with given := a.given.set key (.text value) }
  | _ => a

def turnOnShort (a : Arguments) : Text → Except EarlyEnd Arguments
  | [] => .ok a
  | c :: cs =>
    match shortFlag c with
    | .error e => .error (.misuse e)
    | .ok f =>
      match a.turnOn f with
      | .error e => .error e
      | .ok a => a.turnOnShort cs

def splitValue (word : Text) : Text × Option Text :=
  match Text.cut? "=" word with
  | some (flag, value) => (flag, some value)
  | none => (word, none)

def read (a : Arguments) : List Text → Except EarlyEnd Arguments
  | [] => .ok a
  | word :: rest =>
    if word = "--" then .ok { a with targets := a.targets ++ rest }
    else if "--".toList.isPrefixOf word then
      let (name, value?) := splitValue word
      match longFlag name with
      | .error e => .error (.misuse e)
      | .ok f =>
        match f.takesValue, value?, rest with
        | true, some value, rest => (a.give f value).read rest
        | true, none, value :: rest => (a.give f value).read rest
        | true, none, [] => .error (.misuse (.valueMissing f.long))
        | false, some _, _ => .error (.misuse (.valueNotTaken f.long))
        | false, none, rest =>
          match a.turnOn f with
          | .error e => .error e
          | .ok a => a.read rest
    else
      match word with
      | '-' :: c :: letters =>
        match a.turnOnShort (c :: letters) with
        | .error e => .error e
        | .ok a => a.read rest
      | _ => { a with targets := a.targets ++ [word] }.read rest

end Arguments

def Arguments.ofWords (words : List Text) : Except EarlyEnd Arguments := Arguments.read {} words

end DocLint
