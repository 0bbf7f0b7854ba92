import DocLint.Text

/-!
Log lines: what a run tells about itself besides its results.
-/

set_option autoImplicit false

namespace DocLint

inductive Level where
  | debug | info | warning | error
  deriving DecidableEq, Repr

namespace Level

def label : Level → Text
  | .debug => "DEBUG"
  | .info => "INFO"
  | .warning => "WARNING"
  | .error => "ERROR"

def isTrouble : Level → Bool
  | .warning | .error => true
  | _ => false

end Level

structure LogLine where
  level : Level
  text : Text
  deriving DecidableEq, Repr

def LogLine.labelled (l : LogLine) : Text := l.level.label ++ ": ".toList ++ l.text

/-- A computation with a log, which a fault leaves as it is by then. -/
abbrev Logged (ε : Type) := EStateM ε (List LogLine)

def tell {ε : Type} (lines : List LogLine) : Logged ε Unit := modify (· ++ lines)

end DocLint
