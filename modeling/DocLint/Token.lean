import DocLint.Text.Quoted

/-!
Tokens of source text as a reader sees them: comments and line ends are tokens too, and each one
knows where it stands.
-/

set_option autoImplicit false

namespace DocLint

/-- A line, counted from one, and a column, counted from zero. -/
structure Position where
  row : Nat
  col : Nat
  deriving DecidableEq, Repr

def Position.shown (p : Position) : Text :=
  "(".toList ++ Text.ofNat p.row ++ ", ".toList ++ Text.ofNat p.col ++ ")".toList

inductive TokenKind where
  | endMarker | name | number | string | newline | indent | dedent | op | errorToken | comment | nl
  deriving DecidableEq, Repr

namespace TokenKind

def ordinal : TokenKind → Nat
  | .endMarker => 0
  | .name => 1
  | .number => 2
  | .string => 3
  | .newline => 4
  | .indent => 5
  | .dedent => 6
  | .op => 54
  | .errorToken => 60
  | .comment => 61
  | .nl => 62

def label : TokenKind → Text
  | .endMarker => "ENDMARKER"
  | .name => "NAME"
  | .number => "NUMBER"
  | .string => "STRING"
  | .newline => "NEWLINE"
  | .indent => "INDENT"
  | .dedent => "DEDENT"
  | .op => "OP"
  | .errorToken => "ERRORTOKEN"
  | .comment => "COMMENT"
  | .nl => "NL"

def all : List TokenKind :=
  [.endMarker, .name, .number, .string, .newline, .indent, .dedent, .op, .errorToken, .comment, .nl]

def shown (k : TokenKind) : Text := "tk.".toList ++ k.label

def endsStatement : TokenKind → Bool
  | .newline | .indent | .dedent => true
  | _ => false

def isLogicallyBlank : TokenKind → Bool
  | .nl | .comment => true
  | _ => false

end TokenKind

structure Token where
  kind : TokenKind
  value : Text
  start : Position
  stop : Position
  line : Text
  deriving DecidableEq, Repr

namespace Token

def is (t : Token) (kind : TokenKind) (value : Text) : Bool := t.kind == kind && t.value == value

def brief (t : Token) : Text := t.kind.shown ++ " (".toList ++ t.value ++ ")".toList

def full (t : Token) : Text :=
  "Token(kind=".toList ++ t.kind.shown ++ ", value=".toList ++ t.value.quoted ++
    ", start=".toList ++ t.start.shown ++ ", end=".toList ++ t.stop.shown ++
    ", source=".toList ++ t.line.quoted ++ ")".toList

end Token

end DocLint
