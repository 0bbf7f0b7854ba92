import DocLint.Grammar.Formatted
import DocLint.Literal
import DocLint.Token

/-!
The list of names that a module exports, as its source text states it: strings and commas, between
brackets or not.
-/

set_option autoImplicit false

namespace DocLint

/-- What the exported names are stated as: several literals, or a single one. -/
inductive Exports where
  | items (names : List LiteralValue)
  | single (value : LiteralValue)
  deriving DecidableEq, Repr

/-- Whether a name is exported. A single text exports what occurs in it; a byte string answers no
such question. -/
def Exports.contains? (e : Exports) (name : Text) : Option Bool :=
  match e with
  | .items names => some (names.contains (.text name))
  | .single (.text t) => some (Text.containsText name t)
  | .single (.bytes _) => none

inductive ExportFault where
  | unclear
  | notLiteral
  | unexpectedKind (kind : TokenKind)
  | failed (content reason : Text)
  deriving DecidableEq, Repr

def ExportFault.message : ExportFault → Text
  | .unclear => "Could not evaluate contents of __all__. "
  | .notLiteral => "Could not evaluate contents of __all__."
  | .unexpectedKind k => "Unexpected token kind in __all__: ".toList ++ k.shown ++ ". ".toList
  | .failed content reason =>
    "Could not evaluate contents of __all__.\x08The value was ".toList ++ content ++
      ". The exception was:\n".toList ++ reason

namespace Exports

variable [Resources]

def literalEnd (quote : Char) (triple : Bool) : Text → Option (Text × Text)
  | [] => none
  | ['\\'] => none
  | '\\' :: c :: cs => (literalEnd quote triple cs).map fun (a, b) => ('\\' :: c :: a, b)
  | c :: cs =>
    if c = quote then
      if triple then
        match cs with
        | d :: e :: rest =>
          if d = quote ∧ e = quote then some ([c, d, e], rest)
          else (literalEnd quote triple cs).map fun (a, b) => (c :: a, b)
        | _ => (literalEnd quote triple cs).map fun (a, b) => (c :: a, b)
      else some ([c], cs)
    else (literalEnd quote triple cs).map fun (a, b) => (c :: a, b)

def literal? (t : Text) : Option (Text × Text) :=
  match Lexeme.literalMark? t with
  | some (mark, quoted) =>
    match Lexeme.tripleQuote? quoted with
    | some (q, rest) =>
      (literalEnd q true rest).map fun (body, rest) => (mark ++ [q, q, q] ++ body, rest)
    | none =>
      match quoted with
      | q :: rest => (literalEnd q false rest).map fun (body, rest) => (mark ++ q :: body, rest)
      | [] => none
  | none => none

def groups : Nat → Text → Option (List (List Text))
  | 0, _ => none
  | _ + 1, [] => some [[]]
  | fuel + 1, t@(c :: cs) =>
    if c = ',' then (groups fuel cs).map ([] :: ·)
    else
      match literal? t with
      | none => none
      | some (l, rest) =>
        match groups fuel rest with
        | some (g :: gs) => some ((l :: g) :: gs)
        | _ => none

inductive EvaluationFault where
  | unterminated
  | invalid
  | mixed
  | nonAscii
  | badEscape
  | raised (reason : Text)
  deriving DecidableEq, Repr

def EvaluationFault.message : EvaluationFault → Text
  | .unterminated =>
    "unterminated triple-quoted string literal (detected at line 1) (<string>, line 1)"
  | .invalid => "invalid syntax (<string>, line 1)"
  | .mixed => "cannot mix bytes and nonbytes literals (<string>, line 1)"
  | .nonAscii => "bytes can only contain ASCII literal characters (<string>, line 1)"
  | .badEscape => "(unicode error) malformed escape (<string>, line 1)"
  | .raised reason => reason

/-- A formatted text: doubled braces stand for single ones, and the fields for their values. -/
def formattedText (raw : Bool) (body : Text) : Except EvaluationFault Text :=
  match Grammar.Formatted.expressions? raw body with
  | none => .error .invalid
  | some (e :: es) => (Resources.formatted raw body (e :: es)).mapError .raised
  | some [] =>
    let plain := Text.replace "\x7d\x7d" "\x7d" (Text.replace "\x7b\x7b" "\x7b" body)
    match Literal.decodeText raw plain with
    | .ok t => .ok t
    | .error _ => .error .badEscape

def literalValue (t : Text) : Except EvaluationFault LiteralValue :=
  match Literal.ofText? t with
  | none => .error .invalid
  | some l =>
    if l.isFormatted then (formattedText l.isRaw l.body).map .text
    else
      match l.value with
      | .ok v => .ok v
      | .error .nonAsciiByte => .error .nonAscii
      | .error _ => .error .badEscape

def joined : List LiteralValue → Except EvaluationFault LiteralValue
  | [] => .error .invalid
  | [v] => .ok v
  | v :: vs =>
    match v, joined vs with
    | .text a, .ok (.text b) => .ok (.text (a ++ b))
    | .bytes a, .ok (.bytes b) => .ok (.bytes (a ++ b))
    | _, .ok _ => .error .mixed
    | _, .error e => .error e

def groupValue (g : List Text) : Except EvaluationFault LiteralValue := do
  joined (← g.mapM literalValue)

/-- Literals between parentheses: with a comma they are items, without one a single value. The
last comma may stand at the end. -/
def ofGroups : List (List Text) → Except EvaluationFault Exports
  | [[]] => .ok (.items [])
  | [g] => (groupValue g).map .single
  | gs =>
    let stated := if gs.getLast? = some [] then gs.dropLast else gs
    (stated.mapM groupValue).map .items

def evaluate (content : Text) : Except EvaluationFault Exports :=
  match groups (content.length + 1) content with
  | none => .error .unterminated
  | some gs => ofGroups gs

end Exports

def withExportAdvice (message : Text) : Text :=
  message ++ ("\nThat means pydocstyle cannot decide which definitions are\n" ++
    "public. Variable __all__ should be present at most once in\neach file, in form\n" ++
    "\x60__all__ = ('a_public_function', 'APublicClass', ...)\x60.\n" ++
    "More info on __all__: http://stackoverflow.com/q/44834/. ')\n").toList

end DocLint
