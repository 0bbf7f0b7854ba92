import DocLint.Check.Sections
import DocLint.Check.Wording
import DocLint.Resources

/-!
The checks, in the order in which they are made.
-/

set_option autoImplicit false

namespace DocLint

variable [Resources]

inductive Check where
  | missing | empty | oneLine | functionBlanks | classBlanks | blankAfterSummary | indentation
  | closingQuotes | surroundingBlanks | summaryStart | quotes | backslashes | period | punctuation
  | imperativeMood | signature | capitalized | overload | startsWithThis | sections
  deriving DecidableEq, Repr

structure CheckOptions where
  ignoredDecorators : Option Matcher := none
  properties : List Text := []
  ignoreComments : Bool := false
  searchPath : List Path := []

namespace Check

def all : List Check :=
  [.missing, .empty, .oneLine, .functionBlanks, .classBlanks, .blankAfterSummary, .indentation,
    .closingQuotes, .surroundingBlanks, .summaryStart, .quotes, .backslashes, .period, .punctuation,
    .imperativeMood, .signature, .capitalized, .overload, .startsWithThis, .sections]

/-- A finding of such a check is the only one of its subject. -/
def isTerminal : Check → Bool
  | .missing | .empty => true
  | _ => false

def appliesTo (c : Check) (s : Subject) : Bool :=
  match c with
  | .functionBlanks | .imperativeMood | .signature | .capitalized | .overload =>
    s.definition?.any fun d => !d.kind.isClass
  | .classBlanks => s.definition?.any fun d => d.kind.isClass
  | _ => true

def ofDefinition (s : Subject) (f : Definition → Except CheckFault (List Finding)) : Outcome :=
  match s.definition? with
  | some x => Outcome.ofExcept (f x)
  | none => {}

def inspect (o : CheckOptions) (c : Check) (s : Subject) (d : Docstring) : Outcome :=
  match c with
  | .missing => {}
  | .empty => .ofExcept (Wording.empty d)
  | .oneLine => .ofExcept (Layout.oneLine d)
  | .functionBlanks => .ofList (Layout.functionBlanks s d)
  | .classBlanks => .ofList (Layout.classBlanks s d)
  | .blankAfterSummary => .ofExcept (Layout.blankAfterSummary d)
  | .indentation => Layout.indentation s d
  | .closingQuotes => .ofExcept (Layout.closingQuotes d)
  | .surroundingBlanks => .ofExcept (Layout.surroundingBlanks d)
  | .summaryStart => .ofExcept (Layout.summaryStart d)
  | .quotes => .ofExcept (Wording.quotes d)
  | .backslashes => .ofList (Wording.backslashes d)
  | .period => .ofExcept (Wording.summaryEnd .D400 ['.'] d)
  | .punctuation => .ofExcept (Wording.summaryEnd .D415 ['.', '!', '?'] d)
  | .imperativeMood => ofDefinition s fun f => Wording.imperativeMood o.properties f d
  | .signature => ofDefinition s fun f => Wording.signature f d
  | .capitalized => .ofExcept (Wording.capitalized d)
  | .overload => ofDefinition s fun f => .ok (Wording.overload f)
  | .startsWithThis => .ofExcept (Wording.startsWithThis d)
  | .sections => Sections.all s d

def run (o : CheckOptions) (c : Check) (s : Subject) : Outcome :=
  match c, s.docstring with
  | .missing, _ => .ofExcept (Wording.missing o.searchPath s)
  | _, none => {}
  | _, some d => c.inspect o s d

def explanation : Check → List Text
  | .missing => Text.literals
    ["All modules should normally have docstrings.  [...] all functions and",
      "classes exported by a module should also have docstrings. Public",
      "methods (including the __init__ constructor) should also have",
      "docstrings.",
      "Note: Public (exported) definitions are either those with names listed",
      "      in __all__ variable (if present), or those that do not start",
      "      with a single underscore."]
  | .empty => Text.literals
    ["If the user provided a docstring but it was empty, it is like they never provided one.",
      "NOTE: This used to report as D10X errors."]
  | .oneLine => Text.literals
    ["The closing quotes are on the same line as the opening quotes.",
      "This looks better for one-liners."]
  | .functionBlanks => Text.literals
    ["There's no blank line either before or after the docstring unless directly",
      "followed by an inner function or class."]
  | .classBlanks => Text.literals
    ["Insert a blank line before and after all docstrings (one-line or",
      "multi-line) that document a class -- generally speaking, the class's",
      "methods are separated from each other by a single blank line, and the",
      "docstring needs to be offset from the first method by a blank line;",
      "for symmetry, put a blank line between the class header and the",
      "docstring."]
  | .blankAfterSummary => Text.literals
    ["Multi-line docstrings consist of a summary line just like a one-line",
      "docstring, followed by a blank line, followed by a more elaborate",
      "description. The summary line may be used by automatic indexing tools;",
      "it is important that it fits on one line and is separated from the",
      "rest of the docstring by a blank line."]
  | .indentation => Text.literals
    ["The entire docstring is indented the same as the quotes at its",
      "first line."]
  | .closingQuotes => Text.literals
    ["Unless the entire docstring fits on a line, place the closing",
      "quotes on a line by themselves."]
  | .surroundingBlanks => []
  | .summaryStart => Text.literals
    ["A multi-line docstring summary should start either at the first,",
      "or separately at the second line of a docstring."]
  | .quotes => Text.literals
    ["For consistency, always use \"\"\"triple double quotes\"\"\" around",
      "docstrings. Use r\"\"\"raw triple double quotes\"\"\" if you use any",
      "backslashes in your docstrings. For Unicode docstrings, use",
      "u\"\"\"Unicode triple-quoted strings\"\"\".",
      "Note: Exception to this is made if the docstring contains",
      "      \"\"\" quotes in its body."]
  | .backslashes => Text.literals
    ["Use r\"\"\"raw triple double quotes\"\"\" if you use any backslashes",
      "(\\) in your docstrings.",
      "Exceptions are backslashes for line-continuation and unicode escape",
      "sequences \\N... and \\u... These are considered intended unescaped",
      "content in docstrings."]
  | .period => Text.literals
    ["The [first line of a] docstring is a phrase ending in a period."]
  | .punctuation => Text.literals
    ["The [first line of a] docstring is a phrase ending in a period,",
      "question mark, or exclamation point"]
  | .imperativeMood => Text.literals
    ["[Docstring] prescribes the function or method's effect as a command:",
      "(\"Do this\", \"Return that\"), not as a description; e.g. don't write",
      "\"Returns the pathname ...\"."]
  | .signature => Text.literals
    ["The one-line docstring should NOT be a \"signature\" reiterating the",
      "function/method parameters (which can be obtained by introspection)."]
  | .capitalized => Text.literals
    ["The [first line of a] docstring is a phrase ending in a period."]
  | .overload => Text.literals
    ["Functions that are decorated with @overload are definitions,",
      "and are for the benefit of the type checker only,",
      "since they will be overwritten by the non-@overload-decorated definition."]
  | .startsWithThis => Text.literals
    ["Docstrings should use short, simple language. They should not begin",
      "with \"This class is [..]\" or \"This module contains [..]\"."]
  | .sections => []

end Check

end DocLint
