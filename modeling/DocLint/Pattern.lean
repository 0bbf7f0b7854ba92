import DocLint.Text.Case
import DocLint.Text.Property.Decimal

/-!
Patterns, and how a match is looked for: one possibility after the other, until what follows goes along.
-/

set_option autoImplicit false

namespace DocLint

namespace Text

def decimalValue? (c : Char) : Option Nat :=
  if isAscii c then if isAsciiDigit c then some (c.toNat - '0'.toNat) else none
  else (Property.zeros.find? fun n => n ≤ c.toNat && c.toNat < n + 10).map (c.toNat - ·)

def isDecimal (c : Char) : Bool := (decimalValue? c).isSome

end Text

/-- Which letters count as the same: each one for itself, those of the alphabet in either case, or all in
either case. -/
inductive Letters where
  | exact
  | ascii
  | either
  deriving DecidableEq, Repr

namespace Letters

def lower : Letters → Char → Char
  | .exact, c => c
  | .ascii, c => Text.lowerAscii c
  | .either, c => (Text.lowerChar c).headD c

/-- What letters that count as the same have in common. Some have two small forms and one capital. -/
def key : Letters → Char → Text
  | .either, c => Text.upperChar (lower .either c)
  | l, c => [l.lower c]

def same (l : Letters) (c : Char) (code : Nat) : Bool :=
  c.toNat = code || (code.isValidChar && l.key c == l.key (Char.ofNat code))

end Letters

inductive ClassItem where
  | code (n : Nat)
  | range (first last : Nat)
  | word (negated : Bool)
  | digit (negated : Bool)
  | space (negated : Bool)
  deriving DecidableEq, Repr

structure CharClass where
  items : List ClassItem
  negated : Bool := false
  letters : Letters := .exact
  ascii : Bool := false
  deriving DecidableEq, Repr

namespace CharClass

def isWord (ascii : Bool) (c : Char) : Bool := Text.isWord c && (!ascii || Text.isAscii c)

def isSpace (ascii : Bool) (c : Char) : Bool :=
  if ascii then c = ' ' || (9 ≤ c.toNat && c.toNat ≤ 13) else Text.isSpace c

def isDigit (ascii : Bool) (c : Char) : Bool := if ascii then Text.isAsciiDigit c else Text.isDecimal c

def holds (k : CharClass) (c : Char) : ClassItem → Bool
  | .code n => k.letters.same c n
  | .range a b =>
    (a ≤ c.toNat && c.toNat ≤ b) ||
      (k.letters != .exact && (List.range' a (b + 1 - a)).any (k.letters.same c))
  | .word negated => isWord k.ascii c != negated
  | .digit negated => isDigit k.ascii c != negated
  | .space negated => isSpace k.ascii c != negated

def contains (k : CharClass) (c : Char) : Bool := k.items.any (k.holds c) != k.negated

end CharClass

/-- How often something is repeated first: as often as possible, as seldom as possible, or as often as
possible for good. -/
inductive Manner where
  | greedy
  | lazy
  | possessive
  deriving DecidableEq, Repr

inductive Anchor where
  | start
  | lineStart
  | stop
  | lineStop
  | limit
  /-- Between a character of a word and something else, or not there. An empty text has neither. -/
  | boundary (negated ascii : Bool)
  deriving DecidableEq, Repr

inductive Pattern where
  | empty
  | any (lines : Bool)
  | oneOf (k : CharClass)
  | anchor (a : Anchor)
  | seq (first second : Pattern)
  | either (first second : Pattern)
  | group (index : Nat) (p : Pattern)
  | times (p : Pattern) (least : Nat) (most : Option Nat) (manner : Manner)
  | atomic (p : Pattern)
  | look (behind : Option Nat) (negated : Bool) (p : Pattern)
  | again (index : Nat) (letters : Letters)
  | given (index : Nat) (p q : Pattern)
  deriving DecidableEq, Repr

/-- A spot in a text, with the text before it, the nearest character first, and where groups were opened
and closed on the way. -/
structure Spot where
  position : Nat := 0
  before : Text := []
  rest : Text
  opened : List (Nat × Nat) := []
  closed : List (Nat × Nat) := []
  deriving DecidableEq, Repr

namespace Spot

def next? (x : Spot) : Option (Char × Spot) :=
  match x.rest with
  | [] => none
  | c :: cs => some (c, { x with position := x.position + 1, before := c :: x.before, rest := cs })

def back? : Nat → Spot → Option Spot
  | 0, x => some x
  | n + 1, x =>
    match x.before with
    | [] => none
    | c :: cs => back? n { x with position := x.position - 1, before := cs, rest := c :: x.rest }

def openGroup (index : Nat) (x : Spot) : Spot := { x with opened := (index, x.position) :: x.opened }

def closeGroup (index : Nat) (x : Spot) : Spot := { x with closed := (index, x.position) :: x.closed }

def captured? (index : Nat) (x : Spot) : Option Text := do
  let first ← x.opened.lookup index
  let last ← x.closed.lookup index
  if last < first then none else some (((x.before.reverse ++ x.rest).drop first).take (last - first))

def behind? (letters : Letters) : Text → Spot → Option Spot
  | [], x => some x
  | c :: cs, x =>
    match x.next? with
    | some (d, y) => if letters.lower d = letters.lower c then behind? letters cs y else none
    | none => none

end Spot

namespace Anchor

def isWordAt (ascii : Bool) (c? : Option Char) : Bool := c?.any (CharClass.isWord ascii)

def holds (x : Spot) : Anchor → Bool
  | .start => x.before.isEmpty
  | .lineStart => x.before.isEmpty || x.before.head? == some '\n'
  | .stop => x.rest.isEmpty || x.rest == ['\n']
  | .lineStop => x.rest.isEmpty || x.rest.head? == some '\n'
  | .limit => x.rest.isEmpty
  | .boundary negated ascii =>
    !(x.before.isEmpty && x.rest.isEmpty) &&
      (isWordAt ascii x.before.head? != isWordAt ascii x.rest.head?) != negated

end Anchor

namespace Pattern

/-- Looks for a match from a spot on. What follows is asked about each end of a match, and the first answer
counts. -/
abbrev Search := Spot → (Spot → Option Spot) → Option Spot

namespace Search

def once (f : Search) : Search := fun x k => (f x some).bind k

def exactly (f : Search) : Nat → Search
  | 0 => fun x k => k x
  | n + 1 => fun x k => f x fun y => exactly f n y k

def upTo (f : Search) (lazy : Bool) : Nat → Option Nat → Search
  | 0, _ => fun x k => k x
  | n + 1, last => fun x k =>
    if last = some x.position then k x
    else
      let further := fun _ : Unit => f x fun y => upTo f lazy n (some x.position) y k
      if lazy then (k x).orElse further else (further ()).orElse fun _ => k x

def times (f : Search) (least : Nat) (most : Option Nat) (lazy : Bool) : Search := fun x k =>
  exactly f least x fun y => upTo f lazy (most.elim (y.rest.length + 1) (· - least)) none y k

end Search

open Search

def find : Pattern → Search
  | .empty => fun x k => k x
  | .any lines => fun x k => x.next?.bind fun (c, y) => if lines || c ≠ '\n' then k y else none
  | .oneOf s => fun x k => x.next?.bind fun (c, y) => if s.contains c then k y else none
  | .anchor a => fun x k => if a.holds x then k x else none
  | .seq p q => fun x k => find p x fun y => find q y k
  | .either p q => fun x k => (find p x k).orElse fun _ => find q x k
  | .group i p => fun x k => find p (x.openGroup i) fun y => k (y.closeGroup i)
  | .times p least most manner =>
    match manner with
    | .greedy => Search.times (find p) least most false
    | .lazy => Search.times (find p) least most true
    | .possessive => once (Search.times (once (find p)) least most false)
  | .atomic p => once (find p)
  | .look behind negated p => fun x k =>
    match (x.back? (behind.getD 0)).bind fun y => find p y some with
    | some y => if negated then none else k { x with opened := y.opened, closed := y.closed }
    | none => if negated then k x else none
  | .again i letters => fun x k => ((x.captured? i).bind fun t => x.behind? letters t).bind k
  | .given i p q => fun x k => if (x.captured? i).isSome then find p x k else find q x k

def matchesOpening (p : Pattern) (t : Text) : Bool := (p.find { rest := t } some).isSome

def occursFrom (p : Pattern) : Nat → Spot → Bool
  | 0, x => (p.find x some).isSome
  | n + 1, x => (p.find x some).isSome || x.next?.any fun (_, y) => occursFrom p n y

def occursIn (p : Pattern) (t : Text) : Bool := occursFrom p t.length { rest := t }

def inOrder (ps : List Pattern) : Pattern := ps.foldr .seq .empty

def anyOf : List Pattern → Pattern
  | [] => .empty
  | [p] => p
  | p :: ps => .either p (anyOf ps)

end Pattern

end DocLint
