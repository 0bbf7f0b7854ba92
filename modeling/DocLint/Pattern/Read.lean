import DocLint.Pattern
import DocLint.Resources
import DocLint.Text.Strip

/-!
The text of a pattern.
-/

set_option autoImplicit false

namespace DocLint

inductive PatternToken where
  | plain (c : Char)
  | escaped (c : Char)
  deriving DecidableEq, Repr

namespace PatternToken

def ofText? : Text → Option (List PatternToken)
  | [] => some []
  | '\\' :: c :: cs => (ofText? cs).map (.escaped c :: ·)
  | c :: cs => if c = '\\' then none else (ofText? cs).map (.plain c :: ·)

def text : PatternToken → Text
  | .plain c => [c]
  | .escaped c => ['\\', c]

def isPlain (p : Char → Bool) : PatternToken → Bool
  | .plain c => p c
  | .escaped _ => false

def isOctal : PatternToken → Bool := isPlain fun c => '0' ≤ c && c ≤ '7'

def isDigit : PatternToken → Bool := isPlain Text.isAsciiDigit

def isHex : PatternToken → Bool := isPlain fun c => (Text.hexDigit? c).isSome

def value (base : Nat) (ts : List PatternToken) : Nat :=
  (ts.flatMap text).foldl (fun n c => base * n + (Text.hexDigit? c).getD 0) 0

end PatternToken

structure PatternFlags where
  ignoreCase : Bool := false
  multiline : Bool := false
  dotAll : Bool := false
  verbose : Bool := false
  ascii : Bool := false
  unicode : Bool := false
  template : Bool := false
  deriving DecidableEq, Repr

namespace PatternFlags

def ofChar? (c : Char) : Option PatternFlags :=
  match c with
  | 'i' => some { ignoreCase := true }
  | 'm' => some { multiline := true }
  | 's' => some { dotAll := true }
  | 'x' => some { verbose := true }
  | 'a' => some { ascii := true }
  | 'u' => some { unicode := true }
  | 't' => some { template := true }
  | _ => none

def zip (op : Bool → Bool → Bool) (f g : PatternFlags) : PatternFlags where
  ignoreCase := op f.ignoreCase g.ignoreCase
  multiline := op f.multiline g.multiline
  dotAll := op f.dotAll g.dotAll
  verbose := op f.verbose g.verbose
  ascii := op f.ascii g.ascii
  unicode := op f.unicode g.unicode
  template := op f.template g.template

def union (f g : PatternFlags) : PatternFlags := zip or f g

def ofLetters? (cs : List Char) : Option PatternFlags :=
  cs.foldlM (fun f c => (ofChar? c).map (union f)) {}

def hasType (f : PatternFlags) : Bool := f.ascii || f.unicode

/-- Turns some flags on and some off. Only one of the two about characters can be on. -/
def switched (f on off : PatternFlags) : PatternFlags :=
  let f := if on.hasType then { f with ascii := false, unicode := false } else f
  zip (fun a b => a && !b) (union f on) off

def letters (f : PatternFlags) : Letters :=
  if !f.ignoreCase then .exact else if f.ascii then .ascii else .either

def stop (f : PatternFlags) : Anchor := if f.multiline then .lineStop else .stop

end PatternFlags

namespace Pattern

abbrev Width := Nat × Option Nat

namespace Width

def add (a b : Width) : Width := (a.1 + b.1, do return (← a.2) + (← b.2))

def either (a b : Width) : Width := (min a.1 b.1, do return max (← a.2) (← b.2))

def times (a : Width) (least : Nat) (most : Option Nat) : Width :=
  (a.1 * least, if a.2 = some 0 || most = some 0 then some 0 else do return (← a.2) * (← most))

end Width

def width (groups : List (Option Width)) : Pattern → Width
  | .empty | .anchor _ | .look .. => (0, some 0)
  | .any _ | .oneOf _ => (1, some 1)
  | .seq p q => (width groups p).add (width groups q)
  | .either p q | .given _ p q => (width groups p).either (width groups q)
  | .group _ p | .atomic p => width groups p
  | .times p least most _ => (width groups p).times least most
  | .again i _ => (groups[i - 1]?.join).getD (0, none)

/-- What is left of the text of a pattern, and what is known from what has been read. -/
structure Reading where
  rest : List PatternToken
  groups : List (Option Width) := []
  names : List (Text × Nat) := []
  behind : Option Nat := none
  asked : List Nat := []
  inComment : Bool := false
  deriving DecidableEq, Repr

abbrev Reader := StateT Reading Option

namespace Reader

def take : Reader PatternToken := fun s =>
  match s.rest with
  | [] => none
  | t :: ts => some (t, { s with rest := ts })

def takeWhile (p : PatternToken → Bool) : Reader (List PatternToken) := fun s =>
  some (s.rest.takeWhile p, { s with rest := s.rest.dropWhile p })

def takeIf (p : PatternToken → Bool) : Reader (Option PatternToken) := fun s =>
  match s.rest with
  | t :: ts => if p t then some (some t, { s with rest := ts }) else some (none, s)
  | [] => some (none, s)

def takeUpTo (p : PatternToken → Bool) : Nat → Reader (List PatternToken)
  | 0 => return []
  | n + 1 => do
    match ← takeIf p with
    | none => return []
    | some t => return t :: (← takeUpTo p n)

def accept (c : Char) : Reader Bool := do return (← takeIf (· == .plain c)).isSome

def require (b : Bool) : Reader Unit := if b then pure () else failure

def expect (c : Char) : Reader Unit := do require (← accept c)

def takeUntil (c : Char) : Reader Text := fun s =>
  match s.rest.dropWhile (· != .plain c) with
  | [] => none
  | _ :: ts => some ((s.rest.takeWhile (· != .plain c)).flatMap PatternToken.text, { s with rest := ts })

def name (c : Char) : Reader Text := do
  let t ← takeUntil c
  require !t.isEmpty
  return t

def skipLine : Reader Unit := fun s =>
  match s.rest.dropWhile (· != .plain '\n') with
  | [] => some ((), { s with rest := [], inComment := true })
  | _ :: ts => some ((), { s with rest := ts })

def known {α : Type} (f : Reading → α) : Reader α := fun s => some (f s, s)

def attempt {α : Type} (m : Reader (Option α)) : Reader (Option α) := fun s =>
  match m s with
  | some (none, _) => some (none, s)
  | r => r

end Reader

open Reader

structure Item where
  pattern : Pattern
  repeatable : Bool := true

def Item.ofAnchor (a : Anchor) : Item := { pattern := .anchor a, repeatable := false }

inductive Piece where
  | item (i : Item)
  | instead (i : Item)
  | nothing
  | flags (f : PatternFlags)

/-! ### Characters and classes -/

def letterItem? (c : Char) : Option ClassItem :=
  match c with
  | 'w' => some (.word false)
  | 'W' => some (.word true)
  | 'd' => some (.digit false)
  | 'D' => some (.digit true)
  | 's' => some (.space false)
  | 'S' => some (.space true)
  | _ => none

def controlCode? (c : Char) : Option Nat :=
  match c with
  | 'a' => some 7
  | 'f' => some 12
  | 'n' => some 10
  | 'r' => some 13
  | 't' => some 9
  | 'v' => some 11
  | _ => none

def hexCode (digits : Nat) : Reader Nat := do
  let ts ← takeUpTo PatternToken.isHex digits
  require (ts.length = digits && PatternToken.value 16 ts ≤ 0x10FFFF)
  return PatternToken.value 16 ts

section Names

variable (named? : Text → Option Char)

def namedCode : Reader Nat := do
  expect '\x7b'
  match named? (← name '\x7d') with
  | some c => return c.toNat
  | none => failure

def longCode? (c : Char) : Option (Reader Nat) :=
  match c with
  | 'x' => some (hexCode 2)
  | 'u' => some (hexCode 4)
  | 'U' => some (hexCode 8)
  | 'N' => some (namedCode named?)
  | _ => none

/-- What a character behind a backslash stands for, where digits have a meaning of their own. -/
def escapedItem (digits : Reader ClassItem) (c : Char) : Reader ClassItem :=
  match letterItem? c, controlCode? c, longCode? named? c with
  | some i, _, _ => pure i
  | _, some n, _ => pure (.code n)
  | _, _, some m => .code <$> m
  | _, _, _ =>
    if Text.isAsciiDigit c then digits
    else if Text.isAsciiLetter c then failure
    else pure (.code c.toNat)

def octalItem (c : Char) : Reader ClassItem := do
  require (c ≤ '7')
  let ts ← takeUpTo PatternToken.isOctal 2
  let n := PatternToken.value 8 (.plain c :: ts)
  require (n ≤ 255)
  return .code n

def classAtom : PatternToken → Reader ClassItem
  | .plain c => pure (.code c.toNat)
  | .escaped c => if c = 'b' then pure (.code 8) else escapedItem named? (octalItem c) c

def range (first last : ClassItem) : Reader ClassItem :=
  match first, last with
  | .code a, .code b => if a ≤ b then pure (.range a b) else failure
  | _, _ => failure

/-- The items of a class up to its closing bracket, which is an ordinary character at the beginning. -/
def classItems : Nat → List ClassItem → Reader (List ClassItem)
  | 0, _ => failure
  | fuel + 1, items => do
    let t ← take
    if t = .plain ']' && !items.isEmpty then pure items
    else do
      let item ← classAtom named? t
      if ← accept '-' then do
        let u ← take
        if u = .plain ']' then pure (items ++ [item, .code 45])
        else classItems fuel (items ++ [← range item (← classAtom named? u)])
      else classItems fuel (items ++ [item])

def oneOfClass (fuel : Nat) (flags : PatternFlags) : Reader Item := do
  let negated ← accept '^'
  let items ← classItems named? fuel []
  return { pattern := .oneOf { items, negated, letters := flags.letters, ascii := flags.ascii } }

def single (flags : PatternFlags) (i : ClassItem) : Item :=
  { pattern := .oneOf { items := [i], letters := flags.letters, ascii := flags.ascii } }

/-! ### References to groups -/

def isClosed (i : Nat) (s : Reading) : Bool := i != 0 && (s.groups[i - 1]?.join).isSome

def guardBehind (i : Nat) : Reader Unit := do
  require (← known fun s => s.behind.all fun n => isClosed i s && i ≤ n)

def reference (flags : PatternFlags) (i : Nat) : Reader Item := do
  require (← known (isClosed i))
  guardBehind i
  return { pattern := .again i flags.letters }

def groupNamed (name : Text) : Reader Nat := do
  match ← known fun s => s.names.lookup name with
  | some i => pure i
  | none => failure

def numbered (flags : PatternFlags) (c : Char) : Reader Item := do
  match ← takeIf PatternToken.isDigit with
  | none => reference flags (PatternToken.value 10 [.plain c])
  | some d =>
    match ← takeIf (fun e => c ≤ '7' && d.isOctal && e.isOctal) with
    | none => reference flags (PatternToken.value 10 [.plain c, d])
    | some e => do
      require (PatternToken.value 8 [.plain c, d, e] ≤ 255)
      return single flags (.code (PatternToken.value 8 [.plain c, d, e]))

def escaped (flags : PatternFlags) (c : Char) : Reader Item :=
  match c with
  | 'A' => pure (.ofAnchor .start)
  | 'Z' => pure (.ofAnchor .limit)
  | 'b' => pure (.ofAnchor (.boundary false flags.ascii))
  | 'B' => pure (.ofAnchor (.boundary true flags.ascii))
  | c =>
    if Text.isAsciiDigit c && c != '0' then numbered flags c
    else single flags <$> escapedItem named? (octalItem c) c

/-! ### Repetitions -/

def repetitionLimit : Nat := 4294967295

def upperBound (comma : Bool) (low : List PatternToken) : Reader (List PatternToken) :=
  if comma then takeWhile PatternToken.isDigit else pure low

def bounds? : Reader (Option (Nat × Option Nat)) := attempt do
  let low ← takeWhile PatternToken.isDigit
  let comma ← accept ','
  let high ← upperBound comma low
  let closed ← accept '\x7d'
  if !closed || (low.isEmpty && !comma) then pure none
  else do
    let least := PatternToken.value 10 low
    let most := PatternToken.value 10 high
    require (least < repetitionLimit && most < repetitionLimit && (high.isEmpty || least ≤ most))
    return some (least, if high.isEmpty then none else some most)

def manner : Reader Manner := do
  if ← accept '?' then pure .lazy
  else if ← accept '+' then pure .possessive
  else pure .greedy

def repeated (flags : PatternFlags) (last : Option Item) (bounds : Nat × Option Nat) : Reader Piece :=
  match last with
  | none => failure
  | some i => do
    require (i.repeatable && !flags.template)
    return .instead { pattern := .times i.pattern bounds.1 bounds.2 (← manner), repeatable := false }

/-! ### Parentheses -/

def isFlag (c : Char) : Bool := "iLmsxatu".toList.contains c

def flagLetters : Reader (List Char) := do
  return (← takeWhile (PatternToken.isPlain isFlag)).flatMap PatternToken.text

def flagsOf (cs : List Char) : Reader PatternFlags :=
  match PatternFlags.ofLetters? cs with
  | some f => if f.ascii && f.unicode then failure else pure f
  | none => failure

def flagsOff : Reader PatternFlags := do
  let cs ← flagLetters
  require !cs.isEmpty
  let off ← flagsOf cs
  expect ':'
  require !(off.hasType || off.template)
  return off

def switches (on off : PatternFlags) : Reader (PatternFlags × Option PatternFlags) := do
  require (!on.template && PatternFlags.zip and on off == {})
  return (on, some off)

/-- Flags, from the character behind the question mark on: those for all that follows, or those that are
turned on and off up to a closing parenthesis. -/
def flagGroup (c : Char) : Reader (PatternFlags × Option PatternFlags) := do
  if c = '-' then do switches {} (← flagsOff)
  else do
    let on ← flagsOf (c :: (← flagLetters))
    match ← take with
    | .plain ')' => pure (on, none)
    | .plain ':' => switches on {}
    | .plain '-' => do switches on (← flagsOff)
    | _ => failure

def groupNumber? (t : Text) : Option Nat :=
  let t := Text.strip t
  let ds := (if t.head? = some '+' then t.tail else t).splitOn '_'
  if ds.all fun d => !d.isEmpty && d.all Text.isDecimal then
    some (ds.flatten.foldl (fun n c => 10 * n + (Text.decimalValue? c).getD 0) 0)
  else none

/-- The group with a number that is asked about. There has to be one in the end. -/
def groupNumbered (i? : Option Nat) : Reader Nat :=
  match i? with
  | none => failure
  | some i => do
    require (i != 0)
    modify fun s => { s with asked := i :: s.asked }
    return i

def askedGroup (t : Text) : Reader Nat :=
  if t.isIdentifier then groupNamed t else groupNumbered (groupNumber? t)

def condition : Reader Nat := do
  let i ← askedGroup (← name ')')
  guardBehind i
  return i

def checkedName (c : Char) : Reader Text := do
  let t ← name c
  require t.isIdentifier
  return t

def openGroup (name : Option Text) : Reader Nat := do
  let i ← known fun s => s.groups.length + 1
  require (← known fun s => name.all fun t => (s.names.lookup t).isNone)
  modify fun s =>
    { s with groups := s.groups ++ [none], names := (name.map fun t => (t, i)).toList ++ s.names }
  return i

def closeGroup (i : Nat) (p : Pattern) : Reader Unit :=
  modify fun s => { s with groups := s.groups.set (i - 1) (some (p.width s.groups)) }

/-- How far a look behind goes back is the width of its pattern, which has to be fixed. -/
def behindWidth (p : Pattern) : Reader Nat := do
  let (least, most) ← known fun s => p.width s.groups
  require (most = some least && least ≤ repetitionLimit)
  return least

section Nested

variable (nested : PatternFlags → Reader (List Pattern)) (flags : PatternFlags)

def contents (flags : PatternFlags) : Reader (List Pattern) := do
  let ps ← nested flags
  expect ')'
  return ps

def capture (name : Option Text) : Reader Piece := do
  let i ← openGroup name
  let p := anyOf (← contents nested flags)
  closeGroup i p
  return .item { pattern := .group i p }

def grouped (f : Pattern → Pattern) : Reader Piece := do
  return .item { pattern := f (anyOf (← contents nested flags)) }

def lookBehind (negated : Bool) : Reader Piece := do
  let outer ← known Reading.behind
  modify fun s => { s with behind := s.behind.or (some s.groups.length) }
  let p := anyOf (← contents nested flags)
  modify fun s => { s with behind := outer }
  return .item { pattern := .look (some (← behindWidth p)) negated p }

def conditional : Reader Piece := do
  let i ← condition
  match ← contents nested flags with
  | [p] => pure (.item { pattern := .given i p .empty })
  | [p, q] => pure (.item { pattern := .given i p q })
  | _ => failure

def named : Reader Piece := do
  if ← accept '<' then do capture nested flags (some (← checkedName '>'))
  else do
    expect '='
    return .item (← reference flags (← groupNamed (← checkedName ')')))

def flagged (atStart : Bool) (c : Char) : Reader Piece := do
  match ← flagGroup c with
  | (on, none) => if atStart then pure (.flags (flags.union on)) else failure
  | (on, some off) => grouped nested (flags.switched on off) id

/-- What stands in parentheses, the first of which has been read. Flags for all that follows have to stand at
the very beginning. -/
def parenthesis (atStart : Bool) : Reader Piece := do
  if ← accept '?' then
    match ← take with
    | .plain 'P' => named nested flags
    | .plain ':' => grouped nested flags id
    | .plain '>' => grouped nested flags .atomic
    | .plain '#' => do
      let _ ← takeUntil ')'
      return .nothing
    | .plain '=' => grouped nested flags (.look none false)
    | .plain '!' => grouped nested flags (.look none true)
    | .plain '<' => do
      match ← take with
      | .plain '=' => lookBehind nested flags false
      | .plain '!' => lookBehind nested flags true
      | _ => failure
    | .plain '(' => conditional nested flags
    | .plain c => if isFlag c || c = '-' then flagged nested flags atStart c else failure
    | .escaped _ => failure
  else capture nested flags none

/-! ### Sequences and alternatives -/

def brace (last : Option Item) : Reader Piece := do
  match ← bounds? with
  | some bounds => repeated flags last bounds
  | none => pure (.item (single flags (.code 123)))

def piece (fuel : Nat) (atStart : Bool) (last : Option Item) : PatternToken → Reader Piece
  | .escaped c => .item <$> escaped named? flags c
  | .plain '[' => .item <$> oneOfClass named? fuel flags
  | .plain '(' => parenthesis nested flags atStart
  | .plain '.' => pure (.item { pattern := .any flags.dotAll })
  | .plain '^' => pure (.item (.ofAnchor (if flags.multiline then .lineStart else .start)))
  | .plain '$' => pure (.item (.ofAnchor flags.stop))
  | .plain '*' => repeated flags last (0, none)
  | .plain '+' => repeated flags last (1, none)
  | .plain '?' => repeated flags last (0, some 1)
  | .plain '\x7b' => brace flags last
  | .plain c => pure (.item (single flags (.code c.toNat)))

end Nested

def isBlank : PatternToken → Bool := PatternToken.isPlain fun c => c = ' ' || (9 ≤ c.toNat && c.toNat ≤ 13)

def sequence (nested : PatternFlags → Reader (List Pattern)) :
    Nat → PatternFlags → Bool → List Item → Reader (List Item × PatternFlags)
  | 0, _, _, _ => failure
  | fuel + 1, flags, first, items => do
    match ← takeIf (fun t => t != .plain '|' && t != .plain ')') with
    | none => pure (items, flags)
    | some t =>
      if flags.verbose && isBlank t then sequence nested fuel flags first items
      else if flags.verbose && t = .plain '#' then do
        skipLine
        sequence nested fuel flags first items
      else do
        match ← piece named? nested flags fuel (first && items.isEmpty) items.getLast? t with
        | .item i => sequence nested fuel flags first (items ++ [i])
        | .instead i => sequence nested fuel flags first (items.dropLast ++ [i])
        | .nothing => sequence nested fuel flags first items
        | .flags f => sequence nested fuel f first items

def alternation (nested : PatternFlags → Reader (List Pattern)) :
    Nat → PatternFlags → Bool → Reader (List Pattern × PatternFlags)
  | 0, _, _ => failure
  | fuel + 1, flags, first => do
    let (items, flags) ← sequence named? nested fuel flags first []
    let p := inOrder (items.map Item.pattern)
    if ← accept '|' then do
      let (ps, flags) ← alternation nested fuel flags false
      return (p :: ps, flags)
    else pure ([p], flags)

def alternatives (fuel : Nat) : Nat → PatternFlags → Reader (List Pattern)
  | 0, _ => failure
  | depth + 1, flags => do return (← alternation named? (alternatives fuel depth) fuel flags false).1

/-- A pattern with its alternatives, and what there is to say of its text: whether its last alternative
regards lines, and whether it ends in a comment. -/
structure Source where
  alternatives : List Pattern
  multiline : Bool := false
  inComment : Bool := false
  deriving DecidableEq, Repr

def Source.pattern (s : Source) : Pattern := anyOf s.alternatives

def Source.matcher (s : Source) : Matcher := ⟨s.pattern.matchesOpening, s.pattern.occursIn⟩

def Source.ofTokens? (ts : List PatternToken) : Option Source := do
  let fuel := ts.length + 2
  let ((ps, flags), s) ← alternation named? (Pattern.alternatives named? fuel fuel) fuel {} true { rest := ts }
  if s.rest.isEmpty && !(flags.ascii && flags.unicode) && s.asked.all (· ≤ s.groups.length) then
    some { alternatives := ps, multiline := flags.multiline, inComment := s.inComment }
  else none

def Source.ofText? (t : Text) : Option Source := (PatternToken.ofText? t).bind (Source.ofTokens? named?)

end Names

end Pattern

end DocLint
