import DocLint.Text.Property
import DocLint.Text.Property.Composition

/-!
Compatibility normal form of identifiers: characters are decomposed, the marks behind a letter are
put into the order of their combining classes, and pairs are composed again.
-/

set_option autoImplicit false

namespace DocLint.Text

def decomposeHangul (n : Nat) : Text :=
  let s := n - 0xAC00
  let jamo := [0x1100 + s / 588, 0x1161 + (s % 588) / 28] ++
    (if s % 28 = 0 then [] else [0x11A7 + s % 28])
  jamo.map Char.ofNat

structure Composition where
  base : Char
  mark : Char
  composed : Char

def compositions : List Composition := Property.markedLetters.flatMap fun (mark, pairs) =>
  (blankSeparated pairs.toList).filterMap fun
    | [base, composed] => some { base, mark := Char.ofNat mark, composed }
    | _ => none

/-- What the character of code `n` stands for in `runs`, whose texts `parts` takes apart. -/
def inRuns? (parts : Text → List Text) (runs : List (Nat × String)) (n : Nat) : Option Text :=
  runs.findSome? fun (first, targets) =>
    if first ≤ n then (parts targets.toList)[n - first]? else none

def letters (t : Text) : List Text := (t.filter (· ≠ '\n')).map ([·])

def decomposeOnce (c : Char) : Text :=
  let n := c.toNat
  if isAscii c then [c]
  else if 0xAC00 ≤ n ∧ n ≤ 0xD7A3 then decomposeHangul n
  else
    match compositions.find? (·.composed == c) with
    | some e => [e.base, e.mark]
    | none =>
      (inRuns? letters Property.letterRuns n <|> inRuns? blankSeparated Property.sequenceRuns n <|>
        Property.decompositions.image? c).getD [c]

/-- A character is composed in three steps at most. -/
def decomposeChar (c : Char) : Text := Nat.repeat (·.flatMap decomposeOnce) 3 [c]

def combiningClass (c : Char) : Nat :=
  if isAscii c then 0
  else ((Property.combiningClasses.find? (·.2.contains c)).map (·.1)).getD 0

def insertMark (c : Char) : Text → Text
  | [] => [c]
  | d :: ds =>
    if combiningClass d = 0 ∨ combiningClass c ≤ combiningClass d then c :: d :: ds
    else d :: insertMark c ds

def reorderMarks : Text → Text
  | [] => []
  | c :: cs => if combiningClass c = 0 then c :: reorderMarks cs else insertMark c (reorderMarks cs)

def composeHangul? (a b : Nat) : Option Nat :=
  if 0x1100 ≤ a ∧ a < 0x1113 ∧ 0x1161 ≤ b ∧ b < 0x1176 then
    some (0xAC00 + ((a - 0x1100) * 21 + (b - 0x1161)) * 28)
  else if 0xAC00 ≤ a ∧ a ≤ 0xD7A3 ∧ (a - 0xAC00) % 28 = 0 ∧ 0x11A8 ≤ b ∧ b < 0x11C3 then
    some (a + (b - 0x11A7))
  else none

def composePair? (a b : Char) : Option Char :=
  match composeHangul? a.toNat b.toNat with
  | some n => some (Char.ofNat n)
  | none => (compositions.find? fun e => e.base == a && e.mark == b).map (·.composed)

/-- Composes the characters behind the starter `starter` with it where no mark between blocks
them; `kept` are the reversed marks that stay, and `lastClass` the class of the last of them. -/
def composeFrom (starter : Char) (kept : Text) (lastClass : Nat) : Text → Text
  | [] => starter :: kept.reverse
  | c :: cs =>
    let k := combiningClass c
    let blocked := !kept.isEmpty && (lastClass == 0 || lastClass ≥ k)
    match (if blocked then none else composePair? starter c) with
    | some d => composeFrom d kept lastClass cs
    | none =>
      if k = 0 then starter :: kept.reverse ++ composeFrom c [] 0 cs
      else composeFrom starter (c :: kept) k cs

def compose : Text → Text
  | [] => []
  | c :: cs => composeFrom c [] 0 cs

def normalizeIdentifier (t : Text) : Text :=
  if t.all isAscii then t else compose (reorderMarks (t.flatMap decomposeChar))

end DocLint.Text
