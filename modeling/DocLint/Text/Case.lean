import DocLint.Text.Property
import DocLint.Text.Property.Case

/-!
Case conversion of whole texts. A character may turn into several, and the small sigma at the end
of a word has a form of its own.
-/

set_option autoImplicit false

namespace DocLint.Text

def lowerAscii (c : Char) : Char := if isAsciiUpper c then Char.ofNat (c.toNat + 32) else c

def upperAscii (c : Char) : Char := if isAsciiLower c then Char.ofNat (c.toNat - 32) else c

def lowerChar (c : Char) : Text :=
  if isAscii c then [lowerAscii c]
  else if c.toNat = 0x130 then ['i', Char.ofNat 0x307]
  else (Property.lowerMapping.image? c).getD [c]

def upperChar (c : Char) : Text :=
  if isAscii c then [upperAscii c]
  else ((Property.upperSequences.image? c).orElse fun _ => Property.upperMapping.image? c).getD [c]

def titleChar (c : Char) : Text :=
  if isAscii c then [upperAscii c]
  else (Property.titleSequences.image? c).getD (upperChar c)

def isCased (c : Char) : Bool :=
  if isAscii c then isAsciiLetter c else Property.casedRanges.contains c

def isCaseIgnorable (c : Char) : Bool :=
  if isAscii c then c == '\'' || c == '.' || c == ':' || c == '^' || c.toNat == 96
  else Property.caseIgnorableRanges.contains c

def capitalSigma : Char := Char.ofNat 0x3A3

/-- Lower case form of a character between the reversed text before it and the text after it: a
capital sigma at the end of a word gets the final form. -/
def lowerIn (before : Text) (c : Char) (after : Text) : Text :=
  if c = capitalSigma then
    let cased := fun t : Text => match t.dropWhile isCaseIgnorable with | [] => false | d :: _ => isCased d
    if cased before && !cased after then [Char.ofNat 0x3C2] else [Char.ofNat 0x3C3]
  else lowerChar c

def lowerAfter (before : Text) : Text → Text
  | [] => []
  | c :: cs => lowerIn before c cs ++ lowerAfter (c :: before) cs

def lower (t : Text) : Text := lowerAfter [] t

def upper (t : Text) : Text := t.flatMap upperChar

def capitalize : Text → Text
  | [] => []
  | c :: cs => titleChar c ++ lowerAfter [c] cs

/-- Title case of the text that follows the reversed text `before`: a character is lowered exactly
if the one before it has a case. -/
def titleAfter (before : Text) : Text → Text
  | [] => []
  | c :: cs =>
    let inWord := match before with | [] => false | d :: _ => isCased d
    (if inWord then lowerIn before c cs else titleChar c) ++ titleAfter (c :: before) cs

def title (t : Text) : Text := titleAfter [] t

end DocLint.Text
