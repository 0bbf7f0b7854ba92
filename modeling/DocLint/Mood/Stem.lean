import DocLint.Text

/-!
Stems of English words: endings are taken off step by step, as far as the regions of the word
allow. A `y` that counts as a consonant is written `Y` on the way.
-/

set_option autoImplicit false

namespace DocLint.Mood.Stem

def isVowel (c : Char) : Bool := "aeiouy".toList.contains c

/-- Writes `Y` for each `y` behind a vowel; `afterVowel` tells whether a vowel stands before. -/
def markConsonants : Bool → Text → Text
  | _, [] => []
  | afterVowel, c :: cs =>
    let d := if afterVowel && c = 'y' then 'Y' else c
    d :: markConsonants (isVowel d) cs

/-- Drops an apostrophe at the beginning and marks each `y` that counts as a consonant. -/
def prepared (word : Text) : Text :=
  let word := if "'".toList.isPrefixOf word then word.drop 1 else word
  match word with
  | 'y' :: cs => 'Y' :: markConsonants false cs
  | _ => markConsonants false word

def unmarked (word : Text) : Text := word.map fun c => if c = 'Y' then 'y' else c

def afterSyllable? (t : Text) : Option Nat :=
  let onset := t.takeWhile (!isVowel ·)
  let nucleus := (t.drop onset.length).takeWhile isVowel
  let place := onset.length + nucleus.length + 1
  if nucleus.isEmpty || place > t.length then none else some place

def openings : List Text := ["gener", "commun", "arsen"]

structure Regions where
  first : Nat
  second : Nat
  deriving DecidableEq, Repr

def Regions.of (word : Text) : Regions :=
  let first? := match openings.find? (·.isPrefixOf word) with
    | some o => some o.length
    | none => afterSyllable? word
  match first? with
  | none => ⟨word.length, word.length⟩
  | some first =>
    match afterSyllable? (word.drop first) with
    | none => ⟨first, word.length⟩
    | some n => ⟨first, first + n⟩

def endsShort (t : Text) : Bool :=
  match t.reverse with
  | a :: b :: c :: _ =>
    !isVowel a && !"wxY".toList.contains a && isVowel b && !isVowel c
  | [a, b] => !isVowel a && isVowel b
  | _ => false

def ending? (endings : List Text) (word : Text) : Option Text :=
  (endings.filter (·.isSuffixOf word)).foldl
    (fun best e => match best with
      | some b => if b.length < e.length then some e else some b
      | none => some e) none

def cutEnd (n : Nat) (word : Text) : Text := word.take (word.length - n)

def swap (old new word : Text) : Text := cutEnd old.length word ++ new

def dropGenitive (word : Text) : Text :=
  match ending? ["'", "'s", "'s'"] word with
  | some e => cutEnd e.length word
  | none => word

def dropPlural (word : Text) : Text :=
  match ending? ["sses", "ied", "ies", "s", "us", "ss"] word with
  | none => word
  | some e =>
    if e = "sses" then swap e "ss" word
    else if e = "ied" ∨ e = "ies" then swap e (if word.length > 4 then "i" else "ie") word
    else if e = "s" then
      if (cutEnd 2 word).any isVowel then cutEnd 1 word else word
    else word

def doubles : List Text := ["bb", "dd", "ff", "gg", "mm", "nn", "pp", "rr", "tt"]

def mended (r : Regions) (word : Text) : Text :=
  if (["at", "bl", "iz"] : List Text).any (·.isSuffixOf word) then word ++ "e".toList
  else if doubles.any (·.isSuffixOf word) then cutEnd 1 word
  else if word.length = r.first && endsShort word then word ++ "e".toList
  else word

def dropVerbal (r : Regions) (word : Text) : Text :=
  match ending? ["eed", "eedly", "ed", "edly", "ing", "ingly"] word with
  | none => word
  | some e =>
    let front := cutEnd e.length word
    if e = "eed" ∨ e = "eedly" then
      if r.first ≤ front.length then front ++ "ee".toList else word
    else if front.any isVowel then mended r front
    else word

def softenLast (word : Text) : Text :=
  match word.reverse with
  | y :: c :: _ :: _ =>
    if (y = 'y' ∨ y = 'Y') ∧ !isVowel c then cutEnd 1 word ++ "i".toList else word
  | _ => word

def longEndings : List (Text × Text) :=
  [("tional", "tion"), ("enci", "ence"), ("anci", "ance"), ("abli", "able"), ("entli", "ent"),
    ("izer", "ize"), ("ization", "ize"), ("ational", "ate"), ("ation", "ate"), ("ator", "ate"),
    ("alism", "al"), ("aliti", "al"), ("alli", "al"), ("fulness", "ful"), ("ousli", "ous"),
    ("ousness", "ous"), ("iveness", "ive"), ("iviti", "ive"), ("biliti", "ble"), ("bli", "ble"),
    ("ogi", "og"), ("fulli", "ful"), ("lessli", "less"), ("li", "")]

def liOpenings : Text := "cdeghkmnrt"

def shortenLong (r : Regions) (word : Text) : Text :=
  match ending? (longEndings.map (·.1)) word with
  | none => word
  | some e =>
    let front := cutEnd e.length word
    if r.first > front.length then word
    else if e = "ogi" then if "l".toList.isSuffixOf front then swap e "og" word else word
    else if e = "li" then
      if (front.getLast?.map liOpenings.contains).getD false then front else word
    else front ++ (longEndings.lookup e).getD []

def mediumEndings : List (Text × Text) :=
  [("tional", "tion"), ("ational", "ate"), ("alize", "al"), ("icate", "ic"), ("iciti", "ic"),
    ("ical", "ic"), ("ful", ""), ("ness", ""), ("ative", "")]

def shortenMedium (r : Regions) (word : Text) : Text :=
  match ending? (mediumEndings.map (·.1)) word with
  | none => word
  | some e =>
    let front := cutEnd e.length word
    if r.first > front.length then word
    else if e = "ative" ∧ r.second > front.length then word
    else front ++ (mediumEndings.lookup e).getD []

def shortEndings : List Text :=
  ["al", "ance", "ence", "er", "ic", "able", "ible", "ant", "ement", "ment", "ent", "ism", "ate",
    "iti", "ous", "ive", "ize", "ion"]

def dropShort (r : Regions) (word : Text) : Text :=
  match ending? shortEndings word with
  | none => word
  | some e =>
    let front := cutEnd e.length word
    if r.second > front.length then word
    else if e = "ion" then
      if "s".toList.isSuffixOf front || "t".toList.isSuffixOf front then front else word
    else front

def dropLast (r : Regions) (word : Text) : Text :=
  let front := cutEnd 1 word
  if "e".toList.isSuffixOf word then
    if r.second ≤ front.length || (r.first ≤ front.length && !endsShort front) then front else word
  else if "ll".toList.isSuffixOf word then
    if r.second ≤ front.length then front else word
  else word

def irregular : List (Text × Text) :=
  [("skis", "ski"), ("skies", "sky"), ("dying", "die"), ("lying", "lie"), ("tying", "tie"),
    ("idly", "idl"), ("gently", "gentl"), ("ugly", "ugli"), ("early", "earli"), ("only", "onli"),
    ("singly", "singl"), ("sky", "sky"), ("news", "news"), ("howe", "howe"), ("atlas", "atlas"),
    ("cosmos", "cosmos"), ("bias", "bias"), ("andes", "andes")]

def invariant : List Text :=
  ["inning", "outing", "canning", "herring", "earring", "proceed", "exceed", "succeed"]

def regular (word : Text) : Text :=
  let word := prepared word
  let r := Regions.of word
  let word := dropPlural (dropGenitive word)
  if invariant.contains word then word
  else
    unmarked (dropLast r (dropShort r (shortenMedium r (shortenLong r
      (softenLast (dropVerbal r word))))))

end Stem

def stem (word : Text) : Text :=
  match Stem.irregular.lookup word with
  | some s => s
  | none => if word.length < 3 then word else Stem.regular word

end DocLint.Mood
