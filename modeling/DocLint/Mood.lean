import DocLint.Mood.Words
import DocLint.Resources

/-!
The imperative mood: commands open with a verb in its imperative form.
-/

set_option autoImplicit false

namespace DocLint.Mood

variable [Resources]

def insertBy (key : Text → Text) (groups : List (Text × List Text)) (word : Text) : List (Text × List Text) :=
  let k := key word
  match groups with
  | [] => [(k, [word])]
  | (t, words) :: rest =>
    if t = k then (t, if words.contains word then words else words ++ [word]) :: rest
    else (t, words) :: insertBy key rest word

def groupBy (key : Text → Text) (words : List Text) : List (Text × List Text) := words.foldl (insertBy key) []

def groupByStem (words : List Text) : List (Text × List Text) := groupBy Resources.stem words

def verbs : List (Text × List Text) := groupByStem imperatives

def formsOf? (word : Text) : Option (List Text) := verbs.lookup (Resources.stem word)

def closest (word : Text) : List Text → Option Text
  | [] => none
  | f :: fs =>
    some (fs.foldl (fun best g =>
      if Text.commonPrefixLength word best < Text.commonPrefixLength word g then g else best) f)

inductive Verdict where
  | fine
  | unfit
  | instead (form : Text)
  deriving DecidableEq, Repr

/-- Judges a word in lower case by the imperative forms of its verb. -/
def judgeBy (forms? : Text → Option (List Text)) (word : Text) : Verdict :=
  if nonImperatives.contains word then .unfit
  else
    match forms? word with
    | none => .fine
    | some forms =>
      if forms.contains word then .fine
      else
        match closest word forms with
        | some f => .instead f
        | none => .fine

def judge (word : Text) : Verdict := judgeBy formsOf? word

end DocLint.Mood
