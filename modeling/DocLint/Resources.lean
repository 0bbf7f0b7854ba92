import DocLint.Text

/-!
What is taken from elsewhere and not defined here: the names of characters, the encodings of files, the
values of formatted literals, the stems of words and the patterns for names. Nothing is assumed of them.
-/

set_option autoImplicit false

namespace DocLint

abbrev Bytes := List UInt8

/-- What a pattern tells of a text: whether the text opens with a match, and whether it holds one. -/
structure Matcher where
  opens : Text → Bool
  occurs : Text → Bool

inductive Codec where
  | text (decode? : Bytes → Option Text)
  | other

class Resources where
  /-- The character of a name in capital letters. -/
  charNamed? : Text → Option Char
  codec? : Text → Option Codec
  /-- The text of a formatted literal with this body and these fields, raw or not, or why there is none. -/
  formatted : Bool → Text → List Text → Except Text Text
  stem : Text → Text
  matcher? : Text → Option Matcher

end DocLint
