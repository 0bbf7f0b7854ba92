import DocLint.Text.Ranges
import DocLint.Text.Case

/-!
Names of characters: Latin and Greek letters, punctuation and common symbols.
-/

set_option autoImplicit false

namespace DocLint.Text

def charNameOpenings : List (Text × Text) := [
  ("LC", "LATIN CAPITAL LETTER"), ("LS", "LATIN SMALL LETTER"), ("GC", "GREEK CAPITAL LETTER"),
  ("GS", "GREEK SMALL LETTER"), ("CC", "COPTIC CAPITAL LETTER"), ("CS", "COPTIC SMALL LETTER")]

/-- The names of successive characters, with short openings. -/
def charNameRuns : List (Nat × Text) := [
  (0x20, "
SPACE,EXCLAMATION MARK,QUOTATION MARK,NUMBER SIGN,DOLLAR SIGN,PERCENT SIGN,AMPERSAND,APOSTROPHE
LEFT PARENTHESIS,RIGHT PARENTHESIS,ASTERISK,PLUS SIGN,COMMA,HYPHEN-MINUS,FULL STOP,SOLIDUS
DIGIT ZERO,DIGIT ONE,DIGIT TWO,DIGIT THREE,DIGIT FOUR,DIGIT FIVE,DIGIT SIX,DIGIT SEVEN,DIGIT EIGHT
DIGIT NINE,COLON,SEMICOLON,LESS-THAN SIGN,EQUALS SIGN,GREATER-THAN SIGN,QUESTION MARK,COMMERCIAL AT
LC A,LC B,LC C,LC D,LC E,LC F,LC G,LC H,LC I,LC J,LC K,LC L,LC M,LC N,LC O,LC P,LC Q,LC R,LC S,LC T
LC U,LC V,LC W,LC X,LC Y,LC Z,LEFT SQUARE BRACKET,REVERSE SOLIDUS,RIGHT SQUARE BRACKET
CIRCUMFLEX ACCENT,LOW LINE,GRAVE ACCENT,LS A,LS B,LS C,LS D,LS E,LS F,LS G,LS H,LS I,LS J,LS K,LS L
LS M,LS N,LS O,LS P,LS Q,LS R,LS S,LS T,LS U,LS V,LS W,LS X,LS Y,LS Z,LEFT CURLY BRACKET
VERTICAL LINE,RIGHT CURLY BRACKET,TILDE"),
  (0xA0, "
NO-BREAK SPACE,INVERTED EXCLAMATION MARK,CENT SIGN,POUND SIGN,CURRENCY SIGN,YEN SIGN,BROKEN BAR
SECTION SIGN,DIAERESIS,COPYRIGHT SIGN,FEMININE ORDINAL INDICATOR
LEFT-POINTING DOUBLE ANGLE QUOTATION MARK,NOT SIGN,SOFT HYPHEN,REGISTERED SIGN,MACRON,DEGREE SIGN
PLUS-MINUS SIGN,SUPERSCRIPT TWO,SUPERSCRIPT THREE,ACUTE ACCENT,MICRO SIGN,PILCROW SIGN,MIDDLE DOT
CEDILLA,SUPERSCRIPT ONE,MASCULINE ORDINAL INDICATOR,RIGHT-POINTING DOUBLE ANGLE QUOTATION MARK
VULGAR FRACTION ONE QUARTER,VULGAR FRACTION ONE HALF,VULGAR FRACTION THREE QUARTERS
INVERTED QUESTION MARK,LC A WITH GRAVE,LC A WITH ACUTE,LC A WITH CIRCUMFLEX,LC A WITH TILDE
LC A WITH DIAERESIS,LC A WITH RING ABOVE,LC AE,LC C WITH CEDILLA,LC E WITH GRAVE,LC E WITH ACUTE
LC E WITH CIRCUMFLEX,LC E WITH DIAERESIS,LC I WITH GRAVE,LC I WITH ACUTE,LC I WITH CIRCUMFLEX
LC I WITH DIAERESIS,LC ETH,LC N WITH TILDE,LC O WITH GRAVE,LC O WITH ACUTE,LC O WITH CIRCUMFLEX
LC O WITH TILDE,LC O WITH DIAERESIS,MULTIPLICATION SIGN,LC O WITH STROKE,LC U WITH GRAVE
LC U WITH ACUTE,LC U WITH CIRCUMFLEX,LC U WITH DIAERESIS,LC Y WITH ACUTE,LC THORN,LS SHARP S
LS A WITH GRAVE,LS A WITH ACUTE,LS A WITH CIRCUMFLEX,LS A WITH TILDE,LS A WITH DIAERESIS
LS A WITH RING ABOVE,LS AE,LS C WITH CEDILLA,LS E WITH GRAVE,LS E WITH ACUTE,LS E WITH CIRCUMFLEX
LS E WITH DIAERESIS,LS I WITH GRAVE,LS I WITH ACUTE,LS I WITH CIRCUMFLEX,LS I WITH DIAERESIS,LS ETH
LS N WITH TILDE,LS O WITH GRAVE,LS O WITH ACUTE,LS O WITH CIRCUMFLEX,LS O WITH TILDE
LS O WITH DIAERESIS,DIVISION SIGN,LS O WITH STROKE,LS U WITH GRAVE,LS U WITH ACUTE
LS U WITH CIRCUMFLEX,LS U WITH DIAERESIS,LS Y WITH ACUTE,LS THORN,LS Y WITH DIAERESIS
LC A WITH MACRON,LS A WITH MACRON,LC A WITH BREVE,LS A WITH BREVE,LC A WITH OGONEK,LS A WITH OGONEK
LC C WITH ACUTE,LS C WITH ACUTE,LC C WITH CIRCUMFLEX,LS C WITH CIRCUMFLEX,LC C WITH DOT ABOVE
LS C WITH DOT ABOVE,LC C WITH CARON,LS C WITH CARON,LC D WITH CARON,LS D WITH CARON,LC D WITH STROKE
LS D WITH STROKE,LC E WITH MACRON,LS E WITH MACRON,LC E WITH BREVE,LS E WITH BREVE
LC E WITH DOT ABOVE,LS E WITH DOT ABOVE,LC E WITH OGONEK,LS E WITH OGONEK,LC E WITH CARON
LS E WITH CARON,LC G WITH CIRCUMFLEX,LS G WITH CIRCUMFLEX,LC G WITH BREVE,LS G WITH BREVE
LC G WITH DOT ABOVE,LS G WITH DOT ABOVE,LC G WITH CEDILLA,LS G WITH CEDILLA,LC H WITH CIRCUMFLEX
LS H WITH CIRCUMFLEX,LC H WITH STROKE,LS H WITH STROKE,LC I WITH TILDE,LS I WITH TILDE
LC I WITH MACRON,LS I WITH MACRON,LC I WITH BREVE,LS I WITH BREVE,LC I WITH OGONEK,LS I WITH OGONEK
LC I WITH DOT ABOVE,LS DOTLESS I,LATIN CAPITAL LIGATURE IJ,LATIN SMALL LIGATURE IJ
LC J WITH CIRCUMFLEX,LS J WITH CIRCUMFLEX,LC K WITH CEDILLA,LS K WITH CEDILLA,LS KRA,LC L WITH ACUTE
LS L WITH ACUTE,LC L WITH CEDILLA,LS L WITH CEDILLA,LC L WITH CARON,LS L WITH CARON
LC L WITH MIDDLE DOT,LS L WITH MIDDLE DOT,LC L WITH STROKE,LS L WITH STROKE,LC N WITH ACUTE
LS N WITH ACUTE,LC N WITH CEDILLA,LS N WITH CEDILLA,LC N WITH CARON,LS N WITH CARON
LS N PRECEDED BY APOSTROPHE,LC ENG,LS ENG,LC O WITH MACRON,LS O WITH MACRON,LC O WITH BREVE
LS O WITH BREVE,LC O WITH DOUBLE ACUTE,LS O WITH DOUBLE ACUTE,LATIN CAPITAL LIGATURE OE
LATIN SMALL LIGATURE OE,LC R WITH ACUTE,LS R WITH ACUTE,LC R WITH CEDILLA,LS R WITH CEDILLA
LC R WITH CARON,LS R WITH CARON,LC S WITH ACUTE,LS S WITH ACUTE,LC S WITH CIRCUMFLEX
LS S WITH CIRCUMFLEX,LC S WITH CEDILLA,LS S WITH CEDILLA,LC S WITH CARON,LS S WITH CARON
LC T WITH CEDILLA,LS T WITH CEDILLA,LC T WITH CARON,LS T WITH CARON,LC T WITH STROKE
LS T WITH STROKE,LC U WITH TILDE,LS U WITH TILDE,LC U WITH MACRON,LS U WITH MACRON,LC U WITH BREVE
LS U WITH BREVE,LC U WITH RING ABOVE,LS U WITH RING ABOVE,LC U WITH DOUBLE ACUTE
LS U WITH DOUBLE ACUTE,LC U WITH OGONEK,LS U WITH OGONEK,LC W WITH CIRCUMFLEX,LS W WITH CIRCUMFLEX
LC Y WITH CIRCUMFLEX,LS Y WITH CIRCUMFLEX,LC Y WITH DIAERESIS,LC Z WITH ACUTE,LS Z WITH ACUTE
LC Z WITH DOT ABOVE,LS Z WITH DOT ABOVE,LC Z WITH CARON,LS Z WITH CARON,LS LONG S"),
  (0x370, "
GC HETA,GS HETA,GC ARCHAIC SAMPI,GS ARCHAIC SAMPI,GREEK NUMERAL SIGN,GREEK LOWER NUMERAL SIGN
GC PAMPHYLIAN DIGAMMA,GS PAMPHYLIAN DIGAMMA"),
  (0x37A, "
GREEK YPOGEGRAMMENI,GREEK SMALL REVERSED LUNATE SIGMA SYMBOL,GREEK SMALL DOTTED LUNATE SIGMA SYMBOL
GREEK SMALL REVERSED DOTTED LUNATE SIGMA SYMBOL,GREEK QUESTION MARK,GC YOT"),
  (0x384, "
GREEK TONOS,GREEK DIALYTIKA TONOS,GC ALPHA WITH TONOS,GREEK ANO TELEIA,GC EPSILON WITH TONOS
GC ETA WITH TONOS,GC IOTA WITH TONOS"),
  (0x38C, "
GC OMICRON WITH TONOS"),
  (0x38E, "
GC UPSILON WITH TONOS,GC OMEGA WITH TONOS,GS IOTA WITH DIALYTIKA AND TONOS,GC ALPHA,GC BETA,GC GAMMA
GC DELTA,GC EPSILON,GC ZETA,GC ETA,GC THETA,GC IOTA,GC KAPPA,GC LAMDA,GC MU,GC NU,GC XI,GC OMICRON
GC PI,GC RHO"),
  (0x3A3, "
GC SIGMA,GC TAU,GC UPSILON,GC PHI,GC CHI,GC PSI,GC OMEGA,GC IOTA WITH DIALYTIKA
GC UPSILON WITH DIALYTIKA,GS ALPHA WITH TONOS,GS EPSILON WITH TONOS,GS ETA WITH TONOS
GS IOTA WITH TONOS,GS UPSILON WITH DIALYTIKA AND TONOS,GS ALPHA,GS BETA,GS GAMMA,GS DELTA,GS EPSILON
GS ZETA,GS ETA,GS THETA,GS IOTA,GS KAPPA,GS LAMDA,GS MU,GS NU,GS XI,GS OMICRON,GS PI,GS RHO
GS FINAL SIGMA,GS SIGMA,GS TAU,GS UPSILON,GS PHI,GS CHI,GS PSI,GS OMEGA,GS IOTA WITH DIALYTIKA
GS UPSILON WITH DIALYTIKA,GS OMICRON WITH TONOS,GS UPSILON WITH TONOS,GS OMEGA WITH TONOS
GREEK CAPITAL KAI SYMBOL,GREEK BETA SYMBOL,GREEK THETA SYMBOL,GREEK UPSILON WITH HOOK SYMBOL
GREEK UPSILON WITH ACUTE AND HOOK SYMBOL,GREEK UPSILON WITH DIAERESIS AND HOOK SYMBOL
GREEK PHI SYMBOL,GREEK PI SYMBOL,GREEK KAI SYMBOL,GREEK LETTER ARCHAIC KOPPA,GS ARCHAIC KOPPA
GREEK LETTER STIGMA,GS STIGMA,GREEK LETTER DIGAMMA,GS DIGAMMA,GREEK LETTER KOPPA,GS KOPPA
GREEK LETTER SAMPI,GS SAMPI,CC SHEI,CS SHEI,CC FEI,CS FEI,CC KHEI,CS KHEI,CC HORI,CS HORI,CC GANGIA
CS GANGIA,CC SHIMA,CS SHIMA,CC DEI,CS DEI,GREEK KAPPA SYMBOL,GREEK RHO SYMBOL
GREEK LUNATE SIGMA SYMBOL,GREEK LETTER YOT,GREEK CAPITAL THETA SYMBOL,GREEK LUNATE EPSILON SYMBOL
GREEK REVERSED LUNATE EPSILON SYMBOL,GC SHO,GS SHO,GREEK CAPITAL LUNATE SIGMA SYMBOL,GC SAN,GS SAN
GREEK RHO WITH STROKE SYMBOL,GREEK CAPITAL REVERSED LUNATE SIGMA SYMBOL
GREEK CAPITAL DOTTED LUNATE SIGMA SYMBOL,GREEK CAPITAL REVERSED DOTTED LUNATE SIGMA SYMBOL"),
  (0x2010, "
HYPHEN,NON-BREAKING HYPHEN,FIGURE DASH,EN DASH,EM DASH,HORIZONTAL BAR,DOUBLE VERTICAL LINE
DOUBLE LOW LINE,LEFT SINGLE QUOTATION MARK,RIGHT SINGLE QUOTATION MARK,SINGLE LOW-9 QUOTATION MARK
SINGLE HIGH-REVERSED-9 QUOTATION MARK,LEFT DOUBLE QUOTATION MARK,RIGHT DOUBLE QUOTATION MARK
DOUBLE LOW-9 QUOTATION MARK,DOUBLE HIGH-REVERSED-9 QUOTATION MARK,DAGGER,DOUBLE DAGGER,BULLET
TRIANGULAR BULLET,ONE DOT LEADER,TWO DOT LEADER,HORIZONTAL ELLIPSIS,HYPHENATION POINT"),
  (0x2030, "
PER MILLE SIGN,PER TEN THOUSAND SIGN,PRIME,DOUBLE PRIME,TRIPLE PRIME,REVERSED PRIME
REVERSED DOUBLE PRIME,REVERSED TRIPLE PRIME,CARET,SINGLE LEFT-POINTING ANGLE QUOTATION MARK
SINGLE RIGHT-POINTING ANGLE QUOTATION MARK,REFERENCE MARK,DOUBLE EXCLAMATION MARK,INTERROBANG
OVERLINE,UNDERTIE,CHARACTER TIE,CARET INSERTION POINT,ASTERISM,HYPHEN BULLET,FRACTION SLASH
LEFT SQUARE BRACKET WITH QUILL,RIGHT SQUARE BRACKET WITH QUILL,DOUBLE QUESTION MARK
QUESTION EXCLAMATION MARK,EXCLAMATION QUESTION MARK,TIRONIAN SIGN ET,REVERSED PILCROW SIGN
BLACK LEFTWARDS BULLET,BLACK RIGHTWARDS BULLET,LOW ASTERISK,REVERSED SEMICOLON,CLOSE UP
TWO ASTERISKS ALIGNED VERTICALLY,COMMERCIAL MINUS SIGN,SWUNG DASH,INVERTED UNDERTIE
FLOWER PUNCTUATION MARK,THREE DOT PUNCTUATION,QUADRUPLE PRIME,FOUR DOT PUNCTUATION
FIVE DOT PUNCTUATION,TWO DOT PUNCTUATION,FOUR DOT MARK,DOTTED CROSS,TRICOLON,VERTICAL FOUR DOTS"),
  (0x2190, "
LEFTWARDS ARROW,UPWARDS ARROW,RIGHTWARDS ARROW,DOWNWARDS ARROW,LEFT RIGHT ARROW,UP DOWN ARROW
NORTH WEST ARROW,NORTH EAST ARROW,SOUTH EAST ARROW,SOUTH WEST ARROW,LEFTWARDS ARROW WITH STROKE
RIGHTWARDS ARROW WITH STROKE,LEFTWARDS WAVE ARROW,RIGHTWARDS WAVE ARROW,LEFTWARDS TWO HEADED ARROW
UPWARDS TWO HEADED ARROW"),
  (0x2200, "
FOR ALL,COMPLEMENT,PARTIAL DIFFERENTIAL,THERE EXISTS,THERE DOES NOT EXIST,EMPTY SET,INCREMENT,NABLA
ELEMENT OF,NOT AN ELEMENT OF,SMALL ELEMENT OF,CONTAINS AS MEMBER,DOES NOT CONTAIN AS MEMBER
SMALL CONTAINS AS MEMBER,END OF PROOF,N-ARY PRODUCT,N-ARY COPRODUCT,N-ARY SUMMATION,MINUS SIGN
MINUS-OR-PLUS SIGN,DOT PLUS,DIVISION SLASH,SET MINUS,ASTERISK OPERATOR,RING OPERATOR,BULLET OPERATOR
SQUARE ROOT,CUBE ROOT,FOURTH ROOT,PROPORTIONAL TO,INFINITY,RIGHT ANGLE,ANGLE,MEASURED ANGLE
SPHERICAL ANGLE,DIVIDES,DOES NOT DIVIDE,PARALLEL TO,NOT PARALLEL TO,LOGICAL AND,LOGICAL OR
INTERSECTION,UNION,INTEGRAL,DOUBLE INTEGRAL,TRIPLE INTEGRAL,CONTOUR INTEGRAL,SURFACE INTEGRAL
VOLUME INTEGRAL,CLOCKWISE INTEGRAL,CLOCKWISE CONTOUR INTEGRAL,ANTICLOCKWISE CONTOUR INTEGRAL
THEREFORE,BECAUSE,RATIO,PROPORTION,DOT MINUS,EXCESS,GEOMETRIC PROPORTION,HOMOTHETIC,TILDE OPERATOR
REVERSED TILDE,INVERTED LAZY S,SINE WAVE,WREATH PRODUCT,NOT TILDE,MINUS TILDE
ASYMPTOTICALLY EQUAL TO,NOT ASYMPTOTICALLY EQUAL TO,APPROXIMATELY EQUAL TO
APPROXIMATELY BUT NOT ACTUALLY EQUAL TO,NEITHER APPROXIMATELY NOR ACTUALLY EQUAL TO,ALMOST EQUAL TO
NOT ALMOST EQUAL TO,ALMOST EQUAL OR EQUAL TO,TRIPLE TILDE,ALL EQUAL TO,EQUIVALENT TO
GEOMETRICALLY EQUIVALENT TO,DIFFERENCE BETWEEN,APPROACHES THE LIMIT,GEOMETRICALLY EQUAL TO
APPROXIMATELY EQUAL TO OR THE IMAGE OF,IMAGE OF OR APPROXIMATELY EQUAL TO,COLON EQUALS,EQUALS COLON
RING IN EQUAL TO,RING EQUAL TO,CORRESPONDS TO,ESTIMATES,EQUIANGULAR TO,STAR EQUALS,DELTA EQUAL TO
EQUAL TO BY DEFINITION,MEASURED BY,QUESTIONED EQUAL TO,NOT EQUAL TO,IDENTICAL TO,NOT IDENTICAL TO
STRICTLY EQUIVALENT TO,LESS-THAN OR EQUAL TO,GREATER-THAN OR EQUAL TO,LESS-THAN OVER EQUAL TO
GREATER-THAN OVER EQUAL TO,LESS-THAN BUT NOT EQUAL TO,GREATER-THAN BUT NOT EQUAL TO,MUCH LESS-THAN
MUCH GREATER-THAN,BETWEEN,NOT EQUIVALENT TO,NOT LESS-THAN,NOT GREATER-THAN")]

def expandName (name : Text) : Text :=
  let (opening, rest) := cut [' '] name
  ((charNameOpenings.lookup opening).map (· ++ ' ' :: rest)).getD name

def charNames : List (Text × Char) := charNameRuns.flatMap fun (first, names) =>
  let lines := (names.map fun c => if c = '\n' then ',' else c).splitOn ','
  ((lines.filter (! ·.isEmpty)).map expandName).mapIdx fun i name => (name, Char.ofNat (first + i))

def charOfName? (name : Text) : Option Char := charNames.lookup name

end DocLint.Text
