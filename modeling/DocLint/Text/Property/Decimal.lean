import DocLint.Text.Ranges

/-!
Decimal digits beyond the first 128 code points (Unicode 14).
-/

set_option autoImplicit false

namespace DocLint.Text.Property

def zeros : List Nat := (blankSeparated "
  0660 06F0 07C0 0966 09E6 0A66 0AE6 0B66 0BE6 0C66 0CE6 0D66 0DE6 0E50 0ED0 0F20 1040 1090 17E0
  1810 1946 19D0 1A80 1A90 1B50 1BB0 1C40 1C50 A620 A8D0 A900 A9D0 A9F0 AA50 ABF0 FF10 104A0
  10D30 11066 110F0 11136 111D0 112F0 11450 114D0 11650 116C0 11730 118E0 11950 11C50 11D50
  11DA0 16A60 16AC0 16B50 1D7CE 1D7D8 1D7E2 1D7EC 1D7F6 1E140 1E2F0 1E950 1FBF0
  ").map hexValue

end DocLint.Text.Property
