import DocLint.Text.Property.Identifier

/-!
Characters beyond the first 128 code points that have a visible form (Unicode 14).
-/

set_option autoImplicit false

namespace DocLint.Text.Property

def symbolRanges : Ranges := Ranges.ofText "
  00A1..00A9 00AB..00AC 00AE..00B4 00B6 00B8..00B9 00BB..00BF 00D7 00F7 02C2..02C5 02D2..02DF
  02E5..02EB 02ED 02EF..02FF 0375 037A 037E 0384..0385 03F6 0482 0488..0489 055A..055F 0589..058A
  058D..058F 05BE 05C0 05C3 05C6 05F3..05F4 0606..060F 061B 061D..061F 066A..066D 06D4 06DE 06E9
  06FD..06FE 0700..070D 07F6..07F9 07FE..07FF 0830..083E 085E 0888 0964..0965 0970 09F2..09FB 09FD
  0A76 0AF0..0AF1 0B70 0B72..0B77 0BF0..0BFA 0C77..0C7F 0C84 0D4F 0D58..0D5E 0D70..0D79 0DF4 0E3F
  0E4F 0E5A..0E5B 0F01..0F17 0F1A..0F1F 0F2A..0F34 0F36 0F38 0F3A..0F3D 0F85 0FBE..0FC5 0FC7..0FCC
  0FCE..0FDA 104A..104F 109E..109F 10FB 1360..1368 1372..137C 1390..1399 1400 166D..166E
  169B..169C 16EB..16ED 1735..1736 17D4..17D6 17D8..17DB 17F0..17F9 1800..180A 1940 1944..1945
  19DE..19FF 1A1E..1A1F 1AA0..1AA6 1AA8..1AAD 1ABE 1B5A..1B6A 1B74..1B7E 1BFC..1BFF 1C3B..1C3F
  1C7E..1C7F 1CC0..1CC7 1CD3 1FBD 1FBF..1FC1 1FCD..1FCF 1FDD..1FDF 1FED..1FEF 1FFD..1FFE
  2010..2027 2030..203E 2041..2053 2055..205E 2070 2074..207E 2080..208E 20A0..20C0 20DD..20E0
  20E2..20E4 2100..2101 2103..2106 2108..2109 2114 2116..2117 211E..2123 2125 2127 2129 213A..213B
  2140..2144 214A..214D 214F..215F 2189..218B 2190..2426 2440..244A 2460..2B73 2B76..2B95
  2B97..2BFF 2CE5..2CEA 2CF9..2CFF 2D70 2E00..2E5D 2E80..2E99 2E9B..2EF3 2F00..2FD5 2FF0..2FFB
  3001..3004 3008..3020 3030 3036..3037 303D..303F 309B..309C 30A0 30FB 3190..319F 31C0..31E3
  3200..321E 3220..33FF 4DC0..4DFF A490..A4C6 A4FE..A4FF A60D..A60F A670..A673 A67E A6F2..A6F7
  A700..A716 A720..A721 A789..A78A A828..A82B A830..A839 A874..A877 A8CE..A8CF A8F8..A8FA A8FC
  A92E..A92F A95F A9C1..A9CD A9DE..A9DF AA5C..AA5F AA77..AA79 AADE..AADF AAF0..AAF1 AB5B
  AB6A..AB6B ABEB FB29 FBB2..FBC2 FC5E..FC63 FD3E..FD4F FDCF FDFA..FDFF FE10..FE19 FE30..FE32
  FE35..FE4C FE50..FE52 FE54..FE66 FE68..FE6B FE70 FE72 FE74 FE76 FE78 FE7A FE7C FE7E FF01..FF0F
  FF1A..FF20 FF3B..FF3E FF40 FF5B..FF65 FFE0..FFE6 FFE8..FFEE FFFC..FFFD 10100..10102 10107..10133
  10137..1013F 10175..1018E 10190..1019C 101A0 101D0..101FC 102E1..102FB 10320..10323 1039F 103D0
  1056F 10857..1085F 10877..1087F 108A7..108AF 108FB..108FF 10916..1091B 1091F 1093F 109BC..109BD
  109C0..109CF 109D2..109FF 10A40..10A48 10A50..10A58 10A7D..10A7F 10A9D..10A9F 10AC8 10AEB..10AF6
  10B39..10B3F 10B58..10B5F 10B78..10B7F 10B99..10B9C 10BA9..10BAF 10CFA..10CFF 10E60..10E7E 10EAD
  10F1D..10F26 10F51..10F59 10F86..10F89 10FC5..10FCB 11047..1104D 11052..11065 110BB..110BC
  110BE..110C1 11140..11143 11174..11175 111C5..111C8 111CD 111DB 111DD..111DF 111E1..111F4
  11238..1123D 112A9 1144B..1144F 1145A..1145B 1145D 114C6 115C1..115D7 11641..11643 11660..1166C
  116B9 1173A..1173F 1183B 118EA..118F2 11944..11946 119E2 11A3F..11A46 11A9A..11A9C 11A9E..11AA2
  11C41..11C45 11C5A..11C6C 11C70..11C71 11EF7..11EF8 11FC0..11FF1 11FFF 12470..12474 12FF1..12FF2
  16A6E..16A6F 16AF5 16B37..16B3F 16B44..16B45 16B5B..16B61 16E80..16E9A 16FE2 1BC9C 1BC9F
  1CF50..1CFC3 1D000..1D0F5 1D100..1D126 1D129..1D164 1D16A..1D16C 1D183..1D184 1D18C..1D1A9
  1D1AE..1D1EA 1D200..1D241 1D245 1D2E0..1D2F3 1D300..1D356 1D360..1D378 1D6C1 1D6DB 1D6FB 1D715
  1D735 1D74F 1D76F 1D789 1D7A9 1D7C3 1D800..1D9FF 1DA37..1DA3A 1DA6D..1DA74 1DA76..1DA83
  1DA85..1DA8B 1E14F 1E2FF 1E8C7..1E8CF 1E95E..1E95F 1EC71..1ECB4 1ED01..1ED3D 1EEF0..1EEF1
  1F000..1F02B 1F030..1F093 1F0A0..1F0AE 1F0B1..1F0BF 1F0C1..1F0CF 1F0D1..1F0F5 1F100..1F1AD
  1F1E6..1F202 1F210..1F23B 1F240..1F248 1F250..1F251 1F260..1F265 1F300..1F6D7 1F6DD..1F6EC
  1F6F0..1F6FC 1F700..1F773 1F780..1F7D8 1F7E0..1F7EB 1F7F0 1F800..1F80B 1F810..1F847 1F850..1F859
  1F860..1F887 1F890..1F8AD 1F8B0..1F8B1 1F900..1FA53 1FA60..1FA6D 1FA70..1FA74 1FA78..1FA7C
  1FA80..1FA86 1FA90..1FAAC 1FAB0..1FABA 1FAC0..1FAC5 1FAD0..1FAD9 1FAE0..1FAE7 1FAF0..1FAF6
  1FB00..1FB92 1FB94..1FBCA"

def printableRanges : Ranges := identifierContinueRanges ++ symbolRanges

end DocLint.Text.Property
