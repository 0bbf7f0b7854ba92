import DocLint.Text.Ranges

/-!
Letters and digits beyond the first 128 code points (Unicode 14).
-/

set_option autoImplicit false

namespace DocLint.Text.Property

def letterRanges : Ranges := Ranges.ofText "
  00AA 00B5 00BA 00C0..00D6 00D8..00F6 00F8..02C1 02C6..02D1 02E0..02E4 02EC 02EE 0370..0374
  0376..0377 037B..037D 037F 0386 0388..038A 038C 038E..03A1 03A3..03F5 03F7..0481 048A..052F
  0531..0556 0559 0560..0588 05D0..05EA 05EF..05F2 0620..064A 066E..066F 0671..06D3 06D5
  06E5..06E6 06EE..06EF 06FA..06FC 06FF 0710 0712..072F 074D..07A5 07B1 07CA..07EA 07F4..07F5 07FA
  0800..0815 081A 0824 0828 0840..0858 0860..086A 0870..0887 0889..088E 08A0..08C9 0904..0939 093D
  0950 0958..0961 0971..0980 0985..098C 098F..0990 0993..09A8 09AA..09B0 09B2 09B6..09B9 09BD 09CE
  09DC..09DD 09DF..09E1 09F0..09F1 09FC 0A05..0A0A 0A0F..0A10 0A13..0A28 0A2A..0A30 0A32..0A33
  0A35..0A36 0A38..0A39 0A59..0A5C 0A5E 0A72..0A74 0A85..0A8D 0A8F..0A91 0A93..0AA8 0AAA..0AB0
  0AB2..0AB3 0AB5..0AB9 0ABD 0AD0 0AE0..0AE1 0AF9 0B05..0B0C 0B0F..0B10 0B13..0B28 0B2A..0B30
  0B32..0B33 0B35..0B39 0B3D 0B5C..0B5D 0B5F..0B61 0B71 0B83 0B85..0B8A 0B8E..0B90 0B92..0B95
  0B99..0B9A 0B9C 0B9E..0B9F 0BA3..0BA4 0BA8..0BAA 0BAE..0BB9 0BD0 0C05..0C0C 0C0E..0C10
  0C12..0C28 0C2A..0C39 0C3D 0C58..0C5A 0C5D 0C60..0C61 0C80 0C85..0C8C 0C8E..0C90 0C92..0CA8
  0CAA..0CB3 0CB5..0CB9 0CBD 0CDD..0CDE 0CE0..0CE1 0CF1..0CF2 0D04..0D0C 0D0E..0D10 0D12..0D3A
  0D3D 0D4E 0D54..0D56 0D5F..0D61 0D7A..0D7F 0D85..0D96 0D9A..0DB1 0DB3..0DBB 0DBD 0DC0..0DC6
  0E01..0E30 0E32 0E40..0E46 0E81..0E82 0E84 0E86..0E8A 0E8C..0EA3 0EA5 0EA7..0EB0 0EB2 0EBD
  0EC0..0EC4 0EC6 0EDC..0EDF 0F00 0F40..0F47 0F49..0F6C 0F88..0F8C 1000..102A 103F 1050..1055
  105A..105D 1061 1065..1066 106E..1070 1075..1081 108E 10A0..10C5 10C7 10CD 10D0..10FA 10FC..1248
  124A..124D 1250..1256 1258 125A..125D 1260..1288 128A..128D 1290..12B0 12B2..12B5 12B8..12BE
  12C0 12C2..12C5 12C8..12D6 12D8..1310 1312..1315 1318..135A 1380..138F 13A0..13F5 13F8..13FD
  1401..166C 166F..167F 1681..169A 16A0..16EA 16EE..16F8 1700..1711 171F..1731 1740..1751
  1760..176C 176E..1770 1780..17B3 17D7 17DC 1820..1878 1880..1884 1887..18A8 18AA 18B0..18F5
  1900..191E 1950..196D 1970..1974 1980..19AB 19B0..19C9 1A00..1A16 1A20..1A54 1AA7 1B05..1B33
  1B45..1B4C 1B83..1BA0 1BAE..1BAF 1BBA..1BE5 1C00..1C23 1C4D..1C4F 1C5A..1C7D 1C80..1C88
  1C90..1CBA 1CBD..1CBF 1CE9..1CEC 1CEE..1CF3 1CF5..1CF6 1CFA 1D00..1DBF 1E00..1F15 1F18..1F1D
  1F20..1F45 1F48..1F4D 1F50..1F57 1F59 1F5B 1F5D 1F5F..1F7D 1F80..1FB4 1FB6..1FBC 1FBE 1FC2..1FC4
  1FC6..1FCC 1FD0..1FD3 1FD6..1FDB 1FE0..1FEC 1FF2..1FF4 1FF6..1FFC 2071 207F 2090..209C 2102 2107
  210A..2113 2115 2119..211D 2124 2126 2128 212A..212D 212F..2139 213C..213F 2145..2149 214E
  2160..2188 2C00..2CE4 2CEB..2CEE 2CF2..2CF3 2D00..2D25 2D27 2D2D 2D30..2D67 2D6F 2D80..2D96
  2DA0..2DA6 2DA8..2DAE 2DB0..2DB6 2DB8..2DBE 2DC0..2DC6 2DC8..2DCE 2DD0..2DD6 2DD8..2DDE
  3005..3007 3021..3029 3031..3035 3038..303C 3041..3096 309D..309F 30A1..30FA 30FC..30FF
  3105..312F 3131..318E 31A0..31BF 31F0..31FF 3400..4DBF 4E00..A48C A4D0..A4FD A500..A60C
  A610..A61F A62A..A62B A640..A66E A67F..A69D A6A0..A6EF A717..A71F A722..A788 A78B..A7CA
  A7D0..A7D1 A7D3 A7D5..A7D9 A7F2..A801 A803..A805 A807..A80A A80C..A822 A840..A873 A882..A8B3
  A8F2..A8F7 A8FB A8FD..A8FE A90A..A925 A930..A946 A960..A97C A984..A9B2 A9CF A9E0..A9E4
  A9E6..A9EF A9FA..A9FE AA00..AA28 AA40..AA42 AA44..AA4B AA60..AA76 AA7A AA7E..AAAF AAB1
  AAB5..AAB6 AAB9..AABD AAC0 AAC2 AADB..AADD AAE0..AAEA AAF2..AAF4 AB01..AB06 AB09..AB0E
  AB11..AB16 AB20..AB26 AB28..AB2E AB30..AB5A AB5C..AB69 AB70..ABE2 AC00..D7A3 D7B0..D7C6
  D7CB..D7FB F900..FA6D FA70..FAD9 FB00..FB06 FB13..FB17 FB1D FB1F..FB28 FB2A..FB36 FB38..FB3C
  FB3E FB40..FB41 FB43..FB44 FB46..FBB1 FBD3..FC5D FC64..FD3D FD50..FD8F FD92..FDC7 FDF0..FDF9
  FE71 FE73 FE77 FE79 FE7B FE7D FE7F..FEFC FF21..FF3A FF41..FF5A FF66..FF9D FFA0..FFBE FFC2..FFC7
  FFCA..FFCF FFD2..FFD7 FFDA..FFDC 10000..1000B 1000D..10026 10028..1003A 1003C..1003D
  1003F..1004D 10050..1005D 10080..100FA 10140..10174 10280..1029C 102A0..102D0 10300..1031F
  1032D..1034A 10350..10375 10380..1039D 103A0..103C3 103C8..103CF 103D1..103D5 10400..1049D
  104B0..104D3 104D8..104FB 10500..10527 10530..10563 10570..1057A 1057C..1058A 1058C..10592
  10594..10595 10597..105A1 105A3..105B1 105B3..105B9 105BB..105BC 10600..10736 10740..10755
  10760..10767 10780..10785 10787..107B0 107B2..107BA 10800..10805 10808 1080A..10835 10837..10838
  1083C 1083F..10855 10860..10876 10880..1089E 108E0..108F2 108F4..108F5 10900..10915 10920..10939
  10980..109B7 109BE..109BF 10A00 10A10..10A13 10A15..10A17 10A19..10A35 10A60..10A7C 10A80..10A9C
  10AC0..10AC7 10AC9..10AE4 10B00..10B35 10B40..10B55 10B60..10B72 10B80..10B91 10C00..10C48
  10C80..10CB2 10CC0..10CF2 10D00..10D23 10E80..10EA9 10EB0..10EB1 10F00..10F1C 10F27 10F30..10F45
  10F70..10F81 10FB0..10FC4 10FE0..10FF6 11003..11037 11071..11072 11075 11083..110AF 110D0..110E8
  11103..11126 11144 11147 11150..11172 11176 11183..111B2 111C1..111C4 111DA 111DC 11200..11211
  11213..1122B 11280..11286 11288 1128A..1128D 1128F..1129D 1129F..112A8 112B0..112DE 11305..1130C
  1130F..11310 11313..11328 1132A..11330 11332..11333 11335..11339 1133D 11350 1135D..11361
  11400..11434 11447..1144A 1145F..11461 11480..114AF 114C4..114C5 114C7 11580..115AE 115D8..115DB
  11600..1162F 11644 11680..116AA 116B8 11700..1171A 11740..11746 11800..1182B 118A0..118DF
  118FF..11906 11909 1190C..11913 11915..11916 11918..1192F 1193F 11941 119A0..119A7 119AA..119D0
  119E1 119E3 11A00 11A0B..11A32 11A3A 11A50 11A5C..11A89 11A9D 11AB0..11AF8 11C00..11C08
  11C0A..11C2E 11C40 11C72..11C8F 11D00..11D06 11D08..11D09 11D0B..11D30 11D46 11D60..11D65
  11D67..11D68 11D6A..11D89 11D98 11EE0..11EF2 11FB0 12000..12399 12400..1246E 12480..12543
  12F90..12FF0 13000..1342E 14400..14646 16800..16A38 16A40..16A5E 16A70..16ABE 16AD0..16AED
  16B00..16B2F 16B40..16B43 16B63..16B77 16B7D..16B8F 16E40..16E7F 16F00..16F4A 16F50 16F93..16F9F
  16FE0..16FE1 16FE3 17000..187F7 18800..18CD5 18D00..18D08 1AFF0..1AFF3 1AFF5..1AFFB 1AFFD..1AFFE
  1B000..1B122 1B150..1B152 1B164..1B167 1B170..1B2FB 1BC00..1BC6A 1BC70..1BC7C 1BC80..1BC88
  1BC90..1BC99 1D400..1D454 1D456..1D49C 1D49E..1D49F 1D4A2 1D4A5..1D4A6 1D4A9..1D4AC 1D4AE..1D4B9
  1D4BB 1D4BD..1D4C3 1D4C5..1D505 1D507..1D50A 1D50D..1D514 1D516..1D51C 1D51E..1D539 1D53B..1D53E
  1D540..1D544 1D546 1D54A..1D550 1D552..1D6A5 1D6A8..1D6C0 1D6C2..1D6DA 1D6DC..1D6FA 1D6FC..1D714
  1D716..1D734 1D736..1D74E 1D750..1D76E 1D770..1D788 1D78A..1D7A8 1D7AA..1D7C2 1D7C4..1D7CB
  1DF00..1DF1E 1E100..1E12C 1E137..1E13D 1E14E 1E290..1E2AD 1E2C0..1E2EB 1E7E0..1E7E6 1E7E8..1E7EB
  1E7ED..1E7EE 1E7F0..1E7FE 1E800..1E8C4 1E900..1E943 1E94B 1EE00..1EE03 1EE05..1EE1F 1EE21..1EE22
  1EE24 1EE27 1EE29..1EE32 1EE34..1EE37 1EE39 1EE3B 1EE42 1EE47 1EE49 1EE4B 1EE4D..1EE4F
  1EE51..1EE52 1EE54 1EE57 1EE59 1EE5B 1EE5D 1EE5F 1EE61..1EE62 1EE64 1EE67..1EE6A 1EE6C..1EE72
  1EE74..1EE77 1EE79..1EE7C 1EE7E 1EE80..1EE89 1EE8B..1EE9B 1EEA1..1EEA3 1EEA5..1EEA9 1EEAB..1EEBB
  20000..2A6DF 2A700..2B738 2B740..2B81D 2B820..2CEA1 2CEB0..2EBE0 2F800..2FA1D 30000..3134A"

def numberRanges : Ranges := Ranges.ofText "
  00B2..00B3 00B9 00BC..00BE 037A 0660..0669 06F0..06F9 07C0..07C9 0966..096F 09E6..09EF
  09F4..09F9 0A66..0A6F 0AE6..0AEF 0B66..0B6F 0B72..0B77 0BE6..0BF2 0C66..0C6F 0C78..0C7E
  0CE6..0CEF 0D58..0D5E 0D66..0D78 0DE6..0DEF 0E33 0E50..0E59 0EB3 0ED0..0ED9 0F20..0F33
  1040..1049 1090..1099 1369..137C 17E0..17E9 17F0..17F9 1810..1819 1946..194F 19D0..19DA
  1A80..1A89 1A90..1A99 1B50..1B59 1BB0..1BB9 1C40..1C49 1C50..1C59 2070 2074..2079 2080..2089
  2150..215F 2189 2460..249B 24EA..24FF 2776..2793 2CFD 2E2F 3192..3195 3220..3229 3248..324F
  3251..325F 3280..3289 32B1..32BF A620..A629 A830..A835 A8D0..A8D9 A900..A909 A9D0..A9D9
  A9F0..A9F9 AA50..AA59 ABF0..ABF9 FC5E..FC63 FDFA..FDFB FE70 FE72 FE74 FE76 FE78 FE7A FE7C FE7E
  FF10..FF19 FF9E..FF9F 10107..10133 10175..10178 1018A..1018B 102E1..102FB 10320..10323
  104A0..104A9 10858..1085F 10879..1087F 108A7..108AF 108FB..108FF 10916..1091B 109BC..109BD
  109C0..109CF 109D2..109FF 10A40..10A48 10A7D..10A7E 10A9D..10A9F 10AEB..10AEF 10B58..10B5F
  10B78..10B7F 10BA9..10BAF 10CFA..10CFF 10D30..10D39 10E60..10E7E 10F1D..10F26 10F51..10F54
  10FC5..10FCB 11052..1106F 110F0..110F9 11136..1113F 111D0..111D9 111E1..111F4 112F0..112F9
  11450..11459 114D0..114D9 11650..11659 116C0..116C9 11730..1173B 118E0..118F2 11950..11959
  11C50..11C6C 11D50..11D59 11DA0..11DA9 11FC0..11FD4 16A60..16A69 16AC0..16AC9 16B50..16B59
  16B5B..16B61 16E80..16E96 1D2E0..1D2F3 1D360..1D378 1D7CE..1D7FF 1E140..1E149 1E2F0..1E2F9
  1E8C7..1E8CF 1E950..1E959 1EC71..1ECAB 1ECAD..1ECAF 1ECB1..1ECB4 1ED01..1ED2D 1ED2F..1ED3D
  1F100..1F10C 1FBF0..1FBF9"

def alnumRanges : Ranges := letterRanges ++ numberRanges

end DocLint.Text.Property
