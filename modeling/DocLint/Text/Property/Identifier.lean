import DocLint.Text.Property.Word

/-!
Characters of identifiers beyond the first 128 code points (Unicode 14).
-/

set_option autoImplicit false

namespace DocLint.Text.Property

def identifierStartRanges : Ranges := letterRanges ++ Ranges.ofText "1885..1886 2118 212E"

/-- The characters of identifiers that are no letters and have no place of their own. -/
def markRanges : Ranges := Ranges.ofText "
  00B7 0300..036F 0387 0483..0487 0591..05BD 05BF 05C1..05C2 05C4..05C5 05C7 0610..061A 064B..065F
  0670 06D6..06DC 06DF..06E4 06E7..06E8 06EA..06ED 0711 0730..074A 07A6..07B0 07EB..07F3 07FD
  0816..0819 081B..0823 0825..0827 0829..082D 0859..085B 0898..089F 08CA..08E1 08E3..0902 093A 093C
  0941..0948 094D 0951..0957 0962..0963 0981 09BC 09C1..09C4 09CD 09E2..09E3 09FE 0A01..0A02 0A3C
  0A41..0A42 0A47..0A48 0A4B..0A4D 0A51 0A70..0A71 0A75 0A81..0A82 0ABC 0AC1..0AC5 0AC7..0AC8 0ACD
  0AE2..0AE3 0AFA..0AFF 0B01 0B3C 0B3F 0B41..0B44 0B4D 0B55..0B56 0B62..0B63 0B82 0BC0 0BCD 0C00
  0C04 0C3C 0C3E..0C40 0C46..0C48 0C4A..0C4D 0C55..0C56 0C62..0C63 0C81 0CBC 0CBF 0CC6 0CCC..0CCD
  0CE2..0CE3 0D00..0D01 0D3B..0D3C 0D41..0D44 0D4D 0D62..0D63 0D81 0DCA 0DD2..0DD4 0DD6 0E31
  0E34..0E3A 0E47..0E4E 0EB1 0EB4..0EBC 0EC8..0ECD 0F18..0F19 0F35 0F37 0F39 0F71..0F7E 0F80..0F84
  0F86..0F87 0F8D..0F97 0F99..0FBC 0FC6 102D..1030 1032..1037 1039..103A 103D..103E 1058..1059
  105E..1060 1071..1074 1082 1085..1086 108D 109D 135D..135F 1712..1714 1732..1733 1752..1753
  1772..1773 17B4..17B5 17B7..17BD 17C6 17C9..17D3 17DD 180B..180D 180F 18A9 1920..1922 1927..1928
  1932 1939..193B 1A17..1A18 1A1B 1A56 1A58..1A5E 1A60 1A62 1A65..1A6C 1A73..1A7C 1A7F 1AB0..1ABD
  1ABF..1ACE 1B00..1B03 1B34 1B36..1B3A 1B3C 1B42 1B6B..1B73 1B80..1B81 1BA2..1BA5 1BA8..1BA9
  1BAB..1BAD 1BE6 1BE8..1BE9 1BED 1BEF..1BF1 1C2C..1C33 1C36..1C37 1CD0..1CD2 1CD4..1CE0 1CE2..1CE8
  1CED 1CF4 1CF8..1CF9 1DC0..1DFF 20D0..20DC 20E1 20E5..20F0 2CEF..2CF1 2D7F 2DE0..2DFF 302A..302D
  3099..309A A66F A674..A67D A69E..A69F A6F0..A6F1 A802 A806 A80B A825..A826 A82C A8C4..A8C5
  A8E0..A8F1 A8FF A926..A92D A947..A951 A980..A982 A9B3 A9B6..A9B9 A9BC..A9BD A9E5 AA29..AA2E
  AA31..AA32 AA35..AA36 AA43 AA4C AA7C AAB0 AAB2..AAB4 AAB7..AAB8 AABE..AABF AAC1 AAEC..AAED AAF6
  ABE5 ABE8 ABED FB1E FE00..FE0F FE20..FE2F FF9E..FF9F 101FD 102E0 10376..1037A 10A01..10A03
  10A05..10A06 10A0C..10A0F 10A38..10A3A 10A3F 10AE5..10AE6 10D24..10D27 10EAB..10EAC 10F46..10F50
  10F82..10F85 11001 11038..11046 11070 11073..11074 1107F..11081 110B3..110B6 110B9..110BA 110C2
  11100..11102 11127..1112B 1112D..11134 11173 11180..11181 111B6..111BE 111C9..111CC 111CF
  1122F..11231 11234 11236..11237 1123E 112DF 112E3..112EA 11300..11301 1133B..1133C 11340
  11366..1136C 11370..11374 11438..1143F 11442..11444 11446 1145E 114B3..114B8 114BA 114BF..114C0
  114C2..114C3 115B2..115B5 115BC..115BD 115BF..115C0 115DC..115DD 11633..1163A 1163D 1163F..11640
  116AB 116AD 116B0..116B5 116B7 1171D..1171F 11722..11725 11727..1172B 1182F..11837 11839..1183A
  1193B..1193C 1193E 11943 119D4..119D7 119DA..119DB 119E0 11A01..11A0A 11A33..11A38 11A3B..11A3E
  11A47 11A51..11A56 11A59..11A5B 11A8A..11A96 11A98..11A99 11C30..11C36 11C38..11C3D 11C3F
  11C92..11CA7 11CAA..11CB0 11CB2..11CB3 11CB5..11CB6 11D31..11D36 11D3A 11D3C..11D3D 11D3F..11D45
  11D47 11D90..11D91 11D95 11D97 11EF3..11EF4 16AF0..16AF4 16B30..16B36 16F4F 16F8F..16F92 16FE4
  1BC9D..1BC9E 1CF00..1CF2D 1CF30..1CF46 1D167..1D169 1D17B..1D182 1D185..1D18B 1D1AA..1D1AD
  1D242..1D244 1DA00..1DA36 1DA3B..1DA6C 1DA75 1DA84 1DA9B..1DA9F 1DAA1..1DAAF 1E000..1E006
  1E008..1E018 1E01B..1E021 1E023..1E024 1E026..1E02A 1E130..1E136 1E2AE 1E2EC..1E2EF 1E8D0..1E8D6
  1E944..1E94A E0100..E01EF"

def identifierMarkRanges : Ranges := markRanges ++ Ranges.ofText "
  0660..0669 06F0..06F9 07C0..07C9 0903 093B 093E..094F 0966..096F 0982..0983 09BE..09C0 09C7..09C8
  09CB..09CC 09D7 09E6..09EF 0A03 0A3E..0A40 0A66..0A6F 0A83 0ABE..0AC0 0AC9 0ACB..0ACC 0AE6..0AEF
  0B02..0B03 0B3E..0B40 0B47..0B48 0B4B..0B4C 0B57 0B66..0B6F 0BBE..0BC2 0BC6..0BC8 0BCA..0BCC 0BD7
  0BE6..0BEF 0C01..0C03 0C41..0C44 0C66..0C6F 0C82..0C83 0CBE..0CC4 0CC7..0CC8 0CCA..0CCB
  0CD5..0CD6 0CE6..0CEF 0D02..0D03 0D3E..0D40 0D46..0D48 0D4A..0D4C 0D57 0D66..0D6F 0D82..0D83
  0DCF..0DD1 0DD8..0DDF 0DE6..0DEF 0DF2..0DF3 0E33 0E50..0E59 0EB3 0ED0..0ED9 0F20..0F29 0F3E..0F3F
  0F7F 102B..103C 1040..1049 1056..1057 1062..1064 1067..106D 1083..108C 108F..109C 1369..1371 1715
  1734 17B6..17C8 17E0..17E9 1810..1819 1923..192B 1930..1938 1946..194F 19D0..19DA 1A19..1A1A
  1A55..1A57 1A61..1A72 1A80..1A89 1A90..1A99 1B04 1B35..1B44 1B50..1B59 1B82 1BA1..1BAA 1BB0..1BB9
  1BE7..1BF3 1C24..1C35 1C40..1C49 1C50..1C59 1CE1 1CF7 203F..2040 2054 302E..302F A620..A629
  A823..A827 A880..A881 A8B4..A8C3 A8D0..A8D9 A900..A909 A952..A953 A983 A9B4..A9C0 A9D0..A9D9
  A9F0..A9F9 AA2F..AA34 AA4D AA50..AA59 AA7B..AA7D AAEB..AAEF AAF5 ABE3..ABEA ABEC ABF0..ABF9
  FE33..FE34 FE4D..FE4F FF10..FF19 FF3F 104A0..104A9 10D30..10D39 11000..11002 11066..1106F 11082
  110B0..110B8 110F0..110F9 1112C 11136..1113F 11145..11146 11182 111B3..111C0 111CE..111D9
  1122C..11235 112E0..112E2 112F0..112F9 11302..11303 1133E..11344 11347..11348 1134B..1134D 11357
  11362..11363 11435..11445 11450..11459 114B0..114C1 114D0..114D9 115AF..115B1 115B8..115BE
  11630..1163E 11650..11659 116AC..116B6 116C0..116C9 11720..11726 11730..11739 1182C..11838
  118E0..118E9 11930..11935 11937..11938 1193D 11940 11942 11950..11959 119D1..119D3 119DC..119DF
  119E4 11A39 11A57..11A58 11A97 11C2F 11C3E 11C50..11C59 11CA9..11CB4 11D50..11D59 11D8A..11D8E
  11D93..11D96 11DA0..11DA9 11EF5..11EF6 16A60..16A69 16AC0..16AC9 16B50..16B59 16F51..16F87
  16FF0..16FF1 1D165..1D166 1D16D..1D172 1D7CE..1D7FF 1E140..1E149 1E2F0..1E2F9 1E950..1E959
  1FBF0..1FBF9"

def identifierContinueRanges : Ranges := identifierStartRanges ++ identifierMarkRanges

end DocLint.Text.Property
