import DocLint.Text.Property.Identifier

/-!
Case relations beyond the first 128 code points (Unicode 14).
-/

set_option autoImplicit false

namespace DocLint.Text.Property

def lowerMapping : Mapping := Mapping.ofText "
  00C0..00D6=00E0 00D8..00DE=00F8 0100..012E/2=0101 0132..0136/2=0133 0139..0147/2=013A
  014A..0176/2=014B 0178=00FF 0179..017D/2=017A 0181=0253 0182..0184/2=0183 0186=0254 0187=0188
  0189..018A=0256 018B=018C 018E=01DD 018F=0259 0190=025B 0191=0192 0193=0260 0194=0263 0196=0269
  0197=0268 0198=0199 019C=026F 019D=0272 019F=0275 01A0..01A4/2=01A1 01A6=0280 01A7=01A8 01A9=0283
  01AC=01AD 01AE=0288 01AF=01B0 01B1..01B2=028A 01B3..01B5/2=01B4 01B7=0292 01B8=01B9 01BC=01BD
  01C4=01C6 01C5=01C6 01C7=01C9 01C8=01C9 01CA=01CC 01CB..01DB/2=01CC 01DE..01EE/2=01DF 01F1=01F3
  01F2..01F4/2=01F3 01F6=0195 01F7=01BF 01F8..021E/2=01F9 0220=019E 0222..0232/2=0223 023A=2C65
  023B=023C 023D=019A 023E=2C66 0241=0242 0243=0180 0244=0289 0245=028C 0246..024E/2=0247
  0370..0372/2=0371 0376=0377 037F=03F3 0386=03AC 0388..038A=03AD 038C=03CC 038E..038F=03CD
  0391..03A1=03B1 03A3..03AB=03C3 03CF=03D7 03D8..03EE/2=03D9 03F4=03B8 03F7=03F8 03F9=03F2
  03FA=03FB 03FD..03FF=037B 0400..040F=0450 0410..042F=0430 0460..0480/2=0461 048A..04BE/2=048B
  04C0=04CF 04C1..04CD/2=04C2 04D0..052E/2=04D1 0531..0556=0561 10A0..10C5=2D00 10C7=2D27 10CD=2D2D
  13A0..13EF=AB70 13F0..13F5=13F8 1C90..1CBA=10D0 1CBD..1CBF=10FD 1E00..1E94/2=1E01 1E9E=00DF
  1EA0..1EFE/2=1EA1 1F08..1F0F=1F00 1F18..1F1D=1F10 1F28..1F2F=1F20 1F38..1F3F=1F30 1F48..1F4D=1F40
  1F59..1F5F/2=1F51 1F68..1F6F=1F60 1F88..1F8F=1F80 1F98..1F9F=1F90 1FA8..1FAF=1FA0 1FB8..1FB9=1FB0
  1FBA..1FBB=1F70 1FBC=1FB3 1FC8..1FCB=1F72 1FCC=1FC3 1FD8..1FD9=1FD0 1FDA..1FDB=1F76
  1FE8..1FE9=1FE0 1FEA..1FEB=1F7A 1FEC=1FE5 1FF8..1FF9=1F78 1FFA..1FFB=1F7C 1FFC=1FF3 2126=03C9
  212A=006B 212B=00E5 2132=214E 2160..216F=2170 2183=2184 24B6..24CF=24D0 2C00..2C2F=2C30 2C60=2C61
  2C62=026B 2C63=1D7D 2C64=027D 2C67..2C6B/2=2C68 2C6D=0251 2C6E=0271 2C6F=0250 2C70=0252 2C72=2C73
  2C75=2C76 2C7E..2C7F=023F 2C80..2CE2/2=2C81 2CEB..2CED/2=2CEC 2CF2=2CF3 A640..A66C/2=A641
  A680..A69A/2=A681 A722..A72E/2=A723 A732..A76E/2=A733 A779..A77B/2=A77A A77D=1D79
  A77E..A786/2=A77F A78B=A78C A78D=0265 A790..A792/2=A791 A796..A7A8/2=A797 A7AA=0266 A7AB=025C
  A7AC=0261 A7AD=026C A7AE=026A A7B0=029E A7B1=0287 A7B2=029D A7B3=AB53 A7B4..A7C2/2=A7B5 A7C4=A794
  A7C5=0282 A7C6=1D8E A7C7..A7C9/2=A7C8 A7D0=A7D1 A7D6..A7D8/2=A7D7 A7F5=A7F6 FF21..FF3A=FF41
  10400..10427=10428 104B0..104D3=104D8 10570..1057A=10597 1057C..1058A=105A3 1058C..10592=105B3
  10594..10595=105BB 10C80..10CB2=10CC0 118A0..118BF=118C0 16E40..16E5F=16E60 1E900..1E921=1E922"

def upperMapping : Mapping := Mapping.ofText "
  00B5=039C 00E0..00F6=00C0 00F8..00FE=00D8 00FF=0178 0101..012F/2=0100 0131=0049 0133..0137/2=0132
  013A..0148/2=0139 014B..0177/2=014A 017A..017E/2=0179 017F=0053 0180=0243 0183..0185/2=0182
  0188=0187 018C=018B 0192=0191 0195=01F6 0199=0198 019A=023D 019E=0220 01A1..01A5/2=01A0 01A8=01A7
  01AD=01AC 01B0=01AF 01B4..01B6/2=01B3 01B9=01B8 01BD=01BC 01BF=01F7 01C5=01C4 01C6=01C4 01C8=01C7
  01C9=01C7 01CB=01CA 01CC=01CA 01CE..01DC/2=01CD 01DD=018E 01DF..01EF/2=01DE 01F2=01F1 01F3=01F1
  01F5=01F4 01F9..021F/2=01F8 0223..0233/2=0222 023C=023B 023F..0240=2C7E 0242=0241
  0247..024F/2=0246 0250=2C6F 0251=2C6D 0252=2C70 0253=0181 0254=0186 0256..0257=0189 0259=018F
  025B=0190 025C=A7AB 0260=0193 0261=A7AC 0263=0194 0265=A78D 0266=A7AA 0268=0197 0269=0196
  026A=A7AE 026B=2C62 026C=A7AD 026F=019C 0271=2C6E 0272=019D 0275=019F 027D=2C64 0280=01A6
  0282=A7C5 0283=01A9 0287=A7B1 0288=01AE 0289=0244 028A..028B=01B1 028C=0245 0292=01B7 029D=A7B2
  029E=A7B0 0345=0399 0371..0373/2=0370 0377=0376 037B..037D=03FD 03AC=0386 03AD..03AF=0388
  03B1..03C1=0391 03C2=03A3 03C3..03CB=03A3 03CC=038C 03CD..03CE=038E 03D0=0392 03D1=0398 03D5=03A6
  03D6=03A0 03D7=03CF 03D9..03EF/2=03D8 03F0=039A 03F1=03A1 03F2=03F9 03F3=037F 03F5=0395 03F8=03F7
  03FB=03FA 0430..044F=0410 0450..045F=0400 0461..0481/2=0460 048B..04BF/2=048A 04C2..04CE/2=04C1
  04CF=04C0 04D1..052F/2=04D0 0561..0586=0531 10D0..10FA=1C90 10FD..10FF=1CBD 13F8..13FD=13F0
  1C80=0412 1C81=0414 1C82=041E 1C83..1C84=0421 1C85=0422 1C86=042A 1C87=0462 1C88=A64A 1D79=A77D
  1D7D=2C63 1D8E=A7C6 1E01..1E95/2=1E00 1E9B=1E60 1EA1..1EFF/2=1EA0 1F00..1F07=1F08 1F10..1F15=1F18
  1F20..1F27=1F28 1F30..1F37=1F38 1F40..1F45=1F48 1F51..1F57/2=1F59 1F60..1F67=1F68 1F70..1F71=1FBA
  1F72..1F75=1FC8 1F76..1F77=1FDA 1F78..1F79=1FF8 1F7A..1F7B=1FEA 1F7C..1F7D=1FFA 1FB0..1FB1=1FB8
  1FBE=0399 1FD0..1FD1=1FD8 1FE0..1FE1=1FE8 1FE5=1FEC 214E=2132 2170..217F=2160 2184=2183
  24D0..24E9=24B6 2C30..2C5F=2C00 2C61=2C60 2C65=023A 2C66=023E 2C68..2C6C/2=2C67 2C73=2C72
  2C76=2C75 2C81..2CE3/2=2C80 2CEC..2CEE/2=2CEB 2CF3=2CF2 2D00..2D25=10A0 2D27=10C7 2D2D=10CD
  A641..A66D/2=A640 A681..A69B/2=A680 A723..A72F/2=A722 A733..A76F/2=A732 A77A..A77C/2=A779
  A77F..A787/2=A77E A78C=A78B A791..A793/2=A790 A794=A7C4 A797..A7A9/2=A796 A7B5..A7C3/2=A7B4
  A7C8..A7CA/2=A7C7 A7D1=A7D0 A7D7..A7D9/2=A7D6 A7F6=A7F5 AB53=A7B3 AB70..ABBF=13A0 FF41..FF5A=FF21
  10428..1044F=10400 104D8..104FB=104B0 10597..105A1=10570 105A3..105B1=1057C 105B3..105B9=1058C
  105BB..105BC=10594 10CC0..10CF2=10C80 118C0..118DF=118A0 16E60..16E7F=16E40 1E922..1E943=1E900"

def upperSequences : Mapping := Mapping.ofText "
  00DF=0053+0053 0149=02BC+004E 01F0=004A+030C 0390=0399+0308+0301 03B0=03A5+0308+0301
  0587=0535+0552 1E96=0048+0331 1E97=0054+0308 1E98=0057+030A 1E99=0059+030A 1E9A=0041+02BE
  1F50=03A5+0313 1F52=03A5+0313+0300 1F54=03A5+0313+0301 1F56=03A5+0313+0342 1F80=1F08+0399
  1F81=1F09+0399 1F82=1F0A+0399 1F83=1F0B+0399 1F84=1F0C+0399 1F85=1F0D+0399 1F86=1F0E+0399
  1F87=1F0F+0399 1F88=1F08+0399 1F89=1F09+0399 1F8A=1F0A+0399 1F8B=1F0B+0399 1F8C=1F0C+0399
  1F8D=1F0D+0399 1F8E=1F0E+0399 1F8F=1F0F+0399 1F90=1F28+0399 1F91=1F29+0399 1F92=1F2A+0399
  1F93=1F2B+0399 1F94=1F2C+0399 1F95=1F2D+0399 1F96=1F2E+0399 1F97=1F2F+0399 1F98=1F28+0399
  1F99=1F29+0399 1F9A=1F2A+0399 1F9B=1F2B+0399 1F9C=1F2C+0399 1F9D=1F2D+0399 1F9E=1F2E+0399
  1F9F=1F2F+0399 1FA0=1F68+0399 1FA1=1F69+0399 1FA2=1F6A+0399 1FA3=1F6B+0399 1FA4=1F6C+0399
  1FA5=1F6D+0399 1FA6=1F6E+0399 1FA7=1F6F+0399 1FA8=1F68+0399 1FA9=1F69+0399 1FAA=1F6A+0399
  1FAB=1F6B+0399 1FAC=1F6C+0399 1FAD=1F6D+0399 1FAE=1F6E+0399 1FAF=1F6F+0399 1FB2=1FBA+0399
  1FB3=0391+0399 1FB4=0386+0399 1FB6=0391+0342 1FB7=0391+0342+0399 1FBC=0391+0399 1FC2=1FCA+0399
  1FC3=0397+0399 1FC4=0389+0399 1FC6=0397+0342 1FC7=0397+0342+0399 1FCC=0397+0399
  1FD2=0399+0308+0300 1FD3=0399+0308+0301 1FD6=0399+0342 1FD7=0399+0308+0342 1FE2=03A5+0308+0300
  1FE3=03A5+0308+0301 1FE4=03A1+0313 1FE6=03A5+0342 1FE7=03A5+0308+0342 1FF2=1FFA+0399
  1FF3=03A9+0399 1FF4=038F+0399 1FF6=03A9+0342 1FF7=03A9+0342+0399 1FFC=03A9+0399 FB00=0046+0046
  FB01=0046+0049 FB02=0046+004C FB03=0046+0046+0049 FB04=0046+0046+004C FB05=0053+0054
  FB06=0053+0054 FB13=0544+0546 FB14=0544+0535 FB15=0544+053B FB16=054E+0546 FB17=0544+053D"

def titleSequences : Mapping := Mapping.ofText "
  00DF=0053+0073 01C4=01C5 01C5=01C5 01C6=01C5 01C7=01C8 01C8=01C8 01C9=01C8 01CA=01CB 01CB=01CB
  01CC=01CB 01F1=01F2 01F2=01F2 01F3=01F2 0587=0535+0582 10D0..10FA=10D0 10FD..10FF=10FD
  1F80..1F87=1F88 1F88..1F8F=1F88 1F90..1F97=1F98 1F98..1F9F=1F98 1FA0..1FA7=1FA8 1FA8..1FAF=1FA8
  1FB2=1FBA+0345 1FB3=1FBC 1FB4=0386+0345 1FB7=0391+0342+0345 1FBC=1FBC 1FC2=1FCA+0345 1FC3=1FCC
  1FC4=0389+0345 1FC7=0397+0342+0345 1FCC=1FCC 1FF2=1FFA+0345 1FF3=1FFC 1FF4=038F+0345
  1FF7=03A9+0342+0345 1FFC=1FFC FB00=0046+0066 FB01=0046+0069 FB02=0046+006C FB03=0046+0066+0069
  FB04=0046+0066+006C FB05=0053+0074 FB06=0053+0074 FB13=0544+0576 FB14=0544+0565 FB15=0544+056B
  FB16=054E+0576 FB17=0544+056D"

def casedRanges : Ranges := Ranges.ofText "
  00AA 00B5 00BA 00C0..00D6 00D8..00F6 00F8..01BA 01BC..01BF 01C4..0293 0295..02B8 02C0..02C1
  02E0..02E4 0345 0370..0373 0376..0377 037A..037D 037F 0386 0388..038A 038C 038E..03A1
  03A3..03F5 03F7..0481 048A..052F 0531..0556 0560..0588 10A0..10C5 10C7 10CD 10D0..10FA
  10FD..10FF 13A0..13F5 13F8..13FD 1C80..1C88 1C90..1CBA 1CBD..1CBF 1D00..1DBF 1E00..1F15
  1F18..1F1D 1F20..1F45 1F48..1F4D 1F50..1F57 1F59 1F5B 1F5D 1F5F..1F7D 1F80..1FB4 1FB6..1FBC
  1FBE 1FC2..1FC4 1FC6..1FCC 1FD0..1FD3 1FD6..1FDB 1FE0..1FEC 1FF2..1FF4 1FF6..1FFC 2071 207F
  2090..209C 2102 2107 210A..2113 2115 2119..211D 2124 2126 2128 212A..212D 212F..2134 2139
  213C..213F 2145..2149 214E 2160..217F 2183..2184 24B6..24E9 2C00..2CE4 2CEB..2CEE 2CF2..2CF3
  2D00..2D25 2D27 2D2D A640..A66D A680..A69D A722..A787 A78B..A78E A790..A7CA A7D0..A7D1 A7D3
  A7D5..A7D9 A7F5..A7F6 A7F8..A7FA AB30..AB5A AB5C..AB68 AB70..ABBF FB00..FB06 FB13..FB17
  FF21..FF3A FF41..FF5A 10400..1044F 104B0..104D3 104D8..104FB 10570..1057A 1057C..1058A
  1058C..10592 10594..10595 10597..105A1 105A3..105B1 105B3..105B9 105BB..105BC 10780
  10783..10785 10787..107B0 107B2..107BA 10C80..10CB2 10CC0..10CF2 118A0..118DF 16E40..16E7F
  1D400..1D454 1D456..1D49C 1D49E..1D49F 1D4A2 1D4A5..1D4A6 1D4A9..1D4AC 1D4AE..1D4B9 1D4BB
  1D4BD..1D4C3 1D4C5..1D505 1D507..1D50A 1D50D..1D514 1D516..1D51C 1D51E..1D539 1D53B..1D53E
  1D540..1D544 1D546 1D54A..1D550 1D552..1D6A5 1D6A8..1D6C0 1D6C2..1D6DA 1D6DC..1D6FA
  1D6FC..1D714 1D716..1D734 1D736..1D74E 1D750..1D76E 1D770..1D788 1D78A..1D7A8 1D7AA..1D7C2
  1D7C4..1D7CB 1DF00..1DF09 1DF0B..1DF1E 1E900..1E943 1F130..1F149 1F150..1F169 1F170..1F189"

def caseIgnorableRanges : Ranges := markRanges ++ Ranges.ofText "
  00A8 00AD 00AF 00B4 00B8 02B0..02FF 0374..0375 037A 0384..0385 0488..0489 0559 055F 05F4
  0600..0605 061C 0640 06DD 06E5..06E6 070F 07F4..07F5 07FA 081A..0828 0888 0890..0891 08C9..08E2
  0971 0E46 0EC6 10FC 17D7 180E 1843 1885..1886 1AA7 1ABE 1C78..1C7D 1D2C..1D6A 1D78 1D9B..1DBF
  1FBD 1FBF..1FC1 1FCD..1FCF 1FDD..1FDF 1FED..1FEF 1FFD..1FFE 200B..200F 2018..2019 2024 2027
  202A..202E 2060..2064 2066..206F 2071 207F 2090..209C 20DD..20E4 2C7C..2C7D 2D6F 2E2F 3005
  3031..3035 303B 309B..309E 30FC..30FE A015 A4F8..A4FD A60C A670..A672 A67F A69C..A69D A700..A721
  A770 A788..A78A A7F2..A7F4 A7F8..A7F9 A9CF A9E6 AA70 AADD AAF3..AAF4 AB5B..AB5F AB69..AB6B
  FBB2..FBC2 FE13 FE52 FE55 FEFF FF07 FF0E FF1A FF3E FF40 FF70 FFE3 FFF9..FFFB 10780..10785
  10787..107B0 107B2..107BA 110BD 110CD 13430..13438 16B40..16B43 16F93..16F9F 16FE0..16FE1 16FE3
  1AFF0..1AFF3 1AFF5..1AFFB 1AFFD..1AFFE 1BCA0..1BCA3 1D173..1D17A 1E137..1E13D 1E94B 1F3FB..1F3FF
  E0001 E0020..E007F"

end DocLint.Text.Property
