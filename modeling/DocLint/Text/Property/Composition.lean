import DocLint.Text.Ranges

/-!
Decomposition, composition and combining classes of identifier characters (Unicode 14).
-/

set_option autoImplicit false

namespace DocLint.Text.Property

/-- The characters that are not composed of a letter and a mark again, but those of the runs. -/
def decompositions : Mapping := Mapping.ofText "
  00AA=0061 00B5=03BC 00BA=006F 0132=0049+004A 0133=0069+006A 013F=004C+00B7 0140=006C+00B7
  0149=02BC+006E 017F=0073 0340=0300 0341=0301 0343=0313 0344=0308+0301 0374=02B9 0387=00B7
  03D5=03C6 03D6=03C0 03F4=0398 03F5=03B5 03F9=03A3 0587=0565+0582 0958=0915+093C 0959=0916+093C
  095A=0917+093C 095B=091C+093C 095C=0921+093C 095D=0922+093C 095E=092B+093C 095F=092F+093C
  09DC=09A1+09BC 09DD=09A2+09BC 09DF=09AF+09BC 0A33=0A32+0A3C 0A36=0A38+0A3C 0A59=0A16+0A3C
  0A5A=0A17+0A3C 0A5B=0A1C+0A3C 0A5E=0A2B+0A3C 0B5C=0B21+0B3C 0B5D=0B22+0B3C 0E33=0E4D+0E32
  0EB3=0ECD+0EB2 0EDC=0EAB+0E99 0EDD=0EAB+0EA1 0F43=0F42+0FB7 0F4D=0F4C+0FB7 0F52=0F51+0FB7
  0F57=0F56+0FB7 0F5C=0F5B+0FB7 0F69=0F40+0FB5 0F73=0F71+0F72 0F75=0F71+0F74 0F76=0FB2+0F80
  0F77=0FB2+0F71+0F80 0F78=0FB3+0F80 0F79=0FB3+0F71+0F80 0F81=0F71+0F80 0F93=0F92+0FB7
  0F9D=0F9C+0FB7 0FA2=0FA1+0FB7 0FA7=0FA6+0FB7 0FAC=0FAB+0FB7 0FB9=0F90+0FB5 10FC=10DC
  1D33..1D3A=0047 1D78=043D 1E9A=0061+02BE 1F71=03B1+0301 1F73=03B5+0301 1F75=03B7+0301
  1F77=03B9+0301 1F79=03BF+0301 1F7B=03C5+0301 1F7D=03C9+0301 1FBB=0391+0301 1FBE=03B9
  1FC9=0395+0301 1FCB=0397+0301 1FD3=03B9+0308+0301 1FDB=0399+0301 1FE3=03C5+0308+0301
  1FEB=03A5+0301 1FF9=039F+0301 1FFB=03A9+0301 2071=0069 207F=006E 2102=0043 2107=0190 2115=004E
  2124=005A 2126=03A9 2128=005A 212A=004B 212B=0041+030A 212C..212D=0042 2160=0049 2164=0056
  2169=0058 216A=0058+0049 216B=0058+0049+0049 2174=0076 2179=0078 217A=0078+0069
  217B=0078+0069+0069 2C7C=006A 2C7D=0056 2D6F=2D61 309F=3088+308A 30FF=30B3+30C8 3145..314E=1109
  314F..3163=1161 3164=1160 A69C=044A A69D=044C A770=A76F A7F8=0126 A7F9=0153 AB69=028D FA10=585A
  FA12=6674 FA20=8612 FA22=8AF8 FA25=9038 FA26=90FD FB1D=05D9+05B4 FB1F=05F2+05B7 FB2A=05E9+05C1
  FB2B=05E9+05C2 FB2C=05E9+05BC+05C1 FB2D=05E9+05BC+05C2 FB2E=05D0+05B7 FB2F=05D0+05B8
  FB30=05D0+05BC FB31=05D1+05BC FB32=05D2+05BC FB33=05D3+05BC FB34=05D4+05BC FB35=05D5+05BC
  FB36=05D6+05BC FB38=05D8+05BC FB39=05D9+05BC FB3A=05DA+05BC FB3B=05DB+05BC FB3C=05DC+05BC
  FB3E=05DE+05BC FB40=05E0+05BC FB41=05E1+05BC FB43=05E3+05BC FB44=05E4+05BC FB46=05E6+05BC
  FB47=05E7+05BC FB48=05E8+05BC FB49=05E9+05BC FB4A=05EA+05BC FB4B=05D5+05B9 FB4C=05D1+05BF
  FB4D=05DB+05BF FB4E=05E4+05BF FB4F=05D0+05DC FBA4=06D5+0654 FBA5=06D5+0654 FBB0=06D2+0654
  FBB1=06D2+0654 FBDD=06C7+0674 FC5B=0630+0670 FC5C=0631+0670 FC5D=0649+0670 FC90=0649+0670
  FCD9=0647+0670 FCF2=0640+064E+0651 FCF3=0640+064F+0651 FCF4=0640+0650+0651 FD3C=0627+064B
  FD3D=0627+064B FE33=005F FE34=005F FE4D=005F FE4E=005F FE4F=005F FE71=0640+064B FE77=0640+064E
  FE79=0640+064F FE7B=0640+0650 FE7D=0640+0651 FE7F=0640+0652 FE80=0621 FE81=0627+0653
  FE82=0627+0653 FE83=0627+0654 FE84=0627+0654 FE85=0648+0654 FE86=0648+0654 FE87=0627+0655
  FE88=0627+0655 FE89=064A+0654 FE8A=064A+0654 FE8B=064A+0654 FE8C=064A+0654 FF10..FF19=0030
  FF21..FF3A=0041 FF3F=005F FF41..FF5A=0061 FF9E=3099 FF9F=309A FFA0=1160 FFB5..FFBE=1109
  1D400..1D419=0041 1D41A..1D433=0061 1D434..1D44D=0041 1D44E..1D454=0061 1D456..1D467=0069
  1D468..1D481=0041 1D482..1D49B=0061 1D49C=0041 1D49E..1D49F=0043 1D4A2=0047 1D4A5..1D4A6=004A
  1D4AE..1D4B5=0053 1D4BB=0066 1D4BD..1D4C3=0068 1D4C5..1D4CF=0070 1D4D0..1D4E9=0041
  1D4EA..1D503=0061 1D504..1D505=0041 1D50D..1D514=004A 1D516..1D51C=0053 1D51E..1D537=0061
  1D538..1D539=0041 1D546=004F 1D54A..1D550=0053 1D552..1D56B=0061 1D56C..1D585=0041
  1D586..1D59F=0061 1D5A0..1D5B9=0041 1D5BA..1D5D3=0061 1D5D4..1D5ED=0041 1D5EE..1D607=0061
  1D608..1D621=0041 1D622..1D63B=0061 1D63C..1D655=0041 1D656..1D66F=0061 1D670..1D689=0041
  1D68A..1D6A3=0061 1D6A4=0131 1D6A5=0237 1D6A8..1D6B8=0391 1D6B9=0398 1D6BA..1D6C0=03A3
  1D6C2..1D6DA=03B1 1D6E2..1D6F2=0391 1D6F3=0398 1D6F4..1D6FA=03A3 1D6FC..1D714=03B1
  1D71C..1D72C=0391 1D72D=0398 1D72E..1D734=03A3 1D736..1D74E=03B1 1D756..1D766=0391 1D767=0398
  1D768..1D76E=03A3 1D770..1D788=03B1 1D790..1D7A0=0391 1D7A1=0398 1D7A2..1D7A8=03A3
  1D7AA..1D7C2=03B1 1D7CE..1D7D7=0030 1D7D8..1D7E1=0030 1D7E2..1D7EB=0030 1D7EC..1D7F5=0030
  1D7F6..1D7FF=0030 1EE21=0628 1EE22=062C 1EE24=0647 1EE27=062D 1EE39=0636 1EE3B=063A 1EE42=062C
  1EE47=062D 1EE49=064A 1EE4B=0644 1EE51=0635 1EE52=0642 1EE54=0634 1EE57=062E 1EE59=0636
  1EE5B=063A 1EE5D=06BA 1EE5F=066F 1EE61=0628 1EE62=062C 1EE64=0647 1EE7E=06A1 1FBF0..1FBF9=0030"

/-- Characters from a code on, and those for which they stand, one by one. -/
def letterRuns : List (Nat × String) := [
  (0x02B0, "hɦjrɹɻʁwy"), (0x02E0, "ɣlsxʕ"), (0x03D0, "βθΥ"), (0x03F0, "κρς"), (0x1D2C, "AÆB"),
  (0x1D30, "DEƎ"), (0x1D3C, "OȢPRTUWaɐɑᴂbdeəɛɜg"), (0x1D4F, "kmŋoɔᴖᴗptuᴝɯvᴥβγδφχiruvβγρφχ"),
  (0x1D9B, "ɒcɕðɜfɟɡɥɨɩɪᵻʝɭᶅʟɱɰɲɳɴɵɸʂʃƫʉʊᴜʋʌzʐʑʒθ"), (0x2090, "aeoxəhklmnpst"),
  (0x210A, "gHHHhħIILl"), (0x2119, "PQRRR"), (0x212F, "eEF"), (0x2133, "Moאבגדi"),
  (0x213C, "πγΓΠ"), (0x2145, "Ddeij"), (0x216C, "LCDMi"), (0x217C, "lcdm"), (0x3038, "十卄卅"),
  (0x3131, "ᄀᄁᆪᄂᆬᆭᄃᄄᄅᆰᆱᆲᆳᆴᆵᄚᄆᄇᄈᄡ"), (0x3165, "ᄔᄕᇇᇈᇌᇎᇓᇗᇙᄜᇝᇟᄝᄞᄠᄢᄣᄧᄩᄫᄬᄭᄮᄯᄲᄶᅀᅇᅌᇱᇲᅗᅘᅙᆄᆅᆈᆑᆒᆔᆞᆡ"),
  (0xA7F2, "CFQ"), (0xAB5C, "ꜧꬷɫꭒ"),
  (0xF900, "
豈更車賈滑串句龜龜契金喇奈懶癩羅蘿螺裸邏樂洛烙珞落酪駱亂卵欄爛蘭鸞嵐濫藍襤拉臘蠟廊朗浪狼郎來冷勞
擄櫓爐盧老蘆虜路露魯鷺碌祿綠菉錄鹿論壟弄籠聾牢磊賂雷壘屢樓淚漏累縷陋勒肋凜凌稜綾菱陵讀拏樂諾丹寧
怒率異北磻便復不泌數索參塞省葉說殺辰沈拾若掠略亮兩凉梁糧良諒量勵呂女廬旅濾礪閭驪麗黎力曆歷轢年憐
戀撚漣煉璉秊練聯輦蓮連鍊列劣咽烈裂說廉念捻殮簾獵令囹寧嶺怜玲瑩羚聆鈴零靈領例禮醴隸惡了僚寮尿料樂
燎療蓼遼龍暈阮劉杻柳流溜琉留硫紐類六戮陸倫崙淪輪律慄栗率隆利吏履易李梨泥理痢罹裏裡里離匿溺吝燐璘
藺隣鱗麟林淋臨立笠粒狀炙識什茶刺切度拓糖宅洞暴輻行降見廓兀嗀"),
  (0xFA15, "凞猪益礼神祥福靖精羽"),
  (0xFA2A, "
飯飼館鶴郞隷侮僧免勉勤卑喝嘆器塀墨層屮悔慨憎懲敏既暑梅海渚漢煮爫琢碑社祉祈祐祖祝禍禎穀突節練縉繁
署者臭艹艹著褐視謁謹賓贈辶逸難響頻恵𤋮舘"),
  (0xFA70, "
並况全侀充冀勇勺喝啕喙嗢塚墳奄奔婢嬨廒廙彩徭惘慎愈憎慠懲戴揄搜摒敖晴朗望杖歹殺流滛滋漢瀞煮瞧爵犯
猪瑱甆画瘝瘟益盛直睊着磌窱節类絛練缾者荒華蝹襁覆視調諸請謁諾諭謹變贈輸遲醙鉶陼難靖韛響頋頻鬒龜𢡊
𢡄𣏕㮝䀘䀹𥉉𥳐𧻓齃龎"),
  (0xFB20, "עאדהכלםרת"),
  (0xFB50, "
ٱٱٻٻٻٻپپپپڀڀڀڀٺٺٺٺٿٿٿٿٹٹٹٹڤڤڤڤڦڦڦڦڄڄڄڄڃڃڃڃچچچچڇڇڇڇڍڍڌڌڎڎڈڈژژڑڑککککگگگگڳڳڳڳڱڱڱڱںںڻڻڻڻ"),
  (0xFBA6, "ہہہہھھھھےے"), (0xFBD3, "ڭڭڭڭۇۇۆۆۈۈ"), (0xFBDE, "ۋۋۅۅۉۉېېېېىى"), (0xFBFC, "یییی"),
  (0xFE8D, "
ااببببةةتتتتثثثثججججححححخخخخددذذررززسسسسششششصصصصضضضضططططظظظظععععغغغغففففققققككككللللممممنن
ننههههووىىيييي"),
  (0xFF66, "ヲァィゥェォャュョッーアイウエオカキクケコサシスセソタチツテトナニヌネノハヒフヘホマミムメモヤユヨラリルレロワン"),
  (0xFFA1, "ᄀᄁᆪᄂᆬᆭᄃᄄᄅᆰᆱᆲᆳᆴᆵᄚᄆᄇᄈᄡ"), (0xFFC2, "ᅡᅢᅣᅤᅥᅦ"), (0xFFCA, "ᅧᅨᅩᅪᅫᅬ"), (0xFFD2, "ᅭᅮᅯᅰᅱᅲ"),
  (0xFFDA, "ᅳᅴᅵ"), (0x10781, "ːˑæʙɓ"), (0x10787, "ʣꭦʥʤɖɗᶑɘɞʩɤɢɠʛħʜɧʄʪʫɬ𝼄ꞎɮ𝼅ʎ𝼆øɶɷqɺ𝼈ɽɾʀʨʦꭧʧʈⱱ"),
  (0x107B2, "ʏʡʢʘǀǁǂ𝼊𝼞"), (0x1D4A9, "NOPQ"), (0x1D4B6, "abcd"), (0x1D507, "DEFG"),
  (0x1D53B, "DEFG"), (0x1D540, "IJKLM"), (0x1D6DC, "εθκφρπ"), (0x1D716, "εθκφρπ"),
  (0x1D750, "εθκφρπ"), (0x1D78A, "εθκφρπ"), (0x1D7C4, "εθκφρπϜϝ"), (0x1EE00, "ابجد"),
  (0x1EE05, "وزحطيكلمنسعفصقرشتثخذضظغٮںڡٯ"), (0x1EE29, "يكلمنسعفصق"), (0x1EE34, "شتثخ"),
  (0x1EE4D, "نسع"), (0x1EE67, "حطيك"), (0x1EE6C, "منسعفصق"), (0x1EE74, "شتثخ"),
  (0x1EE79, "ضظغٮ"), (0x1EE80, "ابجدهوزحطي"), (0x1EE8B, "لمنسعفصقرشتثخذضظغ"), (0x1EEA1, "بجد"),
  (0x1EEA5, "وزحطي"), (0x1EEAB, "لمنسعفصقرشتثخذضظغ"),
  (0x2F800, "
丽丸乁𠄢你侮侻倂偺備僧像㒞𠘺免兔兤具𠔜㒹內再𠕋冗冤仌冬况𩇟凵刃㓟刻剆割剷㔕勇勉勤勺包匆北卉卑博即
卽卿卿卿𠨬灰及叟𠭣叫叱吆咞吸呈周咢哶唐啓啣善善喙喫喳嗂圖嘆圗噑噴切壮城埴堍型堲報墬𡓤売壷夆多夢奢
𡚨𡛪姬娛娧姘婦㛮㛼嬈嬾嬾𡧈寃寘寧寳𡬘寿将当尢㞁屠屮峀岍𡷤嵃𡷦嵮嵫嵼巡巢㠯巽帨帽幩㡢𢆃㡼庰庳庶廊𪎒
廾𢌱𢌱舁弢弢㣇𣊸𦇚形彫㣣徚忍志忹悁㤺㤜悔𢛔惇慈慌慎慌慺憎憲憤憯懞懲懶成戛扝抱拔捐𢬌挽拼捨掃揤𢯱搢
揅掩㨮摩摾撝摷㩬敏敬𣀊旣書晉㬙暑㬈㫤冒冕最暜肭䏙朗望朡杞杓𣏃㭉柺枅桒梅𣑭梎栟椔㮝楂榣槪檨𣚣櫛㰘次
𣢧歔㱎歲殟殺殻𣪍𡴋𣫺汎𣲼沿泍汧洖派海流浩浸涅𣴞洴港湮㴳滋滇𣻑淹潮𣽞𣾎濆瀹瀞瀛㶖灊災灷炭𠔥煅𤉣熜𤎫
爨爵牐𤘈犀犕𤜵𤠔獺王㺬玥㺸㺸瑇瑜瑱璅瓊㼛甤𤰶甾𤲒異𢆟瘐𤾡𤾸𥁄㿼䀈直𥃳𥃲𥄙𥄳眞真真睊䀹瞋䁆䂖𥐝硎碌
磌䃣𥘦祖𥚚𥛅福秫䄯穀穊穏𥥼𥪧𥪧竮䈂𥮫篆築䈧𥲀糒䊠糨糣紀𥾆絣䌁緇縂繅䌴𦈨𦉇䍙𦋙罺𦌾羕翺者𦓚𦔣聠𦖨聰
𣍟䏕育脃䐋脾媵𦞧𦞵𣎓𣎜舁舄辞䑫芑芋芝劳花芳芽苦𦬼若茝荣莭茣莽菧著荓菊菌菜𦰶𦵫𦳕䔫蓱蓳蔖𧏊蕤𦼬䕝䕡
𦾱𧃒䕫虐虜虧虩蚩蚈蜎蛢蝹蜨蝫螆䗗蟡蠁䗹衠衣𧙧裗裞䘵裺㒻𧢮𧥦䚾䛇誠諭變豕𧲨貫賁贛起𧼯𠠄跋趼跰𠣞軔輸
𨗒𨗭邔郱鄑𨜮鄛鈸鋗鋘鉼鏹鐕𨯺開䦕閷𨵷䧦雃嶲霣𩅅𩈚䩮䩶韠𩐊䪲𩒖頋頋頩𩖶飢䬳餩馧駂駾䯎𩬰鬒鱀鳽䳎䳭鵧
𪃎䳸𪄅𪈎𪊑麻䵖黹黾鼅鼏鼖鼻𪘀")]

/-- Characters from a code on, and the sequences for which they stand, one by one. -/
def sequenceRuns : List (Nat × String) := [
  (0x01C4, "DŽ Dž dž LJ Lj lj NJ Nj nj"),
  (0x01F1, "DZ Dz dz"),
  (0x0675, "اٴ وٴ ۇٴ يٴ"),
  (0x2161, "II III IV"),
  (0x2165, "VI VII VIII IX"),
  (0x2171, "ii iii iv"),
  (0x2175, "vi vii viii ix"),
  (0xFB00, "ff fi fl ffi ffl st st"),
  (0xFB13, "մն մե մի վն մխ"),
  (0xFBEA, "ئا ئا ئە ئە ئو ئو ئۇ ئۇ ئۆ ئۆ ئۈ ئۈ ئې ئې ئې ئى ئى ئى"),
  (0xFC00, "ئج ئح ئم ئى ئي بج بح بخ بم بى بي تج تح تخ تم تى تي ثج ثم ثى ثي جح جم حج حم خج خح خم سج سح سخ سم
    صح صم ضج ضح ضخ ضم طح طم ظم عج عم غج غم فج فح فخ فم فى في قح قم قى قي كا كج كح كخ كل كم كى كي لج
    لح لخ لم لى لي مج مح مخ مم مى مي نج نح نخ نم نى ني هج هم هى هي يج يح يخ يم يى يي"),
  (0xFC64, "ئر ئز ئم ئن ئى ئي بر بز بم بن بى بي تر تز تم تن تى تي ثر ثز ثم ثن ثى ثي فى في قى قي كا كل كم كى
    كي لم لى لي ما مم نر نز نم نن نى ني"),
  (0xFC91, "ير يز يم ين يى يي ئج ئح ئخ ئم ئه بج بح بخ بم به تج تح تخ تم ته ثم جح جم حج حم خج خم سج سح سخ سم
    صح صخ صم ضج ضح ضخ ضم طح ظم عج عم غج غم فج فح فخ فم قح قم كج كح كخ كل كم لج لح لخ لم له مج مح مخ
    مم نج نح نخ نم نه هج هم"),
  (0xFCDA, "يج يح يخ يم يه ئم ئه بم به تم ته ثم ثه سم سه شم شه كل كم لم نم نه يم يه"),
  (0xFCF5, "طى طي عى عي غى غي سى سي شى شي حى حي جى جي خى خي صى صي ضى ضي شج شح شخ شم شر سر صر ضر طى طي عى عي
    غى غي سى سي شى شي حى حي جى جي خى خي صى صي ضى ضي شج شح شخ شم شر سر صر ضر شج شح شخ شم سه شه طم سج
    سح سخ شج شح شخ طم ظم"),
  (0xFD50, "تجم تحج تحج تحم تخم تمج تمح تمخ جمح جمح حمي حمى سحج سجح سجى سمح سمح سمج سمم سمم صحح صحح صمم شحم
    شحم شجي شمخ شمخ شمم شمم ضحى ضخم ضخم طمح طمح طمم طمي عجم عمم عمم عمى غمم غمي غمى فخم فخم قمح قمم
    لحم لحي لحى لجج لجج لخم لخم لمح لمح محج محم محي مجح مجم مخج مخم"),
  (0xFD92, "مجخ همج همم نحم نحى نجم نجم نجى نمي نمى يمم يمم بخي تجي تجى تخي تخى تمي تمى جمي جحى جمى سخى صحي
    شحي ضحي لجي لمي يحي يجي يمي ممي قمي نحي قمح لحم عمي كمي نجح مخي لجم كمم لجم نجح جحي حجي مجي فمي
    بحي كمم عجم صمم سخي نجي"),
  (0xFDF0, "صلے قلے الله اكبر محمد صلعم رسول عليه وسلم صلى"),
  (0xFEF5, "لآ لآ لأ لأ لإ لإ لا لا")]

/-- The marks, with the letters that they are composed with and what comes of it. -/
def markedLetters : List (Nat × String) := [
  (0x0300, "AÀ EÈ IÌ OÒ UÙ aà eè iì oò uù ÜǛ üǜ NǸ nǹ ЕЀ ИЍ еѐ иѝ ĒḔ ēḕ ŌṐ ōṑ WẀ wẁ ÂẦ âầ ĂẰ ăằ
    ÊỀ êề ÔỒ ôồ ƠỜ ơờ ƯỪ ưừ YỲ yỳ ἀἂ ἁἃ ἈἊ ἉἋ ἐἒ ἑἓ ἘἚ ἙἛ ἠἢ ἡἣ ἨἪ ἩἫ ἰἲ ἱἳ ἸἺ ἹἻ ὀὂ ὁὃ ὈὊ ὉὋ ὐὒ ὑὓ
    ὙὛ ὠὢ ὡὣ ὨὪ ὩὫ αὰ εὲ ηὴ ιὶ οὸ υὺ ωὼ ΑᾺ ΕῈ ΗῊ ϊῒ ΙῚ ϋῢ ΥῪ ΟῸ ΩῺ"),
  (0x0301, "AÁ EÉ IÍ OÓ UÚ YÝ aá eé ií oó uú yý CĆ cć LĹ lĺ NŃ nń RŔ rŕ SŚ sś ZŹ zź ÜǗ üǘ GǴ gǵ
    ÅǺ åǻ ÆǼ æǽ ØǾ øǿ ΑΆ ΕΈ ΗΉ ΙΊ ΟΌ ΥΎ ΩΏ ϊΐ αά εέ ηή ιί ϋΰ οό υύ ωώ ϒϓ ГЃ КЌ гѓ кќ ÇḈ çḉ ĒḖ ēḗ ÏḮ
    ïḯ KḰ kḱ MḾ mḿ ÕṌ õṍ ŌṒ ōṓ PṔ pṕ ŨṸ ũṹ WẂ wẃ ÂẤ âấ ĂẮ ăắ ÊẾ êế ÔỐ ôố ƠỚ ơớ ƯỨ ưứ ἀἄ ἁἅ ἈἌ ἉἍ ἐἔ
    ἑἕ ἘἜ ἙἝ ἠἤ ἡἥ ἨἬ ἩἭ ἰἴ ἱἵ ἸἼ ἹἽ ὀὄ ὁὅ ὈὌ ὉὍ ὐὔ ὑὕ ὙὝ ὠὤ ὡὥ ὨὬ ὩὭ"),
  (0x0302, "AÂ EÊ IÎ OÔ UÛ aâ eê iî oô uû CĈ cĉ GĜ gĝ HĤ hĥ JĴ jĵ SŜ sŝ WŴ wŵ YŶ yŷ ZẐ zẑ ẠẬ ạậ
    ẸỆ ẹệ ỌỘ ọộ"),
  (0x0303, "AÃ NÑ OÕ aã nñ oõ IĨ iĩ UŨ uũ VṼ vṽ ÂẪ âẫ ĂẴ ăẵ EẼ eẽ ÊỄ êễ ÔỖ ôỗ ƠỠ ơỡ ƯỮ ưữ YỸ yỹ"),
  (0x0304, "AĀ aā EĒ eē IĪ iī OŌ oō UŪ uū ÜǕ üǖ ÄǞ äǟ ȦǠ ȧǡ ÆǢ æǣ ǪǬ ǫǭ ÖȪ öȫ ÕȬ õȭ ȮȰ ȯȱ YȲ yȳ
    ИӢ иӣ УӮ уӯ GḠ gḡ ḶḸ ḷḹ ṚṜ ṛṝ αᾱ ΑᾹ ιῑ ΙῙ υῡ ΥῩ"),
  (0x0306, "AĂ aă EĔ eĕ GĞ gğ IĬ iĭ OŎ oŏ UŬ uŭ УЎ ИЙ ий уў ЖӁ жӂ АӐ аӑ ЕӖ еӗ ȨḜ ȩḝ ẠẶ ạặ αᾰ ΑᾸ
    ιῐ ΙῘ υῠ ΥῨ"),
  (0x0307, "CĊ cċ EĖ eė GĠ gġ Iİ ZŻ zż AȦ aȧ OȮ oȯ BḂ bḃ DḊ dḋ FḞ fḟ HḢ hḣ MṀ mṁ NṄ nṅ PṖ pṗ RṘ
    rṙ SṠ sṡ ŚṤ śṥ ŠṦ šṧ ṢṨ ṣṩ TṪ tṫ WẆ wẇ XẊ xẋ YẎ yẏ ſẛ"),
  (0x0308, "AÄ EË IÏ OÖ UÜ aä eë iï oö uü yÿ YŸ ΙΪ ΥΫ ιϊ υϋ ϒϔ ЕЁ ІЇ её ії АӒ аӓ ӘӚ әӛ ЖӜ жӝ ЗӞ
    зӟ ИӤ иӥ ОӦ оӧ ӨӪ өӫ ЭӬ эӭ УӰ уӱ ЧӴ чӵ ЫӸ ыӹ HḦ hḧ ÕṎ õṏ ŪṺ ūṻ WẄ wẅ XẌ xẍ tẗ"),
  (0x0309, "AẢ aả ÂẨ âẩ ĂẲ ăẳ EẺ eẻ ÊỂ êể IỈ iỉ OỎ oỏ ÔỔ ôổ ƠỞ ơở UỦ uủ ƯỬ ưử YỶ yỷ"),
  (0x030A, "AÅ aå UŮ uů wẘ yẙ"), (0x030B, "OŐ oő UŰ uű УӲ уӳ"),
  (0x030C, "CČ cč DĎ dď EĚ eě LĽ lľ NŇ nň RŘ rř SŠ sš TŤ tť ZŽ zž AǍ aǎ IǏ iǐ OǑ oǒ UǓ uǔ ÜǙ üǚ
    GǦ gǧ KǨ kǩ ƷǮ ʒǯ jǰ HȞ hȟ"),
  (0x030F, "AȀ aȁ EȄ eȅ IȈ iȉ OȌ oȍ RȐ rȑ UȔ uȕ ѴѶ ѵѷ"),
  (0x0311, "AȂ aȃ EȆ eȇ IȊ iȋ OȎ oȏ RȒ rȓ UȖ uȗ"),
  (0x0313, "αἀ ΑἈ εἐ ΕἘ ηἠ ΗἨ ιἰ ΙἸ οὀ ΟὈ υὐ ωὠ ΩὨ ρῤ"),
  (0x0314, "αἁ ΑἉ εἑ ΕἙ ηἡ ΗἩ ιἱ ΙἹ οὁ ΟὉ υὑ ΥὙ ωὡ ΩὩ ρῥ ΡῬ"), (0x031B, "OƠ oơ UƯ uư"),
  (0x0323, "BḄ bḅ DḌ dḍ HḤ hḥ KḲ kḳ LḶ lḷ MṂ mṃ NṆ nṇ RṚ rṛ SṢ sṣ TṬ tṭ VṾ vṿ WẈ wẉ ZẒ zẓ AẠ aạ
    EẸ eẹ IỊ iị OỌ oọ ƠỢ ơợ UỤ uụ ƯỰ ưự YỴ yỵ"),
  (0x0324, "UṲ uṳ"), (0x0325, "AḀ aḁ"), (0x0326, "SȘ sș TȚ tț"),
  (0x0327, "CÇ cç GĢ gģ KĶ kķ LĻ lļ NŅ nņ RŖ rŗ SŞ sş TŢ tţ EȨ eȩ DḐ dḑ HḨ hḩ"),
  (0x0328, "AĄ aą EĘ eę IĮ iį UŲ uų OǪ oǫ"), (0x032D, "DḒ dḓ EḘ eḙ LḼ lḽ NṊ nṋ TṰ tṱ UṶ uṷ"),
  (0x032E, "HḪ hḫ"), (0x0330, "EḚ eḛ IḬ iḭ UṴ uṵ"),
  (0x0331, "BḆ bḇ DḎ dḏ KḴ kḵ LḺ lḻ NṈ nṉ RṞ rṟ TṮ tṯ ZẔ zẕ hẖ"),
  (0x0342, "ἀἆ ἁἇ ἈἎ ἉἏ ἠἦ ἡἧ ἨἮ ἩἯ ἰἶ ἱἷ ἸἾ ἹἿ ὐὖ ὑὗ ὙὟ ὠὦ ὡὧ ὨὮ ὩὯ αᾶ ηῆ ιῖ ϊῗ υῦ ϋῧ ωῶ"),
  (0x0345, "ἀᾀ ἁᾁ ἂᾂ ἃᾃ ἄᾄ ἅᾅ ἆᾆ ἇᾇ Ἀᾈ Ἁᾉ Ἂᾊ Ἃᾋ Ἄᾌ Ἅᾍ Ἆᾎ Ἇᾏ ἠᾐ ἡᾑ ἢᾒ ἣᾓ ἤᾔ ἥᾕ ἦᾖ ἧᾗ Ἠᾘ Ἡᾙ Ἢᾚ Ἣᾛ
    Ἤᾜ Ἥᾝ Ἦᾞ Ἧᾟ ὠᾠ ὡᾡ ὢᾢ ὣᾣ ὤᾤ ὥᾥ ὦᾦ ὧᾧ Ὠᾨ Ὡᾩ Ὢᾪ Ὣᾫ Ὤᾬ Ὥᾭ Ὦᾮ Ὧᾯ ὰᾲ αᾳ άᾴ ᾶᾷ Αᾼ ὴῂ ηῃ ήῄ ῆῇ Ηῌ ὼῲ ωῳ
    ώῴ ῶῷ Ωῼ"),
  (0x0653, "اآ"), (0x0654, "اأ وؤ يئ ەۀ ہۂ ےۓ"), (0x0655, "اإ"), (0x093C, "नऩ रऱ ळऴ"),
  (0x09BE, "েো"), (0x09D7, "েৌ"), (0x0B3E, "େୋ"), (0x0B56, "େୈ"), (0x0B57, "େୌ"),
  (0x0BBE, "ெொ ேோ"), (0x0BD7, "ஒஔ ெௌ"), (0x0C56, "ెై"), (0x0CC2, "ೆೊ"), (0x0CD5, "ಿೀ ೆೇ ೊೋ"),
  (0x0CD6, "ೆೈ"), (0x0D3E, "െൊ േോ"), (0x0D57, "െൌ"), (0x0DCA, "ෙේ ොෝ"), (0x0DCF, "ෙො"),
  (0x0DDF, "ෙෞ"), (0x102E, "ဥဦ"), (0x1B35, "ᬅᬆ ᬇᬈ ᬉᬊ ᬋᬌ ᬍᬎ ᬑᬒ ᬺᬻ ᬼᬽ ᬾᭀ ᬿᭁ ᭂᭃ"),
  (0x3099, "かが きぎ くぐ けげ こご さざ しじ すず せぜ そぞ ただ ちぢ つづ てで とど はば ひび ふぶ へべ ほぼ うゔ ゝゞ カガ キギ クグ ケゲ コゴ サザ
    シジ スズ セゼ ソゾ タダ チヂ ツヅ テデ トド ハバ ヒビ フブ ヘベ ホボ ウヴ ワヷ ヰヸ ヱヹ ヲヺ ヽヾ"),
  (0x309A, "はぱ ひぴ ふぷ へぺ ほぽ ハパ ヒピ フプ ヘペ ホポ"), (0x110BA, "𑂙𑂚 𑂛𑂜 𑂥𑂫"), (0x11127, "𑄱𑄮 𑄲𑄯"),
  (0x1133E, "𑍇𑍋"), (0x11357, "𑍇𑍌"), (0x114B0, "𑒹𑒼"), (0x114BA, "𑒹𑒻"), (0x114BD, "𑒹𑒾"),
  (0x115AF, "𑖸𑖺 𑖹𑖻"), (0x11930, "𑤵𑤸")]

def combiningClasses : List (Nat × Ranges) := [
  (1, Ranges.ofText "0334..0338 1CD4 1CE2..1CE8 20D2..20D3 20D8..20DA 20E5..20E6 20EA..20EB 10A39
    16AF0..16AF4 1BC9E 1D167..1D169"),
  (6, Ranges.ofText "16FF0..16FF1"),
  (7, Ranges.ofText "093C 09BC 0A3C 0ABC 0B3C 0C3C 0CBC 1037 1B34 1BE6 1C37 A9B3 110BA 11173 111CA
    11236 112E9 1133B..1133C 11446 114C3 115C0 116B7 1183A 11943 11D42 1E94A"),
  (8, Ranges.ofText "3099..309A"),
  (9, Ranges.ofText "094D 09CD 0A4D 0ACD 0B4D 0BCD 0C4D 0CCD 0D3B..0D3C 0D4D 0DCA 0E3A 0EBA 0F84
    1039..103A 1714..1715 1734 17D2 1A60 1B44 1BAA..1BAB 1BF2..1BF3 2D7F A806 A82C A8C4 A953 A9C0
    AAF6 ABED 10A3F 11046 11070 1107F 110B9 11133..11134 111C0 11235 112EA 1134D 11442 114C2 115BF
    1163F 116B6 1172B 11839 1193D..1193E 119E0 11A34 11A47 11A99 11C3F 11D44..11D45 11D97"),
  (10, Ranges.ofText "05B0"),
  (11, Ranges.ofText "05B1"),
  (12, Ranges.ofText "05B2"),
  (13, Ranges.ofText "05B3"),
  (14, Ranges.ofText "05B4"),
  (15, Ranges.ofText "05B5"),
  (16, Ranges.ofText "05B6"),
  (17, Ranges.ofText "05B7"),
  (18, Ranges.ofText "05B8 05C7"),
  (19, Ranges.ofText "05B9..05BA"),
  (20, Ranges.ofText "05BB"),
  (21, Ranges.ofText "05BC"),
  (22, Ranges.ofText "05BD"),
  (23, Ranges.ofText "05BF"),
  (24, Ranges.ofText "05C1"),
  (25, Ranges.ofText "05C2"),
  (26, Ranges.ofText "FB1E"),
  (27, Ranges.ofText "064B 08F0"),
  (28, Ranges.ofText "064C 08F1"),
  (29, Ranges.ofText "064D 08F2"),
  (30, Ranges.ofText "0618 064E"),
  (31, Ranges.ofText "0619 064F"),
  (32, Ranges.ofText "061A 0650"),
  (33, Ranges.ofText "0651"),
  (34, Ranges.ofText "0652"),
  (35, Ranges.ofText "0670"),
  (36, Ranges.ofText "0711"),
  (84, Ranges.ofText "0C55"),
  (91, Ranges.ofText "0C56"),
  (103, Ranges.ofText "0E38..0E39"),
  (107, Ranges.ofText "0E48..0E4B"),
  (118, Ranges.ofText "0EB8..0EB9"),
  (122, Ranges.ofText "0EC8..0ECB"),
  (129, Ranges.ofText "0F71"),
  (130, Ranges.ofText "0F72 0F7A..0F7D 0F80"),
  (132, Ranges.ofText "0F74"),
  (202, Ranges.ofText "0321..0322 0327..0328 1DD0"),
  (214, Ranges.ofText "1DCE"),
  (216, Ranges.ofText "031B 0F39 1D165..1D166 1D16E..1D172"),
  (218, Ranges.ofText "1DFA 302A"),
  (220, Ranges.ofText "0316..0319 031C..0320 0323..0326 0329..0333 0339..033C 0347..0349
    034D..034E 0353..0356 0359..035A 0591 0596 059B 05A2..05A7 05AA 05C5 0655..0656 065C 065F 06E3
    06EA 06ED 0731 0734 0737..0739 073B..073C 073E 0742 0744 0746 0748 07F2 07FD 0859..085B
    0899..089B 08CF..08D3 08E3 08E6 08E9 08ED..08EF 08F6 08F9..08FA 0952 0F18..0F19 0F35 0F37 0FC6
    108D 193B 1A18 1A7F 1AB5..1ABA 1ABD 1ABF..1AC0 1AC3..1AC4 1ACA 1B6C 1CD5..1CD9 1CDC..1CDF 1CED
    1DC2 1DCA 1DCF 1DF9 1DFD 1DFF 20E8 20EC..20EF A92B..A92D AAB4 FE27..FE2D 101FD 102E0 10A0D
    10A3A 10AE6 10F46..10F47 10F4B 10F4D..10F50 10F83 10F85 1D17B..1D182 1D18A..1D18B
    1E8D0..1E8D6"),
  (222, Ranges.ofText "059A 05AD 1939 302D"),
  (224, Ranges.ofText "302E..302F"),
  (226, Ranges.ofText "1D16D"),
  (228, Ranges.ofText "05AE 18A9 1DF7..1DF8 302B"),
  (230, Ranges.ofText "0300..0314 033D..0344 0346 034A..034C 0350..0352 0357 035B 0363..036F
    0483..0487 0592..0595 0597..0599 059C..05A1 05A8..05A9 05AB..05AC 05AF 05C4 0610..0617
    0653..0654 0657..065B 065D..065E 06D6..06DC 06DF..06E2 06E4 06E7..06E8 06EB..06EC 0730
    0732..0733 0735..0736 073A 073D 073F..0741 0743 0745 0747 0749..074A 07EB..07F1 07F3
    0816..0819 081B..0823 0825..0827 0829..082D 0898 089C..089F 08CA..08CE 08D4..08E1 08E4..08E5
    08E7..08E8 08EA..08EC 08F3..08F5 08F7..08F8 08FB..08FF 0951 0953..0954 09FE 0F82..0F83
    0F86..0F87 135D..135F 17DD 193A 1A17 1A75..1A7C 1AB0..1AB4 1ABB..1ABC 1AC1..1AC2 1AC5..1AC9
    1ACB..1ACE 1B6B 1B6D..1B73 1CD0..1CD2 1CDA..1CDB 1CE0 1CF4 1CF8..1CF9 1DC0..1DC1 1DC3..1DC9
    1DCB..1DCC 1DD1..1DF5 1DFB 1DFE 20D0..20D1 20D4..20D7 20DB..20DC 20E1 20E7 20E9 20F0
    2CEF..2CF1 2DE0..2DFF A66F A674..A67D A69E..A69F A6F0..A6F1 A8E0..A8F1 AAB0 AAB2..AAB3
    AAB7..AAB8 AABE..AABF AAC1 FE20..FE26 FE2E..FE2F 10376..1037A 10A0F 10A38 10AE5 10D24..10D27
    10EAB..10EAC 10F48..10F4A 10F4C 10F82 10F84 11100..11102 11366..1136C 11370..11374 1145E
    16B30..16B36 1D185..1D189 1D1AA..1D1AD 1D242..1D244 1E000..1E006 1E008..1E018 1E01B..1E021
    1E023..1E024 1E026..1E02A 1E130..1E136 1E2AE 1E2EC..1E2EF 1E944..1E949"),
  (232, Ranges.ofText "0315 031A 0358 1DF6 302C"),
  (233, Ranges.ofText "035C 035F 0362 1DFC"),
  (234, Ranges.ofText "035D..035E 0360..0361 1DCD"),
  (240, Ranges.ofText "0345")]

end DocLint.Text.Property
