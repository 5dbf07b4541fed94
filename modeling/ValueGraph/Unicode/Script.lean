/-
  Scripts: the writing system of every character.

  Scripts are known by their numbers in `Script.names`, counted from one; zero
  is the number of characters without a script.

  * `Script.of` is the script of a character;
  * `Script.isUsed` says whether a character is used in a script, which may
    be another one than its own;
  * `Script.named?` finds a script by its name or its code.
-/
import ValueGraph.Unicode.Runs

namespace ValueGraph.Unicode.Script

/-- The names and codes of the scripts, in loose spelling. -/
def names : List (List String) :=
  [["adlam", "adlm"], ["ahom"], ["anatolianhieroglyphs", "hluw"], ["arabic", "arab"],
   ["armenian", "armn"], ["avestan", "avst"], ["balinese", "bali"], ["bamum", "bamu"],
   ["bassavah", "bass"], ["batak", "batk"], ["bengali", "beng"], ["bhaiksuki", "bhks"],
   ["bopomofo", "bopo"], ["brahmi", "brah"], ["braille", "brai"], ["buginese", "bugi"],
   ["buhid", "buhd"], ["canadianaboriginal", "cans"], ["carian", "cari"],
   ["caucasianalbanian", "aghb"], ["chakma", "cakm"], ["cham"], ["cherokee", "cher"],
   ["chorasmian", "chrs"], ["common", "zyyy"], ["coptic", "copt", "qaac"], ["cuneiform", "xsux"],
   ["cypriot", "cprt"], ["cyprominoan", "cpmn"], ["cyrillic", "cyrl"], ["deseret", "dsrt"],
   ["devanagari", "deva"], ["divesakuru", "diak"], ["dogra", "dogr"], ["duployan", "dupl"],
   ["egyptianhieroglyphs", "egyp"], ["elbasan", "elba"], ["elymaic", "elym"],
   ["ethiopic", "ethi"], ["garay", "gara"], ["georgian", "geor"], ["glagolitic", "glag"],
   ["gothic", "goth"], ["grantha", "gran"], ["greek", "grek"], ["gujarati", "gujr"],
   ["gunjalagondi", "gong"], ["gurmukhi", "guru"], ["gurungkhema", "gukh"], ["han", "hani"],
   ["hangul", "hang"], ["hanifirohingya", "rohg"], ["hanunoo", "hano"], ["hatran", "hatr"],
   ["hebrew", "hebr"], ["hiragana", "hira"], ["imperialaramaic", "armi"],
   ["inherited", "qaai", "zinh"], ["inscriptionalpahlavi", "phli"],
   ["inscriptionalparthian", "prti"], ["javanese", "java"], ["kaithi", "kthi"],
   ["kannada", "knda"], ["katakana", "kana"], ["kawi"], ["kayahli", "kali"],
   ["kharoshthi", "khar"], ["khitansmallscript", "kits"], ["khmer", "khmr"], ["khojki", "khoj"],
   ["khudawadi", "sind"], ["kiratrai", "krai"], ["lao", "laoo"], ["latin", "latn"],
   ["lepcha", "lepc"], ["limbu", "limb"], ["lineara", "lina"], ["linearb", "linb"], ["lisu"],
   ["lycian", "lyci"], ["lydian", "lydi"], ["mahajani", "mahj"], ["makasar", "maka"],
   ["malayalam", "mlym"], ["mandaic", "mand"], ["manichaean", "mani"], ["marchen", "marc"],
   ["masaramgondi", "gonm"], ["medefaidrin", "medf"], ["meeteimayek", "mtei"],
   ["mendekikakui", "mend"], ["meroiticcursive", "merc"], ["meroitichieroglyphs", "mero"],
   ["miao", "plrd"], ["modi"], ["mongolian", "mong"], ["mro", "mroo"], ["multani", "mult"],
   ["myanmar", "mymr"], ["nabataean", "nbat"], ["nagmundari", "nagm"], ["nandinagari", "nand"],
   ["newtailue", "talu"], ["newa"], ["nko", "nkoo"], ["nushu", "nshu"],
   ["nyiakengpuachuehmong", "hmnp"], ["ogham", "ogam"], ["olchiki", "olck"], ["olonal", "onao"],
   ["oldhungarian", "hung"], ["olditalic", "ital"], ["oldnortharabian", "narb"],
   ["oldpermic", "perm"], ["oldpersian", "xpeo"], ["oldsogdian", "sogo"],
   ["oldsoutharabian", "sarb"], ["oldturkic", "orkh"], ["olduyghur", "ougr"], ["oriya", "orya"],
   ["osage", "osge"], ["osmanya", "osma"], ["pahawhhmong", "hmng"], ["palmyrene", "palm"],
   ["paucinhau", "pauc"], ["phagspa", "phag"], ["phoenician", "phnx"],
   ["psalterpahlavi", "phlp"], ["rejang", "rjng"], ["runic", "runr"], ["samaritan", "samr"],
   ["saurashtra", "saur"], ["sharada", "shrd"], ["shavian", "shaw"], ["siddham", "sidd"],
   ["signwriting", "sgnw"], ["sinhala", "sinh"], ["sogdian", "sogd"], ["sorasompeng", "sora"],
   ["soyombo", "soyo"], ["sundanese", "sund"], ["sunuwar", "sunu"], ["sylotinagri", "sylo"],
   ["syriac", "syrc"], ["tagalog", "tglg"], ["tagbanwa", "tagb"], ["taile", "tale"],
   ["taitham", "lana"], ["taiviet", "tavt"], ["takri", "takr"], ["tamil", "taml"],
   ["tangsa", "tnsa"], ["tangut", "tang"], ["telugu", "telu"], ["thaana", "thaa"], ["thai"],
   ["tibetan", "tibt"], ["tifinagh", "tfng"], ["tirhuta", "tirh"], ["todhri", "todr"], ["toto"],
   ["tulutigalari", "tutg"], ["ugaritic", "ugar"], ["vai", "vaii"], ["vithkuqi", "vith"],
   ["wancho", "wcho"], ["warangciti", "wara"], ["yezidi", "yezi"], ["yi", "yiii"],
   ["zanabazarsquare", "zanb"]]

/-- The script of every code point. -/
def table : Runs := .ofPairs
  ["Ch56Cqm56CqBv5hCqv5hCql53Cqh5-Cqh5OhCqBn5lCql5it05DwB6kBth5jBtigkBth5hBtkghBth5hBth5jBthghBt",
   "hg0BthgB-Btu6wBtEl+iB6Fp+hgBmligByligjlhgB3B3og7B3kgmB3rglkh5mkh5ukh5jkh5Bgkh5qkrB66khB6Dskh",
   "5BikuEwhgB8EwigjEwBwkByE7ugB7DpigjDpBuEjigvEjhg8C1ighC1hgrEwlg-khgiklgCrkh59kCxBgkB6vBgi56Bg",
   "krhgorigirig2rhgnrhghrjgkrigprigirigkroghrkgirhglrig5rigjBwhgmBwkgiBwig2BwhgnBwhgiBwhgiBwhgi",
   "BwighBwhglBwkgiBwigjBwjghBwngkBwhghBwngxBwqgjBuhgpBuhgjBuhg2BuhgnBuhgiBuhglBuigqBuhgjBuhgjBu",
   "ighBuvgkBuigsBungnBuhgjD4hgoD4igiD4ig2D4hgnD4hgiD4hglD4igpD4igiD4igjD4ngjD4kgiD4hglD4igyD4qg",
   "iE3hgmE3jgjE3hgkE3jgiE3hghE3hgiE3jgiE3jgjE3jgsE3kglE3jgjE3hgkE3ighE3mghE3ug1E3lgtE6hgjE6hg3E",
   "6hgwE6igpE6hgjE6hgkE6ngiE6hgjE6ighE6igkE6igqE6ngpE6tB-hgjB-hg3B-hgqB-hglB-igpB-hgjB-hgkB-ngi",
   "B-mgiB-hgkB-igqB-hgjB-sgtC0hgjC0hgBzC0hgjC0hgmC0kgwC0ig6C0hgjEphgyEpjg4EphgpEphghEpignEpjghE",
   "pkgmEphghEphgoEpmgqEpigjEpsgB6E8kgh58E8BlgiCphghCphglCphg4CphghCphg3CpiglCphghCphgnCphgqCpig",
   "kCpBggCoE9hgBkE9kgBnE9hgBkE9hgvE9hgnE9k5iE9BlgFgDjBmBphghBplghBpigBrBph5kBpIgBzCpBnhgkBnignB",
   "nhghBnhgkBnigBpBnhgkBnigBhBnhgkBnignBnhghBnhgkBnigvBnhgB5BnhgkBnigCjBnigBgBnjg6BnmgC23igm3ig",
   "Ugy9DsjgCrEij5rEing2ExpghEx1B1i5pg0xsgtEyhgjEyhgiEysgC+CligqClmgqClmgiDgi5hDgh50DgmgC5DgngBr",
   "DglgCmyqg-CshgsCskgsCskghCsjgsCs+EziglEzrgBsDnkg6DnmgrDnjgiDnBgCl8wigiwB-E0hg9E0igrE0mgqE0mg",
   "uE0ig-B6BxgCtnhgBynCgEtB0qogkqB4CrjgvCrjgjCrBwDtr+lgBrBpigjBpoEtogjB6h5tB6h5nB6k5hB6m5hB6j5i",
   "B6h5lgBmCqlBth+BxCqlBtkCqlBttCqh+CmCqhBtCgB6IgCq2BtigmBtigBmBtigmBtigoBthghBthghBthghBthg-Bt",
   "igB1BthgvBthguBtigmBthgzBtigjBthgpBthgs5iB6C35hgr5hCqigr5hCqv5hgtCqjgBh5vgBhB6vgBm5hBtj5iCqm",
   "5hCq75hCqx5BpCqj5kgU652gr51gdg5IgvT05igBg5hgDp5DgBqBgCqD06lgn6BmBphghBplghBpigB4E+ngiE+ughE+",
   "3BnpgnBnhgnBnhgnBnhgnBnhgnBnhgnBnhgnBnhgnBnhgBg+C+5Big6ByhgC5BysgG2By6g15hByh5hBy55pBykB6iBz",
   "o5kByk5hgC2B4igiB6i5jB4h5C6Cgi5jCglgBrthgC+Bzhgw5BgtBm5pgh5wCg-BzhgCg5-BzCx5BvCgh5C4CgFo5GOg",
   "ByCg5UQgByBEtFpjgB3FppgBwCvJsFk0gDg+C4oogBi5DmCqj5CjCqigiCqhghCqhgoCq1guCqBtEvjgq5mgB4D+ogCm",
   "EkogsEkmgBgBgBuCih5hCiBkEhrghEh9BzjgCuB9hgh5qB9kgiB9-DjhgB32pgu2igq2igk2BgDjCjE14glE13C6qgmB",
   "nigmBnigmBnpgnBnhgnBnhgBrCqh5pCqhBtkCqi5kgCw3BuC6igqC6mgKdkBzsg3BzkgBxBzIIkgLuByigDqByBmgnCq",
   "sglllg6B3hglB3hghB3hgiB3hgiB3hgqB3DzkwgLrki5CwkigB2knghkBggwkwB6q5mguB6i+Bj5hgz5hgk5kglkhgEn",
   "kigh5hgBg56Cqm56Cqr5qCgh5BtCgi5-BzjgmBzigmBzigmBzigjBzjgn5hgn5qgl5igsCuhg6CuhgzCuhgiCuhgvCui",
   "guCuBigD7Culgj5kgBt5jgp5CvBthgt5jghBtBvgBt5hB6Eig9CwjgBxzvghB675kgBkDwpgjDw7BrlgBrDylg+Fjhgh",
   "FjBkDzkguDzBqgCw-BwEm+D6igqD6mgBkD5kgBkD5kgBoBlogB00rgh0rFlhgvFlhgnFlhgiFlhgrFlhgvFlhgnFlhgi",
   "FljgB0FgsgJ3Ctpg2CtqgoCt4gmCqhgBqCqhgpCqClgm8igh8hgBs8hgi8jgh8igh82B5hgpB5BgD8-DkogpDkBwgzB2",
   "hgiB2lglB28D-jghD-6CxlghCxCggBgC94C8kg0C8igBuC8kCjhgiCjlgoCjhgjCjhg9CjigjCjkgqCjngpCjngBgD1B",
   "gDxBggBnC2kgsC2pgB2mjgnm2B8igoB8zB7lgoB7yEgngkEgsgnEgCwgCpD2B3gBzDvtgBzDvngmDvBoB0ogqB0mgBmB",
   "ojg9BoogiBoGwg-khgBqFohgjFoigiFowgjkB3gkkBoD0ogBqEq2g6D3Bmg840g3BmpgCuukgBkupghuCjB+qghB+ig5",
   "ErngqErmgB11hgy1ogBnCypgDgElhg0EprgyCmhgBvCmB+gnDihghDihgkDihgvDihgrDimgB7CnlgqCnmgkBshgoBsi",
   "giBsig2BshgnBshgiBshglBshghB6pBsigiBsigjBsighBsmghBslgnBsignBsjglBsrgqFihghFiighFihgBmFihgqF",
   "ihghFiighFihgkFihgqFihgiFiogiFi9gC8DohglDo+gCoE-ogqE-FmgB2EnigBmEnBigClC-rgqC-mgtDgzgB6E2mgq",
   "E2mg0Dj8g7iigvikg3iF5gB8BiDkgCzFnsghFnnBhighBhigoBhhgiBhhg+BhhgiBhigsBhpgqBhCmgoDmigBuDmigrD",
   "m7gCoFqogCzEstgwyB5D9ngqBgF2gBiEuugqEumgpshgBtshgusqg9sjgBgC3ig2C3hguC3CpgnC4hgiC4hgBsC4jghC",
   "4hgiC4hgpC4ogqC4mgmBvhgiBvhgBlBvhgiBvhgmBvngqBvJ2g5CzngxChhgBpChjg9ChC1ghCvvgByE3tghE3c67Dmg",
   "Dv7hgl7rgGk7CSsgDj9tgBC2BkqgDc7BklgSnjGV5gB6BxBWmgR5ong-DhhgqDhkgiDhCvE4hgqE4mg+pigmpqgCmD7q",
   "gqD7hgnD7hg1D7lgzD7NwgB6CoGmgC7C5DlgCrC+kgB5C+ngxC+CgghE5hDqiByhCkrgiByugFf4E5ogYgE5O2CkBpgh",
   "CkpE5IXngkCghgnCghgiCghghCgI-B4jCgvghB49gjB4ighCgugkCgogMsDqCIkgDrBjlgtBjjgpBjngqBjigkBjk5Da",
   "8gH65mgN05CsgBuB6ig3B6pgD05B8gH25qgBn5igB+5jB6x5oB6i5nB6+5kB6B951gCmBtD6g05sg05sgC35pg55EngC",
   "15hgCn5hgi5igh5igi5igk5hgs5hgh5hgn5hgCh5hgk5igo5hgn5hg85hgk5hgl5hgh5jgn5hgK05igJk5igBy5UsEov",
   "glEohgvEoBCwg-CqmgmCqG1gnBqhgxBqignBqhgiBqhglBqlgB++Bhgh+DwgBtDrjguDrigqDrkgiDrKgg-FhxgB6Fml",
   "ghFmOwgBqDlG2gBrDukghDuPggnBnhgkBnhgiBnhgvBnhgGlC7igwC7BpgCshkgqhkgihYxgCk5CsgB95Gigkkhg7khg",
   "ikhghkighkhgqkhgkkhghkhghkmghkkghkhghkhghkhgjkhgikhghkighkhghkhghkhghkhghkhgikhghkigkkhgnkhg",
   "kkhgkkhghkhgqkhgxklgjkhglkhgxkB0gikIugBs5kgDk5sgv5igv5hgv5hgBl5qgFu5B4g65hB4i5tgBs5kgp5ngi5u",
   "gm5E6ge45kgx5jgt5jgD35kgC-5mgs5kgh5vgs5kgB45ogq5mgBo5og+5igs5kgi5B+gK05sgu5igt5jgq5lgB45ngv5",
   "igr5mgp5ngEz5hgDm5BAmgBJXgByBggEB6BymgG+ByigFUiByugHJxByvgTuByCNigQ+ByBPigEarBylgEDgByVXCxgh",
   "5+gDg5EggHwB6FfQwg"]

/-- The number of a character's script. -/
def of (c : Char) : Nat := table.lookup c

/-- Sets of scripts that share characters. -/
def sharings : List (List Nat) :=
  [[1, 4], [1, 4, 40, 52, 105, 144, 155, 168], [1, 4, 52, 85, 86, 119, 128, 138, 144],
   [1, 4, 111], [4, 26], [4, 40, 52, 105, 144, 155, 168], [4, 52], [4, 105], [4, 144],
   [4, 144, 155], [4, 155], [4, 155, 168], [5, 30, 35, 43, 45, 55, 74, 114, 144, 147, 158],
   [5, 41, 42], [6, 19, 26, 35, 37, 41, 42, 43, 45, 47, 50, 74, 81, 82, 114, 134],
   [6, 19, 41, 62, 81, 111, 131], [6, 118], [11], [11, 21, 143], [11, 30, 32, 74, 79, 156, 161],
   [11, 32],
   [11, 32, 34, 44, 46, 47, 48, 49, 63, 71, 76, 82, 84, 88, 102, 110, 120, 137, 143, 150, 151,
    154, 159],
   [11, 32, 34, 44, 46, 47, 48, 63, 71, 82, 84, 88, 102, 110, 120, 137, 143, 150, 151, 154, 159],
   [11, 32, 44, 46, 48, 63, 74, 84, 102, 104, 120, 133, 151, 154, 159],
   [11, 32, 44, 46, 48, 63, 74, 84, 104, 120, 151, 154, 159], [11, 32, 44, 63],
   [11, 32, 44, 63, 84, 102, 120, 137, 154, 159, 162], [11, 32, 104, 133], [11, 32, 104, 154],
   [11, 32, 104, 154, 159], [11, 32, 133], [11, 32, 154], [11, 32, 162], [13, 50],
   [13, 50, 51, 56, 64], [13, 50, 51, 56, 64, 79, 96, 157, 169],
   [13, 50, 51, 56, 64, 96, 126, 169], [13, 50, 51, 56, 64, 96, 157, 169],
   [13, 50, 51, 56, 64, 96, 169], [13, 50, 51, 56, 64, 169], [13, 74], [16, 61],
   [17, 53, 145, 146], [19, 41, 42, 80, 111, 118], [19, 45, 93, 111],
   [20, 23, 26, 30, 43, 45, 74, 121, 144, 158, 160], [20, 23, 43, 74, 142, 144, 156],
   [20, 74, 160], [21, 99, 147], [23, 26, 30, 45, 74, 114, 142, 147],
   [23, 30, 45, 74, 121, 142, 147, 160], [23, 30, 74, 121], [23, 30, 74, 158],
   [23, 35, 64, 74, 144, 158], [23, 35, 74, 144], [23, 74, 144], [23, 74, 147],
   [26, 35, 55, 74, 114, 144, 147, 158, 160], [26, 37, 42, 43, 64, 74], [26, 45], [26, 74],
   [28, 29, 78], [28, 77, 78], [28, 78], [30, 42], [30, 45, 74, 114, 158], [30, 74],
   [30, 74, 144], [30, 74, 160], [30, 114], [32],
   [32, 34, 46, 48, 62, 63, 70, 71, 82, 84, 95, 102, 133, 150, 159, 162],
   [32, 34, 46, 48, 62, 63, 70, 71, 82, 95, 102, 133, 150, 159, 162],
   [32, 34, 46, 48, 62, 70, 71, 82, 95, 133, 150, 159],
   [32, 34, 46, 48, 62, 70, 71, 82, 95, 150, 159], [32, 34, 62, 82], [32, 44], [32, 44, 63],
   [32, 44, 63, 162], [32, 44, 74], [32, 63, 84, 120, 151, 154], [32, 102, 104], [32, 104],
   [32, 104, 133], [32, 104, 159], [32, 133], [32, 151], [35], [35, 74, 144], [39, 74],
   [41, 42, 74], [42, 74, 142, 144, 156], [44, 151], [45], [45, 74, 114, 160], [46, 70],
   [48, 98], [50], [50, 56, 64], [50, 74], [50, 153], [56, 64], [63, 102, 162], [66, 74, 99],
   [74], [74, 79], [74, 96, 126], [74, 121], [74, 142], [74, 142, 144], [74, 144], [74, 156],
   [74, 158], [86, 119], [96, 126], [102], [130], [144]]

/-- For every code point the number of the set of scripts that share it,
    counted from one, or zero if its script does not share it. -/
def sharingTable : Runs := .ofPairs
  ["F3ghvQkgh0qghBphgjBphghDqpghDwhghBpBmghByhBzhB1hC8hBuhB7hCihB6hthDxhC5hB0hB5hDthC6hghDthClhg",
   "hC-vghB2hB3hDvnghDuhDvhghB4hBvwghC+ighC+yghDslghBwkgtDpkgiB8ItghCmhChiCjhChIhghuEighmughmhqi",
   "ghiBgghjqgrpqgqsmghpDjghnT8gh4h5xgh3h2qCsD2gqzD2gqDhD2gqDgH2guC9HygqDnawgqBxFxghC7BPvgjD1Cng",
   "iBrGrgiDzhghDzBGqgh6hCnh6hCuhCnh+hBghC0h9hC2hCxhCniC2iCnhC2h1hC1mCnhCyh-hCzhCnh8kCnh7hCthCvi",
   "1hyiCthD0GlgiC+B2ghCkhghD2R0ghDr-ghhqghBsighBtEyghCwDJmghB94ghxhwqghC4kghkhghChNsgwDlhghBnhB",
   "lhBjighDihgiBmiBkmBohghBjoBokBjqgkBiighBjlDmhghBjkgiDjiDiC5gkDmjghDmC6ghBohDmEzgwDiBggBmDipg",
   "hDlBwgBoDiB4gBxDivgsDiBzghDiC4g5DiqglDiDgg-DicTwghChEwgoDkJogjCojCpiCrhCqhCrF3ghBhhghC3B6ghD",
   "oFgghBqUbugioFyghrqghrCngiBjI6glBoqghDmBtgiDmLggiB+hCgkgBtB-jgpCgNgg8lBf2ghDyCAughC9hghC9B3g",
   "iC9DEzgiC9hghC9BHGsgkC4FV8gyDiHW+giDieDNug"]

/-- Whether a character is used in a script. -/
def isUsed (script : Nat) (c : Char) : Bool :=
  match sharingTable.lookup c with
  | 0 => of c == script
  | sharing + 1 => (sharings[sharing]?.getD []).contains script

/-- The number of the script with this name or code, in loose spelling. -/
def named? (name : String) : Option Nat :=
  (names.findIdx? fun spellings => spellings.contains name).map (· + 1)

end ValueGraph.Unicode.Script
