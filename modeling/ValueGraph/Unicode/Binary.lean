/-
  Binary properties of characters.

  * `whiteSpace`, `alphabetic` and `joinControl` are the ones that are used by
    name;
  * `named?` finds a property by its name.
-/
import ValueGraph.Unicode.Runs

namespace ValueGraph.Unicode.Binary

/-- The characters with the property `ASCII_Hex_Digit`. -/
def asciiHexDigit : Runs := .alternating
  ["Bwqnm6mBBfc5"]

/-- The characters with the property `Alphabetic`. -/
def alphabetic : Runs := .alternating
  ["Ch6m6Bvhqhkhl3h-hOqksulnhhhC2h9yhiikhhmhhjhhh0hCzhEroFmhBmihmBpBnuhhhihihho7kk9rlB4hnuDmhoko",
   "kjqjihwBwtDl4Bhpikhl4izz5nrl4hmohoBqqsjnmCshwhjkvtzhoiii2hnhhjkjoiiiihhohkihlsiqhkjhmkii2hnh",
   "ihihiklkiiikhnkhhxmrjhphjh2hnhihljphjhijhvk1kkjhoiii2hnhihljoiiiipikihlthwihmjjhkjihhhijijjj",
   "skljjhjjhmhBothjh3hwjohjhjoihjihik8khohjh3hqhljohjhjoimihktjsthjhBpiohjhjhhlknl2mhjhyj4hphhi",
   "nomhhhoyitB6lnmhBzihhhlh4hhhzhjilhhmhukBghB-ohBkkzkwhBkCjB3hhilwCgqkiBmhhlhiBrhKthkinhhhkiBp",
   "hkiBhhkinhhhkivhB5hkiCjBlwwC2imjTsixh6lCrjrn0r1s0sthjhisB0izuhkhCjC5nBrlCmq-hskp3+ilrBsk6B28",
   "kB-i0Byh3irjBxB0hvhoBzBqikqBshruB32jqBkirlBrijBpkhmhijhlGgzBirI2imiBmimiohhhhhhh-iB1hnhhjjhn",
   "jkimktljhnD0hthwtDlhkhiqhhjlmhhhhhhkhrikllkhxBpZtB0BY2HlmkjisBmhhlhiB4nhw3pnhnhnhnhnhnhnhnhB",
   "gBvhO1j5pnlilkC2mjhC6hklBrhC+xBgBwwQgGOgCgVUtCjBuiItjwqi0BvlojDxBnpiDniCjiihhho10hBh4B0sCkhh",
   "BsmjhhjqBhlBjt9jBzhsvhwwqlhB3puy3jClhhhh4jiwikrmimimpnhnhBrhumD71Kdks3kBxIIkLuiDqBmnsllshthl",
   "hhhihihDsBhLryCgiB2BosD0lhEnBk6m6rC5jmimimijBjsh6hzhihviuBiD7ClB1Ir9jBxBvBgt+lBrl+iBkkohlBqE",
   "+yBkkBkkBooB0srhvhnhihrhvhnhijB0sJ3p2qo4mhBqhpClmihhBshijhi3q3p-Chzhiq2q6CmB4miCgkhilohjh9Bq",
   "9j9Bjoh87B2q2qztyDuCpB3BztBztBoBi8jhl3H6BqhijiwjB3hj9qho2BqyBu173pCmBrlqB5pht53BzxkoBjjhpCgh",
   "kpiqhhhBjyhBiihmkB+nhhhkhvhqnB53khoiii2hnhihljoiiiijhmhln8qhhihhBmhqhhihhkhijhhhBsCihjhk0j+C",
   "iiihhF4B2in5mBiB-hhjhB7B2ihCn7iu1nF5B5DnCg-oihiohih+hiiiikC9oiBuimhhhi7BziqxColhyCpGnBh-phBt",
   "hnhhBx+i2huCpnhihBsjhhihjhhii4mhihBlhihkhhKn3pxhBpjjDvhCvc6DmDvxGkCSsDhvBBwxm5Dc7lSnGV5BvBWx",
   "R5n-xCvx+yBwwk-1lzNwBtGzCgEgCrkB5nxCgihhsiuFf4oBG2BpqIXnkhnhihJjvh9jihukoMsCIkDrltjpnqkhFbhC",
   "1hCnhiihiiikhshhhnhChhkiohnh8hkhlhhjnhK0i5h5h-h5h-h5h-h5h-h5hoBZ0-mmG1nhxinhihllB+BhhDwBtqnw",
   "hKh+yBsPk8Hk+ihPvnhkhihvhGlB7CkjhjhBF0kh7hihhihhqhkhhhhmhkhhhhhhjhihhihhhhhhhhhhihhikhnhkhkh",
   "hhqhxljhlhxT06m6m6DT2BJXgBgEB6mG+iFUiuHJxvTuCNiQ+BPiEarlEDgbXCw"]

/-- The characters with the property `Bidi_Control`. -/
def bidiControl : Runs := .alternating
  ["BQ8hGPxi6lB3kBBXc2"]

/-- The characters with the property `Bidi_Mirrored`. -/
def bidiMirrored : Runs := .alternating
  ["Boiyhhh8hhh9hhhBthvhDT+kBa9iCM8iqiB2iuiFxhGgkjmjhjijkhkhhhhkplhhylkpihhhohBgiklhpiizlipliik4",
   "iwok0iniBB9uCqhikhihjlkljjuMz2imhuohnmjhklhiilkhhjiiqmiiszhkihhhihhklimj4irikkhiiikBriohBolh",
   "hhjlljkhjlhhIghQjkjihiuiiqBroNrqioBTR9mliFiiyhhh8hhh9hhhhihiBVb3hB5hB5hB5hB5heKB8"]

/-- The characters with the property `Case_Ignorable`. -/
def caseIgnorable : Runs := .alternating
  ["BnhmhrhBjhhhCnhkhhhkhiiP3GgkikhpihhH7nGvhlhBxBthhhihihhBshrmqrhhBjhq1whDlohqhkBhhhh+7C7rB6rk",
   "hih44BrjBshnilpBpB6B3hhhkokhjnqithvhB6hkkoh0i6hiiB5hkikiijjh+ijhriB5hklhikh0i2mhhB6hihhkohni",
   "ri+hB9hshByhjhB3hhjljhkniri9hB6hihmhli0i8iB5ikkoh0i9hCohnjhhC6hinrpDihipphhnCpi7hhhhhB3uhlhi",
   "lrhBkphDmkhmhiii5ikjwkthiimhvhC+hTgjdyj9i+i+iCgihnohirjhlhBtlBzhChiBihD2jkiphmjG7iihB6hhnhhh",
   "hiomqihBnho-BxkBwhhlhhlhBopsiBgkiihjB4hhijhhjB6oiiCgmCyjhthnkhmhjiByB-thBiDlN9hhjrjtjtjtislo",
   "iqhihilBxlhqhhthwtBzBhCcriDxjD9hvhDgBgBvhO1hBkkjllhC9mC9jbY2hBHimIuhDikhqhh8kCwiuBiCuh3jDnjj",
   "iohjhkh5ilhE3i6ythBmo5rBujBwhikiixh1iCimiiiishohBjhrhBzhhjiilihh7huilihhDklpjD5hihkhTZwhEzxR",
   "9wjhswBihihFphnhmhrhBjhhhBvhBtiCjh1jQhhHihE1lBAlmhBqhpSmjhilkBojkhFliR9kBmh6lhhJ7iCvkCmrBxkD",
   "7hB2vBphiiqjBxkiiihkhqhByjBklhoB+hsiB0pqkihC-jihhimhihE9hjo1iB5ijhBlnjlCmmthhhhhuiC1oijhh3hC",
   "0mhhkihiHukmihi7iC1oihhiDqhhhimhhDlhhhikhlIjphiIgihhkhEwkiikhBgqBomikohpmijButhiM2nhmhhCy2in",
   "hihiD6mjhhihnhhCoijhhhK7iriB0llhhh3hFG1xmvLGosjjCOglB7npkP8jBoiPihB-xCgihiQArkhnhiDE+ihkES8B",
   "ui3Rgjpwin+kE0jBd7B3kByohuh2lhvBKwnhxinhihllB+BhhFguLwhB9kP7lH+iXgnDtoCVvlYDAhh+DgEgHwFfQw"]

/-- The characters with the property `Cased`. -/
def cased : Runs := .alternating
  ["Ch6m6Bvhqhkhl3h-hGjhkkGwiBjni+lDghBqkiiikhhmhhjhhh0hCzhEroFmhBmpBpCY3BmhhlhiBrhkVgC2imCEirlB",
   "rijCgGgCgI2imiBmimiohhhhhhh-iB1hnhhjjhnjkimktljhnD0hthwtDlhkhiqhhjlmhhhhhhkhmkhikllkhxBgjiZx",
   "B0BY2HlmkjisBmhhlheIyBuy+EkDmjkhB+iihhho1lhjZ1BrhumCwTagnslBAp6m6BFlCwDgBkkBkD0rhvhnhihrhvhn",
   "hiOjhijhBqhpBGlBztBzC92q2CY6CgVLgCgZMgC1hCnhiihiiikhshhhnhChhkiohnh8hkhlhhjnhK0i5h5h-h5h-h5h",
   "-h5h-h5hoBZ0qh0mmIlB+CEyCkBfs6m6m6eDT2"]

/-- The characters with the property `Changes_When_Casefolded`. -/
def changesWhenCasefolded : Runs := .alternating
  ["Ch6C6hq3hoBghhhhhhhhhhhhhhhhhhhhhhhhhhhhhhhhhhhhhhhhhhhhhhhhhhhhhhhihhhhhhhhhhhhhhhhihhhhhhh",
   "hhhhhhhhhhhhhhhhhhhhhhhhhhhhhhhhhhhhhhihhhhhhhihhhihjikhihjjihihhhhhihhihhihjhhhijhnihihihhh",
   "hhhhhhhhhhhhhihhhhhhhhhhhhhhhhhiihhhjhhhhhhhhhhhhhhhhhhhhhhhhhhhhhhhhhhhhhhhhhhhhhhhhhhhhhhh",
   "hhhnihiihhkhhhhhhhhH2hBqhhhjhohmhhjhhhihxhp2hsjjihhhhhhhhhhhhhhhhhhhhhhhhhiiihhhiiBzBwhhhhhh",
   "hhhhhhhhhhhhhhhhhhhhhhhhhhhphhhhhhhhhhhhhhhhhhhhhhhhhhhhhhhhhhhhhhhhhhhhhhhhhhhhhhihhhhhhhhh",
   "hhhihhhhhhhhhhhhhhhhhhhhhhhhhhhhhhhhhhhhhhhhhhhhhhhhhhhhhhhhhhhhhhhhhhhhhhhhhhhhhhhhhhhhhhhh",
   "hhhhhhhiBmBwhCY4BmhhlhZqmCEiqmBrijKghhhhhhhhhhhhhhhhhhhhhhhhhhhhhhhhhhhhhhhhhhhhhhhhhhhhhhhh",
   "hhhhhhhhhhhhhhhhhhhhhhhhhhhhhhhhhhhhhhhhhhhhhhhhhhhhhhhhhhhhhhhhhhhhhhhhhhhhhhhhhhhhhhhhhhhh",
   "hliihhhhhhhhhhhhhhhhhhhhhhhhhhhhhhhhhhhhhhhhhhhhhhhhhhhhhhhhhhhhhhhhhhhhhhhhhhhhhhhhhhhhhhhh",
   "hhhhhhhhhpoomqoooomrhhhhhhhoowBwijimljimrkslljimJphjimhBtwzhZy6BZwBwBwhhjihhhhhhkhhihojhhhhh",
   "hhhhhhhhhhhhhhhhhhhhhhhhhhhhhhhhhhhhhhhhhhhhhhhhhhhhhhhhhhhhhhhhhhhhhhhhhhhhhhhhhhhhhhhhhhhh",
   "hohhhkheKthhhhhhhhhhhhhhhhhhhhhhhhhhhhhhhhhhhhhhhhhhhhhzhhhhhhhhhhhhhhhhhhhhhhhhhhhEnhhhhhhh",
   "hhhhhhjhhhhhhhhhhhhhhhhhhhhhhhhhhhhhhhhhhhhhhhhhhhhhhhhhhhhhhhhhhhhhqhhhhihhhhhhhhkhhhihhhjh",
   "hhhhhhhhhhhhhhhhhhhlhlhhhhhhhhhhhhhhhkhhhijhlhhhhhhh4hb6CwTagnslBAp6BGlBoEoBkE8rhvhnhiBXqBzE",
   "92CZ6BgVMgBgeVgBieFW+"]

/-- The characters with the property `Changes_When_Casemapped`. -/
def changesWhenCasemapped : Runs := .alternating
  ["Ch6m6B6hq3h-hCghC0h8iuiihhkC9hym7hihhhijihkhlihhiihnhihhijmlhqiFmhBqkiijjhhmhhjhhh0hBvjBhhlh",
   "EloFmhBmqBnCY4BmhhlhiBrijVgC2imCEirlBrijF5hjhwhDxE8ihhD2imiBmimiohhhhhhh-iB1hnhhjjhnjkimktlj",
   "hnJphjimh7hxBgjiZxB0BY2DxhihinDmnkjisBmhhlheIyBuy8EmuiB+pvjjilh5h+iihhho4ia8h8CwTagnslBAp6m6",
   "BFlCwDgBkkBkD0rhvhnhihrhvhnhiBWjBztBzC92q2CY6CgVLgCgeUgCkeFV8"]

/-- The characters with the property `Changes_When_Lowercased`. -/
def changesWhenLowercased : Runs := .alternating
  ["Ch6Dl3hnBhhhhhhhhhhhhhhhhhhhhhhhhhhhhhhhhhhhhhhhhhhhhhhhhhhhhhhhhihhhhhhhhhhhhhhhihhhhhhhhhh",
   "hhhhhhhhhhhhhhhhhhhhhhhhhhhhhhhhhhhhihhhhjihhhihjikhihjjihihhhhhihhihhihjhhhijhnihihihhhhhhh",
   "hhhhhhhhhihhhhhhhhhhhhhhhhhiihhhjhhhhhhhhhhhhhhhhhhhhhhhhhhhhhhhhhhhhhhhhhhhhhhhhhhhhhhhhhhn",
   "ihiihhkhhhhhhhhJhhhhjhohmhhjhhhihxhpBjhohhhhhhhhhhhhhhhhhhhhhhhlhihhiiBzBwhhhhhhhhhhhhhhhhhh",
   "hhhhhhhhhhhhhhhphhhhhhhhhhhhhhhhhhhhhhhhhhhhhhhhhhhhhhhhhhhhhhhhhhhhhhihhhhhhhhhhhhihhhhhhhh",
   "hhhhhhhhhhhhhhhhhhhhhhhhhhhhhhhhhhhhhhhhhhhhhhhhhhhhhhhhhhhhhhhhhhhhhhhhhhhhhhhhhhhhhhhiBmCa",
   "pBmhhlhWyC2CEzhmBrijKghhhhhhhhhhhhhhhhhhhhhhhhhhhhhhhhhhhhhhhhhhhhhhhhhhhhhhhhhhhhhhhhhhhhhh",
   "hhhhhhhhhhhhhhhhhhhhhhhhhhhhhhhhhhhhhhhhhhhhhhhhhhhhhhhhhhhhhhhhhhhhhhhhhhhhhhhphhhhhhhhhhhh",
   "hhhhhhhhhhhhhhhhhhhhhhhhhhhhhhhhhhhhhhhhhhhhhhhhhhhhhhhhhhhhhhhhhhhhhhhhhhhhhhhhhhhhhpoomqoo",
   "oomrhhhhhhhoo4oooooolrlrkslrlJphjimhBtwzhZy6BZwBwBwhhjihhhhhhkhhihojhhhhhhhhhhhhhhhhhhhhhhhh",
   "hhhhhhhhhhhhhhhhhhhhhhhhhhhhhhhhhhhhhhhhhhhhhhhhhhhhhhhhhhhhhhhhhhhhhhhhhhohhhkheKthhhhhhhhh",
   "hhhhhhhhhhhhhhhhhhhhhhhhhhhhhhhhhhhhzhhhhhhhhhhhhhhhhhhhhhhhhhhhEnhhhhhhhhhhhhhjhhhhhhhhhhhh",
   "hhhhhhhhhhhhhhhhhhhhhhhhhhhhhhhhhhhhhhhhhhhhhhhhhqhhhhihhhhhhhhkhhhihhhjhhhhhhhhhhhhhhhhhhhh",
   "lhlhhhhhhhhhhhhhhhkhhhijhlhhhhhhh4hVZr6BGlBoEoBkE8rhvhnhiBXqBzE92CZ6BgVMgBgeVgBieFW+"]

/-- The characters with the property `Changes_When_Titlecased`. -/
def changesWhenTitlecased : Runs := .alternating
  ["Dh6B6hBp4hohhhhhhhhhhhhhhhhhhhhhhhhhhhhhhhhhhhhhhhhhhhhhhhhhhhhhhhhihhhhhhhhhhhhhhihhhhhhhhh",
   "hhhhhhhhhhhhhhhhhhhhhhhhhhhhhhhhhhhhhihhhhjihhhihjhlhihjjihihhhhhihkhihjhhhihjhhhkhhihihhhhh",
   "hhhhhhhhhhhhihhhhhhhhhhhhhhhhhjhhhhjhhhhhhhhhhhhhhhhhhhhhhhhhhhhhhhhhhhhhhhjhhhhhhhhhhhhhhhh",
   "hohiihhkhhhhhhhhmhihhhijihkhlihhiihnhihhijmlhqiFmhBrhhhjhjjyh7Bjhijjhhhhhhhhhhhhhhhhhhhhhhhl",
   "hhihihB0Bwhhhhhhhhhhhhhhhhhhhhhhhhhhhhhhhhhhphhhhhhhhhhhhhhhhhhhhhhhhhhhhhhhhhhhhhhhhhhhhhhh",
   "hhhhhhihhhhhhhhhhhhihhhhhhhhhhhhhhhhhhhhhhhhhhhhhhhhhhhhhhhhhhhhhhhhhhhhhhhhhhhhhhhhhhhhhhhh",
   "hhhhhhhhhhhhhhhhhhhhhhhhBxBnDTwmCEiphhHuhjhwhDyhhhhhhhhhhhhhhhhhhhhhhhhhhhhhhhhhhhhhhhhhhhhh",
   "hhhhhhhhhhhhhhhhhhhhhhhhhhhhhhhhhhhhhhhhhhhhhhhhhhhhhhhhhhhhhhhhhhhhhhhhhhhhhhhhhhhhhhhhhhhh",
   "hhhhhhhhhhhnlhhhhhhhhhhhhhhhhhhhhhhhhhhhhhhhhhhhhhhhhhhhhhhhhhhhhhhhhhhhhhhhhhhhhhhhhhhhhhhh",
   "hhhhhhhhhhhhhhhpomqoooomqoooouioooooolhimhjjhiokiiooqjhiK2hBhwkhar6BamBwhhjihhhhhhmhihqhhhhh",
   "hhhhhhhhhhhhhhhhhhhhhhhhhhhhhhhhhhhhhhhhhhhhhhhhhhhhhhhhhhhhhhhhhhhhhhhhhhhhhhhhhhhhhhhhhhhh",
   "hhohhhkhsBmhhlheIzhhhhhhhhhhhhhhhhhhhhhhhhhhhhhhhhhhhhhhhhhhhhhzhhhhhhhhhhhhhhhhhhhhhhhhhhhE",
   "nhhhhhhhhhhhhhjhhhhhhhhhhhhhhhhhhhhhhhhhhhhhhhhhhhhhhhhhhhhhhhhhhhhhhhhhhhhhqhhhihhhhhhhhhkh",
   "khhiihhhhhhhhhhhhhhhhhhhrhhhhhhhhhhhhhhhkhhhihjhhhhhhhhhhh6ha8h8CwTagnslBBp6BGtBoEoBkE7rhvhn",
   "hiBYjBzD92CZ6BgVMgBgeViBieFV8"]

/-- The characters with the property `Changes_When_Uppercased`. -/
def changesWhenUppercased : Runs := .alternating
  ["Dh6B6hBp4hohhhhhhhhhhhhhhhhhhhhhhhhhhhhhhhhhhhhhhhhhhhhhhhhhhhhhhhhihhhhhhhhhhhhhhihhhhhhhhh",
   "hhhhhhhhhhhhhhhhhhhhhhhhhhhhhhhhhhhhhihhhhjihhhihjhlhihjjihihhhhhihkhihjhhhihjhhhlihihihhhhh",
   "hhhhhhhhhhihhhhhhhhhhhhhhhhhihihhjhhhhhhhhhhhhhhhhhhhhhhhhhhhhhhhhhhhhhhhjhhhhhhhhhhhhhhhhho",
   "hiihhkhhhhhhhhmhihhhijihkhlihhiihnhihhijmlhqiFmhBrhhhjhjjyh7Bjhijjhhhhhhhhhhhhhhhhhhhhhhhlhh",
   "ihihB0Bwhhhhhhhhhhhhhhhhhhhhhhhhhhhhhhhhhhphhhhhhhhhhhhhhhhhhhhhhhhhhhhhhhhhhhhhhhhhhhhhhhhh",
   "hhhhihhhhhhhhhhhhihhhhhhhhhhhhhhhhhhhhhhhhhhhhhhhhhhhhhhhhhhhhhhhhhhhhhhhhhhhhhhhhhhhhhhhhhh",
   "hhhhhhhhhhhhhhhhhhhhhhBxBnCaoBrijX4mCEiphhHuhjhwhDyhhhhhhhhhhhhhhhhhhhhhhhhhhhhhhhhhhhhhhhhh",
   "hhhhhhhhhhhhhhhhhhhhhhhhhhhhhhhhhhhhhhhhhhhhhhhhhhhhhhhhhhhhhhhhhhhhhhhhhhhhhhhhhhhhhhhhhhhh",
   "hhhhhhhhhhhhhhhnlhhhhhhhhhhhhhhhhhhhhhhhhhhhhhhhhhhhhhhhhhhhhhhhhhhhhhhhhhhhhhhhhhhhhhhhhhhh",
   "hhhhhhhhhhhhhhhhhhhpomqoooomqoooouiB1hikhhhjjhikhjkiiooqjhikhKxhBhwkhar6BamBwhhjihhhhhhmhihq",
   "hhhhhhhhhhhhhhhhhhhhhhhhhhhhhhhhhhhhhhhhhhhhhhhhhhhhhhhhhhhhhhhhhhhhhhhhhhhhhhhhhhhhhhhhhhhh",
   "hhhhhhhohhhkhsBmhhlheIzhhhhhhhhhhhhhhhhhhhhhhhhhhhhhhhhhhhhhhhhhhhhhzhhhhhhhhhhhhhhhhhhhhhhh",
   "hhhhEnhhhhhhhhhhhhhjhhhhhhhhhhhhhhhhhhhhhhhhhhhhhhhhhhhhhhhhhhhhhhhhhhhhhhhhhhhhhqhhhihhhhhh",
   "hhhkhkhhiihhhhhhhhhhhhhhhhhhhrhhhhhhhhhhhhhhhkhhhihjhhhhhhhhhhh6ha8h8CwTagnslBBp6BGtBoEoBkE7",
   "rhvhnhiBYjBzD92CZ6BgVMgBgeViBieFV8"]

/-- The characters with the property `Dash`. -/
def dash : Runs := .alternating
  ["BthBK8hBzhDShhBAlhCApmB9hBnhvhMmhDAkhih-ikh8hN+hzhDvhBTMwiBlhqhFphDTghJ+hfcKy"]

/-- The characters with the property `Default_Ignorable_Code_Point`. -/
def defaultIgnorableCodePoint : Runs := .alternating
  ["FthVhhWshCaiiBSziC1lBf7l6lBxwEH0hBTE7wHvhFghCvpBPFnkFGvoYLUlEAgFcAg"]

/-- The characters with the property `Deprecated`. -/
def deprecated : Runs := .alternating
  ["KphBJphCIjhhhCBpiCGlmV5ibXG2hFff+"]

/-- The characters with the property `Diacritic`. -/
def diacritic : Runs := .alternating
  ["C+hhhCnhmhkhiiP3E-holmxikhpiH9lGxhB3BthhhihihhEjokiEmikijjCj7C7rB6rBiiD+oBpqw8B9hwhjk8hCqhwh",
   "DuhwhDuhwhBvjB8hwhnhD3hDuhwhDuhwhDtiwhD8hDvhsmhhDrhtlCri7hhhhhkiCijhiB+hDwhhiBoikl5nhhqiWhjd",
   "0i+hE0rphK7jJkh0oihBwvirDohvhBmpB2iB6hriCiiCgmCy5khmhijByB-BwBklsBlrN9hhjrjtjtjtiDHwjJ9hP6mD",
   "pkC-hdLyhsihh8iCyiuBiDmjDtishBlhE3h7yB5kBkhC-hshBkhE1jChkBzhDklpjEgiTZwhYhwIuhhhBvhBtiCjhX8h",
   "BE-mhBqhpT9jkhFliR7mBmh6lMvjCmrBxkGghBphCoiD4iB+hCshpjDoiFyiCwiwh4njlC5jhitiC-hjhD7iH7iD+hD2",
   "iDzhItiIiikhE8hCzhyhCxhNlhIihhiCxhNpi3hFHsvLG5hCOglB7nR0iRixCwiPf+khnhiHYhBui3Rgjjmooin+kDUi",
   "B+GinL3hB9kX+iXgnDtjhjeFV1"]

/-- The characters with the property `Emoji`. -/
def emoji : Runs := .alternating
  ["BjhmhlqDvhkhHcthshG4h2hC6mviLvishFmh5rkjGnhHniqhphB6khlphihiiihkhihhiihjhjiojlhhhlsriihhihhy",
   "hiiymhhhijilhiikiriliihlihhhi0ilmhkihkhihimhhihhhhhmhjhmhqivhihkhhhkjhhriBwjphuhuhL0iOvjziBz",
   "hkhBG6hshS5hhhDPLqhGqhFgisiuhiqCr6hi3h0hip1iFuBiiDwiihjiCzijhInhB-rmh4niioshikihkitiihoiphlj",
   "sjojihhhkhmhjhmC2BwCmloijkqjhhijhiqHjskhI7BvhqhF5DwtjqlB4nvirmpeBIn"]

/-- The characters with the property `Emoji_Component`. -/
def emojiComponent : Runs := .alternating
  ["BjhmhlqHezhG1hBXJrhBce26P7lBNwkYBTsDgFfcg"]

/-- The characters with the property `Emoji_Modifier`. -/
def emojiModifier : Runs := .alternating
  ["Dcf7leDAg"]

/-- The characters with the property `Emoji_Modifier_Base`. -/
def emojiModifierBase : Runs := .alternating
  ["JQ9hG7hwkDTD3hB8jihijD1iir1zjhkjhjnhhh4hGpikh1hkiFujjlCzhwjphrhR-hihoomhpqijB4hB9ihihhxjhtHl",
   "jBqpeBIn"]

/-- The characters with the property `Emoji_Presentation`. -/
def emojiPresentation : Runs := .alternating
  ["IY6iGtkjhihQpi1iBysBrhzhthoixiliohlh1hnihhkhihnhki8hBjhhhkjhhB9j4huha7iBzhkhDRFuhGqhF+hiqCr6",
   "hh4h0hilhj1iFuBhsphCmh2sBrklsxjhjCnhhhF7iB-tkh4yh6ithC2C1BwCmmhjjijkkrinpHjskhI7BvhqhF5Dwtjq",
   "lB4nvirmpeBIn"]

/-- The characters with the property `Extended_Pictographic`. -/
def extendedPictographic : Runs := .alternating
  ["FphkhHcthshG4h2hC6mviLvishFmh5rkjGnhHniqhphB6khlphihiiihkhihhiihjhjiojlhhhlsriihhihhyhiiymhh",
   "hijilhiikiriliihlihhhi0ilmhkihkhihimhhihhhhhmhjhmhqivhihkhhhkjhhriBwjphuhuhL0iOvjziBzhkhBG6h",
   "shS5hhhDPLqhBnkDksvivhuiBlqDwisiuhiqzB47vqh0hiphkp3mF8iDwiihjiCzijhklH+hB-rmh4niioshikihkiti",
   "ihoiphljsjojihhhkhmhjhmC2BwCmloixjhhmitG6BmskB4oqmBoo+iskiupBnsBvhqhF5C4ouEyIgf+eAAi"]

/-- The characters with the property `Extender`. -/
def extender : Runs := .alternating
  ["F3hQ4ibuhN5hT2hEphC5hXwhD-hCKjhB4hTjhMuhCkhEcphBrlDniC9jbY2hBP2heih2hEphDsh1iVD7hCAwiBOrh7hk",
   "hBGnhJlhD0iPyjBGvhUFpiBE8ihhcK4iBFxha0jeFV5"]

/-- The characters with the property `Grapheme_Base`. -/
def graphemeBase : Runs := .alternating
  ["BgC-BhthSyDwoimknhhh0hHgnFmhBmiByijBuhhhihihp7kmxqrhhBu1whDlohmiihkBgihh+9C5rhuBrpnj4khphjhn",
   "vh5lhhrl-xBqB5B3hhhkokhjnqi9hihoiii2hnhhjkjhhimiiihhtihjk4lhhmkii2hnhihihikj4khhnqijhhshhphj",
   "h2hnhihljkohhijhviksnhoihoiii2hnhihljhihmiiivihjkyrhhmjjhkjihhhijijjjslhhijjhjjh11mjhohjh3hw",
   "jhjkzjihiikqnqhrhjh3hqhljiihhi4ihikqhjurhjhBpihhiljhjhikjhqk6iihyj4hphhinpimnnqijsBwhirootBl",
   "ihhhlh4hhhqhiphilhhpqikBg4i7hhhhhuhBkyhlhilBxohmhtBlBtkhmhiii5ikjwkthiimhvhBohhlhiL5hkinhhhk",
   "iBphkiBhhkinhhhkivhB5hkiCjl9j6mC2imiU9jC5nytzjipyuthjvB0ihnohirpjqmqmrlqmC5nliBihhlCmq-kkijk",
   "ihmnhjBqilrBsk6mrjB5iijB4hhphhiomtqmqmuC2Bwqkjoh9psiBgkimB4hhijhhtBwoilvjB+lBrirrhthnkhmhjih",
   "lGgCgI2imiBmimiohhhhhhh-iB1hvhuimhzijhphrl4nBxwii7htjBhB-EskU62r1BY0iBghK4jilBthhlhiB4niv3pn",
   "hnhnhnhnhnhnhnBhC+Bi6hC5sG26B6mwhC2kDllBrhC+hC2pBwhcTtjB3pK80BvkhqBgiCwimoGuiihhho1whjhkh5il",
   "kqmB4oCkqs4thBmo5rhs+mBwhikiiihthrknh5hBpmiiirjhohhiqiBghBzhhjiilihhh4xiormimimpnhnhB8kD1hih",
   "kjqmKdks3kBxIIkLuiDqBmnsllhh4hlhhhihihD9wN9iB2nhBgwwq2BjhzhkklhEnkE9i-jmimimijjnhntiish6hzhi",
   "hviuBiD7ljkBtjC4htjhBvBtEj9jBxw7kBkp+lBmq+hBlkuBqE+iqmBkkBkkBooB0rshvhnhihrhvhnhijB0sJ3p2qo4",
   "mhBqhpClmihhBshijhi3hCoopBwzhilBhj7lhCgB4k0iBvvkhjh9qpnpnCgBgBlmspB2j9i7l6nksnCwCpB3BztBznBq",
   "sqmBmo4oiGw-hBqjhiiwjB7Boo2rp2ykkBm803phhB2vnk+hiihsBxkiiihku5nqpBklhpyoBjhjrB0phhokihwh0ryh",
   "8jikmhiB-nhhhkhvhrmBvhjtqoihoiii2hnhihljhhhhkiiiijhsn8qhhihhBmhhhivhhijhhjhiBnB4oijhh1hhhj+B",
   "whimhhihhihikoqFmBvhimkihi7BkBzoihhikrqmtzBrhhhioimqm087jhhikhp3F5BvphihDkCzsoihiohih4hlhimk",
   "hjpqCmoiBqokhk7hqBomikophmijButhiptCpnqF2BiuqmphBmuhhmq9jBg5hnhihCrnhihBm1hpqmmhihBlkihhhhnq",
   "J2zikpvhBkoij3C2hvBytc7DmDvhlrGkCSsDjtBBwxm5Dc7lSnGV5+sjjqBWmR5n-hqkCxhqm+nhqBwnvqqhnh1lzNwB",
   "6GmC7DlCrlB4rtCgk8Ff4oBG2BpqIXnkhnhihJjvh9jihukoMsCIkDrltjpnqihihDbgH6mN0E8D0B8H2qBniB8lj2in",
   "+kB91CijhD60s0sC3p5EnC1hCnhiihiiikhshhhnhChhkiohnh8hkhlhhjnhK0iJkiRyB3kByohuhnBD0-mmIlB+EyBt",
   "qniqkiKg+yBskqlhOw8kqG2+irkhPgnhkhihvhGlipBwCknhkqkiYxCkCsB9Gikh7hihhihhqhkhhhhmhkhhhhhhjhih",
   "hihhhhhhhhhhihhikhnhkhkhhhqhxljhlhxB0iIuBskDksvivhvhBlqFuB49tBskpniumE6e4kxjtjD3kC-mskhvskB4",
   "oqmBoo+iskiB+K0suitjqlB4nvirmpnEzhDmBAmBJXgBgEB6mG+iFUiuHJxvTuCNiQ+BPiEarlEDgbXCw"]

/-- The characters with the property `Grapheme_Extend`. -/
def graphemeExtend : Runs := .alternating
  ["YgDwIznInBthhhihihhCorBw1whDlnimiihkBjh+7C7rB6pph4khphjhlBrjB7pBq4hBgB3hhhkokhjnqi9hB6hhhiko",
   "hphqi6hiiB5hkikiijjh+ijhriB5hklhikh0i2mhhB6hhihkohnjqi+hB7hhhshphBohjhB3hhjljhkniri9hB6hiihh",
   "jjhkniri8iB5ihhikohphqi9hCohkhijhhohCxhinsoDihiprnCpi7hhhhhB3uhlhilrhBkphDmkhmhiii5ikjwkthii",
   "mhvhV-jdyk8j9i+iCgihnohirphBtjhhD1iBihD2jkiphmjG7iihB6hhnhhhhiomqihBw-BxkBwqkjBmpsiBgkimB4hh",
   "ijhhlB4oiiE4jhthnkhmhjiGmCgQshGjBhCf+jEthDgBgRqmDpidO0khqBgiCwiIwhjhkh5ilhE3i6ythBmo5rhhBsjB",
   "whikiiihBkhCjmiiiishohBvhBzhhjiilihhBqiohHuhihkhTZwhXhwwwLuiS9hHihE1lBUmjhilkBojkhFliR9kChlJ",
   "9iCvkCmrBxkD7hB2vBphiiqjBxkiinhB9jBklhoB+hsiB0phhokihC-jikmhihE9hjo1iB5ihhhhshphunjlCjhimhhi",
   "hhjkjhhuiC1oijhh3hCxhimhhihhihiHrhikmihi7iC1oihhiDqhhhioDlhhhikhlIjphiH1hqkkhEwkiikhBgqBomik",
   "ohpmijButhiM2nhmhhCy2inhihiD6mjhhihnhhCoijhhhK7iriB0llj3hFHlhmvLGosjjCOglB7nBA4hB-kCxhriTFri",
   "EThBui3Q+ljmooin+kE0jBd7B3kByohuh2lhvBKwnhxinhihlDkhFgnL3hB9kP8kH+iXgnDtnYFW1DgEgHwFfQw"]

/-- The characters with the property `Hex_Digit`. -/
def hexDigit : Runs := .alternating
  ["Bwqnm6mBfVpqnm6mBAAF5"]

/-- The characters with the property `IDS_Binary_Operator`. -/
def idsBinaryOperator : Runs := .alternating
  ["LfwiiqPxhBBTQw"]

/-- The characters with the property `IDS_Trinary_Operator`. -/
def idsTrinaryOperator : Runs := .alternating
  ["LfyiBBUAs"]

/-- The characters with the property `ID_Continue`. -/
def idContinue : Runs := .alternating
  ["Bwqn6khh6Bvhqhhhihl3h-hOqksulnhhhxD1hiikhhmlhhh0hCzhErhliFmhBmihmBpoBthhhihihho7kk9rlCqkDmho",
   "iqhzihwB7iDluB2khihiBuy8krl4hmoCrhEhiqhzhoiii2hnhhjkipiiikohkihlisqhhhijhmkii2hnhihihiihhlki",
   "ijjhnkhhnwrjhphjh2hnhihliqhjhjihvkiqpnhjhoiii2hnhihlipiiijnjkihliqhhwihmjjhkjihhhijijjjskljj",
   "hkihmhuqwthjh3hwiphjhknihjihikiqwkhohjh3hqhliphjhknimihkiqhjsthjhBzhjhllknliqqmhjhyj4hphhinj",
   "hkmhhhomqiitB6lvhqBnihhhlh4hhh3ilhhhnhqikBgh3imqrhhhhhkqhBkk0hyhBkphB5CqmCuiBmhhlhiBrhKthkin",
   "hhhkiBphkiBhhkinhhhkivhB5hkiCjijppuwwC2imjTsixh6lCrjrn2p2r0sthjhisC0jhkiiqBhjhrmC5nBrlCmq-hs",
   "ksqBoilrBsk6mrBl8kB-h9irmqthouhwBxCtjqxpsD0sB4oqjBxirlBrijwjhBnlQ2imiBmimiohhhhhhh-iB1hnhhjj",
   "hnjkimktljhnviBxizh8hthwtBztkhjsxhkhiqhhimmhhhhhhwikllkhxBpCT3HlmpsBmhhlhiB4nhv4pnhnhnhnhnhn",
   "hnhnhBgQlj5vhlilkC2inhC-lBrhC+xBgBwwQgGOgCgVUtCjBuiItj80BwkqhDzBlpiDniCjiihhho1B2khzB0sCmqqm",
   "4jhhBxiBks9jChurm-hB3puiqm3jCp4jiwilqmimimpnhnhBrhumD7hiiqmKdks3kBxIIkLuiDqBmnsllshthlhhhihi",
   "hDsBhLryCgiB2Boskwwwji4jBglhEnzqn6khh6qC6jmimimijBjsh6hzhihviuBiD7ClB1EohEi9jBxvh-Bgt+lBrl+i",
   "BkkohlBqE+iqmBkkBkkBooB0srhvhnhihrhvhnhijB0sJ3p2qo4mhBqhpClmihhBshijhi3q3p-Chzhiq2q6CmB4miCg",
   "khilohjh9ijkhBg9j9Bjoh+5B2q2qztyDuCpB3BztBztBooqmBmjlh3H6BqhijiwjB3BhqhoBh-2Bq173pCn-wpB8nht",
   "5nqmB1hqkkoBkihpClkkhthhBjyhBlmkB+nhhhkhvhqnB7lqmkhoiii2hnhihlhqiiijihmhlninjlrqhhihhBmhqhhi",
   "hhkhoti9Crlqkk+CmhhoqFmB2ip3mBiChjhrqBmB5nqm087ivkqmnF5B7DlCq1oihiohih+hiipsqCmoiBuiohi7B-oh",
   "oCqjhyCpGnBhvqmphBthpvq4+i2huCpnhihBsjhhihpoqmmhihBlhihmnqJ23pxhBpjltrC1hCvc6DmDvxGkCSsDhvBB",
   "ww2qDc7lSnGV5B6BWmR5n-hqmCvhqm+ilrB3pksqp1lzNwBtjqGmCgEgCrkB5nxCgihiriuFf4oBG2BpqIXnkhnhihJj",
   "vh9jihukoMsCIkDrltjpnqjiECxqQmBui3Q+ljmooin+kE0jN7C1hCnhiihiiikhshhhnhChhkiohnh8hkhlhhjnhK0i",
   "5h5h-h5h-h5h-h5h-h5hoiByQgB3kByohuh2lhvBCw-mmG1nhxinhihllB+BhhDwBtjuiqkhKh-xB6O2BqG2BrPlnhkh",
   "ihvhGlrnBpCskqBFmkh7hihhihhqhkhhhhmhkhhhhhhjhihhihhhhhhhhhhihhikhnhkhkhhhqhxljhlhxDJ0qBAmBJX",
   "gBgEB6mG+iFUiuHJxvTuCNiQ+BPiEarlEDgVXKwHwFfQw"]

/-- The characters with the property `ID_Start`. -/
def idStart : Runs := .alternating
  ["Ch6m6Bvhqhkhl3h-hOqksulnhhhEhlhiikhhmhhjhhh0hCzhEroFmhBmihmBpCn7kkBtBrBjihDjhhviniqjihwhh+9C",
   "5rh4Bhpikhl2khphjh35nrl4hmxBqB6B2jhyhnqvwkoiii2hnhhjkjhwhtihjuiqhomkii2hnhihihi-khhzjwphjh2h",
   "nhihljhyhvi3hroiii2hnhihljh+ihjvhxhhmjjhkjihhhijijjjs2hB0ohjh3hwjh6jihii+hkohjh3hqhljh-ihivi",
   "xphjhBpihwhljoj4mlyj4hphhinB6BwhisnB6ihhhlh4hhhqhiphilhh1kBghB-ohBk7lDzBr0hwmkkjhjinjktshxBm",
   "hhlhiBrhKthkinhhhkiBphkiBhhkinhhhkivhB5hkiCjBlwwC2imjTsixh6lCrjrnytzuyuthjvB0BjhkhCjC5nBphhl",
   "Cmq-Bx+ilrBsk6B23pB1CyhC9BvxoB2+tiqBs6BkBpjqBkirlBrijBpkhmhijhlGgCgI2imiBmimiohhhhhhh-iB1hnh",
   "hjjhnjkimktljhnD0hthwtDlhkhiqhhimmhhhhhhwikllkhxBpCT3HlmkjisBmhhlhiB4nhw3pnhnhnhnhnhnhnhnRmj",
   "5pnlilkC2klhC6hklBrhC+xBgBwwQgGOgCgVUtCjBuiItjwqi0Bvw-iCwBnpiDniCjiihhho1whjhkh39B0uByB+mjhh",
   "ir8q359nBv8hwlhqqlhBp3jho03jhjByhhjiilihhh4jirnjsmimimpnhnhBrhumDz9Kdks3kBxIIkLuiDqBmnsllhhq",
   "hthlhhhihihDsBhLryCgiB2BosD0lhEnBk6m6rC5jmimimijBjsh6hzhihviuBiD7ClB1Ir9jBxBvBgt+lBmq+iBkkoh",
   "lBqE+yBkkBkkBooB0srhvhnhihrhvhnhijB0sJ3p2qo4mhBqhpClmihhBshijhi3q3p-Chzhiq2q6CmB4miCghvkhjh9",
   "Bq9j9Bjoh87B2q2qztyDuCpB3BztBztBkBm8p3H6BqmiwjB79qho2BqyBu173sB1B5iihtBtBg56Bk9hihoBjjhsBwuk",
   "1hhhBjyh5ziB-nhhhkhvhqnBvBmoiii2hnhihljhyhsl+qhhihhBmhh5hhhBsB1yk0j+Bw0ihhF4BvBpkBkBw0hB7Brt",
   "hCn7BlnF5BsD0Cg-oihiohih4vhhhC+oiBnwhhh8hqBonh1hrBuzhyCpGnBh-phBlxhBx+DwnhihBm1h5mhihBguhKnz",
   "vhhthBiD8hCvc6DmDvxGkCSsDhvBBwxm5Dc7lSnGV5+BXiR5n-xCvx+yBwwk-1lzNwBtGzCgEgCrlhCitCgihh8Ff4oB",
   "G2BpqIXnkhnhihJjvh9jihukoMsCIkDrltjpnqFbmC1hCnhiihiiikhshhhnhChhkiohnh8hkhlhhjnhK0i5h5h-h5h-",
   "h5h-h5h-h5hoBZ0-mmIlB+EyBtqnwhKh+yBsPk8Hk+ihPvnhkhihvhGlB7CknhBF0kh7hihhihhqhkhhhhmhkhhhhhhj",
   "hihhihhhhhhhhhhihhikhnhkhkhhhqhxljhlhxEKkBJXgBgEB6mG+iFUiuHJxvTuCNiQ+BPiEarlEDgbXCw"]

/-- The characters with the property `Ideographic`. -/
def ideographic : Runs := .alternating
  ["MAmi5pujelGOgCgUQgWIgLuiDqdIqh7Ff4oBG2BpqJDnMsTIkBJXgBgEB6mG+iFUiuHJxvTuCNiQ+BPiEarlEDgbXCw"]

/-- The characters with the property `Join_Control`. -/
def joinControl : Runs := .alternating
  ["IAsiBBXfy"]

/-- The characters with the property `Logical_Order_Exception`. -/
def logicalOrderException : Runs := .alternating
  ["DSglD7lCXwjihBEH6iihhiBAVKj"]

/-- The characters with the property `Lowercase`. -/
def lowercase : Runs := .alternating
  ["Dh6BvhqhkhBk4hohhhhhhhhhhhhhhhhhhhhhhhhhhhhhhhhhhhhhhhhhhhhhhhhhhhhhhhihhhhhhhhhhhhhhhihhhhh",
   "hhhhhhhhhhhhhhhhhhhhhhhhhhhhhhhhhhhhhhhhhihhhhjihhhihjikhihjjihihhhhhihhihhihjhhhiiijmhihihh",
   "hhhhhhhhhhhhhhihhhhhhhhhhhhhhhhhiihhhjhhhhhhhhhhhhhhhhhhhhhhhhhhhhhhhhhhhhhhhhhhhhhhhhhhhhhh",
   "hhhhnihiihhkhhhhhhhhCliBjni+lDghBrhhhjhikyh7BjhijjhhhhhhhhhhhhhhhhhhhhhhhlhhihiiBzBwhhhhhhhh",
   "hhhhhhhhhhhhhhhhhhhhhhhhhhphhhhhhhhhhhhhhhhhhhhhhhhhhhhhhhhhhhhhhhhhhhhhhhhhhhhhihhhhhhhhhhh",
   "hihhhhhhhhhhhhhhhhhhhhhhhhhhhhhhhhhhhhhhhhhhhhhhhhhhhhhhhhhhhhhhhhhhhhhhhhhhhhhhhhhhhhhhhhhh",
   "hhhhhhBwBpCanBrhkX4mCEiphhD1GgChhhhhhhhhhhhhhhhhhhhhhhhhhhhhhhhhhhhhhhhhhhhhhhhhhhhhhhhhhhhh",
   "hhhhhhhhhhhhhhhhhhhhhhhhhhhhhhhhhhhhhhhhhhhhhhhhhhhhhhhhhhhhhhhhhhhhhhhhhhhhhhhhhhhhhhhhphhh",
   "hhhhhhhhhhhhhhhhhhhhhhhhhhhhhhhhhhhhhhhhhhhhhhhhhhhhhhhhhhhhhhhhhhhhhhhhhhhhhhhhhhhhhhhhhhhh",
   "hhpomqoooomqoooouioooooolhimhjjhiokiiooqjhiD5hthwtDthjijh7hkhkhiiokkhBhwkhar6BamBwhhjihhhhhh",
   "khhihojhhhhhhhhhhhhhhhhhhhhhhhhhhhhhhhhhhhhhhhhhhhhhhhhhhhhhhhhhhhhhhhhhhhhhhhhhhhhhhhhhhhhh",
   "hhhhhhhhhhhhhinhhhkhsBmhhlheIzhhhhhhhhhhhhhhhhhhhhhhhhhhhhhhhhhhhhhhhhhhhhhzhhhhhhhhhhhhhhhh",
   "hhhhhhhhhhjElhhhhhhhhhhhhjhhhhhhhhhhhhhhhhhhhhhhhhhhhhhhhhhhhhhhhhhhhhhhhhhhhhhhhhhhhhhqhhhh",
   "ihhhhhhhhhkhhhihhjhhhhhhhhhhhhhhhhhhhhlhlhhhhhhhhhhhhhhhkhhhihjhhhhhhhhhhh2jhhhjZ1BrhumCwTag",
   "nslBBp6BGtBoEoBkE7rhvhnhiOjhijhBqhpBIlBzD92CZ6BgVMgBgZM666nhy666khhhnhr66666666666666666885h",
   "m65hm65hm65hm65hmhhBZ0qh0mmIlB+CF0BieFV8"]

/-- The characters with the property `Math`. -/
def math : Runs := .alternating
  ["Brhwj-h9hhhBthkhBlh-hW4jih6iijQvjGQth7jrhjhthuk1lrlChtkhjiklyhkhiqhhimmhjiiihjhmjuhhCk4hmhik",
   "ikBghhmiuIsok0iC6h+7hh4hrnN9isqkmkiiijluhhhimroliB5hhh9kpjKwCgIgQgBw1imBTe8hZ3mhhFihwj9hhh9h",
   "hhEjhmkDNhiBRTwC1hCnhiihiiikhshhhnhChhkiohnh8hkhlhhjnhK0iJkiByFQgkh7hihhihhqhkhhhhmhkhhhhhhj",
   "hihhihhhhhhhhhhihhikhnhkhkhhhqhxljhlhxB0ieEIu"]

/-- The characters with the property `Noncharacter_Code_Point`. -/
def noncharacterCodePoint : Runs := .alternating
  ["BfOwBgQuiBff+iBff+iBff+iBff+iBff+iBff+iBff+iBff+iBff+iBff+iBff+iBff+iBff+iBff+iBff+iBff+i"]

/-- The characters with the property `Pattern_Syntax`. -/
def patternSyntax : Runs := .alternating
  ["Bhvqn6khh6kBinhhhihhhikhkhjh3h-hHY44ovizhqJxWwFgT2+BDsQgEgMhjk5vhBTItiIliBAAN5"]

/-- The characters with the property `Pattern_White_Space`. -/
def patternWhiteSpace : Runs := .alternating
  ["plyhDkhHcoi4iBBXe2"]

/-- The characters with the property `Quotation_Mark`. -/
def quotationMark : Runs := .alternating
  ["BihkhEjhvhHa8o5iDQnhOpktjBTRhkF9hkhC6iBAAE8"]

/-- The characters with the property `Radical`. -/
def radical : Runs := .alternating
  ["LUg6hC5sG2BBUBq"]

/-- The characters with the property `Regional_Indicator`. -/
def regionalIndicator : Runs := .alternating
  ["DcPm6eDQg"]

/-- The characters with the property `Sentence_Terminal`. -/
def sentenceTerminal : Runs := .alternating
  ["BhhshwhBKphEzjF0hBrjH2hB9hhhjiJliBXkiY2hkiYlhGmiE9iBthlhJ6iLikFiiqiii9jF7iChidkh3ipjDFvjJyht",
   "h2iNthdH8hIuiHjhjhL+iC2iC-hE4iEzjEwiH5hURmhiiB7hjiFphshwhChhCX0iBH9lBskF9iD1kD-jEhimhwiC4ihi",
   "DshJqiD1iL1ilvDpiH5jQlhhhH7iC3iNkiV0iCqiSZpiElhChirhRpiJohTQmhHPoheJL3"]

/-- The characters with the property `Soft_Dotted`. -/
def softDotted : Runs := .alternating
  ["DpiGkhI5h+hB0h0hKghDihhhGIphBzhthjhEkhE9hNlhG2iCZyhDJdliByiByiByiByiByiByiByiByiByiByiByiByi",
   "CEmhJxi6heHc3"]

/-- The characters with the property `Terminal_Punctuation`. -/
def terminalPunctuation : Runs := .alternating
  ["BhhqhhhrijhZ+hohQhhB5hCohuhhjF0hBrrhhHriB2mho-hIliBH0iFshkmJ3iY1oYlhD8jCniE9jjhBnkiiJ6iLikFi",
   "iqihj9jF7lB+idkh3ipjDFvjJyhthkhqhhijiNsidH7iItjHjlL+iC2iC-hE3jEzjD-hwiH5hURmhiiB5jhkFphqhhhr",
   "ijhChhihBB6hBwhBEmhGnhJ2iE4mCkmC5kd4lBskF9nDwkD-jEhimhwiC4lDshJqiD1jsiLmkjvDpiH5jQlhhhH7iC3i",
   "kiM+jBthUliCqiBJrlRP5iElhChjqhRpiJniTQmhHPnkeJL1"]

/-- The characters with the property `Unified_Ideograph`. -/
def unifiedIdeograph : Runs := .alternating
  ["NAgGOgCgUQgWQuihhhiqhhhhiijCBO2BJXgBgEB6mG+iFUiuHJxvTuENiEarlEDgbXCw"]

/-- The characters with the property `Uppercase`. -/
def uppercase : Runs := .alternating
  ["Ch6Dl3hnBhhhhhhhhhhhhhhhhhhhhhhhhhhhhhhhhhhhhhhhhhhhhhhhhhhhhhhhhihhhhhhhhhhhhhhhihhhhhhhhhh",
   "hhhhhhhhhhhhhhhhhhhhhhhhhhhhhhhhhhhhihhhhjihhhihjikhihjjihihhhhhihhihhihjhhhijhnhihihihhhhhh",
   "hhhhhhhhhihhhhhhhhhhhhhhhhhihihhjhhhhhhhhhhhhhhhhhhhhhhhhhhhhhhhhhhhhhhhhhhhhhhhhhhhhhhhhhhn",
   "ihiihhkhhhhhhhhJhhhhjhohmhhjhhhihxhpBjhijjhhhhhhhhhhhhhhhhhhhhhhhlhihhiiBzBwhhhhhhhhhhhhhhhh",
   "hhhhhhhhhhhhhhhhhphhhhhhhhhhhhhhhhhhhhhhhhhhhhhhhhhhhhhhhhhhhhhhhhhhhhhhihhhhhhhhhhhhihhhhhh",
   "hhhhhhhhhhhhhhhhhhhhhhhhhhhhhhhhhhhhhhhhhhhhhhhhhhhhhhhhhhhhhhhhhhhhhhhhhhhhhhhhhhhhhhhhhiBm",
   "CapBmhhlhWyC2CEzhmBrijKghhhhhhhhhhhhhhhhhhhhhhhhhhhhhhhhhhhhhhhhhhhhhhhhhhhhhhhhhhhhhhhhhhhh",
   "hhhhhhhhhhhhhhhhhhhhhhhhhhhhhhhhhhhhhhhhhhhhhhhhhhhhhhhhhhhhhhhhhhhhhhhhhhhhhhhhhphhhhhhhhhh",
   "hhhhhhhhhhhhhhhhhhhhhhhhhhhhhhhhhhhhhhhhhhhhhhhhhhhhhhhhhhhhhhhhhhhhhhhhhhhhhhhhhhhhhhhpoomq",
   "oooomrhhhhhhhooCokskskslrkImhkhjjijihjlmhhhhhhkikqilh6wzhZy6BZwBwBwhhjihhhhhhkhhihojhhhhhhhh",
   "hhhhhhhhhhhhhhhhhhhhhhhhhhhhhhhhhhhhhhhhhhhhhhhhhhhhhhhhhhhhhhhhhhhhhhhhhhhhhhhhhhhhhhhhhhoh",
   "hhkheKthhhhhhhhhhhhhhhhhhhhhhhhhhhhhhhhhhhhhhhhhhhhhzhhhhhhhhhhhhhhhhhhhhhhhhhhhEnhhhhhhhhhh",
   "hhhjhhhhhhhhhhhhhhhhhhhhhhhhhhhhhhhhhhhhhhhhhhhhhhhhhhhhhhhhhhhhhqhhhhihhhhhhhhkhhhihhhjhhhh",
   "hhhhhhhhhhhhhhhhlhlhhhhhhhhhhhhhhhkhhhijhlhhhhhhh4hVZr6BGlBoEoBkE8rhvhnhiBXqBzE92CZ6BgVMgBgZ",
   "Ng666666hhiihiiikho666ihkiohn7ihkhlhhjn766666666666+5Bh5Bh5Bh5Bh5BhhEJ1BiCAu6m6m6eDT2"]

/-- The characters with the property `Variation_Selector`. -/
def variationSelector : Runs := .alternating
  ["GArjhhBZPwwaAXwHwFfQw"]

/-- The characters with the property `White_Space`. -/
def whiteSpace : Runs := .alternating
  ["plyhDkh6hFO-hCL-r9ilhBvhDdghBBTf-"]

/-- The characters with the property `XID_Continue`. -/
def xidContinue : Runs := .alternating
  ["Bwqn6khh6Bvhqhhhihl3h-hOqksulnhhhxD1hijjhhmlhhh0hCzhErhliFmhBmihmBpoBthhhihihho7kk9rlCqkDmho",
   "iqhzihwB7iDluB2khihiBuy8krl4hmoCrhEhiqhzhoiii2hnhhjkipiiikohkihlisqhhhijhmkii2hnhihihiihhlki",
   "ijjhnkhhnwrjhphjh2hnhihliqhjhjihvkiqpnhjhoiii2hnhihlipiiijnjkihliqhhwihmjjhkjihhhijijjjskljj",
   "hkihmhuqwthjh3hwiphjhknihjihikiqwkhohjh3hqhliphjhknimihkiqhjsthjhBzhjhllknliqqmhjhyj4hphhinj",
   "hkmhhhomqiitB6lvhqBnihhhlh4hhh3ilhhhnhqikBgh3imqrhhhhhkqhBkk0hyhBkphB5CqmCuiBmhhlhiBrhKthkin",
   "hhhkiBphkiBhhkinhhhkivhB5hkiCjijppuwwC2imjTsixh6lCrjrn2p2r0sthjhisC0jhkiiqBhjhrmC5nBrlCmq-hs",
   "ksqBoilrBsk6mrBl8kB-h9irmqthouhwBxCtjqxpsD0sB4oqjBxirlBrijwjhBnlQ2imiBmimiohhhhhhh-iB1hnhhjj",
   "hnjkimktljhnviBxizh8hthwtBztkhjsxhkhiqhhimmhhhhhhwikllkhxBpCT3HlmpsBmhhlhiB4nhv4pnhnhnhnhnhn",
   "hnhnhBgQlj5vhlilkC2iiijhC-lBrhC+xBgBwwQgGOgCgVUtCjBuiItj80BwkqhDzBlpiDniCjiihhho1B2khzB0sCmq",
   "qm4jhhBxiBks9jChurm-hB3puiqm3jCp4jiwilqmimimpnhnhBrhumD7hiiqmKdks3kBxIIkLuiDqBmnsllshthlhhhi",
   "hihDsBhErmG6yCgiB2Boqmwwwji4jBhhhhjhhhhhhhhD+zqn6khh6qC6jmimimijBjsh6hzhihviuBiD7ClB1EohEi9j",
   "Bxvh-Bgt+lBrl+iBkkohlBqE+iqmBkkBkkBooB0srhvhnhihrhvhnhijB0sJ3p2qo4mhBqhpClmihhBshijhi3q3p-Ch",
   "zhiq2q6CmB4miCgkhilohjh9ijkhBg9j9Bjoh+5B2q2qztyDuCpB3BztBztBooqmBmjlh3H6BqhijiwjB3BhqhoBh-2B",
   "q173pCn-wpB8nht5nqmB1hqkkoBkihpClkkhthhBjyhBlmkB+nhhhkhvhqnB7lqmkhoiii2hnhihlhqiiijihmhlninj",
   "lrqhhihhBmhqhhihhkhoti9Crlqkk+CmhhoqFmB2ip3mBiChjhrqBmB5nqm087ivkqmnF5B7DlCq1oihiohih+hiipsq",
   "CmoiBuiohi7B-ohoCqjhyCpGnBhvqmphBthpvq4+i2huCpnhihBsjhhihpoqmmhihBlhihmnqJ23pxhBpjltrC1hCvc6",
   "DmDvxGkCSsDhvBBww2qDc7lSnGV5B6BWmR5n-hqmCvhqm+ilrB3pksqp1lzNwBtjqGmCgEgCrkB5nxCgihiriuFf4oBG",
   "2BpqIXnkhnhihJjvh9jihukoMsCIkDrltjpnqjiECxqQmBui3Q+ljmooin+kE0jN7C1hCnhiihiiikhshhhnhChhkioh",
   "nh8hkhlhhjnhK0i5h5h-h5h-h5h-h5h-h5hoiByQgB3kByohuh2lhvBCw-mmG1nhxinhihllB+BhhDwBtjuiqkhKh-xB",
   "6O2BqG2BrPlnhkhihvhGlrnBpCskqBFmkh7hihhihhqhkhhhhmhkhhhhhhjhihhihhhhhhhhhhihhikhnhkhkhhhqhxl",
   "jhlhxDJ0qBAmBJXgBgEB6mG+iFUiuHJxvTuCNiQ+BPiEarlEDgVXKwHwFfQw"]

/-- The characters with the property `XID_Start`. -/
def xidStart : Runs := .alternating
  ["Ch6m6Bvhqhkhl3h-hOqksulnhhhEhlhijjhhmhhjhhh0hCzhEroFmhBmihmBpCn7kkBtBrBjihDjhhviniqjihwhh+9C",
   "5rh4Bhpikhl2khphjh35nrl4hmxBqB6B2jhyhnqvwkoiii2hnhhjkjhwhtihjuiqhomkii2hnhihihi-khhzjwphjh2h",
   "nhihljhyhvi3hroiii2hnhihljh+ihjvhxhhmjjhkjihhhijijjjs2hB0ohjh3hwjh6jihii+hkohjh3hqhljh-ihivi",
   "xphjhBpihwhljoj4mlyj4hphhinB6BwhhtnB6ihhhlh4hhhqhhqhilhh1kBghB-ohBk7lDzBr0hwmkkjhjinjktshxBm",
   "hhlhiBrhKthkinhhhkiBphkiBhhkinhhhkivhB5hkiCjBlwwC2imjTsixh6lCrjrnytzuyuthjvB0BjhkhCjC5nBphhl",
   "Cmq-Bx+ilrBsk6B23pB1CyhC9BvxoB2+tiqBs6BkBpjqBkirlBrijBpkhmhijhlGgCgI2imiBmimiohhhhhhh-iB1hnh",
   "hjjhnjkimktljhnD0hthwtDlhkhiqhhimmhhhhhhwikllkhxBpCT3HlmkjisBmhhlhiB4nhw3pnhnhnhnhnhnhnhnRmj",
   "5pnlilkC2mjhC6hklBrhC+xBgBwwQgGOgCgVUtCjBuiItjwqi0Bvw-iCwBnpiDniCjiihhho1whjhkh39B0uByB+mjhh",
   "ir8q359nBv8hwlhqqlhBp3jho03jhjByhhjiilihhh4jirnjsmimimpnhnhBrhumDz9Kdks3kBxIIkLuiDqBmnsllhhq",
   "hthlhhhihihDsBhErmG6yCgiB2BoqD3hhhjhhhhhhhhD+Bk6m6rB4i-jmimimijBjsh6hzhihviuBiD7ClB1Ir9jBxBv",
   "Bgt+lBmq+iBkkohlBqE+yBkkBkkBooB0srhvhnhihrhvhnhijB0sJ3p2qo4mhBqhpClmihhBshijhi3q3p-Chzhiq2q6",
   "CmB4miCghvkhjh9Bq9j9Bjoh87B2q2qztyDuCpB3BztBztBkBm8p3H6BqmiwjB79qho2BqyBu173sB1B5iihtBtBg56B",
   "k9hihoBjjhsBwuk1hhhBjyh5ziB-nhhhkhvhqnBvBmoiii2hnhihljhyhsl+qhhihhBmhh5hhhBsB1yk0j+Bw0ihhF4B",
   "vBpkBkBw0hB7BrthCn7BlnF5BsD0Cg-oihiohih4vhhhC+oiBnwhhh8hqBonh1hrBuzhyCpGnBh-phBlxhBx+DwnhihB",
   "m1h5mhihBguhKnzvhhthBiD8hCvc6DmDvxGkCSsDhvBBwxm5Dc7lSnGV5+BXiR5n-xCvx+yBwwk-1lzNwBtGzCgEgCrl",
   "hCitCgihh8Ff4oBG2BpqIXnkhnhihJjvh9jihukoMsCIkDrltjpnqFbmC1hCnhiihiiikhshhhnhChhkiohnh8hkhlhh",
   "jnhK0i5h5h-h5h-h5h-h5h-h5hoBZ0-mmIlB+EyBtqnwhKh+yBsPk8Hk+ihPvnhkhihvhGlB7CknhBF0kh7hihhihhqh",
   "khhhhmhkhhhhhhjhihhihhhhhhhhhhihhikhnhkhkhhhqhxljhlhxEKkBJXgBgEB6mG+iFUiuHJxvTuCNiQ+BPiEarlE",
   "DgbXCw"]

/-- The names of the properties, in loose spelling, with their tables. -/
def names : List (List String × Runs) :=
  [(["asciihexdigit", "ahex"], asciiHexDigit),
   (["alphabetic", "alpha"], alphabetic),
   (["bidicontrol", "bidic"], bidiControl),
   (["bidimirrored", "bidim"], bidiMirrored),
   (["caseignorable", "ci"], caseIgnorable),
   (["cased"], cased),
   (["changeswhencasefolded", "cwcf"], changesWhenCasefolded),
   (["changeswhencasemapped", "cwcm"], changesWhenCasemapped),
   (["changeswhenlowercased", "cwl"], changesWhenLowercased),
   (["changeswhentitlecased", "cwt"], changesWhenTitlecased),
   (["changeswhenuppercased", "cwu"], changesWhenUppercased),
   (["dash"], dash),
   (["defaultignorablecodepoint", "di"], defaultIgnorableCodePoint),
   (["deprecated", "dep"], deprecated),
   (["diacritic", "dia"], diacritic),
   (["emoji"], emoji),
   (["emojicomponent", "ecomp"], emojiComponent),
   (["emojimodifier", "emod"], emojiModifier),
   (["emojimodifierbase", "ebase"], emojiModifierBase),
   (["emojipresentation", "epres"], emojiPresentation),
   (["extendedpictographic", "extpict"], extendedPictographic),
   (["extender", "ext"], extender),
   (["graphemebase", "grbase"], graphemeBase),
   (["graphemeextend", "grext"], graphemeExtend),
   (["hexdigit", "hex"], hexDigit),
   (["idsbinaryoperator", "idsb"], idsBinaryOperator),
   (["idstrinaryoperator", "idst"], idsTrinaryOperator),
   (["idcontinue", "idc"], idContinue),
   (["idstart", "ids"], idStart),
   (["ideographic", "ideo"], ideographic),
   (["joincontrol", "joinc"], joinControl),
   (["logicalorderexception", "loe"], logicalOrderException),
   (["lowercase", "lower"], lowercase),
   (["math"], math),
   (["noncharactercodepoint", "nchar"], noncharacterCodePoint),
   (["patternsyntax", "patsyn"], patternSyntax),
   (["patternwhitespace", "patws"], patternWhiteSpace),
   (["quotationmark", "qmark"], quotationMark),
   (["radical"], radical),
   (["regionalindicator", "ri"], regionalIndicator),
   (["sentenceterminal", "sterm"], sentenceTerminal),
   (["softdotted", "sd"], softDotted),
   (["terminalpunctuation", "term"], terminalPunctuation),
   (["unifiedideograph", "uideo"], unifiedIdeograph),
   (["uppercase", "upper"], uppercase),
   (["variationselector", "vs"], variationSelector),
   (["whitespace", "wspace", "space"], whiteSpace),
   (["xidcontinue", "xidc"], xidContinue),
   (["xidstart", "xids"], xidStart)]

/-- The table of the property with this name, in loose spelling. -/
def named? (name : String) : Option Runs :=
  (names.find? fun entry => entry.1.contains name).map Prod.snd

end ValueGraph.Unicode.Binary
