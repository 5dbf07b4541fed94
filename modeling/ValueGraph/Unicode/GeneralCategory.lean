/-
  General categories: the class of every character.

  * `GeneralCategory.of` is the category of a character;
  * `GeneralCategory.named?` gives the categories that a name stands for: one,
    or a group of them.
-/
import ValueGraph.Unicode.Runs

namespace ValueGraph.Unicode

/-- The classes of characters. -/
inductive GeneralCategory where
  | uppercaseLetter | lowercaseLetter | titlecaseLetter | modifierLetter | otherLetter
  | nonspacingMark | spacingMark | enclosingMark | decimalNumber | letterNumber | otherNumber
  | connectorPunctuation | dashPunctuation | openPunctuation | closePunctuation
  | initialPunctuation | finalPunctuation | otherPunctuation | mathSymbol | currencySymbol
  | modifierSymbol | otherSymbol | spaceSeparator | lineSeparator | paragraphSeparator | control
  | format | surrogate | privateUse | unassigned
deriving DecidableEq, Repr

namespace GeneralCategory

/-- All categories, each at the place of its number in the table. -/
def all : List GeneralCategory :=
  [uppercaseLetter, lowercaseLetter, titlecaseLetter, modifierLetter, otherLetter,
   nonspacingMark, spacingMark, enclosingMark, decimalNumber, letterNumber, otherNumber,
   connectorPunctuation, dashPunctuation, openPunctuation, closePunctuation, initialPunctuation,
   finalPunctuation, otherPunctuation, mathSymbol, currencySymbol, modifierSymbol, otherSymbol,
   spaceSeparator, lineSeparator, paragraphSeparator, control, format, surrogate, privateUse,
   unassigned]

/-- The category of every code point. -/
def table : Runs := .ofPairs
  ["Bg5h2jxhzjxhthuhxhyhxhsixqoixjyix6ghthxhuh0hrh06hhthyhuhyBh5h2hxkzh1hxh0h1hkhvhyh6h1h0h1hyiq",
   "h0hhixh0hqhkhwjqhx3ghyng4hhyohhghhhghhhghhhghhhghhhghhhghhhghhhghhhghhhghhhghhhghhhghhhghhhg",
   "hhhghhhghhhghhhghhhghhhghhhghhhghhhghhhghhhghhhgihhghhhghhhghhhghhhghhhghhhghhhgihhghhhghhhg",
   "hhhghhhghhhghhhghhhghhhghhhghhhghhhghhhghhhghhhghhhghhhghhhghhhghhhghhhghhhghhhghhighhhghhhg",
   "jhighhhghhighhjgihkghhighhjgjhighhighhhghhhghhighhhgihhghhighhjghhhghhigihhkhgjhkkhghihhhghi",
   "hhhghihhhghhhghhhghhhghhhghhhghhhghhhgihhghhhghhhghhhghhhghhhghhhghhhghhhgihhghihhhghhjghhhg",
   "hhhghhhghhhghhhghhhghhhghhhghhhghhhghhhghhhghhhghhhghhhghhhghhhghhhghhhghhhghhhghhhghhhghhhg",
   "hhhghhhghhhghhhghhhgnhighhigihhghhkghhhghhhghhhghhhgClhik6hyjk0sju0ljn0hjh0hjx0Dwlhghhhghhhj",
   "h0hghhi9hjjhhxhgk9i0hghxjgh9hgh9ighhxgh9pgBjhhgihjgjhhghhhghhhghhhghhhghhhghhhghhhghhhghhhgh",
   "hhghhhglhhghhhyhghhigihBzgBwhhghhhghhhghhhghhhghhhghhhghhhghhhghhhghhhghhhghhhghhhghhhghhhgh",
   "hhghhh1llinhghhhghhhghhhghhhghhhghhhghhhghhhghhhghhhghhhghhhghhhghhhghhhghhhghhhghhhghhhghhh",
   "ghhhghhhghhhghhhghhhghhhghhighhhghhhghhhghhhghhhghhhgihhghhhghhhghhhghhhghhhghhhghhhghhhghhh",
   "ghhhghhhghhhghhhghhhghhhghhhghhhghhhghhhghhhghhhghhhghhhghhhghhhghhhghhhghhhghhhghhhghhhghhh",
   "ghhhghhhghhhghhhghhhghhhghhhghhhghhhghhhghhhghhhghhhghhhghhhghhh9Bmgi9hjmxBphhxhsi9i1hzh9Btl",
   "hshlhxilhxilhxhlo97kk9kkixr9m6jyixhzixi1rlhxh6jxBgkhjqk1lqokxikhlDjkhxhknlh6h1mlijilh1klikqo",
   "jki1hkuxh9h6hkhl+k7li9C5krlhku9qoBhkplijh1jxhji9hliz2kklhjplhjjlhjlli9vxh95kjli9hxh9rkl94kh0",
   "mkh9i6l9plBpkhj4lh6BglhmB2khlhmhlhkjmolkmhlimhknlqkilixqohxhjvkhlimh9oki9iki92kh9nkh9hkj9kki",
   "9hlhkjmkli9imi9imhlhko9hmk9ikh9jkili9qoikizmqh1hzhkhxhli9ilhmh9mkk9iki92kh9nkh9ikh9ikh9iki9h",
   "lh9jmilk9ili9jlj9hln9kkh9hkn9qoiljkhlhxq9ilhmh9pkh9jkh92kh9nkh9ikh9lki9hlhkjmllh9ilhmh9imhli",
   "9hkv9ikili9qohxhzn9hkmlh9hlimh9oki9iki92kh9nkh9ikh9lki9hlhkhmhlhmkli9imi9imhln9ilhmk9ikh9jki",
   "li9qoh1hkmqq9hlhkh9mkj9jkh9kkj9ikh9hkh9ikj9ikj9jkj9skk9imhlimj9jmh9jmhli9hkm9hmu9qojqm1hzh1l",
   "9hljmhlokh9jkh93kh9wki9hlhkjlkmh9jlh9kln9ilh9jki9hki9ikili9qon9hxnqh1hkhlimhxokh9jkh93kh9qkh",
   "9lki9hlhkhmhllmh9hlimh9imiln9imm9ikh9ikili9qoh9ikhms9ilimpkh9jkh9Bpkilhkjmklh9jmh9jmhlhkh1k9",
   "jkhmnqjkili9qopqh1mkh9hlimh9ykj94kh9pkh9hki9nkj9hlk9jmjlh9hlh9omm9qoi9imhxs9Bwkhliknlk9hzmkh",
   "jolhxqoixBl9ikh9hkh9lkh94kh9hkh9qkhlikplhki9lkh9hjh9nlh9qoi9kkBg9hkj1vxh1hxj1ilm1qoqqh1hlh1h",
   "lh1hlhthuhthuimokh9Bkkk9ulhmllhxillkrlh9Bklh9o1hlm1h9i1lxk1ixBl9Brkimklhmmlhmilimilhkqomxmki",
   "milkkjlhkjmiknmjkkltkhlimilmmhlhkhmqojmhli1Bmgh9hgl9hgi9BrhhxhjjhKpkh9kki9nkh9hkh9kki9Bpkh9k",
   "ki9Bhkh9kki9nkh9hkh9kki9vkh9B5kh9kki9Cjki9jlpx0qj9wkq1m9C2gi9mhi9hsTskh1hxxkh26khthuj9Crkjxj",
   "pokn9ykjlhmp9zkilhmixp9ykils9tkh9jkh9ils9B0kilhmnlomhlimrljxhjjxhzhkhli9qom9qqm9mxhskxjlh6hl",
   "qom9BjkhjB1kn9lkilBikhlhkl9Cmkq9-kh9jlkmiljmk9imhlmmjlk9h1j9ixqo+ki9lkr9Bskk96km9qohqj9Bi13k",
   "ilimhli9ixB1khmhlhmnlh9hlhmhlimolmmqli9hlqom9qom9nxhjmxi9ulhnwlBx9klhmBvkhlhmllhmhllmhlimokh",
   "9ixqonxq1plp1jxilhm+khmklimilhmjlikqoBskhlhmiljmhlhmjlimo9kxBkkomolimilj9lxqoj9jkqo+kmjixphh",
   "ghhl9Brgi9jgoxo9jlhxtlhmnlkkhlmkhlikhmilhkl9BshB-jthhjBihBljCglhghhhghhhghhhghhhghhhghhhghhh",
   "ghhhghhhghhhghhhghhhghhhghhhghhhghhhghhhghhhghhhghhhghhhghhhghhhghhhghhhghhhghhhghhhghhhghhh",
   "ghhhghhhghhhghhhghhhghhhghhhghhhghhhghhhghhhghhhghhhghhhghhhghhhghhhghhhghhhghhhghhhghhhghhh",
   "ghhhghhhghhhghhhghhhghhhghhhghhhghhhghhhghhhghhhghhhghhhghhhghhhghhhghhhghhhghhhghhhgphhghhh",
   "ghhhghhhghhhghhhghhhghhhghhhghhhghhhghhhghhhghhhghhhghhhghhhghhhghhhghhhghhhghhhghhhghhhghhh",
   "ghhhghhhghhhghhhghhhghhhghhhghhhghhhghhhghhhghhhghhhghhhghhhghhhghhhghhhghhhghhhghhhghhhghhh",
   "ghhhgphogmhi9mgi9ohogohogmhi9mgi9ohh9hgh9hgh9hgh9hgohoguhi9ohoiohoiohoilhh9ihkghih0hhj0jhh9i",
   "hkghij0khi9ihkgh9j0ohlgj0i9jhh9ihkghii0h9r2l6msixhvhwhtivhwhthvoxh3h4l6h2pxhvhwkxirjxhyhthur",
   "xhyhxhrqxh2l6h9q6hqhji9mqjyhthuhjqqjyhthuh9tjj9Bhzv9tlknhljnslv9i1hgk1hgi1hhjgihjghhh1hgi1hy",
   "lgm1hgh1hgh1hgh1kgh1hhkghhkkhhi1ihiglyhgkhh1hyi1hhh1wqBjphghhkphqi1k9lyl1iyk1hyi1hyi1hyn1hy-",
   "1iyi1hyh1hy-1Isyo1hthuhthu01iyn1hthuCx1hy+15yBo1myCo129r119B8qCu12qF31hyp1hyB21oyDv1hyH41hth",
   "uhthuhthuhthuhthuhthuhthu+qBs1lyhthu-yhthuhthuhthuhthuhthuwyIg1Ejyhthuhthuhthuhthuhthuhthuht",
   "huhthuhthuhthuhthuB-yhthuhthuBgyhthuIiyBw11yi1myBn1i9Bg1h9Dp1BwgBwhhghhjgihhghhhghhhghhkghhh",
   "gihhgmhijjghhhghhhghhhghhhghhhghhhghhhghhhghhhghhhghhhghhhghhhghhhghhhghhhghhhghhhghhhghhhgh",
   "hhghhhghhhghhhghhhghhhghhhghhhghhhghhhghhhghhhghhhghhhghhhghhhghhhghhhghhhghhhghhhghhhghhhgh",
   "hhghhhghhhghhhghhhghhhgihm1hghhhghhjlhghhl9kxhqixBmhh9hhl9hhi9B4kn9hjhxu9hl3kp9nkh9nkh9nkh9n",
   "kh9nkh9nkh9nkh9nkh9Bglixhvhwhvhwjxhvhwhxhvhwpxhsixhshxhvhwixhvhwhthuhthuhthuhthulxhjqxiskxhs",
   "hxhttxi1jxhthuhthuhthuhthuhsBi961h9C51s9G2169w1h2jxh1hjhkhphthuhthuhthuhthuhthui1hthuhthuhth",
   "uhthuhshtiuh1ppklimhslji1jphjhkhxi1h9C2ki9ili0ijhkhsC6khxjjhkl9Brkh9C+kh9i1kqq1BgkBm1p9h1wk-",
   "1h9qq+1oqh1vqBg1qqBn1vqKg1GOgkCg1UQ1khjBD3kj9B31p9BokmjixIskhjjxwkqoik09hghhhghhhghhhghhhghh",
   "hghhhghhhghhhghhhghhhghhhghhhghhhghhhghhhghhhghhhghhhghhhghhhghhhghhhghhhkhljnhxqlhxhjhghhhg",
   "hhhghhhghhhghhhghhhghhhghhhghhhghhhghhhghhhghhhghhijilCmkqpilmxo930pji0hghhhghhhghhhghhhghhh",
   "ghhhgjhhghhhghhhghhhghhhghhhghhhghhhghhhghhhghhhghhhghhhghhhghhhghhhghhhghhhghhhghhhghhhghhh",
   "ghhhghhhghhhghhhghhhghhhghhhghhhghhhghhhjohhghhhghhighhhghhhghhhghhhghhhji0hghhhghhhkhghhhgj",
   "hhghhhghhhghhhghhhghhhghhhghhhghhhghhhghhlghhlghhhghhhghhhghhhghhhghhhghhhghhkghhhghhighhi9h",
   "ghhh9hhh9hhhghhhghhhghhhg19jjhghhhkijhhnkhljkhlkkhl3kimilhmk1hlj9mqi1hzh1m9B0kkxo9imBykwmilo",
   "9ixqom9ylmkjxhkhxikhlqo8kolix3krlimr9hx9kj9jlhmBvkhlimklimiljmtxh9hjqok9ixlkhlhjpkqolkh9Bpkm",
   "limilimilp9jkhlokhlhmi9qoi9kxwkhjmkj1hkhmhlhmBykhlhkjlikillkilhkhlhk49ikhjixrkhmilimixhkijhm",
   "hlq9mki9mki9mkp9nkh9nkh9Brhh0kjphhji0k9CwhBjkimhlimhlimhxhmhli9qom9Kdkks93kk9Bxkk9CAg7GIg8Lu",
   "ki9DqkBm9nhs9lhl9hkhlqkhytkh9lkh9hkh9ikh9ikh9Dskx0w9Lrkhuhtw1Cgki9B2kn9h1Bg9skhzj1wlnxhthuhx",
   "m9wlhxisirhthuhthuhthuhthuhthuhthuhthuhthuixhthukxjrjxh9kxhshthuhthuhthujxhyhsjyh9hxhzixk9lk",
   "h9Enki9h6h9jxhzjxhthuhxhyhxhsixqoixjyix6ghthxhuh0hrh06hhthyhuhyhthuhxhthuixqkhjBtkij-kj9mki9",
   "mki9mki9jkj9izhyh0h1izh9h1kyi1q9j6i1i9skh96kh9zkh9ikh9vki9ukBi9D7kl9jxk9Btqj9p1B1pkqx1iqj1h9",
   "t1j9h1Bv9Bt1hlEi99kj9Bxkv9hl7qk9Bgkkqp90khpokhpl9Bmklll9+kh9hxBkkk9okhxlpBq9BogBohCuki9qom9B",
   "kgk9Bkhk9Boko9B0kr9hxrgh9vgh9ngh9igh9rhh9vhh9nhh9ihj9B0ks9J3kp92kq9ok49mjh9Bqjh9pjCl9mki9hkh",
   "9Bskh9ikj9hki93kh9hxoq3ki1nq-ko9pqBw9zkh9ikl9lq2kmqj9hx6kl9hxCg9B4kk9iqikwqi9Buqhkjlh9ill9kl",
   "kkh9jkh99ki9jlk9hlpqn9pxn99kiqhx9kjqBg9okh18kilk9lqnxp9B2kj9nx2ki9oqzkl9oqykn9kxs9nqCw9CpkB3",
   "9Bzgt9Bzhn9mqBkkklo9qom9qokkhjhk2gj9llhshj2ho9iyGw9-qh9Bqkh9ilhsi9ikw9jkB39kl9kqqhko92krlkql",
   "x29ykklkxBm91knq093kp9hmhlhmB1kvlnxk90qqohlikilhkp9jlhmBtkjmklimilixh6kxhlq9h6i95kn9qom9jlBk",
   "kllhmolh9qokxhkimhko9Bjkhlixhkp9ilhmBwkjmplimkkkxklhxhmhlqohkhxhkjxh90qr9ykh95kjmjlimhlhmilm",
   "xhlikhlB+9nkh9hkh9kkh9vkh9qkhxm9Bvkhljmoll9qom9ilimh9oki9iki92kh9nkh9ikh9lkh9ilhkimhlkmi9imi",
   "9jmi9hkm9hml9lkimi9nlj9llr9qkh9hki9hkh9Bmkh9hkjmmlh9hmi9hmh9kmh9imhlhmhlhkhlhkixh9ixo9il99B1",
   "kjmolimjlhmhlkklxqoixh9hxhljk+9Bwkjmmlhmhlkmilhmilikhxhko9qoFm9Bvkjmkli9kmilhmil3xkkilBi9Bwk",
   "jmolimhlhmiljxhkr9qom9txz9Brkhlhmhlimmlhmhlhkhxm9qom90o897ki9hlhmhlimklhmllk9qoiqjxh1nkF59Bs",
   "kjmplhmilhxDk9BggBghqopqs9oki9hki9okh9ikh94kmmh9imi9ilhmhlhkhmhkhmhljxp9qoCm9oki9Bnkjmkli9il",
   "kmhlhkhxhkhm79hkqlBokmlhmhkkloxhlo9hkmlimjlBuktlhmiljxhklxt9Cpkn9qxF29Bhkhxu9qom9pkh9Blkhmnl",
   "h9mlhmhlhklxq9qozqj9ix+ki92lh9hmnlhmilhmilCp9nkh9ikh9Bmkmlj9hlh9ilh9nlhkhlo9qom9mkh9ikh9Bgkl",
   "mh9ilh9imhlhmhlhkn9qoJ29zkilimixn9ilhkhmtkh9Bikimllj9imhlhmhltxqohlC19hkv91qo1kzx1t9hxc6kDm9",
   "Dvph9lxr9GkkCSs9Dhkixt9BBwkw6hlmkvlq9Dc7kl9SnkGV59+ksljmjlqoBWm9R5kn9-kh9qok9ixCvkh9qom9+ki9",
   "llhxq9Bwknllxk1kjhxh1q9qoh9nqh91kl9zkNw9jjBokijjxqoGm9BggBgh3qkxDl9Crkk9hlhkB3mn9kltjCg9ijhx",
   "hjhlr9imu9Ff4ko9BG2kBp9qkIXn9kjh9njh9ijh9Jjkv9hk99jki9hku9kko9MskCIk9Drkl9tkj9pkn9qki9h1ilhx",
   "k6Da89Hw1qom9N01Cs9Buli93lp9D01B89H21q9Bn1i9B81imjlj1mmo6oli1nl+1klB9119Ci1jlh1D690qs90qs9C3",
   "1p95qEn96g6h6gnhh9yh6g6hhgh9igi9hgi9igi9kgh9ogkhh9hhh9nhh9rh6g6high9kgi9ogh9ngh96high9kgh9lg",
   "h9hgj9ngh96h6g6h6g6h6g6h6g6h6g6h6g8hi95ghy5hhymh5ghy5hhymh5ghy5hhymh5ghy5hhymh5ghy5hhymhhghh",
   "i9ByoQg1B3lk1Bylo1hlu1hli1lxv9llh9vlBCw9qhhk0hm9mhG19nlh9xli9nlh9ilh9lll9B+jBh9hlDw9Btkj9nln",
   "ji9qok9hkh1Kg9+khlx9Bskklqol9hzOw97khjklqoG29+kilhkqok9hxPg9nkh9kkh9ikh9vkh9Glki9pqnlBp9BigB",
   "ihnlhjk9qok9ixYx9B7qh1jqhzkqCs9Btqh1vqGi9kkh97kh9ikh9hki9hkh9qkh9kkh9hkh9hkm9hkk9hkh9hkh9hkh",
   "9jkh9ikh9hki9hkh9hkh9hkh9hkh9hkh9ikh9hki9kkh9nkh9kkh9kkh9hkh9qkh9xkl9jkh9lkh9xkB09iyIu9Bs1k9",
   "Dk1s9v1i9v1h9v1h9Bl1q9tqFh1B4991t9Bs1k9p1n9i1u9m1E69H71l0W41k9x1j9t1j9D31k9C-1m9s1k9h1v9s1k9",
   "B41o9q1m9Bo1o9+1i9s1k9i1B+9K01s9u1i9t1j9q1l9B41n9v1i9r1m9p1n9Ez1h9C81qoBAm9BJXgkBg9EB6km9G+k",
   "i9FUiku9HJxkv9TukCNi9Q+kBPi9Earkl9EDgkVXCx9h6+9Dg6Eg9HwlBfQw9Bff+8i9Bff+8i9"]

/-- The category of a character. -/
def of (c : Char) : GeneralCategory := all[table.lookup c]?.getD unassigned

/-- The names of single categories and of groups, with what they stand for.
    Surrogates are no characters and have no name here. -/
def names : List (List String × List GeneralCategory) :=
  [(["lu", "uppercaseletter"], [uppercaseLetter]),
   (["ll", "lowercaseletter"], [lowercaseLetter]),
   (["lt", "titlecaseletter"], [titlecaseLetter]),
   (["lm", "modifierletter"], [modifierLetter]),
   (["lo", "otherletter"], [otherLetter]),
   (["mn", "nonspacingmark"], [nonspacingMark]),
   (["mc", "spacingmark"], [spacingMark]),
   (["me", "enclosingmark"], [enclosingMark]),
   (["nd", "decimalnumber", "digit"], [decimalNumber]),
   (["nl", "letternumber"], [letterNumber]),
   (["no", "othernumber"], [otherNumber]),
   (["pc", "connectorpunctuation"], [connectorPunctuation]),
   (["pd", "dashpunctuation"], [dashPunctuation]),
   (["ps", "openpunctuation"], [openPunctuation]),
   (["pe", "closepunctuation"], [closePunctuation]),
   (["pi", "initialpunctuation"], [initialPunctuation]),
   (["pf", "finalpunctuation"], [finalPunctuation]),
   (["po", "otherpunctuation"], [otherPunctuation]),
   (["sm", "mathsymbol"], [mathSymbol]),
   (["sc", "currencysymbol"], [currencySymbol]),
   (["sk", "modifiersymbol"], [modifierSymbol]),
   (["so", "othersymbol"], [otherSymbol]),
   (["zs", "spaceseparator"], [spaceSeparator]),
   (["zl", "lineseparator"], [lineSeparator]),
   (["zp", "paragraphseparator"], [paragraphSeparator]),
   (["cc", "control", "cntrl"], [control]),
   (["cf", "format"], [format]),
   (["co", "privateuse"], [privateUse]),
   (["cn", "unassigned"], [unassigned]),
   (["l", "letter"],
      [uppercaseLetter, lowercaseLetter, titlecaseLetter, modifierLetter, otherLetter]),
   (["lc", "casedletter"],
      [uppercaseLetter, lowercaseLetter, titlecaseLetter]),
   (["m", "mark", "combiningmark"],
      [nonspacingMark, spacingMark, enclosingMark]),
   (["n", "number"],
      [decimalNumber, letterNumber, otherNumber]),
   (["p", "punctuation", "punct"],
      [connectorPunctuation, dashPunctuation, openPunctuation, closePunctuation,
       initialPunctuation, finalPunctuation, otherPunctuation]),
   (["s", "symbol"],
      [mathSymbol, currencySymbol, modifierSymbol, otherSymbol]),
   (["z", "separator"],
      [spaceSeparator, lineSeparator, paragraphSeparator]),
   (["c", "other"],
      [control, format, privateUse, unassigned])]

/-- The categories that a name in loose spelling stands for. -/
def named? (name : String) : Option (List GeneralCategory) :=
  (names.find? fun entry => entry.1.contains name).map Prod.snd

end GeneralCategory

end ValueGraph.Unicode
