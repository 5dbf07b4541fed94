/-
  Ages: in which version of the character set every character came in.

  Versions are known by their places in `Age.versions`, counted from one; zero
  is the number of characters that are not assigned.
-/
import ValueGraph.Unicode.Runs

namespace ValueGraph.Unicode.Age

/-- The versions, oldest first, in both spellings. -/
def versions : List (List String) :=
  [["1.1", "v11"], ["2.0", "v20"], ["2.1", "v21"], ["3.0", "v30"], ["3.1", "v31"],
   ["3.2", "v32"], ["4.0", "v40"], ["4.1", "v41"], ["5.0", "v50"], ["5.1", "v51"],
   ["5.2", "v52"], ["6.0", "v60"], ["6.1", "v61"], ["6.2", "v62"], ["6.3", "v63"],
   ["7.0", "v70"], ["8.0", "v80"], ["9.0", "v90"], ["10.0", "v100"], ["11.0", "v110"],
   ["12.0", "v120"], ["12.1", "v121"], ["13.0", "v130"], ["14.0", "v140"], ["15.0", "v150"],
   ["15.1", "v151"], ["16.0", "v160"]]

/-- The version in which every code point came in. -/
def table : Runs := .ofPairs
  ["P2hkk+hokhmhnykjnroupC5hlkinBvhhkqhlkxnCmhpkhmonlojnihhktmkqihiqighhjphhhwkgnhhghhhg0hhgBshh",
   "qnhhkimhhhkhhhkhhhkhhhkyhilhmlnkohkshhkCihhkshhkBphhqikimkkB1himihimihimhp8hikohioihmpwmkpwq",
   "irisowhgBmhignhh0Bnhh0hhhkigiwhthgxihotiqhhpphhijoog7hkgh0lhrgknhthwlqhohhpnlqhhhvh4hohhhs6h",
   "lqzhjkjnmohsuhimCohiklhhkvhhk+hinqhlkhnukhg+kjn7kigjn+oyqBxkhmugB7pigj0Burigvrhg8sighshgrzlg",
   "-4hgi4lgh7o4hthwrtmwixh4oyq3r4h0vyhx7thwhrjhhnB1hisyhhrhslhhris5hiqlshwiriphoiphwjhhgohigihi",
   "g2hhgnhhghhjgkhighhhnnhigihigjhhooghhkgihhglhig1hhrizh0ighnhhhnhgmhkgihig2hhgnhhgihhgihhgihi",
   "ghhhglhkgihigjhjghqngkhhghhngvhhqh0qgjhhgnhhnhhhgjhhg2hhgnhhgihhglhigqhhgjhhgjhighhvghhjnigq",
   "hhthnnghxmzhgjhhgohigihig2hhgnhhgihhghnkhigohhqigihigjhngh3ihkgihhgjhiqigrhhnmsqgihhgmhjgjhh",
   "gkhjgihhghhhgihjgihjgjhjgohhojhkglhjgjhhgkhighqmghhughoshonlghwjhh0ohhgjhhg3hhgqhhwlhigh4hqn",
   "hhgjhhgkhngihhgiqhxigh4igihiqigqhngh1oqhyhwihh0ohhgjhhg3hhgqhhglhiginnhhgjhhgkhngihmgh4hhhgi",
   "hipigqhhgiph5sghzhwihh3ohhgjhhg3hhswhhsizhqmhhqhgjhhgkhhshykgjyhhnyhxihiqigqhmqjynqhgh3ikhgy",
   "kjg4khgpkhghkignkjghkkgmkhghkhgokmgqwigjksgB6hkg9hBlgihhghhhgh1ihh1hhhgh1hhm1khh1nhh1jhhghhh",
   "ghhi1ihh1thh1jhiglhhghhhgmhh5hgqhigihitBggCoihgBhihkiqkg7iksmihkhihg1ijknihkhijkhgvkhghqhkio",
   "jqkrisBlgBikhqlkhqikhqnkjqkkmq6kCgqkriqBmhhghtlghtigBnhimiohhhojtC6hlrCkhlrCyhmrnkhoB-khohkh",
   "gkkignkhghkhgkkigBnkhohkhgkkig-khohkhgkkignkhghkhgkkignkhonkhg3kho-khohkhgkkignkhoBnkhozkigi",
   "sio8kjg6omgC1khxigmxighrT2kpr9kjgCxkowngtmh4nmh4pgh43mpg0msgtmhgjmhgimsgC9khnigqkmgqnmgvkh4q",
   "kmgC4kh0ngBqkhqlgCmrqg9niwhgsnkgsnkghnjgBqniglnrgBqoirkg6omgqohrjgioBgn8oigioB-rhg9rigrrmgqr",
   "mgurigvwi3u4BxgCsph4hgi7Btpi4h7BrqjtsqmtB0sogksB4qjgvqjgBzqpyi7lgBr0igj0otogBjrkthziwh1lgDsn",
   "C4onp8qvwkzh4hyhshripE7hhikqC6hmq2higmhigBmhigmhigohhghhhghhhghhhg-higB1hhgvhhguhigmhhgzhigj",
   "hhgphhgBvhhk3hhmmklminiohmnolmhqhgkvnhhmig7hhgloosjgrhhihjjkimkojrhshujwhxhzh4vgyhiknmhokphq",
   "vgB5hikhnhovmhoiphqjrBwhhkhpkqhrixkgC7hpksmHyhumhhhkD5hhkhm+kB0minrosphrrsnwkyhzBlhikj72grh1",
   "gErh0mhnE2hqmCwhokom0hinimhohkC2hiksmioqmonrohqirinwohpqqjrkqqrhszrhshrks4rhwkhhskhis8hhsBjh",
   "hshhhskhjshhhrnhisnhum-hjs4hhsuhhsnokphthqhtis8mkqwmIgkQgmunmonplqkpBpqjwlqlr6wigBgwhgh3Biwj",
   "0swh1owhz50kxv0h1Bvoh4Bvoh4tpjqhrjqkpmqirDronritlgBtohghtlghtigB2oitnghohsughs3opgnohgnohgno",
   "hgnohgnohgnohgnohgnohgBgq4okqiozqhrqtnwiylzl0h1j3r4Big6khgC5ksgG2k6gskk6B4hjkjmhkhhhgC0himig",
   "mhimC+hhmlgBohhqhzh0hgC+hhgwh4kjsl3wo0qi7pgh6wm9hinhgBkhsrhnvm8hinhoByhvmshknBvhh2D3hknDjhin",
   "-hhnGN2kq3CgnUNmh2ooqorhtpx1zl0t3j4BEtkjgykimwkhmskhmjkhmhkpgBwrJsq0gBgqisyqot8qmwhxhtC4rog3",
   "okplqipDrqishxisitswqshtjwhyh0iwmxi0m1i4l1k3j7igi4hgh4hgl4j71gj4i3hwithslqBsoh3jgqrmgB4pogCl",
   "qhyogsqmg8rixi0C0qrghq9rjgCurhgrrkgir-whgB3qpguqigqqigkq8rkwCjr4glr3tqgmsigmsigmspgnshgnshgB",
   "wwkxiwi1k3kgCwxBurigqrmgKdkisg3rkgBxrCAkgGRuhitB7mjrigDqoBmgnhsglhlghk5hhglhhghhhgihhgihhgDs",
   "hwsh4wgLthw4CghigB2hngh4Bglshhmhni4wmqomgkhjqnwix1himinqhhgzhhgkhkgjhhmhhhgEnhighhhgC+himC+h",
   "jgmhigmhigmhigjhjgnhhgnhqgjkhjjhsnhg6nhgznhginhgvnigunBigD7nlgjnkgBtnjgpnCroiwiyhgsqh3jghwBv",
   "gBuqEig9qjgBxqvg8wkg-lhwklpgjz7llgBrwlg+nhghnBkokguoBqgBmlinBmlCwnigqnmgBkykgBkykgBowogB0wrg",
   "hwr4hgv4hgn4hgi4hgr4hgv4hgn4hgi4jgB07sgJ3wpg2wqgow4gm4hgBq4hgp4ClgmnighnhgBsnhginjghnighn2rh",
   "gprB-wogpwBwgzxhgixlglx6pirjghp6qlghqCggB4tkgixitwxigBuxkohgiolgoohgjohg7oi0igjokgpoh0ngpong",
   "BgrBgwBggBnwkgswpgB2rjg9rig7rlgorywngkwsgnwCwgCprB3gBzxtgBzxngmxBo0ogq0mgBm7jg97ogi7Gwg-rhgB",
   "q3hgj3igi3wgj7B3gh7j5Bo0ogBq02g64Bmg830g31pgCuskg+sm4pghwCirh4qgh0ig5tngqtmgB1thgutj0h3ogBnw",
   "pgCptkxhwi3qthwlxhg0wrgywhgBrwhyj5B+gnxhghxhgkxhgvxhgrxmgB7wlgqwmghxjwhgowigiwig2whgnwhgiwhg",
   "lwhgh0pwigiwigjwighxmghwlgnwignwjglwrgq7hgh7igh7hgBm7hgq7hgh7igh7hgk7hgq7hgi7ogi79gC6yh3hyhg",
   "hyh0h1i3+gCowogqwFmgB2wigyw0xBigClwrgqwmgtyzgB4th1h4mgqtmg078g6xh0igvxkgwxn4F5gB80DkgCzwsghw",
   "n3igh3igo3hgi3hg+3hgi3igs3pgq3Cmgo1igBu1igr17gCozogB0zi13zh0lztgw4B5wngq5F2gBi7ugq7mgpyhgBty",
   "hguyqg9yjgBgyig2yhguyCpgnzhgizhgBszjghzhgizhgpzogqzmgm0hgi0hgBl0hgi0hgm0ngq0J2g50ngx5hgBp5jg",
   "85h7C1gh3vgBy1tgh1bvpBqwhxDmgDjpswhgkphwrgGkxCSsgDj4tgBBvrh5p195qgDc77lgSnxGV5gB67BWmgR5sng-",
   "whgqwkgiwCv4hgq4mg+wigmwqgCmwqgqwhgnwhg1wlgzwNwgB67GmgC70DlgCltm1kgh1Bvtp1ngxtCgghyhzi1h3rgi",
   "3ugFftyl0m1ogXzyPj3Bpgh7p3IXngk4hgn4hgi4hgisI9zk4vgh59gj1igh5ugk1ogMszCIkgDrwlgtwjgpwngqwigo",
   "wDa8gH67mgN07CsgBu4ig34pgD04B8gH2lqgBnlighqF0lrxi41gCmoD6g05sg00sgC3npgypn0EngC1lhgCnlhgilig",
   "hligiligklhgslhghlhgklhnilhgChlhgkligolhgnlhg8lhgklhgllhghljgnlhgKylioigJilipigBylUsxvglxhgv",
   "xBCwg-4mgm5G1gnyhgxyignyhgiyhglylgB+5Bhgh5DwgBt1jgu1igq1kgi1Kgg-4xgB61lgh1OwgBq5G2gBr7kgh7Pg",
   "gn4hgk4hgi4hgv4hgGlwigwwBpgCryh1kgqykgiyYxgCk0CsgB91Gigkthg7thgithghtighthgqthgkthghthghtmgh",
   "tkghthghthghthgjthgithghtighthghthghthghthghthgithghtigkthgnthgkthgkthghthgqthgxtlgjthglthgx",
   "tB0gitIugBsqkgDkqsgvsigushwhgvshgvs2wqgrriwj3-rh0hshrrshrhshrishrjshrjslroshrnshrqsith1j3psh",
   "rhsirishrqskrishrqsyyh3B4g6shristgBirpshykgprngisugmzE6gBhsswjxmshwCmshwix0sswBlshwlskwlxswx",
   "snwoxB-shwhshwF2shwksiwhxB+siwktnwlx4sywhyBpwhyC2wlshtwshtjshthshthshthshtjshtmsitkshthsitks",
   "htssiwixrsBwwCmsqwhxiyizh1i3kgh5j4twjgkwjyizh0h1i3jgD0sj5kgl5C1wk0h5mgs1kgh4vgswkgB4wogqwmgB",
   "owog+wigi3q7kgi7B+gszh3j1pxmyhzoyozhyizsyh1syhzj0vytzl0h1h3k0i3h4h0h1k0lxtymzr0i3m1j3i1q0m1h",
   "xi0o1h3h4j13z50C01sgu0igk1h3j5j1i4jgj1k3i5h7lgh7m1z3k4j5n3k4j5h7h5j3j4h7ngi5n3j4i5h7igh7o4h5",
   "h7mgn4i5ngEz3hgB33Bl7q3BAkgiiBJW3ln3i4BggEB1rk4h5mgG+sigFUixugHJxzvgTu6CNigQ+lBPggiiEar3lgED",
   "g5BXCugiiBff+giiBff+giiBff+giiBff+giiBff+giiBff+giiBff+giiBff+giiBff+giiBff+giihghl+gDglEggH",
   "wnBfQugEAAii"]

/-- Whether a character was there in a version. -/
def isAssigned (version : Nat) (c : Char) : Bool :=
  let age := table.lookup c
  0 < age && age ≤ version

/-- The number of the version with this name. -/
def named? (name : String) : Option Nat :=
  (versions.findIdx? fun spellings => spellings.contains name).map (· + 1)

end ValueGraph.Unicode.Age
