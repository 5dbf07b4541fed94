/-
  Case variants: the characters that differ from a character in case only.

  Variants are told by simple case folding, which takes one character to one
  character: sharp s and its capital are variants, sharp s and a double s are
  not.

  * `caseVariants` gives all variants of a character, itself included.
-/
import ValueGraph.Unicode.Runs

namespace ValueGraph.Unicode

/-- The classes of variants with more than one member: for each, how many
    members it has, how far its first member is from that of the class before,
    and how far each further member is from the one before. -/
def variantText : List String :=
  ["iChBgihBgihBgihBgihBgihBgihBgihBgihBgihBgjhBgIF-ihBgihBgihBgihBgihBgihBgihBgjhBgIsihBgihBgih",
   "BgihBgihBgihBgihBgjC7XnBgirBgihBgihBgihBgihBgjhBgICmihBgihBgihBgihBgihBgihBgihBgihBgihBgihBg",
   "ihBgihBgihBgihBgihBgihBgihBgiiBgihBgihBgihBgihBgihBgihBgihHN-iBgD5ihhiihiihiihiihiihiihiihii",
   "hiihiihiihiihiihiihiihiihiihiihiihiihiihiihiihikhiihiihijhiihiihiihiihiihiihiihijhiihiihiihi",
   "ihiihiihiihiihiihiihiihiihiihiihiihiihiihiihiihiihiihiihijhiihiihijGjihGyihhiihiiGuihhiiGtih",
   "GtihhijCvihGqihGrihhiiGtihGvihDhihGzihGxihhiiFjihBJShihGzihG1ihEiihG2ihhiihiihiiG6ihhiiG6ijh",
   "iiG6ihhiiG5ihG5ihhiihiiG7ihhikhijB4jlhhjjhhjjhhijhiihiihiihiihiihiihiihijhiihiihiihiihiihiih",
   "iihiihjjhhijhikhiihiihiihiihiihiihiihiihiihiihiihiihiihiihiihiihiihiihiihikhiihiihiihiihiihi",
   "ihiihiihioKRrihhijKRoihKR-ihKR-ihhijClihCnihhiihiihiihiihiiKQ-ihKQ8ihKQ+iqBJKvilBJKrijBJLnih",
   "BJJoihBJKkikBJKkihKP3ihBJKhilKP9isKPnilBJKjilBJJqi2BJI1ihBJIykFnC0BgHAliBrhiihikhilEiihEiihE",
   "iiiD0inBmiiBlihBlihBliiCgiiB-ihB-ihHCjihBgjhBg+ihBgihBgjhBgCgihBgihBgkhBg5BjjiBgB2ihBgiiBgih",
   "BgihBgjhBg2jhBgBwji-hihBgihBgjhBgvihBgihBgjhBgHK9ihBgihBgilHBzi-oiphiihiihiihiihiihiihiihiih",
   "iihiihiihiknilhijhimCwihCwihCwihCwihCwihCwihCwihCwihCwihCwihCwihCwihCwihCwihCwihCwihBgihBgjh",
   "BgGCuihBgjhBgGCtihBgihBgihBgihBgihBgihBgihBgihBgihBgjhBgGCkihBgihBgjhBgGCikhBgGCihihBgihBgih",
   "BgihBgihBgihBgihBgjhBgGB8ihBgihBgihBgihBgihBgiBxhjihGBkiihiihiihiihiihiihiihiihiihiihiihiihi",
   "ihiihiihiqhiihiihiihiihiihiihiihiihiihiihiihiihiihiihiihiihiihiihiihiihiihiihiihiihiihiihiiv",
   "ihhiihiihiihiihiihiihijhiihiihiihiihiihiihiihiihiihiihiihiihiihiihiihiihiihiihiihiihiihiihii",
   "hiihiihiihiihiihiihiihiihiihiihiihiihiihiihiihiihiihiihiihiihiihiihiihiihijBwihBwihBwihBwihB",
   "wihBwihBwihBwihBwihBwihBwihBwihBwihBwihBwihBwihBwihBwihBwihBwihBwihBwihBwihBwihBwihBwihBwihB",
   "wihBwihBwihBwihBwihBwihBwihBwihBwihBwihBwiCaqHDgihHDgihHDgihHDgihHDgihHDgihHDgihHDgihHDgihHD",
   "gihHDgihHDgihHDgihHDgihHDgihHDgihHDgihHDgihHDgihHDgihHDgihHDgihHDgihHDgihHDgihHDgihHDgihHDgi",
   "hHDgihHDgihHDgihHDgihHDgihHDgihHDgihHDgihHDgihHDgiiHDgimHDgijCegihCegihCegihCegihCegihCegihC",
   "egihCegihCegihCegihCegihCegihCegihCegihCegihCegihCegihCegihCegihCegihCegihCegihCegihCegihCeg",
   "ihCegihCegihCegihCegihCegihCegihCegihCegihCegihCegihCegihCegihCegihCegihCegihCegihCegihCegij",
   "CegihCegihCegiVhBFewihBFewihBFewihBFewihBFewihBFewihBFewihBFewihBFewihBFewihBFewihBFewihBFew",
   "ihBFewihBFewihBFewihBFewihBFewihBFewihBFewihBFewihBFewihBFewihBFewihBFewihBFewihBFewihBFewih",
   "BFewihBFewihBFewihBFewihBFewihBFewihBFewihBFewihBFewihBFewihBFewihBFewihBFewihBFewihBFewihBF",
   "ewihBFewihBFewihBFewihBFewihBFewihBFewihBFewihBFewihBFewihBFewihBFewihBFewihBFewihBFewihBFew",
   "ihBFewihBFewihBFewihBFewihBFewihBFewihBFewihBFewihBFewihBFewihBFewihBFewihBFewihBFewihBFewih",
   "BFewihBFewihBFewihBFewihBFewihBFewihoihoihoihoihoihojCEzBCOihihhiHwBCQkikDXmixBCR4iDyhiihiih",
   "iihiihiihiihiihiihiihiihiihiihiihiihiihiihiihiihiihiihiihiihiihiihiihiihiihiihiihiihiihiihii",
   "hiihiihiihiihiihiihiihiihiihiihiihiihiihiihjihB6iihiihiihiihiihiihiihiihiihiihiihiihiihiihii",
   "hiihiihiihiihiihiihiihiihiihiihiihishiihiihiihiihiihiihiihiihiihiihiihiihiihiihiihiihiihiihi",
   "ihiihiihiihiihiihiihiihiihiihiihiihiihiihiihiihiihiihiihiihiihiihiihiihiihiihiihiihiihiioiho",
   "ihoihoihoihoihoihoipoihoihoihoihoihoiroihoihoihoihoihoihoihoipoihoihoihoihoihoihoihoipoihoih",
   "oihoihoihoisoiioiioiioipoihoihoihoihoihoihoihoipCqihCqihC2ihC2ihC2ihC2ihDkihDkihEgihEgihDwih",
   "DwihD+ihD+ijoihoihoihoihoihoihoihoipoihoihoihoihoihoihoihoipoihoihoihoihoihoihoihoipoihoiipi",
   "wpitoihoivoihoikniupiJ-8iBuwihwihwihwihwihwihwihwihwihwihwihwihwihwihwihwi0hiZz6ih6ih6ih6ih6",
   "ih6ih6ih6ih6ih6ih6ih6ih6ih6ih6ih6ih6ih6ih6ih6ih6ih6ih6ih6ih6ih6iBZxBwihBwihBwihBwihBwihBwihB",
   "wihBwihBwihBwihBwihBwihBwihBwihBwihBwihBwihBwihBwihBwihBwihBwihBwihBwihBwihBwihBwihBwihBwihB",
   "wihBwihBwihBwihBwihBwihBwihBwihBwihBwihBwihBwihBwihBwihBwihBwihBwihBwihBwiBxhinhiihiihinhijh",
   "irhiihiihiihiihiihiihiihiihiihiihiihiihiihiihiihiihiihiihiihiihiihiihiihiihiihiihiihiihiihii",
   "hiihiihiihiihiihiihiihiihiihiihiihiihiihiihiihiihiihiihiihiphiihilhieKuhiihiihiihiihikhiihii",
   "hiihiihiihiihiihiihiihiihiihiihiihiihiihiihi0hiihiihiihiihiihiihiihiihiihiihiihiihiihiEohiih",
   "iihiihiihiihiihikhiihiihiihiihiihiihiihiihiihiihiihiihiihiihiihiihiihiihiihiihiihiihiihiihii",
   "hiihiihiihiihiihirhiihijhiihiihiihiihilhilhiihiiBwiihiihiihiihiihiihiihiihiihiihirdgihhiihii",
   "hiihiihiihiihiihilhiihijhikhimhiihiihi7hiUYwhiBA8BgihBgihBgihBgihBgihBgihBgihBgihBgihBgihBgi",
   "hBgihBgihBgihBgihBgihBgihBgihBgihBgihBgihBgihBgihBgihBgihBgiBGmBoihBoihBoihBoihBoihBoihBoihB",
   "oihBoihBoihBoihBoihBoihBoihBoihBoihBoihBoihBoihBoihBoihBoihBoihBoihBoihBoihBoihBoihBoihBoihB",
   "oihBoihBoihBoihBoihBoihBoihBoihBoihBoiEpBoihBoihBoihBoihBoihBoihBoihBoihBoihBoihBoihBoihBoih",
   "BoihBoihBoihBoihBoihBoihBoihBoihBoihBoihBoihBoihBoihBoihBoihBoihBoihBoihBoihBoihBoihBoihBoiE",
   "9BnihBnihBnihBnihBnihBnihBnihBnihBnihBnihBniiBnihBnihBnihBnihBnihBnihBnihBnihBnihBnihBnihBni",
   "hBnihBnihBniiBnihBnihBnihBnihBnihBnihBniiBnihBniBXrCgihCgihCgihCgihCgihCgihCgihCgihCgihCgihC",
   "gihCgihCgihCgihCgihCgihCgihCgihCgihCgihCgihCgihCgihCgihCgihCgihCgihCgihCgihCgihCgihCgihCgihC",
   "gihCgihCgihCgihCgihCgihCgihCgihCgihCgihCgihCgihCgihCgihCgihCgihCgihCgiE+BgihBgihBgihBgihBgih",
   "BgihBgihBgihBgihBgihBgihBgihBgihBgihBgihBgihBgihBgihBgihBgihBgihBgiCZ7BgihBgihBgihBgihBgihBg",
   "ihBgihBgihBgihBgihBgihBgihBgihBgihBgihBgihBgihBgihBgihBgihBgihBgihBgihBgihBgihBgihBgihBgihBg",
   "ihBgihBgihBgiVMhBgihBgihBgihBgihBgihBgihBgihBgihBgihBgihBgihBgihBgihBgihBgihBgihBgihBgihBgih",
   "BgihBgihBgihBgihBgihBgihBgihBgihBgihBgihBgihBgihBgieVhBiihBiihBiihBiihBiihBiihBiihBiihBiihBi",
   "ihBiihBiihBiihBiihBiihBiihBiihBiihBiihBiihBiihBiihBiihBiihBiihBiihBiihBiihBiihBiihBiihBiihBi",
   "ihBi"]

/-- The members of a class after one of them, from the distances. -/
def membersFrom (code : Nat) : List Nat → List Nat
  | [] => []
  | distance :: distances => (code + distance) :: membersFrom (code + distance) distances

/-- The classes that a list of numbers describes; `fuel` bounds their count. -/
def classesFrom (first : Nat) : (fuel : Nat) → List Nat → List (List Nat)
  | fuel + 1, count :: distance :: rest =>
    let code := first + distance
    (code :: membersFrom code (rest.take (count - 1))) ::
      classesFrom code fuel (rest.drop (count - 1))
  | _, _ => []

/-- The classes of variants with more than one member. -/
def variantClasses : Array (List Nat) :=
  let ns := Runs.numbers 0 (variantText.flatMap String.toList)
  (classesFrom 0 ns.length ns).toArray

/-- For every code point the number of its class, counted from one, or zero. -/
def variantTable : Runs :=
  let members := variantClasses.toList.zipIdx.flatMap fun entry =>
    entry.1.map fun code => (code, entry.2 + 1)
  let sorted := members.mergeSort fun a b => a.1 ≤ b.1
  ⟨(sorted.flatMap fun m => [m.1, m.1 + 1]).toArray, (sorted.flatMap fun m => [0, m.2]).toArray⟩

/-- The characters that differ from `c` in case only, and `c` itself. -/
def caseVariants (c : Char) : List Char :=
  match variantTable.lookup c with
  | 0 => [c]
  | number + 1 => (variantClasses[number]?.getD []).map Char.ofNat

end ValueGraph.Unicode
