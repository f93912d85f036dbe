import MemoryAtlas.Regex.LetterCase
import MemoryAtlas.Regex.Script
import MemoryAtlas.Regex.Syntax
import MemoryAtlas.Text.Category

namespace MemoryAtlas
namespace Regex

/-!
Named properties of characters.

A property name is compared without regard to letter case, blanks, hyphens and
underscores, and a leading `is` does not count.  A name alone means a property
that a character has or not, else a general category, else a script.
-/

open Text (Category)

/-- The name in the spelling in which names are compared. -/
def looseName (name : List Char) : List Char :=
  let plain := fun (text : List Char) =>
    (text.filter (fun c => c != ' ' && c != '_' && c != '-' && c.toNat < 128)).map Char.toLower
  match name with
  | a :: b :: rest =>
    if (a == 'i' || a == 'I') && (b == 's' || b == 'S') then
      let short := plain rest
      if short == ['c'] then ['i', 's', 'c'] else short
    else plain name
  | _ => plain name

/-- The groups of general categories by their compared names. -/
def categoryGroups : List (List String × List Category) :=
  let letters : List Category := [.lu, .ll, .lt, .lm, .lo]
  let marks : List Category := [.mn, .mc, .me]
  let numbers : List Category := [.nd, .nl, .no]
  let punctuation : List Category := [.pc, .pd, .ps, .pe, .pi, .pf, .po]
  let symbols : List Category := [.sm, .sc, .sk, .so]
  let separators : List Category := [.zs, .zl, .zp]
  let others : List Category := [.cc, .cf, .cs, .co, .cn]
  [(["any"], letters ++ marks ++ numbers ++ punctuation ++ symbols ++ separators ++ others),
   (["assigned"],
     letters ++ marks ++ numbers ++ punctuation ++ symbols ++ separators ++ [.cc, .cf, .cs, .co]),
   (["c", "other"], others),
   (["cc", "control", "cntrl"], [.cc]),
   (["cf", "format"], [.cf]),
   (["cn", "unassigned"], [.cn]),
   (["co", "privateuse"], [.co]),
   (["l", "letter"], letters),
   (["lc", "casedletter"], [.lu, .ll, .lt]),
   (["ll", "lowercaseletter"], [.ll]),
   (["lm", "modifierletter"], [.lm]),
   (["lo", "otherletter"], [.lo]),
   (["lt", "titlecaseletter"], [.lt]),
   (["lu", "uppercaseletter"], [.lu]),
   (["m", "mark", "combiningmark"], marks),
   (["mc", "spacingmark"], [.mc]),
   (["me", "enclosingmark"], [.me]),
   (["mn", "nonspacingmark"], [.mn]),
   (["n", "number"], numbers),
   (["nd", "decimalnumber", "digit"], [.nd]),
   (["nl", "letternumber"], [.nl]),
   (["no", "othernumber"], [.no]),
   (["p", "punctuation", "punct"], punctuation),
   (["pc", "connectorpunctuation"], [.pc]),
   (["pd", "dashpunctuation"], [.pd]),
   (["pe", "closepunctuation"], [.pe]),
   (["pf", "finalpunctuation"], [.pf]),
   (["pi", "initialpunctuation"], [.pi]),
   (["po", "otherpunctuation"], [.po]),
   (["ps", "openpunctuation"], [.ps]),
   (["s", "symbol"], symbols),
   (["sc", "currencysymbol"], [.sc]),
   (["sk", "modifiersymbol"], [.sk]),
   (["sm", "mathsymbol"], [.sm]),
   (["so", "othersymbol"], [.so]),
   (["z", "separator"], separators),
   (["zl", "lineseparator"], [.zl]),
   (["zp", "paragraphseparator"], [.zp]),
   (["zs", "spaceseparator"], [.zs])]

/-- The characters of a group of categories. -/
def categoryTest? (name : String) : Option (Char -> Bool) :=
  if name == "ascii" then some (fun c => c.toNat < 128)
  else
    (categoryGroups.find? (fun g => g.1.contains name)).map
      (fun g => fun c => g.2.contains (Text.category c))

/-- The characters of a script. -/
def scriptTest? (name : String) : Option (Char -> Bool) :=
  match scriptNames.find? (fun names => (names.map looseName).contains name.toList) with
  | some (code :: _) => some (fun c => scriptOf c == code)
  | _ => none

/-- The lower-case characters that are not lower-case letters. -/
def otherLowercase : List (Nat × Nat) :=
  [(0xAA, 0xAA), (0xBA, 0xBA), (0x2B0, 0x2B8), (0x2C0, 0x2C1), (0x2E0, 0x2E4), (0x345, 0x345),
   (0x37A, 0x37A), (0x10FC, 0x10FC), (0x1D2C, 0x1D6A), (0x1D78, 0x1D78), (0x1D9B, 0x1DBF),
   (0x2071, 0x2071), (0x207F, 0x207F), (0x2090, 0x209C), (0x2170, 0x217F), (0x24D0, 0x24E9),
   (0x2C7C, 0x2C7D), (0xA69C, 0xA69D), (0xA770, 0xA770), (0xA7F2, 0xA7F4), (0xA7F8, 0xA7F9),
   (0xAB5C, 0xAB5F), (0xAB69, 0xAB69), (0x10780, 0x10780), (0x10783, 0x10785),
   (0x10787, 0x107B0), (0x107B2, 0x107BA), (0x1E030, 0x1E06D)]

/-- The upper-case characters that are not upper-case letters. -/
def otherUppercase : List (Nat × Nat) :=
  [(0x2160, 0x216F), (0x24B6, 0x24CF), (0x1F130, 0x1F149), (0x1F150, 0x1F169), (0x1F170, 0x1F189)]

/-- The properties that a character has or has not. -/
def flagTest? (name : String) : Option (Char -> Bool) :=
  match name with
  | "alphabetic" | "alpha" =>
    some (fun c =>
      let k := Text.category c
      k.isLetter || k == .nl || Text.inRanges Text.alphabeticSymbols c.toNat)
  | "lowercase" | "lower" =>
    some (fun c => Text.category c == .ll || Text.inRanges otherLowercase c.toNat)
  | "uppercase" | "upper" =>
    some (fun c => Text.category c == .lu || Text.inRanges otherUppercase c.toNat)
  | "whitespace" | "wspace" | "space" => some Text.isBlank
  | "asciihexdigit" | "ahex" => some (fun c => c.isDigit || ('a' <= c && c <= 'f') || ('A' <= c && c <= 'F'))
  | "joincontrol" | "joinc" => some (fun c => c.toNat == 0x200C || c.toNat == 0x200D)
  | "graphemeextend" | "grext" => some Text.isExtender
  | _ => none

/-- The characters that a property query asks for. -/
def propertyTest? : PropertyQuery -> Option (Char -> Bool)
  | .letter c => named [c]
  | .named name => named name
  | .valued equal name value =>
    let test? :=
      match String.ofList (looseName name) with
      | "generalcategory" | "gc" => categoryTest? (String.ofList (looseName value))
      | "script" | "sc" => scriptTest? (String.ofList (looseName value))
      | _ => none
    test?.map (fun test => fun c => test c == equal)
where
  /-- A property, category or script of the given name. -/
  named (name : List Char) : Option (Char -> Bool) :=
    let name := String.ofList (looseName name)
    ((flagTest? name).orElse (fun _ => categoryTest? name)).orElse (fun _ => scriptTest? name)

end Regex
end MemoryAtlas
