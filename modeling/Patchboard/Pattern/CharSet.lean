import Patchboard.Pattern.CaseFold
import Patchboard.Pattern.Script

set_option autoImplicit false

namespace Patchboard.Pattern

inductive CharSet where
  | empty
  | range (lo hi : Char)
  | within (table : Unicode.Ranges)
  | union (a b : CharSet)
  | inter (a b : CharSet)
  | minus (a b : CharSet)
  | either (a b : CharSet)
  | complement (a : CharSet)
  /-- The characters that differ from a member only in case. -/
  | caseless (a : CharSet)
  /-- The same for the ASCII letters alone. -/
  | caselessAscii (a : CharSet)
deriving Inhabited

namespace CharSet

def flipAscii (c : Char) : Char := if c.isUpper then c.toLower else c.toUpper

def mem : CharSet → Char → Bool
  | .empty, _ => false
  | .range lo hi, c => lo ≤ c && c ≤ hi
  | .within table, c => Unicode.inRanges table c
  | .union a b, c => a.mem c || b.mem c
  | .inter a b, c => a.mem c && b.mem c
  | .minus a b, c => a.mem c && !b.mem c
  | .either a b, c => a.mem c != b.mem c
  | .complement a, c => !a.mem c
  | .caseless a, c => (CaseFold.alike c).any a.mem
  | .caselessAscii a, c => a.mem c || a.mem (flipAscii c)

def single (c : Char) : CharSet := .range c c

def unions (sets : List CharSet) : CharSet := sets.foldl .union .empty

def any : CharSet := .complement .empty

def digit : CharSet := .within Unicode.digitTable

def space : CharSet := .within Text.blankRanges

def word : CharSet := .within Unicode.wordTable

def asciiDigit : CharSet := .range '0' '9'

def asciiUpper : CharSet := .range 'A' 'Z'

def asciiLower : CharSet := .range 'a' 'z'

def asciiAlpha : CharSet := .union asciiUpper asciiLower

def asciiAlnum : CharSet := .union asciiAlpha asciiDigit

def asciiWord : CharSet := .union asciiAlnum (single '_')

def asciiSpace : CharSet := .union (.range '\t' '\r') (single ' ')

def asciiPunct : CharSet :=
  .minus (.range '!' '~') asciiAlnum

def asciiClass? (name : String) : Option CharSet :=
  match name with
  | "alnum" => some asciiAlnum
  | "alpha" => some asciiAlpha
  | "ascii" => some (.range '\x00' '\x7f')
  | "blank" => some (.union (single '\t') (single ' '))
  | "cntrl" => some (.union (.range '\x00' '\x1f') (single '\x7f'))
  | "digit" => some asciiDigit
  | "graph" => some (.range '!' '~')
  | "lower" => some asciiLower
  | "print" => some (.range ' ' '~')
  | "punct" => some asciiPunct
  | "space" => some asciiSpace
  | "upper" => some asciiUpper
  | "word" => some asciiWord
  | "xdigit" => some (.union asciiDigit (.union (.range 'a' 'f') (.range 'A' 'F')))
  | _ => none

/-- Property names are compared without case, blanks and separators, and without a leading
`is`. -/
def normalName (name : List Char) : String :=
  let plain := (Text.lowerAscii name).filter fun c =>
    c.toNat < 0x80 && c ≠ ' ' && c ≠ '_' && c ≠ '-'
  match plain with
  | ['i', 's', 'c'] => "isc"
  | 'i' :: 's' :: rest => String.ofList rest
  | _ => String.ofList plain

def named? (properties : List Unicode.Property) (name : String) : Option CharSet :=
  (properties.find? fun p => p.names.contains name).map fun p => .within p.table

def categoryGroup (letter : Char) : CharSet :=
  unions ((Unicode.categories.filter fun p =>
    (p.names.headD "").toList.head? = some letter).map fun p => .within p.table)

def assigned : CharSet := unions (Unicode.categories.map fun p => .within p.table)

def category? (name : String) : Option CharSet :=
  match name with
  | "any" => some any
  | "assigned" => some assigned
  | "ascii" => some (.range '\x00' '\x7f')
  | "l" | "letter" => some (categoryGroup 'l')
  | "lc" | "casedletter" =>
    some (unions (["lu", "ll", "lt"].filterMap (named? Unicode.categories)))
  | "m" | "mark" | "combiningmark" => some (categoryGroup 'm')
  | "n" | "number" => some (categoryGroup 'n')
  | "p" | "punctuation" | "punct" => some (categoryGroup 'p')
  | "s" | "symbol" => some (categoryGroup 's')
  | "z" | "separator" => some (categoryGroup 'z')
  | "c" | "other" => some (.union (.complement assigned) (categoryGroup 'c'))
  | "cn" | "unassigned" => some (.complement assigned)
  | "cs" | "surrogate" => some .empty
  | name => named? Unicode.categories name

def script? (name : String) : Option CharSet := named? Unicode.scripts name

def property? (name : List Char) : Option CharSet :=
  let name := normalName name
  if name = "cf" || name = "sc" || name = "lc" then category? name
  else (named? Unicode.binaryProperties name).or <| (category? name).or (script? name)

def propertyValue? (property value : List Char) : Option CharSet :=
  match normalName property with
  | "gc" | "generalcategory" => category? (normalName value)
  | "sc" | "script" => script? (normalName value)
  | _ => none

end CharSet

end Patchboard.Pattern
