import Mathlib.Data.List.Infix

/-!
Upper and lower case of strings as JavaScript maps them, as far as a comparison with
ASCII names or with hexadecimal digits can tell. Outside ASCII only U+212A (the Kelvin
sign) lower-cases to an ASCII letter and only U+0130 to a text that begins with one, and
only U+FB00 upper-cases to hexadecimal digits. Every other character outside ASCII is
left as it is, where JavaScript may take it to a text that holds no such digit alone.
-/
namespace Library.CaseMapping

def lowerChar (c : Char) : List Char :=
  if c = Char.ofNat 0x212A then ['k']
  else if c = Char.ofNat 0x0130 then ['i', Char.ofNat 0x0307]
  else [c.toLower]

def upperChar (c : Char) : List Char :=
  if c = Char.ofNat 0xFB00 then ['F', 'F'] else [c.toUpper]

/-- `String.prototype.toLowerCase`. -/
def toLowerCase (s : String) : String := String.ofList (s.toList.flatMap lowerChar)

/-- `String.prototype.toUpperCase`. -/
def toUpperCase (s : String) : String := String.ofList (s.toList.flatMap upperChar)

/-- A mapping to lower case, of which no more is known than that it keeps the empty text. -/
class LowerCase where
  toLowerCase : String → String
  empty : toLowerCase "" = ""

/-- Where texts are compared with ASCII names alone. -/
instance : LowerCase := ⟨toLowerCase, rfl⟩

/-- `text.endsWith(suffix)`. -/
def endsWith (text suffix : String) : Bool := suffix.toList.isSuffixOf text.toList

/-- `text.indexOf(part) > -1`. -/
def contains (text part : String) : Bool := decide (part.toList <:+: text.toList)

theorem toLowerCase_append (text rest : String) :
    toLowerCase (text ++ rest) = toLowerCase text ++ toLowerCase rest := by
  apply String.toList_injective
  simp only [toLowerCase, String.toList_append, String.toList_ofList, List.flatMap_append]

theorem toUpper_toUpper (c : Char) : c.toUpper.toUpper = c.toUpper := by
  have hlower : ¬('a'.val ≤ c.toUpper.val ∧ c.toUpper.val ≤ 'z'.val) := by
    unfold Char.toUpper
    split <;> grind
  rw [Char.toUpper.eq_def c.toUpper, dif_neg hlower]

/-- Only U+FB00 itself has U+FB00 for its ASCII upper case. -/
theorem toUpper_ne_ligature {c : Char} (h : c ≠ Char.ofNat 0xFB00) :
    c.toUpper ≠ Char.ofNat 0xFB00 := by
  unfold Char.toUpper
  split
  · intro heq
    have hval := congrArg Char.val heq
    simp at hval
    grind
  · exact h

theorem flatMap_upperChar_upperChar (c : Char) :
    (upperChar c).flatMap upperChar = upperChar c := by
  unfold upperChar
  split
  · decide
  · rename_i hligature
    simp [toUpper_ne_ligature hligature, toUpper_toUpper]

theorem toUpperCase_toUpperCase (s : String) :
    toUpperCase (toUpperCase s) = toUpperCase s := by
  unfold toUpperCase
  rw [String.toList_ofList, List.flatMap_assoc]
  simp only [flatMap_upperChar_upperChar]

end Library.CaseMapping
