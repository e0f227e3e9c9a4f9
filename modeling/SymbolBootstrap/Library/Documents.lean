import Mathlib.Data.Rat.Defs

/-!
YAML documents as JavaScript holds them once loaded: trees of scalars, strings, dates,
binaries (arrays of bytes), arrays and objects. The fields of an object stand in the order in
which they were set. An array has its items and, when an object was merged into it, named fields
as well.
-/
namespace Library.Documents

/-- The scalars other than strings. -/
inductive Scalar
  | undefined
  | null
  | bool (value : Bool)
  | number (value : ℚ)
  | nan
  | infinity (negative : Bool)
deriving DecidableEq, Repr

inductive Value
  | scalar (value : Scalar)
  | date (time : ℤ)
  | binary (bytes : List UInt8)
  | str (text : String)
  | array (items : List Value) (named : List (String × Value))
  | object (fields : List (String × Value))

abbrev Fields := List (String × Value)

namespace Value

def undefined : Value := .scalar .undefined

def bool (value : Bool) : Value := .scalar (.bool value)

def number (value : ℚ) : Value := .scalar (.number value)

/-- Whether a test such as `if (value)` or `value || other` takes the value. -/
def truthy : Value → Bool
  | .scalar .undefined => false
  | .scalar .null => false
  | .scalar (.bool value) => value
  | .scalar (.number value) => value ≠ 0
  | .scalar .nan => false
  | .scalar (.infinity _) => true
  | .str text => text ≠ ""
  | .date _ => true
  | .binary _ => true
  | .array _ _ => true
  | .object _ => true

end Value

/-- The items of an array under the names of their indices. -/
def indexed (start : ℕ) : List Value → Fields
  | [] => []
  | item :: rest => (toString start, item) :: indexed (start + 1) rest

/-- The bytes of a binary, read as the items of an array. -/
def byteItems (bytes : List UInt8) : List Value := bytes.map fun byte => .number byte.toNat

/-- The own fields of a binary. -/
def byteFields (bytes : List UInt8) : Fields := indexed 0 (byteItems bytes)

/-- The fields of a binary are numbers, one after the other. -/
theorem byteFields_induction {motive : Fields → Prop} (nil : motive [])
    (number : ∀ name value rest, motive rest → motive ((name, .number value) :: rest))
    (bytes : List UInt8) : motive (byteFields bytes) := by
  have hindexed : ∀ start, motive (indexed start (byteItems bytes)) := by
    induction bytes with
    | nil => exact fun _ => nil
    | cons byte rest ih => exact fun start => number _ _ _ (ih (start + 1))
  exact hindexed 0

end Library.Documents
