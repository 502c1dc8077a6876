import Bundler.Failure

/-!
# Access to the parts of a value

`Value.item` gives the part of a value at a key: the value of a key of a mapping, an item of a list
or a character of a text by its number. `Value.assign` changes a part at the end of a path of keys.
-/

namespace Bundler

namespace Value

/-- The number that a key is. -/
def number? : Value → Option Int
  | .int n => some n
  | .bool b => some (if b then 1 else 0)
  | _ => none

/-- The place in a list of a number; numbers below zero count from the end. -/
def place (length : Nat) (n : Int) : Except Failure Nat :=
  let m := if n < 0 then n + length else n
  if 0 ≤ m ∧ m < length then .ok m.toNat else .error .noSuchItem

/-- The part of a value at a key. -/
def item (v key : Value) : Except Failure Value :=
  match v, key with
  | .mapping m, .scalar key => match Mapping.get? m key with
    | some v => .ok v
    | none => .error (.missingKey key.shown)
  | .list items, key => match key.number? with
    | some n => do .ok (items.getD (← place items.length n) .null)
    | none => .error (.unsuitable ("a list has no item " ++ key.quoted))
  | .text s, key => match key.number? with
    | some n => do .ok (.text (String.ofList [s.toList.getD (← place s.length n) ' ']))
    | none => .error (.unsuitable ("a text has no item " ++ key.quoted))
  | v, _ => .error (.unsuitable (v.typeName ++ " has no item of this key"))

/-- The value with another part at a key. -/
def setItem (v key part : Value) : Except Failure Value :=
  match v, key with
  | .mapping m, .scalar key => .ok (.mapping (Mapping.insert m key part))
  | .list items, key => match key.number? with
    | some n => do .ok (.list (items.set (← place items.length n) part))
    | none => .error (.unsuitable ("a list has no item " ++ key.quoted))
  | v, _ => .error (.unsuitable (v.typeName ++ " has no items that change"))

/-- The value with another part at the end of a path of keys. -/
def assign (v : Value) : List Value → Value → Except Failure Value
  | [], _ => .error .noSuchItem
  | [key], part => v.setItem key part
  | key :: keys, part => do
    let inner ← assign (← v.item key) keys part
    v.setItem key inner

end Value

end Bundler
