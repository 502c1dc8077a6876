import Bundler.Value.Mapping

/-!
# Overlays

A mapping laid over another one adds its keys and replaces the values that are there; where both
have a mapping, the two are merged in the same way. Lists are replaced as a whole.
-/

namespace Bundler

mutual

/-- The value that results where `top` is laid over `base`. -/
def Value.overlay (base top : Value) : Value :=
  match top with
  | .mapping entries =>
    match base with
    | .mapping m => .mapping (Value.overlayEntries m entries)
    | _ => .mapping entries
  | top => top

/-- The mapping that results from laying some entries over `base` in order. -/
def Value.overlayEntries (base : Mapping) : List (Scalar × Value) → Mapping
  | [] => base
  | (key, value) :: entries =>
    let value := match Mapping.get? base key with
      | some old => Value.overlay old value
      | none => value
    Value.overlayEntries (Mapping.insert base key value) entries

end

namespace Mapping

/-- The mapping that results from laying `top` over `base`. -/
def overlay (base top : Mapping) : Mapping := Value.overlayEntries base top

end Mapping

end Bundler
