import Bundler.Value.Mapping

/-!
# Equality of values

Two values are equal if their scalars name the same key; the order of the entries of a mapping and
of the members of a set does not count.
-/

namespace Bundler

mutual

/-- Whether two values are equal. -/
def Value.equals : Value → Value → Bool
  | .scalar s, .scalar t => s.same t
  | .list xs, .list ys => Value.equalsItems xs ys
  | .tuple xs, .tuple ys => Value.equalsItems xs ys
  | .set ss, .set ts => ss.length == ts.length && ss.all fun s => ts.any (·.same s)
  | .mapping es, .mapping m => es.length == m.length && Value.equalsEntries es m
  | _, _ => false

/-- Whether the items of two lists are equal in order. -/
def Value.equalsItems : List Value → List Value → Bool
  | [], [] => true
  | x :: xs, y :: ys => x.equals y && Value.equalsItems xs ys
  | _, _ => false

/-- Whether a mapping holds an equal value at the key of each entry. -/
def Value.equalsEntries : List (Scalar × Value) → Mapping → Bool
  | [], _ => true
  | (key, value) :: es, m =>
    ((Mapping.get? m key).any fun other => value.equals other) && Value.equalsEntries es m

end

end Bundler
