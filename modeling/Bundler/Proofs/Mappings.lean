import Mathlib.Tactic.Lemma
import Bundler.Value.Overlay

/-!
# Laws of mappings

Keys that name the same entry are an equivalence. A write shows at its own key and nowhere else, and
keeps the keys in place. Entries are laid over a mapping one after another.
-/

namespace Bundler

@[simp] lemma Scalar.same_self (a : Scalar) : a.same a = true := by simp [Scalar.same]

lemma Scalar.same_comm (a b : Scalar) : a.same b = b.same a := by
  simp only [Scalar.same]; exact Bool.beq_comm

lemma Scalar.same_trans {a b c : Scalar} (h : a.same b = true) (h' : b.same c = true) :
    a.same c = true := by
  simp only [Scalar.same, beq_iff_eq] at *
  rw [h, h']

namespace Mapping

@[simp] lemma get?_nil (key : Scalar) : get? [] key = none := rfl

lemma get?_cons (e : Scalar × Value) (m : Mapping) (key : Scalar) :
    get? (e :: m) key = if e.1.same key then some e.2 else get? m key := by
  by_cases h : e.1.same key = true <;> simp [get?, h]

/-- Looking a key up after a write finds what was written under the same key. -/
lemma get?_insert (m : Mapping) (key : Scalar) (value : Value) (other : Scalar) :
    get? (insert m key value) other =
      if key.same other then some value else get? m other := by
  induction m with
  | nil => simp [insert, get?_cons]
  | cons e m ih =>
    by_cases h : e.1.same key = true
    · rw [insert, if_pos h, get?_cons, get?_cons]
      have : e.1.same other = key.same other := by
        rw [Bool.eq_iff_iff]
        exact ⟨Scalar.same_trans (Scalar.same_comm .. ▸ h), Scalar.same_trans h⟩
      simp only [this]
      split <;> simp_all
    · rw [insert, if_neg h, get?_cons, get?_cons, ih]
      by_cases ho : e.1.same other = true
      · have : key.same other = false := by
          rw [Bool.eq_false_iff]
          exact fun hk => h (Scalar.same_trans ho (Scalar.same_comm .. ▸ hk))
        simp [ho, this]
      · simp [ho]

/-- A key is present exactly if it has a value. -/
lemma contains_eq_isSome (m : Mapping) (key : Scalar) :
    contains m key = (get? m key).isSome := by
  induction m with
  | nil => rfl
  | cons e m ih =>
    rw [get?_cons]
    simp only [contains, List.any_cons] at ih ⊢
    by_cases h : e.1.same key = true <;> simp [h, ih]

/-- A write keeps the keys in place and adds a new one at the end. -/
lemma keys_insert (m : Mapping) (key : Scalar) (value : Value) :
    keys (insert m key value) = if contains m key then keys m else keys m ++ [key] := by
  induction m with
  | nil => rfl
  | cons e m ih =>
    by_cases h : e.1.same key = true
    · simp [insert, contains, keys, h]
    · have hc : contains (e :: m) key = contains m key := by simp [contains, h]
      rw [insert, if_neg h, hc]
      simp only [keys, List.map_cons] at ih ⊢
      rw [ih]
      split <;> simp

@[simp] lemma overlay_nil (base : Mapping) : overlay base [] = base := by
  simp [overlay, Value.overlayEntries]

/-- Entries are laid over a mapping one after another. -/
lemma overlay_cons (base : Mapping) (key : Scalar) (value : Value) (entries : Mapping) :
    overlay base ((key, value) :: entries) =
      overlay (insert base key (((get? base key).map (Value.overlay · value)).getD value)) entries := by
  rw [overlay, overlay, Value.overlayEntries]
  cases get? base key <;> rfl

end Mapping

end Bundler
