import Mathlib.Tactic.Lemma
import Bundler.InOrder

/-!
# Runs in order

What every step keeps, a run keeps; a run over two lists is one over the first and then over the
second; and a run that fails has a first step that fails. In the same way the images of a list are
the image of its first item and those of the rest.
-/

namespace Bundler

variable {α ε σ : Type}

@[simp] lemma inOrder_nil (step : α → σ → Except ε Unit × σ) (s : σ) :
    inOrder step [] s = (.ok (), s) := rfl

lemma inOrder_cons_ok {step : α → σ → Except ε Unit × σ} {a : α} {s t : σ} (as : List α)
    (h : step a s = (.ok (), t)) : inOrder step (a :: as) s = inOrder step as t := by
  simp [inOrder, h]

lemma inOrder_cons_error {step : α → σ → Except ε Unit × σ} {a : α} {s t : σ} {e : ε}
    (as : List α) (h : step a s = (.error e, t)) : inOrder step (a :: as) s = (.error e, t) := by
  simp [inOrder, h]

/-- A run that succeeds has taken its first item and then the rest. -/
lemma inOrder_cons_eq_ok_iff {step : α → σ → Except ε Unit × σ} {a : α} {as : List α} {s t : σ} :
    inOrder step (a :: as) s = (.ok (), t) ↔
      ∃ m, step a s = (.ok (), m) ∧ inOrder step as m = (.ok (), t) := by
  constructor
  · intro h
    simp only [inOrder] at h
    split at h
    · cases h
    · next m hm => exact ⟨m, hm, h⟩
  · rintro ⟨m, hm, h⟩
    rw [inOrder_cons_ok as hm, h]

/-- A run over two lists is a run over the first and, if that succeeds, over the second. -/
lemma inOrder_append (step : α → σ → Except ε Unit × σ) (as bs : List α) (s : σ) :
    inOrder step (as ++ bs) s =
      match inOrder step as s with
      | (.error e, t) => (.error e, t)
      | (.ok (), t) => inOrder step bs t := by
  induction as generalizing s with
  | nil => rfl
  | cons a as ih =>
    simp only [List.cons_append, inOrder]
    split
    · rfl
    · exact ih _

/-- What every successful step keeps, a successful run keeps. -/
lemma inOrder_preserves {step : α → σ → Except ε Unit × σ} {P : σ → Prop}
    (hstep : ∀ a s t, P s → step a s = (.ok (), t) → P t) {as : List α} {s t : σ} (hs : P s)
    (h : inOrder step as s = (.ok (), t)) : P t := by
  induction as generalizing s with
  | nil =>
    cases h
    exact hs
  | cons a as ih =>
    obtain ⟨m, hm, h⟩ := inOrder_cons_eq_ok_iff.mp h
    exact ih (hstep a s m hs hm) h

lemma inOrder_append_eq_ok_iff {step : α → σ → Except ε Unit × σ} {as bs : List α} {s t : σ} :
    inOrder step (as ++ bs) s = (.ok (), t) ↔
      ∃ m, inOrder step as s = (.ok (), m) ∧ inOrder step bs m = (.ok (), t) := by
  rw [inOrder_append]
  constructor
  · intro h
    split at h
    · cases h
    · next m hm => exact ⟨m, hm, h⟩
  · rintro ⟨m, hm, h⟩
    simp only [hm]
    exact h

/-- What every step keeps, whether it succeeds or not, a run keeps. -/
lemma inOrder_keeps {step : α → σ → Except ε Unit × σ} {P : σ → Prop}
    (hstep : ∀ a s, P s → P (step a s).2) (as : List α) {s : σ} (hs : P s) :
    P (inOrder step as s).2 := by
  induction as generalizing s with
  | nil => exact hs
  | cons a as ih =>
    have hfirst := hstep a s hs
    simp only [inOrder]
    split
    · next hm =>
      rw [hm] at hfirst
      exact hfirst
    · next hm =>
      rw [hm] at hfirst
      exact ih hfirst

/-- A run that fails has a step that fails, behind steps that succeed. -/
lemma exists_of_inOrder_eq_error {step : α → σ → Except ε Unit × σ} {as : List α} {s t : σ} {e : ε}
    (h : inOrder step as s = (.error e, t)) :
    ∃ before a after m, as = before ++ a :: after ∧ inOrder step before s = (.ok (), m) ∧
      step a m = (.error e, t) := by
  induction as generalizing s with
  | nil => cases h
  | cons a as ih =>
    simp only [inOrder] at h
    split at h
    · next hm =>
      cases h
      exact ⟨[], a, as, s, rfl, rfl, hm⟩
    · next m hm =>
      obtain ⟨before, a', after, m', rfl, hbefore, ha'⟩ := ih h
      exact ⟨a :: before, a', after, m', rfl, by rw [inOrder_cons_ok before hm, hbefore], ha'⟩

/-- Steps that agree unless they fail in a certain way make runs that agree unless they do. -/
lemma inOrder_congr {step step' : α → σ → Except ε Unit × σ} {e : ε}
    (hstep : ∀ a s, (step a s).1 ≠ .error e → step' a s = step a s) {as : List α} {s : σ}
    (h : (inOrder step as s).1 ≠ .error e) : inOrder step' as s = inOrder step as s := by
  induction as generalizing s with
  | nil => rfl
  | cons a as ih =>
    cases hm : step a s with
    | mk result m =>
      have hsame : (step a s).1 ≠ .error e → step' a s = (result, m) := fun hne => hm ▸ hstep a s hne
      rw [hm] at hsame
      cases result with
      | error e' =>
        rw [inOrder_cons_error as hm] at h
        rw [inOrder_cons_error as hm, inOrder_cons_error as (hsame h)]
      | ok u =>
        rw [inOrder_cons_ok as hm] at h
        rw [inOrder_cons_ok as hm, inOrder_cons_ok as (hsame nofun), ih h]

/-! ### Images in order -/

variable {β : Type}

/-- The images of a list, if all can be had, are that of its first item and those of the rest. -/
lemma mapM_cons_eq_ok_iff {f : α → Except ε β} {a : α} {as : List α} {bs : List β} :
    (a :: as).mapM f = .ok bs ↔ ∃ b rest, f a = .ok b ∧ as.mapM f = .ok rest ∧ bs = b :: rest := by
  rw [List.mapM_cons]
  constructor
  · intro h
    cases hfirst : f a with
    | error e => rw [hfirst] at h; cases h
    | ok b =>
      cases hrest : as.mapM f with
      | error e => rw [hfirst, hrest] at h; cases h
      | ok rest =>
        rw [hfirst, hrest] at h
        cases h
        exact ⟨b, rest, rfl, rfl, rfl⟩
  · rintro ⟨b, rest, hfirst, hrest, rfl⟩
    rw [hfirst, hrest]
    rfl

/-- If not all images can be had, one cannot. -/
lemma exists_of_mapM_eq_error {f : α → Except ε β} {as : List α} {e : ε}
    (h : as.mapM f = .error e) : ∃ a ∈ as, f a = .error e := by
  induction as with
  | nil => cases h
  | cons a as ih =>
    rw [List.mapM_cons] at h
    cases hfirst : f a with
    | error e' =>
      rw [hfirst] at h
      cases h
      exact ⟨a, List.mem_cons_self, hfirst⟩
    | ok b =>
      cases hrest : as.mapM f with
      | error e' =>
        rw [hfirst, hrest] at h
        cases h
        obtain ⟨a', ha', hfail⟩ := ih hrest
        exact ⟨a', List.mem_cons_of_mem _ ha', hfail⟩
      | ok bs =>
        rw [hfirst, hrest] at h
        cases h

/-- Each item has one image. -/
lemma length_of_mapM_eq_ok {f : α → Except ε β} {as : List α} {bs : List β}
    (h : as.mapM f = .ok bs) : bs.length = as.length := by
  induction as generalizing bs with
  | nil =>
    cases h
    rfl
  | cons a as ih =>
    obtain ⟨b, rest, -, hrest, rfl⟩ := mapM_cons_eq_ok_iff.mp h
    rw [List.length_cons, List.length_cons, ih hrest]

/-- Every item has its image, and every image is that of an item. -/
lemma mem_of_mapM_eq_ok {f : α → Except ε β} {as : List α} {bs : List β}
    (h : as.mapM f = .ok bs) :
    (∀ a ∈ as, ∃ b ∈ bs, f a = .ok b) ∧ ∀ b ∈ bs, ∃ a ∈ as, f a = .ok b := by
  induction as generalizing bs with
  | nil =>
    cases h
    simp
  | cons a as ih =>
    obtain ⟨b, rest, hfirst, hrest, rfl⟩ := mapM_cons_eq_ok_iff.mp h
    obtain ⟨hto, hfrom⟩ := ih hrest
    constructor
    · intro a' ha'
      rcases List.mem_cons.mp ha' with rfl | ha'
      · exact ⟨b, List.mem_cons_self, hfirst⟩
      · obtain ⟨b', hb', h⟩ := hto a' ha'
        exact ⟨b', List.mem_cons_of_mem _ hb', h⟩
    · intro b' hb'
      rcases List.mem_cons.mp hb' with rfl | hb'
      · exact ⟨a, List.mem_cons_self, hfirst⟩
      · obtain ⟨a', ha', h⟩ := hfrom b' hb'
        exact ⟨a', List.mem_cons_of_mem _ ha', h⟩

end Bundler
