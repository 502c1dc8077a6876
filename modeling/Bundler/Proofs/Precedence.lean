import Mathlib.Data.List.Basic
import Bundler.Options
import Bundler.Proofs.Mappings
import Bundler.Value.Overlay

/-!
# Precedence of settings

Options are read from a base section, a section laid over it and overrides. A field of the options
has several names, which are told apart only after the sections were laid over each other, so the
order of the keys has to carry the precedence of the sections.
-/

namespace Bundler

/-! ### Keys -/

/-- The keys that are the same as a text are that text. -/
lemma Scalar.eq_text_of_same {key : Scalar} {s : String} (h : key.same (.text s) = true) :
    key = .text s := by
  rw [Scalar.same, beq_iff_eq] at h
  unfold Scalar.key at h
  split at h
  · cases h
  · split at h
    · split at h <;> cases h
    · cases h
  · cases h
  · exact h

lemma Field.ofKey?_eq_none {key : Scalar} (h : ∀ s, key ≠ .text s) : Field.ofKey? key = none := by
  cases key with
  | text s => exact absurd rfl (h s)
  | _ => rfl

/-- What is asked of keys has one answer for all that name the same entry. -/
def Scalar.Respected {α : Type} (p : Scalar → α) : Prop :=
  ∀ key key' : Scalar, key.same key' = true → p key = p key'

/-- It is enough to look at texts where all other keys get the same answer. -/
lemma Scalar.Respected.of_texts {α : Type} {p : Scalar → α} (other : α)
    (h : ∀ key : Scalar, (∀ s, key ≠ .text s) → p key = other) : Scalar.Respected p := by
  intro key key' hsame
  by_cases hkey : ∃ s, key = .text s
  · obtain ⟨s, rfl⟩ := hkey
    rw [Scalar.same_comm] at hsame
    rw [Scalar.eq_text_of_same hsame]
  · by_cases hkey' : ∃ s, key' = .text s
    · obtain ⟨s, rfl⟩ := hkey'
      rw [Scalar.eq_text_of_same hsame]
    · rw [h key (by simpa using hkey), h key' (by simpa using hkey')]

lemma Field.respected_ofKey? : Scalar.Respected Field.ofKey? :=
  .of_texts none fun _ => Field.ofKey?_eq_none

namespace Mapping

variable {m b o : Mapping} {key key' : Scalar} {p : Scalar → Bool}

/-! ### Mappings without repeated keys -/

/-- No two entries have the same key. -/
def IsDistinct (m : Mapping) : Prop := (keys m).Pairwise fun k k' => k.same k' = false

instance (m : Mapping) : Decidable m.IsDistinct := inferInstanceAs (Decidable (List.Pairwise _ _))

lemma respected_get? (m : Mapping) : Scalar.Respected (get? m) := by
  intro key key' h
  induction m with
  | nil => rfl
  | cons e m ih =>
    have hsame : e.1.same key = e.1.same key' := by
      have h' : key'.same key = true := Scalar.same_comm .. ▸ h
      rw [Bool.eq_iff_iff]
      exact ⟨fun he => Scalar.same_trans he h, fun he => Scalar.same_trans he h'⟩
    rw [get?_cons, get?_cons, hsame, ih]

lemma respected_contains (m : Mapping) : Scalar.Respected (contains m) := by
  intro key key' h
  rw [contains_eq_isSome, contains_eq_isSome, respected_get? m _ _ h]

lemma contains_eq_false_iff : contains m key = false ↔ ∀ e ∈ m, e.1.same key = false := by
  simp [contains]

lemma get?_eq_none_of_same (hkey : contains m key = false) (h : key.same key' = true) :
    get? m key' = none := by
  rw [respected_contains m _ _ h, contains_eq_isSome] at hkey
  simpa using hkey

lemma contains_insert (m : Mapping) (key : Scalar) (value : Value) (other : Scalar) :
    contains (insert m key value) other = (key.same other || contains m other) := by
  rw [contains_eq_isSome, contains_eq_isSome, get?_insert]
  split <;> simp_all

lemma isDistinct_cons {e : Scalar × Value} :
    IsDistinct (e :: m) ↔ contains m e.1 = false ∧ IsDistinct m := by
  rw [IsDistinct, keys, List.map_cons, List.pairwise_cons, List.forall_mem_map,
    contains_eq_false_iff]
  simp only [Scalar.same_comm e.1]
  rfl

lemma IsDistinct.filter (h : IsDistinct m) (p : Scalar × Value → Bool) : IsDistinct (m.filter p) :=
  h.sublist (List.filter_sublist.map _)

lemma IsDistinct.get?_of_mem (h : IsDistinct m) {e : Scalar × Value} (he : e ∈ m) :
    get? m e.1 = some e.2 := by
  induction m with
  | nil => cases he
  | cons d m ih =>
    obtain ⟨hd, hm⟩ := isDistinct_cons.mp h
    rw [get?_cons]
    rcases List.mem_cons.mp he with rfl | he
    · rw [if_pos (Scalar.same_self _)]
    · have hne : d.1.same e.1 = false := by
        rw [Scalar.same_comm]
        exact contains_eq_false_iff.mp hd e he
      rw [hne, ih hm he]
      rfl

/-- The last value of a mapping is that of its last key. -/
lemma IsDistinct.getLast?_value (h : IsDistinct m) :
    m.getLast?.map (·.2) = (keys m).getLast?.bind (get? m) := by
  rw [keys, List.getLast?_map]
  cases hlast : m.getLast? with
  | none => rfl
  | some e => exact (h.get?_of_mem (List.mem_of_getLast? hlast)).symm

/-! ### Keys and values of overlays -/

/-- What becomes of a value that is laid over a mapping at a key. -/
def overlayAt (b : Mapping) (key : Scalar) (value : Value) : Value :=
  ((get? b key).map (Value.overlay · value)).getD value

lemma overlay_cons_overlayAt (b : Mapping) (e : Scalar × Value) (o : Mapping) :
    overlay b (e :: o) = overlay (insert b e.1 (overlayAt b e.1 e.2)) o :=
  overlay_cons b e.1 e.2 o

/-- An overlay keeps the keys in place and adds the new ones at the end. -/
theorem keys_overlay (ho : IsDistinct o) (b : Mapping) :
    keys (overlay b o) = keys b ++ (keys o).filter fun key => !contains b key := by
  induction o generalizing b with
  | nil => simp [keys]
  | cons e o ih =>
    obtain ⟨he, ho⟩ := isDistinct_cons.mp ho
    have hnew : ((keys o).filter fun key => !contains (insert b e.1 (overlayAt b e.1 e.2)) key)
        = (keys o).filter fun key => !contains b key := by
      apply List.filter_congr
      intro key hkey
      obtain ⟨d, hd, rfl⟩ := List.mem_map.mp hkey
      rw [contains_insert, Scalar.same_comm, contains_eq_false_iff.mp he d hd, Bool.false_or]
    rw [overlay_cons_overlayAt, ih ho, hnew, keys_insert]
    by_cases hcontains : contains b e.1 = true
    · simp [keys, hcontains]
    · simp [keys, hcontains]

/-- An overlay has the values that are laid over the base and what else the base has. -/
theorem get?_overlay (ho : IsDistinct o) (b : Mapping) (key : Scalar) :
    get? (overlay b o) key = ((get? o key).map (overlayAt b key)).or (get? b key) := by
  induction o generalizing b with
  | nil => simp
  | cons e o ih =>
    obtain ⟨he, ho⟩ := isDistinct_cons.mp ho
    rw [overlay_cons_overlayAt, ih ho, get?_cons]
    by_cases hsame : e.1.same key = true
    · rw [get?_eq_none_of_same he hsame, get?_insert, if_pos hsame, if_pos hsame, overlayAt,
        respected_get? b _ _ hsame]
      rfl
    · have hat : overlayAt (insert b e.1 (overlayAt b e.1 e.2)) key = overlayAt b key := by
        funext value
        rw [overlayAt, get?_insert, if_neg hsame, overlayAt]
      rw [hat, get?_insert, if_neg hsame, if_neg hsame]

/-- The last key of what is laid over a mapping stays the last one, if it is new or if it is the
last one of the mapping and no key is new. -/
lemma getLast?_keys_overlay {e : Scalar × Value} (ho : IsDistinct o) (hlast : o.getLast? = some e)
    (hold : contains b e.1 = true →
      (∀ e' ∈ o, contains b e'.1 = true) ∧ ∃ d, b.getLast? = some d ∧ d.1 = e.1) :
    (keys (overlay b o)).getLast? = some e.1 := by
  rw [keys_overlay ho]
  cases hcontains : contains b e.1 with
  | true =>
    obtain ⟨hnone, d, hd, hkey⟩ := hold hcontains
    have hnew : ((keys o).filter fun key => !contains b key) = [] := by
      rw [List.filter_eq_nil_iff, keys, List.forall_mem_map]
      intro e' he'
      simp [hnone e' he']
    rw [hnew, List.append_nil, keys, List.getLast?_map, hd, Option.map_some, hkey]
  | false =>
    obtain ⟨others, rfl⟩ := List.getLast?_eq_some_iff.mp hlast
    simp [keys, hcontains]

lemma IsDistinct.overlay (hb : IsDistinct b) (ho : IsDistinct o) : IsDistinct (overlay b o) := by
  rw [IsDistinct, keys_overlay ho, List.pairwise_append]
  refine ⟨hb, ho.sublist List.filter_sublist, ?_⟩
  intro key hkey key' hkey'
  obtain ⟨e, he, rfl⟩ := List.mem_map.mp hkey
  have hnew : contains b key' = false := by simpa using (List.mem_filter.mp hkey').2
  exact contains_eq_false_iff.mp hnew e he

/-! ### Parts of overlays -/

/-- The entries whose keys are of a kind. -/
def ofKind (p : Scalar → Bool) (m : Mapping) : Mapping := m.filter fun e => p e.1

@[simp] lemma ofKind_nil (p : Scalar → Bool) : ofKind p [] = [] := rfl

lemma ofKind_cons (p : Scalar → Bool) (e : Scalar × Value) (m : Mapping) :
    ofKind p (e :: m) = if p e.1 then e :: ofKind p m else ofKind p m := List.filter_cons

lemma mem_ofKind {e : Scalar × Value} : e ∈ ofKind p m ↔ e ∈ m ∧ p e.1 = true := List.mem_filter

lemma get?_ofKind (hp : Scalar.Respected p) (m : Mapping) (key : Scalar) :
    get? (ofKind p m) key = if p key then get? m key else none := by
  induction m with
  | nil => simp
  | cons e m ih =>
    rw [ofKind_cons, get?_cons]
    by_cases hsame : e.1.same key = true
    · rw [hp _ _ hsame, if_pos hsame]
      by_cases hkey : p key = true
      · rw [if_pos hkey, if_pos hkey, get?_cons, if_pos hsame]
      · rw [if_neg hkey, if_neg hkey, ih, if_neg hkey]
    · rw [if_neg hsame, ← ih]
      by_cases he : p e.1 = true
      · rw [if_pos he, get?_cons, if_neg hsame]
      · rw [if_neg he]

lemma contains_ofKind (hp : Scalar.Respected p) (hkey : p key = true) (m : Mapping) :
    contains (ofKind p m) key = contains m key := by
  rw [contains_eq_isSome, get?_ofKind hp, if_pos hkey, ← contains_eq_isSome]

lemma ofKind_insert (hp : Scalar.Respected p) (m : Mapping) (key : Scalar) (value : Value) :
    ofKind p (insert m key value) =
      if p key then insert (ofKind p m) key value else ofKind p m := by
  induction m with
  | nil => rw [insert, ofKind_cons, ofKind_nil, insert]
  | cons e m ih =>
    by_cases hsame : e.1.same key = true
    · rw [insert, if_pos hsame, ofKind_cons, ofKind_cons, hp _ _ hsame]
      by_cases hkey : p key = true
      · simp [hkey, insert, hsame]
      · simp [hkey]
    · rw [insert, if_neg hsame, ofKind_cons, ofKind_cons, ih]
      by_cases he : p e.1 = true
      · by_cases hkey : p key = true <;> simp [he, hkey, insert, hsame]
      · simp [he]

/-- The entries of one kind are laid over the entries of this kind. -/
theorem ofKind_overlay (hp : Scalar.Respected p) (b o : Mapping) :
    ofKind p (overlay b o) = overlay (ofKind p b) (ofKind p o) := by
  induction o generalizing b with
  | nil => simp
  | cons e o ih =>
    rw [overlay_cons_overlayAt, ih, ofKind_insert hp, ofKind_cons]
    by_cases he : p e.1 = true
    · rw [if_pos he, if_pos he, overlay_cons_overlayAt, overlayAt, overlayAt, get?_ofKind hp,
        if_pos he]
    · rw [if_neg he, if_neg he]

/-- The entries that are given, that is, whose value is not null. -/
def given (m : Mapping) : Mapping := m.filter fun e => !e.2.isNull

/-- Whether a key may have an effect: `bundle` has none. -/
def isEffective (key : Scalar) : Bool := decide (key ≠ .text "bundle")

/-- The entries without that of the key `bundle`. -/
def withoutBundle (m : Mapping) : Mapping := ofKind isEffective m

lemma respected_isEffective : Scalar.Respected isEffective := by
  refine .of_texts true ?_
  intro key hkey
  simpa [isEffective] using hkey "bundle"

end Mapping

/-! ### Fields of sections -/

namespace Field

open Mapping

variable {f : Field} {b o v m : Mapping}

/-- Whether a key names a field. -/
def names (f : Field) (key : Scalar) : Bool := decide (Field.ofKey? key = some f)

lemma respected_names (f : Field) : Scalar.Respected f.names := by
  intro key key' h
  rw [names, names, respected_ofKey? _ _ h]

/-- The last entry that names a field. -/
def lastIn? (f : Field) (m : Mapping) : Option (Scalar × Value) := (ofKind f.names m).getLast?

lemma lastIn?_cons (f : Field) (e : Scalar × Value) (m : Mapping) :
    f.lastIn? (e :: m) = (f.lastIn? m).or (if f.names e.1 then some e else none) := by
  rw [lastIn?, lastIn?, ofKind_cons]
  split
  · rw [List.getLast?_cons]
    cases (ofKind f.names m).getLast? <;> rfl
  · rw [Option.or_none]

/-- The last name that `o` gives a field does not stand last where `o` is laid over `b`: it stands
at its place in `b`, and `b` or `o` has another name of the field behind it. -/
def IsShadowed (f : Field) (b o : Mapping) : Prop :=
  ∃ e ∈ f.lastIn? o, b.contains e.1 = true ∧
    ((∃ d ∈ f.lastIn? b, d.1 ≠ e.1) ∨ ∃ e' ∈ o, f.names e'.1 = true ∧ b.contains e'.1 = false)

instance (f : Field) (b o : Mapping) : Decidable (f.IsShadowed b o) :=
  inferInstanceAs (Decidable (∃ e ∈ f.lastIn? o, b.contains e.1 = true ∧
    ((∃ d ∈ f.lastIn? b, d.1 ≠ e.1) ∨ ∃ e' ∈ o, f.names e'.1 = true ∧ b.contains e'.1 = false)))

/-- The value that the layers ask a field to have: that of the last override, else the last one of
`o`, which is merged into that of the same key of `b` if both are mappings, else the last one of
`b`. -/
def chosen (f : Field) (b o v : Mapping) : Value :=
  match f.lastIn? v.given, f.lastIn? o, f.lastIn? b with
  | some e, _, _ => e.2
  | none, some e, _ => b.overlayAt e.1 e.2
  | none, none, some e => e.2
  | none, none, none => .null

/-- The last name that `o` gives a field stays the last one where `o` is laid over `b`, if it is not
shadowed. -/
lemma getLast?_names_overlay {e : Scalar × Value} (ho : o.IsDistinct) (hlast : f.lastIn? o = some e)
    (hshadow : ¬ f.IsShadowed b o) :
    (keys (overlay (ofKind f.names b) (ofKind f.names o))).getLast? = some e.1 := by
  have he := mem_ofKind.mp (List.mem_of_getLast? hlast)
  refine getLast?_keys_overlay (ho.filter _) hlast ?_
  intro hold
  rw [contains_ofKind (respected_names f) he.2] at hold
  constructor
  · intro e' he'
    rw [contains_ofKind (respected_names f) (mem_ofKind.mp he').2]
    by_contra hnew
    exact hshadow ⟨e, hlast, hold, Or.inr ⟨e', (mem_ofKind.mp he').1, (mem_ofKind.mp he').2,
      by simpa using hnew⟩⟩
  · cases hd : f.lastIn? b with
    | none =>
      rw [← contains_ofKind (respected_names f) he.2, List.getLast?_eq_none_iff.mp hd] at hold
      cases hold
    | some d =>
      refine ⟨d, hd, ?_⟩
      by_contra hne
      exact hshadow ⟨e, hlast, hold, Or.inl ⟨d, hd, hne⟩⟩

/-- Where nothing is shadowed, the last name of a field in an overlay has the value of the last name
in `o`, or that of the last one in `b` if `o` has none. -/
theorem lastIn?_overlay (hb : b.IsDistinct) (ho : o.IsDistinct) (hshadow : ¬ f.IsShadowed b o) :
    (f.lastIn? (b.overlay o)).map (·.2) =
      ((f.lastIn? o).map fun e => b.overlayAt e.1 e.2).or ((f.lastIn? b).map (·.2)) := by
  have hnames := respected_names f
  have hbf : (ofKind f.names b).IsDistinct := hb.filter _
  have hof : (ofKind f.names o).IsDistinct := ho.filter _
  cases hlast : f.lastIn? o with
  | none =>
    have hnone : ofKind f.names o = [] := List.getLast?_eq_none_iff.mp hlast
    rw [lastIn?, ofKind_overlay hnames, hnone, overlay_nil]
    rfl
  | some e =>
    have he := List.mem_of_getLast? hlast
    rw [lastIn?, ofKind_overlay hnames, (hbf.overlay hof).getLast?_value,
      getLast?_names_overlay ho hlast hshadow, Option.bind_some, get?_overlay hof,
      hof.get?_of_mem he, Option.map_some, Option.some_or, overlayAt, get?_ofKind hnames,
      if_pos (mem_ofKind.mp he).2]
    rfl

end Field

/-! ### Collecting settings -/

namespace Settings

open Mapping

variable {s : Settings} {f : Field} {m data overrides : Mapping} {key : Scalar}

/-- The value of a field. -/
def field (s : Settings) : Field → Value
  | .moduleMode => s.moduleMode
  | .referrerName => s.referrerName
  | .dependencyTarget => s.dependencyTarget

/-- Whether a key is passed through: it names no field and is not `bundle`. -/
def passes (key : Scalar) : Bool :=
  isEffective key && decide (Field.ofKey? key = none)

lemma respected_passes : Scalar.Respected passes := by
  intro key key' h
  rw [passes, passes, respected_isEffective _ _ h, Field.respected_ofKey? _ _ h]

/-- An entry sets the field that its key names. -/
lemma field_write (s : Settings) (e : Scalar × Value) (f : Field) :
    (s.write e).field f = if f.names e.1 then e.2 else s.field f := by
  unfold write
  by_cases hbundle : e.1 = .text "bundle"
  · rw [if_pos hbundle, Field.names, hbundle]
    rfl
  · rw [if_neg hbundle, Field.names]
    cases Field.ofKey? e.1 with
    | none => rfl
    | some g => cases g <;> cases f <;> rfl

/-- An entry whose key is passed through is written to the extras. -/
lemma extras_write (s : Settings) (e : Scalar × Value) :
    (s.write e).extras = if passes e.1 then s.extras.insert e.1 e.2 else s.extras := by
  unfold write passes isEffective
  by_cases hbundle : e.1 = .text "bundle"
  · simp [hbundle]
  · rw [if_neg hbundle]
    cases Field.ofKey? e.1 with
    | none => simp [hbundle]
    | some g => cases g <;> simp

/-- The key `bundle` has no effect. -/
lemma write_of_not_isEffective {e : Scalar × Value} (h : ¬ isEffective e.1 = true) (s : Settings) :
    s.write e = s := if_pos (by simpa [isEffective] using h)

lemma foldl_withoutBundle (m : Mapping) (s : Settings) :
    m.withoutBundle.foldl write s = m.foldl write s := by
  induction m generalizing s with
  | nil => rfl
  | cons e m ih =>
    rw [withoutBundle, ofKind_cons, List.foldl_cons]
    split
    · exact ih (s.write e)
    · next he => rw [write_of_not_isEffective he, ← ih s, withoutBundle]

/-- A field has the value of the last entry that names it. -/
lemma field_foldl (m : Mapping) (s : Settings) (f : Field) :
    (m.foldl write s).field f = ((f.lastIn? m).map (·.2)).getD (s.field f) := by
  induction m generalizing s with
  | nil => rfl
  | cons e m ih =>
    rw [List.foldl_cons, ih, field_write, Field.lastIn?_cons]
    cases f.lastIn? m with
    | some d => rfl
    | none => split <;> rfl

/-- The extras have the entries whose keys are passed through. -/
lemma extras_foldl (hm : m.IsDistinct) (s : Settings) (key : Scalar) :
    (m.foldl write s).extras.get? key =
      (if passes key then m.get? key else none).or (s.extras.get? key) := by
  induction m generalizing s with
  | nil => simp
  | cons e m ih =>
    obtain ⟨he, hm⟩ := isDistinct_cons.mp hm
    rw [List.foldl_cons, ih hm, extras_write, get?_cons]
    by_cases hsame : e.1.same key = true
    · rw [respected_passes _ _ hsame, get?_eq_none_of_same he hsame, if_pos hsame]
      by_cases hkey : passes key = true
      · simp [hkey, get?_insert, hsame]
      · simp [hkey]
    · rw [if_neg hsame]
      by_cases hpasses : passes e.1 = true
      · rw [if_pos hpasses, get?_insert, if_neg hsame]
      · rw [if_neg hpasses]

/-- A field has the value of the last override that names it, or else that of the last entry. -/
theorem field_collect (data overrides : Mapping) (f : Field) : (collect data overrides).field f =
    (((f.lastIn? overrides.given).map (·.2)).or ((f.lastIn? data).map (·.2))).getD .null := by
  have hempty : ({} : Settings).field f = .null := by cases f <;> rfl
  rw [collect, ← given, field_foldl, field_foldl, hempty]
  cases f.lastIn? overrides.given <;> rfl

/-- What is passed through is what an override gives, or else what the mapping has. -/
theorem extras_collect (hdata : data.IsDistinct) (hoverrides : overrides.IsDistinct)
    (key : Scalar) : (collect data overrides).extras.get? key =
      if passes key then (overrides.given.get? key).or (data.get? key) else none := by
  have hgiven : overrides.given.IsDistinct := hoverrides.filter _
  rw [collect, ← given, extras_foldl hgiven, extras_foldl hdata]
  by_cases hkey : passes key = true
  · simp [hkey]
  · simp [hkey]

/-- The key `bundle` has no effect, whether it stands in the mapping or is an override. -/
theorem collect_withoutBundle (data overrides : Mapping) :
    collect data.withoutBundle overrides.withoutBundle = collect data overrides := by
  have hgiven : overrides.withoutBundle.given = overrides.given.withoutBundle :=
    List.filter_comm _ _ overrides
  rw [collect, collect, ← given, ← given, hgiven, foldl_withoutBundle, foldl_withoutBundle]

end Settings

/-! ### Options of laid sections -/

namespace Options

open Mapping

variable {b o v : Mapping}

/-- Overrides that are not null win over the section that is laid over another one, and this one
wins over the other, under whatever names they give a field; where the last name of a field is
shadowed, this holds of the overrides alone. The key `bundle` has no effect and the keys that name
no field are passed through. -/
theorem ofArguments_overlay (hb : b.IsDistinct) (ho : o.IsDistinct) (hv : v.IsDistinct)
    (hnames : v.all (fun e => isFreeName e.1) = true) : ∃ s : Settings,
    ofArguments (b.overlay o) v = (ModuleMode.ofValue s.moduleMode).map (fun mode =>
        { bundle := .bool false, dependencyTarget := s.dependencyTarget,
          referrerName := s.referrerName, moduleMode := mode, extras := s.extras }) ∧
      (∀ f : Field, (f.lastIn? v.given = none → ¬ f.IsShadowed b o) → s.field f = f.chosen b o v) ∧
      (∀ key, s.extras.get? key = if key = .text "bundle" ∨ (Field.ofKey? key).isSome then none
        else (v.given.get? key).or ((b.overlay o).get? key)) ∧
      ofArguments (b.withoutBundle.overlay o.withoutBundle) v.withoutBundle
        = ofArguments (b.overlay o) v := by
  refine ⟨Settings.collect (b.overlay o) v, ?_, ?_, ?_, ?_⟩
  · rw [ofArguments, if_pos hnames, ofMapping, ofSettings]
    cases ModuleMode.ofValue (Settings.collect (b.overlay o) v).moduleMode <;> rfl
  · intro f hshadow
    rw [Settings.field_collect, Field.chosen]
    cases hgiven : f.lastIn? v.given with
    | some e => rfl
    | none =>
      rw [Field.lastIn?_overlay hb ho (hshadow hgiven)]
      cases f.lastIn? o with
      | some e => rfl
      | none => cases f.lastIn? b <;> rfl
  · intro key
    rw [Settings.extras_collect (hb.overlay ho) hv, Settings.passes, isEffective]
    by_cases hkey : key = .text "bundle"
    · simp [hkey]
    · cases hfield : Field.ofKey? key <;> simp [hkey]
  · have hwithout : v.withoutBundle.all (fun e => isFreeName e.1) = true := by
      rw [List.all_eq_true] at hnames ⊢
      exact fun e he => hnames e (mem_ofKind.mp he).1
    rw [ofArguments, ofArguments, if_pos hnames, if_pos hwithout, ofMapping, ofMapping,
      withoutBundle, withoutBundle, ← ofKind_overlay respected_isEffective]
    exact congrArg ofSettings (Settings.collect_withoutBundle (b.overlay o) v)

/-- Layers that name their fields differently. -/
theorem ofArguments_overlay_names : ∃ options, ofArguments
      (overlay
        [(.text "modules", .text "inline"), (.text "referrer", .text "base"),
          (.text "level", .int 1)]
        [(.text "module_mode", .text "bootstrap"), (.text "referrer_name", .text "top"),
          (.text "bundle", .bool true)])
      [(.text "referrer", .text "given"), (.text "modules", .null)] = .ok options ∧
    options.bundle = .bool false ∧ options.moduleMode = some .bootstrap ∧
      options.referrerName = .text "given" ∧ options.dependencyTarget = .null ∧
        options.extras.get? (.text "level") = some (.int 1) := by
  obtain ⟨s, hresult, hfield, hextras, -⟩ := ofArguments_overlay
    (b := [(.text "modules", .text "inline"), (.text "referrer", .text "base"),
      (.text "level", .int 1)])
    (o := [(.text "module_mode", .text "bootstrap"), (.text "referrer_name", .text "top"),
      (.text "bundle", .bool true)])
    (v := [(.text "referrer", .text "given"), (.text "modules", .null)])
    (by decide) (by decide) (by decide) (by decide)
  have hmode : s.moduleMode = .text "bootstrap" := hfield .moduleMode (fun _ => by decide)
  rw [hmode] at hresult
  exact ⟨_, hresult, rfl, rfl, hfield .referrerName (fun _ => by decide),
    hfield .dependencyTarget (fun _ => by decide), hextras (.text "level")⟩

/-- The last value that a layer gives a field, the overrides before `o` and `o` before `b`. -/
def latest (f : Field) (b o v : Mapping) : Value :=
  ((((f.lastIn? v.given).or (f.lastIn? o)).or (f.lastIn? b)).map (·.2)).getD .null

/-- Two mappings are merged, and a name that only the base section has keeps its place behind the
names of both. -/
theorem field_not_always_latest :
    (¬ ∀ b o v : Mapping, b.IsDistinct → o.IsDistinct → v.IsDistinct →
      v.all (fun e => isFreeName e.1) = true →
      ∀ options, ofArguments (b.overlay o) v = .ok options →
        options.dependencyTarget = latest .dependencyTarget b o v) ∧
    ¬ ∀ b o v : Mapping, b.IsDistinct → o.IsDistinct → v.IsDistinct →
      v.all (fun e => isFreeName e.1) = true →
      ∀ options, ofArguments (b.overlay o) v = .ok options →
        ModuleMode.ofValue (latest .moduleMode b o v) = .ok options.moduleMode := by
  constructor
  · intro h
    have := h [(.text "dep_target", .mapping [(.text "a", .int 1)])]
      [(.text "dep_target", .mapping [(.text "b", .int 2)])] [] (by decide) (by decide) (by decide)
      rfl _ rfl
    exact absurd (congrArg List.length (Value.mapping.inj this)) (by decide)
  · intro h
    have := h [(.text "modules", .text "register"), (.text "module_mode", .text "inline")]
      [(.text "modules", .text "bootstrap")] [] (by decide) (by decide) (by decide) rfl _ rfl
    cases this

end Options

end Bundler
