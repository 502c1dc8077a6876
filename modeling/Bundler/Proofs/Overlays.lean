import Bundler.Proofs.Precedence
import Bundler.Value.Placeholder

/-!
# Overlays at every depth

A mapping that is laid over another one is merged with it at every depth. What a path of keys leads
to in the result is told by what it leads to in the two mappings. Placeholders may be filled before
two mappings are merged or afterwards.
-/

namespace Bundler

open Mapping

/-- Writing the value that a key has already changes nothing. -/
lemma Mapping.insert_eq_self {m : Mapping} {key : Scalar} {v : Value} (h : get? m key = some v) :
    insert m key v = m := by
  induction m with
  | nil => cases h
  | cons e m ih =>
    rw [get?_cons] at h
    by_cases hsame : e.1.same key = true
    · rw [if_pos hsame] at h
      cases h
      rw [insert, if_pos hsame]
    · rw [if_neg hsame] at h
      rw [insert, if_neg hsame, ih h]

namespace Value

variable {v w base top : Value} {b o m : Mapping} {key : Scalar} {p q : List Scalar}

/-! ### Paths of keys -/

/-- The value at the end of a path of keys, if each value on the way is a mapping with the next
key. -/
def at? : Value → List Scalar → Option Value
  | v, [] => some v
  | .mapping m, key :: keys => (get? m key).bind (at? · keys)
  | _, _ :: _ => none

@[simp] lemma at?_nil (v : Value) : v.at? [] = some v := by
  unfold at?
  rfl

lemma at?_cons (m : Mapping) (key : Scalar) (p : List Scalar) :
    (mapping m).at? (key :: p) = (get? m key).bind (at? · p) := rfl

lemma at?_cons_of_not_isMapping (h : v.isMapping = false) (key : Scalar) (p : List Scalar) :
    v.at? (key :: p) = none := by
  cases v with
  | mapping m => cases h
  | _ => rfl

lemma at?_append (v : Value) (p q : List Scalar) :
    v.at? (p ++ q) = (v.at? p).bind (at? · q) := by
  induction p generalizing v with
  | nil => simp
  | cons key p ih =>
    cases v with
    | mapping m =>
      rw [List.cons_append, at?_cons, at?_cons, Option.bind_assoc]
      exact congrArg (get? m key).bind (funext ih)
    | _ => rfl

/-- Whatever a path leads to on its way is a mapping. -/
def IsOpen (v : Value) (p : List Scalar) : Prop :=
  ∀ q w, q <+: p → v.at? q = some w → w.isMapping = true

lemma IsOpen.isMapping (h : v.IsOpen p) : v.isMapping = true :=
  h [] v List.nil_prefix (at?_nil v)

lemma IsOpen.of_get? (h : (mapping m).IsOpen (key :: p)) (hv : get? m key = some v) :
    v.IsOpen p := by
  intro q w hq hw
  refine h (key :: q) w (List.cons_prefix_cons.mpr ⟨rfl, hq⟩) ?_
  rw [at?_cons, hv]
  exact hw

/-! ### Values whose mappings have each key once -/

mutual

/-- Whether each mapping in the value, lists aside, has each of its keys once. -/
def isKeyed : Value → Bool
  | .mapping m => decide (IsDistinct m) && entriesAreKeyed m
  | _ => true

/-- Whether the values of some entries have their keys once. -/
def entriesAreKeyed : List (Scalar × Value) → Bool
  | [] => true
  | (_, v) :: m => v.isKeyed && entriesAreKeyed m

end

lemma isKeyed_mapping_iff :
    (mapping m).isKeyed = true ↔ IsDistinct m ∧ ∀ e ∈ m, e.2.isKeyed = true := by
  have hentries : entriesAreKeyed m = true ↔ ∀ e ∈ m, e.2.isKeyed = true := by
    induction m with
    | nil => simp [entriesAreKeyed]
    | cons e m ih => rw [entriesAreKeyed, Bool.and_eq_true, ih, List.forall_mem_cons]
  rw [isKeyed, Bool.and_eq_true, decide_eq_true_iff, hentries]

lemma isKeyed_of_get? (hm : (mapping m).isKeyed = true) (hv : get? m key = some v) :
    v.isKeyed = true := by
  obtain ⟨e, he, rfl⟩ := Option.map_eq_some_iff.mp hv
  exact (isKeyed_mapping_iff.mp hm).2 e (List.mem_of_find?_eq_some he)

lemma isKeyed_of_at? (hv : v.isKeyed = true) (hw : v.at? p = some w) : w.isKeyed = true := by
  induction p generalizing v with
  | nil =>
    rw [at?_nil] at hw
    cases hw
    exact hv
  | cons key p ih =>
    cases v with
    | mapping m =>
      rw [at?_cons] at hw
      obtain ⟨next, hnext, hw⟩ := Option.bind_eq_some_iff.mp hw
      exact ih (isKeyed_of_get? hv hnext) hw
    | _ => cases hw

/-! ### Values laid over values -/

@[simp] lemma overlay_mapping (b o : Mapping) :
    overlay (mapping b) (mapping o) = mapping (b.overlay o) := by
  rw [overlay]
  rfl

lemma overlay_of_not_isMapping (base : Value) (h : top.isMapping = false) :
    overlay base top = top := by
  cases top with
  | mapping o => cases h
  | _ => simp [overlay]

lemma overlay_of_base (top : Value) (h : base.isMapping = false) : overlay base top = top := by
  cases top with
  | mapping o =>
    cases base with
    | mapping b => cases h
    | _ =>
      rw [overlay]
      exact fun _ => nofun
  | _ => simp [overlay]

lemma at?_overlay_cons (ho : IsDistinct o) (b : Mapping) (key : Scalar) (p : List Scalar) :
    (mapping (b.overlay o)).at? (key :: p) =
      (((get? o key).map (overlayAt b key)).or (get? b key)).bind (at? · p) := by
  rw [at?_cons, get?_overlay ho]

/-- What stands at the end of a path in the upper value is laid over what stands there in the lower
one. -/
theorem at?_overlay_of_some (htop : top.isKeyed = true) (base : Value) (hv : top.at? p = some v) :
    (overlay base top).at? p = some ((base.at? p).elim v (overlay · v)) := by
  induction p generalizing base top with
  | nil =>
    rw [at?_nil] at hv
    cases hv
    rw [at?_nil, at?_nil]
    rfl
  | cons key p ih =>
    cases top with
    | mapping o =>
      cases base with
      | mapping b =>
        obtain ⟨next, hnext, hv'⟩ := Option.bind_eq_some_iff.mp hv
        rw [overlay_mapping, at?_overlay_cons (isKeyed_mapping_iff.mp htop).1, hnext,
          Option.map_some, Option.some_or, Option.bind_some, at?_cons, overlayAt]
        cases get? b key with
        | none => exact hv'
        | some old => exact ih (isKeyed_of_get? htop hnext) old hv'
      | _ =>
        rw [overlay_of_base _ rfl, hv]
        rfl
    | _ => cases hv

/-- Where the way in the upper value ends at a key that is missing, the lower value is seen. -/
theorem at?_overlay_of_isOpen (htop : top.isKeyed = true) (base : Value) (hv : top.at? p = none)
    (hopen : top.IsOpen p) : (overlay base top).at? p = base.at? p := by
  induction p generalizing base top with
  | nil => cases hv
  | cons key p ih =>
    cases top with
    | mapping o =>
      cases base with
      | mapping b =>
        rw [overlay_mapping, at?_overlay_cons (isKeyed_mapping_iff.mp htop).1, at?_cons]
        cases hnext : get? o key with
        | none => rfl
        | some next =>
          rw [at?_cons, hnext] at hv
          rw [Option.map_some, Option.some_or, Option.bind_some, overlayAt]
          cases get? b key with
          | none => exact hv
          | some old => exact ih (isKeyed_of_get? htop hnext) old hv (hopen.of_get? hnext)
      | _ =>
        rw [overlay_of_base _ rfl, hv]
        rfl
    | _ => cases hopen.isMapping

/-- A value of the upper value that is no mapping hides what lies below it. -/
theorem at?_overlay_of_prefix (htop : top.isKeyed = true) (base : Value) (hv : top.at? q = some v)
    (hmapping : v.isMapping = false) (hq : q <+: p) (hne : q ≠ p) :
    (overlay base top).at? p = none := by
  obtain ⟨rest, rfl⟩ := hq
  have hend : (overlay base top).at? q = some v := by
    rw [at?_overlay_of_some htop base hv]
    cases base.at? q with
    | none => rfl
    | some old => exact congrArg some (overlay_of_not_isMapping old hmapping)
  cases rest with
  | nil => exact absurd (List.append_nil q).symm hne
  | cons key rest => rw [at?_append, hend, Option.bind_some, at?_cons_of_not_isMapping hmapping]

/-! ### Laying a value over another one twice -/

lemma sizeOf_lt_of_mem {e : Scalar × Value} (he : e ∈ m) : sizeOf e.2 < sizeOf (mapping m) := by
  have hlist := List.sizeOf_lt_of_mem he
  have hentry : sizeOf e = 1 + sizeOf e.1 + sizeOf e.2 := rfl
  rw [mapping.sizeOf_spec]
  omega

/-- Laying entries over a mapping changes nothing if laying their values over its own ones does
not. -/
lemma overlay_eq_self (h : ∀ e ∈ o, ∃ old, get? b e.1 = some old ∧ overlay old e.2 = old) :
    b.overlay o = b := by
  induction o with
  | nil => exact overlay_nil b
  | cons e o ih =>
    rw [List.forall_mem_cons] at h
    obtain ⟨⟨old, hold, hsame⟩, hrest⟩ := h
    have hat : overlayAt b e.1 e.2 = old := by
      rw [overlayAt, hold]
      exact hsame
    rw [overlay_cons_overlayAt, hat, insert_eq_self hold, ih hrest]

/-- A value laid over itself is the value. -/
theorem overlay_self (v : Value) (hv : v.isKeyed = true) : overlay v v = v := by
  match v with
  | .mapping m =>
    obtain ⟨hdistinct, hkeyed⟩ := isKeyed_mapping_iff.mp hv
    rw [overlay_mapping, overlay_eq_self fun e he =>
      ⟨e.2, hdistinct.get?_of_mem he, overlay_self e.2 (hkeyed e he)⟩]
  | .scalar _ | .list _ | .tuple _ | .set _ => exact overlay_of_not_isMapping _ rfl
termination_by sizeOf v
decreasing_by exact sizeOf_lt_of_mem he

/-- Laying a value over another one a second time changes nothing. -/
theorem overlay_overlay (base top : Value) (htop : top.isKeyed = true) :
    overlay (overlay base top) top = overlay base top := by
  match top with
  | .mapping o =>
    obtain ⟨hdistinct, hkeyed⟩ := isKeyed_mapping_iff.mp htop
    cases hbase : base.isMapping with
    | true =>
      cases base with
      | mapping b =>
        rw [overlay_mapping, overlay_mapping, overlay_eq_self]
        intro e he
        refine ⟨overlayAt b e.1 e.2, ?_, ?_⟩
        · rw [get?_overlay hdistinct, hdistinct.get?_of_mem he]
          rfl
        · rw [overlayAt]
          cases get? b e.1 with
          | none => exact overlay_self e.2 (hkeyed e he)
          | some old => exact overlay_overlay old e.2 (hkeyed e he)
      | _ => cases hbase
    | false =>
      have hfirst := overlay_of_base (.mapping o) hbase
      rw [hfirst, overlay_self _ htop]
  | .scalar _ | .list _ | .tuple _ | .set _ =>
    rw [overlay_of_not_isMapping _ rfl, overlay_of_not_isMapping _ rfl]
termination_by sizeOf top
decreasing_by exact sizeOf_lt_of_mem he

/-! ### What an overlay has at each path -/

/-- The mapping `r` is what `b` becomes when `o` is laid over it, told by what `b` and `o` have at
each path of keys. -/
structure IsOverlay (b o r : Mapping) : Prop where
  /-- What is no mapping in `o` is taken. -/
  taken : ∀ p v, (mapping o).at? p = some v → v.isMapping = false → (mapping r).at? p = some v
  /-- A mapping of `o` is taken where `b` has none. -/
  added : ∀ (p : List Scalar) (m : Mapping), (mapping o).at? p = some (mapping m) →
    (∀ m', (mapping b).at? p ≠ some (mapping m')) → (mapping r).at? p = some (mapping m)
  /-- A mapping of `o` is merged into that of `b`: the keys of `b` come first, then the new ones. -/
  merged : ∀ (p : List Scalar) (m m' : Mapping), (mapping o).at? p = some (mapping m) →
    (mapping b).at? p = some (mapping m') →
      (mapping r).at? p = some (mapping (m'.overlay m)) ∧
        keys (m'.overlay m) = keys m' ++ (keys m).filter fun key => !contains m' key
  /-- There is nothing below what is no mapping in `o`. -/
  hidden : ∀ p q v, (mapping o).at? q = some v → v.isMapping = false → q <+: p → q ≠ p →
    (mapping r).at? p = none
  /-- Where the way in `o` ends at a missing key, there is what `b` has. -/
  kept : ∀ p, (mapping o).at? p = none → (mapping o).IsOpen p →
    (mapping r).at? p = (mapping b).at? p
  /-- Laying `o` over the result changes nothing. -/
  again : r.overlay o = r

lemma isOverlay_overlay (b : Mapping) (ho : (mapping o).isKeyed = true) :
    IsOverlay b o (b.overlay o) := by
  have hat : ∀ {p v}, (mapping o).at? p = some v → (mapping (b.overlay o)).at? p
      = some (((mapping b).at? p).elim v (overlay · v)) := by
    intro p v hv
    rw [← overlay_mapping]
    exact at?_overlay_of_some ho _ hv
  refine ⟨?_, ?_, ?_, ?_, ?_, ?_⟩
  · intro p v hv hmapping
    rw [hat hv]
    cases (mapping b).at? p with
    | none => rfl
    | some old => exact congrArg some (overlay_of_not_isMapping old hmapping)
  · intro p m hm hnone
    rw [hat hm]
    cases hold : (mapping b).at? p with
    | none => rfl
    | some old =>
      have hmapping : old.isMapping = false := by
        cases old with
        | mapping m' => exact absurd hold (hnone m')
        | _ => rfl
      exact congrArg some (overlay_of_base _ hmapping)
  · intro p m m' hm hm'
    rw [hat hm, hm']
    exact ⟨congrArg some (overlay_mapping m' m),
      keys_overlay (isKeyed_mapping_iff.mp (isKeyed_of_at? ho hm)).1 m'⟩
  · intro p q v hv hmapping hq hne
    rw [← overlay_mapping]
    exact at?_overlay_of_prefix ho _ hv hmapping hq hne
  · intro p hnone hopen
    rw [← overlay_mapping]
    exact at?_overlay_of_isOpen ho _ hnone hopen
  · have hagain := overlay_overlay (mapping b) (mapping o) ho
    rw [overlay_mapping, overlay_mapping] at hagain
    exact mapping.inj hagain

/-! ### Filling placeholders -/

variable {s : Placeholder.Setting}

@[simp] lemma fill_mapping (s : Placeholder.Setting) (m : Mapping) :
    (mapping m).fill s = mapping (fillEntries s m) := by
  rw [fill]

lemma isMapping_fill (s : Placeholder.Setting) (v : Value) :
    (v.fill s).isMapping = v.isMapping := by
  unfold fill
  split <;> rfl

lemma get?_fillEntries (s : Placeholder.Setting) (m : Mapping) (key : Scalar) :
    get? (fillEntries s m) key = (get? m key).map (fill s) := by
  induction m with
  | nil => rfl
  | cons e m ih =>
    rw [fillEntries, get?_cons, get?_cons, ih]
    split <;> rfl

lemma fillEntries_insert (s : Placeholder.Setting) (m : Mapping) (key : Scalar) (v : Value) :
    fillEntries s (insert m key v) = insert (fillEntries s m) key (v.fill s) := by
  induction m with
  | nil => rfl
  | cons e m ih =>
    rw [Mapping.insert, fillEntries, Mapping.insert]
    split
    · rfl
    · rw [fillEntries, ih]

lemma fill_overlayAt {e : Scalar × Value}
    (h : ∀ old, (overlay old e.2).fill s = overlay (old.fill s) (e.2.fill s)) (b : Mapping) :
    (overlayAt b e.1 e.2).fill s = overlayAt (fillEntries s b) e.1 (e.2.fill s) := by
  rw [overlayAt, overlayAt, get?_fillEntries]
  cases get? b e.1 with
  | none => rfl
  | some old => exact h old

lemma fillEntries_overlay_of
    (h : ∀ e ∈ o, ∀ old, (overlay old e.2).fill s = overlay (old.fill s) (e.2.fill s))
    (b : Mapping) :
    fillEntries s (b.overlay o) = Mapping.overlay (fillEntries s b) (fillEntries s o) := by
  induction o generalizing b with
  | nil =>
    rw [overlay_nil]
    exact (overlay_nil _).symm
  | cons e o ih =>
    rw [List.forall_mem_cons] at h
    rw [overlay_cons_overlayAt, ih h.2, fillEntries_insert, fill_overlayAt h.1, fillEntries,
      overlay_cons_overlayAt]

/-- Filling placeholders commutes with laying values over one another: keys are not filled, and a
value is a mapping after filling exactly if it was one before. -/
theorem fill_overlay (s : Placeholder.Setting) (base top : Value) :
    (overlay base top).fill s = overlay (base.fill s) (top.fill s) := by
  match top with
  | .mapping o =>
    cases hbase : base.isMapping with
    | true =>
      cases base with
      | mapping b =>
        rw [overlay_mapping, fill_mapping, fill_mapping, fill_mapping, overlay_mapping,
          fillEntries_overlay_of fun e he old => fill_overlay s old e.2]
      | _ => cases hbase
    | false =>
      have hbase' : (base.fill s).isMapping = false := by rw [isMapping_fill, hbase]
      rw [overlay_of_base _ hbase, overlay_of_base _ hbase']
  | .scalar _ | .list _ | .tuple _ | .set _ =>
    rw [overlay_of_not_isMapping _ rfl, overlay_of_not_isMapping _ (isMapping_fill s _)]
termination_by sizeOf top
decreasing_by exact sizeOf_lt_of_mem he

end Value

end Bundler
