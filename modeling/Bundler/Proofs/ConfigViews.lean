import Bundler.Config.Basic
import Bundler.Proofs.Overlays
import Bundler.Proofs.Paths

/-!
# Views of a configuration

A configuration is asked whether it has a key, is indexed by a key and lists its keys. All of this is
told by what a path of keys leads to. A dot in a key separates the keys of a path, so a key that
holds one itself is out of reach; at the end of such a path a nested mapping is given as it is, and
null stands for what is missing.
-/

namespace Bundler.Config

open Mapping Text

variable {v w : Value} {m : Mapping} {key : String} {keys : List String}

/-! ### Keys and paths -/

/-- The key names one entry and no path. -/
def IsPlainKey (key : String) : Prop := '.' ∉ key.toList

instance (key : String) : Decidable (IsPlainKey key) := inferInstanceAs (Decidable (_ ∉ _))

/-- The key that joins the keys of a path. -/
def dotted (keys : List String) : String := String.ofList (join '.' (keys.map String.toList))

/-- What a path of textual keys leads to. -/
def along (v : Value) (keys : List String) : Option Value := v.at? (keys.map .text)

@[simp] lemma along_nil (v : Value) : along v [] = some v := Value.at?_nil v

lemma along_cons (m : Mapping) (key : String) (keys : List String) :
    along (.mapping m) (key :: keys) = (getText? m key).bind (along · keys) := by
  rw [along, List.map_cons, Value.at?_cons]
  rfl

lemma keysOf_of_isPlainKey (h : IsPlainKey key) : keysOf key = [key] := by
  rw [keysOf, split_of_not_mem h, List.map_singleton, String.ofList_toList]

/-- The keys of a path are read back from the key that joins them. -/
lemma keysOf_dotted (hne : keys ≠ []) (h : ∀ key ∈ keys, IsPlainKey key) :
    keysOf (dotted keys) = keys := by
  have hplain : ∀ part ∈ keys.map String.toList, '.' ∉ part := by
    intro part hpart
    obtain ⟨key, hkey, rfl⟩ := List.mem_map.mp hpart
    exact h key hkey
  rw [keysOf, dotted, String.toList_ofList, split_join (by simpa using hne) hplain]
  simp [Function.comp_def]

lemma dotted_singleton (key : String) : dotted [key] = key := by simp [dotted, join]

/-- Only a single key makes no path. -/
lemma not_isPlainKey_dotted (first second : String) (keys : List String) :
    ¬ IsPlainKey (dotted (first :: second :: keys)) := by
  simp [IsPlainKey, dotted, join]

/-! ### What the views see -/

/-- A path of keys is there if it leads to something. -/
lemma hasPath_eq (v : Value) (keys : List String) : hasPath v keys = (along v keys).isSome := by
  induction keys generalizing v with
  | nil => rfl
  | cons key keys ih =>
    cases v with
    | mapping m =>
      rw [hasPath, along_cons, child?]
      cases getText? m key with
      | none => rfl
      | some v => exact ih v
    | _ => rfl

lemma contains_eq (c : Config) (key : String) :
    c.contains key = (along c.data (keysOf key)).isSome := hasPath_eq _ _

/-- At the end of a path null stands for what is missing, and nothing is below it. -/
lemma lookup?_getD_null (v : Value) (keys : List String) :
    (lookup? v keys).getD .null = (along v keys).getD .null := by
  induction keys generalizing v with
  | nil => simp [lookup?]
  | cons key keys ih =>
    cases v with
    | mapping m =>
      rw [lookup?, along_cons, child?]
      cases getText? m key with
      | none => rfl
      | some v =>
        by_cases hnull : v.isNull = true
        · have hv : v = .null := by
            unfold Value.isNull at hnull
            split at hnull
            · rfl
            · cases hnull
          rw [hv]
          cases keys with
          | nil => rfl
          | cons key keys => rfl
        · simpa [hnull] using ih v
    | _ => rfl

/-- A key that is a path gives what is at its end. -/
lemma item_of_not_isPlainKey (c : Config) (h : ¬ IsPlainKey key) :
    c.item (.text key) = .ok (.value ((along c.data (keysOf key)).getD .null)) := by
  rw [IsPlainKey, not_not] at h
  rw [item, if_pos (by simpa using h), get, lookup?_getD_null]

/-- A key that names one entry gives the value of this entry. -/
lemma item_of_isPlainKey (m : Mapping) (h : IsPlainKey key) :
    item ⟨.mapping m⟩ (.text key) =
      match getText? m key with
      | some v => .ok (.ofValue v)
      | none => .error (noKey (.text key)) := by
  rw [IsPlainKey] at h
  rw [item, if_neg (by simpa using h), itemAt, hasKey]
  simp only [bind, Except.bind, contains_eq_isSome, Value.item, getText?]
  cases Mapping.get? m (.text key) <;> rfl

/-- Indexing what an item is by one key gives what the key leads to. -/
lemma item_ofValue (h : IsPlainKey key) (v : Value) :
    (∃ w, along v [key] = some w ∧ (Found.ofValue v).item (.text key) = .ok (.ofValue w)) ∨
      along v [key] = none ∧ ∃ failure, (Found.ofValue v).item (.text key) = .error failure := by
  cases v with
  | mapping m =>
    have hitem : (Found.ofValue (.mapping m)).item (.text key)
        = item ⟨.mapping m⟩ (.text key) := rfl
    rw [hitem, item_of_isPlainKey m h, along_cons]
    cases getText? m key with
    | none => exact Or.inr ⟨rfl, _, rfl⟩
    | some w => exact Or.inl ⟨w, along_nil w, rfl⟩
  | scalar s => cases s <;> exact Or.inr ⟨rfl, _, rfl⟩
  | _ => exact Or.inr ⟨rfl, _, rfl⟩

/-- Indexing by one key after another gives what the path of these keys leads to. -/
lemma foldlM_item (h : ∀ key ∈ keys, IsPlainKey key) (v : Value) :
    (∃ w, along v keys = some w ∧
        (keys.map Value.text).foldlM Found.item (.ofValue v) = .ok (.ofValue w)) ∨
      along v keys = none ∧
        ∃ failure, (keys.map Value.text).foldlM Found.item (.ofValue v) = .error failure := by
  induction keys generalizing v with
  | nil => exact Or.inl ⟨v, along_nil v, rfl⟩
  | cons key keys ih =>
    rw [List.forall_mem_cons] at h
    have hsplit : along v (key :: keys) = (along v [key]).bind (along · keys) :=
      Value.at?_append v [.text key] _
    rw [hsplit, List.map_cons, List.foldlM_cons]
    rcases item_ofValue h.1 v with ⟨w, hw, hitem⟩ | ⟨hnone, failure, hitem⟩
    · rw [hw, hitem]
      exact ih h.2 w
    · rw [hnone, hitem]
      exact Or.inr ⟨rfl, failure, rfl⟩

/-! ### The views together -/

/-- What is found, without telling nested configurations from mappings. -/
def Found.toValue : Found → Value
  | .config c => c.data
  | .value v => v

@[simp] lemma Found.toValue_ofValue (v : Value) : (Found.ofValue v).toValue = v := by
  cases v <;> rfl

/-- What the views of a configuration say about each other. -/
structure ViewsAgree (m : Mapping) : Prop where
  /-- A key without a dot is there if indexing by it gives something. -/
  plain : ∀ key, IsPlainKey key →
    (contains ⟨.mapping m⟩ key = true ↔ ∃ found, item ⟨.mapping m⟩ (.text key) = .ok found) ∧
    (contains ⟨.mapping m⟩ key = false →
      item ⟨.mapping m⟩ (.text key) = .error (noKey (.text key)))
  /-- A key with a dot is there if its path leads to something, which is what indexing gives. -/
  path : ∀ key, ¬ IsPlainKey key →
    ∃ v, item ⟨.mapping m⟩ (.text key) = .ok (.value v) ∧
      (contains ⟨.mapping m⟩ key = true → along (.mapping m) (keysOf key) = some v) ∧
      (contains ⟨.mapping m⟩ key = false → along (.mapping m) (keysOf key) = none ∧ v = .null)
  /-- Each key that is listed is there, and indexing by it gives its value. -/
  entries : ∀ key v, (.text key, v) ∈ m → IsPlainKey key →
    contains ⟨.mapping m⟩ key = true ∧ item ⟨.mapping m⟩ (.text key) = .ok (.ofValue v)
  /-- If indexing by one key after another gives something, so does the key that joins them. -/
  found : ∀ keys found, keys ≠ [] → (∀ key ∈ keys, IsPlainKey key) →
    itemAlong ⟨.mapping m⟩ (keys.map .text) = .ok found →
    contains ⟨.mapping m⟩ (dotted keys) = true ∧
    item ⟨.mapping m⟩ (.text (dotted keys))
      = .ok (if keys.length = 1 then found else .value found.toValue)
  /-- If indexing by one key after another fails, the key that joins them is not there. -/
  missing : ∀ keys failure, keys ≠ [] → (∀ key ∈ keys, IsPlainKey key) →
    itemAlong ⟨.mapping m⟩ (keys.map .text) = .error failure →
    contains ⟨.mapping m⟩ (dotted keys) = false ∧
    item ⟨.mapping m⟩ (.text (dotted keys))
      = if keys.length = 1 then .error failure else .ok (.value .null)

/-- Indexing by the only key of a path. -/
lemma itemAlong_singleton (c : Config) (key : String) :
    c.itemAlong ([key].map .text) = c.item (.text key) := by
  have hstep : c.itemAlong ([key].map .text) = (c.item (.text key)).bind .ok := rfl
  rw [hstep]
  cases c.item (.text key) <;> rfl

/-- Indexing by the key of a path with several keys. -/
lemma item_dotted {first second : String} (c : Config)
    (h : ∀ key ∈ first :: second :: keys, IsPlainKey key) :
    c.item (.text (dotted (first :: second :: keys)))
      = .ok (.value ((along c.data (first :: second :: keys)).getD .null)) := by
  rw [item_of_not_isPlainKey c (not_isPlainKey_dotted first second keys),
    keysOf_dotted (List.cons_ne_nil _ _) h]

/-- Whether a key is there, what indexing by it gives and what is listed is told by the paths of
keys, the same for each view. -/
theorem viewsAgree_of_isDistinct (m : Mapping) (hm : m.IsDistinct) : ViewsAgree m := by
  have hplain : ∀ key, IsPlainKey key →
      contains ⟨.mapping m⟩ key = (getText? m key).isSome := by
    intro key hkey
    rw [contains_eq, keysOf_of_isPlainKey hkey, along_cons]
    cases getText? m key <;> simp
  have halong : ∀ keys, (∀ key ∈ keys, IsPlainKey key) →
      (∃ w, along (.mapping m) keys = some w ∧
          itemAlong ⟨.mapping m⟩ (keys.map .text) = .ok (.ofValue w)) ∨
        along (.mapping m) keys = none ∧
          ∃ failure, itemAlong ⟨.mapping m⟩ (keys.map .text) = .error failure :=
    fun keys hkeys => foldlM_item hkeys (.mapping m)
  constructor
  case plain =>
    intro key hkey
    rw [hplain key hkey, item_of_isPlainKey m hkey]
    cases getText? m key <;> simp
  case path =>
    intro key hkey
    refine ⟨_, item_of_not_isPlainKey _ hkey, ?_⟩
    rw [contains_eq]
    cases along (.mapping m) (keysOf key) <;> simp
  case entries =>
    intro key v hmem hkey
    have hget : getText? m key = some v := hm.get?_of_mem hmem
    rw [hplain key hkey, item_of_isPlainKey m hkey, hget]
    exact ⟨rfl, rfl⟩
  case found =>
    intro keys found hne hkeys hfound
    obtain ⟨w, hw, hitem⟩ | ⟨-, failure, hfails⟩ := halong keys hkeys
    · obtain rfl : found = .ofValue w := Except.ok.inj (hfound.symm.trans hitem)
      rw [contains_eq, keysOf_dotted hne hkeys, hw]
      refine ⟨rfl, ?_⟩
      match keys with
      | [] => exact absurd rfl hne
      | [key] =>
        rw [dotted_singleton, ← itemAlong_singleton]
        exact hfound
      | first :: second :: keys =>
        rw [item_dotted _ hkeys, hw]
        simp
    · rw [hfails] at hfound
      cases hfound
  case missing =>
    intro keys failure hne hkeys hfails
    obtain ⟨w, -, hitem⟩ | ⟨hnone, -⟩ := halong keys hkeys
    · rw [hitem] at hfails
      cases hfails
    · rw [contains_eq, keysOf_dotted hne hkeys, hnone]
      refine ⟨rfl, ?_⟩
      match keys with
      | [] => exact absurd rfl hne
      | [key] =>
        rw [dotted_singleton, ← itemAlong_singleton]
        exact hfails
      | first :: second :: keys =>
        rw [item_dotted _ hkeys, hnone]
        simp

/-- A mapping with a nested one, a null and a key that holds a dot. -/
def sampleData : Mapping :=
  [(.text "a", .mapping [(.text "b", .mapping []), (.text "c", .null)]), (.text "a.d", .int 1)]

/-- The nested mapping is found by either way; what is missing in it fails by one way only. -/
theorem viewsAgree_sampleData :
    sampleData.IsDistinct ∧ ViewsAgree sampleData ∧
    (contains ⟨.mapping sampleData⟩ "a.b" = true ∧
      item ⟨.mapping sampleData⟩ (.text "a.b") = .ok (.value (.mapping []))) ∧
    (contains ⟨.mapping sampleData⟩ "a.d" = false ∧
      item ⟨.mapping sampleData⟩ (.text "a.d") = .ok (.value .null)) := by
  have hdistinct : sampleData.IsDistinct := by decide
  have hagree := viewsAgree_of_isDistinct sampleData hdistinct
  have hplain : ∀ last, IsPlainKey last → ∀ key ∈ ["a", last], IsPlainKey key := by
    intro last hlast key hkey
    rcases List.mem_pair.mp hkey with rfl | rfl
    · decide
    · exact hlast
  exact ⟨hdistinct, hagree,
    hagree.found ["a", "b"] (.config ⟨.mapping []⟩) (by simp) (hplain "b" (by decide)) rfl,
    hagree.missing ["a", "d"] (noKey (.text "d")) (by simp) (hplain "d" (by decide)) rfl⟩

/-- A path to nothing is not there and gives null all the same; a key with a dot is listed and not
there; a nested mapping at the end of a path is no configuration. -/
theorem views_not_always_agree :
    (¬ ∀ (m : Mapping) (key : String), contains ⟨.mapping m⟩ key = true ↔
        ∀ shown, item ⟨.mapping m⟩ (.text key) ≠ .error (.missingKey shown)) ∧
    (¬ ∀ (m : Mapping) (key : String) (v : Value), m.IsDistinct → (.text key, v) ∈ m →
        contains ⟨.mapping m⟩ key = true ∧ item ⟨.mapping m⟩ (.text key) = .ok (.ofValue v)) ∧
    ¬ ∀ (m : Mapping) (keys : List String), keys ≠ [] → (∀ key ∈ keys, IsPlainKey key) →
        item ⟨.mapping m⟩ (.text (dotted keys)) = itemAlong ⟨.mapping m⟩ (keys.map .text) := by
  refine ⟨?_, ?_, ?_⟩
  · intro hall
    have hthere := (hall sampleData "a.d").mpr fun _ => nofun
    exact absurd hthere (by decide)
  · intro hall
    have hthere := (hall sampleData "a.d" (.int 1) (by decide) (by simp [sampleData])).1
    exact absurd hthere (by decide)
  · intro hall
    have hsame := hall sampleData ["a", "b"] (by simp) (by simp [IsPlainKey])
    cases hsame

end Bundler.Config
