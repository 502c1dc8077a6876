import Mathlib.Combinatorics.Enumerative.DoubleCounting
import Mathlib.Data.Finset.Sum
import Mathlib.Tactic.Ring
import Bundler.Proofs.CanonicalNames
import Bundler.Proofs.Changes
import Bundler.Proofs.Closure
import Bundler.Proofs.FailedLoads
import Bundler.Proofs.FilesOfNames
import Bundler.Proofs.OrdinaryNames
import Bundler.Proofs.Walks

/-!
# How deep loads nest

A load that is nested too deep has gone through as many new names as may be nested. Names that can
be read are told apart by how their stems start, by what the stems lead to and by what follows, so
there are not more of them than there are files, but for a factor that grows with how far they go
up.

Beyond the root each `..` makes another name for the same file, so a file that imports itself from
above the root is loaded again and again. This ends where the paths get too long to be read. So
loading ends in any case, and a limit that is high enough plays no part in it.
-/

namespace Bundler

/-! ### Ways to start -/

/-- A number for how far a path goes up and for its anchor. -/
def Path.lane (p : Path) : Nat :=
  3 * p.climb + match p.anchor with
    | .relative => 0
    | .root => 1
    | .doubleRoot => 2

/-- Paths in the same lane have the same anchor and go up equally far. -/
lemma Path.lane_inj {p q : Path} (h : p.lane = q.lane) :
    p.anchor = q.anchor ∧ p.climb = q.climb := by
  unfold lane at h
  cases hp : p.anchor <;> cases hq : q.anchor <;> simp only [hp, hq] at h <;>
    first | exact ⟨rfl, by omega⟩ | omega

/-- Paths in the same lane that lead to the same place are equal. -/
lemma Path.eq_of_lane_eq {base p q : Path} (hbase : base.isAbsolute = true)
    (hp : Path.IsNormal p.isAbsolute p.segments) (hq : Path.IsNormal q.isAbsolute q.segments)
    (hlane : p.lane = q.lane) (hplace : (base.append p).place = (base.append q).place) : p = q := by
  obtain ⟨hanchor, hclimb⟩ := lane_inj hlane
  have hbase' : base.normalize.isAbsolute = true := hbase
  -- the base is put in normal form
  have hnormal : ∀ p, (base.normalize.append p).place = (base.append p).place :=
    fun p => place_append_congr hbase' hbase (place_normalize base) p
  apply eq_of_climb_eq hbase' (not_mem_place hbase) hp hq hanchor hclimb
  exact (hnormal p).trans (hplace.trans (hnormal q).symm)

/-- A path that goes on goes up at least as far. -/
lemma Path.climb_le (p : Path) (rest : List String) :
    p.climb ≤ (⟨p.anchor, p.segments ++ rest⟩ : Path).climb := by
  have hlength : (p.segments.takeWhile (· = "..")).length ≤ p.segments.length :=
    (List.takeWhile_sublist _).length_le
  rw [climb, climb, List.takeWhile_append]
  split
  · rw [List.length_append]
    exact Nat.le_add_right_of_le hlength
  · exact Nat.le_refl _

lemma Path.climb_le_sizeOf (p : Path) : p.climb ≤ sizeOf p.segments := by
  have hup : ∀ s ∈ p.segments.takeWhile (· = ".."), s = ".." := by
    intro s hs
    simpa using List.all_eq_true.mp List.all_takeWhile s hs
  have hle : sizeOf (p.segments.takeWhile (· = "..")) ≤ sizeOf p.segments :=
    sizeOf_le_of_sublist (List.takeWhile_sublist _)
  rw [List.eq_replicate_of_mem hup, sizeOf_replicate] at hle
  exact (Nat.le_mul_of_pos_right _ (Nat.succ_pos _)).trans hle

/-- The text of an absolute path has a slash before every segment. -/
lemma Path.sizeOf_le_text {p : Path} (hp : p.isAbsolute = true) :
    sizeOf p.segments ≤ p.text.utf8ByteSize := by
  by_cases hne : p.segments = []
  · simp [hne]
  · have hsize := utf8ByteSize_intercalate hne
    have hanchor : 1 ≤ (anchorText p.anchor).utf8ByteSize := by
      cases hanchor : p.anchor with
      | relative => simp [isAbsolute, hanchor] at hp
      | root => exact Nat.le_refl _
      | doubleRoot => exact Nat.le_succ 1
    rw [text, if_neg (fun h => hne h.2), String.utf8ByteSize_append]
    omega

/-- Every `..` takes up some of the length of a path, which is limited. -/
lemma Path.climb_le_pathLimit {base p : Path} (hbase : base.isAbsolute = true)
    (h : Workspace.isTooLong (base.append p) = false) : p.climb ≤ Workspace.pathLimit := by
  have hshort : (base.append p).text.utf8ByteSize ≤ Workspace.pathLimit := by
    simpa [Workspace.isTooLong] using h
  have hpart : sizeOf p.segments ≤ sizeOf (base.append p).segments := by
    apply sizeOf_le_of_sublist
    unfold append
    split
    · exact List.Sublist.refl _
    · exact List.sublist_append_right _ _
  calc p.climb ≤ sizeOf p.segments := p.climb_le_sizeOf
    _ ≤ sizeOf (base.append p).segments := hpart
    _ ≤ (base.append p).text.utf8ByteSize := sizeOf_le_text (isAbsolute_append p hbase)
    _ ≤ Workspace.pathLimit := hshort

lemma Path.lane_lt {p : Path} {depth : Nat} (h : p.climb ≤ depth) : p.lane < 3 * (depth + 1) := by
  unfold lane
  split <;> omega

namespace Load.Source

variable {scope : Scope} {s t : State} {name source : String} {referrer : Value} {nesting : Nat}
  {options : Options} {base : Path} {w : Workspace}

/-! ### The names of nested loads -/

/-- The name is the canonical name of something whose source has been read. -/
def IsRead (scope : Scope) (canonical : String) : Prop :=
  (∃ name referrer, ModuleName.canonical name referrer scope.options = .ok canonical) ∧
    ∃ notes source, sourceAt? (scope.view notes) scope.base canonical = some source

/-- A source of the first name, as it has been read at some time, imports the second one. -/
def Imports (scope : Scope) (canonical canonical' : String) : Prop :=
  ∃ notes source, sourceAt? (scope.view notes) scope.base canonical = some source ∧
    ∃ specifier ∈ Specifier.ofSource source,
      ModuleName.canonical specifier (.text canonical) scope.options = .ok canonical'

/-- A load that is nested too deep goes through a new name at each depth, each imported by the one
before it. -/
theorem exists_trail (h : loadModule scope nesting name referrer s = (.error .nestedTooDeep, t)) :
    ∃ trail : List String, trail.length = nesting ∧ trail.Nodup ∧ trail.IsChain (Imports scope) ∧
      (∀ first ∈ trail.head?, ModuleName.canonical name referrer scope.options = .ok first) ∧
      ∀ canonical ∈ trail, canonical ∉ s.loaded ∧ canonical ∈ t.loaded ∧ IsRead scope canonical := by
  induction nesting generalizing name referrer s with
  | zero => exact ⟨[], rfl, List.nodup_nil, .nil, nofun, nofun⟩
  | succ nesting ih =>
    rcases loadModule_error h with ⟨hcanonical, -⟩ | ⟨canonical, hcanonical, hfresh, hrest⟩
    · exact False.elim (isPlain_canonical hcanonical)
    rcases hrest with henter | ⟨source, s₁, henter, ⟨hnames, -⟩ | ⟨_, -, hnested⟩⟩
    · exact False.elim (isPlain_enter henter)
    · exact False.elim (isPlain_dependencyNames hnames)
    · obtain ⟨before, specifier, after, m, hsplit, hbefore, hload⟩ :=
        exists_of_inOrder_eq_error hnested
      obtain ⟨trail, hlength, hnodup, hchain, hfirst, htrail⟩ := ih hload
      obtain ⟨hloaded, -, -, hsource⟩ := enter_ok henter
      have hspecifier : specifier ∈ Specifier.ofSource source := by
        rw [hsplit]
        simp
      have hmarked : s₁.loaded ⊆ m.loaded := by
        have hkeeps := loaded_subset_inOrder scope nesting (.text canonical) before s₁
        rwa [hbefore] at hkeeps
      have hend : m.loaded ⊆ t.loaded := by
        have hkeeps := loaded_subset_loadModule scope nesting specifier (.text canonical) m
        rwa [hload] at hkeeps
      rw [hloaded, List.cons_subset] at hmarked
      refine ⟨canonical :: trail, by simp [hlength], ?_, ?_, ?_, ?_⟩
      · rw [List.nodup_cons]
        exact ⟨fun hmem => (htrail canonical hmem).1 hmarked.1, hnodup⟩
      · refine List.isChain_cons.mpr ⟨fun next hnext => ?_, hchain⟩
        exact ⟨s.notes, source, hsource, specifier, hspecifier, hfirst next hnext⟩
      · rintro first ⟨⟩
        exact hcanonical
      · intro c hc
        rcases List.mem_cons.mp hc with rfl | hc
        · exact ⟨hfresh, hend hmarked.1, ⟨name, referrer, hcanonical⟩, s.notes, source, hsource⟩
        · obtain ⟨hnew, hin, hread⟩ := htrail c hc
          exact ⟨fun hmem => hnew (hmarked.2 hmem), hin, hread⟩

/-- Only modules nest. -/
lemma loadModule_of_load {call : Call}
    (h : load scope nesting call s = (.error .nestedTooDeep, t)) :
    loadModule scope nesting call.name call.referrer s = (.error .nestedTooDeep, t) := by
  unfold load at h
  split at h
  · exact h
  · rcases loadScript_error h with ⟨hcanonical, -⟩ | ⟨_, -, -, henter⟩
    · exact False.elim (isPlain_canonical hcanonical)
    · exact False.elim (isPlain_enter henter)

/-! ### Loads that are not nested too deep -/

/-- A load that is not nested too deep is the same with a higher limit. -/
theorem loadModule_of_le {deeper : Nat} (hle : nesting ≤ deeper)
    (h : (loadModule scope nesting name referrer s).1 ≠ .error .nestedTooDeep) :
    loadModule scope deeper name referrer s = loadModule scope nesting name referrer s := by
  induction nesting generalizing name referrer s deeper with
  | zero => exact absurd rfl h
  | succ nesting ih =>
    obtain ⟨deeper, rfl⟩ : ∃ n, deeper = n + 1 := ⟨deeper - 1, by omega⟩
    simp only [loadModule] at h ⊢
    split
    · rfl
    · next canonical hcanonical =>
      simp only [hcanonical] at h
      split
      · rfl
      · next hloaded =>
        rw [if_neg hloaded] at h
        split
        · rfl
        · next source s₁ henter =>
          simp only [henter] at h
          split
          · rfl
          · next dependencies hnames =>
            simp only [hnames] at h
            rw [inOrder_congr (e := .nestedTooDeep)]
            · intro specifier m hm
              exact ih (by omega) hm
            · intro hnested
              apply h
              split
              · next heq => rw [heq] at hnested; exact hnested
              · next heq => rw [heq] at hnested; cases hnested

lemma load_of_le {deeper : Nat} {call : Call} (hle : nesting ≤ deeper)
    (h : (load scope nesting call s).1 ≠ .error .nestedTooDeep) :
    load scope deeper call s = load scope nesting call s := by
  unfold load at h ⊢
  split
  · next hkind =>
    simp only [hkind] at h
    exact loadModule_of_le hle h
  · rfl

/-! ### How many names there are -/

/-- What a name is told apart by: what stands before an extension that has no stem, or else what
follows the stem, the lane of the stem and the place that it leads to. -/
def HasKey (base : Path) (options : Options) (c : String) : String ⊕ String × Nat × Location → Prop
  | .inl pre => ∃ e, ModuleName.extension options = .ok e ∧ c = pre ++ e
  | .inr (suffix, lane, place) => ∃ q, ModuleName.IsStem options q suffix c ∧ q.lane = lane ∧
      (base.append q).place = place

/-- No two names have the same key. -/
lemma HasKey.inj {c c' : String} {key : String ⊕ String × Nat × Location}
    (hbase : base.isAbsolute = true) (h : HasKey base options c key)
    (h' : HasKey base options c' key) : c = c' := by
  cases key with
  | inl pre =>
    obtain ⟨e, he, rfl⟩ := h
    obtain ⟨e', he', rfl⟩ := h'
    rw [Except.ok.inj (he.symm.trans he')]
  | inr key =>
    obtain ⟨q, hstem, hlane, hplace⟩ := h
    obtain ⟨q', hstem', hlane', hplace'⟩ := h'
    have hq : q = q' := Path.eq_of_lane_eq hbase hstem.normal hstem'.normal
      (hlane.trans hlane'.symm) (hplace.trans hplace'.symm)
    rw [hstem.text, hstem'.text, hq]

/-- What may follow a stem. -/
def suffixes (options : Options) : Finset String :=
  match ModuleName.extension options with
  | .ok e => {"", ModuleName.fromSlash e}
  | .error _ => {""}

/-- The number of lanes of names that can be read. -/
def laneCount : Nat := 3 * (Workspace.pathLimit + 1)

/-- The keys of names that can be read where all files stand at some of the places. -/
def keys (options : Options) (places : List Location) : Finset (String ⊕ String × Nat × Location) :=
  Finset.disjSum {"", "/", "//"} (suffixes options ×ˢ Finset.range laneCount ×ˢ
    insert [] places.toFinset)

/-- There are not more names that can be read where all files stand at some of the places. -/
def nameBound (places : List Location) : Nat :=
  2 * (laneCount * (places.length + 1)) + 3

lemma card_keys_le (options : Options) (places : List Location) :
    (keys options places).card ≤ nameBound places := by
  have hsuffixes : (suffixes options).card ≤ 2 := by
    unfold suffixes
    split
    · exact Finset.card_le_two
    · simp
  have hplaces : (insert [] places.toFinset : Finset Location).card ≤ places.length + 1 :=
    (Finset.card_insert_le _ _).trans (Nat.add_le_add_right (List.toFinset_card_le places) 1)
  have hanchors : ({"", "/", "//"} : Finset String).card = 3 := rfl
  rw [keys, Finset.card_disjSum, Finset.card_product, Finset.card_product, Finset.card_range,
    hanchors, Nat.add_comm]
  apply Nat.add_le_add_right
  exact Nat.mul_le_mul hsuffixes (Nat.mul_le_mul_left _ hplaces)

/-- A name that can be read has a key. -/
lemma exists_key {c : String} {places : List Location} (hbase : base.isAbsolute = true)
    (hplaces : ∀ node ∈ w.files.nodes, node.1 ∈ places)
    (hname : ∃ name referrer, ModuleName.canonical name referrer options = .ok c)
    (hsource : sourceAt? w base c = some source) :
    ∃ key ∈ keys options places, HasKey base options c key := by
  obtain ⟨_, _, hname⟩ := hname
  rcases ModuleName.canonical_stem hname with ⟨e, anchor, he, rfl⟩ | ⟨q, suffix, hstem⟩
  · refine ⟨.inl (Path.anchorText anchor), ?_, e, he, rfl⟩
    rw [keys, Finset.inl_mem_disjSum]
    cases anchor <;> simp [Path.anchorText]
  · refine ⟨.inr (suffix, q.lane, (base.append q).place), ?_, q, hstem, rfl, rfl⟩
    have hsuffix : suffix ∈ suffixes options := by
      unfold suffixes
      rcases hstem.suffix with rfl | ⟨e, he, rfl⟩
      · split <;> simp
      · simp [he]
    have hlane : q.lane < laneCount := by
      have hshort : Workspace.isTooLong (locate base c) = false := by
        by_contra hlong
        rw [sourceAt?_of_isTooLong (by simpa using hlong)] at hsource
        cases hsource
      have hclimb := Path.climb_le_pathLimit hbase hshort
      rw [hstem.ofString] at hclimb
      exact Path.lane_lt ((q.climb_le _).trans hclimb)
    have hplace : (base.append q).place ∈ insert [] places.toFinset := by
      obtain ⟨_, _, hlook, -⟩ := exists_look_of_sourceAt? hsource
      rw [locate, hstem.ofString, Path.append_segments] at hlook
      obtain ⟨node, hnode⟩ := Workspace.exists_node_of_look (Path.isAbsolute_append q hbase) hlook
      rw [Finset.mem_insert, List.mem_toFinset]
      refine (FileTree.mem_of_node? hnode).imp_right fun hmem => ?_
      obtain ⟨node, hnode, heq⟩ := List.mem_map.mp hmem
      exact heq ▸ hplaces node hnode
    rw [keys, Finset.inr_mem_disjSum, Finset.mem_product, Finset.mem_product, Finset.mem_range]
    exact ⟨hsuffix, hlane, hplace⟩

/-- There are not more names that can be read than there are keys. -/
lemma length_le_of_isRead {names : List String} {places : List Location}
    (hbase : scope.base.isAbsolute = true)
    (hplaces : ∀ notes, ∀ node ∈ (scope.view notes).files.nodes, node.1 ∈ places)
    (hnodup : names.Nodup) (hread : ∀ canonical ∈ names, IsRead scope canonical) :
    names.length ≤ nameBound places := by
  have hcard : names.toFinset.card ≤ (keys scope.options places).card := by
    apply Finset.card_le_card_of_forall_subsingleton (HasKey scope.base scope.options)
    · intro canonical hmem
      rw [List.mem_toFinset] at hmem
      obtain ⟨hname, notes, source, hsource⟩ := hread canonical hmem
      exact exists_key hbase (hplaces notes) hname hsource
    · rintro key - canonical ⟨-, hkey⟩ canonical' ⟨-, hkey'⟩
      exact hkey.inj hbase hkey'
  rw [List.toFinset_card_of_nodup hnodup] at hcard
  exact hcard.trans (card_keys_le scope.options places)

/-! ### The names that are marked -/

/-- The names marked so far are all different, and all but the last one have been read; so has the
last one, unless its load has failed. -/
structure MarksRead (P : String → Prop) (result : Except Failure Unit) (loaded : List String) :
    Prop where
  nodup : loaded.Nodup
  tail : ∀ canonical ∈ loaded.tail, P canonical
  ok : result = .ok () → ∀ canonical ∈ loaded, P canonical

variable {P : String → Prop}

/-- What all marked names have has also been settled if something else fails. -/
lemma MarksRead.error {loaded : List String} (h : MarksRead P (.ok ()) loaded)
    (result : Except Failure Unit) : MarksRead P result loaded :=
  ⟨h.nodup, h.tail, fun _ => h.ok rfl⟩

/-- Steps that mark names in this way make a run that does. -/
lemma marksRead_inOrder {α σ : Type} {step : α → σ → Except Failure Unit × σ}
    (loadedOf : σ → List String) {I : σ → Prop}
    (hstep : ∀ a s, I s → MarksRead P (.ok ()) (loadedOf s) →
      I (step a s).2 ∧ MarksRead P (step a s).1 (loadedOf (step a s).2))
    (as : List α) {s : σ} (hinv : I s) (hs : MarksRead P (.ok ()) (loadedOf s)) :
    MarksRead P (inOrder step as s).1 (loadedOf (inOrder step as s).2) := by
  induction as generalizing s with
  | nil => exact hs
  | cons a as ih =>
    obtain ⟨hinv', hfirst⟩ := hstep a s hinv hs
    simp only [inOrder]
    split
    · next hm =>
      rw [hm] at hfirst
      exact hfirst
    · next hm =>
      rw [hm] at hinv' hfirst
      exact ih hinv' hfirst

/-- A new name is marked before its file is read. -/
lemma enter_marksRead {canonical : String} (hread : ∀ c, IsRead scope c → P c)
    (hname : ModuleName.canonical name referrer scope.options = .ok canonical)
    (hnew : canonical ∉ s.loaded) (hs : MarksRead P (.ok ()) s.loaded) :
    MarksRead P ((enter scope canonical referrer s).1.map fun _ => ())
      (enter scope canonical referrer s).2.loaded := by
  have hloaded := enter_loaded scope canonical referrer s
  constructor
  · rw [hloaded]
    exact List.nodup_cons.mpr ⟨hnew, hs.nodup⟩
  · rw [hloaded]
    exact hs.ok rfl
  · intro hok
    rw [hloaded]
    refine List.forall_mem_cons.mpr ⟨?_, hs.ok rfl⟩
    cases hentered : enter scope canonical referrer s with
    | mk result t =>
      cases result with
      | error failure => simp [hentered, Except.map] at hok
      | ok source =>
        exact hread _ ⟨⟨name, referrer, hname⟩, s.notes, source, (enter_ok hentered).2.2.2⟩

/-- A load of a module marks names that are read. -/
lemma loadModule_marksRead (hread : ∀ c, IsRead scope c → P c)
    (hs : MarksRead P (.ok ()) s.loaded) :
    MarksRead P (loadModule scope nesting name referrer s).1
      (loadModule scope nesting name referrer s).2.loaded := by
  induction nesting generalizing name referrer s with
  | zero => exact hs.error _
  | succ nesting ih =>
    simp only [loadModule]
    split
    · exact hs.error _
    · next canonical hname =>
      split
      · exact hs
      · next hloaded =>
        have hentered := enter_marksRead hread hname
          (fun hmem => hloaded (List.contains_iff_mem.mpr hmem)) hs
        split
        · next henter =>
          rw [henter] at hentered
          exact hentered
        · next source s₁ henter =>
          rw [henter] at hentered
          split
          · exact hentered.error _
          · have hnested := marksRead_inOrder State.loaded (I := fun _ => True)
              (fun specifier m _ hm => ⟨trivial, @ih m specifier (.text canonical) hm⟩) (Specifier.ofSource source) trivial hentered
            split
            · next hrun =>
              rw [hrun] at hnested
              exact hnested
            · next hrun =>
              rw [hrun] at hnested
              exact hnested

/-- A load of a script marks a name that is read. -/
lemma loadScript_marksRead (hread : ∀ c, IsRead scope c → P c)
    (hs : MarksRead P (.ok ()) s.loaded) :
    MarksRead P (loadScript scope name referrer s).1
      (loadScript scope name referrer s).2.loaded := by
  simp only [loadScript]
  split
  · exact hs.error _
  · next canonical hname =>
    split
    · exact hs
    · next hloaded =>
      have hentered := enter_marksRead hread hname
        (fun hmem => hloaded (List.contains_iff_mem.mpr hmem)) hs
      split
      · next henter =>
        rw [henter] at hentered
        exact hentered
      · next henter =>
        rw [henter] at hentered
        exact hentered

lemma load_marksRead {call : Call} (hread : ∀ c, IsRead scope c → P c)
    (hs : MarksRead P (.ok ()) s.loaded) :
    MarksRead P (load scope nesting call s).1 (load scope nesting call s).2.loaded := by
  unfold load
  split
  · exact loadModule_marksRead hread hs
  · exact loadScript_marksRead hread hs

end Load.Source

/-! ### Places of files -/

/-- Files that are rewritten stand where they stood. -/
lemma FileTree.Rewrites.mem_places {changing : List Location} {t t' : FileTree}
    (h : t.Rewrites changing t') : ∀ node ∈ t'.nodes, node.1 ∈ t.nodes.map (·.1) := by
  induction h with
  | refl => exact fun node hnode => List.mem_map_of_mem hnode
  | @write t' loc content content' _ _ hfile ih =>
    intro node hnode
    rcases List.mem_cons.mp hnode with rfl | hnode
    · cases hnode' : t'.node? loc with
      | none => simp [content?, hnode'] at hfile
      | some there =>
        rcases mem_of_node? hnode' with rfl | hmem
        · simp [content?, node?_nil] at hfile
        · obtain ⟨earlier, hearlier, rfl⟩ := List.mem_map.mp hmem
          exact ih earlier hearlier
    · exact ih node (List.mem_filter.mp hnode).1

/-- Notes are written to files that are there, so that files stand at the same places after them. -/
lemma Journal.mem_places_of_view (j : Journal) (w : Workspace) (notes : List Note) :
    ∀ node ∈ (j.view w notes).files.nodes, node.1 ∈ w.files.nodes.map (·.1) :=
  (j.noteAll_rewrites notes w).2.2.mem_places

/-! ### Compilations -/

namespace Compile

open Load Load.Source

variable {σ : Type} {loader : Loader σ} {reporting : Bool} {nesting : Nat} {view : View}
  {w : Workspace} {options : Options} {entry : Entry} {entries : List Entry} {base : Path}
  {memory : List (Value × String)} {run run' : Run (List (Value × String))}

/-- Loading that is nested too deep has gone through as many names as may be nested. -/
lemma compileEntries_nestedTooDeep
    (h : (compileEntries (Source.loader reporting nesting) view entries options base memory).1
      = .error .nestedTooDeep) :
    ∃ trail : List String, trail.length = nesting ∧ trail.Nodup ∧ ∀ canonical ∈ trail,
      canonical ∈ (compileEntries (Source.loader reporting nesting) view entries options base
        memory).2.session.loaded ∧
      IsRead ⟨view, base, options, reporting⟩ canonical := by
  obtain ⟨entry, -, notes, s, t, hload, hloaded⟩ := compileEntries_error h
  obtain ⟨trail, hlength, hnodup, -, -, htrail⟩ := exists_trail (loadModule_of_load hload)
  refine ⟨trail, hlength, hnodup, ?_⟩
  intro canonical hmem
  obtain ⟨-, hin, hname, notes', hsource⟩ := htrail canonical hmem
  rw [← hloaded] at hin
  exact ⟨hin, hname, notes ++ notes', hsource⟩

/-- Loading entries marks names that are read. -/
lemma compileEntries_marksRead (reporting : Bool) (nesting : Nat) (view : View) (entries : List Entry) (options : Options)
    (base : Path) (memory : List (Value × String)) : ∃ result,
    MarksRead (IsRead ⟨view, base, options, reporting⟩) result
      (compileEntries (Source.loader reporting nesting) view entries options base
        memory).2.session.loaded := by
  have hnew : MarksRead (IsRead ⟨view, base, options, reporting⟩) (.ok ())
      (newRun base memory).session.loaded := ⟨List.nodup_nil, nofun, fun _ => nofun⟩
  have hrun := @marksRead_inOrder _ _ _ (loadEntry (Source.loader reporting nesting) view options)
    (fun run => run.session.loaded) (fun run => IsOpen base run.session) ?_ entries
    (newRun base memory) ⟨rfl, rfl⟩ hnew
  · cases h : inOrder (loadEntry (Source.loader reporting nesting) view options) entries
        (newRun base memory) with
    | mk result run =>
      rw [h] at hrun
      cases result with
      | error failure => exact ⟨_, by rw [compileEntries_of_inOrder_error h]; exact hrun⟩
      | ok _ => exact ⟨_, by rw [compileEntries_of_inOrder h]; exact hrun⟩
  · intro entry run hopen hmarked
    refine ⟨loadEntry_isOpen _ view options entry hopen, ?_⟩
    have hload : MarksRead (IsRead ⟨view, base, options, reporting⟩)
        (load (scopeOf reporting view options entry run) nesting (callOf options entry)
          (stateOf run)).1
        (load (scopeOf reporting view options entry run) nesting (callOf options entry)
          (stateOf run)).2.loaded := by
      apply load_marksRead _ hmarked
      rintro c ⟨hname, notes, source, hsource⟩
      refine ⟨hname, run.notes ++ [entryNote entry] ++ notes, source, ?_⟩
      rwa [scopeOf, hopen.1] at hsource
    rw [loadEntry_eq]
    dsimp only
    split
    · next heq =>
      rw [heq] at hload
      exact hload
    · next heq =>
      rw [heq] at hload
      rw [loaded_addEvaluation]
      exact hload.error _

/-- A reply that does not tell of deep nesting is the same with a higher limit. -/
lemma loader_load_of_le {deeper : Nat} {session : Session} {call : Call} (hle : nesting ≤ deeper)
    (h : ((Source.loader reporting nesting).load view session memory call).result
      ≠ .error .nestedTooDeep) :
    (Source.loader reporting deeper).load view session memory call
      = (Source.loader reporting nesting).load view session memory call := by
  dsimp only [Source.loader] at h ⊢
  rw [load_of_le hle h]

lemma loadEntry_of_le {deeper : Nat} (hle : nesting ≤ deeper)
    (h : (loadEntry (Source.loader reporting nesting) view options entry run).1
      ≠ .error .nestedTooDeep) :
    loadEntry (Source.loader reporting deeper) view options entry run
      = loadEntry (Source.loader reporting nesting) view options entry run := by
  unfold loadEntry at h ⊢
  dsimp only at h ⊢
  rw [loader_load_of_le hle]
  · rfl
  · intro hdeep
    rw [hdeep] at h
    exact h rfl

/-- A compilation that is not nested too deep is the same with a higher limit. -/
lemma compileEntries_of_le {deeper : Nat} (hle : nesting ≤ deeper)
    (h : (compileEntries (Source.loader reporting nesting) view entries options base memory).1
      ≠ .error .nestedTooDeep) :
    compileEntries (Source.loader reporting deeper) view entries options base memory
      = compileEntries (Source.loader reporting nesting) view entries options base memory := by
  unfold compileEntries at h ⊢
  rw [inOrder_congr (e := .nestedTooDeep) fun _ _ hentry => loadEntry_of_le hle hentry]
  intro hdeep
  apply h
  split
  · next heq =>
    rw [heq] at hdeep
    cases hdeep
    rfl
  · next heq =>
    rw [heq] at hdeep
    cases hdeep

/-- Loading ends: if files stand at finitely many places, as they do whatever notes are taken, a limit
that is high enough plays no part in it, and only so many names are ever marked, each of them once. -/
theorem compileEntries_ends {places : List Location} (hbase : base.isAbsolute = true)
    (hplaces : ∀ notes, ∀ node ∈ (view notes).files.nodes, node.1 ∈ places)
    (hnesting : nameBound places < nesting) :
    (compileEntries (Source.loader reporting nesting) view entries options base memory).1
        ≠ .error .nestedTooDeep ∧
      (∀ deeper, nesting ≤ deeper →
        compileEntries (Source.loader reporting deeper) view entries options base memory
          = compileEntries (Source.loader reporting nesting) view entries options base memory) ∧
      (compileEntries (Source.loader reporting nesting) view entries options base
        memory).2.session.loaded.Nodup ∧
      (compileEntries (Source.loader reporting nesting) view entries options base
        memory).2.session.loaded.length ≤ nameBound places + 1 := by
  have hends : (compileEntries (Source.loader reporting nesting) view entries options base
      memory).1 ≠ .error .nestedTooDeep := by
    intro h
    obtain ⟨trail, rfl, hnodup, htrail⟩ := compileEntries_nestedTooDeep h
    have hle := length_le_of_isRead hbase hplaces hnodup fun canonical hmem =>
      (htrail canonical hmem).2
    exact Nat.not_le.mpr hnesting hle
  obtain ⟨_, hmarks⟩ := compileEntries_marksRead reporting nesting view entries options base memory
  refine ⟨hends, fun _ hle => compileEntries_of_le hle hends, hmarks.nodup, ?_⟩
  have htail := length_le_of_isRead hbase hplaces hmarks.nodup.tail hmarks.tail
  rw [List.length_tail] at htail
  exact Nat.le_add_of_sub_le htail

/-- A project with one file, which imports itself from above the root. -/
def climbingProject : Workspace where
  files := ⟨[(["x.js"], .file "import \"../x.js\";\n".toUTF8)]⟩
  cwd := some []
  start := ⟨.root, []⟩

/-- The compilation of this project, with a limit to nested loads. -/
def compileClimbing (nesting : Nat) : Except Failure (Option Tree) × Run (List (Value × String)) :=
  compileEntries (Source.loader false nesting) (Journal.view {} climbingProject)
    [⟨"x.js", .module⟩] {} ⟨.root, []⟩ []

theorem ends_climbingProject :
    ((⟨.root, []⟩ : Path).isAbsolute = true) ∧
    (∀ notes, ∀ node ∈ (Journal.view {} climbingProject notes).files.nodes,
      node.1 ∈ climbingProject.files.nodes.map (·.1)) ∧
    nameBound (climbingProject.files.nodes.map (·.1)) < 50000 ∧
    (compileClimbing 50000).1 ≠ .error .nestedTooDeep ∧
    (∀ deeper, 50000 ≤ deeper → compileClimbing deeper = compileClimbing 50000) ∧
    (compileClimbing 50000).2.session.loaded.Nodup ∧
    (compileClimbing 50000).2.session.loaded.length
      ≤ nameBound (climbingProject.files.nodes.map (·.1)) + 1 := by
  have hplaces := fun notes => Journal.mem_places_of_view {} climbingProject notes
  have hnesting : nameBound (climbingProject.files.nodes.map (·.1)) < 50000 := by decide
  exact ⟨rfl, hplaces, hnesting, compileEntries_ends rfl hplaces hnesting⟩

end Compile

end Bundler
