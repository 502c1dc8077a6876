import Bundler.Proofs.EntryLoading
import Bundler.Proofs.SharedMappings

/-!
# Overlays of configurations

The file of an environment is laid over the base file of a configuration, and what the placeholders
stand for is filled in afterwards. What a path of keys leads to is told by the two files alone, and
the placeholders could as well be filled in before, unless a mapping that is changed stands in the
base file a second time, by an alias.
-/

namespace Bundler

open Mapping

namespace Graph

variable {g h : Graph} {depth n : Nat} {item : Item} {v : Value}

/-! ### Graphs side by side -/

lemma agrees_join (g h : Graph) : g.Agrees (g.join h) [] := by
  intro n cell _ hcell
  have hn : n < g.cells.size := (Array.getElem?_eq_some_iff.mp hcell).1
  simpa [join, Array.getElem?_append_left hn] using hcell

lemma cells_join_raised (g h : Graph) (n : Nat) :
    (g.join h).cells[n + g.cells.size]? = h.cells[n]?.map (raiseCell g.cells.size) := by
  simp [join, Array.getElem?_append_right]

lemma value?_raise (g h : Graph) (depth : Nat) (item : Item) :
    (g.join h).value? depth (raise g.cells.size item) = h.value? depth item := by
  induction depth generalizing item with
  | zero => cases item <;> rfl
  | succ depth ih =>
    cases item with
    | scalar s => rfl
    | pair first second =>
      rw [raise, value?, value?, ih, ih]
    | cell n =>
      rw [raise, value?, value?, cells_join_raised]
      cases h.cells[n]? with
      | none => rfl
      | some cell =>
        cases cell with
        | list items =>
          simp [raiseCell, List.mapM_map, Function.comp_def, ih]
        | set members => rfl
        | mapping entries =>
          simp [raiseCell, List.mapM_map, Function.comp_def, ih]

lemma le_of_mem_mappingsIn_raise {c : Nat} (hc : c ∈ (g.join h).mappingsIn depth
    (raise g.cells.size item)) : g.cells.size ≤ c := by
  induction depth generalizing item with
  | zero => cases item <;> simp [raise, mappingsIn] at hc
  | succ depth ih =>
    cases item with
    | scalar s => simp [raise, mappingsIn] at hc
    | pair first second =>
      rw [raise, mappingsIn] at hc
      exact (List.mem_append.mp hc).elim ih ih
    | cell n =>
      rw [raise, mappingsIn, cells_join_raised] at hc
      cases hn : h.cells[n]? with
      | none => simp [hn] at hc
      | some cell =>
        cases cell with
        | list items =>
          simp only [hn, Option.map_some, raiseCell, List.mem_flatMap, List.mem_map] at hc
          obtain ⟨_, ⟨item, -, rfl⟩, hc⟩ := hc
          exact ih hc
        | set members => simp [hn, raiseCell] at hc
        | mapping entries =>
          simp only [hn, Option.map_some, raiseCell, List.mem_cons, List.mem_flatMap,
            List.mem_map] at hc
          rcases hc with rfl | ⟨_, ⟨e, -, rfl⟩, hc⟩
          · omega
          · exact ih hc

/-- The entries of a mapping by its value. -/
lemma exists_holds {m : Mapping} (hv : g.value? (depth + 1) (.cell n) = some (.mapping m)) :
    ∃ entries, g.cells[n]? = some (.mapping entries) ∧ g.Holds depth entries m := by
  have hmapping := isMapping_eq hv
  rw [Value.isMapping, eq_comm, Option.isSome_iff_exists] at hmapping
  obtain ⟨⟨k, entries⟩, hentries⟩ := hmapping
  obtain ⟨hk, hn⟩ := entries?_eq_some_iff.mp hentries
  cases hk
  obtain ⟨m', hholds, hm⟩ := (value?_mapping_iff hn).mp hv
  cases hm
  exact ⟨entries, hn, hholds⟩

end Graph

namespace Config

open Bundler.Graph

variable {base top : Source} {b o : Mapping}

/-- Each mapping of the base into which a mapping of the overlay is merged stands in one place
only. -/
def Source.IsApart (base : Source) (o : Mapping) : Prop :=
  ∀ n ∈ base.graph.metBy base.graph.depthLimit (.cell base.root) (.mapping o),
    (base.graph.mappingsIn base.graph.depthLimit (.cell base.root)).count n ≤ 1

instance (base : Source) (o : Mapping) : Decidable (base.IsApart o) :=
  inferInstanceAs (Decidable (∀ n ∈ base.graph.metBy base.graph.depthLimit (.cell base.root)
    (.mapping o), _))

/-- The base side by side with the overlay. -/
lemma ready_join (hbase : base.value? = some (.mapping b)) (hapart : base.IsApart o)
    (h : Graph) {depth : Nat} (hdepth : base.graph.depthLimit ≤ depth + 1) :
    ∃ entries, (base.graph.join h).Ready base.graph.cells.size depth base.root entries b o := by
  have hstays := (agrees_join base.graph h).stays (by simp) hdepth hbase (by simp)
  obtain ⟨entries, hcell, hholds⟩ := exists_holds hstays.2
  refine ⟨entries, hcell, hholds, fun c hc => ?_⟩
  rw [hstays.1.2] at hc
  rw [hstays.1.1]
  refine ⟨?_, hapart c hc⟩
  obtain ⟨found, hfound⟩ := exists_mapping_of_mem_metBy hc
  exact (Array.getElem?_eq_some_iff.mp hfound).1

/-- The overlay side by side with the base. -/
lemma above_join (g : Graph) (htop : top.value? = some (.mapping o)) :
    ∃ entries, (g.join top.graph).entries? (.cell (top.root + g.cells.size))
        = some (top.root + g.cells.size, entries) ∧
      (g.join top.graph).Above g.cells.size (2 * top.graph.cells.size + 1) entries o := by
  have hraised : (g.join top.graph).value? (2 * top.graph.cells.size + 1 + 1)
      (.cell (top.root + g.cells.size)) = some (.mapping o) := by
    rw [← htop]
    exact value?_raise g top.graph _ (.cell top.root)
  obtain ⟨entries, hcell, hholds⟩ := exists_holds hraised
  refine ⟨entries, entries?_eq_some_iff.mpr ⟨rfl, hcell⟩, hholds, fun c hc => ?_⟩
  have hmem : c ∈ (g.join top.graph).mappingsIn (2 * top.graph.cells.size + 1 + 1)
      (raise g.cells.size (.cell top.root)) := by
    rw [raise, mappingsIn_mapping hcell]
    exact List.mem_cons_of_mem _ hc
  exact le_of_mem_mappingsIn_raise hmem

/-- Merging an overlay into the cells of the base gives what the values of both give. -/
lemma overlay_value? (hbase : base.value? = some (.mapping b))
    (htop : top.value? = some (.mapping o)) (hkeyed : (Value.mapping o).isKeyed = true)
    (hapart : base.IsApart o) :
    (base.overlay top).bind Source.value? = some (.mapping (b.overlay o)) := by
  have hsize : (base.graph.join top.graph).cells.size
      = base.graph.cells.size + top.graph.cells.size := by
    simp [join]
  have hdepth : base.graph.depthLimit ≤ 2 * (base.graph.join top.graph).cells.size + 1 + 1 := by
    rw [depthLimit]
    omega
  obtain ⟨entries, hready⟩ := ready_join hbase hapart top.graph hdepth
  obtain ⟨topEntries, hentries, habove⟩ := above_join base.graph htop
  have hroot := hready.not_mem.1
  have hfuel : 2 * top.graph.cells.size + 1 < (base.graph.join top.graph).cells.size
      * (base.graph.join top.graph).cells.size + 1 := by
    have hle : top.graph.cells.size + 1 ≤ (base.graph.join top.graph).cells.size := by omega
    have := Nat.mul_le_mul hle hle
    rw [Nat.add_mul, Nat.mul_add] at this
    omega
  obtain ⟨g', hg', hlaid⟩ := laysInPlace _ hfuel (by omega) hready habove hkeyed
  obtain ⟨found, hfound, hholds⟩ := hlaid.holds
  have hoverlay : base.overlay top = some ⟨g', base.root, base.shared⟩ := by
    simp only [Source.overlay, hentries, Option.map_some, Option.getD_some]
    rw [hg']
    rfl
  rw [hoverlay, Option.bind_some, Source.value?, unfold, depthLimit, hlaid.size]
  exact (value?_mapping_iff hfound).mpr ⟨_, hholds, rfl⟩

/-- Where no mapping that is changed stands in two places, an overlay is laid over the base as
values are laid over one another. -/
lemma overlaySources_eq (hbase : base.value? = some (.mapping b))
    (htop : top.value? = some (.mapping o)) (hkeyed : (Value.mapping o).isKeyed = true)
    (hapart : base.shared = true → base.IsApart o) :
    overlaySources base top = some (.mapping (b.overlay o)) := by
  unfold overlaySources
  cases hshared : base.shared with
  | false =>
    rw [hbase, htop]
    exact congrArg some (Value.overlay_mapping b o)
  | true => exact overlay_value? hbase htop hkeyed (hapart hshared)

/-! ### What an overlay changes -/

/-- What is at a path in a configuration whose base file has an overlay is told by the two files,
where no mapping that is changed stands in two places. -/
theorem overlaySources_isOverlay (hbase : base.value? = some (.mapping b))
    (htop : top.value? = some (.mapping o)) (hkeyed : (Value.mapping o).isKeyed = true)
    (hapart : base.shared = true → base.IsApart o) :
    ∃ r, overlaySources base top = some (.mapping r) ∧ Value.IsOverlay b o r :=
  ⟨b.overlay o, overlaySources_eq hbase htop hkeyed hapart, Value.isOverlay_overlay b hkeyed⟩

/-- A project whose base file names a mapping by an alias, with the text of the overlay. -/
def aliasedFiles (overlay : String) : Workspace where
  files := ⟨[
    (["modcompile.yaml"], .file "a: &s \x7bk: 1\x7d\nb: *s\nc: \x7bd: '$\x7bX\x7d'\x7d\n".toUTF8),
    (["modcompile.e.yaml"], .file overlay.toUTF8)]⟩
  cwd := some []
  start := ⟨.root, []⟩

/-- The base file of `aliasedFiles` as it is read. -/
def aliasedBase : Source where
  graph := ⟨#[.mapping [(.text "a", .cell 2), (.text "b", .cell 2), (.text "c", .cell 7)],
    .list [], .mapping [(.text "k", .scalar (.int 1))], .list [], .list [], .list [], .list [],
    .mapping [(.text "d", .scalar (.text "$\x7bX\x7d"))], .list [], .list []]⟩
  root := 0
  shared := true

/-- What `aliasedBase` holds. -/
def aliasedValue : Mapping :=
  [(.text "a", .mapping [(.text "k", .int 1)]), (.text "b", .mapping [(.text "k", .int 1)]),
    (.text "c", .mapping [(.text "d", .text "$\x7bX\x7d")])]

lemma value?_aliasedBase : aliasedBase.value? = some (.mapping aliasedValue) := rfl

/-- A file with one key in the mapping of another key, as it is read. -/
def pairAt (key inner : String) : Source where
  graph := ⟨#[.mapping [(.text key, .cell 2)], .list [],
    .mapping [(.text inner, .scalar (.int 2))], .list [], .list []]⟩
  root := 0
  shared := false

/-- What `pairAt` holds. -/
def pairValue (key inner : String) : Mapping := [(.text key, .mapping [(.text inner, .int 2)])]

lemma value?_pairAt (key inner : String) :
    (pairAt key inner).value? = some (.mapping (pairValue key inner)) := rfl

deriving instance DecidableEq for Item
deriving instance DecidableEq for Cell
deriving instance DecidableEq for Graph
deriving instance DecidableEq for Source

/-- A mapping beside one that an alias names is merged into. -/
theorem isOverlay_besideAlias : ∃ r,
    overlaySources aliasedBase (pairAt "c" "e") = some (.mapping r) ∧
      Value.IsOverlay aliasedValue (pairValue "c" "e") r :=
  overlaySources_isOverlay value?_aliasedBase (value?_pairAt "c" "e") (by decide)
    fun _ => by decide

lemma readSource_aliasedBase : readSource 8 (aliasedFiles "b: \x7bk: 2\x7d\n")
    ⟨.root, ["modcompile.yaml"]⟩ 0 = .ok aliasedBase :=
  Compile.eq_ok_of_toOption (by decide +kernel)

lemma readSource_pairAt : readSource 8 (aliasedFiles "b: \x7bk: 2\x7d\n")
    ⟨.root, ["modcompile.e.yaml"]⟩ 1 = .ok (pairAt "b" "k") :=
  Compile.eq_ok_of_toOption (by decide +kernel)

/-- What becomes of `aliasedBase` when the mapping that has two places is merged into. -/
def changedValue : Mapping :=
  [(.text "a", .mapping [(.text "k", .int 2)]), (.text "b", .mapping [(.text "k", .int 2)]),
    (.text "c", .mapping [(.text "d", .text "$\x7bX\x7d")])]

lemma overlaySources_aliasedBase :
    overlaySources aliasedBase (pairAt "b" "k") = some (.mapping changedValue) := by
  have hmerged : aliasedBase.overlay (pairAt "b" "k") = some ⟨⟨#[
      .mapping [(.text "a", .cell 2), (.text "b", .cell 2), (.text "c", .cell 7)], .list [],
      .mapping [(.text "k", .scalar (.int 2))], .list [], .list [], .list [], .list [],
      .mapping [(.text "d", .scalar (.text "$\x7bX\x7d"))], .list [], .list [],
      .mapping [(.text "b", .cell 12)], .list [], .mapping [(.text "k", .scalar (.int 2))],
      .list [], .list []]⟩, 0, true⟩ := by
    decide +kernel
  rw [overlaySources, hmerged]
  rfl

/-- A mapping that an alias names is changed in all of its places. -/
theorem not_always_isOverlay : ¬ ∀ (nesting : Nat) (w : Workspace) (p q : Path) (base top : Source)
    (b o r : Mapping), readSource nesting w p 0 = .ok base → readSource nesting w q 1 = .ok top →
      base.value? = some (.mapping b) → top.value? = some (.mapping o) →
        (Value.mapping o).isKeyed = true → overlaySources base top = some (.mapping r) →
          Value.IsOverlay b o r := by
  intro h
  have hkept := (h _ _ _ _ _ _ _ _ _ readSource_aliasedBase readSource_pairAt value?_aliasedBase
    (value?_pairAt "b" "k") (by decide) overlaySources_aliasedBase).kept [.text "a", .text "k"] rfl
  have hopen : (Value.mapping (pairValue "b" "k")).IsOpen [.text "a", .text "k"] := by
    intro q v hq hv
    cases q with
    | nil => cases hv; rfl
    | cons key q =>
      obtain ⟨rfl, -⟩ := List.cons_prefix_cons.mp hq
      cases hv
  cases hkept hopen

/-- Placeholders may be filled in before an overlay is laid over the base or afterwards, where no
mapping that is changed stands in two places. A configuration is loaded as if it were done
before. -/
theorem fill_overlaySources (hbase : base.value? = some (.mapping b))
    (htop : top.value? = some (.mapping o)) (hkeyed : (Value.mapping o).isKeyed = true)
    (hapart : base.shared = true → base.IsApart o) :
    (∀ s, (overlaySources base top).map (·.fill s)
        = some (((Value.mapping b).fill s).overlay ((Value.mapping o).fill s))) ∧
      ∀ (nesting : Nat) (w : Workspace) (vars : Variables) (directory : Path) (env : String)
        (required : Bool), env ≠ "" → readBase nesting w directory required = .ok base →
          w.isFile (overlayPath directory env) = .ok true →
            readSource nesting w (overlayPath directory env) 1 = .ok top →
              load nesting w vars (some directory) env required =
                let config : Config := ⟨((Value.mapping b).fill ⟨vars, env⟩).overlay
                  ((Value.mapping o).fill ⟨vars, env⟩)⟩
                config.validate.map fun _ => config := by
  have hsources := overlaySources_eq hbase htop hkeyed hapart
  constructor
  · intro s
    rw [hsources, ← Value.fill_overlay, Value.overlay_mapping]
    rfl
  · intro nesting w vars directory env required henv hreadBase hfile hreadTop
    have hall : readAll nesting w directory env required = .ok (some (.mapping (b.overlay o))) := by
      rw [readAll, hreadBase]
      simp only [bind, Except.bind, if_neg henv, hfile, Except.mapError, hreadTop, hsources,
        if_true]
    rw [load]
    simp only [bind, Except.bind, hall, if_neg henv, ← Value.fill_overlay, Value.overlay_mapping]
    split <;> next hvalid => rw [hvalid]; rfl

/-- A variable that the files of `aliasedFiles` name, and the environment of their overlay. -/
def aliasedSetting : Placeholder.Setting := ⟨[("X", "x")], "e"⟩

/-- What is loaded where an overlay is merged into the mapping with the placeholder. -/
def filledValue : Mapping :=
  [(.text "a", .mapping [(.text "k", .int 1)]), (.text "b", .mapping [(.text "k", .int 1)]),
    (.text "c", .mapping [(.text "d", .text "x"), (.text "e", .int 2)])]

/-- A mapping beside one that an alias names is merged into while a placeholder is filled. -/
theorem fill_besideAlias :
    (overlaySources aliasedBase (pairAt "c" "e")).map (·.fill aliasedSetting)
        = some (((Value.mapping aliasedValue).fill aliasedSetting).overlay
          ((Value.mapping (pairValue "c" "e")).fill aliasedSetting)) ∧
      load 8 (aliasedFiles "c: \x7be: 2\x7d\n") [("X", "x")] (some ⟨.root, []⟩) "e" false
        = .ok ⟨.mapping filledValue⟩ := by
  have hfill := fill_overlaySources value?_aliasedBase (value?_pairAt "c" "e") (by decide)
    fun _ => by decide
  refine ⟨hfill.1 aliasedSetting, ?_⟩
  have hload := hfill.2 8 (aliasedFiles "c: \x7be: 2\x7d\n") [("X", "x")] ⟨.root, []⟩ "e" false
    (by decide) (Compile.eq_ok_of_toOption (by decide +kernel))
    (Compile.eq_ok_of_toOption (by decide +kernel)) (Compile.eq_ok_of_toOption (by decide +kernel))
  have hdata : ((Value.mapping aliasedValue).fill ⟨[("X", "x")], "e"⟩).overlay
      ((Value.mapping (pairValue "c" "e")).fill ⟨[("X", "x")], "e"⟩) = .mapping filledValue := by
    have htext : Placeholder.Setting.fill ⟨[("X", "x")], "e"⟩ "$\x7bX\x7d" = "x" := by
      decide +kernel
    have hbase : (Value.mapping aliasedValue).fill ⟨[("X", "x")], "e"⟩
        = .mapping [(.text "a", .mapping [(.text "k", .int 1)]),
          (.text "b", .mapping [(.text "k", .int 1)]),
          (.text "c", .mapping [(.text "d", .text "x")])] := by
      simp [aliasedValue, Value.fill, Value.fillEntries, htext]
    rw [hbase]
    rfl
  rw [hdata] at hload
  exact hload

/-- Filling placeholders before a mapping is merged that an alias names gives another mapping than
filling them afterwards. -/
theorem not_always_fill_overlay : ¬ ∀ (nesting : Nat) (w : Workspace) (p q : Path)
    (base top : Source) (b o : Mapping) (s : Placeholder.Setting),
      readSource nesting w p 0 = .ok base → readSource nesting w q 1 = .ok top → base.value? = some (.mapping b) →
        top.value? = some (.mapping o) → (Value.mapping o).isKeyed = true →
          (overlaySources base top).map (·.fill s)
            = some (((Value.mapping b).fill s).overlay ((Value.mapping o).fill s)) := by
  intro h
  have hfill := h _ _ _ _ _ _ _ _ aliasedSetting readSource_aliasedBase readSource_pairAt
    value?_aliasedBase (value?_pairAt "b" "k") (by decide)
  rw [overlaySources_aliasedBase] at hfill
  have hat := congrArg (·.bind fun v => v.at? [.text "a", .text "k"]) hfill
  cases hat

end Config

end Bundler
