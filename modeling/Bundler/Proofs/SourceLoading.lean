import Bundler.Load.Source
import Bundler.Proofs.Adds
import Bundler.Proofs.InOrder

/-!
# What the source loader adds

A successful load of the source loader adds what `Adds` describes, and each unit it adds is made
from the file of its name, as the loader found it when it read the file. The notes taken so far say
when that was: the workspace that a loader sees may depend on them, since a log may write to files.
-/

namespace Bundler.Load.Source

/-! ### Units and their files -/

/-- The text of the file of a name, if it can be read. -/
def sourceAt? (w : Workspace) (base : Path) (name : String) : Option String :=
  (read w (locate base name) name .null).toOption

/-- The unit is made from the file of its name, a module: its dependencies are the names of the
specifiers in that file, in order. -/
def IsModule (w : Workspace) (base : Path) (options : Options) (unit : CompiledUnit) : Prop :=
  ∃ source, sourceAt? w base unit.name = some source ∧
    (Specifier.ofSource source).mapM
      (fun specifier => ModuleName.canonical specifier (.text unit.name) options)
        = .ok unit.dependencies ∧
    unit = .ofModule options unit.name unit.dependencies source

/-- The unit is made from the file of its name, a script. -/
def IsScript (w : Workspace) (base : Path) (unit : CompiledUnit) : Prop :=
  ∃ source, sourceAt? w base unit.name = some source ∧ unit = .ofScript unit.name source

/-- The unit is made from the file of its name as the kind of an entry says. -/
def IsUnit (kind : EntryKind) (base : Path) (options : Options) (w : Workspace)
    (unit : CompiledUnit) : Prop :=
  match kind with
  | .module => IsModule w base options unit
  | .script => IsScript w base unit

/-- The scope as it is seen after some notes. -/
def Scope.after (scope : Scope) (notes : List Note) : Scope :=
  { scope with view := fun later => scope.view (notes ++ later) }

variable {scope : Scope} {s t u : State} {name source : String} {referrer : Value}

/-- The text that registers a module. -/
lemma IsModule.text {w : Workspace} {base : Path} {options : Options} {unit : CompiledUnit}
    (h : IsModule w base options unit) (hregister : options.isRegister = true) :
    ∃ source, unit.text = CompiledUnit.registration unit.name unit.dependencies source := by
  obtain ⟨source, -, -, h⟩ := h
  refine ⟨source, ?_⟩
  rw [h]
  exact if_pos hregister

lemma IsModule.kind {w : Workspace} {base : Path} {options : Options} {unit : CompiledUnit}
    (h : IsModule w base options unit) : unit.kind = "module" := by
  obtain ⟨source, -, -, h⟩ := h
  rw [h]
  rfl

lemma IsScript.kind {w : Workspace} {base : Path} {unit : CompiledUnit}
    (h : IsScript w base unit) : unit.kind = "script" := by
  obtain ⟨source, -, h⟩ := h
  rw [h]
  rfl

/-- The referrer only matters for failures. -/
lemma sourceAt?_of_read {w : Workspace} {base : Path}
    (h : read w (locate base name) name referrer = .ok source) :
    sourceAt? w base name = some source := by
  have hread : read w (locate base name) name .null = .ok source := by
    unfold read at h ⊢
    split at h
    · split at h
      · exact h
      · cases h
    · split at h <;> cases h
    · cases h
  rw [sourceAt?, hread]
  rfl

/-! ### One load -/

lemma report_state (scope : Scope) (path : Path) (s : State) :
    (report scope path s).2.loaded = s.loaded ∧ (report scope path s).2.added = s.added ∧
      s.notes <+: (report scope path s).2.notes := by
  unfold report
  dsimp only
  split
  · exact ⟨rfl, rfl, List.prefix_refl _⟩
  · split
    · exact ⟨rfl, rfl, List.prefix_refl _⟩
    · split
      · exact ⟨rfl, rfl, List.prefix_append _ _⟩
      · exact ⟨rfl, rfl, List.prefix_refl _⟩

/-- A name that is entered is marked and its file read; no unit is added yet. -/
lemma enter_ok (h : enter scope name referrer s = (.ok source, t)) :
    t.loaded = name :: s.loaded ∧ t.added = s.added ∧ s.notes <+: t.notes ∧
      sourceAt? (scope.view s.notes) scope.base name = some source := by
  simp only [enter] at h
  split at h
  · cases h
  · next text hread =>
    obtain ⟨hresult, rfl⟩ := Prod.mk.inj h
    obtain ⟨hloaded, hadded, hnotes⟩ :=
      report_state scope (locate scope.base name) { s with loaded := name :: s.loaded }
    have htext : text = source := by
      cases hreport : (report scope (locate scope.base name)
        { s with loaded := name :: s.loaded }).1 with
      | error failure => rw [hreport] at hresult; cases hresult
      | ok _ => rw [hreport] at hresult; cases hresult; rfl
    exact ⟨hloaded, hadded, hnotes, htext ▸ sourceAt?_of_read hread⟩

/-- A load of a module that succeeds finds its name loaded, or loads its dependencies and then adds
its unit. -/
lemma loadModule_ok {nesting : Nat}
    (h : loadModule scope (nesting + 1) name referrer s = (.ok (), t)) :
    ∃ canonical, ModuleName.canonical name referrer scope.options = .ok canonical ∧
      (canonical ∈ s.loaded ∧ t = s ∨
        canonical ∉ s.loaded ∧ ∃ source dependencies message s₁ s₂,
          enter scope canonical referrer s = (.ok source, s₁) ∧
          dependencyNames scope canonical (Specifier.ofSource source) = .ok dependencies ∧
          inOrder (fun specifier => loadModule scope nesting specifier (.text canonical))
            (Specifier.ofSource source) s₁ = (.ok (), s₂) ∧
          t = add (.ofModule scope.options canonical dependencies source) message s₂) := by
  simp only [loadModule] at h
  split at h
  · cases h
  · next canonical hcanonical =>
    refine ⟨canonical, hcanonical, ?_⟩
    split at h
    · next hloaded =>
      cases h
      exact Or.inl ⟨List.contains_iff_mem.mp hloaded, rfl⟩
    · next hloaded =>
      refine Or.inr ⟨fun hmem => hloaded (List.contains_iff_mem.mpr hmem), ?_⟩
      split at h
      · cases h
      · next source s₁ henter =>
        split at h
        · cases h
        · next dependencies hdependencies =>
          split at h
          · cases h
          · next s₂ hnested =>
            cases h
            exact ⟨source, dependencies, _, s₁, s₂, henter, hdependencies, hnested, rfl⟩

/-- A load of a script that succeeds finds its name loaded or adds its unit. -/
lemma loadScript_ok (h : loadScript scope name referrer s = (.ok (), t)) :
    ∃ canonical, ModuleName.canonical name referrer scope.options = .ok canonical ∧
      (canonical ∈ s.loaded ∧ t = s ∨
        canonical ∉ s.loaded ∧ ∃ source message s₁,
          enter scope canonical referrer s = (.ok source, s₁) ∧
          t = add (.ofScript canonical source) message s₁) := by
  simp only [loadScript] at h
  split at h
  · cases h
  · next canonical hcanonical =>
    refine ⟨canonical, hcanonical, ?_⟩
    split at h
    · next hloaded =>
      cases h
      exact Or.inl ⟨List.contains_iff_mem.mp hloaded, rfl⟩
    · next hloaded =>
      refine Or.inr ⟨fun hmem => hloaded (List.contains_iff_mem.mpr hmem), ?_⟩
      split at h
      · cases h
      · next source s₁ henter =>
        cases h
        exact ⟨source, _, s₁, henter, rfl⟩

/-! ### Nested loads -/

/-- The unit is made at a time at which some first part of the notes had been taken. -/
def MadeDuring (view : View) (notes : List Note) (made : Workspace → CompiledUnit → Prop)
    (unit : CompiledUnit) : Prop :=
  ∃ ns, ns <+: notes ∧ made (view ns) unit

lemma MadeDuring.mono {view : View} {notes notes' : List Note}
    {made made' : Workspace → CompiledUnit → Prop} {unit : CompiledUnit}
    (hnotes : notes <+: notes') (hmade : ∀ w unit, made w unit → made' w unit)
    (h : MadeDuring view notes made unit) : MadeDuring view notes' made' unit := by
  obtain ⟨ns, hns, hunit⟩ := h
  exact ⟨ns, hns.trans hnotes, hmade _ _ hunit⟩

/-- What is made behind some notes is made during them and what follows. -/
lemma MadeDuring.append {view : View} {earlier notes : List Note}
    {made : Workspace → CompiledUnit → Prop} {unit : CompiledUnit}
    (h : MadeDuring (fun ns => view (earlier ++ ns)) notes made unit) :
    MadeDuring view (earlier ++ notes) made unit := by
  obtain ⟨ns, hns, hunit⟩ := h
  exact ⟨earlier ++ ns, (List.prefix_append_right_inj _).mpr hns, hunit⟩

/-- What a successful load of the names `asked` makes of the state of the loader. -/
structure Extends (scope : Scope) (made : Workspace → CompiledUnit → Prop) (asked : List String)
    (s t : State) : Prop where
  notes : s.notes <+: t.notes
  units : ∃ units, t.added = s.added ++ units.map .compiled ∧
    Adds (MadeDuring scope.view t.notes made) asked s.loaded units t.loaded

namespace Extends

variable {made : Workspace → CompiledUnit → Prop} {asked asked' : List String}

lemma refl (s : State) : Extends scope made [] s s :=
  ⟨List.prefix_refl _, [], by simp, .nothing _⟩

lemma of_mem (h : name ∈ s.loaded) : Extends scope made [name] s s :=
  ⟨List.prefix_refl _, [], by simp, .loaded h⟩

lemma trans (h : Extends scope made asked s t) (h' : Extends scope made asked' t u) :
    Extends scope made (asked ++ asked') s u := by
  obtain ⟨hnotes, units, hadded, hunits⟩ := h
  obtain ⟨hnotes', units', hadded', hunits'⟩ := h'
  refine ⟨hnotes.trans hnotes', units ++ units', ?_, ?_⟩
  · rw [hadded', hadded, List.map_append, List.append_assoc]
  · exact (hunits.mono fun _ => MadeDuring.mono hnotes' fun _ _ => id).append hunits'

/-- Entering a name, loading its dependencies and adding its unit. -/
lemma of_enter (unit : CompiledUnit) (message : String)
    (fresh : unit.name ∉ s.loaded) (henter : enter scope unit.name referrer s = (.ok source, t))
    (hmade : ∀ w, sourceAt? w scope.base unit.name = some source → made w unit)
    (hkind : unit.kind = "module" ∨ unit.dependencies = [])
    (h : Extends scope made unit.dependencies t u) :
    Extends scope made [unit.name] s (add unit message u) := by
  obtain ⟨hloaded, hadded, hnotes, hsource⟩ := enter_ok henter
  obtain ⟨hnotes', units, hadded', hunits⟩ := h
  have hall : s.notes <+: (add unit message u).notes :=
    (hnotes.trans hnotes').trans (List.prefix_append _ _)
  refine ⟨hall, units ++ [unit], ?_, ?_⟩
  · rw [add, hadded', hadded, List.map_append, List.append_assoc]
    rfl
  · refine .unit fresh ⟨s.notes, hall, hmade _ hsource⟩ hkind ?_
    rw [← hloaded]
    exact hunits.mono fun _ => MadeDuring.mono (List.prefix_append _ _) fun _ _ => id

/-- Loads one after another, each of the name that a text stands for. -/
lemma of_inOrder {step : String → State → Except Failure Unit × State}
    (nameOf : String → Except Failure String)
    (hstep : ∀ specifier s t, step specifier s = (.ok (), t) →
      ∃ canonical, nameOf specifier = .ok canonical ∧ Extends scope made [canonical] s t)
    (specifiers : List String) {s t : State} (hnames : specifiers.mapM nameOf = .ok asked)
    (h : inOrder step specifiers s = (.ok (), t)) : Extends scope made asked s t := by
  induction specifiers generalizing asked s with
  | nil =>
    cases hnames
    cases h
    exact refl _
  | cons specifier specifiers ih =>
    obtain ⟨m, hm, h⟩ := inOrder_cons_eq_ok_iff.mp h
    obtain ⟨canonical, hcanonical, hfirst⟩ := hstep _ _ _ hm
    obtain ⟨name, names, hname, hrest, rfl⟩ := mapM_cons_eq_ok_iff.mp hnames
    obtain rfl : canonical = name := Except.ok.inj (hcanonical.symm.trans hname)
    exact hfirst.trans (ih hrest h)

end Extends

/-- A successful load of a module adds modules, each made from the file of its name. -/
theorem loadModule_extends {nesting : Nat}
    (h : loadModule scope nesting name referrer s = (.ok (), t)) :
    ∃ canonical, ModuleName.canonical name referrer scope.options = .ok canonical ∧
      Extends scope (IsModule · scope.base scope.options) [canonical] s t := by
  induction nesting generalizing name referrer s t with
  | zero => cases h
  | succ nesting ih =>
    obtain ⟨canonical, hcanonical, h⟩ := loadModule_ok h
    refine ⟨canonical, hcanonical, ?_⟩
    rcases h with ⟨hmem, rfl⟩ | ⟨hfresh, source, dependencies, message, s₁, s₂, henter, hnames,
      hnested, rfl⟩
    · exact Extends.of_mem hmem
    · have hdependencies := Extends.of_inOrder
        (fun specifier => ModuleName.canonical specifier (.text canonical) scope.options)
        (fun _ _ _ => ih) (Specifier.ofSource source) hnames hnested
      apply Extends.of_enter (.ofModule scope.options canonical dependencies source) message hfresh
        henter
      · intro w hsource
        exact ⟨source, hsource, hnames, rfl⟩
      · exact Or.inl rfl
      · exact hdependencies

/-- A successful load of a script adds at most that script, made from the file of its name. -/
theorem loadScript_extends (h : loadScript scope name referrer s = (.ok (), t)) :
    ∃ canonical, ModuleName.canonical name referrer scope.options = .ok canonical ∧
      Extends scope (IsScript · scope.base) [canonical] s t := by
  obtain ⟨canonical, hcanonical, h⟩ := loadScript_ok h
  refine ⟨canonical, hcanonical, ?_⟩
  rcases h with ⟨hmem, rfl⟩ | ⟨hfresh, source, message, s₁, henter, rfl⟩
  · exact Extends.of_mem hmem
  · apply Extends.of_enter (.ofScript canonical source) message hfresh henter
    · intro w hsource
      exact ⟨source, hsource, rfl⟩
    · exact Or.inr rfl
    · exact Extends.refl s₁

/-- A successful load adds units of the kind that is asked for. -/
theorem load_extends {nesting : Nat} {call : Call} (h : load scope nesting call s = (.ok (), t)) :
    ∃ canonical, ModuleName.canonical call.name call.referrer scope.options = .ok canonical ∧
      Extends scope (IsUnit call.kind scope.base scope.options) [canonical] s t := by
  unfold load at h
  split at h
  · next hkind =>
    rw [hkind]
    exact loadModule_extends h
  · next hkind =>
    rw [hkind]
    exact loadScript_extends h

end Bundler.Load.Source
