import Bundler.Proofs.EntryLoading

/-!
# Loads that fail

Where a load can fail, and what it leaves behind if it does: a name that has been marked stays
marked. Only nested loads can be nested too deep.
-/

namespace Bundler

/-- A failure that comes neither from nesting nor from work that was called off, nor from a text that
has no encoding. -/
def Failure.IsPlain : Failure → Prop
  | .nestedTooDeep | .cancelled | .unencodable _ => False
  | _ => True

namespace Load.Source

variable {scope : Scope} {s t : State} {name source : String} {referrer : Value} {failure : Failure}
  {options : Options} {nesting : Nat}

/-! ### Where a load fails -/

/-- A load of a module that fails has no canonical name, or that name is new and its file cannot be
read, one of its dependencies has no name, or one of them cannot be loaded. -/
lemma loadModule_error (h : loadModule scope (nesting + 1) name referrer s = (.error failure, t)) :
    ModuleName.canonical name referrer scope.options = .error failure ∧ t = s ∨
    ∃ canonical, ModuleName.canonical name referrer scope.options = .ok canonical ∧
      canonical ∉ s.loaded ∧
      (enter scope canonical referrer s = (.error failure, t) ∨
        ∃ source s₁, enter scope canonical referrer s = (.ok source, s₁) ∧
          (dependencyNames scope canonical (Specifier.ofSource source) = .error failure ∧ t = s₁ ∨
            ∃ dependencies,
              dependencyNames scope canonical (Specifier.ofSource source) = .ok dependencies ∧
              inOrder (fun specifier => loadModule scope nesting specifier (.text canonical))
                (Specifier.ofSource source) s₁ = (.error failure, t))) := by
  simp only [loadModule] at h
  split at h
  · next hcanonical =>
    cases h
    exact Or.inl ⟨hcanonical, rfl⟩
  · next canonical hcanonical =>
    right
    refine ⟨canonical, hcanonical, ?_⟩
    split at h
    · cases h
    · next hloaded =>
      refine ⟨fun hmem => hloaded (List.contains_iff_mem.mpr hmem), ?_⟩
      split at h
      · next henter =>
        cases h
        exact Or.inl henter
      · next source s₁ henter =>
        right
        refine ⟨source, s₁, henter, ?_⟩
        split at h
        · next hnames =>
          cases h
          exact Or.inl ⟨hnames, rfl⟩
        · next dependencies hnames =>
          split at h
          · next hnested =>
            cases h
            exact Or.inr ⟨dependencies, hnames, hnested⟩
          · cases h

/-- A load of a script that fails has no canonical name, or that name is new and its file cannot be
read. -/
lemma loadScript_error (h : loadScript scope name referrer s = (.error failure, t)) :
    ModuleName.canonical name referrer scope.options = .error failure ∧ t = s ∨
    ∃ canonical, ModuleName.canonical name referrer scope.options = .ok canonical ∧
      canonical ∉ s.loaded ∧ enter scope canonical referrer s = (.error failure, t) := by
  simp only [loadScript] at h
  split at h
  · next hcanonical =>
    cases h
    exact Or.inl ⟨hcanonical, rfl⟩
  · next canonical hcanonical =>
    right
    refine ⟨canonical, hcanonical, ?_⟩
    split at h
    · cases h
    · next hloaded =>
      refine ⟨fun hmem => hloaded (List.contains_iff_mem.mpr hmem), ?_⟩
      split at h
      · next henter =>
        cases h
        exact henter
      · cases h

/-! ### Names stay marked -/

/-- Whatever comes of it, a name that is entered is marked. -/
lemma enter_loaded (scope : Scope) (name : String) (referrer : Value) (s : State) :
    (enter scope name referrer s).2.loaded = name :: s.loaded := by
  unfold enter
  dsimp only
  split
  · rfl
  · exact (report_state _ _ _).1

/-- A load takes back no mark. -/
lemma loaded_subset_loadModule (scope : Scope) (nesting : Nat) (name : String) (referrer : Value)
    (s : State) : s.loaded ⊆ (loadModule scope nesting name referrer s).2.loaded := by
  induction nesting generalizing name referrer s with
  | zero => exact List.Subset.refl _
  | succ nesting ih =>
    simp only [loadModule]
    split
    · exact List.Subset.refl _
    · next canonical _ =>
      split
      · exact List.Subset.refl _
      · have henter : s.loaded ⊆ (enter scope canonical referrer s).2.loaded := by
          rw [enter_loaded]
          exact List.subset_cons_self _ _
        split
        · next hentered =>
          rwa [hentered] at henter
        · next source s₁ hentered =>
          rw [hentered] at henter
          split
          · exact henter
          · have hnested : s₁.loaded ⊆ (inOrder
                (fun specifier => loadModule scope nesting specifier (.text canonical))
                (Specifier.ofSource source) s₁).2.loaded :=
              inOrder_keeps (P := fun t => s₁.loaded ⊆ t.loaded)
                (fun specifier t ht => List.Subset.trans ht (ih specifier (.text canonical) t))
                (Specifier.ofSource source) (List.Subset.refl _)
            split
            · next hrun =>
              rw [hrun] at hnested
              exact List.Subset.trans henter hnested
            · next hrun =>
              rw [hrun] at hnested
              exact List.Subset.trans henter hnested

lemma loaded_subset_inOrder (scope : Scope) (nesting : Nat) (referrer : Value)
    (specifiers : List String) (s : State) : s.loaded ⊆ (inOrder
      (fun specifier => loadModule scope nesting specifier referrer) specifiers s).2.loaded :=
  inOrder_keeps (P := fun t => s.loaded ⊆ t.loaded)
    (fun specifier t ht =>
      List.Subset.trans ht (loaded_subset_loadModule scope nesting specifier referrer t))
    specifiers (List.Subset.refl _)

/-! ### Failures of single steps -/

lemma isPlain_describe {v : Value} (h : v.describe = .error failure) : failure.IsPlain := by
  unfold Value.describe at h
  split at h <;> cases h
  trivial

lemma isPlain_unresolved (name : String) (referrer : Value) (reason : String) :
    (unresolved name referrer reason).IsPlain := by
  unfold unresolved
  split
  · trivial
  · next hfailure => exact isPlain_describe hfailure

lemma isPlain_extension (h : ModuleName.extension options = .error failure) :
    failure.IsPlain := by
  unfold ModuleName.extension at h
  split at h <;> cases h
  trivial

lemma isPlain_seenFrom (h : ModuleName.seenFrom name referrer = .error failure) :
    failure.IsPlain := by
  unfold ModuleName.seenFrom at h
  split at h
  · unfold ModuleName.referrerText at h
    split at h
    · cases h
    · split at h <;> cases h <;> trivial
  · cases h

lemma isPlain_canonical (h : ModuleName.canonical name referrer options = .error failure) :
    failure.IsPlain := by
  unfold ModuleName.canonical at h
  cases hseen : ModuleName.seenFrom name referrer with
  | error failure =>
    rw [hseen] at h
    cases h
    exact isPlain_seenFrom hseen
  | ok seen =>
    rw [hseen] at h
    have hcomplete : ModuleName.complete seen options = .error failure := h
    unfold ModuleName.complete at hcomplete
    split at hcomplete
    · cases hcomplete
    · cases hextension : ModuleName.extension options with
      | error failure =>
        rw [hextension] at hcomplete
        cases hcomplete
        exact isPlain_extension hextension
      | ok e =>
        rw [hextension] at hcomplete
        cases hcomplete

lemma isPlain_dependencyNames {specifiers : List String}
    (h : dependencyNames scope name specifiers = .error failure) : failure.IsPlain := by
  obtain ⟨_, -, hcanonical⟩ := exists_of_mapM_eq_error h
  exact isPlain_canonical hcanonical

lemma isPlain_read {w : Workspace} {path : Path} (h : read w path name referrer = .error failure) :
    failure.IsPlain := by
  unfold read at h
  split at h
  · split at h <;> cases h
    trivial
  · split at h <;> cases h
    · exact isPlain_unresolved _ _ _
    · exact isPlain_unresolved _ _ _
    · exact isPlain_unresolved _ _ _
    · trivial
  · cases h
    trivial

lemma isPlain_enter (h : enter scope name referrer s = (.error failure, t)) :
    failure.IsPlain := by
  unfold enter at h
  dsimp only at h
  split at h
  · next hread =>
    cases h
    exact isPlain_read hread
  · unfold report at h
    dsimp only at h
    split at h
    · cases h
    · split at h
      · cases h
      · split at h
        · cases h
        · next hdescribe =>
          cases h
          exact isPlain_describe hdescribe

/-! ### Loads that can only be nested too deep -/

/-- Files that are read can be reported. -/
def CanReport (options : Options) (reporting : Bool) : Prop :=
  options.dependencyTarget.truthy = false ∨ reporting = true ∨
    ∃ text, options.dependencyTarget.describe = .ok text

lemma canReport_iff (scope : Scope) (path : Path) (s : State) :
    CanReport scope.options scope.reporting ↔ (report scope path s).1 = .ok () := by
  unfold CanReport report
  dsimp only
  cases scope.options.dependencyTarget.truthy with
  | false => simp
  | true =>
    cases scope.reporting with
    | true => simp
    | false => cases scope.options.dependencyTarget.describe <;> simp

lemma canReport_of_enter (h : enter scope name referrer s = (.ok source, t)) :
    CanReport scope.options scope.reporting := by
  simp only [enter] at h
  split at h
  · cases h
  · obtain ⟨hresult, -⟩ := Prod.mk.inj h
    rw [canReport_iff scope (locate scope.base name) { s with loaded := name :: s.loaded }]
    cases hreport : (report scope (locate scope.base name)
        { s with loaded := name :: s.loaded }).1 with
    | error failure =>
      rw [hreport] at hresult
      cases hresult
    | ok _ => rfl

/-- A name that has a source can be entered, if files can be reported. -/
lemma enter_of_sourceAt? (referrer : Value) (hreport : CanReport scope.options scope.reporting)
    (h : sourceAt? (scope.view s.notes) scope.base name = some source) :
    (enter scope name referrer s).1 = .ok source := by
  have hread : read (scope.view s.notes) (locate scope.base name) name .null = .ok source :=
    Compile.eq_ok_of_toOption h
  have hread' : read (scope.view s.notes) (locate scope.base name) name referrer = .ok source := by
    unfold read at hread ⊢
    split at hread
    · split at hread
      · exact hread
      · cases hread
    · split at hread <;> cases hread
    · cases hread
  unfold enter
  dsimp only
  rw [hread']
  dsimp only
  rw [(canReport_iff scope _ _).mp hreport]
  rfl

/-- Where every good name has a source and depends on good names, loads of good names can only be
nested too deep. -/
lemma eq_nestedTooDeep_of_good {good : String → Prop} {all : List String} {canonical : String}
    (hreport : CanReport scope.options scope.reporting)
    (hgood : ∀ c ∈ all, good c → ∀ notes, ∃ source dependencies,
      sourceAt? (scope.view notes) scope.base c = some source ∧
      dependencyNames scope c (Specifier.ofSource source) = .ok dependencies ∧
      ∀ d ∈ dependencies, good d)
    (hname : ModuleName.canonical name referrer scope.options = .ok canonical)
    (hcanonical : good canonical) (hall : t.loaded ⊆ all)
    (h : loadModule scope nesting name referrer s = (.error failure, t)) :
    failure = .nestedTooDeep := by
  induction nesting generalizing name referrer canonical s with
  | zero =>
    cases h
    rfl
  | succ nesting ih =>
    rcases loadModule_error h with ⟨hnone, -⟩ | ⟨c, hc, -, hrest⟩
    · rw [hname] at hnone
      cases hnone
    obtain rfl : canonical = c := Except.ok.inj (hname.symm.trans hc)
    have hmarked : canonical ∈ t.loaded := by
      have hfirst : canonical ∈ (enter scope canonical referrer s).2.loaded := by
        rw [enter_loaded]
        exact List.mem_cons_self
      rcases hrest with herror | ⟨source, s₁, hentered, ⟨-, rfl⟩ | ⟨_, -, hnested⟩⟩
      · rwa [herror] at hfirst
      · rwa [hentered] at hfirst
      · have hlater := loaded_subset_inOrder scope nesting (.text canonical)
          (Specifier.ofSource source) s₁
        rw [hentered] at hfirst
        rw [hnested] at hlater
        exact hlater hfirst
    obtain ⟨source, dependencies, hsource, hnames, hdependencies⟩ :=
      hgood canonical (hall hmarked) hcanonical s.notes
    have hentered := enter_of_sourceAt? referrer hreport hsource
    rcases hrest with herror | ⟨source', s₁, hentered', hlater⟩
    · rw [herror] at hentered
      cases hentered
    · rw [hentered'] at hentered
      cases hentered
      rcases hlater with ⟨hnone, -⟩ | ⟨dependencies', hnames', hnested⟩
      · rw [hnames] at hnone
        cases hnone
      · obtain ⟨_, specifier, _, m, hsplit, -, hload⟩ := exists_of_inOrder_eq_error hnested
        have hspecifier : specifier ∈ Specifier.ofSource source := by
          rw [hsplit]
          simp
        obtain ⟨d, hd, hname'⟩ := (mem_of_mapM_eq_ok hnames).1 specifier hspecifier
        exact ih hname' (hdependencies d hd) hload

end Load.Source

/-! ### Compilations that fail -/

namespace Compile

open Load Load.Source

variable {reporting : Bool} {nesting : Nat} {view : View} {options : Options} {entry : Entry}
  {entries : List Entry} {base : Path} {memory : List (Value × String)}
  {run run' : Run (List (Value × String))} {failure : Failure}

/-- The session is open and below the directory it was made for. -/
def IsOpen (base : Path) (session : Session) : Prop :=
  session.base = base ∧ session.closed = false

/-- Evaluations only add elements. -/
lemma addEvaluation_isOpen {σ : Type} {run : Run σ} (loader : Loader σ) (options : Options)
    (entry : Entry) (h : IsOpen base run.session) :
    IsOpen base (addEvaluation loader options entry run).2.session := by
  unfold addEvaluation
  split
  · split
    · exact h
    · split
      · exact h
      · next session hsession =>
        unfold Session.append at hsession
        split at hsession <;> cases hsession
        exact h
  · exact h

/-- Evaluations mark no names. -/
lemma loaded_addEvaluation {σ τ : Type} (loader : Loader σ) (options : Options) (entry : Entry)
    (run : Run τ) :
    (addEvaluation loader options entry run).2.session.loaded = run.session.loaded := by
  unfold addEvaluation
  split
  · split
    · rfl
    · split
      · rfl
      · next session hsession =>
        unfold Session.append at hsession
        split at hsession <;> cases hsession
        rfl
  · rfl

lemma loadEntry_isOpen {σ : Type} {run : Run σ} (loader : Loader σ) (view : View)
    (options : Options) (entry : Entry) (h : IsOpen base run.session) :
    IsOpen base (loadEntry loader view options entry run).2.session := by
  unfold loadEntry
  dsimp only
  split
  · exact h
  · exact addEvaluation_isOpen _ _ _ h

/-- The session stays open as long as entries are loaded. -/
lemma inOrder_isOpen {σ : Type} (loader : Loader σ) (view : View) (options : Options)
    (entries : List Entry) (base : Path) (memory : σ) :
    IsOpen base (inOrder (loadEntry loader view options) entries (newRun base memory)).2.session :=
  inOrder_keeps (P := fun run : Run σ => IsOpen base run.session)
    (fun entry _ hrun => loadEntry_isOpen loader view options entry hrun) entries ⟨rfl, rfl⟩

/-- A compilation whose entries can all be loaded gives what they added. -/
lemma compileEntries_of_inOrder {σ : Type} {loader : Loader σ} {memory : σ} {run : Run σ}
    (h : inOrder (loadEntry loader view options) entries (newRun base memory) = (.ok (), run)) :
    compileEntries loader view entries options base memory
      = (.ok (if options.dependencyTarget.truthy then none else some run.session.elements),
        { run with session := { run.session with closed := true } }) := by
  have hopen := inOrder_isOpen loader view options entries base memory
  rw [h] at hopen
  have hclosed : run.session.closed = false := hopen.2
  unfold compileEntries
  rw [← newRun, h]
  simp [Session.finish, hclosed]

/-- A compilation ends where an entry fails. -/
lemma compileEntries_of_inOrder_error {σ : Type} {loader : Loader σ} {memory : σ} {run : Run σ}
    (h : inOrder (loadEntry loader view options) entries (newRun base memory)
      = (.error failure, run)) :
    compileEntries loader view entries options base memory = (.error failure, run) := by
  unfold compileEntries
  rw [← newRun, h]

/-- An entry fails if its load does. -/
lemma loadEntry_error (hopen : IsOpen base run.session)
    (h : loadEntry (Source.loader reporting nesting) view options entry run
      = (.error failure, run')) :
    ∃ t, load (scopeOf reporting view options entry run) nesting (callOf options entry)
        (stateOf run) = (.error failure, t) ∧ run' = run.after entry t := by
  obtain ⟨rfl, hclosed⟩ := hopen
  rw [loadEntry_eq] at h
  dsimp only at h
  split at h
  · next hfailure =>
    obtain ⟨hresult, rfl⟩ := Prod.mk.inj h
    cases hresult
    exact ⟨_, Prod.ext hfailure rfl, rfl⟩
  · next hok =>
    -- a name that has been loaded can be evaluated
    obtain ⟨name, hname, -⟩ := load_extends (Prod.ext hok rfl)
    unfold addEvaluation at h
    split at h
    · split at h
      · next hnone =>
        have hboth := hnone.symm.trans hname
        cases hboth
      · split at h
        · next hsession =>
          unfold Session.append Run.after at hsession
          dsimp only at hsession
          rw [hclosed] at hsession
          cases hsession
        · cases h
    · cases h

/-- A compilation fails if the load of an entry does, behind entries that could be loaded, and goes
no further. -/
lemma exists_run_of_compileEntries_error
    (h : (compileEntries (Source.loader reporting nesting) view entries options base memory).1
      = .error failure) :
    ∃ before entry after run t, entries = before ++ entry :: after ∧
      inOrder (loadEntry (Source.loader reporting nesting) view options) before (newRun base memory)
        = (.ok (), run) ∧ run.session.base = base ∧
      load (scopeOf reporting view options entry run) nesting (callOf options entry) (stateOf run)
        = (.error failure, t) ∧
      (compileEntries (Source.loader reporting nesting) view entries options base memory).2
        = run.after entry t := by
  have hopen : ∀ entries, IsOpen base (inOrder (loadEntry (Source.loader reporting nesting) view
      options) entries (newRun base memory)).2.session :=
    fun entries => inOrder_isOpen _ view options entries base memory
  unfold compileEntries at h ⊢
  rw [← newRun] at h ⊢
  split at h
  · next hrun =>
    cases h
    obtain ⟨before, entry, after, run, rfl, hbefore, hentry⟩ := exists_of_inOrder_eq_error hrun
    have hmid := hopen before
    rw [hbefore] at hmid
    obtain ⟨t, hload, rfl⟩ := loadEntry_error hmid hentry
    exact ⟨before, entry, after, run, t, rfl, hbefore, hmid.1, hload, rfl⟩
  · next run hrun =>
    have hend := hopen entries
    rw [hrun] at hend
    split at h
    · next hfinish =>
      unfold Session.finish at hfinish
      rw [hend.2] at hfinish
      cases hfinish
    · cases h

/-- A compilation fails if the load of an entry does. -/
lemma compileEntries_error
    (h : (compileEntries (Source.loader reporting nesting) view entries options base memory).1
      = .error failure) :
    ∃ entry ∈ entries, ∃ notes s t,
      load ⟨fun ns => view (notes ++ ns), base, options, reporting⟩ nesting (callOf options entry) s
        = (.error failure, t) ∧
      (compileEntries (Source.loader reporting nesting) view entries options base
        memory).2.session.loaded = t.loaded := by
  obtain ⟨before, entry, after, run, t, rfl, -, rfl, hload, hend⟩ :=
    exists_run_of_compileEntries_error h
  exact ⟨entry, by simp, _, _, t, hload, congrArg (·.session.loaded) hend⟩

/-! ### Compilations that go well -/

variable {w : Workspace} {answer : Option Tree} {canonical : String}

/-- If a module could be loaded, then files can be reported. -/
lemma canReport_of_compileEntries (hkind : entry.kind = .module)
    (h : (compileEntries (Source.loader reporting nesting) view [entry] options base memory).1
      = .ok answer) : CanReport options reporting := by
  obtain ⟨run, hrun, -⟩ := exists_run_of_compileEntries h
  obtain ⟨mid, hentry, -⟩ := inOrder_cons_eq_ok_iff.mp hrun
  simp only [loadEntry, Source.loader, newRun] at hentry
  split at hentry
  · cases hentry
  · next hresult =>
    unfold load callOf at hresult
    rw [hkind] at hresult
    cases nesting with
    | zero => cases hresult
    | succ nesting =>
      obtain ⟨c, -, ⟨hmem, -⟩ | ⟨-, source, _, _, s₁, _, hentered, -⟩⟩ :=
        loadModule_ok (Prod.ext hresult rfl)
      · simp at hmem
      · exact canReport_of_enter hentered

/-- Where every good name has a source and depends on good names, the compilation of a good module
succeeds unless it is nested too deep. -/
theorem compileEntries_ok_of_good (good : String → Prop) (hkind : entry.kind = .module)
    (hreport : CanReport options reporting) (hname : nameOf options entry = .ok canonical)
    (hcanonical : good canonical)
    (hgood : ∀ c ∈ (compileEntries (Source.loader reporting nesting) (fun _ => w) [entry] options
        base memory).2.session.loaded, good c → ∃ source dependencies,
      sourceAt? w base c = some source ∧ (Specifier.ofSource source).mapM
        (fun specifier => ModuleName.canonical specifier (.text c) options) = .ok dependencies ∧
      ∀ d ∈ dependencies, good d)
    (hends : (compileEntries (Source.loader reporting nesting) (fun _ => w) [entry] options base
      memory).1 ≠ .error .nestedTooDeep) :
    ∃ answer, (compileEntries (Source.loader reporting nesting) (fun _ => w) [entry] options base
      memory).1 = .ok answer := by
  cases hrun : (compileEntries (Source.loader reporting nesting) (fun _ => w) [entry] options base
      memory).1 with
  | ok answer => exact ⟨answer, rfl⟩
  | error failure =>
    exfalso
    obtain ⟨e, hmem, notes, s, t, hload, hloaded⟩ := compileEntries_error hrun
    obtain rfl : e = entry := List.mem_singleton.mp hmem
    unfold load callOf at hload
    rw [hkind] at hload
    have hdeep : failure = .nestedTooDeep := by
      refine eq_nestedTooDeep_of_good hreport ?_ ?_ hcanonical (List.Subset.refl _) hload
      · intro c hc hgoodc _
        rw [← hloaded] at hc
        exact hgood c hc hgoodc
      · exact hname
    exact hends (by rw [hrun, hdeep])

end Compile

end Bundler
