import Bundler.Proofs.FailedLoads

/-!
# What a compilation depends on

A compilation reads the files of the names that it marks and no others: where these names lead to
the same sources it runs alike, in another workspace, seen from another base directory or with its
files reported somewhere else. What the loader reported before makes no difference to it.

Failures tell of the paths that were tried. Where the same names are seen from different places, runs
are alike but for what their failures tell, so it is left open how far failures are told apart.
-/

namespace Bundler

/-- What every step keeps away from a state at the end of a run is kept away from its start. -/
lemma of_inOrder {α ε σ : Type} {step : α → σ → Except ε Unit × σ} {Q : σ → Prop}
    (hback : ∀ a s, Q (step a s).2 → Q s) {as : List α} {s : σ} (h : Q (inOrder step as s).2) :
    Q s := by
  by_contra hnot
  exact inOrder_keeps (P := fun s => ¬ Q s) (fun a s hs hstep => hs (hback a s hstep)) as hnot h

/-! ### Results that are the same -/

/-- The results are the same as far as `tell` tells failures apart. -/
def SameBy {α ε γ : Type} (tell : ε → γ) (x x' : Except ε α) : Prop :=
  x'.mapError tell = x.mapError tell

namespace SameBy

variable {α ε γ : Type} {tell : ε → γ} {x x' : Except ε α} {a : α} {e e' : ε}

@[simp] lemma refl (tell : ε → γ) (x : Except ε α) : SameBy tell x x := rfl

@[simp] lemma ok_iff : SameBy tell (.ok a) x' ↔ x' = .ok a := by
  cases x' <;> simp [SameBy, Except.mapError]

@[simp] lemma error_error : SameBy tell (.error e : Except ε α) (.error e') ↔ tell e' = tell e := by
  simp [SameBy, Except.mapError]

@[simp] lemma not_error_ok : ¬ SameBy tell (.error e) (.ok a) := by
  simp [SameBy, Except.mapError]

/-- Failures that are not told apart at all leave what there is if there is no failure. -/
lemma const_iff {c : γ} : SameBy (fun _ => c) x x' ↔ x'.toOption = x.toOption := by
  cases x <;> cases x' <;> simp [SameBy, Except.mapError, Except.toOption]

@[simp] lemma id_iff : SameBy (id : ε → ε) x x' ↔ x' = x := by
  cases x <;> cases x' <;> simp [SameBy, Except.mapError]

end SameBy

/-- Runs of two steps are alike as long as their steps are, if what the steps need holds at the end
of the run. -/
lemma inOrder_alike {α ε γ σ τ : Type} {tell : ε → γ} {step : α → σ → Except ε Unit × σ}
    {step' : α → τ → Except ε Unit × τ} {R : σ → τ → Prop} {Q : σ → Prop}
    (hback : ∀ a s, Q (step a s).2 → Q s)
    (hstep : ∀ a s s', R s s' → Q (step a s).2 →
      SameBy tell (step a s).1 (step' a s').1 ∧ R (step a s).2 (step' a s').2)
    {as : List α} {s : σ} {s' : τ} (hs : R s s') (h : Q (inOrder step as s).2) :
    SameBy tell (inOrder step as s).1 (inOrder step' as s').1 ∧
      R (inOrder step as s).2 (inOrder step' as s').2 := by
  induction as generalizing s s' with
  | nil => exact ⟨.refl _ _, hs⟩
  | cons a as ih =>
    cases hfirst : step a s with
    | mk result m =>
      cases hfirst' : step' a s' with
      | mk result' m' =>
        have hsame := hstep a s s' hs
        rw [hfirst, hfirst'] at hsame
        cases result with
        | error e =>
          rw [inOrder_cons_error as hfirst] at h
          obtain ⟨hresult, hm⟩ := hsame h
          cases result' with
          | ok _ => exact absurd hresult SameBy.not_error_ok
          | error e' =>
            rw [inOrder_cons_error as hfirst, inOrder_cons_error as hfirst']
            exact ⟨hresult, hm⟩
        | ok _ =>
          rw [inOrder_cons_ok as hfirst] at h
          obtain ⟨hresult, hm⟩ := hsame (of_inOrder hback h)
          obtain rfl := SameBy.ok_iff.mp hresult
          rw [inOrder_cons_ok as hfirst, inOrder_cons_ok as hfirst']
          exact ih hm h

namespace Load.Source

/-- The states are the same but for what has been reported. -/
def Alike (s s' : State) : Prop := ∃ reports, s' = { s with reports }

/-- Two steps of a load come to the same result, as far as failures are told apart, and leave states
that are alike. -/
def EndAlike {α γ : Type} (tell : Failure → γ) (x x' : Except Failure α × State) : Prop :=
  SameBy tell x.1 x'.1 ∧ Alike x.2 x'.2

/-- In two scopes names and units are made alike, and reports of files take the same notes. -/
structure Scope.Agrees (scope scope' : Scope) : Prop where
  options : ∃ target, scope'.options = { scope.options with dependencyTarget := target }
  report : ∀ name s s', Alike s s' →
    (report scope' (locate scope'.base name) s').1 = (report scope (locate scope.base name) s).1 ∧
      Alike (report scope (locate scope.base name) s).2
        (report scope' (locate scope'.base name) s').2

/-- In two scopes the same comes of reading the files of some names, as far as failures are told
apart. -/
def ReadAlike {γ : Type} (tell : Failure → γ) (names : List String) (scope scope' : Scope) : Prop :=
  ∀ name ∈ names, ∀ notes referrer,
    SameBy tell (read (scope.view notes) (locate scope.base name) name referrer)
      (read (scope'.view notes) (locate scope'.base name) name referrer)

variable {γ : Type} {tell : Failure → γ}

lemma Scope.Agrees.after {scope scope' : Scope} (h : scope.Agrees scope') (notes : List Note) :
    (scope.after notes).Agrees (scope'.after notes) := ⟨h.options, h.report⟩

lemma ReadAlike.after {names : List String} {scope scope' : Scope}
    (h : ReadAlike tell names scope scope') (notes : List Note) :
    ReadAlike tell names (scope.after notes) (scope'.after notes) :=
  fun name hname later => h name hname (notes ++ later)

lemma ReadAlike.mono {names names' : List String} {scope scope' : Scope}
    (h : ReadAlike tell names scope scope') (hsubset : names' ⊆ names) :
    ReadAlike tell names' scope scope' :=
  fun name hname => h name (hsubset hname)

variable {scope scope' : Scope} {view' : View} {s s' : State} {name : String} {referrer : Value}
  {nesting : Nat}

lemma read_congr {w w' : Workspace} {path : Path} (name : String) (referrer : Value)
    (h : w'.read path = w.read path) : read w' path name referrer = read w path name referrer := by
  unfold read
  rw [h]

/-- Another view makes no difference to names, units and reports. -/
lemma agrees_view (scope : Scope) (view' : View) : scope.Agrees { scope with view := view' } where
  options := ⟨scope.options.dependencyTarget, rfl⟩
  report := by
    rintro name s _ ⟨reports, rfl⟩
    unfold report
    dsimp only
    split
    · exact ⟨rfl, _, rfl⟩
    · split
      · exact ⟨rfl, _, rfl⟩
      · split <;> exact ⟨rfl, _, rfl⟩

lemma singleton_subset_loaded_enter (scope : Scope) (name : String) (referrer : Value) (s : State) :
    [name] ⊆ (enter scope name referrer s).2.loaded := by
  rw [enter_loaded]
  simp

lemma enter_alike (hscope : scope.Agrees scope') (h : Alike s s')
    (hread : ReadAlike tell [name] scope scope') :
    EndAlike tell (enter scope name referrer s) (enter scope' name referrer s') := by
  obtain ⟨reports, rfl⟩ := h
  have hsame := hread name List.mem_cons_self s.notes referrer
  unfold enter
  dsimp only
  cases hsource : read (scope.view s.notes) (locate scope.base name) name referrer with
  | error failure =>
    rw [hsource] at hsame
    cases hsource' : read (scope'.view s.notes) (locate scope'.base name) name referrer with
    | error failure' =>
      rw [hsource'] at hsame
      exact ⟨hsame, _, rfl⟩
    | ok source =>
      rw [hsource'] at hsame
      exact absurd hsame SameBy.not_error_ok
  | ok source =>
    rw [hsource, SameBy.ok_iff] at hsame
    rw [hsame]
    obtain ⟨hresult, hreported⟩ := hscope.report name { s with loaded := name :: s.loaded }
      { s with loaded := name :: s.loaded, reports } ⟨reports, rfl⟩
    refine ⟨?_, hreported⟩
    dsimp only
    rw [hresult]
    exact .refl _ _

lemma add_alike (unit : CompiledUnit) (message : String) (h : Alike s s') :
    Alike (add unit message s) (add unit message s') := by
  obtain ⟨reports, rfl⟩ := h
  exact ⟨reports, rfl⟩

/-! ### Loads in steps -/

/-- One step and then, unless it fails, another. -/
def andThen {α : Type} (x : Except Failure α × State)
    (k : α → State → Except Failure Unit × State) : Except Failure Unit × State :=
  match x with
  | (.error failure, s) => (.error failure, s)
  | (.ok a, s) => k a s

/-- Steps that are alike may be put together. What the first needs must hold where the second
ends. -/
lemma andThen_alike {α : Type} {x x' : Except Failure α × State}
    {k k' : α → State → Except Failure Unit × State} {Q : State → Prop} (hx : Q x.2 → EndAlike tell x x')
    (hback : ∀ a m, Q (k a m).2 → Q m)
    (hk : ∀ a m m', Alike m m' → Q (k a m).2 → EndAlike tell (k a m) (k' a m'))
    (h : Q (andThen x k).2) : EndAlike tell (andThen x k) (andThen x' k') := by
  obtain ⟨result, m⟩ := x
  obtain ⟨result', m'⟩ := x'
  cases result with
  | error failure =>
    obtain ⟨hresult, hm⟩ := hx h
    cases result' with
    | error failure' => exact ⟨SameBy.error_error.mpr (SameBy.error_error.mp hresult), hm⟩
    | ok a => exact absurd hresult SameBy.not_error_ok
  | ok a =>
    obtain ⟨hresult, hm⟩ := hx (hback a m h)
    obtain rfl := SameBy.ok_iff.mp hresult
    exact hk a m m' hm h

/-- What a load of a module does once it has the source. -/
def afterEntering (scope : Scope) (nesting : Nat) (canonical source : String) (s : State) :
    Except Failure Unit × State :=
  match dependencyNames scope canonical (Specifier.ofSource source) with
  | .error failure => (.error failure, s)
  | .ok dependencies =>
    andThen (inOrder (fun specifier => loadModule scope nesting specifier (.text canonical))
      (Specifier.ofSource source) s) fun _ s =>
        (.ok (), add (.ofModule scope.options canonical dependencies source)
          ("Compiling module " ++ canonical ++ " (" ++ toString dependencies.length
            ++ " dependencies)") s)

lemma loadModule_succ (scope : Scope) (nesting : Nat) (name : String) (referrer : Value)
    (s : State) :
    loadModule scope (nesting + 1) name referrer s =
      match ModuleName.canonical name referrer scope.options with
      | .error failure => (.error failure, s)
      | .ok canonical =>
        if s.loaded.contains canonical then (.ok (), s)
        else andThen (enter scope canonical referrer s)
          (afterEntering scope nesting canonical) := by
  simp only [loadModule]
  cases ModuleName.canonical name referrer scope.options with
  | error failure => rfl
  | ok canonical =>
    dsimp only
    split
    · rfl
    · rcases enter scope canonical referrer s with ⟨_ | source, m⟩
      · rfl
      · simp only [andThen, afterEntering]
        cases dependencyNames scope canonical (Specifier.ofSource source) with
        | error failure => rfl
        | ok dependencies =>
          dsimp only
          rcases inOrder _ (Specifier.ofSource source) m with ⟨_ | _, n⟩ <;> rfl

lemma loadScript_eq (scope : Scope) (name : String) (referrer : Value) (s : State) :
    loadScript scope name referrer s =
      match ModuleName.canonical name referrer scope.options with
      | .error failure => (.error failure, s)
      | .ok canonical =>
        if s.loaded.contains canonical then (.ok (), s)
        else andThen (enter scope canonical referrer s) fun source s =>
          (.ok (), add (.ofScript canonical source) ("Compiling script " ++ canonical) s) := by
  simp only [loadScript]
  cases ModuleName.canonical name referrer scope.options with
  | error failure => rfl
  | ok canonical =>
    dsimp only
    split
    · rfl
    · rcases enter scope canonical referrer s with ⟨_ | source, m⟩ <;> rfl

/-- What follows the entering of a name takes back no mark. -/
lemma loaded_subset_afterEntering (scope : Scope) (nesting : Nat) (canonical source : String)
    (s : State) : s.loaded ⊆ (afterEntering scope nesting canonical source s).2.loaded := by
  unfold afterEntering
  split
  · exact List.Subset.refl _
  · have hnested := loaded_subset_inOrder scope nesting (.text canonical)
      (Specifier.ofSource source) s
    revert hnested
    rcases inOrder _ (Specifier.ofSource source) s with ⟨_ | _, n⟩ <;> exact id

/-! ### Loads that run alike -/

lemma loadScript_alike (hscope : scope.Agrees scope') (h : Alike s s')
    (hread : ReadAlike tell (loadScript scope name referrer s).2.loaded scope scope') :
    EndAlike tell (loadScript scope name referrer s) (loadScript scope' name referrer s') := by
  rw [loadScript_eq] at hread
  rw [loadScript_eq, loadScript_eq]
  obtain ⟨target, hoptions⟩ := hscope.options
  have hname : ModuleName.canonical name referrer scope'.options
      = ModuleName.canonical name referrer scope.options := by
    rw [hoptions]
    rfl
  obtain ⟨reports, rfl⟩ := h
  rw [hname]
  cases hcanonical : ModuleName.canonical name referrer scope.options with
  | error failure => exact ⟨rfl, reports, rfl⟩
  | ok canonical =>
    simp only [hcanonical] at hread
    dsimp only
    split
    · exact ⟨rfl, reports, rfl⟩
    · next hnew =>
      rw [if_neg hnew] at hread
      refine andThen_alike (Q := fun t => ReadAlike tell t.loaded scope scope')
        (fun hread => enter_alike hscope ⟨reports, rfl⟩
          (hread.mono (singleton_subset_loaded_enter ..))) ?_ ?_ hread
      · exact fun _ _ ht => ht
      · exact fun _ _ _ hm _ => ⟨rfl, add_alike _ _ hm⟩

/-- A load runs alike where the same comes of reading the files of all names that it marks. -/
theorem loadModule_alike (hscope : scope.Agrees scope') (h : Alike s s')
    (hread : ReadAlike tell (loadModule scope nesting name referrer s).2.loaded scope scope') :
    EndAlike tell (loadModule scope nesting name referrer s)
      (loadModule scope' nesting name referrer s') := by
  obtain ⟨target, hoptions⟩ := hscope.options
  induction nesting generalizing name referrer s s' with
  | zero => exact ⟨rfl, h⟩
  | succ nesting ih =>
    rw [loadModule_succ] at hread
    rw [loadModule_succ, loadModule_succ]
    have hname : ModuleName.canonical name referrer scope'.options
        = ModuleName.canonical name referrer scope.options := by
      rw [hoptions]
      rfl
    obtain ⟨reports, rfl⟩ := h
    rw [hname]
    cases hcanonical : ModuleName.canonical name referrer scope.options with
    | error failure => exact ⟨rfl, reports, rfl⟩
    | ok canonical =>
      simp only [hcanonical] at hread
      dsimp only
      split
      · exact ⟨rfl, reports, rfl⟩
      · next hnew =>
        rw [if_neg hnew] at hread
        refine andThen_alike (Q := fun t => ReadAlike tell t.loaded scope scope')
          (fun hread => enter_alike hscope ⟨reports, rfl⟩
            (hread.mono (singleton_subset_loaded_enter ..))) ?_ ?_ hread
        · exact fun source m ht => ht.mono (loaded_subset_afterEntering _ _ _ _ _)
        · intro source m m' hm htread
          unfold afterEntering at htread ⊢
          have hnames : dependencyNames scope' canonical (Specifier.ofSource source)
              = dependencyNames scope canonical (Specifier.ofSource source) := by
            unfold dependencyNames
            rw [hoptions]
            rfl
          have hunit : ∀ dependencies,
              CompiledUnit.ofModule scope'.options canonical dependencies source
                = .ofModule scope.options canonical dependencies source := by
            intro dependencies
            rw [hoptions]
            rfl
          rw [hnames]
          cases hdependencies : dependencyNames scope canonical (Specifier.ofSource source) with
          | error failure => exact ⟨rfl, hm⟩
          | ok dependencies =>
            simp only [hdependencies] at htread
            simp only [hunit]
            refine andThen_alike (Q := fun t => ReadAlike tell t.loaded scope scope')
              (fun ht => ?_) (fun _ _ ht => ht) (fun _ _ _ hm _ => ⟨rfl, add_alike _ _ hm⟩) htread
            apply inOrder_alike (R := Alike)
              (Q := fun t => ReadAlike tell t.loaded scope scope') _ _ hm ht
            · exact fun _ _ hs => hs.mono (loaded_subset_loadModule _ _ _ _ _)
            · exact fun _ _ _ hs hsread => ih hs hsread

lemma load_alike {call call' : Call} (hscope : scope.Agrees scope') (hkind : call'.kind = call.kind)
    (hname : call'.name = call.name) (hreferrer : call'.referrer = call.referrer) (h : Alike s s')
    (hread : ReadAlike tell (load scope nesting call s).2.loaded scope scope') :
    EndAlike tell (load scope nesting call s) (load scope' nesting call' s') := by
  unfold load at hread ⊢
  rw [hkind, hname, hreferrer]
  split
  · next hkind =>
    simp only [hkind] at hread
    exact loadModule_alike hscope h hread
  · next hkind =>
    simp only [hkind] at hread
    exact loadScript_alike hscope h hread

lemma loaded_subset_loadScript (scope : Scope) (name : String) (referrer : Value) (s : State) :
    s.loaded ⊆ (loadScript scope name referrer s).2.loaded := by
  rw [loadScript_eq]
  split
  · exact List.Subset.refl _
  · next canonical _ =>
    split
    · exact List.Subset.refl _
    · have hentered := enter_loaded scope canonical referrer s
      revert hentered
      rcases enter scope canonical referrer s with ⟨_ | source, m⟩ <;> intro hentered <;>
        exact hentered ▸ List.subset_cons_self _ _

lemma loaded_subset_load (scope : Scope) (nesting : Nat) (call : Call) (s : State) :
    s.loaded ⊆ (load scope nesting call s).2.loaded := by
  unfold load
  split
  · exact loaded_subset_loadModule _ _ _ _ _
  · exact loaded_subset_loadScript _ _ _ _

end Load.Source

/-! ### Compilations that run alike -/

namespace Compile

open Load Load.Source

variable {reporting : Bool} {nesting : Nat} {view view' : View} {options : Options} {entry : Entry}
  {entries : List Entry} {base : Path} {memory : List (Value × String)}
  {run run' : Run (List (Value × String))} {scope scope' : Scope}
  {answer : Option Tree} {γ : Type} {tell : Failure → γ}

/-- The runs are the same but for the memory of the loader and the base directory. -/
def Run.Alike (run run' : Run (List (Value × String))) : Prop :=
  ∃ memory base, run' = { run with memory, session := { run.session with base } }

/-- What an entry marks is what its load marks. -/
lemma loaded_loadEntry (view : View) (options : Options) (entry : Entry)
    (run : Run (List (Value × String))) :
    (loadEntry (Source.loader reporting nesting) view options entry run).2.session.loaded
      = (load (scopeOf reporting view options entry run) nesting (callOf options entry)
          (stateOf run)).2.loaded := by
  rw [loadEntry_eq]
  dsimp only
  split
  · rfl
  · rw [loaded_addEvaluation]
    rfl

lemma loaded_subset_loadEntry (view : View) (options : Options) (entry : Entry)
    (run : Run (List (Value × String))) : run.session.loaded
      ⊆ (loadEntry (Source.loader reporting nesting) view options entry run).2.session.loaded := by
  rw [loaded_loadEntry]
  exact loaded_subset_load _ nesting (callOf options entry) (stateOf run)

lemma addEvaluation_alike (hscope : scope.Agrees scope') (entry : Entry) (h : run.Alike run') :
    (addEvaluation (Source.loader scope'.reporting nesting) scope'.options entry run').1
        = (addEvaluation (Source.loader scope.reporting nesting) scope.options entry run).1 ∧
      (addEvaluation (Source.loader scope.reporting nesting) scope.options entry run).2.Alike
        (addEvaluation (Source.loader scope'.reporting nesting) scope'.options entry run').2 := by
  obtain ⟨target, hoptions⟩ := hscope.options
  obtain ⟨memory, base, rfl⟩ := h
  rw [hoptions]
  unfold addEvaluation
  have hname : (Source.loader scope'.reporting nesting).nameOf entry.name
      { scope.options with dependencyTarget := target }.referrerName
      { scope.options with dependencyTarget := target }
      = (Source.loader scope.reporting nesting).nameOf entry.name scope.options.referrerName
          scope.options := rfl
  have hregister : ({ scope.options with dependencyTarget := target } : Options).isRegister
      = scope.options.isRegister := rfl
  rw [hname, hregister]
  split
  · cases (Source.loader scope.reporting nesting).nameOf entry.name scope.options.referrerName
        scope.options with
    | error failure => exact ⟨rfl, memory, base, rfl⟩
    | ok name =>
      dsimp only [Session.append]
      split
      · next hfailed =>
        split at hfailed
        · next hclosed =>
          cases hfailed
          rw [if_pos hclosed]
          exact ⟨rfl, memory, base, rfl⟩
        · cases hfailed
      · next hdone =>
        split at hdone
        · cases hdone
        · next hopen =>
          cases hdone
          rw [if_neg hopen]
          exact ⟨rfl, memory, base, rfl⟩
  · exact ⟨rfl, memory, base, rfl⟩

/-- An entry is loaded alike in scopes that agree where the same comes of reading the files of all
names that it marks. -/
lemma loadIn_alike (hscope : scope.Agrees scope') (hbase : run.session.base = scope.base)
    (hbase' : run'.session.base = scope'.base) (h : run.Alike run')
    (hread : ReadAlike tell (loadIn scope nesting entry run).2.session.loaded scope scope') :
    SameBy tell (loadIn scope nesting entry run).1 (loadIn scope' nesting entry run').1 ∧
      (loadIn scope nesting entry run).2.Alike (loadIn scope' nesting entry run').2 := by
  obtain ⟨target, hoptions⟩ := hscope.options
  obtain ⟨memory, base, rfl⟩ := h
  have hseen := scopeOf_eq_after entry hbase
  have hseen' := scopeOf_eq_after entry hbase'
  unfold loadIn at hread ⊢
  rw [loaded_loadEntry, hseen] at hread
  have hload : EndAlike tell
      (load (scope.after (run.notes ++ [entryNote entry])) nesting (callOf scope.options entry)
        (stateOf run))
      (load (scope'.after (run.notes ++ [entryNote entry])) nesting (callOf scope'.options entry)
        (stateOf { run with memory, session := { run.session with base } })) := by
    refine load_alike (hscope.after _) rfl rfl ?_ ⟨memory, rfl⟩ (hread.after _)
    rw [hoptions]
    rfl
  rw [loadEntry_eq, loadEntry_eq, hseen, hseen']
  revert hload
  rcases load (scope.after _) nesting _ _ with ⟨result, t⟩
  rcases load (scope'.after _) nesting _ _ with ⟨result', t'⟩
  rintro ⟨hresult, reports, ht⟩
  dsimp only at hresult ht ⊢
  subst ht
  cases result with
  | error failure =>
    cases result' with
    | error failure' => exact ⟨hresult, reports, base, rfl⟩
    | ok _ => exact absurd hresult SameBy.not_error_ok
  | ok _ =>
    obtain rfl := SameBy.ok_iff.mp hresult
    have hsame : (run.after entry t).Alike (Run.after
        { run with memory, session := { run.session with base } } entry { t with reports }) :=
      ⟨reports, base, rfl⟩
    exact (addEvaluation_alike hscope entry hsame).imp_left (congrArg (Except.mapError tell))

/-- Entries are loaded alike in scopes that agree where the same comes of reading the files of all
names that they mark. -/
lemma loadAllIn_alike (hscope : scope.Agrees scope') (hopen : IsOpen scope.base run.session)
    (hopen' : IsOpen scope'.base run'.session) (h : run.Alike run')
    (hread : ReadAlike tell (inOrder (loadIn scope nesting) entries run).2.session.loaded scope scope') :
    SameBy tell (inOrder (loadIn scope nesting) entries run).1
        (inOrder (loadIn scope' nesting) entries run').1 ∧
      (inOrder (loadIn scope nesting) entries run).2.Alike
        (inOrder (loadIn scope' nesting) entries run').2 := by
  have hback : ∀ entry run, ReadAlike tell (loadIn scope nesting entry run).2.session.loaded scope scope' →
      ReadAlike tell run.session.loaded scope scope' :=
    fun entry run h => h.mono (loaded_subset_loadEntry scope.view scope.options entry run)
  obtain ⟨hresult, -, -, hsame⟩ := inOrder_alike
    (R := fun run run' : Run (List (Value × String)) =>
      IsOpen scope.base run.session ∧ IsOpen scope'.base run'.session ∧ run.Alike run')
    (Q := fun run : Run (List (Value × String)) => ReadAlike tell run.session.loaded scope scope')
    hback (by
      rintro entry run run' ⟨hopen, hopen', hsame⟩ hmid
      obtain ⟨hresult, hsame⟩ := loadIn_alike hscope hopen.1 hopen'.1 hsame hmid
      exact ⟨hresult, loadEntry_isOpen _ _ _ entry hopen, loadEntry_isOpen _ _ _ entry hopen',
        hsame⟩) ⟨hopen, hopen', h⟩ hread
  exact ⟨hresult, hsame⟩

/-- In scopes that agree entries are compiled alike where the same comes of reading the files of all
names that are marked. Whether there is a tree depends on what each scope asks for. -/
theorem compileIn_alike (nesting : Nat) (entries : List Entry)
    (memory memory' : List (Value × String)) (hscope : scope.Agrees scope')
    (hread : ReadAlike tell (compileIn scope nesting entries memory).2.session.loaded scope scope') :
    SameBy tell
        ((compileIn scope nesting entries memory).1.map fun _ =>
          if scope'.options.dependencyTarget.truthy then none
          else some (compileIn scope nesting entries memory).2.session.elements)
        (compileIn scope' nesting entries memory').1 ∧
      (compileIn scope nesting entries memory).2.Alike
        (compileIn scope' nesting entries memory').2 := by
  have halike : ReadAlike tell (inOrder (loadIn scope nesting) entries
        (newRun scope.base memory)).2.session.loaded scope scope' →
      SameBy tell (inOrder (loadIn scope nesting) entries (newRun scope.base memory)).1
        (inOrder (loadIn scope' nesting) entries (newRun scope'.base memory')).1 ∧
      (inOrder (loadIn scope nesting) entries (newRun scope.base memory)).2.Alike
        (inOrder (loadIn scope' nesting) entries (newRun scope'.base memory')).2 :=
    loadAllIn_alike hscope ⟨rfl, rfl⟩ ⟨rfl, rfl⟩ ⟨memory', scope'.base, rfl⟩
  unfold compileIn at hread ⊢
  cases hrun : inOrder (loadIn scope nesting) entries (newRun scope.base memory) with
  | mk result run =>
    cases hrun' : inOrder (loadIn scope' nesting) entries (newRun scope'.base memory') with
    | mk result' run' =>
      rw [hrun, hrun'] at halike
      cases result with
      | error failure =>
        rw [compileEntries_of_inOrder_error hrun] at hread ⊢
        obtain ⟨hresult, hsame⟩ := halike hread
        cases result' with
        | ok _ => exact absurd hresult SameBy.not_error_ok
        | error failure' =>
          rw [compileEntries_of_inOrder_error hrun']
          exact ⟨SameBy.error_error.mpr (SameBy.error_error.mp hresult), hsame⟩
      | ok _ =>
        rw [compileEntries_of_inOrder hrun] at hread ⊢
        obtain ⟨hresult, memory, base, rfl⟩ := halike hread
        obtain rfl := SameBy.ok_iff.mp hresult
        rw [compileEntries_of_inOrder hrun']
        exact ⟨.refl _ _, memory, base, rfl⟩

/-- A compilation that succeeds answers with the elements of its session, or without a tree if
dependencies are asked for. -/
lemma answer_eq {σ : Type} {loader : Loader σ} {memory : σ}
    (h : (compileEntries loader view entries options base memory).1 = .ok answer) :
    answer = if options.dependencyTarget.truthy then none
      else some (compileEntries loader view entries options base memory).2.session.elements := by
  obtain ⟨run, hrun, -⟩ := exists_run_of_compileEntries h
  rw [compileEntries_of_inOrder hrun] at h ⊢
  cases h
  rfl

lemma map_answer {σ : Type} (loader : Loader σ) (view : View) (entries : List Entry)
    (options : Options) (base : Path) (memory : σ) :
    (compileEntries loader view entries options base memory).1.map (fun _ =>
        if options.dependencyTarget.truthy then none
        else some (compileEntries loader view entries options base memory).2.session.elements)
      = (compileEntries loader view entries options base memory).1 := by
  cases hanswer : (compileEntries loader view entries options base memory).1 with
  | error failure => rfl
  | ok answer => exact congrArg Except.ok (answer_eq hanswer).symm

/-- A compilation runs alike where the paths of all names that it marks show the same. -/
theorem compileEntries_alike (memory' : List (Value × String))
    (hread : ∀ name ∈ (compileEntries (Source.loader reporting nesting) view entries options
        base memory).2.session.loaded, ∀ notes,
      (view' notes).read (locate base name) = (view notes).read (locate base name)) :
    (compileEntries (Source.loader reporting nesting) view' entries options base memory').1
        = (compileEntries (Source.loader reporting nesting) view entries options base memory).1 ∧
      (compileEntries (Source.loader reporting nesting) view entries options base memory).2.Alike
        (compileEntries (Source.loader reporting nesting) view' entries options base
          memory').2 := by
  have hscope : Scope.Agrees ⟨view, base, options, reporting⟩ ⟨view', base, options, reporting⟩ :=
    agrees_view _ view'
  have hread' : ReadAlike id (compileIn ⟨view, base, options, reporting⟩ nesting entries
      memory).2.session.loaded ⟨view, base, options, reporting⟩ ⟨view', base, options, reporting⟩ :=
    fun name hname notes referrer =>
      SameBy.id_iff.mpr (read_congr name referrer (hread name hname notes))
  obtain ⟨hresult, hsame⟩ := compileIn_alike nesting entries memory memory' hscope hread'
  exact ⟨(SameBy.id_iff.mp hresult).trans (map_answer _ _ _ _ _ _), hsame⟩

end Compile

end Bundler
