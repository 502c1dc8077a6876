import Bundler.Proofs.Independence

/-!
# Laws of inquiries

What comes of an inquiry depends on what it finds at its looks. `q.Ends S Q ns memory` says that the
inquiry `q`, begun after the notes `ns`, ends as `Q` says if each look finds what `S` allows after
the notes taken so far. A load of sources in the form of an inquiry comes to what the load in a row
comes to, if its looks show the same sources.
-/

namespace Bundler

/-! ### How inquiries end -/

namespace Load.Inquiry

variable {σ α β ε : Type} {S : List Note → Workspace → Prop} {Q : α → List Note → σ → Prop}
  {ns : List Note} {memory : σ}

/-- If all looks find what `S` allows, the result, the notes and the memory are as `Q` says. -/
def Ends (S : List Note → Workspace → Prop) (Q : α → List Note → σ → Prop) :
    Inquiry σ α → List Note → σ → Prop
  | answer a, ns, memory => Q a ns memory
  | note n rest, ns, memory => rest.Ends S Q (ns ++ [n]) memory
  | keep change rest, ns, memory => rest.Ends S Q ns (change memory)
  | look rest, ns, memory => ∀ w, S ns w → (rest w).Ends S Q ns memory

/-- The result is that of some work in a row, and the states in the end are related. -/
def ComesTo {τ : Type} (T : τ → β → List Note → σ → Prop) (x : α × τ) :
    α × β → List Note → σ → Prop :=
  fun a ns memory => a.1 = x.1 ∧ T x.2 a.2 ns memory

namespace Ends

variable {q : Inquiry σ α}

lemma pure {a : α} (h : Q a ns memory) : (Pure.pure a : Inquiry σ α).Ends S Q ns memory := h

lemma mono {Q' : α → List Note → σ → Prop} (h : q.Ends S Q ns memory)
    (hQ : ∀ a ns memory, Q a ns memory → Q' a ns memory) : q.Ends S Q' ns memory := by
  induction q generalizing ns memory with
  | answer a => exact hQ a ns memory h
  | note n rest ih => exact ih h
  | keep change rest ih => exact ih h
  | look rest ih => exact fun w hw => ih w (h w hw)

/-- An inquiry that goes on does so where the first part may end. -/
lemma bind {P : β → List Note → σ → Prop} {next : α → Inquiry σ β} (h : q.Ends S Q ns memory)
    (hnext : ∀ a ns memory, Q a ns memory → (next a).Ends S P ns memory) :
    (q >>= next).Ends S P ns memory := by
  induction q generalizing ns memory with
  | answer a => exact hnext a ns memory h
  | note n rest ih => exact ih h
  | keep change rest ih => exact ih h
  | look rest ih => exact fun w hw => ih w (h w hw)

lemma see {Q : Workspace → List Note → σ → Prop} (h : ∀ w, S ns w → Q w ns memory) :
    (Inquiry.see : Inquiry σ Workspace).Ends S Q ns memory := h

lemma notes {Q : Unit → List Note → σ → Prop} {more : List Note} (h : Q () (ns ++ more) memory) :
    (Inquiry.notes more : Inquiry σ Unit).Ends S Q ns memory := by
  induction more generalizing ns with
  | nil => rwa [List.append_nil] at h
  | cons n more ih => exact ih (by rwa [List.append_assoc])

lemma remember {Q : Unit → List Note → σ → Prop} {change : σ → σ} (h : Q () ns (change memory)) :
    (Inquiry.remember change : Inquiry σ Unit).Ends S Q ns memory := h

/-- Steps in order come to what steps in a row come to, if each of them does. `T` relates the states,
and `P` is what the steps need to hold at the end. -/
lemma inOrder_comesTo {τ : Type} {step : α → τ → Except ε Unit × τ}
    {ask : α → β → Inquiry σ (Except ε Unit × β)} {T : τ → β → List Note → σ → Prop}
    {P : τ → Prop} (hback : ∀ a t, P (step a t).2 → P t)
    (hstep : ∀ a t b ns memory, T t b ns memory → P (step a t).2 →
      (ask a b).Ends S (ComesTo T (step a t)) ns memory)
    (as : List α) {t : τ} {b : β} (hT : T t b ns memory) (hP : P (Bundler.inOrder step as t).2) :
    (Inquiry.inOrder ask as b).Ends S (ComesTo T (Bundler.inOrder step as t)) ns memory := by
  induction as generalizing t b ns memory with
  | nil => exact .pure ⟨rfl, hT⟩
  | cons a as ih =>
    have hnow := hstep a t b ns memory hT
    cases hfirst : step a t with
    | mk result m =>
      rw [hfirst] at hnow
      cases result with
      | error failure =>
        rw [inOrder_cons_error as hfirst] at hP ⊢
        refine .bind (hnow hP) ?_
        rintro ⟨_, _⟩ _ _ ⟨rfl, hm⟩
        exact .pure ⟨rfl, hm⟩
      | ok _ =>
        rw [inOrder_cons_ok as hfirst] at hP ⊢
        refine .bind (hnow (of_inOrder hback hP)) ?_
        rintro ⟨_, _⟩ _ _ ⟨rfl, hm⟩
        exact ih hm hP

/-- Steps in order have a result that each of them may have, or succeed. -/
lemma inOrder {I : Except ε Unit → Prop} {step : α → β → Inquiry σ (Except ε Unit × β)}
    (hok : I (.ok ()))
    (hstep : ∀ a b ns memory, (step a b).Ends S (fun x _ _ => I x.1) ns memory)
    (as : List α) {b : β} : (Inquiry.inOrder step as b).Ends S (fun x _ _ => I x.1) ns memory := by
  induction as generalizing b ns memory with
  | nil => exact .pure hok
  | cons a as ih =>
    refine .bind (hstep a b ns memory) ?_
    rintro ⟨_ | _, b⟩ ns memory hresult
    · exact .pure hresult
    · exact ih

/-- Nothing else can come of an inquiry if nobody changes what it looks at. -/
lemma seenBy {view : View} (h : q.Ends (fun ns w => w = view ns) Q ns memory) :
    Q (q.seenBy view ns memory).1 (q.seenBy view ns memory).2.1 (q.seenBy view ns memory).2.2 := by
  induction q generalizing ns memory with
  | answer a => exact h
  | note n rest ih => exact ih h
  | keep change rest ih => exact ih h
  | look rest ih => exact ih _ (h _ rfl)

end Ends

end Load.Inquiry

/-! ### Loads of sources -/

namespace Load.Source

open Inquiry (ComesTo)

variable {S : List Note → Workspace → Prop} {scope : Scope} {pre : List Note} {s t : State}
  {name : String} {referrer : Value} {nesting : Nat}

/-- A state whose notes and reports have been passed on. -/
def State.passed (s : State) : State := { s with notes := [], reports := [] }

/-- After the notes `pre`, every look shows the sources of the names that the scope shows. -/
def Shows (S : List Note → Workspace → Prop) (pre : List Note) (scope : Scope)
    (names : List String) : Prop :=
  ∀ name ∈ names, ∀ ns w, S (pre ++ ns) w → ∀ referrer,
    read w (locate scope.base name) name referrer
      = read (scope.view ns) (locate scope.base name) name referrer

lemma Shows.mono {names names' : List String} (h : Shows S pre scope names)
    (hsub : names' ⊆ names) : Shows S pre scope names' :=
  fun name hname => h name (hsub hname)

/-- An inquiry has come to a state with its notes and reports passed on. -/
def Passed (pre : List Note) (s t : State) (ns : List Note) (reports : List (Value × String)) :
    Prop :=
  t = s.passed ∧ ns = pre ++ s.notes ∧ reports = s.reports

/-- The state with notes and reports before its own. -/
def State.behind (t s : State) : State :=
  { t with notes := s.notes ++ t.notes, reports := s.reports ++ t.reports }

lemma passOn_ends {α : Type} {x y : α × State} (hx : x = (y.1, y.2.behind s)) :
    (passOn y).Ends S (ComesTo (Passed pre) x) (pre ++ s.notes) s.reports := by
  subst hx
  refine .bind (.notes (Q := fun _ ns reports => ns = pre ++ s.notes ++ y.2.notes ∧
    reports = s.reports) ⟨rfl, rfl⟩) ?_
  rintro _ ns reports ⟨rfl, rfl⟩
  refine .bind (.remember (Q := fun _ ns reports => ns = pre ++ s.notes ++ y.2.notes ∧
    reports = s.reports ++ y.2.reports) ⟨rfl, rfl⟩) ?_
  rintro _ ns reports ⟨rfl, rfl⟩
  exact .pure ⟨rfl, rfl, by simp [State.behind], rfl⟩

/-- A name is entered alike whatever has been passed on before. -/
lemma enter_passed {w : Workspace}
    (h : read w (locate scope.base name) name referrer
      = read (scope.view s.notes) (locate scope.base name) name referrer) :
    let y := enter ⟨fun _ => w, scope.base, scope.options, scope.reporting⟩ name referrer s.passed
    enter scope name referrer s = (y.1, y.2.behind s) := by
  unfold enter
  dsimp only
  rw [h]
  cases read (scope.view s.notes) (locate scope.base name) name referrer with
  | error failure => simp [State.behind, State.passed]
  | ok source =>
    unfold report
    dsimp only
    split
    · simp [State.behind, State.passed]
    · split
      · simp [State.behind, State.passed]
      · cases scope.options.dependencyTarget.describe <;> simp [State.behind, State.passed]

lemma add_passed (unit : CompiledUnit) (message : String) (s : State) :
    add unit message s = (add unit message s.passed).behind s := by
  simp [add, State.behind, State.passed]

/-- What follows the entering of a name goes on from the state that entering it in a row leaves. -/
lemma entering_ends {β : Type} {Q : β → List Note → List (Value × String) → Prop}
    {next : Workspace → Except Failure String × State → Inquiry (List (Value × String)) β}
    {names : List String} (h : Shows S pre scope names) (hname : name ∈ names)
    (hnext : ∀ w, (next w ((enter scope name referrer s).1,
      (enter scope name referrer s).2.passed)).Ends S Q
        (pre ++ (enter scope name referrer s).2.notes) (enter scope name referrer s).2.reports) :
    (Inquiry.see >>= fun w => passOn (enter ⟨fun _ => w, scope.base, scope.options,
      scope.reporting⟩ name referrer s.passed) >>= next w).Ends S Q (pre ++ s.notes) s.reports := by
  refine .bind (.see (Q := fun w ns reports => ns = pre ++ s.notes ∧ reports = s.reports ∧
    read w (locate scope.base name) name referrer
      = read (scope.view s.notes) (locate scope.base name) name referrer) ?_) ?_
  · exact fun w hw => ⟨rfl, rfl, h name hname s.notes w hw referrer⟩
  · rintro w _ _ ⟨rfl, rfl, hread⟩
    refine .bind (passOn_ends (enter_passed hread)) ?_
    rintro ⟨_, _⟩ _ _ ⟨rfl, rfl, rfl, rfl⟩
    exact hnext w

lemma mem_loaded_andThen {k : String → State → Except Failure Unit × State}
    (hk : ∀ source m, m.loaded ⊆ (k source m).2.loaded) :
    name ∈ (andThen (enter scope name referrer s) k).2.loaded := by
  have hfirst : name ∈ (enter scope name referrer s).2.loaded := by
    rw [enter_loaded]
    exact List.mem_cons_self
  revert hfirst
  rcases enter scope name referrer s with ⟨_ | source, m⟩
  · exact id
  · exact fun hfirst => hk source m hfirst

/-- Modules that are loaded by asking, one after another, come to what they come to in a row if each
of them does. -/
lemma askAll_ends {specifiers : List String}
    (hask : ∀ {s : State} {name : String} {referrer : Value},
      Shows S pre scope (loadModule scope nesting name referrer s).2.loaded →
      (askModule scope.base scope.options scope.reporting nesting name referrer s.passed).Ends S
        (ComesTo (Passed pre) (loadModule scope nesting name referrer s)) (pre ++ s.notes)
        s.reports)
    (h : Shows S pre scope (inOrder (fun specifier => loadModule scope nesting specifier referrer)
      specifiers s).2.loaded) :
    (Inquiry.inOrder (fun specifier s => askModule scope.base scope.options scope.reporting nesting
        specifier referrer s) specifiers s.passed).Ends S
      (ComesTo (Passed pre) (inOrder (fun specifier => loadModule scope nesting specifier referrer)
        specifiers s)) (pre ++ s.notes) s.reports := by
  refine .inOrder_comesTo (P := fun t : State => Shows S pre scope t.loaded) ?_ ?_ specifiers
    ⟨rfl, rfl, rfl⟩ h
  · exact fun specifier t ht => ht.mono (loaded_subset_loadModule scope nesting specifier referrer t)
  · rintro specifier t _ _ _ ⟨rfl, rfl, rfl⟩ ht
    exact hask ht

/-- A module that is loaded by asking comes to what it comes to in a row. -/
theorem askModule_ends (h : Shows S pre scope (loadModule scope nesting name referrer s).2.loaded) :
    (askModule scope.base scope.options scope.reporting nesting name referrer s.passed).Ends S
      (ComesTo (Passed pre) (loadModule scope nesting name referrer s)) (pre ++ s.notes) s.reports := by
  induction nesting generalizing name referrer s with
  | zero => exact .pure ⟨rfl, rfl, rfl, rfl⟩
  | succ nesting ih =>
    rw [loadModule_succ] at h ⊢
    unfold askModule
    cases hcanonical : ModuleName.canonical name referrer scope.options with
    | error failure => exact .pure ⟨rfl, rfl, rfl, rfl⟩
    | ok canonical =>
      simp only [hcanonical] at h
      have hsame : s.passed.loaded = s.loaded := rfl
      simp only [hsame]
      split
      · exact .pure ⟨rfl, rfl, rfl, rfl⟩
      next hnew =>
      rw [if_neg hnew] at h
      refine entering_ends h (mem_loaded_andThen
        (loaded_subset_afterEntering scope nesting canonical)) fun w => ?_
      revert h
      rcases enter scope canonical referrer s with ⟨_ | source, m⟩ <;> intro h
      · exact .pure ⟨rfl, rfl, rfl, rfl⟩
      dsimp only [andThen] at h ⊢
      unfold afterEntering at h ⊢
      have hnames : dependencyNames ⟨fun _ => w, scope.base, scope.options, scope.reporting⟩
          canonical (Specifier.ofSource source)
        = dependencyNames scope canonical (Specifier.ofSource source) := rfl
      rw [hnames]
      cases hnames : dependencyNames scope canonical (Specifier.ofSource source) with
      | error failure => exact .pure ⟨rfl, rfl, rfl, rfl⟩
      | ok dependencies =>
        rw [hnames] at h
        dsimp only at h ⊢
        have hnested : Shows S pre scope (inOrder (fun specifier =>
            loadModule scope nesting specifier (.text canonical))
              (Specifier.ofSource source) m).2.loaded := by
          revert h
          rcases inOrder _ (Specifier.ofSource source) m with ⟨_ | _, u⟩ <;> exact id
        refine .bind (askAll_ends (fun h => ih h) hnested) ?_
        rintro ⟨_, _⟩ _ _ ⟨rfl, rfl, rfl, rfl⟩
        rcases inOrder _ (Specifier.ofSource source) m with ⟨_ | _, u⟩
        · exact .pure ⟨rfl, rfl, rfl, rfl⟩
        · exact passOn_ends (congrArg (Prod.mk _) (add_passed _ _ u))

/-- So does a script. -/
lemma askScript_ends (h : Shows S pre scope (loadScript scope name referrer s).2.loaded) :
    (askScript scope.base scope.options scope.reporting name referrer s.passed).Ends S
      (ComesTo (Passed pre) (loadScript scope name referrer s)) (pre ++ s.notes) s.reports := by
  rw [loadScript_eq] at h ⊢
  unfold askScript
  cases hcanonical : ModuleName.canonical name referrer scope.options with
  | error failure => exact .pure ⟨rfl, rfl, rfl, rfl⟩
  | ok canonical =>
    simp only [hcanonical] at h
    have hsame : s.passed.loaded = s.loaded := rfl
    simp only [hsame]
    split
    · exact .pure ⟨rfl, rfl, rfl, rfl⟩
    next hnew =>
    rw [if_neg hnew] at h
    refine entering_ends h (mem_loaded_andThen fun _ _ => List.Subset.refl _) fun w => ?_
    rcases enter scope canonical referrer s with ⟨_ | source, m⟩
    · exact .pure ⟨rfl, rfl, rfl, rfl⟩
    · exact passOn_ends (congrArg (Prod.mk _) (add_passed _ _ m))

/-! ### Failures of loads beside others -/

/-- A load is not called off, and it has nothing to encode. -/
def IsLoadResult (result : Except Failure Unit) : Prop :=
  ∀ failure, result = .error failure → failure ≠ .cancelled ∧ ∀ fault, failure ≠ .unencodable fault

lemma isLoadResult_of_isPlain {failure : Failure} (h : failure.IsPlain) :
    IsLoadResult (.error failure) := by
  rintro _ ⟨⟩
  cases failure with
  | cancelled => exact False.elim h
  | unencodable fault => exact False.elim h
  | _ => exact ⟨nofun, nofun⟩

variable {options : Options} {base : Path} {reporting : Bool} {ns : List Note}
  {reports : List (Value × String)}

/-- Passing on changes no result. -/
lemma passOn_result {α : Type} (y : α × State) :
    (passOn y).Ends (fun _ _ => True) (fun a _ _ => a.1 = y.1) ns reports := by
  refine .bind (.notes (Q := fun _ _ _ => True) trivial) fun _ _ _ _ => ?_
  refine .bind (.remember (Q := fun _ _ _ => True) trivial) fun _ _ _ _ => ?_
  exact .pure rfl

/-- A name that is entered beside other work has a source, or the load fails as loads do. -/
lemma entering_isLoadResult {Q : Except Failure Unit × State → Prop}
    {next : Workspace → Except Failure String × State →
      Inquiry (List (Value × String)) (Except Failure Unit × State)}
    (herror : ∀ w failure s ns reports, IsLoadResult (.error failure) →
      (next w (.error failure, s)).Ends (fun _ _ => True) (fun a _ _ => Q a) ns reports)
    (hok : ∀ w source s ns reports,
      (next w (.ok source, s)).Ends (fun _ _ => True) (fun a _ _ => Q a) ns reports) :
    (Inquiry.see >>= fun w => passOn (enter ⟨fun _ => w, base, options, reporting⟩ name referrer s)
      >>= next w).Ends (fun _ _ => True) (fun a _ _ => Q a) ns reports := by
  refine .bind (.see (Q := fun _ _ _ => True) fun _ _ => trivial) fun w _ _ _ => ?_
  refine .bind (passOn_result _) ?_
  rintro ⟨failure | source, t⟩ ns reports hresult
  · rcases henter : enter ⟨fun _ => w, base, options, reporting⟩ name referrer s with ⟨result, u⟩
    rw [henter] at hresult
    obtain rfl : .error failure = result := hresult
    exact herror w failure t ns reports (isLoadResult_of_isPlain (isPlain_enter henter))
  · exact hok w source t ns reports

/-- Whatever it finds, the load of a module comes to the result of a load. -/
lemma askModule_isLoadResult : (askModule base options reporting nesting name referrer s).Ends
    (fun _ _ => True) (fun a _ _ => IsLoadResult a.1) ns reports := by
  induction nesting generalizing name referrer s ns reports with
  | zero => exact .pure (by rintro _ ⟨⟩; exact ⟨nofun, nofun⟩)
  | succ nesting ih =>
    unfold askModule
    cases hcanonical : ModuleName.canonical name referrer options with
    | error failure => exact .pure (isLoadResult_of_isPlain (isPlain_canonical hcanonical))
    | ok canonical =>
      dsimp only
      split
      · exact .pure nofun
      refine entering_isLoadResult (fun w failure s ns reports h => .pure h) ?_
      intro w source t ns reports
      dsimp only
      split
      · next hnames => exact .pure (isLoadResult_of_isPlain (isPlain_dependencyNames hnames))
      · refine .bind (Inquiry.Ends.inOrder (I := IsLoadResult) nofun ?_ _) ?_
        · exact fun specifier t ns reports => ih
        · rintro ⟨failure | _, t⟩ ns reports hresult
          · exact .pure hresult
          · exact (passOn_result _).mono fun a _ _ hsame => hsame ▸ nofun

/-- So does that of a script. -/
lemma askScript_isLoadResult : (askScript base options reporting name referrer s).Ends
    (fun _ _ => True) (fun a _ _ => IsLoadResult a.1) ns reports := by
  unfold askScript
  cases hcanonical : ModuleName.canonical name referrer options with
  | error failure => exact .pure (isLoadResult_of_isPlain (isPlain_canonical hcanonical))
  | ok canonical =>
    dsimp only
    split
    · exact .pure nofun
    · exact entering_isLoadResult (fun w failure s ns reports h => .pure h)
        fun w source t ns reports => (passOn_result _).mono fun a _ _ hsame => hsame ▸ nofun

end Load.Source

/-! ### Entries -/

namespace Compile

open Load Load.Source
open Inquiry (ComesTo)

variable {S : List Note → Workspace → Prop} {view : View} {options : Options} {base : Path}
  {reporting : Bool} {nesting : Nat} {entry : Entry} {run : Run (List (Value × String))}
  {session : Session} {ns : List Note} {reports : List (Value × String)}

/-- An inquiry has come to the session of a run, with its notes and its memory passed on. -/
def Run.Passed (run : Run (List (Value × String))) (session : Session) (ns : List Note)
    (reports : List (Value × String)) : Prop :=
  session = run.session ∧ ns = run.notes ∧ reports = run.memory

/-- Evaluations are made without a look at notes and memory. -/
lemma addEvaluation_eq {σ : Type} (loader : Loader σ) (options : Options) (entry : Entry)
    (run : Run σ) :
    let x := addEvaluation loader options entry { session := run.session, memory := () }
    addEvaluation loader options entry run = (x.1, { run with session := x.2.session }) := by
  unfold addEvaluation
  split
  · cases loader.nameOf entry.name options.referrerName options with
    | error failure => rfl
    | ok name =>
      dsimp only
      cases run.session.append (.evaluation name) <;> rfl
  · rfl

/-- A load by asking has come to the answer of the load in a row. -/
lemma ask_ends
    (h : Shows S [] ⟨view, run.session.base, options, reporting⟩
      (loadEntry (Source.loader reporting nesting) view options entry run).2.session.loaded) :
    ((Source.sharedLoader reporting nesting).ask run.session (callOf options entry)).Ends S
      (fun answer ns reports =>
        let x := load (scopeOf reporting view options entry run) nesting (callOf options entry)
          (stateOf run)
        answer = { result := x.1, added := x.2.added, loaded := x.2.loaded,
                   extras := options.extras } ∧
          ns = run.notes ++ [entryNote entry] ++ x.2.notes ∧ reports = x.2.reports)
      (run.notes ++ [entryNote entry]) run.memory := by
  have hshows : Shows S (run.notes ++ [entryNote entry]) (scopeOf reporting view options entry run)
      (load (scopeOf reporting view options entry run) nesting (callOf options entry)
        (stateOf run)).2.loaded := by
    rw [loaded_loadEntry] at h
    exact fun name hname ns w hw referrer => h name hname _ w hw referrer
  have hnotes : run.notes ++ [entryNote entry]
      = run.notes ++ [entryNote entry] ++ (stateOf run).notes := (List.append_nil _).symm
  rw [hnotes]
  unfold load callOf at hshows ⊢
  unfold Source.sharedLoader
  dsimp only at hshows ⊢
  cases hkind : entry.kind with
  | module =>
    rw [hkind] at hshows
    refine .bind (askModule_ends hshows) ?_
    rintro ⟨_, _⟩ _ _ ⟨rfl, rfl, rfl, rfl⟩
    exact .pure ⟨rfl, by rw [← hnotes], rfl⟩
  | script =>
    rw [hkind] at hshows
    refine .bind (askScript_ends hshows) ?_
    rintro ⟨_, _⟩ _ _ ⟨rfl, rfl, rfl, rfl⟩
    exact .pure ⟨rfl, by rw [← hnotes], rfl⟩

/-- An entry that is loaded by asking comes to what it comes to in a row. -/
lemma askEntry_ends
    (h : Shows S [] ⟨view, run.session.base, options, reporting⟩
      (loadEntry (Source.loader reporting nesting) view options entry run).2.session.loaded) :
    (askEntry (Source.sharedLoader reporting nesting) options entry run.session).Ends S
      (ComesTo Run.Passed (loadEntry (Source.loader reporting nesting) view options entry run))
      run.notes run.memory := by
  refine .bind (.notes (Q := fun _ ns reports =>
    ns = run.notes ++ [entryNote entry] ∧ reports = run.memory) ⟨rfl, rfl⟩) ?_
  rintro _ _ _ ⟨rfl, rfl⟩
  refine .bind (ask_ends h) ?_
  rintro _ _ _ ⟨rfl, rfl, rfl⟩
  rw [loadEntry_eq]
  rcases load (scopeOf reporting view options entry run) nesting (callOf options entry)
    (stateOf run) with ⟨failure | _, t⟩
  · exact .pure ⟨rfl, rfl, rfl, rfl⟩
  · dsimp only
    rw [addEvaluation_eq]
    exact .pure ⟨rfl, rfl, rfl, rfl⟩

/-- Entries that are compiled by asking come to what they come to in a row, if every look shows the
sources of the names that are marked then. -/
theorem askEntries_ends {entries : List Entry} {memory : List (Value × String)}
    (h : Shows S [] ⟨view, base, options, reporting⟩
      (compileEntries (Source.loader reporting nesting) view entries options base
        memory).2.session.loaded) :
    (askEntries (Source.sharedLoader reporting nesting) entries options base).Ends S
      (ComesTo Run.Passed (compileEntries (Source.loader reporting nesting) view entries options
        base memory)) [] memory := by
  have hloads : (Inquiry.inOrder (askEntry (Source.sharedLoader reporting nesting) options) entries
      ⟨base, [], [], false⟩).Ends S
      (ComesTo Run.Passed (inOrder (loadEntry (Source.loader reporting nesting) view options)
        entries (newRun base memory))) [] memory := by
    have hall : Shows S [] ⟨view, base, options, reporting⟩
        (inOrder (loadEntry (Source.loader reporting nesting) view options) entries
          (newRun base memory)).2.session.loaded := by
      unfold compileEntries at h
      rw [← newRun] at h
      revert h
      rcases inOrder _ entries (newRun base memory) with ⟨failure | _, run⟩
      · exact id
      · dsimp only
        unfold Session.finish
        cases run.session.closed <;> exact id
    refine (Inquiry.Ends.inOrder_comesTo
      (T := fun run session ns reports => run.Passed session ns reports ∧ IsOpen base run.session)
      (P := fun run : Run _ => Shows S [] ⟨view, base, options, reporting⟩ run.session.loaded)
      ?_ ?_ entries ⟨⟨rfl, rfl, rfl⟩, rfl, rfl⟩ hall).mono
      fun _ _ _ hends => ⟨hends.1, hends.2.1⟩
    · exact fun entry run hrun => hrun.mono (loaded_subset_loadEntry view options entry run)
    · rintro entry run _ _ _ ⟨⟨rfl, rfl, rfl⟩, hopen⟩ hrun
      obtain rfl : run.session.base = base := hopen.1
      exact (askEntry_ends hrun).mono fun _ _ _ hends =>
        ⟨hends.1, hends.2, loadEntry_isOpen _ view options entry hopen⟩
  unfold askEntries compileEntries
  rw [← newRun]
  refine .bind hloads ?_
  rintro ⟨_, _⟩ _ _ ⟨rfl, rfl, rfl, rfl⟩
  rcases inOrder _ entries (newRun base memory) with ⟨failure | _, run⟩
  · exact .pure ⟨rfl, rfl, rfl, rfl⟩
  · dsimp only
    cases run.session.finish options.dependencyTarget with
    | error failure => exact .pure ⟨rfl, rfl, rfl, rfl⟩
    | ok finished => exact .pure ⟨rfl, rfl, rfl, rfl⟩

/-! ### Results beside other work -/

/-- What may come of entries that are loaded into a session: a failure of a load, or a tree unless
only dependencies are asked for. -/
def IsSessionResult (options : Options) : Except Failure (Option Tree) → Prop
  | .error failure => IsLoadResult (.error failure)
  | .ok tree => tree = none ↔ options.dependencyTarget.truthy = true

lemma isLoadResult_closed (use : ClosedUse) : IsLoadResult (.error (.closed use)) := by
  rintro _ ⟨⟩
  exact ⟨nofun, nofun⟩

lemma addEvaluation_isLoadResult {σ : Type} (options : Options) (entry : Entry) (run : Run σ) :
    IsLoadResult
      (addEvaluation (Source.loader reporting nesting) options entry run).1 := by
  unfold addEvaluation
  split
  · cases hname : (Source.loader reporting nesting).nameOf entry.name options.referrerName
        options with
    | error failure => exact isLoadResult_of_isPlain (isPlain_canonical hname)
    | ok name =>
      dsimp only [Session.append]
      cases run.session.closed
      · exact nofun
      · exact isLoadResult_closed _
  · exact nofun

lemma askEntry_isLoadResult : (askEntry (Source.sharedLoader reporting nesting) options entry
      session).Ends (fun _ _ => True) (fun a _ _ => IsLoadResult a.1) ns reports := by
  refine .bind (.notes (Q := fun _ _ _ => True) trivial) fun _ _ _ _ => ?_
  have hask : ∀ {ns reports}, ((Source.sharedLoader reporting nesting).ask session
      (callOf options entry)).Ends (fun _ _ => True)
        (fun answer _ _ => IsLoadResult answer.result) ns reports := by
    intro ns reports
    unfold Source.sharedLoader callOf
    dsimp only
    cases entry.kind
    · exact .bind askModule_isLoadResult fun _ _ _ h => .pure h
    · exact .bind askScript_isLoadResult fun _ _ _ h => .pure h
  refine .bind hask fun answer _ _ hanswer => ?_
  dsimp only
  cases hresult : answer.result with
  | error failure => exact .pure (hresult ▸ hanswer)
  | ok _ => exact .pure (addEvaluation_isLoadResult _ _ _)

/-- Whatever they find, entries come to the result of a session. -/
theorem askEntries_isSessionResult (entries : List Entry) (ns : List Note)
    (reports : List (Value × String)) :
    (askEntries (Source.sharedLoader reporting nesting) entries options base).Ends
      (fun _ _ => True) (fun a _ _ => IsSessionResult options a.1) ns reports := by
  refine .bind (.inOrder nofun (fun _ _ _ _ => askEntry_isLoadResult) entries) ?_
  rintro ⟨failure | _, session⟩ _ _ hresult
  · exact .pure hresult
  · dsimp only [Session.finish]
    cases session.closed
    · refine .pure ?_
      cases htarget : options.dependencyTarget.truthy <;> simp [IsSessionResult, htarget]
    · exact .pure (isLoadResult_closed _)

end Compile

end Bundler
