import Bundler.Proofs.OwnFiles
import Bundler.Proofs.SideBySide

/-!
# Loads side by side

Inquiries are compared question by question, as tasks are step by step: they go alike if they take
the same notes and look at the workspace at the same time, and their results are related. The first
one may go its own way as soon as it is sure to have a result of a certain kind.

Loads of sources below two base directories go alike as long as the names that they mark lead to the
same sources. A name for which this is not so stays marked until the end of the session, so that the
session tells of it.
-/

namespace Bundler

/-! ### Inquiries -/

namespace Load.Inquiry

variable {σ α β ε : Type} {S : Workspace → Prop} {L : α → Prop} {R : α → α → Prop}

/-- Whatever the inquiry finds at its looks, its result is as `L` says. -/
def Gives (L : α → Prop) (q : Inquiry σ α) : Prop :=
  ∀ ns memory, q.Ends (fun _ _ => True) (fun a _ _ => L a) ns memory

namespace Gives

variable {q : Inquiry σ α}

lemma pure {a : α} (h : L a) : Gives L (Pure.pure a : Inquiry σ α) := fun _ _ => .pure h

lemma mono {L' : α → Prop} (h : q.Gives L) (hL : ∀ a, L a → L' a) : q.Gives L' :=
  fun ns memory => (h ns memory).mono fun a _ _ => hL a

lemma bind {L' : β → Prop} {next : α → Inquiry σ β} (h : q.Gives L)
    (hnext : ∀ a, L a → (next a).Gives L') : (q >>= next).Gives L' :=
  fun ns memory => (h ns memory).bind fun a ns memory ha => hnext a ha ns memory

lemma see : (Inquiry.see : Inquiry σ Workspace).Gives fun _ => True :=
  fun _ _ => .see fun _ _ => trivial

lemma notes (more : List Note) : (Inquiry.notes more : Inquiry σ Unit).Gives fun _ => True :=
  fun _ _ => .notes trivial

lemma remember (change : σ → σ) : (Inquiry.remember change : Inquiry σ Unit).Gives fun _ => True :=
  fun _ _ => .remember trivial

/-- What each of some steps keeps, all of them keep. -/
lemma inOrder {I : β → Prop} {step : α → β → Inquiry σ (Except ε Unit × β)}
    (hstep : ∀ a b, I b → (step a b).Gives fun x => I x.2) (as : List α) {b : β} (hb : I b) :
    (Inquiry.inOrder step as b).Gives fun x => I x.2 := by
  induction as generalizing b with
  | nil => exact .pure hb
  | cons a as ih =>
    refine .bind (hstep a b hb) ?_
    rintro ⟨_ | _, b⟩ hb
    · exact .pure hb
    · exact ih hb

end Gives

/-- The inquiries ask alike and have related results, as long as all looks show workspaces with `S`,
unless the first one is sure to have a result with `L`. -/
inductive GoAlike (S : Workspace → Prop) (L : α → Prop) (R : α → α → Prop) :
    Inquiry σ α → Inquiry σ α → Prop where
  | apart {q q' : Inquiry σ α} (h : q.Gives L) : GoAlike S L R q q'
  | answer {a a' : α} (h : R a a') : GoAlike S L R (.answer a) (.answer a')
  | note (n : Note) {rest rest' : Inquiry σ α} (h : GoAlike S L R rest rest') :
      GoAlike S L R (.note n rest) (.note n rest')
  | keep (change change' : σ → σ) {rest rest' : Inquiry σ α} (h : GoAlike S L R rest rest') :
      GoAlike S L R (.keep change rest) (.keep change' rest')
  | look {rest rest' : Workspace → Inquiry σ α}
      (h : ∀ w, S w → GoAlike S L R (rest w) (rest' w)) : GoAlike S L R (.look rest) (.look rest')

namespace GoAlike

variable {q q' : Inquiry σ α}

lemma pure {a a' : α} (h : R a a') :
    GoAlike S L R (Pure.pure a : Inquiry σ α) (Pure.pure a') := .answer h

lemma bind {L' : β → Prop} {R' : β → β → Prop} {next next' : α → Inquiry σ β}
    (h : GoAlike S L R q q') (hL : ∀ a, L a → (next a).Gives L')
    (hnext : ∀ a a', R a a' → GoAlike S L' R' (next a) (next' a')) :
    GoAlike S L' R' (q >>= next) (q' >>= next') := by
  induction h with
  | apart hgives => exact .apart (hgives.bind hL)
  | answer ha => exact hnext _ _ ha
  | note n _ ih => exact .note n ih
  | keep change change' _ ih => exact .keep change change' ih
  | look _ ih => exact .look ih

/-- The same notes are taken before inquiries that go alike. -/
lemma notes (more : List Note) {next next' : Unit → Inquiry σ α}
    (h : GoAlike S L R (next ()) (next' ())) :
    GoAlike S L R (Inquiry.notes more >>= next) (Inquiry.notes more >>= next') := by
  induction more with
  | nil => exact h
  | cons n more ih => exact .note n ih

lemma remember (change change' : σ → σ) {next next' : Unit → Inquiry σ α}
    (h : GoAlike S L R (next ()) (next' ())) :
    GoAlike S L R (Inquiry.remember change >>= next) (Inquiry.remember change' >>= next') :=
  .keep change change' h

lemma see {next next' : Workspace → Inquiry σ α}
    (h : ∀ w, S w → GoAlike S L R (next w) (next' w)) :
    GoAlike S L R (Inquiry.see >>= next) (Inquiry.see >>= next') := .look h

end GoAlike

/-- The results are the same but for what a failure tells, and what else there is is related. -/
def SameEnd {γ : Type} (T : β → β → Prop) (x x' : Except ε γ × β) : Prop :=
  SameBy (fun _ => ()) x.1 x'.1 ∧ T x.2 x'.2

/-- Steps in order go alike if each of them does. -/
lemma GoAlike.inOrder {I : β → Prop} {T : β → β → Prop}
    {step step' : α → β → Inquiry σ (Except ε Unit × β)}
    (hI : ∀ a b, I b → (step a b).Gives fun x => I x.2)
    (hstep : ∀ a b b', T b b' → GoAlike S (fun x => I x.2) (SameEnd T) (step a b) (step' a b'))
    (as : List α) {b b' : β} (hb : T b b') :
    GoAlike S (fun x => I x.2) (SameEnd T) (Inquiry.inOrder step as b)
      (Inquiry.inOrder step' as b') := by
  induction as generalizing b b' with
  | nil => exact .pure ⟨.refl _ _, hb⟩
  | cons a as ih =>
    refine .bind (hstep a b b' hb) ?_ ?_
    · rintro ⟨_ | _, b⟩ hb
      · exact .pure hb
      · exact .inOrder hI as hb
    · rintro ⟨failure | _, b⟩ ⟨failure' | _, b'⟩ ⟨hresult, hb⟩
      · exact .pure ⟨rfl, hb⟩
      · exact absurd hresult SameBy.not_error_ok
      · cases SameBy.ok_iff.mp hresult
      · exact ih hb

end Load.Inquiry

/-! ### Loads of sources -/

namespace Load.Source

open Inquiry

variable {options : Options} {reporting : Bool} {nesting : Nat} {base base' : Path}
  {S : Workspace → Prop} {Long : String → Prop} {name : String} {referrer : Value} {s : State}

/-! #### Names that are marked -/

lemma passOn_gives {α : Type} (y : α × State) :
    (passOn y).Gives fun a => a = (y.1, y.2.passed) :=
  .bind (.notes _) fun _ _ => .bind (.remember _) fun _ _ => .pure rfl

/-- What follows the entering of a name finds it marked. -/
lemma entering_gives {β : Type} {L : β → Prop}
    {next : Workspace → Except Failure String × State → Inquiry (List (Value × String)) β}
    (h : ∀ w x, x.2.loaded = name :: s.loaded → (next w x).Gives L) :
    (Inquiry.see >>= fun w => passOn (enter ⟨fun _ => w, base, options, reporting⟩ name referrer s)
      >>= next w).Gives L := by
  refine .bind .see fun w _ => .bind (passOn_gives _) ?_
  rintro _ rfl
  exact h w _ (enter_loaded _ _ _ _)

/-- The load of a name has taken no mark back and has marked the name. -/
def Marks (name : String) (referrer : Value) (options : Options) (s : State)
    (a : Except Failure Unit × State) : Prop :=
  s.loaded ⊆ a.2.loaded ∧ ∀ canonical,
    ModuleName.canonical name referrer options = .ok canonical → canonical ∈ a.2.loaded

lemma marks_of_canonical {canonical : String} {a : Except Failure Unit × State}
    (hcanonical : ModuleName.canonical name referrer options = .ok canonical)
    (h : s.loaded ⊆ a.2.loaded) (hmarked : canonical ∈ a.2.loaded) :
    Marks name referrer options s a := by
  refine ⟨h, fun other hother => ?_⟩
  obtain rfl : canonical = other := Except.ok.inj (hcanonical.symm.trans hother)
  exact hmarked

lemma marks_of_error {failure : Failure}
    (h : ModuleName.canonical name referrer options = .error failure)
    (result : Except Failure Unit) : Marks name referrer options s (result, s) := by
  refine ⟨List.Subset.refl _, fun canonical hcanonical => ?_⟩
  rw [h] at hcanonical
  cases hcanonical

/-- What follows the entering of a module by asking. -/
def afterAsking (base : Path) (options : Options) (reporting : Bool) (nesting : Nat)
    (canonical : String) (w : Workspace) (x : Except Failure String × State) :
    Inquiry (List (Value × String)) (Except Failure Unit × State) :=
  match x with
  | (.error failure, s) => pure (.error failure, s)
  | (.ok source, s) =>
    match dependencyNames ⟨fun _ => w, base, options, reporting⟩ canonical
        (Specifier.ofSource source) with
    | .error failure => pure (.error failure, s)
    | .ok dependencies =>
      Inquiry.inOrder (fun specifier => askModule base options reporting nesting specifier
        (.text canonical)) (Specifier.ofSource source) s >>= fun
      | (.error failure, s) => pure (.error failure, s)
      | (.ok (), s) => passOn (.ok (), addModule options canonical dependencies source s)

lemma askModule_succ (base : Path) (options : Options) (reporting : Bool) (nesting : Nat)
    (name : String) (referrer : Value) (s : State) :
    askModule base options reporting (nesting + 1) name referrer s =
      match ModuleName.canonical name referrer options with
      | .error failure => pure (.error failure, s)
      | .ok canonical =>
        if s.loaded.contains canonical then pure (.ok (), s)
        else Inquiry.see >>= fun w =>
          passOn (enter ⟨fun _ => w, base, options, reporting⟩ canonical referrer s) >>=
            afterAsking base options reporting nesting canonical w := by
  rfl

lemma afterAsking_keeps {canonical : String} {w : Workspace}
    (hnested : ∀ (name : String) (referrer : Value) (s : State),
      (askModule base options reporting nesting name referrer s).Gives fun a =>
        s.loaded ⊆ a.2.loaded) (x : Except Failure String × State) :
    (afterAsking base options reporting nesting canonical w x).Gives fun a =>
      x.2.loaded ⊆ a.2.loaded := by
  rcases x with ⟨failure | source, s⟩
  · exact .pure (List.Subset.refl _)
  unfold afterAsking
  dsimp only
  split
  · exact .pure (List.Subset.refl _)
  · refine .bind (.inOrder (I := fun t : State => s.loaded ⊆ t.loaded) ?_ _
      (List.Subset.refl _)) ?_
    · exact fun specifier t ht => (hnested specifier _ t).mono fun a ha => List.Subset.trans ht ha
    · rintro ⟨_ | _, t⟩ ht
      · exact .pure ht
      · refine (passOn_gives _).mono ?_
        rintro _ rfl
        exact ht

/-- A module is marked before those that are nested in it, and they take no mark back. -/
lemma askModule_marks_of_nested
    (hnested : ∀ (name : String) (referrer : Value) (s : State),
      (askModule base options reporting nesting name referrer s).Gives fun a =>
        s.loaded ⊆ a.2.loaded) :
    (askModule base options reporting (nesting + 1) name referrer s).Gives
      (Marks name referrer options s) := by
  rw [askModule_succ]
  cases hcanonical : ModuleName.canonical name referrer options with
  | error failure => exact .pure (marks_of_error hcanonical _)
  | ok canonical =>
    dsimp only
    split
    · next hmarked =>
      exact .pure (marks_of_canonical hcanonical (List.Subset.refl _) (by simpa using hmarked))
    · refine entering_gives fun w x hentered => (afterAsking_keeps hnested x).mono fun a ha => ?_
      rw [hentered] at ha
      exact marks_of_canonical hcanonical (fun c hc => ha (List.mem_cons_of_mem _ hc))
        (ha List.mem_cons_self)

lemma askModule_keeps (nesting : Nat) (name : String) (referrer : Value) (s : State) :
    (askModule base options reporting nesting name referrer s).Gives fun a =>
      s.loaded ⊆ a.2.loaded := by
  induction nesting generalizing name referrer s with
  | zero => exact .pure (List.Subset.refl _)
  | succ nesting ih => exact (askModule_marks_of_nested ih).mono fun a ha => ha.1

lemma askModule_marks :
    (askModule base options reporting (nesting + 1) name referrer s).Gives
      (Marks name referrer options s) :=
  askModule_marks_of_nested (askModule_keeps nesting)

lemma askScript_marks :
    (askScript base options reporting name referrer s).Gives (Marks name referrer options s) := by
  unfold askScript
  cases hcanonical : ModuleName.canonical name referrer options with
  | error failure => exact .pure (marks_of_error hcanonical _)
  | ok canonical =>
    dsimp only
    split
    · next hmarked =>
      exact .pure (marks_of_canonical hcanonical (List.Subset.refl _) (by simpa using hmarked))
    refine entering_gives fun w x hentered => ?_
    have hmarks : ∀ result, Marks name referrer options s (result, x.2) := fun result =>
      marks_of_canonical hcanonical (hentered ▸ List.subset_cons_self _ _)
        (hentered ▸ List.mem_cons_self)
    rcases x with ⟨failure | source, t⟩
    · exact .pure (hmarks (.error failure))
    · refine (passOn_gives _).mono ?_
      rintro _ rfl
      exact hmarks (.ok ())

/-! #### Loads that go alike -/

/-- Below both base directories names and units are made alike, reports of files take the same notes,
and the same comes of reading a file in a workspace with `S`, but for what failures tell and for the
names in `Long`. -/
structure LoadsAlike (S : Workspace → Prop) (Long : String → Prop) (options : Options)
    (reporting : Bool) (base base' : Path) : Prop where
  scope : ∀ w, Scope.Agrees ⟨fun _ => w, base, options, reporting⟩
    ⟨fun _ => w, base', options, reporting⟩
  read : ∀ w, S w → ∀ name, ¬ Long name → ∀ referrer, SameBy (fun _ => ())
    (Source.read w (locate base name) name referrer) (Source.read w (locate base' name) name referrer)

lemma passOn_goAlike {α : Type} {L : Except Failure α × State → Prop}
    {x x' : Except Failure α × State} (h : EndAlike (fun _ => ()) x x') :
    GoAlike S L (SameEnd Eq) (passOn x) (passOn x') := by
  obtain ⟨result, s⟩ := x
  obtain ⟨result', _⟩ := x'
  obtain ⟨hresult, reports, rfl⟩ := h
  exact .notes _ (.remember _ _ (.pure ⟨hresult, rfl⟩))

/-- One of the names is in `Long`. -/
def MarksLong (Long : String → Prop) (names : List String) : Prop := ∃ name ∈ names, Long name

lemma MarksLong.mono {names names' : List String} (h : MarksLong Long names)
    (hsub : names ⊆ names') : MarksLong Long names' := by
  obtain ⟨long, hmem, hlong⟩ := h
  exact ⟨long, hsub hmem, hlong⟩

/-- What follows the entering of a name goes on alike. -/
lemma entering_goAlike {β : Type} {L : β → Prop} {R : β → β → Prop}
    (h : LoadsAlike S Long options reporting base base') (hname : ¬ Long name)
    {next next' : Workspace → Except Failure String × State → Inquiry (List (Value × String)) β}
    (hgives : ∀ w x, MarksLong Long x.2.loaded → (next w x).Gives L)
    (hnext : ∀ w x x', SameEnd Eq x x' → GoAlike S L R (next w x) (next' w x')) :
    GoAlike S L R
      (Inquiry.see >>= fun w => passOn (enter ⟨fun _ => w, base, options, reporting⟩ name referrer s)
        >>= next w)
      (Inquiry.see >>= fun w => passOn (enter ⟨fun _ => w, base', options, reporting⟩ name referrer s)
        >>= next' w) := by
  refine .see fun w hw => ?_
  have hentered : EndAlike (fun _ => ())
      (enter ⟨fun _ => w, base, options, reporting⟩ name referrer s)
      (enter ⟨fun _ => w, base', options, reporting⟩ name referrer s) := by
    refine enter_alike (h.scope w) ⟨s.reports, rfl⟩ fun other hother notes => ?_
    obtain rfl := List.mem_singleton.mp hother
    exact h.read w hw other hname
  exact .bind (passOn_goAlike hentered) (hgives w) (hnext w)

/-- A module is loaded alike below both base directories until a name in `Long` is marked. -/
theorem askModule_goAlike (h : LoadsAlike S Long options reporting base base') :
    GoAlike S (fun a => MarksLong Long a.2.loaded) (SameEnd Eq)
      (askModule base options reporting nesting name referrer s)
      (askModule base' options reporting nesting name referrer s) := by
  induction nesting generalizing name referrer s with
  | zero => exact .pure ⟨.refl _ _, rfl⟩
  | succ nesting ih =>
    by_cases hlong : ∃ canonical, ModuleName.canonical name referrer options = .ok canonical ∧
        Long canonical
    · obtain ⟨canonical, hcanonical, hlong⟩ := hlong
      exact .apart (askModule_marks.mono fun a ha => ⟨canonical, ha.2 canonical hcanonical, hlong⟩)
    rw [askModule_succ, askModule_succ]
    cases hcanonical : ModuleName.canonical name referrer options with
    | error failure => exact .pure ⟨.refl _ _, rfl⟩
    | ok canonical =>
      have hname : ¬ Long canonical := fun hname => hlong ⟨canonical, hcanonical, hname⟩
      dsimp only
      split
      · exact .pure ⟨.refl _ _, rfl⟩
      refine entering_goAlike h hname (fun w x hx => ?_) ?_
      · exact (afterAsking_keeps (askModule_keeps nesting) x).mono fun a ha => hx.mono ha
      rintro w ⟨failure | source, t⟩ ⟨failure' | source', _⟩ ⟨hresult, rfl⟩
      · exact .pure ⟨rfl, rfl⟩
      · exact absurd hresult SameBy.not_error_ok
      · cases SameBy.ok_iff.mp hresult
      cases SameBy.ok_iff.mp hresult
      have hnames : dependencyNames ⟨fun _ => w, base', options, reporting⟩ canonical
            (Specifier.ofSource source)
          = dependencyNames ⟨fun _ => w, base, options, reporting⟩ canonical
            (Specifier.ofSource source) := rfl
      unfold afterAsking
      dsimp only
      rw [hnames]
      split
      · exact .pure ⟨.refl _ _, rfl⟩
      next dependencies _ =>
      refine .bind (.inOrder (I := fun u : State => MarksLong Long u.loaded) (T := Eq) ?_ ?_ _ rfl) ?_ ?_
      · exact fun specifier u hu => (askModule_keeps nesting _ _ u).mono fun a ha => hu.mono ha
      · rintro specifier u _ rfl
        exact ih
      · rintro ⟨failure | _, u⟩ hu
        · exact .pure hu
        · refine (passOn_gives _).mono ?_
          rintro _ rfl
          exact hu
      · rintro ⟨failure | _, u⟩ ⟨failure' | _, _⟩ ⟨hresult, rfl⟩
        · exact .pure ⟨rfl, rfl⟩
        · exact absurd hresult SameBy.not_error_ok
        · cases SameBy.ok_iff.mp hresult
        · exact passOn_goAlike ⟨rfl, u.reports, rfl⟩

/-- So is a script. -/
lemma askScript_goAlike (h : LoadsAlike S Long options reporting base base') :
    GoAlike S (fun a => MarksLong Long a.2.loaded) (SameEnd Eq)
      (askScript base options reporting name referrer s)
      (askScript base' options reporting name referrer s) := by
  by_cases hlong : ∃ canonical, ModuleName.canonical name referrer options = .ok canonical ∧
      Long canonical
  · obtain ⟨canonical, hcanonical, hlong⟩ := hlong
    exact .apart (askScript_marks.mono fun a ha => ⟨canonical, ha.2 canonical hcanonical, hlong⟩)
  unfold askScript
  cases hcanonical : ModuleName.canonical name referrer options with
  | error failure => exact .pure ⟨.refl _ _, rfl⟩
  | ok canonical =>
    dsimp only
    split
    · exact .pure ⟨.refl _ _, rfl⟩
    refine entering_goAlike h (fun hname => hlong ⟨canonical, hcanonical, hname⟩) ?_ ?_
    · rintro w ⟨failure | source, t⟩ ht
      · exact .pure ht
      · refine (passOn_gives _).mono ?_
        rintro _ rfl
        exact ht
    · rintro w ⟨failure | source, t⟩ ⟨failure' | source', _⟩ ⟨hresult, rfl⟩
      · exact .pure ⟨rfl, rfl⟩
      · exact absurd hresult SameBy.not_error_ok
      · cases SameBy.ok_iff.mp hresult
      · cases SameBy.ok_iff.mp hresult
        exact passOn_goAlike ⟨rfl, t.reports, rfl⟩

end Load.Source

/-! ### Sessions -/

namespace Compile

open Load Load.Inquiry Load.Source

variable {options : Options} {reporting : Bool} {nesting : Nat} {base base' : Path}
  {S : Workspace → Prop} {Long : String → Prop} {entry : Entry} {session : Session}

/-- The session is the same below another base directory. -/
def MovedTo (base base' : Path) (session session' : Session) : Prop :=
  session.base = base ∧ session' = { session with base := base' }

/-- A load by asking takes no mark back. -/
lemma ask_keeps (call : Call) (session : Session) :
    ((Source.sharedLoader reporting nesting).ask session call).Gives fun answer =>
      session.loaded ⊆ answer.loaded := by
  unfold Source.sharedLoader
  dsimp only
  cases call.kind with
  | module => exact .bind (askModule_keeps nesting _ _ _) fun a ha => .pure ha
  | script => exact .bind (askScript_marks.mono fun a ha => ha.1) fun a ha => .pure ha

lemma ask_goAlike (h : LoadsAlike S Long options reporting base base') (name : String)
    (kind : EntryKind) (referrer : Value) (hsession : session.base = base) :
    GoAlike S (fun answer => MarksLong Long answer.loaded)
      (fun answer answer' => ∃ result, SameBy (fun _ => ()) answer.result result ∧
        answer' = { answer with result })
      ((Source.sharedLoader reporting nesting).ask session ⟨kind, name, referrer, options⟩)
      ((Source.sharedLoader reporting nesting).ask { session with base := base' }
        ⟨kind, name, referrer, options⟩) := by
  subst hsession
  unfold Source.sharedLoader
  dsimp only
  cases kind with
  | module =>
    refine .bind (askModule_goAlike h) (fun a ha => .pure ha) ?_
    rintro ⟨result, s⟩ ⟨result', _⟩ ⟨hresult, rfl⟩
    exact .pure ⟨result', hresult, rfl⟩
  | script =>
    refine .bind (askScript_goAlike h) (fun a ha => .pure ha) ?_
    rintro ⟨result, s⟩ ⟨result', _⟩ ⟨hresult, rfl⟩
    exact .pure ⟨result', hresult, rfl⟩

/-- An evaluation is added alike below another base directory. -/
lemma addEvaluation_moved {σ : Type} (loader : Loader σ) (options : Options) (entry : Entry)
    (session : Session) (base' : Path) :
    let x := addEvaluation loader options entry { session, memory := () }
    addEvaluation loader options entry { session := { session with base := base' }, memory := () }
      = (x.1, { x.2 with session := { x.2.session with base := base' } }) := by
  unfold addEvaluation
  split
  · cases loader.nameOf entry.name options.referrerName options with
    | error failure => rfl
    | ok name => rcases session with ⟨_, _, _, _ | _⟩ <;> rfl
  · rfl

lemma base_addEvaluation {σ : Type} (loader : Loader σ) (options : Options) (entry : Entry)
    (session : Session) :
    (addEvaluation loader options entry { session, memory := () }).2.session.base
      = session.base := by
  unfold addEvaluation
  split
  · cases loader.nameOf entry.name options.referrerName options with
    | error failure => rfl
    | ok name => rcases session with ⟨_, _, _, _ | _⟩ <;> rfl
  · rfl

/-- So does the load of an entry. -/
lemma askEntry_keeps (options : Options) (entry : Entry) (session : Session) :
    (askEntry (Source.sharedLoader reporting nesting) options entry session).Gives fun a =>
      session.loaded ⊆ a.2.loaded := by
  refine .bind (.notes _) fun _ _ => .bind (ask_keeps _ _) fun answer hanswer => ?_
  dsimp only
  split
  · exact .pure hanswer
  · refine .pure ?_
    dsimp only
    rw [loaded_addEvaluation]
    exact hanswer

lemma askEntry_goAlike (h : LoadsAlike S Long options reporting base base') (entry : Entry)
    {session session' : Session} (hmoved : MovedTo base base' session session') :
    GoAlike S (fun a => MarksLong Long a.2.loaded) (SameEnd (MovedTo base base'))
      (askEntry (Source.sharedLoader reporting nesting) options entry session)
      (askEntry (Source.sharedLoader reporting nesting) options entry session') := by
  obtain ⟨hbase, rfl⟩ := hmoved
  refine .notes _ (.bind (ask_goAlike h _ _ _ hbase) (fun answer hlong => ?_) ?_)
  · dsimp only
    split
    · exact .pure hlong
    · refine .pure ?_
      dsimp only
      rw [loaded_addEvaluation]
      exact hlong
  · rintro ⟨failure | _, added, loaded, extras⟩ _ ⟨failure' | _, hresult, rfl⟩
    · exact .pure ⟨rfl, hbase, rfl⟩
    · exact absurd hresult SameBy.not_error_ok
    · cases SameBy.ok_iff.mp hresult
    · have hmoved := addEvaluation_moved (Source.sharedLoader reporting nesting).toLoader
        { options with extras } entry
        { session with elements := session.elements ++ added, loaded } base'
      dsimp only at hmoved ⊢
      rw [hmoved]
      refine .pure ⟨.refl _ _, ?_, rfl⟩
      rw [base_addEvaluation]
      exact hbase

/-- Entries are loaded alike below both base directories until a name in `Long` is marked. -/
theorem askEntries_goAlike (h : LoadsAlike S Long options reporting base base')
    (entries : List Entry) :
    GoAlike S (fun a => MarksLong Long a.2.loaded) (SameEnd fun _ _ => True)
      (askEntries (Source.sharedLoader reporting nesting) entries options base)
      (askEntries (Source.sharedLoader reporting nesting) entries options base') := by
  refine .bind (.inOrder (I := fun s : Session => MarksLong Long s.loaded)
    (T := MovedTo base base') ?_ ?_ entries ⟨rfl, rfl⟩) ?_ ?_
  · exact fun entry s hs => (askEntry_keeps options entry s).mono fun a ha => hs.mono ha
  · exact fun entry s s' hs => askEntry_goAlike h entry hs
  · rintro ⟨failure | _, s⟩ hs
    · exact .pure hs
    · dsimp only [Session.finish]
      cases s.closed <;> exact .pure hs
  · rintro ⟨failure | _, s⟩ ⟨failure' | _, _⟩ ⟨hresult, hbase, rfl⟩
    · exact .pure ⟨rfl, trivial⟩
    · exact absurd hresult SameBy.not_error_ok
    · cases SameBy.ok_iff.mp hresult
    · dsimp only [Session.finish]
      cases s.closed <;> exact .pure ⟨.refl _ _, trivial⟩

/-! ### Inquiries in steps -/

section Inquiring

variable {σ α β : Type} [Inhabited σ] {P D : Work (Record σ) → Prop} {R : Work (Record σ) → Work (Record σ) → Prop}
  {L : α → Prop} {T : α → α → Prop} {Q : β → β → Prop} {q q' : Inquiry σ α}
  {next next' : α → Steps (Work (Record σ)) β}

/-- The states of two tasks that take inquiries stay related whatever notes they take and whatever
they remember, and their looks show the same workspace. -/
structure IsAsked (S : Workspace → Prop) (R : Work (Record σ) → Work (Record σ) → Prop) : Prop where
  noted : ∀ work work' n, R work work' → R (work.noted [n]) (work'.noted [n])
  keep : ∀ work work' memory memory', R work work' →
    R { work with memory := { work.memory with memory } }
      { work' with memory := { work'.memory with memory := memory' } }
  look : ∀ work work', R work work' → S work.workspace ∧ work'.workspace = work.workspace

/-- Tasks that begin with inquiries that go alike do so too, if they go on alike. -/
lemma inquiring_goAlike (hR : IsAsked S R) (h : GoAlike S L T q q')
    (hL : ∀ a, L a → (next a).Brings P D)
    (hnext : ∀ a a', T a a' → (next a).GoAlike P R D Q (next' a')) :
    (inquiring q >>= next).GoAlike P R D Q (inquiring q' >>= next') := by
  induction h with
  | apart hgives =>
    have halways := inquiring_always (P := fun _ _ => True) (fun _ _ => trivial) (fun _ _ => trivial)
      (fun _ => trivial) (hgives [] default)
    exact .apart (.bind_next halways hL)
  | answer ha => exact hnext _ _ ha
  | note n _ ih => exact .step (fun work work' h => hR.noted work work' n h) fun _ _ _ => ih
  | keep change change' _ ih =>
    exact .step (fun work work' h => hR.keep work work' _ _ h) fun _ _ _ => ih
  | look _ ih =>
    refine .step (fun work work' h => h) fun work work' h => ?_
    obtain ⟨hshown, hsame⟩ := hR.look work work' h
    dsimp only
    rw [hsame]
    exact ih _ hshown

end Inquiring

end Compile

end Bundler
