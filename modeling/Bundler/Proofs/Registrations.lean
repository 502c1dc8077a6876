import Bundler.Element.Emit
import Bundler.Proofs.JsonStrings
import Bundler.Proofs.Placeholders
import Bundler.Proofs.Statements

/-!
# Reading registrations back

The first line of a registration holds the name of the module as a JSON string and the names of its
dependencies as a JSON array, and everything else up to the last line is the source without the
blanks at its end. What stands between the tokens may stand inside the strings and in the source as
well, but nothing of it ends the first line, and a JSON string can be told from whatever follows it.
-/

namespace Bundler

open Text Text.JsonString

variable {text literal literal' array array' name name' body body' source : String}
  {dependencies dependencies' : List String}

/-! ### Sources without the blanks at their end -/

/-- `body` is the source up to its last character that is not blank. -/
structure IsTrimmed (body source : String) : Prop where
  shape : ∃ blanks, (∀ c ∈ blanks, isBlank c = true) ∧ source.toList = body.toList ++ blanks
  last : ∀ c ∈ body.toList.getLast?, isBlank c = false

lemma isTrimmed_trimEnd (source : String) : IsTrimmed (trimEnd source) source := by
  obtain ⟨blanks, hsource, hblanks⟩ := Specifier.exists_blanks source.toList
  refine ⟨⟨blanks, hblanks, ?_⟩, ?_⟩
  · rw [trimEnd, String.toList_ofList]
    exact hsource
  · intro c hc
    rw [trimEnd, String.toList_ofList, dropBlankEnd, List.getLast?_reverse, Option.mem_def] at hc
    have hne : source.toList.reverse.dropWhile isBlank ≠ [] := by
      intro hnil
      rw [hnil] at hc
      cases hc
    have hfirst := List.head_dropWhile_not isBlank hne
    rwa [(List.head_eq_iff_head?_eq_some hne).mpr hc] at hfirst

lemma IsTrimmed.eq_trimEnd (h : IsTrimmed body source) : body = trimEnd source := by
  obtain ⟨blanks, hblanks, hsource⟩ := h.shape
  have hbody : dropBlankEnd body.toList = body.toList := by
    rcases List.eq_nil_or_concat body.toList with hnil | ⟨front, c, hlast⟩
    · rw [hnil, dropBlankEnd_nil]
    · rw [List.concat_eq_append] at hlast
      rw [hlast]
      exact dropBlankEnd_concat front c (h.last c (by simp [hlast]))
  rw [trimEnd, hsource, Specifier.dropBlankEnd_append hblanks, hbody, String.ofList_toList]

lemma isTrimmed_iff : IsTrimmed body source ↔ body = trimEnd source := by
  constructor
  · exact IsTrimmed.eq_trimEnd
  · rintro rfl
    exact isTrimmed_trimEnd source

/-! ### Registrations and evaluations -/

/-- The line that opens a registration, around texts for the name and for the dependencies. -/
def opening (literal array : String) : String :=
  "System.registerModule(" ++ literal ++ ", " ++ array ++ ", function() \x7b"

/-- The first line of `text` opens a registration under `name`, which it gives as `literal`, and the
rest of it is `body` and the closing line. -/
def IsRegistration (text literal name : String) (dependencies : List String) (body : String) :
    Prop :=
  ∃ array, IsLiteral literal.toList name ∧ IsArray array.toList dependencies ∧
    '\n' ∉ (opening literal array).toList ∧
    text = opening literal array ++ "\n" ++ body ++ "\n" ++ "\x7d);"

/-- The text evaluates the module `name`, which it gives as `literal`. -/
def IsEvaluation (text literal name : String) : Prop :=
  IsLiteral literal.toList name ∧ text = "System.get(" ++ literal ++ ");"

lemma opening_unique (h : IsLiteral literal.toList name) (h' : IsLiteral literal'.toList name')
    (harray : IsArray array.toList dependencies) (harray' : IsArray array'.toList dependencies')
    (hopening : opening literal array = opening literal' array') :
    literal = literal' ∧ name = name' ∧ dependencies = dependencies' := by
  have heq := congrArg String.toList hopening
  unfold opening at heq
  simp only [String.toList_append, List.append_assoc, List.append_cancel_left_eq] at heq
  obtain ⟨hname, hliteral, hrest⟩ := h.unique h' heq
  rw [List.append_cancel_left_eq, List.append_cancel_right_eq] at hrest
  rw [hrest] at harray
  exact ⟨String.toList_inj.mp hliteral, hname, harray.unique harray'⟩

/-- There is one way to read a registration. -/
lemma IsRegistration.unique (h : IsRegistration text literal name dependencies body)
    (h' : IsRegistration text literal' name' dependencies' body') :
    literal = literal' ∧ name = name' ∧ dependencies = dependencies' ∧ body = body' := by
  obtain ⟨array, hliteral, harray, hline, htext⟩ := h
  obtain ⟨array', hliteral', harray', hline', htext'⟩ := h'
  have heq := congrArg String.toList (htext.symm.trans htext')
  simp only [String.toList_append, List.append_assoc] at heq
  -- Neither line holds a line feed, so the text is cut in the same place.
  have hcut := congrArg (cut '\n') heq
  have hfeed : "\n".toList = ['\n'] := rfl
  simp only [hfeed, List.singleton_append] at hcut
  rw [cut_append_cons hline, cut_append_cons hline', Prod.mk.injEq, Option.some.injEq,
    List.append_cancel_right_eq, String.toList_inj, String.toList_inj] at hcut
  obtain ⟨hopening, hbody⟩ := hcut
  obtain ⟨hliterals, hnames, hdependencies⟩ :=
    opening_unique hliteral hliteral' harray harray' hopening
  exact ⟨hliterals, hnames, hdependencies, hbody⟩

lemma IsEvaluation.unique (h : IsEvaluation text literal name)
    (h' : IsEvaluation text literal' name') : literal = literal' ∧ name = name' := by
  obtain ⟨hliteral, htext⟩ := h
  obtain ⟨hliteral', htext'⟩ := h'
  have heq := congrArg String.toList (htext.symm.trans htext')
  simp only [String.toList_append, List.append_assoc, List.append_cancel_left_eq] at heq
  obtain ⟨hname, hliterals, -⟩ := hliteral.unique hliteral' heq
  exact ⟨String.toList_inj.mp hliterals, hname⟩

/-! ### What is written -/

lemma newline_notMem_opening (name : String) (dependencies : List String) :
    '\n' ∉ (opening (encode name) (encodeArray dependencies)).toList := by
  apply IsPrintableAscii.newline_notMem
  have hname := isPrintableAscii_encode name
  have harray := isPrintableAscii_encodeArray dependencies
  unfold opening
  simp [hname, harray]

lemma isRegistration_registration (name : String) (dependencies : List String) (source : String) :
    IsRegistration (CompiledUnit.registration name dependencies source) (encode name) name
      dependencies (trimEnd source) :=
  ⟨encodeArray dependencies, isLiteral_encode name, isArray_encodeArray dependencies,
    newline_notMem_opening name dependencies, rfl⟩

lemma isRegistration_registration_iff :
    IsRegistration (CompiledUnit.registration name dependencies source) literal name'
        dependencies' body ↔ literal = encode name ∧ name' = name ∧ dependencies' = dependencies ∧
        IsTrimmed body source := by
  have hwritten := isRegistration_registration name dependencies source
  rw [isTrimmed_iff]
  constructor
  · intro h
    exact h.unique hwritten
  · rintro ⟨rfl, rfl, rfl, rfl⟩
    exact hwritten

lemma isEvaluation_evaluationText_iff :
    IsEvaluation (evaluationText name) literal name' ↔ literal = encode name ∧ name' = name := by
  have hwritten : IsEvaluation (evaluationText name) (encode name) name :=
    ⟨isLiteral_encode name, rfl⟩
  constructor
  · intro h
    exact h.unique hwritten
  · rintro ⟨rfl, rfl⟩
    exact hwritten

lemma encode_inj : encode name = encode name' ↔ name = name' := by
  constructor
  · intro heq
    have happend : (encode name).toList ++ [] = (encode name').toList ++ [] := by rw [heq]
    exact ((isLiteral_encode name).unique (isLiteral_encode name') happend).1
  · rintro rfl
    rfl

lemma registration_inj {source' : String} :
    CompiledUnit.registration name dependencies source
        = CompiledUnit.registration name' dependencies' source'
      ↔ name = name' ∧ dependencies = dependencies' ∧ trimEnd source = trimEnd source' := by
  constructor
  · intro heq
    have h := isRegistration_registration name dependencies source
    rw [heq] at h
    exact (h.unique (isRegistration_registration name' dependencies' source')).2
  · rintro ⟨rfl, rfl, hbody⟩
    simp only [CompiledUnit.registration, hbody]

/-- A registered module can be read back in one way: the first line of its text gives its name and
its dependencies as JSON, and what follows is its source without the blanks at the end and the
closing line. So two of them have the same text only if they agree in all three. The statement that
evaluates a module gives its name in one way as well, with the same literal as a registration under
that name and under no other. -/
theorem CompiledUnit.ofModule_readsBack {options options' : Options}
    (hregister : options.isRegister = true) (hregister' : options'.isRegister = true)
    (name : String) (dependencies : List String) (source : String) :
    ∃ literal,
      (∀ literal' name' dependencies' body,
        IsRegistration (ofModule options name dependencies source).text literal' name'
            dependencies' body ↔ literal' = literal ∧ name' = name ∧ dependencies' = dependencies ∧
            IsTrimmed body source) ∧
      (∃ body, IsTrimmed body source) ∧
      (∀ name' dependencies' source',
        (ofModule options name dependencies source).text
            = (ofModule options' name' dependencies' source').text
          ↔ name = name' ∧ dependencies = dependencies' ∧ trimEnd source = trimEnd source') ∧
      ∀ evaluated, ∃ text literal', Element.render (.evaluation evaluated) = .ok text ∧
        (∀ literal'' name', IsEvaluation text literal'' name'
          ↔ literal'' = literal' ∧ name' = evaluated) ∧
        (literal' = literal ↔ evaluated = name) := by
  have htext : ∀ {options : Options}, options.isRegister = true →
      ∀ name dependencies source, (ofModule options name dependencies source).text
        = registration name dependencies source := by
    intro options hregister name dependencies source
    rw [ofModule, hregister, if_pos rfl]
  refine ⟨encode name, ?_, ⟨_, isTrimmed_trimEnd source⟩, ?_, ?_⟩
  · intro literal' name' dependencies' body
    rw [htext hregister]
    exact isRegistration_registration_iff
  · intro name' dependencies' source'
    rw [htext hregister, htext hregister']
    exact registration_inj
  · intro evaluated
    refine ⟨evaluationText evaluated, encode evaluated, rfl, ?_, encode_inj⟩
    intro literal'' name'
    exact isEvaluation_evaluationText_iff

/-- What closes a string or a registration may stand in a name, in a dependency and in a source, and
a name may hold a line feed and characters beyond U+FFFF. -/
theorem CompiledUnit.ofModule_readsBack_delimiters :
    let options : Options := { moduleMode := some .register }
    let name := "\x22, [\\\n😀"
    let dependencies := ["], function() \x7b", "\x22"]
    options.isRegister = true ∧ ∃ literal text,
      IsRegistration (ofModule options name dependencies "\x7d);\n \n").text literal name
        dependencies "\x7d);" ∧
      Element.render (.evaluation name) = .ok text ∧ IsEvaluation text literal name := by
  intro options name dependencies
  have hregister : options.isRegister = true := rfl
  obtain ⟨literal, hread, -, -, hevaluation⟩ :=
    ofModule_readsBack hregister hregister name dependencies "\x7d);\n \n"
  obtain ⟨text, literal', hrender, hreads, hliteral⟩ := hevaluation name
  refine ⟨hregister, literal, text, ?_, hrender, ?_⟩
  · have hblank : isBlank '\n' = true ∧ isBlank ' ' = true ∧ isBlank ';' = false := by
      decide +kernel
    have htrimmed : IsTrimmed "\x7d);" "\x7d);\n \n" :=
      ⟨⟨['\n', ' ', '\n'], by simp [hblank], rfl⟩, by simp [hblank]⟩
    exact (hread _ _ _ _).mpr ⟨rfl, rfl, rfl, htrimmed⟩
  · exact (hreads _ _).mpr ⟨(hliteral.mpr rfl).symm, rfl⟩

end Bundler
