import Mathlib.Data.Finset.Card
import Mathlib.Data.Set.Finite.Basic
import Mathlib.Logic.Relation
import Bundler.Proofs.Dependencies
import Bundler.Value.Basic

/-!
# Visits

The order of a depth-first search: names are visited in the order in which they are asked for, the
names that follow a name right behind it, and a name that has been seen is skipped. If only finitely
many names can be reached there is one such order, and it visits just these.
-/

namespace Bundler

/-- A visit of a name, and who asks for it. -/
structure Visit where
  name : String
  referrer : Value

/-- The visits that one referrer asks for. -/
def Visit.all (names : List String) (referrer : Value) : List Visit :=
  names.map fun name => ⟨name, referrer⟩

/-- The names that have been visited, the latest first. -/
def marks (order : List Visit) : List String := (order.map (·.name)).reverse

@[simp] lemma marks_cons (visit : Visit) (order : List Visit) :
    marks (visit :: order) = marks order ++ [visit.name] := by
  simp [marks]

@[simp] lemma marks_append (order order' : List Visit) :
    marks (order ++ order') = marks order' ++ marks order := by
  simp [marks]

lemma mem_marks {order : List Visit} {name : String} :
    name ∈ marks order ↔ ∃ visit ∈ order, visit.name = name := by
  simp [marks]

@[simp] lemma map_name_all (names : List String) (referrer : Value) :
    (Visit.all names referrer).map (·.name) = names := by
  simp [Visit.all, Function.comp_def]

/-- The visits that a search makes for the visits it is asked for, if some names have been seen
before; `next` gives the names that follow a name. -/
inductive Visits (next : String → List String) : List Visit → List String → List Visit → Prop where
  | nothing (seen : List String) : Visits next [] seen []
  | skip {visit : Visit} {asked order : List Visit} {seen : List String}
      (hseen : visit.name ∈ seen) (hrest : Visits next asked seen order) :
      Visits next (visit :: asked) seen order
  | visit {visit : Visit} {asked below after : List Visit} {seen : List String}
      (hnew : visit.name ∉ seen)
      (hbelow : Visits next (Visit.all (next visit.name) (.text visit.name)) (visit.name :: seen)
        below)
      (hrest : Visits next asked (marks below ++ visit.name :: seen) after) :
      Visits next (visit :: asked) seen (visit :: below ++ after)

/-- The name is one of those asked for or follows, over any number of names, one of them. -/
def IsReachable (next : String → List String) (asked : List String) (name : String) : Prop :=
  ∃ start ∈ asked, Relation.ReflTransGen (fun a b => b ∈ next a) start name

variable {next : String → List String} {asked order order' : List Visit} {seen : List String}
  {visit : Visit} {name : String}

lemma IsReachable.tail {names : List String} {name' : String} (h : IsReachable next names name)
    (hnext : name' ∈ next name) : IsReachable next names name' := by
  obtain ⟨start, hstart, hpath⟩ := h
  exact ⟨start, hstart, hpath.tail hnext⟩

lemma IsReachable.of_mem {names : List String} (h : name ∈ names) : IsReachable next names name :=
  ⟨name, h, .refl⟩

lemma IsReachable.mono {names names' : List String} (hsubset : names ⊆ names')
    (h : IsReachable next names name) : IsReachable next names' name := by
  obtain ⟨start, hstart, hpath⟩ := h
  exact ⟨start, hsubset hstart, hpath⟩

namespace Visits

/-! ### One order -/

/-- The first visit asked for is made before the others. -/
lemma exists_append (h : Visits next (visit :: asked) seen order) :
    ∃ first rest, order = first ++ rest ∧ Visits next [visit] seen first ∧
      Visits next asked (marks first ++ seen) rest := by
  cases h with
  | skip hseen hrest => exact ⟨[], order, rfl, .skip hseen (.nothing seen), hrest⟩
  | visit hnew hbelow hrest =>
    refine ⟨visit :: _, _, rfl, ?_, ?_⟩
    · simpa using Visits.visit hnew hbelow (.nothing _)
    · simpa using hrest

/-- Searches one after another are one search. -/
lemma append {asked' : List Visit} (h : Visits next asked seen order)
    (h' : Visits next asked' (marks order ++ seen) order') :
    Visits next (asked ++ asked') seen (order ++ order') := by
  induction h with
  | nothing seen => exact h'
  | skip hseen _ ih => exact .skip hseen (ih h')
  | visit hnew hbelow _ _ ihrest =>
    rw [List.cons_append, List.append_assoc]
    refine .visit hnew hbelow (ihrest ?_)
    simpa using h'

/-- There is at most one order. -/
lemma unique (h : Visits next asked seen order) (h' : Visits next asked seen order') :
    order = order' := by
  induction h generalizing order' with
  | nothing seen =>
    cases h'
    rfl
  | skip hseen _ ih =>
    cases h' with
    | skip _ hrest' => exact ih hrest'
    | visit hnew' _ _ => exact absurd hseen hnew'
  | visit hnew _ _ ihbelow ihrest =>
    cases h' with
    | skip hseen' _ => exact absurd hseen' hnew
    | visit _ hbelow' hrest' =>
      obtain rfl := ihbelow hbelow'
      obtain rfl := ihrest hrest'
      rfl

/-- No name is visited twice, nor one that has been seen before. -/
lemma nodup (h : Visits next asked seen order) (hseen : seen.Nodup) :
    (marks order ++ seen).Nodup := by
  induction h with
  | nothing seen => exact hseen
  | skip _ _ ih => exact ih hseen
  | visit hnew _ _ ihbelow ihrest =>
    have hbelow := ihbelow (List.nodup_cons.mpr ⟨hnew, hseen⟩)
    simpa using ihrest hbelow

/-! ### What is visited -/

lemma mem_of_mem_asked (h : Visits next asked seen order) (hmem : visit ∈ asked) :
    visit.name ∈ marks order ++ seen := by
  induction h with
  | nothing seen => cases hmem
  | skip hseen _ ih =>
    rcases List.mem_cons.mp hmem with rfl | hmem
    · exact List.mem_append_right _ hseen
    · exact ih hmem
  | visit _ _ _ _ ihrest =>
    rcases List.mem_cons.mp hmem with rfl | hmem
    · simp
    · simpa using ihrest hmem

/-- The names that follow a visited name are visited or have been seen before. -/
lemma mem_of_mem_next (h : Visits next asked seen order) (hmem : visit ∈ order)
    (hnext : name ∈ next visit.name) : name ∈ marks order ++ seen := by
  induction h with
  | nothing seen => cases hmem
  | skip _ _ ih => exact ih hmem
  | @visit first _ below after seen _ hbelow _ ihbelow ihrest =>
    have hsubset : marks below ++ first.name :: seen
        ⊆ marks (first :: below ++ after) ++ seen := by
      intro c hc
      simpa using Or.inr hc
    rcases List.mem_append.mp hmem with hmem | hmem
    · apply hsubset
      rcases List.mem_cons.mp hmem with rfl | hmem
      · have hasked : (⟨name, .text visit.name⟩ : Visit)
            ∈ Visit.all (next visit.name) (.text visit.name) :=
          List.mem_map.mpr ⟨name, hnext, rfl⟩
        exact hbelow.mem_of_mem_asked hasked
      · exact ihbelow hmem
    · simpa using ihrest hmem

lemma isReachable_of_mem (h : Visits next asked seen order) (hmem : visit ∈ order) :
    IsReachable next (asked.map (·.name)) visit.name := by
  induction h with
  | nothing seen => cases hmem
  | skip _ _ ih => exact (ih hmem).mono (List.subset_cons_self _ _)
  | @visit first _ below after seen _ _ _ ihbelow ihrest =>
    rcases List.mem_append.mp hmem with hmem | hmem
    · rcases List.mem_cons.mp hmem with rfl | hmem
      · exact .of_mem List.mem_cons_self
      · obtain ⟨start, hstart, hpath⟩ := ihbelow hmem
        rw [map_name_all] at hstart
        exact ⟨first.name, List.mem_cons_self, hpath.head hstart⟩
    · exact (ihrest hmem).mono (List.subset_cons_self _ _)

/-- A visit is one of those asked for, or the name that asks for it has been visited before. -/
lemma asked_or_before (h : Visits next asked seen order) {before after : List Visit}
    (hsplit : order = before ++ visit :: after) :
    visit ∈ asked ∨
      ∃ importer ∈ before, visit.referrer = .text importer.name ∧
        visit.name ∈ next importer.name := by
  induction h generalizing before after with
  | nothing seen => simp at hsplit
  | skip _ _ ih => exact (ih hsplit).imp_left (List.mem_cons_of_mem _)
  | @visit first _ below rest seen _ _ _ ihbelow ihrest =>
    cases before with
    | nil =>
      cases hsplit
      exact Or.inl List.mem_cons_self
    | cons head before =>
      obtain ⟨rfl, htail⟩ := List.cons.inj hsplit
      rcases split_append htail with ⟨later, hlater⟩ | ⟨start, rfl, hstart⟩
      · rcases ihbelow hlater with hasked | ⟨importer, himporter, hlisted⟩
        · obtain ⟨name, hname, rfl⟩ := List.mem_map.mp hasked
          exact Or.inr ⟨first, List.mem_cons_self, rfl, hname⟩
        · exact Or.inr ⟨importer, List.mem_cons_of_mem _ himporter, hlisted⟩
      · rcases ihrest hstart with hasked | ⟨importer, himporter, hlisted⟩
        · exact Or.inl (List.mem_cons_of_mem _ hasked)
        · have hmem : importer ∈ first :: (below ++ start) :=
            List.mem_cons_of_mem _ (List.mem_append_right _ himporter)
          exact Or.inr ⟨importer, hmem, hlisted⟩

/-- A search that has seen nothing before visits what can be reached. -/
lemma mem_marks_iff (h : Visits next asked [] order) :
    name ∈ marks order ↔ IsReachable next (asked.map (·.name)) name := by
  constructor
  · intro hmem
    obtain ⟨visit, hvisit, rfl⟩ := mem_marks.mp hmem
    exact h.isReachable_of_mem hvisit
  · rintro ⟨start, hstart, hpath⟩
    induction hpath with
    | refl =>
      obtain ⟨visit, hvisit, rfl⟩ := List.mem_map.mp hstart
      simpa using h.mem_of_mem_asked hvisit
    | tail _ hnext ih =>
      obtain ⟨visit, hvisit, rfl⟩ := mem_marks.mp ih
      simpa using h.mem_of_mem_next hvisit hnext

end Visits

/-! ### Searches that end -/

/-- What can be reached from names among which all that follow them are found is among them. -/
lemma isReachable_subset {names all : List String} (hnames : names ⊆ all)
    (hclosed : ∀ name ∈ all, next name ⊆ all) :
    {name | IsReachable next names name} ⊆ {name | name ∈ all} := by
  rintro name ⟨start, hstart, hpath⟩
  induction hpath with
  | refl => exact hnames hstart
  | tail _ hnext ih => exact hclosed _ ih hnext

lemma finite_isReachable {names : List String} (all : List String) (hnames : names ⊆ all)
    (hclosed : ∀ name ∈ all, next name ⊆ all) : {name | IsReachable next names name}.Finite :=
  all.finite_toSet.subset (isReachable_subset hnames hclosed)

/-- A search in a finite set of names ends: each visit leaves fewer names that have not been
seen. -/
lemma exists_visits_of_closed (all : Finset String)
    (hclosed : ∀ name ∈ all, ∀ name' ∈ next name, name' ∈ all) (seen : List String)
    (asked : List Visit) (hasked : ∀ visit ∈ asked, visit.name ∈ all) :
    ∃ order, Visits next asked seen order := by
  induction hleft : (all \ seen.toFinset).card using Nat.strong_induction_on
    generalizing seen asked with
  | _ left ih =>
    subst hleft
    induction asked with
    | nil => exact ⟨[], .nothing seen⟩
    | cons visit asked ihasked =>
      have hrest : ∀ v ∈ asked, v.name ∈ all :=
        fun v hv => hasked v (List.mem_cons_of_mem _ hv)
      by_cases hseen : visit.name ∈ seen
      · obtain ⟨order, horder⟩ := ihasked hrest
        exact ⟨order, .skip hseen horder⟩
      · have hfewer : ∀ seen', visit.name :: seen ⊆ seen' →
            (all \ seen'.toFinset).card < (all \ seen.toFinset).card := by
          intro seen' hsubset
          apply Finset.card_lt_card
          rw [Finset.ssubset_iff_of_subset]
          · refine ⟨visit.name, ?_, ?_⟩
            · simpa [hseen] using hasked visit List.mem_cons_self
            · simp [hsubset List.mem_cons_self]
          · intro name hname
            simp only [Finset.mem_sdiff, List.mem_toFinset] at hname ⊢
            exact ⟨hname.1, fun hmem => hname.2 (hsubset (List.mem_cons_of_mem _ hmem))⟩
        have hnext : ∀ v ∈ Visit.all (next visit.name) (.text visit.name), v.name ∈ all := by
          intro v hv
          obtain ⟨name, hname, rfl⟩ := List.mem_map.mp hv
          exact hclosed visit.name (hasked visit List.mem_cons_self) name hname
        obtain ⟨below, hbelow⟩ :=
          ih _ (hfewer _ (List.Subset.refl _)) (visit.name :: seen) _ hnext rfl
        obtain ⟨after, hafter⟩ := ih _ (hfewer _ (List.subset_append_right (marks below) _))
          (marks below ++ visit.name :: seen) asked hrest rfl
        exact ⟨visit :: below ++ after, .visit hseen hbelow hafter⟩

/-- If finitely many names can be reached, a search ends. -/
theorem exists_visits (h : {name | IsReachable next (asked.map (·.name)) name}.Finite) :
    ∃ order, Visits next asked [] order := by
  apply exists_visits_of_closed h.toFinset
  · intro name hname name' hnext
    rw [Set.Finite.mem_toFinset] at hname ⊢
    exact IsReachable.tail hname hnext
  · intro visit hvisit
    rw [Set.Finite.mem_toFinset]
    exact IsReachable.of_mem (List.mem_map_of_mem hvisit)

end Bundler
