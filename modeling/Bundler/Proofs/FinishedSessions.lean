import Mathlib.Data.List.Basic
import Bundler.Session

/-!
# Finished sessions

A session is used by adding elements, noting names, looking at it and finishing it, in any order.
Until it is finished it collects what is added, so that an earlier look at it shows the beginning of
its tree. Once it is finished, elements are refused and so is another finish; the name of a load that
begins is still noted, and it is the only thing that can change.
-/

namespace Bundler.Session

variable {s : Session}

/-! ### Uses of a session -/

/-- What can be done with a session. -/
inductive Use where
  | append (element : Element)
  | mark (name : String)
  /-- Take the elements collected so far. -/
  | look
  | finish (dependencyTarget : Value)

/-- What a session answers. -/
inductive Answer where
  | done
  | isNew (new : Bool)
  | elements (elements : List Element)
  | tree (tree : Option Tree)

/-- Use a session. A use that fails leaves it as it is. -/
def use (s : Session) : Use → Except Failure Answer × Session
  | .append element =>
    match s.append element with
    | .ok next => (.ok .done, next)
    | .error failure => (.error failure, s)
  | .mark name => (.ok (.isNew (s.mark name).1), (s.mark name).2)
  | .look => (.ok (.elements s.elements), s)
  | .finish target =>
    match s.finish target with
    | .ok (tree, next) => (.ok (.tree tree), next)
    | .error failure => (.error failure, s)

/-- The session after some uses. -/
def after (s : Session) : List Use → Session
  | [] => s
  | use :: uses => (s.use use).2.after uses

/-- The elements that uses add, in order. -/
def appended : List Use → List Element
  | [] => []
  | .append element :: uses => element :: appended uses
  | _ :: uses => appended uses

def Use.isFinish : Use → Bool
  | .finish _ => true
  | _ => false

/-- Whether a use would change a session that is not finished. -/
def Use.changes (s : Session) : Use → Prop
  | .append _ | .finish _ => True
  | .mark name => name ∉ s.loaded
  | .look => False

/-- The session refuses the use, because it is finished, and stays as it is. -/
def Refuses (s : Session) (use : Use) : Prop :=
  (∃ refused, (s.use use).1 = .error (.closed refused)) ∧ (s.use use).2 = s

lemma after_append (s : Session) (uses more : List Use) :
    s.after (uses ++ more) = (s.after uses).after more := by
  induction uses generalizing s with
  | nil => rfl
  | cons use uses ih => exact ih _

lemma appended_append (uses more : List Use) :
    appended (uses ++ more) = appended uses ++ appended more := by
  induction uses with
  | nil => rfl
  | cons use uses ih => cases use <;> simp [appended, ih]

/-! ### Names -/

@[simp] lemma elements_mark (s : Session) (name : String) : (s.mark name).2.elements = s.elements := by
  unfold mark
  split <;> rfl

@[simp] lemma closed_mark (s : Session) (name : String) : (s.mark name).2.closed = s.closed := by
  unfold mark
  split <;> rfl

lemma mem_loaded_mark (s : Session) (name other : String) :
    other ∈ (s.mark name).2.loaded ↔ other ∈ s.loaded ∨ other = name := by
  unfold mark
  split
  · next hthere =>
    have hmem : name ∈ s.loaded := by simpa using hthere
    constructor
    · exact Or.inl
    · rintro (hother | rfl)
      · exact hother
      · exact hmem
  · rw [List.mem_cons, or_comm]

/-! ### What is used step by step -/

/-- A use keeps the names, adds the one that it marks, and no other. -/
lemma mem_loaded_use (s : Session) (use : Use) (name : String) :
    name ∈ (s.use use).2.loaded ↔ name ∈ s.loaded ∨ use = .mark name := by
  cases use with
  | append element =>
    rw [Session.use, append]
    by_cases hclosed : s.closed = true <;> simp [hclosed]
  | mark marked =>
    rw [Session.use, mem_loaded_mark, Use.mark.injEq, eq_comm (a := marked)]
  | look => simp [Session.use]
  | finish target =>
    rw [Session.use, finish]
    by_cases hclosed : s.closed = true <;> simp [hclosed]

lemma mem_loaded_after (s : Session) (uses : List Use) (name : String) :
    name ∈ (s.after uses).loaded ↔ name ∈ s.loaded ∨ .mark name ∈ uses := by
  induction uses generalizing s with
  | nil => simp [after]
  | cons use uses ih =>
    rw [after, ih, mem_loaded_use, List.mem_cons, or_assoc, eq_comm]

/-- An open session takes each use; only a finish closes it. -/
lemma use_of_open (hopen : s.closed = false) (use : Use) (huse : use.isFinish = false) :
    (∃ answer, (s.use use).1 = .ok answer) ∧ (s.use use).2.closed = false ∧
      (s.use use).2.elements = s.elements ++ appended [use] := by
  cases use with
  | append element => simp [Session.use, append, hopen, appended]
  | mark name => simp [Session.use, hopen, appended]
  | look => simp [Session.use, hopen, appended]
  | finish target => cases huse

/-- Up to its finish a session collects the elements that are added. -/
lemma after_of_open (hopen : s.closed = false) (uses : List Use)
    (huses : ∀ use ∈ uses, use.isFinish = false) :
    (s.after uses).closed = false ∧ (s.after uses).elements = s.elements ++ appended uses := by
  induction uses generalizing s with
  | nil => exact ⟨hopen, (List.append_nil _).symm⟩
  | cons use uses ih =>
    rw [List.forall_mem_cons] at huses
    obtain ⟨-, hstill, helements⟩ := use_of_open hopen use huses.1
    have hcons : appended (use :: uses) = appended [use] ++ appended uses :=
      appended_append [use] uses
    rw [after, hcons, ← List.append_assoc, ← helements]
    exact ih hstill huses.2

/-- The elements are the tree, in the order in which they were added. -/
lemma use_finish_of_open (hopen : s.closed = false) (target : Value) :
    s.use (.finish target)
      = (.ok (.tree (if target.truthy then none else some s.elements)),
          { s with closed := true }) := by
  simp [use, finish, hopen]

/-- A finished session keeps its elements and stays finished. -/
lemma use_of_closed (hclosed : s.closed = true) (use : Use) :
    (s.use use).2.closed = true ∧ (s.use use).2.elements = s.elements := by
  cases use <;> simp [Session.use, append, finish, hclosed]

lemma after_of_closed (hclosed : s.closed = true) (uses : List Use) :
    (s.after uses).closed = true ∧ (s.after uses).elements = s.elements := by
  induction uses generalizing s with
  | nil => exact ⟨hclosed, rfl⟩
  | cons use uses ih =>
    obtain ⟨hstill, helements⟩ := use_of_closed hclosed use
    rw [after, ← helements]
    exact ih hstill

/-- A finished session refuses what would change it, unless that is a new name. -/
lemma refuses_iff (hclosed : s.closed = true) (use : Use) (hchanges : use.changes s) :
    s.Refuses use ↔ ∀ name, use ≠ .mark name := by
  cases use with
  | append element => simp [Refuses, Session.use, append, hclosed]
  | mark name => simp [Refuses, Session.use]
  | look => cases hchanges
  | finish target => simp [Refuses, Session.use, finish, hclosed]

/-! ### Finished sessions -/

/-- A new session after some uses, a finish and some more. -/
def finished (base : Path) (before : List Use) (target : Value) (more : List Use) : Session :=
  ({ base } : Session).after (before ++ .finish target :: more)

lemma finished_eq (base : Path) (before : List Use) (target : Value) (more : List Use)
    (hbefore : ∀ use ∈ before, use.isFinish = false) :
    (finished base before target more).closed = true ∧
      (finished base before target more).elements = appended before ∧
      ∀ name, name ∈ (finished base before target more).loaded
        ↔ .mark name ∈ before ∨ .mark name ∈ more := by
  have hnew : ({ base } : Session).closed = false := rfl
  obtain ⟨hopen, helements⟩ := after_of_open hnew before hbefore
  have hsplit : finished base before target more
      = ((({ base } : Session).after before).use (.finish target)).2.after more :=
    after_append _ before _
  rw [use_finish_of_open hopen] at hsplit
  have hclosed := after_of_closed (s := { ({ base } : Session).after before with closed := true })
    rfl more
  rw [← hsplit] at hclosed
  refine ⟨hclosed.1, hclosed.2.trans helements, ?_⟩
  intro name
  rw [finished, mem_loaded_after]
  simp

/-- A finish gives the elements that were added, and a look before it shows the first of them.
Afterwards the elements stay and the session stays finished. It refuses whatever would change it
except for new names, so it is frozen exactly if no name is marked that was not marked before. -/
theorem frozen_iff (base : Path) (before : List Use) (target : Value) (more : List Use)
    (hbefore : ∀ use ∈ before, use.isFinish = false) :
    ((({ base } : Session).after before).use (.finish target)).1
        = .ok (.tree (if target.truthy then none else some (appended before))) ∧
    (∀ early late, before = early ++ .look :: late →
      ((({ base } : Session).after early).use .look).1 = .ok (.elements (appended early)) ∧
        appended early <+: appended before) ∧
    (∀ early use late, more = early ++ use :: late →
      (finished base before target early).closed = true ∧
        (finished base before target early).elements = appended before ∧
        (use.changes (finished base before target early) →
          ((finished base before target early).Refuses use ↔ ∀ name, use ≠ .mark name))) ∧
    ((∀ early use late, more = early ++ use :: late →
        use.changes (finished base before target early) →
        (finished base before target early).Refuses use)
      ↔ ∀ name, .mark name ∈ more → .mark name ∈ before) := by
  have hnew : ({ base } : Session).closed = false := rfl
  have hkept : ∀ early use, use.changes (finished base before target early) →
      ((finished base before target early).Refuses use ↔ ∀ name, use ≠ .mark name) :=
    fun early use => refuses_iff (finished_eq base before target early hbefore).1 use
  refine ⟨?_, ?_, ?_, ?_⟩
  · obtain ⟨hopen, helements⟩ := after_of_open hnew before hbefore
    rw [use_finish_of_open hopen, helements]
    rfl
  · intro early late hsplit
    have hearly : ∀ use ∈ early, use.isFinish = false := by
      intro use huse
      exact hbefore use (by rw [hsplit]; exact List.mem_append_left _ huse)
    refine ⟨?_, ?_⟩
    · have hlook := (after_of_open hnew early hearly).2
      rw [use, hlook]
      rfl
    · rw [hsplit, appended_append]
      exact List.prefix_append _ _
  · intro early use late _
    obtain ⟨hclosed, helements, -⟩ := finished_eq base before target early hbefore
    exact ⟨hclosed, helements, hkept early use⟩
  · constructor
    · intro hfrozen name hmark
      by_contra hnone
      -- the first mark of the name finds it new
      obtain ⟨early, late, hsplit, hfirst⟩ := List.eq_append_cons_of_mem hmark
      have hfresh : Use.changes (finished base before target early) (.mark name) := by
        intro hmem
        exact (((finished_eq base before target early hbefore).2.2 name).mp hmem).elim hnone hfirst
      exact (hkept early _ hfresh).mp (hfrozen early _ late hsplit hfresh) name rfl
    · intro hnone early use late hsplit hchanges
      rw [hkept early use hchanges]
      rintro name rfl
      have hmark : .mark name ∈ more := by
        rw [hsplit]
        exact List.mem_append_right _ List.mem_cons_self
      exact hchanges (((finished_eq base before target early hbefore).2.2 name).mpr
        (Or.inl (hnone name hmark)))

/-- A session that is looked at on the way, and used in every way when it is finished; the only name
that is marked then is an old one. -/
theorem frozen_of_marked :
    let before : List Use := [.mark "a.js", .append (.bare "a"), .look, .append (.bare "b")]
    let more : List Use := [.append (.bare "c"), .mark "a.js", .look, .finish .null]
    (∀ use ∈ before, use.isFinish = false) ∧
    ((({ base := ⟨.root, []⟩ } : Session).after before).use (.finish .null)).1
        = .ok (.tree (some [.bare "a", .bare "b"])) ∧
    ∀ early use late, more = early ++ use :: late →
      use.changes (finished ⟨.root, []⟩ before .null early) →
      (finished ⟨.root, []⟩ before .null early).Refuses use := by
  intro before more
  have hbefore : ∀ use ∈ before, use.isFinish = false := by simp [before, Use.isFinish]
  obtain ⟨htree, -, -, hfrozen⟩ := frozen_iff ⟨.root, []⟩ before .null more hbefore
  exact ⟨hbefore, htree, hfrozen.mpr (by simp [before, more])⟩

/-- A finished session takes a new name. -/
theorem not_always_frozen :
    ¬ ∀ (base : Path) (before : List Use) (target : Value) (more : List Use),
      (∀ use ∈ before, use.isFinish = false) →
      ∀ early use late, more = early ++ use :: late →
        use.changes (finished base before target early) →
        (finished base before target early).Refuses use := by
  intro hall
  obtain ⟨⟨refused, hrefused⟩, -⟩ := hall ⟨.root, []⟩ [] .null [.mark "a.js"] (by simp) []
    (.mark "a.js") [] rfl (by simp [Use.changes, finished, after, use, finish])
  cases hrefused

end Bundler.Session
