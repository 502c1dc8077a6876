import Mathlib.Data.List.Forall2
import Bundler.Proofs.Steps

/-!
# Tasks side by side

Two lists of tasks that take their steps in the same turns are compared step by step. `task.GoAlike
P R D Q task'` says that the two tasks take the same number of steps, that these keep the states
related as `R` says, and that the results are related as `Q` says. The first task may go its own way
as soon as it is sure to bring about `D`, which is a fact that no step undoes. So tasks that go alike
have related results in the end unless `D` has come about.
-/

namespace Bundler

namespace Steps

variable {s t α β : Type} {P D : s → Prop} {R : s → s → Prop} {Q : α → α → Prop}

/-! ### Facts that come about -/

/-- From states with `P` on, one of the steps of the task brings `D` about, whatever others do. -/
def Brings (P D : s → Prop) : Steps s α → Prop
  | done _ => False
  | step change next => ∀ w, P w → D (change w) ∨ (next w).Brings P D

namespace Brings

variable {task : Steps s α}

lemma once {act : s → α × s} (h : ∀ w, P w → D (act w).2) : (Steps.once act).Brings P D :=
  fun w hw => Or.inl (h w hw)

/-- What comes after that makes no difference. -/
lemma bind_first (h : task.Brings P D) (next : α → Steps s β) : (task >>= next).Brings P D := by
  induction task with
  | done a => exact False.elim h
  | step change rest ih => exact fun w hw => (h w hw).imp_right (ih w)

lemma bind_next {L : α → Prop} {A : s → s → Prop} {next : α → Steps s β} (h : task.Always A L)
    (hnext : ∀ a, L a → (next a).Brings P D) : (task >>= next).Brings P D := by
  induction task with
  | done a => exact hnext a h
  | step change rest ih => exact fun w _ => Or.inr (ih w (h w).2)

lemma onPart {P' D' : t → Prop} {part : s → t} {put : t → s → s} {task : Steps t α}
    (hP : ∀ w, P w → P' (part w)) (hD : ∀ w x, D' x → D (put x w)) (h : task.Brings P' D') :
    (task.onPart part put).Brings P D := by
  induction task with
  | done a => exact h
  | step change next ih => exact fun w hw => (h _ (hP w hw)).imp (hD w _) (ih _)

end Brings

/-- What one of the tasks is sure to bring about has come about in the end, if no step undoes it. -/
lemma of_brings {A : s → s → Prop} (hA : ∀ w w', A w w' → (P w → P w') ∧ (D w → D w'))
    (turns : List Nat) {tasks : List (Steps s α)} (hall : ∀ task ∈ tasks, task.Always A fun _ => True)
    {w : s}
    (h : D w ∨ P w ∧ ∃ (k : Nat) (task : Steps s α), tasks[k]? = some task ∧ task.Brings P D) :
    D (together turns tasks w).2 := by
  have hend := together_induction
    (I := fun now w' =>
      (∀ task ∈ now, task.Always A fun _ => True) ∧
      (D w' ∨ P w' ∧ ∃ (k : Nat) (task : Steps s α), now[k]? = some task ∧ task.Brings P D))
    ?_ turns tasks w ⟨hall, h⟩
  · obtain ⟨-, hdone | ⟨-, k, task, htask, hbrings⟩⟩ := hend
    · exact hdone
    · rw [List.getElem?_map] at htask
      obtain ⟨a, -, rfl⟩ := Option.map_eq_some_iff.mp htask
      exact False.elim hbrings
  · rintro now w i task ⟨hall, hbrought⟩ htask
    have hown := hall task (List.mem_of_getElem? htask)
    cases task with
    | done a =>
      have hsame : now.set i (done a) = now := by
        obtain ⟨hi, heq⟩ := List.getElem?_eq_some_iff.mp htask
        rw [← heq, List.set_getElem_self hi]
      rw [first, hsame]
      exact ⟨hall, hbrought⟩
    | step change next =>
      obtain ⟨hstep, hrest⟩ := hown w
      obtain ⟨hP, hD⟩ := hA _ _ hstep
      refine ⟨fun task' htask' => ?_, ?_⟩
      · rcases List.mem_or_eq_of_mem_set htask' with hother | rfl
        · exact hall task' hother
        · exact hrest
      · rcases hbrought with hdone | ⟨hw, k, task', htask', hbrings⟩
        · exact Or.inl (hD hdone)
        by_cases hk : k = i
        · subst hk
          obtain rfl : task' = step change next := Option.some.inj (htask'.symm.trans htask)
          refine (hbrings w hw).imp_right fun hnext => ⟨hP hw, k, next w, ?_, hnext⟩
          rw [List.getElem?_set_self (List.getElem?_eq_some_iff.mp htask).1]
          rfl
        · exact Or.inr ⟨hP hw, k, task', by rwa [List.getElem?_set_ne (Ne.symm hk)], hbrings⟩

/-! ### Tasks that go alike -/

/-- The tasks take their steps alike from related states, with related results, unless the first one
is sure to bring `D` about. -/
inductive GoAlike (P : s → Prop) (R : s → s → Prop) (D : s → Prop) (Q : α → α → Prop) :
    Steps s α → Steps s α → Prop where
  | apart {task task' : Steps s α} (h : task.Brings P D) : GoAlike P R D Q task task'
  | done {a a' : α} (h : Q a a') : GoAlike P R D Q (.done a) (.done a')
  | step {change change' : s → s} {next next' : s → Steps s α}
      (h : ∀ w w', R w w' → R (change w) (change' w'))
      (hnext : ∀ w w', R w w' → GoAlike P R D Q (next w) (next' w')) :
      GoAlike P R D Q (.step change next) (.step change' next')

namespace GoAlike

variable {task task' : Steps s α}

lemma pure {a a' : α} (h : Q a a') : GoAlike P R D Q (Pure.pure a) (Pure.pure a') := .done h

lemma once {act act' : s → α × s}
    (h : ∀ w w', R w w' → R (act w).2 (act' w').2 ∧ Q (act w).1 (act' w').1) :
    GoAlike P R D Q (Steps.once act) (Steps.once act') :=
  .step (fun w w' hw => (h w w' hw).1) fun w w' hw => .done (h w w' hw).2

lemma bind {Q' : β → β → Prop} {next next' : α → Steps s β} (h : GoAlike P R D Q task task')
    (hnext : ∀ a a', Q a a' → GoAlike P R D Q' (next a) (next' a')) :
    GoAlike P R D Q' (task >>= next) (task' >>= next') := by
  induction h with
  | apart hbrings => exact .apart (hbrings.bind_first next)
  | done ha => exact hnext _ _ ha
  | step hchange _ ih => exact .step hchange ih

/-- Tasks on a part of the state go alike if they do so on the part. -/
lemma onPart {P' D' : t → Prop} {R' : t → t → Prop} {part : s → t} {put : t → s → s}
    {task task' : Steps t α} (hP : ∀ w, P w → P' (part w)) (hD : ∀ w x, D' x → D (put x w))
    (hto : ∀ w w', R w w' → R' (part w) (part w'))
    (hfrom : ∀ w w' x x', R w w' → R' x x' → R (put x w) (put x' w'))
    (h : GoAlike P' R' D' Q task task') :
    GoAlike P R D Q (task.onPart part put) (task'.onPart part put) := by
  induction h with
  | apart hbrings => exact .apart (hbrings.onPart hP hD)
  | done ha => exact .done ha
  | step hchange _ ih =>
    exact .step (fun w w' hw => hfrom w w' _ _ hw (hchange _ _ (hto w w' hw)))
      fun w w' hw => ih _ _ (hto w w' hw)

/-- A task goes as it goes itself. -/
lemma refl {A : s → s → Prop} (hR : ∀ w w', R w w' → w' = w) (hA : ∀ w w', A w w' → R w w → R w' w')
    (hQ : ∀ a, Q a a) (h : task.Always A fun _ => True) : task.GoAlike P R D Q task := by
  induction task with
  | done a => exact .done (hQ a)
  | step change next ih =>
    refine .step (fun w w' hw => ?_) fun w w' hw => ?_
    · obtain rfl := hR w w' hw
      exact hA _ _ (h w').1 hw
    · obtain rfl := hR w w' hw
      exact ih w' (h w').2

/-- In a row, tasks that go alike end alike unless the first one has brought `D` about. -/
lemma run {A : s → s → Prop} (hA : ∀ w w', A w w' → (P w → P w') ∧ (D w → D w'))
    (hR : ∀ w w', R w w' → P w) (h : GoAlike P R D Q task task')
    (hall : task.Always A fun _ => True) {w w' : s} (hw : R w w') :
    D (task.run w).2 ∨ R (task.run w).2 (task'.run w').2 ∧ Q (task.run w).1 (task'.run w').1 := by
  induction h generalizing w w' with
  | @apart task task' hbrings =>
    left
    exact of_brings hA [] (List.forall_mem_singleton.mpr hall)
      (Or.inr ⟨hR w w' hw, 0, task, rfl, hbrings⟩)
  | done ha => exact Or.inr ⟨hw, ha⟩
  | step hchange _ ih => exact ih w w' hw (hall w).2 (hchange w w' hw)

end GoAlike

section Pairs

variable {A : s → s → Prop} {pairs : List (Steps s α × Steps s α)} {w w' : s}

/-- Tasks that go alike end alike when they are done one after another. -/
lemma runAll_goAlike (hA : ∀ w w', A w w' → (P w → P w') ∧ (D w → D w'))
    (hR : ∀ w w', R w w' → P w)
    (h : ∀ pair ∈ pairs, pair.1.GoAlike P R D Q pair.2 ∧ pair.1.Always A fun _ => True)
    (hw : R w w') :
    D (runAll (pairs.map Prod.fst) w).2 ∨
      R (runAll (pairs.map Prod.fst) w).2 (runAll (pairs.map Prod.snd) w').2 ∧
        List.Forall₂ Q (runAll (pairs.map Prod.fst) w).1 (runAll (pairs.map Prod.snd) w').1 := by
  induction pairs generalizing w w' with
  | nil => exact Or.inr ⟨hw, .nil⟩
  | cons pair pairs ih =>
    obtain ⟨⟨hpair, hfirst⟩, hrest⟩ := List.forall_mem_cons.mp h
    rcases hpair.run hA hR hfirst hw with hdone | ⟨hnext, hresult⟩
    · have hend : D (together [] (pairs.map Prod.fst) (pair.1.run w).2).2 :=
        of_brings hA [] (List.forall_mem_map.mpr fun other hother => (hrest other hother).2)
          (Or.inl hdone)
      exact Or.inl hend
    · exact (ih hrest hnext).imp_right fun ⟨hlast, hresults⟩ => ⟨hlast, .cons hresult hresults⟩

/-- Tasks that go alike and take their steps in the same turns end alike, unless one of the first
list has brought `D` about. -/
theorem together_goAlike (hA : ∀ w w', A w w' → (P w → P w') ∧ (D w → D w'))
    (hR : ∀ w w', R w w' → P w) (turns : List Nat)
    (h : ∀ pair ∈ pairs, pair.1.GoAlike P R D Q pair.2 ∧ pair.1.Always A fun _ => True)
    (hw : R w w') :
    D (together turns (pairs.map Prod.fst) w).2 ∨
      R (together turns (pairs.map Prod.fst) w).2 (together turns (pairs.map Prod.snd) w').2 ∧
        List.Forall₂ Q (together turns (pairs.map Prod.fst) w).1
          (together turns (pairs.map Prod.snd) w').1 := by
  induction turns generalizing pairs w w' with
  | nil => exact runAll_goAlike hA hR h hw
  | cons i turns ih =>
    cases hi : pairs[i]? with
    | none =>
      simp only [together, List.getElem?_map, hi, Option.map_none]
      exact ih h hw
    | some pair =>
      -- the pair that takes a step still goes alike afterwards, and the others wait
      have hmoved : ∀ now : Steps s α × Steps s α,
          now.1.GoAlike P R D Q now.2 ∧ now.1.Always A (fun _ => True) →
          ∀ pair ∈ pairs.set i now, pair.1.GoAlike P R D Q pair.2 ∧
            pair.1.Always A fun _ => True := by
        intro now hnow other hother
        rcases List.mem_or_eq_of_mem_set hother with hother | rfl
        · exact h other hother
        · exact hnow
      obtain ⟨hpair, hfirst⟩ := h pair (List.mem_of_getElem? hi)
      obtain ⟨task, task'⟩ := pair
      cases hpair with
      | apart hbrings =>
        left
        exact of_brings hA (i :: turns)
          (List.forall_mem_map.mpr fun other hother => (h other hother).2)
          (Or.inr ⟨hR w w' hw, i, task, by rw [List.getElem?_map, hi]; rfl, hbrings⟩)
      | @done a a' ha =>
        have hnow := ih (hmoved (.done a, .done a') ⟨.done ha, trivial⟩) hw
        rw [List.map_set, List.map_set] at hnow
        simp only [together, List.getElem?_map, hi, Option.map_some, first]
        exact hnow
      | @step change change' next next' hchange hnext =>
        have hnow := ih (hmoved (next w, next' w') ⟨hnext w w' hw, (hfirst w).2⟩) (hchange w w' hw)
        rw [List.map_set, List.map_set] at hnow
        simp only [together, List.getElem?_map, hi, Option.map_some, first]
        exact hnow

end Pairs

end Steps

end Bundler
