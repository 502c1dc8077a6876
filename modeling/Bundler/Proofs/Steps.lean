import Mathlib.Logic.Relation
import Mathlib.Order.Defs.Unbundled
import Mathlib.Tactic.Lemma
import Bundler.Dual

/-!
# Laws of work in steps

What a task does in a row, and what holds of tasks that take their steps in turns, whatever the
turns are.

`task.Always P Q` says that each step changes the state as `P` allows and that the result satisfies
`Q`, whatever states the task finds. `task.Ensures R Q w` says of a task that begins at `w` that it
changes the state as `R` allows and ends as `Q` says, as long as others change the state as `R`
allows, too. Tasks of which each one does so do so together.

The lists of turns reach exactly the ends that the tasks reach in any order of their steps. Work that
is called from inside a running loop and from outside of one comes to the same.
-/

namespace Bundler.Steps

variable {s t α β : Type} {w : s}

/-! ### In a row -/

@[simp] lemma run_done (a : α) (w : s) : (done a).run w = (a, w) := rfl

@[simp] lemma run_once (act : s → α × s) (w : s) : (once act).run w = act w := rfl

/-- The second task begins where the first one ends. -/
@[simp] lemma run_bind (task : Steps s α) (next : α → Steps s β) (w : s) :
    (task >>= next).run w = (next (task.run w).1).run (task.run w).2 := by
  induction task generalizing w with
  | done a => rfl
  | step change rest ih => exact ih w (change w)

/-- The steps on a part of the state are taken on that part. -/
lemma run_onPart {part : s → t} {put : t → s → s} (hput : ∀ x w, part (put x w) = x)
    (hputput : ∀ x y w, put y (put x w) = put y w) (hself : ∀ w, put (part w) w = w)
    (task : Steps t α) (w : s) :
    (task.onPart part put).run w
      = ((task.run (part w)).1, put (task.run (part w)).2 w) := by
  induction task generalizing w with
  | done a => simp [onPart, hself]
  | step change next ih =>
    have hrest := ih (part w) (put (change (part w)) w)
    rw [hput, hputput] at hrest
    exact hrest

/-! ### In turns -/

variable {tasks : List (Steps s α)}

/-- What every step keeps is kept when a task is done in a row. -/
lemma run_induction {I : List (Steps s α) → s → Prop}
    (hstep : ∀ tasks w i task, I tasks w → tasks[i]? = some task →
      I (tasks.set i (task.first w).1) (task.first w).2)
    (before after : List (Steps s α)) (task : Steps s α) (w : s)
    (h : I (before ++ task :: after) w) :
    I (before ++ done (task.run w).1 :: after) (task.run w).2 := by
  induction task generalizing w with
  | done a => exact h
  | step change next ih =>
    have hnext := hstep _ w before.length (step change next) h (by simp)
    rw [List.set_append_right _ _ (Nat.le_refl _), Nat.sub_self, List.set_cons_zero] at hnext
    exact ih w (change w) hnext

/-- So it is when all tasks are done one after another. -/
lemma runAll_induction {I : List (Steps s α) → s → Prop}
    (hstep : ∀ tasks w i task, I tasks w → tasks[i]? = some task →
      I (tasks.set i (task.first w).1) (task.first w).2)
    (before tasks : List (Steps s α)) (w : s) (h : I (before ++ tasks) w) :
    I (before ++ (runAll tasks w).1.map done) (runAll tasks w).2 := by
  induction tasks generalizing before w with
  | nil => exact h
  | cons task tasks ih =>
    have hfirst := run_induction hstep before tasks task w h
    rw [List.append_cons] at hfirst
    have hrest := ih (before ++ [done (task.run w).1]) (task.run w).2 hfirst
    rw [List.append_assoc, List.singleton_append] at hrest
    exact hrest

/-- What holds at first and is kept by every step holds in the end, in whatever turns the steps are
taken. -/
theorem together_induction {I : List (Steps s α) → s → Prop}
    (hstep : ∀ tasks w i task, I tasks w → tasks[i]? = some task →
      I (tasks.set i (task.first w).1) (task.first w).2)
    (turns : List Nat) (tasks : List (Steps s α)) (w : s) (h : I tasks w) :
    I ((together turns tasks w).1.map done) (together turns tasks w).2 := by
  induction turns generalizing tasks w with
  | nil => exact runAll_induction hstep [] tasks w h
  | cons i turns ih =>
    unfold together
    split
    · exact ih tasks w h
    · next task htask => exact ih _ _ (hstep tasks w i task h htask)

/-- Every task has a result. -/
@[simp] lemma length_together (turns : List Nat) (tasks : List (Steps s α)) (w : s) :
    (together turns tasks w).1.length = tasks.length := by
  have hlength := together_induction (I := fun now _ => now.length = tasks.length)
    (fun now w i task h _ => by rw [List.length_set, h]) turns tasks w rfl
  rwa [List.length_map] at hlength

/-- One of the tasks takes a step while the others wait. -/
inductive Moves : List (Steps s α) × s → List (Steps s α) × s → Prop where
  | step {tasks : List (Steps s α)} {i : Nat} {task : Steps s α} (h : tasks[i]? = some task) (w : s) :
      Moves (tasks, w) (tasks.set i (task.first w).1, (task.first w).2)

lemma runAll_done (as : List α) (w : s) : runAll (as.map done) w = (as, w) := by
  induction as with
  | nil => rfl
  | cons a as ih => simp [runAll, ih]

/-- Lists of turns lead just where tasks can come that take their steps in any order. -/
theorem exists_together_eq_iff {as : List α} {w' : s} :
    (∃ turns, together turns tasks w = (as, w')) ↔
      Relation.ReflTransGen Moves (tasks, w) (as.map done, w') := by
  constructor
  · rintro ⟨turns, h⟩
    have hend := together_induction
      (I := fun now w' => Relation.ReflTransGen Moves (tasks, w) (now, w'))
      (fun now w' i task hnow htask => hnow.tail (.step htask w')) turns tasks w .refl
    rwa [h] at hend
  · intro h
    generalize hfirst : (tasks, w) = first at h
    induction h using Relation.ReflTransGen.head_induction_on generalizing tasks w with
    | refl =>
      cases hfirst
      exact ⟨[], runAll_done as w'⟩
    | head hmove _ ih =>
      subst hfirst
      cases hmove with
      | @step _ i task htask =>
        obtain ⟨turns, hturns⟩ := ih rfl
        exact ⟨i :: turns, by rw [together, htask]; exact hturns⟩

/-- Where a step is taken one task has moved on, and the others are as they were. -/
lemma getElem?_set_eq_some {i k : Nat} {task task' moved : Steps s α} (h : tasks[i]? = some task)
    (h' : (tasks.set i moved)[k]? = some task') :
    k = i ∧ task' = moved ∨ k ≠ i ∧ tasks[k]? = some task' := by
  have hlt := (List.getElem?_eq_some_iff.mp h).1
  by_cases heq : k = i
  · subst heq
    rw [List.getElem?_set_self hlt] at h'
    exact Or.inl ⟨rfl, (Option.some.inj h').symm⟩
  · rw [List.getElem?_set_ne (Ne.symm heq)] at h'
    exact Or.inr ⟨heq, h'⟩

/-! ### Whatever others do -/

/-- Each step changes the state as `P` allows, and the result satisfies `Q`. -/
def Always (P : s → s → Prop) (Q : α → Prop) : Steps s α → Prop
  | done a => Q a
  | step change next => ∀ w, P w (change w) ∧ (next w).Always P Q

namespace Always

variable {P : s → s → Prop} {Q : α → Prop} {task : Steps s α}

lemma pure {a : α} (h : Q a) : (Pure.pure a : Steps s α).Always P Q := h

lemma once {act : s → α × s} (h : ∀ w, P w (act w).2 ∧ Q (act w).1) :
    (Steps.once act).Always P Q := h

lemma of_true (task : Steps s α) : task.Always (fun _ _ => True) fun _ => True := by
  induction task with
  | done a => trivial
  | step change next ih => exact fun w => ⟨trivial, ih w⟩

lemma mono {P' : s → s → Prop} (h : task.Always P Q) (hP : ∀ w w', P w w' → P' w w') :
    task.Always P' Q := by
  induction task with
  | done a => exact h
  | step change next ih => exact fun w => ⟨hP _ _ (h w).1, ih w (h w).2⟩

lemma imp {Q' : α → Prop} (h : task.Always P Q) (hQ : ∀ a, Q a → Q' a) : task.Always P Q' := by
  induction task with
  | done a => exact hQ a h
  | step change next ih => exact fun w => ⟨(h w).1, ih w (h w).2⟩

lemma bind {Q' : β → Prop} {next : α → Steps s β} (h : task.Always P Q)
    (hnext : ∀ a, Q a → (next a).Always P Q') : (task >>= next).Always P Q' := by
  induction task with
  | done a => exact hnext a h
  | step change rest ih => exact fun w => ⟨(h w).1, ih w (h w).2⟩

lemma onPart {P' : t → t → Prop} {part : s → t} {put : t → s → s} {task : Steps t α}
    (hput : ∀ w x, P' (part w) x → P w (put x w)) (h : task.Always P' Q) :
    (task.onPart part put).Always P Q := by
  induction task with
  | done a => exact h
  | step change next ih => exact fun w => ⟨hput w _ (h (part w)).1, ih (part w) (h (part w)).2⟩

end Always

/-- Tasks whose steps change the state in some way change it so together. -/
theorem together_always {P : s → s → Prop} [IsPreorder s P] {Q : Nat → α → Prop} (turns : List Nat)
    (h : ∀ (k : Nat) (task : Steps s α), tasks[k]? = some task → task.Always P (Q k)) :
    P w (together turns tasks w).2 ∧ ∀ k a, (together turns tasks w).1[k]? = some a → Q k a := by
  have hend := together_induction
    (I := fun now w' => P w w' ∧
      ∀ (k : Nat) (task : Steps s α), now[k]? = some task → task.Always P (Q k))
    ?_ turns tasks w ⟨refl_of P w, h⟩
  · exact ⟨hend.1, fun k a ha => hend.2 k (done a) (by rw [List.getElem?_map, ha]; rfl)⟩
  · rintro now w' i task ⟨hnow, hall⟩ htask
    have hmoved : P w' (task.first w').2 ∧ (task.first w').1.Always P (Q i) := by
      have hown := hall i task htask
      cases task with
      | done a => exact ⟨refl_of P w', hown⟩
      | step change next => exact hown w'
    refine ⟨trans_of P hnow hmoved.1, fun k task' htask' => ?_⟩
    rcases getElem?_set_eq_some htask htask' with ⟨rfl, rfl⟩ | ⟨-, hother⟩
    · exact hmoved.2
    · exact hall k task' hother

/-! ### Beside others -/

/-- As long as others change the state as `R` allows, so does the task, and it ends as `Q` says. -/
def Ensures (R : s → s → Prop) (Q : α → s → Prop) : Steps s α → s → Prop
  | done a, w => ∀ w', R w w' → Q a w'
  | step change next, w =>
    ∀ w', R w w' → R w' (change w') ∧ (next w').Ensures R Q (change w')

namespace Ensures

variable {R : s → s → Prop} {Q : α → s → Prop} {P : β → s → Prop} {task : Steps s α}

lemma pure {a : α} (h : ∀ w', R w w' → Q a w') : (Pure.pure a : Steps s α).Ensures R Q w := h

lemma once {act : s → α × s}
    (h : ∀ w', R w w' → R w' (act w').2 ∧ ∀ w'', R (act w').2 w'' → Q (act w').1 w'') :
    (Steps.once act).Ensures R Q w := h

section Preorder

variable [IsPreorder s R]

lemma mono {Q' : α → s → Prop} (h : task.Ensures R Q w)
    (hQ : ∀ a w', R w w' → Q a w' → Q' a w') : task.Ensures R Q' w := by
  induction task generalizing w with
  | done a => exact fun w' hw' => hQ a w' hw' (h w' hw')
  | step change next ih =>
    intro w' hw'
    obtain ⟨hchange, hrest⟩ := h w' hw'
    exact ⟨hchange, ih w' hrest fun a w'' hw'' =>
      hQ a w'' (trans_of R (trans_of R hw' hchange) hw'')⟩

/-- What others have done in the meantime makes no difference. -/
lemma of_rel (h : task.Ensures R Q w) {w' : s} (hw : R w w') : task.Ensures R Q w' := by
  cases task with
  | done a => exact fun w'' hw' => h w'' (trans_of R hw hw')
  | step change next => exact fun w'' hw' => h w'' (trans_of R hw hw')

/-- A task that goes on does so from a state in which the first part may end. -/
lemma bind {next : α → Steps s β} (h : task.Ensures R Q w)
    (hnext : ∀ a w', R w w' → Q a w' → (next a).Ensures R P w') :
    (task >>= next).Ensures R P w := by
  induction task generalizing w with
  | done a => exact hnext a w (refl_of R w) (h w (refl_of R w))
  | step change rest ih =>
    intro w' hw'
    obtain ⟨hchange, hrest⟩ := h w' hw'
    exact ⟨hchange, ih w' hrest fun a w'' hw'' =>
      hnext a w'' (trans_of R (trans_of R hw' hchange) hw'')⟩

end Preorder

/-- A task on a part of the state ensures what it ensures of the part. -/
lemma onPart {R' : t → t → Prop} {Q' : α → t → Prop} {part : s → t} {put : t → s → s}
    {task : Steps t α} [IsPreorder s R] (hput : ∀ x w, part (put x w) = x)
    (hto : ∀ w' w'', R w w' → R w' w'' → R' (part w') (part w''))
    (hfrom : ∀ w' x, R w w' → R' (part w') x → R w' (put x w'))
    (h : task.Ensures R' Q' (part w)) :
    (task.onPart part put).Ensures R (fun a w' => Q' a (part w')) w := by
  induction task generalizing w with
  | done a => exact fun w' hw' => h _ (hto w w' (refl_of R w) hw')
  | step change next ih =>
    intro w' hw'
    obtain ⟨hchange, hrest⟩ := h _ (hto w w' (refl_of R w) hw')
    have hstep := hfrom w' _ hw' hchange
    have hlater : ∀ w'', R (put (change (part w')) w') w'' → R w w'' := fun w'' hw'' =>
      trans_of R (trans_of R hw' hstep) hw''
    refine ⟨hstep, ih (part w') (fun x y hx => hto x y (hlater x hx))
      (fun x y hx => hfrom x y (hlater x hx)) ?_⟩
    rwa [hput]

end Ensures

/-- Tasks that each ensure something of their result ensure it together, in whatever turns they take
their steps. -/
theorem together_ensures {R : s → s → Prop} [IsPreorder s R] {Q : Nat → α → s → Prop}
    (turns : List Nat)
    (h : ∀ (k : Nat) (task : Steps s α), tasks[k]? = some task → task.Ensures R (Q k) w) :
    R w (together turns tasks w).2 ∧
      ∀ k a, (together turns tasks w).1[k]? = some a → Q k a (together turns tasks w).2 := by
  have hend := together_induction
    (I := fun now w' => R w w' ∧
      ∀ (k : Nat) (task : Steps s α), now[k]? = some task → task.Ensures R (Q k) w')
    ?_ turns tasks w ⟨refl_of R w, h⟩
  · obtain ⟨hlast, hall⟩ := hend
    refine ⟨hlast, fun k a ha => ?_⟩
    exact hall k (done a) (by rw [List.getElem?_map, ha]; rfl) _ (refl_of R _)
  · rintro now w' i task ⟨hnow, hall⟩ htask
    have hmoved : R w' (task.first w').2 ∧ (task.first w').1.Ensures R (Q i) (task.first w').2 := by
      have hown := hall i task htask
      cases task with
      | done a => exact ⟨refl_of R w', hown⟩
      | step change next => exact hown w' (refl_of R w')
    refine ⟨trans_of R hnow hmoved.1, fun k task' htask' => ?_⟩
    rcases getElem?_set_eq_some htask htask' with ⟨rfl, rfl⟩ | ⟨-, hother⟩
    · exact hmoved.2
    · exact (hall k task' hother).of_rel hmoved.1

/-! ### In two contexts -/

/-- Work gives the same in both contexts once a caller in a loop has waited for it, and until then
nothing of it is done. -/
theorem dual_work {γ : Type} {of : γ → Steps s α} {call : CallContext → γ → s → Called s α × s}
    (h : dual (.work of) = .ok call) (args : γ) (w : s) :
    (∀ context, (call context args w).1.wait (call context args w).2 = (of args).run w) ∧
      (call .outside args w).1.isAwaitable = false ∧
      (call .inLoop args w).1.isAwaitable = true ∧ (call .inLoop args w).2 = w := by
  cases h
  refine ⟨fun context => ?_, rfl, rfl, rfl⟩
  cases context <;> rfl

end Bundler.Steps
