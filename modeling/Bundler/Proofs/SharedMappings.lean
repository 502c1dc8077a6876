import Bundler.Config.Load
import Bundler.Proofs.Overlays
import Mathlib.Data.List.Forall2

/-!
# Mappings in several places

A mapping that an alias names stands in several places. An overlay is merged into the cells of a
graph, so it changes such a mapping in all of its places. Where each mapping that is merged into
stands in one place only, the result is that of laying the values over one another.
-/

namespace Bundler

open Mapping

/-- The results for a list, if each element has one. -/
lemma mapM_eq_some_iff {α β : Type} {f : α → Option β} {as : List α} {bs : List β} :
    as.mapM f = some bs ↔ List.Forall₂ (fun a b => f a = some b) as bs := by
  induction as generalizing bs with
  | nil => simp [List.forall₂_nil_left_iff, eq_comm]
  | cons a as ih =>
    rw [List.mapM_cons, List.forall₂_cons_left_iff]
    cases hfirst : f a with
    | none => simp
    | some b =>
      cases hrest : as.mapM f with
      | none => simp [← ih, hrest]
      | some rest => simp [← ih, hrest, eq_comm]

namespace Graph

variable {g g' h : Graph} {bound depth depth' fuel n : Nat} {item item' : Item}
  {entries top : List (Scalar × Item)} {m b o : Mapping} {v w : Value} {key : Scalar}
  {changed : List Nat}

/-! ### Mappings in items -/

/-- The mappings in an item by their numbers, each as often as it stands there, down to a depth. -/
def mappingsIn (g : Graph) : (depth : Nat) → Item → List Nat
  | _, .scalar _ => []
  | 0, _ => []
  | depth + 1, .pair first second => g.mappingsIn depth first ++ g.mappingsIn depth second
  | depth + 1, .cell n =>
    match g.cells[n]? with
    | some (.list items) => items.flatMap (g.mappingsIn depth)
    | some (.mapping entries) => n :: entries.flatMap fun e => g.mappingsIn depth e.2
    | _ => []

/-- The mappings in an item by their numbers into which a value is merged that is laid over it. -/
def metBy (g : Graph) : (depth : Nat) → Item → Value → List Nat
  | depth + 1, .cell n, .mapping o =>
    match g.cells[n]? with
    | some (.mapping entries) =>
      n :: o.flatMap fun x => (get? entries x.1).elim [] fun item => g.metBy depth item x.2
    | _ => []
  | _, _, _ => []

/-- The mappings in the items of some entries. -/
def mappingsAmong (g : Graph) (depth : Nat) (entries : List (Scalar × Item)) : List Nat :=
  entries.flatMap fun e => g.mappingsIn depth e.2

/-- The mappings in the item of a key into which an entry with this key is merged. -/
def metAt (g : Graph) (depth : Nat) (entries : List (Scalar × Item)) (x : Scalar × Value) :
    List Nat :=
  (get? entries x.1).elim [] fun item => g.metBy depth item x.2

/-- The items of some entries have the values of a mapping. -/
def Holds (g : Graph) (depth : Nat) (entries : List (Scalar × Item)) (m : Mapping) : Prop :=
  List.Forall₂ (fun e x => x.1 = e.1 ∧ g.value? depth e.2 = some x.2) entries m

lemma mappingsIn_mapping (hn : g.cells[n]? = some (.mapping entries)) :
    g.mappingsIn (depth + 1) (.cell n) = n :: g.mappingsAmong depth entries := by
  rw [mappingsIn, hn]
  rfl

lemma metBy_mapping (hn : g.cells[n]? = some (.mapping entries)) (o : Mapping) :
    g.metBy (depth + 1) (.cell n) (.mapping o) = n :: o.flatMap (g.metAt depth entries) := by
  rw [metBy, hn]
  rfl

lemma value?_mapping_iff (hn : g.cells[n]? = some (.mapping entries)) :
    g.value? (depth + 1) (.cell n) = some v ↔ ∃ m, g.Holds depth entries m ∧ v = .mapping m := by
  have hvalue : ∀ (e : Scalar × Item) (x : Scalar × Value),
      (g.value? depth e.2).map (fun v => (e.1, v)) = some x ↔
        x.1 = e.1 ∧ g.value? depth e.2 = some x.2 := by
    intro e x
    rw [Option.map_eq_some_iff]
    constructor
    · rintro ⟨v, hv, rfl⟩
      exact ⟨rfl, hv⟩
    · rintro ⟨hkey, hv⟩
      exact ⟨x.2, hv, by rw [← hkey]⟩
  rw [value?, hn]
  simp only [Option.map_eq_some_iff, mapM_eq_some_iff, hvalue, eq_comm (b := v)]
  rfl

lemma mem_of_get? (hget : get? entries key = some item) :
    ∃ e ∈ entries, e.1.same key = true ∧ e.2 = item := by
  obtain ⟨e, he, rfl⟩ := Option.map_eq_some_iff.mp hget
  have hsame := List.find?_some he
  exact ⟨e, List.mem_of_find?_eq_some he, hsame, rfl⟩

lemma get?_cons (e : Scalar × Item) (entries : List (Scalar × Item)) (key : Scalar) :
    get? (e :: entries) key = if e.1.same key then some e.2 else get? entries key := by
  by_cases h : e.1.same key = true <;> simp [get?, h]

lemma mem_metAt {c : Nat} {x : Scalar × Value} : c ∈ g.metAt depth entries x ↔
    ∃ item, get? entries x.1 = some item ∧ c ∈ g.metBy depth item x.2 := by
  unfold metAt
  cases get? entries x.1 <;> simp

/-- What is merged into a mapping is merged into itself and into the items of its keys. -/
lemma mem_metBy {c : Nat} (hc : c ∈ g.metBy (depth + 1) item v) : ∃ n o entries,
    item = .cell n ∧ v = .mapping o ∧ g.cells[n]? = some (.mapping entries) ∧
      (c = n ∨ ∃ x ∈ o, c ∈ g.metAt depth entries x) := by
  cases item with
  | cell n =>
    cases v with
    | mapping o =>
      unfold metBy at hc
      split at hc
      · next entries hn =>
        refine ⟨n, o, entries, rfl, rfl, hn, ?_⟩
        exact (List.mem_cons.mp hc).imp_right List.mem_flatMap.mp
      · cases hc
    | _ => simp [metBy] at hc
  | _ => simp [metBy] at hc

lemma metBy_subset (g : Graph) (depth : Nat) (item : Item) (v : Value) :
    g.metBy depth item v ⊆ g.mappingsIn depth item := by
  induction depth generalizing item v with
  | zero => cases item <;> simp [metBy]
  | succ depth ih =>
    intro c hc
    obtain ⟨n, o, entries, rfl, rfl, hn, hc⟩ := mem_metBy hc
    rw [mappingsIn_mapping hn]
    rcases hc with rfl | ⟨x, -, hx⟩
    · exact List.mem_cons_self
    · obtain ⟨item, hget, hc⟩ := mem_metAt.mp hx
      obtain ⟨e, he, -, rfl⟩ := mem_of_get? hget
      exact List.mem_cons_of_mem _ (List.mem_flatMap.mpr ⟨e, he, ih _ _ hc⟩)

lemma exists_mapping_of_mem_metBy {c : Nat} (hc : c ∈ g.metBy depth item v) :
    ∃ entries, g.cells[c]? = some (.mapping entries) := by
  induction depth generalizing item v with
  | zero => cases item <;> simp [metBy] at hc
  | succ depth ih =>
    obtain ⟨n, o, entries, rfl, rfl, hn, hc⟩ := mem_metBy hc
    rcases hc with rfl | ⟨x, -, hx⟩
    · exact ⟨entries, hn⟩
    · obtain ⟨item, -, hc⟩ := mem_metAt.mp hx
      exact ih hc

/-! ### Parts of graphs that stay as they are -/

/-- The cells of a graph that are not changed stand in another one. -/
def Agrees (g g' : Graph) (changed : List Nat) : Prop :=
  ∀ n cell, n ∉ changed → g.cells[n]? = some cell → g'.cells[n]? = some cell

/-- An item has a value in a graph, and in another one the same value with the same mappings in
it. -/
def Stays (g g' : Graph) (depth depth' : Nat) (item : Item) (v : Value) : Prop :=
  (g'.mappingsIn depth' item = g.mappingsIn depth item ∧
    ∀ w, g'.metBy depth' item w = g.metBy depth item w) ∧ g'.value? depth' item = some v

lemma stays_entries (hm : g.Holds depth entries m)
    (h : ∀ e ∈ entries, ∀ v, g.value? depth e.2 = some v → g.Stays g' depth depth' e.2 v) :
    (g'.mappingsAmong depth' entries = g.mappingsAmong depth entries ∧
      ∀ x, g'.metAt depth' entries x = g.metAt depth entries x) ∧ g'.Holds depth' entries m := by
  have hboth : List.Forall₂ (fun e x => (g'.mappingsIn depth' e.2 = g.mappingsIn depth e.2 ∧
      ∀ w, g'.metBy depth' e.2 w = g.metBy depth e.2 w) ∧
        x.1 = e.1 ∧ g'.value? depth' e.2 = some x.2) entries m := by
    refine ((List.forall₂_and_left _ _).mpr ⟨h, hm⟩).imp ?_
    rintro e x ⟨hstays, hkey, hv⟩
    exact ⟨(hstays x.2 hv).1, hkey, (hstays x.2 hv).2⟩
  obtain ⟨hsame, hholds⟩ := (List.forall₂_and_left _ _).mp hboth
  refine ⟨⟨List.flatMap_congr fun e he => (hsame e he).1, ?_⟩, hholds⟩
  intro x
  unfold metAt
  cases hget : get? entries x.1 with
  | none => rfl
  | some item =>
    obtain ⟨e, he, -, rfl⟩ := mem_of_get? hget
    exact (hsame e he).2 x.2

/-- If only mappings are changed, the other cells stay. -/
lemma Agrees.cells_of_ne {cell : Cell} (hsame : g.Agrees g' changed)
    (hchanged : ∀ n ∈ changed, ∃ entries, g.cells[n]? = some (.mapping entries))
    (hn : g.cells[n]? = some cell) (hne : ∀ entries, cell ≠ .mapping entries) :
    g'.cells[n]? = some cell := by
  refine hsame n cell (fun hmem => ?_) hn
  obtain ⟨entries, hentries⟩ := hchanged n hmem
  exact hne entries (Option.some.inj (hn.symm.trans hentries))

/-- What holds no changed mapping has the same value and the same mappings in it, also down to a
greater depth. -/
lemma Agrees.stays (hsame : g.Agrees g' changed)
    (hchanged : ∀ n ∈ changed, ∃ entries, g.cells[n]? = some (.mapping entries))
    (hdepth : depth ≤ depth') (hv : g.value? depth item = some v)
    (hout : ∀ n ∈ g.mappingsIn depth item, n ∉ changed) : g.Stays g' depth depth' item v := by
  induction depth generalizing item v depth' with
  | zero =>
    cases item with
    | scalar s => cases depth' <;> exact ⟨⟨rfl, fun _ => rfl⟩, hv⟩
    | pair _ _ => cases hv
    | cell _ => cases hv
  | succ depth ih =>
    obtain ⟨depth', rfl⟩ : ∃ d, depth' = d + 1 := ⟨depth' - 1, by omega⟩
    have hdepth : depth ≤ depth' := by omega
    cases item with
    | scalar s => exact ⟨⟨rfl, fun _ => rfl⟩, hv⟩
    | pair first second =>
      rw [mappingsIn, List.forall_mem_append] at hout
      rw [value?] at hv
      cases hfirst : g.value? depth first with
      | none => simp [hfirst] at hv
      | some v₁ =>
        cases hsecond : g.value? depth second with
        | none => simp [hfirst, hsecond] at hv
        | some v₂ =>
          obtain ⟨⟨hmappings₁, -⟩, hv₁⟩ := ih hdepth hfirst hout.1
          obtain ⟨⟨hmappings₂, -⟩, hv₂⟩ := ih hdepth hsecond hout.2
          refine ⟨⟨?_, fun _ => rfl⟩, ?_⟩
          · rw [mappingsIn, mappingsIn, hmappings₁, hmappings₂]
          · rw [value?, hv₁, hv₂, ← hv, hfirst, hsecond]
    | cell n =>
      cases hn : g.cells[n]? with
      | none => simp [value?, hn] at hv
      | some cell =>
        cases cell with
        | list items =>
          have hn' := hsame.cells_of_ne hchanged hn nofun
          rw [mappingsIn, hn, List.forall_mem_flatMap] at hout
          rw [value?, hn, Option.map_eq_some_iff] at hv
          obtain ⟨vs, hvs, rfl⟩ := hv
          have hboth : List.Forall₂ (fun item v => g'.mappingsIn depth' item
              = g.mappingsIn depth item ∧ g'.value? depth' item = some v) items vs := by
            refine ((List.forall₂_and_left _ _).mpr ⟨hout, mapM_eq_some_iff.mp hvs⟩).imp ?_
            rintro item v ⟨hout, hv⟩
            exact ⟨(ih hdepth hv hout).1.1, (ih hdepth hv hout).2⟩
          obtain ⟨hitems, hvs'⟩ := (List.forall₂_and_left _ _).mp hboth
          refine ⟨⟨?_, ?_⟩, ?_⟩
          · rw [mappingsIn, mappingsIn, hn, hn']
            exact List.flatMap_congr hitems
          · intro w
            cases w <;> simp [metBy, hn, hn']
          · rw [value?, hn']
            exact congrArg (Option.map Value.list) (mapM_eq_some_iff.mpr hvs')
        | set members =>
          have hn' := hsame.cells_of_ne hchanged hn nofun
          refine ⟨⟨?_, ?_⟩, ?_⟩
          · rw [mappingsIn, mappingsIn, hn, hn']
          · intro w
            cases w <;> simp [metBy, hn, hn']
          · rw [value?, hn', ← hv, value?, hn]
        | mapping entries =>
          rw [mappingsIn_mapping hn, List.forall_mem_cons] at hout
          have hn' := hsame n _ hout.1 hn
          obtain ⟨m, hm, rfl⟩ := (value?_mapping_iff hn).mp hv
          obtain ⟨⟨hmappings, hmet⟩, hholds⟩ := stays_entries hm fun e he v hv =>
            ih hdepth hv (List.forall_mem_flatMap.mp hout.2 e he)
          refine ⟨⟨?_, ?_⟩, (value?_mapping_iff hn').mpr ⟨m, hholds, rfl⟩⟩
          · rw [mappingsIn_mapping hn, mappingsIn_mapping hn', hmappings]
          · intro w
            cases w with
            | mapping o =>
              rw [metBy_mapping hn, metBy_mapping hn']
              exact congrArg (n :: ·) (List.flatMap_congr fun x _ => hmet x)
            | _ => simp [metBy]

lemma Agrees.stays_entries (hsame : g.Agrees g' changed)
    (hchanged : ∀ n ∈ changed, ∃ entries, g.cells[n]? = some (.mapping entries))
    (hm : g.Holds depth entries m) (hout : ∀ n ∈ g.mappingsAmong depth entries, n ∉ changed) :
    (g'.mappingsAmong depth entries = g.mappingsAmong depth entries ∧
      ∀ x, g'.metAt depth entries x = g.metAt depth entries x) ∧ g'.Holds depth entries m :=
  Graph.stays_entries hm fun e he _ hv =>
    hsame.stays hchanged (Nat.le_refl _) hv (List.forall_mem_flatMap.mp hout e he)

lemma Agrees.refl (g : Graph) (changed : List Nat) : g.Agrees g changed := fun _ _ _ h => h

lemma Agrees.mono (hsame : g.Agrees g' changed) {changed' : List Nat} (hsub : changed ⊆ changed') :
    g.Agrees g' changed' :=
  fun n cell hn hcell => hsame n cell (fun hmem => hn (hsub hmem)) hcell

lemma Agrees.trans (hsame : g.Agrees g' changed) (hsame' : g'.Agrees h changed) :
    g.Agrees h changed :=
  fun n cell hn hcell => hsame' n cell hn (hsame n cell hn hcell)

/-! ### Items of keys -/

lemma Holds.get? (hm : g.Holds depth entries m) (key : Scalar) :
    Graph.get? entries key = none ∧ Mapping.get? m key = none ∨
      ∃ item v, Graph.get? entries key = some item ∧ Mapping.get? m key = some v ∧
        g.value? depth item = some v := by
  induction hm with
  | nil => exact .inl ⟨rfl, rfl⟩
  | @cons e x _ _ hfirst _ ih =>
    obtain ⟨hkey, hv⟩ := hfirst
    rw [Graph.get?_cons, Mapping.get?_cons, hkey]
    by_cases hsame : e.1.same key = true
    · rw [if_pos hsame, if_pos hsame]
      exact .inr ⟨e.2, x.2, rfl, rfl, hv⟩
    · rwa [if_neg hsame, if_neg hsame]

lemma Holds.value_of_get? (hm : g.Holds depth entries m)
    (hget : Graph.get? entries key = some item) :
    ∃ v, Mapping.get? m key = some v ∧ g.value? depth item = some v := by
  rcases hm.get? key with ⟨hnone, -⟩ | ⟨item', v, hitem, hv⟩
  · cases hget.symm.trans hnone
  · cases hget.symm.trans hitem
    exact ⟨v, hv⟩

/-- Entering an item enters its value. -/
lemma Holds.insert (hm : g.Holds depth entries m) (key : Scalar)
    (hv : g.value? depth item = some v) :
    g.Holds depth (Graph.insert entries key item) (Mapping.insert m key v) := by
  induction hm with
  | nil => exact .cons ⟨rfl, hv⟩ .nil
  | @cons e x _ _ hfirst hrest ih =>
    rw [Graph.insert, Mapping.insert, hfirst.1]
    split
    · exact .cons ⟨rfl, hv⟩ hrest
    · exact .cons hfirst ih

lemma get?_insert_of_ne {key other : Scalar} (hne : key.same other = false) :
    get? (insert entries key item) other = get? entries other := by
  induction entries with
  | nil => simp [insert, hne, get?]
  | cons e entries ih =>
    rw [insert]
    split
    · next hsame =>
      have he : e.1.same other = false := by
        rw [Bool.eq_false_iff] at hne ⊢
        exact fun h => hne (Scalar.same_trans (Scalar.same_comm .. ▸ hsame) h)
      rw [Graph.get?_cons, Graph.get?_cons, he]
      rfl
    · rw [Graph.get?_cons, Graph.get?_cons, ih]

lemma count_insert_le (g : Graph) (depth : Nat) (entries : List (Scalar × Item)) (key : Scalar)
    {c : Nat} (hc : c ∉ g.mappingsIn depth item) :
    (g.mappingsAmong depth (insert entries key item)).count c
      ≤ (g.mappingsAmong depth entries).count c := by
  have hzero := List.count_eq_zero.mpr hc
  induction entries with
  | nil => simp [insert, mappingsAmong, hzero]
  | cons e entries ih =>
    rw [insert]
    simp only [mappingsAmong] at ih ⊢
    split
    · simp [hzero]
    · simpa using ih

lemma count_item_le (g : Graph) (depth : Nat) (hget : get? entries key = some item) (c : Nat) :
    (g.mappingsIn depth item).count c ≤ (g.mappingsAmong depth entries).count c := by
  obtain ⟨e, he, -, rfl⟩ := mem_of_get? hget
  obtain ⟨before, behind, rfl⟩ := List.append_of_mem he
  simp only [mappingsAmong, List.flatMap_append, List.flatMap_cons, List.count_append]
  omega

/-- A mapping that stands once among some entries stands in the item of one key at most. -/
lemma not_mem_of_ne {key other : Scalar} {c : Nat} (hne : key.same other = false)
    (hget : get? entries key = some item) (hget' : get? entries other = some item')
    (hc : c ∈ g.mappingsIn depth item) (honce : (g.mappingsAmong depth entries).count c ≤ 1) :
    c ∉ g.mappingsIn depth item' := by
  intro hc'
  induction entries with
  | nil => cases hget
  | cons e entries ih =>
    have hone := List.count_pos_iff.mpr hc
    have hone' := List.count_pos_iff.mpr hc'
    simp only [mappingsAmong, List.flatMap_cons, List.count_append] at honce ih
    rw [Graph.get?_cons] at hget hget'
    by_cases hsame : e.1.same key = true
    · have hother : ¬ e.1.same other = true := by
        intro h
        rw [Scalar.same_trans (Scalar.same_comm .. ▸ hsame) h] at hne
        cases hne
      rw [if_pos hsame, Option.some.injEq] at hget
      rw [if_neg hother] at hget'
      have hrest := count_item_le g depth hget' c
      subst hget
      simp only [mappingsAmong] at hrest
      omega
    · rw [if_neg hsame] at hget
      by_cases hother : e.1.same other = true
      · rw [if_pos hother, Option.some.injEq] at hget'
        have hrest := count_item_le g depth hget c
        subst hget'
        simp only [mappingsAmong] at hrest
        omega
      · rw [if_neg hother] at hget'
        exact ih hget hget' (by omega)

/-- Changes within the item of one key, where the changed mappings stand nowhere else, change the
value of this key. -/
lemma Holds.change (hm : g.Holds depth entries m) (hsame : g.Agrees g' changed)
    (hchanged : ∀ n ∈ changed, ∃ entries, g.cells[n]? = some (.mapping entries))
    (hget : Graph.get? entries key = some item) (hwithin : changed ⊆ g.mappingsIn depth item)
    (honce : ∀ c ∈ changed, (g.mappingsAmong depth entries).count c ≤ 1)
    (hv : g'.value? depth item = some v)
    (hcount : ∀ c < bound, (g'.mappingsIn depth item).count c ≤ (g.mappingsIn depth item).count c) :
    g'.Holds depth entries (Mapping.insert m key v) ∧ ∀ c < bound,
      (g'.mappingsAmong depth entries).count c ≤ (g.mappingsAmong depth entries).count c := by
  induction hm with
  | nil => cases hget
  | @cons e x entries m hfirst hrest ih =>
    simp only [mappingsAmong, List.flatMap_cons, List.count_append] at honce ih ⊢
    rw [Graph.get?_cons] at hget
    rw [Mapping.insert, hfirst.1]
    by_cases hkey : e.1.same key = true
    · rw [if_pos hkey, Option.some.injEq] at hget
      subst hget
      have hout : ∀ n ∈ g.mappingsAmong depth entries, n ∉ changed := by
        intro n hn hmem
        have hhere := List.count_pos_iff.mpr (hwithin hmem)
        have hthere := List.count_pos_iff.mpr hn
        have := honce n hmem
        simp only [mappingsAmong] at hthere
        omega
      obtain ⟨⟨hmappings, -⟩, hholds⟩ := hsame.stays_entries hchanged hrest hout
      rw [if_pos hkey]
      refine ⟨.cons ⟨rfl, hv⟩ hholds, fun c hc => ?_⟩
      simp only [mappingsAmong] at hmappings
      rw [hmappings]
      have := hcount c hc
      omega
    · rw [if_neg hkey] at hget ⊢
      have hout : ∀ n ∈ g.mappingsIn depth e.2, n ∉ changed := by
        intro n hn hmem
        have hhere := List.count_pos_iff.mpr (hwithin hmem)
        have hthere := count_item_le g depth hget n
        have hfirst := List.count_pos_iff.mpr hn
        have := honce n hmem
        simp only [mappingsAmong] at hthere
        omega
      obtain ⟨⟨hmappings, -⟩, hv'⟩ := hsame.stays hchanged (Nat.le_refl _) hfirst.2 hout
      obtain ⟨hholds, hless⟩ := ih hget fun c hc => by
        have := honce c hc
        omega
      refine ⟨.cons ⟨hfirst.1, hv'⟩ hholds, fun c hc => ?_⟩
      rw [hmappings]
      have := hless c hc
      omega

/-! ### Merging into cells -/

/-- The graph with other entries in a mapping. -/
def write (g : Graph) (n : Nat) (entries : List (Scalar × Item)) : Graph :=
  ⟨g.cells.set! n (.mapping entries)⟩

lemma cells_write (h : n < g.cells.size) (entries : List (Scalar × Item)) :
    (g.write n entries).cells[n]? = some (.mapping entries) := by
  simp [write, h]

lemma cells_write_of_ne {k : Nat} (hne : n ≠ k) (g : Graph) (entries : List (Scalar × Item)) :
    (g.write n entries).cells[k]? = g.cells[k]? := by
  simp [write, Array.getElem?_setIfInBounds_ne hne]

/-- The graph after one entry has been laid over a mapping. -/
def overlayEntry (fuel base : Nat) (g : Graph) (e : Scalar × Item) : Option Graph :=
  let entries := match g.cells[base]? with
    | some (.mapping entries) => entries
    | _ => []
  match (get? entries e.1).bind g.entries?, g.entries? e.2 with
  | some (n, _), some (_, top) => overlayAt fuel g n top
  | _, _ => some (g.write base (insert entries e.1 e.2))

lemma overlayAt_succ (fuel : Nat) (g : Graph) (base : Nat) (top : List (Scalar × Item)) :
    overlayAt (fuel + 1) g base top = top.foldlM (overlayEntry fuel base) g := rfl

lemma entries?_eq_some_iff :
    g.entries? item = some (n, entries) ↔
      item = .cell n ∧ g.cells[n]? = some (.mapping entries) := by
  unfold entries?
  split
  · next k =>
    split
    · next found hk =>
      simp only [Option.some.injEq, Prod.mk.injEq, Item.cell.injEq]
      constructor
      · rintro ⟨rfl, rfl⟩
        exact ⟨rfl, hk⟩
      · rintro ⟨rfl, hn⟩
        rw [hk] at hn
        cases hn
        exact ⟨rfl, rfl⟩
    · next hother =>
      constructor
      · nofun
      · rintro ⟨hk, hn⟩
        cases hk
        exact absurd hn (hother entries)
  · next hother =>
    constructor
    · nofun
    · rintro ⟨hk, -⟩
      exact absurd hk (hother n)

/-- A value is a mapping exactly if its item is one. -/
lemma isMapping_eq (hv : g.value? depth item = some v) :
    v.isMapping = (g.entries? item).isSome := by
  cases item with
  | scalar s =>
    cases depth <;> cases hv <;> rfl
  | pair first second =>
    cases depth with
    | zero => cases hv
    | succ depth =>
      rw [value?] at hv
      cases hfirst : g.value? depth first <;> cases hsecond : g.value? depth second <;>
        simp [hfirst, hsecond] at hv
      subst hv
      rfl
  | cell n =>
    cases depth with
    | zero => cases hv
    | succ depth =>
      cases hn : g.cells[n]? with
      | none => simp [value?, hn] at hv
      | some cell =>
        cases cell with
        | list items =>
          rw [value?, hn, Option.map_eq_some_iff] at hv
          obtain ⟨vs, -, rfl⟩ := hv
          simp [entries?, hn, Value.isMapping]
        | set members =>
          rw [value?, hn] at hv
          cases hv
          simp [entries?, hn, Value.isMapping]
        | mapping entries =>
          obtain ⟨m, -, rfl⟩ := (value?_mapping_iff hn).mp hv
          simp [entries?, hn, Value.isMapping]

/-- A mapping of a graph over which `o` can be laid in place: what is merged into has a number below
`bound` and stands in the mapping once. -/
structure Ready (g : Graph) (bound depth n : Nat) (entries : List (Scalar × Item))
    (m o : Mapping) : Prop where
  cell : g.cells[n]? = some (.mapping entries)
  holds : g.Holds depth entries m
  once : ∀ c ∈ g.metBy (depth + 1) (.cell n) (.mapping o),
    c < bound ∧ (g.mappingsIn (depth + 1) (.cell n)).count c ≤ 1

/-- Entries with the values of `o` whose mappings have numbers from `bound` on. -/
structure Above (g : Graph) (bound depth : Nat) (top : List (Scalar × Item)) (o : Mapping) :
    Prop where
  holds : g.Holds depth top o
  above : ∀ c ∈ g.mappingsAmong depth top, bound ≤ c

/-- A graph in which a mapping has become `m` by a change of some cells. -/
structure Laid (g g' : Graph) (bound depth n : Nat) (m : Mapping) (changed : List Nat) : Prop where
  agrees : g.Agrees g' changed
  size : g'.cells.size = g.cells.size
  holds : ∃ entries, g'.cells[n]? = some (.mapping entries) ∧ g'.Holds depth entries m
  count : ∀ c < bound, (g'.mappingsIn (depth + 1) (.cell n)).count c
    ≤ (g.mappingsIn (depth + 1) (.cell n)).count c

lemma Ready.not_mem (h : g.Ready bound depth n entries m o) :
    n < bound ∧ n ∉ g.mappingsAmong depth entries := by
  have hn := h.once n (by rw [metBy_mapping h.cell]; exact List.mem_cons_self)
  rw [mappingsIn_mapping h.cell, List.count_cons_self] at hn
  exact ⟨hn.1, List.count_eq_zero.mp (by omega)⟩

lemma Ready.once_of_mem {x : Scalar × Value} (h : g.Ready bound depth n entries m o) (hx : x ∈ o)
    {c : Nat} (hc : c ∈ g.metAt depth entries x) :
    c < bound ∧ (g.mappingsAmong depth entries).count c ≤ 1 := by
  have hcount := h.once c (by
    rw [metBy_mapping h.cell]
    exact List.mem_cons_of_mem _ (List.mem_flatMap.mpr ⟨x, hx, hc⟩))
  rw [mappingsIn_mapping h.cell, List.count_cons] at hcount
  exact ⟨hcount.1, by omega⟩

lemma metAt_subset (g : Graph) (depth : Nat) (entries : List (Scalar × Item)) (x : Scalar × Value) :
    g.metAt depth entries x ⊆ g.mappingsAmong depth entries := by
  intro c hc
  obtain ⟨item, hget, hc⟩ := mem_metAt.mp hc
  obtain ⟨e, he, -, rfl⟩ := mem_of_get? hget
  exact List.mem_flatMap.mpr ⟨e, he, metBy_subset _ _ _ _ hc⟩

/-- An entry is written whose key has no mapping or whose value is none. -/
lemma Ready.write {e : Scalar × Item} {x : Scalar × Value}
    (h : g.Ready bound depth n entries m o) (hkey : x.1 = e.1)
    (hv : g.value? depth e.2 = some x.2) (habove : ∀ c ∈ g.mappingsIn depth e.2, bound ≤ c) :
    g.Laid (g.write n (insert entries e.1 e.2)) bound depth n (Mapping.insert m x.1 x.2) [n] := by
  obtain ⟨hbound, hnot⟩ := h.not_mem
  have hcell := cells_write (Array.getElem?_eq_some_iff.mp h.cell).1 (insert entries e.1 e.2)
  have hagrees : g.Agrees (g.write n (insert entries e.1 e.2)) [n] := by
    intro k cell hk hcell
    have hne : n ≠ k := fun hnk => hk (by simp [hnk])
    rwa [cells_write_of_ne hne]
  have hless : ∀ c < bound, (g.mappingsAmong depth (insert entries e.1 e.2)).count c
      ≤ (g.mappingsAmong depth entries).count c := fun c hc =>
    count_insert_le g depth entries e.1 fun hmem => absurd (habove c hmem) (by omega)
  have hout : ∀ k ∈ g.mappingsAmong depth (insert entries e.1 e.2), k ∉ [n] := by
    intro k hk hkn
    rw [List.mem_singleton] at hkn
    subst hkn
    have := hless k hbound
    rw [List.count_eq_zero.mpr hnot] at this
    exact absurd (List.count_pos_iff.mpr hk) (by omega)
  have hchanged : ∀ k ∈ [n], ∃ entries, g.cells[k]? = some (.mapping entries) := by
    simpa using ⟨entries, h.cell⟩
  obtain ⟨⟨hmappings, -⟩, hholds⟩ :=
    hagrees.stays_entries hchanged (h.holds.insert e.1 hv) hout
  refine ⟨hagrees, by simp [Graph.write], ⟨_, hcell, ?_⟩, fun c hc => ?_⟩
  · rw [hkey]
    exact hholds
  · rw [mappingsIn_mapping hcell, mappingsIn_mapping h.cell, hmappings, List.count_cons,
      List.count_cons]
    have := hless c hc
    omega

/-- Entries whose values are found down to `depth` are laid in place as their values are. -/
def LaysInPlace (depth : Nat) : Prop :=
  ∀ {g : Graph} {fuel bound depth' n : Nat} {entries top : List (Scalar × Item)} {m o : Mapping},
    depth < fuel → depth ≤ depth' → g.Ready bound depth' n entries m o →
      g.Above bound depth top o → (Value.mapping o).isKeyed = true →
        ∃ g', overlayAt fuel g n top = some g' ∧
          g.Laid g' bound depth' n (m.overlay o) (g.metBy (depth' + 1) (.cell n) (.mapping o))

/-- A mapping is merged into the mapping of its key. -/
lemma Ready.merge {x : Scalar × Value} {k : Nat}
    {inner topEntries : List (Scalar × Item)} {m' o' : Mapping}
    (ih : LaysInPlace depth') (h : g.Ready bound (depth + 1) n entries m o) (hx : x ∈ o)
    (hfuel : depth' < fuel) (hdepth : depth' ≤ depth)
    (hget : Graph.get? entries x.1 = some (.cell k)) (hk : g.cells[k]? = some (.mapping inner))
    (hinner : g.Holds depth inner m') (ht : g.Above bound depth' topEntries o')
    (hvalue : x.2 = .mapping o') (hkeyed : x.2.isKeyed = true) :
    ∃ g', overlayAt fuel g k topEntries = some g' ∧ g'.cells[n]? = some (.mapping entries) ∧
      g.Laid g' bound (depth + 1) n (Mapping.insert m x.1 (.mapping (m'.overlay o')))
        (g.metAt (depth + 1) entries x) := by
  have hmet : g.metAt (depth + 1) entries x = g.metBy (depth + 1) (.cell k) (.mapping o') := by
    rw [metAt, hget, hvalue]
    rfl
  have hready : g.Ready bound depth k inner m' o' := by
    refine ⟨hk, hinner, fun c hc => ?_⟩
    rw [← hmet] at hc
    obtain ⟨hlow, honce⟩ := h.once_of_mem hx hc
    exact ⟨hlow, Nat.le_trans (count_item_le g _ hget c) honce⟩
  obtain ⟨g', hg', hlaid⟩ := ih hfuel hdepth hready ht (hvalue ▸ hkeyed)
  rw [← hmet] at hlaid
  have hcell : g'.cells[n]? = some (.mapping entries) :=
    hlaid.agrees n _ (fun hmem => h.not_mem.2 (metAt_subset g _ _ x hmem)) h.cell
  have hchanged : ∀ c ∈ g.metAt (depth + 1) entries x,
      ∃ entries, g.cells[c]? = some (.mapping entries) := by
    intro c hc
    rw [hmet] at hc
    exact exists_mapping_of_mem_metBy hc
  obtain ⟨inner', hinner', hholds'⟩ := hlaid.holds
  obtain ⟨hholds, hless⟩ := h.holds.change hlaid.agrees hchanged hget
    (hmet ▸ metBy_subset g _ _ _) (fun c hc => (h.once_of_mem hx hc).2)
    ((value?_mapping_iff hinner').mpr ⟨_, hholds', rfl⟩) hlaid.count
  refine ⟨g', hg', hcell, hlaid.agrees, hlaid.size, ⟨entries, hcell, hholds⟩, fun c hc => ?_⟩
  rw [mappingsIn_mapping hcell, mappingsIn_mapping h.cell, List.count_cons, List.count_cons]
  have := hless c hc
  omega

/-- What is written where nothing is merged. -/
lemma Ready.overlayAt_eq {e : Scalar × Item} {x : Scalar × Value}
    (h : g.Ready bound depth n entries m o) (hkey : x.1 = e.1) (hv : g.value? depth e.2 = some x.2)
    (hnone : (Graph.get? entries e.1).bind g.entries? = none ∨ g.entries? e.2 = none) :
    Mapping.overlayAt m x.1 x.2 = x.2 := by
  rw [Mapping.overlayAt, hkey]
  rcases h.holds.get? e.1 with ⟨-, hm⟩ | ⟨item, old, hitem, hm, hold⟩
  · rw [hm]
    rfl
  · rw [hm, Option.map_some, Option.getD_some]
    rcases hnone with hnone | hnone
    · rw [hitem, Option.bind_some] at hnone
      exact Value.overlay_of_base _ (by rw [isMapping_eq hold, hnone]; rfl)
    · exact Value.overlay_of_not_isMapping _ (by rw [isMapping_eq hv, hnone]; rfl)

/-- A graph in which one entry has been laid over a mapping. -/
structure EntryLaid (g g' : Graph) (bound depth n : Nat) (entries : List (Scalar × Item))
    (m : Mapping) (x : Scalar × Value) : Prop where
  cell : ∃ entries', g'.cells[n]? = some (.mapping entries') ∧
    ∀ key, x.1.same key = false → Graph.get? entries' key = Graph.get? entries key
  laid : g.Laid g' bound depth n (Mapping.insert m x.1 (Mapping.overlayAt m x.1 x.2))
    (n :: g.metAt depth entries x)

lemma Ready.entryLaid_write {e : Scalar × Item} {x : Scalar × Value}
    (h : g.Ready bound depth n entries m o) (hdepth : depth' ≤ depth) (hkey : x.1 = e.1)
    (hv : g.value? depth' e.2 = some x.2) (habove : ∀ c ∈ g.mappingsIn depth' e.2, bound ≤ c)
    (hnone : (Graph.get? entries e.1).bind g.entries? = none ∨ g.entries? e.2 = none) :
    g.EntryLaid (g.write n (insert entries e.1 e.2)) bound depth n entries m x := by
  obtain ⟨⟨hmappings, -⟩, hv⟩ := (Agrees.refl g []).stays (by simp) hdepth hv (by simp)
  have hlaid := h.write hkey hv (hmappings ▸ habove)
  refine ⟨⟨_, cells_write (Array.getElem?_eq_some_iff.mp h.cell).1 _,
    fun key hne => get?_insert_of_ne (hkey ▸ hne)⟩, ?_⟩
  rw [h.overlayAt_eq hkey hv hnone]
  exact ⟨hlaid.agrees.mono (by simp), hlaid.size, hlaid.holds, hlaid.count⟩

lemma Ready.exists_entryLaid_merge {e : Scalar × Item} {x : Scalar × Value} {k t : Nat}
    {inner topEntries : List (Scalar × Item)} (ih : ∀ d < depth', LaysInPlace d)
    (h : g.Ready bound depth n entries m o) (hx : x ∈ o) (hfuel : depth' ≤ fuel)
    (hdepth : depth' ≤ depth) (hkey : x.1 = e.1) (hv : g.value? depth' e.2 = some x.2)
    (habove : ∀ c ∈ g.mappingsIn depth' e.2, bound ≤ c) (hkeyed : x.2.isKeyed = true)
    (hitem : (Graph.get? entries e.1).bind g.entries? = some (k, inner))
    (htop : g.entries? e.2 = some (t, topEntries)) :
    ∃ g', overlayAt fuel g k topEntries = some g' ∧
      g.EntryLaid g' bound depth n entries m x := by
  obtain ⟨item, hget, hinner⟩ := Option.bind_eq_some_iff.mp hitem
  obtain ⟨rfl, hk⟩ := entries?_eq_some_iff.mp hinner
  obtain ⟨hcell, ht⟩ := entries?_eq_some_iff.mp htop
  rw [hcell] at hv habove
  cases depth' with
  | zero => cases hv
  | succ depth' =>
    obtain ⟨depth, rfl⟩ : ∃ d, depth = d + 1 := ⟨depth - 1, by omega⟩
    obtain ⟨o', ho', hvalue⟩ := (value?_mapping_iff ht).mp hv
    obtain ⟨old, hm, hold⟩ := h.holds.value_of_get? hget
    obtain ⟨m', hm', rfl⟩ := (value?_mapping_iff hk).mp hold
    have htops : g.Above bound depth' topEntries o' := by
      refine ⟨ho', fun c hc => habove c ?_⟩
      rw [mappingsIn_mapping ht]
      exact List.mem_cons_of_mem _ hc
    have hat : Mapping.overlayAt m x.1 x.2 = .mapping (m'.overlay o') := by
      rw [Mapping.overlayAt, hkey, hm, hvalue]
      exact Value.overlay_mapping m' o'
    obtain ⟨g', hg', hcell', hlaid⟩ := h.merge (ih depth' (Nat.lt_succ_self _)) hx hfuel
      (by omega) (hkey ▸ hget) hk hm' htops hvalue hkeyed
    refine ⟨g', hg', ⟨entries, hcell', fun _ _ => rfl⟩, ?_⟩
    rw [hat]
    exact ⟨hlaid.agrees.mono (List.subset_cons_self _ _), hlaid.size, hlaid.holds, hlaid.count⟩

/-- An entry is laid over a mapping in place as its value is. -/
lemma Ready.exists_overlayEntry {e : Scalar × Item} {x : Scalar × Value}
    (ih : ∀ d < depth', LaysInPlace d) (h : g.Ready bound depth n entries m o) (hx : x ∈ o)
    (hfuel : depth' ≤ fuel) (hdepth : depth' ≤ depth) (hkey : x.1 = e.1)
    (hv : g.value? depth' e.2 = some x.2) (habove : ∀ c ∈ g.mappingsIn depth' e.2, bound ≤ c)
    (hkeyed : x.2.isKeyed = true) :
    ∃ g', overlayEntry fuel n g e = some g' ∧ g.EntryLaid g' bound depth n entries m x := by
  have hwritten := h.entryLaid_write hdepth hkey hv habove
  cases hitem : (Graph.get? entries e.1).bind g.entries? with
  | none => exact ⟨_, by simp [overlayEntry, h.cell, hitem], hwritten (.inl hitem)⟩
  | some found =>
    cases htop : g.entries? e.2 with
    | none => exact ⟨_, by simp [overlayEntry, h.cell, hitem, htop], hwritten (.inr htop)⟩
    | some top =>
      obtain ⟨g', hg', hlaid⟩ := h.exists_entryLaid_merge ih hx hfuel hdepth hkey hv habove hkeyed
        hitem htop
      exact ⟨g', by simp [overlayEntry, h.cell, hitem, htop, hg'], hlaid⟩

/-- The keys that are not laid yet lead to the same mappings as before. -/
lemma Ready.metAt_eq {x y : Scalar × Value} {entries' : List (Scalar × Item)}
    (h : g.Ready bound depth n entries m o) (hx : x ∈ o)
    (hagrees : g.Agrees g' (n :: g.metAt depth entries x)) (hne : x.1.same y.1 = false)
    (hget' : Graph.get? entries' y.1 = Graph.get? entries y.1) :
    g'.metAt depth entries' y = g.metAt depth entries y := by
  unfold metAt
  rw [hget']
  rcases h.holds.get? y.1 with ⟨hnone, -⟩ | ⟨item, v, hitem, -, hv⟩
  · rw [hnone]
    rfl
  · have hchanged : ∀ c ∈ n :: g.metAt depth entries x,
        ∃ entries, g.cells[c]? = some (.mapping entries) := by
      intro c hc
      rcases List.mem_cons.mp hc with rfl | hc
      · exact ⟨entries, h.cell⟩
      · obtain ⟨item, -, hc⟩ := mem_metAt.mp hc
        exact exists_mapping_of_mem_metBy hc
    have hout : ∀ c ∈ g.mappingsIn depth item, c ∉ n :: g.metAt depth entries x := by
      intro c hc hmem
      have hamong : c ∈ g.mappingsAmong depth entries := by
        obtain ⟨e, he, -, rfl⟩ := mem_of_get? hitem
        exact List.mem_flatMap.mpr ⟨e, he, hc⟩
      rcases List.mem_cons.mp hmem with rfl | hmem
      · exact h.not_mem.2 hamong
      · obtain ⟨item', hget, hmem'⟩ := mem_metAt.mp hmem
        exact not_mem_of_ne hne hget hitem (metBy_subset _ _ _ _ hmem')
          (h.once_of_mem hx hmem).2 hc
    rw [hitem]
    exact (hagrees.stays hchanged (Nat.le_refl _) hv hout).1.2 y.2

/-- Laying one entry leaves a mapping over which the other ones can be laid. -/
lemma Ready.tail {x : Scalar × Value} (h : g.Ready bound depth n entries m (x :: o))
    (hentry : g.EntryLaid g' bound depth n entries m x) (hdistinct : IsDistinct (x :: o)) :
    ∃ entries', g'.Ready bound depth n entries'
        (Mapping.insert m x.1 (Mapping.overlayAt m x.1 x.2)) o ∧
      n :: o.flatMap (g'.metAt depth entries') ⊆ n :: (x :: o).flatMap (g.metAt depth entries) := by
  obtain ⟨⟨entries', hcell, hget⟩, hlaid⟩ := hentry
  have hmet : ∀ y ∈ o, g'.metAt depth entries' y = g.metAt depth entries y := by
    intro y hy
    have hne : x.1.same y.1 = false := by
      rw [Scalar.same_comm]
      exact contains_eq_false_iff.mp (isDistinct_cons.mp hdistinct).1 y hy
    exact h.metAt_eq List.mem_cons_self hlaid.agrees hne (hget y.1 hne)
  have hsub : n :: o.flatMap (g'.metAt depth entries')
      ⊆ n :: (x :: o).flatMap (g.metAt depth entries) := by
    rw [List.flatMap_congr hmet, List.flatMap_cons]
    exact List.cons_subset_cons _ (List.subset_append_right _ _)
  obtain ⟨found, hfound, hholds⟩ := hlaid.holds
  obtain rfl : entries' = found := by
    rw [hcell] at hfound
    cases hfound
    rfl
  refine ⟨entries', ⟨hcell, hholds, fun c hc => ?_⟩, hsub⟩
  rw [metBy_mapping hcell] at hc
  obtain ⟨hlow, honce⟩ := h.once c (by rw [metBy_mapping h.cell]; exact hsub hc)
  exact ⟨hlow, Nat.le_trans (hlaid.count c hlow) honce⟩

/-- Entries are laid over a mapping in place as their values are. -/
lemma Ready.exists_overlayEntries (ih : ∀ d < depth', LaysInPlace d) (hfuel : depth' ≤ fuel)
    (hdepth : depth' ≤ depth) (h : g.Ready bound depth n entries m o)
    (habove : g.Above bound depth' top o) (hkeyed : (Value.mapping o).isKeyed = true) :
    ∃ g', top.foldlM (overlayEntry fuel n) g = some g' ∧
      g.Laid g' bound depth n (m.overlay o) (g.metBy (depth + 1) (.cell n) (.mapping o)) := by
  induction top generalizing g entries m o with
  | nil =>
    obtain rfl : o = [] := by simpa [Holds] using habove.holds
    refine ⟨g, rfl, Agrees.refl g _, rfl, ⟨entries, h.cell, ?_⟩, fun _ _ => Nat.le_refl _⟩
    rw [overlay_nil]
    exact h.holds
  | cons e top ihtop =>
    obtain ⟨x, o', hfirst, hrest, rfl⟩ := List.forall₂_cons_left_iff.mp habove.holds
    obtain ⟨hdistinct, hkeyeds⟩ := Value.isKeyed_mapping_iff.mp hkeyed
    rw [List.forall_mem_cons] at hkeyeds
    have hhigh := habove.above
    simp only [mappingsAmong, List.flatMap_cons, List.forall_mem_append] at hhigh
    obtain ⟨g₁, hentry, hlaidEntry⟩ := h.exists_overlayEntry ih List.mem_cons_self hfuel hdepth
      hfirst.1 hfirst.2 hhigh.1 hkeyeds.1
    obtain ⟨entries₁, hready, hsub⟩ := h.tail hlaidEntry hdistinct
    have hlaid := hlaidEntry.laid
    have hmem : n :: g.metAt depth entries x
        ⊆ g.metBy (depth + 1) (.cell n) (.mapping (x :: o')) := by
      rw [metBy_mapping h.cell, List.flatMap_cons]
      exact List.cons_subset_cons _ (List.subset_append_left _ _)
    have hout : ∀ c ∈ g.mappingsAmong depth' top, c ∉ n :: g.metAt depth entries x := by
      intro c hc hmet
      have hlow := (h.once c (hmem hmet)).1
      exact absurd (hhigh.2 c hc) (by omega)
    obtain ⟨⟨hmappings, -⟩, hholds⟩ := hlaid.agrees.stays_entries
      (fun c hc => exists_mapping_of_mem_metBy (hmem hc)) hrest hout
    obtain ⟨g₂, hfold, hlaid₂⟩ := ihtop hready ⟨hholds, hmappings ▸ hhigh.2⟩
      (Value.isKeyed_mapping_iff.mpr ⟨(isDistinct_cons.mp hdistinct).2, hkeyeds.2⟩)
    refine ⟨g₂, ?_, ?_, ?_, ?_, ?_⟩
    · rw [List.foldlM_cons, hentry]
      exact hfold
    · refine (hlaid.agrees.mono hmem).trans (hlaid₂.agrees.mono ?_)
      rw [metBy_mapping hready.cell, metBy_mapping h.cell]
      exact hsub
    · rw [hlaid₂.size, hlaid.size]
    · rw [overlay_cons_overlayAt]
      exact hlaid₂.holds
    · exact fun c hc => Nat.le_trans (hlaid₂.count c hc) (hlaid.count c hc)

/-- A mapping whose changed parts stand in one place is merged in place as its value is. -/
theorem laysInPlace (depth : Nat) : LaysInPlace depth := by
  induction depth using Nat.strongRecOn with
  | ind depth ih =>
    intro g fuel bound depth' n entries top m o hfuel hdepth hready habove hkeyed
    obtain ⟨fuel, rfl⟩ : ∃ f, fuel = f + 1 := ⟨fuel - 1, by omega⟩
    rw [overlayAt_succ]
    exact hready.exists_overlayEntries ih (by omega) hdepth habove hkeyed

end Graph

end Bundler
