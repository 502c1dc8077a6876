import Mathlib.Data.List.TakeWhile
import Bundler.Proofs.RelativeResolution

/-!
# Names that stay as they are

A module that is asked for by the very name it is registered under should be found under that name
again. A name in normal form is not changed by normalizing it once more. But a name is completed as
well, and what it was completed to may be completed a second time: an extension that holds no dot is
added again and again, and so is one like `.js` if the name stands for a directory, where its dot
counts as a leading one.
-/

namespace Bundler.ModuleName

open Bundler.Path Text

variable {name e : String} {q : Path} {cs : List Char}

/-! ### Normal forms -/

/-- The path of a normal form is one of a directory, as it holds no backslash. -/
lemma exists_directory_normalize (name seen : String) :
    ∃ q, IsDirectory q ∧ normalize name seen = text q := by
  refine ⟨_, ⟨?_, isNormal_collapse _ _, ?_⟩, rfl⟩
  · apply WellFormed.normalize
    apply WellFormed.append _ (wellFormed_ofChars _)
    split
    · exact wellFormed_ofChars _
    · exact fun _ => nofun
  · apply backslash_not_mem_append _ (backslash_not_mem_forward name)
    split
    · exact backslash_not_mem_segments (backslash_not_mem_throughLast seen)
    · exact fun _ => nofun

lemma normalize_text_of_isDirectory (hq : IsDirectory q) : normalize (text q) "" = text q := by
  have hplain : '\\' ∉ (text q).toList := by
    unfold text
    split
    · exact List.not_mem_nil
    · exact backslash_not_mem_text hq.plain
  have hhere : directoryOf "" = ⟨.relative, []⟩ := rfl
  have hstart : ∀ p : Path, (⟨.relative, []⟩ : Path).append p = p := by
    intro p
    cases h : p.isAbsolute with
    | true => exact append_absolute _ h
    | false =>
      have hanchor : p.anchor = .relative := by simpa [isAbsolute] using h
      rw [append_relative _ h, List.nil_append, ← hanchor]
  rw [normalize, swap_of_not_mem hplain, hhere, ite_self, hstart, ← Path.ofString,
    ofString_text_eq hq.wellFormed, normalize_of_isNormal hq.normal]

/-! ### Names and extensions -/

/-- The last segment does not consist of dots alone; in particular there is one. -/
def IsNamed (name : String) : Prop := ∃ c ∈ afterLast '/' name.toList, c ≠ '.'

instance (name : String) : Decidable (IsNamed name) :=
  decidable_of_iff ((afterLast '/' name.toList).any (· != '.') = true) (by simp [IsNamed])

lemma afterLast_append (he : '/' ∉ e.toList) (name : String) :
    afterLast '/' (name ++ e).toList = afterLast '/' name.toList ++ e.toList := by
  rw [String.toList_append]
  conv_lhs => rw [← throughLast_append_afterLast '/' name.toList, List.append_assoc]
  rw [(isDirectoryText_throughLast _).afterLast_append, afterLast_of_not_mem]
  rw [List.mem_append, not_or]
  exact ⟨not_mem_afterLast '/' _, he⟩

/-- Behind a last segment that is more than dots, every dot begins an extension. -/
lemma hasExtension_append_iff (hname : IsNamed name) (he : '/' ∉ e.toList) :
    hasExtension (name ++ e) = true ↔ hasExtension name = true ∨ '.' ∈ e.toList := by
  obtain ⟨c, hc, hdot⟩ := hname
  have hne : ((afterLast '/' name.toList).dropWhile (· == '.')).isEmpty = false := by
    rw [List.isEmpty_eq_false_iff, Ne, List.dropWhile_eq_nil_iff]
    intro hall
    exact hdot (by simpa using hall c hc)
  rw [hasExtension, hasExtension, afterLast_append he, List.dropWhile_append, hne]
  simp

/-- An extension that has one itself makes any name have one. -/
lemma hasExtension_append_of_hasExtension (he : '/' ∉ e.toList) (h : hasExtension e = true)
    (name : String) : hasExtension (name ++ e) = true := by
  have hself : afterLast '/' e.toList = e.toList := afterLast_of_not_mem he
  rw [hasExtension, hself, List.contains_eq_mem, decide_eq_true_eq] at h
  rw [hasExtension, afterLast_append he, List.contains_eq_mem, decide_eq_true_eq,
    List.dropWhile_append]
  split
  · exact h
  · exact List.mem_append_right _ ((List.dropWhile_sublist _).subset h)

/-! ### Completed names in normal form -/

lemma backslash_not_mem_concat {ss : List String} {s : String}
    (hplain : ∀ t ∈ ss ++ [s], '\\' ∉ t.toList) (he : '\\' ∉ e.toList) :
    ∀ t ∈ ss ++ [s ++ e], '\\' ∉ t.toList := by
  intro t ht
  rcases List.mem_append.mp ht with ht | ht
  · exact hplain t (List.mem_append_left _ ht)
  · rw [List.mem_singleton.mp ht, String.toList_append, List.mem_append, not_or]
    exact ⟨hplain s (by simp), he⟩

/-- A longer last segment leaves a name in normal form. -/
lemma normalize_append_of_ne_nil (hq : IsDirectory q) (hne : q.segments ≠ [])
    (he : '/' ∉ e.toList) (he' : '\\' ∉ e.toList) :
    normalize (text q ++ e) "" = text q ++ e := by
  obtain ⟨anchor, ss⟩ := q
  rcases List.eq_nil_or_concat' ss with rfl | ⟨ss, s, rfl⟩
  · exact absurd rfl hne
  · have hs : IsSegmentText s := hq.wellFormed s (by simp)
    have hlonger : IsDirectory ⟨anchor, ss ++ [s ++ e]⟩ := by
      refine ⟨?_, isNormal_append_last e hq.normal hs, backslash_not_mem_concat hq.plain he'⟩
      intro t ht
      rcases List.mem_append.mp ht with ht | ht
      · exact hq.wellFormed t (List.mem_append_left _ ht)
      · rw [List.mem_singleton.mp ht]
        exact isSegmentText_append hs he
    have htext : text ⟨anchor, ss ++ [s]⟩ ++ e = text ⟨anchor, ss ++ [s ++ e]⟩ := by
      rw [text, text, if_neg (by simp), if_neg (by simp), text_append_last]
    rw [htext, normalize_text_of_isDirectory hlonger]

/-- The root and the directory that names are seen from are written without a segment. -/
lemma text_of_nil (anchor : Anchor) : text ⟨anchor, []⟩ = anchorText anchor := by
  cases anchor <;> simp [text, Path.text, anchorText]

lemma afterLast_anchorText (anchor : Anchor) : afterLast '/' (anchorText anchor).toList = [] := by
  cases anchor <;> rfl

lemma ne_nil_of_isNamed (h : IsNamed (text q)) : q.segments ≠ [] := by
  obtain ⟨anchor, ss⟩ := q
  rintro rfl
  obtain ⟨c, hc, -⟩ := h
  rw [text_of_nil, afterLast_anchorText] at hc
  cases hc

/-- A text with an extension, alone behind an anchor, is in normal form. -/
lemma normalize_append_of_nil (anchor : Anchor) (he : '/' ∉ e.toList) (he' : '\\' ∉ e.toList)
    (h : hasExtension e = true) :
    normalize (text ⟨anchor, []⟩ ++ e) "" = text ⟨anchor, []⟩ ++ e := by
  have hnot : ∀ t, hasExtension t = false → e ≠ t := by
    rintro t ht rfl
    rw [h] at ht
    cases ht
  have hsegment : isSegment e.toList = true := by
    rw [isSegment_iff]
    exact ⟨fun hnil => hnot "" rfl (String.toList_inj.mp hnil),
      fun hdot => hnot "." rfl (String.toList_inj.mp hdot)⟩
  have hdirectory : IsDirectory ⟨anchor, [e]⟩ := by
    refine ⟨?_, .of_not_mem ?_, ?_⟩
    · intro t ht
      rw [List.mem_singleton.mp ht]
      exact ⟨hsegment, he⟩
    · exact fun hup => hnot ".." rfl (List.mem_singleton.mp hup).symm
    · intro t ht
      rwa [List.mem_singleton.mp ht]
  have htext : text ⟨anchor, []⟩ ++ e = text ⟨anchor, [e]⟩ := by
    rw [text_of_nil]
    simp [text, Path.text]
  rw [htext, normalize_text_of_isDirectory hdirectory]

/-- A name that is completed to one with an extension is in normal form. -/
lemma normalize_append_of_hasExtension (hq : IsDirectory q) (he : '/' ∉ e.toList)
    (he' : '\\' ∉ e.toList) (h : hasExtension (text q ++ e) = true) :
    normalize (text q ++ e) "" = text q ++ e := by
  by_cases hne : q.segments = []
  · obtain ⟨anchor, ss⟩ := q
    obtain rfl : ss = [] := hne
    apply normalize_append_of_nil anchor he he'
    rw [text_of_nil] at h
    rw [hasExtension, afterLast_append he, afterLast_anchorText, List.nil_append] at h
    rwa [hasExtension, afterLast_of_not_mem he]
  · exact normalize_append_of_ne_nil hq hne he he'

/-! ### Names that are not completed again -/

variable {options : Options} {n c : String}

/-- What a name was completed to is final if it is a normal form with an extension, or if it still
stands for what the name stood for. -/
def IsFinal (name completed : String) : Prop :=
  hasExtension completed = true ∧ normalize completed "" = completed ∨
    normalize completed "" = name

instance (name completed : String) : Decidable (IsFinal name completed) :=
  inferInstanceAs (Decidable (_ ∨ _))

lemma complete_of_extension (h : extension options = .ok e) (name : String) :
    complete name options = .ok (if hasExtension name = true then name else name ++ e) := by
  rw [complete, h]
  split <;> rfl

/-- What a normal form is completed to is completed to itself exactly if it is final. -/
lemma complete_normalize_iff (h : extension options = .ok e) (hn : normalize n "" = n)
    (hc : complete n options = .ok c) :
    complete (normalize c "") options = .ok c ↔ IsFinal n c := by
  rw [complete_of_extension h, Except.ok.injEq] at hc ⊢
  unfold IsFinal
  by_cases hhas : hasExtension n = true
  · -- the name was complete
    rw [if_pos hhas] at hc
    subst hc
    rw [hn, if_pos hhas]
    exact iff_of_true rfl (Or.inr rfl)
  · rw [if_neg hhas] at hc
    subst hc
    by_cases hagain : hasExtension (normalize (n ++ e) "") = true
    · -- what it was completed to is complete, once it is normalized
      rw [if_pos hagain]
      constructor
      · intro hsame
        rw [hsame] at hagain
        exact Or.inl ⟨hagain, hsame⟩
      · rintro (⟨-, hsame⟩ | hback)
        · exact hsame
        · rw [hback] at hagain
          exact absurd hagain hhas
    · -- the extension is added once more
      rw [if_neg hagain, String.append_left_inj]
      constructor
      · exact Or.inr
      · rintro (⟨hthere, hsame⟩ | hback)
        · rw [hsame] at hagain
          exact absurd hthere hagain
        · exact hback

/-! ### Extensions without slashes -/

/-- Where a name is more than dots, what it is completed to is final if it has an extension of its
own, or if the one that is added is empty or holds a dot. -/
lemma isFinal_iff_of_isNamed (h : extension options = .ok e) (he : '/' ∉ e.toList)
    (he' : '\\' ∉ e.toList) (hq : IsDirectory q) (hname : IsNamed (text q))
    (hc : complete (text q) options = .ok c) :
    IsFinal (text q) c ↔ hasExtension (text q) = true ∨ e = "" ∨ '.' ∈ e.toList := by
  have hself : normalize (text q) "" = text q := normalize_text_of_isDirectory hq
  have hlonger : normalize (text q ++ e) "" = text q ++ e :=
    normalize_append_of_ne_nil hq (ne_nil_of_isNamed hname) he he'
  rw [complete_of_extension h, Except.ok.injEq] at hc
  by_cases hhas : hasExtension (text q) = true
  · rw [if_pos hhas] at hc
    subst hc
    exact iff_of_true (Or.inr hself) (Or.inl hhas)
  · rw [if_neg hhas] at hc
    subst hc
    constructor
    · rintro (⟨hthere, -⟩ | hback)
      · exact Or.inr (Or.inr (((hasExtension_append_iff hname he).mp hthere).resolve_left hhas))
      · rw [hlonger, String.append_eq_left_iff] at hback
        exact Or.inr (Or.inl hback)
    · rintro (hthere | rfl | hdot)
      · exact absurd hthere hhas
      · rw [String.append_empty]
        exact Or.inr hself
      · exact Or.inl ⟨(hasExtension_append_iff hname he).mpr (Or.inr hdot), hlonger⟩

/-- An extension that has one itself makes a final name of every name. -/
lemma isFinal_of_hasExtension (h : extension options = .ok e) (he : '/' ∉ e.toList)
    (he' : '\\' ∉ e.toList) (hhas : hasExtension e = true) (hq : IsDirectory q)
    (hc : complete (text q) options = .ok c) : IsFinal (text q) c := by
  rw [complete_of_extension h, Except.ok.injEq] at hc
  split at hc
  · subst hc
    exact Or.inr (normalize_text_of_isDirectory hq)
  · subst hc
    have hthere : hasExtension (text q ++ e) = true := hasExtension_append_of_hasExtension he hhas _
    exact Or.inl ⟨hthere, normalize_append_of_hasExtension hq he he' hthere⟩

/-- A canonical name does not start with `./`. -/
lemma not_starts_here {referrer : Value} (h : extension options = .ok e) (he : '/' ∉ e.toList)
    (hc : canonical name referrer options = .ok c) : c.toList ≠ '.' :: '/' :: cs := by
  intro hchars
  have hextension : ∀ e', extension options = .ok e' → '/' ∉ e'.toList := by
    intro e' he''
    rw [h] at he''
    cases he''
    exact he
  have hrelative : (Path.ofString c).isAbsolute = false := by
    have hhead : c.toList.head? ≠ some '/' := by
      rw [hchars]
      simp
    simp [isAbsolute, Path.ofString, ofChars, anchorOf_eq_relative_iff.mpr hhead]
  rcases canonical_path hc hextension with ⟨-, hne, htext⟩ | ⟨habsolute, -⟩ | ⟨-, hself⟩
  · -- a plain name has the segments of its path between its slashes, and none of them is a dot
    have hwell : (Path.ofString c).WellFormed := wellFormed_ofChars _
    have hanchor : (Path.ofString c).anchor = .relative := by simpa [isAbsolute] using hrelative
    have hjoin : c.toList = join '/' ((Path.ofString c).segments.map String.toList) := by
      conv_lhs => rw [← htext, Path.text, if_neg fun h => hne h.2, hanchor]
      rw [String.toList_append, toList_intercalate_slash]
      rfl
    have hsplit : split '/' c.toList = (Path.ofString c).segments.map String.toList := by
      conv_lhs => rw [hjoin]
      apply split_join (by simpa using hne)
      intro part hpart
      obtain ⟨t, ht, rfl⟩ := List.mem_map.mp hpart
      exact (hwell t ht).2
    have hdot : ['.'] ∈ (Path.ofString c).segments.map String.toList := by
      have hfirst : split '/' ('.' :: '/' :: cs) = ['.'] :: split '/' cs :=
        split_append_sep (by decide : '/' ∉ ['.']) cs
      rw [← hsplit, hchars, hfirst]
      exact List.mem_cons_self
    obtain ⟨t, ht, htext⟩ := List.mem_map.mp hdot
    exact (isSegment_iff.mp (hwell t ht).1).2 htext
  · rw [hrelative] at habsolute
    cases habsolute
  · apply hextension c hself
    rw [hchars]
    simp

/-- A canonical name that is seen from a referrer goes up. -/
lemma prefix_of_isRelative {referrer : Value} (h : extension options = .ok e)
    (he : '/' ∉ e.toList) (he' : '\\' ∉ e.toList) (hc : canonical name referrer options = .ok c)
    (hrelative : isRelative (forward c) = true) : ['.', '.', '/'] <+: c.toList := by
  have hplain : '\\' ∉ c.toList := by
    refine backslash_not_mem_canonical (fun e' he'' => ?_) hc
    rw [h] at he''
    cases he''
    exact he'
  rw [forward, swap_of_not_mem hplain] at hrelative
  unfold isRelative at hrelative
  split at hrelative
  · next hchars => exact absurd hchars (not_starts_here h he hc)
  · next rest hchars =>
    rw [hchars]
    exact ⟨rest, rfl⟩
  · cases hrelative

/-! ### Stable names -/

/-- The canonical name of a module is its own canonical name exactly if it is final, and then it is
so from every referrer, unless it is relative itself. Where the extension holds no slashes and the
name is more than dots, it is final exactly if the name has an extension of its own, or if the
extension is empty or holds a dot. -/
theorem canonical_canonical_iff (name : String) (referrer : Value) (options : Options)
    (seen e : String) (hseen : referrerText referrer = .ok seen)
    (hextension : extension options = .ok e) :
    ∃ c, canonical name referrer options = .ok c ∧
      (canonical c .null options = .ok c ↔ IsFinal (normalize name seen) c) ∧
      (IsFinal (normalize name seen) c → isRelative (forward c) = false →
        ∀ other, canonical c other options = .ok c) ∧
      ('/' ∉ e.toList → '\\' ∉ e.toList →
        (IsNamed (normalize name seen) → (IsFinal (normalize name seen) c ↔
          hasExtension (normalize name seen) = true ∨ e = "" ∨ '.' ∈ e.toList)) ∧
        (e = "" ∨ hasExtension e = true → IsFinal (normalize name seen) c) ∧
        (isRelative (forward c) = true → ['.', '.', '/'] <+: c.toList)) := by
  obtain ⟨q, hq, hname⟩ := exists_directory_normalize name seen
  have hself : normalize (text q) "" = text q := normalize_text_of_isDirectory hq
  obtain ⟨c, hc⟩ : ∃ c, complete (text q) options = .ok c :=
    ⟨_, complete_of_extension hextension _⟩
  have hcanonical : canonical name referrer options = .ok c := by
    rw [canonical_of_seenFrom (seenFrom_of_referrerText name hseen), hname, hc]
  have hiff := complete_normalize_iff hextension hself hc
  rw [hname]
  refine ⟨c, hcanonical, ?_, ?_, ?_⟩
  · rw [canonical_of_seenFrom (seenFrom_of_falsy c rfl), hiff]
  · intro hfinal hrelative other
    rw [canonical_of_seenFrom (seenFrom_of_not_isRelative other hrelative), hiff]
    exact hfinal
  · intro he he'
    refine ⟨fun hnamed => isFinal_iff_of_isNamed hextension he he' hq hnamed hc, ?_,
      prefix_of_isRelative hextension he he' hcanonical⟩
    rintro (rfl | hhas)
    · refine Or.inr ?_
      rw [complete_of_extension hextension, String.append_empty, ite_self, Except.ok.injEq] at hc
      rw [← hc, hself]
    · exact isFinal_of_hasExtension hextension he he' hhas hq hc

/-- A module below the directory of its referrer, with the default extension. -/
theorem canonical_canonical_lib :
    (referrerText (.text "src/main.js") = .ok "src/main.js" ∧ extension {} = .ok ".js") ∧
    ∃ c, canonical "./lib/../a" (.text "src/main.js") {} = .ok c ∧ c = "src/a.js" ∧
      ∀ other, canonical c other {} = .ok c := by
  obtain ⟨c, hc, -, hall, hplain⟩ := canonical_canonical_iff "./lib/../a" (.text "src/main.js") {}
    "src/main.js" ".js" rfl rfl
  have hname : c = "src/a.js" := by
    have hvalue : canonical "./lib/../a" (.text "src/main.js") {} = .ok "src/a.js" := rfl
    rw [hvalue] at hc
    exact (Except.ok.inj hc).symm
  have hfinal := ((hplain (by decide) (by decide)).1 (by decide +kernel)).mpr
    (Or.inr (Or.inr (by decide)))
  refine ⟨⟨rfl, rfl⟩, c, hc, hname, hall hfinal ?_⟩
  rw [hname]
  decide

/-- The name of the directory itself is completed to an extension, which counts as a name without
one. -/
theorem not_always_canonical_canonical :
    ¬ ∀ (name : String) (referrer : Value) (options : Options) (seen e c : String),
      referrerText referrer = .ok seen → extension options = .ok e →
      canonical name referrer options = .ok c →
      canonical c .null options = .ok c ∧
        (¬ ['.', '.', '/'] <+: c.toList → ∀ other, canonical c other options = .ok c) := by
  intro hall
  have hsame : canonical ".js" .null {} = .ok ".js" :=
    (hall "." .null {} "" ".js" ".js" rfl rfl rfl).1
  have hagain : canonical ".js" .null {} = .ok ".js.js" := rfl
  rw [hagain] at hsame
  exact absurd (Except.ok.inj hsame) (by decide)

end Bundler.ModuleName
