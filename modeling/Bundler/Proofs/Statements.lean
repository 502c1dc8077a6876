import Mathlib.Data.List.Basic
import Mathlib.Data.List.Induction
import Mathlib.Data.List.TakeWhile
import Bundler.Proofs.Texts
import Bundler.Specifier

/-!
# Statements at the starts of lines

The specifiers of a source text are those that statements at the starts of its lines give. A
statement may go over several lines, and the search goes on behind it; but what starts on one of its
further lines ends in the same quoted text, so no specifier is lost.
-/

namespace Bundler.Specifier

open Text

/-! ### Statements -/

/-- The text between a keyword and the opening quote. -/
inductive IsClauseOf : Keyword → List Char → Prop where
  /-- Only an import can do without `from`. -/
  | bare {blanks : List Char} (hblanks : ∀ c ∈ blanks, isBlank c = true) :
      IsClauseOf .importing blanks
  | names {keyword : Keyword} {words blanks : List Char} (hne : words ≠ [])
      (hwords : ∀ c ∈ words, isClauseChar c = true) (hblanks : ∀ c ∈ blanks, isBlank c = true) :
      IsClauseOf keyword (words ++ ['f', 'r', 'o', 'm'] ++ blanks)

/-- A line starts with a statement that gives a specifier; `rest` is what stands behind it. -/
inductive IsStatement : (line specifier rest : List Char) → Prop where
  | intro {indent clause specifier rest : List Char} {keyword : Keyword} {quote : Char}
      (hindent : ∀ c ∈ indent, c = ' ' ∨ c = '\t') (hclause : IsClauseOf keyword clause)
      (hquote : isQuote quote = true) (hne : specifier ≠ [])
      (hspecifier : ∀ c ∈ specifier, isSpecifierChar c = true) :
      IsStatement (indent ++ (keyword.letters ++ (clause ++ quote :: (specifier ++ quote :: rest))))
        specifier rest

variable {cs line line' specifier specifier' rest rest' before : List Char} {keyword : Keyword}

/-! ### Reading clauses -/

lemma dropBlankEnd_append {blanks : List Char} (hblanks : ∀ c ∈ blanks, isBlank c = true)
    (cs : List Char) : dropBlankEnd (cs ++ blanks) = dropBlankEnd cs := by
  induction blanks using List.reverseRecOn with
  | nil => rw [List.append_nil]
  | append_singleton blanks c ih =>
    rw [← List.append_assoc, dropBlankEnd_concat_blank _ _ (hblanks c (by simp))]
    exact ih fun d hd => hblanks d (List.mem_append_left _ hd)

/-- A text is what stands before its first character of a kind, that character and the rest. -/
lemma eq_append_of_dropWhile {p : Char → Bool} {c : Char} (h : cs.dropWhile p = c :: rest) :
    cs = cs.takeWhile p ++ c :: rest ∧ p c = false := by
  have hfirst := List.head_dropWhile_not p (l := cs) (by rw [h]; exact List.cons_ne_nil _ _)
  simp only [h, List.head_cons] at hfirst
  exact ⟨by rw [← h, List.takeWhile_append_dropWhile], hfirst⟩

lemma splitAt_append {p : Char → Bool} {front : List Char} {c : Char}
    (hfront : ∀ d ∈ front, p d = true) (hc : p c = false) (rest : List Char) :
    (front ++ c :: rest).takeWhile p = front ∧ (front ++ c :: rest).dropWhile p = c :: rest := by
  rw [List.takeWhile_append_of_pos hfront, List.dropWhile_append_of_pos hfront]
  simp [hc]

/-- A quoted text is found behind a front without quotes. -/
lemma split_quoted {front : List Char} {quote : Char} (hfront : ∀ c ∈ front, isQuote c = false)
    (hquote : isQuote quote = true) (hspecifier : ∀ c ∈ specifier, isSpecifierChar c = true)
    (rest : List Char) :
    (front ++ quote :: (specifier ++ quote :: rest)).takeWhile (fun c => !isQuote c) = front ∧
      (front ++ quote :: (specifier ++ quote :: rest)).dropWhile (fun c => !isQuote c)
        = quote :: (specifier ++ quote :: rest) ∧
      (specifier ++ quote :: rest).takeWhile isSpecifierChar = specifier ∧
      (specifier ++ quote :: rest).dropWhile isSpecifierChar = quote :: rest := by
  have hopen : (!isQuote quote) = false := by rw [hquote]; rfl
  have hclose : isSpecifierChar quote = false := by rw [isSpecifierChar, hquote]; rfl
  have hplain : ∀ c ∈ front, (!isQuote c) = true := by simpa using hfront
  obtain ⟨hread, hquoted⟩ := splitAt_append hplain hopen (specifier ++ quote :: rest)
  obtain ⟨hinside, hbehind⟩ := splitAt_append hspecifier hclose rest
  exact ⟨hread, hquoted, hinside, hbehind⟩

lemma exists_blanks (cs : List Char) :
    ∃ blanks, cs = dropBlankEnd cs ++ blanks ∧ ∀ c ∈ blanks, isBlank c = true := by
  refine ⟨(cs.reverse.takeWhile isBlank).reverse, ?_, ?_⟩
  · rw [dropBlankEnd, ← List.reverse_append, List.takeWhile_append_dropWhile, List.reverse_reverse]
  · intro c hc
    exact List.mem_takeWhile_imp (List.mem_reverse.mp hc)

lemma isFromClause_iff : isFromClause cs = true ↔ ∃ words blanks, words ≠ [] ∧
    (∀ c ∈ words, isClauseChar c = true) ∧ (∀ c ∈ blanks, isBlank c = true) ∧
      cs = words ++ ['f', 'r', 'o', 'm'] ++ blanks := by
  constructor
  · intro h
    unfold isFromClause at h
    split at h
    · next words hend =>
      obtain ⟨blanks, hcs, hblanks⟩ := exists_blanks cs
      simp only [Bool.and_eq_true, Bool.not_eq_true', List.isEmpty_eq_false_iff,
        List.all_eq_true] at h
      refine ⟨words.reverse, blanks, by simpa using h.1, by simpa using h.2, hblanks, ?_⟩
      have hfront : dropBlankEnd cs = words.reverse ++ ['f', 'r', 'o', 'm'] := by
        rw [← List.reverse_inj, hend]
        simp
      rw [← hfront, ← hcs]
    · cases h
  · rintro ⟨words, blanks, hne, hwords, hblanks, rfl⟩
    have hlast : isBlank 'm' = false := by decide +kernel
    have hfront : dropBlankEnd (words ++ ['f', 'r', 'o', 'm'] ++ blanks)
        = words ++ ['f', 'r', 'o'] ++ ['m'] := by
      rw [dropBlankEnd_append hblanks, ← dropBlankEnd_concat _ _ hlast]
      simp
    unfold isFromClause
    rw [hfront]
    simpa [hne] using hwords

lemma isClause_iff : isClause keyword cs = true ↔ IsClauseOf keyword cs := by
  rw [isClause, Bool.or_eq_true, Bool.and_eq_true, beq_iff_eq, List.all_eq_true, isFromClause_iff]
  constructor
  · rintro (⟨rfl, hblanks⟩ | ⟨words, blanks, hne, hwords, hblanks, rfl⟩)
    · exact .bare hblanks
    · exact .names hne hwords hblanks
  · rintro (hblanks | ⟨hne, hwords, hblanks⟩)
    · exact Or.inl ⟨rfl, hblanks⟩
    · exact Or.inr ⟨_, _, hne, hwords, hblanks, rfl⟩

/-- Quotes stand in no clause. -/
lemma IsClauseOf.isQuote_eq_false (h : IsClauseOf keyword cs) : ∀ c ∈ cs, isQuote c = false := by
  have hquote : ∀ p : Char → Bool, p '\x27' = false → p '\x22' = false →
      ∀ c, p c = true → isQuote c = false := by
    intro p hsingle hdouble c hc
    by_contra hne
    have hquote : isQuote c = true := by simpa using hne
    rcases (by simpa [isQuote] using hquote : c = '\x27' ∨ c = '\x22') with rfl | rfl
    · exact absurd hc (by simp [hsingle])
    · exact absurd hc (by simp [hdouble])
  have hblank := hquote isBlank (by decide +kernel) (by decide +kernel)
  have hword := hquote isClauseChar (by decide +kernel) (by decide +kernel)
  intro c hc
  cases h with
  | bare hblanks => exact hblank c (hblanks c hc)
  | names hne hwords hblanks =>
    rw [List.mem_append, List.mem_append] at hc
    rcases hc with (hc | hc) | hc
    · exact hword c (hwords c hc)
    · exact (by simp [isQuote] : ∀ c ∈ ['f', 'r', 'o', 'm'], isQuote c = false) c hc
    · exact hblank c (hblanks c hc)

/-! ### Reading statements -/

lemma isQuote_eq_false_of_mem_letters (keyword : Keyword) :
    ∀ c ∈ keyword.letters, isQuote c = false := by
  cases keyword <;> simp [Keyword.letters, isQuote]

lemma keyword?_eq_some_iff :
    keyword? cs = some (keyword, rest) ↔ cs = keyword.letters ++ rest := by
  constructor
  · intro h
    unfold keyword? at h
    split at h
    · next hprefix =>
      obtain ⟨tail, rfl⟩ := List.isPrefixOf_iff_prefix.mp hprefix
      cases h
      rfl
    · split at h
      · next hprefix =>
        obtain ⟨tail, rfl⟩ := List.isPrefixOf_iff_prefix.mp hprefix
        cases h
        rfl
      · cases h
  · rintro rfl
    cases keyword <;> rfl

/-- What a statement is made of: a front without quotes and the quoted specifier. -/
lemma IsStatement.exists_front (h : IsStatement line specifier rest) :
    ∃ front quote, line = front ++ quote :: (specifier ++ quote :: rest) ∧
      (∀ c ∈ front, isQuote c = false) ∧ isQuote quote = true ∧
      ∀ c ∈ specifier, isSpecifierChar c = true := by
  obtain @⟨indent, clause, _, _, keyword, quote, hindent, hclause, hquote, -, hspecifier⟩ := h
  refine ⟨indent ++ (keyword.letters ++ clause), quote, by simp, ?_, hquote, hspecifier⟩
  intro c hc
  rw [List.mem_append, List.mem_append] at hc
  rcases hc with hc | hc | hc
  · rcases hindent c hc with rfl | rfl <;> rfl
  · exact isQuote_eq_false_of_mem_letters keyword c hc
  · exact hclause.isQuote_eq_false c hc

/-- What is read of a line is a statement. -/
lemma isStatement_of_statement? (h : statement? line = some (specifier, rest)) :
    IsStatement line specifier rest := by
  simp only [statement?, Option.bind_eq_bind, Option.bind_eq_some_iff] at h
  obtain ⟨⟨keyword, cs⟩, hkeyword, h⟩ := h
  dsimp only at h
  split at h
  · cases h
  · next quote tail hquote =>
    split at h
    · cases h
    · next close rest' hclose =>
      split at h
      · next hread =>
        obtain ⟨hclause, hne, rfl⟩ := hread
        cases h
        -- the parts that were cut off one after another make up the line
        have hline : line.takeWhile (fun c => c == ' ' || c == '\t')
            ++ line.dropWhile (fun c => c == ' ' || c == '\t') = line :=
          List.takeWhile_append_dropWhile
        obtain ⟨hcs, hopen⟩ := eq_append_of_dropWhile hquote
        obtain ⟨htail, -⟩ := eq_append_of_dropWhile hclose
        rw [keyword?_eq_some_iff] at hkeyword
        have hstatement : IsStatement (line.takeWhile (fun c => c == ' ' || c == '\t') ++
            (keyword.letters ++ (cs.takeWhile (fun c => !isQuote c) ++
              close :: (tail.takeWhile isSpecifierChar ++ close :: rest))))
            (tail.takeWhile isSpecifierChar) rest := by
          refine .intro ?_ (isClause_iff.mp hclause) (by simpa using hopen) hne ?_
          · intro c hc
            simpa using List.mem_takeWhile_imp hc
          · intro c hc
            exact List.mem_takeWhile_imp hc
        rwa [← htail, ← hcs, ← hkeyword, hline] at hstatement
      · cases h

/-- A statement is read up to its closing quote. -/
lemma IsStatement.statement?_eq (h : IsStatement line specifier rest) :
    statement? line = some (specifier, rest) := by
  obtain @⟨indent, clause, _, _, keyword, quote, hindent, hclause, hquote, hne, hspecifier⟩ := h
  have hkeyword : ∀ tail : List Char,
      (indent ++ (keyword.letters ++ tail)).dropWhile (fun c => c == ' ' || c == '\t')
        = keyword.letters ++ tail := by
    intro tail
    rw [List.dropWhile_append_of_pos (by simpa using hindent)]
    cases keyword <;> rfl
  have hread : isClause keyword clause = true := isClause_iff.mpr hclause
  obtain ⟨hfront, hquoted, hinside, hbehind⟩ :=
    split_quoted hclause.isQuote_eq_false hquote hspecifier rest
  simp only [statement?, hkeyword, keyword?_eq_some_iff.mpr rfl, Option.bind_eq_bind,
    Option.bind_some, hfront, hquoted, hinside, hbehind]
  exact if_pos ⟨hread, hne, trivial⟩

theorem statement?_eq_some_iff :
    statement? line = some (specifier, rest) ↔ IsStatement line specifier rest :=
  ⟨isStatement_of_statement?, IsStatement.statement?_eq⟩

lemma IsStatement.ne_nil (h : IsStatement line specifier rest) : line ≠ [] := by
  obtain ⟨front, quote, rfl, -⟩ := h.exists_front
  simp

/-! ### Statements in later lines of a statement -/

/-- A line that starts within a statement starts in front of its opening quote. -/
lemma IsStatement.exists_clause (h : IsStatement (before ++ line) specifier rest)
    (hbefore : before.getLast? = some '\n') (hcovered : rest.length < line.length) :
    ∃ clause quote, line = clause ++ quote :: (specifier ++ quote :: rest) ∧
      (∀ c ∈ clause, isQuote c = false) ∧ isQuote quote = true ∧
      ∀ c ∈ specifier, isSpecifierChar c = true := by
  obtain ⟨front, quote, hline, hfront, hquote, hspecifier⟩ := h.exists_front
  rcases List.append_eq_append_iff.mp hline with ⟨clause, rfl, hrest⟩ | ⟨inside, rfl, hrest⟩
  · exact ⟨clause, quote, hrest, fun c hc => hfront c (List.mem_append_right _ hc), hquote,
      hspecifier⟩
  · rcases List.eq_nil_or_concat' inside with rfl | ⟨inside, last, rfl⟩
    · exact ⟨[], quote, hrest.symm, nofun, hquote, hspecifier⟩
    · -- neither the opening quote nor the specifier ends a line
      exfalso
      have hinside : inside ++ [last] <+: quote :: specifier := by
        apply List.prefix_of_prefix_length_le ⟨line, hrest.symm⟩ ⟨quote :: rest, rfl⟩
        have hlength := congrArg List.length hrest
        simp only [List.length_cons, List.length_append] at hlength ⊢
        omega
      obtain rfl : last = '\n' := by simpa [← List.append_assoc] using hbefore
      rcases List.mem_cons.mp (hinside.subset (by simp : '\n' ∈ inside ++ ['\n'])) with rfl | hmem
      · exact absurd hquote (by decide)
      · exact absurd (hspecifier _ hmem) (by decide)

/-- What starts in a later line of a statement gives the same specifier. -/
lemma IsStatement.eq_of_covered (h : IsStatement (before ++ line) specifier rest)
    (h' : IsStatement line specifier' rest') (hbefore : before.getLast? = some '\n')
    (hcovered : rest.length < line.length) : specifier = specifier' := by
  obtain ⟨clause, quote, hline, hclause, hquote, hspecifier⟩ := h.exists_clause hbefore hcovered
  obtain ⟨clause', quote', hline', hclause', hquote', hspecifier'⟩ := h'.exists_front
  obtain ⟨-, hquoted, hinside, -⟩ := split_quoted hclause hquote hspecifier rest
  obtain ⟨-, hquoted', hinside', -⟩ := split_quoted hclause' hquote' hspecifier' rest'
  -- both are what stands behind the first quote of the line
  rw [← hline, hline', hquoted'] at hquoted
  obtain ⟨-, hbehind⟩ := List.cons_eq_cons.mp hquoted
  rw [← hinside, ← hbehind, hinside']

/-! ### Places of statements -/

/-- Whether a line starts behind a text, which may itself start in the middle of a line. -/
def endsLine (atStart : Bool) (before : List Char) : Bool :=
  (before.getLast?.map (· == '\n')).getD atStart

lemma endsLine_append (atStart : Bool) (before between : List Char) :
    endsLine atStart (before ++ between) = endsLine (endsLine atStart before) between := by
  rcases List.eq_nil_or_concat' between with rfl | ⟨between, last, rfl⟩
  · rw [List.append_nil]
    rfl
  · simp [endsLine, ← List.append_assoc]

/-- Behind `p` characters of a text a line starts with a statement that gives a specifier. -/
def StatesAt (atStart : Bool) (cs : List Char) (p : Nat) (specifier : List Char) : Prop :=
  ∃ before line rest, cs = before ++ line ∧ before.length = p ∧ endsLine atStart before = true ∧
    IsStatement line specifier rest

variable {atStart : Bool} {p : Nat}

lemma statesAt_zero : StatesAt atStart cs 0 specifier ↔
    ∃ rest, (if atStart then statement? cs else none) = some (specifier, rest) := by
  constructor
  · rintro ⟨before, line, rest, rfl, hlength, hstart, hstatement⟩
    obtain rfl := List.length_eq_zero_iff.mp hlength
    obtain rfl : atStart = true := hstart
    exact ⟨rest, statement?_eq_some_iff.mpr hstatement⟩
  · rintro ⟨rest, h⟩
    split at h
    · next hstart =>
      exact ⟨[], cs, rest, rfl, rfl, hstart, statement?_eq_some_iff.mp h⟩
    · cases h

/-- Behind the first part of a text its places are those of the rest. -/
lemma statesAt_append : StatesAt atStart (before ++ cs) (before.length + p) specifier ↔
    StatesAt (endsLine atStart before) cs p specifier := by
  constructor
  · rintro ⟨start, line, rest, hcs, hlength, hstart, hstatement⟩
    obtain ⟨between, rfl, rfl⟩ : ∃ between, start = before ++ between ∧ cs = between ++ line := by
      rcases List.append_eq_append_iff.mp hcs with ⟨between, hbetween⟩ | ⟨between, hbefore, hline⟩
      · exact ⟨between, hbetween⟩
      · rw [hbefore, List.length_append] at hlength
        obtain rfl : between = [] := List.length_eq_zero_iff.mp (by omega)
        exact ⟨[], by simpa using hbefore.symm, by simpa using hline.symm⟩
    rw [endsLine_append] at hstart
    exact ⟨between, line, rest, rfl, by simpa using hlength, hstart, hstatement⟩
  · rintro ⟨between, line, rest, rfl, rfl, hstart, hstatement⟩
    rw [← endsLine_append] at hstart
    exact ⟨before ++ between, line, rest, by simp, by simp, hstart, hstatement⟩

/-- What is read of a statement ends in its closing quote, so no line starts behind it. -/
lemma IsStatement.exists_before (h : IsStatement line specifier rest) (atStart : Bool) :
    ∃ before, line = before ++ rest ∧ before ≠ [] ∧ endsLine atStart before = false := by
  obtain ⟨front, quote, rfl, -, hquote, -⟩ := h.exists_front
  refine ⟨front ++ quote :: specifier ++ [quote], by simp, by simp, ?_⟩
  have hlast : quote ≠ '\n' := by
    rintro rfl
    exact absurd hquote (by decide)
  rw [endsLine, List.getLast?_concat]
  simpa using hlast

/-- All that is stated from the start of a statement to its end is its specifier. -/
lemma StatesAt.eq_of_covered (hstatement : IsStatement (before ++ rest) specifier rest)
    (h : StatesAt true (before ++ rest) p specifier') (hp : p < before.length) :
    specifier' = specifier := by
  obtain ⟨start, line, rest', hcs, rfl, hstart, hstatement'⟩ := h
  rcases List.eq_nil_or_concat' start with rfl | ⟨start, last, rfl⟩
  · rw [hcs, List.nil_append, ← statement?_eq_some_iff] at hstatement
    rw [← statement?_eq_some_iff, hstatement] at hstatement'
    cases hstatement'
    rfl
  · have hcovered : rest.length < line.length := by
      have hlength := congrArg List.length hcs
      simp only [List.length_append] at hlength hp
      omega
    rw [hcs] at hstatement
    exact (hstatement.eq_of_covered hstatement' (by simpa [endsLine] using hstart) hcovered).symm

/-! ### The search for statements -/

/-- A search from the `n`-th character on finds places and specifiers in order, each specifier where
it is given first. -/
structure Finds (n : Nat) (atStart : Bool) (cs : List Char) (found : List (Nat × List Char)) :
    Prop where
  sorted : found.Pairwise fun d e => d.1 < e.1
  states : ∀ e ∈ found, n ≤ e.1 ∧ StatesAt atStart cs e.1 e.2
  first : ∀ p specifier, n ≤ p → StatesAt atStart cs p specifier → ∃ q ≤ p, (q, specifier) ∈ found

variable {found : List (Nat × List Char)} {n : Nat}

/-- What is found in the rest of a text is found in the text behind its first part. -/
lemma Finds.append (before : List Char) (h : Finds 0 (endsLine atStart before) cs found) :
    Finds before.length atStart (before ++ cs)
      (found.map fun e => (before.length + e.1, e.2)) := by
  refine ⟨?_, ?_, ?_⟩
  · rw [List.pairwise_map]
    exact h.sorted.imp fun hlt => Nat.add_lt_add_left hlt _
  · intro e he
    obtain ⟨e', he', rfl⟩ := List.mem_map.mp he
    exact ⟨Nat.le_add_right _ _, statesAt_append.mpr (h.states e' he').2⟩
  · intro p specifier hp hstates
    obtain ⟨p, rfl⟩ := Nat.exists_eq_add_of_le hp
    obtain ⟨q, hq, hmem⟩ := h.first p specifier (Nat.zero_le _) (statesAt_append.mp hstates)
    exact ⟨before.length + q, Nat.add_le_add_left hq _, List.mem_map.mpr ⟨_, hmem, rfl⟩⟩

/-- Nothing is missed where nothing is stated. -/
lemma Finds.of_none (h : Finds n atStart cs found)
    (hnone : ∀ p < n, ∀ specifier, ¬ StatesAt atStart cs p specifier) :
    Finds 0 atStart cs found := by
  refine ⟨h.sorted, fun e he => ⟨Nat.zero_le _, (h.states e he).2⟩, ?_⟩
  intro p specifier _ hstates
  by_cases hp : n ≤ p
  · exact h.first p specifier hp hstates
  · exact absurd hstates (hnone p (Nat.lt_of_not_le hp) specifier)

/-- Nothing is missed where only what was found at the start is stated again. -/
lemma Finds.cons (h : Finds n atStart cs found) (hn : 0 < n)
    (hstart : StatesAt atStart cs 0 specifier)
    (hsame : ∀ p < n, ∀ specifier', StatesAt atStart cs p specifier' → specifier' = specifier) :
    Finds 0 atStart cs ((0, specifier) :: found) := by
  refine ⟨List.pairwise_cons.mpr ⟨?_, h.sorted⟩, ?_, ?_⟩
  · exact fun e he => Nat.lt_of_lt_of_le hn (h.states e he).1
  · intro e he
    rcases List.mem_cons.mp he with rfl | he
    · exact ⟨Nat.zero_le _, hstart⟩
    · exact ⟨Nat.zero_le _, (h.states e he).2⟩
  · intro p specifier' _ hstates
    by_cases hp : n ≤ p
    · obtain ⟨q, hq, hmem⟩ := h.first p specifier' hp hstates
      exact ⟨q, hq, List.mem_cons_of_mem _ hmem⟩
    · obtain rfl := hsame p (Nat.lt_of_not_le hp) specifier' hstates
      exact ⟨0, Nat.zero_le _, List.mem_cons_self⟩

/-- The search of a text finds all specifiers that its lines state. -/
theorem exists_finds (atStart : Bool) (cs : List Char) :
    ∃ found, Finds 0 atStart cs found ∧ scan atStart cs = found.map (·.2) := by
  fun_induction scan with
  | case1 atStart cs specifier rest h hlength ih =>
    obtain ⟨found, hfinds, hscan⟩ := ih
    obtain ⟨rfl, h⟩ : atStart = true ∧ statement? cs = some (specifier, rest) := by
      split at h
      · next hstart => exact ⟨hstart, h⟩
      · cases h
    have hstatement := statement?_eq_some_iff.mp h
    obtain ⟨before, rfl, hne, hends⟩ := hstatement.exists_before true
    rw [← hends] at hfinds
    refine ⟨_, (hfinds.append before).cons (List.length_pos_of_ne_nil hne)
      ⟨[], _, rest, rfl, rfl, rfl, hstatement⟩ ?_, ?_⟩
    · -- the search goes on behind the statement, and what starts within it gives its specifier
      intro p hp specifier' hstates
      exact hstates.eq_of_covered hstatement hp
    · simp [hscan, Function.comp_def]
  | case2 atStart h =>
    refine ⟨[], ⟨.nil, nofun, ?_⟩, rfl⟩
    rintro p specifier - ⟨before, line, rest, hcs, -, -, hstatement⟩
    exact absurd (List.append_eq_nil_iff.mp hcs.symm).2 hstatement.ne_nil
  | case3 atStart c cs h ih =>
    obtain ⟨found, hfinds, hscan⟩ := ih
    refine ⟨_, Finds.of_none (Finds.append [c] hfinds) ?_, ?_⟩
    · -- only the first character is left out, and no statement starts there
      intro p hp specifier hstates
      obtain rfl : p = 0 := Nat.lt_one_iff.mp hp
      obtain ⟨rest, hrest⟩ := statesAt_zero.mp hstates
      rw [h] at hrest
      cases hrest
    · simp [hscan, Function.comp_def]

/-! ### The specifiers of a source -/

/-- Texts without their repetitions are in the order of their first places. -/
lemma pairwise_eraseDups {α : Type} [BEq α] [LawfulBEq α] (found : List (Nat × α))
    (hsorted : found.Pairwise fun d e => d.1 < e.1) : (found.map (·.2)).eraseDups.Pairwise
      fun s t => ∃ p, (p, s) ∈ found ∧ ∀ q, (q, t) ∈ found → p < q := by
  induction hlength : found.length using Nat.strong_induction_on generalizing found with
  | h length ih =>
    subst hlength
    cases found with
    | nil => exact .nil
    | cons e found =>
      obtain ⟨n, s⟩ := e
      obtain ⟨hfirst, hsorted⟩ := List.pairwise_cons.mp hsorted
      have hothers := ih _ (Nat.lt_succ_of_le (List.length_filter_le (fun e => !e.2 == s) found))
        (found.filter fun e => !e.2 == s) (hsorted.filter _) rfl
      have herase : (((n, s) :: found).map (·.2)).eraseDups
          = s :: ((found.filter fun e => !e.2 == s).map (·.2)).eraseDups := by
        rw [List.map_cons, List.eraseDups_cons, List.filter_map]
        rfl
      have hne : ∀ t ∈ ((found.filter fun e => !e.2 == s).map (·.2)).eraseDups, t ≠ s := by
        intro t ht
        obtain ⟨e, he, rfl⟩ := List.mem_map.mp (List.mem_eraseDups.mp ht)
        simpa using (List.mem_filter.mp he).2
      rw [herase, List.pairwise_cons]
      refine ⟨?_, hothers.imp_of_mem ?_⟩
      · intro t ht
        refine ⟨n, List.mem_cons_self, ?_⟩
        intro q hq
        rcases List.mem_cons.mp hq with heq | hq
        · exact absurd (congrArg Prod.snd heq) (hne t ht)
        · exact hfirst _ hq
      · rintro a b - hb ⟨p, hp, hless⟩
        refine ⟨p, List.mem_cons_of_mem _ (List.mem_filter.mp hp).1, ?_⟩
        intro q hq
        rcases List.mem_cons.mp hq with heq | hq
        · exact absurd (congrArg Prod.snd heq) (hne b hb)
        · exact hless q (List.mem_filter.mpr ⟨hq, by simpa using hne b hb⟩)

/-- Behind `p` characters of a source a line starts with a statement that gives a specifier. -/
def IsStatedAt (source : String) (p : Nat) (specifier : String) : Prop :=
  StatesAt true source.toList p specifier.toList

/-- The specifiers of a source are those that its lines state, also where one statement reaches into
the lines of the next; each comes once, in the order of the lines that state them first. -/
theorem ofSource_states (source : String) :
    (∀ specifier, specifier ∈ ofSource source ↔ ∃ p, IsStatedAt source p specifier) ∧
      (ofSource source).Nodup ∧
      (ofSource source).Pairwise fun s t =>
        ∃ p, IsStatedAt source p s ∧ ∀ q, IsStatedAt source q t → p < q := by
  obtain ⟨found, hfinds, hscan⟩ := exists_finds true source.toList
  have hsource : ofSource source
      = ((found.map fun e => (e.1, String.ofList e.2)).map (·.2)).eraseDups := by
    rw [ofSource, hscan, List.map_map, List.map_map]
    rfl
  have hmem : ∀ {p specifier}, (p, specifier) ∈ found.map (fun e => (e.1, String.ofList e.2)) →
      IsStatedAt source p specifier := by
    intro p specifier h
    obtain ⟨e, he, heq⟩ := List.mem_map.mp h
    cases heq
    simpa [IsStatedAt] using (hfinds.states e he).2
  have hfirst : ∀ {p specifier}, IsStatedAt source p specifier →
      ∃ q ≤ p, (q, specifier) ∈ found.map fun e => (e.1, String.ofList e.2) := by
    intro p specifier h
    obtain ⟨q, hq, hfound⟩ := hfinds.first p specifier.toList (Nat.zero_le p) h
    exact ⟨q, hq, List.mem_map.mpr ⟨_, hfound, by simp⟩⟩
  have hordered := pairwise_eraseDups (found.map fun e => (e.1, String.ofList e.2))
    (List.pairwise_map.mpr hfinds.sorted)
  rw [← hsource] at hordered
  refine ⟨?_, hordered.imp ?_, hordered.imp ?_⟩
  · intro specifier
    rw [hsource, List.mem_eraseDups, List.mem_map]
    constructor
    · rintro ⟨e, he, rfl⟩
      exact ⟨e.1, hmem he⟩
    · rintro ⟨p, hp⟩
      obtain ⟨q, -, hfound⟩ := hfirst hp
      exact ⟨_, hfound, rfl⟩
  · rintro s t ⟨p, hp, hless⟩ rfl
    exact absurd (hless p hp) (Nat.lt_irrefl p)
  · rintro s t ⟨p, hp, hless⟩
    refine ⟨p, hmem hp, ?_⟩
    intro q hq
    obtain ⟨q', hle, hfound⟩ := hfirst hq
    exact Nat.lt_of_lt_of_le (hless q' hfound) hle

example : ofSource "export\nimport x from 'a'\nimport 'b'" = ["a", "b"] := by decide +kernel

end Bundler.Specifier
