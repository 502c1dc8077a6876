import Mathlib.Data.List.Basic
import Mathlib.Tactic.Lemma
import Bundler.Text.JsonString

/-!
# JSON strings and arrays of strings

A JSON string stands between quotes and holds characters as they are or escaped; an array of strings
may have white space between its tokens. A text is read as a JSON string in one way only, whatever
follows it, and the string that is written for a text is read as that text.
-/

namespace Bundler.Text.JsonString

variable {t t' rest rest' cs : List Char} {c : Char} {s s' : String} {ss ss' : List String}

/-! ### Hexadecimal digits -/

/-- A digit is read back as its value. -/
lemma hexValue?_hexDigit (n : Nat) (h : n < 16) : hexValue? (hexDigit n) = some n := by
  have : ∀ n : Fin 16, hexValue? (hexDigit n) = some n.val := by decide
  exact this ⟨n, h⟩

@[simp] lemma length_hexDigits (width n : Nat) : (hexDigits width n).length = width := by
  induction width generalizing n with
  | zero => rfl
  | succ width ih => simp [hexDigits, ih]

/-- Digits are read back as the number they write, up to their width. -/
lemma valueIn?_hexDigits (width n : Nat) :
    valueIn? 16 (hexDigits width n) = some (n % Nat.pow 16 width) := by
  induction width generalizing n with
  | zero => simp [hexDigits, valueIn?, Nat.mod_one]
  | succ width ih =>
    have h := ih (n / 16)
    simp only [valueIn?] at h ⊢
    rw [hexDigits, List.foldl_append, h]
    have hd : n % 16 < 16 := Nat.mod_lt _ (by decide)
    simp only [List.foldl_cons, List.foldl_nil, Option.bind_eq_bind, Option.bind_some,
      hexValue?_hexDigit _ hd, hd, if_true, Option.some.injEq]
    have hpow : Nat.pow 16 (width + 1) = 16 * Nat.pow 16 width := Nat.mul_comm _ _
    rw [hpow, Nat.mod_mul]
    omega

/-! ### The grammar -/

/-- The letters that stand for a character behind a backslash. -/
def shortEscapes : List (Char × Char) :=
  [(quote, quote), ('\\', '\\'), ('/', '/'), ('b', '\x08'), ('f', '\x0c'), ('n', '\n'), ('r', '\r'),
    ('t', '\t')]

/-- Four hexadecimal digits, of either case, with their value. -/
def IsUnit (digits : List Char) (n : Nat) : Prop :=
  digits.length = 4 ∧ valueIn? 16 digits = some n

/-- The text of one character inside the quotes. -/
inductive IsCharText : List Char → Char → Prop where
  | plain {c : Char} (hquote : c ≠ quote) (hbackslash : c ≠ '\\') (hcontrol : 0x20 ≤ c.toNat) :
      IsCharText [c] c
  | short {letter c : Char} (h : (letter, c) ∈ shortEscapes) : IsCharText ['\\', letter] c
  | unit {digits : List Char} {n : Nat} (h : IsUnit digits n) (hn : n < 0xD800 ∨ 0xE000 ≤ n) :
      IsCharText ('\\' :: 'u' :: digits) (Char.ofNat n)
  /-- A character beyond U+FFFF as a pair of surrogates. -/
  | pair {digits digits' : List Char} {high low : Nat} (h : IsUnit digits high)
      (h' : IsUnit digits' low) (hhigh : 0xD800 ≤ high ∧ high < 0xDC00)
      (hlow : 0xDC00 ≤ low ∧ low < 0xE000) :
      IsCharText ('\\' :: 'u' :: (digits ++ '\\' :: 'u' :: digits'))
        (Char.ofNat (0x10000 + (high - 0xD800) * 0x400 + (low - 0xDC00)))

/-- The text of some characters inside the quotes. -/
inductive IsBody : List Char → List Char → Prop where
  | nil : IsBody [] []
  | cons {t ts cs : List Char} {c : Char} (h : IsCharText t c) (h' : IsBody ts cs) :
      IsBody (t ++ ts) (c :: cs)

/-- The text is a JSON string for `s`. -/
def IsLiteral (t : List Char) (s : String) : Prop :=
  ∃ body, t = quote :: body ++ [quote] ∧ IsBody body s.toList

/-- The white space of JSON. -/
def isSpace (c : Char) : Bool := c = ' ' || c = '\t' || c = '\n' || c = '\r'

/-- White space between two tokens. -/
def IsGap (t : List Char) : Prop := ∀ c ∈ t, isSpace c = true

/-- JSON strings with commas between them and white space around each. -/
inductive AreItems : List Char → List String → Prop where
  | last {before t after : List Char} {s : String} (hbefore : IsGap before) (h : IsLiteral t s)
      (hafter : IsGap after) : AreItems (before ++ (t ++ after)) [s]
  | cons {before t after ts : List Char} {s : String} {ss : List String} (hbefore : IsGap before)
      (h : IsLiteral t s) (hafter : IsGap after) (h' : AreItems ts ss) :
      AreItems (before ++ (t ++ (after ++ ',' :: ts))) (s :: ss)

/-- The text is a JSON array of the strings for `ss`. -/
inductive IsArray : List Char → List String → Prop where
  | empty {gap : List Char} (h : IsGap gap) : IsArray ('[' :: gap ++ [']']) []
  | items {ts : List Char} {ss : List String} (h : AreItems ts ss) : IsArray ('[' :: ts ++ [']']) ss

/-! ### Reading strings -/

lemma decodeUnit_append {digits : List Char} {n : Nat} (h : IsUnit digits n) (rest : List Char) :
    decodeUnit (digits ++ rest) = some (n, rest) := by
  obtain ⟨hlength, hvalue⟩ := h
  match digits, hlength with
  | [a, b, c, d], _ => simp [decodeUnit, hvalue]

/-- The text of a character is read as that character, whatever follows it. -/
lemma decodeChar_append (h : IsCharText t c) (rest : List Char) :
    decodeChar (t ++ rest) = some (c, rest) := by
  cases h with
  | plain hquote hbackslash hcontrol =>
    have hcontrol : ¬ c.toNat < 0x20 := by omega
    simp [decodeChar, hquote, hbackslash, hcontrol]
  | short h =>
    simp only [shortEscapes, List.mem_cons, Prod.mk.injEq, List.not_mem_nil, or_false] at h
    rcases h with ⟨rfl, rfl⟩ | ⟨rfl, rfl⟩ | ⟨rfl, rfl⟩ | ⟨rfl, rfl⟩ | ⟨rfl, rfl⟩ | ⟨rfl, rfl⟩ |
      ⟨rfl, rfl⟩ | ⟨rfl, rfl⟩ <;> rfl
  | @unit digits n h hn =>
    have hhigh : ¬ (0xD800 ≤ n ∧ n < 0xDC00) := by omega
    have hlow : ¬ (0xDC00 ≤ n ∧ n < 0xE000) := by omega
    simp only [List.cons_append, decodeChar, decodeUnit_append h, Option.bind_eq_bind,
      Option.bind_some, if_neg hhigh, if_neg hlow]
  | @pair digits digits' high low h h' hhigh hlow =>
    simp only [List.cons_append, List.append_assoc, decodeChar, decodeUnit_append h,
      decodeUnit_append h', Option.bind_eq_bind, Option.bind_some, if_pos hhigh, if_pos hlow]

lemma IsCharText.head?_ne (h : IsCharText t c) (rest : List Char) :
    (t ++ rest).head? ≠ some quote := by
  cases h with
  | plain hquote => simpa using hquote
  | _ => simp [quote]

lemma IsCharText.length_pos (h : IsCharText t c) : 0 < t.length := by
  cases h <;> simp

lemma IsBody.length_le (h : IsBody t cs) : cs.length ≤ t.length := by
  induction h with
  | nil => exact Nat.le_refl _
  | cons h _ ih =>
    have := h.length_pos
    rw [List.length_append, List.length_cons]
    omega

/-- The text inside the quotes is read up to the closing one. -/
lemma decodeBody_append (h : IsBody t cs) (rest : List Char) {fuel : Nat}
    (hfuel : cs.length < fuel) : decodeBody fuel (t ++ quote :: rest) = some (cs, rest) := by
  induction h generalizing fuel with
  | nil =>
    obtain ⟨fuel, rfl⟩ : ∃ n, fuel = n + 1 := ⟨fuel - 1, by omega⟩
    simp [decodeBody]
  | @cons t ts cs c h _ ih =>
    obtain ⟨fuel, rfl⟩ : ∃ n, fuel = n + 1 := ⟨fuel - 1, by omega⟩
    rw [List.length_cons] at hfuel
    rw [List.append_assoc, decodeBody, if_neg (h.head?_ne _), decodeChar_append h]
    simp [ih (by omega : cs.length < fuel)]

/-- A JSON string is read as what it stands for, whatever follows it. -/
theorem decode_append (h : IsLiteral t s) (rest : List Char) :
    decode (t ++ rest) = some (s.toList, rest) := by
  obtain ⟨body, rfl, hbody⟩ := h
  have hfuel : s.toList.length < (body ++ quote :: rest).length + 1 := by
    have := hbody.length_le
    rw [List.length_append]
    omega
  have hshape : (quote :: body ++ [quote]) ++ rest = quote :: (body ++ quote :: rest) := by simp
  rw [hshape, decode, if_pos rfl]
  exact decodeBody_append hbody rest hfuel

/-- There is one way to read a JSON string at the front of a text. -/
theorem IsLiteral.unique (h : IsLiteral t s) (h' : IsLiteral t' s')
    (heq : t ++ rest = t' ++ rest') : s = s' ∧ t = t' ∧ rest = rest' := by
  have hread := decode_append h rest
  rw [heq, decode_append h' rest', Option.some.injEq, Prod.mk.injEq] at hread
  obtain ⟨hs, hrest⟩ := hread
  rw [hrest] at heq
  exact ⟨(String.toList_inj.mp hs).symm, List.append_cancel_right heq, hrest.symm⟩

/-! ### Reading arrays -/

lemma IsLiteral.isSpace_head (h : IsLiteral t s) (rest : List Char) :
    ∃ tail, t ++ rest = quote :: tail := by
  obtain ⟨body, rfl, -⟩ := h
  exact ⟨_, List.cons_append⟩

/-- White space in front of something else can be told from it. -/
lemma IsGap.dropWhile_append (h : IsGap t) (hrest : ∀ c ∈ rest.head?, isSpace c = false) :
    (t ++ rest).dropWhile isSpace = rest := by
  rw [List.dropWhile_append_of_pos h]
  cases rest with
  | nil => rfl
  | cons c rest => simp [hrest c rfl]

lemma IsGap.unique (h : IsGap t) (h' : IsGap t') (hrest : ∀ c ∈ rest.head?, isSpace c = false)
    (hrest' : ∀ c ∈ rest'.head?, isSpace c = false) (heq : t ++ rest = t' ++ rest') :
    rest = rest' := by
  rw [← h.dropWhile_append hrest, heq, h'.dropWhile_append hrest']

/-- Each item can be told from what stands behind it. -/
lemma item_unique {before before' after after' : List Char} (hbefore : IsGap before)
    (h : IsLiteral t s) (hafter : IsGap after) (hbefore' : IsGap before') (h' : IsLiteral t' s')
    (hafter' : IsGap after') (hrest : rest = [] ∨ ∃ ts, rest = ',' :: ts)
    (hrest' : rest' = [] ∨ ∃ ts, rest' = ',' :: ts)
    (heq : before ++ (t ++ (after ++ rest)) = before' ++ (t' ++ (after' ++ rest'))) :
    s = s' ∧ rest = rest' := by
  have hquote : ∀ {t s} (_ : IsLiteral t s) (rest : List Char), ∀ c ∈ (t ++ rest).head?,
      isSpace c = false := by
    intro t s h rest c hc
    obtain ⟨tail, htail⟩ := h.isSpace_head rest
    rw [htail] at hc
    obtain rfl : quote = c := by simpa using hc
    rfl
  have hcomma : ∀ {rest : List Char}, (rest = [] ∨ ∃ ts, rest = ',' :: ts) →
      ∀ c ∈ rest.head?, isSpace c = false := by
    rintro rest (rfl | ⟨ts, rfl⟩) c hc
    · cases hc
    · obtain rfl : ',' = c := by simpa using hc
      rfl
  have hitem := hbefore.unique hbefore' (hquote h _) (hquote h' _) heq
  obtain ⟨hs, -, hbehind⟩ := h.unique h' hitem
  exact ⟨hs, hafter.unique hafter' (hcomma hrest) (hcomma hrest') hbehind⟩

lemma AreItems.unique (h : AreItems t ss) (h' : AreItems t ss') : ss = ss' := by
  induction h generalizing ss' with
  | @last before t after s hbefore ht hafter =>
    generalize heq : before ++ (t ++ after) = whole at h'
    rw [← List.append_nil after] at heq
    cases h' with
    | @last before' t' after' _ hbefore' ht' hafter' =>
      rw [← List.append_nil after'] at heq
      obtain ⟨rfl, -⟩ := item_unique hbefore ht hafter hbefore' ht' hafter' (.inl rfl) (.inl rfl)
        heq
      rfl
    | cons hbefore' ht' hafter' _ =>
      obtain ⟨-, hnil⟩ := item_unique hbefore ht hafter hbefore' ht' hafter' (.inl rfl)
        (.inr ⟨_, rfl⟩) heq
      cases hnil
  | @cons before t after ts s ss hbefore ht hafter _ ih =>
    generalize heq : before ++ (t ++ (after ++ ',' :: ts)) = whole at h'
    cases h' with
    | @last before' t' after' _ hbefore' ht' hafter' =>
      rw [← List.append_nil after'] at heq
      obtain ⟨-, hnil⟩ := item_unique hbefore ht hafter hbefore' ht' hafter' (.inr ⟨_, rfl⟩)
        (.inl rfl) heq
      cases hnil
    | cons hbefore' ht' hafter' hrest =>
      obtain ⟨rfl, hbehind⟩ := item_unique hbefore ht hafter hbefore' ht' hafter' (.inr ⟨_, rfl⟩)
        (.inr ⟨_, rfl⟩) heq
      obtain rfl := (List.cons.inj hbehind).2
      rw [ih hrest]

/-- Items are more than white space. -/
lemma AreItems.not_isGap (h : AreItems t ss) : ¬ IsGap t := by
  have hquote : ∀ {t s} (_ : IsLiteral t s), quote ∈ t := by
    rintro t s ⟨body, rfl, -⟩
    exact List.mem_cons_self
  intro hgap
  have hmem : quote ∈ t := by
    cases h with
    | last _ ht => simp [hquote ht]
    | cons _ ht => simp [hquote ht]
  cases hgap _ hmem

/-- There is one way to read a JSON array of strings. -/
theorem IsArray.unique (h : IsArray t ss) (h' : IsArray t ss') : ss = ss' := by
  cases h with
  | @empty gap hgap =>
    generalize heq : '[' :: gap ++ [']'] = whole at h'
    cases h' with
    | empty => rfl
    | items hitems =>
      rw [List.append_cancel_right_eq, List.cons.injEq] at heq
      exact absurd (heq.2 ▸ hgap) hitems.not_isGap
  | @items ts ss hitems =>
    generalize heq : '[' :: ts ++ [']'] = whole at h'
    cases h' with
    | empty hgap =>
      rw [List.append_cancel_right_eq, List.cons.injEq] at heq
      exact absurd (heq.2 ▸ hgap) hitems.not_isGap
    | items hitems' =>
      rw [List.append_cancel_right_eq, List.cons.injEq] at heq
      exact hitems.unique (heq.2 ▸ hitems')

/-! ### Writing -/

lemma isUnit_hexDigits {n : Nat} (h : n < 0x10000) : IsUnit (hexDigits 4 n) n := by
  refine ⟨length_hexDigits 4 n, ?_⟩
  have hpow : Nat.pow 16 4 = 0x10000 := rfl
  rw [valueIn?_hexDigits, hpow, Nat.mod_eq_of_lt h]

lemma toNat_valid (c : Char) : c.toNat < 0xD800 ∨ 0xE000 ≤ c.toNat ∧ c.toNat < 0x110000 := by
  rcases c.valid with h | ⟨h, h'⟩
  · exact Or.inl h
  · exact Or.inr ⟨h, h'⟩

lemma isCharText_encodeChar (c : Char) : IsCharText (encodeChar c) c := by
  have hvalid := toNat_valid c
  unfold encodeChar
  split_ifs with h₁ h₂ h₃ h₄ h₅ h₆ h₇ hplain hsmall
  · exact .short (by simp [shortEscapes, h₁])
  · exact .short (by simp [shortEscapes, h₂])
  · exact .short (by simp [shortEscapes, h₃])
  · exact .short (by simp [shortEscapes, h₄])
  · exact .short (by simp [shortEscapes, h₅])
  · exact .short (by simp [shortEscapes, h₆])
  · exact .short (by simp [shortEscapes, h₇])
  · exact .plain h₁ h₂ hplain.1
  · have h := IsCharText.unit (isUnit_hexDigits hsmall) (by omega)
    rwa [Char.ofNat_toNat] at h
  · have h := IsCharText.pair
      (isUnit_hexDigits (n := 0xD800 + (c.toNat - 0x10000) / 0x400) (by omega))
      (isUnit_hexDigits (n := 0xDC00 + (c.toNat - 0x10000) % 0x400) (by omega)) (by omega)
      (by omega)
    have hvalue : 0x10000 + (0xD800 + (c.toNat - 0x10000) / 0x400 - 0xD800) * 0x400
        + (0xDC00 + (c.toNat - 0x10000) % 0x400 - 0xDC00) = c.toNat := by omega
    rwa [hvalue, Char.ofNat_toNat] at h

lemma isBody_encodeBody (cs : List Char) : IsBody (encodeBody cs) cs := by
  induction cs with
  | nil => exact .nil
  | cons c cs ih => exact .cons (isCharText_encodeChar c) ih

/-- What is written for a text is a JSON string for it. -/
theorem isLiteral_encode (s : String) : IsLiteral (encode s).toList s := by
  refine ⟨encodeBody s.toList, ?_, isBody_encodeBody _⟩
  rw [encode, String.toList_ofList]

lemma AreItems.space (h : AreItems t ss) : AreItems (' ' :: t) ss := by
  have hspace : ∀ {before}, IsGap before → IsGap (' ' :: before) := by
    intro before hbefore
    exact List.forall_mem_cons.mpr ⟨rfl, hbefore⟩
  cases h with
  | last hbefore ht hafter => exact .last (hspace hbefore) ht hafter
  | cons hbefore ht hafter h' => exact .cons (hspace hbefore) ht hafter h'

@[simp] lemma isGap_nil : IsGap [] := fun _ => nofun

lemma areItems_encode (s : String) (ss : List String) :
    AreItems (String.intercalate ", " ((s :: ss).map encode)).toList (s :: ss) := by
  induction ss generalizing s with
  | nil =>
    have h := AreItems.last isGap_nil (isLiteral_encode s) isGap_nil
    simpa using h
  | cons next ss ih =>
    have h := AreItems.cons isGap_nil (isLiteral_encode s) isGap_nil (ih next).space
    rw [List.map_cons, List.map_cons, String.intercalate_cons_cons]
    simpa using h

/-- What is written for some texts is a JSON array of strings for them. -/
theorem isArray_encodeArray (ss : List String) : IsArray (encodeArray ss).toList ss := by
  cases ss with
  | nil => exact .empty isGap_nil
  | cons s ss =>
    have h := IsArray.items (areItems_encode s ss)
    simpa [encodeArray] using h

/-! ### What is written is printable ASCII -/

/-- All characters are printable and in ASCII. -/
def IsPrintableAscii (t : List Char) : Prop := ∀ c ∈ t, 0x20 ≤ c.toNat ∧ c.toNat < 0x7F

@[simp] lemma isPrintableAscii_nil : IsPrintableAscii [] := fun _ => nofun

@[simp] lemma isPrintableAscii_cons :
    IsPrintableAscii (c :: t) ↔ (0x20 ≤ c.toNat ∧ c.toNat < 0x7F) ∧ IsPrintableAscii t :=
  List.forall_mem_cons

@[simp] lemma isPrintableAscii_append :
    IsPrintableAscii (t ++ t') ↔ IsPrintableAscii t ∧ IsPrintableAscii t' :=
  List.forall_mem_append

lemma IsPrintableAscii.newline_notMem (h : IsPrintableAscii t) : '\n' ∉ t := by
  intro hmem
  exact absurd (h _ hmem).1 (by decide)

lemma isPrintableAscii_hexDigits (width n : Nat) : IsPrintableAscii (hexDigits width n) := by
  have hdigit : ∀ n : Fin 16, 0x20 ≤ (hexDigit n).toNat ∧ (hexDigit n).toNat < 0x7F := by decide
  induction width generalizing n with
  | zero => exact isPrintableAscii_nil
  | succ width ih =>
    have hlast := hdigit ⟨n % 16, Nat.mod_lt _ (by decide)⟩
    simpa [hexDigits, ih] using hlast

lemma isPrintableAscii_unit (n : Nat) : IsPrintableAscii (unit n) := by
  have h := isPrintableAscii_hexDigits 4 n
  simpa [unit] using h

lemma isPrintableAscii_encodeChar (c : Char) : IsPrintableAscii (encodeChar c) := by
  unfold encodeChar
  split_ifs with _ _ _ _ _ _ _ hplain
  iterate 7 · simp [quote]
  · simpa using hplain
  · exact isPrintableAscii_unit _
  · exact isPrintableAscii_append.mpr ⟨isPrintableAscii_unit _, isPrintableAscii_unit _⟩

lemma isPrintableAscii_encode (s : String) : IsPrintableAscii (encode s).toList := by
  have hbody : IsPrintableAscii (encodeBody s.toList) := by
    intro c hc
    obtain ⟨d, -, hd⟩ := List.mem_flatMap.mp hc
    exact isPrintableAscii_encodeChar d c hd
  simpa [encode, quote] using hbody

lemma isPrintableAscii_encodeArray (ss : List String) :
    IsPrintableAscii (encodeArray ss).toList := by
  have hitems : IsPrintableAscii (String.intercalate ", " (ss.map encode)).toList := by
    induction ss with
    | nil => exact isPrintableAscii_nil
    | cons s ss ih =>
      cases ss with
      | nil => simpa using isPrintableAscii_encode s
      | cons next ss =>
        rw [List.map_cons, List.map_cons, String.intercalate_cons_cons, ← List.map_cons]
        simp only [String.toList_append, isPrintableAscii_append]
        exact ⟨⟨isPrintableAscii_encode s, by simp⟩, ih⟩
  simpa [encodeArray] using hitems

end Bundler.Text.JsonString
