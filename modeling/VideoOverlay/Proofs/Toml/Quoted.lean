import VideoOverlay.Toml.Writer

/-!
# `Proofs.Toml.Quoted` — a written string is read as what it was

A string is written in one of four forms, and read without knowing which one was taken. Two things need an
argument. In a basic string every character is either itself or an escape, and the reader takes both for one
character (`written_escapeChar`). Between three quotes the string may hold quotes of its own: the reader looks
three characters ahead at every place, and must not take them for the end too early, nor leave one of the
string's last quotes out. It does neither, as up to two quotes at the very end are given back to the string
(`closingQuotes_replicate`), and three in a row stand nowhere else.

## Contents
- `Written`, `written_escapeChar`: what is written for a character.
- `afterTriple?_eq_none`, `afterTriple?_replicate`, `closingQuotes_replicate`: where three quotes are the end.
- `readBasic_escapeLine`, `readBasicLines_escapeLines`, `readLiteral_body`, `readLiteralLines_body`.
- `readQuoted_writeIn`: all forms.
-/

namespace VideoOverlay
namespace Toml

/-! ## Escapes -/

/-- What may be written for a character: an escape that is read as it and is no line break left out, or the
character itself. -/
inductive Written (c : Char) : List Char → Prop where
  | escape {code : List Char} (text : ∀ x ∈ code, isTextChar x = true)
      (read : ∀ rest, readEscape (code ++ rest) = some (c, rest))
      (stays : ∀ rest, continuation? (code ++ rest) = none) : Written c ('\\' :: code)
  | plain (no_quote : c ≠ '"') (no_backslash : c ≠ '\\') (text : isTextChar c = true) : Written c [c]

/-- What is no control character is text, line breaks aside. -/
theorem isTextChar_of_not_isControl {c : Char} (h : isControl c = false) (hbreak : c ≠ '\n') :
    isTextChar c = true := by
  rw [← Bool.not_eq_true] at h
  simp only [isControl, Bool.or_eq_true, Bool.and_eq_true, decide_eq_true_eq, isTextChar] at h ⊢
  by_cases htab : c = '\t'
  · exact .inl htab
  · exact .inr ⟨Nat.le_of_not_lt fun hlow => h (.inl ⟨⟨hlow, htab⟩, hbreak⟩), fun hdelete => h (.inr hdelete)⟩

theorem isTextChar_or_break {c : Char} (h : isControl c = false) : (isTextChar c || c = '\n') = true := by
  by_cases hbreak : c = '\n'
  · rw [decide_eq_true hbreak, Bool.or_true]
  · rw [isTextChar_of_not_isControl h hbreak, Bool.true_or]

/-- A letter that stands for a character makes an escape of it. -/
theorem written_letter {l c : Char} (htext : isTextChar l = true) (h : letterEscape? l = some c) :
    Written c ['\\', l] := by
  have hne : ∀ d : Char, letterEscape? d = none → l ≠ d := by
    rintro d hd rfl
    rw [hd] at h
    cases h
  have hblank : isBlankInLine l = false := by
    rw [isBlankInLine, decide_eq_false (hne ' ' rfl), decide_eq_false (hne '\t' rfl)]
    rfl
  refine .escape (fun x hx => List.mem_singleton.mp hx ▸ htext) (fun rest => ?_) fun rest => ?_
  · rw [List.singleton_append, readEscape, if_neg (hne 'u' rfl), if_neg (hne 'U' rfl), h]
    rfl
  · rw [List.singleton_append, continuation?, List.dropWhile_cons_of_neg (Bool.eq_false_iff.mp hblank)]
    exact if_neg (hne '\n' rfl)

theorem isTextChar_hexDigit {n : Nat} (h : n < 16) : isTextChar (Text.hexDigit n) = true := by
  revert n
  decide

/-- A small code point is read from its four digits. -/
theorem readCode_hexDigits {c : Char} (h : c.toNat < 256) (rest : List Char) :
    readCode 4 ('0' :: '0' :: Text.hexDigit (c.toNat / 16) :: Text.hexDigit (c.toNat % 16) :: rest)
      = some (c, rest) := by
  have hhigh : c.toNat / 16 < 16 := by omega
  have hlow : c.toNat % 16 < 16 := Nat.mod_lt _ (by decide)
  have hdigits :
      ['0', '0', Text.hexDigit (c.toNat / 16), Text.hexDigit (c.toNat % 16)].all Text.isHexDigit = true := by
    rw [List.all_cons, List.all_cons, List.all_cons, List.all_cons, Text.isHexDigit_hexDigit hhigh,
      Text.isHexDigit_hexDigit hlow]
    rfl
  have hvalue :
      Text.hexValue ['0', '0', Text.hexDigit (c.toNat / 16), Text.hexDigit (c.toNat % 16)] = c.toNat := by
    have hzero : Text.hexDigitValue '0' = 0 := rfl
    simp only [Text.hexValue, Text.digitsToBase, List.foldl_cons, List.foldl_nil, hzero,
      Text.hexDigitValue_hexDigit hhigh, Text.hexDigitValue_hexDigit hlow]
    omega
  have hchar : charOfCode? c.toNat = some c := by
    rw [charOfCode?, if_pos (show c.toNat.isValidChar from c.valid), Char.ofNat_toNat]
  rw [readCode]
  refine (if_pos ⟨rfl, hdigits⟩).trans ?_
  show (charOfCode? (Text.hexValue ['0', '0', Text.hexDigit (c.toNat / 16), Text.hexDigit (c.toNat % 16)])).map
    (fun d => (d, rest)) = _
  rw [hvalue, hchar]
  rfl

/-- Every character is written as one that is read as it. -/
theorem written_escapeChar (c : Char) : Written c (escapeChar c) := by
  rw [escapeChar]
  split
  next h =>
    subst h
    exact written_letter rfl rfl
  split
  next h =>
    subst h
    exact written_letter rfl rfl
  split
  next h =>
    subst h
    exact written_letter rfl rfl
  split
  next h =>
    subst h
    exact written_letter rfl rfl
  split
  next h =>
    subst h
    exact written_letter rfl rfl
  split
  next h =>
    subst h
    exact written_letter rfl rfl
  split
  next h =>
    subst h
    exact written_letter rfl rfl
  split
  next h =>
    have hsmall : c.toNat < 256 := by
      simp only [isControl, Bool.or_eq_true, Bool.and_eq_true, decide_eq_true_eq] at h
      omega
    refine .escape (fun x hx => ?_) (readCode_hexDigits hsmall) fun _ => rfl
    simp only [List.mem_cons, List.not_mem_nil, or_false] at hx
    rcases hx with rfl | rfl | rfl | rfl | rfl
    · rfl
    · rfl
    · rfl
    · exact isTextChar_hexDigit (by omega)
    · exact isTextChar_hexDigit (by omega)
  next _ _ hbreak _ _ hquote hbackslash h =>
    exact .plain hquote hbackslash (isTextChar_of_not_isControl (Bool.not_eq_true _ ▸ h) hbreak)

variable {c : Char} {cs w rest : List Char}

/-- What is written for a character does not begin with a quote. -/
theorem Written.head?_ne (h : Written c w) : w.head? ≠ some '"' := by
  cases h with
  | escape => exact fun h => absurd (Option.some.inj h) (by decide)
  | plain hquote => exact fun h => hquote (Option.some.inj h)

theorem Written.ne_nil (h : Written c w) : w ≠ [] := by
  cases h <;> exact List.cons_ne_nil _ _

theorem Written.isTextChar (h : Written c w) : ∀ x ∈ w, isTextChar x = true := by
  cases h with
  | escape htext => exact List.forall_mem_cons.mpr ⟨rfl, htext⟩
  | plain _ _ htext => exact fun x hx => List.mem_singleton.mp hx ▸ htext

/-! ## Basic strings on one line -/

theorem readBasic_written (h : Written c w) (rest : List Char) :
    readBasic (w ++ rest) = (readBasic rest).map (pushFront c) := by
  cases h with
  | escape _ hread =>
    rw [List.cons_append, readBasic, if_neg (by decide), if_pos rfl]
    split
    next d rest' hescape =>
      rw [hread] at hescape
      cases hescape
      rfl
    next hnone =>
      rw [hread] at hnone
      cases hnone
  | plain hquote hbackslash htext =>
    rw [List.singleton_append, readBasic, if_neg hquote, if_neg hbackslash, if_pos htext]

/-- The inside of a basic string on one line is read up to the quote behind it. -/
theorem readBasic_escapeLine (cs rest : List Char) :
    readBasic (escapeLine cs ++ '"' :: rest) = some (cs, rest) := by
  induction cs with
  | nil =>
    show readBasic ('"' :: rest) = _
    rw [readBasic, if_pos rfl]
  | cons c cs ih =>
    rw [escapeLine, List.flatMap_cons, List.append_assoc, readBasic_written (written_escapeChar c)]
    rw [escapeLine] at ih
    rw [ih]
    rfl

/-! ## Three quotes -/

variable {q x : Char} {body : List Char}

/-- Another character among the next three puts the end off. -/
theorem afterTriple?_eq_none (hne : x ≠ q) (hx : x ∈ body.take 3) (rest : List Char) :
    afterTriple? q (body ++ rest) = none := by
  refine if_neg fun htriple => hne ?_
  have hmem : x ∈ (body ++ rest).take 3 := by
    rw [List.take_append]
    exact List.mem_append_left _ hx
  rw [htriple] at hmem
  simpa using hmem

/-- A few quotes of the string's own stand in front of the three that close it. -/
theorem afterTriple?_replicate {k : Nat} (hk : k ≤ 2) (q : Char) (rest : List Char) :
    afterTriple? q (List.replicate k q ++ q :: q :: q :: rest) = some (List.replicate k q ++ rest) := by
  match k, hk with
  | 0, _ => exact if_pos rfl
  | 1, _ => exact if_pos rfl
  | 2, _ => exact if_pos rfl

/-- They are given back to the string. -/
theorem closingQuotes_replicate {k : Nat} (hk : k ≤ 2) (h : rest.head? ≠ some q) :
    closingQuotes q (List.replicate k q ++ rest) = (List.replicate k q, rest) := by
  have hnone : ∀ n, (rest.take n).takeWhile (· = q) = [] := by
    intro n
    cases n with
    | zero => rfl
    | succ n =>
      cases rest with
      | nil => rfl
      | cons x rest =>
        rw [List.take_succ_cons]
        exact List.takeWhile_cons_of_neg (by simpa using h)
  have hown : ((List.replicate k q ++ rest).take 2).takeWhile (· = q) = List.replicate k q := by
    rw [List.take_append, List.take_of_length_le (by rwa [List.length_replicate]),
      List.takeWhile_append_of_pos (fun x hx => by simpa using List.eq_of_mem_replicate hx), hnone,
      List.append_nil]
  rw [closingQuotes]
  simp only [hown, List.drop_left]

/-- A text without three quotes at its front has another character there, or is a few quotes and no more. -/
theorem mem_take_or_eq_replicate (hne : body.take 3 ≠ [q, q, q]) :
    (∃ x ∈ body.take 3, x ≠ q) ∨ ∃ k ≤ 2, body = List.replicate k q := by
  by_cases h : ∃ x ∈ body.take 3, x ≠ q
  · exact .inl h
  · have hall : body.take 3 = List.replicate (body.take 3).length q :=
      List.eq_replicate_iff.mpr ⟨rfl, fun x hx => Decidable.byContradiction fun hxq => h ⟨x, hx, hxq⟩⟩
    rw [List.length_take] at hall
    by_cases hlength : 3 ≤ body.length
    · rw [Nat.min_eq_left hlength] at hall
      exact absurd hall hne
    · rw [Nat.min_eq_right (by omega), List.take_of_length_le (by omega)] at hall
      exact .inr ⟨body.length, by omega, hall⟩

/-! ## Literal strings -/

/-- A run of characters that satisfy a condition ends at one that does not. -/
theorem takeWhile_run {p : Char → Bool} (hrun : ∀ c ∈ cs, p c = true) (hstop : p x = false) (rest : List Char) :
    (cs ++ x :: rest).takeWhile p = cs := by
  rw [List.takeWhile_append_of_pos hrun, List.takeWhile_cons_of_neg (Bool.eq_false_iff.mp hstop),
    List.append_nil]

theorem dropWhile_run {p : Char → Bool} (hrun : ∀ c ∈ cs, p c = true) (hstop : p x = false) (rest : List Char) :
    (cs ++ x :: rest).dropWhile p = x :: rest := by
  rw [List.dropWhile_append_of_pos hrun, List.dropWhile_cons_of_neg (Bool.eq_false_iff.mp hstop)]

/-- A literal string on one line is read up to the quote behind it. -/
theorem readLiteral_body (hquote : '\'' ∉ cs) (htext : ∀ c ∈ cs, isTextChar c = true) (rest : List Char) :
    readLiteral (cs ++ '\'' :: rest) = some (cs, rest) := by
  have hpass : ∀ c ∈ cs, decide (c ≠ '\'') = true := by
    intro c hc
    rw [decide_eq_true_eq]
    rintro rfl
    exact hquote hc
  rw [readLiteral, takeWhile_run hpass rfl, dropWhile_run hpass rfl]
  exact if_pos (List.all_eq_true.mpr htext)

theorem readLiteralLines_cons (hnone : afterTriple? '\'' (c :: cs) = none)
    (hc : (isTextChar c || c = '\n') = true) :
    readLiteralLines (c :: cs) = (readLiteralLines cs).map (pushFront c) := by
  rw [readLiteralLines, hnone]
  exact if_pos hc

theorem readLiteralLines_close {k : Nat} (hk : k ≤ 2) (hrest : rest.head? ≠ some '\'') :
    readLiteralLines (List.replicate k '\'' ++ '\'' :: '\'' :: '\'' :: rest)
      = some (List.replicate k '\'', rest) := by
  obtain ⟨c, cs, hcons⟩ : ∃ c cs, List.replicate k '\'' ++ '\'' :: '\'' :: '\'' :: rest = c :: cs :=
    List.exists_cons_of_ne_nil (List.append_ne_nil_of_right_ne_nil _ (List.cons_ne_nil _ _))
  have hend := afterTriple?_replicate hk '\'' rest
  rw [hcons] at hend ⊢
  rw [readLiteralLines, hend]
  exact congrArg some (closingQuotes_replicate hk hrest)

/-- A literal string on several lines is read up to the quotes behind it. -/
theorem readLiteralLines_body (htext : ∀ c ∈ cs, (isTextChar c || c = '\n') = true)
    (htriple : hasTriple '\'' cs = false) (hrest : rest.head? ≠ some '\'') :
    readLiteralLines (cs ++ '\'' :: '\'' :: '\'' :: rest) = some (cs, rest) := by
  induction cs with
  | nil => exact readLiteralLines_close (Nat.zero_le 2) hrest
  | cons c cs ih =>
    rw [hasTriple, Bool.or_eq_false_iff] at htriple
    have hfront : (c :: cs).take 3 ≠ ['\'', '\'', '\''] := by
      intro heq
      rw [afterTriple?, if_pos heq] at htriple
      cases htriple.1
    rcases mem_take_or_eq_replicate hfront with ⟨x, hx, hne⟩ | ⟨k, hk, hall⟩
    · have hnone := afterTriple?_eq_none hne hx ('\'' :: '\'' :: '\'' :: rest)
      rw [List.cons_append] at hnone ⊢
      rw [readLiteralLines_cons hnone (htext c List.mem_cons_self),
        ih (fun d hd => htext d (List.mem_cons_of_mem c hd)) htriple.2]
      rfl
    · rw [hall]
      exact readLiteralLines_close hk hrest

/-! ## Basic strings on several lines -/

theorem readBasicLines_written (h : Written c w) (rest : List Char) :
    readBasicLines (w ++ rest) = (readBasicLines rest).map (pushFront c) := by
  obtain ⟨d, ds, rfl⟩ := List.exists_cons_of_ne_nil h.ne_nil
  have hnone : afterTriple? '"' (d :: (ds ++ rest)) = none :=
    afterTriple?_eq_none (fun hd => h.head?_ne (congrArg some hd))
      (show d ∈ (d :: ds).take 3 from List.mem_cons_self) rest
  rw [List.cons_append, readBasicLines, hnone]
  cases h with
  | escape _ hread hstays =>
    dsimp only
    rw [if_pos rfl]
    split
    next rest' hbreak =>
      rw [hstays] at hbreak
      cases hbreak
    next =>
      split
      next d rest' hescape =>
        rw [hread] at hescape
        cases hescape
        rfl
      next hnone =>
        rw [hread] at hnone
        cases hnone
  | plain hquote hbackslash htext =>
    dsimp only
    rw [if_neg hbackslash, if_pos (by rw [htext]; rfl)]
    rfl

/-- A character that stands as it is: a line break, or a quote that does not begin the end. -/
theorem readBasicLines_cons (hnone : afterTriple? '"' (c :: cs) = none) (hbackslash : c ≠ '\\')
    (hc : (isTextChar c || c = '\n') = true) :
    readBasicLines (c :: cs) = (readBasicLines cs).map (pushFront c) := by
  rw [readBasicLines, hnone]
  dsimp only
  rw [if_neg hbackslash, if_pos hc]

theorem readBasicLines_close {k : Nat} (hk : k ≤ 2) (hrest : rest.head? ≠ some '"') :
    readBasicLines (List.replicate k '"' ++ '"' :: '"' :: '"' :: rest) = some (List.replicate k '"', rest) := by
  obtain ⟨c, cs, hcons⟩ : ∃ c cs, List.replicate k '"' ++ '"' :: '"' :: '"' :: rest = c :: cs :=
    List.exists_cons_of_ne_nil (List.append_ne_nil_of_right_ne_nil _ (List.cons_ne_nil _ _))
  have hend := afterTriple?_replicate hk '"' rest
  rw [hcons] at hend ⊢
  rw [readBasicLines, hend]
  exact congrArg some (closingQuotes_replicate hk hrest)

/-- Only a quote is written with a quote in front. -/
theorem exists_escapeLines_eq_cons (quotes : Nat) (hc : c ≠ '"') (cs : List Char) :
    ∃ d ds, escapeLines quotes (c :: cs) = d :: ds ∧ d ≠ '"' := by
  rw [escapeLines, if_neg hc]
  split
  · exact ⟨'\n', _, rfl, by decide⟩
  · obtain ⟨d, ds, hw⟩ := List.exists_cons_of_ne_nil (written_escapeChar c).ne_nil
    have hne := (written_escapeChar c).head?_ne
    rw [hw] at hne ⊢
    exact ⟨d, _, rfl, fun hd => hne (congrArg some hd)⟩

/-- Where the next characters are quotes, up to three with those in front, the string ends in a few quotes. -/
theorem eq_replicate_of_escapeLines {quotes : Nat} (hq : quotes ≤ 2)
    (h : ∀ x ∈ (escapeLines quotes cs).take (3 - quotes), x = '"') :
    ∃ k ≤ 2 - quotes, cs = List.replicate k '"' ∧ escapeLines quotes cs = List.replicate k '"' := by
  induction cs generalizing quotes with
  | nil => exact ⟨0, Nat.zero_le _, rfl, rfl⟩
  | cons c cs ih =>
    obtain ⟨n, hn⟩ : ∃ n, 3 - quotes = n + 1 := ⟨2 - quotes, by omega⟩
    rw [hn] at h
    by_cases hc : c = '"'
    · subst hc
      rw [escapeLines, if_pos rfl] at h ⊢
      by_cases htwo : quotes = 2
      · rw [if_pos htwo, List.take_succ_cons] at h
        exact absurd (h _ List.mem_cons_self) (by decide)
      · rw [if_neg htwo] at h ⊢
        rw [List.take_succ_cons] at h
        obtain ⟨k, hk, hcs, hwritten⟩ := ih (show quotes + 1 ≤ 2 by omega) fun x hx =>
          h x (List.mem_cons_of_mem _ (by rwa [show n = 3 - (quotes + 1) by omega]))
        exact ⟨k + 1, by omega, by rw [hcs, List.replicate_succ], by rw [hwritten, List.replicate_succ]⟩
    · obtain ⟨d, ds, hcons, hd⟩ := exists_escapeLines_eq_cons quotes hc cs
      rw [hcons, List.take_succ_cons] at h
      exact absurd (h d List.mem_cons_self) hd

/-- The inside of a basic string on several lines is read up to the quotes behind it. -/
theorem readBasicLines_escapeLines {quotes : Nat} (hq : quotes ≤ 2) (cs : List Char)
    (hrest : rest.head? ≠ some '"') :
    readBasicLines (escapeLines quotes cs ++ '"' :: '"' :: '"' :: rest) = some (cs, rest) := by
  induction cs generalizing quotes with
  | nil => exact readBasicLines_close (Nat.zero_le 2) hrest
  | cons c cs ih =>
    by_cases hgoes : ∃ x ∈ (escapeLines quotes (c :: cs)).take (3 - quotes), x ≠ '"'
    · obtain ⟨x, hx, hne⟩ := hgoes
      have hnone := afterTriple?_eq_none hne (List.take_subset_take_left _ (Nat.sub_le 3 quotes) hx)
        ('"' :: '"' :: '"' :: rest)
      rw [escapeLines] at hnone ⊢
      split at hnone
      next hc =>
        subst hc
        rw [if_pos rfl]
        split at hnone
        next htwo =>
          rw [if_pos htwo]
          show readBasicLines (['\\', '"'] ++ (escapeLines 0 cs ++ _)) = _
          rw [readBasicLines_written (written_letter rfl rfl), ih (Nat.zero_le 2)]
          rfl
        next htwo =>
          rw [List.cons_append] at hnone
          rw [if_neg htwo, List.cons_append, readBasicLines_cons hnone (by decide) rfl, ih (by omega)]
          rfl
      next hc =>
        rw [if_neg hc]
        split at hnone
        next hbreak =>
          subst hbreak
          rw [List.cons_append] at hnone
          rw [if_pos rfl, List.cons_append, readBasicLines_cons hnone (by decide) rfl, ih (Nat.zero_le 2)]
          rfl
        next hbreak =>
          rw [if_neg hbreak, List.append_assoc, readBasicLines_written (written_escapeChar c),
            ih (Nat.zero_le 2)]
          rfl
    · -- Only quotes are left, so the three that close the string are in view.
      obtain ⟨k, hk, hcs, hwritten⟩ := eq_replicate_of_escapeLines hq fun x hx =>
        Decidable.byContradiction fun hne => hgoes ⟨x, hx, hne⟩
      rw [hwritten, hcs]
      exact readBasicLines_close (by omega) hrest

/-! ## Any form -/

/-- A string is written as it is on one line only without control characters, line breaks and single quotes. -/
theorem of_formOf_eq_literal (h : formOf cs = .literal) :
    cs.any isControl = false ∧ '\n' ∉ cs ∧ '\'' ∉ cs := by
  simp only [formOf] at h
  split at h
  next => cases h
  split at h
  next hliteral =>
    simp only [Bool.and_eq_true, Bool.not_eq_true', List.contains_eq_mem, decide_eq_false_iff_not] at hliteral
    exact ⟨hliteral.1.1, hliteral.1.2, hliteral.2⟩
  split at h
  next => cases h
  split at h
  next => cases h
  split at h <;> cases h

/-- A string is written as it is on several lines only without control characters and three single quotes. -/
theorem of_formOf_eq_literalLines (h : formOf cs = .literalLines) :
    cs.any isControl = false ∧ hasTriple '\'' cs = false := by
  simp only [formOf] at h
  split at h
  next => cases h
  split at h
  next => cases h
  split at h
  next => cases h
  split at h
  next hliteral =>
    simp only [Bool.and_eq_true, Bool.not_eq_true'] at hliteral
    exact hliteral
  split at h <;> cases h

theorem isControl_eq_false_of_mem (h : cs.any isControl = false) (hc : c ∈ cs) : isControl c = false :=
  Bool.eq_false_iff.mpr (List.any_eq_false.mp h c hc)

theorem dropLineBreak_eq_self (h : body.head? ≠ some '\n') : dropLineBreak body = body := by
  cases body with
  | nil => rfl
  | cons c body => exact if_neg fun hc => h (congrArg some hc)

/-- The line break behind the opening quotes is left out again. -/
theorem dropLineBreak_leadingBreak (h : '\n' ∉ cs → body.head? ≠ some '\n') :
    dropLineBreak (leadingBreak cs ++ body) = body := by
  rw [leadingBreak]
  split
  next => rfl
  next hnone =>
    refine dropLineBreak_eq_self (h fun hmem => hnone ?_)
    rwa [List.contains_eq_mem, decide_eq_true_eq]

/-- A quote that is closed on its line is not the first of three. -/
theorem afterTriple?_closed (hbody : body.head? ≠ some q) (hrest : rest.head? ≠ some q) :
    afterTriple? q (q :: (body ++ q :: rest)) = none := by
  cases body with
  | nil =>
    cases rest with
    | nil => exact if_neg fun h => absurd (congrArg List.length h) (by simp)
    | cons x rest =>
      exact afterTriple?_eq_none (fun hx => hrest (congrArg some hx))
        (show x ∈ [q, q, x].take 3 from List.mem_of_getElem? (i := 2) rfl) rest
  | cons x body =>
    exact afterTriple?_eq_none (fun hx => hbody (congrArg some hx))
      (show x ∈ [q, x].take 3 from List.mem_of_getElem? (i := 1) rfl) (body ++ q :: rest)

theorem head?_escapeLine_ne (cs : List Char) : (escapeLine cs).head? ≠ some '"' := by
  cases cs with
  | nil => exact fun h => by cases h
  | cons c cs =>
    obtain ⟨d, ds, hw⟩ := List.exists_cons_of_ne_nil (written_escapeChar c).ne_nil
    have hne := (written_escapeChar c).head?_ne
    rw [escapeLine, List.flatMap_cons, hw]
    rw [hw] at hne
    exact hne

/-- A written line has text only. -/
theorem isTextChar_of_mem_escapeLine (h : x ∈ escapeLine cs) : isTextChar x = true := by
  obtain ⟨c, _, hx⟩ := List.mem_flatMap.mp h
  exact (written_escapeChar c).isTextChar x hx

/-- Written lines have text only, and the line breaks of the string. -/
theorem of_mem_escapeLines {quotes : Nat} (h : x ∈ escapeLines quotes cs) :
    isTextChar x = true ∨ x = '\n' ∧ '\n' ∈ cs := by
  induction cs generalizing quotes with
  | nil => cases h
  | cons c cs ih =>
    have hrest {n : Nat} (hx : x ∈ escapeLines n cs) : isTextChar x = true ∨ x = '\n' ∧ '\n' ∈ c :: cs :=
      (ih hx).imp_right fun hbreak => ⟨hbreak.1, List.mem_cons_of_mem c hbreak.2⟩
    rw [escapeLines] at h
    split at h
    next =>
      split at h
      next =>
        rcases List.mem_cons.mp h with rfl | h
        · exact .inl rfl
        · rcases List.mem_cons.mp h with rfl | h
          · exact .inl rfl
          · exact hrest h
      next =>
        rcases List.mem_cons.mp h with rfl | h
        · exact .inl rfl
        · exact hrest h
    next =>
      split at h
      next hbreak =>
        rcases List.mem_cons.mp h with rfl | h
        · exact .inr ⟨rfl, hbreak ▸ List.mem_cons_self⟩
        · exact hrest h
      next =>
        rcases List.mem_append.mp h with h | h
        · exact .inl ((written_escapeChar c).isTextChar x h)
        · exact hrest h

theorem head?_append_ne (h : x ∉ cs) (hne : q ≠ x) (rest : List Char) : (cs ++ q :: rest).head? ≠ some x := by
  cases cs with
  | nil => exact fun hx => hne (Option.some.inj hx)
  | cons c cs => exact fun hx => h (Option.some.inj hx ▸ List.mem_cons_self)

theorem readQuoted_three_double (body : List Char) :
    readQuoted ('"' :: '"' :: '"' :: body) = readBasicLines (dropLineBreak body) := rfl

theorem readQuoted_three_single (body : List Char) :
    readQuoted ('\'' :: '\'' :: '\'' :: body) = readLiteralLines (dropLineBreak body) := rfl

/-- **A written string is read as what it was**, with any text behind it that does not go on with a quote. -/
theorem readQuoted_writeIn (cs : List Char) (hdouble : rest.head? ≠ some '"')
    (hsingle : rest.head? ≠ some '\'') : readQuoted (writeIn (formOf cs) cs ++ rest) = some (cs, rest) := by
  cases hform : formOf cs with
  | basic =>
    have hshape : writeIn .basic cs ++ rest = '"' :: (escapeLine cs ++ '"' :: rest) := by simp [writeIn]
    rw [hshape, readQuoted, afterTriple?_closed (head?_escapeLine_ne cs) hdouble]
    exact readBasic_escapeLine cs rest
  | literal =>
    obtain ⟨hcontrol, hbreak, hquote⟩ := of_formOf_eq_literal hform
    have hshape : writeIn .literal cs ++ rest = '\'' :: (cs ++ '\'' :: rest) := by simp [writeIn]
    have hhead : cs.head? ≠ some '\'' := fun h => hquote (List.mem_of_head? h)
    rw [hshape, readQuoted, afterTriple?_closed hhead hsingle]
    refine readLiteral_body hquote (fun c hc => ?_) rest
    refine isTextChar_of_not_isControl (isControl_eq_false_of_mem hcontrol hc) ?_
    rintro rfl
    exact hbreak hc
  | basicLines =>
    have hshape : writeIn .basicLines cs ++ rest
        = '"' :: '"' :: '"' :: (leadingBreak cs ++ (escapeLines 0 cs ++ '"' :: '"' :: '"' :: rest)) := by
      simp [writeIn]
    rw [hshape, readQuoted_three_double, dropLineBreak_leadingBreak,
      readBasicLines_escapeLines (Nat.zero_le 2) cs hdouble]
    refine fun hbreak => head?_append_ne (fun hmem => ?_) (by decide) _
    rcases of_mem_escapeLines hmem with htext | ⟨_, hmem⟩
    · cases htext
    · exact hbreak hmem
  | literalLines =>
    obtain ⟨hcontrol, htriple⟩ := of_formOf_eq_literalLines hform
    have hshape : writeIn .literalLines cs ++ rest
        = '\'' :: '\'' :: '\'' :: (leadingBreak cs ++ (cs ++ '\'' :: '\'' :: '\'' :: rest)) := by
      simp [writeIn]
    rw [hshape, readQuoted_three_single, dropLineBreak_leadingBreak]
    · exact readLiteralLines_body (fun c hc => isTextChar_or_break (isControl_eq_false_of_mem hcontrol hc))
        htriple hsingle
    · exact fun hbreak => head?_append_ne hbreak (by decide) _

/-- A written string has text and line breaks only. -/
theorem of_mem_writeIn (h : x ∈ writeIn (formOf cs) cs) : (isTextChar x || x = '\n') = true := by
  have hquotes {q : Char} (hq : (isTextChar q || q = '\n') = true) (hx : x ∈ [q, q, q]) :
      (isTextChar x || x = '\n') = true := by
    rwa [List.eq_of_mem_replicate (n := 3) hx]
  have hbreak : x ∈ leadingBreak cs → (isTextChar x || x = '\n') = true := by
    intro hx
    rw [leadingBreak] at hx
    split at hx
    · rw [List.mem_singleton.mp hx]
      rfl
    · cases hx
  cases hform : formOf cs with
  | basic =>
    rw [hform] at h
    simp only [writeIn, List.mem_append, List.mem_cons, List.not_mem_nil, or_false] at h
    rcases h with (rfl | h) | rfl
    · rfl
    · rw [isTextChar_of_mem_escapeLine h, Bool.true_or]
    · rfl
  | literal =>
    obtain ⟨hcontrol, _, _⟩ := of_formOf_eq_literal hform
    rw [hform] at h
    simp only [writeIn, List.mem_append, List.mem_cons, List.not_mem_nil, or_false] at h
    rcases h with (rfl | h) | rfl
    · rfl
    · exact isTextChar_or_break (isControl_eq_false_of_mem hcontrol h)
    · rfl
  | basicLines =>
    rw [hform] at h
    simp only [writeIn, List.mem_append] at h
    rcases h with ((h | h) | h) | h
    · exact hquotes rfl h
    · exact hbreak h
    · rcases of_mem_escapeLines h with htext | ⟨rfl, _⟩
      · rw [htext, Bool.true_or]
      · rfl
    · exact hquotes rfl h
  | literalLines =>
    obtain ⟨hcontrol, _⟩ := of_formOf_eq_literalLines hform
    rw [hform] at h
    simp only [writeIn, List.mem_append] at h
    rcases h with ((h | h) | h) | h
    · exact hquotes rfl h
    · exact hbreak h
    · exact isTextChar_or_break (isControl_eq_false_of_mem hcontrol h)
    · exact hquotes rfl h

end Toml
end VideoOverlay
