import VideoOverlay.Proofs.Toml.Quoted
import VideoOverlay.Toml.Document

/-!
# `Proofs.Toml.Lines` — documents of plain lines

A document of headers and of pairs with a bare key is read line by line. A written value must be read back
whatever follows its line (`ReadsAs`), and then so is the line (`readLine_header`, `readLine_pair`). `LinesOf` is
where two halves meet: a text is put together line by line as `LinesOf` asks, and a text of that form is read as
its lines, so the fuel of the readers is looked at only once.

## Contents
- `IsBare`, `readKeyPath_bare`: keys without quotes.
- `ReadsAs`, `readsAs_writeString`, `readsAs_writeBool`: values.
- `readLine_header`, `readLine_pair`: lines.
- `LinesOf`, `parse?_of_linesOf`: documents.
-/

namespace VideoOverlay
namespace Toml

variable {key cs rest w : List Char} {x : Char} {value : Value} {lines : List Line}

/-! ## Keys -/

/-- A key that is written without quotes. -/
def IsBare (key : List Char) : Prop := key ≠ [] ∧ key.all isBareChar = true

instance (key : List Char) : Decidable (IsBare key) := inferInstanceAs (Decidable (_ ∧ _))

/-- A bare key begins with none of the characters that other things begin with. -/
theorem IsBare.head?_ne (h : IsBare key) (hx : isBareChar x = false) (rest : List Char) :
    (key ++ rest).head? ≠ some x := by
  obtain ⟨hne, hall⟩ := h
  obtain ⟨c, cs, rfl⟩ := List.exists_cons_of_ne_nil hne
  rw [List.all_cons, Bool.and_eq_true] at hall
  intro heq
  rw [← Option.some.inj heq, hall.1] at hx
  cases hx

theorem readQuotedKey_eq_none (hdouble : cs.head? ≠ some '"') (hsingle : cs.head? ≠ some '\'') :
    readQuotedKey cs = none := by
  cases cs with
  | nil => rfl
  | cons c cs =>
    rw [readQuotedKey, if_neg fun hc => hdouble (congrArg some hc), if_neg fun hc => hsingle (congrArg some hc)]

theorem skipInLine_eq_self (hspace : cs.head? ≠ some ' ') (htab : cs.head? ≠ some '\t') :
    skipInLine cs = cs := by
  cases cs with
  | nil => rfl
  | cons c cs =>
    refine List.dropWhile_cons_of_neg ?_
    simp only [isBlankInLine, Bool.or_eq_true, decide_eq_true_eq]
    rintro (rfl | rfl)
    · exact hspace rfl
    · exact htab rfl

/-- A bare key is read up to the first character that cannot be in one. -/
theorem readKey_bare (h : IsBare key) (hx : isBareChar x = false) (rest : List Char) :
    readKey (key ++ x :: rest) = some (String.ofList key, x :: rest) := by
  have hall : ∀ c ∈ key, isBareChar c = true := List.all_eq_true.mp h.2
  rw [readKey, readQuotedKey_eq_none (h.head?_ne rfl _) (h.head?_ne rfl _)]
  simp only [takeWhile_run hall hx, dropWhile_run hall hx, if_neg h.1]

/-- A bare key without a point behind it is a whole key. -/
theorem readKeyPath_bare (h : IsBare key) (hx : isBareChar x = false)
    (hpoint : (skipInLine (x :: rest)).head? ≠ some '.') :
    readKeyPath (key ++ x :: rest) = some (⟨[], String.ofList key⟩, skipInLine (x :: rest)) := by
  obtain ⟨n, hn⟩ : ∃ n, (key ++ x :: rest).length = n + 1 := ⟨key.length + rest.length, by
    rw [List.length_append, List.length_cons, Nat.add_assoc]⟩
  have hparts : readKeyParts (n + 1) (key ++ x :: rest)
      = some (⟨[], String.ofList key⟩, skipInLine (x :: rest)) := by
    rw [readKeyParts, skipInLine_eq_self (h.head?_ne rfl _) (h.head?_ne rfl _), readKey_bare h hx]
    simp only [Option.bind_eq_bind, Option.bind_some]
    split
    next more hmore =>
      rw [hmore] at hpoint
      exact absurd rfl hpoint
    next => rfl
  rw [readKeyPath, hn, hparts]
  rfl

/-! ## Values -/

/-- A text that is read as a value if its line ends behind it. Readers of pairs skip blanks in front of a value,
so it begins with none. -/
structure ReadsAs (w : List Char) (value : Value) : Prop where
  unskipped : ∀ rest, skipInLine (w ++ rest) = w ++ rest
  read : ∀ rest, readValue depthLimit (w ++ '\n' :: rest) = some (value, '\n' :: rest)

/-- A value without brackets and braces is flat. -/
theorem readValue_eq_readFlat (depth : Nat) (hbracket : cs.head? ≠ some '[') (hbrace : cs.head? ≠ some '{') :
    readValue depth cs = readFlat cs := by
  cases depth with
  | zero => rfl
  | succ depth =>
    rw [readValue]
    dsimp only
    split
    next => exact absurd rfl hbracket
    next => exact absurd rfl hbrace
    next => rfl

/-- A written string begins with a quote. -/
theorem head?_writeIn (form : StringForm) (cs : List Char) :
    (writeIn form cs).head? = some '"' ∨ (writeIn form cs).head? = some '\'' := by
  cases form with
  | basic => exact .inl rfl
  | literal => exact .inr rfl
  | basicLines => exact .inl rfl
  | literalLines => exact .inr rfl

theorem readsAs_writeString (s : String) : ReadsAs (writeString s).toList (.string s) := by
  have hhead (c : Char) (hdouble : '"' ≠ c) (hsingle : '\'' ≠ c) (rest : List Char) :
      (writeIn (formOf s.toList) s.toList ++ rest).head? ≠ some c := by
    rw [List.head?_append]
    rcases head?_writeIn (formOf s.toList) s.toList with hq | hq
    · rw [hq]
      exact fun h => hdouble (Option.some.inj h)
    · rw [hq]
      exact fun h => hsingle (Option.some.inj h)
  rw [writeString, String.toList_ofList]
  constructor
  case unskipped =>
    exact fun rest => skipInLine_eq_self (hhead ' ' (by decide) (by decide) rest)
      (hhead '\t' (by decide) (by decide) rest)
  case read =>
    intro rest
    have hbracket := hhead '[' (by decide) (by decide) ('\n' :: rest)
    have hbrace := hhead '{' (by decide) (by decide) ('\n' :: rest)
    rw [readValue_eq_readFlat _ hbracket hbrace, readFlat, readQuoted_writeIn s.toList (by simp) (by simp)]
    exact congrArg (fun read => some (Value.string read, _)) String.ofList_toList

theorem readsAs_writeBool (b : Bool) : ReadsAs (writeBool b).toList (.scalar (.boolean b)) := by
  cases b with
  | false => exact ⟨fun _ => rfl, fun _ => rfl⟩
  | true => exact ⟨fun _ => rfl, fun _ => rfl⟩

/-! ## Lines -/

theorem readLine_header (h : IsBare key) (rest : List Char) :
    readLine ('[' :: (key ++ ']' :: '\n' :: rest)) = some (.table ⟨[], String.ofList key⟩, rest) := by
  have hkey : readKeyPath (key ++ ']' :: '\n' :: rest) = some (⟨[], String.ofList key⟩, ']' :: '\n' :: rest) :=
    readKeyPath_bare h rfl (fun hp => absurd (Option.some.inj hp) (by decide))
  have hheader : readHeader [']'] (key ++ ']' :: '\n' :: rest) = some (⟨[], String.ofList key⟩, rest) := by
    rw [readHeader, hkey]
    rfl
  rw [readLine.eq_2]
  · rw [hheader]
    rfl
  · exact fun more hmore => h.head?_ne (x := '[') rfl (']' :: '\n' :: rest) (congrArg List.head? hmore)

theorem readLine_pair (h : IsBare key) (hw : ReadsAs w value) (rest : List Char) :
    readLine (key ++ ' ' :: '=' :: ' ' :: (w ++ '\n' :: rest))
      = some (.pair ⟨[], String.ofList key⟩ value, rest) := by
  have hkey : readKeyPath (key ++ ' ' :: '=' :: ' ' :: (w ++ '\n' :: rest))
      = some (⟨[], String.ofList key⟩, '=' :: ' ' :: (w ++ '\n' :: rest)) :=
    readKeyPath_bare h rfl (fun hp => absurd (Option.some.inj hp) (by decide))
  have hskip : skipInLine (' ' :: (w ++ '\n' :: rest)) = w ++ '\n' :: rest := hw.unskipped _
  have hpair : readPair (readValue depthLimit) (key ++ ' ' :: '=' :: ' ' :: (w ++ '\n' :: rest))
      = some ((⟨[], String.ofList key⟩, value), '\n' :: rest) := by
    rw [readPair, hkey]
    simp only [Option.bind_eq_bind, Option.bind_some, hskip, hw.read]
    rfl
  have hopen := h.head?_ne (x := '[') rfl (' ' :: '=' :: ' ' :: (w ++ '\n' :: rest))
  rw [readLine.eq_3]
  · rw [hpair]
    rfl
  · exact fun more hmore => hopen (congrArg List.head? hmore)
  · exact fun more hmore => hopen (congrArg List.head? hmore)

/-! ## Documents -/

/-- The lines of a text: each is read from where the blanks end, and behind the last one is nothing more. -/
inductive LinesOf : List Char → List Line → Prop where
  | done {cs : List Char} (blank : skipBlank cs = []) : LinesOf cs []
  | line {cs rest : List Char} {line : Line} {lines : List Line}
      (read : readLine (skipBlank cs) = some (line, rest)) (more : LinesOf rest lines) :
      LinesOf cs (line :: lines)

theorem LinesOf.readLines (h : LinesOf cs lines) {fuel : Nat} (hfuel : lines.length < fuel) :
    readLines fuel cs = some lines := by
  induction h generalizing fuel with
  | done blank =>
    obtain ⟨n, rfl⟩ := Nat.exists_eq_succ_of_ne_zero (Nat.ne_of_gt hfuel)
    rw [Toml.readLines, blank]
  | line read _ ih =>
    obtain ⟨n, rfl⟩ := Nat.exists_eq_succ_of_ne_zero (Nat.ne_zero_of_lt hfuel)
    rw [Toml.readLines]
    split
    next hblank =>
      rw [hblank] at read
      cases read
    next =>
      rw [read, Option.bind_eq_bind, Option.bind_some]
      dsimp only
      rw [ih (Nat.lt_of_succ_lt_succ hfuel)]
      rfl

/-- An empty line goes with the line behind it. -/
theorem LinesOf.empty_line (h : LinesOf cs lines) : LinesOf ('\n' :: cs) lines := by
  cases h with
  | done blank => exact .done blank
  | line read more => exact .line read more

/-- No blank and no comment begins with a bare key. -/
theorem skipBlank_bare (h : IsBare key) (rest : List Char) : skipBlank (key ++ rest) = key ++ rest := by
  have hhead (c : Char) (hc : isBareChar c = false) := h.head?_ne hc rest
  generalize key ++ rest = cs at hhead ⊢
  cases cs with
  | nil => rfl
  | cons c cs =>
    have hblank : ¬ (isBlankInLine c || c = '\n') = true := by
      simp only [isBlankInLine, Bool.or_eq_true, decide_eq_true_eq]
      rintro ((rfl | rfl) | rfl)
      · exact hhead ' ' rfl rfl
      · exact hhead '\t' rfl rfl
      · exact hhead '\n' rfl rfl
    rw [skipBlank, skipBlankFrom, if_neg hblank, if_neg fun hc => hhead '#' rfl (congrArg some hc)]

/-- A header in front of other lines. -/
theorem LinesOf.header (key : String) (hkey : IsBare key.toList) (h : LinesOf cs lines) :
    LinesOf ('[' :: (key.toList ++ ']' :: '\n' :: cs)) (.table ⟨[], key⟩ :: lines) := by
  refine .line ?_ h
  show readLine ('[' :: (key.toList ++ ']' :: '\n' :: cs)) = _
  rw [readLine_header hkey, String.ofList_toList]

/-- A pair in front of other lines. -/
theorem LinesOf.pair (key : String) (hkey : IsBare key.toList) (hw : ReadsAs w value) (h : LinesOf cs lines) :
    LinesOf (key.toList ++ ' ' :: '=' :: ' ' :: (w ++ '\n' :: cs)) (.pair ⟨[], key⟩ value :: lines) := by
  refine .line ?_ h
  rw [skipBlank_bare hkey, readLine_pair hkey hw, String.ofList_toList]

theorem unifyLineBreaks_eq_self (h : '\r' ∉ cs) : unifyLineBreaks cs = cs := by
  induction cs using unifyLineBreaks.induct with
  | case1 => exact absurd List.mem_cons_self h
  | case2 c cs hc ih =>
    rw [unifyLineBreaks.eq_2 _ _ hc, ih fun hmem => h (List.mem_cons_of_mem c hmem)]
  | case3 => rfl

theorem dropByteOrderMark_eq_self (h : cs.head? ≠ some '\ufeff') : dropByteOrderMark cs = cs := by
  cases cs with
  | nil => rfl
  | cons c cs => exact if_neg fun hc => h (congrArg some hc)

/-- **A document is the table that its lines make.** -/
theorem parse?_of_linesOf {text : String} (h : LinesOf text.toList lines)
    (hfuel : lines.length ≤ text.toList.length) (hmark : text.toList.head? ≠ some '\ufeff')
    (hreturn : '\r' ∉ text.toList) : parse? text = ofLines lines := by
  rw [parse?, dropByteOrderMark_eq_self hmark, unifyLineBreaks_eq_self hreturn,
    h.readLines (Nat.lt_succ_of_le hfuel), Option.bind_some]

end Toml
end VideoOverlay
