/-!
# `CommandLine.Setting` — the options of a command line

An option has a name, which is written behind two dashes, and most have a letter, which is written behind
one. An option with a value takes it from the same argument or from the next one; a value in an argument of
its own does not begin with a dash. Letters of options without a value can be written together, and the last
letter of such a cluster may be that of an option with a value.

## Contents
- `Setting`, `Setting.name`, `Setting.letter?`, `Setting.hasValue`.
- `Given`: an option as it is given.
- `isWord`: arguments that are no options.
- `named?`, `lettered?`, `options?`: the options in an argument, with `length_options?`.
-/

namespace VideoOverlay
namespace CommandLine

/-! ## Options -/

/-- What an option sets or asks for. -/
inductive Setting where
  | config
  | verbose
  | input
  | scene
  | segment
  | output
  | dryRun
  | version
  | help
  deriving DecidableEq, Repr

namespace Setting

/-- The name of an option. -/
def name : Setting → String
  | .config => "config"
  | .verbose => "verbose"
  | .input => "input"
  | .scene => "scene"
  | .segment => "segment"
  | .output => "output"
  | .dryRun => "dry-run"
  | .version => "version"
  | .help => "help"

/-- The letter of an option. A dry run has none. -/
def letter? : Setting → Option Char
  | .config => some 'c'
  | .verbose => some 'v'
  | .input => some 'i'
  | .scene | .segment => some 's'
  | .output => some 'o'
  | .dryRun => none
  | .version => some 'V'
  | .help => some 'h'

/-- Whether an option has a value. -/
def hasValue : Setting → Bool
  | .config | .input | .scene | .segment | .output => true
  | .verbose | .dryRun | .version | .help => false

/-- Whether an option may be given more than once. -/
def repeats (s : Setting) : Bool := s = .segment

/-- Whether an option asks for a text to be shown instead of any work. -/
def asks (s : Setting) : Bool := s = .version || s = .help

end Setting

/-- An option that is given. Without a value it has the empty one. -/
structure Given where
  setting : Setting
  value : String := ""
  deriving DecidableEq, Repr

/-! ## Arguments -/

/-- Whether an argument is a value or a word, and no option: it does not begin with a dash, or is nothing but
a dash. -/
def isWord (argument : String) : Bool := argument = "-" || argument.toList.head? != some '-'

/-- An option with the next argument as its value, and the arguments behind that. -/
def separate? (setting : Setting) : List String → Option (List Given × List String)
  | value :: rest => if isWord value then some ([⟨setting, value⟩], rest) else none
  | [] => none

/-- The option of a name, which a value may be attached to. -/
def named? (known : List Setting) (text : List Char) (rest : List String) :
    Option (List Given × List String) := do
  let setting ← known.find? fun s => s.name.toList = text.takeWhile (· ≠ '=')
  match text.dropWhile (· ≠ '='), setting.hasValue with
  | [], true => separate? setting rest
  | [], false => some ([⟨setting, ""⟩], rest)
  | _ :: value, true => some ([⟨setting, String.ofList value⟩], rest)
  | _ :: _, false => none

/-- A value that is attached to a letter, without the sign between them. -/
def attached (text : List Char) : String :=
  match text with
  | '=' :: value => String.ofList value
  | value => String.ofList value

/-- The options of a cluster of letters. What follows one that asks for a text is not looked at. -/
def lettered? (known : List Setting) : List Char → List String → Option (List Given × List String)
  | [], rest => some ([], rest)
  | c :: cs, rest => do
    let setting ← known.find? fun s => s.letter? = some c
    if setting.hasValue then
      if cs.isEmpty then separate? setting rest else some ([⟨setting, attached cs⟩], rest)
    else if setting.asks then some ([⟨setting, ""⟩], rest)
    -- An option without a value leaves the rest of the cluster to other options.
    else do
      let (more, left) ← lettered? known cs rest
      return (⟨setting, ""⟩ :: more, left)

/-- The options in an argument, and the arguments left behind it. -/
def options? (known : List Setting) (argument : String) (rest : List String) :
    Option (List Given × List String) :=
  match argument.toList with
  | '-' :: '-' :: text => named? known text rest
  | '-' :: letters => lettered? known letters rest
  | _ => none

/-! ## Lengths -/

theorem length_separate? {setting : Setting} {rest left : List String} {found : List Given}
    (h : separate? setting rest = some (found, left)) : left.length ≤ rest.length := by
  cases rest with
  | nil => cases h
  | cons value rest =>
    simp only [separate?] at h
    split at h
    · cases h
      exact Nat.le_succ _
    · cases h

theorem length_named? {known : List Setting} {text : List Char} {rest left : List String} {found : List Given}
    (h : named? known text rest = some (found, left)) : left.length ≤ rest.length := by
  simp only [named?, Option.bind_eq_bind, Option.bind_eq_some_iff] at h
  obtain ⟨setting, _, h⟩ := h
  split at h
  · exact length_separate? h
  · cases h
    exact Nat.le_refl _
  · cases h
    exact Nat.le_refl _
  · cases h

theorem length_lettered? {known : List Setting} {letters : List Char} {rest left : List String}
    {found : List Given} (h : lettered? known letters rest = some (found, left)) :
    left.length ≤ rest.length := by
  induction letters generalizing found with
  | nil =>
    cases h
    exact Nat.le_refl _
  | cons c cs ih =>
    simp only [lettered?, Option.bind_eq_bind, Option.bind_eq_some_iff] at h
    obtain ⟨setting, _, h⟩ := h
    split at h
    · split at h
      · exact length_separate? h
      · cases h
        exact Nat.le_refl _
    · split at h
      · cases h
        exact Nat.le_refl _
      · simp only [Option.bind_eq_some_iff] at h
        obtain ⟨⟨more, behind⟩, hm, h⟩ := h
        cases h
        exact ih hm

/-- Reading options uses arguments up. -/
theorem length_options? {known : List Setting} {argument : String} {rest left : List String}
    {found : List Given} (h : options? known argument rest = some (found, left)) :
    left.length ≤ rest.length := by
  simp only [options?] at h
  split at h
  · exact length_named? h
  · exact length_lettered? h
  · cases h

end CommandLine
end VideoOverlay
