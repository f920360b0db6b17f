import VideoOverlay.Export.Command

/-!
# `Proofs.Export.Merge` — which files are checked, and which are read, when files are appended

Streams are copied only between files of one codec, so every file is asked about before the arguments are put
together, the main video first. The cases of `MergeOutcome` say what may come of this, with the files that
were asked about: the work ends at the first file that cannot be copied, and no file behind it is looked at.

The files are then handed over in one operand, with a bar between them. The encoder takes this apart again at
every bar (`concatFiles?`), and there is no way to write a bar that belongs to a name. So the files it reads
are those that were checked exactly if no name has a bar (`mergeCommand_reads_checked_iff`).

## Contents
- `Copyable`, `NotCopyable`: whether a file has the codec, and why not.
- `ensureCodecs_append`, `exists_first_notCopyable`: a list of files.
- `mergeArguments`, `MergeOutcome`, `mergeCommand_outcome`.
- `concatFiles?`, `concatFiles?_mergeOperand_iff`, `mergeCommand_reads_checked_iff`.
-/

namespace VideoOverlay

/-! ## One file -/

/-- A file is known to a probe, and has the required codec. -/
def Copyable (p : Probe) (required file : String) : Prop :=
  ∃ report, p file = .ok report ∧ report.codec = required

/-- Why a file cannot be copied: the probe fails on it, or finds another codec. -/
inductive NotCopyable (p : Probe) (required operation file : String) : Error → Prop where
  | unknown {e : ProbeError} (answer : p file = .error e) :
    NotCopyable p required operation file (.probe e)
  | otherCodec {report : Report} (answer : p file = .ok report) (differs : report.codec ≠ required) :
    NotCopyable p required operation file
      (.validation (.unsupportedCodec (operation ++ " of " ++ file) required report.codec))

variable {probe : Option Probe} {p : Probe} {required operation file : String} {e : Error}

theorem ensureCodec_of_copyable (h : Copyable p required file) :
    ensureCodec (some p) required operation file = ⟨[file], .ok ()⟩ := by
  obtain ⟨report, hreport, hcodec⟩ := h
  simp only [ensureCodec, Assembly.require_of_ok hreport, Assembly.bind_eq, Assembly.bind_ok, if_pos hcodec]
  rfl

theorem ensureCodec_of_notCopyable (h : NotCopyable p required operation file e) :
    ensureCodec (some p) required operation file = ⟨[file], .error e⟩ := by
  cases h with
  | unknown hanswer =>
    simp only [ensureCodec, Assembly.require_of_error hanswer, Assembly.bind_eq, Assembly.bind_error]
  | otherCodec hanswer hdiffers =>
    simp only [ensureCodec, Assembly.require_of_ok hanswer, Assembly.bind_eq, Assembly.bind_ok, if_neg hdiffers]
    rfl

theorem copyable_or_notCopyable (p : Probe) (required operation file : String) :
    Copyable p required file ∨ ∃ e, NotCopyable p required operation file e := by
  cases hanswer : p file with
  | error e => exact .inr ⟨_, .unknown hanswer⟩
  | ok report =>
    by_cases hcodec : report.codec = required
    · exact .inl ⟨report, hanswer, hcodec⟩
    · exact .inr ⟨_, .otherCodec hanswer hcodec⟩

theorem NotCopyable.not_copyable (h : NotCopyable p required operation file e) : ¬Copyable p required file := by
  rintro ⟨report, hreport, hcodec⟩
  cases h with
  | unknown hanswer =>
    rw [hanswer] at hreport
    cases hreport
  | otherCodec hanswer hdiffers =>
    rw [hanswer] at hreport
    cases hreport
    exact hdiffers hcodec

/-! ## A list of files -/

/-- Files that can be copied are asked about in order, and the work goes on behind them. -/
theorem ensureCodecs_append {before : List String} (h : ∀ f ∈ before, Copyable p required f)
    (rest : List String) :
    ensureCodecs (some p) required operation (before ++ rest)
      = ⟨before ++ (ensureCodecs (some p) required operation rest).probed,
          (ensureCodecs (some p) required operation rest).outcome⟩ := by
  induction before with
  | nil => rfl
  | cons file before ih =>
    rw [List.cons_append, ensureCodecs, ensureCodec_of_copyable (h file List.mem_cons_self), Assembly.bind_eq,
      Assembly.bind_ok, ih fun f hf => h f (List.mem_cons_of_mem file hf)]
    rfl

/-- If all files can be copied, all are asked about. -/
theorem ensureCodecs_of_copyable {files : List String} (h : ∀ f ∈ files, Copyable p required f) :
    ensureCodecs (some p) required operation files = ⟨files, .ok ()⟩ := by
  have hall : ensureCodecs (some p) required operation (files ++ []) = _ := ensureCodecs_append h []
  rwa [List.append_nil, ensureCodecs, Assembly.pure_eq, List.append_nil] at hall

/-- Either all files of a list can be copied, or there is a first one that cannot. -/
theorem exists_first_notCopyable (p : Probe) (required operation : String) (files : List String) :
    (∀ f ∈ files, Copyable p required f)
      ∨ ∃ before file after e, files = before ++ file :: after ∧ (∀ f ∈ before, Copyable p required f)
          ∧ NotCopyable p required operation file e := by
  induction files with
  | nil => exact .inl fun f hf => absurd hf List.not_mem_nil
  | cons file files ih =>
    rcases copyable_or_notCopyable p required operation file with hfile | ⟨e, he⟩
    · rcases ih with hall | ⟨before, bad, after, e, rfl, hbefore, he⟩
      · exact .inl (List.forall_mem_cons.mpr ⟨hfile, hall⟩)
      · exact .inr ⟨file :: before, bad, after, e, rfl, List.forall_mem_cons.mpr ⟨hfile, hbefore⟩, he⟩
    · exact .inr ⟨[], file, files, e, rfl, fun f hf => absurd hf List.not_mem_nil, he⟩

/-! ## What appending comes to -/

/-- The operand that names the files. -/
def mergeOperand (files : List String) : String := "concat:" ++ String.intercalate "|" files

/-- The arguments that append files to the main video. -/
def mergeArguments (primary : String) (appended : List String) (output : String) : List String :=
  ["-y", "-i", mergeOperand (primary :: appended), "-c", "copy", "-bsf:a", "aac_adtstoasc", output]

/-- What appending files comes to, and the files that a probe was asked about.

* `unprobed`: there is no probe.
* `refused`: a file cannot be copied, and all files before it can.
* `merged`: all files can be copied. -/
inductive MergeOutcome (probe : Option Probe) (required primary : String) (appended : List String)
    (output : String) : Assembly (List String) → Prop where
  | unprobed (absent : probe = none) :
    MergeOutcome probe required primary appended output ⟨[], .error (.config (.missingKey "media probe"))⟩
  | refused {p : Probe} {before after : List String} {file : String} {e : Error} (present : probe = some p)
      (split : primary :: appended = before ++ file :: after) (front : ∀ f ∈ before, Copyable p required f)
      (reason : NotCopyable p required "Concat protocol merge" file e) :
    MergeOutcome probe required primary appended output ⟨before ++ [file], .error e⟩
  | merged {p : Probe} (present : probe = some p) (all : ∀ f ∈ primary :: appended, Copyable p required f) :
    MergeOutcome probe required primary appended output
      ⟨primary :: appended, .ok (mergeArguments primary appended output)⟩

variable {primary output : String} {appended : List String}

/-- All files are asked about first; the arguments are put together from the names alone. -/
theorem mergeCommand_eq (probe : Option Probe) (required primary : String) (appended : List String)
    (output : String) :
    mergeCommand probe required primary appended output
      = (ensureCodecs probe required "Concat protocol merge" (primary :: appended)).bind fun _ =>
          ⟨[], .ok (mergeArguments primary appended output)⟩ := rfl

/-- Each case tells what the work comes to. -/
theorem MergeOutcome.eq {a : Assembly (List String)}
    (h : MergeOutcome probe required primary appended output a) :
    mergeCommand probe required primary appended output = a := by
  rw [mergeCommand_eq]
  cases h with
  | unprobed habsent =>
    subst habsent
    rfl
  | refused hpresent hsplit hfront hreason =>
    rw [hpresent, hsplit, ensureCodecs_append hfront, ensureCodecs, ensureCodec_of_notCopyable hreason]
    rfl
  | merged hpresent hall =>
    rw [hpresent, ensureCodecs_of_copyable hall, Assembly.bind_ok, List.append_nil]

/-- One of the cases applies. -/
theorem exists_mergeOutcome (probe : Option Probe) (required primary : String) (appended : List String)
    (output : String) : ∃ a, MergeOutcome probe required primary appended output a := by
  cases probe with
  | none => exact ⟨_, .unprobed rfl⟩
  | some p =>
    rcases exists_first_notCopyable p required "Concat protocol merge" (primary :: appended) with
      hall | ⟨before, file, after, e, hsplit, hfront, hreason⟩
    · exact ⟨_, .merged rfl hall⟩
    · exact ⟨_, .refused rfl hsplit hfront hreason⟩

/-- There are arguments exactly if there is a probe and all files can be copied. -/
theorem MergeOutcome.exists_ok_iff {a : Assembly (List String)}
    (h : MergeOutcome probe required primary appended output a) :
    (∃ args, a.outcome = .ok args) ↔ ∃ p, probe = some p ∧ ∀ f ∈ primary :: appended, Copyable p required f := by
  cases h with
  | unprobed habsent =>
    constructor
    · rintro ⟨_, hok⟩
      cases hok
    · rintro ⟨p, hp, _⟩
      rw [habsent] at hp
      cases hp
  | refused hpresent hsplit _ hreason =>
    constructor
    · rintro ⟨_, hok⟩
      cases hok
    · rintro ⟨p, hp, hall⟩
      cases hpresent.symm.trans hp
      refine absurd (hall _ ?_) hreason.not_copyable
      rw [hsplit]
      exact List.mem_append_right _ List.mem_cons_self
  | merged hpresent hall => exact ⟨fun _ => ⟨_, hpresent, hall⟩, fun _ => ⟨_, rfl⟩⟩

/-- **Appending files comes to exactly what `MergeOutcome` says**, for every list of files and every probe. So
there are arguments exactly if there is a probe and every file has the required codec; and they are put
together, without a look at any report, only after all files were asked about. -/
theorem mergeCommand_outcome (probe : Option Probe) (required primary : String) (appended : List String)
    (output : String) :
    (∀ a, mergeCommand probe required primary appended output = a
        ↔ MergeOutcome probe required primary appended output a)
      ∧ ((∃ args, (mergeCommand probe required primary appended output).outcome = .ok args)
        ↔ ∃ p, probe = some p ∧ ∀ f ∈ primary :: appended, ∃ report, p f = .ok report ∧ report.codec = required)
      ∧ mergeCommand probe required primary appended output
        = (ensureCodecs probe required "Concat protocol merge" (primary :: appended)).bind fun _ =>
            ⟨[], .ok (mergeArguments primary appended output)⟩ := by
  obtain ⟨found, hfound⟩ := exists_mergeOutcome probe required primary appended output
  refine ⟨fun a => ⟨?_, fun h => h.eq⟩, ?_, mergeCommand_eq probe required primary appended output⟩
  · rw [hfound.eq]
    rintro rfl
    exact hfound
  · rw [hfound.eq]
    exact hfound.exists_ok_iff

/-! ## The files that are read -/

/-- The files that the encoder reads for an operand with the prefix of a concatenation: the names between the
bars behind it. A bar always divides two names. -/
def concatFiles? (operand : String) : Option (List String) :=
  ("concat:".toList.isPrefixOf? operand.toList).map fun names => (names.splitOn '|').map String.ofList

/-- No piece of a text that is divided at a character has that character. -/
theorem not_mem_of_mem_splitOn {c : Char} {cs piece : List Char} (h : piece ∈ cs.splitOn c) : c ∉ piece := by
  induction cs generalizing piece with
  | nil =>
    rw [List.splitOn_nil, List.mem_singleton] at h
    rw [h]
    exact List.not_mem_nil
  | cons d cs ih =>
    rw [List.splitOn_cons_eq_if_modifyHead] at h
    split at h
    next =>
      rcases List.mem_cons.mp h with rfl | h
      · exact List.not_mem_nil
      · exact ih h
    next hd =>
      cases hsplit : cs.splitOn c with
      | nil =>
        rw [hsplit] at h
        exact absurd h List.not_mem_nil
      | cons first rest =>
        rw [hsplit, List.modifyHead_cons] at h
        rw [hsplit] at ih
        rcases List.mem_cons.mp h with rfl | h
        · refine List.not_mem_cons_of_ne_of_not_mem ?_ (ih List.mem_cons_self)
          rintro rfl
          exact hd (beq_self_eq_true c)
        · exact ih (List.mem_cons_of_mem first h)

/-- The encoder takes the operand apart at every bar. -/
theorem concatFiles?_mergeOperand (files : List String) :
    concatFiles? (mergeOperand files)
      = some (((['|'].intercalate (files.map String.toList)).splitOn '|').map String.ofList) := by
  rw [concatFiles?, mergeOperand, String.toList_append, String.toList_intercalate]
  rfl

/-- **The files are read back exactly if no name has a bar.** -/
theorem concatFiles?_mergeOperand_iff {files : List String} (hne : files ≠ []) :
    concatFiles? (mergeOperand files) = some files ↔ ∀ f ∈ files, '|' ∉ f.toList := by
  rw [concatFiles?_mergeOperand]
  constructor
  · intro h f hf
    rw [← Option.some.inj h] at hf
    obtain ⟨piece, hpiece, rfl⟩ := List.mem_map.mp hf
    rw [String.toList_ofList]
    exact not_mem_of_mem_splitOn hpiece
  · intro h
    have hpieces : ∀ l ∈ files.map String.toList, '|' ∉ l := by
      intro l hl
      obtain ⟨f, hf, rfl⟩ := List.mem_map.mp hl
      exact h f hf
    rw [List.splitOn_intercalate '|' hpieces (fun hnil => hne (List.map_eq_nil_iff.mp hnil)), List.map_map]
    have hid : String.ofList ∘ String.toList = id := funext fun f => String.ofList_toList
    rw [hid, List.map_id]

/-- **The files that are read are those that were checked, exactly if no name has a bar.** The files are named
in the second operand; on success all of them were asked about, and so these are the checked ones. -/
theorem mergeCommand_reads_checked_iff {args : List String}
    (h : (mergeCommand probe required primary appended output).outcome = .ok args) :
    ∃ operand, args.take 3 = ["-y", "-i", operand]
      ∧ (mergeCommand probe required primary appended output).probed = primary :: appended
      ∧ (concatFiles? operand = some (primary :: appended) ↔ ∀ f ∈ primary :: appended, '|' ∉ f.toList) := by
  obtain ⟨found, hfound⟩ := exists_mergeOutcome probe required primary appended output
  rw [hfound.eq] at h ⊢
  cases hfound with
  | unprobed => cases h
  | refused => cases h
  | merged hpresent hall =>
    cases h
    exact ⟨_, rfl, rfl, concatFiles?_mergeOperand_iff (List.cons_ne_nil _ _)⟩

/-- Two files with plain names are read as they were checked. -/
theorem mergeCommand_reads_checked_plain :
    ∃ operand, (mergeCommand (some fun _ => .ok ⟨"h264", .zero, false⟩) "h264" "a" ["b"] "out.mp4").outcome
        = .ok ["-y", "-i", operand, "-c", "copy", "-bsf:a", "aac_adtstoasc", "out.mp4"]
      ∧ concatFiles? operand = some ["a", "b"] := by
  have hok : (mergeCommand (some fun _ => .ok ⟨"h264", .zero, false⟩) "h264" "a" ["b"] "out.mp4").outcome
      = .ok ["-y", "-i", "concat:a|b", "-c", "copy", "-bsf:a", "aac_adtstoasc", "out.mp4"] := rfl
  obtain ⟨operand, hargs, _, hfiles⟩ := mergeCommand_reads_checked_iff hok
  have hoperand : operand = "concat:a|b" := by
    cases hargs
    rfl
  exact ⟨operand, hoperand ▸ hok, hfiles.mpr (by decide)⟩

/-- A name with a bar is read as two other names, which nobody asked about. The operand is the same as for these
two. -/
theorem mergeCommand_reads_unchecked_bar :
    let probe : Probe := fun _ => .ok ⟨"h264", .zero, false⟩
    let args := ["-y", "-i", "concat:a|b|c", "-c", "copy", "-bsf:a", "aac_adtstoasc", "out.mp4"]
    mergeCommand (some probe) "h264" "a" ["b|c"] "out.mp4" = ⟨["a", "b|c"], .ok args⟩
      ∧ (mergeCommand (some probe) "h264" "a" ["b", "c"] "out.mp4").outcome = .ok args
      ∧ concatFiles? "concat:a|b|c" = some ["a", "b", "c"] := by
  refine ⟨rfl, rfl, ?_⟩
  decide

end VideoOverlay
