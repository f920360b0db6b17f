import VideoOverlay.Proofs.CommandLine.Run

/-!
# `Proofs.CommandLine.DryRun` — dry runs

A dry run differs from the run it stands for in one word of the command line. The word is read into a flag
that nothing looks at before the arguments are assembled, so both runs ask about the same files, and they fail
alike or have the same arguments. Then the one shows them, and the other hands them over (`DryRunTells`).

That the word changes nothing else is a fact about reading options. What is read up to a word does not depend
on what follows it (`Reads.stops`), and one option more in front of others is kept in front of them, unless it
is given once more (`Reads.behind`).

## Contents
- `options?_uses`, `Reads`, `Reads.stops`: what is read, and what is left.
- `accept_behind`, `Reads.behind`: options behind a first one.
- `task?_behind_dryRun`, `requestOf_dryRun`, `exists_dryRun`: a command line with the word for a dry run.
- `DryRunTells`, `run_dryRun_tells`.
-/

namespace VideoOverlay
namespace CommandLine

/-! ## What is read, and what is left -/

theorem separate?_uses {setting : Setting} {rest left : List String} {found : List Given}
    (h : separate? setting rest = some (found, left)) :
    ∃ used, rest = used ++ left ∧ ∀ left', separate? setting (used ++ left') = some (found, left') := by
  cases rest with
  | nil => cases h
  | cons value rest =>
    rw [separate?] at h
    split at h
    · next hword =>
      cases h
      refine ⟨[value], rfl, fun left' => ?_⟩
      rw [List.singleton_append, separate?, if_pos hword]
    · cases h

theorem named?_uses {known : List Setting} {text : List Char} {rest left : List String} {found : List Given}
    (h : named? known text rest = some (found, left)) :
    ∃ used, rest = used ++ left ∧ ∀ left', named? known text (used ++ left') = some (found, left') := by
  simp only [named?, Option.bind_eq_bind, Option.bind_eq_some_iff] at h ⊢
  obtain ⟨setting, hknown, h⟩ := h
  split at h
  · next hvalue hhas =>
    obtain ⟨used, hused, hleft⟩ := separate?_uses h
    refine ⟨used, hused, fun left' => ⟨setting, hknown, ?_⟩⟩
    rw [hvalue, hhas]
    exact hleft left'
  · next hvalue hhas =>
    cases h
    refine ⟨[], rfl, fun left' => ⟨setting, hknown, ?_⟩⟩
    rw [hvalue, hhas]
    rfl
  · next hvalue hhas =>
    cases h
    refine ⟨[], rfl, fun left' => ⟨setting, hknown, ?_⟩⟩
    rw [hvalue, hhas]
    rfl
  · cases h

theorem lettered?_uses {known : List Setting} {letters : List Char} {rest left : List String}
    {found : List Given} (h : lettered? known letters rest = some (found, left)) :
    ∃ used, rest = used ++ left ∧ ∀ left', lettered? known letters (used ++ left') = some (found, left') := by
  induction letters generalizing found with
  | nil =>
    cases h
    exact ⟨[], rfl, fun left' => rfl⟩
  | cons c cs ih =>
    simp only [lettered?, Option.bind_eq_bind, Option.bind_eq_some_iff] at h ⊢
    obtain ⟨setting, hknown, h⟩ := h
    split at h
    · next hhas =>
      split at h
      · next hempty =>
        obtain ⟨used, hused, hleft⟩ := separate?_uses h
        refine ⟨used, hused, fun left' => ⟨setting, hknown, ?_⟩⟩
        rw [if_pos hhas, if_pos hempty]
        exact hleft left'
      · next hempty =>
        cases h
        refine ⟨[], rfl, fun left' => ⟨setting, hknown, ?_⟩⟩
        rw [if_pos hhas, if_neg hempty]
        rfl
    · next hhas =>
      split at h
      · next hasks =>
        cases h
        refine ⟨[], rfl, fun left' => ⟨setting, hknown, ?_⟩⟩
        rw [if_neg hhas, if_pos hasks]
        rfl
      · next hasks =>
        simp only [Option.bind_eq_some_iff] at h
        obtain ⟨⟨more, behind⟩, hmore, h⟩ := h
        cases h
        obtain ⟨used, hused, hleft⟩ := ih hmore
        refine ⟨used, hused, fun left' => ⟨setting, hknown, ?_⟩⟩
        rw [if_neg hhas, if_neg hasks, hleft left']
        rfl

/-- The options in an argument use some of the arguments behind it, whatever is left behind these. -/
theorem options?_uses {known : List Setting} {argument : String} {rest left : List String} {found : List Given}
    (h : options? known argument rest = some (found, left)) :
    ∃ used, rest = used ++ left ∧ ∀ left', options? known argument (used ++ left') = some (found, left') := by
  simp only [options?] at h ⊢
  split at h
  · exact named?_uses h
  · exact lettered?_uses h
  · cases h

/-- How options are read, argument by argument: up to the end, to two dashes at the end, or to a word. -/
inductive Reads (known : List Setting) : List Given → List String → List Given → List String → Prop where
  | ended (given : List Given) : Reads known given [] given []
  | dashes (given : List Given) : Reads known given ["--"] given []
  | word (given : List Given) {argument : String} (rest : List String) (isWord : isWord argument = true) :
    Reads known given (argument :: rest) given (argument :: rest)
  | options {given mid given' found : List Given} {argument : String} {rest left left' : List String}
      (noDashes : argument ≠ "--") (noWord : ¬isWord argument = true)
      (read : options? known argument rest = some (found, left)) (accepted : found.foldlM accept given = .ok mid)
      (behind : Reads known mid left given' left') : Reads known given (argument :: rest) given' left'

theorem reads_of_read {known : List Setting} {given given' : List Given} {arguments left : List String}
    (h : read known given arguments = .ok (given', left)) : Reads known given arguments given' left := by
  fun_induction read known given arguments with
  | case1 =>
    cases h
    exact .ended _
  | case2 given rest hempty =>
    cases h
    rw [List.isEmpty_iff.mp hempty]
    exact .dashes _
  | case3 => cases h
  | case4 given argument rest _ hword =>
    cases h
    exact .word _ rest hword
  | case5 => cases h
  | case6 => cases h
  | case7 given argument rest hdashes hword found left hread mid haccepted ih =>
    exact .options hdashes hword hread haccepted (ih h)

theorem Reads.read_eq {known : List Setting} {given given' : List Given} {arguments left : List String}
    (h : Reads known given arguments given' left) : read known given arguments = .ok (given', left) := by
  induction h with
  | ended given => rw [read]
  | dashes given => rw [read, if_pos rfl, List.isEmpty_nil, if_pos rfl]
  | @word given argument rest hword =>
    have hdashes : argument ≠ "--" := by
      rintro rfl
      exact absurd hword (by decide)
    rw [read, if_neg hdashes, if_pos hword]
  | @options given mid given' found argument rest left left' hdashes hword hread haccepted _ ih =>
    rw [read, if_neg hdashes, if_neg hword]
    split
    · next hnone => cases hread.symm.trans hnone
    · next found' behind hsome =>
      cases hread.symm.trans hsome
      rw [haccepted]
      exact ih

/-- What is read up to a word does not depend on what follows the word. -/
theorem Reads.stops {known : List Setting} {given given' : List Given} {arguments rest : List String}
    {word : String} (h : Reads known given arguments given' (word :: rest)) :
    ∃ front, arguments = front ++ word :: rest
      ∧ ∀ rest', Reads known given (front ++ word :: rest') given' (word :: rest') := by
  generalize hleft : word :: rest = left at h
  induction h with
  | ended given => cases hleft
  | dashes given => cases hleft
  | word given rest hword =>
    cases hleft
    exact ⟨[], rfl, fun rest' => .word given rest' hword⟩
  | @options _ _ _ _ argument _ _ _ hdashes hword hread haccepted _ ih =>
    obtain ⟨used, rfl, hused⟩ := options?_uses hread
    obtain ⟨front, rfl, hfront⟩ := ih hleft
    refine ⟨argument :: (used ++ front), ?_, fun rest' => ?_⟩
    · rw [List.cons_append, List.append_assoc]
    · rw [List.cons_append, List.append_assoc]
      exact .options hdashes hword (hused _) haccepted (hfront rest')

/-! ## Options behind a first one -/

/-- An option that is accepted is appended. -/
theorem accept_eq_ok {given given' : List Given} {g : Given} (h : accept given g = .ok given') :
    given' = given ++ [g] := by
  simp only [accept] at h
  split_ifs at h
  cases h
  rfl

theorem foldlM_accept_eq_ok {given given' found : List Given} (h : found.foldlM accept given = .ok given') :
    given' = given ++ found := by
  induction found generalizing given with
  | nil =>
    cases h
    exact (List.append_nil _).symm
  | cons g found ih =>
    rw [List.foldlM_cons] at h
    cases hg : accept given g with
    | error e =>
      rw [hg] at h
      cases h
    | ok mid =>
      rw [hg] at h
      rw [ih h, accept_eq_ok hg, List.append_assoc, List.singleton_append]

/-- An option that stands in front does not get in the way of another one. -/
theorem accept_behind {first g : Given} {given given' : List Given} (h : accept given g = .ok given')
    (hne : first.setting ≠ g.setting) : accept (first :: given) g = .ok (first :: given') := by
  have hany : ((first :: given).any fun before => decide (before.setting = g.setting))
      = given.any fun before => decide (before.setting = g.setting) := by
    rw [List.any_cons, decide_eq_false hne, Bool.false_or]
  rw [accept_eq_ok h]
  simp only [accept, hany] at h ⊢
  split_ifs at h ⊢
  rfl

theorem foldlM_accept_behind {first : Given} {given given' found : List Given}
    (h : found.foldlM accept given = .ok given') (hne : ∀ g ∈ found, first.setting ≠ g.setting) :
    found.foldlM accept (first :: given) = .ok (first :: given') := by
  induction found generalizing given with
  | nil =>
    cases h
    rfl
  | cons g found ih =>
    rw [List.foldlM_cons] at h ⊢
    cases hg : accept given g with
    | error e =>
      rw [hg] at h
      cases h
    | ok mid =>
      rw [hg] at h
      rw [accept_behind hg (hne g List.mem_cons_self)]
      exact ih h fun g' hg' => hne g' (List.mem_cons_of_mem g hg')

/-- Options that are accepted are kept. -/
theorem Reads.mem {known : List Setting} {given given' : List Given} {arguments left : List String}
    (h : Reads known given arguments given' left) : ∀ g ∈ given, g ∈ given' := by
  induction h with
  | ended => exact fun g hg => hg
  | dashes => exact fun g hg => hg
  | word => exact fun g hg => hg
  | options _ _ _ haccepted _ ih =>
    intro g hg
    refine ih g ?_
    rw [foldlM_accept_eq_ok haccepted]
    exact List.mem_append_left _ hg

/-- Options behind a first one are read as they are without it. -/
theorem Reads.behind {known : List Setting} {first : Given} {given given' : List Given}
    {arguments left : List String} (h : Reads known given arguments given' left)
    (hne : ∀ g ∈ given', first.setting ≠ g.setting) :
    Reads known (first :: given) arguments (first :: given') left := by
  induction h with
  | ended => exact .ended _
  | dashes => exact .dashes _
  | word given rest hword => exact .word _ rest hword
  | options hdashes hword hread haccepted hbehind ih =>
    refine .options hdashes hword hread (foldlM_accept_behind haccepted fun g hg => hne g ?_) (ih hne)
    refine hbehind.mem g ?_
    rw [foldlM_accept_eq_ok haccepted]
    exact List.mem_append_right _ hg

/-! ## The word for a dry run -/

/-- The option for a dry run. -/
def dryRunGiven : Given := ⟨.dryRun, ""⟩

theorem value?_behind_dryRun {setting : Setting} (h : setting ≠ .dryRun) (given : List Given) :
    value? (dryRunGiven :: given) setting = value? given setting := by
  have hne : decide (dryRunGiven.setting = setting) = false := decide_eq_false h.symm
  simp only [value?, List.find?_cons, hne]

theorem values_behind_dryRun {setting : Setting} (h : setting ≠ .dryRun) (given : List Given) :
    values (dryRunGiven :: given) setting = values given setting := by
  have hne : decide (dryRunGiven.setting = setting) = false := decide_eq_false h.symm
  simp only [values, List.filter_cons, hne, Bool.false_eq_true, if_false]

theorem isGiven_behind_dryRun {setting : Setting} (h : setting ≠ .dryRun) (given : List Given) :
    isGiven (dryRunGiven :: given) setting = isGiven given setting := by
  rw [isGiven, value?_behind_dryRun h, isGiven]

/-- An option that is not given is not among the given ones. -/
theorem setting_ne_of_isGiven_eq_false {given : List Given} {setting : Setting}
    (h : isGiven given setting = false) : ∀ g ∈ given, setting ≠ g.setting := by
  intro g hg heq
  simp only [isGiven, value?, Option.isSome_map, Option.isSome_eq_false_iff, Option.isNone_iff_eq_none,
    List.find?_eq_none] at h
  exact h g hg (decide_eq_true heq.symm)

/-- The task as a dry run. A preview is none. -/
def Task.dry : Task → Task
  | .preview scene => .preview scene
  | .make job _ => .make job true

/-- With the word in front, the same options ask for the same task as a dry run. -/
theorem task?_behind_dryRun (given : List Given) (command : Command) :
    task? (dryRunGiven :: given) command = (task? given command).map Task.dry := by
  have hword : isGiven (dryRunGiven :: given) .dryRun = true := rfl
  have hinput : value? (dryRunGiven :: given) .input = _ := value?_behind_dryRun (by decide) given
  have hscene : value? (dryRunGiven :: given) .scene = _ := value?_behind_dryRun (by decide) given
  have houtput : value? (dryRunGiven :: given) .output = _ := value?_behind_dryRun (by decide) given
  have hsegment : isGiven (dryRunGiven :: given) .segment = _ := isGiven_behind_dryRun (by decide) given
  have hsegments : values (dryRunGiven :: given) .segment = _ := values_behind_dryRun (by decide) given
  cases command with
  | preview =>
    simp only [task?, hscene]
    cases value? given .scene <;> rfl
  | render =>
    simp only [task?, hinput, hscene, houtput, hword]
    cases value? given .input <;> cases value? given .scene <;> cases value? given .output <;> rfl
  | merge =>
    rw [task?, hinput, houtput, hword, hsegment, hsegments, task?]
    cases value? given .input <;> cases isGiven given .segment <;> cases value? given .output <;> rfl
  | transportStream =>
    simp only [task?, hinput, houtput, hword]
    cases value? given .input <;> cases value? given .output <;> rfl

/-- A job that is to be done is not asked for with the word, and not by a preview. -/
theorem isGiven_dryRun_of_task? {given : List Given} {command : Command} {job : Job}
    (h : task? given command = some (.make job false)) :
    isGiven given .dryRun = false ∧ command ≠ .preview := by
  cases command with
  | preview =>
    obtain ⟨scene, _, h⟩ := Option.bind_eq_some_iff.mp h
    cases h
  | render =>
    obtain ⟨input, _, h⟩ := Option.bind_eq_some_iff.mp h
    obtain ⟨scene, _, h⟩ := Option.bind_eq_some_iff.mp h
    obtain ⟨output, _, h⟩ := Option.bind_eq_some_iff.mp h
    exact ⟨(Task.make.inj (Option.some.inj h)).2, fun h => by cases h⟩
  | merge =>
    obtain ⟨input, _, h⟩ := Option.bind_eq_some_iff.mp h
    obtain ⟨_, _, h⟩ := Option.bind_eq_some_iff.mp h
    obtain ⟨output, _, h⟩ := Option.bind_eq_some_iff.mp h
    exact ⟨(Task.make.inj (Option.some.inj h)).2, fun h => by cases h⟩
  | transportStream =>
    obtain ⟨input, _, h⟩ := Option.bind_eq_some_iff.mp h
    obtain ⟨output, _, h⟩ := Option.bind_eq_some_iff.mp h
    exact ⟨(Task.make.inj (Option.some.inj h)).2, fun h => by cases h⟩

/-- The word is read as an option by each command that makes something. -/
theorem reads_dryRun {command : Command} (h : command ≠ .preview) {given' : List Given}
    {arguments left : List String} (hreads : Reads command.settings [dryRunGiven] arguments given' left) :
    Reads command.settings [] ("--dry-run" :: arguments) given' left := by
  have hoption : options? command.settings "--dry-run" arguments = some ([dryRunGiven], arguments) := by
    cases command with
    | preview => exact absurd rfl h
    | render => rfl
    | merge => rfl
    | transportStream => rfl
  exact .options (by decide) (by decide) hoption rfl hreads

/-- A command that asks for a job asks for a dry run of it with the word in front of its options. -/
theorem requestOf_dryRun {command : Command} {general : List Given} {arguments : List String} {r : Request}
    {job : Job} (h : requestOf command general arguments = .ok r) (hjob : r.task = .make job false) :
    requestOf command general ("--dry-run" :: arguments) = .ok { r with task := .make job true } := by
  unfold requestOf at h ⊢
  cases hread : read command.settings [] arguments with
  | error ending =>
    rw [hread] at h
    cases h
  | ok result =>
    obtain ⟨given, left⟩ := result
    rw [hread] at h
    cases left with
    | cons word rest => cases h
    | nil =>
      cases htask : task? given command with
      | none =>
        simp only [bind, Except.bind, htask] at h
        cases h
      | some task =>
        simp only [bind, Except.bind, htask] at h
        cases h
        simp only at hjob
        subst hjob
        obtain ⟨hgiven, hcommand⟩ := isGiven_dryRun_of_task? htask
        have hne : ∀ g ∈ given, dryRunGiven.setting ≠ g.setting := setting_ne_of_isGiven_eq_false hgiven
        have hdry := (reads_dryRun hcommand ((reads_of_read hread).behind hne)).read_eq
        have htask' : task? (dryRunGiven :: given) command = some (.make job true) := by
          rw [task?_behind_dryRun, htask]
          rfl
        have hconfig : value? (dryRunGiven :: given) .config = _ := value?_behind_dryRun (by decide) given
        have hverbose : isGiven (dryRunGiven :: given) .verbose = _ := isGiven_behind_dryRun (by decide) given
        simp only [bind, Except.bind, hdry, htask', hconfig, hverbose]
        rfl

/-- **Every command line that asks for a job can be asked for a dry run**, by the word behind its command. -/
theorem exists_dryRun {arguments : List String} {r : Request} {job : Job}
    (h : Request.ofArguments arguments = .ok r) (hjob : r.task = .make job false) :
    ∃ front word rest, arguments = front ++ word :: rest
      ∧ Request.ofArguments (front ++ word :: "--dry-run" :: rest) = .ok { r with task := .make job true } := by
  unfold Request.ofArguments at h ⊢
  cases hread : read generalSettings [] arguments with
  | error ending =>
    rw [hread] at h
    cases h
  | ok result =>
    obtain ⟨general, left⟩ := result
    simp only [bind, Except.bind, hread] at h
    cases left with
    | nil => cases h
    | cons word rest =>
      obtain ⟨front, rfl, hfront⟩ := (reads_of_read hread).stops
      refine ⟨front, word, rest, rfl, ?_⟩
      simp only [bind, Except.bind, (hfront _).read_eq]
      by_cases hhelp : word = "help"
      · simp only [if_pos hhelp] at h
        cases h
      · simp only [if_neg hhelp] at h ⊢
        cases hcommand : Command.ofName? word with
        | none =>
          simp only [hcommand] at h
          cases h
        | some command =>
          simp only [hcommand] at h ⊢
          exact requestOf_dryRun h hjob

/-! ## Two runs -/

/-- The ends of a run and of the dry run of the same request.

* `failed`: something that the request needs goes wrong. Both asked about the same files and say the same.
* `told`: nothing does. Both asked about the same files, and the dry run prints the line by which the other one
  starts the encoder. -/
inductive DryRunTells (machine : Machine) (r : Request) : Finished → Finished → Prop where
  | failed {examined : List Action} {text : String} (missing : ¬r.Assembles machine)
      (examines : OnlyExamines examined) :
    DryRunTells machine r (.failed examined text) (.failed examined text)
  | told {f : Finished} {config : Config} {examined : List Action} {arguments : List String}
      (assembled : r.Assembles machine) (configured : r.Configured machine.files config)
      (examines : OnlyExamines examined)
      (started : f.actions = examined ++ [.encode config.programs.encoder arguments]) :
    DryRunTells machine r f
      { actions := examined, code := 0, messages := ""
        output := config.programs.encoder ++ " " ++ String.intercalate " " arguments ++ "\n" }

/-- Both runs of a request. -/
theorem dryRunTells_run (machine : Machine) {r : Request} {job : Job} (hjob : r.task = .make job false) :
    DryRunTells machine r (r.run machine) (Request.run { r with task := .make job true } machine) := by
  have hsame : Request.settings { r with task := .make job true } machine.files = r.settings machine.files := rfl
  cases hsettings : r.settings machine.files with
  | error e =>
    simp only [Request.run, hsame, hsettings]
    exact .failed (not_assembles_of_settings hsettings) (List.forall_mem_nil _)
  | ok config =>
    have hconfig : r.Configured machine.files config := settings_eq_ok_iff.mp hsettings
    have hexamines := onlyExamines_examined machine config job
    simp only [Request.run, hsame, hsettings, hjob]
    have hreal := made machine config job false
    have hdry := made machine config job true
    generalize make machine config job false = real at hreal ⊢
    generalize make machine config job true = dry at hdry ⊢
    cases hdry with
    | unassembled hfailure =>
      cases hreal with
      | unassembled hfailure' =>
        cases hfailure.symm.trans hfailure'
        exact .failed (not_assembles_of_arguments hconfig hjob hfailure) hexamines
      | encoded hassembled => cases hfailure.symm.trans hassembled
      | failed hassembled => cases hfailure.symm.trans hassembled
    | shown hassembled =>
      -- The arguments do not depend on the flag, so the other run has the same ones.
      have hassembles := Request.Assembles.make hconfig hjob (Job.exists_arguments_iff.mp ⟨_, hassembled⟩)
      cases hreal with
      | unassembled hfailure => cases hfailure.symm.trans hassembled
      | encoded hassembled' =>
        cases hassembled.symm.trans hassembled'
        exact .told hassembles hconfig hexamines rfl
      | failed hassembled' =>
        cases hassembled.symm.trans hassembled'
        exact .told hassembles hconfig hexamines rfl

/-- **A dry run tells what the run would do**, whatever the files and the programs of the machine. This holds
for any two command lines that ask for the same job, the second one as a dry run; and every command line that
asks for a job becomes such a second one by the word behind its command. -/
theorem run_dryRun_tells {machine : Machine} {arguments : List String} {r : Request} {job : Job}
    (h : Request.ofArguments arguments = .ok r) (hjob : r.task = .make job false) :
    (∀ dry, Request.ofArguments dry = .ok { r with task := .make job true } →
        DryRunTells machine r (run machine arguments) (run machine dry))
      ∧ ∃ front word rest, arguments = front ++ word :: rest
          ∧ Request.ofArguments (front ++ word :: "--dry-run" :: rest) = .ok { r with task := .make job true } := by
  refine ⟨fun dry hdry => ?_, exists_dryRun h hjob⟩
  rw [run, run, h, hdry]
  exact dryRunTells_run machine hjob

/-- A transport stream: both runs ask about the file, and the dry run prints the line of the encoder, wherever the
programs are. -/
theorem run_dryRun_tells_remux :
    ((∀ dry,
        Request.ofArguments dry = .ok { remuxRequest with task := .make (.transportStream "a.mp4" "a.ts") true } →
        DryRunTells copyingMachine remuxRequest (run copyingMachine remuxArguments) (run copyingMachine dry))
      ∧ run copyingMachine ("transport-stream" :: "--dry-run" :: remuxArguments.tail)
        = { actions := [.examine "ffprobe" "a.mp4"]
            output := "ffmpeg -y -i a.mp4 -c copy -bsf:v h264_mp4toannexb -f mpegts a.ts\n" })
      ∧ DryRunTells mountedMachine mountedRequest (run mountedMachine mountedArguments)
        (run mountedMachine ("-c" :: "tools.toml" :: "transport-stream" :: "--dry-run" :: remuxArguments.tail))
      ∧ run mountedMachine ("-c" :: "tools.toml" :: "transport-stream" :: "--dry-run" :: remuxArguments.tail)
        = { actions := [.examine "/opt/ffmpeg/bin/ffprobe" "a.mp4"]
            output := "/opt/ffmpeg/bin/ffmpeg -y -i a.mp4 -c copy -bsf:v h264_mp4toannexb -f mpegts a.ts\n" } := by
  have hdry : Request.ofArguments
      ("-c" :: "tools.toml" :: "transport-stream" :: "--dry-run" :: remuxArguments.tail)
      = .ok { mountedRequest with task := .make (.transportStream "a.mp4" "a.ts") true } := by decide +kernel
  refine ⟨⟨(run_dryRun_tells ofArguments_remuxArguments rfl).1, ?_⟩, ?_, ?_⟩
  · decide +kernel
  · exact (run_dryRun_tells ofArguments_mountedArguments rfl).1 _ hdry
  · decide +kernel

end CommandLine
end VideoOverlay
