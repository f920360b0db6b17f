import VideoOverlay.Proofs.CommandLine.Run

/-!
# `Proofs.CommandLine.Overwrite` — the leave to replace an output

The settings say whether the encoder may replace an output that exists. It may if its arguments begin with `-y`.
That word comes from two places: a job that copies streams has it among the arguments it needs, and to a job
that has not, the settings add it. So the settings decide for drawing only. A job that copies streams asks for
the leave whatever they say (`run_asks_leave`), also if replacing is switched off (`run_replaces_unasked`).

Everything behind the word is the same with and without the leave, and the word is there once at the most.

## Contents
- `Config.withOverwrite`, `Job.copies`, `Job.leave`: the word, and what decides about it.
- `Job.exists_command`, `Job.exists_arguments_withOverwrite`: the arguments of a job with any setting.
- `PutsToUse`, with `run_asks_leave`.
-/

namespace VideoOverlay

/-- The settings with another answer to whether an output is replaced. -/
def Config.withOverwrite (config : Config) (overwrite : Bool) : Config :=
  { config with policy := { config.policy with overwrite } }

namespace Job

variable {machine : Machine} {config : Config} {job : Job}

/-- Whether a job copies streams, and encodes none. -/
def copies : Job → Bool
  | .render .. => false
  | .merge .. | .transportStream .. => true

/-- The word by which the encoder may replace an output, if it is there. -/
def leave (overwrite : Bool) (job : Job) : List String := if overwrite || job.copies then ["-y"] else []

/-! ## Arguments -/

/-- The arguments that draw a session begin with the main video. -/
theorem head?_of_renderCommand {probe : Option Probe} {primary output : String} {s : Session} {args : List String}
    (h : (renderCommand probe primary s output).outcome = .ok args) : args.head? = some "-i" := by
  obtain ⟨found, hfound⟩ := exists_renderOutcome probe primary s output
  rw [hfound.eq] at h
  obtain ⟨inputs, text, rfl, _⟩ := hfound.exists_text h
  rfl

/-- The arguments that a job needs begin with the word for the leave exactly if it copies streams. -/
theorem exists_command (h : job.Succeeds machine config) :
    ∃ rest, rest.head? = some "-i" ∧ (job.command machine config).outcome = .ok (job.leave false ++ rest) := by
  obtain ⟨needed, hneeded⟩ := exists_arguments_iff_exists_command.mp (exists_arguments_iff.mpr h)
  cases job with
  | render input path output =>
    -- What draws a session has no word for the leave, so the rest is all of it.
    obtain ⟨scene, _, hsession⟩ := Assembly.outcome_bind_eq_ok_iff.mp hneeded
    obtain ⟨s, _, hrender⟩ := Assembly.outcome_bind_eq_ok_iff.mp hsession
    exact ⟨needed, head?_of_renderCommand hrender, hneeded⟩
  | merge input appended output =>
    obtain ⟨_, _, harguments⟩ := Assembly.outcome_bind_eq_ok_iff.mp hneeded
    cases harguments
    exact ⟨_, rfl, hneeded⟩
  | transportStream input output =>
    obtain ⟨_, _, harguments⟩ := Assembly.outcome_bind_eq_ok_iff.mp hneeded
    cases harguments
    exact ⟨_, rfl, hneeded⟩

/-- The arguments that a job needs do not depend on whether an output is replaced. -/
theorem command_withOverwrite (overwrite : Bool) :
    job.command machine (config.withOverwrite overwrite) = job.command machine config := by
  cases job with
  | render input path output => rfl
  | merge input appended output => rfl
  | transportStream input output => rfl

/-- The settings add the word where it is missing, and nowhere else. -/
theorem allowReplacing_leave {rest : List String} (hrest : rest.head? = some "-i") (overwrite : Bool) (job : Job) :
    allowReplacing overwrite (job.leave false ++ rest) = job.leave overwrite ++ rest := by
  have hnone : ¬rest.head? = some "-y" := by
    rw [hrest]
    decide
  unfold allowReplacing leave
  -- The rest never begins with the word itself, so only a word in front of it keeps the settings from adding one.
  cases job.copies with
  | true => simp
  | false => cases overwrite <;> simp [hnone]

/-- **The arguments of a job are the leave, and a rest that the leave has no part in.** -/
theorem exists_arguments_withOverwrite (h : job.Succeeds machine config) :
    ∃ rest, rest.head? = some "-i" ∧ ∀ overwrite,
      (job.arguments machine (config.withOverwrite overwrite)).outcome = .ok (job.leave overwrite ++ rest) := by
  obtain ⟨rest, hrest, hcommand⟩ := exists_command h
  refine ⟨rest, hrest, fun overwrite => ?_⟩
  rw [arguments, command_withOverwrite, ← allowReplacing_leave hrest]
  exact Assembly.outcome_bind_eq_ok_iff.mpr ⟨_, hcommand, rfl⟩

end Job

namespace CommandLine

variable {machine : Machine} {config : Config} {job : Job}

/-! ## Runs -/

/-- What a run does with the arguments of an encoder, behind what it asks about files.

* `handed`: it hands them over, whatever comes of it.
* `printed`: in a dry run it prints them. -/
inductive PutsToUse (encoder : String) (arguments : List String) : Bool → Finished → Prop where
  | handed {examined : List Action} {code : Nat} {messages : String} (examines : OnlyExamines examined) :
    PutsToUse encoder arguments false { actions := examined ++ [.encode encoder arguments], code, messages }
  | printed {examined : List Action} (examines : OnlyExamines examined) :
    PutsToUse encoder arguments true { actions := examined, output := line (commandText encoder arguments) }

/-- An export that has arguments puts them to use. -/
theorem putsToUse_make {arguments : List String} (h : (job.arguments machine config).outcome = .ok arguments)
    (dryRun : Bool) : PutsToUse config.programs.encoder arguments dryRun (make machine config job dryRun) := by
  have hexamines := onlyExamines_examined machine config job
  have hmade := made machine config job dryRun
  generalize make machine config job dryRun = f at hmade ⊢
  cases hmade with
  | unassembled hfailure => cases h.symm.trans hfailure
  | shown hassembled =>
    cases h.symm.trans hassembled
    exact .printed hexamines
  | encoded hassembled =>
    cases h.symm.trans hassembled
    exact .handed hexamines
  | failed hassembled =>
    cases h.symm.trans hassembled
    exact .handed hexamines

/-- **Who asks for the leave to replace an output.** Let a job have all that it needs. Then there are arguments,
beginning with `-i` and a file to read, to which nothing but the leave is ever added: every command line for this
job, with settings that differ in the leave only, puts them to use behind `-y` if the settings give the leave or
the job copies streams, and as they are if neither. -/
theorem run_asks_leave (h : job.Succeeds machine config) :
    ∃ rest, rest.head? = some "-i" ∧ ∀ overwrite dryRun arguments r,
      Request.ofArguments arguments = .ok r → r.task = .make job dryRun →
      r.Configured machine.files (config.withOverwrite overwrite) →
      PutsToUse config.programs.encoder ((if overwrite || job.copies then ["-y"] else []) ++ rest) dryRun
        (run machine arguments) := by
  obtain ⟨rest, hrest, harguments⟩ := Job.exists_arguments_withOverwrite h
  refine ⟨rest, hrest, fun overwrite dryRun arguments r hr htask hconfig => ?_⟩
  have hrun : run machine arguments = make machine (config.withOverwrite overwrite) job dryRun := by
    simp only [run, hr, Request.run, settings_eq_ok_iff.mpr hconfig, htask]
  rw [hrun]
  exact putsToUse_make (harguments overwrite) dryRun

/-- A machine with a scene, and with a file of settings by which no output is replaced. -/
def keepingMachine : Machine :=
  { copyingMachine with
    files := { files := [(["keep.toml"], "[export]\noverwrite = false\n".toUTF8),
      (["scene.toml"], "[[overlay]]\nkind = 'text'\ntext = 'drawtext=text=live'\n".toUTF8)] } }

/-- These settings. -/
def keepingConfig : Config := { policy := { overwrite := false } }

/-- A dry run that draws the scene. -/
def drawingArguments : List String :=
  ["render", "-i", "a.mp4", "-s", "scene.toml", "-o", "b.mp4", "--dry-run"]

/-- What the command line asks for. -/
def drawingRequest : Request := { task := .make (.render "a.mp4" "scene.toml" "b.mp4") true }

/-- The settings are those of any request that names the file. -/
theorem configured_keepingConfig (task : Task) (verbose : Bool) :
    Request.Configured keepingMachine.files ⟨task, some "keep.toml", verbose⟩ keepingConfig := by
  have hload : Config.load keepingMachine.files "keep.toml" = .ok keepingConfig := by decide +kernel
  exact settings_eq_ok_iff.mp hload

/-- The settings that name programs by their paths. -/
def mountedConfig : Config := { programs := ⟨"/opt/ffmpeg/bin/ffmpeg", "/opt/ffmpeg/bin/ffprobe"⟩ }

/-- Drawing goes by the settings: the default ones add the leave to the arguments, and the others do not. A
transport stream asks for the leave, wherever the programs are. -/
theorem run_asks_leave_drawing :
    (∃ rest, rest.head? = some "-i"
      ∧ PutsToUse "ffmpeg" rest true (run keepingMachine ("-c" :: "keep.toml" :: drawingArguments))
      ∧ PutsToUse "ffmpeg" ("-y" :: rest) true (run keepingMachine drawingArguments))
    ∧ ∃ rest, rest.head? = some "-i"
      ∧ PutsToUse "/opt/ffmpeg/bin/ffmpeg" ("-y" :: rest) false (run mountedMachine mountedArguments) := by
  have hsucceeds : Job.Succeeds keepingMachine keepingConfig (.render "a.mp4" "scene.toml" "b.mp4") :=
    Job.exists_arguments_iff.mp
      ⟨["-i", "a.mp4", "-filter_complex", "[0:v]drawtext=text=live", "b.mp4"], by decide +kernel⟩
  have hkeeping : Request.ofArguments ("-c" :: "keep.toml" :: drawingArguments)
      = .ok { drawingRequest with config := some "keep.toml" } := by decide +kernel
  have hdefault : Request.ofArguments drawingArguments = .ok drawingRequest := by decide +kernel
  have hload : Config.load mountedMachine.files "tools.toml" = .ok mountedConfig := by decide +kernel
  have hcopies : Job.Succeeds mountedMachine mountedConfig (.transportStream "a.mp4" "a.ts") :=
    Job.exists_arguments_iff.mp
      ⟨["-y", "-i", "a.mp4", "-c", "copy", "-bsf:v", "h264_mp4toannexb", "-f", "mpegts", "a.ts"], by decide +kernel⟩
  obtain ⟨rest, hrest, hruns⟩ := run_asks_leave hsucceeds
  obtain ⟨rest', hrest', hruns'⟩ := run_asks_leave hcopies
  refine ⟨⟨rest, hrest, ?_, ?_⟩, rest', hrest', ?_⟩
  · exact hruns false true _ _ hkeeping rfl (configured_keepingConfig _ _)
  · exact hruns true true _ _ hdefault rfl (.unset rfl)
  · exact hruns' true false _ _ ofArguments_mountedArguments rfl (settings_eq_ok_iff.mp hload)

/-- **A transport stream replaces its output although that is switched off.** -/
theorem run_replaces_unasked :
    Request.ofArguments ("-c" :: "keep.toml" :: remuxArguments)
        = .ok { remuxRequest with config := some "keep.toml" }
      ∧ Request.Configured keepingMachine.files { remuxRequest with config := some "keep.toml" } keepingConfig
      ∧ keepingConfig.policy.overwrite = false
      ∧ (run keepingMachine ("-c" :: "keep.toml" :: remuxArguments)).actions = [.examine "ffprobe" "a.mp4",
          .encode "ffmpeg"
            ["-y", "-i", "a.mp4", "-c", "copy", "-bsf:v", "h264_mp4toannexb", "-f", "mpegts", "a.ts"]] :=
  ⟨by decide +kernel, configured_keepingConfig _ _, rfl, by decide +kernel⟩

end CommandLine
end VideoOverlay
