import VideoOverlay.CommandLine.Run
import VideoOverlay.Proofs.Export.Job

/-!
# `Proofs.CommandLine.Run` — when the encoder is started, and how a run ends

A run may end early at many places: the settings, the scene, a codec, a token. The encoder is started behind
all of them, by the one task that is no preview and no dry run, so it is started at most once and after the
last file was asked about. `RunEnds` sorts the ends of a run by what is left to say at the end: nothing was
assembled, something was shown, or the encoder was started.

## Contents
- `Request.Configured`, `Request.Assembles`: the settings of a request, and everything that it needs.
- `Made`, `Previewed`: the ends of the two tasks. `RunEnds`: those of a run.
- `EncodesLast`, with `run_encodesLast`.
-/

namespace VideoOverlay
namespace CommandLine

/-! ## What a request needs -/

/-- The settings that a request is done with: the default ones if it names no file, and otherwise those of the
file, if they are usable. -/
inductive Request.Configured (files : Files) (r : Request) : Config → Prop where
  | unset (absent : r.config = none) : Configured files r {}
  | loaded {path text : String} {config : Config} (named : r.config = some path)
      (read : files.readText? path = some text) (parsed : Config.parse? text = some config)
      (usable : config.problem? = none) : Configured files r config

/-- Everything that a request needs goes well: it has settings, and its scene can be shown or its job done. -/
inductive Request.Assembles (machine : Machine) (r : Request) : Prop where
  | preview {config : Config} {path : String} {scene : Scene} {s : Session} {g : Graph}
      (configured : r.Configured machine.files config) (task : r.task = .preview path)
      (loaded : Scene.load machine.files path = .ok scene) (registered : (scene.session none).outcome = .ok s)
      (compiled : s.compile = .ok g)
  | make {config : Config} {job : Job} {dryRun : Bool} (configured : r.Configured machine.files config)
      (task : r.task = .make job dryRun) (succeeds : job.Succeeds machine config)

variable {machine : Machine} {r : Request} {config : Config} {job : Job} {path : String} {f : Finished}

/-- The settings in a file are loaded if it is read as settings that are usable. -/
theorem load_eq_ok_iff {files : Files} :
    Config.load files path = .ok config ↔ ∃ text, files.readText? path = some text
      ∧ Config.parse? text = some config ∧ config.problem? = none := by
  rw [Config.load]
  cases files.readText? path with
  | none => simp
  | some text =>
    cases hparse : Config.parse? text with
    | none => simp [hparse]
    | some found =>
      simp only [Config.validate, Option.some.injEq, exists_eq_left', hparse]
      cases hproblem : found.problem? with
      | some e =>
        constructor
        · intro h
          cases h
        · rintro ⟨rfl, h⟩
          cases hproblem.symm.trans h
      | none =>
        constructor
        · intro h
          cases h
          exact ⟨rfl, hproblem⟩
        · rintro ⟨rfl, _⟩
          rfl

theorem settings_eq_ok_iff {files : Files} : r.settings files = .ok config ↔ r.Configured files config := by
  rw [Request.settings]
  constructor
  · intro h
    cases hconfig : r.config with
    | none =>
      rw [hconfig] at h
      cases h
      exact .unset hconfig
    | some path =>
      rw [hconfig] at h
      obtain ⟨text, hread, hparse, husable⟩ := load_eq_ok_iff.mp h
      exact .loaded hconfig hread hparse husable
  · intro h
    cases h with
    | unset habsent => rw [habsent]
    | loaded hnamed hread hparse husable =>
      rw [hnamed]
      exact load_eq_ok_iff.mpr ⟨_, hread, hparse, husable⟩

/-- The settings of a request are known from the request. -/
theorem Request.Configured.unique {files : Files} {config' : Config} (h : r.Configured files config)
    (h' : r.Configured files config') : config = config' :=
  Except.ok.inj ((settings_eq_ok_iff.mpr h).symm.trans (settings_eq_ok_iff.mpr h'))

theorem Request.Assembles.exists_configured (h : r.Assembles machine) :
    ∃ config, r.Configured machine.files config := by
  cases h with
  | preview hconfig => exact ⟨_, hconfig⟩
  | make hconfig => exact ⟨_, hconfig⟩

/-- Without settings nothing is assembled. -/
theorem not_assembles_of_settings {e : Error} (h : r.settings machine.files = .error e) : ¬r.Assembles machine := by
  intro hassembles
  obtain ⟨config, hconfig⟩ := hassembles.exists_configured
  cases h.symm.trans (settings_eq_ok_iff.mpr hconfig)

/-- Without arguments for its job nothing is assembled. -/
theorem not_assembles_of_arguments {dryRun : Bool} {e : Error} (hconfig : r.Configured machine.files config)
    (htask : r.task = .make job dryRun) (h : (job.arguments machine config).outcome = .error e) :
    ¬r.Assembles machine := by
  intro hassembles
  cases hassembles with
  | preview _ htask' => cases htask.symm.trans htask'
  | make hconfig' htask' hsucceeds =>
    cases htask.symm.trans htask'
    cases hconfig.unique hconfig'
    obtain ⟨arguments, hassembled⟩ := Job.exists_arguments_iff.mpr hsucceeds
    cases h.symm.trans hassembled

/-! ## The ends of the tasks -/

/-- What a job asks about. -/
def examined (machine : Machine) (config : Config) (job : Job) : List Action :=
  (job.arguments machine config).probed.map (.examine config.programs.prober)

/-- How an export ends.

* `unassembled`: there are no arguments.
* `shown`: in a dry run the arguments are shown.
* `encoded`, `failed`: the encoder was started, and succeeded or did not. -/
inductive Made (machine : Machine) (config : Config) (job : Job) : Bool → Finished → Prop where
  | unassembled {dryRun : Bool} {e : Error} (failure : (job.arguments machine config).outcome = .error e) :
    Made machine config job dryRun (.failed (examined machine config job) (report e))
  | shown {arguments : List String} (assembled : (job.arguments machine config).outcome = .ok arguments) :
    Made machine config job true
      { actions := examined machine config job, output := line (commandText config.programs.encoder arguments) }
  | encoded {arguments : List String} (assembled : (job.arguments machine config).outcome = .ok arguments)
      (success : machine.encode config.programs.encoder arguments = .ok ()) :
    Made machine config job false
      { actions := examined machine config job ++ [.encode config.programs.encoder arguments] }
  | failed {arguments : List String} {e : RunError}
      (assembled : (job.arguments machine config).outcome = .ok arguments)
      (failure : machine.encode config.programs.encoder arguments = .error e) :
    Made machine config job false
      (.failed (examined machine config job ++ [.encode config.programs.encoder arguments])
        (Error.run e).userMessage)

/-- An export ends in one of these ways. -/
theorem made (machine : Machine) (config : Config) (job : Job) (dryRun : Bool) :
    Made machine config job dryRun (make machine config job dryRun) := by
  cases hassembled : (job.arguments machine config).outcome with
  | error e =>
    simp only [make, hassembled]
    exact .unassembled hassembled
  | ok arguments =>
    cases dryRun with
    | true =>
      simp only [make, hassembled]
      exact .shown hassembled
    | false =>
      cases hencode : machine.encode config.programs.encoder arguments with
      | ok u =>
        simp only [make, hassembled, hencode]
        exact .encoded hassembled hencode
      | error e =>
        simp only [make, hassembled, hencode]
        exact .failed hassembled hencode

/-- How a preview ends: with a text of what went wrong, or with a graph. No other program is asked. -/
inductive Previewed (machine : Machine) (path : String) : Finished → Prop where
  | failed {text : String} (missing : ∀ scene s g, Scene.load machine.files path = .ok scene →
      (scene.session none).outcome = .ok s → s.compile ≠ .ok g) : Previewed machine path (.failed [] text)
  | shown {scene : Scene} {s : Session} {g : Graph} (loaded : Scene.load machine.files path = .ok scene)
      (registered : (scene.session none).outcome = .ok s) (compiled : s.compile = .ok g) :
    Previewed machine path { output := listing g }

theorem previewed (machine : Machine) (path : String) : Previewed machine path (preview machine path) := by
  cases hload : Scene.load machine.files path with
  | error e =>
    simp only [preview, hload, Except.bind]
    refine .failed fun scene s g h => ?_
    cases hload.symm.trans h
  | ok scene =>
    cases hsession : (scene.session none).outcome with
    | error e =>
      simp only [preview, hload, Except.bind, hsession]
      refine .failed fun scene' s g h h' => ?_
      cases hload.symm.trans h
      cases hsession.symm.trans h'
    | ok s =>
      cases hcompile : s.compile with
      | error e =>
        simp only [preview, hload, Except.bind, hsession, hcompile]
        refine .failed fun scene' s' g h h' h'' => ?_
        cases hload.symm.trans h
        cases hsession.symm.trans h'
        cases hcompile.symm.trans h''
      | ok g =>
        simp only [preview, hload, Except.bind, hsession, hcompile]
        exact .shown hload hsession hcompile

/-! ## The ends of a run -/

/-- Actions that ask about files only. -/
def OnlyExamines (actions : List Action) : Prop := ∀ a ∈ actions, ∃ prober path, a = .examine prober path

theorem onlyExamines_examined (machine : Machine) (config : Config) (job : Job) :
    OnlyExamines (examined machine config job) := by
  intro a ha
  obtain ⟨file, _, rfl⟩ := List.mem_map.mp ha
  exact ⟨_, _, rfl⟩

/-- An encoder was started and succeeded. -/
def Encodes (machine : Machine) (encoder : String) (arguments : List String) : Prop :=
  ∃ printed, machine.start encoder arguments = .ok printed ∧ printed.code = some 0

theorem encode_eq_ok_iff {encoder : String} {arguments : List String} :
    machine.encode encoder arguments = .ok () ↔ Encodes machine encoder arguments := by
  rw [Machine.encode, Encodes]
  cases machine.start encoder arguments with
  | error reason =>
    constructor
    · intro h
      cases h
    · rintro ⟨_, h, _⟩
      cases h
  | ok printed =>
    by_cases hcode : printed.code = some 0
    · simp [Printed.succeeded, hcode]
    · simp [Printed.succeeded, hcode]

/-- How a run ends that was asked for a task.

* `unassembled`: something that the request needs went wrong.
* `shown`: nothing did, and the task was a preview or a dry run.
* `encoded`: nothing did, and the encoder was started, which may fail. -/
inductive RunEnds (machine : Machine) (r : Request) : Finished → Prop where
  | unassembled {actions : List Action} {text : String} (missing : ¬r.Assembles machine)
      (examines : OnlyExamines actions) (silent : ∀ path, r.task = .preview path → actions = []) :
    RunEnds machine r (.failed actions text)
  | shown {actions : List Action} {output : String} (assembled : r.Assembles machine)
      (task : ∀ job, r.task ≠ .make job false) (examines : OnlyExamines actions)
      (silent : ∀ path, r.task = .preview path → actions = []) :
    RunEnds machine r { actions, output }
  | encoded {config : Config} {job : Job} {actions : List Action} {arguments : List String} {code : Nat}
      {messages : String} (configured : r.Configured machine.files config) (task : r.task = .make job false)
      (succeeds : job.Succeeds machine config) (examines : OnlyExamines actions)
      (ended : code = 0 ↔ Encodes machine config.programs.encoder arguments) :
    RunEnds machine r
      { actions := actions ++ [.encode config.programs.encoder arguments], code, messages }

/-- **A run that is asked for a task ends in one of these ways.** -/
theorem runEnds (machine : Machine) (r : Request) : RunEnds machine r (r.run machine) := by
  cases hsettings : r.settings machine.files with
  | error e =>
    simp only [Request.run, hsettings]
    exact .unassembled (not_assembles_of_settings hsettings) (List.forall_mem_nil _) fun _ _ => rfl
  | ok config =>
    have hconfig : r.Configured machine.files config := settings_eq_ok_iff.mp hsettings
    cases htask : r.task with
    | preview path =>
      simp only [Request.run, hsettings, htask]
      have hpreviewed := previewed machine path
      generalize preview machine path = f at hpreviewed ⊢
      cases hpreviewed with
      | failed hmissing =>
        refine .unassembled (fun h => ?_) (List.forall_mem_nil _) fun _ _ => rfl
        cases h with
        | preview _ htask' hload hsession hcompile =>
          cases htask.symm.trans htask'
          exact hmissing _ _ _ hload hsession hcompile
        | make _ htask' => cases htask.symm.trans htask'
      | shown hload hsession hcompile =>
        refine .shown (.preview hconfig htask hload hsession hcompile) (fun job h => ?_) (List.forall_mem_nil _)
          fun _ _ => rfl
        cases htask.symm.trans h
    | make job dryRun =>
      simp only [Request.run, hsettings, htask]
      have hnoPreview (actions : List Action) (path : String) : r.task = .preview path → actions = [] := by
        intro h
        cases htask.symm.trans h
      have hexamines := onlyExamines_examined machine config job
      have hmade := made machine config job dryRun
      generalize make machine config job dryRun = f at hmade ⊢
      cases hmade with
      | unassembled hfailure =>
        exact .unassembled (not_assembles_of_arguments hconfig htask hfailure) hexamines (hnoPreview _)
      | shown hassembled =>
        have hsucceeds := Job.exists_arguments_iff.mp ⟨_, hassembled⟩
        refine .shown (.make hconfig htask hsucceeds) (fun job' h => ?_) hexamines (hnoPreview _)
        cases htask.symm.trans h
      | encoded hassembled hsuccess =>
        have hsucceeds := Job.exists_arguments_iff.mp ⟨_, hassembled⟩
        exact .encoded hconfig htask hsucceeds hexamines ⟨fun _ => encode_eq_ok_iff.mp hsuccess, fun _ => rfl⟩
      | failed hassembled hfailure =>
        have hsucceeds := Job.exists_arguments_iff.mp ⟨_, hassembled⟩
        refine .encoded hconfig htask hsucceeds hexamines ⟨fun h => ?_, fun h => ?_⟩
        · cases h
        · cases hfailure.symm.trans (encode_eq_ok_iff.mpr h)

/-! ## The encoder -/

/-- What holds of every run that is asked for a task.

* `last`: the encoder is started at most once, and behind everything that is asked about.
* `exactly`: it is started exactly if the task is an export, not a dry run, and all that it needs goes well.
* `silent`: a preview asks no other program.
* `code`: the exit code is zero exactly if all that the request needs goes well, and the encoder succeeds if it
  is started.
* `spoiled`: a file with another codec, or a scene without a graph, never gets to the encoder. -/
structure EncodesLast (machine : Machine) (r : Request) (f : Finished) : Prop where
  last : ∀ front encoder arguments back, f.actions = front ++ .encode encoder arguments :: back →
    back = [] ∧ OnlyExamines front
  exactly : (∃ encoder arguments, .encode encoder arguments ∈ f.actions)
    ↔ ∃ config job, r.Configured machine.files config ∧ r.task = .make job false ∧ job.Succeeds machine config
  silent : ∀ path, r.task = .preview path → f.actions = []
  code : f.code = 0 ↔ r.Assembles machine
    ∧ ∀ encoder arguments, .encode encoder arguments ∈ f.actions → Encodes machine encoder arguments
  spoiled : ∀ config job dryRun, r.Configured machine.files config → r.task = .make job dryRun →
    job.Spoiled machine config → OnlyExamines f.actions

/-- Asking about files does not start the encoder. -/
theorem OnlyExamines.not_encode {actions : List Action} (h : OnlyExamines actions) (encoder : String)
    (arguments : List String) : .encode encoder arguments ∉ actions := by
  intro hmem
  obtain ⟨prober, path, heq⟩ := h _ hmem
  cases heq

/-- If the encoder is started behind questions about files, it is started there only. -/
theorem OnlyExamines.of_append_encode {actions front back : List Action} {encoder encoder' : String}
    {arguments arguments' : List String} (h : OnlyExamines actions)
    (heq : actions ++ [.encode encoder arguments] = front ++ .encode encoder' arguments' :: back) :
    back = [] ∧ front = actions := by
  rcases List.eq_nil_or_concat back with rfl | ⟨more, last, rfl⟩
  · exact ⟨rfl, (List.append_inj_left' heq rfl).symm⟩
  · rw [List.concat_eq_append, ← List.cons_append, ← List.append_assoc] at heq
    refine absurd ?_ (h.not_encode encoder' arguments')
    rw [List.append_inj_left' heq rfl]
    exact List.mem_append_right _ List.mem_cons_self

/-- A run that does not get to the encoder. -/
theorem encodesLast_of_onlyExamines {f : Finished} (hexamines : OnlyExamines f.actions)
    (hsilent : ∀ path, r.task = .preview path → f.actions = []) (hcode : f.code = 0 ↔ r.Assembles machine)
    (htask : r.Assembles machine → ∀ job, r.task ≠ .make job false) : EncodesLast machine r f where
  last := by
    intro front encoder arguments back heq
    refine absurd ?_ (hexamines.not_encode encoder arguments)
    rw [heq]
    exact List.mem_append_right _ List.mem_cons_self
  exactly := by
    constructor
    · rintro ⟨encoder, arguments, hmem⟩
      exact absurd hmem (hexamines.not_encode encoder arguments)
    · rintro ⟨config, job, hconfig, hmake, hsucceeds⟩
      exact absurd hmake (htask (.make hconfig hmake hsucceeds) job)
  silent := hsilent
  code := by
    rw [hcode]
    exact ⟨fun h => ⟨h, fun encoder arguments hmem => absurd hmem (hexamines.not_encode encoder arguments)⟩,
      fun h => h.1⟩
  spoiled := fun _ _ _ _ _ _ => hexamines

/-- **A run that ends in one of these ways keeps the encoder for the end.** -/
theorem RunEnds.encodesLast {f : Finished} (h : RunEnds machine r f) : EncodesLast machine r f := by
  cases h with
  | unassembled hmissing hexamines hsilent =>
    refine encodesLast_of_onlyExamines hexamines hsilent ⟨fun h => ?_, fun h => absurd h hmissing⟩ fun h => ?_
    · cases h
    · exact absurd h hmissing
  | shown hassembled htask hexamines hsilent =>
    exact encodesLast_of_onlyExamines hexamines hsilent ⟨fun _ => hassembled, fun _ => rfl⟩ fun _ => htask
  | @encoded config job actions arguments code messages hconfig htask hsucceeds hexamines hended =>
    have hmem : Action.encode config.programs.encoder arguments
        ∈ actions ++ [.encode config.programs.encoder arguments] :=
      List.mem_append_right _ List.mem_cons_self
    refine ⟨?last, ?exactly, ?silent, ?code, ?spoiled⟩
    case last =>
      intro front encoder arguments' back heq
      obtain ⟨hback, hfront⟩ := hexamines.of_append_encode heq
      rw [hfront]
      exact ⟨hback, hexamines⟩
    case exactly => exact ⟨fun _ => ⟨config, job, hconfig, htask, hsucceeds⟩, fun _ => ⟨_, _, hmem⟩⟩
    case silent =>
      intro path h
      cases htask.symm.trans h
    case code =>
      show code = 0 ↔ _
      rw [hended]
      constructor
      · intro hencodes
        refine ⟨.make hconfig htask hsucceeds, fun encoder arguments' h => ?_⟩
        rcases List.mem_append.mp h with h | h
        · exact absurd h (hexamines.not_encode encoder arguments')
        · cases List.mem_singleton.mp h
          exact hencodes
      · intro h
        exact h.2 _ _ hmem
    case spoiled =>
      intro config' job' dryRun hconfig' htask' hspoiled
      cases htask.symm.trans htask'
      cases hconfig.unique hconfig'
      exact absurd hsucceeds hspoiled.not_succeeds

/-- **A command line that asks for a task keeps the encoder for the end**, whatever the files and the programs
of the machine: it is started at most once, behind every question about a file, and exactly if the task is an
export that is to be done and can be. The exit code tells whether all went well. -/
theorem run_encodesLast {machine : Machine} {arguments : List String} {r : Request}
    (h : Request.ofArguments arguments = .ok r) : EncodesLast machine r (run machine arguments) := by
  rw [run, h]
  exact (runEnds machine r).encodesLast

/-- What a prober prints about a video of the usual codec. -/
def copyableListing : String :=
  "\x7b\"streams\":[\x7b\"codec_type\":\"video\",\"codec_name\":\"h264\",\"duration\":\"5\"\x7d]\x7d"

/-- A machine with a prober that knows every file as such a video, and with an encoder. -/
def copyingMachine : Machine where
  programs := [("ffprobe", fun _ => { output := copyableListing.toUTF8 }), ("ffmpeg", fun _ => {})]

/-- A command line for a transport stream. -/
def remuxArguments : List String := ["transport-stream", "-i", "a.mp4", "-o", "a.ts"]

/-- What the command line asks for. -/
def remuxRequest : Request := { task := .make (.transportStream "a.mp4" "a.ts") false }

theorem ofArguments_remuxArguments : Request.ofArguments remuxArguments = .ok remuxRequest := by decide +kernel

/-- A machine whose programs stand outside of the directories of programs, with a file of settings that names them
by their paths. -/
def mountedMachine : Machine where
  files := { files := [(["tools.toml"],
    "[ffmpeg]\nbinary = '/opt/ffmpeg/bin/ffmpeg'\nprobe_binary = '/opt/ffmpeg/bin/ffprobe'\n".toUTF8)] }
  programs := [("/opt/ffmpeg/bin/ffprobe", fun _ => { output := copyableListing.toUTF8 }),
    ("/opt/ffmpeg/bin/ffmpeg", fun _ => {})]

/-- A command line for a transport stream, with these settings. -/
def mountedArguments : List String := "-c" :: "tools.toml" :: remuxArguments

/-- What the command line asks for. -/
def mountedRequest : Request := { remuxRequest with config := some "tools.toml" }

theorem ofArguments_mountedArguments : Request.ofArguments mountedArguments = .ok mountedRequest := by decide +kernel

/-- A file of the right codec gets to the encoder, wherever the programs are. -/
theorem run_encodesLast_remux :
    (EncodesLast copyingMachine remuxRequest (run copyingMachine remuxArguments)
      ∧ (run copyingMachine remuxArguments).actions = [.examine "ffprobe" "a.mp4", .encode "ffmpeg"
        ["-y", "-i", "a.mp4", "-c", "copy", "-bsf:v", "h264_mp4toannexb", "-f", "mpegts", "a.ts"]])
      ∧ EncodesLast mountedMachine mountedRequest (run mountedMachine mountedArguments)
      ∧ run mountedMachine mountedArguments
        = { actions := [.examine "/opt/ffmpeg/bin/ffprobe" "a.mp4", .encode "/opt/ffmpeg/bin/ffmpeg"
              ["-y", "-i", "a.mp4", "-c", "copy", "-bsf:v", "h264_mp4toannexb", "-f", "mpegts", "a.ts"]] } := by
  refine ⟨⟨run_encodesLast ofArguments_remuxArguments, ?_⟩, run_encodesLast ofArguments_mountedArguments, ?_⟩
  · decide +kernel
  · decide +kernel

end CommandLine
end VideoOverlay
