import VideoOverlay.Export.Job
import VideoOverlay.Proofs.Export.Merge
import VideoOverlay.Proofs.Export.Outcome

/-!
# `Proofs.Export.Job` — which jobs succeed

The arguments for a job are assembled in steps, each of which may fail: files are read and asked about, a scene
is registered and compiled, tokens are resolved. `Job.Succeeds` lists for each job what has to go well, and
there are arguments exactly if all of it does (`exists_arguments_iff`).

## Contents
- `Resolvable`, `renderCommand_exists_ok_iff`: drawing a session.
- `Job.copied`, `Job.Succeeds`, `Job.exists_arguments_iff`.
- `Job.Spoiled`: two ways for a job to fail, with `Job.Spoiled.not_succeeds`.
-/

namespace VideoOverlay

open Duration

/-! ## Single exports -/

/-- The tokens of a graph can be resolved: it has none, or the probe knows the main video and none is left. -/
def Resolvable (p : Probe) (primary graph : String) : Prop :=
  ¬HasToken graph ∨ ∃ report, p primary = .ok report ∧ ¬HasToken (resolve graph report.duration)

/-- There are arguments that draw a session exactly if it compiles and its tokens can be resolved. -/
theorem renderCommand_exists_ok_iff {p : Probe} {primary output : String} {s : Session} :
    (∃ args, (renderCommand (some p) primary s output).outcome = .ok args)
      ↔ ∃ g, s.compile = .ok g ∧ Resolvable p primary g.text := by
  obtain ⟨a, ha⟩ := exists_renderOutcome (some p) primary s output
  rw [ha.eq]
  cases ha with
  | refused hcompiled =>
    constructor
    · rintro ⟨_, h⟩
      cases h
    · rintro ⟨_, h, _⟩
      cases hcompiled.symm.trans h
  | settled hcompiled hcomplete => exact ⟨fun _ => ⟨_, hcompiled, .inl hcomplete⟩, fun _ => ⟨_, rfl⟩⟩
  | unprobed _ _ habsent => cases habsent
  | unanswered hcompiled hwaits hpresent hanswer =>
    cases hpresent
    constructor
    · rintro ⟨_, h⟩
      cases h
    · rintro ⟨_, h, hresolvable⟩
      cases hcompiled.symm.trans h
      rcases hresolvable with hcomplete | ⟨_, h, _⟩
      · exact absurd hwaits hcomplete
      · cases hanswer.symm.trans h
  | resolved hcompiled _ hpresent hanswer hcomplete =>
    cases hpresent
    exact ⟨fun _ => ⟨_, hcompiled, .inr ⟨_, hanswer, hcomplete⟩⟩, fun _ => ⟨_, rfl⟩⟩
  | remaining hcompiled hwaits hpresent hanswer hfirst =>
    cases hpresent
    constructor
    · rintro ⟨_, h⟩
      cases h
    · rintro ⟨_, h, hresolvable⟩
      cases hcompiled.symm.trans h
      rcases hresolvable with hcomplete | ⟨_, h, hcomplete⟩
      · exact absurd hwaits hcomplete
      · cases hanswer.symm.trans h
        exact absurd hfirst.hasToken hcomplete

/-- There are arguments that append files exactly if the streams of all of them can be copied. -/
theorem mergeCommand_exists_ok_iff {p : Probe} {required primary output : String} {appended : List String} :
    (∃ args, (mergeCommand (some p) required primary appended output).outcome = .ok args)
      ↔ ∀ file ∈ primary :: appended, Copyable p required file := by
  obtain ⟨a, ha⟩ := exists_mergeOutcome (some p) required primary appended output
  rw [ha.eq, ha.exists_ok_iff]
  constructor
  · rintro ⟨_, hp, hall⟩
    cases hp
    exact hall
  · exact fun hall => ⟨p, rfl, hall⟩

/-- There are arguments that remux a video exactly if its streams can be copied. -/
theorem transportStreamCommand_exists_ok_iff {p : Probe} {required primary output : String} :
    (∃ args, (transportStreamCommand (some p) required primary output).outcome = .ok args)
      ↔ Copyable p required primary := by
  rw [transportStreamCommand]
  rcases copyable_or_notCopyable p required "Transport stream export" primary with h | ⟨e, h⟩
  · rw [ensureCodec_of_copyable h]
    exact ⟨fun _ => h, fun _ => ⟨_, rfl⟩⟩
  · rw [ensureCodec_of_notCopyable h]
    constructor
    · rintro ⟨_, hok⟩
      cases hok
    · intro hcopyable
      exact absurd hcopyable h.not_copyable

namespace Job

variable {machine : Machine} {config : Config} {job : Job}

/-! ## Jobs -/

/-- The files whose streams a job copies. -/
def copied : Job → List String
  | .render .. => []
  | .merge input appended _ => input :: appended
  | .transportStream input _ => [input]

/-- Everything that a job needs goes well: the scene is read, registered and compiled, and its tokens can be
resolved; or the streams of each file can be copied. -/
inductive Succeeds (machine : Machine) (config : Config) : Job → Prop where
  | render {input path output : String} {scene : Scene} {s : Session} {g : Graph}
      (loaded : Scene.load machine.files path = .ok scene)
      (registered : (scene.session (some (machine.probe config.programs.prober))).outcome = .ok s)
      (compiled : s.compile = .ok g)
      (resolvable : Resolvable (machine.probe config.programs.prober) input g.text) :
    Succeeds machine config (.render input path output)
  | merge {input output : String} {appended : List String}
      (copyable : ∀ file ∈ input :: appended,
        Copyable (machine.probe config.programs.prober) config.policy.requiredCodec file) :
    Succeeds machine config (.merge input appended output)
  | transportStream {input output : String}
      (copyable : Copyable (machine.probe config.programs.prober) config.policy.requiredCodec input) :
    Succeeds machine config (.transportStream input output)

/-- The leave to replace an output takes nothing away. -/
theorem exists_arguments_iff_exists_command :
    (∃ args, (job.arguments machine config).outcome = .ok args)
      ↔ ∃ args, (job.command machine config).outcome = .ok args := by
  constructor
  · rintro ⟨args, h⟩
    obtain ⟨needed, hneeded, _⟩ := Assembly.outcome_bind_eq_ok_iff.mp h
    exact ⟨needed, hneeded⟩
  · rintro ⟨needed, h⟩
    exact ⟨_, Assembly.outcome_bind_eq_ok_iff.mpr ⟨needed, h, rfl⟩⟩

/-- **There are arguments for a job exactly if everything it needs goes well.** -/
theorem exists_arguments_iff :
    (∃ args, (job.arguments machine config).outcome = .ok args) ↔ job.Succeeds machine config := by
  rw [exists_arguments_iff_exists_command]
  cases job with
  | render input path output =>
    constructor
    · rintro ⟨args, h⟩
      obtain ⟨scene, hload, h⟩ := Assembly.outcome_bind_eq_ok_iff.mp h
      obtain ⟨s, hsession, h⟩ := Assembly.outcome_bind_eq_ok_iff.mp h
      obtain ⟨g, hcompile, hresolvable⟩ := renderCommand_exists_ok_iff.mp ⟨args, h⟩
      exact .render hload hsession hcompile hresolvable
    · intro h
      cases h with
      | render hload hsession hcompile hresolvable =>
        obtain ⟨args, h⟩ := renderCommand_exists_ok_iff.mpr ⟨_, hcompile, hresolvable⟩
        exact ⟨args, Assembly.outcome_bind_eq_ok_iff.mpr
          ⟨_, hload, Assembly.outcome_bind_eq_ok_iff.mpr ⟨_, hsession, h⟩⟩⟩
  | merge input appended output =>
    rw [command, mergeCommand_exists_ok_iff]
    constructor
    · exact fun h => .merge h
    · intro h
      cases h with
      | merge hall => exact hall
  | transportStream input output =>
    rw [command, transportStreamCommand_exists_ok_iff]
    constructor
    · exact fun h => .transportStream h
    · intro h
      cases h with
      | transportStream hcopyable => exact hcopyable

/-! ## Jobs that cannot succeed -/

/-- A job is spoiled if a file to be copied has another codec, or if its scene makes no graph. -/
inductive Spoiled (machine : Machine) (config : Config) : Job → Prop where
  | otherCodec {job : Job} {file : String} {found : Report} (copied : file ∈ job.copied)
      (answer : machine.probe config.programs.prober file = .ok found)
      (differs : found.codec ≠ config.policy.requiredCodec) :
    Spoiled machine config job
  | refused {input path output : String} {scene : Scene} {s : Session} {v : GraphError}
      (loaded : Scene.load machine.files path = .ok scene)
      (registered : (scene.session (some (machine.probe config.programs.prober))).outcome = .ok s)
      (compiled : s.compile = .error v) :
    Spoiled machine config (.render input path output)

/-- A job that is spoiled does not succeed. -/
theorem Spoiled.not_succeeds (h : job.Spoiled machine config) : ¬job.Succeeds machine config := by
  intro hs
  cases h with
  | otherCodec hcopied hanswer hdiffers =>
    cases hs with
    | render => cases hcopied
    | merge hall =>
      obtain ⟨found, hfound, hcodec⟩ := hall _ hcopied
      cases hanswer.symm.trans hfound
      exact hdiffers hcodec
    | transportStream hcopyable =>
      cases List.mem_singleton.mp hcopied
      obtain ⟨found, hfound, hcodec⟩ := hcopyable
      cases hanswer.symm.trans hfound
      exact hdiffers hcodec
  | refused hload hsession hcompiled =>
    cases hs with
    | render hload' hsession' hcompiled' =>
      cases hload.symm.trans hload'
      cases hsession.symm.trans hsession'
      cases hcompiled.symm.trans hcompiled'

end Job
end VideoOverlay
