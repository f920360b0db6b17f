import VideoOverlay.Proofs.CommandLine.Run
import VideoOverlay.Proofs.Export.Outcome
import VideoOverlay.Proofs.Scene.Still

/-!
# `Proofs.CommandLine.Preview` — a preview and the export it stands for

A preview makes the session of a scene without a probe, and an export makes it with one. As the two sessions
agree but for the flags of pictures that leave it open, a preview shows the graph that an export draws, up to
these flags and to the duration tokens, which a preview leaves as they are.

Both fail alike if the scene makes no session or the session no graph. Only an export has tokens to resolve,
so it may fail where the preview does not.

## Contents
- `DrawnText`, `Undrawn`: the text that is handed over for a graph, or why there is none.
- `PreviewAndExport`: the ends of a preview and of an export of the same scene.
- `preview_of_load`, `arguments_render`: both, once the scene is read.
- `scene_without_and_with_probe`, and a scene whose picture leaves it open.
-/

namespace VideoOverlay
namespace CommandLine

open Duration

/-! ## Two ends -/

/-- The text that is handed over for a graph: the one it has, or the one with its tokens resolved. -/
inductive DrawnText (p : Probe) (input graph : String) : String → Prop where
  | settled (complete : ¬HasToken graph) : DrawnText p input graph graph
  | resolved {found : Report} (waits : HasToken graph) (answer : p input = .ok found) :
    DrawnText p input graph (resolve graph found.duration)

/-- Why there is no text to hand over for a graph: it has tokens, and the probe does not know the main video, or
resolving leaves one. -/
inductive Undrawn (p : Probe) (input graph : String) : Error → Prop where
  | unanswered {e : ProbeError} (waits : HasToken graph) (answer : p input = .error e) :
    Undrawn p input graph (.probe e)
  | remaining {found : Report} {t : String} (waits : HasToken graph) (answer : p input = .ok found)
      (first : FirstToken (resolve graph found.duration) t) :
    Undrawn p input graph (.config (.unresolvedPlaceholder t))

/-- How a preview of a scene ends, and what the arguments of an export of it come to.

* `rejected`: the scene makes no session. Both say why.
* `refused`: the session makes no graph. Both say why.
* `unresolved`: the preview shows a graph with tokens; the export cannot resolve them.
* `drawn`: the preview shows a graph, and the export draws the same one with the reports of the probe as
  flags and without tokens. -/
inductive PreviewAndExport (scene : Scene) (p : Probe) (input output : String) (overwrite : Bool) :
    Finished → Except Error (List String) → Prop where
  | rejected {v : ValidationError} (session : scene.session none = ⟨[], .error (.validation v)⟩) :
    PreviewAndExport scene p input output overwrite (.failed [] (report (.validation v))) (.error (.validation v))
  | refused {s : Session} {v : GraphError} (session : scene.session none = ⟨[], .ok s⟩)
      (compiled : s.compile = .error v) :
    PreviewAndExport scene p input output overwrite (.failed [] v.message) (.error (.graph v))
  | unresolved {s : Session} {g g' : Graph} {e : Error} (session : scene.session none = ⟨[], .ok s⟩)
      (compiled : s.compile = .ok g) (marked : s.MarkedIn (scene.stillMarks p) g g')
      (failure : Undrawn p input g'.text e) :
    PreviewAndExport scene p input output overwrite { output := listing g } (.error e)
  | drawn {s : Session} {g g' : Graph} {text : String} (session : scene.session none = ⟨[], .ok s⟩)
      (compiled : s.compile = .ok g) (marked : s.MarkedIn (scene.stillMarks p) g g')
      (handed : DrawnText p input g'.text text) :
    PreviewAndExport scene p input output overwrite { output := listing g }
      (.ok (allowReplacing overwrite (drawArguments input g'.inputs text output)))

/-! ## Both ends of a scene that is read -/

variable {machine : Machine} {config : Config} {path : String} {scene : Scene}

/-- A preview of a scene that is read. -/
theorem preview_of_load (h : Scene.load machine.files path = .ok scene) :
    preview machine path = match (scene.session none).outcome with
      | .error e => .failed [] (report e)
      | .ok s =>
        match s.compile with
        | .error e => .failed [] e.message
        | .ok g => { output := listing g } := by
  rw [preview, h]
  rfl

/-- The arguments of an export of a scene that is read. -/
theorem arguments_render (h : Scene.load machine.files path = .ok scene) (input output : String) :
    (Job.render input path output).arguments machine config
      = ((scene.session (some (machine.probe config.programs.prober))).bind fun s =>
          renderCommand (some (machine.probe config.programs.prober)) input s output).bind fun arguments =>
            ⟨[], .ok (allowReplacing config.policy.overwrite arguments)⟩ := by
  rw [Job.arguments, Job.command, h]
  rfl

/-- A preview and an export of a scene that is read end as `PreviewAndExport` says. -/
theorem previewAndExport (h : Scene.load machine.files path = .ok scene) (config : Config) (input output : String) :
    PreviewAndExport scene (machine.probe config.programs.prober) input output config.policy.overwrite
      (preview machine path) ((Job.render input path output).arguments machine config).outcome := by
  rw [preview_of_load h, arguments_render h]
  have hagree := scene.sessionsAgree (machine.probe config.programs.prober)
  generalize hsession : scene.session none = left at hagree ⊢
  generalize scene.session (some (machine.probe config.programs.prober)) = right at hagree ⊢
  cases hagree with
  | rejected entries before rejection => exact .rejected hsession
  | @accepted s s' alike graphs =>
    simp only [Assembly.bind_ok]
    generalize hgraph : s.compile = shown at graphs ⊢
    generalize hgraph' : s'.compile = drawn at graphs
    cases graphs with
    | refused v =>
      rw [(RenderOutcome.refused hgraph').eq]
      exact .refused hsession hgraph
    | drawn marked =>
      obtain ⟨a, ha⟩ := exists_renderOutcome (some (machine.probe config.programs.prober)) input s' output
      rw [ha.eq]
      cases ha with
      | refused hcompiled => cases hgraph'.symm.trans hcompiled
      | settled hcompiled hcomplete =>
        cases hgraph'.symm.trans hcompiled
        exact .drawn hsession hgraph marked (.settled hcomplete)
      | unprobed _ _ habsent => cases habsent
      | unanswered hcompiled hwaits hpresent hanswer =>
        cases hgraph'.symm.trans hcompiled
        cases hpresent
        exact .unresolved hsession hgraph marked (.unanswered hwaits hanswer)
      | resolved hcompiled hwaits hpresent hanswer =>
        cases hgraph'.symm.trans hcompiled
        cases hpresent
        exact .drawn hsession hgraph marked (.resolved hwaits hanswer)
      | remaining hcompiled hwaits hpresent hanswer hfirst =>
        cases hgraph'.symm.trans hcompiled
        cases hpresent
        exact .unresolved hsession hgraph marked (.remaining hwaits hanswer hfirst)

/-- **A scene comes to the same without a probe and with any probe**, whatever it answers and wherever it
fails: it is rejected for the same entry and reason, or its sessions and graphs agree but for the flag of the
pictures that leave it open. So a preview of a scene shows the graph that an export of it draws, but for
these flags and the duration tokens. -/
theorem scene_without_and_with_probe (scene : Scene) (p : Probe) :
    scene.SessionsAgree p (scene.session none) (scene.session (some p))
      ∧ ∀ (machine : Machine) (config : Config) (path input output : String),
          Scene.load machine.files path = .ok scene →
            PreviewAndExport scene (machine.probe config.programs.prober) input output config.policy.overwrite
              (preview machine path) ((Job.render input path output).arguments machine config).outcome := by
  refine ⟨scene.sessionsAgree p, fun machine config path input output h => ?_⟩
  exact previewAndExport h config input output

/-- A machine with a picture, and with a scene that shows it until the main video ends. -/
def pictureMachine : Machine :=
  { copyingMachine with
    files := { files := [
      (["scene.toml"], "[[overlay]]\nkind = 'image'\nfile = 'logo.png'\nwidth = 160\nfade_out = 2.0\n".toUTF8),
      (["logo.png"], ⟨⟨0x89 :: bytesOfText "PNG\r\n\x1a\n"⟩⟩)] } }

/-- That scene. It does not say whether the picture is a still one. -/
def fadingScene : Scene :=
  ⟨[{ kind := "image", file := some "logo.png", width := some 160, fadeOut := some (.ofRatio false 2 1) }]⟩

/-- The preview shows a clip whose fade waits for the length of the main video, and an export draws a still picture,
with a fade that begins two seconds before the end. -/
theorem scene_without_and_with_probe_fadingScene :
    let p := pictureMachine.probe "ffprobe"
    let shown := preview pictureMachine "scene.toml"
    let drawn := (Job.render "a.mp4" "scene.toml" "b.mp4").arguments pictureMachine {}
    fadingScene.SessionsAgree p (fadingScene.session none) (fadingScene.session (some p))
      ∧ PreviewAndExport fadingScene p "a.mp4" "b.mp4" true shown drawn.outcome
      ∧ shown.output = "[1:v] logo.png\n"
        ++ "[1:v]format=yuva420p,scale=160:-1,fade=t=out:st=\x7bVIDEO_LENGTH-2\x7d:d=2:alpha='1'[s1]\n"
        ++ "[0:v][s1]overlay=0:0\n"
      ∧ drawn.probed = ["logo.png", "a.mp4"]
      ∧ drawn.outcome = .ok ["-y", "-i", "a.mp4", "-i", "logo.png", "-filter_complex",
        "[1:v]format=yuva420p,scale=160:-1,fade=t=out:st=3:d=2:alpha='1'[s1],"
          ++ "[0:v][s1]overlay=0:0:shortest='1'", "b.mp4"] := by
  have hload : Scene.load pictureMachine.files "scene.toml" = .ok fadingScene := by decide +kernel
  refine ⟨(scene_without_and_with_probe fadingScene _).1, ?_, ?_, ?_⟩
  · exact (scene_without_and_with_probe fadingScene (pictureMachine.probe "ffprobe")).2 _ {} _ _ _ hload
  · decide +kernel
  · decide +kernel

end CommandLine
end VideoOverlay
