import VideoOverlay.Proofs.Duration.Occurrence
import VideoOverlay.Proofs.Export.Render

/-!
# `Proofs.Export.Outcome` — what drawing a session can come to

Arguments that draw a session are assembled in steps, and each of them may end the work: the session may be
refused, a token may have no probe to ask, the probe may fail, and a token may be left after all. The cases
of `RenderOutcome` list these ends in the order of the steps, with the files a probe was asked about on the
way. They are told in terms of the tokens that a text has, not of the scanners.

## Contents
- `drawArguments`: the arguments for a text.
- `RenderOutcome`: the ends, with `RenderOutcome.eq` and `exists_renderOutcome`: there is always one.
- `operandsOf_drawArguments`: the text that is handed over.
- `renderCommand_outcome`.
-/

namespace VideoOverlay

open Duration

/-- The arguments for the main video, the files of a graph, its text unless this is empty, and the output. -/
def drawArguments (primary : String) (inputs : List String) (text output : String) : List String :=
  ["-i", primary] ++ inputs.flatMap (fun file => ["-i", file])
    ++ (if text = "" then [] else ["-filter_complex", text]) ++ [output]

/-! ## The cases -/

/-- What drawing a session comes to, and the files that a probe was asked about.

* `refused`: the session does not compile.
* `settled`: the graph has no token, so no probe is needed.
* `unprobed`: it has one, and there is no probe.
* `unanswered`: the probe fails on the main video.
* `resolved`: it knows the main video, and resolving leaves no token.
* `remaining`: resolving leaves one. -/
inductive RenderOutcome (probe : Option Probe) (primary : String) (s : Session) (output : String) :
    Assembly (List String) → Prop where
  | refused {e : GraphError} (compiled : s.compile = .error e) :
    RenderOutcome probe primary s output ⟨[], .error (.graph e)⟩
  | settled {g : Graph} (compiled : s.compile = .ok g) (complete : ¬HasToken g.text) :
    RenderOutcome probe primary s output ⟨[], .ok (drawArguments primary g.inputs g.text output)⟩
  | unprobed {g : Graph} {t : String} (compiled : s.compile = .ok g) (first : FirstToken g.text t)
      (absent : probe = none) :
    RenderOutcome probe primary s output ⟨[], .error (.config (.unresolvedPlaceholder t))⟩
  | unanswered {g : Graph} {p : Probe} {e : ProbeError} (compiled : s.compile = .ok g)
      (waits : HasToken g.text) (present : probe = some p) (answer : p primary = .error e) :
    RenderOutcome probe primary s output ⟨[primary], .error (.probe e)⟩
  | resolved {g : Graph} {p : Probe} {report : Report} (compiled : s.compile = .ok g)
      (waits : HasToken g.text) (present : probe = some p) (answer : p primary = .ok report)
      (complete : ¬HasToken (resolve g.text report.duration)) :
    RenderOutcome probe primary s output
      ⟨[primary], .ok (drawArguments primary g.inputs (resolve g.text report.duration) output)⟩
  | remaining {g : Graph} {p : Probe} {report : Report} {t : String} (compiled : s.compile = .ok g)
      (waits : HasToken g.text) (present : probe = some p) (answer : p primary = .ok report)
      (first : FirstToken (resolve g.text report.duration) t) :
    RenderOutcome probe primary s output ⟨[primary], .error (.config (.unresolvedPlaceholder t))⟩

variable {probe : Option Probe} {p : Probe} {primary graph output : String} {s : Session}

/-- What is left of the work once the session has compiled. -/
theorem renderCommand_of_compile {g : Graph} (h : s.compile = .ok g) :
    renderCommand probe primary s output
      = (resolveGraph probe primary g.text).bind fun text =>
          ⟨[], .ok (drawArguments primary g.inputs text output)⟩ := by
  rw [renderCommand, h]
  rfl

/-- What is left of the work once a token is found and there is a probe to ask. -/
theorem resolveGraph_of_hasToken (h : HasToken graph) :
    resolveGraph (some p) primary graph
      = (Assembly.require p primary).bind fun report =>
          match findTokenText? (resolve graph report.duration) with
          | none => ⟨[], .ok (resolve graph report.duration)⟩
          | some t => .fail (.config (.unresolvedPlaceholder t)) := by
  rw [resolveGraph]
  cases hfound : findTokenText? graph with
  | none => exact absurd h (findTokenText?_eq_none_iff.mp hfound)
  | some t => rfl

/-- Each case tells what the work comes to. -/
theorem RenderOutcome.eq {a : Assembly (List String)} (h : RenderOutcome probe primary s output a) :
    renderCommand probe primary s output = a := by
  cases h with
  | refused hcompile =>
    rw [renderCommand, hcompile]
    rfl
  | settled hcompile hcomplete =>
    rw [renderCommand_of_compile hcompile, resolveGraph, findTokenText?_eq_none_iff.mpr hcomplete]
    rfl
  | unprobed hcompile hfirst habsent =>
    rw [renderCommand_of_compile hcompile, resolveGraph, findTokenText?_eq_some_iff.mpr hfirst, habsent]
    rfl
  | unanswered hcompile hwaits hpresent hanswer =>
    rw [renderCommand_of_compile hcompile, hpresent, resolveGraph_of_hasToken hwaits,
      Assembly.require_of_error hanswer]
    rfl
  | resolved hcompile hwaits hpresent hanswer hcomplete =>
    rw [renderCommand_of_compile hcompile, hpresent, resolveGraph_of_hasToken hwaits,
      Assembly.require_of_ok hanswer, Assembly.bind_ok, findTokenText?_eq_none_iff.mpr hcomplete]
    rfl
  | remaining hcompile hwaits hpresent hanswer hfirst =>
    rw [renderCommand_of_compile hcompile, hpresent, resolveGraph_of_hasToken hwaits,
      Assembly.require_of_ok hanswer, Assembly.bind_ok, findTokenText?_eq_some_iff.mpr hfirst]
    rfl

/-- One of the cases applies. -/
theorem exists_renderOutcome (probe : Option Probe) (primary : String) (s : Session) (output : String) :
    ∃ a, RenderOutcome probe primary s output a := by
  cases hcompile : s.compile with
  | error e => exact ⟨_, .refused hcompile⟩
  | ok g =>
    cases hfound : findTokenText? g.text with
    | none => exact ⟨_, .settled hcompile (findTokenText?_eq_none_iff.mp hfound)⟩
    | some t =>
      have hfirst : FirstToken g.text t := findTokenText?_eq_some_iff.mp hfound
      cases probe with
      | none => exact ⟨_, .unprobed hcompile hfirst rfl⟩
      | some p =>
        cases hanswer : p primary with
        | error e => exact ⟨_, .unanswered hcompile hfirst.hasToken rfl hanswer⟩
        | ok report =>
          cases hleft : findTokenText? (resolve g.text report.duration) with
          | none =>
            exact ⟨_, .resolved hcompile hfirst.hasToken rfl hanswer (findTokenText?_eq_none_iff.mp hleft)⟩
          | some t' =>
            exact ⟨_, .remaining hcompile hfirst.hasToken rfl hanswer (findTokenText?_eq_some_iff.mp hleft)⟩

/-! ## The text that is handed over -/

/-- A text is handed over if it is not empty, whatever the files are called. -/
theorem operandsOf_drawArguments (primary : String) (inputs : List String) (text output : String) :
    operandsOf "-filter_complex" (drawArguments primary inputs text output) = if text = "" then [] else [text] := by
  have hinputs (files rest : List String) :
      operandsOf "-filter_complex" (inputArguments files ++ rest) = operandsOf "-filter_complex" rest := by
    induction files with
    | nil => rfl
    | cons file files ih =>
      show operandsOf "-filter_complex" ("-i" :: file :: (inputArguments files ++ rest)) = _
      rw [operandsOf, if_neg (by decide), ih]
  have hshape : drawArguments primary inputs text output
      = inputArguments (primary :: inputs)
        ++ ((if text = "" then [] else ["-filter_complex", text]) ++ [output]) := List.append_assoc _ _ _
  rw [hshape, hinputs]
  split
  · rfl
  · rfl

/-- What is handed over is a text without a token. -/
theorem RenderOutcome.exists_text {a : Assembly (List String)} (h : RenderOutcome probe primary s output a)
    {args : List String} (hok : a.outcome = .ok args) :
    ∃ inputs text, args = drawArguments primary inputs text output ∧ ¬HasToken text := by
  cases h with
  | settled _ hcomplete => exact ⟨_, _, (Except.ok.inj hok).symm, hcomplete⟩
  | resolved _ _ _ _ hcomplete => exact ⟨_, _, (Except.ok.inj hok).symm, hcomplete⟩
  | refused => cases hok
  | unprobed => cases hok
  | unanswered => cases hok
  | remaining => cases hok

/-- **Drawing a session comes to exactly what `RenderOutcome` says**, for every session, probe and output. So
wherever there are arguments, a text that is handed over in them has no token and is not empty. -/
theorem renderCommand_outcome (probe : Option Probe) (primary : String) (s : Session) (output : String) :
    (∀ a, renderCommand probe primary s output = a ↔ RenderOutcome probe primary s output a)
      ∧ ∀ args, (renderCommand probe primary s output).outcome = .ok args →
          ∀ text ∈ operandsOf "-filter_complex" args, ¬HasToken text ∧ text ≠ "" := by
  obtain ⟨found, hfound⟩ := exists_renderOutcome probe primary s output
  rw [hfound.eq]
  refine ⟨fun a => ⟨?_, fun h => ?_⟩, fun args hok text htext => ?_⟩
  · rintro rfl
    exact hfound
  · rw [← hfound.eq, h.eq]
  · obtain ⟨inputs, used, rfl, hcomplete⟩ := hfound.exists_text hok
    rw [operandsOf_drawArguments] at htext
    split at htext
    · cases htext
    · next hne =>
      rw [List.mem_singleton.mp htext]
      exact ⟨hcomplete, hne⟩

/-- A token may be left because resolving has made it: here the inner one is an offset of the outer. -/
example :
    let text : Placed String := ⟨{}, "drawtext=text=\x7bVIDEO_LENGTH-\x7bVIDEO_LENGTH\x7d\x7d"⟩
    (renderCommand (some fun _ => .ok ⟨"h264", .ofRatio false 5 1, false⟩) "main.mp4" { texts := [text] }
        "out.mp4").outcome
      = .error (.config (.unresolvedPlaceholder "\x7bVIDEO_LENGTH-5\x7d")) := by
  decide +kernel

end VideoOverlay
