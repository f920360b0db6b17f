import VideoOverlay.Export.Command
import VideoOverlay.Proofs.Duration.Scan
import VideoOverlay.Proofs.Graph.WellLinked

/-!
# `Proofs.Export.Render` — the arguments that draw a session

A graph refers to input files by number, and the numbers are nowhere stored: they follow from the order in
which the arguments name the files. Three places have to agree: the session, which keeps its files in order
as overlays come in; the graph, which counts up from the files of the color key; and the arguments.

## Contents
- `resolveGraph_eq_ok`, `Session.filterArguments_eq`: what becomes of the text of a graph.
- `operandsOf`, `operandsOf_filterArguments`: the files that the arguments name.
- `Session.NamesFiles`, `Session.renderCommand_namesFiles`.
-/

namespace VideoOverlay

/-! ## The text of the graph -/

variable {probe : Option Probe} {primary graph text : String}

/-- The text that is used is that of the graph, or that with its tokens resolved by the length of the main
video. -/
theorem resolveGraph_eq_ok (h : (resolveGraph probe primary graph).outcome = .ok text) :
    text = graph ∨ ∃ p report, probe = some p ∧ p primary = .ok report
      ∧ text = Duration.resolve graph report.duration := by
  rw [resolveGraph] at h
  split at h
  · exact .inl (Except.ok.inj h).symm
  · split at h
    · cases h
    · next p =>
      obtain ⟨report, hreport, h⟩ := Assembly.outcome_bind_eq_ok_iff.mp h
      have hprobe : p primary = .ok report := by
        rw [Assembly.require] at hreport
        cases hp : p primary with
        | ok found =>
          rw [hp] at hreport
          cases hreport
          rfl
        | error e =>
          rw [hp] at hreport
          cases hreport
      dsimp only at h
      split at h
      · exact .inr ⟨p, report, rfl, hprobe, (Except.ok.inj h).symm⟩
      · cases h

/-- A text that begins with a bracket is not used up by resolving its tokens. -/
theorem resolve_ne_empty (length : Binary64) {rest : List Char} (h : graph.toList = '[' :: rest) :
    Duration.resolve graph length ≠ "" := by
  -- No token begins with a bracket, so the first character stays.
  have hnone : Duration.tokenAt? ('[' :: rest) = none := rfl
  intro hempty
  have hlist := congrArg String.toList hempty
  rw [Duration.resolve, String.toList_ofList, h, Duration.resolveChars_cons, hnone] at hlist
  cases hlist

/-- The text of a graph that draws something begins with a bracket. -/
theorem exists_toList_graphText {g : Graph} {seg : Segment} {rest : List Segment} {st : Stream}
    {sts : List Stream} (hg : g.segments = seg :: rest) (hseg : seg.sources = st :: sts) :
    ∃ cs, g.text.toList = '[' :: cs := by
  have hsegment : ∃ cs, seg.text.toList = '[' :: cs := by
    rw [Segment.text, hseg, List.map_cons, String.join_cons, Stream.text_eq]
    simp only [String.toList_append]
    exact ⟨_, rfl⟩
  obtain ⟨cs, hcs⟩ := hsegment
  rw [Graph.text, hg, List.map_cons]
  cases rest with
  | nil =>
    rw [List.map_nil, String.intercalate_singleton]
    exact ⟨cs, hcs⟩
  | cons next rest =>
    rw [List.map_cons, String.intercalate_cons_cons, String.toList_append, String.toList_append, hcs]
    exact ⟨_, rfl⟩

namespace Session

variable {s : Session}

/-- The first segment of a session that is not empty reads something. -/
theorem exists_first_segment (h : s.Layered) (hne : s.isEmpty = false) :
    ∃ seg rest st sts, s.segments = seg :: rest ∧ seg.sources = st :: sts := by
  rw [segments_eq_layers h]
  by_cases hls : s.layers = []
  · obtain ⟨key, hk⟩ := exists_colorKey_of_layers_eq_nil hne hls
    rw [keySegments, hk]
    exact ⟨_, _, _, _, rfl, rfl⟩
  · obtain ⟨l, ls, hcons⟩ := List.exists_cons_of_ne_nil hls
    rw [hcons, keySegments]
    cases s.colorKey with
    | some key => exact ⟨_, _, _, _, rfl, rfl⟩
    | none =>
      cases l with
      | picture p => exact ⟨_, _, _, _, rfl, rfl⟩
      | filters text => exact ⟨_, _, _, _, rfl, rfl⟩

/-- The text that is used is empty exactly if the session is. -/
theorem resolvedText_eq_empty_iff (h : s.Layered)
    (ht : (resolveGraph probe primary (Graph.text ⟨s.segments, s.inputs⟩)).outcome = .ok text) :
    text = "" ↔ s.isEmpty = true := by
  constructor
  · intro hempty
    by_contra hne
    obtain ⟨seg, rest, st, sts, hsegments, hsources⟩ := exists_first_segment h (Bool.eq_false_iff.mpr hne)
    obtain ⟨cs, hcs⟩ := exists_toList_graphText (g := ⟨s.segments, s.inputs⟩) hsegments hsources
    rcases resolveGraph_eq_ok ht with heq | ⟨_, report, _, _, heq⟩
    · rw [← heq, hempty] at hcs
      cases hcs
    · exact resolve_ne_empty report.duration hcs (heq ▸ hempty)
  · intro hempty
    have hgraph : Graph.text ⟨s.segments, s.inputs⟩ = "" := by
      rw [Graph.text, segments_eq_nil_of_isEmpty hempty]
      rfl
    rw [hgraph] at ht
    have hnone : Duration.findTokenText? "" = none := Option.map_eq_none_iff.mpr Duration.findToken?_nil
    rw [resolveGraph, hnone] at ht
    exact (Except.ok.inj ht).symm

/-- The text decides whether there is a graph argument, and it is empty with the session only. -/
theorem filterArguments_eq (h : s.Layered)
    (ht : (resolveGraph probe primary (Graph.text ⟨s.segments, s.inputs⟩)).outcome = .ok text) :
    filterArguments text = if s.isEmpty then [] else ["-filter_complex", text] := by
  rw [filterArguments]
  simp only [resolvedText_eq_empty_iff h ht]

end Session

/-! ## The files that arguments name -/

/-- The operands of a flag, where arguments are flags with an operand each. -/
def operandsOf (flag : String) : List String → List String
  | f :: operand :: rest => if f = flag then operand :: operandsOf flag rest else operandsOf flag rest
  | _ => []

theorem operandsOf_inputArguments (files rest : List String) :
    operandsOf "-i" (inputArguments files ++ rest) = files ++ operandsOf "-i" rest := by
  induction files with
  | nil => rfl
  | cons file files ih =>
    show operandsOf "-i" ("-i" :: file :: (inputArguments files ++ rest)) = _
    rw [operandsOf, if_pos rfl, ih, List.cons_append]

/-- Neither the graph nor the output is an input. -/
theorem operandsOf_filterArguments (graph output : String) :
    operandsOf "-i" (filterArguments graph ++ [output]) = [] := by
  rw [filterArguments]
  split
  · rfl
  · show operandsOf "-i" ["-filter_complex", graph, output] = []
    rw [operandsOf, if_neg (by decide)]
    rfl

namespace Session

variable {s : Session}

/-! ## Numbers and files -/

/-- An input that is read once is read by one segment only. -/
theorem not_mem_inputReads_of_count {front back : List Segment} {seg : Segment} {k : Nat}
    (hseg : seg.inputReads = [k]) (hone : (inputReads (front ++ seg :: back)).count k = 1) :
    k ∉ inputReads (front ++ back) := by
  rw [inputReads_append, inputReads_cons, hseg, List.count_append, List.count_append, List.count_cons_self,
    List.count_nil] at hone
  rw [← List.count_eq_zero, inputReads_append, List.count_append]
  omega

/-- The files that arguments name are the right ones for the segments of a graph. What is read is the main
video once, if anything is drawn, the first input once by the color key, and one input by each picture; of
each the segment and its text are given, and no other segment reads it. -/
structure NamesFiles (s : Session) (g : Graph) (primary : String) (files : List String) : Prop where
  reads_perm : (inputReads g.segments).Perm
    ((if s.isEmpty then [] else [0]) ++ (if s.colorKey.isSome then [1] else [])
      ++ List.range' s.firstInput s.pictures.length)
  main : files[0]? = some primary
  main_once : s.isEmpty = false → (inputReads g.segments).count 0 = 1
  picture : ∀ j p, s.pictures[j]? = some p → ∃ file front seg back,
    p.content.file = some file ∧ files[s.firstInput + j]? = some file
      ∧ g.segments = front ++ seg :: back
      ∧ seg.text = "[" ++ toString (s.firstInput + j) ++ ":v]" ++ p.placement.sourceFilters
          ++ (Stream.labelled (.scaled (s.pictureStage + j))).text
      ∧ s.firstInput + j ∉ inputReads (front ++ back)
  colorKey : ∀ k, s.colorKey = some k → ∃ file first seg rest,
    k.content.imageFile.or k.content.videoFile = some file ∧ files[1]? = some file
      ∧ g.segments = first :: seg :: rest
      ∧ seg.text = "[1:v]" ++ scaleFilter k.placement.dimension ++ "[out1]"
      ∧ 1 ∉ inputReads (first :: rest)

/-- The color key reads the first input, and it alone. -/
theorem Reachable.count_inputReads_colorKey (hs : s.Reachable) (h : s.Layered) (hkey : s.colorKey.isSome) :
    (inputReads s.segments).count 1 = 1 := by
  refine hs.count_inputReads_file h (Nat.le_refl 1) ?_ fun htwo => absurd htwo.1 (by decide)
  rw [hs.length_inputs]
  rcases hs.colorKeyInputCount_cases with ⟨hnone, _⟩ | ⟨_, hcount, _⟩ | ⟨_, hcount, _⟩
  · rw [hnone] at hkey
    cases hkey
  · omega
  · omega

/-- Each picture reads an input alone. -/
theorem Reachable.count_inputReads_picture (hs : s.Reachable) (h : s.Layered) {j : Nat}
    (hj : j < s.pictures.length) : (inputReads s.segments).count (s.firstInput + j) = 1 := by
  refine hs.count_inputReads_file h ?_ ?_ fun htwo => ?_
  · rw [firstInput]
    omega
  · rw [hs.length_inputs, firstInput]
    omega
  · -- The second input is not the one of a picture if the color key has it.
    obtain ⟨heq, htwo⟩ := htwo
    rw [firstInput] at heq
    rcases hs.colorKeyInputCount_cases with ⟨hnone, _⟩ | ⟨_, _, hnot⟩ | ⟨_, hcount, _⟩
    · obtain ⟨key, hk, _⟩ := htwo
      rw [hnone] at hk
      cases hk
    · exact hnot htwo
    · omega

/-- The segment that scales the `j`-th picture. -/
theorem exists_pictureSegment (h : s.Layered) {j : Nat} {p : Placed Picture} (hp : s.pictures[j]? = some p) :
    ∃ front back, s.segments = front ++ ⟨[.input (s.firstInput + j)], p.placement.sourceFilters,
      some (.scaled (s.pictureStage + j))⟩ :: back := by
  have hlayer := getElem?_layerSegments_picture hp s.firstInput s.pictureStage
    (textLayers s.texts ++ boxLayers s.boxes)
  rw [← layers] at hlayer
  obtain ⟨front, back, hsplit⟩ := List.append_of_mem (List.mem_of_getElem? hlayer)
  exact ⟨s.keySegments (!s.layers.isEmpty) ++ front, back, by
    rw [segments_eq_layers h, hsplit, List.append_assoc]⟩

theorem Reachable.namesFiles (hs : s.Reachable) (h : s.Layered) (primary : String) :
    s.NamesFiles ⟨s.segments, s.inputs⟩ primary (primary :: s.inputs) := by
  constructor
  case reads_perm => exact inputReads_perm h
  case main => rfl
  case main_once => exact count_inputReads_zero h
  case picture =>
    intro j p hp
    obtain ⟨file, hfile, hinput⟩ := hs.getElem?_inputs_of_picture hp
    obtain ⟨front, back, hsplit⟩ := exists_pictureSegment h hp
    refine ⟨file, front, _, back, hfile, ?_, hsplit, ?_, ?_⟩
    · rw [firstInput, Nat.add_assoc, Nat.add_comm 1, List.getElem?_cons_succ, hinput]
    · rw [Segment.text, List.map_singleton, String.join_cons, String.join_nil, String.append_empty]
      rfl
    · have hone := hs.count_inputReads_picture h (List.getElem?_eq_some_iff.mp hp).1
      rw [hsplit] at hone
      exact not_mem_inputReads_of_count rfl hone
  case colorKey =>
    intro k hk
    obtain ⟨file, hfile, hinput⟩ := hs.getElem?_inputs_of_colorKey hk
    have hone := hs.count_inputReads_colorKey h (by rw [hk]; rfl)
    have hsplit : s.segments = [⟨[.input 0], k.content.filter, some .keyed⟩]
        ++ ⟨[.input 1], scaleFilter k.placement.dimension, some (.stage 1)⟩
        :: (⟨[.labelled (.stage 1), .labelled .keyed], "overlay", labelIf (!s.layers.isEmpty) (.stage 2)⟩
          :: layerSegments s.firstInput s.pictureStage s.layers) := by
      rw [segments_eq_layers h, keySegments, hk]
      rfl
    rw [hsplit] at hone
    refine ⟨file, _, _, _, hfile, ?_, hsplit, ?_, not_mem_inputReads_of_count rfl hone⟩
    · rw [List.getElem?_cons_succ, hinput]
    · rw [Segment.text, List.map_singleton, String.join_cons, String.join_nil, String.append_empty]
      rfl

/-- **The arguments that draw a session name the right files.** They are the main video, the files of the
session, the graph unless the session is empty, and the output; and wherever the graph refers to a file by
number, the file of that number is the one that is meant. -/
theorem renderCommand_namesFiles (hs : s.Reachable) {output : String} {args : List String}
    (h : (renderCommand probe primary s output).outcome = .ok args) :
    ∃ g text, s.compile = .ok g
      ∧ (resolveGraph probe primary g.text).outcome = .ok text
      ∧ args = ["-i", primary] ++ s.inputs.flatMap (fun file => ["-i", file])
          ++ (if s.isEmpty then [] else ["-filter_complex", text]) ++ [output]
      ∧ operandsOf "-i" args = primary :: s.inputs
      ∧ s.NamesFiles g primary (operandsOf "-i" args) := by
  -- The arguments are there only if the session compiles and its text resolves.
  rw [renderCommand] at h
  obtain ⟨g, hg, h⟩ := Assembly.outcome_bind_eq_ok_iff.mp h
  obtain ⟨text, htext, h⟩ := Assembly.outcome_bind_eq_ok_iff.mp h
  have hcompile : s.compile = .ok g := by
    cases hc : s.compile with
    | ok found =>
      rw [hc] at hg
      cases hg
      rfl
    | error e =>
      rw [hc] at hg
      cases hg
  obtain ⟨hlayered, rfl⟩ := compile_eq_ok_iff.mp hcompile
  have hargs : args = inputArguments (primary :: s.inputs) ++ (filterArguments text ++ [output]) := by
    rw [← List.append_assoc]
    exact (Except.ok.inj h).symm
  have hoperands : operandsOf "-i" args = primary :: s.inputs := by
    rw [hargs, operandsOf_inputArguments, operandsOf_filterArguments, List.append_nil]
  refine ⟨_, text, hcompile, htext, ?_, hoperands, ?_⟩
  · rw [hargs, filterArguments_eq hlayered htext, ← List.append_assoc]
    rfl
  · rw [hoperands]
    exact hs.namesFiles hlayered primary

/-- The arguments for a picture, then a color key with two files, then the picture again. -/
def sampleArguments : List String :=
  ["-i", "main.mp4", "-i", "sky.png", "-i", "sky.mp4", "-i", "logo.png", "-i", "logo.png", "-filter_complex",
    "[0:v]colorkey=green@1:0.01:0[sck],[1:v]scale=64:48[out1],[out1][sck]overlay[out2],"
      ++ "[3:v]scale=64:48[s2],[out2][s2]overlay=0:0[out3],[4:v]scale=64:48[s3],[out3][s3]overlay=0:0",
    "out.mp4"]

/-- The pictures read the inputs after the two files of the color key, though one of them came first. -/
theorem renderCommand_namesFiles_sample : ∃ g,
    (renderCommand none "main.mp4" (empty.run (sampleOffers.take 2)) "out.mp4").outcome = .ok sampleArguments
      ∧ (empty.run (sampleOffers.take 2)).NamesFiles g "main.mp4"
          ["main.mp4", "sky.png", "sky.mp4", "logo.png", "logo.png"] := by
  have hargs : (renderCommand none "main.mp4" (empty.run (sampleOffers.take 2)) "out.mp4").outcome
      = .ok sampleArguments := by
    decide +kernel
  obtain ⟨g, _, _, _, _, _, hfiles⟩ := renderCommand_namesFiles ⟨sampleOffers.take 2, rfl⟩ hargs
  exact ⟨g, hargs, hfiles⟩

end Session
end VideoOverlay
