import VideoOverlay.Proofs.Duration.HeadFree
import VideoOverlay.Proofs.Export.Render

/-!
# `Proofs.Export.Fade` — fades that end with the main video

A picture without a time range fades out at the end of the main video, so its fade waits in a token; with a
range it is timed at once. Both ways give the same: once the length of the main video is known, the graph is
the one in which every such picture had a range that ends with the main video. A time goes a long way from one
to the other, as a numeral in a token, in the middle of a text that is scanned and read again.

The graph is resolved segment by segment. Of a segment only the filters of a picture can have a token, as long
as no head comes from outside, in a text or in the name of a color.

## Contents
- `Placement.within`: a placement with a time range; `Placement.exists_deferred`, `settles_sourceFilters`.
- `Session.scaledPicture`, `Session.timed`: a segment whose picture has a time range.
- `settles_segment`: what becomes of a segment.
- `Session.TimesFades`, `Session.renderCommand_timesFades`.
-/

namespace VideoOverlay

open Text Duration

/-! ## Pictures -/

section

variable {p : Placement} {r : TimeRange} {seconds : Binary64}

/-- A placement with a time range: its own, or else the given one. -/
def Placement.within (r : TimeRange) (p : Placement) : Placement :=
  { p with timeRange := some (p.timeRange.getD r) }

/-- **A fade that waits for the end of the main video is timed like one in a range that ends there.** -/
theorem Placement.exists_deferred (hout : p.fadeOutLength = some seconds) (hrange : p.timeRange = none)
    (r : TimeRange) :
    ∃ before after, FilterText before ∧ FilterText after
      ∧ p.sourceFilters = before ++ "fade=t=out:st=" ++ tokenText seconds ++ ":d=" ++ after
      ∧ (p.within r).sourceFilters
          = before ++ "fade=t=out:st=" ++ secondsText ((r.finish.sub seconds).max .zero) ++ ":d=" ++ after := by
  obtain ⟨before, after, hbefore, hafter, heq⟩ := exists_sourceFilters_eq hout
  refine ⟨before, after, hbefore, hafter, ?_, ?_⟩
  · have hown : { p with timeRange := none } = p := by rw [← hrange]
    have hnone := heq none
    rwa [hown] at hnone
  · have hsome := heq (some (p.timeRange.getD r))
    rw [hrange, Option.getD_none] at hsome
    rw [Placement.within, hrange, Option.getD_none, hsome]
    rfl

/-- A picture that does not fade out, or has a range of its own, has the same filters in any other range. -/
theorem Placement.sourceFilters_within (h : p.fadeOutLength = none ∨ p.timeRange ≠ none) (r : TimeRange) :
    (p.within r).sourceFilters = p.sourceFilters := by
  rcases h with hout | hrange
  · exact sourceFilters_of_no_fadeOut hout _
  · obtain ⟨own, hown⟩ := Option.ne_none_iff_exists'.mp hrange
    rw [Placement.within, hown, Option.getD_some, ← hown]

theorem fadeOutLength_eq_some_iff :
    p.fadeOutLength = some seconds ↔ p.fadeOut = some seconds ∧ Binary64.lt .zero seconds = true :=
  Option.filter_eq_some_iff

/-- A fade that waits is timed, and nothing around it changes. -/
theorem settles_fadeOut {before after : String} (hbefore : FilterText before) (hafter : FilterText after)
    (hfinite : seconds.isFinite = true) (hpos : Binary64.lt .zero seconds = true) (length : Binary64) :
    Settles length (before ++ "fade=t=out:st=" ++ tokenText seconds ++ ":d=" ++ after)
      (before ++ "fade=t=out:st=" ++ secondsBefore length seconds ++ ":d=" ++ after) := by
  have hoption : FilterText "fade=t=out:st=" := by decide
  have hlength : FilterText ":d=" := by decide
  have hrest : Settles length (":d=" ++ after) (":d=" ++ after) :=
    settles_of_headFree (headFree_of_filterText (each_append.mpr ⟨hlength, hafter⟩))
  -- Only the token changes; what follows it begins with a colon, which is not in a head.
  have hbreak : BreaksHead (":d=" ++ after).toList := by
    rw [String.toList_append]
    exact breaksHead_cons (by decide) _
  have htoken := (settles_token hfinite hpos).append hrest hbreak hbreak
  simp only [String.append_assoc]
  exact (htoken.prepend (brace_not_mem_of_filterText hoption)).prepend (brace_not_mem_of_filterText hbefore)

/-- What becomes of the filters of a picture. -/
theorem settles_sourceFilters (hfades : p.FadesInRange) (r : TimeRange) :
    Settles r.finish p.sourceFilters (p.within r).sourceFilters := by
  by_cases h : p.fadeOutLength = none ∨ p.timeRange ≠ none
  · rw [Placement.sourceFilters_within h]
    exact settles_of_headFree (headFree_of_filterText (filterText_sourceFilters h))
  · obtain ⟨hout, hrange⟩ := not_or.mp h
    obtain ⟨seconds, hout⟩ := Option.ne_none_iff_exists'.mp hout
    obtain ⟨before, after, hbefore, hafter, hnone, hsome⟩ :=
      Placement.exists_deferred hout (Classical.not_not.mp hrange) r
    obtain ⟨hfade, hpos⟩ := fadeOutLength_eq_some_iff.mp hout
    have hfinite : seconds.isFinite = true := (hfades seconds (.inr hfade)).1
    rw [hnone, hsome]
    exact settles_fadeOut hbefore hafter hfinite hpos r.finish

/-- The filters of a picture settle for any length of the main video, even one that is no end of a range. -/
theorem exists_settles_sourceFilters (hfades : p.FadesInRange) (length : Binary64) :
    ∃ filters, Settles length p.sourceFilters filters := by
  by_cases h : p.fadeOutLength = none ∨ p.timeRange ≠ none
  · exact ⟨_, settles_of_headFree (headFree_of_filterText (filterText_sourceFilters h))⟩
  · obtain ⟨hout, hrange⟩ := not_or.mp h
    obtain ⟨seconds, hout⟩ := Option.ne_none_iff_exists'.mp hout
    obtain ⟨before, after, hbefore, hafter, heq⟩ := exists_sourceFilters_eq hout
    obtain ⟨hfade, hpos⟩ := fadeOutLength_eq_some_iff.mp hout
    have hfinite : seconds.isFinite = true := (hfades seconds (.inr hfade)).1
    have hfilters : p.sourceFilters = _ := heq p.timeRange
    rw [Classical.not_not.mp hrange] at hfilters
    rw [hfilters]
    exact ⟨_, settles_fadeOut hbefore hafter hfinite hpos length⟩

end

/-! ## Segments -/

/-- The streams that a segment reads have no brace. -/
theorem brace_not_mem_sources (sources : List Stream) :
    '{' ∉ (String.join (sources.map Stream.text)).toList := by
  induction sources with
  | nil => exact (by decide : '{' ∉ "".toList)
  | cons st sources ih =>
    rw [List.map_cons, String.join_cons, String.toList_append, List.mem_append]
    exact not_or.mpr ⟨brace_not_mem_streamText st, ih⟩

/-- What becomes of a segment is what becomes of its filters. -/
theorem settles_segment {length : Binary64} {seg : Segment} {filters : String}
    (h : Settles length seg.filters filters) :
    Settles length seg.text { seg with filters := filters }.text := by
  have houtput : '{' ∉ ((seg.output.map fun label => (Stream.labelled label).text).getD "").toList
      ∧ BreaksHead ((seg.output.map fun label => (Stream.labelled label).text).getD "").toList := by
    cases seg.output with
    | none => exact ⟨List.not_mem_nil, breaksHead_nil⟩
    | some label =>
      rw [Option.map_some, Option.getD_some]
      refine ⟨brace_not_mem_streamText _, ?_⟩
      rw [Stream.text_eq, String.toList_append, String.toList_append]
      exact breaksHead_cons (by decide) _
  obtain ⟨hbrace, hbreak⟩ := houtput
  have hlabel : Settles length _ _ := settles_of_headFree (headFree_of_no_brace hbrace)
  show Settles length (_ ++ seg.filters ++ _) (_ ++ filters ++ _)
  rw [String.append_assoc, String.append_assoc]
  exact (h.append hlabel hbreak hbreak).prepend (brace_not_mem_sources _)

namespace Session

variable {s : Session} {g : Graph} {r : TimeRange}

/-- The picture that a segment brings to its size. -/
def scaledPicture (s : Session) (seg : Segment) : Option (Placed Picture) :=
  match seg.output with
  | some (.scaled n) => s.pictures[n - s.pictureStage]?
  | _ => none

/-- A segment, with the filters that its picture has within a time range. -/
def timed (s : Session) (r : TimeRange) (seg : Segment) : Segment :=
  match s.scaledPicture seg with
  | some p => { seg with filters := (p.placement.within r).sourceFilters }
  | none => seg

theorem scaledPicture_sourceSegment {j : Nat} {p : Placed Picture} (hp : s.pictures[j]? = some p) :
    s.scaledPicture (s.sourceSegment j p) = some p := by
  show s.pictures[s.pictureStage + j - s.pictureStage]? = some p
  rw [Nat.add_sub_cancel_left, hp]

theorem scaledPicture_stage (s : Session) (sources : List Stream) (filters : String) (followed : Bool) (n : Nat) :
    s.scaledPicture ⟨sources, filters, labelIf followed (.stage n)⟩ = none := by
  cases followed <;> rfl

theorem timed_of_scaledPicture {seg : Segment} {p : Placed Picture} (h : s.scaledPicture seg = some p) :
    s.timed r seg = { seg with filters := (p.placement.within r).sourceFilters } := by
  rw [timed, h]

theorem timed_of_no_picture {seg : Segment} (h : s.scaledPicture seg = none) : s.timed r seg = seg := by
  rw [timed, h]

/-- The pictures of a list have their segments in order. -/
theorem filterMap_scaledPicture_pictureSegments {front ps : List (Placed Picture)} (followed : Bool) (input : Nat)
    (hps : s.pictures = front ++ ps) :
    (pictureSegments followed input (s.pictureStage + front.length) ps).filterMap s.scaledPicture = ps := by
  induction ps generalizing front input with
  | nil => rfl
  | cons p ps ih =>
    have hsource : s.scaledPicture ⟨[.input input], p.placement.sourceFilters,
        some (.scaled (s.pictureStage + front.length))⟩ = some p :=
      scaledPicture_sourceSegment (getElem?_pictures_of_eq hps)
    have hrest := @ih (front ++ [p]) (input + 1) (by rw [hps, List.append_assoc, List.singleton_append])
    rw [List.length_append, List.length_singleton, ← Nat.add_assoc] at hrest
    rw [pictureSegments, List.filterMap_cons, hsource, List.filterMap_cons, scaledPicture_stage, hrest]

/-- Each picture has one segment that brings it to its size, in the order of the pictures. -/
theorem filterMap_scaledPicture (s : Session) : s.segments.filterMap s.scaledPicture = s.pictures := by
  have hkey (followed : Bool) : (s.keySegments followed).filterMap s.scaledPicture = [] := by
    rw [keySegments]
    cases s.colorKey with
    | none => rfl
    | some key => cases followed <;> rfl
  have htexts (followed : Bool) : (textSegments followed s.textStage s.texts).filterMap s.scaledPicture = [] := by
    rw [textSegments]
    split
    · rfl
    · rw [List.filterMap_cons, scaledPicture_stage]
      rfl
  have hboxes : (boxSegments s.boxStage s.boxes).filterMap s.scaledPicture = [] := by
    rw [boxSegments]
    split
    · rfl
    · rfl
  have hpictures := filterMap_scaledPicture_pictureSegments (!s.texts.isEmpty) s.firstInput
    (List.nil_append s.pictures).symm
  rw [segments_eq, List.filterMap_append, List.filterMap_append, List.filterMap_append, hkey, htexts, hboxes,
    List.append_nil, List.append_nil]
  exact hpictures

/-! ## Graphs -/

/-- What `timed` does to the segments of a graph. Each picture has one segment, and its filters become those
it has within the range. If its fade waits for the end of the main video, this replaces the token by the time
at which the fade begins, and nothing else; every other segment stays as it is. -/
structure TimesFades (s : Session) (g : Graph) (r : TimeRange) : Prop where
  pictures : g.segments.filterMap s.scaledPicture = s.pictures
  filters : ∀ seg ∈ g.segments, ∀ p, s.scaledPicture seg = some p →
    seg.filters = p.placement.sourceFilters ∧ (s.timed r seg).filters = (p.placement.within r).sourceFilters
  deferred : ∀ seg ∈ g.segments, ∀ p seconds, s.scaledPicture seg = some p →
    p.placement.fadeOutLength = some seconds → p.placement.timeRange = none →
      ∃ before after, seg.filters = before ++ "fade=t=out:st=" ++ tokenText seconds ++ ":d=" ++ after
        ∧ s.timed r seg = { seg with
            filters := before ++ "fade=t=out:st=" ++ secondsText ((r.finish.sub seconds).max .zero)
              ++ ":d=" ++ after }
  other : ∀ seg ∈ g.segments,
    (∀ p, s.scaledPicture seg = some p → p.placement.fadeOutLength = none ∨ p.placement.timeRange ≠ none) →
      s.timed r seg = seg

section

-- No head comes from outside.
variable (htexts : ∀ t ∈ s.texts, HeadFree t.content) (hcolors : ∀ c ∈ s.colors, HeadFree c.name)
include htexts hcolors

/-- A segment brings a picture to its size, or it has no head if none comes from outside. -/
theorem source_or_headFree :
    ∀ seg ∈ s.segments, (∃ j p, s.pictures[j]? = some p ∧ seg = s.sourceSegment j p)
      ∨ (s.scaledPicture seg = none ∧ HeadFree seg.filters) := by
  refine forall_segments (fun k hk followed => ?_) (fun j p hp => ⟨.inl ⟨j, p, hp, rfl⟩, fun followed => ?_⟩)
    (fun _ followed => ?_) fun _ => ?_
  · have hkey : HeadFree k.content.filter :=
      headFree_of_writtenAround (writtenAround_colorKey k.content) fun c hc =>
        hcolors c (mem_colors_of_colorKey hk hc)
    have hscale := headFree_of_filterText (filterText_scaleFilter k.placement.dimension)
    have hoverlay : HeadFree "overlay" := by decide
    exact List.forall_mem_cons.mpr ⟨.inr ⟨rfl, hkey⟩, List.forall_mem_cons.mpr ⟨.inr ⟨rfl, hscale⟩,
      List.forall_mem_singleton.mpr (.inr ⟨scaledPicture_stage s _ _ _ _, hoverlay⟩)⟩⟩
  · exact .inr ⟨scaledPicture_stage s _ _ _ _, headFree_of_filterText (filterText_overlayFilter _ _)⟩
  · refine .inr ⟨scaledPicture_stage s _ _ _ _, ?_⟩
    exact headFree_intercalate fun t ht => htexts t ht
  · refine .inr ⟨rfl, headFree_intercalate fun b hb => ?_⟩
    exact headFree_of_writtenAround (writtenAround_drawBox b.placement b.content) fun c hc =>
      hcolors c (mem_colors_of_box hb hc)

/-- A segment with a picture is the one that brings this picture to its size. -/
theorem filters_of_scaledPicture :
    ∀ seg ∈ s.segments, ∀ p, s.scaledPicture seg = some p → seg.filters = p.placement.sourceFilters := by
  intro seg hseg p hp
  rcases source_or_headFree htexts hcolors seg hseg with ⟨j, q, hq, rfl⟩ | ⟨hnone, _⟩
  · rw [scaledPicture_sourceSegment hq] at hp
    cases hp
    rfl
  · rw [hnone] at hp
    cases hp

/-- **A segment becomes the one whose picture has a range that ends with the main video.** -/
theorem settles_timed (hs : s.Reachable) (r : TimeRange) :
    ∀ seg ∈ s.segments, Settles r.finish seg.text (s.timed r seg).text := by
  intro seg hseg
  rcases source_or_headFree htexts hcolors seg hseg with ⟨j, p, hp, rfl⟩ | ⟨hnone, hfilters⟩
  · rw [timed_of_scaledPicture (scaledPicture_sourceSegment hp)]
    exact settles_segment (settles_sourceFilters (hs.complete.pictures p (List.mem_of_getElem? hp)).1 r)
  · rw [timed_of_no_picture hnone]
    exact settles_segment (settles_of_headFree hfilters)

theorem timesFades (r : TimeRange) : s.TimesFades ⟨s.segments, s.inputs⟩ r where
  pictures := filterMap_scaledPicture s
  filters seg hseg p hp := by
    rw [timed_of_scaledPicture hp]
    exact ⟨filters_of_scaledPicture htexts hcolors seg hseg p hp, rfl⟩
  deferred seg hseg p seconds hp hout hrange := by
    obtain ⟨before, after, _, _, hnone, hsome⟩ := Placement.exists_deferred hout hrange r
    rw [timed_of_scaledPicture hp, filters_of_scaledPicture htexts hcolors seg hseg p hp]
    exact ⟨before, after, hnone, by rw [hsome]⟩
  other seg hseg h := by
    cases hp : s.scaledPicture seg with
    | none => exact timed_of_no_picture hp
    | some p =>
      rw [timed_of_scaledPicture hp, Placement.sourceFilters_within (h p hp),
        ← filters_of_scaledPicture htexts hcolors seg hseg p hp]

end

theorem isSeconds_zero : IsSeconds .zero := by decide +kernel

/-- What a text settles to is what is used of it. -/
theorem resolveGraph_of_settles {p : Probe} {report : Report} {primary graph text : String}
    (hp : p primary = .ok report) (h : Settles report.duration graph text) :
    (resolveGraph (some p) primary graph).outcome = .ok text := by
  obtain ⟨hresolve, hdone⟩ := h.resolve_eq
  rw [resolveGraph]
  cases hfound : findTokenText? graph with
  | none =>
    rw [← hresolve, resolve_eq_self_iff.mpr hfound]
    rfl
  | some token =>
    refine Assembly.outcome_bind_eq_ok_iff.mpr ⟨report, by rw [Assembly.require_of_ok hp], ?_⟩
    dsimp only
    rw [hresolve, hdone]
    rfl

/-- **Fades that wait for the end of the main video are timed like those that do not.** If the length of the
main video is known, the graph is that of the session, but with a time range that ends with the main video
for every picture without one. -/
theorem renderCommand_timesFades {p : Probe} {report : Report} {primary : String} (hs : s.Reachable)
    (htexts : ∀ t ∈ s.texts, HeadFree t.content) (hcolors : ∀ c ∈ s.colors, HeadFree c.name)
    (hg : s.compile = .ok g) (hp : p primary = .ok report) (hfinite : report.duration.isFinite = true)
    (hpos : Binary64.lt .zero report.duration = true) (output : String) :
    ∃ r : TimeRange, r.finish = report.duration ∧ s.TimesFades g r
      ∧ (renderCommand (some p) primary s output).outcome = .ok (["-i", primary]
          ++ s.inputs.flatMap (fun file => ["-i", file])
          ++ (if s.isEmpty then []
              else ["-filter_complex", String.intercalate "," (g.segments.map fun seg => (s.timed r seg).text)])
          ++ [output]) := by
  obtain ⟨hlayered, rfl⟩ := compile_eq_ok_iff.mp hg
  obtain ⟨r, hr⟩ : ∃ r : TimeRange, r.finish = report.duration :=
    ⟨⟨.zero, report.duration, isSeconds_zero, hfinite, hpos⟩, rfl⟩
  have hsettles : Settles r.finish (Graph.text ⟨s.segments, s.inputs⟩)
      (String.intercalate "," (s.segments.map fun seg => (s.timed r seg).text)) :=
    settles_intercalate (settles_timed htexts hcolors hs r)
  rw [hr] at hsettles
  have htext := resolveGraph_of_settles hp hsettles
  refine ⟨r, hr, timesFades htexts hcolors r, ?_⟩
  have hgraph : (Assembly.ofExcept (s.compile.mapError Error.graph)).outcome = .ok ⟨s.segments, s.inputs⟩ := by
    rw [hg]
    rfl
  rw [renderCommand]
  refine Assembly.outcome_bind_eq_ok_iff.mpr ⟨⟨s.segments, s.inputs⟩, hgraph, ?_⟩
  refine Assembly.outcome_bind_eq_ok_iff.mpr ⟨_, htext, ?_⟩
  rw [← filterArguments_eq hlayered htext]
  rfl

/-- A session with a picture that fades out in the last two seconds of the main video. -/
def fading : Session :=
  empty.run [.one ⟨{ dimension := some ⟨320, 240, by decide, by decide⟩, fadeOut := some (.ofRatio false 2 1) },
    .picture { file := some "logo.png" }⟩]

/-- What is known of a video of thirty seconds. -/
def thirtySeconds : Report := ⟨"h264", .ofRatio false 30 1, false⟩

/-- Every file is such a video. -/
def alwaysThirtySeconds : Probe := fun _ => .ok thirtySeconds

/-- Every file is a video of infinite length. -/
def alwaysEndless : Probe := fun _ => .ok ⟨"h264", .infinite false, false⟩

/-- The fade of the picture begins at 28 seconds. -/
theorem renderCommand_timesFades_fading :
    (renderCommand (some alwaysThirtySeconds) "main.mp4" fading "out.mp4").outcome
      = .ok ["-i", "main.mp4", "-i", "logo.png", "-filter_complex",
          "[1:v]format=yuva420p,scale=320:240,fade=t=out:st=28:d=2:alpha='1'[s1],[0:v][s1]overlay=0:0", "out.mp4"]
      ∧ ∃ r : TimeRange, r.finish = thirtySeconds.duration
          ∧ fading.TimesFades ⟨fading.segments, fading.inputs⟩ r := by
  refine ⟨by decide +kernel, ?_⟩
  have hreachable : fading.Reachable := ⟨_, rfl⟩
  have htexts : ∀ t ∈ fading.texts, HeadFree t.content := by decide +kernel
  have hcolors : ∀ c ∈ fading.colors, HeadFree c.name := by decide +kernel
  have hcompile : fading.compile = .ok ⟨fading.segments, fading.inputs⟩ := by decide +kernel
  have hprobe : alwaysThirtySeconds "main.mp4" = .ok thirtySeconds := rfl
  have hfinite : thirtySeconds.duration.isFinite = true := by decide +kernel
  have hpos : Binary64.lt .zero thirtySeconds.duration = true := by decide +kernel
  obtain ⟨r, hr, htimes, _⟩ :=
    renderCommand_timesFades hreachable htexts hcolors hcompile hprobe hfinite hpos "out.mp4"
  exact ⟨r, hr, htimes⟩

end Session
end VideoOverlay
