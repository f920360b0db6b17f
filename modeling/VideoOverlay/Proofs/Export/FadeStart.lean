import VideoOverlay.Proofs.Duration.Comma
import VideoOverlay.Proofs.Duration.Overflow
import VideoOverlay.Proofs.Export.Fade
import VideoOverlay.Proofs.Export.Outcome
import VideoOverlay.Proofs.Graph.Still

/-!
# `Proofs.Export.FadeStart` — when fades at the end begin

The text of a graph is read for the times at which its fades at the end begin: wherever `fade=t=out:st=` stands, what
follows it up to the next colon (`fadeStarts`). In the segment that brings a picture to its size this is one time if
the picture fades out, and none otherwise, whether the time comes from the range of the picture or from the length of
the main video. It is written as a decimal, unless so many seconds are left that their milliseconds overflow.

No other segment has a say in this: segments are resolved one by one, whatever heads or tokens come from outside.

## Contents
- `fadeStarts`; `NoFadeOut`: texts that are passed over. `fadeStarts_around`: one fade between such texts.
- `Placement.beforeFadeOut`, `sourceFilters_of_fadeOut`: the filters of a picture that fades out.
- `StartsWritten`, `startsWritten_sourceSegment`: the fade of a picture.
- `drawnTexts`: the text that is handed over. `renderCommand_writesFadeStarts`; starts that overflow.
-/

namespace VideoOverlay

open Text Duration

-- Powers of numbers are those of the core library, also beside libraries with powers of their own.
attribute [local instance(2000)] instPowNat

/-! ## Reading -/

/-- How a fade at the end is written, up to the time at which it begins. -/
def fadeMark : List Char := "fade=t=out:st=".toList

/-- The times at which the fades at the end begin: what follows each mark, up to the next colon. -/
def fadeStarts : List Char → List String
  | [] => []
  | c :: cs =>
    if fadeMark.isPrefixOf (c :: cs) then
      String.ofList (((c :: cs).drop fadeMark.length).takeWhile (· ≠ ':')) :: fadeStarts cs
    else fadeStarts cs

/-- A text without a fade at the end, whatever comes behind it. -/
def NoFadeOut (s : String) : Prop := ∀ rest, fadeStarts (s.toList ++ rest) = fadeStarts rest

section Reading

variable {s t operand front back : String} {cs rest : List Char} {x : Binary64}

theorem fadeStarts_cons_of_ne {c : Char} (h : c ≠ 'f') (cs : List Char) : fadeStarts (c :: cs) = fadeStarts cs := by
  have hnot : ¬fadeMark.isPrefixOf (c :: cs) = true := by
    intro hmark
    have hc : 'f' = c := (List.cons_prefix_cons.mp (List.isPrefixOf_iff_prefix.mp hmark)).1
    exact h hc.symm
  rw [fadeStarts, if_neg hnot]

theorem fadeStarts_append_of_not_mem (h : 'f' ∉ cs) (rest : List Char) :
    fadeStarts (cs ++ rest) = fadeStarts rest := by
  induction cs with
  | nil => rfl
  | cons c cs ih =>
    have hc : c ≠ 'f' := by
      rintro rfl
      exact h List.mem_cons_self
    rw [List.cons_append, fadeStarts_cons_of_ne hc]
    exact ih fun hmem => h (List.mem_cons_of_mem c hmem)

/-- A mark is followed by the time at which a fade begins. -/
theorem fadeStarts_mark (h : ':' ∉ operand.toList) (rest : List Char) :
    fadeStarts (fadeMark ++ (operand.toList ++ ':' :: rest))
      = operand :: fadeStarts (operand.toList ++ ':' :: rest) := by
  have hmark : fadeMark.isPrefixOf (fadeMark ++ (operand.toList ++ ':' :: rest)) = true :=
    List.isPrefixOf_iff_prefix.mpr (List.prefix_append _ _)
  have hopen : ∀ c ∈ operand.toList, decide (c ≠ ':') = true := by
    intro c hc
    refine decide_eq_true fun heq => ?_
    exact h (heq ▸ hc)
  have htail : 'f' ∉ "ade=t=out:st=".toList := by decide
  show fadeStarts ('f' :: ("ade=t=out:st=".toList ++ _)) = _
  rw [fadeStarts]
  show (if fadeMark.isPrefixOf (fadeMark ++ _) = true then
    String.ofList (((fadeMark ++ _).drop fadeMark.length).takeWhile _) :: _ else _) = _
  rw [if_pos hmark, List.drop_left, List.takeWhile_append_of_pos hopen, List.takeWhile_cons_of_neg (by decide),
    List.append_nil, String.ofList_toList, fadeStarts_append_of_not_mem htail]

theorem noFadeOut_of_each (h : Each (· ≠ 'f') s) : NoFadeOut s :=
  fun rest => fadeStarts_append_of_not_mem (fun hmem => h 'f' hmem rfl) rest

theorem NoFadeOut.append (hs : NoFadeOut s) (ht : NoFadeOut t) : NoFadeOut (s ++ t) := by
  intro rest
  rw [String.toList_append, List.append_assoc, hs, ht]

theorem noFadeOut_binary64 (h : x.isFinite = true) : NoFadeOut x.text :=
  noFadeOut_of_each ((each_decimal_binary64 h).ne_of_decimal (by decide))

theorem colon_not_mem_writesSeconds (h : WritesSeconds x operand) : ':' ∉ operand.toList := by
  cases h with
  | decimal =>
    intro hmem
    exact absurd (each_decimal_binary64 rfl ':' hmem) (by decide)
  | overflow => decide

/-- Behind the time at which a fade begins comes its length. -/
theorem noFadeOut_writesSeconds (h : WritesSeconds x operand) : NoFadeOut (operand ++ ":d=") := by
  have hoption : NoFadeOut ":d=" := noFadeOut_of_each (by decide)
  cases h with
  | decimal => exact (noFadeOut_binary64 rfl).append hoption
  | overflow =>
    intro rest
    -- The last letter of `inf` is the first one of a mark, which does not go on with a colon.
    have hnot : ¬fadeMark.isPrefixOf ('f' :: (":d=".toList ++ rest)) = true := Bool.false_ne_true
    show fadeStarts ("in".toList ++ 'f' :: (":d=".toList ++ rest)) = _
    rw [fadeStarts_append_of_not_mem (by decide), fadeStarts, if_neg hnot, hoption]

/-- **One fade at the end, between texts without one.** -/
theorem fadeStarts_around (hfront : NoFadeOut front) (hoperand : WritesSeconds x operand) (hback : NoFadeOut back) :
    fadeStarts (front ++ ("fade=t=out:st=" ++ (operand ++ (":d=" ++ back)))).toList = [operand] := by
  have hrest := noFadeOut_writesSeconds hoperand back.toList
  have hnil := hback []
  rw [List.append_nil] at hnil
  rw [String.toList_append, hfront, String.toList_append, String.toList_append, String.toList_append]
  show fadeStarts (fadeMark ++ (operand.toList ++ ':' :: ("d=".toList ++ back.toList))) = _
  rw [fadeStarts_mark (colon_not_mem_writesSeconds hoperand)]
  rw [String.toList_append, List.append_assoc] at hrest
  rw [show operand.toList ++ ':' :: ("d=".toList ++ back.toList) = operand.toList ++ (":d=".toList ++ back.toList)
    from rfl, hrest, hnil]
  rfl

end Reading

/-! ## The filters of a picture -/

section Pictures

variable {p : Placement} {seconds x : Binary64}

theorem noFadeOut_scaleFilter (d : Option Dimension) : NoFadeOut (scaleFilter d) := by
  refine noFadeOut_of_each (each_append.mpr ⟨by decide, ?_⟩)
  cases d with
  | none => exact (by decide : Each (· ≠ 'f') "iw:ih")
  | some d =>
    have hside (n : Int) : Each (· ≠ 'f') (toString n) := (each_decimal_int n).ne_of_decimal (by decide)
    exact each_append.mpr ⟨each_append.mpr ⟨hside d.width, by decide⟩, hside d.height⟩

theorem noFadeOut_comma : NoFadeOut "," := noFadeOut_of_each (by decide)

theorem noFadeOut_format : NoFadeOut "format=yuva420p," := by
  intro rest
  have hnot : ¬fadeMark.isPrefixOf ('f' :: ("ormat=yuva420p,".toList ++ rest)) = true := Bool.false_ne_true
  show fadeStarts ('f' :: ("ormat=yuva420p,".toList ++ rest)) = _
  rw [fadeStarts, if_neg hnot, fadeStarts_append_of_not_mem (by decide)]

/-- A fade at the beginning is none at the end. -/
theorem noFadeOut_fadeInFilter (h : x.isFinite = true) : NoFadeOut (fadeInFilter x) := by
  have hoption : NoFadeOut "fade=t=in:st=0:d=" := by
    intro rest
    have hnot : ¬fadeMark.isPrefixOf ('f' :: ("ade=t=in:st=0:d=".toList ++ rest)) = true := Bool.false_ne_true
    show fadeStarts ('f' :: ("ade=t=in:st=0:d=".toList ++ rest)) = _
    rw [fadeStarts, if_neg hnot, fadeStarts_append_of_not_mem (by decide)]
  exact (hoption.append (noFadeOut_binary64 h)).append (noFadeOut_of_each (by decide))

/-- What a picture goes through before its fade at the end. -/
def Placement.beforeFadeOut (p : Placement) : String :=
  "format=yuva420p,"
    ++ (scaleFilter p.dimension ++ ("," ++ (p.fadeInLength.map fun x => fadeInFilter x ++ ",").getD ""))

theorem fadeInLength_isFinite (hfades : p.FadesInRange) (h : p.fadeInLength = some x) : x.isFinite = true :=
  (hfades x (.inl (Option.filter_eq_some_iff.mp h).1)).1

theorem noFadeOut_beforeFadeOut (hfades : p.FadesInRange) : NoFadeOut p.beforeFadeOut := by
  refine noFadeOut_format.append ((noFadeOut_scaleFilter _).append (noFadeOut_comma.append ?_))
  cases hin : p.fadeInLength with
  | none => exact noFadeOut_of_each each_empty
  | some x => exact (noFadeOut_fadeInFilter (fadeInLength_isFinite hfades hin)).append noFadeOut_comma

theorem filterText_beforeFade (p : Placement) : FilterText p.beforeFadeOut := by
  have hin : FilterText ((p.fadeInLength.map fun x => fadeInFilter x ++ ",").getD "") := by
    cases p.fadeInLength with
    | none => exact each_empty
    | some x => exact each_append.mpr ⟨filterText_fadeInFilter x, by decide⟩
  have hbehind : FilterText ("," ++ (p.fadeInLength.map fun x => fadeInFilter x ++ ",").getD "") :=
    each_append.mpr ⟨by decide, hin⟩
  exact each_append.mpr ⟨by decide, each_append.mpr ⟨filterText_scaleFilter _, hbehind⟩⟩

/-- The filters of a picture that fades out. -/
theorem sourceFilters_of_fadeOut (h : p.fadeOutLength = some seconds) :
    p.sourceFilters = p.beforeFadeOut ++ "fade=t=out:st=" ++ fadeOutStart p.timeRange seconds ++ ":d="
      ++ (seconds.text ++ ":alpha='1'") := by
  have hfade : p.hasFade = true := by
    rw [Placement.hasFade, h, Option.isSome_some, Bool.or_true]
  have hformat : "format=yuva420p," = "format=yuva420p" ++ "," := by decide
  have hbefore : p.beforeFadeOut = "format=yuva420p,"
      ++ (scaleFilter p.dimension ++ ("," ++ (p.fadeInLength.map fun x => fadeInFilter x ++ ",").getD "")) := rfl
  have hout := fadeOutFilter_append p.timeRange seconds ""
  rw [String.append_empty, String.append_empty] at hout
  rw [Placement.sourceFilters, if_pos hfade, h, hbefore, hformat]
  cases p.fadeInLength with
  | none =>
    show String.intercalate "," ["format=yuva420p", scaleFilter p.dimension, fadeOutFilter p.timeRange seconds] = _
    rw [String.intercalate_cons_cons, String.intercalate_cons_cons, String.intercalate_singleton, hout]
    simp only [Option.map_none, Option.getD_none, String.append_empty, String.append_assoc]
  | some x =>
    show String.intercalate ","
      ["format=yuva420p", scaleFilter p.dimension, fadeInFilter x, fadeOutFilter p.timeRange seconds] = _
    rw [String.intercalate_cons_cons, String.intercalate_cons_cons, String.intercalate_cons_cons,
      String.intercalate_singleton, hout]
    simp only [Option.map_some, Option.getD_some, String.append_assoc]

/-- A picture that does not fade out has no such filter. -/
theorem noFadeOut_sourceFilters (hfades : p.FadesInRange) (h : p.fadeOutLength = none) :
    NoFadeOut p.sourceFilters := by
  have hscale := noFadeOut_scaleFilter p.dimension
  cases hin : p.fadeInLength with
  | none =>
    have hfade : ¬p.hasFade = true := by
      rw [Placement.hasFade, h, hin]
      exact Bool.false_ne_true
    rw [Placement.sourceFilters, if_neg hfade]
    exact hscale
  | some x =>
    have hfade : p.hasFade = true := by
      rw [Placement.hasFade, hin]
      rfl
    have hfadeIn := noFadeOut_fadeInFilter (fadeInLength_isFinite hfades hin)
    have hboth := noFadeOut_format.append (hscale.append (noFadeOut_comma.append hfadeIn))
    rw [Placement.sourceFilters, if_pos hfade, h, hin]
    show NoFadeOut (String.intercalate "," ["format=yuva420p", scaleFilter p.dimension, fadeInFilter x])
    rw [String.intercalate_cons_cons, String.intercalate_cons_cons, String.intercalate_singleton]
    simp only [String.append_assoc]
    exact hboth

end Pictures

/-! ## The segment of a picture -/

/-- The times at which the fades at the end begin in the segment of a picture, if the main video has a length.

* `none`: the picture does not fade out.
* `one`: it does, so long before the end of its range, or else of the main video. -/
inductive StartsWritten (p : Placement) (length : Binary64) : List String → Prop where
  | none (shown : p.fadeOutLength = none) : StartsWritten p length []
  | one {seconds finish : Binary64} (fades : p.fadeOutLength = some seconds)
      (ends : (p.timeRange.map TimeRange.finish).getD length = finish)
      (written : WritesSeconds ((finish.sub seconds).max .zero) (secondsBefore finish seconds)) :
    StartsWritten p length [secondsBefore finish seconds]

namespace Session

variable {s : Session} {j : Nat} {p : Placed Picture} {length : Binary64}

/-- The place of the segment that brings the picture number `j` to its size. -/
def sourcePlace (s : Session) (j : Nat) : Nat := 3 * s.colorKey.toList.length + 2 * j

theorem getElem?_segments_source (hp : s.pictures[j]? = some p) :
    s.segments[s.sourcePlace j]? = some (s.sourceSegment j p) := by
  have hj : j < s.pictures.length := (List.getElem?_eq_some_iff.mp hp).1
  rw [sourcePlace, getElem?_segments_picture (by omega), getElem?_pictureSegments_source hp]
  rfl

/-- The filters of a picture once the length of the main video is known. -/
theorem settles_sourceFilters_of_fadeOut {q : Placement} {seconds : Binary64} (hfades : q.FadesInRange)
    (hout : q.fadeOutLength = some seconds) (length : Binary64) :
    Settles length q.sourceFilters
      (q.beforeFadeOut ++ "fade=t=out:st=" ++ secondsBefore ((q.timeRange.map TimeRange.finish).getD length) seconds
        ++ ":d=" ++ (seconds.text ++ ":alpha='1'")) := by
  have hafter : FilterText (seconds.text ++ ":alpha='1'") :=
    each_append.mpr ⟨filterText_binary64 seconds, by decide⟩
  have hfilters := sourceFilters_of_fadeOut hout
  cases hrange : q.timeRange with
  | none =>
    obtain ⟨hfade, hpos⟩ := fadeOutLength_eq_some_iff.mp hout
    have hfinite : seconds.isFinite = true := (hfades seconds (.inr hfade)).1
    rw [hrange] at hfilters
    rw [hfilters]
    exact settles_fadeOut (filterText_beforeFade q) hafter hfinite hpos length
  | some r =>
    -- The time is written already.
    have hrange' : q.timeRange ≠ none := by
      rw [hrange]
      exact Option.some_ne_none r
    have hfree := headFree_of_filterText (filterText_sourceFilters (.inr hrange'))
    rw [hrange] at hfilters
    rw [hfilters] at hfree ⊢
    exact settles_of_headFree hfree

/-- **The segment of a picture has one fade at the end if the picture fades out, and no other one.** -/
theorem startsWritten_sourceSegment (hfades : p.placement.FadesInRange) (j : Nat) (length : Binary64) :
    StartsWritten p.placement length (fadeStarts (resolve (s.sourceSegment j p).text length).toList) := by
  have hsource : NoFadeOut (Stream.input (s.firstInput + j)).text := by
    refine noFadeOut_of_each (each_append.mpr ⟨each_append.mpr ⟨by decide, ?_⟩, by decide⟩)
    exact (each_decimal_nat _).ne_of_decimal (by decide)
  have hlabel : NoFadeOut (Stream.labelled (.scaled (s.pictureStage + j))).text := by
    have hnumber : Each (· ≠ 'f') (toString (s.pictureStage + j)) :=
      (each_decimal_nat _).ne_of_decimal (by decide)
    have hname : Each (· ≠ 'f') (Label.scaled (s.pictureStage + j)).text := each_append.mpr ⟨by decide, hnumber⟩
    exact noFadeOut_of_each (each_append.mpr ⟨each_append.mpr ⟨by decide, hname⟩, by decide⟩)
  have htext (filters : String) : { s.sourceSegment j p with filters := filters }.text
      = (Stream.input (s.firstInput + j)).text ++ filters
        ++ (Stream.labelled (.scaled (s.pictureStage + j))).text := by
    show String.join [_] ++ _ ++ _ = _
    rw [String.join_cons, String.join_nil, String.append_empty]
    rfl
  cases hout : p.placement.fadeOutLength with
  | none =>
    have hfree := headFree_of_filterText (filterText_sourceFilters (.inl hout))
    have hsettles : Settles length (s.sourceSegment j p).text
        { s.sourceSegment j p with filters := p.placement.sourceFilters }.text :=
      settles_segment (settles_of_headFree hfree)
    have hfilters := noFadeOut_sourceFilters hfades hout
    have hnone := ((hsource.append hfilters).append hlabel) []
    rw [List.append_nil] at hnone
    rw [hsettles.resolve_eq.1, htext, hnone]
    exact .none hout
  | some seconds =>
    have hfilters := settles_sourceFilters_of_fadeOut hfades hout length
    have hsettles : Settles length (s.sourceSegment j p).text { s.sourceSegment j p with filters := _ }.text :=
      settles_segment hfilters
    have hfinite : seconds.isFinite = true := (hfades seconds (.inr (fadeOutLength_eq_some_iff.mp hout).1)).1
    have hafter : NoFadeOut (seconds.text ++ ":alpha='1'") :=
      (noFadeOut_binary64 hfinite).append (noFadeOut_of_each (by decide))
    have hwritten := writesSeconds_secondsBefore ((p.placement.timeRange.map TimeRange.finish).getD length) seconds
    have hone := fadeStarts_around (hsource.append (noFadeOut_beforeFadeOut hfades)) hwritten (hafter.append hlabel)
    simp only [String.append_assoc] at hone
    rw [hsettles.resolve_eq.1, htext]
    simp only [String.append_assoc]
    rw [hone]
    exact .one hout rfl hwritten

/-! ## The text that is handed over -/

/-- The segments of a session, with their tokens resolved. -/
def drawnTexts (s : Session) (length : Binary64) : List String := s.segments.map fun seg => resolve seg.text length

/-- A token between other texts. -/
theorem hasToken_around {t : String} {x : Binary64} (h : IsToken t.toList x) (u v : String) :
    HasToken (u ++ (t ++ v)) := by
  refine ⟨u.toList, t.toList, x, v.toList, ?_, h⟩
  rw [String.toList_append, String.toList_append, List.append_assoc]

/-- A picture that fades out without a range of its own waits for the length of the main video. -/
theorem hasToken_of_waiting (hs : s.Reachable) (hp : s.pictures[j]? = some p)
    (hout : p.placement.fadeOutLength ≠ none) (hrange : p.placement.timeRange = none) :
    HasToken (Graph.text ⟨s.segments, s.inputs⟩) := by
  obtain ⟨seconds, hout⟩ := Option.ne_none_iff_exists'.mp hout
  obtain ⟨hfade, hpos⟩ := fadeOutLength_eq_some_iff.mp hout
  have hfades := (hs.complete.pictures p (List.mem_of_getElem? hp)).1
  have hfinite : seconds.isFinite = true := (hfades seconds (.inr hfade)).1
  have hmem : s.sourceSegment j p ∈ s.segments := List.mem_of_getElem? (getElem?_segments_source hp)
  have hfilters := sourceFilters_of_fadeOut hout
  rw [hrange] at hfilters
  have htext : (s.sourceSegment j p).text
      = (String.join ((s.sourceSegment j p).sources.map Stream.text) ++ (p.placement.beforeFadeOut ++ "fade=t=out:st="))
        ++ (tokenText seconds ++ (":d=" ++ (seconds.text ++ (":alpha='1'"
          ++ (Stream.labelled (.scaled (s.pictureStage + j))).text)))) := by
    show _ ++ p.placement.sourceFilters ++ _ = _
    rw [hfilters]
    simp only [String.append_assoc]
    rfl
  have htoken : HasToken (s.sourceSegment j p).text := by
    rw [htext]
    exact hasToken_around (isToken_tokenText hfinite hpos) _ _
  exact htoken.intercalate (List.mem_map_of_mem hmem)

/-- A text with a token is resolved; one without is handed over as it is. -/
theorem exists_drawnTexts {probe : Option Probe} {primary output : String} {args : List String}
    (h : (renderCommand probe primary s output).outcome = .ok args) :
    ∃ length, args = drawArguments primary s.inputs (String.intercalate "," (s.drawnTexts length)) output
      ∧ (HasToken (Graph.text ⟨s.segments, s.inputs⟩) →
          ∃ p report, probe = some p ∧ p primary = .ok report ∧ report.duration = length) := by
  obtain ⟨a, ha⟩ := exists_renderOutcome probe primary s output
  rw [ha.eq] at h
  cases ha with
  | refused => cases h
  | unprobed => cases h
  | unanswered => cases h
  | remaining => cases h
  | settled hcompile hcomplete =>
    obtain ⟨_, rfl⟩ := compile_eq_ok_iff.mp hcompile
    cases h
    -- No segment has a token, so any length does.
    have hsame : s.drawnTexts .zero = s.segments.map Segment.text := by
      refine List.map_congr_left fun seg hseg => ?_
      have hnone : ¬HasToken seg.text := by
        intro htoken
        exact hcomplete (htoken.intercalate (List.mem_map_of_mem hseg))
      exact resolve_eq_self_iff.mpr (findTokenText?_eq_none_iff.mpr hnone)
    refine ⟨.zero, ?_, fun htoken => absurd htoken hcomplete⟩
    rw [hsame]
    rfl
  | @resolved _ p report hcompile hwaits hpresent hanswer _ =>
    obtain ⟨_, rfl⟩ := compile_eq_ok_iff.mp hcompile
    cases h
    refine ⟨report.duration, ?_, fun _ => ⟨p, report, hpresent, hanswer, rfl⟩⟩
    rw [Graph.text, resolve_intercalate, List.map_map]
    rfl

/-- **Fades at the end begin at a decimal time, unless too many seconds are left.** In the text that is handed over to
the encoder, the segment of a picture has one fade at the end if the picture fades out, and none otherwise. The fade
begins so long before the end of the range of the picture, or of the main video as the probe reports it. A decimal is
written for this time, if its milliseconds are finite, and `inf` if they are not. -/
theorem renderCommand_writesFadeStarts (hs : s.Reachable) {probe : Option Probe} {primary output : String}
    {args : List String} (h : (renderCommand probe primary s output).outcome = .ok args) :
    ∃ length, args = drawArguments primary s.inputs (String.intercalate "," (s.drawnTexts length)) output
      ∧ ∀ j p, s.pictures[j]? = some p →
          (p.placement.fadeOutLength ≠ none → p.placement.timeRange = none →
            ∃ q report, probe = some q ∧ q primary = .ok report ∧ report.duration = length)
          ∧ ∃ text, (s.drawnTexts length)[s.sourcePlace j]? = some text
            ∧ StartsWritten p.placement length (fadeStarts text.toList) := by
  obtain ⟨length, hargs, hprobed⟩ := exists_drawnTexts h
  refine ⟨length, hargs, fun j p hp => ⟨fun hout hrange => ?_, ?_⟩⟩
  · exact hprobed (hasToken_of_waiting hs hp hout hrange)
  · have hfades := (hs.complete.pictures p (List.mem_of_getElem? hp)).1
    refine ⟨resolve (s.sourceSegment j p).text length, ?_, startsWritten_sourceSegment hfades j length⟩
    rw [drawnTexts, List.getElem?_map, getElem?_segments_source hp, Option.map_some]

/-- The fade of a picture that ends with a video of thirty seconds begins at a decimal time. -/
theorem renderCommand_writesFadeStarts_fading :
    (renderCommand (some alwaysThirtySeconds) "main.mp4" fading "out.mp4").outcome
      = .ok ["-i", "main.mp4", "-i", "logo.png", "-filter_complex",
          "[1:v]format=yuva420p,scale=320:240,fade=t=out:st=28:d=2:alpha='1'[s1],[0:v][s1]overlay=0:0", "out.mp4"]
      ∧ ∃ length text, (fading.drawnTexts length)[fading.sourcePlace 0]? = some text
          ∧ length = thirtySeconds.duration
          ∧ fadeStarts text.toList = [secondsBefore length (.ofRatio false 2 1)] := by
  have hargs : (renderCommand (some alwaysThirtySeconds) "main.mp4" fading "out.mp4").outcome
      = .ok ["-i", "main.mp4", "-i", "logo.png", "-filter_complex",
          "[1:v]format=yuva420p,scale=320:240,fade=t=out:st=28:d=2:alpha='1'[s1],[0:v][s1]overlay=0:0",
          "out.mp4"] := by
    decide +kernel
  refine ⟨hargs, ?_⟩
  have hreachable : fading.Reachable := ⟨_, rfl⟩
  obtain ⟨length, _, hall⟩ := renderCommand_writesFadeStarts hreachable hargs
  let placement : Placement :=
    { dimension := some ⟨320, 240, by decide, by decide⟩, fadeOut := some (.ofRatio false 2 1) }
  obtain ⟨p, hp, hout, hrange⟩ : ∃ p, fading.pictures[0]? = some p
      ∧ p.placement.fadeOutLength = some (.ofRatio false 2 1) ∧ p.placement.timeRange = none := by
    refine ⟨⟨placement, { file := some "logo.png" }⟩, ?_, ?_, rfl⟩
    · decide +kernel
    · decide +kernel
  obtain ⟨hprobed, text, htext, hwritten⟩ := hall 0 p hp
  have hwaits : p.placement.fadeOutLength ≠ none := by
    rw [hout]
    exact Option.some_ne_none _
  obtain ⟨_, report, hq, hreport, hlength⟩ := hprobed hwaits hrange
  have hprobe := Option.some.inj hq
  rw [← hprobe] at hreport
  have hanswer : Except.ok thirtySeconds = Except.ok report := hreport
  have hthirty : thirtySeconds = report := Except.ok.inj hanswer
  rw [← hthirty] at hlength
  refine ⟨length, text, htext, hlength.symm, ?_⟩
  generalize fadeStarts text.toList = starts at hwritten
  cases hwritten with
  | none hnone =>
    rw [hout] at hnone
    exact absurd hnone (Option.some_ne_none _)
  | one hfades hends =>
    rw [hout] at hfades
    rw [hrange, Option.map_none, Option.getD_none] at hends
    have hseconds := Option.some.inj hfades
    rw [hends, hseconds]

/-! ## Starts that overflow -/

/-- A range that ends after `17 * 10 ^ 307` seconds. -/
def longRange : TimeRange where
  start := .zero
  finish := .ofRatio false (17 * 10 ^ (307 : Nat)) 1
  start_isSeconds := isSeconds_zero
  finish_isFinite := by decide +kernel
  start_lt_finish := by decide +kernel

/-- A picture that is shown in that range, and fades out in its last second. -/
def longPlacement : Placement where
  dimension := some ⟨640, 360, by decide, by decide⟩
  timeRange := some longRange
  fadeOut := some .one

/-- A session with that picture. -/
def longShown : Session := empty.run [.one ⟨longPlacement, .picture { file := some "logo.png" }⟩]

/-- A session has nothing to resolve if no head comes from outside, and every picture that fades out has a range. -/
theorem not_hasToken_of_ranges (htexts : ∀ t ∈ s.texts, HeadFree t.content)
    (hcolors : ∀ c ∈ s.colors, HeadFree c.name)
    (hranges : ∀ p ∈ s.pictures, p.placement.fadeOutLength = none ∨ p.placement.timeRange ≠ none) :
    ¬HasToken (Graph.text ⟨s.segments, s.inputs⟩) := by
  have hfree : ∀ seg ∈ s.segments, HeadFree seg.text := by
    intro seg hseg
    have hfilters : HeadFree seg.filters := by
      rcases source_or_headFree htexts hcolors seg hseg with ⟨j, p, hp, rfl⟩ | ⟨_, hfilters⟩
      · exact headFree_of_filterText (filterText_sourceFilters (hranges p (List.mem_of_getElem? hp)))
      · exact hfilters
    have hsettles : Settles .zero seg.text { seg with filters := seg.filters }.text :=
      settles_segment (settles_of_headFree hfilters)
    exact hsettles.headFree
  exact findTokenText?_eq_none_iff.mp (headFree_intercalate hfree).findTokenText?_eq_none

/-- **A fade begins at no finite time**, at the end of a range, and at the end of a main video. -/
theorem renderCommand_writesInf :
    longShown.Reachable
      ∧ (∃ back, (renderCommand none "main.mp4" longShown "out.mp4").outcome
        = .ok ["-i", "main.mp4", "-i", "logo.png", "-filter_complex",
            "[1:v]format=yuva420p,scale=640:360,fade=t=out:st=inf:d=1:alpha='1'[s1]," ++ back, "out.mp4"])
      ∧ (renderCommand (some alwaysEndless) "main.mp4" fading "out.mp4").outcome
        = .ok ["-i", "main.mp4", "-i", "logo.png", "-filter_complex",
            "[1:v]format=yuva420p,scale=320:240,fade=t=out:st=inf:d=2:alpha='1'[s1],[0:v][s1]overlay=0:0",
            "out.mp4"] := by
  refine ⟨⟨_, rfl⟩, ?_, ?_⟩
  · have hboxes : longShown.boxes = [] := by decide +kernel
    have htexts : ∀ t ∈ longShown.texts, HeadFree t.content := by decide +kernel
    have hcolors : ∀ c ∈ longShown.colors, HeadFree c.name := by decide +kernel
    have hranges : ∀ p ∈ longShown.pictures,
        p.placement.fadeOutLength = none ∨ p.placement.timeRange ≠ none := by
      decide +kernel
    have hfirst : longShown.segments.map Segment.text
        = ["[1:v]format=yuva420p,scale=640:360,fade=t=out:st=inf:d=1:alpha='1'[s1]",
          "[0:v][s1]" ++ longPlacement.overlayFilter false] := by
      decide +kernel
    have hinputs : longShown.inputs = ["logo.png"] := by decide +kernel
    have hcompile : longShown.compile = .ok ⟨longShown.segments, longShown.inputs⟩ :=
      compile_of_layered (.inl hboxes)
    have houtcome : RenderOutcome none "main.mp4" longShown "out.mp4" _ :=
      .settled hcompile (not_hasToken_of_ranges htexts hcolors hranges)
    refine ⟨"[0:v][s1]" ++ longPlacement.overlayFilter false, ?_⟩
    rw [houtcome.eq, drawArguments, hinputs, Graph.text, hfirst]
    rfl
  · decide +kernel

end Session
end VideoOverlay
