import VideoOverlay.Overlay.Filter
import VideoOverlay.Proofs.Text.Bracket

/-!
# `Proofs.Overlay.Plain` — what filters are written with

Filters are written with a few characters only, none of them a bracket or a brace, but for three texts. The
name of a color and the fragment of a text overlay come from outside, and a fade that ends with the main video
waits in a token. So a graph whose colors and fragments are plain has no brackets but those around its
streams; and what a fade waits for can be put in its place without a change to anything else, as no other
part of the filters depends on when the overlay ends (`exists_sourceFilters_eq`).

## Contents
- `filterText_scaleFilter`, `filterText_overlayFilter`, `filterText_sourceFilters`: pictures.
- `exists_sourceFilters_eq`, `sourceFilters_of_no_fadeOut`: what depends on the end of a picture.
- `WrittenAround`, with `writtenAround_drawBox`, `writtenAround_colorKey`: filters around a color.
- `plain_sourceFilters`, `WrittenAround.plain`: filters without brackets.
- `scaleFilter_ne_empty` and its like: no filter is the empty text, so no segment ends with its sources.
-/

namespace VideoOverlay

open Text

variable {p : Placement} {seconds : Binary64}

/-! ## Places, sizes and times -/

theorem filterText_position (q : Position) : FilterText q.text :=
  each_append.mpr ⟨each_append.mpr ⟨filterText_int q.x, by decide⟩, filterText_int q.y⟩

theorem filterText_dimension (d : Dimension) : FilterText d.text :=
  each_append.mpr ⟨each_append.mpr ⟨filterText_int d.width, by decide⟩, filterText_int d.height⟩

theorem filterText_enableClause (r : TimeRange) : FilterText r.enableClause := by
  have hrange : FilterText r.text :=
    each_append.mpr ⟨each_append.mpr ⟨filterText_binary64 r.start, by decide⟩, filterText_binary64 r.finish⟩
  exact each_append.mpr ⟨each_append.mpr ⟨by decide, hrange⟩, by decide⟩

theorem filterText_scaleFilter (d : Option Dimension) : FilterText (scaleFilter d) := by
  refine each_append.mpr ⟨by decide, ?_⟩
  cases d with
  | none => exact (by decide : FilterText "iw:ih")
  | some d => exact filterText_dimension d

theorem filterText_overlayFilter (p : Placement) (still : Bool) : FilterText (p.overlayFilter still) := by
  have hplace : FilterText ((p.position.map Position.text).getD "0:0") := by
    cases p.position with
    | none => decide
    | some pos => exact filterText_position pos
  have hstill : FilterText (if still then ":shortest='1'" else "") := by
    cases still <;> decide
  have htime : FilterText ((p.timeRange.map fun r => ":" ++ r.enableClause).getD "") := by
    cases p.timeRange with
    | none => decide
    | some r => exact each_append.mpr ⟨by decide, filterText_enableClause r⟩
  have hplaced : FilterText ("overlay=" ++ (p.position.map Position.text).getD "0:0") :=
    each_append.mpr ⟨by decide, hplace⟩
  exact each_append.mpr ⟨each_append.mpr ⟨hplaced, hstill⟩, htime⟩

/-! ## Fades -/

theorem filterText_fadeInFilter (x : Binary64) : FilterText (fadeInFilter x) :=
  each_append.mpr ⟨each_append.mpr ⟨by decide, filterText_binary64 x⟩, by decide⟩

/-- What a picture goes through before its fade at the end. -/
theorem filterText_beforeFadeOut (p : Placement) :
    ∀ f ∈ ["format=yuva420p", scaleFilter p.dimension] ++ (p.fadeInLength.map fadeInFilter).toList,
      FilterText f := by
  intro f hf
  rcases List.mem_append.mp hf with hf | hf
  · rcases List.mem_cons.mp hf with rfl | hf
    · decide
    · rw [List.mem_singleton.mp hf]
      exact filterText_scaleFilter _
  · obtain ⟨x, _, rfl⟩ := Option.map_eq_some_iff.mp (Option.mem_toList.mp hf)
    exact filterText_fadeInFilter x

/-- The filter of a fade at the end, with any text after it. -/
theorem fadeOutFilter_append (timeRange : Option TimeRange) (seconds : Binary64) (after : String) :
    fadeOutFilter timeRange seconds ++ after
      = "fade=t=out:st=" ++ (fadeOutStart timeRange seconds
          ++ (":d=" ++ (seconds.text ++ (":alpha='1'" ++ after)))) := by
  show "fade=t=out:st=" ++ fadeOutStart timeRange seconds ++ ":d=" ++ seconds.text ++ ":alpha='1'" ++ after = _
  simp only [String.append_assoc]

/-- **Of the filters of a picture only the start of the fade at the end depends on when it ends.** -/
theorem exists_sourceFilters_eq (h : p.fadeOutLength = some seconds) :
    ∃ before after, FilterText before ∧ FilterText after
      ∧ ∀ timeRange, { p with timeRange := timeRange }.sourceFilters
          = before ++ "fade=t=out:st=" ++ fadeOutStart timeRange seconds ++ ":d=" ++ after := by
  have hcomma : FilterText "," := by decide
  have hnone : ∀ f ∈ ([] : List String), FilterText f := List.forall_mem_nil _
  obtain ⟨before, after, hbefore, hafter, heq⟩ :=
    exists_intercalate_eq hcomma (filterText_beforeFadeOut p) hnone
  refine ⟨before, seconds.text ++ (":alpha='1'" ++ after), hbefore, ?_, fun timeRange => ?_⟩
  · exact each_append.mpr ⟨filterText_binary64 seconds, each_append.mpr ⟨by decide, hafter⟩⟩
  · have hfade : { p with timeRange := timeRange }.hasFade = true := by
      show (p.fadeInLength.isSome || p.fadeOutLength.isSome) = true
      rw [h, Option.isSome_some, Bool.or_true]
    have hlast := heq (fadeOutFilter timeRange seconds)
    rw [List.append_nil] at hlast
    rw [Placement.sourceFilters, if_pos hfade]
    show String.intercalate "," (["format=yuva420p", scaleFilter p.dimension]
      ++ (p.fadeInLength.map fadeInFilter).toList ++ (p.fadeOutLength.map (fadeOutFilter timeRange)).toList) = _
    rw [h, Option.map_some, Option.toList_some, hlast, fadeOutFilter_append]
    simp only [String.append_assoc]

/-- Without a fade at the end the filters of a picture do not depend on when it ends. -/
theorem sourceFilters_of_no_fadeOut (h : p.fadeOutLength = none) (timeRange : Option TimeRange) :
    { p with timeRange := timeRange }.sourceFilters = p.sourceFilters := by
  show (if p.hasFade then String.intercalate "," (["format=yuva420p", scaleFilter p.dimension]
    ++ (p.fadeInLength.map fadeInFilter).toList ++ (p.fadeOutLength.map (fadeOutFilter timeRange)).toList)
    else scaleFilter p.dimension) = _
  rw [Placement.sourceFilters, h]
  rfl

/-- A picture whose end is known, or that does not fade there, has no token. -/
theorem filterText_sourceFilters (h : p.fadeOutLength = none ∨ p.timeRange ≠ none) :
    FilterText p.sourceFilters := by
  cases hout : p.fadeOutLength with
  | none =>
    rw [Placement.sourceFilters, hout]
    split
    · refine each_intercalate (by decide) fun f hf => ?_
      rw [Option.map_none, Option.toList_none, List.append_nil] at hf
      exact filterText_beforeFadeOut p f hf
    · exact filterText_scaleFilter _
  | some seconds =>
    obtain ⟨before, after, hbefore, hafter, heq⟩ := exists_sourceFilters_eq hout
    have htime : p.timeRange ≠ none := h.resolve_left (by rw [hout]; exact Option.some_ne_none _)
    obtain ⟨r, hr⟩ := Option.ne_none_iff_exists'.mp htime
    have hstart : FilterText (fadeOutStart p.timeRange seconds) := by
      rw [hr]
      exact filterText_binary64 _
    rw [show p.sourceFilters = _ from heq p.timeRange]
    simp only [FilterText, each_append]
    exact ⟨⟨⟨⟨hbefore, by decide⟩, hstart⟩, by decide⟩, hafter⟩

theorem plain_tokenText (x : Binary64) : Plain (Duration.tokenText x) := by
  have hbody : Plain (String.ofList (Duration.bodyText x)) := by
    refine plain_of_filterText fun c hc => ?_
    rw [String.toList_ofList, Duration.bodyText] at hc
    split at hc
    · cases hc
    · rcases List.mem_cons.mp hc with rfl | hc
      · decide
      · exact isFilterChar_of_isNumeralChar (Binary64.isNumeralChar_of_mem_chars c hc)
  have hparts : Duration.tokenText x
      = String.ofList Duration.head ++ String.ofList (Duration.bodyText x) ++ String.ofList [Duration.closing] := by
    rw [Duration.tokenText, String.ofList_append, String.ofList_append]
  rw [hparts]
  exact plain_append.mpr ⟨plain_append.mpr ⟨by decide, hbody⟩, by decide⟩

/-- Pictures have no outside text, and the token of a fade has no brackets. -/
theorem plain_sourceFilters (p : Placement) : Plain p.sourceFilters := by
  cases hout : p.fadeOutLength with
  | none => exact plain_of_filterText (filterText_sourceFilters (.inl hout))
  | some seconds =>
    obtain ⟨before, after, hbefore, hafter, heq⟩ := exists_sourceFilters_eq hout
    have hstart : Plain (fadeOutStart p.timeRange seconds) := by
      cases p.timeRange with
      | none => exact plain_tokenText seconds
      | some r => exact plain_of_filterText (filterText_binary64 _)
    rw [show p.sourceFilters = _ from heq p.timeRange]
    simp only [plain_append]
    exact ⟨⟨⟨⟨plain_of_filterText hbefore, by decide⟩, hstart⟩, by decide⟩, plain_of_filterText hafter⟩

/-! ## Colors -/

/-- A filter that is written around the name of a color, if there is one: what follows the name begins with
the opacity. -/
inductive WrittenAround : Option Color → String → Prop where
  | nothing {s : String} (own : FilterText s) : WrittenAround none s
  | name {c : Color} {before after : String} (ownBefore : FilterText before) (ownAfter : FilterText after) :
    WrittenAround (some c) (before ++ (c.name ++ ("@" ++ after)))

/-- A color key is written around its color. -/
theorem writtenAround_colorKey (k : ColorKey) : WrittenAround k.color k.filter := by
  have hclose : FilterText (":" ++ k.similarity.text ++ ":" ++ k.blend.text) := by
    simp only [FilterText, each_append]
    exact ⟨⟨⟨by decide, filterText_binary64 _⟩, by decide⟩, filterText_binary64 _⟩
  cases hc : k.color with
  | none =>
    have heq : k.filter = "colorkey=" ++ (":" ++ k.similarity.text ++ ":" ++ k.blend.text) := by
      rw [ColorKey.filter, hc, Option.map_none, Option.getD_none, String.append_empty]
      simp only [String.append_assoc]
    rw [heq]
    exact .nothing (each_append.mpr ⟨by decide, hclose⟩)
  | some c =>
    have heq : k.filter = "colorkey=" ++ (c.name ++ ("@" ++ (c.opacity.text
        ++ (":" ++ k.similarity.text ++ ":" ++ k.blend.text)))) := by
      rw [ColorKey.filter, hc, Option.map_some, Option.getD_some, Color.withAlpha]
      simp only [String.append_assoc]
    rw [heq]
    exact .name (by decide) (each_append.mpr ⟨filterText_binary64 _, hclose⟩)

theorem filterText_thickness (t : Thickness) : FilterText t.text := by
  cases t with
  | max => decide
  | pixels n => exact filterText_nat _

/-- The options of a box are written in a row, the color between those of its place and that of its time. -/
theorem exists_drawBox_eq (p : Placement) :
    ∃ front back, (∀ f ∈ front, FilterText f) ∧ (∀ f ∈ back, FilterText f)
      ∧ ∀ color : Option Color, drawBox p color = "drawbox=" ++ String.intercalate ":"
          (front ++ (color.map fun c => "color='" ++ c.text ++ "'").toList ++ back) := by
  have hplace : ∀ f ∈ (p.position.map fun q => ["x=" ++ toString q.x, "y=" ++ toString q.y]).getD [],
      FilterText f := by
    cases p.position with
    | none => exact List.forall_mem_nil _
    | some q =>
      exact List.forall_mem_cons.mpr ⟨each_append.mpr ⟨by decide, filterText_int q.x⟩,
        List.forall_mem_singleton.mpr (each_append.mpr ⟨by decide, filterText_int q.y⟩)⟩
  have hsize : ∀ f ∈ (p.dimension.map fun d => ["w=" ++ toString d.width, "h=" ++ toString d.height]).getD [],
      FilterText f := by
    cases p.dimension with
    | none => exact List.forall_mem_nil _
    | some d =>
      exact List.forall_mem_cons.mpr ⟨each_append.mpr ⟨by decide, filterText_int d.width⟩,
        List.forall_mem_singleton.mpr (each_append.mpr ⟨by decide, filterText_int d.height⟩)⟩
  have htime : ∀ f ∈ (p.timeRange.map TimeRange.enableClause).toList, FilterText f := by
    intro f hf
    obtain ⟨r, _, rfl⟩ := Option.map_eq_some_iff.mp (Option.mem_toList.mp hf)
    exact filterText_enableClause r
  refine ⟨_, _, List.forall_mem_append.mpr ⟨hplace, hsize⟩, htime, fun color => ?_⟩
  unfold drawBox
  cases p.position <;> cases p.dimension <;> cases color <;> rfl

/-- A box is written around its color. -/
theorem writtenAround_drawBox (p : Placement) (color : Option Color) : WrittenAround color (drawBox p color) := by
  obtain ⟨front, back, hfront, hback, hfilter⟩ := exists_drawBox_eq p
  rw [hfilter]
  cases color with
  | none =>
    refine .nothing (each_append.mpr ⟨by decide, each_intercalate (by decide) ?_⟩)
    rw [Option.map_none, Option.toList_none, List.append_nil]
    exact List.forall_mem_append.mpr ⟨hfront, hback⟩
  | some c =>
    have hcolon : FilterText ":" := by decide
    obtain ⟨before, after, hbefore, hafter, heq⟩ := exists_intercalate_eq hcolon hfront hback
    have hcolor : "drawbox=" ++ (before ++ ("color='" ++ c.text ++ "'" ++ after))
        = ("drawbox=" ++ before ++ "color='")
          ++ (c.name ++ ("@" ++ (c.opacity.text ++ ":t=" ++ c.thickness.text ++ "'" ++ after))) := by
      simp only [Color.text, Color.withAlpha, String.append_assoc]
    rw [Option.map_some, Option.toList_some, heq, hcolor]
    refine .name ?_ ?_
    · simp only [FilterText, each_append]
      exact ⟨⟨by decide, hbefore⟩, by decide⟩
    · simp only [FilterText, each_append]
      exact ⟨⟨⟨⟨filterText_binary64 _, by decide⟩, filterText_thickness _⟩, by decide⟩, hafter⟩

theorem WrittenAround.plain {color : Option Color} {s : String} (h : WrittenAround color s)
    (hname : ∀ c, color = some c → Plain c.name) : Plain s := by
  cases h with
  | nothing hown => exact plain_of_filterText hown
  | name hbefore hafter =>
    exact plain_append.mpr ⟨plain_of_filterText hbefore, plain_append.mpr ⟨hname _ rfl,
      plain_append.mpr ⟨by decide, plain_of_filterText hafter⟩⟩⟩

/-! ## Filters are not empty -/

theorem append_ne_empty {s : String} (h : s ≠ "") (t : String) : s ++ t ≠ "" :=
  fun he => h (String.append_eq_empty_iff.mp he).1

theorem intercalate_ne_empty {s : String} (h : s ≠ "") (sep : String) (l : List String) :
    String.intercalate sep (s :: l) ≠ "" := by
  cases l with
  | nil => rwa [String.intercalate_singleton]
  | cons t l =>
    rw [String.intercalate_cons_cons]
    exact append_ne_empty (append_ne_empty h sep) _

theorem scaleFilter_ne_empty (d : Option Dimension) : scaleFilter d ≠ "" := append_ne_empty (by decide) _

theorem sourceFilters_ne_empty (p : Placement) : p.sourceFilters ≠ "" := by
  rw [Placement.sourceFilters]
  split
  · exact intercalate_ne_empty (by decide) _ _
  · exact scaleFilter_ne_empty _

theorem overlayFilter_ne_empty (p : Placement) (still : Bool) : p.overlayFilter still ≠ "" :=
  append_ne_empty (append_ne_empty (append_ne_empty (by decide) _) _) _

theorem colorKey_ne_empty (k : ColorKey) : k.filter ≠ "" :=
  append_ne_empty (append_ne_empty (append_ne_empty (append_ne_empty (append_ne_empty (by decide) _) _) _) _) _

theorem drawBox_ne_empty (p : Placement) (color : Option Color) : drawBox p color ≠ "" :=
  append_ne_empty (by decide) _

end VideoOverlay
