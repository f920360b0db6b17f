import VideoOverlay.Proofs.Color.Thickness
import VideoOverlay.Proofs.Scene.Still

/-!
# `Proofs.Scene.Accept` — which entries of a scene are accepted

Whether an entry becomes an overlay of a session is decided in many places: the sides, the range and the color
are checked when they are made, the kind when its content is put together, the fades and the required fields
when the overlay is validated, and the color key once more when the session looks for room. `Entry.Fits` says
in one place, and in terms of the written fields only, what it all comes to: an entry is accepted exactly if it
fits, and one that does not fit leaves the session as it was (`accepts_iff_fits`).

Fields that a kind does not need are not looked at, however wrong they are. A picture may have an opacity of
two, since its color is never made.

## Contents
- `Color.exists_make_iff`, `TimeRange.exists_make_iff`, `Session.exists_insert_iff`: what can be made.
- `ThicknessEntry.Fits`, `Entry.ColorFits`, `Entry.SidesFit`, `Entry.TimeFits`, `Entry.FadesFit`,
  `Entry.KindFits`, `Entry.Fits`: good entries.
- `exists_colorOf_iff`, `exists_dimensionOf_iff`, `exists_timeRangeOf_iff`, `kindFits_of_contentOf`,
  `KindFits.exists_contentOf`: each part of an entry is made exactly if it is good.
- `Session.Accepts`, `Session.afterEntry`: registering what an entry describes, with `accepts_iff`.
- `Entry.SameNeeds`: what a kind does not need. `accepts_iff_fits`.
-/

namespace VideoOverlay

/-! ## What can be made -/

/-- What is made of a result is made exactly if there is a result. -/
theorem Except.map_eq_ok_iff {ε α β : Type} {f : α → β} {x : Except ε α} {b : β} :
    x.map f = .ok b ↔ ∃ a, x = .ok a ∧ f a = b := by
  cases x with
  | error v => simp [Except.map]
  | ok a => simp [Except.map]

/-- One step after another gives a result exactly if both do. -/
theorem Except.bind_eq_ok_iff {ε α β : Type} {f : α → Except ε β} {x : Except ε α} {b : β} :
    (x >>= f) = .ok b ↔ ∃ a, x = .ok a ∧ f a = .ok b := by
  cases x with
  | error v => simp [bind, Except.bind]
  | ok a => simp [bind, Except.bind]

theorem Color.exists_make_iff {name : String} {opacity : Binary64} {thickness : Thickness} :
    (∃ c, Color.make name opacity thickness = .ok c)
      ↔ Text.isBlankText name = false ∧ IsFraction opacity ∧ thickness ≠ .pixels 0 := by
  constructor
  · rintro ⟨c, hc⟩
    unfold Color.make at hc
    split at hc
    next hname =>
      split at hc
      next hopacity =>
        split at hc
        next hthickness => exact ⟨hname, hopacity, hthickness⟩
        next => cases hc
      next => cases hc
    next => cases hc
  · rintro ⟨hname, hopacity, hthickness⟩
    unfold Color.make
    rw [dif_pos hname, dif_pos hopacity, dif_pos hthickness]
    exact ⟨_, rfl⟩

theorem TimeRange.exists_make_iff {start finish : Binary64} :
    (∃ r, TimeRange.make start finish = .ok r)
      ↔ IsSeconds start ∧ finish.isFinite = true ∧ Binary64.lt start finish = true := by
  constructor
  · rintro ⟨r, hr⟩
    unfold TimeRange.make at hr
    split at hr
    next hstart =>
      split at hr
      next hfinish => exact ⟨hstart, hfinish⟩
      next => cases hr
    next => cases hr
  · rintro ⟨hstart, hfinish⟩
    unfold TimeRange.make
    rw [dif_pos hstart, dif_pos hfinish]
    exact ⟨_, rfl⟩

/-- A color key reads a file if one of its two is given. -/
theorem ColorKey.files_ne_nil_iff {k : ColorKey} :
    k.files ≠ [] ↔ k.imageFile ≠ none ∨ k.videoFile ≠ none := by
  unfold ColorKey.files
  cases k.imageFile with
  | none =>
    cases k.videoFile with
    | none => simp
    | some video => simp
  | some image => simp

/-- There is room for every overlay but a second color key. -/
theorem Session.exists_insert_iff {s : Session} {o : Overlay} :
    (∃ next, s.insert o = .ok next) ↔ ((∃ key, o.content = .colorKey key) → s.colorKey = none) := by
  cases hins : s.insert o with
  | error v =>
    obtain ⟨hkey, hsome, _⟩ := Session.insert_eq_error_iff.mp hins
    constructor
    · rintro ⟨next, hnext⟩
      cases hnext
    · intro h
      exact absurd (h hkey) hsome
  | ok next =>
    refine ⟨fun _ hkey => ?_, fun _ => ⟨next, rfl⟩⟩
    by_contra hsome
    rw [Session.insert_eq_error_iff.mpr ⟨hkey, hsome, rfl⟩] at hins
    cases hins

/-! ## Good entries -/

/-- A thickness is a number of pixels, at least one, or a text that is `max` or stands for such a number. -/
def ThicknessEntry.Fits : ThicknessEntry → Prop
  | .pixels count => 1 ≤ count.toNat
  | .named name => name = "max" ∨ ∃ n, WritesCount name n ∧ 0 < n ∧ n < UInt32.size

namespace Entry

variable {e : Entry} {s : Session}

/-- An entry names a good color: the name is not blank, the opacity is a fraction, four tenths if it is not given,
and the thickness is good. -/
structure ColorFits (e : Entry) : Prop where
  name : ∃ name, e.color = some name ∧ Text.isBlankText name = false
  opacity : IsFraction (e.opacity.getD (.ofRatio false 4 10))
  thickness : ∀ t, e.thickness = some t → t.Fits

/-- Each side that is given is a positive number of pixels, or -1 for the one that keeps the proportions. -/
def SidesFit (e : Entry) : Prop := ∀ n, e.width = some n ∨ e.height = some n → 0 < n ∨ n = -1

/-- A side is given. -/
def Sized (e : Entry) : Prop := e.width ≠ none ∨ e.height ≠ none

/-- Neither bound of the range is given, or its end is, and it starts at a finite number that is not negative,
zero if it is not given, and ends at a greater finite one. -/
inductive TimeFits (e : Entry) : Prop where
  | always (start : e.start = none) (finish : e.finish = none)
  | ranged {finish : Binary64} (given : e.finish = some finish) (finite : finish.isFinite = true)
      (startFinite : (e.start.getD .zero).isFinite = true)
      (startAtLeast : Binary64.le .zero (e.start.getD .zero) = true)
      (after : Binary64.lt (e.start.getD .zero) finish = true)

/-- Each fade that is given is a finite number of seconds that is not negative. -/
def FadesFit (e : Entry) : Prop :=
  ∀ x, e.fadeIn = some x ∨ e.fadeOut = some x → x.isFinite = true ∧ Binary64.le .zero x = true

/-- An entry has what its kind needs. A color key also needs a session that has none yet.

* `image`: a file and a size.
* `text`: a text that is not blank.
* `box`: a place, a size and a good color.
* `colorKey`: a file, a size, a good color, a similarity above zero and up to one, one hundredth if it is not
  given, and a blend from zero to one, zero if it is not given. -/
inductive KindFits (s : Session) (e : Entry) : Prop where
  | image (kind : e.kind = "image") (file : e.file ≠ none) (sized : e.Sized)
  | text (kind : e.kind = "text") {text : String} (given : e.text = some text)
      (notBlank : Text.isBlankText text = false)
  | box (kind : e.kind = "box") (placed : e.x ≠ none ∨ e.y ≠ none) (sized : e.Sized) (color : e.ColorFits)
  | colorKey (kind : e.kind = "colorkey" ∨ e.kind = "color_key")
      (file : e.imageFile ≠ none ∨ e.videoFile ≠ none) (sized : e.Sized) (color : e.ColorFits)
      (similarity : IsSimilarity (e.similarity.getD (.ofRatio false 1 100)))
      (blend : IsFraction (e.blend.getD .zero)) (first : s.colorKey = none)

/-- An entry fits a session. -/
structure Fits (s : Session) (e : Entry) : Prop where
  sides : e.SidesFit
  time : e.TimeFits
  fades : e.FadesFit
  kind : e.KindFits s

/-! ## Colors, sizes and ranges -/

/-- A thickness that is made is that of a border with a pixel. -/
theorem ne_pixels_zero_of_thicknessOf {t : Thickness} (h : e.thicknessOf = .ok t) : t ≠ .pixels 0 := by
  rintro rfl
  unfold thicknessOf at h
  split at h
  · cases h
  · obtain ⟨hpos, hcount⟩ := Thickness.ofPixels_eq_ok_iff.mp h
    cases hcount
    exact absurd hpos (by decide)
  · rcases Thickness.ofText_eq_ok_iff.mp h with ⟨_, ht⟩ | ⟨count, _, hpos, hcount⟩
    · cases ht
    · cases hcount
      exact absurd hpos (by decide)

theorem exists_thicknessOf_iff : (∃ t, e.thicknessOf = .ok t) ↔ ∀ t, e.thickness = some t → t.Fits := by
  unfold thicknessOf
  cases e.thickness with
  | none =>
    constructor
    · intro _ t ht
      cases ht
    · intro _
      exact ⟨.max, rfl⟩
  | some entry =>
    simp only [Option.some.injEq, forall_eq']
    cases entry with
    | pixels count =>
      simp only [Thickness.ofPixels_eq_ok_iff, ThicknessEntry.Fits, exists_and_left, exists_eq, and_true]
    | named name =>
      simp only [Thickness.ofText_eq_ok_iff, ThicknessEntry.Fits]
      constructor
      · rintro ⟨t, ⟨hmax, _⟩ | ⟨count, hcount, hpos, _⟩⟩
        · exact .inl hmax
        · exact .inr ⟨count.toNat, hcount, hpos, count.toNat_lt⟩
      · rintro (hmax | ⟨n, hn, hpos, hlt⟩)
        · exact ⟨.max, .inl ⟨hmax, rfl⟩⟩
        · have hcount : (UInt32.ofNatLT n hlt).toNat = n := UInt32.toNat_ofNatLT
          refine ⟨_, .inr ⟨.ofNatLT n hlt, ?_, ?_, rfl⟩⟩
          · rwa [hcount]
          · rwa [hcount]

/-- A color that is named is made of the thickness that is made first. -/
theorem colorOf_eq_ok_iff {name : String} (hname : e.color = some name) {c : Color} :
    e.colorOf = .ok (some c)
      ↔ ∃ t, e.thicknessOf = .ok t ∧ Color.make name (e.opacity.getD (.ofRatio false 4 10)) t = .ok c := by
  unfold colorOf
  rw [hname]
  show (e.thicknessOf >>= fun t => Color.make name (e.opacity.getD (.ofRatio false 4 10)) t
    >>= fun color => .ok (some color)) = _ ↔ _
  simp only [Except.bind_eq_ok_iff, Except.ok.injEq, Option.some.injEq, exists_eq_right]

/-- **An entry has a color exactly if it names a good one.** -/
theorem exists_colorOf_iff : (∃ c, e.colorOf = .ok (some c)) ↔ e.ColorFits := by
  constructor
  · rintro ⟨c, hc⟩
    cases hname : e.color with
    | none =>
      rw [colorOf, hname] at hc
      cases hc
    | some name =>
      obtain ⟨t, ht, hmake⟩ := (colorOf_eq_ok_iff hname).mp hc
      obtain ⟨hgiven, hopacity, _⟩ := Color.exists_make_iff.mp ⟨c, hmake⟩
      exact ⟨⟨name, hname, hgiven⟩, hopacity, exists_thicknessOf_iff.mp ⟨t, ht⟩⟩
  · rintro ⟨⟨name, hname, hgiven⟩, hopacity, hfits⟩
    obtain ⟨t, ht⟩ := exists_thicknessOf_iff.mpr hfits
    -- The color looks at its thickness again, and finds nothing that was not found when the thickness was made.
    obtain ⟨c, hc⟩ := Color.exists_make_iff.mpr ⟨hgiven, hopacity, ne_pixels_zero_of_thicknessOf ht⟩
    exact ⟨c, (colorOf_eq_ok_iff hname).mpr ⟨t, ht, hc⟩⟩

/-- A side that is not given keeps the proportions, and that is always good. -/
theorem isSide_getD_keepAspect {side : Option Int} :
    IsSide (side.getD keepAspect) ↔ ∀ n, side = some n → 0 < n ∨ n = -1 := by
  cases side with
  | none =>
    constructor
    · intro _ n hn
      cases hn
    · intro _
      exact .inr rfl
  | some n =>
    simp only [Option.getD_some, Option.some.injEq, forall_eq']
    rfl

theorem exists_dimensionOf_iff : (∃ d, e.dimensionOf = .ok d) ↔ e.SidesFit := by
  have hsides : e.SidesFit ↔ IsSide (e.width.getD keepAspect) ∧ IsSide (e.height.getD keepAspect) := by
    rw [isSide_getD_keepAspect, isSide_getD_keepAspect]
    exact ⟨fun h => ⟨fun n hn => h n (.inl hn), fun n hn => h n (.inr hn)⟩,
      fun h n hn => hn.elim (h.1 n) (h.2 n)⟩
  rw [hsides]
  unfold dimensionOf
  split
  · constructor
    · rintro ⟨d, hd⟩
      obtain ⟨dimension, hmake, _⟩ := Except.map_eq_ok_iff.mp hd
      obtain ⟨hwidth, hheight⟩ := Dimension.make_eq_ok_iff.mp hmake
      rw [← hwidth, ← hheight]
      exact ⟨dimension.width_isSide, dimension.height_isSide⟩
    · rintro ⟨hwidth, hheight⟩
      exact ⟨some ⟨_, _, hwidth, hheight⟩,
        Except.map_eq_ok_iff.mpr ⟨_, Dimension.make_eq_ok_iff.mpr ⟨rfl, rfl⟩, rfl⟩⟩
  next hnone =>
    simp only [Bool.or_eq_true, Option.isSome_iff_ne_none, not_or, not_not] at hnone
    rw [hnone.1, hnone.2]
    exact ⟨fun _ => ⟨.inr rfl, .inr rfl⟩, fun _ => ⟨none, rfl⟩⟩

/-- An entry has a size if a side is given. -/
theorem dimensionOf_ne_none_iff {d : Option Dimension} (h : e.dimensionOf = .ok d) : d ≠ none ↔ e.Sized := by
  unfold dimensionOf at h
  split at h
  next hsome =>
    simp only [Bool.or_eq_true, Option.isSome_iff_ne_none] at hsome
    obtain ⟨dimension, _, rfl⟩ := Except.map_eq_ok_iff.mp h
    exact ⟨fun _ => hsome, fun _ => Option.some_ne_none dimension⟩
  next hnone =>
    cases h
    simp only [Bool.or_eq_true, Option.isSome_iff_ne_none] at hnone
    exact ⟨fun hd => absurd rfl hd, fun hsized => absurd hsized hnone⟩

/-- An entry has a position if a coordinate is given. -/
theorem positionOf_ne_none_iff : e.positionOf ≠ none ↔ e.x ≠ none ∨ e.y ≠ none := by
  unfold positionOf
  cases e.x with
  | none =>
    cases e.y with
    | none => simp
    | some y => simp
  | some x => simp

theorem exists_timeRangeOf_iff : (∃ r, e.timeRangeOf = .ok r) ↔ e.TimeFits := by
  cases hfinish : e.finish with
  | none =>
    constructor
    · rintro ⟨r, hr⟩
      cases hstart : e.start with
      | none => exact .always hstart hfinish
      | some start =>
        rw [timeRangeOf, hstart, hfinish] at hr
        cases hr
    · intro h
      cases h with
      | always start _ =>
        refine ⟨none, ?_⟩
        rw [timeRangeOf, start, hfinish]
      | ranged given =>
        rw [hfinish] at given
        cases given
  | some finish =>
    have hmap : (∃ r, e.timeRangeOf = .ok r) ↔ ∃ r, TimeRange.make (e.start.getD .zero) finish = .ok r := by
      have hrange : e.timeRangeOf = (TimeRange.make (e.start.getD .zero) finish).map some := by
        simp only [timeRangeOf, hfinish]
      simp only [hrange, Except.map_eq_ok_iff]
      exact ⟨fun ⟨_, r, hr, _⟩ => ⟨r, hr⟩, fun ⟨r, hr⟩ => ⟨some r, r, hr, rfl⟩⟩
    rw [hmap, TimeRange.exists_make_iff, isSeconds_iff]
    constructor
    · rintro ⟨⟨hfinite, hatLeast⟩, hend, hlt⟩
      exact .ranged hfinish hend hfinite hatLeast hlt
    · intro h
      cases h with
      | always _ none =>
        rw [hfinish] at none
        cases none
      | ranged given finite startFinite startAtLeast after =>
        rw [hfinish] at given
        cases given
        exact ⟨⟨startFinite, startAtLeast⟩, finite, after⟩

/-! ## What an entry shows -/

theorem contentOf_of_text (h : e.kind = "text") : e.contentOf = .ok (.text (e.text.getD "")) := by
  rw [contentOf, if_neg (by rw [h]; decide), if_pos h]

theorem contentOf_of_box (h : e.kind = "box") : e.contentOf = e.colorOf.map .box := by
  rw [contentOf, if_neg (by rw [h]; decide), if_neg (by rw [h]; decide), if_pos h]

theorem contentOf_of_colorKey (h : e.kind = "colorkey" ∨ e.kind = "color_key") :
    e.contentOf = e.colorOf.map fun color => .colorKey ⟨color, e.imageFile, e.videoFile,
      e.similarity.getD (.ofRatio false 1 100), e.blend.getD .zero⟩ := by
  have hother : e.kind ≠ "image" ∧ e.kind ≠ "text" ∧ e.kind ≠ "box" := by
    rcases h with h | h
    · rw [h]
      decide
    · rw [h]
      decide
  rw [contentOf, if_neg hother.1, if_neg hother.2.1, if_neg hother.2.2, if_pos h]

/-- **What an entry shows is complete and has room only if the entry has what its kind needs.** The case split is
on the kind that is written, since only what is made of it is known. -/
theorem kindFits_of_contentOf {p : Placement} (hposition : p.position = e.positionOf)
    (hdimension : p.dimension ≠ none ↔ e.Sized) {content : Content} (hcontent : e.contentOf = .ok content)
    (hcomplete : content.Complete p) {next : Session} (hroom : s.insert ⟨p, content⟩ = .ok next) :
    e.KindFits s := by
  have hfirst := Session.exists_insert_iff.mp ⟨next, hroom⟩
  by_cases himage : e.kind = "image"
  · rw [contentOf_of_image himage] at hcontent
    cases hcontent
    exact .image himage hcomplete.1 (hdimension.mp hcomplete.2)
  by_cases htext : e.kind = "text"
  · rw [contentOf_of_text htext] at hcontent
    cases hcontent
    cases hgiven : e.text with
    | none =>
      -- A text that is not given is read as the empty one, which is blank.
      rw [hgiven] at hcomplete
      cases hcomplete
    | some text =>
      rw [hgiven] at hcomplete
      exact .text htext hgiven hcomplete
  by_cases hbox : e.kind = "box"
  · rw [contentOf_of_box hbox] at hcontent
    obtain ⟨color, hcolor, rfl⟩ := Except.map_eq_ok_iff.mp hcontent
    obtain ⟨c, rfl⟩ := Option.ne_none_iff_exists'.mp hcomplete.color
    have hplaced := hcomplete.position
    rw [hposition, positionOf_ne_none_iff] at hplaced
    exact .box hbox hplaced (hdimension.mp hcomplete.dimension) (exists_colorOf_iff.mp ⟨c, hcolor⟩)
  by_cases hkey : e.kind = "colorkey" ∨ e.kind = "color_key"
  · rw [contentOf_of_colorKey hkey] at hcontent
    obtain ⟨color, hcolor, rfl⟩ := Except.map_eq_ok_iff.mp hcontent
    obtain ⟨c, rfl⟩ := Option.ne_none_iff_exists'.mp hcomplete.color
    exact .colorKey hkey (ColorKey.files_ne_nil_iff.mp hcomplete.files) (hdimension.mp hcomplete.dimension)
      (exists_colorOf_iff.mp ⟨c, hcolor⟩) hcomplete.similarity hcomplete.blend (hfirst ⟨_, rfl⟩)
  · rw [contentOf, if_neg himage, if_neg htext, if_neg hbox, if_neg hkey] at hcontent
    cases hcontent

/-- **An entry that has what its kind needs shows something complete, and there is room for it.** -/
theorem KindFits.exists_contentOf {p : Placement} (hposition : p.position = e.positionOf)
    (hdimension : p.dimension ≠ none ↔ e.Sized) (h : e.KindFits s) :
    ∃ content, e.contentOf = .ok content ∧ content.Complete p
      ∧ ∃ next, s.insert ⟨p, content⟩ = .ok next := by
  simp only [Session.exists_insert_iff]
  cases h with
  | image kind file sized =>
    refine ⟨_, contentOf_of_image kind, ⟨file, hdimension.mpr sized⟩, ?_⟩
    rintro ⟨key, hkey⟩
    cases hkey
  | text kind given notBlank =>
    refine ⟨_, contentOf_of_text kind, ?_, ?_⟩
    · rw [given]
      exact notBlank
    · rintro ⟨key, hkey⟩
      cases hkey
  | box kind placed sized color =>
    obtain ⟨c, hc⟩ := exists_colorOf_iff.mpr color
    rw [← positionOf_ne_none_iff, ← hposition] at placed
    refine ⟨.box (some c), ?_, ⟨Option.some_ne_none c, hdimension.mpr sized, placed⟩, ?_⟩
    · rw [contentOf_of_box kind, hc]
      rfl
    · rintro ⟨key, hkey⟩
      cases hkey
  | colorKey kind file sized color similarity blend first =>
    obtain ⟨c, hc⟩ := exists_colorOf_iff.mpr color
    refine ⟨.colorKey ⟨some c, e.imageFile, e.videoFile, e.similarity.getD (.ofRatio false 1 100),
      e.blend.getD .zero⟩, ?_, ?_, fun _ => first⟩
    · rw [contentOf_of_colorKey kind, hc]
      rfl
    · exact ⟨ColorKey.files_ne_nil_iff.mpr file, hdimension.mpr sized, Option.some_ne_none c, similarity, blend⟩

end Entry

/-! ## Sessions -/

namespace Session

variable {s : Session} {e : Entry}

/-- An entry describes an overlay, and the session accepts it. -/
def Accepts (s : Session) (e : Entry) : Prop := ∃ o next, e.toOverlay = .ok o ∧ s.register o = .ok next

/-- The session after an entry. One that describes no overlay, or one that is rejected, leaves it as it was. -/
def afterEntry (s : Session) (e : Entry) : Session :=
  match e.toOverlay with
  | .ok o => s.afterOffer (.one o)
  | .error _ => s

/-- **A session accepts exactly the entries that fit.** -/
theorem accepts_iff : s.Accepts e ↔ e.Fits s := by
  constructor
  · rintro ⟨o, next, ho, hnext⟩
    obtain ⟨content, dimension, timeRange, hcontent, hdimension, htimeRange, rfl⟩ :=
      Entry.toOverlay_eq_ok_iff.mp ho
    obtain ⟨hvalid, hinsert⟩ := register_eq_ok_iff.mp hnext
    obtain ⟨hfades, hcomplete⟩ := Overlay.validate_eq_ok_iff.mp hvalid
    exact {
      sides := Entry.exists_dimensionOf_iff.mp ⟨dimension, hdimension⟩
      time := Entry.exists_timeRangeOf_iff.mp ⟨timeRange, htimeRange⟩
      fades := hfades
      kind := Entry.kindFits_of_contentOf rfl (Entry.dimensionOf_ne_none_iff hdimension) hcontent hcomplete hinsert }
  · intro h
    obtain ⟨dimension, hdimension⟩ := Entry.exists_dimensionOf_iff.mpr h.sides
    obtain ⟨timeRange, htimeRange⟩ := Entry.exists_timeRangeOf_iff.mpr h.time
    let p : Placement := ⟨e.positionOf, dimension, timeRange, e.fadeIn, e.fadeOut, e.layer.getD 0⟩
    obtain ⟨content, hcontent, hcomplete, next, hinsert⟩ :=
      h.kind.exists_contentOf (p := p) rfl (Entry.dimensionOf_ne_none_iff hdimension)
    have hvalid : Overlay.validate ⟨p, content⟩ = .ok () := Overlay.validate_eq_ok_iff.mpr ⟨h.fades, hcomplete⟩
    exact ⟨⟨p, content⟩, next,
      Entry.toOverlay_eq_ok_iff.mpr ⟨content, dimension, timeRange, hcontent, hdimension, htimeRange, rfl⟩,
      register_eq_ok_iff.mpr ⟨hvalid, hinsert⟩⟩

/-- An entry that is not accepted leaves the session as it was. -/
theorem afterEntry_of_not_accepts (h : ¬s.Accepts e) : s.afterEntry e = s := by
  unfold afterEntry
  cases ho : e.toOverlay with
  | error v => rfl
  | ok o =>
    cases hnext : s.register o with
    | error v => simp only [afterOffer, hnext]
    | ok next => exact absurd ⟨o, next, ho, hnext⟩ h

theorem afterEntry_of_register {o : Overlay} {next : Session} (ho : e.toOverlay = .ok o)
    (hnext : s.register o = .ok next) : s.afterEntry e = next := by
  simp only [afterEntry, ho, afterOffer, hnext]

end Session

/-! ## What a kind does not need -/

/-- The kinds with a color. -/
def kindsWithColor : List String := ["box", "colorkey", "color_key"]

/-- The kinds of color keys. -/
def kindsOfKeys : List String := ["colorkey", "color_key"]

namespace Entry

variable {s : Session} {e e' : Entry}

/-- Both entries are of one kind and agree in all that decides whether an entry of this kind is accepted. -/
structure SameNeeds (e e' : Entry) : Prop where
  kind : e.kind = e'.kind
  width : e.width = e'.width
  height : e.height = e'.height
  start : e.start = e'.start
  finish : e.finish = e'.finish
  fadeIn : e.fadeIn = e'.fadeIn
  fadeOut : e.fadeOut = e'.fadeOut
  file : e.kind = "image" → e.file = e'.file
  text : e.kind = "text" → e.text = e'.text
  place : e.kind = "box" → e.x = e'.x ∧ e.y = e'.y
  color : e.kind ∈ kindsWithColor → e.color = e'.color ∧ e.opacity = e'.opacity ∧ e.thickness = e'.thickness
  key : e.kind ∈ kindsOfKeys → e.imageFile = e'.imageFile ∧ e.videoFile = e'.videoFile
    ∧ e.similarity = e'.similarity ∧ e.blend = e'.blend

theorem SameNeeds.symm (h : e.SameNeeds e') : e'.SameNeeds e where
  kind := h.kind.symm
  width := h.width.symm
  height := h.height.symm
  start := h.start.symm
  finish := h.finish.symm
  fadeIn := h.fadeIn.symm
  fadeOut := h.fadeOut.symm
  file hk := (h.file (h.kind ▸ hk)).symm
  text hk := (h.text (h.kind ▸ hk)).symm
  place hk := ⟨(h.place (h.kind ▸ hk)).1.symm, (h.place (h.kind ▸ hk)).2.symm⟩
  color hk :=
    have hsame := h.color (h.kind ▸ hk)
    ⟨hsame.1.symm, hsame.2.1.symm, hsame.2.2.symm⟩
  key hk :=
    have hsame := h.key (h.kind ▸ hk)
    ⟨hsame.1.symm, hsame.2.1.symm, hsame.2.2.1.symm, hsame.2.2.2.symm⟩

theorem SameNeeds.sized (h : e.SameNeeds e') (hsized : e.Sized) : e'.Sized := by
  rwa [Sized, ← h.width, ← h.height]

theorem SameNeeds.colorFits (h : e.SameNeeds e') (hkind : e.kind ∈ kindsWithColor) (hcolor : e.ColorFits) :
    e'.ColorFits := by
  obtain ⟨hname, hopacity, hthickness⟩ := h.color hkind
  exact ⟨hname ▸ hcolor.name, hopacity ▸ hcolor.opacity, hthickness ▸ hcolor.thickness⟩

theorem SameNeeds.timeFits (h : e.SameNeeds e') (htime : e.TimeFits) : e'.TimeFits := by
  cases htime with
  | always start finish => exact .always (h.start ▸ start) (h.finish ▸ finish)
  | ranged given finite startFinite startAtLeast after =>
    rw [h.start] at startFinite startAtLeast after
    exact .ranged (h.finish ▸ given) finite startFinite startAtLeast after

theorem SameNeeds.kindFits (h : e.SameNeeds e') (hkind : e.KindFits s) : e'.KindFits s := by
  cases hkind with
  | image kind file sized =>
    rw [h.file kind] at file
    exact .image (h.kind ▸ kind) file (h.sized sized)
  | text kind given notBlank =>
    rw [h.text kind] at given
    exact .text (h.kind ▸ kind) given notBlank
  | box kind placed sized color =>
    rw [(h.place kind).1, (h.place kind).2] at placed
    exact .box (h.kind ▸ kind) placed (h.sized sized) (h.colorFits (by rw [kind]; decide) color)
  | colorKey kind file sized color similarity blend first =>
    have hmem : e.kind ∈ kindsOfKeys := by
      rcases kind with hk | hk
      · rw [hk]
        decide
      · rw [hk]
        decide
    obtain ⟨himage, hvideo, hsimilarity, hblend⟩ := h.key hmem
    rw [himage, hvideo] at file
    rw [hsimilarity] at similarity
    rw [hblend] at blend
    have hcolor := h.colorFits (List.mem_cons_of_mem _ hmem) color
    exact .colorKey (h.kind ▸ kind) file (h.sized sized) hcolor similarity blend first

theorem SameNeeds.fits (h : e.SameNeeds e') (hfits : e.Fits s) : e'.Fits s where
  sides := by
    rw [SidesFit, ← h.width, ← h.height]
    exact hfits.sides
  time := h.timeFits hfits.time
  fades := by
    rw [FadesFit, ← h.fadeIn, ← h.fadeOut]
    exact hfits.fades
  kind := h.kindFits hfits.kind

end Entry

/-! ## Acceptance -/

/-- **What is accepted.** A session accepts an entry exactly if the entry fits, and then it goes on with the overlay;
otherwise it stays as it was. Two entries of one kind that agree in all this kind needs are accepted both or
neither: no other field is looked at. -/
theorem Session.accepts_iff_fits (s : Session) (e : Entry) :
    (s.Accepts e ↔ e.Fits s)
      ∧ (∀ o next, e.toOverlay = .ok o → s.register o = .ok next → s.afterEntry e = next)
      ∧ (¬e.Fits s → s.afterEntry e = s)
      ∧ ∀ e' : Entry, e.SameNeeds e' → (s.Accepts e ↔ s.Accepts e') := by
  refine ⟨accepts_iff, fun o next => afterEntry_of_register, fun h => ?_, fun e' h => ?_⟩
  · exact afterEntry_of_not_accepts (mt accepts_iff.mp h)
  · rw [accepts_iff, accepts_iff]
    exact ⟨h.fits, h.symm.fits⟩

end VideoOverlay
