import VideoOverlay.Proofs.Graph.Check
import VideoOverlay.Proofs.Session.Run

/-!
# `Proofs.Graph.DrawnAlike` — what a graph does not depend on

All kinds of overlays share one placement, and each kind reads a part of it. A text reads nothing of it, a box
does not fade, a color key only has a size, and its color has no border. No kind reads the layer. Two overlays
that differ in such fields only are *drawn alike*, and this module shows that the graph cannot tell them apart:
if two histories of registrations go along with overlays drawn alike, and the same ones are accepted, then both
sessions compile to the same graph, or are refused for the same reason (`compile_run_eq_of_drawnAlike`).

What the histories have in common on the way is `Session.SameFilters`: the filters that each kind is drawn with,
and the files. One registration keeps it, and the graph is made from it.

## Contents
- `SameFade`, `ColorKey.KeyedAlike`, `Overlay.DrawnAlike`, `Offer.DrawnAlike`.
- `Session.verdictsOf`, `Session.verdicts`: which overlays are accepted.
- `Session.SameFilters`: `register_sameFilters` for one overlay, `run_sameFilters` for a history.
- `segments_eq_of_sameFilters`, `compile_run_eq_of_drawnAlike`.
-/

namespace VideoOverlay

/-! ## Overlays drawn alike -/

/-- No fade: none is given, or one of zero seconds. -/
def IsNoFade (fade : Option Binary64) : Prop := ∀ seconds, fade = some seconds → Binary64.eq seconds .zero = true

/-- Both fades are the same, or neither is a fade. -/
def SameFade (a b : Option Binary64) : Prop := a = b ∨ (IsNoFade a ∧ IsNoFade b)

/-- Both keys are the same but for the borders of their colors. -/
structure ColorKey.KeyedAlike (k k' : ColorKey) : Prop where
  color : k.color.map (fun c => (c.name, c.opacity)) = k'.color.map fun c => (c.name, c.opacity)
  imageFile : k.imageFile = k'.imageFile
  videoFile : k.videoFile = k'.videoFile
  similarity : k.similarity = k'.similarity
  blend : k.blend = k'.blend

/-- Both overlays are of one kind, and differ in fields only that are not drawn for that kind. The layer is never
drawn. -/
inductive Overlay.DrawnAlike : Overlay → Overlay → Prop where
  | picture {p p' : Placement} (shown : Picture) (position : p.position = p'.position)
      (dimension : p.dimension = p'.dimension) (timeRange : p.timeRange = p'.timeRange)
      (fadeIn : SameFade p.fadeIn p'.fadeIn) (fadeOut : SameFade p.fadeOut p'.fadeOut) :
    DrawnAlike ⟨p, .picture shown⟩ ⟨p', .picture shown⟩
  | text (p p' : Placement) (fragment : String) : DrawnAlike ⟨p, .text fragment⟩ ⟨p', .text fragment⟩
  | box {p p' : Placement} (color : Option Color) (position : p.position = p'.position)
      (dimension : p.dimension = p'.dimension) (timeRange : p.timeRange = p'.timeRange) :
    DrawnAlike ⟨p, .box color⟩ ⟨p', .box color⟩
  | colorKey {p p' : Placement} {key key' : ColorKey} (dimension : p.dimension = p'.dimension)
      (keyed : key.KeyedAlike key') : DrawnAlike ⟨p, .colorKey key⟩ ⟨p', .colorKey key'⟩

/-- Both offers are of overlays drawn alike, one by one. -/
inductive Offer.DrawnAlike : Offer → Offer → Prop where
  | one {o o' : Overlay} (alike : Overlay.DrawnAlike o o') : DrawnAlike (.one o) (.one o')
  | many {os os' : List Overlay} (alike : List.Forall₂ Overlay.DrawnAlike os os') :
    DrawnAlike (.many os) (.many os')

/-! ## The filters of overlays drawn alike -/

/-- A length of zero is not that of a fade. -/
theorem IsNoFade.filter_isFade {fade : Option Binary64} (h : IsNoFade fade) :
    fade.filter Placement.isFade = none := by
  cases fade with
  | none => rfl
  | some seconds =>
    have hzero := h seconds rfl
    rw [Binary64.eq, Bool.and_eq_true] at hzero
    rw [Option.filter_some, Placement.isFade, if_neg]
    intro hlt
    rw [Binary64.lt_iff, hzero.1] at hlt
    exact absurd hlt.2 (by simp)

theorem SameFade.filter_isFade {a b : Option Binary64} (h : SameFade a b) :
    a.filter Placement.isFade = b.filter Placement.isFade := by
  rcases h with rfl | ⟨ha, hb⟩
  · rfl
  · rw [ha.filter_isFade, hb.filter_isFade]

/-- A picture goes through the same filters if its size, its range and its fades are the same. -/
theorem sourceFilters_congr {p p' : Placement} (hdimension : p.dimension = p'.dimension)
    (htimeRange : p.timeRange = p'.timeRange) (hfadeIn : SameFade p.fadeIn p'.fadeIn)
    (hfadeOut : SameFade p.fadeOut p'.fadeOut) : p.sourceFilters = p'.sourceFilters := by
  have hin : p.fadeInLength = p'.fadeInLength := hfadeIn.filter_isFade
  have hout : p.fadeOutLength = p'.fadeOutLength := hfadeOut.filter_isFade
  unfold Placement.sourceFilters Placement.hasFade
  rw [hin, hout, hdimension, htimeRange]

theorem overlayFilter_congr {p p' : Placement} (hposition : p.position = p'.position)
    (htimeRange : p.timeRange = p'.timeRange) (still : Bool) : p.overlayFilter still = p'.overlayFilter still := by
  simp only [Placement.overlayFilter, hposition, htimeRange]

theorem drawBox_congr {p p' : Placement} (hposition : p.position = p'.position)
    (hdimension : p.dimension = p'.dimension) (htimeRange : p.timeRange = p'.timeRange) (color : Option Color) :
    drawBox p color = drawBox p' color := by
  simp only [drawBox, hposition, hdimension, htimeRange]

namespace ColorKey.KeyedAlike

variable {k k' : ColorKey}

theorem filter_eq (h : k.KeyedAlike k') : k.filter = k'.filter := by
  -- The color goes into the filter by its name and its opacity.
  have halpha : ∀ color : Option Color, color.map Color.withAlpha
      = (color.map fun c => (c.name, c.opacity)).map fun c => c.1 ++ "@" ++ c.2.text := by
    intro color
    cases color <;> rfl
  simp only [ColorKey.filter, halpha, h.color, h.similarity, h.blend]

theorem files_eq (h : k.KeyedAlike k') : k.files = k'.files := by
  simp only [ColorKey.files, h.imageFile, h.videoFile]

end ColorKey.KeyedAlike

namespace Session

/-! ## What is accepted -/

/-- Whether each overlay of a list is accepted, up to the first that is not. -/
def verdictsOf (s : Session) : List Overlay → List Bool
  | [] => []
  | o :: os =>
    match s.register o with
    | .ok next => true :: next.verdictsOf os
    | .error _ => [false]

/-- Whether each overlay of an offer is accepted. -/
def verdictsBy (s : Session) : Offer → List Bool
  | .one o => s.verdictsOf [o]
  | .many os => s.verdictsOf os

/-- Whether each overlay is accepted, offer by offer. -/
def verdicts (s : Session) : List Offer → List (List Bool)
  | [] => []
  | offer :: offers => s.verdictsBy offer :: (s.afterOffer offer).verdicts offers

/-! ## Sessions with the same filters -/

/-- The filters that a color key is drawn with, and its files. -/
def keyFilters (k : Placed ColorKey) : String × String × List String :=
  (k.content.filter, scaleFilter k.placement.dimension, k.content.files)

/-- The filters that a picture is drawn with. -/
def pictureFilters (p : Placed Picture) : String × String :=
  (p.placement.sourceFilters, p.placement.overlayFilter p.content.still)

/-- The filter that a box is drawn with. -/
def boxFilter (b : Placed (Option Color)) : String := drawBox b.placement b.content

/-- Both sessions have the same filters for each kind, in the same order, and the same files. -/
structure SameFilters (s s' : Session) : Prop where
  colorKey : s.colorKey.map keyFilters = s'.colorKey.map keyFilters
  pictures : s.pictures.map pictureFilters = s'.pictures.map pictureFilters
  texts : s.texts.map Placed.content = s'.texts.map Placed.content
  boxes : s.boxes.map boxFilter = s'.boxes.map boxFilter
  inputs : s.inputs = s'.inputs

variable {s s' next next' : Session} {o o' : Overlay}

theorem SameFilters.refl (s : Session) : s.SameFilters s := ⟨rfl, rfl, rfl, rfl, rfl⟩

/-- **One registration** of overlays drawn alike keeps the filters the same, if it succeeds for both. -/
theorem register_sameFilters (h : s.SameFilters s') (ho : o.DrawnAlike o') (hok : s.register o = .ok next)
    (hok' : s'.register o' = .ok next') : next.SameFilters next' := by
  obtain ⟨_, hins⟩ := register_eq_ok_iff.mp hok
  obtain ⟨_, hins'⟩ := register_eq_ok_iff.mp hok'
  cases ho with
  | picture shown hposition hdimension htimeRange hfadeIn hfadeOut =>
    cases hins
    cases hins'
    refine ⟨h.colorKey, ?_, h.texts, h.boxes, ?_⟩
    · simp only [List.map_append, List.map_singleton, h.pictures, pictureFilters,
        sourceFilters_congr hdimension htimeRange hfadeIn hfadeOut, overlayFilter_congr hposition htimeRange]
    · simp only [h.inputs]
  | text p p' fragment =>
    cases hins
    cases hins'
    refine ⟨h.colorKey, h.pictures, ?_, h.boxes, h.inputs⟩
    simp only [List.map_append, List.map_singleton, h.texts]
  | box color hposition hdimension htimeRange =>
    cases hins
    cases hins'
    refine ⟨h.colorKey, h.pictures, h.texts, ?_, h.inputs⟩
    simp only [List.map_append, List.map_singleton, h.boxes, boxFilter,
      drawBox_congr hposition hdimension htimeRange]
  | colorKey hdimension hkeyed =>
    simp only [insert] at hins hins'
    split at hins
    next => cases hins
    next =>
      split at hins'
      next => cases hins'
      next =>
        cases hins
        cases hins'
        refine ⟨?_, h.pictures, h.texts, h.boxes, ?_⟩
        · simp only [Option.map_some, keyFilters, hkeyed.filter_eq, hkeyed.files_eq, hdimension]
        · simp only [hkeyed.files_eq, h.inputs]

/-- Registering lists of overlays drawn alike, of which the same are accepted. -/
theorem registerAll_sameFilters {os os' : List Overlay} (h : s.SameFilters s')
    (hos : List.Forall₂ Overlay.DrawnAlike os os') (hv : s.verdictsOf os = s'.verdictsOf os') :
    (s.registerAll os).1.SameFilters (s'.registerAll os').1 := by
  induction hos generalizing s s' with
  | nil => exact h
  | @cons o o' os os' ho _ ih =>
    -- Both lists stop here, or both go on from sessions with the same filters.
    simp only [verdictsOf, registerAll] at hv ⊢
    cases hok : s.register o with
    | error e =>
      cases hok' : s'.register o' with
      | error e' => exact h
      | ok next' => simp [hok, hok'] at hv
    | ok next =>
      cases hok' : s'.register o' with
      | error e' => simp [hok, hok'] at hv
      | ok next' =>
        simp only [hok, hok', List.cons.injEq, true_and] at hv
        exact ih (register_sameFilters h ho hok hok') hv

/-- A single overlay is a list of one. -/
theorem afterOffer_one (s : Session) (o : Overlay) : s.afterOffer (.one o) = (s.registerAll [o]).1 := by
  simp only [afterOffer, registerAll]
  cases s.register o <;> rfl

/-- **One offer** of overlays drawn alike keeps the filters the same, if the same overlays are accepted. -/
theorem afterOffer_sameFilters {offer offer' : Offer} (h : s.SameFilters s') (ho : offer.DrawnAlike offer')
    (hv : s.verdictsBy offer = s'.verdictsBy offer') : (s.afterOffer offer).SameFilters (s'.afterOffer offer') := by
  cases ho with
  | one ho =>
    rw [afterOffer_one, afterOffer_one]
    exact registerAll_sameFilters h (.cons ho .nil) hv
  | many hos => exact registerAll_sameFilters h hos hv

/-- **A history** of offers keeps the filters the same. -/
theorem run_sameFilters {offers offers' : List Offer} (h : s.SameFilters s')
    (ho : List.Forall₂ Offer.DrawnAlike offers offers') (hv : s.verdicts offers = s'.verdicts offers') :
    (s.run offers).SameFilters (s'.run offers') := by
  induction ho generalizing s s' with
  | nil => exact h
  | cons hoffer _ ih =>
    simp only [verdicts, List.cons.injEq] at hv
    exact ih (afterOffer_sameFilters h hoffer hv.1) hv.2

/-! ## The graph is made from the filters -/

/-- Lists that are made into the same one are empty at the same time. -/
theorem isEmpty_congr {α β : Type} {f : α → β} {l l' : List α} (h : l.map f = l'.map f) :
    l.isEmpty = l'.isEmpty := by
  rw [← List.isEmpty_map (f := f), h, List.isEmpty_map]

theorem pictureSegments_congr {ps ps' : List (Placed Picture)} (h : ps.map pictureFilters = ps'.map pictureFilters)
    (followed : Bool) (input stage : Nat) :
    pictureSegments followed input stage ps = pictureSegments followed input stage ps' := by
  induction ps generalizing ps' input stage with
  | nil =>
    rw [List.map_eq_nil_iff.mp h.symm]
  | cons p ps ih =>
    cases ps' with
    | nil => cases h
    | cons p' ps' =>
      obtain ⟨hp, hps⟩ := List.cons.inj h
      obtain ⟨hsource, hoverlay⟩ := Prod.mk.inj hp
      simp only [pictureSegments, hsource, hoverlay, isEmpty_congr hps, ih hps]

/-- Both sessions have a color key with the same filters and files, or neither has one. -/
theorem SameFilters.keys (h : s.SameFilters s') :
    (s.colorKey = none ∧ s'.colorKey = none)
      ∨ ∃ k k', s.colorKey = some k ∧ s'.colorKey = some k' ∧ k.content.filter = k'.content.filter
        ∧ scaleFilter k.placement.dimension = scaleFilter k'.placement.dimension
        ∧ k.content.files = k'.content.files := by
  have hmap := h.colorKey
  cases hk : s.colorKey with
  | none =>
    rw [hk, Option.map_none] at hmap
    exact .inl ⟨rfl, Option.map_eq_none_iff.mp hmap.symm⟩
  | some k =>
    rw [hk, Option.map_some] at hmap
    obtain ⟨k', hk', hfilters⟩ := Option.map_eq_some_iff.mp hmap.symm
    simp only [keyFilters, Prod.mk.injEq] at hfilters
    exact .inr ⟨k, k', rfl, hk', hfilters.1.symm, hfilters.2.1.symm, hfilters.2.2.symm⟩

theorem SameFilters.keySegments_eq (h : s.SameFilters s') (followed : Bool) :
    s.keySegments followed = s'.keySegments followed := by
  unfold keySegments
  rcases h.keys with ⟨hk, hk'⟩ | ⟨k, k', hk, hk', hfilter, hscale, _⟩
  · rw [hk, hk']
  · rw [hk, hk']
    simp only [colorKeySegments, hfilter, hscale]

theorem SameFilters.firstInput_eq (h : s.SameFilters s') : s.firstInput = s'.firstInput := by
  unfold firstInput colorKeyInputCount
  rcases h.keys with ⟨hk, hk'⟩ | ⟨k, k', hk, hk', _, _, hfiles⟩
  · rw [hk, hk']
  · rw [hk, hk', Option.map_some, Option.map_some, hfiles]

theorem SameFilters.pictureStage_eq (h : s.SameFilters s') : s.pictureStage = s'.pictureStage := by
  unfold pictureStage
  rcases h.keys with ⟨hk, hk'⟩ | ⟨k, k', hk, hk', _⟩
  · rw [hk, hk']
  · rw [hk, hk']
    rfl

/-- **Sessions with the same filters have the same segments.** -/
theorem segments_eq_of_sameFilters (h : s.SameFilters s') : s.segments = s'.segments := by
  -- The stages and what follows a segment are a matter of how many overlays there are of each kind.
  have htexts := isEmpty_congr h.texts
  have hpictures := isEmpty_congr h.pictures
  have hboxes := isEmpty_congr h.boxes
  have hlength : s.pictures.length = s'.pictures.length := by
    simpa using congrArg List.length h.pictures
  have htextStage : s.textStage = s'.textStage := by
    rw [textStage, textStage, h.pictureStage_eq, hlength]
  have hboxStage : s.boxStage = s'.boxStage := by
    rw [boxStage, boxStage, htexts, htextStage]
  have htextSegments : ∀ followed stage,
      textSegments followed stage s.texts = textSegments followed stage s'.texts := by
    intro followed stage
    rw [textSegments, textSegments, htexts, h.texts]
  have hboxSegments : ∀ stage, boxSegments stage s.boxes = boxSegments stage s'.boxes := by
    intro stage
    have hfilters : (s.boxes.map fun b => drawBox b.placement b.content)
        = s'.boxes.map fun b => drawBox b.placement b.content := h.boxes
    rw [boxSegments, boxSegments, hboxes, hfilters]
  rw [segments_eq, segments_eq, htexts, hpictures, hboxes, h.keySegments_eq, h.firstInput_eq, h.pictureStage_eq,
    pictureSegments_congr h.pictures, htextStage, htextSegments, hboxStage, hboxSegments]

theorem compile_eq_of_sameFilters (h : s.SameFilters s') : s.compile = s'.compile := by
  rw [compile_eq, compile_eq, segments_eq_of_sameFilters h, h.inputs]

/-- **No field that a kind does not draw gets into the graph.** Let two histories of registrations offer overlays
that are drawn alike, one by one, and let the same ones be accepted. Then both sessions compile to the same
segments and files, or are refused for the same reason. -/
theorem compile_run_eq_of_drawnAlike {offers offers' : List Offer}
    (h : List.Forall₂ Offer.DrawnAlike offers offers') (hv : empty.verdicts offers = empty.verdicts offers') :
    (empty.run offers).compile = (empty.run offers').compile :=
  compile_eq_of_sameFilters (run_sameFilters (.refl empty) h hv)

/-! ## The sample session, offered otherwise -/

/-- The first second. -/
def firstSecond : TimeRange := ⟨.zero, .one, by decide +kernel, by decide +kernel, by decide +kernel⟩

/-- A color with a border of three pixels. -/
def bordered (c : Color) : Color := { c with thickness := .pixels 3, thickness_isDrawn := by decide }

/-- An overlay with other values in fields that are not drawn. A picture gets fades of zero seconds. -/
def varied (o : Overlay) : Overlay :=
  match o.content with
  | .picture _ =>
    { o with placement.layer := 7, placement.fadeIn := some .zero, placement.fadeOut := some (.ofRatio true 0 1) }
  | .text _ => { o with placement := { position := some ⟨8, 9⟩, timeRange := some firstSecond, fadeIn := some .one } }
  | .box _ => { o with placement.layer := -1, placement.fadeOut := some .one }
  | .colorKey key =>
    ⟨{ o.placement with position := some ⟨3, 5⟩, timeRange := some firstSecond, fadeIn := some .one },
      .colorKey { key with color := key.color.map bordered }⟩

/-- The sample offers, varied. -/
def variedOffers : List Offer :=
  sampleOffers.map fun
    | .one o => .one (varied o)
    | .many os => .many (os.map varied)

/-- Zero seconds are no fade, with either sign. -/
theorem isNoFade_zero (negative : Bool) : IsNoFade (some (.ofRatio negative 0 1)) := by
  intro seconds h
  rw [← Option.some.inj h]
  cases negative with
  | true => decide +kernel
  | false => decide +kernel

/-- An overlay without fades is drawn as it is drawn varied. -/
theorem drawnAlike_varied {o : Overlay} (hin : IsNoFade o.placement.fadeIn) (hout : IsNoFade o.placement.fadeOut) :
    o.DrawnAlike (varied o) := by
  obtain ⟨p, c⟩ := o
  cases c with
  | picture shown =>
    exact .picture shown rfl rfl rfl (.inr ⟨hin, isNoFade_zero false⟩) (.inr ⟨hout, isNoFade_zero true⟩)
  | text fragment => exact .text _ _ fragment
  | box color => exact .box color rfl rfl rfl
  | colorKey key =>
    refine .colorKey rfl ⟨?_, rfl, rfl, rfl, rfl⟩
    rw [Option.map_map]
    rfl

theorem drawnAlike_variedOffers : List.Forall₂ Offer.DrawnAlike sampleOffers variedOffers := by
  have hnone : IsNoFade none := fun _ h => absurd h (by simp)
  unfold variedOffers sampleOffers
  refine .cons (.one (drawnAlike_varied hnone hnone)) (.cons (.many ?_)
    (.cons (.one (drawnAlike_varied hnone hnone)) (.cons (.one (drawnAlike_varied hnone hnone)) .nil)))
  exact .cons (drawnAlike_varied hnone hnone) (.cons (drawnAlike_varied hnone hnone)
    (.cons (drawnAlike_varied hnone hnone) (.cons (drawnAlike_varied hnone hnone) .nil)))

/-- The session of the varied offers is another one, and has the graph of the sample session. -/
theorem compile_run_eq_of_drawnAlike_varied :
    List.Forall₂ Offer.DrawnAlike sampleOffers variedOffers
      ∧ empty.verdicts sampleOffers = empty.verdicts variedOffers
      ∧ empty.run sampleOffers ≠ empty.run variedOffers
      ∧ (∃ g, (empty.run sampleOffers).compile = .ok g)
      ∧ (empty.run sampleOffers).compile = (empty.run variedOffers).compile := by
  have hv : empty.verdicts sampleOffers = empty.verdicts variedOffers := by decide +kernel
  have hlayered : (empty.run sampleOffers).Layered := .inr (by decide +kernel)
  refine ⟨drawnAlike_variedOffers, hv, by decide +kernel, ⟨_, compile_of_layered hlayered⟩, ?_⟩
  exact compile_run_eq_of_drawnAlike drawnAlike_variedOffers hv

end Session
end VideoOverlay
