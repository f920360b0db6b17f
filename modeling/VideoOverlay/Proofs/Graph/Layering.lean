import Mathlib.Logic.Relation
import VideoOverlay.Proofs.Graph.Linking
import VideoOverlay.Proofs.Session.Run

/-!
# `Proofs.Graph.Layering` — what the graph of a session draws

A graph is unfolded from its last segment: each label that a segment reads is replaced by the segment that
writes it, until only input files are left. What comes out is a `Drawing`, and for the graph of a session it
is the one the overlays describe (`Session.drawing`): the background at the bottom, the pictures one onto
the other in their order, then all texts, then all boxes.

The induction is on the layers. Its invariant is that the stream below a layer unfolds to what is drawn so
far; the labels in between are the layer's own, so unfolding skips them (`unfold_layerSegments`).

## Contents
- `Drawing`, `Drawing.filters`; `unfoldStream`, `unfoldSegment`, `unfoldLast`: unfolding a graph.
- `Session.drawing`: what a session describes.
- `ReadsFrom`, `reachable_layerSegments`: nothing is drawn in vain.
- `compile_draws_overlays`.
-/

namespace VideoOverlay

/-! ## Drawings -/

/-- What a stream shows: an input file, a stream passed through filters, or one stream laid over another. -/
inductive Drawing where
  | input (n : Nat)
  | filtered (filters : String) (source : Drawing)
  | overlaid (filters : String) (below above : Drawing)
  deriving DecidableEq

/-- The filters of a drawing, each where it is applied, after those of the streams it is applied to. -/
def Drawing.filters : Drawing → List String
  | .input _ => []
  | .filtered filters source => source.filters ++ [filters]
  | .overlaid filters below above => below.filters ++ above.filters ++ [filters]

/-! ## Unfolding a graph -/

/-- What filters make of the streams they are applied to: one, or two of which the first is below. -/
def applyFilters (filters : String) : List Drawing → Option Drawing
  | [source] => some (.filtered filters source)
  | [below, above] => some (.overlaid filters below above)
  | _ => none

/-- What a stream shows, after some segments of which the latest comes first. A label stands for what the
segment shows that writes it. -/
def unfoldStream : List Segment → Stream → Option Drawing
  | _, .input n => some (.input n)
  | [], .labelled _ => none
  | seg :: earlier, .labelled label =>
    if seg.output = some label then (seg.sources.mapM (unfoldStream earlier)).bind (applyFilters seg.filters)
    else unfoldStream earlier (.labelled label)

/-- What a segment shows, after some segments of which the latest comes first. -/
def unfoldSegment (earlier : List Segment) (seg : Segment) : Option Drawing :=
  (seg.sources.mapM (unfoldStream earlier)).bind (applyFilters seg.filters)

/-- What the first of some segments shows after the others, the latest first. -/
def unfoldLast : List Segment → Option Drawing
  | [] => none
  | seg :: earlier => unfoldSegment earlier seg

/-- What the last segment of a graph shows. -/
def Graph.unfold (g : Graph) : Option Drawing := unfoldLast g.segments.reverse

theorem unfoldStream_of_output {seg : Segment} {label : Label} (h : seg.output = some label)
    (earlier : List Segment) : unfoldStream (seg :: earlier) (.labelled label) = unfoldSegment earlier seg := by
  rw [unfoldStream, if_pos h]
  rfl

theorem unfoldStream_of_ne {seg : Segment} {label : Label} (h : seg.output ≠ some label)
    (earlier : List Segment) :
    unfoldStream (seg :: earlier) (.labelled label) = unfoldStream earlier (.labelled label) := by
  rw [unfoldStream, if_neg h]

theorem unfoldSegment_one {earlier : List Segment} {a : Stream} {d : Drawing}
    (ha : unfoldStream earlier a = some d) (filters : String) (output : Option Label) :
    unfoldSegment earlier ⟨[a], filters, output⟩ = some (.filtered filters d) := by
  simp [unfoldSegment, ha, applyFilters]

theorem unfoldSegment_two {earlier : List Segment} {a b : Stream} {below above : Drawing}
    (ha : unfoldStream earlier a = some below) (hb : unfoldStream earlier b = some above) (filters : String)
    (output : Option Label) :
    unfoldSegment earlier ⟨[a, b], filters, output⟩ = some (.overlaid filters below above) := by
  simp [unfoldSegment, ha, hb, applyFilters]

/-! ## What layers draw -/

/-- A picture laid over what is drawn below. -/
def Drawing.overPicture (below : Drawing) (input : Nat) (p : Placed Picture) : Drawing :=
  .overlaid (p.placement.overlayFilter p.content.still) below
    (.filtered p.placement.sourceFilters (.input input))

/-- A layer drawn onto what is below. -/
def Layer.onto (input : Nat) (below : Drawing) : Layer → Drawing
  | .picture p => below.overPicture input p
  | .filters text => .filtered text below

/-- Layers drawn one onto the other. -/
def drawLayers (input : Nat) (below : Drawing) : List Layer → Drawing
  | [] => below
  | l :: ls => drawLayers (input + l.inputCount) (l.onto input below) ls

/-- The segments of a layer show the layer, onto what the stream below shows. -/
theorem unfold_layer {earlier : List Segment} {stage : Nat} {below : Drawing}
    (h : unfoldStream earlier (baseStream stage) = some below) (l : Layer) (input : Nat) (followed : Bool) :
    unfoldLast ((l.segments input stage followed).reverse ++ earlier) = some (l.onto input below) := by
  cases l with
  | filters text => exact unfoldSegment_one h text _
  | picture p =>
    have hscale : unfoldSegment earlier ⟨[.input input], p.placement.sourceFilters, some (.scaled stage)⟩
        = some (.filtered p.placement.sourceFilters (.input input)) := by
      refine unfoldSegment_one ?_ _ _
      rw [unfoldStream]
    -- The base is a stage or an input file, so the scaled picture in between does not hide it.
    have hbase : unfoldStream (⟨[.input input], p.placement.sourceFilters, some (.scaled stage)⟩ :: earlier)
        (baseStream stage) = some below := by
      rw [← h, baseStream]
      split
      · rw [unfoldStream, unfoldStream]
      · exact unfoldStream_of_ne (by simp) earlier
    refine unfoldSegment_two hbase ?_ _ _
    rw [unfoldStream_of_output rfl, hscale]

/-- **Layers show what they describe**, onto what the stream below them shows. -/
theorem unfold_layerSegments {ls : List Layer} (hne : ls ≠ []) {earlier : List Segment} {stage : Nat}
    {below : Drawing} (hstage : 1 ≤ stage) (h : unfoldStream earlier (baseStream stage) = some below)
    (input : Nat) :
    unfoldLast ((layerSegments input stage ls).reverse ++ earlier) = some (drawLayers input below ls) := by
  induction ls generalizing earlier stage below input with
  | nil => exact absurd rfl hne
  | cons l ls ih =>
    rw [layerSegments, List.reverse_append, List.append_assoc, drawLayers]
    cases hls : ls with
    | nil => exact unfold_layer h l input _
    | cons l' rest =>
      rw [← hls]
      have hlast := unfold_layer h l input (!ls.isEmpty)
      refine ih (by rw [hls]; exact List.cons_ne_nil _ _) (by omega) ?_ _
      -- The layer labels what it shows, as another one follows.
      have hnext : baseStream (stage + 1) = .labelled (.stage (stage + 1)) := by
        rw [baseStream, if_neg (by omega)]
      rw [hnext, ← hlast, hls]
      cases l with
      | picture p => exact unfoldStream_of_output rfl _
      | filters text => exact unfoldStream_of_output rfl _

/-! ## Nothing is drawn in vain -/

/-- One segment reads what another writes. -/
def ReadsFrom (reader writer : Segment) : Prop := ∃ label ∈ reader.reads, writer.output = some label

theorem readsFrom_base {stage : Nat} {writer : Segment} (h : writer.output = baseLabel stage)
    (hstage : 2 ≤ stage) (rest : List Stream) (filters : String) (output : Option Label) :
    ReadsFrom ⟨baseStream stage :: rest, filters, output⟩ writer := by
  have hlabel : baseLabel stage = some (.stage stage) := by
    rw [baseLabel, if_neg (by omega)]
  refine ⟨.stage stage, ?_, h.trans hlabel⟩
  rw [reads_baseStream, hlabel]
  exact List.mem_append_left _ List.mem_cons_self

/-- The last segment of a layer, which draws it onto the stream below. -/
def Layer.top (stage : Nat) (followed : Bool) : Layer → Segment
  | .picture p => ⟨[baseStream stage, .labelled (.scaled stage)], p.placement.overlayFilter p.content.still,
      labelIf followed (.stage (stage + 1))⟩
  | .filters text => ⟨[baseStream stage], text, labelIf followed (.stage (stage + 1))⟩

theorem getLast?_segments (l : Layer) (input stage : Nat) (followed : Bool) :
    (l.segments input stage followed).getLast? = some (l.top stage followed) := by
  cases l <;> rfl

theorem output_top (l : Layer) (stage : Nat) (followed : Bool) :
    (l.top stage followed).output = labelIf followed (.stage (stage + 1)) := by
  cases l <;> rfl

/-- The last segment of a layer reads the stream below. -/
theorem readsFrom_top {stage : Nat} {writer : Segment} (hw : writer.output = baseLabel stage)
    (hstage : 2 ≤ stage) (l : Layer) (followed : Bool) : ReadsFrom (l.top stage followed) writer := by
  cases l with
  | picture p => exact readsFrom_base hw hstage _ _ _
  | filters text => exact readsFrom_base hw hstage _ _ _

/-- The last segment of a layer reads all others of the layer. -/
theorem reachable_layer {l : Layer} {input stage : Nat} {followed : Bool} {seg : Segment}
    (h : seg ∈ l.segments input stage followed) :
    Relation.ReflTransGen ReadsFrom (l.top stage followed) seg := by
  cases l with
  | filters text =>
    rw [List.mem_singleton.mp h]
    exact .refl
  | picture p =>
    rcases List.mem_cons.mp h with rfl | h
    · refine .single ⟨.scaled stage, ?_, rfl⟩
      rw [Layer.top, reads_baseStream]
      exact List.mem_append_right _ List.mem_cons_self
    · rw [List.mem_singleton.mp h]
      exact .refl

/-- **Every segment of some layers is read by the last one**, directly or through others, and so is a segment
that writes the stream below them. -/
theorem reachable_layerSegments {ls : List Layer} (hne : ls ≠ []) (input : Nat) {stage : Nat}
    (hstage : 1 ≤ stage) :
    ∃ last, (layerSegments input stage ls).getLast? = some last
      ∧ (∀ seg ∈ layerSegments input stage ls, Relation.ReflTransGen ReadsFrom last seg)
      ∧ ∀ writer : Segment, 2 ≤ stage → writer.output = baseLabel stage →
          Relation.ReflTransGen ReadsFrom last writer := by
  induction ls generalizing input stage with
  | nil => exact absurd rfl hne
  | cons l ls ih =>
    cases hls : ls with
    | nil =>
      rw [layerSegments, layerSegments, List.append_nil]
      exact ⟨l.top stage false, getLast?_segments l input stage false, fun _ hseg => reachable_layer hseg,
        fun _ hs hw => .single (readsFrom_top hw hs l false)⟩
    | cons l' rest =>
      rw [← hls]
      obtain ⟨last, hlast, hrest, hbelow⟩ :=
        ih (by rw [hls]; exact List.cons_ne_nil _ _) (input + l.inputCount) (Nat.le_succ_of_le hstage)
      have htop : (l.top stage (!ls.isEmpty)).output = baseLabel (stage + 1) := by
        rw [output_top, baseLabel, if_neg (by omega), hls]
        rfl
      have hreach : Relation.ReflTransGen ReadsFrom last (l.top stage (!ls.isEmpty)) :=
        hbelow _ (by omega) htop
      refine ⟨last, ?_, fun seg hseg => ?_, fun writer hs hw => hreach.tail (readsFrom_top hw hs l _)⟩
      · rw [layerSegments, List.getLast?_append, hlast]
        rfl
      · rw [layerSegments] at hseg
        rcases List.mem_append.mp hseg with hseg | hseg
        · exact hreach.trans (reachable_layer hseg)
        · exact hrest seg hseg

/-! ## Filters of layers -/

/-- The filters of a layer, in the order they are applied. -/
def Layer.filterTexts : Layer → List String
  | .picture p => [p.placement.sourceFilters, p.placement.overlayFilter p.content.still]
  | .filters text => [text]

theorem map_filters_layerSegments (ls : List Layer) (input stage : Nat) :
    (layerSegments input stage ls).map Segment.filters = ls.flatMap Layer.filterTexts := by
  induction ls generalizing input stage with
  | nil => rfl
  | cons l ls ih =>
    rw [layerSegments, List.map_append, ih, List.flatMap_cons]
    cases l <;> rfl

theorem filters_drawLayers (ls : List Layer) (input : Nat) (below : Drawing) :
    (drawLayers input below ls).filters = below.filters ++ ls.flatMap Layer.filterTexts := by
  induction ls generalizing input below with
  | nil => exact (List.append_nil _).symm
  | cons l ls ih =>
    have hlayer : (l.onto input below).filters = below.filters ++ l.filterTexts := by
      cases l with
      | filters text => rfl
      | picture p => exact List.append_assoc below.filters [_] [_]
    rw [drawLayers, ih, hlayer, List.flatMap_cons, List.append_assoc]

/-! ## What a session describes -/

/-- Pictures laid one over the other, which read the inputs from `input` on. -/
def Drawing.overPictures (below : Drawing) (input : Nat) : List (Placed Picture) → Drawing
  | [] => below
  | p :: ps => (below.overPicture input p).overPictures (input + 1) ps

/-- A drawing passed through a chain of filters, if there are any. -/
def Drawing.through (below : Drawing) (filters : List String) : Drawing :=
  if filters.isEmpty then below else .filtered (String.intercalate "," filters) below

namespace Session

variable {s : Session}

/-- What everything else is drawn onto: the main video, laid over the background of the color key if there
is one. -/
def background (s : Session) : Drawing :=
  match s.colorKey with
  | none => .input 0
  | some key =>
    .overlaid "overlay" (.filtered (scaleFilter key.placement.dimension) (.input 1))
      (.filtered key.content.filter (.input 0))

/-- What the overlays of a session describe: pictures over the background in their order, then all texts,
then all boxes. -/
def drawing (s : Session) : Drawing :=
  ((s.background.overPictures s.firstInput s.pictures).through (s.texts.map Placed.content)).through
    (s.boxes.map fun b => drawBox b.placement b.content)

theorem drawLayers_pictures (input : Nat) (below : Drawing) (ps : List (Placed Picture))
    (above : List Layer) :
    drawLayers input below (ps.map .picture ++ above)
      = drawLayers (input + ps.length) (below.overPictures input ps) above := by
  induction ps generalizing input below with
  | nil => rfl
  | cons p ps ih =>
    rw [List.map_cons, List.cons_append, drawLayers, ih, List.length_cons, Nat.add_comm ps.length,
      ← Nat.add_assoc]
    rfl

theorem drawing_eq_drawLayers (s : Session) : s.drawing = drawLayers s.firstInput s.background s.layers := by
  rw [layers, drawLayers_pictures, drawing]
  cases s.texts <;> cases s.boxes <;> rfl

theorem unfold_keySegments (key : Placed ColorKey) (followed : Bool) :
    unfoldLast (colorKeySegments key followed).reverse
      = some (.overlaid "overlay" (.filtered (scaleFilter key.placement.dimension) (.input 1))
          (.filtered key.content.filter (.input 0))) := by
  cases followed <;> rfl

/-- The graph of a layered session shows what its overlays describe. -/
theorem unfold_segments (h : s.Layered) (hne : s.isEmpty = false) :
    unfoldLast s.segments.reverse = some s.drawing := by
  rw [segments_eq_layers h, List.reverse_append, drawing_eq_drawLayers]
  by_cases hls : s.layers = []
  · obtain ⟨key, hk⟩ := exists_colorKey_of_layers_eq_nil hne hls
    rw [hls, keySegments, background, hk]
    exact unfold_keySegments key false
  · refine unfold_layerSegments hls s.one_le_pictureStage ?_ s.firstInput
    rw [keySegments, background, pictureStage]
    cases s.colorKey with
    | none =>
      show unfoldStream [] (.input 0) = _
      rw [unfoldStream]
    | some key =>
      have hfollowed : (!s.layers.isEmpty) = true := by simpa using hls
      rw [hfollowed, ← unfold_keySegments key true]
      exact unfoldStream_of_output rfl _

/-- The filters of the background are those of the color key, the scaled background first. -/
theorem filters_background_perm (s : Session) (followed : Bool) :
    s.background.filters.Perm ((s.keySegments followed).map Segment.filters) := by
  rw [background, keySegments]
  cases s.colorKey with
  | none => exact List.Perm.refl _
  | some key => exact List.Perm.swap _ _ _

theorem filters_drawing_perm (h : s.Layered) :
    s.drawing.filters.Perm (s.segments.map Segment.filters) := by
  rw [drawing_eq_drawLayers, filters_drawLayers, segments_eq_layers h, List.map_append,
    map_filters_layerSegments]
  exact (filters_background_perm s _).append_right _

theorem filters_drawing (s : Session) :
    s.drawing.filters = s.background.filters
      ++ s.pictures.flatMap (fun p =>
          [p.placement.sourceFilters, p.placement.overlayFilter p.content.still])
      ++ (if s.texts.isEmpty then [] else [String.intercalate "," (s.texts.map Placed.content)])
      ++ (if s.boxes.isEmpty then []
          else [String.intercalate "," (s.boxes.map fun b => drawBox b.placement b.content)]) := by
  have htexts : (textLayers s.texts).flatMap Layer.filterTexts
      = if s.texts.isEmpty then [] else [String.intercalate "," (s.texts.map Placed.content)] := by
    cases s.texts <;> rfl
  have hboxes : (boxLayers s.boxes).flatMap Layer.filterTexts
      = if s.boxes.isEmpty then []
        else [String.intercalate "," (s.boxes.map fun b => drawBox b.placement b.content)] := by
    cases s.boxes <;> rfl
  rw [drawing_eq_drawLayers, filters_drawLayers, layers, List.flatMap_append, List.flatMap_append, htexts,
    hboxes, List.flatMap_map, List.append_assoc, List.append_assoc]
  rfl

/-- The last segment of a color key reads the other two. -/
theorem reachable_keySegments {key : Placed ColorKey} {followed : Bool} {seg : Segment}
    (h : seg ∈ colorKeySegments key followed) :
    Relation.ReflTransGen ReadsFrom
      ⟨[.labelled (.stage 1), .labelled .keyed], "overlay", labelIf followed (.stage 2)⟩ seg := by
  rcases List.mem_cons.mp h with rfl | h
  · exact .single ⟨.keyed, List.mem_cons_of_mem _ List.mem_cons_self, rfl⟩
  rcases List.mem_cons.mp h with rfl | h
  · exact .single ⟨.stage 1, List.mem_cons_self, rfl⟩
  · rw [List.mem_singleton.mp h]

/-- Every segment of a session is read by the last one, directly or through others. -/
theorem reachable_segments (h : s.Layered) (hne : s.isEmpty = false) :
    ∃ last, s.segments.getLast? = some last
      ∧ ∀ seg ∈ s.segments, Relation.ReflTransGen ReadsFrom last seg := by
  rw [segments_eq_layers h]
  by_cases hls : s.layers = []
  · obtain ⟨key, hk⟩ := exists_colorKey_of_layers_eq_nil hne hls
    rw [hls, keySegments, hk, layerSegments, List.append_nil]
    exact ⟨_, rfl, fun seg hseg => reachable_keySegments hseg⟩
  · obtain ⟨last, hlast, hsegs, hbelow⟩ := reachable_layerSegments hls s.firstInput s.one_le_pictureStage
    refine ⟨last, ?_, fun seg hseg => ?_⟩
    · rw [List.getLast?_append, hlast]
      rfl
    · rcases List.mem_append.mp hseg with hseg | hseg
      · -- The key writes the stream below the layers.
        rw [keySegments] at hseg
        rw [pictureStage] at hbelow
        cases hk : s.colorKey with
        | none =>
          rw [hk] at hseg
          cases hseg
        | some key =>
          have hfollowed : (!s.layers.isEmpty) = true := by simpa using hls
          rw [hk] at hseg hbelow
          rw [hfollowed] at hseg
          exact (hbelow _ (Nat.le_refl 2) rfl).trans (reachable_keySegments hseg)
      · exact hsegs seg hseg

/-! ## The graph of a session -/

/-- **The graph of a session draws its overlays.** Unfolded from its last segment, it is the drawing they
describe, with no choice where a label is replaced: each is written once. The drawing has the filters of each
overlay once, in order, and reads for each picture its own file; every segment is part of it, and no segment
is out of reach of the last one. -/
theorem compile_draws_overlays (hs : s.Reachable) (hne : s.isEmpty = false) {g : Graph}
    (hg : s.compile = .ok g) :
    g.unfold = some s.drawing
      ∧ (writes g.segments).Nodup
      ∧ s.drawing.filters = s.background.filters
          ++ s.pictures.flatMap (fun p =>
              [p.placement.sourceFilters, p.placement.overlayFilter p.content.still])
          ++ (if s.texts.isEmpty then [] else [String.intercalate "," (s.texts.map Placed.content)])
          ++ (if s.boxes.isEmpty then []
              else [String.intercalate "," (s.boxes.map fun b => drawBox b.placement b.content)])
      ∧ s.drawing.filters.Perm (g.segments.map Segment.filters)
      ∧ (∀ j p, s.pictures[j]? = some p →
          ∃ file, p.content.file = some file ∧ g.inputs[s.colorKeyInputCount + j]? = some file)
      ∧ ∃ last, g.segments.getLast? = some last
          ∧ ∀ seg ∈ g.segments, Relation.ReflTransGen ReadsFrom last seg := by
  obtain ⟨hl, rfl⟩ := compile_eq_ok_iff.mp hg
  exact ⟨unfold_segments hl hne, nodup_writes hl, s.filters_drawing, filters_drawing_perm hl,
    fun j p hp => hs.getElem?_inputs_of_picture hp, reachable_segments hl hne⟩

/-- The sample session shows the keyed video over its background, the picture twice, the text, and the box. -/
theorem compile_draws_overlays_sample : ∃ g, sample.compile = .ok g
    ∧ g.unfold = some (.filtered "drawbox=x=4:y=-2:w=64:h=48:color='green@1:t=max'"
        (.filtered "drawtext=text=live"
          (.overlaid "overlay=0:0"
            (.overlaid "overlay=0:0"
              (.overlaid "overlay" (.filtered "scale=64:48" (.input 1))
                (.filtered "colorkey=green@1:0.01:0" (.input 0)))
              (.filtered "scale=64:48" (.input 3)))
            (.filtered "scale=64:48" (.input 4))))) := by
  have hlayered : sample.Layered := .inr (by decide +kernel)
  have hg := compile_of_layered hlayered
  have hdraws := compile_draws_overlays reachable_sample (by decide +kernel) hg
  refine ⟨_, hg, hdraws.1.trans (congrArg some ?_)⟩
  decide +kernel

end Session
end VideoOverlay
