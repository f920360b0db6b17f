import VideoOverlay.Proofs.Graph.Layout

/-!
# `Proofs.Graph.Layer` — the graph of a session as layers

Pictures, texts and boxes are laid out by three functions that look ahead to one another: a stage labels
what it writes if a later kind follows. Read as a list of *layers*, drawn one onto the other, there is one
rule only: every layer but the last labels what it writes.

The two readings agree unless boxes follow without a text (`segments_eq_layers`), and such a session is
refused, since its boxes read a label that nothing writes: see `Proofs.Graph.Check`.

## Contents
- `Layer`, `Layer.segments`, `layerSegments`: layers and their segments.
- `Session.layers`, `Session.Layered`: the layers of a session, and when it is drawn by them.
- `segments_eq_layers`, `layers_eq_nil_iff`.
- `length_pictureSegments`, `getElem?_pictureSegments_source`, `getElem?_pictureSegments_overlay`,
  `getElem?_layerSegments_picture`: where the segments of a picture stand.
-/

namespace VideoOverlay

/-! ## Layers -/

/-- What is drawn onto a stream: a picture with an input of its own, or filters that need no other. -/
inductive Layer where
  | picture (p : Placed Picture)
  | filters (text : String)

namespace Layer

/-- The number of inputs a layer reads besides the stream below. -/
def inputCount : Layer → Nat
  | .picture _ => 1
  | .filters _ => 0

/-- The segments of a layer, which make the stage after `stage`. -/
def segments (input stage : Nat) (followed : Bool) : Layer → List Segment
  | .picture p =>
    [⟨[.input input], p.placement.sourceFilters, some (.scaled stage)⟩,
      ⟨[baseStream stage, .labelled (.scaled stage)], p.placement.overlayFilter p.content.still,
        labelIf followed (.stage (stage + 1))⟩]
  | .filters text => [⟨[baseStream stage], text, labelIf followed (.stage (stage + 1))⟩]

end Layer

/-- The segments of layers, each drawn onto the one before. All but the last label what they write. -/
def layerSegments (input stage : Nat) : List Layer → List Segment
  | [] => []
  | l :: ls =>
    l.segments input stage (!ls.isEmpty) ++ layerSegments (input + l.inputCount) (stage + 1) ls

/-! ## The layers of a session -/

/-- The layer of all texts, if there are any. -/
def textLayers (texts : List (Placed String)) : List Layer :=
  if texts.isEmpty then [] else [.filters (String.intercalate "," (texts.map Placed.content))]

/-- The layer of all boxes, if there are any. -/
def boxLayers (boxes : List (Placed (Option Color))) : List Layer :=
  if boxes.isEmpty then []
  else [.filters (String.intercalate "," (boxes.map fun b => drawBox b.placement b.content))]

namespace Session

variable {s : Session}

/-- What is drawn onto the main video, from the bottom to the top. -/
def layers (s : Session) : List Layer :=
  s.pictures.map .picture ++ (textLayers s.texts ++ boxLayers s.boxes)

/-- Boxes are drawn onto a text layer only: without one nothing labels the stream they read. -/
def Layered (s : Session) : Prop := s.boxes = [] ∨ s.texts ≠ []

/-- The segments of the color key. -/
def keySegments (s : Session) (followed : Bool) : List Segment :=
  match s.colorKey with
  | some key => colorKeySegments key followed
  | none => []

/-- The number of the first input after the main video and the files of the color key. -/
def firstInput (s : Session) : Nat := 1 + s.colorKeyInputCount

/-- The segments of a session by kind. -/
theorem segments_eq (s : Session) :
    s.segments = s.keySegments (!s.pictures.isEmpty || !s.texts.isEmpty)
      ++ pictureSegments (!s.texts.isEmpty) s.firstInput s.pictureStage s.pictures
      ++ textSegments (!s.boxes.isEmpty) s.textStage s.texts ++ boxSegments s.boxStage s.boxes := by
  rw [segments]
  rfl

theorem one_le_pictureStage (s : Session) : 1 ≤ s.pictureStage := by
  rw [pictureStage]
  split <;> omega

/-! ## Both readings agree -/

theorem textLayers_eq_nil_iff {texts : List (Placed String)} : textLayers texts = [] ↔ texts = [] := by
  cases texts with
  | nil => exact ⟨fun _ => rfl, fun _ => rfl⟩
  | cons t ts =>
    constructor
    · intro h
      cases h
    · intro h
      cases h

theorem boxLayers_eq_nil_iff {boxes : List (Placed (Option Color))} : boxLayers boxes = [] ↔ boxes = [] := by
  cases boxes with
  | nil => exact ⟨fun _ => rfl, fun _ => rfl⟩
  | cons b bs =>
    constructor
    · intro h
      cases h
    · intro h
      cases h

theorem layers_eq_nil_iff : s.layers = [] ↔ s.pictures = [] ∧ s.texts = [] ∧ s.boxes = [] := by
  rw [layers, List.append_eq_nil_iff, List.append_eq_nil_iff, List.map_eq_nil_iff, textLayers_eq_nil_iff,
    boxLayers_eq_nil_iff]

/-- Pictures and the layers above them. -/
theorem pictureSegments_append (input stage : Nat) (ps : List (Placed Picture)) (above : List Layer) :
    pictureSegments (!above.isEmpty) input stage ps
        ++ layerSegments (input + ps.length) (stage + ps.length) above
      = layerSegments input stage (ps.map .picture ++ above) := by
  induction ps generalizing input stage with
  | nil => rfl
  | cons p ps ih =>
    have hfollowed : (!ps.isEmpty || !above.isEmpty) = !(ps.map Layer.picture ++ above).isEmpty := by
      cases ps <;> rfl
    have hinput : input + (p :: ps).length = input + 1 + ps.length := by
      rw [List.length_cons]; omega
    have hstage : stage + (p :: ps).length = stage + 1 + ps.length := by
      rw [List.length_cons]; omega
    rw [pictureSegments, hinput, hstage, hfollowed]
    simp only [List.cons_append, ih, List.map_cons, layerSegments, Layer.segments, Layer.inputCount,
      List.nil_append]

/-- Texts and the boxes above them. A stage above the first is read by its label. -/
theorem textSegments_append {texts : List (Placed String)} {boxes : List (Placed (Option Color))}
    (h : boxes = [] ∨ texts ≠ []) {stage : Nat} (hstage : 1 ≤ stage) (input : Nat) :
    textSegments (!boxes.isEmpty) stage texts
        ++ boxSegments (if texts.isEmpty then stage else stage + 1) boxes
      = layerSegments input stage (textLayers texts ++ boxLayers boxes) := by
  cases texts with
  | nil =>
    cases h with
    | inl h => rw [h]; rfl
    | inr h => exact absurd rfl h
  | cons t ts =>
    cases boxes with
    | nil => rfl
    | cons b bs =>
      have hbase : baseStream (stage + 1) = .labelled (.stage (stage + 1)) := by
        rw [baseStream, if_neg (by omega)]
      simp only [textSegments, boxSegments, textLayers, boxLayers, layerSegments, Layer.segments, hbase,
        List.isEmpty_cons, Bool.false_eq_true, if_false, List.cons_append, List.nil_append, List.isEmpty_nil,
        Bool.not_true, labelIf]

/-- **The segments of a session are those of its color key and its layers.** -/
theorem segments_eq_layers (h : s.Layered) :
    s.segments = s.keySegments (!s.layers.isEmpty) ++ layerSegments s.firstInput s.pictureStage s.layers := by
  have hstage : 1 ≤ s.pictureStage + s.pictures.length :=
    Nat.le_trans s.one_le_pictureStage (Nat.le_add_right _ _)
  -- What follows the pictures, and what follows the color key, is a text if it is anything but a picture.
  have habove : (!s.texts.isEmpty) = !(textLayers s.texts ++ boxLayers s.boxes).isEmpty := by
    cases ht : s.texts with
    | nil =>
      rw [Layered, ht] at h
      rw [h.resolve_right (absurd rfl)]
      rfl
    | cons t ts => rfl
  have hlayers : (!s.pictures.isEmpty || !s.texts.isEmpty) = !s.layers.isEmpty := by
    rw [habove, layers]
    cases s.pictures <;> rfl
  rw [layers, ← pictureSegments_append, ← textSegments_append h hstage, ← habove, ← layers, ← hlayers]
  rw [segments, List.append_assoc, List.append_assoc]
  rfl

/-! ## Where a picture is -/

/-- Each picture has two segments. -/
theorem length_pictureSegments (followed : Bool) (input stage : Nat) (ps : List (Placed Picture)) :
    (pictureSegments followed input stage ps).length = 2 * ps.length := by
  induction ps generalizing input stage with
  | nil => rfl
  | cons p ps ih =>
    rw [pictureSegments, List.length_cons, List.length_cons, ih, List.length_cons]
    omega

/-- The first of them brings the picture to its size. -/
theorem getElem?_pictureSegments_source {ps : List (Placed Picture)} {j : Nat} {p : Placed Picture}
    (hp : ps[j]? = some p) (followed : Bool) (input stage : Nat) :
    (pictureSegments followed input stage ps)[2 * j]?
      = some ⟨[.input (input + j)], p.placement.sourceFilters, some (.scaled (stage + j))⟩ := by
  induction ps generalizing input stage j with
  | nil => cases hp
  | cons q ps ih =>
    cases j with
    | zero =>
      cases hp
      rfl
    | succ j =>
      have hrest := ih (j := j) hp (input + 1) (stage + 1)
      rw [Nat.add_assoc, Nat.add_comm 1 j, Nat.add_assoc, Nat.add_comm 1 j] at hrest
      exact hrest

/-- The second one lays it over what was drawn before, and writes a stage if something follows. -/
theorem getElem?_pictureSegments_overlay {ps : List (Placed Picture)} {j : Nat} {p : Placed Picture}
    (hp : ps[j]? = some p) (followed : Bool) (input stage : Nat) :
    (pictureSegments followed input stage ps)[2 * j + 1]?
      = some ⟨[baseStream (stage + j), .labelled (.scaled (stage + j))],
          p.placement.overlayFilter p.content.still,
          labelIf (decide (j + 1 < ps.length) || followed) (.stage (stage + j + 1))⟩ := by
  induction ps generalizing input stage j with
  | nil => cases hp
  | cons q ps ih =>
    cases j with
    | zero =>
      cases hp
      have hmore : (!ps.isEmpty) = decide (0 + 1 < (p :: ps).length) := by
        cases ps <;> rfl
      rw [← hmore]
      rfl
    | succ j =>
      have hrest := ih (j := j) hp (input + 1) (stage + 1)
      have hlater : decide (j + 1 < ps.length) = decide (j + 1 + 1 < (q :: ps).length) :=
        decide_eq_decide.mpr Nat.succ_lt_succ_iff.symm
      rw [Nat.add_assoc stage, Nat.add_comm 1 j, hlater] at hrest
      exact hrest

/-- The segments of a picture stand at its place, two for each picture below it. -/
theorem getElem?_layerSegments_picture {ps : List (Placed Picture)} {j : Nat} {p : Placed Picture}
    (hp : ps[j]? = some p) (input stage : Nat) (above : List Layer) :
    (layerSegments input stage (ps.map .picture ++ above))[2 * j]?
      = some ⟨[.input (input + j)], p.placement.sourceFilters, some (.scaled (stage + j))⟩ := by
  have hj : j < ps.length := (List.getElem?_eq_some_iff.mp hp).1
  rw [← pictureSegments_append, List.getElem?_append_left (by rw [length_pictureSegments]; omega),
    getElem?_pictureSegments_source hp]

end Session
end VideoOverlay
