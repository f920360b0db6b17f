import VideoOverlay.Graph.Compile

/-!
# `Proofs.Graph.Layout` — the segments of a session, laid out at once

The segments of a session can be told without emitting them one by one: each stage has a number that follows from how
many overlays of each kind there are, and a label is written for the stage that comes next. The labels are checked
along this layout afterwards.

What is emitted comes to the same (`compile_eq`). A part of the compiler adds the segments of its own layout to those
that are emitted already, or refuses the first of them that reads a label which none before it wrote, and it goes on
from one stage to another (`Emits`). Such parts compose along appended layouts (`Emits.bind`).

## Contents
- `colorKeySegments`, `pictureSegments`, `textSegments`, `boxSegments`, `Session.segments`: the layout.
- `checkLabels`, `checkLabels_append`: the first label that is read before it is written.
- `Emits`, with `Emits.bind`; `emits_colorKey`, `emits_pictures`, `emits_texts`, `emits_boxes`.
- `Session.compile_eq`.
-/

namespace VideoOverlay

/-! ## Stages -/

/-- The keyed main video is laid over the background. -/
def colorKeySegments (key : Placed ColorKey) (followed : Bool) : List Segment :=
  [⟨[.input 0], key.content.filter, some .keyed⟩,
    ⟨[.input 1], scaleFilter key.placement.dimension, some (.stage 1)⟩,
    ⟨[.labelled (.stage 1), .labelled .keyed], "overlay", labelIf followed (.stage 2)⟩]

/-- Each picture is brought to its size and laid over what was drawn before. The pictures read the inputs
from `input` on. -/
def pictureSegments (followed : Bool) (input stage : Nat) : List (Placed Picture) → List Segment
  | [] => []
  | p :: ps =>
    ⟨[.input input], p.placement.sourceFilters, some (.scaled stage)⟩
      :: ⟨[baseStream stage, .labelled (.scaled stage)], p.placement.overlayFilter p.content.still,
          labelIf (!ps.isEmpty || followed) (.stage (stage + 1))⟩
      :: pictureSegments followed (input + 1) (stage + 1) ps

/-- All texts are drawn by one segment. -/
def textSegments (followed : Bool) (stage : Nat) (texts : List (Placed String)) : List Segment :=
  if texts.isEmpty then []
  else [⟨[baseStream stage], String.intercalate "," (texts.map Placed.content),
    labelIf followed (.stage (stage + 1))⟩]

/-- All boxes are drawn by one segment, which closes the graph. -/
def boxSegments (stage : Nat) (boxes : List (Placed (Option Color))) : List Segment :=
  if boxes.isEmpty then []
  else [⟨[.labelled (.stage stage)],
    String.intercalate "," (boxes.map fun b => drawBox b.placement b.content), none⟩]

namespace Session

/-- The number of the stage that the pictures start with: a color key takes the first. -/
def pictureStage (s : Session) : Nat := if s.colorKey.isSome then 2 else 1

/-- The number of the stage that the texts make. -/
def textStage (s : Session) : Nat := s.pictureStage + s.pictures.length

/-- The number of the stage that the boxes make. -/
def boxStage (s : Session) : Nat := if s.texts.isEmpty then s.textStage else s.textStage + 1

/-- The segments of all stages, in order. -/
def segments (s : Session) : List Segment :=
  let hasTexts := !s.texts.isEmpty
  (match s.colorKey with
    | some key => colorKeySegments key (!s.pictures.isEmpty || hasTexts)
    | none => [])
  ++ pictureSegments hasTexts (1 + s.colorKeyInputCount) s.pictureStage s.pictures
  ++ textSegments (!s.boxes.isEmpty) s.textStage s.texts
  ++ boxSegments s.boxStage s.boxes

end Session

/-! ## Labels -/

/-- Every label is written by an earlier segment before it is read. `written` are the labels written so
far and `index` is the number of the first segment. -/
def checkLabels (written : List Label) (index : Nat) : List Segment → Except GraphError Unit
  | [] => .ok ()
  | s :: rest =>
    match s.reads.find? (· ∉ written) with
    | some label => .error (.danglingLabel label.text index)
    | none => checkLabels (s.output.toList ++ written) (index + 1) rest

/-- A checked list of segments, and one more after it. -/
theorem checkLabels_append {written : List Label} {index : Nat} {front back : List Segment}
    (h : checkLabels written index front = .ok ()) :
    checkLabels written index (front ++ back)
      = checkLabels ((front.map fun s => s.output.toList).reverse.flatten ++ written)
          (index + front.length) back := by
  induction front generalizing written index with
  | nil => simp
  | cons s front ih =>
    simp only [checkLabels, List.cons_append] at h ⊢
    split at h
    · cases h
    · rw [ih h]
      simp only [List.map_cons, List.reverse_cons, List.flatten_append, List.flatten_cons, List.flatten_nil,
        List.append_nil, List.append_assoc, List.length_cons, Nat.add_assoc, Nat.add_comm 1]

/-- The first label that is missing is missing whatever comes behind. -/
theorem checkLabels_append_of_error {written : List Label} {index : Nat} {front : List Segment} {e : GraphError}
    (h : checkLabels written index front = .error e) (back : List Segment) :
    checkLabels written index (front ++ back) = .error e := by
  induction front generalizing written index with
  | nil => cases h
  | cons s front ih =>
    rw [List.cons_append]
    rw [checkLabels] at h ⊢
    split at h
    next label hlabel =>
      cases h
      rfl
    next hnone => exact ih h

/-! ## Emitting a layout -/

/-- What is emitted, and some segments more. -/
def Emission.extend (e : Emission) (segments : List Segment) (stage : Nat) : Emission where
  segments := e.segments ++ segments
  written := (segments.map fun s => s.output.toList).reverse.flatten ++ e.written
  stage := stage

/-- A part of the compiler emits a layout: from the stage `first` on, it adds these segments to those that are emitted
already, if their labels are written before they are read, and then the stage is `last`. -/
def Emits (f : Emission → Except GraphError Emission) (first : Nat) (layout : List Segment) (last : Nat) : Prop :=
  ∀ e : Emission, e.stage = first →
    f e = (checkLabels e.written e.segments.length layout).map fun _ => e.extend layout last

section Emitting

variable {f g : Emission → Except GraphError Emission} {layout layout' : List Segment} {first middle last : Nat}

/-- **Parts of the compiler, one after the other, emit their layouts one behind the other.** -/
theorem Emits.bind (hf : Emits f first layout middle) (hg : Emits g middle layout' last) :
    Emits (fun e => f e >>= g) first (layout ++ layout') last := by
  intro e he
  show f e >>= g = _
  rw [hf e he]
  cases hcheck : checkLabels e.written e.segments.length layout with
  | error v =>
    rw [checkLabels_append_of_error hcheck]
    rfl
  | ok =>
    have hbehind := hg (e.extend layout middle) rfl
    rw [checkLabels_append hcheck]
    show g (e.extend layout middle) = _
    rw [hbehind]
    show (checkLabels _ (e.segments ++ layout).length layout').map _ = _
    rw [List.length_append]
    congr 1
    funext _
    simp only [Emission.extend, List.append_assoc, List.map_append, List.reverse_append, List.flatten_append]

/-- A part of the compiler that emits nothing. -/
theorem emits_pure (stage : Nat) : Emits pure stage [] stage := by
  rintro e rfl
  show Except.ok e = Except.ok (e.extend [] e.stage)
  rw [Emission.extend, List.append_nil]
  rfl

/-- Going on to another stage emits nothing. -/
theorem emits_stage {move : Emission → Emission} (h : ∀ e : Emission, e.stage = first → move e = e.extend [] last) :
    Emits (fun e => pure (move e)) first [] last := by
  intro e he
  show Except.ok (move e) = Except.ok (e.extend [] last)
  rw [h e he]

/-- **One segment is emitted.** It may depend on the stage. -/
theorem emits_segment {sources : List Stream} {filters : String} {output : Option Label}
    (h : ∀ e : Emission, e.stage = first → f e = e.emit sources filters output) :
    Emits f first [⟨sources, filters, output⟩] first := by
  intro e he
  rw [h e he, Emission.emit, checkLabels]
  cases (Segment.reads ⟨sources, filters, output⟩).find? (· ∉ e.written) with
  | some label => rfl
  | none =>
    have hlabels : (([⟨sources, filters, output⟩] : List Segment).map fun s => s.output.toList).reverse.flatten
        = output.toList := List.append_nil _
    show Except.ok _ = Except.ok (e.extend _ first)
    rw [Emission.extend, hlabels, ← he]

end Emitting

/-! ## The kinds of overlays -/

theorem emits_colorKey (followed : Bool) (key : Option (Placed ColorKey)) :
    Emits (fun e => e.emitColorKey followed key) 1
      (match key with
        | some key => colorKeySegments key followed
        | none => [])
      (if key.isSome then 2 else 1) := by
  cases key with
  | none => exact emits_pure 1
  | some key =>
    exact (emits_segment fun _ _ => rfl).bind ((emits_segment fun _ _ => rfl).bind
      ((emits_segment fun _ _ => rfl).bind (emits_stage fun e _ => by simp [Emission.extend])))

/-- The stage after this one is the latest. -/
theorem emits_advance (stage : Nat) : Emits (fun e => pure e.advance) stage [] (stage + 1) := by
  refine emits_stage fun e he => ?_
  rw [Emission.advance, he, Emission.extend, List.append_nil]
  rfl

theorem emits_picture (input stage : Nat) (followed : Bool) (p : Placed Picture) :
    Emits (fun e => e.emitPicture input followed p) stage
      [⟨[.input input], p.placement.sourceFilters, some (.scaled stage)⟩,
        ⟨[baseStream stage, .labelled (.scaled stage)], p.placement.overlayFilter p.content.still,
          labelIf followed (.stage (stage + 1))⟩]
      (stage + 1) :=
  (emits_segment fun e he => by rw [he]).bind
    ((emits_segment fun e he => by rw [he]).bind (emits_advance stage))

/-- The pictures that are left, of `count` ones. The induction is along the loop over them. -/
theorem emits_pictures_from (followed : Bool) (first count index stage : Nat) (ps : List (Placed Picture))
    (hcount : index + ps.length = count) :
    Emits (fun e => (ps.zipIdx index).foldlM
        (fun e q => e.emitPicture (first + q.2) (q.2 + 1 < count || followed) q.1) e) stage
      (pictureSegments followed (first + index) stage ps) (stage + ps.length) := by
  induction ps generalizing index stage with
  | nil => exact emits_pure stage
  | cons p ps ih =>
    rw [List.length_cons] at hcount
    have hlater : decide (index + 1 < count) = !ps.isEmpty := by
      cases ps with
      | nil =>
        rw [List.length_nil] at hcount
        exact decide_eq_false (by omega)
      | cons q qs =>
        rw [List.length_cons] at hcount
        exact decide_eq_true (by omega)
    have hrest := ih (index + 1) (stage + 1) (by omega)
    have hboth := (emits_picture (first + index) stage (!ps.isEmpty || followed) p).bind hrest
    rw [List.length_cons, Nat.add_comm ps.length, ← Nat.add_assoc]
    simp only [List.zipIdx_cons, List.foldlM_cons, hlater]
    exact hboth

theorem emits_pictures (followed : Bool) (first stage : Nat) (ps : List (Placed Picture)) :
    Emits (fun e => e.emitPictures first followed ps) stage (pictureSegments followed first stage ps)
      (stage + ps.length) :=
  emits_pictures_from followed first ps.length 0 stage ps (Nat.zero_add _)

theorem emits_texts (followed : Bool) (stage : Nat) (texts : List (Placed String)) :
    Emits (fun e => e.onlyIf (!texts.isEmpty) fun e => e.emitTexts followed texts) stage
      (textSegments followed stage texts) (if texts.isEmpty then stage else stage + 1) := by
  cases texts with
  | nil => exact emits_pure stage
  | cons => exact (emits_segment fun e he => by rw [he]).bind (emits_advance stage)

theorem emits_boxes (stage : Nat) (boxes : List (Placed (Option Color))) :
    Emits (fun e => e.onlyIf (!boxes.isEmpty) fun e => e.emitBoxes boxes) stage (boxSegments stage boxes) stage := by
  cases boxes with
  | nil => exact emits_pure stage
  | cons => exact emits_segment fun e he => by rw [← he]; rfl

/-! ## Sessions -/

namespace Session

theorem emits_session (s : Session) : Emits (fun e => e.emitSession s) 1 s.segments s.boxStage := by
  have hall := (emits_colorKey (!s.pictures.isEmpty || !s.texts.isEmpty) s.colorKey).bind
    ((emits_pictures (!s.texts.isEmpty) (1 + s.colorKeyInputCount) s.pictureStage s.pictures).bind
      ((emits_texts (!s.boxes.isEmpty) s.textStage s.texts).bind (emits_boxes s.boxStage s.boxes)))
  rw [segments, List.append_assoc, List.append_assoc]
  exact hall

/-- **The graph of a session is its layout, if every label of this is written before it is read.** -/
theorem compile_eq (s : Session) :
    s.compile = (checkLabels [] 0 s.segments).map fun _ => ⟨s.segments, s.inputs⟩ := by
  have hemits : ({} : Emission).emitSession s = _ := emits_session s {} rfl
  rw [compile, hemits]
  cases checkLabels [] 0 s.segments with
  | error e => rfl
  | ok => rfl

end Session
end VideoOverlay
