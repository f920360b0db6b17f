import VideoOverlay.Proofs.Graph.Tokens

/-!
# `Proofs.Graph.Still` — marking pictures as still ones

Whether a picture is a still one is a flag that nothing in a session looks at. It is looked at once in the
graph, by the filter that lays the picture over the stream below: a still picture stops with that stream.
So marking pictures leaves the inputs and the links of the graph as they are, and in the segments it changes
the options of the marked pictures only (`compile_markStill`).

## Contents
- `Session.getElem?_segments_picture`, `Session.overlayPlace`: the pictures in the graph of a session.
- `Placed.markStill`, `Session.markStill`, `Session.TakesMarks`: pictures with marks.
- `StopsBelow`: what a mark does to a segment. `Session.MarkedIn`: what marks do to a graph.
- `compile_markStill`.
-/

namespace VideoOverlay

/-! ## The pictures in the graph of a session -/

namespace Session

variable {s : Session}

theorem length_keySegments_eq (s : Session) (followed : Bool) :
    (s.keySegments followed).length = 3 * s.colorKey.toList.length := by
  rw [length_keySegments]
  cases s.colorKey <;> rfl

/-- In the graph of a session the segments of the pictures stand behind the three of the color key. -/
theorem getElem?_segments_picture {m : Nat} (hm : m < 2 * s.pictures.length) :
    s.segments[3 * s.colorKey.toList.length + m]?
      = (pictureSegments (!s.texts.isEmpty) s.firstInput s.pictureStage s.pictures)[m]? := by
  have hlen := length_keySegments_eq s (!s.pictures.isEmpty || !s.texts.isEmpty)
  rw [segments_eq, List.append_assoc, List.append_assoc, List.getElem?_append_right (by omega), hlen,
    Nat.add_sub_cancel_left, List.getElem?_append_left (by rw [length_pictureSegments]; exact hm)]

/-- The place of the segment that lays the picture number `j` over what is drawn before it. -/
def overlayPlace (s : Session) (j : Nat) : Nat := 3 * s.colorKey.toList.length + (2 * j + 1)

end Session

/-! ## Marks -/

/-- A picture that is a still one if it is marked, or was one before. -/
def Placed.markStill (mark : Bool) (p : Placed Picture) : Placed Picture :=
  { p with content := { p.content with still := p.content.still || mark } }

/-- A picture without a mark is as before. -/
theorem Placed.markStill_false (p : Placed Picture) : p.markStill false = p := by
  rw [Placed.markStill, Bool.or_false]

/-- Where a picture is laid over the stream below: in the corner if that is not said. -/
def Placement.place (p : Placement) : String := (p.position.map Position.text).getD "0:0"

/-- A segment lays something over at a place, and another one does the same but stops with what is below. -/
def StopsBelow (place : String) (seg seg' : Segment) : Prop :=
  ∃ time, seg.filters = "overlay=" ++ place ++ time
    ∧ seg' = { seg with filters := "overlay=" ++ place ++ ":shortest='1'" ++ time }

/-- The session with a mark for each picture, in their order. -/
def Session.markStill (s : Session) (marks : List Bool) : Session :=
  { s with pictures := List.zipWith Placed.markStill marks s.pictures }

/-- There is a mark for each picture, and a picture that is marked was not a still one before. -/
structure Session.TakesMarks (s : Session) (marks : List Bool) : Prop where
  length : marks.length = s.pictures.length
  moving : ∀ (j : Nat) (p : Placed Picture), s.pictures[j]? = some p → marks[j]? = some true →
    p.content.still = false

/-- Two graphs of a session are the same, but for the marked pictures, which stop with the stream below. -/
structure Session.MarkedIn (s : Session) (marks : List Bool) (g g' : Graph) : Prop where
  inputs : g'.inputs = g.inputs
  length : g'.segments.length = g.segments.length
  marked : ∀ j p, s.pictures[j]? = some p → marks[j]? = some true →
    ∃ followed seg', g.segments[s.overlayPlace j]? = some (s.overlaySegment j p followed)
      ∧ g'.segments[s.overlayPlace j]? = some seg'
      ∧ StopsBelow p.placement.place (s.overlaySegment j p followed) seg'
  unmarked : ∀ i, (¬∃ j, marks[j]? = some true ∧ i = s.overlayPlace j) → g'.segments[i]? = g.segments[i]?

namespace Session

variable {s : Session} {marks : List Bool}

/-! ## Segments of marked pictures -/

theorem length_markStill (h : marks.length = s.pictures.length) :
    (s.markStill marks).pictures.length = s.pictures.length := by
  rw [markStill, List.length_zipWith, h, Nat.min_self]

theorem getElem?_markStill {j : Nat} {p : Placed Picture} {mark : Bool} (hp : s.pictures[j]? = some p)
    (hmark : marks[j]? = some mark) : (s.markStill marks).pictures[j]? = some (p.markStill mark) := by
  rw [markStill, List.getElem?_zipWith, hp, hmark]

/-- There is a mark for each picture. -/
theorem exists_mark (h : marks.length = s.pictures.length) {j : Nat} (hj : j < s.pictures.length) :
    ∃ p mark, s.pictures[j]? = some p ∧ marks[j]? = some mark :=
  ⟨_, _, List.getElem?_eq_getElem hj, List.getElem?_eq_getElem (by omega)⟩

/-- Marking changes segments of pictures only. -/
theorem segments_markStill (h : marks.length = s.pictures.length) :
    (s.markStill marks).segments = s.keySegments (!s.pictures.isEmpty || !s.texts.isEmpty)
      ++ pictureSegments (!s.texts.isEmpty) s.firstInput s.pictureStage (s.markStill marks).pictures
      ++ textSegments (!s.boxes.isEmpty) s.textStage s.texts ++ boxSegments s.boxStage s.boxes := by
  have hempty : (s.markStill marks).pictures.isEmpty = s.pictures.isEmpty := by
    rw [Bool.eq_iff_iff, List.isEmpty_iff_length_eq_zero, List.isEmpty_iff_length_eq_zero,
      length_markStill h]
  have hstage : (s.markStill marks).textStage = s.textStage := by
    rw [textStage, textStage, length_markStill h]
    rfl
  have hbox : (s.markStill marks).boxStage = s.boxStage := by
    rw [boxStage, boxStage, hstage]
    rfl
  rw [segments_eq, hempty, hstage, hbox]
  rfl

/-- Segments of other kinds are the same. -/
theorem getElem?_segments_markStill_of_other (h : marks.length = s.pictures.length) {i : Nat}
    (hi : ∀ m, m < 2 * s.pictures.length → i ≠ 3 * s.colorKey.toList.length + m) :
    (s.markStill marks).segments[i]? = s.segments[i]? := by
  have hkey := length_keySegments_eq s (!s.pictures.isEmpty || !s.texts.isEmpty)
  rw [segments_markStill h, segments_eq]
  simp only [List.append_assoc, List.getElem?_append, length_pictureSegments, length_markStill h, hkey]
  by_cases hfirst : i < 3 * s.colorKey.toList.length
  · rw [if_pos hfirst, if_pos hfirst]
  · have hlast : ¬i - 3 * s.colorKey.toList.length < 2 * s.pictures.length := by
      intro hlt
      exact hi _ hlt (by omega)
    rw [if_neg hfirst, if_neg hfirst, if_neg hlast, if_neg hlast]

/-- The segment that brings a picture to its size is the same. -/
theorem getElem?_segments_markStill_source (h : marks.length = s.pictures.length) {j : Nat}
    (hj : j < s.pictures.length) :
    (s.markStill marks).segments[3 * s.colorKey.toList.length + 2 * j]?
      = s.segments[3 * s.colorKey.toList.length + 2 * j]? := by
  obtain ⟨p, mark, hp, hmark⟩ := exists_mark h hj
  have hnew := getElem?_segments_picture (s := s.markStill marks) (m := 2 * j)
    (by rw [length_markStill h]; omega)
  have hold := getElem?_segments_picture (s := s) (m := 2 * j) (by omega)
  rw [getElem?_pictureSegments_source (getElem?_markStill hp hmark)] at hnew
  rw [getElem?_pictureSegments_source hp] at hold
  exact hnew.trans hold.symm

/-- The segment that lays a picture over, with the flag that the picture has. -/
theorem getElem?_segments_overlay {j : Nat} {p : Placed Picture} (hp : s.pictures[j]? = some p) :
    s.segments[s.overlayPlace j]?
      = some (s.overlaySegment j p (decide (j + 1 < s.pictures.length) || !s.texts.isEmpty)) := by
  have hj : j < s.pictures.length := (List.getElem?_eq_some_iff.mp hp).1
  rw [overlayPlace, getElem?_segments_picture (by omega), getElem?_pictureSegments_overlay hp]
  rfl

/-- The segment that lays a marked picture over. -/
theorem getElem?_segments_markStill_overlay (h : marks.length = s.pictures.length) {j : Nat}
    {p : Placed Picture} {mark : Bool} (hp : s.pictures[j]? = some p) (hmark : marks[j]? = some mark) :
    (s.markStill marks).segments[s.overlayPlace j]?
      = some (s.overlaySegment j (p.markStill mark)
          (decide (j + 1 < s.pictures.length) || !s.texts.isEmpty)) := by
  have hnew := getElem?_segments_overlay (s := s.markStill marks) (getElem?_markStill hp hmark)
  rw [length_markStill h] at hnew
  exact hnew

/-- A picture that was not a still one stops with the stream below once it is marked. -/
theorem stopsBelow_markStill (j : Nat) {p : Placed Picture} (hp : p.content.still = false) (followed : Bool) :
    StopsBelow p.placement.place (s.overlaySegment j p followed)
      (s.overlaySegment j (p.markStill true) followed) := by
  refine ⟨(p.placement.timeRange.map fun r => ":" ++ r.enableClause).getD "", ?_, ?_⟩
  · rw [overlaySegment, hp, Placement.overlayFilter, if_neg Bool.false_ne_true, String.append_empty]
    rfl
  · rw [overlaySegment, overlaySegment, Placed.markStill, hp, Placement.overlayFilter]
    rfl

/-- **Marks change the segments of the marked pictures, and no other.** -/
theorem markedIn_segments (hmarks : s.TakesMarks marks) :
    s.MarkedIn marks ⟨s.segments, s.inputs⟩ ⟨(s.markStill marks).segments, s.inputs⟩ where
  inputs := rfl
  length := by
    simp only [segments_markStill hmarks.length, segments_eq, List.length_append, length_pictureSegments,
      length_markStill hmarks.length]
  marked := by
    intro j p hp hmark
    exact ⟨_, _, getElem?_segments_overlay hp, getElem?_segments_markStill_overlay hmarks.length hp hmark,
      stopsBelow_markStill j (hmarks.moving j p hp hmark) _⟩
  unmarked := by
    intro i hi
    have h := hmarks.length
    show (s.markStill marks).segments[i]? = s.segments[i]?
    by_cases hpicture : ∃ m, m < 2 * s.pictures.length ∧ i = 3 * s.colorKey.toList.length + m
    · -- An even place brings a picture to its size, and an odd one lays it over.
      obtain ⟨m, hm, rfl⟩ := hpicture
      obtain ⟨j, rfl | rfl⟩ : ∃ j, m = 2 * j ∨ m = 2 * j + 1 := ⟨m / 2, by omega⟩
      · exact getElem?_segments_markStill_source h (by omega)
      · obtain ⟨p, mark, hp, hmark⟩ := exists_mark h (j := j) (by omega)
        cases mark with
        | true => exact absurd ⟨j, hmark, rfl⟩ hi
        | false =>
          have hsame := getElem?_segments_markStill_overlay h hp hmark
          rw [Placed.markStill_false, ← getElem?_segments_overlay hp] at hsame
          exact hsame
    · exact getElem?_segments_markStill_of_other h fun m hm heq => hpicture ⟨m, hm, heq⟩

/-! ## Compilation -/

/-- **A session with marked pictures compiles as it does without the marks**: it is refused for the same
reason, or its graph is the same but for the marked pictures. -/
theorem compile_markStill (hmarks : s.TakesMarks marks) :
    (∃ v, s.compile = .error v ∧ (s.markStill marks).compile = .error v)
      ∨ ∃ g g', s.compile = .ok g ∧ (s.markStill marks).compile = .ok g' ∧ s.MarkedIn marks g g' := by
  by_cases hl : s.Layered
  · have hl' : (s.markStill marks).Layered := hl
    exact .inr ⟨_, _, compile_of_layered hl, compile_of_layered hl', markedIn_segments hmarks⟩
  · -- The refusal counts pictures and segments, and marks do not change these numbers.
    have hl' : ¬(s.markStill marks).Layered := hl
    refine .inl ⟨_, compile_of_not_layered hl, ?_⟩
    rw [compile_of_not_layered hl', refusal_eq, refusal_eq, length_markStill hmarks.length]
    rfl

end Session
end VideoOverlay
