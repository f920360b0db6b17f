import VideoOverlay.Proofs.Graph.Still
import VideoOverlay.Proofs.Session.Run

/-!
# `Proofs.Graph.Lines` — every segment of a graph, by its number

The segments of a session are written stage by stage, and each stage counts on from the one before: the inputs
from the files of the color key, the labels from the stage it makes, the segments from those that are there
already. The three counts run apart as soon as a color key has two files. This module says what they come to:
for each number of a segment the text that stands there, in terms of the overlays alone (`Session.Written`).

The numbers cover all segments, so the list is determined by what is said (`Written.unique`).

## Contents
- `inputText`, `scaledText`, `stageText`, `belowText`: streams as a segment refers to them.
- `Session.Written`, `Session.Written.unique`.
- `length_segments`, `getElem?_segments_colorKey`, `getElem?_segments_texts`,
  `getElem?_segments_boxes`: where the segments stand that are not those of a picture.
- `compile_written`.
-/

namespace VideoOverlay

/-! ## Streams in brackets -/

/-- The input file number `n`. -/
def inputText (n : Nat) : String := "[" ++ toString n ++ ":v]"

/-- The picture number `n`, brought to its size. -/
def scaledText (n : Nat) : String := "[s" ++ toString n ++ "]"

/-- Everything that is drawn up to the stage number `n`. -/
def stageText (n : Nat) : String := "[out" ++ toString n ++ "]"

/-- What is drawn onto when `n` stages are there: the main video if there are none. -/
def belowText (n : Nat) : String := if n = 0 then "[0:v]" else stageText (1 + n)

theorem text_input (n : Nat) : (Stream.input n).text = inputText n := rfl

theorem text_scaled (n : Nat) : (Stream.labelled (.scaled n)).text = scaledText n := by
  simp [Stream.text, Label.text, scaledText, ← String.toList_inj]

theorem text_stage (n : Nat) : (Stream.labelled (.stage n)).text = stageText n := by
  simp [Stream.text, Label.text, stageText, ← String.toList_inj]

theorem text_baseStream (n : Nat) : (baseStream (1 + n)).text = belowText n := by
  unfold baseStream belowText
  by_cases h : n = 0
  · simp [h]
    rfl
  · rw [if_neg (by omega), if_neg h, text_stage]

/-- A segment that reads one stream. -/
theorem text_segment_one (a : Stream) (filters : String) (output : Option Label) :
    Segment.text ⟨[a], filters, output⟩
      = a.text ++ filters ++ (output.map fun label => (Stream.labelled label).text).getD "" := by
  simp [Segment.text, String.join_cons]

/-- A segment that reads two streams. -/
theorem text_segment_two (a b : Stream) (filters : String) (output : Option Label) :
    Segment.text ⟨[a, b], filters, output⟩
      = a.text ++ b.text ++ filters ++ (output.map fun label => (Stream.labelled label).text).getD "" := by
  simp [Segment.text, String.join_cons]

/-- A stage is written in the text if something follows. -/
theorem text_labelIf {followed : Bool} {condition : Prop} [Decidable condition]
    (h : followed = true ↔ condition) (n : Nat) :
    ((labelIf followed (.stage n)).map fun label => (Stream.labelled label).text).getD ""
      = if condition then stageText n else "" := by
  unfold labelIf
  by_cases hc : condition
  · rw [if_pos (h.mpr hc), if_pos hc, Option.map_some, Option.getD_some, text_stage]
  · rw [if_neg (fun hf => hc (h.mp hf)), if_neg hc]
    rfl

namespace Session

variable {s : Session}

/-! ## What is written -/

/-- The stages of the color key: one if there is a key. -/
def keyStages (s : Session) : Nat := s.colorKey.toList.length

theorem pictureStage_add (s : Session) (i : Nat) : s.pictureStage + i = 1 + (s.keyStages + i) := by
  unfold pictureStage keyStages
  cases s.colorKey
  · simp
  · simp only [Option.isSome_some, if_true, Option.toList_some, List.length_singleton]
    omega

theorem textStage_eq (s : Session) : s.textStage = 1 + (s.keyStages + s.pictures.length) :=
  s.pictureStage_add s.pictures.length

/-- Boxes have a text below. -/
theorem Layered.texts_pos (hl : s.Layered) (h : 0 < s.boxes.length) : 0 < s.texts.length := by
  rcases hl with hnil | htexts
  · rw [hnil] at h
    exact absurd h (Nat.lt_irrefl 0)
  · exact List.length_pos_iff.mpr htexts

/-- The lines that the segments of a session are written as. A color key makes three of them, each picture two,
the texts one together, and so do the boxes; a line ends in the label of its stage if a later line reads it. The
pictures read the inputs behind the files of the key. -/
structure Written (s : Session) (lines : List String) : Prop where
  length : lines.length = 3 * s.keyStages + 2 * s.pictures.length
    + (if 0 < s.texts.length then 1 else 0) + (if 0 < s.boxes.length then 1 else 0)
  colorKey : ∀ key, s.colorKey = some key → ∃ size, key.placement.dimension = some size
    ∧ lines[0]? = some ("[0:v]" ++ key.content.filter ++ "[sck]")
    ∧ lines[1]? = some ("[1:v]scale=" ++ size.text ++ "[out1]")
    ∧ lines[2]? = some ("[out1][sck]overlay"
        ++ if 0 < s.pictures.length ∨ 0 < s.texts.length then "[out2]" else "")
  source : ∀ i p, s.pictures[i]? = some p → lines[3 * s.keyStages + 2 * i]?
    = some (inputText (1 + s.colorKeyInputCount + i) ++ p.placement.sourceFilters
        ++ scaledText (1 + s.keyStages + i))
  overlay : ∀ i p, s.pictures[i]? = some p → lines[3 * s.keyStages + 2 * i + 1]?
    = some (belowText (s.keyStages + i) ++ scaledText (1 + s.keyStages + i)
        ++ p.placement.overlayFilter p.content.still
        ++ if i + 1 < s.pictures.length ∨ 0 < s.texts.length then stageText (2 + s.keyStages + i) else "")
  texts : 0 < s.texts.length → lines[3 * s.keyStages + 2 * s.pictures.length]?
    = some (belowText (s.keyStages + s.pictures.length) ++ String.intercalate "," (s.texts.map (·.content))
        ++ if 0 < s.boxes.length then stageText (2 + s.keyStages + s.pictures.length) else "")
  boxes : 0 < s.boxes.length → lines[3 * s.keyStages + 2 * s.pictures.length + 1]?
    = some (stageText (2 + s.keyStages + s.pictures.length)
        ++ String.intercalate "," (s.boxes.map fun b => drawBox b.placement b.content))

/-- **The lines of a session are determined**: each number up to the last belongs to one of the overlays. -/
theorem Written.unique (hl : s.Layered) {lines lines' : List String} (h : s.Written lines)
    (h' : s.Written lines') : lines = lines' := by
  have htexts := hl.texts_pos
  apply List.ext_getElem?
  intro i
  by_cases hkey : i < 3 * s.keyStages
  · -- One of the three lines of the color key.
    cases hk : s.colorKey with
    | none => simp [keyStages, hk] at hkey
    | some key =>
      obtain ⟨size, hsize, hfirst, hsecond, hthird⟩ := h.colorKey key hk
      obtain ⟨size', hsize', hfirst', hsecond', hthird'⟩ := h'.colorKey key hk
      cases hsize.symm.trans hsize'
      have hlt : i < 3 := by simpa [keyStages, hk] using hkey
      obtain rfl | rfl | rfl : i = 0 ∨ i = 1 ∨ i = 2 := by omega
      · exact hfirst.trans hfirst'.symm
      · exact hsecond.trans hsecond'.symm
      · exact hthird.trans hthird'.symm
  · by_cases hpicture : i < 3 * s.keyStages + 2 * s.pictures.length
    · -- The even and the odd one of the two lines of a picture.
      obtain ⟨j, hj⟩ : ∃ j, i = 3 * s.keyStages + 2 * j ∨ i = 3 * s.keyStages + 2 * j + 1 :=
        ⟨(i - 3 * s.keyStages) / 2, by omega⟩
      have hp : s.pictures[j]? = some s.pictures[j] := List.getElem?_eq_getElem (by omega)
      rcases hj with rfl | rfl
      · exact (h.source j _ hp).trans (h'.source j _ hp).symm
      · exact (h.overlay j _ hp).trans (h'.overlay j _ hp).symm
    · by_cases htext : 0 < s.texts.length ∧ i = 3 * s.keyStages + 2 * s.pictures.length
      · obtain ⟨hpos, rfl⟩ := htext
        exact (h.texts hpos).trans (h'.texts hpos).symm
      · by_cases hbox : 0 < s.boxes.length ∧ i = 3 * s.keyStages + 2 * s.pictures.length + 1
        · obtain ⟨hpos, rfl⟩ := hbox
          exact (h.boxes hpos).trans (h'.boxes hpos).symm
        · -- No line has a number beyond these.
          have hout : 3 * s.keyStages + 2 * s.pictures.length + (if 0 < s.texts.length then 1 else 0)
              + (if 0 < s.boxes.length then 1 else 0) ≤ i := by
            split_ifs <;> omega
          have hlen := h.length
          have hlen' := h'.length
          rw [List.getElem?_eq_none (by omega), List.getElem?_eq_none (by omega)]

/-! ## Where the segments stand -/

/-- How many segments there are. -/
theorem length_segments (s : Session) :
    s.segments.length = 3 * s.keyStages + 2 * s.pictures.length
      + (if 0 < s.texts.length then 1 else 0) + (if 0 < s.boxes.length then 1 else 0) := by
  have htexts (followed : Bool) :
      (textSegments followed s.textStage s.texts).length = if 0 < s.texts.length then 1 else 0 := by
    cases s.texts <;> simp [textSegments]
  have hboxes : (boxSegments s.boxStage s.boxes).length = if 0 < s.boxes.length then 1 else 0 := by
    cases s.boxes <;> simp [boxSegments]
  rw [segments_eq, List.length_append, List.length_append, List.length_append, length_keySegments_eq,
    length_pictureSegments, htexts, hboxes, keyStages]

/-- The segments of the color key are the first. -/
theorem getElem?_segments_colorKey {key : Placed ColorKey} (hk : s.colorKey = some key) {i : Nat} (hi : i < 3) :
    s.segments[i]? = (colorKeySegments key (!s.pictures.isEmpty || !s.texts.isEmpty))[i]? := by
  have hkey : s.keySegments (!s.pictures.isEmpty || !s.texts.isEmpty)
      = colorKeySegments key (!s.pictures.isEmpty || !s.texts.isEmpty) := by
    unfold keySegments
    rw [hk]
  rw [segments_eq, hkey, List.append_assoc, List.append_assoc]
  exact List.getElem?_append_left hi

/-- The segments behind those of the color key and of the pictures. -/
theorem getElem?_segments_above (s : Session) (i : Nat) :
    s.segments[3 * s.keyStages + 2 * s.pictures.length + i]?
      = (textSegments (!s.boxes.isEmpty) s.textStage s.texts ++ boxSegments s.boxStage s.boxes)[i]? := by
  rw [segments_eq, List.append_assoc, List.getElem?_append_right]
  · rw [List.length_append, length_keySegments_eq, length_pictureSegments, keyStages, Nat.add_sub_cancel_left]
  · rw [List.length_append, length_keySegments_eq, length_pictureSegments, keyStages]
    exact Nat.le_add_right _ _

/-- The segment of the texts. -/
theorem getElem?_segments_texts (h : 0 < s.texts.length) :
    s.segments[3 * s.keyStages + 2 * s.pictures.length]?
      = some ⟨[baseStream s.textStage], String.intercalate "," (s.texts.map (·.content)),
          labelIf (!s.boxes.isEmpty) (.stage (s.textStage + 1))⟩ := by
  have hempty : s.texts.isEmpty = false := List.isEmpty_eq_false_iff.mpr (List.length_pos_iff.mp h)
  have hat := getElem?_segments_above s 0
  rw [Nat.add_zero] at hat
  rw [hat, textSegments, hempty]
  rfl

/-- The segment of the boxes stands behind that of the texts, and reads the stage that it makes. -/
theorem getElem?_segments_boxes (htexts : 0 < s.texts.length) (hboxes : 0 < s.boxes.length) :
    s.segments[3 * s.keyStages + 2 * s.pictures.length + 1]?
      = some ⟨[.labelled (.stage (s.textStage + 1))],
          String.intercalate "," (s.boxes.map fun b => drawBox b.placement b.content), none⟩ := by
  have htexts : s.texts.isEmpty = false := List.isEmpty_eq_false_iff.mpr (List.length_pos_iff.mp htexts)
  have hboxes : s.boxes.isEmpty = false := List.isEmpty_eq_false_iff.mpr (List.length_pos_iff.mp hboxes)
  rw [getElem?_segments_above, textSegments, boxSegments, boxStage, htexts, hboxes]
  rfl

/-! ## The lines of a graph -/

/-- The three lines of a color key that has a size. -/
theorem lines_colorKey {key : Placed ColorKey} {size : Dimension} (hsize : key.placement.dimension = some size)
    {followed : Bool} {condition : Prop} [Decidable condition] (h : followed = true ↔ condition) :
    (colorKeySegments key followed).map Segment.text
      = ["[0:v]" ++ key.content.filter ++ "[sck]", "[1:v]scale=" ++ size.text ++ "[out1]",
          "[out1][sck]overlay" ++ if condition then "[out2]" else ""] := by
  have hscale : "[1:v]" ++ scaleFilter key.placement.dimension = "[1:v]scale=" ++ size.text := by
    rw [hsize, scaleFilter, Option.map_some, Option.getD_some, ← String.append_assoc]
    rfl
  rw [colorKeySegments, List.map_cons, List.map_cons, List.map_singleton, text_segment_one, text_segment_one,
    text_segment_two, text_labelIf h, ← hscale]
  rfl

/-- Every segment of a layered session is written as it says. -/
theorem written_segments (hc : s.Complete) (hl : s.Layered) : s.Written (s.segments.map Segment.text) := by
  have hmore : ∀ {α : Type} (l : List α), (!l.isEmpty) = true ↔ 0 < l.length := by
    intro α l
    cases l <;> simp
  have hfollowed : (!s.pictures.isEmpty || !s.texts.isEmpty) = true
      ↔ 0 < s.pictures.length ∨ 0 < s.texts.length := by
    rw [Bool.or_eq_true, hmore, hmore]
  have hboxStage : s.textStage + 1 = 2 + s.keyStages + s.pictures.length := by
    rw [textStage_eq]
    omega
  constructor
  case length => rw [List.length_map, length_segments]
  case colorKey =>
    intro key hk
    obtain ⟨size, hsize⟩ := Option.ne_none_iff_exists'.mp (hc.colorKey key hk).2.dimension
    have hlines : ∀ i, i < 3 → (s.segments.map Segment.text)[i]?
        = ((colorKeySegments key (!s.pictures.isEmpty || !s.texts.isEmpty)).map Segment.text)[i]? := by
      intro i hi
      rw [List.getElem?_map, getElem?_segments_colorKey hk hi, List.getElem?_map]
    rw [lines_colorKey hsize hfollowed] at hlines
    exact ⟨size, hsize, hlines 0 (by omega), hlines 1 (by omega), hlines 2 (by omega)⟩
  case source =>
    intro i p hp
    have hi : i < s.pictures.length := (List.getElem?_eq_some_iff.mp hp).1
    rw [List.getElem?_map, keyStages, getElem?_segments_picture (by omega), getElem?_pictureSegments_source hp,
      Option.map_some, text_segment_one, Option.map_some, Option.getD_some, text_input, text_scaled,
      pictureStage_add, Nat.add_assoc 1 (s.colorKey.toList.length)]
    rfl
  case overlay =>
    intro i p hp
    have hlater : (decide (i + 1 < s.pictures.length) || !s.texts.isEmpty) = true
        ↔ i + 1 < s.pictures.length ∨ 0 < s.texts.length := by
      rw [Bool.or_eq_true, hmore, decide_eq_true_iff]
    have hnext : s.pictureStage + i + 1 = 2 + s.keyStages + i := by
      rw [pictureStage_add]
      omega
    have hplace : 3 * s.keyStages + 2 * i + 1 = s.overlayPlace i := by
      rw [overlayPlace, keyStages, Nat.add_assoc]
    rw [List.getElem?_map, hplace, getElem?_segments_overlay hp, Option.map_some, overlaySegment,
      text_segment_two, text_labelIf hlater, text_scaled, hnext, pictureStage_add,
      text_baseStream, Nat.add_assoc 1]
  case texts =>
    intro h
    rw [List.getElem?_map, getElem?_segments_texts h, Option.map_some, text_segment_one,
      text_labelIf (hmore s.boxes), hboxStage, textStage_eq, text_baseStream]
  case boxes =>
    intro h
    rw [List.getElem?_map, getElem?_segments_boxes (hl.texts_pos h) h, Option.map_some, text_segment_one,
      text_stage, hboxStage]
    exact congrArg some (String.append_empty)

/-- **The graph of a session is written line by line as the overlays say**, and in no other way: whatever the
numbers of pictures, texts and boxes are, the lines are those of its overlays, and those lines are the graph. -/
theorem compile_written (hs : s.Reachable) {g : Graph} (hg : s.compile = .ok g) (lines : List String) :
    g.segments.map Segment.text = lines ↔ s.Written lines := by
  obtain ⟨hl, rfl⟩ := compile_eq_ok_iff.mp hg
  have hwritten := written_segments hs.complete hl
  constructor
  · rintro rfl
    exact hwritten
  · intro h
    exact hwritten.unique hl h

/-- The lines of the sample session, whose color key has two files: the pictures read the third input and the
fourth, and make the second stage and the third. -/
def sampleLines : List String :=
  ["[0:v]colorkey=green@1:0.01:0[sck]", "[1:v]scale=64:48[out1]", "[out1][sck]overlay[out2]",
    "[3:v]scale=64:48[s2]", "[out2][s2]overlay=0:0[out3]", "[4:v]scale=64:48[s3]", "[out3][s3]overlay=0:0[out4]",
    "[out4]drawtext=text=live[out5]", "[out5]drawbox=x=4:y=-2:w=64:h=48:color='green@1:t=max'"]

theorem compile_written_sample :
    ∃ g, sample.compile = .ok g ∧ g.segments.map Segment.text = sampleLines ∧ sample.Written sampleLines := by
  have hg := compile_of_layered (s := sample) (.inr (by decide +kernel))
  have hlines : sample.segments.map Segment.text = sampleLines := by decide +kernel
  exact ⟨_, hg, hlines, (compile_written reachable_sample hg sampleLines).mp hlines⟩

end Session
end VideoOverlay
