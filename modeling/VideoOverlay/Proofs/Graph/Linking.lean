import VideoOverlay.Proofs.Graph.Check

/-!
# `Proofs.Graph.Linking` — what the segments of a session read and write

A layer reads the stage below and writes its own if another layer follows, so along the layers the labels
that are read are the open one at the bottom and then those that are written, in the very order
(`reads_layerSegments`). Over a whole session nothing is open at the bottom: each label is written once
(`nodup_writes`) and read once (`reads_perm_writes`).

The input files are counted the same way: the main video is read by whatever is drawn first, the color key
reads its first file, and each picture reads one file (`inputReads_perm`).

## Contents
- `reads`, `inputReads`, beside `writes`.
- `nodup_writes`, `reads_perm_writes`, `inputReads_perm`.
-/

namespace VideoOverlay

/-- The labels that segments read, in order. -/
def reads (segments : List Segment) : List Label := segments.flatMap Segment.reads

/-- The numbers of the input files a segment reads. -/
def Segment.inputReads (s : Segment) : List Nat :=
  s.sources.filterMap fun
    | .input n => some n
    | .labelled _ => none

/-- The numbers of the input files that segments read, in order. -/
def inputReads (segments : List Segment) : List Nat := segments.flatMap Segment.inputReads

theorem reads_append (front back : List Segment) : reads (front ++ back) = reads front ++ reads back :=
  List.flatMap_append

theorem reads_cons (seg : Segment) (rest : List Segment) : reads (seg :: rest) = seg.reads ++ reads rest := rfl

theorem inputReads_cons (seg : Segment) (rest : List Segment) :
    inputReads (seg :: rest) = seg.inputReads ++ inputReads rest := rfl

theorem inputReads_append (front back : List Segment) :
    inputReads (front ++ back) = inputReads front ++ inputReads back := List.flatMap_append

/-! ## Labels along the layers -/

/-- The label that layers read from below. -/
def openLabel (stage : Nat) (ls : List Layer) : List Label :=
  if ls.isEmpty then [] else (baseLabel stage).toList

/-- Above the first stage, what layers read from below is what the layer below them writes. -/
theorem openLabel_succ {stage : Nat} (h : 1 ≤ stage) (ls : List Layer) :
    openLabel (stage + 1) ls = (labelIf (!ls.isEmpty) (.stage (stage + 1))).toList := by
  have hbase : baseLabel (stage + 1) = some (.stage (stage + 1)) := by
    rw [baseLabel, if_neg (by omega)]
  rw [openLabel, hbase]
  cases ls <;> rfl

theorem reads_picture (input stage : Nat) (followed : Bool) (p : Placed Picture) :
    reads ((Layer.picture p).segments input stage followed)
      = (baseLabel stage).toList ++ [.scaled stage] := by
  show Segment.reads ⟨baseStream stage :: _, _, _⟩ ++ [] = _
  rw [reads_baseStream, List.append_nil]
  rfl

theorem reads_filters (input stage : Nat) (followed : Bool) (text : String) :
    reads ((Layer.filters text).segments input stage followed) = (baseLabel stage).toList := by
  show Segment.reads ⟨baseStream stage :: _, _, _⟩ ++ [] = _
  rw [reads_baseStream, List.append_nil]
  exact List.append_nil _

/-- **Layers read what is open below them, and then what they write themselves.** -/
theorem reads_layerSegments (ls : List Layer) (input : Nat) {stage : Nat} (h : 1 ≤ stage) :
    reads (layerSegments input stage ls) = openLabel stage ls ++ writes (layerSegments input stage ls) := by
  induction ls generalizing input stage with
  | nil => rfl
  | cons l ls ih =>
    have hopen : openLabel stage (l :: ls) = (baseLabel stage).toList := rfl
    rw [layerSegments, reads_append, writes_append, ih _ (by omega), openLabel_succ h, hopen]
    cases l with
    | picture p => rw [reads_picture, writes_picture, List.append_assoc]; rfl
    | filters text => rw [reads_filters, writes_filters]

/-- Layers write each label once: those of one layer are below those of the layers above it. -/
theorem nodup_writes_layerSegments (ls : List Layer) (input stage : Nat) :
    (writes (layerSegments input stage ls)).Nodup := by
  induction ls generalizing input stage with
  | nil => exact List.nodup_nil
  | cons l ls ih =>
    have hrest := ih (input + l.inputCount) (stage + 1)
    have hscaled : Label.scaled stage ∉ writes (layerSegments (input + l.inputCount) (stage + 1) ls) := by
      intro hmem
      rcases mem_writes_layerSegments hmem with ⟨n, hn, heq⟩ | ⟨n, _, _, heq⟩
      · cases heq
        omega
      · cases heq
    have hstage : Label.stage (stage + 1) ∉ writes (layerSegments (input + l.inputCount) (stage + 1) ls) := by
      intro hmem
      rcases mem_writes_layerSegments hmem with ⟨n, _, heq⟩ | ⟨n, hn, _, heq⟩
      · cases heq
      · cases heq
        omega
    have hlabel : ((labelIf (!ls.isEmpty) (.stage (stage + 1))).toList
        ++ writes (layerSegments (input + l.inputCount) (stage + 1) ls)).Nodup := by
      cases ls with
      | nil => exact hrest
      | cons l' ls => exact List.nodup_cons.mpr ⟨hstage, hrest⟩
    rw [layerSegments, writes_append]
    cases l with
    | filters text => rwa [writes_filters]
    | picture p =>
      rw [writes_picture, List.cons_append]
      refine List.nodup_cons.mpr ⟨fun hmem => ?_, hlabel⟩
      rcases List.mem_append.mp hmem with hmem | hmem
      · cases (mem_labelIf.mp hmem).2
      · exact hscaled hmem

/-! ## Input files along the layers -/

/-- The number of inputs that layers read besides the stream below. -/
def inputCountOf : List Layer → Nat
  | [] => 0
  | l :: ls => l.inputCount + inputCountOf ls

theorem inputCountOf_append (front back : List Layer) :
    inputCountOf (front ++ back) = inputCountOf front + inputCountOf back := by
  induction front with
  | nil => rw [List.nil_append, inputCountOf, Nat.zero_add]
  | cons l front ih => rw [List.cons_append, inputCountOf, inputCountOf, ih, Nat.add_assoc]

/-- Above the first stage, layers read one input for each picture. -/
theorem inputReads_layerSegments (ls : List Layer) (input : Nat) {stage : Nat} (h : 2 ≤ stage) :
    inputReads (layerSegments input stage ls) = List.range' input (inputCountOf ls) := by
  have hbase : baseStream stage = .labelled (.stage stage) := by
    rw [baseStream, if_neg (by omega)]
  induction ls generalizing input stage with
  | nil => rfl
  | cons l ls ih =>
    have hnext : baseStream (stage + 1) = .labelled (.stage (stage + 1)) := by
      rw [baseStream, if_neg (by omega)]
    rw [layerSegments, inputReads_append, ih _ (by omega) hnext, inputCountOf]
    cases l with
    | picture p =>
      have hlayer : inputReads ((Layer.picture p).segments input stage (!ls.isEmpty)) = [input] := by
        rw [Layer.segments, hbase]; rfl
      rw [hlayer, Layer.inputCount, Nat.add_comm 1, List.range'_succ]
      rfl
    | filters text =>
      have hlayer : inputReads ((Layer.filters text).segments input stage (!ls.isEmpty)) = [] := by
        rw [Layer.segments, hbase]; rfl
      rw [hlayer, Layer.inputCount, Nat.zero_add]
      rfl

/-- From the first stage on, layers read the main video as well. -/
theorem inputReads_layerSegments_one (ls : List Layer) (input : Nat) :
    (inputReads (layerSegments input 1 ls)).Perm
      ((if ls.isEmpty then [] else [0]) ++ List.range' input (inputCountOf ls)) := by
  cases ls with
  | nil => exact List.Perm.refl _
  | cons l ls =>
    rw [layerSegments, inputReads_append, inputReads_layerSegments ls _ (Nat.le_refl 2), inputCountOf]
    cases l with
    | picture p =>
      rw [Layer.inputCount, Nat.add_comm 1, List.range'_succ]
      exact List.Perm.swap 0 input _
    | filters text =>
      rw [Layer.inputCount, Nat.zero_add]
      exact List.Perm.refl _

namespace Session

variable {s : Session}

theorem inputCountOf_layers (s : Session) : inputCountOf s.layers = s.pictures.length := by
  have htexts : inputCountOf (textLayers s.texts) = 0 := by
    cases s.texts <;> rfl
  have hboxes : inputCountOf (boxLayers s.boxes) = 0 := by
    cases s.boxes <;> rfl
  have hpictures : inputCountOf (s.pictures.map Layer.picture) = s.pictures.length := by
    induction s.pictures with
    | nil => rfl
    | cons p ps ih => rw [List.map_cons, inputCountOf, ih, List.length_cons, Layer.inputCount, Nat.add_comm]
  rw [layers, inputCountOf_append, inputCountOf_append, htexts, hboxes, hpictures]
  rfl

theorem isEmpty_iff : s.isEmpty = true ↔ s.colorKey = none ∧ s.layers = [] := by
  rw [layers_eq_nil_iff, isEmpty]
  simp [and_assoc]

/-- A session with nothing drawn over its color key has a color key, unless it is empty. -/
theorem exists_colorKey_of_layers_eq_nil (hne : s.isEmpty = false) (hls : s.layers = []) :
    ∃ key, s.colorKey = some key := by
  cases hk : s.colorKey with
  | some key => exact ⟨key, rfl⟩
  | none => exact absurd (isEmpty_iff.mpr ⟨hk, hls⟩) (by rw [hne]; exact Bool.false_ne_true)

/-! ## The whole session -/

/-- **Each label is written once.** -/
theorem nodup_writes (h : s.Layered) : (writes s.segments).Nodup := by
  have hlayers := nodup_writes_layerSegments s.layers s.firstInput s.pictureStage
  have hfresh : ∀ label ∈ writes (layerSegments s.firstInput s.pictureStage s.layers),
      label ≠ .keyed ∧ label ≠ .stage 1 ∧ (2 ≤ s.pictureStage → label ≠ .stage 2) := by
    intro label hlabel
    rcases mem_writes_layerSegments hlabel with ⟨n, _, rfl⟩ | ⟨n, hn, _, rfl⟩
    · exact ⟨Label.noConfusion, Label.noConfusion, fun _ => Label.noConfusion⟩
    · have hone := s.one_le_pictureStage
      refine ⟨Label.noConfusion, fun heq => ?_, fun htwo heq => ?_⟩
      · cases heq
        omega
      · cases heq
        omega
  rw [segments_eq_layers h, writes_append, keySegments]
  cases hk : s.colorKey with
  | none => exact hlayers
  | some key =>
    have hstage : 2 ≤ s.pictureStage := by rw [pictureStage, hk]; exact Nat.le_refl 2
    rw [writes_colorKeySegments]
    refine List.nodup_append.mpr ⟨?_, hlayers, fun a ha b hb heq => ?_⟩
    · cases !s.layers.isEmpty <;> decide
    · subst heq
      obtain ⟨hkeyed, hone, htwo⟩ := hfresh a hb
      rcases List.mem_append.mp ha with ha | ha
      · rcases List.mem_cons.mp ha with ha | ha
        · exact hkeyed ha
        · exact hone (List.mem_singleton.mp ha)
      · exact htwo hstage (mem_labelIf.mp ha).2

/-- **Each label that is written is read once**, and no other is read. -/
theorem reads_perm_writes (h : s.Layered) : (reads s.segments).Perm (writes s.segments) := by
  rw [segments_eq_layers h, reads_append, writes_append,
    reads_layerSegments s.layers s.firstInput s.one_le_pictureStage, keySegments, pictureStage]
  cases s.colorKey with
  | none =>
    -- The main video is an input file, so nothing is open at the bottom.
    have hopen : openLabel 1 s.layers = [] := by
      cases s.layers <;> rfl
    show (openLabel 1 s.layers ++ _).Perm _
    rw [hopen]
    exact List.Perm.refl _
  | some key =>
    have hopen : openLabel 2 s.layers = (labelIf (!s.layers.isEmpty) (.stage 2)).toList :=
      openLabel_succ (Nat.le_refl 1) s.layers
    show ([Label.stage 1, .keyed] ++ (openLabel 2 s.layers ++ _)).Perm _
    rw [hopen, writes_colorKeySegments, List.append_assoc]
    exact List.Perm.append_right _ (List.Perm.swap _ _ [])

/-- **The input files that are read**: the main video once if anything is drawn, the first file of the color
key, and one file for each picture. -/
theorem inputReads_perm (h : s.Layered) :
    (inputReads s.segments).Perm
      ((if s.isEmpty then [] else [0]) ++ (if s.colorKey.isSome then [1] else [])
        ++ List.range' s.firstInput s.pictures.length) := by
  rw [segments_eq_layers h, inputReads_append, ← s.inputCountOf_layers, keySegments, pictureStage]
  cases hk : s.colorKey with
  | none =>
    have hempty : s.isEmpty = s.layers.isEmpty := by
      rw [Bool.eq_iff_iff, isEmpty_iff, List.isEmpty_iff]
      exact ⟨fun h => h.2, fun h => ⟨hk, h⟩⟩
    rw [hempty]
    show (inputReads (layerSegments s.firstInput 1 s.layers)).Perm
      ((_ ++ []) ++ List.range' s.firstInput (inputCountOf s.layers))
    rw [List.append_nil]
    exact inputReads_layerSegments_one s.layers s.firstInput
  | some key =>
    have hempty : s.isEmpty = false := by
      rw [Bool.eq_false_iff, Ne, isEmpty_iff, hk]
      rintro ⟨h, _⟩
      cases h
    show ([0, 1] ++ inputReads (layerSegments s.firstInput 2 s.layers)).Perm _
    rw [inputReads_layerSegments s.layers _ (Nat.le_refl 2), hempty]
    exact List.Perm.refl _

end Session
end VideoOverlay
