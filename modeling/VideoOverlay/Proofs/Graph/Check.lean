import VideoOverlay.Proofs.Graph.Layer

/-!
# `Proofs.Graph.Check` — which sessions compile

`checkLabels` accepts exactly the segments in which every label is read after it is written
(`checkLabels_eq_ok_iff`). The layers of a session are linked that way by construction, so what is refused
is the one case outside of them: boxes without a text. There the box segment is the last one and reads a
label that none before it writes, so the error names this label and the number of segments before.

## Contents
- `writes`, `checkLabels_eq_ok_iff`.
- `mem_writes_layerSegments`, `checkLabels_segments_of_layered`.
- `compile_of_layered`, `compile_of_not_layered`, `compile_eq_ok_iff`.
- `compile_refuses_exactly_boxes_without_text`.
-/

namespace VideoOverlay

/-- The labels that segments write, in order. -/
def writes (segments : List Segment) : List Label := segments.filterMap Segment.output

theorem writes_append (front back : List Segment) : writes (front ++ back) = writes front ++ writes back :=
  List.filterMap_append

theorem writes_cons (seg : Segment) (rest : List Segment) :
    writes (seg :: rest) = seg.output.toList ++ writes rest := by
  rw [writes, List.filterMap_cons]
  cases seg.output <;> rfl

/-- The check lists what is written from the last segment to the first. -/
theorem mem_flatten_outputs {segments : List Segment} {label : Label} :
    label ∈ (segments.map fun seg => seg.output.toList).reverse.flatten ↔ label ∈ writes segments := by
  constructor
  · intro h
    obtain ⟨outputs, houtputs, hlabel⟩ := List.mem_flatten.mp h
    obtain ⟨seg, hseg, rfl⟩ := List.mem_map.mp (List.mem_reverse.mp houtputs)
    exact List.mem_filterMap.mpr ⟨seg, hseg, Option.mem_toList.mp hlabel⟩
  · intro h
    obtain ⟨seg, hseg, hlabel⟩ := List.mem_filterMap.mp h
    exact List.mem_flatten.mpr ⟨seg.output.toList, List.mem_reverse.mpr (List.mem_map_of_mem hseg),
      Option.mem_toList.mpr hlabel⟩

/-! ## The check -/

/-- **A list of segments passes the check exactly if each label is written before it is read.** -/
theorem checkLabels_eq_ok_iff {written : List Label} {index : Nat} {segments : List Segment} :
    checkLabels written index segments = .ok ()
      ↔ ∀ front seg back, segments = front ++ seg :: back →
          ∀ label ∈ seg.reads, label ∈ written ∨ label ∈ writes front := by
  induction segments generalizing written index with
  | nil =>
    constructor
    · intro _ front seg back h
      exact absurd h.symm (List.append_ne_nil_of_right_ne_nil front (List.cons_ne_nil seg back))
    · intro _
      rfl
  | cons s rest ih =>
    rw [checkLabels]
    cases hfind : s.reads.find? (· ∉ written) with
    | some label =>
      constructor
      · intro h
        cases h
      · intro h
        have hmem : label ∈ s.reads := List.mem_of_find?_eq_some hfind
        have hnot : label ∉ written := by simpa using List.find?_some hfind
        rcases h [] s rest rfl label hmem with hw | hw
        · exact absurd hw hnot
        · cases hw
    | none =>
      have hall : ∀ label ∈ s.reads, label ∈ written := by simpa using hfind
      show checkLabels (s.output.toList ++ written) (index + 1) rest = .ok () ↔ _
      rw [ih]
      -- What the first segment writes is counted as written before the rest.
      have hwritten : ∀ (front : List Segment) (label : Label),
          (label ∈ s.output.toList ++ written ∨ label ∈ writes front)
            ↔ (label ∈ written ∨ label ∈ writes (s :: front)) := by
        intro front label
        rw [writes_cons, List.mem_append, List.mem_append, or_assoc, or_left_comm]
      constructor
      · intro h front seg back heq label hlabel
        cases front with
        | nil =>
          cases heq
          exact .inl (hall label hlabel)
        | cons s' front =>
          cases heq
          exact (hwritten front label).mp (h front seg back rfl label hlabel)
      · intro h front seg back heq label hlabel
        subst heq
        exact (hwritten front label).mpr (h (s :: front) seg back rfl label hlabel)

/-! ## Layers are linked -/

/-- The label under which the stream below a layer is read; the main video has none. -/
def baseLabel (stage : Nat) : Option Label := if stage = 1 then none else some (.stage stage)

theorem reads_baseStream (stage : Nat) (rest : List Stream) (filters : String) (output : Option Label) :
    Segment.reads ⟨baseStream stage :: rest, filters, output⟩
      = (baseLabel stage).toList ++ Segment.reads ⟨rest, filters, output⟩ := by
  rw [baseStream, baseLabel]
  split <;> rfl

/-- A segment passes the check if what it reads is written. -/
theorem checkLabels_cons {written : List Label} {index : Nat} {seg : Segment} {rest : List Segment}
    (h : ∀ label ∈ seg.reads, label ∈ written) :
    checkLabels written index (seg :: rest) = checkLabels (seg.output.toList ++ written) (index + 1) rest := by
  have hfind : seg.reads.find? (· ∉ written) = none := by simpa using h
  rw [checkLabels, hfind]

/-- A segment that reads one label fails the check if that is not written. -/
theorem checkLabels_cons_unwritten {written : List Label} {index : Nat} {label : Label} {filters : String}
    {output : Option Label} {rest : List Segment} (h : label ∉ written) :
    checkLabels written index (⟨[.labelled label], filters, output⟩ :: rest)
      = .error (.danglingLabel label.text index) := by
  have hfind : Segment.reads ⟨[.labelled label], filters, output⟩ = [label] := rfl
  rw [checkLabels, hfind, List.find?_cons_of_pos (by simpa using h)]

/-- A segment that reads an input file only always passes the check. -/
theorem checkLabels_cons_input (written : List Label) (index n : Nat) (filters : String)
    (output : Option Label) (rest : List Segment) :
    checkLabels written index (⟨[.input n], filters, output⟩ :: rest)
      = checkLabels (output.toList ++ written) (index + 1) rest := rfl

/-- Layers pass the check if the stream below them is written. -/
theorem checkLabels_layerSegments (ls : List Layer) {written : List Label} {index : Nat} (input : Nat)
    {stage : Nat} (hstage : 1 ≤ stage)
    (h : ls ≠ [] → ∀ label, baseLabel stage = some label → label ∈ written) :
    checkLabels written index (layerSegments input stage ls) = .ok () := by
  induction ls generalizing written index input stage with
  | nil => rfl
  | cons l ls ih =>
    have hbase : ∀ label ∈ (baseLabel stage).toList, label ∈ written := fun label hlabel =>
      h (List.cons_ne_nil l ls) label (Option.mem_toList.mp hlabel)
    -- The layer writes its stage if another one reads it.
    have hnext (before : List Label) : ls ≠ [] → ∀ label, baseLabel (stage + 1) = some label →
        label ∈ (labelIf (!ls.isEmpty) (.stage (stage + 1))).toList ++ before := by
      intro hne label hlabel
      rw [baseLabel, if_neg (by omega), Option.some.injEq] at hlabel
      cases ls with
      | nil => exact absurd rfl hne
      | cons l' ls =>
        subst hlabel
        exact List.mem_cons_self
    cases l with
    | picture p =>
      show checkLabels written index (_ :: _ :: layerSegments _ _ ls) = .ok ()
      rw [checkLabels_cons_input, checkLabels_cons]
      · exact ih _ (by omega) (hnext _)
      · intro label hlabel
        rw [reads_baseStream] at hlabel
        rcases List.mem_append.mp hlabel with hlabel | hlabel
        · exact List.mem_cons_of_mem _ (hbase label hlabel)
        · rw [List.mem_singleton.mp hlabel]
          exact List.mem_cons_self
    | filters text =>
      show checkLabels written index (_ :: layerSegments _ _ ls) = .ok ()
      rw [checkLabels_cons]
      · exact ih _ (by omega) (hnext _)
      · intro label hlabel
        rw [reads_baseStream] at hlabel
        rcases List.mem_append.mp hlabel with hlabel | hlabel
        · exact hbase label hlabel
        · cases hlabel

/-! ## What layers write -/

theorem mem_labelIf {condition : Bool} {label out : Label} :
    label ∈ (labelIf condition out).toList ↔ condition = true ∧ label = out := by
  cases condition with
  | false =>
    constructor
    · intro h
      cases h
    · rintro ⟨h, _⟩
      cases h
  | true =>
    rw [labelIf, if_pos rfl, Option.toList_some, List.mem_singleton]
    exact ⟨fun h => ⟨rfl, h⟩, fun h => h.2⟩

theorem writes_picture (input stage : Nat) (followed : Bool) (p : Placed Picture) :
    writes ((Layer.picture p).segments input stage followed)
      = .scaled stage :: (labelIf followed (.stage (stage + 1))).toList := by
  cases followed <;> rfl

theorem writes_filters (input stage : Nat) (followed : Bool) (text : String) :
    writes ((Layer.filters text).segments input stage followed)
      = (labelIf followed (.stage (stage + 1))).toList := by
  cases followed <;> rfl

theorem writes_colorKeySegments (key : Placed ColorKey) (followed : Bool) :
    writes (colorKeySegments key followed) = [.keyed, .stage 1] ++ (labelIf followed (.stage 2)).toList := by
  cases followed <;> rfl

/-- Pictures and filters write labels of their own: the pictures number those they scale from their first
stage on, and each layer but the last its stage. -/
theorem mem_writes_layerSegments {ls : List Layer} {input stage : Nat} {label : Label}
    (h : label ∈ writes (layerSegments input stage ls)) :
    (∃ n, stage ≤ n ∧ label = .scaled n) ∨ ∃ n, stage < n ∧ n < stage + ls.length ∧ label = .stage n := by
  induction ls generalizing input stage with
  | nil => cases h
  | cons l ls ih =>
    rw [layerSegments, writes_append] at h
    rcases List.mem_append.mp h with h | h
    · have hstage : label ∈ (labelIf (!ls.isEmpty) (.stage (stage + 1))).toList →
          ∃ n, stage < n ∧ n < stage + (l :: ls).length ∧ label = .stage n := by
        intro h
        obtain ⟨hne, rfl⟩ := mem_labelIf.mp h
        have hpos : 0 < ls.length := List.length_pos_iff.mpr (by simpa using hne)
        refine ⟨stage + 1, by omega, ?_, rfl⟩
        rw [List.length_cons]
        omega
      cases l with
      | picture p =>
        rw [writes_picture] at h
        rcases List.mem_cons.mp h with h | h
        · exact .inl ⟨stage, Nat.le_refl stage, h⟩
        · exact .inr (hstage h)
      | filters text =>
        rw [writes_filters] at h
        exact .inr (hstage h)
    · rcases ih h with ⟨n, hn, rfl⟩ | ⟨n, hn, hlt, rfl⟩
      · exact .inl ⟨n, by omega, rfl⟩
      · refine .inr ⟨n, by omega, ?_, rfl⟩
        rw [List.length_cons]
        omega

namespace Session

variable {s : Session}

/-- The segments of a layered session pass the check. -/
theorem checkLabels_segments_of_layered (h : s.Layered) : checkLabels [] 0 s.segments = .ok () := by
  rw [segments_eq_layers h, keySegments, pictureStage]
  cases s.colorKey with
  | none =>
    refine checkLabels_layerSegments s.layers _ (Nat.le_refl 1) fun _ label hlabel => ?_
    cases hlabel
  | some key =>
    show checkLabels [] 0 (_ :: _ :: _ :: layerSegments _ _ _) = .ok ()
    rw [checkLabels_cons_input, checkLabels_cons_input, checkLabels_cons]
    · refine checkLabels_layerSegments s.layers _ (Nat.le_succ 1) fun hne label hlabel => ?_
      cases hls : s.layers with
      | nil => exact absurd hls hne
      | cons l ls =>
        cases hlabel
        exact List.mem_cons_self
    · exact fun _ hlabel => hlabel

/-! ## Boxes without a text -/

/-- A session without its texts and boxes. -/
def bare (s : Session) : Session := { s with texts := [], boxes := [] }

theorem layered_bare (s : Session) : s.bare.Layered := .inl rfl

theorem layers_bare (s : Session) : s.bare.layers = s.pictures.map .picture := List.append_nil _

/-- Without a text the boxes are drawn onto what the session shows without them. -/
theorem segments_eq_of_not_layered (h : ¬s.Layered) :
    s.segments = s.bare.segments
      ++ [⟨[.labelled (.stage s.textStage)],
        String.intercalate "," (s.boxes.map fun b => drawBox b.placement b.content), none⟩] := by
  obtain ⟨hboxes, htexts⟩ := not_or.mp h
  have htexts : s.texts = [] := Classical.not_not.mp htexts
  have hempty : s.boxes.isEmpty = false := List.isEmpty_eq_false_iff.mpr hboxes
  have htext (followed : Bool) : textSegments followed s.textStage s.texts = [] := by rw [htexts]; rfl
  have hbox : s.boxStage = s.textStage := by rw [boxStage, htexts]; rfl
  have hbare : s.bare.segments = s.keySegments (!s.pictures.isEmpty || false)
      ++ pictureSegments false (1 + s.colorKeyInputCount) s.pictureStage s.pictures := by
    rw [segments]
    exact (List.append_nil _).trans (List.append_nil _)
  rw [hbare, segments, htext, hbox, boxSegments, hempty, htexts, List.append_nil]
  rfl

/-- Without a text nothing writes the stage that the boxes read. -/
theorem textStage_not_mem_writes (s : Session) : Label.stage s.textStage ∉ writes s.bare.segments := by
  intro h
  rw [segments_eq_layers s.layered_bare, writes_append, layers_bare] at h
  rcases List.mem_append.mp h with h | h
  · -- The key writes the second stage if there are pictures, and then the texts would make a later one.
    have hkey : s.bare.keySegments = s.keySegments := rfl
    rw [hkey, keySegments] at h
    rw [textStage, pictureStage] at h
    cases hk : s.colorKey with
    | none =>
      rw [hk] at h
      cases h
    | some key =>
      simp only [hk, Option.isSome_some, if_true, writes_colorKeySegments] at h
      cases hps : s.pictures with
      | nil => simp [hps, labelIf] at h
      | cons p ps =>
        simp only [hps, List.length_cons, labelIf, List.map_cons, List.isEmpty_cons, Bool.not_false, if_true,
          Option.toList_some, List.cons_append, List.nil_append, List.mem_cons, Label.stage.injEq, reduceCtorEq,
          List.not_mem_nil, or_false, false_or] at h
        omega
  · rcases mem_writes_layerSegments h with ⟨n, _, hn⟩ | ⟨n, _, hlt, hn⟩
    · cases hn
    · rw [List.length_map] at hlt
      cases hn
      exact absurd hlt (Nat.lt_irrefl _)

/-- A session without a color key has none of its segments, and one with a key has three. -/
theorem length_keySegments (s : Session) (followed : Bool) :
    (s.keySegments followed).length = if s.colorKey.isSome then 3 else 0 := by
  rw [keySegments]
  cases s.colorKey <;> rfl

theorem length_layerSegments_pictures (input stage : Nat) (ps : List (Placed Picture)) :
    (layerSegments input stage (ps.map .picture)).length = 2 * ps.length := by
  rw [← List.append_nil (ps.map Layer.picture), ← pictureSegments_append, List.length_append,
    length_pictureSegments]
  rfl

theorem length_segments_bare (s : Session) :
    s.bare.segments.length = (if s.colorKey.isSome then 3 else 0) + 2 * s.pictures.length := by
  rw [segments_eq_layers s.layered_bare, List.length_append, length_keySegments, layers_bare,
    length_layerSegments_pictures]
  rfl

/-! ## Compilation -/

theorem compile_of_layered (h : s.Layered) : s.compile = .ok ⟨s.segments, s.inputs⟩ := by
  rw [compile_eq, checkLabels_segments_of_layered h]
  rfl

/-- **Boxes without a text are refused**: they read the stage a text would write. -/
theorem compile_of_not_layered (h : ¬s.Layered) :
    s.compile = .error (.danglingLabel (Label.stage s.textStage).text s.bare.segments.length) := by
  have hcheck : checkLabels [] 0 s.segments
      = .error (.danglingLabel (Label.stage s.textStage).text s.bare.segments.length) := by
    have hread : Label.stage s.textStage ∉
        (s.bare.segments.map fun seg => seg.output.toList).reverse.flatten ++ [] := by
      rw [List.append_nil, mem_flatten_outputs]
      exact textStage_not_mem_writes s
    rw [segments_eq_of_not_layered h, checkLabels_append (checkLabels_segments_of_layered s.layered_bare),
      Nat.zero_add]
    exact checkLabels_cons_unwritten hread
  rw [compile_eq, hcheck]
  rfl

theorem compile_eq_ok_iff {g : Graph} : s.compile = .ok g ↔ s.Layered ∧ g = ⟨s.segments, s.inputs⟩ := by
  constructor
  · intro h
    by_cases hl : s.Layered
    · rw [compile_of_layered hl] at h
      exact ⟨hl, (Except.ok.inj h).symm⟩
    · rw [compile_of_not_layered hl] at h
      cases h
  · rintro ⟨hl, rfl⟩
    exact compile_of_layered hl

theorem not_layered_iff : ¬s.Layered ↔ s.boxes ≠ [] ∧ s.texts = [] := by
  rw [Layered, not_or]
  exact and_congr_right fun _ => Classical.not_not

/-- The refusal in numbers: a color key counts as one stage and three segments, a picture as one stage and
two segments. -/
theorem refusal_eq (s : Session) :
    GraphError.danglingLabel (Label.stage s.textStage).text s.bare.segments.length
      = .danglingLabel ("out" ++ toString (1 + s.colorKey.toList.length + s.pictures.length))
          (3 * s.colorKey.toList.length + 2 * s.pictures.length) := by
  rw [length_segments_bare, Label.text, textStage, pictureStage]
  cases s.colorKey <;> rfl

/-- **A session is refused exactly if it has boxes and no text.** The refusal names the stage that the boxes
are to be drawn onto, and the segment that draws them. In every other session, whatever a segment reads
under a label, one before it has written. -/
theorem compile_refuses_exactly_boxes_without_text (s : Session) :
    (∀ e, s.compile = .error e
        ↔ (s.boxes ≠ [] ∧ s.texts = [])
          ∧ e = .danglingLabel ("out" ++ toString (1 + s.colorKey.toList.length + s.pictures.length))
              (3 * s.colorKey.toList.length + 2 * s.pictures.length))
      ∧ (¬(s.boxes ≠ [] ∧ s.texts = []) →
          s.compile = .ok ⟨s.segments, s.inputs⟩
            ∧ ∀ front seg back, s.segments = front ++ seg :: back →
                ∀ label ∈ seg.reads, label ∈ writes front) := by
  rw [← not_layered_iff]
  refine ⟨fun e => ?_, fun h => ?_⟩
  · constructor
    · intro he
      have hl : ¬s.Layered := by
        intro hl
        rw [compile_of_layered hl] at he
        cases he
      rw [compile_of_not_layered hl, refusal_eq] at he
      exact ⟨hl, (Except.error.inj he).symm⟩
    · rintro ⟨hl, rfl⟩
      rw [compile_of_not_layered hl, refusal_eq]
  · have hl : s.Layered := Classical.not_not.mp h
    refine ⟨compile_of_layered hl, fun front seg back heq label hlabel => ?_⟩
    have hcheck := checkLabels_eq_ok_iff.mp (checkLabels_segments_of_layered hl)
    exact (hcheck front seg back heq label hlabel).resolve_left List.not_mem_nil

end Session
end VideoOverlay
