import Mathlib.Data.List.Count
import VideoOverlay.Proofs.Graph.Linking
import VideoOverlay.Proofs.Overlay.Plain
import VideoOverlay.Proofs.Session.Run

/-!
# `Proofs.Graph.Tokens` — the streams in the text of a graph

What is run in the end is the text of a graph, and there a stream is nothing but a name in brackets. If the
filters have no brackets of their own, reading the text from left to right finds the streams of each segment
in turn: those it reads, then the one it writes (`bracketed_text`). As different streams have different
names, counting names is counting streams, and the segments say how often each is read and written.

## Contents
- `Stream.name`, `Stream.name_injective`; `Segment.streams`, `bracketed_text`.
- `count_name`, `count_labelled`, `count_input`: how often a stream is named.
- `Session.forall_segments`, `Session.forall_filters`: what holds of every segment, and of its filters.
-/

namespace VideoOverlay

open Text

/-! ## Names -/

/-- What stands between the brackets of a stream. -/
def Stream.name : Stream → String
  | .input n => toString n ++ ":v"
  | .labelled label => label.text

theorem Stream.text_eq (st : Stream) : st.text = "[" ++ st.name ++ "]" := by
  cases st with
  | labelled label => rfl
  | input n =>
    have hclose : (":v]" : String) = ":v" ++ "]" := by decide
    rw [Stream.text, Stream.name, hclose, String.append_assoc, String.append_assoc, String.append_assoc]

/-- Names are written with the characters of filters. -/
theorem filterText_label (label : Label) : FilterText label.text := by
  cases label with
  | keyed => exact (by decide : FilterText "sck")
  | scaled n => exact each_append.mpr ⟨by decide, filterText_nat n⟩
  | stage n => exact each_append.mpr ⟨by decide, filterText_nat n⟩

theorem filterText_name (st : Stream) : FilterText st.name := by
  cases st with
  | labelled label => exact filterText_label label
  | input n => exact each_append.mpr ⟨filterText_nat n, by decide⟩

theorem plain_name (st : Stream) : Plain st.name := plain_of_filterText (filterText_name st)

/-- A stream has no brace. -/
theorem brace_not_mem_streamText (st : Stream) : '{' ∉ st.text.toList := by
  intro h
  rw [Stream.text_eq, String.toList_append, String.toList_append] at h
  rcases List.mem_append.mp h with h | h
  · rcases List.mem_append.mp h with h | h
    · exact absurd h (by decide)
    · exact brace_not_mem_of_filterText (filterText_name st) h
  · exact absurd h (by decide)

/-- A label has no colon, so it is not the name of an input. -/
theorem colon_not_mem_label (label : Label) : ':' ∉ label.text.toList := by
  have hdigits (n : Nat) : ':' ∉ (toString n).toList := by
    intro h
    rw [toList_toString_nat] at h
    exact absurd (Nat.isDigit_of_mem_toDigits (by decide) (by decide) h) (by decide)
  cases label with
  | keyed => exact (by decide : ':' ∉ "sck".toList)
  | scaled n =>
    rw [Label.text, String.toList_append, List.mem_append]
    exact not_or.mpr ⟨by decide, hdigits n⟩
  | stage n =>
    rw [Label.text, String.toList_append, List.mem_append]
    exact not_or.mpr ⟨by decide, hdigits n⟩

theorem colon_mem_input (n : Nat) : ':' ∈ (Stream.input n).name.toList := by
  rw [Stream.name, String.toList_append]
  exact List.mem_append_right _ (by decide)

/-- Different streams have different names. -/
theorem Stream.name_injective : Function.Injective Stream.name := by
  intro a b h
  cases a with
  | labelled a =>
    cases b with
    | labelled b => rw [Label.text_injective h]
    | input n =>
      refine absurd (colon_mem_input n) ?_
      rw [← h]
      exact colon_not_mem_label a
  | input m =>
    -- Only the name of an input has a colon; two of them are known by their digits.
    cases b with
    | labelled b =>
      refine absurd (colon_mem_input m) ?_
      rw [h]
      exact colon_not_mem_label b
    | input n =>
      have hl := congrArg String.toList h
      simp only [Stream.name, String.toList_append, toList_toString_nat] at hl
      rw [toDigits_ten_injective (List.append_cancel_right hl)]

/-! ## Reading the text -/

/-- The streams a segment names, those it reads before the one it writes. -/
def Segment.streams (seg : Segment) : List Stream := seg.sources ++ seg.output.toList.map .labelled

/-- A list of streams is read name by name. -/
theorem readBrackets_sources (sources : List Stream) (rest : List Char) :
    readBrackets none ((String.join (sources.map Stream.text)).toList ++ rest)
      = sources.map Stream.name ++ readBrackets none rest := by
  induction sources with
  | nil => rfl
  | cons st sources ih =>
    rw [List.map_cons, String.join_cons, String.toList_append, List.append_assoc, Stream.text_eq,
      readBrackets_name (plain_name st), ih]
    rfl

/-- A segment is read as its streams. -/
theorem readBrackets_segment {seg : Segment} (h : Plain seg.filters) (rest : List Char) :
    readBrackets none (seg.text.toList ++ rest)
      = seg.streams.map Stream.name ++ readBrackets none rest := by
  -- The segment is read in three parts: its sources, its filters, and its label.
  have houtput : readBrackets none
        (((seg.output.map fun label => (Stream.labelled label).text).getD "").toList ++ rest)
      = (seg.output.toList.map Stream.labelled).map Stream.name ++ readBrackets none rest := by
    cases seg.output with
    | none => rfl
    | some label => exact readBrackets_name (plain_name (.labelled label)) rest
  rw [Segment.text, String.toList_append, String.toList_append, List.append_assoc, List.append_assoc,
    readBrackets_sources, readBrackets_plain h, houtput, Segment.streams, List.map_append, List.append_assoc]

variable {g : Graph}

/-- **Reading the text of a graph finds the streams of its segments.** -/
theorem bracketed_text (h : ∀ seg ∈ g.segments, Plain seg.filters) :
    bracketed g.text = (g.segments.flatMap Segment.streams).map Stream.name := by
  rw [bracketed, Graph.text]
  generalize g.segments = segments at h ⊢
  induction segments with
  | nil => rfl
  | cons seg rest ih =>
    have hseg : Plain seg.filters := h seg List.mem_cons_self
    have hrest := ih fun seg' hmem => h seg' (List.mem_cons_of_mem seg hmem)
    rw [List.flatMap_cons, List.map_append, ← hrest]
    cases rest with
    | nil =>
      have hone := readBrackets_segment hseg []
      rw [List.append_nil] at hone
      rw [List.map_singleton, String.intercalate_singleton, hone]
      rfl
    | cons next rest =>
      -- The comma between two segments is plain.
      have hcomma : Plain "," := by decide
      rw [List.map_cons, List.map_cons, String.intercalate_cons_cons, String.toList_append,
        String.toList_append, List.append_assoc, readBrackets_segment hseg, readBrackets_plain hcomma]

/-- A name is found as often as the segments name its stream. -/
theorem count_name (h : ∀ seg ∈ g.segments, Plain seg.filters) (st : Stream) :
    (bracketed g.text).count st.name = (g.segments.flatMap Segment.streams).count st := by
  rw [bracketed_text h, List.count_map_of_injective _ _ Stream.name_injective]

theorem name_mem_bracketed_iff (h : ∀ seg ∈ g.segments, Plain seg.filters) (st : Stream) :
    st.name ∈ bracketed g.text ↔ st ∈ g.segments.flatMap Segment.streams := by
  rw [bracketed_text h, List.mem_map_of_injective Stream.name_injective]

/-! ## Counting -/

theorem labelled_injective : Function.Injective Stream.labelled := fun _ _ h => Stream.labelled.inj h

theorem count_streams_labelled (seg : Segment) (label : Label) :
    seg.streams.count (.labelled label) = seg.reads.count label + seg.output.toList.count label := by
  have hsources : seg.sources.count (.labelled label) = seg.reads.count label := by
    rw [Segment.reads, List.count_filterMap, List.count_eq_countP]
    refine List.countP_congr fun st _ => ?_
    cases st <;> simp
  rw [Segment.streams, List.count_append, hsources, List.count_map_of_injective _ _ labelled_injective]

theorem count_streams_input (seg : Segment) (k : Nat) :
    seg.streams.count (.input k) = seg.inputReads.count k := by
  have hsources : seg.sources.count (.input k) = seg.inputReads.count k := by
    rw [Segment.inputReads, List.count_filterMap, List.count_eq_countP]
    refine List.countP_congr fun st _ => ?_
    cases st <;> simp
  have houtput : (seg.output.toList.map Stream.labelled).count (.input k) = 0 := by
    refine List.count_eq_zero.mpr fun h => ?_
    obtain ⟨label, _, hlabel⟩ := List.mem_map.mp h
    cases hlabel
  rw [Segment.streams, List.count_append, hsources, houtput, Nat.add_zero]

/-- A label is named where it is read and where it is written. -/
theorem count_labelled (segments : List Segment) (label : Label) :
    (segments.flatMap Segment.streams).count (.labelled label)
      = (reads segments).count label + (writes segments).count label := by
  induction segments with
  | nil => rfl
  | cons seg rest ih =>
    rw [List.flatMap_cons, List.count_append, ih, count_streams_labelled, writes_cons, reads_cons,
      List.count_append, List.count_append]
    omega

/-- An input is named where it is read. -/
theorem count_input (segments : List Segment) (k : Nat) :
    (segments.flatMap Segment.streams).count (.input k) = (inputReads segments).count k := by
  induction segments with
  | nil => rfl
  | cons seg rest ih =>
    rw [List.flatMap_cons, List.count_append, ih, count_streams_input, inputReads_cons, List.count_append]

/-! ## The filters of a session -/

namespace Session

variable {s : Session}

/-- The segment that brings the picture number `j` to its size. -/
def sourceSegment (s : Session) (j : Nat) (p : Placed Picture) : Segment :=
  ⟨[.input (s.firstInput + j)], p.placement.sourceFilters, some (.scaled (s.pictureStage + j))⟩

/-- The segment that lays the picture number `j` over what is drawn before. -/
def overlaySegment (s : Session) (j : Nat) (p : Placed Picture) (followed : Bool) : Segment :=
  ⟨[baseStream (s.pictureStage + j), .labelled (.scaled (s.pictureStage + j))],
    p.placement.overlayFilter p.content.still, labelIf followed (.stage (s.pictureStage + j + 1))⟩

theorem getElem?_pictures_of_eq {front ps : List (Placed Picture)} {p : Placed Picture}
    (hps : s.pictures = front ++ p :: ps) : s.pictures[front.length]? = some p := by
  rw [hps, List.getElem?_append_right (Nat.le_refl _), Nat.sub_self, List.getElem?_cons_zero]

/-- What holds of the two segments of each picture holds of all segments of the pictures. -/
theorem forall_pictureSegments {P : Segment → Prop} {front ps : List (Placed Picture)} {followed : Bool}
    (hps : s.pictures = front ++ ps)
    (h : ∀ j p, s.pictures[j]? = some p → P (s.sourceSegment j p) ∧ ∀ next, P (s.overlaySegment j p next)) :
    ∀ seg ∈ pictureSegments followed (s.firstInput + front.length) (s.pictureStage + front.length) ps, P seg := by
  induction ps generalizing front with
  | nil => exact List.forall_mem_nil _
  | cons p ps ih =>
    obtain ⟨hsource, hoverlay⟩ := h front.length p (getElem?_pictures_of_eq hps)
    have hrest := @ih (front ++ [p]) (by rw [hps, List.append_assoc, List.singleton_append])
    rw [List.length_append, List.length_singleton, ← Nat.add_assoc, ← Nat.add_assoc] at hrest
    exact List.forall_mem_cons.mpr ⟨hsource, List.forall_mem_cons.mpr ⟨hoverlay _, hrest⟩⟩

/-- **What holds of each segment that a session may need holds of all its segments.** -/
theorem forall_segments {P : Segment → Prop}
    (hkey : ∀ k, s.colorKey = some k → ∀ followed, ∀ seg ∈ colorKeySegments k followed, P seg)
    (hpictures : ∀ j p, s.pictures[j]? = some p →
      P (s.sourceSegment j p) ∧ ∀ followed, P (s.overlaySegment j p followed))
    (htexts : s.texts ≠ [] → ∀ followed, P ⟨[baseStream s.textStage],
      String.intercalate "," (s.texts.map Placed.content), labelIf followed (.stage (s.textStage + 1))⟩)
    (hboxes : s.boxes ≠ [] → P ⟨[.labelled (.stage s.boxStage)],
      String.intercalate "," (s.boxes.map fun b => drawBox b.placement b.content), none⟩) :
    ∀ seg ∈ s.segments, P seg := by
  rw [segments_eq]
  simp only [List.forall_mem_append]
  refine ⟨⟨⟨?key, forall_pictureSegments (List.nil_append _).symm hpictures⟩, ?texts⟩, ?boxes⟩
  case key =>
    rw [keySegments]
    cases hk : s.colorKey with
    | none => exact List.forall_mem_nil _
    | some k => exact hkey k hk _
  case texts =>
    rw [textSegments]
    split
    · exact List.forall_mem_nil _
    · next hne => exact List.forall_mem_singleton.mpr (htexts (by simpa using hne) _)
  case boxes =>
    rw [boxSegments]
    split
    · exact List.forall_mem_nil _
    · next hne => exact List.forall_mem_singleton.mpr (hboxes (by simpa using hne))

/-- What holds of each filter that a session may need holds of the filters of its segments. -/
theorem forall_filters {P : String → Prop}
    (hkey : ∀ k, s.colorKey = some k → P k.content.filter ∧ P (scaleFilter k.placement.dimension))
    (hoverlay : P "overlay")
    (hpictures : ∀ p ∈ s.pictures,
      P p.placement.sourceFilters ∧ P (p.placement.overlayFilter p.content.still))
    (htexts : s.texts ≠ [] → P (String.intercalate "," (s.texts.map Placed.content)))
    (hboxes : s.boxes ≠ [] →
      P (String.intercalate "," (s.boxes.map fun b => drawBox b.placement b.content))) :
    ∀ seg ∈ s.segments, P seg.filters := by
  refine forall_segments (fun k hk followed => ?_) (fun j p hp => ?_) (fun hne _ => htexts hne) hboxes
  · obtain ⟨hfilter, hscale⟩ := hkey k hk
    exact List.forall_mem_cons.mpr ⟨hfilter, List.forall_mem_cons.mpr ⟨hscale,
      List.forall_mem_singleton.mpr hoverlay⟩⟩
  · obtain ⟨hsource, hover⟩ := hpictures p (List.mem_of_getElem? hp)
    exact ⟨hsource, fun _ => hover⟩

/-- The filters of a session are plain if its texts and the names of its colors are. -/
theorem plain_filters (htexts : ∀ t ∈ s.texts, Plain t.content) (hcolors : ∀ c ∈ s.colors, Plain c.name) :
    ∀ seg ∈ s.segments, Plain seg.filters := by
  refine forall_filters (P := Plain) (fun k hk => ?_) (by decide) (fun p _ => ?_) (fun _ => ?_) fun _ => ?_
  · exact ⟨(writtenAround_colorKey k.content).plain fun c hc => hcolors c (mem_colors_of_colorKey hk hc),
      plain_of_filterText (filterText_scaleFilter _)⟩
  · exact ⟨plain_sourceFilters _, plain_of_filterText (filterText_overlayFilter _ _)⟩
  · exact plain_intercalate (by decide) (List.forall_mem_map.mpr htexts)
  · refine plain_intercalate (by decide) (List.forall_mem_map.mpr fun b hb => ?_)
    exact (writtenAround_drawBox b.placement b.content).plain fun c hc => hcolors c (mem_colors_of_box hb hc)

/-- The filters of a session are not empty if its texts are not. -/
theorem filters_ne_empty (htexts : ∀ t ∈ s.texts, t.content ≠ "") :
    ∀ seg ∈ s.segments, seg.filters ≠ "" := by
  refine forall_filters (P := (· ≠ "")) (fun k _ => ⟨colorKey_ne_empty _, scaleFilter_ne_empty _⟩) (by decide)
    (fun p _ => ⟨sourceFilters_ne_empty _, overlayFilter_ne_empty _ _⟩) (fun hne => ?_) fun hne => ?_
  · obtain ⟨t, ts, hts⟩ := List.exists_cons_of_ne_nil hne
    rw [hts]
    exact intercalate_ne_empty (htexts t (by rw [hts]; exact List.mem_cons_self)) _ _
  · obtain ⟨b, bs, hbs⟩ := List.exists_cons_of_ne_nil hne
    rw [hbs]
    exact intercalate_ne_empty (drawBox_ne_empty _ _) _ _

end Session
end VideoOverlay
