import VideoOverlay.Proofs.Graph.Tokens

/-!
# `Proofs.Graph.WellLinked` — the text of a graph is well linked

The text of a graph can be run if every stream it names is there to be read and every stream it makes is
used. For a session that compiles this holds of the text itself: each label is named twice, where it is
written and in a later segment where it is read, each input file is named once, and the last segment is the
one whose stream nothing reads.

One input is an exception: of a color key with two files only the first is read.

## Contents
- `OpenAtEnd`, `openAtEnd_segments`: the last segment alone has no label.
- `getLast?_text`: a label is what closes the text of a segment.
- `Session.WellLinked`, `Session.compile_wellLinked`.
-/

namespace VideoOverlay

open Text

/-! ## The last segment -/

/-- Segments of which the last has no label, and all others have one. -/
def OpenAtEnd (segments : List Segment) : Prop :=
  ∃ front last, segments = front ++ [last] ∧ (∀ seg ∈ front, seg.output ≠ none) ∧ last.output = none

theorem OpenAtEnd.append {front back : List Segment} (hfront : ∀ seg ∈ front, seg.output ≠ none)
    (hback : OpenAtEnd back) : OpenAtEnd (front ++ back) := by
  obtain ⟨mid, last, rfl, hmid, hlast⟩ := hback
  refine ⟨front ++ mid, last, (List.append_assoc _ _ _).symm, fun seg hseg => ?_, hlast⟩
  rcases List.mem_append.mp hseg with hseg | hseg
  · exact hfront seg hseg
  · exact hmid seg hseg

/-- A segment that has no label is the last one. -/
theorem OpenAtEnd.output_eq_none_iff {segments front back : List Segment} {seg : Segment}
    (h : OpenAtEnd segments) (hs : segments = front ++ seg :: back) : seg.output = none ↔ back = [] := by
  obtain ⟨mid, last, hlast, hmid, hnone⟩ := h
  rw [hs] at hlast
  rcases List.eq_nil_or_concat back with rfl | ⟨init, x, rfl⟩
  · have hseg : seg = last := (List.append_inj' hlast rfl).2 |> List.singleton_inj.mp
    exact ⟨fun _ => rfl, fun _ => hseg ▸ hnone⟩
  · -- With more after it, the segment is one of those before the last.
    have hinit : front ++ seg :: init = mid := by
      rw [List.concat_eq_append, ← List.cons_append, ← List.append_assoc] at hlast
      exact (List.append_inj' hlast rfl).1
    have hmem : seg ∈ mid := by
      rw [← hinit]
      exact List.mem_append_right _ List.mem_cons_self
    constructor
    · intro hout
      exact absurd hout (hmid seg hmem)
    · intro hback
      exact absurd hback (by simp)

/-- The last of some layers has no label. -/
theorem openAtEnd_layerSegments {ls : List Layer} (hne : ls ≠ []) (input stage : Nat) :
    OpenAtEnd (layerSegments input stage ls) := by
  have hlabelled (l : Layer) (input stage : Nat) : ∀ seg ∈ l.segments input stage true, seg.output ≠ none := by
    cases l with
    | picture p =>
      exact List.forall_mem_cons.mpr ⟨Option.some_ne_none _,
        List.forall_mem_singleton.mpr (Option.some_ne_none _)⟩
    | filters text => exact List.forall_mem_singleton.mpr (Option.some_ne_none _)
  induction ls generalizing input stage with
  | nil => exact absurd rfl hne
  | cons l ls ih =>
    -- A layer is compiled with nothing to follow only if it is the last.
    cases ls with
    | nil =>
      cases l with
      | picture p => exact ⟨[_], _, rfl, List.forall_mem_singleton.mpr (Option.some_ne_none _), rfl⟩
      | filters text => exact ⟨[], _, rfl, List.forall_mem_nil _, rfl⟩
    | cons l' ls => exact OpenAtEnd.append (hlabelled l input stage) (ih (List.cons_ne_nil l' ls) _ _)

/-- What closes the text of a segment is its label, if it has one. -/
theorem getLast?_text {seg : Segment} (hplain : Plain seg.filters) (hne : seg.filters ≠ "") :
    seg.text.toList.getLast? = some ']' ↔ seg.output ≠ none := by
  rw [Segment.text, String.toList_append, String.toList_append, List.getLast?_append]
  cases seg.output with
  | some label =>
    have hclose : (Stream.labelled label).text.toList.getLast? = some ']' := by
      rw [Stream.text, String.toList_append, List.getLast?_append]
      rfl
    rw [Option.map_some, Option.getD_some, hclose]
    exact ⟨fun _ => Option.some_ne_none label, fun _ => rfl⟩
  | none =>
    -- The filters end the text, and their last character is not a bracket.
    have hfilters : seg.filters.toList ≠ [] := fun h => hne (String.toList_eq_nil_iff.mp h)
    have hlast : seg.filters.toList.getLast? = some (seg.filters.toList.getLast hfilters) :=
      List.getLast?_eq_some_getLast hfilters
    constructor
    · intro h
      rw [Option.map_none, Option.getD_none, List.getLast?_append, hlast] at h
      have hbracket : seg.filters.toList.getLast hfilters = ']' := Option.some.inj h
      exact absurd hbracket (hplain _ (List.getLast_mem hfilters)).2
    · intro h
      exact absurd rfl h

namespace Session

variable {s : Session}

theorem openAtEnd_segments (h : s.Layered) (hne : s.isEmpty = false) : OpenAtEnd s.segments := by
  rw [segments_eq_layers h]
  by_cases hls : s.layers = []
  · -- The color key is the last to be drawn, so its third segment is the open one.
    obtain ⟨key, hk⟩ := exists_colorKey_of_layers_eq_nil hne hls
    rw [hls, keySegments, hk]
    exact ⟨[_, _], _, rfl, List.forall_mem_cons.mpr ⟨Option.some_ne_none _,
      List.forall_mem_singleton.mpr (Option.some_ne_none _)⟩, rfl⟩
  · refine OpenAtEnd.append ?_ (openAtEnd_layerSegments hls _ _)
    have hfollowed : (!s.layers.isEmpty) = true := by simpa using hls
    rw [hfollowed, keySegments]
    cases s.colorKey with
    | none => exact List.forall_mem_nil _
    | some key =>
      exact List.forall_mem_cons.mpr ⟨Option.some_ne_none _,
        List.forall_mem_cons.mpr ⟨Option.some_ne_none _,
          List.forall_mem_singleton.mpr (Option.some_ne_none _)⟩⟩

theorem segments_eq_nil_of_isEmpty (h : s.isEmpty = true) : s.segments = [] := by
  obtain ⟨hk, hls⟩ := isEmpty_iff.mp h
  have hboxes : s.boxes = [] := (layers_eq_nil_iff.mp hls).2.2
  rw [segments_eq_layers (.inl hboxes), hls, keySegments, hk]
  rfl

theorem segments_ne_nil_iff (h : s.Layered) : s.segments ≠ [] ↔ s.isEmpty = false := by
  constructor
  · intro hne
    rw [Bool.eq_false_iff]
    intro hempty
    exact hne (segments_eq_nil_of_isEmpty hempty)
  · intro hne hnil
    obtain ⟨front, last, heq, _⟩ := openAtEnd_segments h hne
    rw [hnil] at heq
    exact absurd heq.symm (List.append_ne_nil_of_right_ne_nil front (List.cons_ne_nil last []))

/-- The last segment of a session alone has no label. -/
theorem output_eq_none_iff (h : s.Layered) {front back : List Segment} {seg : Segment}
    (hsplit : s.segments = front ++ seg :: back) : seg.output = none ↔ back = [] := by
  have hne : s.segments ≠ [] := by
    rw [hsplit]
    exact List.append_ne_nil_of_right_ne_nil front (List.cons_ne_nil seg back)
  exact (openAtEnd_segments h ((segments_ne_nil_iff h).mp hne)).output_eq_none_iff hsplit

/-! ## The input files -/

/-- A color key with two background files. -/
def HasTwoKeyFiles (s : Session) : Prop :=
  ∃ key, s.colorKey = some key ∧ key.content.imageFile ≠ none ∧ key.content.videoFile ≠ none

/-- A color key that is kept has one file or two. -/
theorem Reachable.colorKeyInputCount_cases (hs : s.Reachable) :
    (s.colorKey = none ∧ s.colorKeyInputCount = 0)
      ∨ (s.colorKey.isSome ∧ s.colorKeyInputCount = 1 ∧ ¬s.HasTwoKeyFiles)
      ∨ (s.colorKey.isSome ∧ s.colorKeyInputCount = 2 ∧ s.HasTwoKeyFiles) := by
  rw [colorKeyInputCount]
  cases hk : s.colorKey with
  | none => exact .inl ⟨rfl, rfl⟩
  | some key =>
    have hfiles : key.content.files ≠ [] := (hs.complete.colorKey key hk).2.files
    have htwo : s.HasTwoKeyFiles ↔ key.content.imageFile ≠ none ∧ key.content.videoFile ≠ none := by
      rw [HasTwoKeyFiles, hk]
      simp
    rw [htwo, Option.map_some, Option.getD_some]
    rw [ColorKey.files] at hfiles ⊢
    cases himage : key.content.imageFile with
    | none =>
      cases hvideo : key.content.videoFile with
      | none => exact absurd (by rw [himage, hvideo]; rfl) hfiles
      | some file => exact .inr (.inl ⟨rfl, rfl, fun h => h.1 rfl⟩)
    | some file =>
      cases key.content.videoFile with
      | none => exact .inr (.inl ⟨rfl, rfl, fun h => h.2 rfl⟩)
      | some other => exact .inr (.inr ⟨rfl, rfl, Option.some_ne_none _, Option.some_ne_none _⟩)

/-- How often the segments read an input: once for the main video, once for the color key, and once for each
picture. -/
theorem count_inputReads (h : s.Layered) (k : Nat) :
    (inputReads s.segments).count k
      = (if s.isEmpty = false ∧ k = 0 then 1 else 0) + (if s.colorKey.isSome ∧ k = 1 then 1 else 0)
        + (if s.firstInput ≤ k ∧ k < s.firstInput + s.pictures.length then 1 else 0) := by
  have hsingle (n : Nat) : [n].count k = if k = n then 1 else 0 := by
    rw [List.count_cons, List.count_nil, Nat.zero_add]
    by_cases hk : k = n
    · rw [if_pos hk, hk, beq_self_eq_true, if_pos rfl]
    · rw [if_neg hk, if_neg (by simpa using fun h => hk h.symm)]
  have hmain : (if s.isEmpty then [] else [0]).count k = if s.isEmpty = false ∧ k = 0 then 1 else 0 := by
    cases s.isEmpty with
    | true => simp
    | false => simpa using hsingle 0
  have hkey : (if s.colorKey.isSome then [1] else []).count k = if s.colorKey.isSome ∧ k = 1 then 1 else 0 := by
    cases s.colorKey with
    | none => simp
    | some key => simpa using hsingle 1
  rw [(inputReads_perm h).count_eq, List.count_append, List.count_append, List.count_range_1', hmain, hkey]

/-- The main video is read once. -/
theorem count_inputReads_zero (h : s.Layered) (hne : s.isEmpty = false) :
    (inputReads s.segments).count 0 = 1 := by
  rw [count_inputReads h, firstInput, if_pos ⟨hne, rfl⟩, if_neg (by omega), if_neg (by omega)]

/-- Every file is read once but the second one of a color key. -/
theorem Reachable.count_inputReads_file (hs : s.Reachable) (h : s.Layered) {k : Nat} (hpos : 1 ≤ k)
    (hle : k ≤ s.inputs.length) (hread : ¬(k = 2 ∧ s.HasTwoKeyFiles)) :
    (inputReads s.segments).count k = 1 := by
  rw [hs.length_inputs] at hle
  rw [count_inputReads h, firstInput, if_neg (by omega)]
  -- The pictures start at one, two or three; with two files of a key the number two is in between.
  rcases hs.colorKeyInputCount_cases with ⟨hkey, hcount⟩ | ⟨hkey, hcount, _⟩ | ⟨hkey, hcount, htwo⟩
  · rw [hkey, if_neg (by simp), if_pos (by omega)]
  · by_cases hk : k = 1
    · rw [if_pos ⟨hkey, hk⟩, if_neg (by omega)]
    · rw [if_neg (fun h => hk h.2), if_pos (by omega)]
  · by_cases hk : k = 1
    · rw [if_pos ⟨hkey, hk⟩, if_neg (by omega)]
    · have hne : k ≠ 2 := fun h => hread ⟨h, htwo⟩
      rw [if_neg (fun h => hk h.2), if_pos (by omega)]

/-- The second file of a color key is not read. -/
theorem Reachable.count_inputReads_second (hs : s.Reachable) (h : s.Layered) (htwo : s.HasTwoKeyFiles) :
    (inputReads s.segments).count 2 = 0 := by
  rcases hs.colorKeyInputCount_cases with ⟨hkey, _⟩ | ⟨_, _, hone⟩ | ⟨_, hcount, _⟩
  · obtain ⟨key, hk, _⟩ := htwo
    rw [hkey] at hk
    cases hk
  · exact absurd htwo hone
  · rw [count_inputReads h, firstInput, hcount, if_neg (by omega), if_neg (by omega), if_neg (by omega)]

/-- No input is read beyond the files there are. -/
theorem Reachable.le_of_mem_inputReads (hs : s.Reachable) (h : s.Layered) {k : Nat}
    (hk : k ∈ inputReads s.segments) : k ≤ s.inputs.length := by
  have hcount := List.count_pos_iff.mpr hk
  rw [count_inputReads h, firstInput] at hcount
  rw [hs.length_inputs]
  by_contra hlt
  rw [if_neg (by omega), if_neg (fun hone => ?_), if_neg (by omega)] at hcount
  · exact absurd hcount (Nat.lt_irrefl 0)
  · rcases hs.colorKeyInputCount_cases with ⟨hkey, _⟩ | ⟨_, hcount, _⟩ | ⟨_, hcount, _⟩
    · rw [hkey] at hone
      exact absurd hone.1 Bool.false_ne_true
    · omega
    · omega

/-! ## The labels -/

/-- A label that is named is read once and written once. -/
theorem count_of_mem_streams (h : s.Layered) {label : Label}
    (hmem : Stream.labelled label ∈ s.segments.flatMap Segment.streams) :
    (reads s.segments).count label = 1 ∧ (writes s.segments).count label = 1 := by
  have hcount := List.count_pos_iff.mpr hmem
  have hperm : (reads s.segments).count label = (writes s.segments).count label :=
    (reads_perm_writes h).count_eq label
  rw [count_labelled, hperm] at hcount
  have hwrites : label ∈ writes s.segments := List.count_pos_iff.mp (by omega)
  have hone : (writes s.segments).count label = 1 := by
    rw [(nodup_writes h).count, if_pos hwrites]
  exact ⟨hperm.trans hone, hone⟩

/-- A label that is read was written by an earlier segment. -/
theorem exists_writer_before_reader (h : s.Layered) {label : Label} (hmem : label ∈ reads s.segments) :
    ∃ front writer between reader back, s.segments = front ++ writer :: (between ++ reader :: back)
      ∧ writer.output = some label ∧ .labelled label ∈ reader.sources := by
  obtain ⟨reader, hreader, hlabel⟩ := List.mem_flatMap.mp hmem
  obtain ⟨before, back, hsplit⟩ := List.append_of_mem hreader
  have hchecked := checkLabels_eq_ok_iff.mp (checkLabels_segments_of_layered h)
  -- The check has seen every label written before it is read.
  have hwritten : label ∈ writes before :=
    (hchecked before reader back hsplit label hlabel).resolve_left List.not_mem_nil
  obtain ⟨writer, hwriter, houtput⟩ := List.mem_filterMap.mp hwritten
  obtain ⟨front, between, rfl⟩ := List.append_of_mem hwriter
  refine ⟨front, writer, between, reader, back, ?_, houtput, ?_⟩
  · rw [hsplit, List.append_assoc, List.cons_append]
  · obtain ⟨st, hst, hsome⟩ := List.mem_filterMap.mp hlabel
    cases st with
    | input n => cases hsome
    | labelled other =>
      cases hsome
      exact hst

/-! ## Well linked texts -/

/-- The text of the graph of a session is well linked. Reading it finds the streams of the segments in turn,
in each those it reads before the one it writes. A label occurs twice: it closes a segment, and a later one
opens with it. The main video occurs once if there is a graph at all, and so does every file, but that of two
background files the second does not occur. Nothing else is in brackets. The last segment alone has no label
to close with. -/
structure WellLinked (s : Session) (g : Graph) : Prop where
  scanned : bracketed g.text = g.segments.flatMap fun seg =>
    seg.sources.map Stream.name ++ seg.output.toList.map Label.text
  label_twice : ∀ label : Label, label.text ∈ bracketed g.text → (bracketed g.text).count label.text = 2
  label_order : ∀ label : Label, label.text ∈ bracketed g.text →
    ∃ front writer between reader back, g.segments = front ++ writer :: (between ++ reader :: back)
      ∧ writer.output = some label ∧ .labelled label ∈ reader.sources
  main_once : g.isEmpty = false → (bracketed g.text).count "0:v" = 1
  file_once : ∀ k, 1 ≤ k → k ≤ g.inputs.length → ¬(k = 2 ∧ s.HasTwoKeyFiles) →
    (bracketed g.text).count (toString k ++ ":v") = 1
  second_unread : s.HasTwoKeyFiles → (bracketed g.text).count "2:v" = 0
  nothing_else : ∀ token ∈ bracketed g.text,
    (∃ label : Label, token = label.text) ∨ ∃ k, k ≤ g.inputs.length ∧ token = toString k ++ ":v"
  last_open : ∀ front seg back, g.segments = front ++ seg :: back → (seg.output = none ↔ back = [])
  last_text : ∀ front seg back, g.segments = front ++ seg :: back →
    (seg.text.toList.getLast? = some ']' ↔ back ≠ [])

/-- **The text of the graph of a session is well linked**, unless a text or the name of a color brings
brackets of its own. -/
theorem compile_wellLinked (hs : s.Reachable) (htexts : ∀ t ∈ s.texts, Plain t.content)
    (hcolors : ∀ c ∈ s.colors, Plain c.name) {g : Graph} (hg : s.compile = .ok g) : s.WellLinked g := by
  obtain ⟨h, rfl⟩ := compile_eq_ok_iff.mp hg
  have hplain : ∀ seg ∈ s.segments, Plain seg.filters := plain_filters htexts hcolors
  have hfilled : ∀ seg ∈ s.segments, seg.filters ≠ "" := filters_ne_empty fun t ht hempty => by
    have hblank := (hs.complete.texts t ht).2
    rw [hempty] at hblank
    exact absurd hblank (by decide)
  constructor
  case scanned =>
    rw [bracketed_text hplain, List.map_flatMap]
    congr 1
    funext seg
    rw [Segment.streams, List.map_append, List.map_map]
    rfl
  case label_twice =>
    intro label hlabel
    have hmem := (name_mem_bracketed_iff hplain (.labelled label)).mp hlabel
    obtain ⟨hreads, hwrites⟩ := count_of_mem_streams h hmem
    have hcount := count_name (g := ⟨s.segments, s.inputs⟩) hplain (.labelled label)
    rw [count_labelled, hreads, hwrites] at hcount
    exact hcount
  case label_order =>
    intro label hlabel
    have hmem := (name_mem_bracketed_iff hplain (.labelled label)).mp hlabel
    obtain ⟨hreads, _⟩ := count_of_mem_streams h hmem
    exact exists_writer_before_reader h (List.count_pos_iff.mp (by omega))
  case main_once =>
    intro hsegments
    have hne : s.isEmpty = false := (segments_ne_nil_iff h).mp (List.isEmpty_eq_false_iff.mp hsegments)
    have hcount := count_name (g := ⟨s.segments, s.inputs⟩) hplain (.input 0)
    rw [count_input, count_inputReads_zero h hne] at hcount
    exact hcount
  case file_once =>
    intro k hpos hle hread
    have hcount := count_name (g := ⟨s.segments, s.inputs⟩) hplain (.input k)
    rw [count_input, hs.count_inputReads_file h hpos hle hread] at hcount
    exact hcount
  case second_unread =>
    intro htwo
    have hcount := count_name (g := ⟨s.segments, s.inputs⟩) hplain (.input 2)
    rw [count_input, hs.count_inputReads_second h htwo] at hcount
    exact hcount
  case nothing_else =>
    intro token htoken
    rw [bracketed_text hplain] at htoken
    obtain ⟨st, hst, rfl⟩ := List.mem_map.mp htoken
    cases st with
    | labelled label => exact .inl ⟨label, rfl⟩
    | input k =>
      have hread : k ∈ inputReads s.segments := by
        rw [← List.count_pos_iff, ← count_input, List.count_pos_iff]
        exact hst
      exact .inr ⟨k, hs.le_of_mem_inputReads h hread, rfl⟩
  case last_open => exact fun front seg back hsplit => output_eq_none_iff h hsplit
  case last_text =>
    intro front seg back hsplit
    have hseg : seg ∈ s.segments := by
      have hmem : seg ∈ front ++ seg :: back := List.mem_append_right _ List.mem_cons_self
      rwa [← hsplit] at hmem
    rw [getLast?_text (hplain seg hseg) (hfilled seg hseg), Ne, Ne, output_eq_none_iff h hsplit]

/-- The second background file of the sample session, `2:v`, is not named; all other files are. -/
theorem compile_wellLinked_sample : ∃ g, sample.compile = .ok g ∧ sample.WellLinked g
    ∧ bracketed g.text = ["0:v", "sck", "1:v", "out1", "out1", "sck", "out2",
        "3:v", "s2", "out2", "s2", "out3", "4:v", "s3", "out3", "s3", "out4", "out4", "out5", "out5"] := by
  have hlayered : sample.Layered := .inr (by decide +kernel)
  have hg := compile_of_layered hlayered
  have htexts : ∀ t ∈ sample.texts, Plain t.content := by decide +kernel
  have hcolors : ∀ c ∈ sample.colors, Plain c.name := by decide +kernel
  have hlinked := compile_wellLinked reachable_sample htexts hcolors hg
  refine ⟨_, hg, hlinked, hlinked.scanned.trans ?_⟩
  decide +kernel

end Session
end VideoOverlay
