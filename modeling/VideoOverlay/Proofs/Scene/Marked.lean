import VideoOverlay.Proofs.Media.Picture
import VideoOverlay.Proofs.Media.Report
import VideoOverlay.Proofs.Scene.Still

/-!
# `Proofs.Scene.Marked` — pictures of a scene that the first bytes mark

A prober does not tell still pictures from clips; the first bytes of the file do (`Machine.still_of_probe`). So a
picture of a scene that leaves it open is taken for a still one exactly if the prober reports on its file and the
file begins as a picture, and this decides whether its segment stops with the stream below: no other part of that
segment reads like the option which says so (`stops_overlaySegment_iff`).

## Contents
- `Machine.still_of_probe`, `Entry.reportedStill_probe_iff`: what a machine reports.
- `Segment.Stops`, `stops_overlaySegment_iff`: the option of a still picture.
- `Scene.pictureMarked`: the picture of an entry that leaves it open.
- `Machine.still_pictures_by_first_bytes`: from the bytes of a file to the segment of a picture; a clip that is marked.
-/

namespace VideoOverlay

open Text

/-! ## Reports of still pictures -/

theorem Listing.still_of_report {l : Listing} {path : String} {still : Bool} {r : Report}
    (h : l.report path still = .ok r) : r.still = still := by
  unfold report at h
  split at h
  · cases h
  · split at h
    · cases h
      rfl
    · split at h
      · cases h
        rfl
      · cases h

theorem still_of_reportOf {path : String} {printed : ByteArray} {still : Bool} {r : Report}
    (h : reportOf path printed still = .ok r) : r.still = still := by
  unfold reportOf at h
  split at h
  · exact Listing.still_of_report h
  · cases h

/-- What a prober prints has no say in whether a file is a still picture. -/
theorem Machine.still_of_probe {m : Machine} {prober path : String} {r : Report} (h : m.probe prober path = .ok r) :
    r.still = m.isStill path := by
  unfold probe at h
  split at h
  · cases h
  · split at h
    · exact still_of_reportOf h
    · cases h

/-- An entry that leaves it open is reported as a still picture if there is a report, and the bytes of the file say
so. -/
theorem Entry.reportedStill_probe_iff {m : Machine} {prober : String} {e : Entry} {file : String}
    (h : e.unknownFile? = some file) :
    e.reportedStill (m.probe prober) = true ↔ (∃ r, m.probe prober file = .ok r) ∧ m.isStill file = true := by
  unfold reportedStill
  rw [h]
  dsimp only
  cases hanswer : m.probe prober file with
  | error failure =>
    constructor
    · intro hstill
      cases hstill
    · rintro ⟨⟨r, hr⟩, _⟩
      cases hr
  | ok report =>
    show report.still = true ↔ _
    rw [Machine.still_of_probe hanswer]
    constructor
    · intro hstill
      exact ⟨⟨report, rfl⟩, hstill⟩
    · intro hboth
      exact hboth.2

/-! ## The option of a still picture -/

/-- A segment has the option that makes a picture stop with the stream below. -/
def Segment.Stops (seg : Segment) : Prop := ":shortest='1'".toList <:+: seg.filters.toList

/-- Only that option has an `s` in the filter that lays a picture over: numbers have none. -/
theorem each_ne_s_place (p : Placement) : Each (· ≠ 's') ("overlay=" ++ p.place) := by
  refine each_append.mpr ⟨by decide, ?_⟩
  unfold Placement.place
  cases p.position with
  | none => exact (by decide : Each (· ≠ 's') "0:0")
  | some q =>
    have hside (n : Int) : Each (· ≠ 's') (toString n) := (each_decimal_int n).ne_of_decimal (by decide)
    exact each_append.mpr ⟨each_append.mpr ⟨hside q.x, by decide⟩, hside q.y⟩

theorem each_ne_s_time (p : Placement) :
    Each (· ≠ 's') ((p.timeRange.map fun r => ":" ++ r.enableClause).getD "") := by
  cases p.timeRange with
  | none => exact each_empty
  | some r =>
    have hstart : Each (· ≠ 's') r.start.text :=
      (each_decimal_binary64 r.start_isSeconds.1).ne_of_decimal (by decide)
    have hfinish : Each (· ≠ 's') r.finish.text :=
      (each_decimal_binary64 r.finish_isFinite).ne_of_decimal (by decide)
    have hrange : Each (· ≠ 's') r.text := each_append.mpr ⟨each_append.mpr ⟨hstart, by decide⟩, hfinish⟩
    have hclause : Each (· ≠ 's') r.enableClause :=
      each_append.mpr ⟨each_append.mpr ⟨by decide, hrange⟩, by decide⟩
    exact each_append.mpr ⟨by decide, hclause⟩

/-- **The segment that lays a picture over has the option exactly if the picture is a still one.** -/
theorem stops_overlaySegment_iff (s : Session) (j : Nat) (q : Placed Picture) (followed : Bool) :
    (s.overlaySegment j q followed).Stops ↔ q.content.still = true := by
  unfold Segment.Stops
  show _ <:+: (q.placement.overlayFilter q.content.still).toList ↔ _
  have hplace := each_ne_s_place q.placement
  have htime := each_ne_s_time q.placement
  show _ <:+: ("overlay=" ++ q.placement.place ++ (if q.content.still then ":shortest='1'" else "") ++ _).toList ↔ _
  generalize "overlay=" ++ q.placement.place = place at hplace
  generalize (q.placement.timeRange.map fun r => ":" ++ r.enableClause).getD "" = time at htime
  cases q.content.still with
  | true =>
    rw [if_pos rfl, String.toList_append, String.toList_append]
    constructor
    · intro _
      rfl
    · intro _
      exact ⟨place.toList, time.toList, rfl⟩
  | false =>
    rw [if_neg Bool.false_ne_true, String.append_empty]
    constructor
    · intro hinfix
      have hs : 's' ∈ (place ++ time).toList := hinfix.subset (by decide)
      exact absurd rfl (each_append.mpr ⟨hplace, htime⟩ 's' hs)
    · intro h
      cases h

/-! ## Pictures of a scene -/

namespace Scene

variable {scene : Scene} {p : Probe} {s : Session} {g : Graph} {j : Nat} {e : Entry} {file : String}

/-- The picture of an entry that leaves it open is what the probe reports, and its segment stops accordingly. -/
theorem pictureMarked (hs : (scene.session (some p)).outcome = .ok s) (hg : s.compile = .ok g)
    (he : (pictureEntries scene.entries)[j]? = some e) (hopen : e.unknownFile? = some file) :
    ∃ placement seg, s.pictures[j]? = some ⟨placement, ⟨some file, e.reportedStill p⟩⟩
      ∧ g.segments[s.overlayPlace j]? = some seg ∧ (seg.Stops ↔ e.reportedStill p = true) := by
  obtain ⟨_, hstill, hfile⟩ := Entry.unknownFile?_eq_some_iff.mp hopen
  have hagree := sessionsAgree scene p
  generalize scene.session none = left at hagree
  generalize scene.session (some p) = right at hagree hs
  cases hagree with
  | rejected => cases hs
  | accepted alike graphs =>
    cases hs
    obtain ⟨placement, _, _, hpicture⟩ := alike.pictures j e he
    rw [hstill, hfile] at hpicture
    obtain ⟨_, rfl⟩ := Session.compile_eq_ok_iff.mp hg
    refine ⟨placement, _, hpicture, Session.getElem?_segments_overlay hpicture, ?_⟩
    exact stops_overlaySegment_iff _ _ _ _

end Scene

/-! ## From bytes to segments -/

namespace Machine

/-- **Still pictures are told by the first bytes of their files.** A file is taken for one exactly if it can be read and
begins with a complete signature of a picture format, or is a RIFF container of another kind; the first twelve bytes
tell. A picture of a scene that leaves it open, with a prober that reports on its file, becomes a still one accordingly,
and only then its segment stops with the stream below. -/
theorem still_pictures_by_first_bytes (m : Machine) (prober : String) :
    (∀ path, m.isStill path = true ↔ ∃ contents, m.files.read? path = some contents
        ∧ ((∃ f : PictureFormat, f.Begins contents.data.toList) ∨ OtherRiff contents.data.toList))
      ∧ (∀ bytes : List UInt8, isPicture (bytes.take 12) = isPicture bytes)
      ∧ ∀ (scene : Scene) (s : Session) (g : Graph),
          (scene.session (some (m.probe prober))).outcome = .ok s → s.compile = .ok g →
          ∀ j e file, (pictureEntries scene.entries)[j]? = some e → e.unknownFile? = some file →
            ∃ q seg, s.pictures[j]? = some q ∧ q.content.file = some file
              ∧ (q.content.still = true ↔ (∃ r, m.probe prober file = .ok r) ∧ m.isStill file = true)
              ∧ g.segments[s.overlayPlace j]? = some seg ∧ (seg.Stops ↔ q.content.still = true) := by
  refine ⟨fun path => ?_, isPicture_take, fun scene s g hs hg j e file he hopen => ?_⟩
  · rw [isStill_iff]
    simp only [isPicture_iff]
  · obtain ⟨placement, seg, hpicture, hseg, hstops⟩ := Scene.pictureMarked hs hg he hopen
    exact ⟨_, seg, hpicture, rfl, Entry.reportedStill_probe_iff hopen, hseg, hstops⟩

/-- A machine with one file, and with a prober that tells the same length of all files. -/
def holding (name : String) (contents : List UInt8) : Machine where
  files := { files := [([name], ⟨⟨contents⟩⟩)] }
  programs := [("ffprobe", fun _ =>
    { output := "\x7b\"streams\":[\x7b\"codec_type\":\"video\",\"duration\":\"5\"\x7d]\x7d".toUTF8 })]

/-- A scene with one picture that leaves it open. -/
def pictureScene (name : String) : Scene := ⟨[{ kind := "image", file := some name, width := some 160 }]⟩

/-- The session with that picture. -/
def pictureSession (name : String) (still : Bool) : Session where
  pictures := [⟨{ dimension := some ⟨160, keepAspect, by decide, by decide⟩ }, ⟨some name, still⟩⟩]
  inputs := [name]

/-- A picture stops with the stream below. -/
theorem still_pictures_by_first_bytes_logo :
    ∃ q seg, (pictureSession "logo.png" true).pictures[0]? = some q ∧ q.content.still = true
      ∧ (pictureSession "logo.png" true).segments[1]? = some seg ∧ seg.Stops := by
  let m := holding "logo.png" (0x89 :: bytesOfText "PNG\r\n\x1a\n")
  have hs : ((pictureScene "logo.png").session (some (m.probe "ffprobe"))).outcome
      = .ok (pictureSession "logo.png" true) := by
    decide +kernel
  have hg : (pictureSession "logo.png" true).compile
      = .ok ⟨(pictureSession "logo.png" true).segments, ["logo.png"]⟩ := by
    decide +kernel
  have hreport : m.probe "ffprobe" "logo.png" = .ok ⟨"", .ofRatio false 5 1, true⟩ := by
    decide +kernel
  have hstill : m.isStill "logo.png" = true := by
    decide +kernel
  obtain ⟨q, seg, hq, _, hmark, hseg, hstops⟩ :=
    (still_pictures_by_first_bytes m "ffprobe").2.2 (pictureScene "logo.png") _ _ hs hg 0 _ "logo.png" rfl rfl
  have hq' : q.content.still = true := hmark.mpr ⟨⟨_, hreport⟩, hstill⟩
  exact ⟨q, seg, hq, hq', hseg, hstops.mpr hq'⟩

/-- The first bytes of a clip in a RIFF container: its size, and then the name of the format and a first list. -/
def aviHead : List UInt8 := bytesOfText "RIFF$\x00\x00\x00AVI LIST"

/-- **A clip in a RIFF container is taken for a still picture**, and stops with the stream below. -/
theorem still_clip_in_riff :
    OtherRiff aviHead ∧ (∀ f : PictureFormat, ¬f.Begins aviHead)
      ∧ (holding "clip.avi" aviHead).isStill "clip.avi" = true
      ∧ ((pictureScene "clip.avi").session (some ((holding "clip.avi" aviHead).probe "ffprobe"))).outcome
        = .ok (pictureSession "clip.avi" true)
      ∧ (pictureSession "clip.avi" true).segments.map Segment.text
        = ["[1:v]scale=160:-1[s1]", "[0:v][s1]overlay=0:0:shortest='1'"] := by
  have hriff : OtherRiff aviHead := ⟨by decide +kernel, by decide +kernel⟩
  refine ⟨hriff, hriff.not_begins, ?_, ?_, ?_⟩
  · decide +kernel
  · decide +kernel
  · decide +kernel

end Machine
end VideoOverlay
