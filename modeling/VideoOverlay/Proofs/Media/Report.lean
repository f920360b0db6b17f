import Mathlib.Data.List.Basic
import VideoOverlay.System.Machine

/-!
# `Proofs.Media.Report` — what a report takes from a listing

A report is about the first video stream of a file, whatever other streams the file has and wherever they stand
(`FirstVideo`). Its length is written in up to two places, and each of the two texts may be missing or may not be
a number. `Reported` says what becomes of them. One text is chosen first, that of the container if it gives any,
and only then it is read; a still picture has the length zero if nothing comes of this, and another file has no
report.

Reading first and choosing then (`ReportedByReading`) would come to the same but for one case: the container gives
a text that is not a number, and the stream gives a number, which stays hidden behind that text
(`Hides`). So a file whose length is known may have no report (`probe_misses_length`).

## Contents
- `Listing.FirstVideo`, with `video?_eq_some_iff` and `exists_firstVideo`.
- `Listing.LengthText`, `Listing.Reported`: the text that is chosen, and the report. `report_eq_iff`.
- `Listing.ReportedByReading`, `Listing.Hides`, with `reportedByReading_report_iff`: the number that is chosen.
- `Machine.Lists`, with `Machine.probe_reports_first_video`.
-/

namespace VideoOverlay

namespace Listing

variable {l : Listing} {v : StreamListing} {text path : String} {still : Bool} {x : Binary64}
  {r : Except ProbeError Report}

/-! ## The first video stream -/

/-- A stream of a listing is one of video, and no stream before it is. -/
def FirstVideo (l : Listing) (v : StreamListing) : Prop :=
  ∃ front back, l.streams = front ++ v :: back ∧ v.kind = some "video" ∧ ∀ s ∈ front, s.kind ≠ some "video"

theorem video?_eq_some_iff : l.video? = some v ↔ l.FirstVideo v := by
  unfold video? FirstVideo
  rw [List.find?_eq_some_iff_append]
  simp only [decide_eq_true_eq, Bool.not_eq_true', decide_eq_false_iff_not]
  constructor
  · rintro ⟨hkind, front, back, hstreams, hfront⟩
    exact ⟨front, back, hstreams, hkind, hfront⟩
  · rintro ⟨front, back, hstreams, hkind, hfront⟩
    exact ⟨hkind, front, back, hstreams, hfront⟩

/-- Among streams of which one is of video, there is a first one of video. -/
theorem exists_firstVideo (h : ∃ s ∈ l.streams, s.kind = some "video") : ∃ v, l.FirstVideo v := by
  obtain ⟨s, hs, hkind⟩ := h
  have hfound : l.video?.isSome = true := List.find?_isSome.mpr ⟨s, hs, decide_eq_true hkind⟩
  obtain ⟨v, hv⟩ := Option.isSome_iff_exists.mp hfound
  exact ⟨v, video?_eq_some_iff.mp hv⟩

/-- There is one first stream of video at most. -/
theorem FirstVideo.unique {v' : StreamListing} (h : l.FirstVideo v) (h' : l.FirstVideo v') : v = v' :=
  Option.some.inj ((video?_eq_some_iff.mpr h).symm.trans (video?_eq_some_iff.mpr h'))

/-! ## The text that is chosen -/

/-- The text of the length: the one of the container, or that of the stream if the container gives none. -/
inductive LengthText (l : Listing) (v : StreamListing) (text : String) : Prop where
  | container (given : l.container.join = some text)
  | stream (absent : l.container.join = none) (given : v.duration = some text)

theorem durationText?_eq_some_iff : l.durationText? v = some text ↔ l.LengthText v text := by
  unfold durationText?
  rw [Option.or_eq_some_iff]
  constructor
  · rintro (hgiven | ⟨habsent, hgiven⟩)
    · exact .container hgiven
    · exact .stream habsent hgiven
  · intro h
    cases h with
    | container hgiven => exact .inl hgiven
    | stream habsent hgiven => exact .inr ⟨habsent, hgiven⟩

/-- What is reported of a file with a first video stream.

* `read`: the text of the length is a number.
* `picture`: there is no such text, or it is no number. A still picture has the length zero.
* `missing`: the same, for any other file. -/
inductive Reported (l : Listing) (v : StreamListing) (path : String) (still : Bool) :
    Except ProbeError Report → Prop where
  | read {text : String} {x : Binary64} (given : l.LengthText v text) (value : Binary64.ofText? text = some x) :
    Reported l v path still (.ok ⟨v.codec.getD "", x, still⟩)
  | picture (unread : ∀ text, l.LengthText v text → Binary64.ofText? text = none) (isStill : still = true) :
    Reported l v path still (.ok ⟨v.codec.getD "", .zero, still⟩)
  | missing (unread : ∀ text, l.LengthText v text → Binary64.ofText? text = none) (moves : still = false) :
    Reported l v path still (.error (.parse path "missing duration"))

/-- What is left of a report once the first video stream is known. -/
theorem report_of_firstVideo (hv : l.FirstVideo v) (path : String) (still : Bool) :
    l.report path still
      = match (l.durationText? v).bind Binary64.ofText? with
        | some duration => .ok ⟨v.codec.getD "", duration, still⟩
        | none =>
          if still then .ok ⟨v.codec.getD "", .zero, still⟩ else .error (.parse path "missing duration") := by
  have hvideo := video?_eq_some_iff.mpr hv
  unfold report
  generalize l.video? = found at hvideo
  subst hvideo
  rfl

/-- No number is read exactly if the chosen text is none. -/
theorem bind_durationText?_eq_none_iff :
    (l.durationText? v).bind Binary64.ofText? = none
      ↔ ∀ text, l.LengthText v text → Binary64.ofText? text = none := by
  rw [Option.bind_eq_none_iff]
  simp only [durationText?_eq_some_iff]

theorem bind_durationText?_eq_some_iff :
    (l.durationText? v).bind Binary64.ofText? = some x
      ↔ ∃ text, l.LengthText v text ∧ Binary64.ofText? text = some x := by
  rw [Option.bind_eq_some_iff]
  simp only [durationText?_eq_some_iff]

theorem reported_report (hv : l.FirstVideo v) (path : String) (still : Bool) :
    l.Reported v path still (l.report path still) := by
  rw [report_of_firstVideo hv]
  cases hread : (l.durationText? v).bind Binary64.ofText? with
  | some x =>
    obtain ⟨text, hgiven, hvalue⟩ := bind_durationText?_eq_some_iff.mp hread
    exact .read hgiven hvalue
  | none =>
    have hunread := bind_durationText?_eq_none_iff.mp hread
    cases still with
    | true => exact .picture hunread rfl
    | false => exact .missing hunread rfl

/-- **The report of a listing is the one that its first video stream and its container give.** -/
theorem report_eq_iff (hv : l.FirstVideo v) : l.report path still = r ↔ l.Reported v path still r := by
  constructor
  · rintro rfl
    exact reported_report hv path still
  · intro h
    rw [report_of_firstVideo hv]
    cases h with
    | read hgiven hvalue => rw [bind_durationText?_eq_some_iff.mpr ⟨_, hgiven, hvalue⟩]
    | picture hunread hstill =>
      rw [bind_durationText?_eq_none_iff.mpr hunread, hstill]
      rfl
    | missing hunread hmoves =>
      rw [bind_durationText?_eq_none_iff.mpr hunread, hmoves]
      rfl

/-! ## The number that is chosen -/

/-- What would be reported if both texts were read first: the number of the container, or that of the stream if the
container gives none, or the length zero of a still picture. -/
inductive ReportedByReading (l : Listing) (v : StreamListing) (path : String) (still : Bool) :
    Except ProbeError Report → Prop where
  | container {text : String} {x : Binary64} (given : l.container.join = some text)
      (value : Binary64.ofText? text = some x) :
    ReportedByReading l v path still (.ok ⟨v.codec.getD "", x, still⟩)
  | stream {text : String} {x : Binary64}
      (unread : ∀ other, l.container.join = some other → Binary64.ofText? other = none)
      (given : v.duration = some text) (value : Binary64.ofText? text = some x) :
    ReportedByReading l v path still (.ok ⟨v.codec.getD "", x, still⟩)
  | picture
      (unread : ∀ text, l.container.join = some text ∨ v.duration = some text → Binary64.ofText? text = none)
      (isStill : still = true) :
    ReportedByReading l v path still (.ok ⟨v.codec.getD "", .zero, still⟩)
  | missing
      (unread : ∀ text, l.container.join = some text ∨ v.duration = some text → Binary64.ofText? text = none)
      (moves : still = false) :
    ReportedByReading l v path still (.error (.parse path "missing duration"))

/-- A number of the stream stays hidden: the container gives a text as well, which is no number. -/
structure Hides (l : Listing) (v : StreamListing) (x : Binary64) : Prop where
  container : ∃ text, l.container.join = some text ∧ Binary64.ofText? text = none
  stream : ∃ text, v.duration = some text ∧ Binary64.ofText? text = some x

/-- Behind a text that is no number nothing is chosen. -/
theorem Hides.unread (h : l.Hides v x) : ∀ text, l.LengthText v text → Binary64.ofText? text = none := by
  obtain ⟨other, hother, hnone⟩ := h.container
  intro text htext
  cases htext with
  | container hgiven =>
    cases hgiven.symm.trans hother
    exact hnone
  | stream habsent => cases habsent.symm.trans hother

/-- Where a number is hidden, only that number would do. -/
theorem Hides.eq_of_reportedByReading (h : l.Hides v x) (hr : l.ReportedByReading v path still r) :
    r = .ok ⟨v.codec.getD "", x, still⟩ := by
  obtain ⟨other, hother, hnone⟩ := h.container
  obtain ⟨text, htext, hvalue⟩ := h.stream
  cases hr with
  | container hgiven hread =>
    cases hgiven.symm.trans hother
    cases hread.symm.trans hnone
  | stream _ hgiven hread =>
    cases hgiven.symm.trans htext
    cases hread.symm.trans hvalue
    rfl
  | picture hunread => cases (hunread text (.inr htext)).symm.trans hvalue
  | missing hunread => cases (hunread text (.inr htext)).symm.trans hvalue

/-- Where nothing is chosen and no number is hidden, neither text is a number. -/
theorem unread_of_not_hides (hunread : ∀ text, l.LengthText v text → Binary64.ofText? text = none)
    (hides : ∀ x, ¬l.Hides v x) :
    ∀ text, l.container.join = some text ∨ v.duration = some text → Binary64.ofText? text = none := by
  rintro text (hgiven | hgiven)
  · exact hunread text (.container hgiven)
  · cases hvalue : Binary64.ofText? text with
    | none => rfl
    | some x =>
      cases hcontainer : l.container.join with
      | none =>
        have hnone := hunread text (.stream hcontainer hgiven)
        cases hnone.symm.trans hvalue
      | some other =>
        refine absurd ⟨⟨other, hcontainer, ?_⟩, text, hgiven, hvalue⟩ (hides x)
        exact hunread other (.container hcontainer)

/-- What is reported where no number is hidden. -/
theorem Reported.reportedByReading (h : l.Reported v path still r) (hides : ∀ x, ¬l.Hides v x) :
    l.ReportedByReading v path still r := by
  cases h with
  | read hgiven hvalue =>
    cases hgiven with
    | container hgiven => exact .container hgiven hvalue
    | stream habsent hgiven =>
      refine .stream (fun other hother => ?_) hgiven hvalue
      cases habsent.symm.trans hother
  | picture hunread hstill => exact .picture (unread_of_not_hides hunread hides) hstill
  | missing hunread hmoves => exact .missing (unread_of_not_hides hunread hides) hmoves

/-- **Choosing first comes to the same as reading first, exactly if no number is hidden**; or if the hidden one is
the zero that a still picture has anyway. -/
theorem reportedByReading_report_iff (hv : l.FirstVideo v) :
    l.ReportedByReading v path still (l.report path still) ↔ ∀ x, l.Hides v x → still = true ∧ x = .zero := by
  constructor
  · intro h x hides
    have hequal := hides.eq_of_reportedByReading h
    -- Nothing is chosen, so the report is that of a still picture without a length.
    have hreported := reported_report hv path still
    rw [hequal] at hreported
    generalize hr : Except.ok _ = r at hreported
    cases hreported with
    | read hgiven hvalue => cases (hides.unread _ hgiven).symm.trans hvalue
    | picture _ hstill => exact ⟨hstill, (Report.mk.inj (Except.ok.inj hr)).2.1⟩
    | missing => cases hr
  · intro h
    by_cases hides : ∃ x, l.Hides v x
    · obtain ⟨x, hx⟩ := hides
      obtain ⟨hstill, hzero⟩ := h x hx
      obtain ⟨other, hother, hnone⟩ := hx.container
      obtain ⟨text, htext, hvalue⟩ := hx.stream
      rw [(report_eq_iff hv).mpr (.picture hx.unread hstill), ← hzero]
      refine .stream (fun found hfound => ?_) htext hvalue
      cases hfound.symm.trans hother
      exact hnone
    · exact (reported_report hv path still).reportedByReading (not_exists.mp hides)

end Listing

/-! ## Reports of a machine -/

/-- A prober that is started for a file ends well, and prints a listing. -/
def Machine.Lists (m : Machine) (prober path : String) (l : Listing) : Prop :=
  ∃ printed, m.start prober (Machine.proberArguments path) = .ok printed ∧ printed.succeeded = true
    ∧ (Json.tokens? printed.output).bind Listing.ofTokens? = some l

namespace Machine

variable {m : Machine} {prober path : String} {l : Listing}

theorem probe_of_lists (h : m.Lists prober path l) : m.probe prober path = l.report path (m.isStill path) := by
  obtain ⟨printed, hstart, hsucceeded, hlisting⟩ := h
  unfold probe
  rw [hstart]
  show (if printed.succeeded then reportOf path printed.output (m.isStill path) else _) = _
  rw [if_pos hsucceeded, reportOf, hlisting]

/-- **A file is reported as its first video stream and its container say.** Streams before and behind that one make no
difference. The text of the container, if it gives one, is chosen before it is read, so the report is the one that
the numbers among both texts give exactly if no number of the stream is hidden, or a still picture hides zero. -/
theorem probe_reports_first_video (h : m.Lists prober path l) (hvideo : ∃ s ∈ l.streams, s.kind = some "video") :
    ∃ v, l.FirstVideo v
      ∧ (∀ r, m.probe prober path = r ↔ l.Reported v path (m.isStill path) r)
      ∧ (l.ReportedByReading v path (m.isStill path) (m.probe prober path)
        ↔ ∀ x, l.Hides v x → m.isStill path = true ∧ x = .zero) := by
  obtain ⟨v, hv⟩ := Listing.exists_firstVideo hvideo
  rw [probe_of_lists h]
  exact ⟨v, hv, fun _ => Listing.report_eq_iff hv, Listing.reportedByReading_report_iff hv⟩

/-- A machine with a prober that prints the same about every file. -/
def printing (text : String) : Machine where
  programs := [("ffprobe", fun _ => { output := text.toUTF8 })]

/-- A listing of a file with sound in front of two streams of video. -/
def soundFirst : String :=
  "\x7b\"streams\": [\x7b\"codec_type\": \"audio\", \"codec_name\": \"aac\", \"duration\": \"30.02\"\x7d," ++
    "\x7b\"codec_type\": \"video\", \"codec_name\": \"h264\", \"duration\": \"29.97\"\x7d," ++
    "\x7b\"codec_type\": \"video\", \"codec_name\": \"mjpeg\"\x7d], \"format\": \x7b\"duration\": \"30.5\"\x7d\x7d"

/-- The codec is that of the first one, and the length that of the container. -/
theorem probe_reports_first_video_soundFirst :
    (printing soundFirst).probe "ffprobe" "a.mp4" = .ok ⟨"h264", .ofRatio false 61 2, false⟩ := by
  let sound : StreamListing := ⟨some "audio", some "aac", some "30.02"⟩
  let shown : StreamListing := ⟨some "video", some "h264", some "29.97"⟩
  let cover : StreamListing := ⟨some "video", some "mjpeg", none⟩
  have hlists : (printing soundFirst).Lists "ffprobe" "a.mp4" ⟨[sound, shown, cover], some (some "30.5")⟩ :=
    ⟨{ output := soundFirst.toUTF8 }, rfl, rfl, by decide +kernel⟩
  have hfirst : Listing.FirstVideo ⟨[sound, shown, cover], some (some "30.5")⟩ shown :=
    ⟨[sound], [cover], rfl, rfl, by decide⟩
  have hvalue : Binary64.ofText? "30.5" = some (.ofRatio false 61 2) := by decide +kernel
  have hstill : (printing soundFirst).isStill "a.mp4" = false := rfl
  obtain ⟨v, hv, hreported, _⟩ := probe_reports_first_video hlists ⟨shown, by decide, rfl⟩
  cases hv.unique hfirst
  rw [hreported, hstill]
  exact .read (.container rfl) hvalue

/-- A listing of a file of five seconds, with a container that does not know its length. -/
def lengthHidden : String :=
  "\x7b\"streams\":[\x7b\"codec_type\":\"video\",\"codec_name\":\"h264\",\"duration\":\"5\"\x7d]," ++
    "\"format\":\x7b\"duration\":\"N/A\"\x7d\x7d"

/-- **A file is refused for a missing length although its stream gives one.** -/
theorem probe_misses_length : ∃ v : StreamListing,
    (printing lengthHidden).Lists "ffprobe" "a.mp4" ⟨[v], some (some "N/A")⟩ ∧ v.kind = some "video"
      ∧ Binary64.ofText? "N/A" = none ∧ v.duration.bind Binary64.ofText? = some (.ofRatio false 5 1)
      ∧ (printing lengthHidden).probe "ffprobe" "a.mp4" = .error (.parse "a.mp4" "missing duration") := by
  refine ⟨⟨some "video", some "h264", some "5"⟩, ?_, rfl, ?_, ?_, ?_⟩
  · exact ⟨{ output := lengthHidden.toUTF8 }, rfl, rfl, by decide +kernel⟩
  · decide +kernel
  · decide +kernel
  · decide +kernel

end Machine
end VideoOverlay
