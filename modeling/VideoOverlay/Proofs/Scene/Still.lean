import VideoOverlay.Proofs.Graph.Still
import VideoOverlay.Scene.Session

/-!
# `Proofs.Scene.Still` — scenes with and without a probe

A probe is asked about the pictures of a scene that do not say whether they are still ones, and its answers
go into the flag of these pictures and nowhere else. So the session of a scene without a probe and the one
with a probe agree but for these flags, and if an entry is rejected, it is for both the same one and for the
same reason. What a probe cannot tell counts as a clip, so a failing probe rejects nothing.

The argument goes entry by entry. One entry registered with a probe does to a session with marked pictures
what it does without a probe to the session without marks (`registerEntry_markStill`); a run over all entries
follows by induction (`runsAlike`).

## Contents
- `Entry.reportedStill`, `pictureEntries`, `Scene.stillMarks`: what the probe reports about a scene.
- `Entry.toOverlay_eq_ok_iff`, `Entry.picture?_toOverlay`: the overlay of an entry, and whether it is a picture.
- `Overlay.markStill`, `register_markStill`, `registerEntry_markStill`: one entry.
- `RunsAlike`, `runsAlike`: a run over entries.
- `Scene.Alike`, `Scene.GraphsAgree`, `Scene.SessionsAgree`, with `Scene.sessionsAgree`.
-/

namespace VideoOverlay

/-! ## Reports -/

/-- Whether a probe reports that an entry which leaves it open shows a still picture. -/
def Entry.reportedStill (p : Probe) (e : Entry) : Bool :=
  match e.unknownFile? with
  | some file =>
    match p file with
    | .ok report => report.still
    | .error _ => false
  | none => false

/-- The entries of pictures, in order. -/
def pictureEntries (entries : List Entry) : List Entry := entries.filter fun e => e.kind = "image"

/-- For each picture of a scene, whether the probe reports it as a still one. -/
def Scene.stillMarks (scene : Scene) (p : Probe) : List Bool :=
  (pictureEntries scene.entries).map (Entry.reportedStill p)

namespace Entry

variable {p : Probe} {e : Entry} {o : Overlay} {file : String}

theorem unknownFile?_eq_some_iff :
    e.unknownFile? = some file ↔ e.kind = "image" ∧ e.still = none ∧ e.file = some file := by
  rw [unknownFile?, ← and_assoc]
  by_cases h : e.kind = "image" ∧ e.still = none
  · rw [if_pos h]
    exact ⟨fun hfile => ⟨h, hfile⟩, fun hall => hall.2⟩
  · rw [if_neg h]
    constructor
    · intro hnone
      cases hnone
    · intro hall
      exact absurd hall.1 h

/-- Only an entry that leaves it open is reported. -/
theorem still_eq_none_of_reportedStill (h : e.reportedStill p = true) : e.still = none := by
  rw [reportedStill] at h
  cases hopen : e.unknownFile? with
  | none =>
    rw [hopen] at h
    cases h
  | some file => exact (unknownFile?_eq_some_iff.mp hopen).2.1

/-! ## The overlay of an entry -/

/-- An entry describes an overlay if what it shows, its size and its time do. -/
theorem toOverlay_eq_ok_iff :
    e.toOverlay = .ok o ↔ ∃ content dimension timeRange, e.contentOf = .ok content
      ∧ e.dimensionOf = .ok dimension ∧ e.timeRangeOf = .ok timeRange
      ∧ o = ⟨⟨e.positionOf, dimension, timeRange, e.fadeIn, e.fadeOut, e.layer.getD 0⟩, content⟩ := by
  rw [toOverlay]
  cases e.contentOf with
  | error v => simp [bind, Except.bind]
  | ok content =>
    cases e.dimensionOf with
    | error v => simp [bind, Except.bind]
    | ok dimension =>
      cases e.timeRangeOf with
      | error v => simp [bind, Except.bind]
      | ok timeRange => simp [bind, Except.bind, pure, Except.pure, eq_comm]

/-- What an entry of a picture shows. -/
theorem contentOf_of_image (h : e.kind = "image") : e.contentOf = .ok (.picture ⟨e.file, e.still.getD false⟩) := by
  rw [contentOf, if_pos h]

/-- An entry of another kind shows no picture. -/
theorem contentOf_ne_picture (h : e.kind ≠ "image") (shown : Picture) : e.contentOf ≠ .ok (.picture shown) := by
  intro heq
  rw [contentOf, if_neg h] at heq
  split at heq
  · cases heq
  · split at heq
    · cases hcolor : e.colorOf <;> simp [hcolor, Except.map] at heq
    · split at heq
      · cases hcolor : e.colorOf <;> simp [hcolor, Except.map] at heq
      · cases heq

/-- The overlay of an entry is a picture exactly if the entry says so. -/
theorem picture?_toOverlay (h : e.toOverlay = .ok o) :
    o.picture? = if e.kind = "image" then some ⟨o.placement, ⟨e.file, e.still.getD false⟩⟩ else none := by
  obtain ⟨content, dimension, timeRange, hcontent, _, _, rfl⟩ := toOverlay_eq_ok_iff.mp h
  by_cases hkind : e.kind = "image"
  · rw [contentOf_of_image hkind] at hcontent
    cases hcontent
    rw [if_pos hkind]
    rfl
  · rw [if_neg hkind]
    cases content with
    | picture shown => exact absurd hcontent (contentOf_ne_picture hkind shown)
    | text fragment => rfl
    | box color => rfl
    | colorKey key => rfl

theorem position_toOverlay (h : e.toOverlay = .ok o) : o.placement.position = e.positionOf := by
  obtain ⟨content, dimension, timeRange, _, _, _, rfl⟩ := toOverlay_eq_ok_iff.mp h
  rfl

end Entry

/-! ## Marked overlays -/

/-- An overlay with a mark, if it is a picture. -/
def Overlay.markStill (mark : Bool) (o : Overlay) : Overlay :=
  match o.content with
  | .picture shown => ⟨o.placement, .picture { shown with still := shown.still || mark }⟩
  | _ => o

theorem Overlay.markStill_false (o : Overlay) : o.markStill false = o := by
  obtain ⟨placement, content⟩ := o
  cases content with
  | picture shown =>
    show Placed.mk _ (Content.picture ⟨_, shown.still || false⟩) = _
    rw [Bool.or_false]
  | text fragment => rfl
  | box color => rfl
  | colorKey key => rfl

/-- A check does not look at marks. -/
theorem Overlay.validate_markStill (mark : Bool) (o : Overlay) :
    Overlay.validate (o.markStill mark) = Overlay.validate o := by
  obtain ⟨placement, content⟩ := o
  cases content <;> rfl

/-- The entry with the answer of the probe, if it leaves it open and there is one. -/
def Entry.answered (p : Probe) (e : Entry) : Entry :=
  match e.unknownFile? with
  | some file =>
    match p file with
    | .ok report => { e with still := some report.still }
    | .error _ => e
  | none => e

/-- The probe is asked about the file of an entry that leaves it open, and only about this one. -/
theorem Entry.withStill_some (p : Probe) (e : Entry) :
    e.withStill (some p) = ⟨e.unknownFile?.toList, .ok (e.answered p)⟩ := by
  unfold withStill answered
  cases e.unknownFile? with
  | none => rfl
  | some file =>
    show Assembly.bind ⟨[file], .ok (p file)⟩ _ = _
    cases hanswer : p file with
    | error pe => simp only [Assembly.bind_ok, Assembly.pure_eq, hanswer, Option.toList_some, List.append_nil]
    | ok report => simp only [Assembly.bind_ok, Assembly.pure_eq, hanswer, Option.toList_some, List.append_nil]

/-- The answer of the probe is a mark. -/
theorem Entry.toOverlay_answered (p : Probe) (e : Entry) :
    (e.answered p).toOverlay = e.toOverlay.map (Overlay.markStill (e.reportedStill p)) := by
  have hsame : e.toOverlay = e.toOverlay.map (Overlay.markStill false) := by
    cases e.toOverlay with
    | error v => rfl
    | ok o => rw [Except.map, Overlay.markStill_false]
  unfold answered reportedStill
  cases hopen : e.unknownFile? with
  | none => exact hsame
  | some file =>
    obtain ⟨hkind, hstill, _⟩ := unknownFile?_eq_some_iff.mp hopen
    cases hanswer : p file with
    | error pe => simpa only [hanswer] using hsame
    | ok report =>
      have hanswered : contentOf { e with still := some report.still } = .ok (.picture ⟨e.file, report.still⟩) :=
        contentOf_of_image hkind
      have hopened : e.contentOf = .ok (.picture ⟨e.file, false⟩) := by
        rw [contentOf_of_image hkind, hstill]
        rfl
      -- The two overlays differ in what they show; their size and time are those of the entry.
      simp only [hanswer, toOverlay, hanswered, hopened]
      show (e.dimensionOf.bind fun dimension => e.timeRangeOf.bind fun timeRange => .ok _) = _
      cases e.dimensionOf with
      | error v => rfl
      | ok dimension =>
        cases e.timeRangeOf with
        | error v => rfl
        | ok timeRange => rfl

namespace Session

variable {s next : Session} {marks : List Bool} {o : Overlay} {p : Probe}

/-- Accepting an overlay appends it if it is a picture. -/
theorem pictures_of_register (h : s.register o = .ok next) : next.pictures = s.pictures ++ o.picture?.toList := by
  obtain ⟨_, hins⟩ := register_eq_ok_iff.mp h
  obtain ⟨placement, content⟩ := o
  cases content with
  | picture shown =>
    cases hins
    rfl
  | text fragment =>
    cases hins
    exact (List.append_nil _).symm
  | box color =>
    cases hins
    exact (List.append_nil _).symm
  | colorKey key =>
    simp only [insert] at hins
    split at hins
    · cases hins
    · cases hins
      exact (List.append_nil _).symm

/-- **A marked overlay does to a session with marks what the overlay itself does to the session without.** -/
theorem register_markStill (h : marks.length = s.pictures.length) (mark : Bool) (o : Overlay) :
    (s.markStill marks).register (o.markStill mark)
      = (s.register o).map fun next => next.markStill (marks ++ o.picture?.toList.map fun _ => mark) := by
  rw [register, register, Overlay.validate_markStill]
  cases Overlay.validate o with
  | error v => rfl
  | ok u =>
    show (s.markStill marks).insert (o.markStill mark) = (s.insert o).map _
    obtain ⟨placement, content⟩ := o
    cases content with
    | picture shown =>
      show Except.ok _ = Except.ok (markStill _ (marks ++ [mark]))
      unfold markStill
      rw [List.zipWith_append h]
      rfl
    | text fragment =>
      show Except.ok _ = Except.ok (markStill _ (marks ++ []))
      rw [List.append_nil]
      rfl
    | box color =>
      show Except.ok _ = Except.ok (markStill _ (marks ++ []))
      rw [List.append_nil]
      rfl
    | colorKey key =>
      have hsame : (s.markStill marks).colorKey = s.colorKey := rfl
      cases hkey : s.colorKey with
      | some k =>
        simp only [Overlay.markStill, insert, hsame, hkey]
        rfl
      | none =>
        simp only [Overlay.markStill, insert, hsame, hkey]
        show Except.ok _ = Except.ok (markStill _ (marks ++ []))
        rw [List.append_nil]
        rfl

end Session

/-! ## One entry -/

/-- Where a picture is laid over, and what it shows. -/
def Placed.view (q : Placed Picture) : Option Position × Picture := (q.placement.position, q.content)

/-- Where the picture of an entry is laid over, and what it shows. What is left open is taken for a clip. -/
def Entry.view (e : Entry) : Option Position × Picture := (e.positionOf, ⟨e.file, e.still.getD false⟩)

/-- The picture of an overlay, if there is one, is that of the entry, if it is one of a picture. -/
theorem Entry.map_picture?_toOverlay {β : Type} {e : Entry} {o : Overlay} (h : e.toOverlay = .ok o)
    {f : Placed Picture → β} {g : Entry → β} (hfg : f ⟨o.placement, ⟨e.file, e.still.getD false⟩⟩ = g e) :
    o.picture?.toList.map f = (pictureEntries [e]).map g := by
  rw [picture?_toOverlay h, pictureEntries]
  by_cases hkind : e.kind = "image"
  · rw [if_pos hkind, List.filter_cons_of_pos (by simpa using hkind)]
    exact congrArg (fun x => [x]) hfg
  · rw [if_neg hkind, List.filter_cons_of_neg (by simpa using hkind)]
    rfl

namespace Session

variable {s next : Session} {marks : List Bool} {e : Entry} {p : Probe}

/-- What is left of the registration of an entry once the probe was asked. -/
theorem registerEntry_of_withStill {probe : Option Probe} {answered : Entry} {probed : List String}
    (h : e.withStill probe = ⟨probed, .ok answered⟩) (s : Session) :
    s.registerEntry probe e = ⟨probed, (answered.toOverlay.bind s.register).mapError .validation⟩ := by
  rw [registerEntry, h]
  show Assembly.bind ⟨probed, .ok answered⟩ _ = _
  cases ho : answered.toOverlay with
  | error v => simp only [Assembly.bind_ok, ho, Except.mapError, Assembly.ofExcept, Assembly.bind_eq,
      Assembly.bind_error, List.append_nil, Except.bind]
  | ok o => simp only [Assembly.bind_ok, ho, Except.mapError, Assembly.ofExcept, Assembly.bind_eq,
      List.append_nil, Except.bind]

theorem registerEntry_none (s : Session) (e : Entry) :
    s.registerEntry none e = ⟨[], (e.toOverlay.bind s.register).mapError .validation⟩ :=
  registerEntry_of_withStill rfl s

theorem registerEntry_some (p : Probe) (s : Session) (e : Entry) :
    s.registerEntry (some p) e
      = ⟨e.unknownFile?.toList, ((e.answered p).toOverlay.bind s.register).mapError .validation⟩ :=
  registerEntry_of_withStill (e.withStill_some p) s

/-- **An entry does to a session with marked pictures, with a probe, what it does without one to the session
without marks**: it is rejected for the same reason, or accepted with the report of the probe as its mark. -/
theorem registerEntry_markStill (h : marks.length = s.pictures.length) (p : Probe) (e : Entry) :
    (∃ v, s.registerEntry none e = ⟨[], .error (.validation v)⟩
        ∧ (s.markStill marks).registerEntry (some p) e = ⟨e.unknownFile?.toList, .error (.validation v)⟩)
      ∨ ∃ next, s.registerEntry none e = ⟨[], .ok next⟩
          ∧ (s.markStill marks).registerEntry (some p) e = ⟨e.unknownFile?.toList,
              .ok (next.markStill (marks ++ (pictureEntries [e]).map (Entry.reportedStill p)))⟩
          ∧ next.pictures.map Placed.view = s.pictures.map Placed.view ++ (pictureEntries [e]).map Entry.view := by
  rw [registerEntry_none, registerEntry_some, e.toOverlay_answered]
  cases ho : e.toOverlay with
  | error v => exact .inl ⟨v, rfl, rfl⟩
  | ok o =>
    -- Both sessions get the same overlay, the second one with the report as a mark.
    have hmarked := register_markStill h (e.reportedStill p) o
    simp only [Except.bind, Except.map, hmarked]
    cases hnext : s.register o with
    | error v => exact .inl ⟨v, rfl, rfl⟩
    | ok next =>
      have hmark : o.picture?.toList.map (fun _ => e.reportedStill p)
          = (pictureEntries [e]).map (Entry.reportedStill p) := Entry.map_picture?_toOverlay ho rfl
      have hview : Placed.view ⟨o.placement, ⟨e.file, e.still.getD false⟩⟩ = e.view := by
        rw [Placed.view, Entry.position_toOverlay ho, Entry.view]
      refine .inr ⟨next, rfl, ?_, ?_⟩
      · rw [← hmark]
        rfl
      · rw [pictures_of_register hnext, List.map_append, Entry.map_picture?_toOverlay ho hview]

end Session

/-! ## A run over entries -/

/-- What entries do to a session without a probe, and to the same one with marked pictures and a probe.

* `rejected`: one of them is rejected, with all before it accepted. The probe was asked about it as well.
* `accepted`: all are accepted. -/
inductive RunsAlike (p : Probe) (s : Session) (marks : List Bool) (es : List Entry) :
    Assembly Session → Assembly Session → Prop where
  | rejected {front back : List Entry} {e : Entry} {mid : Session} {v : ValidationError}
      (entries : es = front ++ e :: back) (before : s.registerEntries none front = ⟨[], .ok mid⟩)
      (rejection : mid.registerEntry none e = ⟨[], .error (.validation v)⟩) :
    RunsAlike p s marks es ⟨[], .error (.validation v)⟩
      ⟨(front ++ [e]).filterMap Entry.unknownFile?, .error (.validation v)⟩
  | accepted {next : Session}
      (views : next.pictures.map Placed.view = s.pictures.map Placed.view ++ (pictureEntries es).map Entry.view) :
    RunsAlike p s marks es ⟨[], .ok next⟩
      ⟨es.filterMap Entry.unknownFile?,
        .ok (next.markStill (marks ++ (pictureEntries es).map (Entry.reportedStill p)))⟩

namespace Session

variable {s mid next : Session} {marks : List Bool} {e : Entry} {es : List Entry} {p : Probe}

theorem registerEntries_cons_of_error {probe : Option Probe} {probed : List String} {failure : Error}
    (h : s.registerEntry probe e = ⟨probed, .error failure⟩) (es : List Entry) :
    s.registerEntries probe (e :: es) = ⟨probed, .error failure⟩ := by
  rw [registerEntries, Assembly.bind_eq, h, Assembly.bind_error]

theorem registerEntries_cons_of_ok {probe : Option Probe} {probed : List String}
    (h : s.registerEntry probe e = ⟨probed, .ok next⟩) (es : List Entry) :
    s.registerEntries probe (e :: es) = ⟨probed ++ (next.registerEntries probe es).probed,
      (next.registerEntries probe es).outcome⟩ := by
  rw [registerEntries, Assembly.bind_eq, h, Assembly.bind_ok]

theorem filterMap_unknownFile?_cons (e : Entry) (es : List Entry) :
    (e :: es).filterMap Entry.unknownFile? = e.unknownFile?.toList ++ es.filterMap Entry.unknownFile? := by
  rw [List.filterMap_cons]
  cases e.unknownFile? <;> rfl

theorem pictureEntries_cons (e : Entry) (es : List Entry) :
    pictureEntries (e :: es) = pictureEntries [e] ++ pictureEntries es := by
  rw [pictureEntries, pictureEntries, pictureEntries, ← List.filter_append]
  rfl

/-- **With a probe and with marked pictures, entries do what they do without.** By induction on the entries;
the marks are one for each picture all along. -/
theorem runsAlike (h : marks.length = s.pictures.length) (p : Probe) (es : List Entry) :
    RunsAlike p s marks es (s.registerEntries none es) ((s.markStill marks).registerEntries (some p) es) := by
  induction es generalizing s marks with
  | nil =>
    have hmarked : s.markStill marks = s.markStill (marks ++ (pictureEntries []).map (Entry.reportedStill p)) := by
      rw [pictureEntries, List.filter_nil, List.map_nil, List.append_nil]
    show RunsAlike p s marks [] ⟨[], .ok s⟩ ⟨[], .ok (s.markStill marks)⟩
    rw [hmarked]
    exact .accepted (List.append_nil _).symm
  | cons e es ih =>
    rcases registerEntry_markStill h p e with ⟨v, hnone, hsome⟩ | ⟨next, hnone, hsome, hviews⟩
    · rw [registerEntries_cons_of_error hnone, registerEntries_cons_of_error hsome]
      have hasked : e.unknownFile?.toList = ([] ++ [e]).filterMap Entry.unknownFile? := by
        rw [List.nil_append, filterMap_unknownFile?_cons]
        exact (List.append_nil _).symm
      rw [hasked]
      exact .rejected (List.nil_append _).symm rfl hnone
    · -- The new marks are one for each picture again, so the run goes on as it began.
      have hlength : (marks ++ (pictureEntries [e]).map (Entry.reportedStill p)).length = next.pictures.length := by
        have hcount := congrArg List.length hviews
        simp only [List.length_append, List.length_map] at hcount ⊢
        omega
      have hrest := ih hlength
      rw [registerEntries_cons_of_ok hnone, registerEntries_cons_of_ok hsome]
      generalize next.registerEntries none es = left at hrest ⊢
      generalize (next.markStill _).registerEntries (some p) es = right at hrest ⊢
      cases hrest with
      | @rejected front back e' mid v entries before rejection =>
        have hentries : e :: es = (e :: front) ++ e' :: back := by rw [entries, List.cons_append]
        have hbefore : s.registerEntries none (e :: front) = ⟨[], .ok mid⟩ := by
          rw [registerEntries_cons_of_ok hnone, before]
          rfl
        rw [← filterMap_unknownFile?_cons]
        exact .rejected hentries hbefore rejection
      | @accepted last views =>
        rw [← filterMap_unknownFile?_cons, List.append_assoc, ← List.map_append, ← pictureEntries_cons]
        refine .accepted ?_
        rw [views, hviews, List.append_assoc, ← List.map_append, ← pictureEntries_cons]

end Session

/-! ## The sessions of a scene -/

namespace Scene

variable {scene : Scene} {p : Probe} {s : Session}

/-- Two sessions of a scene are the same but for one flag: a picture whose entry leaves it open is a clip in
the first, and in the second what the probe reports. -/
structure Alike (scene : Scene) (p : Probe) (s s' : Session) : Prop where
  colorKey : s'.colorKey = s.colorKey
  texts : s'.texts = s.texts
  boxes : s'.boxes = s.boxes
  inputs : s'.inputs = s.inputs
  length : s.pictures.length = (pictureEntries scene.entries).length
  length_eq : s'.pictures.length = s.pictures.length
  pictures : ∀ (j : Nat) (e : Entry), (pictureEntries scene.entries)[j]? = some e → ∃ placement : Placement,
    placement.position = e.positionOf
      ∧ s.pictures[j]? = some ⟨placement, ⟨e.file, e.still.getD false⟩⟩
      ∧ s'.pictures[j]? = some ⟨placement, ⟨e.file, e.still.getD (e.reportedStill p)⟩⟩

/-- The graphs of a session of a scene, without the reports of the probe and with them. -/
inductive GraphsAgree (scene : Scene) (p : Probe) (s : Session) :
    Except GraphError Graph → Except GraphError Graph → Prop where
  | refused (v : GraphError) : GraphsAgree scene p s (.error v) (.error v)
  | drawn {g g' : Graph} (marked : s.MarkedIn (scene.stillMarks p) g g') : GraphsAgree scene p s (.ok g) (.ok g')

/-- What a scene comes to without a probe and with one.

* `rejected`: an entry is rejected, and no entry before it is. The probe was asked about the files that are
  left open up to this entry.
* `accepted`: no entry is rejected. The probe was asked about all files that are left open. -/
inductive SessionsAgree (scene : Scene) (p : Probe) : Assembly Session → Assembly Session → Prop where
  | rejected {front back : List Entry} {e : Entry} {mid : Session} {v : ValidationError}
      (entries : scene.entries = front ++ e :: back) (before : session ⟨front⟩ none = ⟨[], .ok mid⟩)
      (rejection : mid.registerEntry none e = ⟨[], .error (.validation v)⟩) :
    SessionsAgree scene p ⟨[], .error (.validation v)⟩
      ⟨(front ++ [e]).filterMap Entry.unknownFile?, .error (.validation v)⟩
  | accepted {s s' : Session} (alike : scene.Alike p s s')
      (graphs : scene.GraphsAgree p s s.compile s'.compile) :
    SessionsAgree scene p ⟨[], .ok s⟩ ⟨scene.entries.filterMap Entry.unknownFile?, .ok s'⟩

/-- The picture of a session that stands at the place of an entry. -/
theorem exists_picture_of_views (hviews : s.pictures.map Placed.view = (pictureEntries scene.entries).map Entry.view)
    {j : Nat} {e : Entry} (he : (pictureEntries scene.entries)[j]? = some e) :
    ∃ placement : Placement, placement.position = e.positionOf
      ∧ s.pictures[j]? = some ⟨placement, ⟨e.file, e.still.getD false⟩⟩ := by
  have hj := congrArg (fun views => views[j]?) hviews
  simp only [List.getElem?_map, he, Option.map_some] at hj
  obtain ⟨⟨placement, shown⟩, hq, hview⟩ := Option.map_eq_some_iff.mp hj
  obtain ⟨hposition, hshown⟩ := Prod.mk.inj hview
  refine ⟨placement, hposition, ?_⟩
  rw [hq]
  exact congrArg (fun c => some (Placed.mk placement c)) hshown

/-- The probe marks pictures that are clips without it. -/
theorem takesMarks (hviews : s.pictures.map Placed.view = (pictureEntries scene.entries).map Entry.view) :
    s.TakesMarks (scene.stillMarks p) where
  length := by
    have hlength := congrArg List.length hviews
    rw [List.length_map, List.length_map] at hlength
    rw [stillMarks, List.length_map, hlength]
  moving := by
    intro j q hq hmark
    rw [stillMarks, List.getElem?_map] at hmark
    obtain ⟨e, he, hreported⟩ := Option.map_eq_some_iff.mp hmark
    obtain ⟨placement, _, hpicture⟩ := exists_picture_of_views hviews he
    rw [hq, Option.some.injEq] at hpicture
    rw [hpicture, Entry.still_eq_none_of_reportedStill hreported]
    rfl

/-- A picture takes over the report of the probe if its entry leaves it open. -/
theorem getD_still_or_reportedStill (p : Probe) (e : Entry) :
    (e.still.getD false || e.reportedStill p) = e.still.getD (e.reportedStill p) := by
  cases hstill : e.still with
  | none => exact Bool.false_or _
  | some still =>
    have hreported : e.reportedStill p = false := by
      by_contra h
      rw [Entry.still_eq_none_of_reportedStill (Bool.of_not_eq_false h)] at hstill
      cases hstill
    rw [hreported]
    exact Bool.or_false _

theorem alike_markStill (hviews : s.pictures.map Placed.view = (pictureEntries scene.entries).map Entry.view) :
    scene.Alike p s (s.markStill (scene.stillMarks p)) where
  colorKey := rfl
  texts := rfl
  boxes := rfl
  inputs := rfl
  length := by
    have hlength := congrArg List.length hviews
    rwa [List.length_map, List.length_map] at hlength
  length_eq := Session.length_markStill (takesMarks hviews).length
  pictures := by
    intro j e he
    obtain ⟨placement, hposition, hpicture⟩ := exists_picture_of_views hviews he
    have hmark : (scene.stillMarks p)[j]? = some (e.reportedStill p) := by
      rw [stillMarks, List.getElem?_map, he, Option.map_some]
    refine ⟨placement, hposition, hpicture, ?_⟩
    rw [Session.getElem?_markStill hpicture hmark, Placed.markStill, getD_still_or_reportedStill]

/-- **A scene comes to the same without a probe and with any probe**, but for the flag of the pictures that
leave it open. -/
theorem sessionsAgree (scene : Scene) (p : Probe) :
    scene.SessionsAgree p (scene.session none) (scene.session (some p)) := by
  have hrun : RunsAlike p .empty [] scene.entries (scene.session none) (scene.session (some p)) :=
    Session.runsAlike rfl p scene.entries
  generalize scene.session none = left at hrun ⊢
  generalize scene.session (some p) = right at hrun ⊢
  cases hrun with
  | rejected entries before rejection => exact .rejected entries before rejection
  | @accepted s views =>
    have hgraphs : scene.GraphsAgree p s s.compile (s.markStill (scene.stillMarks p)).compile := by
      rcases Session.compile_markStill (takesMarks (p := p) views) with ⟨v, h, h'⟩ | ⟨g, g', h, h', hmarked⟩
      · rw [h, h']
        exact .refused v
      · rw [h, h']
        exact .drawn hmarked
    exact .accepted (alike_markStill views) hgraphs

/-- A picture that leaves it open is asked about, and one that does not is not. -/
example :
    let entry : Entry := { kind := "image", file := some "logo.png", width := some 64 }
    let made := session ⟨[entry, { entry with still := some false }]⟩ (some fun _ => .ok ⟨"png", .zero, true⟩)
    made.probed = ["logo.png"]
      ∧ made.outcome.toOption.map (fun s => s.pictures.map fun q => q.content.still) = some [true, false] := by
  decide +kernel

end Scene
end VideoOverlay
