import Mathlib.Data.List.Basic
import VideoOverlay.Proofs.Session.Register

/-!
# `Proofs.Session.Run` — what holds of every session

A caller hands overlays to a session, one by one or in lists, and goes on after a rejection. Whatever is
offered, the session is that of the overlays it has accepted (`run_keeping`), and each of these is complete.
A session with that property is called *reachable*; the graph of a session is studied for such ones.

The picture files make the point of the invariant plain: a picture's file is pushed only if it has one, and
the graph counts on the number of files being the number of pictures (`getElem?_inputs_of_picture`).

## Contents
- `Offer`, `Session.afterOffer`, `Session.run`: what a caller does. `Session.accepted`: what comes of it.
- `Session.Keeps`, `Session.Complete`, `Session.DrawnInFull`, with `run_empty_keeps_complete_overlays`.
- `Session.Reachable`, `Reachable.keeps`, `Reachable.complete`, `getElem?_inputs_of_picture`.
- `Session.sample`: a session that was offered a bit of everything.
-/

namespace VideoOverlay

/-- What a caller hands to a session: one overlay, or a list to be taken up to the first that is rejected. -/
inductive Offer where
  | one (o : Overlay)
  | many (os : List Overlay)

namespace Session

/-! ## Runs -/

/-- The session after an offer. A rejected overlay leaves it as it was. -/
def afterOffer (s : Session) : Offer → Session
  | .one o =>
    match s.register o with
    | .ok next => next
    | .error _ => s
  | .many os => (s.registerAll os).1

/-- The session after some offers. -/
def run (s : Session) : List Offer → Session
  | [] => s
  | offer :: offers => (s.afterOffer offer).run offers

/-- The overlays of a list that are accepted one after the other, up to the first that is not. -/
def acceptedOf (s : Session) : List Overlay → List Overlay
  | [] => []
  | o :: os =>
    match s.register o with
    | .ok next => o :: next.acceptedOf os
    | .error _ => []

/-- The overlays of an offer that are accepted. -/
def acceptedBy (s : Session) : Offer → List Overlay
  | .one o => s.acceptedOf [o]
  | .many os => s.acceptedOf os

/-- The overlays that are accepted in a run, in the order they are offered. -/
def accepted (s : Session) : List Offer → List Overlay
  | [] => []
  | offer :: offers => s.acceptedBy offer ++ (s.afterOffer offer).accepted offers

theorem run_append (s : Session) (front back : List Offer) :
    s.run (front ++ back) = (s.run front).run back := by
  induction front generalizing s with
  | nil => rfl
  | cons offer front ih => exact ih (s.afterOffer offer)

/-! ## The session is that of the accepted overlays -/

theorem registerAll_keeping (l os : List Overlay) :
    ((keeping l).registerAll os).1 = keeping (l ++ (keeping l).acceptedOf os) := by
  induction os generalizing l with
  | nil => rw [registerAll, acceptedOf, List.append_nil]
  | cons o os ih =>
    rw [registerAll, acceptedOf]
    cases h : (keeping l).register o with
    | error e =>
      show keeping l = keeping (l ++ [])
      rw [List.append_nil]
    | ok next =>
      have hnext := register_keeping h
      subst hnext
      show ((keeping (l ++ [o])).registerAll os).1 = _
      rw [ih, List.append_assoc, List.singleton_append]

/-- One step of a run appends what it accepts. -/
theorem afterOffer_keeping (l : List Overlay) (offer : Offer) :
    (keeping l).afterOffer offer = keeping (l ++ (keeping l).acceptedBy offer) := by
  cases offer with
  | many os => exact registerAll_keeping l os
  | one o =>
    -- A single overlay is a list of one.
    rw [acceptedBy, ← registerAll_keeping, afterOffer, registerAll]
    cases (keeping l).register o with
    | error e => rfl
    | ok next => rfl

/-- **A session is that of the overlays it has accepted.** -/
theorem run_keeping (l : List Overlay) (offers : List Offer) :
    (keeping l).run offers = keeping (l ++ (keeping l).accepted offers) := by
  induction offers generalizing l with
  | nil => rw [run, accepted, List.append_nil]
  | cons offer offers ih =>
    rw [run, accepted, afterOffer_keeping, ih, List.append_assoc]

/-! ## What is accepted -/

/-- A list of overlays that may be accepted one after the other: each is valid, and one at most is a color
key. -/
structure Acceptable (l : List Overlay) : Prop where
  valid : ∀ o ∈ l, Overlay.validate o = .ok ()
  one_colorKey : (l.filterMap Overlay.colorKey?).length ≤ 1

theorem acceptable_nil : Acceptable [] := ⟨fun _ ho => absurd ho List.not_mem_nil, Nat.zero_le 1⟩

theorem Acceptable.register {l : List Overlay} (hl : Acceptable l) {o : Overlay} {next : Session}
    (h : (keeping l).register o = .ok next) : Acceptable (l ++ [o]) := by
  refine ⟨fun o' ho' => ?_, length_colorKeys_of_register hl.one_colorKey h⟩
  rcases List.mem_append.mp ho' with ho' | ho'
  · exact hl.valid o' ho'
  · rw [List.mem_singleton.mp ho']
    exact (register_eq_ok_iff.mp h).1

theorem Acceptable.acceptedOf {l : List Overlay} (hl : Acceptable l) (os : List Overlay) :
    Acceptable (l ++ (keeping l).acceptedOf os) := by
  induction os generalizing l with
  | nil => rwa [Session.acceptedOf, List.append_nil]
  | cons o os ih =>
    rw [Session.acceptedOf]
    cases h : (keeping l).register o with
    | error e =>
      show Acceptable (l ++ [])
      rwa [List.append_nil]
    | ok next =>
      have hnext := register_keeping h
      subst hnext
      have hrest := ih (hl.register h)
      rwa [List.append_assoc, List.singleton_append] at hrest

theorem Acceptable.accepted {l : List Overlay} (hl : Acceptable l) (offers : List Offer) :
    Acceptable (l ++ (keeping l).accepted offers) := by
  induction offers generalizing l with
  | nil => rwa [Session.accepted, List.append_nil]
  | cons offer offers ih =>
    have hby : Acceptable (l ++ (keeping l).acceptedBy offer) := by
      cases offer with
      | one o => exact hl.acceptedOf [o]
      | many os => exact hl.acceptedOf os
    rw [Session.accepted, afterOffer_keeping, ← List.append_assoc]
    exact ih hby

/-! ## The invariant -/

/-- A session keeps a list of overlays: each kind in the order of the list, and the files they read, those
of the color key first. -/
structure Keeps (s : Session) (l : List Overlay) : Prop where
  colorKey : s.colorKey = (l.filterMap Overlay.colorKey?).head?
  one_colorKey : (l.filterMap Overlay.colorKey?).length ≤ 1
  pictures : s.pictures = l.filterMap Overlay.picture?
  texts : s.texts = l.filterMap Overlay.text?
  boxes : s.boxes = l.filterMap Overlay.box?
  inputs : s.inputs
    = (s.colorKey.map fun k => k.content.imageFile.toList ++ k.content.videoFile.toList).getD []
      ++ s.pictures.filterMap fun p => p.content.file

/-- The colors of a session: that of the key and those of the boxes. -/
def colors (s : Session) : List Color :=
  (s.colorKey.bind fun k => k.content.color).toList ++ s.boxes.filterMap fun b => b.content

theorem mem_colors_of_colorKey {s : Session} {k : Placed ColorKey} {c : Color} (hk : s.colorKey = some k)
    (hc : k.content.color = some c) : c ∈ s.colors := by
  refine List.mem_append_left _ ?_
  rw [hk, Option.bind_some, hc]
  exact List.mem_singleton_self c

theorem mem_colors_of_box {s : Session} {b : Placed (Option Color)} {c : Color} (hb : b ∈ s.boxes)
    (hc : b.content = some c) : c ∈ s.colors :=
  List.mem_append_right _ (List.mem_filterMap.mpr ⟨b, hb, hc⟩)

/-- Every overlay of a session has the fields of its kind, and fades in range if it fades at all. -/
structure Complete (s : Session) : Prop where
  colorKey : ∀ k, s.colorKey = some k → k.placement.FadesInRange ∧ k.content.Complete k.placement
  pictures : ∀ p ∈ s.pictures,
    p.placement.FadesInRange ∧ p.content.file ≠ none ∧ p.placement.dimension ≠ none
  texts : ∀ t ∈ s.texts, t.placement.FadesInRange ∧ Text.isBlankText t.content = false
  boxes : ∀ b ∈ s.boxes, b.placement.FadesInRange ∧ BoxComplete b.content b.placement
  colors : ∀ c ∈ s.colors,
    Text.isBlankText c.name = false ∧ IsFraction c.opacity ∧ c.thickness ≠ .pixels 0

/-- Every overlay of a session is written with all fields of its kind: no stream keeps its own size, and no
box or key goes without a place, a size or a color. -/
structure DrawnInFull (s : Session) : Prop where
  colorKey : ∀ k, s.colorKey = some k → k.content.KeyedInFull ∧ k.placement.ScaledInFull
  pictures : ∀ p ∈ s.pictures, p.placement.ScaledInFull
  boxes : ∀ b ∈ s.boxes, BoxDrawnInFull b.content b.placement

theorem Complete.drawnInFull {s : Session} (h : s.Complete) : s.DrawnInFull where
  colorKey k hk := ⟨ColorKey.keyedInFull (h.colorKey k hk).2.color,
    Placement.scaledInFull (h.colorKey k hk).2.dimension⟩
  pictures p hp := Placement.scaledInFull (h.pictures p hp).2.2
  boxes b hb := (h.boxes b hb).2.drawnInFull

theorem keeps_keeping {l : List Overlay} (hl : Acceptable l) : (keeping l).Keeps l where
  colorKey := rfl
  one_colorKey := hl.one_colorKey
  pictures := rfl
  texts := rfl
  boxes := rfl
  inputs := by
    rw [List.filterMap_eq_flatMap_toList]
    rfl

/-- What is kept is an overlay of the list, so it is complete. -/
theorem complete_keeping {l : List Overlay} (hl : Acceptable l) : (keeping l).Complete := by
  have hcomplete : ∀ o ∈ l, o.placement.FadesInRange ∧ o.content.Complete o.placement :=
    fun o ho => Overlay.validate_eq_ok_iff.mp (hl.valid o ho)
  refine ⟨fun k hk => ?_, fun p hp => ?_, fun t ht => ?_, fun b hb => ?_,
    fun c _ => ⟨c.name_isGiven, c.opacity_isFraction, c.thickness_isDrawn⟩⟩
  · obtain ⟨o, ho, hok⟩ := List.mem_filterMap.mp (List.mem_of_head? hk)
    exact hcomplete _ (Overlay.eq_of_colorKey? hok ▸ ho)
  · obtain ⟨o, ho, hop⟩ := List.mem_filterMap.mp hp
    exact hcomplete _ (Overlay.eq_of_picture? hop ▸ ho)
  · obtain ⟨o, ho, hot⟩ := List.mem_filterMap.mp ht
    exact hcomplete _ (Overlay.eq_of_text? hot ▸ ho)
  · obtain ⟨o, ho, hob⟩ := List.mem_filterMap.mp hb
    exact hcomplete _ (Overlay.eq_of_box? hob ▸ ho)

/-- The accepted overlays of a run from nothing. -/
theorem acceptable_accepted (offers : List Offer) : Acceptable (empty.accepted offers) :=
  acceptable_nil.accepted offers

theorem run_empty (offers : List Offer) : empty.run offers = keeping (empty.accepted offers) :=
  run_keeping [] offers

/-! ## Reachable sessions -/

/-- A session that some run from nothing ends in. -/
def Reachable (s : Session) : Prop := ∃ offers, empty.run offers = s

variable {s : Session}

theorem Reachable.keeps (hs : s.Reachable) : ∃ l, s.Keeps l := by
  obtain ⟨offers, rfl⟩ := hs
  rw [run_empty]
  exact ⟨_, keeps_keeping (acceptable_accepted offers)⟩

theorem Reachable.complete (hs : s.Reachable) : s.Complete := by
  obtain ⟨offers, rfl⟩ := hs
  rw [run_empty]
  exact complete_keeping (acceptable_accepted offers)

/-- The files of the color key, the first inputs. -/
def keyFiles (s : Session) : List String := (s.colorKey.map fun k => k.content.files).getD []

theorem length_keyFiles (s : Session) : s.keyFiles.length = s.colorKeyInputCount := by
  rw [keyFiles, colorKeyInputCount]
  cases s.colorKey <;> rfl

theorem Reachable.inputs_eq (hs : s.Reachable) :
    s.inputs = s.keyFiles ++ s.pictures.filterMap fun p => p.content.file := by
  obtain ⟨l, hl⟩ := hs.keeps
  exact hl.inputs

/-- Where every picture has a file, the files of the pictures are as many as these. -/
theorem filterMap_file_eq {ps : List (Placed Picture)} (h : ∀ p ∈ ps, p.content.file ≠ none) :
    ps.filterMap (fun p => p.content.file) = ps.map fun p => p.content.file.getD "" := by
  induction ps with
  | nil => rfl
  | cons p ps ih =>
    obtain ⟨file, hfile⟩ := Option.ne_none_iff_exists'.mp (h p List.mem_cons_self)
    rw [List.filterMap_cons, hfile, List.map_cons, hfile, ih fun q hq => h q (List.mem_cons_of_mem p hq)]
    rfl

theorem Reachable.filterMap_file (hs : s.Reachable) :
    s.pictures.filterMap (fun p => p.content.file) = s.pictures.map fun p => p.content.file.getD "" :=
  filterMap_file_eq fun p hp => (hs.complete.pictures p hp).2.1

/-- Every picture has one input, after those of the color key. -/
theorem Reachable.length_inputs (hs : s.Reachable) :
    s.inputs.length = s.colorKeyInputCount + s.pictures.length := by
  rw [hs.inputs_eq, hs.filterMap_file, List.length_append, length_keyFiles, List.length_map]

/-- **The input of a picture is its own file**, also where two pictures have the same. -/
theorem Reachable.getElem?_inputs_of_picture (hs : s.Reachable) {j : Nat} {p : Placed Picture}
    (hp : s.pictures[j]? = some p) :
    ∃ file, p.content.file = some file ∧ s.inputs[s.colorKeyInputCount + j]? = some file := by
  obtain ⟨file, hfile⟩ :=
    Option.ne_none_iff_exists'.mp (hs.complete.pictures p (List.mem_of_getElem? hp)).2.1
  refine ⟨file, hfile, ?_⟩
  rw [hs.inputs_eq, hs.filterMap_file, ← length_keyFiles, List.getElem?_append_right (Nat.le_add_right _ _),
    Nat.add_sub_cancel_left, List.getElem?_map, hp, Option.map_some, hfile, Option.getD_some]

/-- The first input of a session with a color key is the background picture, or the clip if there is none. -/
theorem Reachable.getElem?_inputs_of_colorKey (hs : s.Reachable) {k : Placed ColorKey}
    (hk : s.colorKey = some k) :
    ∃ file, k.content.imageFile.or k.content.videoFile = some file ∧ s.inputs[0]? = some file := by
  have hfiles : k.content.files ≠ [] := (hs.complete.colorKey k hk).2.files
  have hkey : s.keyFiles = k.content.files := by rw [keyFiles, hk]; rfl
  rw [hs.inputs_eq, hkey]
  rw [ColorKey.files] at hfiles ⊢
  cases himage : k.content.imageFile with
  | some file => exact ⟨file, rfl, rfl⟩
  | none =>
    rw [himage] at hfiles
    cases hvideo : k.content.videoFile with
    | some file => exact ⟨file, rfl, rfl⟩
    | none =>
      rw [hvideo] at hfiles
      exact absurd rfl hfiles

/-! ## Every run -/

/-- **Every run keeps complete overlays.** Whatever is offered, the session holds the accepted overlays by
kind and in order, with their files; each has what its kind is drawn with, and is drawn with all of it. The
next registration fails exactly if its overlay is not valid or a second color key, and leaves the session
as it is. A list fails at its first overlay that is rejected. -/
theorem run_empty_keeps_complete_overlays (offers : List Offer) :
    (empty.run offers).Keeps (empty.accepted offers)
      ∧ (∀ o ∈ empty.accepted offers, Overlay.validate o = .ok ())
      ∧ (empty.run offers).Complete
      ∧ (empty.run offers).DrawnInFull
      ∧ (∀ o e, (empty.run offers).register o = .error e
          ↔ Overlay.validate o = .error e
            ∨ (Overlay.validate o = .ok () ∧ (∃ key, o.content = .colorKey key)
                ∧ (empty.run offers).colorKey ≠ none ∧ e = .duplicateColorKey))
      ∧ (∀ o e, (empty.run offers).register o = .error e
          → empty.run (offers ++ [.one o]) = empty.run offers)
      ∧ ∀ os next e, (empty.run offers).registerAll os = (next, .error e)
          ↔ ∃ front o rest, os = front ++ o :: rest
              ∧ (empty.run offers).registerAll front = (next, .ok ()) ∧ next.register o = .error e := by
  have hacc : Acceptable (empty.accepted offers) := acceptable_accepted offers
  have hkeeps := keeps_keeping hacc
  have hcomplete := complete_keeping hacc
  rw [← run_empty] at hkeeps hcomplete
  refine ⟨hkeeps, hacc.valid, hcomplete, hcomplete.drawnInFull, fun o e => register_eq_error_iff,
    fun o e he => ?_, fun os next e => registerAll_eq_error_iff⟩
  rw [run_append, run, run, afterOffer, he]

/-! ## A sample session -/

/-- A picture, and then in one list a color key with two files, the same picture again, a box without a
color, which is rejected, and a text, which is no longer looked at. The text and the box come back alone. -/
def sampleOffers : List Offer :=
  let size : Dimension := ⟨64, 48, by decide, by decide⟩
  let green : Color := ⟨"green", .one, .max, by decide, by decide +kernel, by decide⟩
  let picture : Overlay := ⟨{ dimension := some size }, .picture { file := some "logo.png" }⟩
  let key : Overlay := ⟨{ dimension := some size },
    .colorKey { color := some green, imageFile := some "sky.png", videoFile := some "sky.mp4" }⟩
  let text : Overlay := ⟨{}, .text "drawtext=text=live"⟩
  let box (color : Option Color) : Overlay :=
    ⟨{ dimension := some size, position := some ⟨4, -2⟩ }, .box color⟩
  [.one picture, .many [key, picture, box none, text], .one text, .one (box (some green))]

/-- The session after the sample offers. -/
def sample : Session := empty.run sampleOffers

theorem reachable_sample : sample.Reachable := ⟨sampleOffers, rfl⟩

example : sample.inputs = ["sky.png", "sky.mp4", "logo.png", "logo.png"] := by decide +kernel

end Session
end VideoOverlay
