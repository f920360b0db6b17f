import VideoOverlay.Overlay.Filter
import VideoOverlay.Overlay.Validate

/-!
# `Proofs.Overlay.Complete` — what an accepted overlay has, and what it is drawn with

`Overlay.validate` asks for the fields of a kind one after the other. This module says the same without an
order: an overlay is accepted exactly if its fades are in range and it is *complete*, that is, it has every
field its kind is drawn with. A complete overlay is written with all of these fields, so what `scaleFilter`,
`drawBox` and `ColorKey.filter` write for a missing one is never written for it.

## Contents
- `isSeconds_iff`: a number of seconds is finite and at least zero.
- `Placement.FadesInRange`, `Content.Complete`, `Overlay.validate_eq_ok_iff`.
- `Placement.ScaledInFull`, `BoxDrawnInFull`, `ColorKey.KeyedInFull`: what is written leaves no field out.
-/

namespace VideoOverlay

/-! ## Checks in sequence -/

/-- One check after another succeeds exactly if both do. -/
theorem check_then_eq_ok_iff {ε : Type} {a b : Except ε Unit} {u : Unit} :
    (a >>= fun _ => b) = .ok u ↔ a = .ok () ∧ b = .ok u := by
  cases a with
  | error e =>
    constructor
    · intro h
      cases h
    · rintro ⟨h, _⟩
      cases h
  | ok v => exact ⟨fun h => ⟨rfl, h⟩, fun h => h.2⟩

/-! ## Fades -/

/-- Zero has no units. -/
theorem Binary64.zero_eq : ∃ fits, Binary64.zero = .finite false 0 fits := by
  have fits : Fits 0 := by decide +kernel
  refine ⟨fits, ?_⟩
  rw [Binary64.zero, Binary64.ofRatio, Nat.zero_mul]
  exact Binary64.ofUnits_of_fits fits

/-- A number of seconds is finite and at least zero. -/
theorem isSeconds_iff {x : Binary64} :
    IsSeconds x ↔ x.isFinite = true ∧ Binary64.le .zero x = true := by
  obtain ⟨fits, hz⟩ := Binary64.zero_eq
  unfold IsSeconds
  rw [hz]
  cases x with
  | nan => simp [Binary64.isFinite]
  | infinite s => simp [Binary64.isFinite]
  | finite s k h =>
    simp only [Binary64.isFinite, Binary64.lt, Binary64.le, decide_eq_false_iff_not, decide_eq_true_eq,
      true_and]
    exact Int.not_lt

/-- Both fades are absent, or finite and at least zero. -/
def Placement.FadesInRange (p : Placement) : Prop :=
  ∀ x, p.fadeIn = some x ∨ p.fadeOut = some x → x.isFinite = true ∧ Binary64.le .zero x = true

theorem checkFade_eq_ok_iff {field : String} {fade : Option Binary64} {u : Unit} :
    checkFade field fade = .ok u ↔ ∀ x, fade = some x → IsSeconds x := by
  cases fade with
  | none =>
    constructor
    · intro _ x hx
      cases hx
    · intro _
      rfl
  | some y =>
    rw [checkFade, ensure_eq_ok_iff]
    exact ⟨fun h x hx => Option.some.inj hx ▸ h, fun h => h y rfl⟩

theorem Placement.checkFades_eq_ok_iff {p : Placement} : p.checkFades = .ok () ↔ p.FadesInRange := by
  rw [Placement.checkFades, check_then_eq_ok_iff, checkFade_eq_ok_iff, checkFade_eq_ok_iff]
  simp only [isSeconds_iff, Placement.FadesInRange]
  exact ⟨fun h x hx => hx.elim (h.1 x) (h.2 x), fun h => ⟨fun x hx => h x (.inl hx), fun x hx => h x (.inr hx)⟩⟩

/-! ## Fields of a kind -/

/-- A color key has a file, a size, a color and tolerances in range. -/
structure ColorKey.Complete (k : ColorKey) (p : Placement) : Prop where
  files : k.files ≠ []
  dimension : p.dimension ≠ none
  color : k.color ≠ none
  similarity : IsSimilarity k.similarity
  blend : IsFraction k.blend

/-- A box has a color, a size and a position. -/
structure BoxComplete (color : Option Color) (p : Placement) : Prop where
  color : color ≠ none
  dimension : p.dimension ≠ none
  position : p.position ≠ none

/-- An overlay has every field its kind is drawn with. -/
def Content.Complete (p : Placement) : Content → Prop
  | .picture shown => shown.file ≠ none ∧ p.dimension ≠ none
  | .text fragment => Text.isBlankText fragment = false
  | .box color => BoxComplete color p
  | .colorKey key => key.Complete p

theorem ColorKey.check_eq_ok_iff {k : ColorKey} {p : Placement} : k.check p = .ok () ↔ k.Complete p := by
  simp only [ColorKey.check, check_then_eq_ok_iff, ensure_eq_ok_iff]
  constructor
  · rintro ⟨hf, hd, hc, hs, hb⟩
    exact ⟨hf, hd, hc, hs, hb⟩
  · rintro ⟨hf, hd, hc, hs, hb⟩
    exact ⟨hf, hd, hc, hs, hb⟩

theorem Content.check_eq_ok_iff {p : Placement} {c : Content} : c.check p = .ok () ↔ c.Complete p := by
  cases c with
  | picture shown => simp only [Content.check, check_then_eq_ok_iff, ensure_eq_ok_iff, Content.Complete]
  | text fragment => simp only [Content.check, ensure_eq_ok_iff, Content.Complete]
  | box color =>
    simp only [Content.check, check_then_eq_ok_iff, ensure_eq_ok_iff, Content.Complete]
    constructor
    · rintro ⟨hc, hd, hp⟩
      exact ⟨hc, hd, hp⟩
    · rintro ⟨hc, hd, hp⟩
      exact ⟨hc, hd, hp⟩
  | colorKey key => exact ColorKey.check_eq_ok_iff

/-- **An overlay is accepted exactly if it is complete and its fades are in range.** -/
theorem Overlay.validate_eq_ok_iff {o : Overlay} :
    Overlay.validate o = .ok () ↔ o.placement.FadesInRange ∧ o.content.Complete o.placement := by
  rw [Overlay.validate, check_then_eq_ok_iff, Placement.checkFades_eq_ok_iff, Content.check_eq_ok_iff]

/-! ## What a complete overlay is drawn with -/

/-- The option that limits a drawn box to a range, after a colon. -/
def timeOption (p : Placement) : String := (p.timeRange.map fun r => ":" ++ r.enableClause).getD ""

/-- The stream is brought to a size that is given, and not to its own. -/
def Placement.ScaledInFull (p : Placement) : Prop :=
  ∃ d, p.dimension = some d
    ∧ scaleFilter p.dimension = "scale=" ++ toString d.width ++ ":" ++ toString d.height

/-- The box is written with its place, its size and its color. -/
def BoxDrawnInFull (color : Option Color) (p : Placement) : Prop :=
  ∃ pos d c, p.position = some pos ∧ p.dimension = some d ∧ color = some c
    ∧ drawBox p color = "drawbox=x=" ++ toString pos.x ++ ":y=" ++ toString pos.y
        ++ ":w=" ++ toString d.width ++ ":h=" ++ toString d.height
        ++ ":color='" ++ c.text ++ "'" ++ timeOption p

/-- The key is written with its color. -/
def ColorKey.KeyedInFull (k : ColorKey) : Prop :=
  ∃ c, k.color = some c
    ∧ k.filter = "colorkey=" ++ c.name ++ "@" ++ c.opacity.text ++ ":" ++ k.similarity.text
        ++ ":" ++ k.blend.text

theorem Placement.scaledInFull {p : Placement} (h : p.dimension ≠ none) : p.ScaledInFull := by
  obtain ⟨d, hd⟩ := Option.ne_none_iff_exists'.mp h
  refine ⟨d, hd, ?_⟩
  rw [hd, scaleFilter, Option.map_some, Option.getD_some, Dimension.text, ← String.append_assoc,
    ← String.append_assoc]

theorem BoxComplete.drawnInFull {p : Placement} {color : Option Color} (h : BoxComplete color p) :
    BoxDrawnInFull color p := by
  obtain ⟨pos, hpos⟩ := Option.ne_none_iff_exists'.mp h.position
  obtain ⟨d, hd⟩ := Option.ne_none_iff_exists'.mp h.dimension
  obtain ⟨c, hc⟩ := Option.ne_none_iff_exists'.mp h.color
  refine ⟨pos, d, c, hpos, hd, hc, ?_⟩
  unfold drawBox timeOption
  rw [hpos, hd, hc, ← String.toList_inj]
  cases p.timeRange with
  | none => simp
  | some r => simp

theorem ColorKey.keyedInFull {k : ColorKey} (h : k.color ≠ none) : k.KeyedInFull := by
  obtain ⟨c, hc⟩ := Option.ne_none_iff_exists'.mp h
  refine ⟨c, hc, ?_⟩
  rw [ColorKey.filter, hc, Option.map_some, Option.getD_some, Color.withAlpha]
  simp only [String.append_assoc]

end VideoOverlay
