import VideoOverlay.Overlay.Basic

/-!
# `Overlay.Validate` — what an accepted overlay has

The fields a kind needs, in the order they are asked for: the first one that is missing or out of range
is the reason for a rejection. Fades are checked before anything else, for every kind.

## Contents
- `Placement.checkFades`, `Content.check`: the checks of a placement and of a kind.
- `Overlay.validate`: both.
-/

namespace VideoOverlay

/-- A failure unless the condition holds. -/
def ensure (condition : Prop) [Decidable condition] (failure : ValidationError) : Except ValidationError Unit :=
  if condition then .ok () else .error failure

/-- A condition is ensured exactly if it holds. -/
@[simp] theorem ensure_eq_ok_iff {condition : Prop} [Decidable condition] {failure : ValidationError}
    {u : Unit} : ensure condition failure = .ok u ↔ condition := by
  by_cases h : condition <;> simp [ensure, h]

/-! ## Placement -/

/-- The length of a fade, if given, is a finite number of seconds that is not negative. -/
def checkFade (field : String) : Option Binary64 → Except ValidationError Unit
  | none => .ok ()
  | some seconds =>
    ensure (IsSeconds seconds) (.invalidValue field ("expected a finite value >= 0, got " ++ seconds.text))

/-- Both fades, the one at the beginning first. -/
def Placement.checkFades (p : Placement) : Except ValidationError Unit := do
  checkFade "fade_in_seconds" p.fadeIn
  checkFade "fade_out_seconds" p.fadeOut

/-! ## Kinds -/

/-- How much a color may differ from the key: more than nothing. -/
def IsSimilarity (x : Binary64) : Prop := Binary64.lt .zero x = true ∧ Binary64.le x .one = true

instance (x : Binary64) : Decidable (IsSimilarity x) := inferInstanceAs (Decidable (_ ∧ _))

/-- A color key has files, a size, a color, and both tolerances in range. -/
def ColorKey.check (k : ColorKey) (p : Placement) : Except ValidationError Unit := do
  ensure (k.files ≠ []) (.missingField "colorkey" "image or video file")
  ensure (p.dimension ≠ none) (.missingField "colorkey" "dimension")
  ensure (k.color ≠ none) (.missingField "colorkey" "color")
  ensure (IsSimilarity k.similarity)
    (.invalidValue "colorkey.similarity" ("expected a value in (0, 1], got " ++ k.similarity.text))
  ensure (IsFraction k.blend)
    (.invalidValue "colorkey.blend" ("expected a value in [0, 1], got " ++ k.blend.text))

/-- The fields a kind needs. -/
def Content.check (p : Placement) : Content → Except ValidationError Unit
  | .picture shown => do
    ensure (shown.file ≠ none) (.missingField "image" "file")
    ensure (p.dimension ≠ none) (.missingField "image" "dimension")
  | .text fragment =>
    ensure (Text.isBlankText fragment = false) (.missingField "text" "text expression")
  | .box color => do
    ensure (color ≠ none) (.missingField "box" "color")
    ensure (p.dimension ≠ none) (.missingField "box" "dimension")
    ensure (p.position ≠ none) (.missingField "box" "position")
  | .colorKey key => key.check p

/-! ## Overlays -/

/-- Whether an overlay has what its kind needs, and if not the first thing it lacks. -/
def Overlay.validate (o : Overlay) : Except ValidationError Unit := do
  o.placement.checkFades
  o.content.check o.placement

end VideoOverlay
