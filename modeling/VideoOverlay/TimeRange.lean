import VideoOverlay.Error
import VideoOverlay.Number.Decimal

/-!
# `TimeRange` — when an overlay is shown

A range of the timeline of the main video, in seconds. It starts at a finite number that is not
negative and ends at a greater finite one.

## Contents
- `TimeRange`, `TimeRange.make`: the bounds are checked when a range is made, the start first.
- `TimeRange.duration`, `TimeRange.text`, `TimeRange.enableClause`.
-/

namespace VideoOverlay

/-- A finite number of seconds that is not negative. -/
def IsSeconds (x : Binary64) : Prop := x.isFinite = true ∧ Binary64.lt x .zero = false

instance (x : Binary64) : Decidable (IsSeconds x) := inferInstanceAs (Decidable (_ ∧ _))

/-- A range of the timeline, in seconds. -/
structure TimeRange where
  start : Binary64
  finish : Binary64
  start_isSeconds : IsSeconds start
  finish_isFinite : finish.isFinite = true
  start_lt_finish : Binary64.lt start finish = true
  deriving DecidableEq

namespace TimeRange

/-- The range between two bounds. -/
def make (start finish : Binary64) : Except ValidationError TimeRange :=
  if hs : IsSeconds start then
    if hf : finish.isFinite = true ∧ Binary64.lt start finish = true then
      .ok ⟨start, finish, hs, hf.1, hf.2⟩
    else
      .error (.invalidValue "time_range.end"
        ("expected a finite value greater than " ++ start.text ++ ", got " ++ finish.text))
  else
    .error (.invalidValue "time_range.start" ("expected a finite value >= 0, got " ++ start.text))

/-- The length of a range. -/
def duration (r : TimeRange) : Binary64 := r.finish.sub r.start

/-- Both bounds, divided by a comma. -/
def text (r : TimeRange) : String := r.start.text ++ "," ++ r.finish.text

/-- The option that switches a filter on during the range only. -/
def enableClause (r : TimeRange) : String := "enable='between(t," ++ r.text ++ ")'"

end TimeRange
end VideoOverlay
