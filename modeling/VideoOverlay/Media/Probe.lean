import VideoOverlay.Error
import VideoOverlay.Number.Binary64

/-!
# `Media.Probe` — asking about media files

A probe answers what a media file is. The work that assembles a command may ask it about several files
before it succeeds or fails; an `Assembly` is the outcome of such work together with the files it asked
about, in order.

## Contents
- `Report`, `Probe`.
- `Assembly`, a monad that keeps the files asked about: `Assembly.ofExcept`, `Assembly.fail`.
- `Assembly.ask`, `Assembly.require`: ask, and go on with the answer or with the report only.
-/

namespace VideoOverlay

/-- What is known about a media file: the codec of its first video stream, its length in seconds, and
whether it is a still picture. -/
structure Report where
  codec : String
  duration : Binary64
  still : Bool
  deriving DecidableEq

/-- Something that answers what a media file is. -/
abbrev Probe := String → Except ProbeError Report

/-- The outcome of assembling something, and the files that a probe was asked about on the way. -/
structure Assembly (α : Type) where
  probed : List String
  outcome : Except Error α

namespace Assembly

variable {α β : Type}

/-- Work that asks nothing. -/
def ofExcept (outcome : Except Error α) : Assembly α := ⟨[], outcome⟩

/-- Work that fails. -/
def fail (e : Error) : Assembly α := ofExcept (.error e)

/-- One piece of work after another, which is left out if the first one fails. -/
def bind (a : Assembly α) (f : α → Assembly β) : Assembly β :=
  match a.outcome with
  | .ok x => ⟨a.probed ++ (f x).probed, (f x).outcome⟩
  | .error e => ⟨a.probed, .error e⟩

instance : Monad Assembly where
  pure x := ofExcept (.ok x)
  bind := bind

theorem pure_eq (x : α) : (pure x : Assembly α) = ⟨[], .ok x⟩ := rfl

theorem bind_eq (a : Assembly α) (f : α → Assembly β) : a >>= f = a.bind f := rfl

@[simp] theorem bind_ok (probed : List String) (x : α) (f : α → Assembly β) :
    bind ⟨probed, .ok x⟩ f = ⟨probed ++ (f x).probed, (f x).outcome⟩ := rfl

@[simp] theorem bind_error (probed : List String) (e : Error) (f : α → Assembly β) :
    bind ⟨probed, .error e⟩ f = ⟨probed, .error e⟩ := rfl

/-- Work done in two pieces succeeds if both do, the second one with the result of the first. -/
theorem outcome_bind_eq_ok_iff {a : Assembly α} {f : α → Assembly β} {y : β} :
    (a >>= f).outcome = .ok y ↔ ∃ x, a.outcome = .ok x ∧ (f x).outcome = .ok y := by
  obtain ⟨probed, outcome⟩ := a
  cases outcome with
  | ok x =>
    constructor
    · intro h
      exact ⟨x, rfl, h⟩
    · rintro ⟨x', hx, hy⟩
      cases hx
      exact hy
  | error e =>
    constructor
    · intro h
      cases h
    · rintro ⟨x, hx, _⟩
      cases hx

/-! ## Asking -/

/-- Ask about a file and go on with the answer, whatever it is. -/
def ask (probe : Probe) (path : String) : Assembly (Except ProbeError Report) := ⟨[path], .ok (probe path)⟩

/-- Ask about a file and go on with the report; without one the work fails. -/
def require (probe : Probe) (path : String) : Assembly Report := ⟨[path], (probe path).mapError .probe⟩

theorem require_of_ok {probe : Probe} {path : String} {report : Report} (h : probe path = .ok report) :
    require probe path = ⟨[path], .ok report⟩ := by
  rw [require, h]
  rfl

theorem require_of_error {probe : Probe} {path : String} {e : ProbeError} (h : probe path = .error e) :
    require probe path = ⟨[path], .error (.probe e)⟩ := by
  rw [require, h]
  rfl

end Assembly
end VideoOverlay
