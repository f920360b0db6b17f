import VideoOverlay.Json.Record
import VideoOverlay.Media.Probe
import VideoOverlay.Number.Numeral

/-!
# `Media.Listing` — what a prober lists about a file

A prober lists the streams of a file, and its container. The report is taken from the first video stream
alone; the length is that of the container, or if it gives none that of the stream. A still picture needs
neither.

## Contents
- `StreamListing`, `Listing`, `Listing.ofTokens?`: what is listed.
- `Listing.video?`, `Listing.durationText?`, `Listing.report`.
- `reportOf`: the report of what a prober printed.
-/

namespace VideoOverlay

/-- What is listed about a stream. -/
structure StreamListing where
  kind : Option String := none
  codec : Option String := none
  duration : Option String := none
  deriving DecidableEq, Repr

/-- What is listed about a file: its streams, and its container with the length that this gives. -/
structure Listing where
  streams : List StreamListing := []
  container : Option (Option String) := none
  deriving DecidableEq, Repr

/-! ## Reading -/

/-- A stream in a listing. -/
def StreamListing.ofTokens? (ts : List Json.Token) : Option StreamListing := do
  let fields ← Json.fields? ["codec_type", "codec_name", "duration"] ts
  let kind ← Json.optionalText? (fields.get? "codec_type")
  let codec ← Json.optionalText? (fields.get? "codec_name")
  let duration ← Json.optionalText? (fields.get? "duration")
  return ⟨kind, codec, duration⟩

/-- The length that a container gives. -/
def containerOfTokens? (ts : List Json.Token) : Option (Option String) := do
  let fields ← Json.fields? ["duration"] ts
  Json.optionalText? (fields.get? "duration")

/-- The streams of a listing; there are none where nothing is said about them. -/
def streamsOfTokens? : Option (List Json.Token) → Option (List StreamListing)
  | none => some []
  | some ts => (Json.items? ts).bind fun items => items.mapM StreamListing.ofTokens?

/-- The container of a listing, which may be missing. -/
def containerField? : Option (List Json.Token) → Option (Option (Option String))
  | none => some none
  | some [.null] => some none
  | some ts => (containerOfTokens? ts).map some

/-- A listing. -/
def Listing.ofTokens? (ts : List Json.Token) : Option Listing := do
  let fields ← Json.fields? ["streams", "format"] ts
  let streams ← streamsOfTokens? (fields.get? "streams")
  let container ← containerField? (fields.get? "format")
  return ⟨streams, container⟩

/-! ## Reports -/

namespace Listing

/-- The first video stream. -/
def video? (l : Listing) : Option StreamListing := l.streams.find? fun s => s.kind = some "video"

/-- The length as a text: the one the container gives, or else the one of the stream. -/
def durationText? (l : Listing) (video : StreamListing) : Option String := l.container.join.or video.duration

/-- The report of a file, of which is known whether it is a still picture. A length that cannot be read is
no length; a still picture has the length zero then. -/
def report (l : Listing) (path : String) (still : Bool) : Except ProbeError Report :=
  match l.video? with
  | none => .error (.noVideoStream path)
  | some video =>
    match (l.durationText? video).bind Binary64.ofText? with
    | some duration => .ok ⟨video.codec.getD "", duration, still⟩
    | none =>
      if still then .ok ⟨video.codec.getD "", .zero, still⟩ else .error (.parse path "missing duration")

end Listing

/-- The report of what a prober printed about a file. -/
def reportOf (path : String) (printed : ByteArray) (still : Bool) : Except ProbeError Report :=
  match (Json.tokens? printed).bind Listing.ofTokens? with
  | some listing => listing.report path still
  | none => .error (.parse path "the listing is malformed")

end VideoOverlay
