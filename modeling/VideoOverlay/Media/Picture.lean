/-!
# `Media.Picture` — telling pictures by their first bytes

A file is taken for a still picture if it begins with the signature of a picture format. Its name and what
follows the signature do not matter.

## Contents
- `pictureSignatures`: the signatures.
- `isPicture`: whether bytes begin with one of them.
-/

namespace VideoOverlay

/-- The bytes of a text of characters below 128. -/
def bytesOfText (s : String) : List UInt8 := s.toList.map fun c => UInt8.ofNat c.toNat

/-- What the files of picture formats begin with. -/
def pictureSignatures : List (List UInt8) :=
  [0x89 :: bytesOfText "PNG\r\n\x1a\n",
    [0xFF, 0xD8, 0xFF],
    bytesOfText "GIF89a",
    bytesOfText "GIF87a",
    bytesOfText "RIFF",
    bytesOfText "MM\x00*",
    bytesOfText "II*\x00",
    bytesOfText "DDS ",
    bytesOfText "BM",
    [0, 0, 1, 0],
    bytesOfText "#?RADIANCE",
    bytesOfText "P1",
    bytesOfText "P2",
    bytesOfText "P3",
    bytesOfText "P4",
    bytesOfText "P5",
    bytesOfText "P6",
    bytesOfText "P7",
    bytesOfText "farbfeld",
    [0, 0, 0, 0x20] ++ bytesOfText "ftypavif",
    [0, 0, 0, 0x1C] ++ bytesOfText "ftypavif",
    [0x76, 0x2F, 0x31, 0x01],
    bytesOfText "qoif"]

/-- Whether bytes begin with the signature of a picture format. -/
def isPicture (bytes : List UInt8) : Bool := pictureSignatures.any fun s => s.isPrefixOf bytes

end VideoOverlay
