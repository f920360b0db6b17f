import VideoOverlay.System.Machine
import Mathlib.Data.List.Basic

/-!
# `Proofs.Media.Picture` — signatures of picture formats

A signature says what some of the first bytes of a file are. Most signatures are a text of bytes; that of WebP is
the head of a RIFF container, the size of the container, and the name of the format. The table of `isPicture` has the
head of the container only. So files are taken for pictures if they begin with a complete signature, and also if they
are RIFF containers of anything else, such as AVI clips.

## Contents
- `Matches`: bytes that begin as a signature says, with `matches_append`, `matches_map_some_iff`.
- `PictureFormat`, `PictureFormat.signatures`, `PictureFormat.Begins`: complete signatures.
- `OtherRiff`: a RIFF container that is no WebP picture, with `riff_prefix_iff`, `OtherRiff.not_begins`.
- `isPicture_iff`, `isPicture_take`: what is taken for a picture, and that the first twelve bytes tell.
- `Machine.isStill_iff`: the same about a file.
-/

namespace VideoOverlay

/-! ## Signatures -/

/-- Bytes begin as a signature says; the bytes it leaves out may be any. -/
inductive Matches : List (Option UInt8) → List UInt8 → Prop where
  | nil (bytes : List UInt8) : Matches [] bytes
  | any {signature : List (Option UInt8)} {bytes : List UInt8} (b : UInt8) (rest : Matches signature bytes) :
    Matches (none :: signature) (b :: bytes)
  | byte {signature : List (Option UInt8)} {bytes : List UInt8} (b : UInt8) (rest : Matches signature bytes) :
    Matches (some b :: signature) (b :: bytes)

section Signatures

variable {signature front back : List (Option UInt8)} {s bytes : List UInt8}

/-- A signature of two parts: the second part is about the bytes behind the first one. -/
theorem matches_append :
    Matches (front ++ back) bytes ↔ Matches front bytes ∧ Matches back (bytes.drop front.length) := by
  induction front generalizing bytes with
  | nil =>
    constructor
    · intro h
      exact ⟨.nil bytes, h⟩
    · intro h
      exact h.2
  | cons b front ih =>
    constructor
    · intro h
      cases h with
      | any b rest =>
        obtain ⟨hfront, hback⟩ := ih.mp rest
        exact ⟨.any b hfront, hback⟩
      | byte b rest =>
        obtain ⟨hfront, hback⟩ := ih.mp rest
        exact ⟨.byte b hfront, hback⟩
    · rintro ⟨hfront, hback⟩
      cases hfront with
      | any b rest => exact .any b (ih.mpr ⟨rest, hback⟩)
      | byte b rest => exact .byte b (ih.mpr ⟨rest, hback⟩)

/-- A signature that leaves nothing out. -/
theorem matches_map_some_iff : Matches (s.map some) bytes ↔ s <+: bytes := by
  induction s generalizing bytes with
  | nil =>
    constructor
    · intro _
      exact List.nil_prefix
    · intro _
      exact .nil bytes
  | cons b s ih =>
    constructor
    · intro h
      cases h with
      | byte b rest => exact List.cons_prefix_cons.mpr ⟨rfl, ih.mp rest⟩
    · intro h
      cases bytes with
      | nil => exact absurd (List.prefix_nil.mp h) (List.cons_ne_nil b s)
      | cons b' bytes =>
        obtain ⟨rfl, hs⟩ := List.cons_prefix_cons.mp h
        exact .byte b (ih.mpr hs)

/-- A signature that leaves everything out is about the number of the bytes. -/
theorem matches_replicate_none_iff {n : Nat} : Matches (List.replicate n none) bytes ↔ n ≤ bytes.length := by
  induction n generalizing bytes with
  | zero =>
    constructor
    · intro _
      exact Nat.zero_le _
    · intro _
      exact .nil bytes
  | succ n ih =>
    constructor
    · intro h
      cases h with
      | any b rest => exact Nat.succ_le_succ (ih.mp rest)
    · intro h
      cases bytes with
      | nil => exact absurd h (Nat.not_succ_le_zero n)
      | cons b bytes => exact .any b (ih.mpr (Nat.le_of_succ_le_succ h))

/-- A beginning of a signature says less. -/
theorem Matches.of_prefix (h : Matches signature bytes) (hfront : front <+: signature) : Matches front bytes := by
  obtain ⟨back, rfl⟩ := hfront
  exact (matches_append.mp h).1

end Signatures

/-! ## Formats -/

/-- The picture formats that can be told by their first bytes. -/
inductive PictureFormat where
  | png | jpeg | gif | webp | tiff | dds | bmp | ico | hdr | pnm | farbfeld | avif | exr | qoi
  deriving DecidableEq

namespace PictureFormat

/-- All formats. -/
def all : List PictureFormat :=
  [png, jpeg, gif, webp, tiff, dds, bmp, ico, hdr, pnm, farbfeld, avif, exr, qoi]

theorem mem_all (f : PictureFormat) : f ∈ all := by
  cases f <;> decide

/-- The complete signatures of a format. -/
def signatures : PictureFormat → List (List (Option UInt8))
  | png => [(0x89 :: bytesOfText "PNG\r\n\x1a\n").map some]
  | jpeg => [[0xFF, 0xD8, 0xFF].map some]
  | gif => [(bytesOfText "GIF87a").map some, (bytesOfText "GIF89a").map some]
  | webp => [(bytesOfText "RIFF").map some ++ (List.replicate 4 none ++ (bytesOfText "WEBP").map some)]
  | tiff => [(bytesOfText "MM\x00*").map some, (bytesOfText "II*\x00").map some]
  | dds => [(bytesOfText "DDS ").map some]
  | bmp => [(bytesOfText "BM").map some]
  | ico => [[0, 0, 1, 0].map some]
  | hdr => [(bytesOfText "#?RADIANCE").map some]
  | pnm => ["P1", "P2", "P3", "P4", "P5", "P6", "P7"].map fun s => (bytesOfText s).map some
  | farbfeld => [(bytesOfText "farbfeld").map some]
  | avif => [([0, 0, 0, 0x20] ++ bytesOfText "ftypavif").map some, ([0, 0, 0, 0x1C] ++ bytesOfText "ftypavif").map some]
  | exr => [[0x76, 0x2F, 0x31, 0x01].map some]
  | qoi => [(bytesOfText "qoif").map some]

/-- Bytes begin with a complete signature of a format. -/
def Begins (f : PictureFormat) (bytes : List UInt8) : Prop := ∃ signature ∈ f.signatures, Matches signature bytes

end PictureFormat

/-! ## Containers -/

/-- A RIFF container that is no WebP picture: the name behind its size is another one. -/
structure OtherRiff (bytes : List UInt8) : Prop where
  head : bytesOfText "RIFF" <+: bytes
  name : (bytes.drop 8).take 4 ≠ bytesOfText "WEBP"

section Containers

variable {bytes : List UInt8}

/-- A WebP picture is a RIFF container with that name behind the size. -/
theorem begins_webp_iff :
    PictureFormat.webp.Begins bytes
      ↔ bytesOfText "RIFF" <+: bytes ∧ (bytes.drop 8).take 4 = bytesOfText "WEBP" := by
  have hname : bytesOfText "WEBP" <+: bytes.drop 8 ↔ (bytes.drop 8).take 4 = bytesOfText "WEBP" := by
    rw [List.prefix_iff_eq_take, eq_comm]
    rfl
  have hdrop : (bytes.drop 4).drop 4 = bytes.drop 8 := List.drop_drop
  have hsplit : PictureFormat.webp.Begins bytes ↔ Matches ((bytesOfText "RIFF").map some) bytes
      ∧ Matches (List.replicate 4 none) (bytes.drop 4)
      ∧ Matches ((bytesOfText "WEBP").map some) (bytes.drop 8) := by
    show (∃ signature ∈ [_], Matches signature bytes) ↔ _
    simp only [List.mem_singleton, exists_eq_left, matches_append]
    rw [← hdrop]
    rfl
  rw [hsplit, matches_map_some_iff, matches_map_some_iff, matches_replicate_none_iff, hname]
  constructor
  · rintro ⟨hriff, _, hwebp⟩
    exact ⟨hriff, hwebp⟩
  · rintro ⟨hriff, hwebp⟩
    refine ⟨hriff, ?_, hwebp⟩
    -- There are bytes behind the size, so the size is there.
    have hlength := congrArg List.length hwebp
    have hfour : (bytesOfText "WEBP").length = 4 := rfl
    rw [hfour, List.length_take, List.length_drop] at hlength
    rw [List.length_drop]
    omega

/-- A RIFF container is a WebP picture, or it is not. -/
theorem riff_prefix_iff : bytesOfText "RIFF" <+: bytes ↔ PictureFormat.webp.Begins bytes ∨ OtherRiff bytes := by
  rw [begins_webp_iff]
  constructor
  · intro hriff
    by_cases hname : (bytes.drop 8).take 4 = bytesOfText "WEBP"
    · exact .inl ⟨hriff, hname⟩
    · exact .inr ⟨hriff, hname⟩
  · rintro (h | h)
    · exact h.1
    · exact h.head

/-- Only the signature of WebP begins like one of RIFF. -/
theorem head?_signature_ne {f : PictureFormat} (hf : f ≠ .webp) {signature : List (Option UInt8)}
    (h : signature ∈ f.signatures) : signature.head?.join.any (· ≠ 0x52) = true := by
  have htable : ∀ f ∈ PictureFormat.all, f ≠ .webp → ∀ signature ∈ f.signatures,
      signature.head?.join.any (· ≠ 0x52) = true := by
    decide +kernel
  exact htable f (PictureFormat.mem_all f) hf signature h

/-- A RIFF container that is no WebP picture begins with no complete signature. -/
theorem OtherRiff.not_begins (h : OtherRiff bytes) (f : PictureFormat) : ¬f.Begins bytes := by
  intro hbegins
  by_cases hf : f = .webp
  · rw [hf, begins_webp_iff] at hbegins
    exact h.name hbegins.2
  · obtain ⟨signature, hsignature, hmatches⟩ := hbegins
    have hother := head?_signature_ne hf hsignature
    obtain ⟨rest, hrest⟩ := h.head
    cases hmatches with
    | nil => cases hother
    | any b _ => cases hother
    | byte b _ =>
      have hb : b = 0x52 := (List.cons.inj hrest).1.symm
      rw [hb] at hother
      cases hother

/-! ## Pictures -/

theorem isPicture_eq_true_iff : isPicture bytes = true ↔ ∃ s ∈ pictureSignatures, s <+: bytes := by
  simp only [isPicture, List.any_eq_true, List.isPrefixOf_iff_prefix]

/-- But for RIFF, the table has complete signatures only. -/
theorem exists_signature_eq {s : List UInt8} (hs : s ∈ pictureSignatures) (hriff : s ≠ bytesOfText "RIFF") :
    ∃ f : PictureFormat, s.map some ∈ f.signatures := by
  have htable : ∀ s ∈ pictureSignatures, s ≠ bytesOfText "RIFF" →
      ∃ f ∈ PictureFormat.all, s.map some ∈ f.signatures := by
    decide +kernel
  obtain ⟨f, _, hf⟩ := htable s hs hriff
  exact ⟨f, hf⟩

/-- The table has a beginning of every complete signature. -/
theorem exists_mem_pictureSignatures {f : PictureFormat} {signature : List (Option UInt8)}
    (h : signature ∈ f.signatures) : ∃ s ∈ pictureSignatures, s.map some <+: signature := by
  have htable : ∀ f ∈ PictureFormat.all, ∀ signature ∈ f.signatures,
      ∃ s ∈ pictureSignatures, s.map some <+: signature := by
    decide +kernel
  exact htable f (PictureFormat.mem_all f) signature h

/-- **Bytes are taken for a picture exactly if they begin with a complete signature of a picture format, or are a RIFF
container of another kind.** -/
theorem isPicture_iff : isPicture bytes = true ↔ (∃ f : PictureFormat, f.Begins bytes) ∨ OtherRiff bytes := by
  rw [isPicture_eq_true_iff]
  constructor
  · rintro ⟨s, hs, hstarts⟩
    by_cases hriff : s = bytesOfText "RIFF"
    · rw [hriff] at hstarts
      rcases riff_prefix_iff.mp hstarts with hwebp | hother
      · exact .inl ⟨.webp, hwebp⟩
      · exact .inr hother
    · obtain ⟨f, hf⟩ := exists_signature_eq hs hriff
      exact .inl ⟨f, _, hf, matches_map_some_iff.mpr hstarts⟩
  · rintro (⟨f, signature, hsignature, hmatches⟩ | hother)
    · obtain ⟨s, hs, hfront⟩ := exists_mem_pictureSignatures hsignature
      exact ⟨s, hs, matches_map_some_iff.mp (hmatches.of_prefix hfront)⟩
    · exact ⟨bytesOfText "RIFF", by decide +kernel, hother.head⟩

/-- No signature is longer than twelve bytes. -/
theorem length_le_of_mem_pictureSignatures : ∀ s ∈ pictureSignatures, s.length ≤ 12 := by
  decide +kernel

/-- **What follows the first twelve bytes does not matter.** -/
theorem isPicture_take (bytes : List UInt8) : isPicture (bytes.take 12) = isPicture bytes := by
  rw [Bool.eq_iff_iff, isPicture_eq_true_iff, isPicture_eq_true_iff]
  constructor
  · rintro ⟨s, hs, hstarts⟩
    exact ⟨s, hs, (List.prefix_take_iff.mp hstarts).1⟩
  · rintro ⟨s, hs, hstarts⟩
    exact ⟨s, hs, List.prefix_take_iff.mpr ⟨hstarts, length_le_of_mem_pictureSignatures s hs⟩⟩

end Containers

/-! ## Files -/

/-- A file is taken for a still picture exactly if it can be read and its bytes are taken for a picture. -/
theorem Machine.isStill_iff {m : Machine} {path : String} :
    m.isStill path = true
      ↔ ∃ contents, m.files.read? path = some contents ∧ isPicture contents.data.toList = true := by
  unfold isStill
  cases m.files.read? path with
  | none =>
    constructor
    · intro h
      cases h
    · rintro ⟨contents, hread, _⟩
      cases hread
  | some contents =>
    constructor
    · intro h
      exact ⟨contents, rfl, h⟩
    · rintro ⟨_, hread, h⟩
      cases hread
      exact h

end VideoOverlay
