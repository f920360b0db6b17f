import Mathlib.Tactic.Choose
import VideoOverlay.Proofs.Duration.Lookalike
import VideoOverlay.Proofs.Export.Fade
import VideoOverlay.Proofs.Export.Outcome

/-!
# `Proofs.Export.Leftover` — resolving once is enough

A text is resolved in one pass, which might make a token out of what it leaves alone; such a token would be handed
to the encoder, so it is refused. It is only made out of a lookalike that borrows a brace. The filters of a session
have no lookalike of their own: each of their segments settles, whatever the length of the main video is. So a
session is refused for a token that is left only if a head comes from outside, in a text or in the name of a color.

## Contents
- `Session.exists_settles_segment`, `Session.findTokenText?_resolve`: the graph of a session.
- `resolve_leaves_no_token`, with a text and a session.
-/

namespace VideoOverlay

open Text Duration

namespace Session

variable {s : Session} {length : Binary64}

section

-- No head comes from outside.
variable (htexts : ∀ t ∈ s.texts, HeadFree t.content) (hcolors : ∀ c ∈ s.colors, HeadFree c.name)
include htexts hcolors

/-- Each segment settles, for any length of the main video. -/
theorem exists_settles_segment (hs : s.Reachable) (length : Binary64) :
    ∀ seg ∈ s.segments, ∃ text, Settles length seg.text text := by
  intro seg hseg
  rcases source_or_headFree htexts hcolors seg hseg with ⟨j, p, hp, rfl⟩ | ⟨_, hfilters⟩
  · obtain ⟨filters, hfilters⟩ :=
      exists_settles_sourceFilters (hs.complete.pictures p (List.mem_of_getElem? hp)).1 length
    exact ⟨_, settles_segment hfilters⟩
  · exact ⟨_, settles_segment (settles_of_headFree hfilters)⟩

/-- Nothing is left to resolve in the graph of a session. -/
theorem findTokenText?_resolve (hs : s.Reachable) (length : Binary64) :
    findTokenText? (resolve (Graph.text ⟨s.segments, s.inputs⟩) length) = none := by
  choose! text htext using exists_settles_segment htexts hcolors hs length
  obtain ⟨hresolve, hdone⟩ := (settles_intercalate htext).resolve_eq
  rw [Graph.text, hresolve]
  exact hdone

/-- A session is not refused for a token if there is a probe, whatever it answers. -/
theorem renderCommand_ne_unresolved (hs : s.Reachable) (p : Probe) (primary output token : String) :
    (renderCommand (some p) primary s output).outcome ≠ .error (.config (.unresolvedPlaceholder token)) := by
  intro hrefused
  obtain ⟨a, ha⟩ := exists_renderOutcome (some p) primary s output
  rw [ha.eq] at hrefused
  cases ha with
  | refused => cases hrefused
  | settled => cases hrefused
  | unprobed _ _ habsent => cases habsent
  | unanswered => cases hrefused
  | resolved => cases hrefused
  | remaining hcompile _ _ _ hfirst =>
    obtain ⟨_, rfl⟩ := compile_eq_ok_iff.mp hcompile
    exact findTokenText?_eq_none_iff.mp (findTokenText?_resolve htexts hcolors hs _) hfirst.hasToken

end

end Session

/-- **Resolving once leaves nothing to resolve**, whatever the length of the video is, in every text in which no
lookalike borrows the brace of a token; so resolving it again changes nothing. A session in which no head comes
from outside is never refused for a token if there is a probe, whatever it answers. -/
theorem resolve_leaves_no_token :
    (∀ text : String, BracesApart text.toList → ∀ length : Binary64,
        findTokenText? (resolve text length) = none
          ∧ ∀ again, resolve (resolve text length) again = resolve text length)
      ∧ ∀ s : Session, s.Reachable → (∀ t ∈ s.texts, HeadFree t.content) → (∀ c ∈ s.colors, HeadFree c.name) →
          ∀ (p : Probe) primary output token,
            (renderCommand (some p) primary s output).outcome ≠ .error (.config (.unresolvedPlaceholder token)) := by
  refine ⟨fun text htext length => ?_, fun s hs htexts hcolors => ?_⟩
  · have hnone : findTokenText? (resolve text length) = none := findTokenText?_resolve_of_bracesApart htext length
    exact ⟨hnone, fun _ => resolve_eq_self_iff.mpr hnone⟩
  · exact Session.renderCommand_ne_unresolved htexts hcolors hs

/-- A text with a token between two lookalikes, and a session with a picture that fades out, are resolved at once, even
if the main video does not end. -/
theorem resolve_leaves_no_token_endless :
    let text := "\x7bVIDEO_LENGTH is unknown\x7d, \x7bVIDEO_LENGTH-1.5\x7d or \x7bVIDEO_LENGTH"
    let graph := Graph.text ⟨Session.fading.segments, Session.fading.inputs⟩
    findTokenText? text = some "\x7bVIDEO_LENGTH-1.5\x7d"
      ∧ resolve text (.infinite false) = "\x7bVIDEO_LENGTH is unknown\x7d, inf or \x7bVIDEO_LENGTH"
      ∧ findTokenText? (resolve text (.infinite false)) = none
      ∧ findTokenText? graph = some "\x7bVIDEO_LENGTH-2\x7d"
      ∧ ∀ token, (renderCommand (some Session.alwaysEndless) "main.mp4" Session.fading "out.mp4").outcome
          ≠ .error (.config (.unresolvedPlaceholder token)) := by
  have hapart : BracesApart
      "\x7bVIDEO_LENGTH is unknown\x7d, \x7bVIDEO_LENGTH-1.5\x7d or \x7bVIDEO_LENGTH".toList := by
    decide +kernel
  have hfading : Session.fading.Reachable := ⟨_, rfl⟩
  have htexts : ∀ t ∈ Session.fading.texts, HeadFree t.content := by decide +kernel
  have hcolors : ∀ c ∈ Session.fading.colors, HeadFree c.name := by decide +kernel
  refine ⟨?_, ?_, ?_, ?_, ?_⟩
  · decide +kernel
  · decide +kernel
  · exact (resolve_leaves_no_token.1 _ hapart (.infinite false)).1
  · decide +kernel
  · exact resolve_leaves_no_token.2 Session.fading hfading htexts hcolors _ _ _

end VideoOverlay
