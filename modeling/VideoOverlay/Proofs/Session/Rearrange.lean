import Mathlib.Data.List.FinRange
import Mathlib.Data.List.Sort
import VideoOverlay.Export.Command
import VideoOverlay.Proofs.Session.Run

/-!
# `Proofs.Session.Rearrange` — the order of registration matters within a kind only

A caller who offers overlays one by one, and goes on after a rejection, may mix the kinds in any way: as long
as the overlays of each kind come in the same order, every overlay gets the same answer and the session is
the same in the end. For pictures, texts and boxes this holds since each kind has a list of its own. A color
key is another matter on two counts. Its files are put in front of those of the pictures, which may have come
earlier; and whether it is accepted depends on the keys before it.

Both are settled by what a session is after some offers: that of the *valid* overlays among them
(`run_ones`). A second key makes no difference there, as only the first one of a list is kept.

## Contents
- `Overlay.IsValid`, `Overlay.SameKind`.
- `Session.answers`, `Session.answerBehind`, `getElem?_answers`: what a caller learns.
- `Session.keepingValid`, `run_ones`: the session after offers one by one.
- `Session.KeepsKindOrder`, `Session.rearranged`, `filterMap_rearranged`: lists with the kinds mixed anew.
- `Session.answers_and_session_of_rearranged`.
-/

namespace VideoOverlay

/-! ## Overlays by kind -/

namespace Overlay

/-- The overlay has what its kind needs. -/
def IsValid (o : Overlay) : Prop := Overlay.validate o = .ok ()

instance (o : Overlay) : Decidable o.IsValid := inferInstanceAs (Decidable (_ = _))

/-- Both overlays are of one kind. -/
def SameKind (o o' : Overlay) : Prop := o.content.kindName = o'.content.kindName

instance (o o' : Overlay) : Decidable (o.SameKind o') := inferInstanceAs (Decidable (_ = _))

variable {o : Overlay}

theorem kindName_of_picture? (h : o.picture? ≠ none) : o.content.kindName = "image" := by
  obtain ⟨p, hp⟩ := Option.ne_none_iff_exists'.mp h
  rw [eq_of_picture? hp]
  rfl

theorem kindName_of_text? (h : o.text? ≠ none) : o.content.kindName = "text" := by
  obtain ⟨t, ht⟩ := Option.ne_none_iff_exists'.mp h
  rw [eq_of_text? ht]
  rfl

theorem kindName_of_box? (h : o.box? ≠ none) : o.content.kindName = "box" := by
  obtain ⟨b, hb⟩ := Option.ne_none_iff_exists'.mp h
  rw [eq_of_box? hb]
  rfl

theorem colorKey?_ne_none_iff : o.colorKey? ≠ none ↔ ∃ key, o.content = .colorKey key := by
  constructor
  · intro h
    obtain ⟨k, hk⟩ := Option.ne_none_iff_exists'.mp h
    exact ⟨k.content, by rw [eq_of_colorKey? hk]⟩
  · rintro ⟨key, hkey⟩
    rw [colorKey?, hkey]
    exact Option.some_ne_none _

theorem kindName_of_colorKey? (h : o.colorKey? ≠ none) : o.content.kindName = "colorkey" := by
  obtain ⟨key, hkey⟩ := colorKey?_ne_none_iff.mp h
  rw [hkey]
  rfl

end Overlay

namespace Session

/-! ## One by one -/

/-- What a caller who offers overlays one by one learns about each: it is accepted, or why not. -/
def answers (s : Session) : List Overlay → List (Except ValidationError Unit)
  | [] => []
  | o :: os => (s.register o).map (fun _ => ()) :: (s.afterOffer (.one o)).answers os

/-- The session of the valid overlays of a list. -/
def keepingValid (l : List Overlay) : Session := keeping (l.filter (Overlay.IsValid ·))

/-- The answer to an overlay that is offered behind some others. Of these only the valid color keys matter. -/
def answerBehind (front : List Overlay) (o : Overlay) : Except ValidationError Unit :=
  match Overlay.validate o with
  | .error e => .error e
  | .ok () =>
    if o.colorKey? ≠ none ∧ ∃ k ∈ front, k.IsValid ∧ k.colorKey? ≠ none then .error .duplicateColorKey
    else .ok ()

variable {front os : List Overlay} {o : Overlay}

/-- A color key behind another one changes nothing. -/
theorem keeping_append_colorKey {l : List Overlay} (ho : o.colorKey? ≠ none)
    (hl : l.filterMap Overlay.colorKey? ≠ []) : keeping (l ++ [o]) = keeping l := by
  obtain ⟨k, hk⟩ := Option.ne_none_iff_exists'.mp ho
  obtain ⟨first, rest, hfirst⟩ := List.exists_cons_of_ne_nil hl
  rw [Overlay.eq_of_colorKey? hk]
  simp [keeping, hfirst, Overlay.picture?, Overlay.text?, Overlay.box?, Overlay.colorKey?]

/-- **One offer.** If the session is that of the valid overlays so far, it is so afterwards. -/
theorem afterOffer_keepingValid (front : List Overlay) (o : Overlay) :
    (keepingValid front).afterOffer (.one o) = keepingValid (front ++ [o]) := by
  rw [afterOffer]
  cases h : (keepingValid front).register o with
  | ok next =>
    have hvalid : o.IsValid := (register_eq_ok_iff.mp h).1
    show next = _
    rw [keepingValid, List.filter_append, List.filter_singleton, decide_eq_true hvalid]
    exact register_keeping h
  | error e =>
    show keepingValid front = _
    rw [keepingValid, keepingValid, List.filter_append, List.filter_singleton]
    rcases register_eq_error_iff.mp h with hinvalid | ⟨hvalid, hkey, hfull, _⟩
    · have hnot : ¬o.IsValid := fun hv => by
        rw [Overlay.IsValid, hinvalid] at hv
        cases hv
      rw [decide_eq_false hnot]
      exact congrArg keeping (List.append_nil _).symm
    · have hkeys : (front.filter (Overlay.IsValid ·)).filterMap Overlay.colorKey? ≠ [] :=
        fun hnil => hfull (List.head?_eq_none_iff.mpr hnil)
      rw [decide_eq_true (p := o.IsValid) hvalid]
      exact (keeping_append_colorKey (Overlay.colorKey?_ne_none_iff.mpr hkey) hkeys).symm

/-- The session has a color key exactly if a valid one was offered. -/
theorem colorKey_keepingValid_ne_none_iff (front : List Overlay) :
    (keepingValid front).colorKey ≠ none ↔ ∃ k ∈ front, k.IsValid ∧ k.colorKey? ≠ none := by
  show ((front.filter (Overlay.IsValid ·)).filterMap Overlay.colorKey?).head? ≠ none ↔ _
  rw [Ne, List.head?_eq_none_iff, List.filterMap_eq_nil_iff]
  push Not
  simp only [List.mem_filter, decide_eq_true_eq, and_assoc]

/-- **One answer.** It depends on the overlay and on the valid color keys before it. -/
theorem register_keepingValid (front : List Overlay) (o : Overlay) :
    ((keepingValid front).register o).map (fun _ => ()) = answerBehind front o := by
  simp only [answerBehind, ← colorKey_keepingValid_ne_none_iff]
  cases hvalidate : Overlay.validate o with
  | error e =>
    rw [register_eq_error_iff.mpr (.inl hvalidate)]
    rfl
  | ok u =>
    dsimp only
    split
    next hsecond =>
      rw [register_eq_error_iff.mpr
        (.inr ⟨hvalidate, Overlay.colorKey?_ne_none_iff.mp hsecond.1, hsecond.2, rfl⟩)]
      rfl
    next hroom =>
      cases h : (keepingValid front).register o with
      | ok next => rfl
      | error e =>
        -- Only a second key is refused, and there is no first one or this is no key.
        rcases register_eq_error_iff.mp h with hinvalid | ⟨_, hkey, hfull, _⟩
        · rw [hvalidate] at hinvalid
          cases hinvalid
        · exact absurd ⟨Overlay.colorKey?_ne_none_iff.mpr hkey, hfull⟩ hroom

theorem run_keepingValid (front os : List Overlay) :
    (keepingValid front).run (os.map .one) = keepingValid (front ++ os) := by
  induction os generalizing front with
  | nil => rw [List.map_nil, run, List.append_nil]
  | cons o os ih =>
    rw [List.map_cons, run, afterOffer_keepingValid, ih, List.append_assoc, List.singleton_append]

/-- **The session after offers one by one is that of the valid overlays among them.** -/
theorem run_ones (os : List Overlay) : empty.run (os.map .one) = keepingValid os :=
  run_keepingValid [] os

theorem getElem?_answers_keepingValid (front os : List Overlay) (i : Nat) :
    ((keepingValid front).answers os)[i]? = os[i]?.map (answerBehind (front ++ os.take i)) := by
  induction os generalizing front i with
  | nil => rw [answers, List.getElem?_nil, List.getElem?_nil, Option.map_none]
  | cons o os ih =>
    rw [answers, register_keepingValid, afterOffer_keepingValid]
    cases i with
    | zero =>
      rw [List.getElem?_cons_zero, List.getElem?_cons_zero, List.take_zero, List.append_nil, Option.map_some]
    | succ i =>
      rw [List.getElem?_cons_succ, List.getElem?_cons_succ, ih, List.take_succ_cons, List.append_assoc,
        List.singleton_append]

/-- **Each answer is that to an overlay behind those before it.** -/
theorem getElem?_answers (os : List Overlay) (i : Nat) :
    (empty.answers os)[i]? = os[i]?.map (answerBehind (os.take i)) :=
  getElem?_answers_keepingValid [] os i

/-! ## Mixing the kinds anew -/

/-- A permutation of the places of a list keeps the order of each kind: of two overlays of one kind, the one
in front stays in front. -/
def KeepsKindOrder (os : List Overlay) (σ : Equiv.Perm (Fin os.length)) : Prop :=
  ∀ i j, i < j → (os.get i).SameKind (os.get j) → σ i < σ j

instance (os : List Overlay) (σ : Equiv.Perm (Fin os.length)) : Decidable (KeepsKindOrder os σ) :=
  inferInstanceAs (Decidable (∀ _, _))

/-- The list with the overlay of each place moved to another place. -/
def rearranged (os : List Overlay) (σ : Equiv.Perm (Fin os.length)) : List Overlay :=
  List.ofFn fun i => os.get (σ.symm i)

variable {σ : Equiv.Perm (Fin os.length)}

theorem getElem?_rearranged (os : List Overlay) (σ : Equiv.Perm (Fin os.length)) (i : Fin os.length) :
    (rearranged os σ)[(σ i : Nat)]? = some (os.get i) := by
  rw [rearranged, List.getElem?_ofFn, dif_pos (σ i).isLt, Fin.eta, Equiv.symm_apply_apply]

/-- Of two overlays of one kind, the one in front comes from the front. -/
theorem KeepsKindOrder.lt_iff (h : KeepsKindOrder os σ) {i j : Fin os.length}
    (hkind : (os.get i).SameKind (os.get j)) : σ i < σ j ↔ i < j := by
  refine ⟨fun hσ => ?_, fun hij => h i j hij hkind⟩
  rcases lt_trichotomy i j with hij | rfl | hji
  · exact hij
  · exact absurd hσ (lt_irrefl _)
  · exact absurd hσ (lt_asymm (h j i hji hkind.symm))

/-- Places among which a permutation keeps the order are listed alike before and after it. -/
theorem map_symm_filter_finRange {n : Nat} {σ : Equiv.Perm (Fin n)} {p : Fin n → Bool}
    (h : ∀ i j, p i → p j → i < j → σ i < σ j) :
    ((List.finRange n).filter fun i => p (σ.symm i)).map σ.symm = (List.finRange n).filter p := by
  -- Both lists go up and have the same members.
  have hup : (List.finRange n).Pairwise (· < ·) := (List.sortedLT_finRange n).pairwise
  refine List.Pairwise.eq_of_mem_iff (r := (· < ·)) ?_ (hup.filter p) fun i => ?_
  · refine List.pairwise_map.mpr (List.Pairwise.imp_of_mem ?_ (hup.filter _))
    intro i j hi hj hij
    have hpi : p (σ.symm i) := (List.mem_filter.mp hi).2
    have hpj : p (σ.symm j) := (List.mem_filter.mp hj).2
    rcases lt_trichotomy (σ.symm i) (σ.symm j) with hlt | heq | hgt
    · exact hlt
    · exact absurd (σ.symm.injective heq) hij.ne
    · have hji := h _ _ hpj hpi hgt
      rw [Equiv.apply_symm_apply, Equiv.apply_symm_apply] at hji
      exact absurd hij hji.asymm
  · rw [List.mem_map, List.mem_filter]
    constructor
    · rintro ⟨j, hj, rfl⟩
      exact ⟨List.mem_finRange _, (List.mem_filter.mp hj).2⟩
    · rintro ⟨_, hi⟩
      refine ⟨σ i, List.mem_filter.mpr ⟨List.mem_finRange _, ?_⟩, σ.symm_apply_apply i⟩
      rwa [Equiv.symm_apply_apply]

/-- What is taken from a list is taken from the members that have something to take. -/
theorem filterMap_eq_filterMap_filter {α β : Type} (g : α → Option β) (l : List α) :
    l.filterMap g = (l.filter fun a => (g a).isSome).filterMap g := by
  rw [List.filterMap_filter]
  refine List.filterMap_congr fun a _ => ?_
  cases g a <;> rfl

/-- **What is taken from one kind is the same list.** -/
theorem filterMap_rearranged {α : Type} {f : Overlay → Option α} (h : KeepsKindOrder os σ)
    (hf : ∀ o o', f o ≠ none → f o' ≠ none → o.SameKind o') :
    (rearranged os σ).filterMap f = os.filterMap f := by
  have hup : ∀ i j, (f (os.get i)).isSome → (f (os.get j)).isSome → i < j → σ i < σ j := fun i j hi hj hij =>
    h i j hij (hf _ _ (Option.isSome_iff_ne_none.mp hi) (Option.isSome_iff_ne_none.mp hj))
  calc (rearranged os σ).filterMap f
      = (List.finRange os.length).filterMap fun i => f (os.get (σ.symm i)) := by
        rw [rearranged, List.ofFn_eq_map, List.filterMap_map]
        rfl
    _ = (((List.finRange os.length).filter fun i => (f (os.get (σ.symm i))).isSome).map σ.symm).filterMap
          fun i => f (os.get i) := by
        rw [filterMap_eq_filterMap_filter, List.filterMap_map]
        rfl
    _ = (List.finRange os.length).filterMap fun i => f (os.get i) := by
        rw [map_symm_filter_finRange hup, ← filterMap_eq_filterMap_filter]
    _ = ((List.finRange os.length).map os.get).filterMap f := by
        rw [List.filterMap_map]
        rfl
    _ = os.filterMap f := by
        rw [← List.ofFn_eq_map, List.ofFn_get]

/-! ## Same answers, same session -/

/-- The valid overlays of one kind are the same list. -/
theorem filterMap_valid_rearranged {α : Type} {f : Overlay → Option α} (h : KeepsKindOrder os σ)
    (hf : ∀ o o', f o ≠ none → f o' ≠ none → o.SameKind o') :
    ((rearranged os σ).filter (Overlay.IsValid ·)).filterMap f
      = (os.filter (Overlay.IsValid ·)).filterMap f := by
  rw [List.filterMap_filter, List.filterMap_filter]
  refine filterMap_rearranged h fun o o' ho ho' => hf o o' ?_ ?_
  · exact fun hnone => ho (by rw [hnone, ite_self])
  · exact fun hnone => ho' (by rw [hnone, ite_self])

theorem keepingValid_rearranged (h : KeepsKindOrder os σ) : keepingValid (rearranged os σ) = keepingValid os := by
  have hkeys := filterMap_valid_rearranged h fun o o' ho ho' =>
    (Overlay.kindName_of_colorKey? ho).trans (Overlay.kindName_of_colorKey? ho').symm
  have hpictures := filterMap_valid_rearranged h fun o o' ho ho' =>
    (Overlay.kindName_of_picture? ho).trans (Overlay.kindName_of_picture? ho').symm
  have htexts := filterMap_valid_rearranged h fun o o' ho ho' =>
    (Overlay.kindName_of_text? ho).trans (Overlay.kindName_of_text? ho').symm
  have hboxes := filterMap_valid_rearranged h fun o o' ho ho' =>
    (Overlay.kindName_of_box? ho).trans (Overlay.kindName_of_box? ho').symm
  rw [keepingValid, keepingValid, keeping, keeping, hkeys, hpictures, htexts, hboxes]

theorem mem_take_iff {i : Nat} : o ∈ os.take i ↔ ∃ j : Fin os.length, (j : Nat) < i ∧ os.get j = o := by
  rw [List.mem_take_iff_getElem]
  constructor
  · rintro ⟨j, hj, rfl⟩
    exact ⟨⟨j, hj.trans_le (min_le_right _ _)⟩, hj.trans_le (min_le_left _ _), rfl⟩
  · rintro ⟨j, hj, rfl⟩
    exact ⟨j, lt_min hj j.isLt, rfl⟩

theorem mem_take_rearranged_iff {i : Nat} :
    o ∈ (rearranged os σ).take i ↔ ∃ j : Fin os.length, (σ j : Nat) < i ∧ os.get j = o := by
  rw [mem_take_iff]
  constructor
  · rintro ⟨j, hj, rfl⟩
    refine ⟨σ.symm (j.cast List.length_ofFn), ?_, ?_⟩
    · rwa [Equiv.apply_symm_apply]
    · exact (List.get_ofFn _ j).symm
  · rintro ⟨j, hj, rfl⟩
    refine ⟨(σ j).cast List.length_ofFn.symm, hj, ?_⟩
    exact (List.get_ofFn _ _).trans (congrArg os.get (σ.symm_apply_apply j))

/-- The same color keys are in front of a color key. -/
theorem exists_key_in_front_iff (h : KeepsKindOrder os σ) {i : Fin os.length}
    (hi : (os.get i).colorKey? ≠ none) :
    (∃ k ∈ (rearranged os σ).take (σ i), k.IsValid ∧ k.colorKey? ≠ none)
      ↔ ∃ k ∈ os.take i, k.IsValid ∧ k.colorKey? ≠ none := by
  have hlt {j : Fin os.length} (hj : (os.get j).colorKey? ≠ none) : σ j < σ i ↔ j < i :=
    h.lt_iff ((Overlay.kindName_of_colorKey? hj).trans (Overlay.kindName_of_colorKey? hi).symm)
  constructor
  · rintro ⟨k, hk, hvalid, hkey⟩
    obtain ⟨j, hj, rfl⟩ := mem_take_rearranged_iff.mp hk
    exact ⟨_, mem_take_iff.mpr ⟨j, (hlt hkey).mp hj, rfl⟩, hvalid, hkey⟩
  · rintro ⟨k, hk, hvalid, hkey⟩
    obtain ⟨j, hj, rfl⟩ := mem_take_iff.mp hk
    exact ⟨_, mem_take_rearranged_iff.mpr ⟨j, (hlt hkey).mpr hj, rfl⟩, hvalid, hkey⟩

theorem answerBehind_rearranged (h : KeepsKindOrder os σ) (i : Fin os.length) :
    answerBehind ((rearranged os σ).take (σ i)) (os.get i) = answerBehind (os.take i) (os.get i) := by
  by_cases hi : (os.get i).colorKey? = none
  · simp only [answerBehind, hi, ne_eq, not_true, false_and]
  · simp only [answerBehind, exists_key_in_front_iff h hi]

/-- **The order of registration matters within a kind only.** Let the overlays of a list be offered in another
order that keeps the order of each kind. Then every overlay gets the same answer, accepted or the same reason
why not, and the session ends up the same; so does whatever is made of it. -/
theorem answers_and_session_of_rearranged (h : KeepsKindOrder os σ) :
    (∀ i : Fin os.length, ∃ answer,
        (empty.answers os)[(i : Nat)]? = some answer
          ∧ (empty.answers (rearranged os σ))[(σ i : Nat)]? = some answer)
      ∧ empty.run ((rearranged os σ).map .one) = empty.run (os.map .one)
      ∧ (empty.run ((rearranged os σ).map .one)).compile = (empty.run (os.map .one)).compile
      ∧ ∀ probe primary output,
          renderCommand probe primary (empty.run ((rearranged os σ).map .one)) output
            = renderCommand probe primary (empty.run (os.map .one)) output := by
  have hsession : empty.run ((rearranged os σ).map .one) = empty.run (os.map .one) := by
    rw [run_ones, run_ones, keepingValid_rearranged h]
  refine ⟨fun i => ⟨answerBehind (os.take i) (os.get i), ?_, ?_⟩, hsession, by rw [hsession],
    fun probe primary output => by rw [hsession]⟩
  · rw [getElem?_answers, List.getElem?_eq_getElem i.isLt]
    rfl
  · rw [getElem?_answers, getElem?_rearranged, Option.map_some, answerBehind_rearranged h]

/-- A picture, a color key, a second one, a box without a color, another picture and a text. -/
def mixedOverlays : List Overlay :=
  let size : Dimension := ⟨32, 18, by decide, by decide⟩
  let lime : Color := ⟨"lime", .zero, .pixels 2, by decide, by decide +kernel, by decide⟩
  let picture (file : String) : Overlay := ⟨{ dimension := some size }, .picture { file := some file }⟩
  let key (file : String) : Overlay :=
    ⟨{ dimension := some size }, .colorKey { color := some lime, imageFile := some file }⟩
  [picture "a.png", key "sky.png", key "sea.png", ⟨{}, .box none⟩, picture "b.png",
    ⟨{}, .text "drawtext=text=live"⟩]

/-- The first key in front of the first picture, and the box in front of the second key. -/
def mixedOrder : Equiv.Perm (Fin mixedOverlays.length) :=
  ((Equiv.swap 0 1).trans (Equiv.swap 2 3) : Equiv.Perm (Fin 6))

/-- The second key is refused in either order, and the files of the first one come before the pictures. -/
theorem answers_and_session_of_mixedOverlays :
    KeepsKindOrder mixedOverlays mixedOrder
      ∧ (rearranged mixedOverlays mixedOrder).map (·.content.kindName)
          = ["colorkey", "image", "box", "colorkey", "image", "text"]
      ∧ (empty.answers mixedOverlays)[2]? = some (.error .duplicateColorKey)
      ∧ (empty.answers (rearranged mixedOverlays mixedOrder))[3]? = some (.error .duplicateColorKey)
      ∧ (empty.run ((rearranged mixedOverlays mixedOrder).map .one)).inputs = ["sky.png", "a.png", "b.png"] := by
  have horder : KeepsKindOrder mixedOverlays mixedOrder := by decide
  obtain ⟨hanswers, hsession, _⟩ := answers_and_session_of_rearranged horder
  have hrefused : (empty.answers mixedOverlays)[2]? = some (.error .duplicateColorKey) := by decide +kernel
  obtain ⟨answer, hold, hnew⟩ := hanswers ⟨2, by decide⟩
  refine ⟨horder, by decide, hrefused, ?_, ?_⟩
  · exact hnew.trans (hold.symm.trans hrefused)
  · rw [hsession]
    decide +kernel

end Session
end VideoOverlay
