import Mathlib.Algebra.Ring.Nat
import Mathlib.Data.List.Infix

/-!
# Reassembly

A receiver puts frames together from numbered pieces that arrive one by one, in an order and with
contents that it does not control.  It keeps the pieces of the frame in progress (`take`): a piece
that continues the frame is added, the first piece of a frame starts afresh, and any other ends the
frame in progress without a result.

What it completes has a description without its state: a frame is completed by a piece exactly if
the pieces received so far, that piece included, end with all pieces of a frame (`Whole`), from its
first to its last and without a gap. `Collects` ties the two together: there is at most one such end
(`Open.unique`), and the receiver has it (`Collects.whole_iff`).
-/

/-- A piece of a frame. -/
structure Piece (κ ι β : Type) where
  key : κ
  number : ℕ
  /-- Where its data belongs; the first piece says how much room the frame needs instead. -/
  offset : ℕ
  data : List β
  last : Bool
  info : ι

namespace Piece

variable {κ ι β : Type} {p : Piece κ ι β} {xs ys zs got init : List (Piece κ ι β)}

/-- The data of pieces. -/
def payload (ps : List (Piece κ ι β)) : List β := ps.flatMap fun p => p.data

@[simp] lemma payload_nil : payload ([] : List (Piece κ ι β)) = [] := rfl

@[simp] lemma payload_concat : payload (ys ++ [p]) = payload ys ++ p.data := by
  rw [payload, payload, List.flatMap_append, List.flatMap_singleton]

/-- The piece comes next, behind the pieces of a frame; behind none it is a first piece. -/
structure Fits (got : List (Piece κ ι β)) (p : Piece κ ι β) : Prop where
  number : p.number = got.length
  key : p.key = (got.headD p).key
  offset : 0 < got.length → p.offset = (payload got).length
  room : (payload got).length + p.data.length ≤ (got.headD p).offset

instance decidableFits [DecidableEq κ] (got : List (Piece κ ι β)) (p : Piece κ ι β) :
    Decidable (Fits got p) :=
  decidable_of_iff (p.number = got.length ∧ p.key = (got.headD p).key ∧
      (0 < got.length → p.offset = (payload got).length) ∧
      (payload got).length + p.data.length ≤ (got.headD p).offset)
    ⟨fun h => ⟨h.1, h.2.1, h.2.2.1, h.2.2.2⟩, fun h => ⟨h.number, h.key, h.offset, h.room⟩⟩

/-- The pieces of a frame up to one that is not the last. -/
inductive Open : List (Piece κ ι β) → Prop where
  /-- None yet. -/
  | nil : Open []
  /-- One more. -/
  | concat {ys : List (Piece κ ι β)} {p : Piece κ ι β} :
      Open ys → Fits ys p → p.last = false → Open (ys ++ [p])

/-- All pieces of a frame. -/
def Whole (ys : List (Piece κ ι β)) : Prop :=
  ∃ init p, ys = init ++ [p] ∧ Open init ∧ Fits init p ∧ p.last = true

/-- The pieces are numbered. -/
lemma Open.number (h : Open ys) {i : ℕ} (hp : ys[i]? = some p) : p.number = i := by
  induction h generalizing i with
  | nil => cases hp
  | @concat ys q _ hfits _ ih =>
      by_cases hi : i < ys.length
      · rw [List.getElem?_append_left hi] at hp
        exact ih hp
      · have hlt := (List.getElem?_eq_some_iff.mp hp).1
        rw [List.length_append, List.length_singleton] at hlt
        have heq : i = ys.length := by omega
        rw [heq, List.getElem?_concat_length] at hp
        rw [heq, ← Option.some.inj hp]
        exact hfits.number

/-- The data so far fits the room that the first piece says. -/
lemma Fits.room_head (h : Fits ys p) :
    ∀ first ∈ (ys ++ [p]).head?, (payload (ys ++ [p])).length ≤ first.offset := by
  intro first hfirst
  rw [payload_concat, List.length_append]
  refine Nat.le_trans h.room (Nat.le_of_eq ?_)
  cases ys with
  | nil => exact congrArg Piece.offset (Option.some.inj hfirst)
  | cons q ys => exact congrArg Piece.offset (Option.some.inj hfirst)

lemma Open.room (h : Open ys) : ∀ first ∈ ys.head?, (payload ys).length ≤ first.offset := by
  cases h with
  | nil =>
      intro first hfirst
      cases hfirst
  | concat _ hfits _ => exact hfits.room_head

/-- The data of a frame fits the room that its first piece says. -/
lemma Whole.room (h : Whole ys) : ∀ first ∈ ys.head?, (payload ys).length ≤ first.offset := by
  obtain ⟨init, p, rfl, -, hfits, -⟩ := h
  exact hfits.room_head

/-- A frame that is a part of another one is all of it, as both begin with number 0. -/
lemma Open.eq_of_suffix (hy : Open ys) (hz : Open zs) (hne : ys ≠ []) (h : ys <:+ zs) :
    ys = zs := by
  obtain ⟨before, rfl⟩ := h
  obtain ⟨p, hp⟩ : ∃ p, ys[0]? = some p :=
    ⟨_, List.getElem?_eq_getElem (List.length_pos_iff.mpr hne)⟩
  have hzero := hy.number hp
  have hthere : (before ++ ys)[before.length]? = some p := by
    rw [List.getElem?_append_right (Nat.le_refl _), Nat.sub_self]
    exact hp
  have hnone : before.length = 0 := (hz.number hthere).symm.trans hzero
  rw [List.length_eq_zero_iff.mp hnone, List.nil_append]

/-- Pieces end with at most one frame. -/
lemma Open.unique (hy : Open ys) (hz : Open zs) (hys : ys ≠ []) (hzs : zs ≠ []) (h : ys <:+ xs)
    (h' : zs <:+ xs) : ys = zs := by
  rcases List.suffix_or_suffix_of_suffix h h' with hsuffix | hsuffix
  · exact hy.eq_of_suffix hz hys hsuffix
  · exact (hz.eq_of_suffix hy hzs hsuffix).symm

/-! ## The receiver -/

/-- The receiver has the frame in progress: the only one that the pieces received end with. -/
structure Collects (xs got : List (Piece κ ι β)) : Prop where
  isOpen : Open got
  suffix : got <:+ xs
  only : ∀ ys, ys <:+ xs → Open ys → ys ≠ [] → ys = got

lemma Collects.nil : Collects ([] : List (Piece κ ι β)) [] :=
  ⟨.nil, List.suffix_rfl, fun _ h _ _ => List.suffix_nil.mp h⟩

lemma suffix_concat_iff (hne : ys ≠ []) :
    ys <:+ xs ++ [p] ↔ ∃ init, ys = init ++ [p] ∧ init <:+ xs := by
  rw [List.suffix_concat_iff]
  exact ⟨fun h => h.resolve_left hne, .inr⟩

section receiver

variable [DecidableEq κ]

/-- The pieces of the frame in progress, with one more piece. -/
def take (got : List (Piece κ ι β)) (p : Piece κ ι β) : List (Piece κ ι β) :=
  if Fits got p then got ++ [p] else if Fits [] p then [p] else []

/-- The pieces of the frame in progress after a piece: a last piece ends the frame. -/
def next (got : List (Piece κ ι β)) (p : Piece κ ι β) : List (Piece κ ι β) :=
  if p.last = true then [] else take got p

lemma take_of_fits (h : Fits got p) : take got p = got ++ [p] := if_pos h

lemma take_of_first (hnot : ¬ Fits got p) (h : Fits [] p) : take got p = [p] := by
  rw [take, if_neg hnot, if_pos h]

lemma take_of_none (hnot : ¬ Fits got p) (hfirst : ¬ Fits [] p) : take got p = [] := by
  rw [take, if_neg hnot, if_neg hfirst]

lemma take_eq_of_number (h : p.number = got.length) :
    take got p = if Fits got p then got ++ [p] else [] := by
  rw [take]
  by_cases hfits : Fits got p
  · rw [if_pos hfits, if_pos hfits]
  · rw [if_neg hfits, if_neg hfits, if_neg fun hfirst => hfits ?_]
    have hnone : got = [] := List.length_eq_zero_iff.mp (h.symm.trans hfirst.number)
    exact hnone ▸ hfirst

/-- A piece of another number does not continue the frame. -/
lemma take_eq_of_restart (h : p.number ≠ got.length) : take got p = take [] p := by
  rw [take, if_neg fun hfits => h hfits.number, take]
  by_cases hfirst : Fits [] p
  · rw [if_pos hfirst, if_pos hfirst, List.nil_append]
  · rw [if_neg hfirst, if_neg hfirst]

/-- Whatever the piece continues, the receiver has. -/
lemma Collects.take_eq (h : Collects xs got) (hinit : init <:+ xs) (hopen : Open init)
    (hfits : Fits init p) : take got p = init ++ [p] := by
  by_cases hne : init = []
  · subst hne
    have hzero : p.number = 0 := hfits.number
    by_cases hgot : got = []
    · rw [hgot]
      exact take_of_fits hfits
    · refine take_of_first (fun hcontinues => hgot ?_) hfits
      exact List.length_eq_zero_iff.mp (hcontinues.number.symm.trans hzero)
  · rw [h.only init hinit hopen hne]
    exact take_of_fits (h.only init hinit hopen hne ▸ hfits)

/-- The receiver has nothing, or what the piece continues. -/
lemma Collects.take_cases (h : Collects xs got) (p : Piece κ ι β) :
    take got p = [] ∨
      ∃ init, take got p = init ++ [p] ∧ init <:+ xs ∧ Open init ∧ Fits init p := by
  by_cases hfits : Fits got p
  · exact .inr ⟨got, take_of_fits hfits, h.suffix, h.isOpen, hfits⟩
  · by_cases hfirst : Fits [] p
    · exact .inr ⟨[], take_of_first hfits hfirst, List.nil_suffix, .nil, hfirst⟩
    · exact .inl (take_of_none hfits hfirst)

/-- A last piece completes a frame exactly if the receiver has one with it. -/
lemma Collects.whole_iff (h : Collects xs got) :
    (ys <:+ xs ++ [p] ∧ Whole ys) ↔ p.last = true ∧ take got p ≠ [] ∧ ys = take got p := by
  constructor
  · rintro ⟨hsuffix, init, q, rfl, hopen, hfits, hlast⟩
    obtain ⟨init', heq, hinit⟩ := (suffix_concat_iff (by simp)).mp hsuffix
    obtain ⟨rfl, hq⟩ := List.append_inj' heq rfl
    obtain rfl := List.singleton_inj.mp hq
    rw [h.take_eq hinit hopen hfits]
    exact ⟨hlast, by simp, rfl⟩
  · rintro ⟨hlast, hne, rfl⟩
    rcases h.take_cases p with hnone | ⟨init, heq, hinit, hopen, hfits⟩
    · exact (hne hnone).elim
    · rw [heq]
      exact ⟨(suffix_concat_iff (by simp)).mpr ⟨init, rfl, hinit⟩, init, p, rfl, hopen, hfits,
        hlast⟩

/-- One more piece. -/
lemma Collects.next (h : Collects xs got) (p : Piece κ ι β) :
    Collects (xs ++ [p]) (next got p) := by
  by_cases hlast : p.last = true
  · rw [Piece.next, if_pos hlast]
    refine ⟨.nil, List.nil_suffix, fun ys hsuffix hopen hne => ?_⟩
    obtain ⟨init, rfl, -⟩ := (suffix_concat_iff hne).mp hsuffix
    generalize hzs : init ++ [p] = zs at hopen
    cases hopen with
    | nil => exact absurd hzs (by simp)
    | concat _ _ hmore =>
        obtain ⟨-, hq⟩ := List.append_inj' hzs rfl
        rw [← List.singleton_inj.mp hq, hlast] at hmore
        cases hmore
  · rw [Piece.next, if_neg hlast]
    have only (ys : List (Piece κ ι β)) (hsuffix : ys <:+ xs ++ [p]) (hopen : Open ys)
        (hne : ys ≠ []) : ys = take got p := by
      obtain ⟨init, rfl, hinit⟩ := (suffix_concat_iff hne).mp hsuffix
      generalize hzs : init ++ [p] = zs at hopen
      cases hopen with
      | nil => exact absurd hzs (by simp)
      | concat hbefore hfits _ =>
          obtain ⟨rfl, hq⟩ := List.append_inj' hzs rfl
          obtain rfl := List.singleton_inj.mp hq
          exact (h.take_eq hinit hbefore hfits).symm
    rcases h.take_cases p with hnone | ⟨init, heq, hinit, hopen, hfits⟩
    · refine ⟨?_, ?_, only⟩
      · rw [hnone]
        exact .nil
      · rw [hnone]
        exact List.nil_suffix
    · refine ⟨?_, ?_, only⟩
      · rw [heq]
        exact hopen.concat hfits (Bool.eq_false_iff.mpr hlast)
      · rw [heq]
        exact (suffix_concat_iff (by simp)).mpr ⟨init, rfl, hinit⟩

end receiver

/-- The frames that pieces complete, the latest first: a piece completes a frame exactly if the
pieces up to it end with a whole one. -/
inductive Completes : List (Piece κ ι β) → List (List (Piece κ ι β)) → Prop where
  /-- No piece yet. -/
  | none : Completes [] []
  /-- A piece that completes a frame. -/
  | whole {xs : List (Piece κ ι β)} {ws : List (List (Piece κ ι β))} {p : Piece κ ι β}
      {ys : List (Piece κ ι β)} :
      Completes xs ws → ys <:+ xs ++ [p] → Whole ys → Completes (xs ++ [p]) (ys :: ws)
  /-- A piece that does not. -/
  | more {xs : List (Piece κ ι β)} {ws : List (List (Piece κ ι β))} {p : Piece κ ι β} :
      Completes xs ws → (∀ ys, ys <:+ xs ++ [p] → ¬ Whole ys) → Completes (xs ++ [p]) ws

lemma Completes.whole_of_mem {ws : List (List (Piece κ ι β))} (h : Completes xs ws)
    (hys : ys ∈ ws) :
    Whole ys := by
  induction h with
  | none => cases hys
  | whole _ _ hwhole ih =>
      rcases List.mem_cons.mp hys with rfl | hmem
      · exact hwhole
      · exact ih hmem
  | more _ _ ih => exact ih hys

/-- Pieces end with at most one whole frame. -/
lemma Whole.unique (hy : Whole ys) (hz : Whole zs) (h : ys <:+ xs) (h' : zs <:+ xs) : ys = zs := by
  obtain ⟨init, p, rfl, hopen, hfits, -⟩ := hy
  obtain ⟨init', q, rfl, hopen', hfits', -⟩ := hz
  obtain ⟨before, rfl⟩ := h
  rw [← List.append_assoc] at h'
  obtain ⟨rest, heq, hsuffix⟩ := (suffix_concat_iff (by simp)).mp h'
  obtain ⟨rfl, hq⟩ := List.append_inj' heq rfl
  obtain rfl := List.singleton_inj.mp hq
  have hlength : init.length = init'.length := hfits.number.symm.trans hfits'.number
  by_cases hnone : init = []
  · rw [hnone, List.length_nil] at hlength
    rw [hnone, List.length_eq_zero_iff.mp hlength.symm]
  · have hsome : init' ≠ [] := fun h => hnone (List.length_eq_zero_iff.mp (by rw [hlength, h]; rfl))
    rw [hopen.unique hopen' hnone hsome (List.suffix_append _ _) hsuffix]

/-- A frame that has just been completed is among them. -/
lemma Completes.mem_of_whole {ws : List (List (Piece κ ι β))} (h : Completes xs ws)
    (hsuffix : ys <:+ xs) (hwhole : Whole ys) : ys ∈ ws := by
  cases h with
  | none =>
      obtain ⟨init, p, rfl, -⟩ := hwhole
      exact absurd (List.suffix_nil.mp hsuffix) (by simp)
  | whole _ hlatest hframe =>
      rw [hwhole.unique hframe hsuffix hlatest]
      exact List.mem_cons_self
  | more _ hno => exact (hno ys hsuffix hwhole).elim

end Piece
