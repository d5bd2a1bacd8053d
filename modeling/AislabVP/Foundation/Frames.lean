import Mathlib.Data.List.Flatten
import Mathlib.Tactic.Ring

/-!
# Fixed-size frames on a byte stream

A sender writes frames of one fixed size to a stream; the stream reaches the
receiver cut into arbitrary non-empty pieces.  A receiver that keeps the pieces
of exactly the frame size and drops every other piece delivers
`wholeFrames size pieces`.  The module says exactly when a decoder gets the
messages back from them: if and only if every piece is a whole frame
(`map_wholeFrames_eq_iff`).  Shorter pieces are never put together again, so one of
them is enough to lose a frame.
-/

namespace AislabVP
namespace Foundation

variable {α : Type*}

/-- What a receiver delivers that keeps only the pieces of the frame size. -/
def wholeFrames (size : Nat) (pieces : List (List α)) : List (List α) :=
  pieces.filter fun piece => decide (piece.length = size)

/-- The symbols of the pieces are those of the delivered frames and those of
the dropped pieces. -/
theorem length_flatten_eq_delivered_add_dropped (size : Nat) (pieces : List (List α)) :
    pieces.flatten.length =
      (wholeFrames size pieces).length * size +
        (pieces.filter fun piece => !decide (piece.length = size)).flatten.length := by
  induction pieces with
  | nil => simp [wholeFrames]
  | cons piece rest ih =>
      rw [List.flatten_cons, List.length_append, ih]
      by_cases hsize : piece.length = size
      · simp only [wholeFrames, List.filter_cons, hsize, decide_true, if_true,
          Bool.not_true, Bool.false_eq_true, if_false, List.length_cons]
        ring
      · simp only [wholeFrames, List.filter_cons, hsize, decide_false, Bool.not_false,
          Bool.false_eq_true, if_false, if_true, List.flatten_cons, List.length_append]
        ring

theorem wholeFrames_of_forall_length {size : Nat} {pieces : List (List α)}
    (hwhole : ∀ piece ∈ pieces, piece.length = size) :
    wholeFrames size pieces = pieces := by
  apply List.filter_eq_self.mpr
  intro piece hpiece
  exact decide_eq_true (hwhole piece hpiece)

theorem length_flatten_of_forall_length {size : Nat} {frames : List (List α)}
    (hframes : ∀ frame ∈ frames, frame.length = size) :
    frames.flatten.length = frames.length * size := by
  have hnone : (frames.filter fun frame => !decide (frame.length = size)) = [] := by
    apply List.filter_eq_nil_iff.mpr
    intro frame hframe
    simp [hframes frame hframe]
  rw [length_flatten_eq_delivered_add_dropped size frames, hnone,
    wholeFrames_of_forall_length hframes]
  simp

/-- A stream is cut into frames of one positive size in only one way. -/
theorem eq_of_flatten_eq {size : Nat} (hsize : 0 < size) {left right : List (List α)}
    (hleft : ∀ frame ∈ left, frame.length = size)
    (hright : ∀ frame ∈ right, frame.length = size)
    (hstream : left.flatten = right.flatten) : left = right := by
  induction left generalizing right with
  | nil =>
      cases right with
      | nil => rfl
      | cons frame rest =>
          have hframe := hright frame List.mem_cons_self
          have hempty := congrArg List.length hstream
          simp only [List.flatten_nil, List.flatten_cons, List.length_nil,
            List.length_append] at hempty
          omega
  | cons frame rest ih =>
      have hframe := hleft frame List.mem_cons_self
      cases right with
      | nil =>
          have hempty := congrArg List.length hstream
          simp only [List.flatten_nil, List.flatten_cons, List.length_nil,
            List.length_append] at hempty
          omega
      | cons other others =>
          have hother := hright other List.mem_cons_self
          obtain ⟨hhead, htail⟩ :=
            List.append_inj hstream (hframe.trans hother.symm)
          have hrest := ih
            (fun frame hmem => hleft frame (List.mem_cons_of_mem _ hmem))
            (fun frame hmem => hright frame (List.mem_cons_of_mem _ hmem)) htail
          rw [hhead, hrest]

/-- When the delivered frames account for the whole stream, no piece was
dropped. -/
theorem forall_length_of_count {size : Nat} {pieces : List (List α)}
    (hpieces : ∀ piece ∈ pieces, piece ≠ [])
    (hcount : (wholeFrames size pieces).length * size = pieces.flatten.length) :
    ∀ piece ∈ pieces, piece.length = size := by
  intro piece hpiece
  by_contra hshort
  have hsplit := length_flatten_eq_delivered_add_dropped size pieces
  have hdropped : (pieces.filter fun piece => !decide (piece.length = size)).flatten = [] :=
    List.length_eq_zero_iff.mp (by omega)
  have hmem : piece ∈ pieces.filter fun piece => !decide (piece.length = size) := by
    simp [hpiece, hshort]
  exact hpieces piece hpiece (List.flatten_eq_nil_iff.mp hdropped piece hmem)

/-- The receiver delivers the frames that were sent if and only if every piece
it gets is a whole frame.  It is enough to compare what a decoder makes of the
frames, as long as the decoder tells the sent frames back. -/
theorem map_wholeFrames_eq_iff {β : Type*} {size : Nat} (hsize : 0 < size)
    {encode : β → List α} {decode : List α → β}
    (hdecode : ∀ message, decode (encode message) = message)
    (hencode : ∀ message, (encode message).length = size)
    {pieces : List (List α)} {messages : List β}
    (hpieces : ∀ piece ∈ pieces, piece ≠ [])
    (hstream : pieces.flatten = (messages.map encode).flatten) :
    (wholeFrames size pieces).map decode = messages ↔
      ∀ piece ∈ pieces, piece.length = size := by
  have hframes : ∀ frame ∈ messages.map encode, frame.length = size := by
    intro frame hframe
    rcases List.mem_map.mp hframe with ⟨message, -, rfl⟩
    exact hencode message
  constructor
  · intro hdelivered
    apply forall_length_of_count hpieces
    have hlength := congrArg List.length hdelivered
    rw [List.length_map] at hlength
    rw [hlength, hstream, length_flatten_of_forall_length hframes, List.length_map]
  · intro hwhole
    have hsent := eq_of_flatten_eq hsize hwhole hframes hstream
    have hroundtrip : decode ∘ encode = id := funext hdecode
    rw [wholeFrames_of_forall_length hwhole, hsent, List.map_map, hroundtrip, List.map_id]

/-- Delivery is monotone: a prefix of the pieces delivers a prefix. -/
theorem wholeFrames_mono {size : Nat} {front pieces : List (List α)}
    (hfront : front <+: pieces) :
    wholeFrames size front <+: wholeFrames size pieces :=
  hfront.filter _

end Foundation
end AislabVP
