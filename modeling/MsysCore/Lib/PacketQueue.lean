import Mathlib.Data.List.Basic
import Mathlib.Tactic

/-!
# Queues of packets that are sent in pieces

A writer that may take only a part of what it is offered leaves a queue of packets and an
offset into the first of them. What is left to send is the content of the queue after the
offset, and the lemmas say what each move of the writer does to it.
-/

namespace MsysCore.PacketQueue

variable {α : Type*}

/-- What is left of the queue when the first `offset` items of its front are gone. -/
def unsent (packets : List (List α)) (offset : ℕ) : List α := packets.flatten.drop offset

/-- The offset points into the front packet. -/
def InFront (packets : List (List α)) (offset : ℕ) : Prop :=
  match packets with
  | [] => offset = 0
  | front :: _ => offset < front.length

@[simp] theorem unsent_nil (offset : ℕ) : unsent ([] : List (List α)) offset = [] := by
  simp [unsent]

theorem unsent_cons {front : List α} {packets : List (List α)} {offset : ℕ}
    (h : offset ≤ front.length) :
    unsent (front :: packets) offset = front.drop offset ++ packets.flatten := by
  rw [unsent, List.flatten_cons, List.drop_append_of_le_length h]

theorem InFront.le_length {packets : List (List α)} {offset : ℕ} (h : InFront packets offset) :
    offset ≤ packets.flatten.length := by
  cases packets with
  | nil => exact Nat.le_of_eq h
  | cons front packets =>
    have hlt : offset < front.length := h
    rw [List.flatten_cons, List.length_append]
    omega

/-- A packet queued behind the others is sent after them. -/
theorem unsent_concat {packets : List (List α)} {offset : ℕ} (h : InFront packets offset)
    (packet : List α) : unsent (packets ++ [packet]) offset = unsent packets offset ++ packet := by
  rw [unsent, List.flatten_append, List.drop_append_of_le_length h.le_length]
  simp [unsent]

/-- The writer took a part of the front. -/
theorem unsent_advance {front : List α} {packets : List (List α)} {offset count : ℕ}
    (h : offset + count ≤ front.length) :
    (front.drop offset).take count ++ unsent (front :: packets) (offset + count) =
      unsent (front :: packets) offset := by
  have hleft : offset ≤ front.length := by omega
  rw [unsent_cons h, unsent_cons hleft, ← List.append_assoc, ← List.drop_drop,
    List.take_append_drop]

/-- The writer took the rest of the front. -/
theorem unsent_pop {front : List α} {packets : List (List α)} {offset : ℕ}
    (h : offset ≤ front.length) :
    front.drop offset ++ unsent packets 0 = unsent (front :: packets) offset := by
  rw [unsent_cons h, unsent, List.drop_zero]

theorem InFront.concat {packets : List (List α)} {offset : ℕ} (h : InFront packets offset)
    (hne : packets ≠ []) (packet : List α) : InFront (packets ++ [packet]) offset := by
  cases packets with
  | nil => exact absurd rfl hne
  | cons front packets => exact h

/-- The next packet is sent from its start. -/
theorem inFront_zero {packets : List (List α)} (h : [] ∉ packets) : InFront packets 0 := by
  cases packets with
  | nil => rfl
  | cons front packets =>
    have hfront : front ≠ [] := by
      rintro rfl
      exact h List.mem_cons_self
    exact List.length_pos_of_ne_nil hfront

end MsysCore.PacketQueue
