/-
  Ssproxy.Lib.Relay

  A reader that follows a writer.  Writer and reader hold a register each.  The
  writer stamps every item it sends with its register and moves the register
  on; the reader, when it takes an item, moves its own register on as the item
  says.  `Leads` is the path of the register through the items in flight, and
  `Relay` says that what was read is the beginning of what was sent, stamp by
  stamp.  The rules are those for sending an item and for taking one.
-/

import Mathlib.Data.List.Basic

namespace Ssproxy.Lib

variable {Reg Item Label : Type}

/-- How items are stamped: the register an item was sent under, the register
    after it, and what is compared of it. -/
structure Stamp (Reg Item Label : Type) where
  line : Item → Reg
  next : Item → Reg
  label : Item → Label

/-- The items lead from one value of the register to another. -/
inductive Leads (S : Stamp Reg Item Label) : Reg → List Item → Reg → Prop where
  | nil (r : Reg) : Leads S r [] r
  | cons {r r' : Reg} {i : Item} {items : List Item} (hi : S.line i = r)
      (h : Leads S (S.next i) items r') : Leads S r (i :: items) r'

namespace Leads

variable {S : Stamp Reg Item Label} {r r' : Reg} {i : Item} {items : List Item}

/-- One more item at the end. -/
theorem concat (h : Leads S r items r') (hi : S.line i = r') :
    Leads S r (items ++ [i]) (S.next i) := by
  induction h with
  | nil r => exact .cons hi (.nil _)
  | cons hj _ ih => exact .cons hj (ih hi)

theorem head (h : Leads S r (i :: items) r') : S.line i = r := by
  cases h with
  | cons hi h => exact hi

theorem tail (h : Leads S r (i :: items) r') : Leads S (S.next i) items r' := by
  cases h with
  | cons hi h => exact h

theorem eq_of_nil (h : Leads S r [] r') : r' = r := by
  cases h
  rfl

end Leads

/-- `got` was read of `sent`, and `flight` is still to be read; the reader stands
    at `reader` and the writer at `writer`. -/
structure Relay (S : Stamp Reg Item Label) (sent : List Item) (got : List Label)
    (flight : List Item) (reader writer : Reg) : Prop where
  split : ∃ done, sent = done ++ flight ∧ got = done.map S.label
  leads : Leads S reader flight writer

namespace Relay

variable {S : Stamp Reg Item Label} {sent flight : List Item} {got : List Label}
  {reader writer : Reg} {i : Item}

theorem start (S : Stamp Reg Item Label) (r : Reg) : Relay S [] [] [] r r :=
  ⟨⟨[], rfl, rfl⟩, .nil r⟩

/-- The writer sends an item under its register. -/
theorem send (h : Relay S sent got flight reader writer) (hi : S.line i = writer) :
    Relay S (sent ++ [i]) got (flight ++ [i]) reader (S.next i) := by
  obtain ⟨done, rfl, hgot⟩ := h.split
  refine ⟨⟨done, List.append_assoc _ _ _, hgot⟩, h.leads.concat hi⟩

/-- The reader takes the first item in flight. -/
theorem take (h : Relay S sent got (i :: flight) reader writer) :
    Relay S sent (got ++ [S.label i]) flight (S.next i) writer := by
  obtain ⟨done, rfl, rfl⟩ := h.split
  refine ⟨⟨done ++ [i], ?_, ?_⟩, h.leads.tail⟩
  · rw [List.append_assoc, List.singleton_append]
  · rw [List.map_append, List.map_singleton]

/-- What was read is the beginning of what was sent. -/
theorem isPrefix (h : Relay S sent got flight reader writer) : got <+: sent.map S.label := by
  obtain ⟨done, rfl, rfl⟩ := h.split
  rw [List.map_append]
  exact List.prefix_append _ _

end Relay

end Ssproxy.Lib
