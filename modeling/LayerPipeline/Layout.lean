/-!
# Record layouts

A record type is described once as the tuple of its fields in declaration order. The text format
and the binary format of the record are both built from that tuple.
-/

namespace LayerPipeline

/-- A record type `α` taken apart into the tuple `β` of its fields and put together again. -/
structure Layout (α β : Type) where
  /-- The fields of a record. -/
  split : α → β
  /-- The record with given fields. -/
  join : β → α
  /-- Putting the fields of a record together gives the record. -/
  join_split : ∀ a, join (split a) = a := by intro a; rfl

end LayerPipeline
