import TagSync.Tag

/-!
Versioned records: a record is made at an event and may be revoked at a later one.

Nothing is ever deleted, so every past state can be read back. A history lists its rows in the
order in which they were made.
-/

namespace TagSync

/-- A record with the span of its life. -/
structure Versioned (α : Type) where
  record : α
  created : EventId
  revoked : Option EventId := none
  deriving DecidableEq, Repr

namespace Versioned

variable {α : Type}

/-- Whether the record counts at an event, or now if there is none. -/
def isActive (event : Option EventId) (r : Versioned α) : Bool :=
  match event with
  | none => r.revoked.isNone
  | some e => r.created ≤ e && r.revoked.all fun x => e < x

/-- The record revoked, if it still counts. -/
def revoke (event : EventId) (r : Versioned α) : Versioned α :=
  if r.isActive none then { r with revoked := some event } else r

end Versioned

abbrev History (α : Type) := List (Versioned α)

namespace History

variable {α : Type}

/-- The records that count at an event, or now. -/
def active (h : History α) (event : Option EventId) : List α :=
  (h.filter (Versioned.isActive event)).map Versioned.record

/-- Whether a record of a kind counts now. -/
def hasActive (h : History α) (p : α → Bool) : Bool := (h.active none).any p

def add (h : History α) (event : EventId) (a : α) : History α := h ++ [⟨a, event, none⟩]

/-- Revokes the records of a kind that count now. -/
def revoke (h : History α) (event : EventId) (p : α → Bool) : History α :=
  h.map fun r => if p r.record then r.revoke event else r

/-- Puts a record in the place of those of a kind. -/
def replace (h : History α) (event : EventId) (p : α → Bool) (a : α) : History α :=
  (h.revoke event p).add event a

end History

end TagSync
