import TagSync.Hub

/-!
Repairs: single values of a hub that are overwritten from outside.

A repair tells how many rows it has changed.
-/

namespace TagSync

namespace Tables

def setEventTime (t : Tables) (id : EventId) (ts : Float) : Tables :=
  { t with events := t.events.map fun e => if e.id = id then { e with ts } else e }

def setBuildState (t : Tables) (nvr : Nvr) (state : String) : Tables :=
  { t with builds := t.builds.map fun b => if b.nvr = nvr then { b with state } else b }

end Tables

namespace Hub

/-- Overwrites the time of an event, which must be a number. There is one zero only. -/
def setEventTime (h : Hub) (id : EventId) (ts : Float) : Except Failure Nat × Hub :=
  if (h.tables.event? id).isNone then (.ok 0, h)
  else if ts.isNaN then (.error (storageFailure "NOT NULL constraint failed: events.time"), h)
  else (.ok 1, { h with tables := h.tables.setEventTime id (if ts == 0 then 0 else ts) })

/-- Overwrites the state of a build by any text. -/
def setBuildState (h : Hub) (nvr : Nvr) (state : String) : Nat × Hub :=
  if (h.tables.buildNamed? nvr).isNone then (0, h)
  else (1, { h with tables := h.tables.setBuildState nvr state })

end Hub

end TagSync
