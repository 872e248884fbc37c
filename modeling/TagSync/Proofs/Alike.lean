import TagSync.Proofs.Delivery

/-!
Hubs that differ in the times of their events.

No call looks at the events that have been: it is told the number of its own one, whatever the
clock shows. So hubs that are alike but for the times of events, and for their clocks, give the same
answers and stay alike.
-/

namespace TagSync

namespace Tables

variable {t t' : Tables} {tag : TagInfo} {flags : CallFlags} {event : EventId}

/-! ### Other events -/

/-- The tables with other events. -/
def withEvents (t : Tables) (events : List EventInfo) : Tables := { t with events }

section

variable (t) (events : List EventInfo)

lemma chain_withEvents (d : TagId) : (t.withEvents events).chain d = t.chain d :=
  congrArg (List.filterMap t.tag?)
    (walk_congr (show (t.withEvents events).inheritance = t.inheritance from rfl) [d] [])

lemma package?_withEvents (d : TagId) (m : Option EventId) (name : String) :
    (t.withEvents events).package? d m name = t.package? d m name := by
  rw [package?, chain_withEvents]
  rfl

lemma group?_withEvents (d : TagId) (name : String) :
    (t.withEvents events).group? d name = t.group? d name := by
  rw [group?, chain_withEvents]
  rfl

lemma checkListed_withEvents (package : String) :
    (t.withEvents events).checkListed tag package = t.checkListed tag package := by
  rw [checkListed, package?_withEvents]
  rfl

lemma tagBuild_withEvents (nvr : String) :
    (t.withEvents events).tagBuild tag flags event nvr =
      (t.tagBuild tag flags event nvr).map fun t' => t'.withEvents events := by
  have hlookup : (t.withEvents events).lookupBuild nvr = t.lookupBuild nvr := rfl
  unfold tagBuild
  rw [hlookup]
  rcases t.lookupBuild nvr with fault | b
  · rfl
  have htagged : (t.withEvents events).isTagged tag.id b.id = t.isTagged tag.id b.id := rfl
  simp only [bind, Except.bind, checkListed_withEvents, htagged, notifyIf]
  rcases !flags.force with _ | _ <;> rcases t.checkListed tag b.nvr.name with fault | u <;>
    rcases t.isTagged tag.id b.id with _ | _ <;> rcases flags.notify with _ | _ <;> rfl

lemma untagBuild_withEvents (nvr : String) :
    (t.withEvents events).untagBuild tag flags event nvr =
      (t.untagBuild tag flags event nvr).map fun t' => t'.withEvents events := by
  have hlookup : (t.withEvents events).lookupBuild nvr = t.lookupBuild nvr := rfl
  unfold untagBuild
  rw [hlookup]
  rcases t.lookupBuild nvr with fault | b
  · rfl
  have htagged : (t.withEvents events).isTagged tag.id b.id = t.isTagged tag.id b.id := rfl
  simp only [bind, Except.bind, htagged, notifyIf]
  rcases t.isTagged tag.id b.id with _ | _ <;> rcases flags.notify with _ | _ <;> rfl

/-- **What is carried out does not depend on the events that have been.** -/
theorem carryOut_withEvents (o : Operation) :
    (t.withEvents events).carryOut tag flags event o =
      (t.carryOut tag flags event o).map fun t' => t'.withEvents events := by
  cases o with
  | addPackage package owner blocked extraArches =>
    simp only [carryOut, addPackage, package?_withEvents]
    have hsame : (t.withEvents events).ownsPackage tag.id package = t.ownsPackage tag.id package :=
      rfl
    rw [hsame]
    split <;> rfl
  | blockPackage package =>
    simp only [carryOut, blockPackage, package?_withEvents]
    split <;> rfl
  | addGroup group => rfl
  | removeGroup group =>
    simp only [carryOut, removeGroup]
    rw [show (t.withEvents events).groups = t.groups from rfl]
    split <;> rfl
  | blockGroup group =>
    simp only [carryOut, blockGroup, group?_withEvents]
    split <;> rfl
  | removeGroupPackage group package =>
    simp only [carryOut, removeMember]
    rw [show (t.withEvents events).members = t.members from rfl]
    split <;> rfl
  | addGroupPackage group package | blockGroupPackage group package =>
    simp only [carryOut, setMember, group?_withEvents]
    split <;> rfl
  | tagBuild nvr => exact tagBuild_withEvents t events nvr
  | untagBuild nvr => exact untagBuild_withEvents t events nvr

end

lemma CarriedOut.events {o : Operation} (ho : CarriedOut t tag flags event o t') :
    t'.events = t.events := by
  cases ho with
  | tagBuild | untagBuild =>
    unfold notifyIf
    split <;> rfl
  | _ => rfl

/-- **The same tables up to the times of events.** -/
structure Alike (t t' : Tables) : Prop where
  numbers : t'.events.map EventInfo.id = t.events.map EventInfo.id
  others : t' = t.withEvents t'.events

namespace Alike

lemma refl (t : Tables) : Alike t t := ⟨rfl, rfl⟩

lemma length_events (e : t.Alike t') : t'.events.length = t.events.length := by
  simpa using congrArg List.length e.numbers

lemma newEvent (e : t.Alike t') (c c' : Clock) :
    (t.newEvent c).1.Alike (t'.newEvent c').1 ∧ (t'.newEvent c').2 = (t.newEvent c).2 := by
  have hnext : (t'.newEvent c').2 = (t.newEvent c).2 := by
    simp only [Tables.newEvent, e.length_events]
  refine ⟨⟨?_, ?_⟩, hnext⟩
  · simp only [Tables.newEvent, List.map_append, e.numbers, e.length_events]
    rfl
  · rw [e.others]
    rfl

/-- Both calls are rejected in the same way, or accepted with tables that are alike. -/
theorem call (e : t.Alike t') (c c' : Clock) (tag : TagInfo) (flags : CallFlags) (o : Operation) :
    (∃ fault, t.call c tag flags o = .error fault ∧ t'.call c' tag flags o = .error fault) ∨
      ∃ t₁ t₁', t.call c tag flags o = .ok t₁ ∧ t'.call c' tag flags o = .ok t₁' ∧
        t₁.Alike t₁' := by
  obtain ⟨halike, hnext⟩ := e.newEvent c c'
  unfold Tables.call
  split
  · exact .inl ⟨_, rfl, rfl⟩
  · dsimp only
    rw [hnext, halike.others, carryOut_withEvents]
    rcases hout : (t.newEvent c).1.carryOut tag flags (t.newEvent c).2 o with fault | t₁
    · exact .inl ⟨fault, rfl, rfl⟩
    · refine .inr ⟨t₁, _, rfl, rfl, ?_, rfl⟩
      rw [(carriedOut_of_carryOut hout).events]
      exact halike.numbers

end Alike

end Tables

namespace Hub

/-- **The same hub up to the times of events**, and up to the clock that shows them. -/
structure Alike (h h' : Hub) : Prop where
  user : h'.user = h.user
  tables : h.tables.Alike h'.tables
  before : Option.Rel Tables.Alike h.before h'.before

variable {h h' : Hub} {tag : TagInfo} {flags : CallFlags}

namespace Alike

lemma refl (h : Hub) : Alike h h := by
  refine ⟨rfl, .refl _, ?_⟩
  rcases h.before with _ | t
  · exact .none
  · exact .some (.refl t)

lemma isSome_before (e : h.Alike h') : h'.before.isSome = h.before.isSome := by
  have hbefore := e.before
  generalize h.before = b, h'.before = b' at hbefore ⊢
  cases hbefore <;> rfl

lemma durable (e : h.Alike h') : h.durable.Alike h'.durable := by
  have hbefore := e.before
  unfold Hub.durable
  generalize h.before = b, h'.before = b' at hbefore ⊢
  cases hbefore with
  | none => exact e.tables
  | some ht => exact ht

lemma getTag_eq (e : h.Alike h') : h'.tables.getTag = h.tables.getTag :=
  Tables.getTag_congr (by rw [e.tables.others]; rfl)

lemma mayWrite_eq (e : h.Alike h') (tag : TagInfo) : h'.mayWrite tag = h.mayWrite tag := by
  unfold mayWrite
  rw [e.user, e.tables.others]
  rfl

lemma callOne (e : h.Alike h') (tag : TagInfo) (flags : CallFlags) (o : Operation) :
    (h'.callOne tag flags o).1 = (h.callOne tag flags o).1 ∧
      (h.callOne tag flags o).2.Alike (h'.callOne tag flags o).2 := by
  rcases e.tables.call h.clock h'.clock tag flags o with
    ⟨fault, hcall, hcall'⟩ | ⟨t, t', hcall, hcall', ht⟩
  · rw [callOne_of_error hcall, callOne_of_error hcall']
    exact ⟨rfl, e.user, e.tables, .some e.durable⟩
  · rw [callOne_of_ok hcall, callOne_of_ok hcall']
    exact ⟨rfl, e.user, ht, e.before⟩

lemma callAll (e : h.Alike h') (tag : TagInfo) (flags : CallFlags) (operations : List Operation) :
    (h'.callAll tag flags operations).1 = (h.callAll tag flags operations).1 ∧
      (h.callAll tag flags operations).2.Alike (h'.callAll tag flags operations).2 := by
  induction operations generalizing h h' with
  | nil => exact ⟨rfl, e⟩
  | cons o rest ih =>
    obtain ⟨hresult, hnext⟩ := e.callOne tag flags o
    obtain ⟨hresults, hlast⟩ := ih hnext
    exact ⟨congrArg₂ List.cons hresult hresults, hlast⟩

/-- **Hubs that are alike give the same answers and stay alike.** -/
theorem answers (e : h.Alike h') (tag : TagInfo) (flags : CallFlags)
    (operations : List Operation) :
    (h'.answers tag flags operations).1 = (h.answers tag flags operations).1 ∧
      (h.answers tag flags operations).2.Alike (h'.answers tag flags operations).2 := by
  unfold Hub.answers
  rw [e.mayWrite_eq tag]
  split
  · exact e.callAll tag flags operations
  · exact ⟨by rw [e.user], e⟩

end Alike

end Hub

end TagSync
