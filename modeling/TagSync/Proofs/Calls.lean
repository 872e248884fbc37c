import TagSync.Proofs.Slot

/-!
What the accepted calls do to a tag.

A call that is accepted carries its operation out in one of few ways (`CarriedOut`). It writes
some of the places where the tag may hold records of its own, as the operation says, and leaves
the others; and it leaves all other tags alone.
-/

namespace TagSync

namespace Tables

variable {t t' : Tables} {tag : TagInfo} {flags : CallFlags} {event : EventId}

/-! ### The ways to be accepted -/

/-- What an accepted operation makes of the tables, and what it was accepted for. -/
inductive CarriedOut (t : Tables) (tag : TagInfo) (flags : CallFlags) (event : EventId) :
    Operation → Tables → Prop where
  | addPackage (package owner : String) (blocked : Bool) (extraArches : Option String) :
    CarriedOut t tag flags event (.addPackage package owner blocked extraArches)
      (t.setPackage event ⟨tag.id, package, owner, blocked, extraArches⟩)
  | blockPackage {package : String} {p : PackageEntry}
      (seen : t.package? tag.id none package = some p) :
    CarriedOut t tag flags event (.blockPackage package)
      (t.setPackage event ⟨tag.id, package, p.owner, true, p.extraArches⟩)
  | addGroup (group : String) :
    CarriedOut t tag flags event (.addGroup group) (t.setGroup event ⟨tag.id, group, false⟩)
  | removeGroup {group : String}
      (own : t.groups.hasActive fun x => x.tag = tag.id && x.group = group) :
    CarriedOut t tag flags event (.removeGroup group)
      { t with
        groups := t.groups.revoke event fun x => x.tag = tag.id && x.group = group
        members := t.members.revoke event fun x => x.tag = tag.id && x.group = group }
  | blockGroup {group : String} (seen : (t.group? tag.id group).isSome) :
    CarriedOut t tag flags event (.blockGroup group) (t.setGroup event ⟨tag.id, group, true⟩)
  | addGroupPackage {group : String} (package : String)
      (seen : (t.group? tag.id group).any fun g => !g.blocked) :
    CarriedOut t tag flags event (.addGroupPackage group package)
      { t with
        members := t.members.replace event
          (fun x => x.tag = tag.id && x.group = group && x.package = package)
          ⟨tag.id, group, package, false⟩ }
  | removeGroupPackage {group package : String}
      (own : t.members.hasActive
        fun x => x.tag = tag.id && x.group = group && x.package = package) :
    CarriedOut t tag flags event (.removeGroupPackage group package)
      { t with
        members := t.members.revoke event
          fun x => x.tag = tag.id && x.group = group && x.package = package }
  | blockGroupPackage {group : String} (package : String)
      (seen : (t.group? tag.id group).any fun g => !g.blocked) :
    CarriedOut t tag flags event (.blockGroupPackage group package)
      { t with
        members := t.members.replace event
          (fun x => x.tag = tag.id && x.group = group && x.package = package)
          ⟨tag.id, group, package, true⟩ }
  | tagBuild {nvr : String} {n : Nvr} {b : BuildRow} (parsed : Nvr.parse? nvr = some n)
      (found : t.buildNamed? n = some b)
      (listed : flags.force ∨ t.checkListed tag b.nvr.name = .ok ())
      (free : t.isTagged tag.id b.id = false) :
    CarriedOut t tag flags event (.tagBuild nvr)
      (({ t with taggings := t.taggings.add event ⟨tag.id, b.id⟩ }).notifyIf flags
        ⟨tag.id, nvr, .tagged, event⟩)
  | untagBuild {nvr : String} {n : Nvr} {b : BuildRow} (parsed : Nvr.parse? nvr = some n)
      (found : t.buildNamed? n = some b) (tagged : t.isTagged tag.id b.id) :
    CarriedOut t tag flags event (.untagBuild nvr)
      (({ t with
        taggings := t.taggings.revoke event fun x => x.tag = tag.id && x.build = b.id }).notifyIf
          flags ⟨tag.id, nvr, .untagged, event⟩)

lemma lookupBuild_eq_ok {nvr : String} {b : BuildRow} (h : t.lookupBuild nvr = .ok b) :
    ∃ n, Nvr.parse? nvr = some n ∧ t.buildNamed? n = some b := by
  unfold lookupBuild at h
  split at h
  · cases h
  · rename_i n hn
    split at h
    · cases h
    · rename_i hb
      cases h
      exact ⟨n, hn, hb⟩

lemma carriedOut_tagBuild {nvr : String} (h : t.tagBuild tag flags event nvr = .ok t') :
    CarriedOut t tag flags event (.tagBuild nvr) t' := by
  unfold tagBuild at h
  rcases hb : t.lookupBuild nvr with fault | b
  · simp [hb, bind, Except.bind] at h
  · obtain ⟨n, hn, hfound⟩ := lookupBuild_eq_ok hb
    simp only [hb, bind, Except.bind] at h
    by_cases hforce : flags.force = true
    · by_cases htagged : t.isTagged tag.id b.id = true
      · simp [hforce, htagged, throw, throwThe, MonadExceptOf.throw] at h
      · simp only [hforce, htagged, pure, Except.pure] at h
        cases h
        exact .tagBuild hn hfound (.inl hforce) (by simpa using htagged)
    · rcases hlisted : t.checkListed tag b.nvr.name with fault | u
      · simp [hforce, hlisted] at h
      · by_cases htagged : t.isTagged tag.id b.id = true
        · simp [hforce, hlisted, htagged, throw, throwThe, MonadExceptOf.throw] at h
        · simp only [hforce, hlisted, htagged, pure, Except.pure] at h
          cases h
          exact .tagBuild hn hfound (.inr hlisted) (by simpa using htagged)

lemma carriedOut_untagBuild {nvr : String} (h : t.untagBuild tag flags event nvr = .ok t') :
    CarriedOut t tag flags event (.untagBuild nvr) t' := by
  unfold untagBuild at h
  rcases hb : t.lookupBuild nvr with fault | b
  · simp [hb, bind, Except.bind] at h
  · obtain ⟨n, hn, hfound⟩ := lookupBuild_eq_ok hb
    simp only [hb, bind, Except.bind] at h
    by_cases htagged : t.isTagged tag.id b.id = true
    · simp only [htagged, pure, Except.pure] at h
      cases h
      exact .untagBuild hn hfound htagged
    · simp [htagged, throw, throwThe, MonadExceptOf.throw] at h

/-- **Every accepted operation is carried out in one of these ways.** -/
theorem carriedOut_of_carryOut {o : Operation} (h : t.carryOut tag flags event o = .ok t') :
    CarriedOut t tag flags event o t' := by
  cases o with
  | addPackage package owner blocked extraArches =>
    simp only [carryOut, addPackage] at h
    split at h
    · cases h
    · cases h
      exact .addPackage ..
  | blockPackage package =>
    simp only [carryOut, blockPackage] at h
    split at h
    · cases h
    · rename_i p hp
      cases h
      exact .blockPackage hp
  | addGroup group =>
    cases h
    exact .addGroup group
  | removeGroup group =>
    simp only [carryOut, removeGroup] at h
    split at h
    · rename_i hown
      cases h
      exact .removeGroup hown
    · cases h
  | blockGroup group =>
    simp only [carryOut, blockGroup] at h
    split at h
    · rename_i hseen
      cases h
      exact .blockGroup hseen
    · cases h
  | addGroupPackage group package =>
    simp only [carryOut, setMember] at h
    split at h
    · rename_i hseen
      cases h
      exact .addGroupPackage package hseen
    · cases h
  | removeGroupPackage group package =>
    simp only [carryOut, removeMember] at h
    split at h
    · rename_i hown
      cases h
      exact .removeGroupPackage hown
    · cases h
  | blockGroupPackage group package =>
    simp only [carryOut, setMember] at h
    split at h
    · rename_i hseen
      cases h
      exact .blockGroupPackage package hseen
    · cases h
  | tagBuild nvr => exact carriedOut_tagBuild h
  | untagBuild nvr => exact carriedOut_untagBuild h

/-! ### What an accepted operation changes -/

variable {c : Clock} {o : Operation}

lemma CarriedOut.confined (c : Clock) (h : CarriedOut t tag flags event o t')
    (he : event ≤ t.events.length) : Confined c tag.id t t' := by
  cases h with
  | addPackage package owner blocked extraArches =>
    exact .ofPackages (.replace he (fun x hx => by simp_all) (by simp))
  | blockPackage seen => exact .ofPackages (.replace he (fun x hx => by simp_all) (by simp))
  | addGroup group => exact .ofGroups (.replace he (fun x hx => by simp_all) (by simp))
  | @removeGroup group own =>
    have hgroups := Confined.ofGroups (c := c) (t := t) (d := tag.id)
      (.revoke he (p := fun x => x.tag = tag.id && x.group = group) fun x hx => by simp_all)
    exact hgroups.trans (.ofMembers (.revoke he fun x hx => by simp_all))
  | blockGroup seen => exact .ofGroups (.replace he (fun x hx => by simp_all) (by simp))
  | addGroupPackage package seen =>
    exact .ofMembers (.replace he (fun x hx => by simp_all) (by simp))
  | removeGroupPackage own => exact .ofMembers (.revoke he fun x hx => by simp_all)
  | blockGroupPackage package seen =>
    exact .ofMembers (.replace he (fun x hx => by simp_all) (by simp))
  | tagBuild parsed found listed free =>
    exact .trans (.ofTaggings (.add he (by simp))) (.notifyIf ..)
  | untagBuild parsed found tagged =>
    exact .trans (.ofTaggings (.revoke he fun x hx => by simp_all)) (.notifyIf ..)

lemma CarriedOut.own (h : CarriedOut t tag flags event o t') (ht : t.Sound) (s : Slot) :
    t'.own tag.id s = (o.write? s).getD (t.own tag.id s) := by
  cases h with
  | addPackage package owner blocked extraArches =>
    rw [own_setPackage t event ⟨tag.id, package, owner, blocked, extraArches⟩, Operation.write?]
    split <;> rfl
  | @blockPackage package p seen =>
    rw [own_setPackage t event ⟨tag.id, package, p.owner, true, p.extraArches⟩, Operation.write?]
    split <;> rfl
  | addGroup group =>
    rw [own_setGroup t event ⟨tag.id, group, false⟩, Operation.write?]
    split <;> rfl
  | removeGroup own => exact own_removeGroup t event tag.id _ s
  | @blockGroup group seen =>
    rw [own_setGroup t event ⟨tag.id, group, true⟩, Operation.write?]
    split <;> rfl
  | @addGroupPackage group package seen =>
    rw [own_setMembers_replace t event ⟨tag.id, group, package, false⟩, Operation.write?]
    split <;> rfl
  | removeGroupPackage own =>
    rw [own_setMembers_revoke, Operation.write?]
    split <;> rfl
  | @blockGroupPackage group package seen =>
    rw [own_setMembers_replace t event ⟨tag.id, group, package, true⟩, Operation.write?]
    split <;> rfl
  | @tagBuild nvr n b parsed found listed free =>
    rw [own_notifyIf, own_add_tagging ht found]
    cases s with
    | build n' =>
      by_cases hn : n' = n
      · simp [Operation.write?, parsed, hn]
      · simp [Operation.write?, parsed, hn, Ne.symm hn]
    | _ => simp [Operation.write?]
  | @untagBuild nvr n b parsed found tagged =>
    rw [own_notifyIf, own_revoke_tagging ht found]
    cases s with
    | build n' =>
      by_cases hn : n' = n
      · simp [Operation.write?, parsed, hn]
      · simp [Operation.write?, parsed, hn, Ne.symm hn]
    | _ => simp [Operation.write?]

/-- Of what lists a package only a block depends on what was seen before. -/
lemma CarriedOut.packageRow? (h : CarriedOut t tag flags event o t') {name : String}
    (hne : o ≠ .blockPackage name) :
    t'.packageRow? tag.id name = ((o.lists? tag.id name).map some).getD
      (t.packageRow? tag.id name) := by
  cases h with
  | addPackage package owner blocked extraArches =>
    rw [packageRow?_setPackage t event ⟨tag.id, package, owner, blocked, extraArches⟩,
      Operation.lists?]
    split <;> rfl
  | @blockPackage package p seen =>
    rw [packageRow?_setPackage t event ⟨tag.id, package, p.owner, true, p.extraArches⟩]
    exact if_neg fun e => hne (by rw [e])
  | tagBuild => rw [packageRow?_notifyIf]; rfl
  | untagBuild => rw [packageRow?_notifyIf]; rfl
  | _ => rfl

/-! ### Calls -/

lemma call_eq_ok (h : t.call c tag flags o = .ok t') :
    CarriedOut (t.newEvent c).1 tag flags (t.newEvent c).2 o t' := by
  unfold call at h
  split at h
  · cases h
  · exact carriedOut_of_carryOut h

/-- **An accepted call changes nothing but its tag.** -/
theorem confined_of_call (h : t.call c tag flags o = .ok t') : Confined c tag.id t t' :=
  (Confined.newEvent c tag.id t).trans
    ((call_eq_ok h).confined c (by simp [newEvent]))

/-- **An accepted call writes what its operation says**, and nothing else on its tag. -/
theorem own_of_call (ht : t.Sound) (h : t.call c tag flags o = .ok t') (s : Slot) :
    t'.own tag.id s = (o.write? s).getD (t.own tag.id s) := by
  have hs := (Confined.newEvent c tag.id t).sound ht
  rw [(call_eq_ok h).own hs s, own_newEvent]

lemma packageRow?_of_call (h : t.call c tag flags o = .ok t') {name : String}
    (hne : o ≠ .blockPackage name) :
    t'.packageRow? tag.id name = ((o.lists? tag.id name).map some).getD
      (t.packageRow? tag.id name) := (call_eq_ok h).packageRow? hne

/-- A build that a call tags was not tagged before. -/
lemma own_eq_none_of_tagBuild {nvr : String} {n : Nvr} (hn : Nvr.parse? nvr = some n)
    (h : t.call c tag flags (.tagBuild nvr) = .ok t') : t.own tag.id (.build n) = none := by
  cases call_eq_ok h with
  | tagBuild parsed found listed free =>
    obtain rfl := Option.some.inj (hn.symm.trans parsed)
    have hfound : t.buildNamed? n = some _ := found
    have hfree : t.isTagged tag.id _ = false := free
    simp [own, holdsBuild, hfound, hfree]

/-! ### Calls one after the other -/

/-- The tables after some calls, all of which must be accepted. -/
def callEach (t : Tables) (c : Clock) (tag : TagInfo) (flags : CallFlags)
    (operations : List Operation) : Except RemoteFault Tables :=
  operations.foldlM (fun t o => t.call c tag flags o) t

variable {operations : List Operation}

lemma callEach_cons_eq_ok :
    t.callEach c tag flags (o :: operations) = .ok t' ↔
      ∃ t₁, t.call c tag flags o = .ok t₁ ∧ t₁.callEach c tag flags operations = .ok t' := by
  simp only [callEach, List.foldlM_cons, bind, Except.bind]
  rcases t.call c tag flags o with fault | t₁ <;> simp

lemma confined_of_callEach (h : t.callEach c tag flags operations = .ok t') :
    Confined c tag.id t t' := by
  induction operations generalizing t with
  | nil =>
    cases h
    exact .refl ..
  | cons o rest ih =>
    obtain ⟨t₁, h₁, hrest⟩ := callEach_cons_eq_ok.mp h
    exact (confined_of_call h₁).trans (ih hrest)

/-- **Where all calls that change what is observed agree**, the last tables show what they say, or
what was shown before if there are none. -/
theorem observe_of_callEach {β : Type} {observe : Tables → β} {effect : Operation → Option β}
    (ht : t.Sound) (h : t.callEach c tag flags operations = .ok t')
    (step : ∀ o ∈ operations, ∀ t₁ t₂ : Tables, t₁.Sound → t₁.call c tag flags o = .ok t₂ →
      observe t₂ = (effect o).getD (observe t₁))
    {w : Option β} (agree : ∀ o ∈ operations, ∀ v, effect o = some v → w = some v)
    (written : ∀ v, w = some v → ∃ o ∈ operations, effect o = some v) :
    observe t' = w.getD (observe t) := by
  have key : observe t' = w.getD (observe t) ∨
      observe t' = observe t ∧ ∀ o ∈ operations, effect o = none := by
    clear written
    induction operations generalizing t with
    | nil =>
      cases h
      exact .inr ⟨rfl, fun _ ho => nomatch ho⟩
    | cons o rest ih =>
      obtain ⟨t₁, h₁, hrest⟩ := callEach_cons_eq_ok.mp h
      have hstep := step o (.head _) t t₁ ht h₁
      have hrun := ih ((confined_of_call h₁).sound ht) hrest (fun o' ho' => step o' (.tail _ ho'))
        fun o' ho' => agree o' (.tail _ ho')
      rcases hw : effect o with _ | v
      · rw [hw, Option.getD_none] at hstep
        rw [hstep] at hrun
        refine hrun.imp_right fun ⟨heq, hnone⟩ => ⟨heq, fun o' ho' => ?_⟩
        rcases List.mem_cons.mp ho' with rfl | ho'
        · exact hw
        · exact hnone o' ho'
      · obtain rfl := agree o (.head _) v hw
        rw [hw, Option.getD_some] at hstep
        rw [Option.getD_some] at hrun ⊢
        exact .inl (hrun.elim id fun ⟨heq, _⟩ => heq.trans hstep)
  refine key.elim id fun ⟨heq, hnone⟩ => ?_
  rcases w with _ | v
  · exact heq
  · obtain ⟨o, ho, hv⟩ := written v rfl
    rw [hnone o ho] at hv
    cases hv

/-- What calls leave in a place of a tag. -/
lemma own_of_callEach (ht : t.Sound) (h : t.callEach c tag flags operations = .ok t') {s : Slot}
    {w : Option (Option Bool)} (agree : ∀ o ∈ operations, ∀ v, o.write? s = some v → w = some v)
    (written : ∀ v, w = some v → ∃ o ∈ operations, o.write? s = some v) :
    t'.own tag.id s = w.getD (t.own tag.id s) :=
  observe_of_callEach ht h (fun _ _ _ _ h₁ hcall => own_of_call h₁ hcall s) agree written

/-- A build that one of the calls tags, and none untags, was not tagged before. -/
lemma own_eq_none_of_callEach (ht : t.Sound) (h : t.callEach c tag flags operations = .ok t')
    {nvr : String} {n : Nvr} (hn : Nvr.parse? nvr = some n) (hmem : .tagBuild nvr ∈ operations)
    (tags : ∀ o ∈ operations, ∀ v, o.write? (.build n) = some v → v = some false) :
    t.own tag.id (.build n) = none := by
  induction operations generalizing t with
  | nil => cases hmem
  | cons o rest ih =>
    obtain ⟨t₁, h₁, hrest⟩ := callEach_cons_eq_ok.mp h
    rcases List.mem_cons.mp hmem with rfl | hmem
    · exact own_eq_none_of_tagBuild hn h₁
    · have hnone := ih ((confined_of_call h₁).sound ht) hrest hmem
        fun o' ho' => tags o' (.tail _ ho')
      rw [own_of_call ht h₁] at hnone
      rcases hw : o.write? (.build n) with _ | v
      · rwa [hw] at hnone
      · rw [hw, tags o (.head _) v hw] at hnone
        cases hnone

end Tables

end TagSync
