import Mathlib.Data.List.Nodup
import TagSync.Proofs.Reachable

/-!
Who may do what.

Users come with imports only. Numbers of users are never given out twice, so a permission that is
granted to one user is held by no other one, and no permission is ever lost.
-/

namespace TagSync.Tables

variable {c : Clock} {t t' : Tables} {user perm : String}

/-- **Users and permissions fit together**: users have numbers of their own, and nobody holds a
permission whose number was not given out yet. -/
structure Enrolled (t : Tables) : Prop where
  ids : (t.users.map UserRow.id).Nodup
  users : ∀ u ∈ t.users, u.id ≤ t.userNumbers
  perms : ∀ r ∈ t.perms, r.user ≤ t.userNumbers

/-- The tables have the same users with the same permissions. -/
structure SameAccounts (t t' : Tables) : Prop where
  users : t'.users = t.users
  userNumbers : t'.userNumbers = t.userNumbers
  perms : t'.perms = t.perms

namespace SameAccounts

lemma refl (t : Tables) : SameAccounts t t := ⟨rfl, rfl, rfl⟩

lemma trans {t'' : Tables} (h : SameAccounts t t') (h' : SameAccounts t' t'') :
    SameAccounts t t'' :=
  ⟨h'.users.trans h.users, h'.userNumbers.trans h.userNumbers, h'.perms.trans h.perms⟩

lemma enrolled (h : SameAccounts t t') (ht : t.Enrolled) : t'.Enrolled where
  ids := by
    rw [h.users]
    exact ht.ids
  users := by
    rw [h.users, h.userNumbers]
    exact ht.users
  perms := by
    rw [h.perms, h.userNumbers]
    exact ht.perms

lemma hasPerm_eq (h : SameAccounts t t') : t'.hasPerm = t.hasPerm := by
  funext user perm
  rw [hasPerm, hasPerm, h.users, h.perms]

end SameAccounts

lemma hasPerm_iff :
    t.hasPerm user perm = true ↔ ∃ u ∈ t.users, u.name = user ∧ ⟨u.id, perm⟩ ∈ t.perms := by
  simp [hasPerm]

namespace Enrolled

lemma empty : Tables.empty.Enrolled := ⟨.nil, nofun, nofun⟩

/-- Users of one number are the same. -/
lemma eq_of_id (h : t.Enrolled) {u u' : UserRow} (hu : u ∈ t.users) (hu' : u' ∈ t.users)
    (hid : u.id = u'.id) : u = u' := List.inj_on_of_nodup_map h.ids hu hu' hid

/-! ### Imports -/

/-- A permission is granted to one user and to no other. -/
lemma grant (h : t.Enrolled) {u : UserRow} (hu : u ∈ t.users) (granted : String) :
    (t.grant u.id granted).Enrolled ∧ (t.grant u.id granted).users = t.users ∧
      ∀ user perm, (t.grant u.id granted).hasPerm user perm = true ↔
        t.hasPerm user perm = true ∨ u.name = user ∧ granted = perm := by
  unfold Tables.grant
  split
  · rename_i hheld
    rw [List.contains_iff_mem] at hheld
    refine ⟨h, rfl, fun user perm => (or_iff_left_of_imp ?_).symm⟩
    rintro ⟨rfl, rfl⟩
    exact hasPerm_iff.mpr ⟨u, hu, rfl, hheld⟩
  · refine ⟨⟨h.ids, h.users, fun r hr => ?_⟩, rfl, fun user perm => ?_⟩
    · rcases List.mem_append.mp hr with hr | hr
      · exact h.perms r hr
      · rw [List.mem_singleton.mp hr]
        exact h.users u hu
    · simp only [hasPerm_iff, List.mem_append, List.mem_singleton, and_or_left, exists_or,
        PermRow.mk.injEq]
      refine or_congr .rfl ⟨?_, ?_⟩
      · rintro ⟨u', hu', rfl, hid, rfl⟩
        rw [h.eq_of_id hu' hu hid]
        exact ⟨rfl, rfl⟩
      · rintro ⟨rfl, rfl⟩
        exact ⟨u, hu, rfl, rfl, rfl⟩

/-- A new user holds nothing yet. -/
lemma ensureUser (h : t.Enrolled) (name : String) :
    (t.ensureUser name).1.Enrolled ∧
      (∃ u ∈ (t.ensureUser name).1.users, u.name = name ∧ u.id = (t.ensureUser name).2) ∧
      ∀ user perm, (t.ensureUser name).1.hasPerm user perm = t.hasPerm user perm := by
  have hnext : t.userNumbers ≤ t.userNumbers + 1 := Int.le_of_lt (Int.lt_succ _)
  unfold Tables.ensureUser
  split
  · rename_i u hu
    refine ⟨⟨h.ids, fun u' hu' => Int.le_trans (h.users u' hu') hnext,
      fun r hr => Int.le_trans (h.perms r hr) hnext⟩,
      ⟨u, List.mem_of_find?_eq_some hu, by simpa using List.find?_some hu, rfl⟩,
      fun _ _ => rfl⟩
  · refine ⟨⟨?_, fun u' hu' => ?_, fun r hr => Int.le_trans (h.perms r hr) hnext⟩,
      ⟨_, List.mem_append_right _ (.head _), rfl, rfl⟩, fun user perm => ?_⟩
    · rw [List.map_append]
      refine h.ids.append (List.nodup_singleton _) (List.disjoint_singleton.mpr fun hmem => ?_)
      obtain ⟨u', hu', hid⟩ := List.mem_map.mp hmem
      exact absurd (h.users u' hu') (Int.not_le.mpr (by rw [hid]; exact Int.lt_succ _))
    · rcases List.mem_append.mp hu' with hu' | hu'
      · exact Int.le_trans (h.users u' hu') hnext
      · obtain rfl := List.mem_singleton.mp hu'
        exact Int.le_refl _
    · have hnone : ⟨t.userNumbers + 1, perm⟩ ∉ t.perms := fun hmem =>
        absurd (h.perms _ hmem) (Int.not_le.mpr (Int.lt_succ _))
      simp [hasPerm, hnone]

lemma foldl_grant {u : UserRow} {l : List String} (h : t.Enrolled) (hu : u ∈ t.users) :
    (l.foldl (fun t perm => t.grant u.id perm) t).Enrolled ∧
      ∀ user perm, (l.foldl (fun t perm => t.grant u.id perm) t).hasPerm user perm = true ↔
        t.hasPerm user perm = true ∨ u.name = user ∧ perm ∈ l := by
  induction l generalizing t with
  | nil => exact ⟨h, by simp⟩
  | cons granted rest ih =>
    obtain ⟨hnext, hsame, hgrant⟩ := h.grant hu granted
    obtain ⟨hend, hperms⟩ := ih hnext (by rwa [hsame])
    refine ⟨hend, fun user perm => (hperms user perm).trans ?_⟩
    rw [hgrant, or_assoc, ← and_or_left, List.mem_cons, eq_comm (a := granted)]

/-- **An import of a user** grants what the seed lists for the user, and nothing else. -/
lemma importUser (h : t.Enrolled) (u : SeedUser) :
    (t.importUser u).Enrolled ∧ ∀ user perm, (t.importUser u).hasPerm user perm = true ↔
      t.hasPerm user perm = true ∨ u.name = user ∧ perm ∈ u.perms := by
  obtain ⟨hnext, ⟨row, hrow, hname, hid⟩, hsame⟩ := h.ensureUser u.name
  obtain ⟨hend, hperms⟩ := hnext.foldl_grant (l := u.perms) hrow
  rw [hid] at hend hperms
  exact ⟨hend, fun user perm => (hperms user perm).trans (by rw [hsame, hname])⟩

lemma foldl_importUser {l : List SeedUser} (h : t.Enrolled) :
    (l.foldl Tables.importUser t).Enrolled ∧
      ∀ user perm, (l.foldl Tables.importUser t).hasPerm user perm = true ↔
        t.hasPerm user perm = true ∨ ∃ u ∈ l, u.name = user ∧ perm ∈ u.perms := by
  induction l generalizing t with
  | nil => exact ⟨h, by simp⟩
  | cons u rest ih =>
    obtain ⟨hnext, hgranted⟩ := h.importUser u
    obtain ⟨hend, hperms⟩ := ih hnext
    refine ⟨hend, fun user perm => (hperms user perm).trans ?_⟩
    rw [hgranted, or_assoc, List.exists_mem_cons_iff]

end Enrolled

/-- The content of a tag makes no difference to users and permissions. -/
lemma sameAccounts_importContent {event : EventId} {s : SeedTag}
    (h : t.importContent event s = .ok t') : SameAccounts t t' := by
  obtain ⟨row, t₁, t₂, -, hparents, htaggings, rfl⟩ := importContent_eq_ok h
  have h₁ : SameAccounts t t₁ := foldlM_keeps hparents (.refl t) fun p _ t₀ t₁ ht₀ hp => by
    obtain ⟨parent, -, rfl⟩ := importParent_eq_ok hp
    exact ht₀.trans ⟨rfl, rfl, rfl⟩
  have hpackages : SameAccounts t (s.packages.foldl (importPackage event row.id) t₁) :=
    foldl_keeps h₁ fun t₀ p ht₀ => ht₀.trans ⟨rfl, rfl, rfl⟩
  have h₂ : SameAccounts t t₂ := foldlM_keeps htaggings hpackages fun nvr _ t₀ t₁ ht₀ hn => by
    obtain ⟨n, b, -, rfl⟩ := importTagging_eq_ok hn
    exact ht₀.trans ⟨rfl, rfl, rfl⟩
  exact foldl_keeps h₂ fun t₀ g ht₀ => ht₀.trans ⟨rfl, rfl, rfl⟩

/-- **What an import does to permissions**: those that the seed lists are held from then on, and
all others by the same users as before. -/
theorem Enrolled.importSeed (ht : t.Enrolled) {s : Seed} {summary : ImportSummary}
    (h : t.importSeed c s = .ok (t', summary)) :
    t'.Enrolled ∧ ∀ user perm, t'.hasPerm user perm = true ↔
      t.hasPerm user perm = true ∨ ∃ u ∈ s.users, u.name = user ∧ perm ∈ u.perms := by
  obtain ⟨t₁, t₂, hbuilds, htags, hcontent⟩ := importSeed_eq_ok h
  have hevent : SameAccounts t (t.newEvent c).1 := ⟨rfl, rfl, rfl⟩
  have h₁ : SameAccounts (s.users.foldl Tables.importUser (t.newEvent c).1) t₁ :=
    foldlM_keeps hbuilds (.refl _) fun b _ t₀ t₁ ht₀ hb => by
      obtain ⟨-, state, -, rfl⟩ := importBuild_eq_ok hb
      exact ht₀.trans ⟨rfl, rfl, rfl⟩
  have h₂ : SameAccounts (s.users.foldl Tables.importUser (t.newEvent c).1) t₂ :=
    foldlM_keeps htags h₁ fun st _ t₀ t₁ ht₀ hst => by
      obtain ⟨-, rfl⟩ := importTag_eq_ok hst
      exact ht₀.trans ⟨rfl, rfl, rfl⟩
  have h₃ : SameAccounts (s.users.foldl Tables.importUser (t.newEvent c).1) t' :=
    foldlM_keeps hcontent h₂ fun st _ t₀ t₁ ht₀ hst => ht₀.trans (sameAccounts_importContent hst)
  obtain ⟨hend, hperms⟩ := (hevent.enrolled ht).foldl_importUser (l := s.users)
  refine ⟨h₃.enrolled hend, fun user perm => ?_⟩
  rw [h₃.hasPerm_eq, hperms, hevent.hasPerm_eq]

/-! ### All steps -/

/-- Calls leave users and permissions as they are. -/
lemma CarriedOut.sameAccounts {tag : TagInfo} {flags : CallFlags} {event : EventId}
    {o : Operation} (ho : CarriedOut t tag flags event o t') : SameAccounts t t' := by
  cases ho with
  | tagBuild =>
    unfold notifyIf
    split <;> exact ⟨rfl, rfl, rfl⟩
  | untagBuild =>
    unfold notifyIf
    split <;> exact ⟨rfl, rfl, rfl⟩
  | _ => exact ⟨rfl, rfl, rfl⟩

lemma Step.enrolled (hstep : Step c t t') (ht : t.Enrolled) : t'.Enrolled := by
  have hevent : SameAccounts t (t.newEvent c).1 := ⟨rfl, rfl, rfl⟩
  cases hstep with
  | call found accepted => exact (hevent.trans (call_eq_ok accepted).sameAccounts).enrolled ht
  | createTag config new => exact SameAccounts.enrolled (t := t) ⟨rfl, rfl, rfl⟩ ht
  | editTag config found => exact SameAccounts.enrolled (t := t) ⟨rfl, rfl, rfl⟩ ht
  | newRepo found => exact SameAccounts.enrolled (t := t) ⟨rfl, rfl, rfl⟩ ht
  | importSeed checked imported => exact (ht.importSeed imported).1

end TagSync.Tables

/-- **Users and permissions of a hub fit together.** -/
theorem TagSync.Hub.Reachable.enrolled {h : TagSync.Hub} (hr : h.Reachable) : h.tables.Enrolled :=
  (hr.holds .empty fun _ _ ht hstep => hstep.enrolled ht).1
