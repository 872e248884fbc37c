import TagSync.Proofs.Keyed
import TagSync.Proofs.TextOrder
import TagSync.Proofs.VersionOrder

/-!
The newest build of every package.
-/

namespace TagSync.BuildEntry

open Std

variable {l : List BuildEntry} {best : Keyed BuildEntry} {b : BuildEntry}

/-! ### Taking builds into account -/

lemma find?_keepNewest (best : Keyed BuildEntry) (b : BuildEntry) (package : String) :
    (keepNewest best b).find? package =
      if b.packageName = package then
        some (((best.find? package).map fun a => newer a b).getD b)
      else best.find? package := by
  unfold keepNewest
  split
  · rename_i a ha
    rw [Keyed.find?_insert]
    split
    · rename_i h
      rw [← h, ha]
      rfl
    · rfl
  · rename_i ha
    rw [Keyed.find?_insert]
    split
    · rename_i h
      rw [← h, ha]
      rfl
    · rfl

lemma newer_eq (a b : BuildEntry) : newer a b = a ∨ newer a b = b := by
  unfold newer
  split
  · exact .inr rfl
  · exact .inl rfl

lemma mem_of_find?_foldl {package : String}
    (h : (l.foldl keepNewest best).find? package = some b) :
    best.find? package = some b ∨ b ∈ l := by
  induction l generalizing best with
  | nil => exact .inl h
  | cons a rest ih =>
    rcases ih h with h | h
    · rw [find?_keepNewest] at h
      split at h
      · have hb := Option.some.inj h
        rcases hbest : best.find? package with _ | x
        · rw [hbest] at hb
          exact .inr (hb ▸ .head _)
        · rw [hbest] at hb
          rcases newer_eq x a with e | e
          · exact .inl (by rw [← hb, Option.map_some, Option.getD_some, e])
          · rw [Option.map_some, Option.getD_some, e] at hb
            exact .inr (hb ▸ .head _)
      · exact .inl h
    · exact .inr (.tail _ h)

lemma keepNewest_named (h : best.NamedBy packageName) (b : BuildEntry) :
    (keepNewest best b).NamedBy packageName := by
  intro package c hc
  rw [find?_keepNewest] at hc
  split at hc
  · rename_i hb
    have hc := Option.some.inj hc
    rcases hbest : best.find? package with _ | a
    · rw [hbest] at hc
      rw [← hc]
      exact hb
    · rw [hbest, Option.map_some, Option.getD_some] at hc
      rcases newer_eq a b with e | e
      · rw [← hc, e]
        exact h package a hbest
      · rw [← hc, e]
        exact hb
  · exact h package c hc

lemma foldl_keepNewest_named (h : best.NamedBy packageName) (l : List BuildEntry) :
    (l.foldl keepNewest best).NamedBy packageName := by
  induction l generalizing best with
  | nil => exact h
  | cons b rest ih => exact ih (keepNewest_named h b)

/-! ### The order decides -/

lemma isLE_newer_left (a b : BuildEntry) : (compareStrict a (newer a b)).isLE := by
  unfold newer
  split
  · rename_i h
    exact Ordering.isLE_of_eq_lt (OrientedCmp.lt_of_gt h)
  · exact ReflCmp.isLE_rfl

lemma isLE_newer_right (a b : BuildEntry) : (compareStrict b (newer a b)).isLE := by
  unfold newer
  split
  · exact ReflCmp.isLE_rfl
  · rename_i h
    exact Ordering.isLE_iff_ne_gt.mpr h

/-- What is kept for a package is below nothing that was taken into account. -/
lemma isLE_of_find?_foldl {package : String}
    (h : (l.foldl keepNewest best).find? package = some b) :
    (∀ a, best.find? package = some a → (compareStrict a b).isLE) ∧
      ∀ x ∈ l, x.packageName = package → (compareStrict x b).isLE := by
  induction l generalizing best with
  | nil =>
    refine ⟨fun a ha => ?_, nofun⟩
    obtain rfl := Option.some.inj (ha.symm.trans h)
    exact ReflCmp.isLE_rfl
  | cons c rest ih =>
    obtain ⟨hbest, hrest⟩ := ih h
    by_cases hc : c.packageName = package
    · rcases hfound : best.find? package with _ | a
      · have hcb := hbest c (by rw [find?_keepNewest, if_pos hc, hfound]; rfl)
        refine ⟨nofun, List.forall_mem_cons.mpr ⟨fun _ => hcb, hrest⟩⟩
      · have hnew := hbest (newer a c) (by rw [find?_keepNewest, if_pos hc, hfound]; rfl)
        refine ⟨fun x hx => ?_, List.forall_mem_cons.mpr ⟨fun _ => ?_, hrest⟩⟩
        · obtain rfl := Option.some.inj hx
          exact TransCmp.isLE_trans (isLE_newer_left a c) hnew
        · exact TransCmp.isLE_trans (isLE_newer_right a c) hnew
    · refine ⟨fun a ha => hbest a ?_, List.forall_mem_cons.mpr ⟨(absurd · hc), hrest⟩⟩
      rw [find?_keepNewest, if_neg hc, ha]

lemma isSome_find?_foldl {package : String}
    (h : (best.find? package).isSome ∨ ∃ x ∈ l, x.packageName = package) :
    ((l.foldl keepNewest best).find? package).isSome := by
  induction l generalizing best with
  | nil => exact h.resolve_right (fun ⟨_, hx, _⟩ => nomatch hx)
  | cons c rest ih =>
    refine ih ?_
    rw [find?_keepNewest]
    split
    · exact .inl rfl
    · rename_i hc
      refine h.imp_right fun ⟨x, hx, hp⟩ => ⟨x, ?_, hp⟩
      exact (List.mem_cons.mp hx).resolve_left fun e => hc (e ▸ hp)

/-! ### The newest builds of a list -/

/-- No build of the same package is above. -/
def Newest (l : List BuildEntry) (b : BuildEntry) : Prop :=
  ∀ x ∈ l, x.packageName = b.packageName → (compareStrict x b).isLE

instance : DecidablePred (Newest l) := fun b =>
  inferInstanceAs (Decidable (∀ x ∈ l, x.packageName = b.packageName → (compareStrict x b).isLE))

/-- What counts as newest is one of the builds. -/
lemma mem_of_mem_latest (h : b ∈ latest l) : b ∈ l := by
  obtain ⟨package, hb⟩ := Keyed.mem_values_iff.mp h
  exact (mem_of_find?_foldl hb).resolve_left nofun

/-- **The newest builds** are those that no build of the same package is above. -/
theorem mem_latest_iff (hl : (l.map nvr).Nodup) :
    b ∈ latest l ↔ b ∈ l ∧ Newest l b := by
  have hnamed := foldl_keepNewest_named (.empty) l
  constructor
  · intro h
    have hfind := hnamed.mem_values.mp h
    exact ⟨mem_of_mem_latest h, (isLE_of_find?_foldl hfind).2⟩
  · rintro ⟨hb, hmax⟩
    have hsome : ((l.foldl keepNewest .empty).find? b.packageName).isSome :=
      isSome_find?_foldl (.inr ⟨b, hb, rfl⟩)
    obtain ⟨c, hc⟩ := Option.isSome_iff_exists.mp hsome
    have hcl : c ∈ l := (mem_of_find?_foldl hc).resolve_left nofun
    have hpackage : c.packageName = b.packageName := hnamed _ c hc
    have hcb := hmax c hcl hpackage
    have hbc := (isLE_of_find?_foldl hc).2 b hb rfl
    have hnvr := nvr_eq_of_compareStrict (OrientedCmp.isLE_antisymm hcb hbc)
    rw [← List.inj_on_of_nodup_map hl hcl hb hnvr]
    exact Keyed.mem_values_iff.mpr ⟨_, hc⟩

/-- The newest builds are listed by package. -/
lemma latest_pairwise (l : List BuildEntry) :
    (latest l).Pairwise fun a b => a.packageName < b.packageName :=
  (foldl_keepNewest_named .empty l).pairwise_values

lemma nodup_latest (hl : (l.map nvr).Nodup) : ((latest l).map nvr).Nodup := by
  have hnodup : (latest l).Nodup := by
    refine (latest_pairwise l).imp fun {a b} hab e => ?_
    rw [e] at hab
    exact String.lt_irrefl _ hab
  refine hnodup.map_on fun a ha b hb => ?_
  exact List.inj_on_of_nodup_map hl (mem_of_mem_latest ha) (mem_of_mem_latest hb)

/-- The packages of the newest builds are those of all builds. -/
lemma mem_packages_latest {package : String} :
    package ∈ (latest l).map packageName ↔ package ∈ l.map packageName := by
  constructor
  · intro h
    obtain ⟨b, hb, rfl⟩ := List.mem_map.mp h
    exact List.mem_map_of_mem (mem_of_mem_latest hb)
  · intro h
    obtain ⟨x, hx, rfl⟩ := List.mem_map.mp h
    have hsome : ((l.foldl keepNewest .empty).find? x.packageName).isSome :=
      isSome_find?_foldl (.inr ⟨x, hx, rfl⟩)
    obtain ⟨b, hb⟩ := Option.isSome_iff_exists.mp hsome
    rw [← foldl_keepNewest_named .empty l _ b hb]
    exact List.mem_map_of_mem (Keyed.mem_values_iff.mpr ⟨_, hb⟩)

/-- A build that does not count as newest is below one that does. -/
lemma mem_latest_or_exists_newer (hl : (l.map nvr).Nodup) (hb : b ∈ l) :
    b ∈ latest l ∨ ∃ e ∈ latest l, e.packageName = b.packageName ∧ compareStrict b e = .lt := by
  obtain ⟨e, he, hpackage⟩ :=
    List.mem_map.mp (mem_packages_latest.mpr (List.mem_map_of_mem (f := packageName) hb))
  obtain ⟨hel, hmax⟩ := (mem_latest_iff hl).mp he
  rcases hbe : compareStrict b e with _ | _ | _
  · exact .inr ⟨e, he, hpackage, hbe⟩
  · rw [← List.inj_on_of_nodup_map hl hel hb (nvr_eq_of_compareStrict hbe).symm]
    exact .inl he
  · have hle := hmax b hb hpackage.symm
    rw [hbe] at hle
    cases hle

lemma newest_congr {l' : List BuildEntry} (h : l'.Perm l) : Newest l' b ↔ Newest l b :=
  forall_congr' fun x => by rw [h.mem_iff]

/-- The newest builds do not depend on the order of the list. -/
lemma latest_eq_of_perm {l' : List BuildEntry} (hl : (l.map nvr).Nodup) (h : l'.Perm l) :
    latest l' = latest l := by
  have hl' : (l'.map nvr).Nodup := (h.map nvr).nodup_iff.mpr hl
  refine Keyed.eq_of_ascending (latest_pairwise l') (latest_pairwise l) fun b => ?_
  rw [mem_latest_iff hl', mem_latest_iff hl, h.mem_iff, newest_congr h]

/-- **The newest build of every package.** Of builds that all have different names, one is kept
for each package, in byte order of the packages. It is one of the package's builds, no other of
them is above it, and in which order the builds were taken into account does not matter. -/
theorem latest_greatest (hl : (l.map nvr).Nodup) :
    ((latest l).Pairwise fun a b =>
      a.packageName.toUTF8.toList < b.packageName.toUTF8.toList) ∧
    (∀ package, package ∈ (latest l).map packageName ↔ package ∈ l.map packageName) ∧
    (∀ b ∈ latest l, b ∈ l ∧
      ∀ x ∈ l, x.packageName = b.packageName → (compareStrict x b).isLE) ∧
    ∀ l', l'.Perm l → latest l' = latest l :=
  ⟨(latest_pairwise l).imp Text.lt_iff_bytes.mp, fun _ => mem_packages_latest,
    fun _ hb => (mem_latest_iff hl).mp hb, fun _ h => latest_eq_of_perm hl h⟩

/-- Two spellings of one version, with another package between them. -/
def spellings : List BuildEntry :=
  [ { nvr := "zlib-1.0-1", packageName := "zlib", version := "1.0", release := "1"
      state := .complete, owner := "", sourceTagId := 1, sourceTagName := "src" },
    { nvr := "bash-5~rc1-1", packageName := "bash", version := "5~rc1", release := "1"
      state := .complete, owner := "", sourceTagId := 1, sourceTagName := "src" },
    { nvr := "zlib-1.00-1", packageName := "zlib", version := "1.00", release := "1"
      state := .complete, owner := "", sourceTagId := 1, sourceTagName := "src" } ]

theorem latest_greatest_spellings :
    (spellings.map nvr).Nodup ∧ "zlib" ∈ (latest spellings).map packageName ∧
      latest spellings.reverse = latest spellings :=
  have hl : (spellings.map nvr).Nodup := by decide
  have ⟨_, hpackages, _, hperm⟩ := latest_greatest hl
  ⟨hl, (hpackages "zlib").mpr (by decide), hperm _ (List.reverse_perm _)⟩

end TagSync.BuildEntry
