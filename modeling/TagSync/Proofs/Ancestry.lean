import TagSync.Proofs.Readback

/-!
The walk over the inheritance.

Tags may inherit from each other in circles, and from one tag on several ways. The chain of a tag
is nevertheless what a visit in depth lists that knows at every moment which tags are listed
already: it ends, it finds all that the tag inherits from, and it lists nothing twice.
-/

namespace TagSync

namespace Tables

variable {c : Clock} {t t' : Tables} {id : TagId} {row : TagRow}

/-- A tag inherits from another one, with none between them. -/
def IsParent (t : Tables) (id parent : TagId) : Prop :=
  ∃ r ∈ t.inheritance, r.tag = id ∧ r.parent = parent

/-- All parents of a tag by priority, those of one priority by number. -/
def InOrder (t : Tables) (id : TagId) (parents : List TagId) : Prop :=
  ∃ rows : List InheritanceRow, rows.Perm (t.inheritance.filter (·.tag = id)) ∧
    rows.Pairwise (fun a b =>
      a.priority < b.priority ∨ a.priority = b.priority ∧ a.parent < b.parent) ∧
    parents = rows.map InheritanceRow.parent

/-- A visit in depth: with the tags `listed` behind it, the visit of some tags, one after the
other, lists `out`. A tag that is listed already is passed over. Any other one is listed itself,
and then what the visit of its parents lists; only after that comes the next tag, which knows of
all tags that were listed meanwhile. At a tag that does not exist there is no way on. -/
inductive Visits (t : Tables) : List TagId → List TagId → List TagRow → Prop where
  | done {listed : List TagId} : Visits t listed [] []
  | pass {listed rest : List TagId} {id : TagId} {out : List TagRow} (old : id ∈ listed)
      (next : Visits t listed rest out) : Visits t listed (id :: rest) out
  | list {listed rest parents : List TagId} {id : TagId} {row : TagRow} {above out : List TagRow}
      (new : id ∉ listed) (found : t.tag? id = some row) (inOrder : t.InOrder id parents)
      (up : Visits t (listed ++ [id]) parents above)
      (next : Visits t (listed ++ [id] ++ above.map TagRow.id) rest out) :
    Visits t listed (id :: rest) (row :: (above ++ out))

/-! ### Parents -/

/-- Inheritance is between tags that exist, and no tag has a parent twice. -/
structure Akin (t : Tables) : Prop where
  parents : ∀ r ∈ t.inheritance, r.parent ∈ t.tags.map TagRow.id
  distinct : (t.inheritance.map fun r => (r.tag, r.parent)).Nodup

namespace Akin

lemma empty : Tables.empty.Akin := ⟨nofun, .nil⟩

/-- More tags do no harm. -/
lemma mono (h : t.Akin) (inheritance : t'.inheritance = t.inheritance)
    (tags : t.tags.map TagRow.id ⊆ t'.tags.map TagRow.id) : t'.Akin := by
  refine ⟨fun r hr => ?_, ?_⟩
  · rw [inheritance] at hr
    exact tags (h.parents r hr)
  · rw [inheritance]
    exact h.distinct

lemma congr (h : t.Akin) (inheritance : t'.inheritance = t.inheritance)
    (tags : t'.tags = t.tags) : t'.Akin :=
  h.mono inheritance (by rw [tags]; exact fun _ hx => hx)

lemma addTag (h : t.Akin) (name : String) (config : TagConfig) (event : EventId) :
    (t.addTag name config event).1.Akin := by
  refine h.mono rfl fun x hx => ?_
  rw [Tables.addTag, List.map_append]
  exact List.mem_append_left _ hx

lemma confined (h : t.Akin) {d : TagId} (e : Confined c d t t') : t'.Akin :=
  h.mono e.inheritance (by rw [e.map_id_tags]; exact fun _ hx => hx)

end Akin

/-- An import gives a tag a parent that exists, and that it did not have. -/
lemma Akin.importParent {tag : TagId} {p : SeedParent} (h : t.Akin)
    (imported : t.importParent tag p = .ok t') : t'.Akin := by
  unfold Tables.importParent at imported
  split at imported
  · cases imported
  rename_i parent hparent
  split at imported
  · cases imported
  rename_i hnew
  cases imported
  refine ⟨fun r hr => ?_, ?_⟩
  · rcases List.mem_append.mp hr with hr | hr
    · exact h.parents r hr
    · rw [List.mem_singleton.mp hr]
      exact List.mem_map_of_mem (List.mem_of_find?_eq_some hparent)
  · rw [List.map_append, List.nodup_append]
    refine ⟨h.distinct, List.nodup_singleton _, fun a ha b hb heq => hnew ?_⟩
    obtain ⟨r, hr, rfl⟩ := List.mem_map.mp ha
    rw [List.map_singleton, List.mem_singleton] at hb
    rw [hb, Prod.mk.injEq] at heq
    exact List.any_eq_true.mpr ⟨r, hr, by simp [heq.1, heq.2]⟩

lemma Akin.importContent {event : EventId} {s : SeedTag} (h : t.Akin)
    (imported : t.importContent event s = .ok t') : t'.Akin := by
  obtain ⟨row, t₁, t₂, -, hparents, htaggings, rfl⟩ := importContent_eq_ok imported
  have h₁ : t₁.Akin := foldlM_keeps hparents h fun _ _ _ _ ht₀ hp => ht₀.importParent hp
  have hpackages : (s.packages.foldl (importPackage event row.id) t₁).Akin :=
    foldl_keeps h₁ fun _ _ ht₀ => ht₀.congr rfl rfl
  have h₂ : t₂.Akin := foldlM_keeps htaggings hpackages fun _ _ _ _ ht₀ hn => by
    obtain ⟨_, _, -, rfl⟩ := importTagging_eq_ok hn
    exact ht₀.congr rfl rfl
  exact foldl_keeps h₂ fun _ _ ht₀ => ht₀.congr rfl rfl

lemma Akin.grant (h : t.Akin) (user : Int) (perm : String) : (t.grant user perm).Akin := by
  unfold Tables.grant
  split
  · exact h
  · exact h.congr rfl rfl

lemma Akin.importUser (h : t.Akin) (u : SeedUser) : (t.importUser u).Akin := by
  refine foldl_keeps ?_ fun t₀ perm ht₀ => ht₀.grant ..
  split <;> exact h.congr rfl rfl

lemma Akin.importSeed {s : Seed} {summary : ImportSummary} (h : t.Akin)
    (imported : t.importSeed c s = .ok (t', summary)) : t'.Akin := by
  obtain ⟨t₁, t₂, hbuilds, htags, hcontent⟩ := importSeed_eq_ok imported
  have husers : (s.users.foldl Tables.importUser (t.newEvent c).1).Akin :=
    foldl_keeps (h.congr rfl rfl) fun _ u ht₀ => ht₀.importUser u
  have h₁ : t₁.Akin := foldlM_keeps hbuilds husers fun _ _ _ _ ht₀ hb => by
    obtain ⟨-, _, -, rfl⟩ := importBuild_eq_ok hb
    exact ht₀.congr rfl rfl
  have h₂ : t₂.Akin := foldlM_keeps htags h₁ fun s _ _ _ ht₀ hs => by
    obtain ⟨-, rfl⟩ := importTag_eq_ok hs
    exact ht₀.addTag s.name s.config _
  exact foldlM_keeps hcontent h₂ fun _ _ _ _ ht₀ hs => ht₀.importContent hs

/-- Every step of a hub keeps tags akin. -/
lemma Step.akin (h : Step c t t') (ht : t.Akin) : t'.Akin := by
  have hevent : (t.newEvent c).1.Akin := ht.congr rfl rfl
  cases h with
  | call found accepted => exact ht.confined (confined_of_call accepted)
  | createTag config new => exact hevent.addTag ..
  | editTag config found =>
    exact ht.confined ((Confined.setConfig c _ t config).trans (.newEvent ..))
  | newRepo found => exact hevent.congr rfl rfl
  | importSeed checked imported => exact ht.importSeed imported

/-- The parents of the walk come in order. -/
lemma Akin.inOrder (h : t.Akin) (id : TagId) : t.InOrder id (t.parents id) :=
  ⟨_, perm_sort _ _, InheritanceRow.pairwise_sorted (nodup_map_filter h.distinct id), rfl⟩

/-- There is one order of the parents. -/
lemma InOrder.unique {l l' : List TagId} (h : t.InOrder id l) (h' : t.InOrder id l') : l = l' := by
  obtain ⟨rows, hperm, hsorted, rfl⟩ := h
  obtain ⟨rows', hperm', hsorted', rfl⟩ := h'
  congr 1
  refine List.Perm.eq_of_pairwise (fun a b _ _ hab hba => ?_) hsorted hsorted'
    (hperm.trans hperm'.symm)
  grind

lemma mem_parents {parent : TagId} : parent ∈ t.parents id ↔ t.IsParent id parent := by
  simp [parents, IsParent, and_assoc]

/-! ### Visits -/

namespace Visits

variable {listed listed' todo : List TagId} {out out' : List TagRow}

/-- Of the tags listed before only the members matter. -/
lemma congr (h : t.Visits listed todo out) (hsame : ∀ x, x ∈ listed ↔ x ∈ listed') :
    t.Visits listed' todo out := by
  induction h generalizing listed' with
  | done => exact .done
  | pass old _ ih => exact .pass ((hsame _).mp old) (ih hsame)
  | list new found inOrder _ _ ihup ihnext =>
    refine .list (fun hx => new ((hsame _).mpr hx)) found inOrder (ihup fun x => ?_)
      (ihnext fun x => ?_)
    · simp only [List.mem_append, hsame]
    · simp only [List.mem_append, hsame]

/-- A visit of some tags and then of others is two visits, the second one with the tags of the
first behind it. -/
lemma split {first second : List TagId} (h : t.Visits listed (first ++ second) out) :
    ∃ out₁ out₂, out = out₁ ++ out₂ ∧ t.Visits listed first out₁ ∧
      t.Visits (listed ++ out₁.map TagRow.id) second out₂ := by
  induction first generalizing listed out with
  | nil => exact ⟨[], out, rfl, .done, by simpa using h⟩
  | cons id rest ih =>
    cases h with
    | pass old next =>
      obtain ⟨out₁, out₂, rfl, h₁, h₂⟩ := ih next
      exact ⟨out₁, out₂, rfl, .pass old h₁, h₂⟩
    | @list _ _ parents _ row above out new found inOrder up next =>
      obtain ⟨out₁, out₂, rfl, h₁, h₂⟩ := ih next
      refine ⟨row :: (above ++ out₁), out₂, by simp, .list new found inOrder up h₁, ?_⟩
      have hid := id_of_tag? found
      simpa [hid] using h₂

/-- A visit has one outcome. -/
lemma unique (h : t.Visits listed todo out) (h' : t.Visits listed todo out') : out = out' := by
  induction h generalizing out' with
  | done =>
    cases h'
    rfl
  | pass old _ ih =>
    cases h' with
    | pass _ next => exact ih next
    | list new => exact absurd old new
  | list new found inOrder _ _ ihup ihnext =>
    cases h' with
    | pass old => exact absurd old new
    | list _ found' inOrder' up' next' =>
      obtain rfl := inOrder.unique inOrder'
      obtain rfl := ihup up'
      obtain rfl := ihnext next'
      rw [found] at found'
      cases found'
      rfl

end Visits

/-- The walk keeps its tags on one list, and visits them in depth all the same. -/
lemma Akin.visits_walk (h : t.Akin) {todo seen : List TagId}
    (there : ∀ x ∈ todo, (t.tag? x).isSome) :
    t.Visits seen todo ((t.walk todo seen).filterMap t.tag?) := by
  fun_induction t.walk todo seen with
  | case1 => exact .done
  | case2 seen id todo hseen ih => exact .pass hseen (ih fun x hx => there x (.tail _ hx))
  | case3 seen id todo hseen ih =>
    obtain ⟨row, hrow⟩ := Option.isSome_iff_exists.mp (there id (.head _))
    have hboth := ih fun x hx => by
      rcases List.mem_append.mp hx with hx | hx
      · obtain ⟨r, hr, -, rfl⟩ := mem_parents.mp hx
        rw [tag?, List.find?_isSome]
        obtain ⟨row, hmem, hid⟩ := List.mem_map.mp (h.parents r hr)
        exact ⟨row, hmem, decide_eq_true hid⟩
      · exact there x (.tail _ hx)
    obtain ⟨above, rest, hout, hup, hnext⟩ := hboth.split
    rw [List.filterMap_cons_some hrow, hout]
    refine .list hseen hrow (h.inOrder id) (hup.congr fun x => ?_) (hnext.congr fun x => ?_)
    · simp [or_comm]
    · simp [or_left_comm]

/-! ### What the walk finds -/

lemma nodup_walk (t : Tables) (todo seen : List TagId) : (t.walk todo seen).Nodup := by
  fun_induction t.walk todo seen with
  | case1 => exact .nil
  | case2 seen id todo hseen ih => exact ih
  | case3 seen id todo hseen ih =>
    exact List.nodup_cons.mpr ⟨fun hx => not_mem_seen_of_mem_walk hx (.head _), ih⟩

/-- Whatever was to be visited is listed in the end. -/
lemma mem_walk_of_mem_todo {todo seen : List TagId} {x : TagId} (h : x ∈ todo) :
    x ∈ seen ∨ x ∈ t.walk todo seen := by
  fun_induction t.walk todo seen with
  | case1 => cases h
  | case2 seen id todo hseen ih =>
    rcases List.mem_cons.mp h with rfl | h
    · exact .inl hseen
    · exact ih h
  | case3 seen id todo hseen ih =>
    rcases List.mem_cons.mp h with rfl | h
    · exact .inr (.head _)
    · rcases ih (List.mem_append_right _ h) with hx | hx
      · rcases List.mem_cons.mp hx with rfl | hx
        · exact .inr (.head _)
        · exact .inl hx
      · exact .inr (.tail _ hx)

/-- No parent of a listed tag is lost, whoever of its heirs was visited first. -/
lemma parent_mem_walk {todo seen : List TagId} {x parent : TagId} (h : x ∈ t.walk todo seen)
    (hparent : t.IsParent x parent) : parent ∈ seen ∨ parent ∈ t.walk todo seen := by
  fun_induction t.walk todo seen with
  | case1 => cases h
  | case2 seen id todo hseen ih => exact ih h
  | case3 seen id todo hseen ih =>
    have hlisted : parent ∈ id :: seen ∨ parent ∈ t.walk (t.parents id ++ todo) (id :: seen) := by
      rcases List.mem_cons.mp h with rfl | h
      · exact mem_walk_of_mem_todo (List.mem_append_left _ (mem_parents.mpr hparent))
      · exact ih h
    rcases hlisted with hx | hx
    · rcases List.mem_cons.mp hx with rfl | hx
      · exact .inr (.head _)
      · exact .inl hx
    · exact .inr (.tail _ hx)

/-- Nothing is listed that nobody inherits from. -/
lemma exists_heir_of_mem_walk {todo seen : List TagId} {x : TagId} (h : x ∈ t.walk todo seen) :
    ∃ heir ∈ todo, Relation.ReflTransGen t.IsParent heir x := by
  fun_induction t.walk todo seen with
  | case1 => cases h
  | case2 seen id todo hseen ih =>
    obtain ⟨heir, hheir, hreach⟩ := ih h
    exact ⟨heir, .tail _ hheir, hreach⟩
  | case3 seen id todo hseen ih =>
    rcases List.mem_cons.mp h with rfl | h
    · exact ⟨x, .head _, .refl⟩
    · obtain ⟨heir, hheir, hreach⟩ := ih h
      rcases List.mem_append.mp hheir with hheir | hheir
      · exact ⟨id, .head _, .head (mem_parents.mp hheir) hreach⟩
      · exact ⟨heir, .tail _ hheir, hreach⟩

/-- **The walk finds what a tag inherits from**, over any number of steps. -/
theorem mem_walk_iff {x : TagId} :
    x ∈ t.walk [id] [] ↔ Relation.ReflTransGen t.IsParent id x := by
  constructor
  · intro h
    obtain ⟨heir, hheir, hreach⟩ := exists_heir_of_mem_walk h
    rwa [List.mem_singleton.mp hheir] at hreach
  · intro h
    induction h with
    | refl => exact (mem_walk_of_mem_todo (.head _)).resolve_left List.not_mem_nil
    | tail _ hparent ih => exact (parent_mem_walk ih hparent).resolve_left List.not_mem_nil

/-- Every tag of the walk exists, so none is lost when the rows are looked up. -/
lemma Akin.map_id_chain (h : t.Akin) (hrow : t.tag? id = some row) :
    (t.chain id).map TagRow.id = t.walk [id] [] := by
  rw [chain, List.map_filterMap]
  have hid : ∀ x ∈ t.walk [id] [], (t.tag? x).map TagRow.id = some x := by
    intro x hx
    obtain ⟨r, hr⟩ : ∃ r, t.tag? x = some r := by
      rcases mem_todo_or_parent_of_mem_walk hx with hx | ⟨r, hr, rfl⟩
      · rw [List.mem_singleton.mp hx]
        exact ⟨row, hrow⟩
      · obtain ⟨r', hr', hid⟩ := List.mem_map.mp (h.parents r hr)
        rw [← Option.isSome_iff_exists, tag?, List.find?_isSome]
        exact ⟨r', hr', decide_eq_true hid⟩
    rw [hr, Option.map_some, id_of_tag? hr]
  rw [List.filterMap_congr hid, List.filterMap_some]

end Tables

namespace Hub

variable {h : Hub} {id : TagId} {row : TagRow}

lemma Reachable.akin (hr : h.Reachable) : h.tables.Akin :=
  (hr.holds .empty fun _ _ ht hstep => hstep.akin ht).1

/-- **The chain of a tag is the visit in depth of all that it inherits from**, on every hub: that
visit ends without meeting a tag that is missing, and has no other outcome. It begins with the
tag, lists no tag twice, and lists those that can be reached from parent to parent. -/
theorem chain_visited (hr : h.Reachable) (hrow : h.tables.tag? id = some row) :
    (∀ out, h.tables.Visits [] [id] out ↔ out = h.tables.chain id) ∧
      (h.tables.chain id).head? = some row ∧
      ((h.tables.chain id).map TagRow.id).Nodup ∧
      (∀ x, x ∈ (h.tables.chain id).map TagRow.id ↔
        Relation.ReflTransGen h.tables.IsParent id x) ∧
      ∀ r ∈ h.tables.chain id, h.tables.tag? r.id = some r := by
  have hids := hr.akin.map_id_chain hrow
  have hvisits : h.tables.Visits [] [id] (h.tables.chain id) :=
    hr.akin.visits_walk fun x hx => by
      rw [List.mem_singleton.mp hx, hrow]
      rfl
  refine ⟨fun out => ⟨fun hout => hout.unique hvisits, fun hout => hout ▸ hvisits⟩, ?_, ?_,
    fun x => ?_, fun r hmem => ?_⟩
  · rw [Tables.chain_eq hrow, List.head?_cons]
  · rw [hids]
    exact Tables.nodup_walk _ _ _
  · rw [hids]
    exact Tables.mem_walk_iff
  · obtain ⟨x, -, hx⟩ := List.mem_filterMap.mp hmem
    rwa [Tables.id_of_tag? hx]

/-! ### A circle with a shortcut -/

/-- The tag `a` inherits from `d` by way of `b` and by way of `c`, which comes first, and `d`
inherits from `a`. -/
def encircled : Seed :=
  { schemaVersion := 0
    tags := [
      { name := "a", parents := [{ name := "b", priority := 1 }, { name := "c" }] },
      { name := "b", parents := [{ name := "d" }, { name := "c", priority := -1 }] },
      { name := "c", parents := [{ name := "d" }] },
      { name := "d", parents := [{ name := "a" }] }] }

def encircledHub : Hub := (({ user := "u" } : Hub).importSeed encircled).2

theorem chain_visited_encircled :
    (encircledHub.tables.chain 1).map TagRow.name = ["a", "c", "d", "b"] ∧
      (∀ out, encircledHub.tables.Visits [] [1] out ↔ out = encircledHub.tables.chain 1) ∧
      ((encircledHub.tables.chain 1).map TagRow.id).Nodup ∧
      Relation.ReflTransGen encircledHub.tables.IsParent 1 4 := by
  have checked : encircled.check .empty = .ok () := rfl
  have hr : encircledHub.Reachable := .importSeed checked (.start "u" _)
  have hparents : encircledHub.tables.parents 1 = [3, 2] ∧
      encircledHub.tables.parents 2 = [3, 4] ∧ encircledHub.tables.parents 3 = [4] ∧
      encircledHub.tables.parents 4 = [1] := by decide +kernel
  have hwalk : encircledHub.tables.walk [1] [] = [1, 3, 4, 2] := by
    simp [Tables.walk, hparents]
  have hrow : (encircledHub.tables.tag? 1).map TagRow.name = some "a" := by decide +kernel
  obtain ⟨row, hrow, -⟩ := Option.map_eq_some_iff.mp hrow
  obtain ⟨hvisits, -, hnodup, hreach, -⟩ := chain_visited hr hrow
  refine ⟨?_, hvisits, hnodup, (hreach 4).mp ?_⟩
  · rw [Tables.chain, hwalk]
    decide +kernel
  · rw [hr.akin.map_id_chain hrow, hwalk]
    decide

end Hub

end TagSync
