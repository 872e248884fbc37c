import Mathlib.Data.List.Basic
import TagSync.Plan
import TagSync.Proofs.Keyed
import TagSync.Proofs.Spelling
import TagSync.Session

/-!
Values of the model and their JSON.

What is written for a value reads back as the value, from its JSON and from the text of that, and
whatever is read can be written and read again. Integers have to fit into the bits they are stored
in, and no integer that does not is ever read. Points of history given by a time are left out, since
doubles that are no numbers are lost.
-/

namespace TagSync

namespace Json

variable {α : Type} {write : α → Json} {read? : Json → Option α} {Fits : α → Prop}

/-- Writing and reading belong together: what fits is read from what is written for it, which is a
value without doubles, and nothing that does not fit is ever read. -/
structure Faithful (write : α → Json) (read? : Json → Option α) (Fits : α → Prop) : Prop where
  exact : ∀ a, Fits a → exact (write a) = true
  read : ∀ a, Fits a → read? (write a) = some a
  fits : ∀ j a, read? j = some a → Fits a

/-- Values read back: from their JSON, from the text of it, and from the JSON of whatever else they
were read from. -/
structure ReadsBack (write : α → Json) (read? : Json → Option α) (Fits : α → Prop) : Prop where
  written : ∀ a, Fits a → read? (write a) = some a
  text : ∀ a, Fits a → (parse? (write a).render).bind read? = some a
  again : ∀ j a, read? j = some a → Fits a ∧ read? (write a) = some a

theorem Faithful.readsBack (h : Faithful write read? Fits) : ReadsBack write read? Fits where
  written := h.read
  text a ha := by rw [parse?_render (h.exact a ha), Option.bind_some, h.read a ha]
  again j a hread := ⟨h.fits j a hread, h.read a (h.fits j a hread)⟩

/-! ### Scalars -/

@[simp] lemma string?_string (s : String) : (Json.string s).string? = some s := rfl

@[simp] lemma bool?_bool (b : Bool) : (Json.bool b).bool? = some b := rfl

@[simp] lemma optionString?_ofOptionString (o : Option String) :
    (ofOptionString o).optionString? = some o := by
  cases o <;> rfl

lemma faithful_signed (bits : Nat) :
    Faithful .int (signed? bits) fun n => fitsSigned bits n = true where
  exact _ _ := rfl
  read n h := by simp [signed?, h]
  fits j n h := by
    cases j with
    | int m =>
      simp only [signed?, Option.ite_none_right_eq_some, Option.some.injEq] at h
      exact h.2 ▸ h.1
    | _ => cases h

lemma int64?_int {n : Int} (h : fitsSigned 64 n = true) : (Json.int n).int64? = some n :=
  (faithful_signed 64).read n h

lemma fits_of_int64? {j : Json} {n : Int} (h : j.int64? = some n) : fitsSigned 64 n = true :=
  (faithful_signed 64).fits j n h

/-- What may be absent can be told from `null`. -/
lemma Faithful.option (h : Faithful write read? Fits) (there : ∀ a, write a ≠ .null) :
    Faithful (ofOption write) (optional? read?) fun o => ∀ a ∈ o, Fits a where
  exact
    | none, _ => rfl
    | some a, ha => h.exact a (ha a rfl)
  read
    | none, _ => rfl
    | some a, ha => by
      unfold optional? ofOption
      split
      · exact absurd ‹_› (there a)
      · rw [h.read a (ha a rfl)]
        rfl
  fits j o ho a ha := by
    unfold optional? at ho
    split at ho
    · cases ho
      cases ha
    · obtain ⟨b, hb, rfl⟩ := Option.map_eq_some_iff.mp ho
      cases ha
      exact h.fits j a hb

/-! ### Lists and maps -/

section

variable {β γ : Type}

lemma mapM_written {f : β → γ} {g : γ → Option β} {l : List β}
    (h : ∀ b ∈ l, g (f b) = some b) : (l.map f).mapM g = some l := by
  induction l with
  | nil => rfl
  | cons b l ih => simp [h b (.head _), ih fun c hc => h c (.tail _ hc)]

lemma exists_of_mem_mapM {f : β → Option γ} {l : List β} {l' : List γ} (h : l.mapM f = some l')
    {c : γ} (hc : c ∈ l') : ∃ b ∈ l, f b = some c := by
  induction l generalizing l' with
  | nil =>
    cases h
    cases hc
  | cons b l ih =>
    simp only [List.mapM_cons, Option.bind_eq_bind, Option.bind_eq_some_iff] at h
    obtain ⟨c', hb, l'', hl, hsome⟩ := h
    cases hsome
    rcases List.mem_cons.mp hc with rfl | hc
    · exact ⟨b, .head _, hb⟩
    · obtain ⟨b', hb', hf⟩ := ih hl hc
      exact ⟨b', .tail _ hb', hf⟩

end

namespace Faithful

lemma list (h : Faithful write read? Fits) :
    Faithful (fun l => .array (l.map write)) (list? read?) fun l => ∀ a ∈ l, Fits a where
  exact l hl := exactElements_iff.mpr (List.forall_mem_map.mpr fun a ha => h.exact a (hl a ha))
  read l hl := mapM_written fun a ha => h.read a (hl a ha)
  fits j l hl a ha := by
    cases j with
    | array elements =>
      obtain ⟨j, -, hj⟩ := exists_of_mem_mapM hl ha
      exact h.fits j a hj
    | _ => cases hl

variable (h : Faithful write read? Fits)

include h

lemma exact_entries {m : Keyed α} (hm : ∀ a ∈ m.values, Fits a) :
    exactFields (m.map write).entries = true :=
  exactFields_iff.mpr (List.forall_mem_map.mpr fun p hp =>
    h.exact p.2 (hm _ (List.mem_map_of_mem hp)))

lemma read_entries {m : Keyed α} (hm : ∀ a ∈ m.values, Fits a) :
    entries? read? (.object (m.map write).entries) = some m.entries :=
  mapM_written (f := fun p : String × α => (p.1, write p.2)) fun p hp => by
    rw [h.read p.2 (hm _ (List.mem_map_of_mem hp))]
    rfl

/-- Of two entries with one key the first one counts. -/
lemma fits_ofList {j : Json} {l : List (String × α)} (hl : j.entries? read? = some l) :
    ∀ a ∈ (Keyed.ofList l).values, Fits a := by
  intro a ha
  cases j with
  | object fields =>
    obtain ⟨key, hkey⟩ := Keyed.mem_values_iff.mp ha
    rw [Keyed.find?_ofList] at hkey
    obtain ⟨p, hp, rfl⟩ := Option.map_eq_some_iff.mp hkey
    obtain ⟨q, -, hq⟩ := exists_of_mem_mapM hl (List.mem_of_find?_eq_some hp)
    obtain ⟨a, hread, rfl⟩ := Option.map_eq_some_iff.mp hq
    exact h.fits q.2 a hread
  | _ => cases hl

end Faithful

lemma ofList_entries (m : Keyed α) : Keyed.ofList m.entries = m :=
  Keyed.ext_find? (Keyed.find?_ofList m.entries)

/-! ### Records -/

lemma lookup_of_mem {fields : List (String × Json)} {name : String} {j : Json}
    (unique : (fields.map Prod.fst).Nodup) (h : (name, j) ∈ fields) :
    fields.lookup name = some j := by
  induction fields with
  | nil => cases h
  | cons p rest ih =>
    obtain ⟨hfirst, hrest⟩ := List.nodup_cons.mp unique
    rcases List.mem_cons.mp h with rfl | h
    · exact List.lookup_cons_self
    · have hne : name ≠ p.1 := fun heq => hfirst (List.mem_map.mpr ⟨_, h, heq⟩)
      rw [List.lookup_cons, beq_eq_false_iff_ne.mpr hne]
      exact ih hrest h

/-- **A record is read from any object that has its fields**, whatever else the object has. -/
theorem fields?_object {layout : Layout} {fields all : List (String × Json)}
    (names : layout.map Prod.fst = fields.map Prod.fst) (within : fields ⊆ all)
    (unique : (all.map Prod.fst).Nodup) :
    fields? layout (.object all) = some (fields.map Prod.snd) := by
  unfold fields?
  induction layout generalizing fields with
  | nil =>
    obtain rfl := List.map_eq_nil_iff.mp names.symm
    rfl
  | cons p layout ih =>
    obtain ⟨⟨name, j⟩, fields, rfl⟩ := List.exists_cons_of_ne_nil (l := fields) (by
      rintro rfl
      cases names)
    obtain ⟨hname, hnames⟩ := List.cons.inj names
    obtain ⟨hj, hrest⟩ := List.cons_subset.mp within
    have hfield : field? all p.1 p.2 = some j := by
      rw [show p.1 = name from hname]
      unfold field?
      rw [lookup_of_mem unique hj]
    simp [hfield, ih hnames hrest]

lemma fields?_record {layout : Layout} {fields : List (String × Json)}
    (names : layout.map Prod.fst = fields.map Prod.fst) (unique : (layout.map Prod.fst).Nodup) :
    fields? layout (.object fields) = some (fields.map Prod.snd) :=
  fields?_object names (List.Subset.refl _) (names ▸ unique)

end Json

open Json

/-! ### Tags -/

lemma TagConfig.exact_jsonFields (c : TagConfig) : exactFields c.jsonFields = true := by
  simp [jsonFields, exactFields, exact, exact_ofOptionString]

/-- Settings are read from among other fields. -/
lemma TagConfig.ofJson?_object {c : TagConfig} {all : List (String × Json)}
    (within : c.jsonFields ⊆ all) (unique : (all.map Prod.fst).Nodup) :
    ofJson? (.object all) = some c := by
  have hfields : fields? layout (.object all) = some (c.jsonFields.map Prod.snd) :=
    fields?_object rfl within unique
  simp [ofJson?, hfields, jsonFields]

lemma TagConfig.faithful : Faithful toJson ofJson? fun _ => True where
  exact c _ := c.exact_jsonFields
  read c _ := ofJson?_object (List.Subset.refl _) (by simp [jsonFields])
  fits _ _ _ := trivial

/-- Its number fits into 64 bits. -/
def TagInfo.Fits (t : TagInfo) : Prop := fitsSigned 64 t.id = true

lemma TagInfo.faithful : Faithful toJson ofJson? Fits where
  exact t _ := by simp [toJson, exact, exactFields, t.config.exact_jsonFields]
  read t ht := by
    let all : List (String × Json) := ("id", .int t.id) :: ("name", .string t.name) ::
      t.config.jsonFields
    have hunique : (all.map Prod.fst).Nodup := by simp [all, TagConfig.jsonFields]
    let own : List (String × Json) := [("id", .int t.id), ("name", .string t.name)]
    have hfields : fields? layout (.object all) = some (own.map Prod.snd) :=
      fields?_object rfl (by simp [own, all]) hunique
    have hconfig : TagConfig.ofJson? (.object all) = some t.config :=
      TagConfig.ofJson?_object (by simp [all]) hunique
    simp only [toJson, ofJson?, show _ :: _ :: t.config.jsonFields = all from rfl]
    simp [hfields, own, hconfig, int64?_int ht]
  fits j t h := by
    unfold ofJson? at h
    split at h
    · simp only [Option.bind_eq_bind, Option.bind_eq_some_iff] at h
      obtain ⟨l, -, h⟩ := h
      split at h
      · simp only [Option.bind_eq_some_iff] at h
        obtain ⟨id, hid, name, -, config, -, hsome⟩ := h
        cases hsome
        exact fits_of_int64? hid
      · cases h
    · cases h

def TagRef.Fits : TagRef → Prop
  | .byId id => fitsSigned 64 id = true
  | .byName _ => True

lemma TagRef.faithful : Faithful toJson ofJson? Fits where
  exact t _ := by cases t <;> rfl
  read t ht := by
    cases t with
    | byId id => simp [toJson, ofJson?, int64?_int ht]
    | byName name => rfl
  fits j t h := by
    unfold ofJson? at h
    split at h
    · obtain ⟨id, hid, rfl⟩ := Option.map_eq_some_iff.mp h
      exact fits_of_int64? hid
    · obtain ⟨name, -, rfl⟩ := Option.map_eq_some_iff.mp h
      trivial
    · cases h

/-! ### Entries of a tag -/

@[simp] lemma Ownership.ofJson?_toJson (o : Ownership) : ofJson? o.toJson = some o := by
  cases o <;> rfl

@[simp] lemma BuildState.ofJson?_toJson (s : BuildState) : ofJson? s.toJson = some s := by
  cases s <;> rfl

/-- The number of the tag that it is stored on fits into 64 bits. -/
def PackageEntry.Fits (p : PackageEntry) : Prop := fitsSigned 64 p.sourceTagId = true

lemma PackageEntry.faithful : Faithful toJson ofJson? Fits where
  exact p _ := by simp [toJson, exact, exactFields, exact_ofOptionString, Ownership.toJson]
  read p hp := by
    have hfields : p.toJson.fields? layout = _ := fields?_record rfl (by decide)
    simp [ofJson?, hfields, int64?_int hp]
  fits j p h := by
    simp only [ofJson?, Option.bind_eq_bind, Option.bind_eq_some_iff] at h
    obtain ⟨l, -, h⟩ := h
    split at h
    · simp only [Option.bind_eq_some_iff] at h
      obtain ⟨_, -, _, -, _, -, _, -, id, hid, _, -, _, -, hsome⟩ := h
      cases hsome
      exact fits_of_int64? hid
    · cases h

def BuildEntry.Fits (b : BuildEntry) : Prop := fitsSigned 64 b.sourceTagId = true

lemma BuildEntry.faithful : Faithful toJson ofJson? Fits where
  exact b _ := by simp [toJson, exact, exactFields, BuildState.toJson, Ownership.toJson]
  read b hb := by
    have hfields : b.toJson.fields? layout = _ := fields?_record rfl (by decide)
    simp [ofJson?, hfields, int64?_int hb]
  fits j b h := by
    simp only [ofJson?, Option.bind_eq_bind, Option.bind_eq_some_iff] at h
    obtain ⟨l, -, h⟩ := h
    split at h
    · simp only [Option.bind_eq_some_iff] at h
      obtain ⟨_, -, _, -, _, -, _, -, _, -, _, -, id, hid, _, -, _, -, hsome⟩ := h
      cases hsome
      exact fits_of_int64? hid
    · cases h

def GroupMember.Fits (m : GroupMember) : Prop := fitsSigned 64 m.sourceTagId = true

lemma GroupMember.faithful : Faithful toJson ofJson? Fits where
  exact m _ := by simp [toJson, exact, exactFields, Ownership.toJson]
  read m hm := by
    have hfields : m.toJson.fields? layout = _ := fields?_record rfl (by decide)
    simp [ofJson?, hfields, int64?_int hm]
  fits j m h := by
    simp only [ofJson?, Option.bind_eq_bind, Option.bind_eq_some_iff] at h
    obtain ⟨l, -, h⟩ := h
    split at h
    · simp only [Option.bind_eq_some_iff] at h
      obtain ⟨_, -, id, hid, _, -, hsome⟩ := h
      cases hsome
      exact fits_of_int64? hid
    · cases h

/-- The numbers of the group and of its members fit. -/
structure GroupEntry.Fits (g : GroupEntry) : Prop where
  sourceTagId : fitsSigned 64 g.sourceTagId = true
  members : ∀ m ∈ g.members.values, m.Fits

lemma GroupEntry.faithful : Faithful toJson ofJson? Fits where
  exact g hg := by
    have hmembers := GroupMember.faithful.exact_entries hg.members
    simp [toJson, exact, exactFields, Ownership.toJson, hmembers]
  read g hg := by
    have hfields : g.toJson.fields? layout = _ := fields?_record rfl (by decide)
    have hmembers := GroupMember.faithful.read_entries hg.members
    simp [ofJson?, hfields, int64?_int hg.sourceTagId, hmembers, ofList_entries]
  fits j g h := by
    simp only [ofJson?, Option.bind_eq_bind, Option.bind_eq_some_iff] at h
    obtain ⟨l, -, h⟩ := h
    split at h
    · simp only [Option.bind_eq_some_iff] at h
      obtain ⟨_, -, _, -, id, hid, _, -, members, hmembers, hsome⟩ := h
      cases hsome
      exact ⟨fits_of_int64? hid, GroupMember.faithful.fits_ofList hmembers⟩
    · cases h

/-! ### Snapshots -/

/-- All numbers in it fit. -/
structure Snapshot.Fits (s : Snapshot) : Prop where
  tag : s.tag.Fits
  event : ∀ e ∈ s.event, fitsSigned 64 e = true
  packages : ∀ p ∈ s.packages.values, p.Fits
  builds : ∀ b ∈ s.builds.values, b.Fits
  groups : ∀ g ∈ s.groups.values, g.Fits

lemma Snapshot.faithful : Faithful toJson ofJson? Fits where
  exact s hs := by
    have htag := TagInfo.faithful.exact s.tag hs.tag
    have hevent := ((faithful_signed 64).option nofun).exact s.event hs.event
    have hpackages := PackageEntry.faithful.exact_entries hs.packages
    have hbuilds := BuildEntry.faithful.exact_entries hs.builds
    have hgroups := GroupEntry.faithful.exact_entries hs.groups
    simp [toJson, exact, exactFields, htag, hevent, hpackages, hbuilds, hgroups]
  read s hs := by
    have hfields : s.toJson.fields? layout = _ := fields?_record rfl (by decide)
    have htag := TagInfo.faithful.read s.tag hs.tag
    have hevent : (ofOption .int s.event).optional? int64? = some s.event :=
      ((faithful_signed 64).option nofun).read s.event hs.event
    have hpackages := PackageEntry.faithful.read_entries hs.packages
    have hbuilds := BuildEntry.faithful.read_entries hs.builds
    have hgroups := GroupEntry.faithful.read_entries hs.groups
    simp [ofJson?, hfields, htag, hevent, hpackages, hbuilds, hgroups, ofList_entries]
  fits j s h := by
    simp only [ofJson?, Option.bind_eq_bind, Option.bind_eq_some_iff] at h
    obtain ⟨l, -, h⟩ := h
    split at h
    · simp only [Option.bind_eq_some_iff] at h
      obtain ⟨tag, htag, event, hevent, packages, hpackages, builds, hbuilds, groups, hgroups,
        hsome⟩ := h
      cases hsome
      exact ⟨TagInfo.faithful.fits _ tag htag,
        ((faithful_signed 64).option nofun).fits _ event hevent,
        PackageEntry.faithful.fits_ofList hpackages, BuildEntry.faithful.fits_ofList hbuilds,
        GroupEntry.faithful.fits_ofList hgroups⟩
    · cases h

/-! ### Calls and plans -/

/-- The keyword of a call tells how its fields are read. -/
lemma Operation.faithful : Faithful toJson ofJson? fun _ => True where
  exact o _ := by
    cases o <;> simp [toJson, jsonFields, exact, exactFields, exact_ofOptionString]
  read o _ := by
    cases o <;>
      simp [toJson, ofJson?, ofFields?, keyword, jsonFields, addPackageLayout, fields?, field?,
        List.lookup_cons]
  fits _ _ _ := trivial

lemma Plan.faithful : Faithful toJson ofJson? fun _ => True where
  exact p _ := by
    have hlist (l : List Operation) : exactElements (l.map Operation.toJson) = true :=
      Operation.faithful.list.exact l fun _ _ => trivial
    have hconfig := (TagConfig.faithful.option nofun).exact p.config fun _ _ => trivial
    simp [toJson, exact, exactFields, hlist, hconfig]
  read p _ := by
    have hfields : p.toJson.fields? layout = _ := fields?_record rfl (by decide)
    have hlist := fun l => Operation.faithful.list.read l fun _ _ => trivial
    have hconfig := (TagConfig.faithful.option nofun).read p.config fun _ _ => trivial
    simp [ofJson?, hfields, hlist, hconfig]
  fits _ _ _ := trivial

lemma ClassSelection.faithful : Faithful toJson ofJson? fun _ => True where
  exact _ _ := rfl
  read s _ := by
    have hfields : s.toJson.fields? layout = _ := fields?_record rfl (by decide)
    simp [ofJson?, hfields]
  fits _ _ _ := trivial

lemma DiffOptions.faithful : Faithful toJson ofJson? fun _ => True where
  exact _ _ := rfl
  read o _ := by
    have hfields : o.toJson.fields? layout = _ := fields?_record rfl (by decide)
    simp [ofJson?, hfields]
  fits _ _ _ := trivial

lemma CallFlags.faithful : Faithful toJson ofJson? fun _ => True where
  exact _ _ := rfl
  read f _ := by
    have hfields : f.toJson.fields? layout = _ := fields?_record rfl (by decide)
    simp [ofJson?, hfields]
  fits _ _ _ := trivial

/-- Its code fits into 32 bits. -/
def RemoteFault.Fits (f : RemoteFault) : Prop := fitsSigned 32 f.code = true

lemma RemoteFault.faithful : Faithful toJson ofJson? Fits where
  exact _ _ := rfl
  read f hf := by
    have hfields : f.toJson.fields? layout = _ := fields?_record rfl (by decide)
    have hcode : (Json.int f.code).int32? = some f.code := (faithful_signed 32).read _ hf
    simp [ofJson?, hfields, hcode]
  fits j f h := by
    simp only [ofJson?, Option.bind_eq_bind, Option.bind_eq_some_iff] at h
    obtain ⟨l, -, h⟩ := h
    split at h
    · simp only [Option.bind_eq_some_iff] at h
      obtain ⟨code, hcode, _, -, hsome⟩ := h
      cases hsome
      exact (faithful_signed 32).fits _ code hcode
    · cases h

/-! ### Points of history -/

namespace AsOf

/-- A point given by the number of an event or of a repository. -/
def isNumbered : AsOf → Bool
  | .timestamp _ => false
  | _ => true

/-- It is given by a number that fits. -/
def Fits : AsOf → Prop
  | .event id | .repo id => fitsSigned 64 id = true
  | .timestamp _ => False

def numbered? (j : Json) : Option AsOf := (ofJson? j).filter isNumbered

lemma faithful : Faithful toJson numbered? Fits where
  exact a ha := by
    cases a with
    | timestamp => cases ha
    | _ => rfl
  read a ha := by
    cases a with
    | timestamp => cases ha
    | _ => simp [toJson, numbered?, ofJson?, int64?_int ha, isNumbered]
  fits j a h := by
    obtain ⟨hread, hnumbered⟩ := Option.filter_eq_some_iff.mp h
    unfold ofJson? at hread
    split at hread
    · obtain ⟨id, hid, rfl⟩ := Option.map_eq_some_iff.mp hread
      exact fits_of_int64? hid
    · obtain ⟨seconds, -, rfl⟩ := Option.map_eq_some_iff.mp hread
      cases hnumbered
    · obtain ⟨id, hid, rfl⟩ := Option.map_eq_some_iff.mp hread
      exact fits_of_int64? hid
    · cases hread

end AsOf

/-- **Values of the model read back from their JSON**, and from the text of it; what was read from
any JSON is read again from its own. Only the numbers have to fit, as they do in all that is
read. -/
theorem model_readsBack :
    ReadsBack TagConfig.toJson TagConfig.ofJson? (fun _ => True) ∧
    ReadsBack TagInfo.toJson TagInfo.ofJson? TagInfo.Fits ∧
    ReadsBack PackageEntry.toJson PackageEntry.ofJson? PackageEntry.Fits ∧
    ReadsBack BuildEntry.toJson BuildEntry.ofJson? BuildEntry.Fits ∧
    ReadsBack GroupMember.toJson GroupMember.ofJson? GroupMember.Fits ∧
    ReadsBack GroupEntry.toJson GroupEntry.ofJson? GroupEntry.Fits ∧
    ReadsBack Snapshot.toJson Snapshot.ofJson? Snapshot.Fits ∧
    ReadsBack Operation.toJson Operation.ofJson? (fun _ => True) ∧
    ReadsBack Plan.toJson Plan.ofJson? (fun _ => True) ∧
    ReadsBack ClassSelection.toJson ClassSelection.ofJson? (fun _ => True) ∧
    ReadsBack DiffOptions.toJson DiffOptions.ofJson? (fun _ => True) ∧
    ReadsBack CallFlags.toJson CallFlags.ofJson? (fun _ => True) ∧
    ReadsBack RemoteFault.toJson RemoteFault.ofJson? RemoteFault.Fits ∧
    ReadsBack TagRef.toJson TagRef.ofJson? TagRef.Fits ∧
    ReadsBack AsOf.toJson AsOf.numbered? AsOf.Fits :=
  ⟨TagConfig.faithful.readsBack, TagInfo.faithful.readsBack, PackageEntry.faithful.readsBack,
    BuildEntry.faithful.readsBack, GroupMember.faithful.readsBack, GroupEntry.faithful.readsBack,
    Snapshot.faithful.readsBack, Operation.faithful.readsBack, Plan.faithful.readsBack,
    ClassSelection.faithful.readsBack, DiffOptions.faithful.readsBack,
    CallFlags.faithful.readsBack, RemoteFault.faithful.readsBack, TagRef.faithful.readsBack,
    AsOf.faithful.readsBack⟩

end TagSync
