import StorageNode.Config
import StorageNode.Proofs.Utf8
import StorageNode.Proofs.Yaml.Reading

/-!
# What a configuration says

Every entry of a configuration is a `Field`: the roots of the volumes, what goes into the log, or another
one, of which nothing is read but its key (`Says`). Reading takes the fields one after another into a
draft (`Draft.Gains`), so that what is read is told by the fields alone: the roots exactly once, and what
goes into the log at most once (`Declares`).

`Config.WrittenIn` puts this together with the document: it is a mapping, and aliases are not followed too
often. The other entries may hold anything, nested as deep as it likes. What is read from bytes is a
configuration that is written in them, and every such one is read (`read_eq_ok_iff`).
-/

namespace StorageNode

open Yaml (Document Node Read Costs)

/-! ## Data of the fields -/

/-- Nothing is written, or a null. -/
inductive Yaml.Node.IsNull : Node → Prop
  | plain {anchor : Option Nat} {s : String} (hs : s = "" ∨ Yaml.isNullWord s = true) :
      IsNull (.scalar anchor none .plain s)
  | tagged {anchor : Option Nat} {s : String} (hs : Yaml.isNullWord s = true) :
      IsNull (.scalar anchor (some (Yaml.coreTag "null")) .plain s)

namespace Config

/-- The node is a sequence of texts, each of them a path. -/
def Paths (d : Document) (n : Node) (ps : List FilePath) (c : Nat) : Prop :=
  ∃ ns texts c₁ c₂, d.At Node.HasItems n ns c₁ ∧ Costs (d.At Node.HasText) ns texts c₂ ∧
    ps = texts.map FilePath.mk ∧ c = c₁ + c₂

/-- The node that is meant is nothing, or a text. A plain one with the tag of null is no text. -/
inductive Text? (d : Document) : Node → Option String → Nat → Prop
  | none {m : Node} (h : m.IsNull) : Text? d m none 0
  | some {m : Node} {s : String} {c : Nat} (hnull : ¬ m.IsNull)
      (htag : ∀ anchor s, m ≠ .scalar anchor (some (Yaml.coreTag "null")) .plain s)
      (h : d.At Node.HasText m s c) : Text? d m (some s) c

/-- Nothing, or a text. -/
def Optional (d : Document) (n : Node) (s : Option String) (c : Nat) : Prop :=
  ∃ m c₁ c₂, d.Means n m c₁ ∧ Text? d m s c₂ ∧ c = c₁ + c₂

/-! ## Fields -/

/-- What an entry says. -/
inductive Field where
  | volumes (roots : List FilePath)
  | logFilter (filter : Option String)
  | other

/-- The roots, if the field tells them. -/
def Field.volumes? : Field → Option (List FilePath)
  | .volumes roots => some roots
  | .logFilter _ => none
  | .other => none

/-- What goes into the log, if the field tells it. -/
def Field.logFilter? : Field → Option (Option String)
  | .volumes _ => none
  | .logFilter filter => some filter
  | .other => none

/-- **The entry is this field.** -/
inductive Says (d : Document) : Node × Node → Field → Nat → Prop
  | volumes {k v : Node} {roots : List FilePath} {a b : Nat} (hk : d.At Node.HasText k "volumes" a)
      (hv : Paths d v roots b) : Says d (k, v) (.volumes roots) (a + b)
  | logFilter {k v : Node} {filter : Option String} {a b : Nat}
      (hk : d.At Node.HasText k "log_filter" a) (hv : Optional d v filter b) :
      Says d (k, v) (.logFilter filter) (a + b)
  | other {k v : Node} {name : String} {a : Nat} (hk : d.At Node.HasText k name a)
      (hvolumes : name ≠ "volumes") (hfilter : name ≠ "log_filter") : Says d (k, v) .other a

/-- **The configuration that fields declare**: the roots are told once, and what goes into the log at most
once. -/
structure Declares (fs : List Field) (config : Config) : Prop where
  volumes : fs.filterMap Field.volumes? = [config.volumes]
  logFilter : fs.filterMap Field.logFilter? = [config.logFilter] ∨
    (fs.filterMap Field.logFilter? = [] ∧ config.logFilter = none)

section

variable {d : Document}

theorem present_exact (p : Yaml.Path) {m : Node} (hnull : ¬ m.IsNull)
    (htag : ∀ anchor s, m ≠ .scalar anchor (some (Yaml.coreTag "null")) .plain s) :
    (d.text p "a string" m >>= fun s => Read.pure (some s)).Exact d.aliasLimit (Text? d m) := by
  refine (Document.text_exact d p _ m).map.congr fun s c => ?_
  constructor
  · rintro ⟨s, hs, rfl⟩
    exact .some hnull htag hs
  · intro h
    cases h with
    | none h => exact absurd h hnull
    | some _ _ hs => exact ⟨_, hs, rfl⟩

theorem absent_exact {m : Node} (hnull : m.IsNull) :
    (Read.pure none).Exact d.aliasLimit (Text? d m) := by
  refine (Read.Exact.pure none).congr fun s c => ?_
  constructor
  · rintro ⟨rfl, rfl⟩
    exact .none hnull
  · intro h
    cases h with
    | none => exact ⟨rfl, rfl⟩
    | some hno => exact absurd hnull hno

/-- A plain scalar with the tag of null is a null, or nothing at all. -/
theorem tagged_exact {anchor : Option Nat} {s : String} (e : Yaml.Failure) :
    (if Yaml.isNullWord s then Read.pure none else Read.fail e).Exact d.aliasLimit
      (Text? d (.scalar anchor (some (Yaml.coreTag "null")) .plain s)) := by
  split
  next hs => exact absent_exact (.tagged hs)
  next hs =>
    refine (Read.Exact.fail e).congr fun t c => ⟨False.elim, fun h => ?_⟩
    cases h with
    | none h =>
        cases h with
        | tagged hs' => exact hs hs'
    | some _ htag => exact htag _ _ rfl

theorem optional_exact (p : Yaml.Path) (n : Node) :
    (optionalText d p n).Exact d.aliasLimit (Optional d n) := by
  refine ((Document.follow_exact d n).bind fun m => ?_ : (optionalText d p n).Exact d.aliasLimit _)
  dsimp only
  split
  next anchor tag s =>
    split
    next htag =>
      subst htag
      exact tagged_exact _
    next htag =>
      split
      next hs =>
        obtain ⟨rfl, hnull⟩ : tag = none ∧ (s = "" ∨ Yaml.isNullWord s = true) := by simpa using hs
        exact absent_exact (.plain hnull)
      next hs =>
        refine present_exact p (fun h => ?_) fun anchor' s' heq => ?_
        · cases h with
          | plain hs' => exact hs (by simpa using hs')
          | tagged => exact htag rfl
        · obtain ⟨-, rfl, -⟩ := Node.scalar.inj heq
          exact htag rfl
  next hscalar =>
    refine present_exact p (fun h => ?_) fun anchor s heq => hscalar _ _ _ heq
    cases h with
    | plain => exact hscalar _ _ _ rfl
    | tagged => exact hscalar _ _ _ rfl

/-! ## Taking fields into a draft -/

/-- **What fields make of a draft**: the roots go where none were, and so does what goes into the log. -/
def Draft.Gains (draft : Draft) (fs : List Field) (draft' : Draft) : Prop :=
  draft'.volumes.toList = draft.volumes.toList ++ fs.filterMap Field.volumes? ∧
    draft'.logFilter.toList = draft.logFilter.toList ++ fs.filterMap Field.logFilter?

/-- What is filled in two steps may be looked at between them. -/
theorem toList_eq_append_iff {α : Type} {o : Option α} {xs ys : List α} :
    o.toList = xs ++ ys ↔ ∃ o' : Option α, o'.toList = xs ∧ o.toList = o'.toList ++ ys := by
  constructor
  · intro h
    refine ⟨xs.head?, ?_⟩
    have hone : xs.head?.toList = xs := by
      match xs, o with
      | [], _ => rfl
      | [x], _ => rfl
      | _ :: _ :: _, none => simp at h
      | _ :: _ :: _, some _ => simp at h
    exact ⟨hone, hone.symm ▸ h⟩
  · rintro ⟨o', rfl, h⟩
    exact h

theorem Draft.gains_nil_iff {draft draft' : Draft} : draft.Gains [] draft' ↔ draft' = draft := by
  constructor
  · rintro ⟨hvolumes, hfilter⟩
    have heq : ∀ {α : Type} {o o' : Option α}, o.toList = o'.toList ++ [] → o = o' := by
      intro α o o' h
      cases o <;> cases o' <;> simp_all
    obtain ⟨volumes, filter⟩ := draft
    obtain ⟨volumes', filter'⟩ := draft'
    obtain rfl : volumes' = volumes := heq hvolumes
    obtain rfl : filter' = filter := heq hfilter
    rfl
  · rintro rfl
    exact ⟨by simp, by simp⟩

/-- Fields are gained one after another. -/
theorem Draft.gains_append_iff {draft draft' : Draft} (fs gs : List Field) :
    draft.Gains (fs ++ gs) draft' ↔ ∃ draft₁, draft.Gains fs draft₁ ∧ draft₁.Gains gs draft' := by
  simp only [Gains, List.filterMap_append, ← List.append_assoc]
  rw [toList_eq_append_iff, toList_eq_append_iff]
  constructor
  · rintro ⟨⟨volumes, hvolumes, hvolumes'⟩, filter, hfilter, hfilter'⟩
    exact ⟨⟨volumes, filter⟩, ⟨hvolumes, hfilter⟩, hvolumes', hfilter'⟩
  · rintro ⟨draft₁, ⟨hvolumes, hfilter⟩, hvolumes', hfilter'⟩
    exact ⟨⟨_, hvolumes, hvolumes'⟩, _, hfilter, hfilter'⟩

theorem Draft.gains_volumes_iff {draft draft' : Draft} {roots : List FilePath} :
    draft.Gains [.volumes roots] draft' ↔
      draft.volumes = none ∧ draft' = { draft with volumes := some roots } := by
  obtain ⟨volumes, filter⟩ := draft
  obtain ⟨volumes', filter'⟩ := draft'
  cases volumes <;> cases volumes' <;> cases filter <;> cases filter' <;>
    simp [Gains, List.filterMap_cons, Field.volumes?, Field.logFilter?]

theorem Draft.gains_logFilter_iff {draft draft' : Draft} {filter : Option String} :
    draft.Gains [.logFilter filter] draft' ↔
      draft.logFilter = none ∧ draft' = { draft with logFilter := some filter } := by
  obtain ⟨volumes, filter⟩ := draft
  obtain ⟨volumes', filter'⟩ := draft'
  cases volumes <;> cases volumes' <;> cases filter <;> cases filter' <;>
    simp [Gains, List.filterMap_cons, Field.volumes?, Field.logFilter?]

/-- What may be told once only is read where it has not been told. -/
theorem once_exact {α : Type} {o : Option α} {e : Yaml.Failure} {r : Read Draft}
    {P : Draft → Nat → Prop} (hr : r.Exact d.aliasLimit P) :
    (if o.isSome then Read.fail e else r).Exact d.aliasLimit
      fun draft' c => o = none ∧ P draft' c := by
  split
  next h =>
    refine (Read.Exact.fail e).congr fun draft' c => ⟨False.elim, fun ⟨hnone, _⟩ => ?_⟩
    simp [hnone] at h
  next h => exact hr.congr fun draft' c => (and_iff_right (by simpa using h)).symm

/-- Where the roots are told, the draft gains these. -/
theorem volumes_exact (draft : Draft) (p : Yaml.Path) (expected : String) (e : Yaml.Failure)
    (v : Node) :
    (if draft.volumes.isSome then Read.fail e
      else d.items p expected v >>= fun items =>
        Document.eachItem (fun i n => d.text (.index i :: p) "path string" n) 0 items >>=
          fun roots => Read.pure { draft with volumes := some (roots.map FilePath.mk) }).Exact
      d.aliasLimit
      fun draft' c => ∃ roots, Paths d v roots c ∧ draft.Gains [.volumes roots] draft' := by
  refine (once_exact ((Document.items_exact d _ _ v).bind fun ns =>
    (Document.eachItem_exact (fun i n => Document.text_exact d _ _ n) 0 ns).map)).congr
      fun draft' c => ?_
  constructor
  · rintro ⟨hnone, ns, c₁, c₂, hns, ⟨texts, htexts, rfl⟩, rfl⟩
    exact ⟨_, ⟨ns, texts, c₁, c₂, hns, htexts, rfl, rfl⟩, Draft.gains_volumes_iff.mpr ⟨hnone, rfl⟩⟩
  · rintro ⟨roots, ⟨ns, texts, c₁, c₂, hns, htexts, rfl, rfl⟩, hgains⟩
    obtain ⟨hnone, rfl⟩ := Draft.gains_volumes_iff.mp hgains
    exact ⟨hnone, ns, c₁, c₂, hns, ⟨texts, htexts, rfl⟩, rfl⟩

/-- Where it is told what goes into the log, the draft gains this. -/
theorem logFilter_exact (draft : Draft) (p : Yaml.Path) (e : Yaml.Failure) (v : Node) :
    (if draft.logFilter.isSome then Read.fail e
      else optionalText d p v >>= fun filter =>
        Read.pure { draft with logFilter := some filter }).Exact d.aliasLimit
      fun draft' c => ∃ filter, Optional d v filter c ∧ draft.Gains [.logFilter filter] draft' := by
  refine (once_exact (optional_exact p v).map).congr fun draft' c => ?_
  constructor
  · rintro ⟨hnone, filter, hv, rfl⟩
    exact ⟨filter, hv, Draft.gains_logFilter_iff.mpr ⟨hnone, rfl⟩⟩
  · rintro ⟨filter, hv, hgains⟩
    obtain ⟨hnone, rfl⟩ := Draft.gains_logFilter_iff.mp hgains
    exact ⟨hnone, filter, hv, rfl⟩

/-- What is told under a name, by which field it is. -/
inductive Tells (d : Document) (name : String) (v : Node) : Field → Nat → Prop
  | volumes {roots : List FilePath} {c : Nat} (hname : name = "volumes") (hv : Paths d v roots c) :
      Tells d name v (.volumes roots) c
  | logFilter {filter : Option String} {c : Nat} (hname : name = "log_filter")
      (hv : Optional d v filter c) : Tells d name v (.logFilter filter) c
  | other (hvolumes : name ≠ "volumes") (hfilter : name ≠ "log_filter") : Tells d name v .other 0

/-- An entry says what is told under its name. -/
theorem says_iff {k v : Node} {f : Field} {c : Nat} :
    Says d (k, v) f c ↔
      ∃ name a b, d.At Node.HasText k name a ∧ Tells d name v f b ∧ c = a + b := by
  constructor
  · intro h
    cases h with
    | volumes hk hv => exact ⟨_, _, _, hk, .volumes rfl hv, rfl⟩
    | logFilter hk hv => exact ⟨_, _, _, hk, .logFilter rfl hv, rfl⟩
    | other hk hvolumes hfilter => exact ⟨_, _, 0, hk, .other hvolumes hfilter, rfl⟩
  · rintro ⟨name, a, b, hk, ht, rfl⟩
    cases ht with
    | volumes hname hv => exact .volumes (hname ▸ hk) hv
    | logFilter hname hv => exact .logFilter (hname ▸ hk) hv
    | other hvolumes hfilter => exact .other hk hvolumes hfilter

/-- **One entry** is the field that it says, and the draft gains that field. -/
theorem add_exact (draft : Draft) (k v : Node) :
    (draft.add d k v).Exact d.aliasLimit fun draft' c =>
      ∃ f, Says d (k, v) f c ∧ draft.Gains [f] draft' := by
  refine ((Document.text_exact d [] _ k).bind
    (Q := fun name draft' c => ∃ f, Tells d name v f c ∧ draft.Gains [f] draft')
    fun name => ?_).congr fun draft' c => ?_
  · dsimp only
    split
    · refine (volumes_exact draft _ _ _ v).congr fun draft' c => ⟨?_, ?_⟩
      · exact fun ⟨_, hv, hgains⟩ => ⟨_, .volumes rfl hv, hgains⟩
      · rintro ⟨f, ht, hgains⟩
        cases ht with
        | volumes _ hv => exact ⟨_, hv, hgains⟩
        | logFilter hname => exact absurd hname (by decide)
        | other hvolumes => exact absurd rfl hvolumes
    · refine (logFilter_exact draft _ _ v).congr fun draft' c => ⟨?_, ?_⟩
      · exact fun ⟨_, hv, hgains⟩ => ⟨_, .logFilter rfl hv, hgains⟩
      · rintro ⟨f, ht, hgains⟩
        cases ht with
        | volumes hname => exact absurd hname (by decide)
        | logFilter _ hv => exact ⟨_, hv, hgains⟩
        | other _ hfilter => exact absurd rfl hfilter
    · next hvolumes hfilter =>
        refine (Read.Exact.pure draft).congr fun draft' c => ⟨?_, ?_⟩
        · rintro ⟨rfl, rfl⟩
          exact ⟨.other, .other hvolumes hfilter, Draft.gains_nil_iff.mpr rfl⟩
        · rintro ⟨f, ht, hgains⟩
          cases ht with
          | volumes hname => exact absurd hname hvolumes
          | logFilter hname => exact absurd hname hfilter
          | other => exact ⟨Draft.gains_nil_iff.mp hgains, rfl⟩
  · simp only [says_iff]
    constructor
    · rintro ⟨name, a, b, hk, ⟨f, ht, hgains⟩, rfl⟩
      exact ⟨f, ⟨name, a, b, hk, ht, rfl⟩, hgains⟩
    · rintro ⟨f, ⟨name, a, b, hk, ht, rfl⟩, hgains⟩
      exact ⟨name, a, b, hk, ⟨f, ht, hgains⟩, rfl⟩

/-- **All entries** are the fields that they say, and the draft gains these. -/
theorem addAll_exact (es : List (Node × Node)) (draft : Draft) :
    (draft.addAll d es).Exact d.aliasLimit fun draft' c =>
      ∃ fs, Costs (Says d) es fs c ∧ draft.Gains fs draft' := by
  induction es generalizing draft with
  | nil =>
      refine (Read.Exact.pure draft).congr fun draft' c => ?_
      constructor
      · rintro ⟨rfl, rfl⟩
        exact ⟨[], .nil, Draft.gains_nil_iff.mpr rfl⟩
      · rintro ⟨fs, hfs, hgains⟩
        obtain ⟨rfl, rfl⟩ := Costs.nil_iff.mp hfs
        exact ⟨Draft.gains_nil_iff.mp hgains, rfl⟩
  | cons e es ih =>
      refine ((add_exact draft e.1 e.2).bind fun draft₁ => ih draft₁).congr fun draft' c => ?_
      constructor
      · rintro ⟨draft₁, c₁, c₂, ⟨f, hf, hgains⟩, ⟨fs, hfs, hgains'⟩, rfl⟩
        exact ⟨f :: fs, .cons hf hfs,
          (Draft.gains_append_iff [f] fs).mpr ⟨draft₁, hgains, hgains'⟩⟩
      · rintro ⟨fs, hfs, hgains⟩
        obtain ⟨f, fs', c₁, c₂, rfl, hf, hfs', rfl⟩ := Costs.cons_iff.mp hfs
        obtain ⟨draft₁, hgains, hgains'⟩ := (Draft.gains_append_iff [f] fs').mp hgains
        exact ⟨draft₁, c₁, c₂, ⟨f, hf, hgains⟩, ⟨fs', hfs', hgains'⟩, rfl⟩

/-- A draft with the roots is the configuration that its fields declare. -/
theorem declares_iff {fs : List Field} {draft : Draft} (h : ({} : Draft).Gains fs draft)
    {config : Config} : Declares fs config ↔
      draft.volumes = some config.volumes ∧ draft.logFilter.getD none = config.logFilter := by
  obtain ⟨hvolumes, hfilter⟩ := h
  have hdeclares : Declares fs config ↔ fs.filterMap Field.volumes? = [config.volumes] ∧
      (fs.filterMap Field.logFilter? = [config.logFilter] ∨
        (fs.filterMap Field.logFilter? = [] ∧ config.logFilter = none)) :=
    ⟨fun h => ⟨h.volumes, h.logFilter⟩, fun h => ⟨h.1, h.2⟩⟩
  rw [hdeclares, ← List.nil_append (fs.filterMap Field.volumes?),
    ← List.nil_append (fs.filterMap Field.logFilter?)]
  change draft.volumes.toList = [] ++ fs.filterMap Field.volumes? at hvolumes
  change draft.logFilter.toList = [] ++ fs.filterMap Field.logFilter? at hfilter
  rw [← hvolumes, ← hfilter, Option.toList_eq_singleton_iff, Option.toList_eq_singleton_iff,
    Option.toList_eq_nil_iff]
  cases draft.logFilter <;> simp [eq_comm]

/-- **The configurations that a node holds**, exactly. -/
theorem ofNode_exact (d : Document) (n : Node) :
    (ofNode d n).Exact d.aliasLimit fun config c => ∃ es fs c₁ c₂,
      d.At Node.HasEntries n es c₁ ∧ Costs (Says d) es fs c₂ ∧ Declares fs config ∧ c = c₁ + c₂ := by
  refine ((Document.entries_exact d [] _ n).bind fun es => (addAll_exact es {}).bind
    (Q := fun draft config c => (draft.volumes = some config.volumes ∧
      draft.logFilter.getD none = config.logFilter) ∧ c = 0) fun draft => ?_ :
      (ofNode d n).Exact d.aliasLimit _).congr fun config c => ?_
  · obtain ⟨_ | volumes, filter⟩ := draft
    · exact .of_fail fun config h => by simp at h
    · refine .of_pure fun config => ?_
      obtain ⟨volumes', filter'⟩ := config
      simp [eq_comm]
  constructor
  · rintro ⟨es, c₁, c₂, hes, ⟨draft, a, b, ⟨fs, hfs, hgains⟩, ⟨hconfig, rfl⟩, rfl⟩, rfl⟩
    exact ⟨es, fs, c₁, _, hes, hfs, (declares_iff hgains).mpr hconfig, rfl⟩
  · rintro ⟨es, fs, c₁, c₂, hes, hfs, hdeclares, rfl⟩
    have hgains : ({} : Draft).Gains fs ⟨some config.volumes,
        (fs.filterMap Field.logFilter?).head?⟩ := by
      refine ⟨hdeclares.volumes.symm, ?_⟩
      rcases hdeclares.logFilter with h | ⟨h, -⟩ <;> rw [h] <;> rfl
    exact ⟨es, c₁, c₂, hes, ⟨_, c₂, 0, ⟨fs, hfs, hgains⟩, ⟨(declares_iff hgains).mp hdeclares, rfl⟩,
      rfl⟩, rfl⟩

end

end Config

end StorageNode
