import StorageNode.Proofs.Descriptor
import StorageNode.Proofs.Descriptor.Fields
import StorageNode.Proofs.Yaml.Printing
import StorageNode.Proofs.Yaml.Resolving

/-!
# Descriptors are read back

A descriptor that is written is read back, whatever its payload is: the common entries are told from
the others by their keys alone, wherever they stand, and those that are left out have their defaults
(`ofBytes_written`). What is taken for granted is that the text of a document shows the values that it
was written for (`ReadsBack`); what these nodes are resolved to, and how a descriptor is made of them, is
not.

A payload can be kept if it has no tags (`Yaml.Value.Writable`). One more kind of payload has to be left
out, because no text is written for it: `ofBytes_written_needs_writable`.
-/

namespace StorageNode.Descriptor

open Yaml (Value Document Node Emission Costs Both Paired canonicalEntries)

/-! ## Documents with the entries of a descriptor -/

/-- The bytes of a document of entries. -/
def documentBytes (es : List (Value × Value)) : Except Yaml.WriteError Bytes :=
  ((Yaml.emitEntries es ({} : Emission).startMapping).closeMapping.print).map Utf8.encode

/-- A descriptor is written as the document of its entries. -/
theorem toBytes_eq (x : Descriptor) : x.toBytes = documentBytes x.entries := rfl

/-- **The text of the entries shows them**: it is parsed as a document that looks as it was written. -/
def ReadsBack (es : List (Value × Value)) : Prop :=
  ∀ bytes, documentBytes es = .ok bytes →
    ∃ d, Document.parse? bytes = .ok (some d) ∧ d.root.Shows (.mapping es)

namespace Slot

/-- The common fields in the order in which they are written. -/
def all : List Slot := [id, kind, layoutVersion, state, metadata]

theorem mem_all (s : Slot) : s ∈ all := by cases s <;> decide

/-- The data of a descriptor for a field. -/
def of (x : Descriptor) : (s : Slot) → s.Data
  | id => x.id
  | kind => x.kind
  | layoutVersion => x.layoutVersion
  | state => x.state
  | metadata => x.metadata

/-- The value that a field is written with. -/
def value (x : Descriptor) : Slot → Value
  | id => .integer (.ofWord x.id)
  | kind => .string x.kind.tag
  | layoutVersion => .integer (.ofWord x.layoutVersion.toUInt64)
  | state => .string x.state.word
  | metadata => .mapping (x.metadata.entries.map fun e => (.string e.1, .string e.2))

/-- The field is what it is taken for where it is left out. -/
def Omittable (x : Descriptor) : Slot → Prop
  | layoutVersion => x.layoutVersion = 1
  | metadata => x.metadata = .empty
  | _ => False

/-- The field with a name. -/
def ofName? (name : String) : Option Slot := all.find? (·.name = name)

@[simp] theorem ofName?_name (s : Slot) : ofName? s.name = some s := by cases s <;> decide

theorem ofName?_eq_none {name : String} (h : ∀ s : Slot, s.name ≠ name) : ofName? name = none := by
  simp only [ofName?, List.find?_eq_none, decide_eq_true_eq]
  exact fun s _ => h s

end Slot

/-- The entry for a common field. -/
def commonEntry (x : Descriptor) (s : Slot) : Value × Value := (.string s.name, s.value x)

theorem commonEntries_eq (x : Descriptor) : x.commonEntries = Slot.all.map x.commonEntry := rfl

/-- The text of a key; nothing if it is no string. -/
def keyText (e : Value × Value) : String :=
  match e.1 with
  | .string name => name
  | _ => ""

/-- The common field that an entry is for. -/
def slotOf? (e : Value × Value) : Option Slot := Slot.ofName? (keyText e)

/-- The entries beside the common ones. -/
def payloadOf (es : List (Value × Value)) : List (Value × Value) :=
  es.filter fun e => (slotOf? e).isNone

/-- **The entries of a descriptor in some order**, where common ones may be missing if they are what
they are taken for then. -/
inductive Arranges (x : Descriptor) (es : List (Value × Value)) : Prop
  | intro (slots : List Slot) (hslots : slots.Sublist Slot.all)
      (homitted : ∀ s, s ∉ slots → s.Omittable x)
      (hperm : es.Perm (slots.map x.commonEntry ++ x.payload))

/-- An entry under a key of its own, beside the common ones. -/
structure Apart (e : Value × Value) : Prop where
  key : e.1 = .string (keyText e)
  name : ∀ s : Slot, s.name ≠ keyText e

/-- **A descriptor that can be written**: the keys of its payload are texts, distinct and of their own,
and its values can be written and are not nested too deep. -/
structure Writable (x : Descriptor) : Prop where
  apart : ∀ e ∈ x.payload, Apart e
  values : ∀ e ∈ x.payload, e.2.Writable
  shallow : ∀ e ∈ x.payload, e.2.depth ≤ payloadDepth
  distinct : Yaml.distinctInEntries [] x.payload = .ok ()

/-- What is read from a document of entries of a descriptor. -/
def readFrom (x : Descriptor) (es : List (Value × Value)) : Descriptor :=
  { x with payload := canonicalEntries (payloadOf es) }

section

variable {x : Descriptor} {es : List (Value × Value)} {e : Value × Value}

/-! ## Entries and fields -/

@[simp] theorem slotOf?_commonEntry (s : Slot) : slotOf? (x.commonEntry s) = some s := Slot.ofName?_name s

theorem slotOf?_of_apart (h : Apart e) : slotOf? e = none := Slot.ofName?_eq_none h.name

theorem payloadOf_eq_nil (slots : List Slot) : payloadOf (slots.map x.commonEntry) = [] := by
  simp [payloadOf]

theorem payloadOf_of_apart (h : ∀ e ∈ es, Apart e) : payloadOf es = es :=
  List.filter_eq_self.mpr fun e he => by rw [slotOf?_of_apart (h e he)]; rfl

theorem payloadOf_append (es ds : List (Value × Value)) :
    payloadOf (es ++ ds) = payloadOf es ++ payloadOf ds := List.filter_append ..

/-- The payload is written in its order. -/
theorem payloadOf_entries (h : ∀ e ∈ x.payload, Apart e) : payloadOf x.entries = x.payload := by
  rw [entries, commonEntries_eq, payloadOf_append, payloadOf_eq_nil, payloadOf_of_apart h,
    List.nil_append]

/-- A descriptor is written in one of the orders, with nothing left out. -/
theorem arranges_entries (x : Descriptor) : Arranges x x.entries :=
  .intro Slot.all (List.Sublist.refl _) (fun s h => absurd s.mem_all h) (List.Perm.refl _)

/-- In any order it is the same payload. -/
theorem Arranges.payloadOf_perm (h : Arranges x es) (hx : ∀ e ∈ x.payload, Apart e) :
    (payloadOf es).Perm x.payload := by
  obtain ⟨slots, -, -, hperm⟩ := h
  have hfiltered := hperm.filter fun e => (slotOf? e).isNone
  change (payloadOf es).Perm (payloadOf (slots.map x.commonEntry ++ x.payload)) at hfiltered
  rwa [payloadOf_append, payloadOf_eq_nil, payloadOf_of_apart hx, List.nil_append] at hfiltered

/-- An entry is for a common field, or in the payload. -/
theorem Arranges.cases (h : Arranges x es) (he : e ∈ es) :
    (∃ s, e = x.commonEntry s) ∨ e ∈ x.payload := by
  obtain ⟨slots, -, -, hperm⟩ := h
  rcases List.mem_append.mp (hperm.mem_iff.mp he) with hcommon | hpayload
  · obtain ⟨s, -, rfl⟩ := List.mem_map.mp hcommon
    exact .inl ⟨s, rfl⟩
  · exact .inr hpayload

/-- A common field occurs once, or is left out. -/
theorem Arranges.count_slots (h : Arranges x es) (hx : ∀ e ∈ x.payload, Apart e) (s : Slot) :
    (es.filterMap slotOf?).count s = 1 ∨ ((es.filterMap slotOf?).count s = 0 ∧ s.Omittable x) := by
  obtain ⟨slots, hslots, homitted, hperm⟩ := h
  have hpayload : x.payload.filterMap slotOf? = [] :=
    List.filterMap_eq_nil_iff.mpr fun e he => slotOf?_of_apart (hx e he)
  have hcommon : (slots.map x.commonEntry).filterMap slotOf? = slots := by
    rw [List.filterMap_map]
    exact (List.filterMap_congr fun s _ => slotOf?_commonEntry s).trans List.filterMap_some
  have hcount : (es.filterMap slotOf?).count s = slots.count s := by
    rw [(hperm.filterMap slotOf?).count_eq, List.filterMap_append, hpayload, hcommon,
      List.append_nil]
  have hnodup : slots.Nodup := hslots.nodup (by decide)
  rw [hcount, hnodup.count]
  by_cases hs : s ∈ slots
  · exact .inl (if_pos hs)
  · exact .inr ⟨if_neg hs, homitted s hs⟩

end

/-! ## Common fields -/

section

variable {x : Descriptor} {d : Document} {n : Node}

/-- A written text is its text. -/
theorem at_text {s : String} (h : n.Shows (.string s)) : d.At Node.HasText n s 0 := by
  cases h
  exact Document.At.of_scalar (.scalar _ _ _ s)

/-- A written unsigned number is its number. -/
theorem at_natural {k : UInt64} {bound : Nat} (hk : k.toNat < bound)
    (h : n.Shows (.integer (.ofWord k))) : d.At (Node.HasNatural bound) n k.toNat 0 := by
  cases h
  refine Document.At.of_scalar (.scalar (.inl rfl) ?_ hk)
  have htext : (toString (Yaml.Integer.ofWord k).value).toList = Nat.toDigits 10 k.toNat := by
    rw [Int.toString_eq_repr]
    exact String.toList_ofList
  rw [htext, Yaml.signedMagnitude?_toDigits]

/-- Written texts are their texts. -/
theorem costs_texts {ns : List (Node × Node)} {es : List (String × String)}
    (h : List.Forall₂ (Paired Node.Shows) ns (es.map fun e => (.string e.1, .string e.2))) :
    Costs (Both (d.At Node.HasText)) ns es 0 := by
  induction es generalizing ns with
  | nil =>
      cases h
      exact .nil
  | cons e es ih =>
      cases h with
      | cons hpair hs =>
          cases hpair with
          | intro hk hv => exact .cons (.intro (at_text hk) (at_text hv)) (ih hs)

/-- **Written data of a field is read as that data.** -/
theorem fits_of_shows {s : Slot} (h : n.Shows (s.value x)) : s.Fits d n (s.of x) 0 := by
  cases s with
  | id => exact ⟨_, at_natural x.id.toNat_lt h, UInt64.ofNat_toNat.symm⟩
  | kind => exact at_text h
  | layoutVersion =>
      have hnat : x.layoutVersion.toUInt64.toNat = x.layoutVersion.toNat := UInt32.toNat_toUInt64 _
      refine ⟨_, at_natural (hnat ▸ x.layoutVersion.toNat_lt) h, ?_⟩
      rw [hnat, UInt32.ofNat_toNat]
      rfl
  | state =>
      cases h
      exact Document.At.of_scalar (.text rfl (List.mem_map_of_mem (by cases x.state <;> decide)))
  | metadata =>
      cases h with
      | @mapping ns _ hes =>
          have hentries : d.At Node.HasEntries (.mapping none none ns) ns 0 :=
            ⟨_, .self (by simp), .mapping none none ns⟩
          exact ⟨_, _, 0, 0, hentries, costs_texts hes, x.metadata.foldl_insert_entries.symm, rfl⟩

end

/-! ## What is read from the entries -/

section

variable {x : Descriptor} {es : List (Value × Value)} {d : Document}

/-- Fields say what the entries of a descriptor do. -/
structure Restates (d : Document) (x : Descriptor) (ns : List (Node × Node))
    (es : List (Value × Value)) (fs : List Field) : Prop where
  fields : Costs (Says d) ns fs 0
  slots : ∀ s, fieldsAt s fs = List.replicate ((es.filterMap slotOf?).count s) (s.of x)
  kept : Costs (Kept d) (others fs) (canonicalEntries (payloadOf es)) 0

/-- An entry for a common field is that field. -/
theorem Restates.common {ns : List (Node × Node)} {fs : List Field} (h : Restates d x ns es fs)
    {s : Slot} {k v : Node} (hk : k.Shows (.string s.name)) (hv : v.Shows (s.value x)) :
    Restates d x ((k, v) :: ns) (x.commonEntry s :: es) (.common s (s.of x) :: fs) where
  fields := .cons (.common (at_text hk) (fits_of_shows hv)) h.fields
  slots := fun t => by
    by_cases hst : s = t
    · subst hst
      rw [fieldsAt_common_self, h.slots, List.filterMap_cons_some (slotOf?_commonEntry s),
        List.count_cons_self, List.replicate_succ]
    · rw [fieldsAt_common_of_ne hst, h.slots, List.filterMap_cons_some (slotOf?_commonEntry s),
        List.count_cons_of_ne hst]
  kept := by
    have hpayload : payloadOf (x.commonEntry s :: es) = payloadOf es :=
      List.filter_cons_of_neg (by simp)
    rw [hpayload, others_common]
    exact h.kept

/-- An entry of the payload is kept. -/
theorem Restates.other {ns : List (Node × Node)} {fs : List Field} (h : Restates d x ns es fs)
    {e : Value × Value} (he : Apart e) (hdepth : e.2.depth ≤ payloadDepth) {k v : Node}
    (hk : k.Shows e.1) (hv : v.Shows e.2) :
    Restates d x ((k, v) :: ns) (e :: es) (.other (keyText e) v :: fs) where
  fields := .cons (.other (at_text (he.key ▸ hk)) he.name) h.fields
  slots := fun t => by
    rw [fieldsAt_other, h.slots, List.filterMap_cons_none (slotOf?_of_apart he)]
  kept := by
    have hpayload : payloadOf (e :: es) = e :: payloadOf es :=
      List.filter_cons_of_pos (by rw [slotOf?_of_apart he]; rfl)
    have hkey : e.1.canonical = .string (keyText e) := by
      rw [he.key, Yaml.canonical_string]
    rw [hpayload, others_other, Yaml.canonicalEntries, hkey]
    exact .cons (.intro hv.stands (e.2.depth_canonical ▸ hdepth)) h.kept

/-- **A document that shows the entries of a descriptor has the fields of it.** -/
theorem exists_restates (hx : x.Writable) {ns : List (Node × Node)}
    (hns : List.Forall₂ (Paired Node.Shows) ns es)
    (hes : ∀ e ∈ es, (∃ s, e = x.commonEntry s) ∨ e ∈ x.payload) :
    ∃ fs, Restates d x ns es fs := by
  induction hns with
  | nil => exact ⟨[], .nil, fun _ => rfl, .nil⟩
  | cons hpair _ ih =>
      obtain ⟨he, hes⟩ := List.forall_mem_cons.mp hes
      obtain ⟨fs, hfs⟩ := ih hes
      cases hpair with
      | intro hk hv =>
          rcases he with ⟨s, he⟩ | he
          · obtain ⟨rfl, rfl⟩ := Prod.mk.inj he
            exact ⟨_, hfs.common hk hv⟩
          · exact ⟨_, hfs.other (hx.apart _ he) (hx.shallow _ he) hk hv⟩

/-- Those fields declare the descriptor. -/
theorem Restates.declares {ns : List (Node × Node)} {fs : List Field} (h : Restates d x ns es fs)
    (hx : ∀ e ∈ x.payload, Apart e) (hes : Arranges x es) (payload : List (Value × Value)) :
    Declares fs { x with payload := payload } := by
  have hslot : ∀ s, fieldsAt s fs = [s.of x] ∨ (fieldsAt s fs = [] ∧ s.Omittable x) := fun s => by
    rw [h.slots]
    rcases hes.count_slots hx s with hone | ⟨hzero, hs⟩
    · exact .inl (by rw [hone]; rfl)
    · exact .inr ⟨by rw [hzero]; rfl, hs⟩
  exact ⟨(hslot .id).resolve_right fun h => h.2, (hslot .kind).resolve_right fun h => h.2,
    hslot .layoutVersion, (hslot .state).resolve_right fun h => h.2, hslot .metadata⟩

/-- The keys of entries of their own are their texts. -/
theorem map_fst_of_apart (h : ∀ e ∈ es, Apart e) :
    es.map (·.1) = (es.map keyText).map Value.string := by
  rw [List.map_map]
  exact List.map_congr_left fun e he => (h e he).key

/-- What is kept of the payload has distinct keys. -/
theorem Writable.distinct_payloadOf (hx : x.Writable) (hes : Arranges x es) :
    Yaml.distinctInEntries [] (canonicalEntries (payloadOf es)) = .ok () := by
  have hperm := hes.payloadOf_perm hx.apart
  have hapart : ∀ e ∈ payloadOf es, Apart e := fun e he => hx.apart e (hperm.mem_iff.mp he)
  obtain ⟨hnames, hvalues⟩ := (distinctInEntries_iff (map_fst_of_apart hx.apart)).mp hx.distinct
  have hkeys : (canonicalEntries (payloadOf es)).map (·.1) =
      ((payloadOf es).map keyText).map Value.string := by
    rw [Yaml.canonicalEntries_eq_map, List.map_map, List.map_map]
    refine List.map_congr_left fun e he => ?_
    show e.1.canonical = .string (keyText e)
    rw [(hapart e he).key, Yaml.canonical_string]
  rw [distinctInEntries_iff hkeys, Yaml.canonicalEntries_eq_map, List.forall_mem_map]
  refine ⟨(hperm.map keyText).nodup_iff.mpr hnames, fun e he => ?_⟩
  exact Yaml.canonical_distinctKeys (hvalues e (hperm.mem_iff.mp he))

/-- The entries of a descriptor can be written. -/
theorem Writable.entries (hx : x.Writable) (hes : Arranges x es) :
    ∀ e ∈ es, e.1.Writable ∧ e.2.Writable ∧ e.1.depth = 0 ∧ e.2.depth ≤ payloadDepth := by
  intro e he
  rcases hes.cases he with ⟨s, rfl⟩ | hpayload
  · have hmetadata : ∀ e ∈ x.metadata.entries.map fun e => (Value.string e.1, Value.string e.2),
        e.1.Writable ∧ e.2.Writable ∧ e.1.depth = 0 ∧ e.2.depth = 0 := by
      refine List.forall_mem_map.mpr fun e _ => ?_
      exact ⟨.string _, .string _, rfl, rfl⟩
    refine ⟨.string _, ?_, rfl, ?_⟩
    · cases s with
      | id => exact .integer _
      | layoutVersion => exact .integer _
      | kind => exact .string _
      | state => exact .string _
      | metadata =>
          refine .mapping (fun e he => (hmetadata e he).1) (fun e he => (hmetadata e he).2.1) ?_
          rintro e heq
          have hmem : e ∈ x.metadata.entries.map fun e => (Value.string e.1, Value.string e.2) := by
            rw [heq]
            exact List.mem_singleton_self e
          obtain ⟨t, -, rfl⟩ := List.mem_map.mp hmem
          rfl
    · cases s with
      | metadata =>
          refine Nat.succ_le_of_lt (Nat.lt_of_le_of_lt (Yaml.depthOfPairs_le_iff.mpr fun e he => ?_)
            (show 0 < payloadDepth by decide))
          exact ⟨Nat.le_of_eq (hmetadata e he).2.2.1, Nat.le_of_eq (hmetadata e he).2.2.2⟩
      | _ => exact Nat.zero_le _
  · have hkey := (hx.apart e hpayload).key
    exact ⟨hkey ▸ .string _, hx.values e hpayload, hkey ▸ rfl, hx.shallow e hpayload⟩

/-- **What is read from a document that shows the entries** is the descriptor. -/
theorem ofBytes_of_shows (hx : x.Writable) (hes : Arranges x es) {bytes : Bytes}
    (hparse : Document.parse? bytes = .ok (some d)) (hshows : d.root.Shows (.mapping es)) :
    ofBytes bytes = .ok (x.readFrom es) := by
  generalize hroot : d.root = root at hshows
  cases hshows with
  | mapping hns =>
      obtain ⟨fs, hfs⟩ := exists_restates (d := d) hx hns fun e he => hes.cases he
      refine (ofBytes_eq_ok_iff hparse hroot).mpr ⟨fs, 0, 0, hfs.fields, ?_, hfs.kept,
        hx.distinct_payloadOf hes, Nat.zero_le _⟩
      exact hfs.declares hx.apart hes _

/-- What is read is the same descriptor. -/
theorem same_readFrom (hx : x.Writable) (hes : Arranges x es) : x.same (x.readFrom es) = true := by
  have hperm := hes.payloadOf_perm hx.apart
  have hpayload : (Value.mapping x.payload).same (.mapping (canonicalEntries (payloadOf es))) =
      true := by
    rw [Value.same, Yaml.canonicalEntries_eq_map, List.length_map, hperm.length_eq, beq_self_eq_true,
      Bool.true_and, Yaml.sameEntries_iff]
    intro e he
    refine ⟨_, List.mem_map_of_mem (hperm.mem_iff.mpr he), ?_, ?_⟩
    · exact e.1.same_canonical_self
    · exact e.2.same_canonical_self
  simp [same, readFrom, hpayload]

end

/-- **A descriptor is read back** from the document of its entries, in whatever order they are, and with
what may be left out left out or not: it is the same descriptor, with its payload in the order of the
document. -/
theorem ofBytes_written {x : Descriptor} (hx : x.Writable) {es : List (Value × Value)}
    (hes : Arranges x es) (hread : ReadsBack es) :
    ∃ bytes, documentBytes es = .ok bytes ∧ ofBytes bytes = .ok (x.readFrom es) ∧
      x.same (x.readFrom es) = true ∧
      (es = x.entries → x.toBytes = .ok bytes ∧ x.readFrom es = x.readFrom x.payload) := by
  obtain ⟨text, htext⟩ := Yaml.exists_print (fun e he => (hx.entries hes e he).1)
    fun e he => (hx.entries hes e he).2.1
  have hbytes : documentBytes es = .ok (Utf8.encode text) := by
    rw [documentBytes, htext]
    rfl
  obtain ⟨d, hparse, hshows⟩ := hread _ hbytes
  refine ⟨_, hbytes, ofBytes_of_shows hx hes hparse hshows, same_readFrom hx hes, ?_⟩
  rintro rfl
  refine ⟨hbytes, ?_⟩
  rw [readFrom, readFrom, payloadOf_entries hx.apart, payloadOf_of_apart hx.apart]

/-! ## A sample -/

/-- The data of a foreign descriptor: parts under numbers. -/
def parts : Value × Value :=
  (.string "parts", .mapping [(.integer ⟨-1, by decide, by decide⟩, .string "null")])

/-- And sizes, the second one not known. -/
def sizes : Value × Value :=
  (.string "sizes", .sequence [.integer (.ofWord 18446744073709551615), .float Binary64.nan])

/-- A descriptor with values of many kinds. -/
def mixed : Descriptor where
  id := 7
  kind := ⟨"BlobContainer"⟩
  state := .closed
  metadata := ⟨[("owner", "12")], by decide⟩
  payload := [sizes, parts]

/-- Its entries in another order, without the version of the layout. -/
def mixedEntries : List (Value × Value) :=
  [parts, mixed.commonEntry .state, mixed.commonEntry .metadata, sizes, mixed.commonEntry .kind,
    mixed.commonEntry .id]

/-- Their text. -/
def mixedText : List Char :=
  ["parts:\n", "  -1: 'null'\n", "state: CLOSED\n", "metadata:\n", "  owner: '12'\n", "sizes:\n",
    "- 18446744073709551615\n", "- .nan\n", "container_type: BlobContainer\n",
    "container_id: 7\n"].flatMap String.toList

/-- The tokens of the text. -/
def mixedTokens : List Yaml.Token :=
  [.blockMappingStart, .key, .scalar .plain "parts", .value, .blockMappingStart, .key,
    .scalar .plain "-1", .value, .scalar .singleQuoted "null", .blockEnd] ++
  lineTokens "state" "CLOSED" ++
  [.key, .scalar .plain "metadata", .value, .blockMappingStart, .key, .scalar .plain "owner",
    .value, .scalar .singleQuoted "12", .blockEnd, .key, .scalar .plain "sizes", .value,
    .blockEntry, .scalar .plain "18446744073709551615", .blockEntry, .scalar .plain ".nan"] ++
  lineTokens "container_type" "BlobContainer" ++ lineTokens "container_id" "7" ++ [.blockEnd]

/-- The root of the document. -/
def mixedRoot : Node :=
  .mapping none none
    [(plainly "parts", .mapping none none [(plainly "-1", .scalar none none .singleQuoted "null")]),
      (plainly "state", plainly "CLOSED"),
      (plainly "metadata",
        .mapping none none [(plainly "owner", .scalar none none .singleQuoted "12")]),
      (plainly "sizes", .sequence none none [plainly "18446744073709551615", plainly ".nan"]),
      (plainly "container_type", plainly "BlobContainer"), (plainly "container_id", plainly "7")]

theorem writable_mixed : mixed.Writable where
  apart := by
    have hsizes : Apart sizes := ⟨rfl, fun s => by cases s <;> decide⟩
    have hparts : Apart parts := ⟨rfl, fun s => by cases s <;> decide⟩
    exact List.forall_mem_cons.mpr ⟨hsizes, List.forall_mem_singleton.mpr hparts⟩
  values := by
    have hsizes : sizes.2.Writable := .sequence
      (List.forall_mem_cons.mpr ⟨.integer _, List.forall_mem_singleton.mpr (.float _)⟩)
    have hparts : parts.2.Writable := by
      refine .mapping (List.forall_mem_singleton.mpr (.integer _))
        (List.forall_mem_singleton.mpr (.string _)) ?_
      rintro e ⟨⟩
      rfl
    exact List.forall_mem_cons.mpr ⟨hsizes, List.forall_mem_singleton.mpr hparts⟩
  shallow := List.forall_mem_cons.mpr ⟨by decide, List.forall_mem_singleton.mpr (by decide)⟩
  distinct := by
    have hkeys : [sizes, parts].map (·.1) = ["sizes", "parts"].map Value.string := rfl
    refine (distinctInEntries_iff hkeys).mpr ⟨by decide, ?_⟩
    exact List.forall_mem_cons.mpr ⟨rfl, List.forall_mem_singleton.mpr rfl⟩

theorem arranges_mixed : Arranges mixed mixedEntries := by
  refine .intro [.id, .kind, .state, .metadata] (by decide) (fun s hs => ?_) ?_
  · cases s with
    | layoutVersion => rfl
    | _ => exact absurd hs (by decide)
  · have hpick : ∀ pick : Nat → Value × Value,
        ([5, 2, 3, 4, 1, 0].map pick).Perm ([0, 1, 2, 3, 4, 5].map pick) :=
      fun pick => List.Perm.map pick (by decide)
    exact hpick fun i => [mixed.commonEntry .id, mixed.commonEntry .kind, mixed.commonEntry .state,
      mixed.commonEntry .metadata, sizes, parts].getD i sizes

theorem documentBytes_mixed :
    documentBytes mixedEntries = .ok (Utf8.encode (String.ofList mixedText)) := by
  have hprint : (Yaml.emitEntries mixedEntries ({} : Emission).startMapping).closeMapping.print =
      .ok (String.ofList mixedText) := by decide +kernel
  rw [documentBytes, hprint]
  rfl

theorem scan_mixedText : Yaml.Token.scan? mixedText = some mixedTokens := by cbv

theorem root_mixedTokens : Yaml.rootOfTokens mixedTokens = some (some mixedRoot) := by cbv

/-- A number shows where its digits are. -/
theorem shows_integer {n : Yaml.Integer} {s : String} (h : toString n.value = s) :
    (plainly s).Shows (.integer n) := h ▸ .integer n

theorem shows_plainly {s : String} (h : Yaml.wishFor s = .any) : (plainly s).Shows (.string s) :=
  .string fun _ => h

theorem shows_quoted (s : String) : (Node.scalar none none .singleQuoted s).Shows (.string s) :=
  .string nofun

theorem readsBack_mixed : ReadsBack mixedEntries := by
  intro bytes hbytes
  obtain rfl := Except.ok.inj (documentBytes_mixed.symm.trans hbytes)
  refine ⟨⟨mixedRoot, _⟩, Yaml.parse_encode (by decide +kernel) scan_mixedText root_mixedTokens, ?_⟩
  have hparts : Paired Node.Shows (plainly "parts",
      .mapping none none [(plainly "-1", .scalar none none .singleQuoted "null")]) parts :=
    .intro (shows_plainly (by decide)) (.mapping (.cons (.intro (shows_integer (by decide))
      (shows_quoted _)) .nil))
  have hsizes : Paired Node.Shows (plainly "sizes",
      .sequence none none [plainly "18446744073709551615", plainly ".nan"]) sizes :=
    .intro (shows_plainly (by decide)) (.sequence (.cons (shows_integer (by decide))
      (.cons (.float (by decide +kernel)) .nil)))
  have hmetadata : Paired Node.Shows (plainly "metadata",
      .mapping none none [(plainly "owner", .scalar none none .singleQuoted "12")])
        (mixed.commonEntry .metadata) :=
    .intro (shows_plainly (by decide)) (.mapping (.cons (.intro (shows_plainly (by decide))
      (shows_quoted _)) .nil))
  have hid : Paired Node.Shows (plainly "container_id", plainly "7") (mixed.commonEntry .id) :=
    .intro (shows_plainly (by decide)) (shows_integer (by decide))
  exact .mapping (.cons hparts (.cons (.intro (shows_plainly (by decide)) (shows_plainly (by decide)))
    (.cons hmetadata (.cons hsizes (.cons (.intro (shows_plainly (by decide))
      (shows_plainly (by decide))) (.cons hid .nil))))))

/-- The descriptor is read back from that document, with its payload in another order. -/
theorem ofBytes_written_mixed :
    mixed.Writable ∧ Arranges mixed mixedEntries ∧ ReadsBack mixedEntries ∧
    ∃ bytes, documentBytes mixedEntries = .ok bytes ∧
      ofBytes bytes = .ok { mixed with payload := [parts, sizes] } := by
  obtain ⟨bytes, hbytes, hread, -⟩ := ofBytes_written writable_mixed arranges_mixed readsBack_mixed
  exact ⟨writable_mixed, arranges_mixed, readsBack_mixed, bytes, hbytes, hread⟩

/-- A descriptor of data under a key that is a mapping of one entry, as it is itself. -/
def lone : Descriptor where
  id := 5
  kind := .keyValue
  state := .opened
  payload := [(.string "a", .mapping
    [(.mapping [(.string "b", .integer (.ofWord 1))], .integer (.ofWord 2))])]

/-- No text is written for it, though there are no tags in it. -/
theorem ofBytes_written_needs_writable :
    (∀ e ∈ lone.payload, Apart e) ∧ (∀ e ∈ lone.payload, e.2.depth ≤ payloadDepth) ∧
    Yaml.distinctInEntries [] lone.payload = .ok () ∧
    lone.toBytes = .error (.refused .nodeExpected) := by
  refine ⟨List.forall_mem_singleton.mpr ⟨rfl, fun s => by cases s <;> decide⟩,
    List.forall_mem_singleton.mpr (by decide), rfl, by decide +kernel⟩

end StorageNode.Descriptor
