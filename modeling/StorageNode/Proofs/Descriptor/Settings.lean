import StorageNode.Proofs.Descriptor

/-!
# Which entries the settings come from

The settings of a container are in two entries of the payload of its descriptor. All other entries are
passed over (`SettingsDraft.addAll_filter`), so payloads that agree in the two entries give the same
answer, settings or error, whatever else is in them (`settings?_congr`). As no key stands twice, what is
left of a payload has one of five forms (`settingEntries_cases`), and in each the answer is at hand.

In a payload whose keys are not all strings the other entries do count: a key that is no string is an
error.
-/

namespace StorageNode.Descriptor

open Yaml (Value Integer)

/-! ## The entries of settings -/

/-- The key of one of the two settings. -/
def isSettingKey : Value → Bool
  | .string name => name = "index_db_type" || name = "max_size_gb"
  | _ => false

/-- The entries of a payload that hold settings. -/
def settingEntries (es : List (Value × Value)) : List (Value × Value) :=
  es.filter fun e => isSettingKey e.1

/-- The keys are strings, and none of them stands twice. -/
def Named (es : List (Value × Value)) : Prop :=
  ∃ names : List String, names.Nodup ∧ es.map (·.1) = names.map Value.string

section

variable {es : List (Value × Value)}

theorem Named.exists_name (h : Named es) {e : Value × Value} (he : e ∈ es) :
    ∃ name, e.1 = .string name := by
  obtain ⟨names, -, hkeys⟩ := h
  have hkey : e.1 ∈ names.map Value.string := hkeys ▸ List.mem_map_of_mem he
  obtain ⟨name, -, hname⟩ := List.mem_map.mp hkey
  exact ⟨name, hname.symm⟩

theorem Named.nodup_keys (h : Named es) : (es.map (·.1)).Nodup := by
  obtain ⟨names, hnodup, hkeys⟩ := h
  exact hkeys ▸ hnodup.map fun _ _ => Value.string.inj

/-- Other entries change nothing. -/
theorem SettingsDraft.add_of_other {draft : SettingsDraft} {name : String} {v : Value}
    (hother : isSettingKey (.string name) = false) : draft.add (.string name, v) = .ok draft := by
  obtain ⟨hindex, hsize⟩ : name ≠ "index_db_type" ∧ name ≠ "max_size_gb" := by
    simpa [isSettingKey] using hother
  simp [SettingsDraft.add, stringIn, Value.untagged, hindex, hsize]

/-- **Only the entries of the settings count**, where the keys are strings. -/
theorem SettingsDraft.addAll_filter (draft : SettingsDraft)
    (hstrings : ∀ e ∈ es, ∃ name, e.1 = .string name) :
    draft.addAll (settingEntries es) = draft.addAll es := by
  induction es generalizing draft with
  | nil => rfl
  | cons e es ih =>
      obtain ⟨k, v⟩ := e
      obtain ⟨⟨name, rfl⟩, hrest⟩ := List.forall_mem_cons.mp hstrings
      cases hsetting : isSettingKey (.string name) with
      | false =>
          rw [settingEntries, List.filter_cons_of_neg (by simp [hsetting]), addAll,
            add_of_other hsetting]
          exact ih draft hrest
      | true =>
          rw [settingEntries, List.filter_cons_of_pos (by simp [hsetting]), addAll, addAll]
          split
          · rfl
          · exact ih _ hrest

/-- **The settings depend on their entries alone**: on no other entry, and on no common field. -/
theorem settings?_congr {d e : Descriptor} (hd : Named d.payload) (he : Named e.payload)
    (hsame : settingEntries e.payload = settingEntries d.payload) : e.settings? = d.settings? := by
  have hread : ∀ {c : Descriptor}, Named c.payload →
      ({} : SettingsDraft).addAll c.payload = ({} : SettingsDraft).addAll (settingEntries c.payload) :=
    fun hc => (SettingsDraft.addAll_filter _ fun _ hmem => hc.exists_name hmem).symm
  rw [settings?, settings?, hread hd, hread he, hsame]

/-! ## The settings -/

/-- Each setting has one entry at most, so that there are five forms. -/
theorem settingEntries_cases (h : Named es) :
    settingEntries es = [] ∨ (∃ v, settingEntries es = [(.string "index_db_type", v)]) ∨
      (∃ w, settingEntries es = [(.string "max_size_gb", w)]) ∨
      (∃ v w, settingEntries es = [(.string "index_db_type", v), (.string "max_size_gb", w)]) ∨
      ∃ v w, settingEntries es = [(.string "max_size_gb", w), (.string "index_db_type", v)] := by
  have hkey : ∀ e ∈ settingEntries es,
      e.1 = .string "index_db_type" ∨ e.1 = .string "max_size_gb" := by
    intro e he
    obtain ⟨he, hsetting⟩ := List.mem_filter.mp he
    obtain ⟨name, hname⟩ := h.exists_name he
    simpa [isSettingKey, hname] using hsetting
  have hnodup : ((settingEntries es).map (·.1)).Nodup :=
    h.nodup_keys.sublist (List.filter_sublist.map _)
  generalize settingEntries es = found at hkey hnodup
  match found with
  | [] => exact .inl rfl
  | [(k, v)] => simpa using hkey
  | [(k, v), (l, w)] =>
      obtain ⟨hk, hl⟩ : (k = .string "index_db_type" ∨ k = .string "max_size_gb") ∧
          (l = .string "index_db_type" ∨ l = .string "max_size_gb") := by simpa using hkey
      rcases hk with rfl | rfl <;> rcases hl with rfl | rfl <;> simp_all
  | (k, v) :: (l, w) :: (m, x) :: rest =>
      simp only [List.forall_mem_cons] at hkey
      obtain ⟨hk, hl, hm, -⟩ := hkey
      rcases hk with rfl | rfl <;> rcases hl with rfl | rfl <;> rcases hm with rfl | rfl <;> simp_all

end

/-- A string is read off a value that is one, perhaps with tags. -/
theorem stringIn_eq_ok_iff (expected : String) {v : Value} {s : String} :
    stringIn expected v = .ok s ↔ v.untagged = .string s := by
  unfold stringIn
  split
  · next t ht => simp [ht]
  · next hno => simpa using hno s

/-- An unsigned number is read off an integer that is not negative, perhaps with tags. -/
theorem wordIn_eq_ok_iff {v : Value} {n : UInt64} :
    wordIn v = .ok n ↔ ∃ m : Integer, v.untagged = .integer m ∧ m.value = n.toNat := by
  unfold wordIn
  split
  · next m hm =>
      have hword : (∃ m' : Integer, v.untagged = .integer m' ∧ m'.value = n.toNat) ↔
          m.value = n.toNat := by simp [hm]
      rw [hword]
      split
      · next hpos =>
          have hfits : m.value.toNat < UInt64.size := by
            have hupper := m.upper
            rw [UInt64.size]
            omega
          rw [Except.ok.injEq, ← UInt64.toNat_inj, UInt64.toNat_ofNat_of_lt' hfits]
          omega
      · next hneg =>
          simp only [reduceCtorEq, false_iff]
          omega
  · next hno =>
      refine ⟨fun h => by simp at h, fun ⟨m, hm, _⟩ => absurd hm (hno m)⟩

/-- **The settings are the values of their entries**, and those have to be there. -/
theorem settings?_eq_ok_iff {d : Descriptor} (hd : Named d.payload) {s : ContainerSettings} :
    d.settings? = .ok s ↔
      (∃ v, (.string "index_db_type", v) ∈ d.payload ∧ v.untagged = .string s.indexDatabase) ∧
      ∃ w, (.string "max_size_gb", w) ∈ d.payload ∧
        ∃ n : Integer, w.untagged = .integer n ∧ n.value = s.maxGigabytes.toNat := by
  have hmem : ∀ {k v : Value}, isSettingKey k = true →
      ((k, v) ∈ d.payload ↔ (k, v) ∈ settingEntries d.payload) := fun hk => by
    simp [settingEntries, hk]
  have hread := SettingsDraft.addAll_filter {} fun e he => hd.exists_name (e := e) he
  simp only [hmem (show isSettingKey (.string "index_db_type") = true from rfl),
    hmem (show isSettingKey (.string "max_size_gb") = true from rfl), settings?, ← hread,
    ← stringIn_eq_ok_iff "a string", ← wordIn_eq_ok_iff]
  obtain ⟨index, size⟩ := s
  have hkey : ∀ name, stringIn "field identifier" (.string name) = .ok name := fun _ => rfl
  obtain hform | ⟨v, hform⟩ | ⟨w, hform⟩ | ⟨v, w, hform⟩ | ⟨v, w, hform⟩ := settingEntries_cases hd
  all_goals
    simp only [hform, SettingsDraft.addAll, SettingsDraft.add, hkey, SettingsDraft.complete]
  · simp
  · cases hv : stringIn "a string" v <;> simp [hv, Except.map]
  · cases hw : wordIn w <;> simp [hw, Except.map]
  · cases hv : stringIn "a string" v <;> cases hw : wordIn w <;> simp [hv, hw, Except.map]
  · cases hv : stringIn "a string" v <;> cases hw : wordIn w <;> simp [hv, hw, Except.map]

/-- **The settings are in two entries.** They are read exactly if the one is there with a string and the
other with an unsigned number of 64 bits, and they are these two. Whatever else the payload holds, in
whatever order, and whatever the common fields are, the answer is the same. A new container is given the
settings that it was made with. -/
theorem settings?_from_entries (d : Descriptor) (hnamed : Named d.payload)
    (huntagged : ∀ e ∈ settingEntries d.payload, e.2.untagged = e.2) :
    (∀ s : ContainerSettings, d.settings? = .ok s ↔
      (.string "index_db_type", .string s.indexDatabase) ∈ d.payload ∧
      ∃ n : Integer, (.string "max_size_gb", .integer n) ∈ d.payload ∧
        n.value = s.maxGigabytes.toNat) ∧
    (∀ e : Descriptor, Named e.payload →
      settingEntries e.payload = settingEntries d.payload → e.settings? = d.settings?) ∧
    ∀ (id : ContainerId) (s : ContainerSettings), (keyValue id s).settings? = .ok s := by
  have hvalue : ∀ {k v : Value}, isSettingKey k = true → (k, v) ∈ d.payload → v.untagged = v :=
    fun hk hv => huntagged _ (List.mem_filter.mpr ⟨hv, hk⟩)
  refine ⟨fun s => ?_, fun e he => settings?_congr hnamed he, settings?_keyValue⟩
  rw [settings?_eq_ok_iff hnamed]
  constructor
  · rintro ⟨⟨v, hv, hstring⟩, w, hw, n, hinteger, hn⟩
    rw [hvalue rfl hv] at hstring
    rw [hvalue rfl hw] at hinteger
    exact ⟨hstring ▸ hv, n, hinteger ▸ hw, hn⟩
  · rintro ⟨hv, n, hw, hn⟩
    exact ⟨⟨_, hv, rfl⟩, _, hw, n, rfl, hn⟩

/-- The payload of an odd descriptor: a text that looks like a number is a string, and a number and a
tagged mapping are beside the settings. -/
def oddPayload : List (Value × Value) :=
  [(.string "note", .tagged "odd" (.mapping [(.null, .bool true)])),
    (.string "max_size_gb", .integer (.ofWord 18446744073709551615)),
    (.string "Max_size_gb", .integer (.ofWord 1)), (.string "index_db_type", .string "007")]

theorem settings?_from_oddPayload :
    (Named oddPayload ∧ ∀ e ∈ settingEntries oddPayload, e.2.untagged = e.2) ∧
      { keyValue 5 {} with payload := oddPayload }.settings? = .ok ⟨"007", 18446744073709551615⟩ :=
  have hnamed : Named oddPayload :=
    ⟨["note", "max_size_gb", "Max_size_gb", "index_db_type"], by decide, rfl⟩
  have huntagged : ∀ e ∈ settingEntries oddPayload, e.2.untagged = e.2 := by
    simp [settingEntries, oddPayload, isSettingKey, Value.untagged]
  ⟨⟨hnamed, huntagged⟩,
    ((settings?_from_entries { keyValue 5 {} with payload := oddPayload } hnamed huntagged).1 _).mpr
      ⟨by simp [oddPayload], .ofWord 18446744073709551615, by simp [oddPayload], rfl⟩⟩

end StorageNode.Descriptor
