import Mathlib.Data.List.Nodup
import StorageNode.Proofs.Json.Skipping

/-!
# Lists and records are read

Lists, optional values and records are read from all of their texts, if what they consist of is
(`Json.list_reads`, `Json.optional_reads`, `Json.Shape.Fills.reads`).

A record is read into a draft. What the draft holds at any point depends on nothing but the names of the
fields read so far, in whatever order they came (`Json.Shape.Fills`): each field takes the draft from some
names to one name more (`Json.FieldShape.Takes`). Along the members of an object these names and those of
the parts still to come make up all of the record's (`Json.Shape.Fills.members`); the array is the case in
which the fields come in order (`Json.Shape.Fills.positional`).
-/

namespace StorageNode.Json

/-! ## Arrays -/

theorem not_blankByte_comma : ¬ BlankByte 0x2C := by
  unfold BlankByte
  decide

theorem not_blankByte_bracket : ¬ BlankByte 0x5D := not_blankByte_closing false

theorem not_blankByte_brace : ¬ BlankByte 0x7D := not_blankByte_closing true

theorem delimited_bracket (rest : Bytes) : Delimited (0x5D :: rest) := delimited_closing false rest

theorem delimited_brace (rest : Bytes) : Delimited (0x7D :: rest) := delimited_closing true rest

theorem nextItem_closing {w : Bytes} (hw : Blank w) (first : Bool) (rest : Bytes) :
    nextItem first (w ++ 0x5D :: rest) = .ok none := by
  rw [nextItem, skipBlanks_to hw not_blankByte_bracket]
  rfl

/-- The reader goes to the item that comes next. -/
theorem nextItem_lead {first : Bool} {lead v : Bytes} (h : Lead first lead) (hv : Opens v)
    (rest : Bytes) : nextItem first (lead ++ (v ++ rest)) = .ok (some (v ++ rest)) := by
  obtain ⟨b, more, rfl, hb, hne⟩ := hv
  cases h with
  | first hw =>
      rw [nextItem, List.cons_append, skipBlanks_to hw hb]
      simp only [hne, if_false, if_true]
  | later hw hw' =>
      rw [nextItem, List.append_assoc, List.cons_append, skipBlanks_to hw not_blankByte_comma]
      simp only [List.cons_append, skipBlanks_to hw' hb, hne, if_false]
      rfl

theorem closeArray_closing {w : Bytes} (hw : Blank w) (rest : Bytes) :
    closeArray (w ++ 0x5D :: rest) = .ok rest := by
  rw [closeArray, skipBlanks_to hw not_blankByte_bracket]
  rfl

/-- There are no more items than bytes, but for the first one. -/
theorem Items.length_le {first : Bool} {ts : List Bytes} {body : Bytes} (h : Items first ts body) :
    ts.length ≤ body.length + first.toNat := by
  induction h with
  | done => exact Nat.zero_le _
  | @item first lead v bs vs hlead _ ih =>
      have hcomma : 1 ≤ lead.length + first.toNat := by
        cases hlead with
        | first => simp
        | later => simp; omega
      simp only [List.length_append, List.length_cons, Bool.toNat_false] at ih ⊢
      omega

variable {α : Type} {read : Reader α} {form : Form α}

/-- **Items are read one after another**, up to the bracket that closes. -/
theorem items_text (h : ∀ a, Reads read (form a) a) {as : List α} {vs : List Bytes}
    (hvs : List.Forall₂ form as vs) : ∀ {first : Bool} {body : Bytes}, Items first vs body →
    ∀ (rest : Bytes) {fuel : Nat}, vs.length < fuel → ∃ w, Blank w ∧
      items read fuel first (body ++ 0x5D :: rest) = .ok (as, w ++ 0x5D :: rest) := by
  induction hvs with
  | nil =>
      rintro first body ⟨hw⟩ rest fuel hfuel
      obtain ⟨fuel, rfl⟩ := Nat.exists_eq_succ_of_ne_zero (Nat.ne_zero_of_lt hfuel)
      exact ⟨body, hw, by rw [items, nextItem_closing hw]⟩
  | @cons a v as vs hv _ ih =>
      rintro first _ (_ | @⟨_, lead, _, body, _, hlead, hrest⟩) rest fuel hfuel
      obtain ⟨fuel, rfl⟩ := Nat.exists_eq_succ_of_ne_zero (Nat.ne_zero_of_lt hfuel)
      obtain ⟨w, hw, hitems⟩ := ih hrest rest (Nat.lt_of_succ_lt_succ hfuel)
      have hread := (h a).eq_ok hv blank_nil (hrest.delimited (delimited_bracket rest))
      refine ⟨w, hw, ?_⟩
      rw [List.append_assoc, List.append_assoc, items,
        nextItem_lead hlead ((h a).opens hv)]
      rw [List.nil_append] at hread
      simp only [hread, hitems]

/-- **A list is read from its texts**, if its items are. -/
theorem list_reads (h : ∀ a, Reads read (form a) a) (as : List α) :
    Reads (list read) (listText form as) as where
  opens := by
    rintro _ ⟨vs, body, -, -, rfl⟩
    exact ⟨_, _, rfl, by simp [BlankByte], by decide⟩
  eq_ok := by
    rintro _ w rest ⟨vs, body, hvs, hbody, rfl⟩ hw -
    have hfuel : vs.length < (body ++ 0x5D :: rest).length + 1 := by
      have hle := hbody.length_le
      simp only [List.length_append, List.length_cons, Bool.toNat_true] at hle ⊢
      omega
    obtain ⟨w', hw', hitems⟩ := items_text h hvs hbody rest hfuel
    rw [List.cons_append, List.append_assoc, list, skipBlanks_to hw (by simp [BlankByte])]
    simp only [if_true, List.cons_append, List.nil_append, hitems, closeArray_closing hw']
    rfl

/-! ## Optional values -/

/-- **An optional value is read from its texts**, if the value is, and none of its texts begins like the
literal for none. -/
theorem optional_reads (h : ∀ a, Reads read (form a) a)
    (hform : ∀ a bs, form a bs → bs.head? ≠ some 0x6E) (o : Option α) :
    Reads (optional read) (optionText form o) o where
  opens := by
    intro bs hbs
    cases o with
    | some a => exact (h a).opens hbs
    | none =>
        obtain rfl : bs = nullText := hbs
        exact ⟨_, _, rfl, by simp [BlankByte], by decide⟩
  eq_ok := by
    intro bs w rest hbs hw hrest
    cases o with
    | some a =>
        obtain ⟨b, more, rfl, hb, -⟩ := (h a).opens hbs
        have hne : b ≠ 0x6E := fun heq => hform a _ hbs (congrArg some heq)
        have hread := (h a).eq_ok hbs blank_nil hrest
        rw [List.cons_append] at hread ⊢
        rw [List.nil_append] at hread
        rw [optional, skipBlanks_to hw hb]
        simp only [hne, if_false, hread]
        rfl
    | none =>
        obtain rfl : bs = nullText := hbs
        rw [nullText, List.cons_append, optional, skipBlanks_to hw (by simp [BlankByte])]
        rfl

/-- What is read may be carried over. -/
theorem Reads.map {β : Type} {text : Bytes → Prop} {a : α} (h : Reads read text a) (f : α → β) :
    Reads (fun bs => (read bs).map fun (a, rest) => (f a, rest)) text (f a) where
  opens := h.opens
  eq_ok := by
    intro bs w rest hbs hw hrest
    rw [h.eq_ok hbs hw hrest]
    rfl

/-- A value is read from a whole text, with blanks around it. -/
theorem decode_text {text : Bytes → Prop} {a : α} (h : Reads read text a) {w v w' : Bytes}
    (hw : Blank w) (hv : text v) (hw' : Blank w') : decode read (w ++ (v ++ w')) = .ok a := by
  have hnil : Delimited ([] : Bytes) := fun b hb => nomatch hb
  have hend : Delimited w' := by simpa using hw'.delimited hnil
  simp only [decode, h.eq_ok hv hw hend, skipBlanks_eq_nil hw']

/-! ## Records -/

variable {δ : Type}

/-- A field takes a part of a record into the draft, whichever fields have been read before. -/
structure FieldShape.Takes (f : FieldShape δ) (p : Part) (draft : List String → δ) : Prop where
  name_eq : f.name = p.name
  present_eq : ∀ names, f.present (draft names) = decide (p.name ∈ names)
  reads : ∀ names, Reads (f.read (draft names)) p.text (draft (p.name :: names))
  hasDefault : p.mayOmit → f.hasDefault = true

/-- **The fields of a record take its parts**; `draft` gives the draft in which the fields of some names
have been read, and the record is complete when no name is left out but those that may be. -/
structure Shape.Fills (s : Shape δ α) (parts : List Part) (draft : List String → δ) (a : α) :
    Prop where
  nodup : (parts.map (·.name)).Nodup
  takes : List.Forall₂ (fun f p => f.Takes p draft) s.fields parts
  empty_eq : s.empty = draft []
  complete_eq : ∀ names, (∀ p ∈ parts, p.name ∉ names → p.mayOmit) →
    s.complete (draft names) = a

/-- The field of a part's name is the one that takes the part. -/
theorem find?_takes {draft : List String → δ} {fields : List (FieldShape δ)} {parts : List Part}
    (h : List.Forall₂ (fun f p => FieldShape.Takes f p draft) fields parts)
    (hnodup : (parts.map (·.name)).Nodup) {p : Part} (hp : p ∈ parts) :
    ∃ f, fields.find? (·.name = p.name) = some f ∧ f.Takes p draft := by
  induction h with
  | nil => exact absurd hp List.not_mem_nil
  | @cons f q fields parts hq _ ih =>
      obtain ⟨hnew, hnodup⟩ := List.nodup_cons.mp hnodup
      rcases List.mem_cons.mp hp with rfl | hp
      · exact ⟨f, List.find?_cons_of_pos (by simp [hq.name_eq]), hq⟩
      · have hne : f.name ≠ p.name := by
          rw [hq.name_eq]
          intro heq
          exact hnew (List.mem_map.mpr ⟨p, hp, heq.symm⟩)
        rw [List.find?_cons_of_neg (by simp [hne])]
        exact ih hnodup hp

/-- No field has a name that no part has. -/
theorem find?_unknown {draft : List String → δ} {fields : List (FieldShape δ)} {parts : List Part}
    (h : List.Forall₂ (fun f p => FieldShape.Takes f p draft) fields parts) {n : String}
    (hn : n ∉ parts.map (·.name)) : fields.find? (·.name = n) = none := by
  induction h with
  | nil => rfl
  | cons hq _ ih =>
      rw [List.map_cons, List.mem_cons, not_or] at hn
      rw [List.find?_cons_of_neg (by simpa [hq.name_eq] using Ne.symm hn.1)]
      exact ih hn.2

section
variable {s : Shape δ α} {first : Bool} {w : Bytes}

theorem nextKey_closing (hw : Blank w) (rest : Bytes) :
    Shape.nextKey first (w ++ 0x7D :: rest) = .ok none := by
  rw [Shape.nextKey, skipBlanks_to hw not_blankByte_brace]
  rfl

/-- The reader goes to the name that comes next. -/
theorem nextKey_lead {lead : Bytes} (h : Lead first lead) (rest : Bytes) :
    Shape.nextKey first (lead ++ 0x22 :: rest) = .ok (some rest) := by
  cases h with
  | first hw =>
      rw [Shape.nextKey, skipBlanks_to hw not_blankByte_quote]
      rfl
  | later hw hw' =>
      rw [Shape.nextKey, List.append_assoc, List.cons_append, skipBlanks_to hw not_blankByte_comma]
      simp only [skipBlanks_to hw' not_blankByte_quote]
      rfl

theorem colon_blank (hw : Blank w) (rest : Bytes) : Shape.colon (w ++ 0x3A :: rest) = .ok rest := by
  rw [Shape.colon, skipBlanks_to hw not_blankByte_colon]
  rfl

theorem closeObject_closing (hw : Blank w) (rest : Bytes) :
    Shape.closeObject (w ++ 0x7D :: rest) = .ok rest := by
  rw [Shape.closeObject, skipBlanks_to hw not_blankByte_brace]
  rfl

/-- The members of an object end in front of the brace that closes. -/
theorem members_closing (hw : Blank w) (fuel : Nat) (draft : δ) (rest : Bytes) :
    s.members (fuel + 1) first draft (w ++ 0x7D :: rest) = .ok (draft, w ++ 0x7D :: rest) := by
  rw [Shape.members, nextKey_closing hw]

/-- **One member is read**, if its value is, behind the name and the colon. -/
theorem members_member {lead name value m rest : Bytes} {n : String} {old new : δ}
    (hlead : Lead first lead) (hname : Spelled n name) (hm : MemberText name value m)
    (hmember : ∀ {u u'}, Blank u → Blank u' →
      s.member n old (u ++ 0x3A :: (u' ++ (value ++ rest))) = .ok (new, rest)) (fuel : Nat) :
    s.members (fuel + 1) first old (lead ++ (m ++ rest)) = s.members fuel false new rest := by
  obtain ⟨body, hbody, rfl⟩ := hname
  obtain @⟨u, u', hu, hu'⟩ := hm
  have hvalue := hmember hu hu'
  have hkey := stringBody_spelled hbody (u ++ 0x3A :: (u' ++ (value ++ rest)))
  have htext : quoted body ++ (u ++ 0x3A :: (u' ++ value)) ++ rest =
      0x22 :: (body ++ 0x22 :: (u ++ 0x3A :: (u' ++ (value ++ rest)))) := by simp [quoted]
  rw [htext, Shape.members, nextKey_lead hlead]
  simp only [hkey, hvalue]

end

/-- The parts that are still to come when those of some names have been read: all the others, each
once. -/
structure Awaits (parts : List Part) (names : List String) (ahead : List Part) : Prop where
  nodup : ahead.Nodup
  unread : ∀ p ∈ ahead, p ∈ parts ∧ p.name ∉ names
  all : ∀ p ∈ parts, p.name ∉ names → p ∈ ahead

theorem Awaits.start {parts : List Part} (h : (parts.map (·.name)).Nodup) :
    Awaits parts [] parts where
  nodup := List.Nodup.of_map _ h
  unread _ hp := ⟨hp, List.not_mem_nil⟩
  all _ hp _ := hp

/-- Once a part has been read, the others are still to come. -/
theorem Awaits.behind {parts ahead behind : List Part} {names : List String} {p : Part}
    (h : Awaits parts names ahead) (hparts : (parts.map (·.name)).Nodup)
    (hp : ahead.Perm (p :: behind)) : Awaits parts (p.name :: names) behind := by
  obtain ⟨hlater, hnodup⟩ := List.nodup_cons.mp (hp.nodup_iff.mp h.nodup)
  have hpart := (h.unread p (hp.mem_iff.mpr List.mem_cons_self)).1
  refine ⟨hnodup, fun q hq => ?_, fun q hq hnot => ?_⟩
  · -- a part that is still to come has another name than the one that is read
    obtain ⟨hq', hqnew⟩ := h.unread q (hp.mem_iff.mpr (List.mem_cons_of_mem p hq))
    have hne : q.name ≠ p.name := by
      intro heq
      exact hlater (List.inj_on_of_nodup_map hparts hq' hpart heq ▸ hq)
    exact ⟨hq', List.not_mem_cons_of_ne_of_not_mem hne hqnew⟩
  · obtain ⟨hne, hnot⟩ := List.ne_and_not_mem_of_not_mem_cons hnot
    rcases List.mem_cons.mp (hp.mem_iff.mp (h.all q hq hnot)) with rfl | hq
    · exact absurd rfl hne
    · exact hq

namespace Shape.Fills

variable {s : Shape δ α} {parts : List Part} {draft : List String → δ} {a : α}

/-- The value of a part that has not been read yet is taken into the draft. -/
theorem member_part (h : s.Fills parts draft a) {p : Part} (hp : p ∈ parts) {names : List String}
    (hnew : p.name ∉ names) {u u' value rest : Bytes} (hvalue : p.text value)
    (hrest : Delimited rest) (hu : Blank u) (hu' : Blank u') :
    s.member p.name (draft names) (u ++ 0x3A :: (u' ++ (value ++ rest))) =
      .ok (draft (p.name :: names), rest) := by
  obtain ⟨f, hf, htakes⟩ := find?_takes h.takes h.nodup hp
  have hpresent : f.present (draft names) = false := by simp [htakes.present_eq, hnew]
  simp only [Shape.member, hf, hpresent, colon_blank hu, Bool.false_eq_true, if_false,
    (htakes.reads names).eq_ok hvalue hu' hrest]

/-- The value of a name that is not known leaves the draft as it is. -/
theorem member_unknown (h : s.Fills parts draft a) {n : String} (hn : n ∉ parts.map (·.name))
    {u u' value rest : Bytes} (hvalue : ValueText value) (hrest : Delimited rest) (hu : Blank u)
    (hu' : Blank u') (old : δ) :
    s.member n old (u ++ 0x3A :: (u' ++ (value ++ rest))) = .ok (old, rest) := by
  simp only [Shape.member, find?_unknown h.takes hn, colon_blank hu, skipValue_text hvalue hu' hrest]
  rfl

/-- **The members of an object are read**, up to the brace that closes: no part is missing in the end but
those that may be left out. -/
theorem members (h : s.Fills parts draft a) {ahead : List Part} {ms : List Bytes}
    (hms : Members (parts.map (·.name)) ahead ms) : ∀ {names : List String},
    Awaits parts names ahead → ∀ {first : Bool} {body : Bytes}, Items first ms body →
    ∀ (rest : Bytes) {fuel : Nat}, ms.length < fuel → ∃ names' w, Blank w ∧
      (∀ p ∈ parts, p.name ∉ names' → p.mayOmit) ∧
      s.members fuel first (draft names) (body ++ 0x7D :: rest) =
        .ok (draft names', w ++ 0x7D :: rest) := by
  induction hms with
  | @done ahead homit =>
      rintro names hawaits first body ⟨hw⟩ rest fuel hfuel
      obtain ⟨fuel, rfl⟩ := Nat.exists_eq_succ_of_ne_zero (Nat.ne_zero_of_lt hfuel)
      exact ⟨names, body, hw, fun p hp hnot => homit p (hawaits.all p hp hnot),
        members_closing hw fuel _ rest⟩
  | @part ahead behind p name value m ms hp hname hvalue hm _ ih =>
      rintro names hawaits first _ (_ | @⟨_, lead, _, body, _, hlead, hrest⟩) rest fuel hfuel
      obtain ⟨fuel, rfl⟩ := Nat.exists_eq_succ_of_ne_zero (Nat.ne_zero_of_lt hfuel)
      obtain ⟨hpart, hnew⟩ := hawaits.unread p (hp.mem_iff.mpr List.mem_cons_self)
      obtain ⟨names', w, hw, homit, hmembers⟩ :=
        ih (hawaits.behind h.nodup hp) hrest rest (Nat.lt_of_succ_lt_succ hfuel)
      refine ⟨names', w, hw, homit, ?_⟩
      have hbehind := hrest.delimited (delimited_brace rest)
      rw [List.append_assoc, List.append_assoc,
        members_member hlead hname hm (h.member_part hpart hnew hvalue hbehind)]
      exact hmembers
  | @unknown ahead n name value m ms hn hname hvalue hm _ ih =>
      rintro names hawaits first _ (_ | @⟨_, lead, _, body, _, hlead, hrest⟩) rest fuel hfuel
      obtain ⟨fuel, rfl⟩ := Nat.exists_eq_succ_of_ne_zero (Nat.ne_zero_of_lt hfuel)
      obtain ⟨names', w, hw, homit, hmembers⟩ :=
        ih hawaits hrest rest (Nat.lt_of_succ_lt_succ hfuel)
      refine ⟨names', w, hw, homit, ?_⟩
      have hbehind := hrest.delimited (delimited_brace rest)
      rw [List.append_assoc, List.append_assoc, members_member hlead hname hm
        fun hu hu' => h.member_unknown hn hvalue hbehind hu hu' (draft names)]
      exact hmembers

/-- The record is finished when no part is missing but those that may be left out. -/
theorem finish (h : s.Fills parts draft a) {names : List String}
    (homit : ∀ p ∈ parts, p.name ∉ names → p.mayOmit) : s.finish (draft names) = .ok a := by
  have hnone : s.fields.find? (fun f => !f.hasDefault && !f.present (draft names)) = none := by
    rw [List.find?_eq_none]
    intro f hf
    obtain ⟨p, hp, htakes⟩ := exists_mem_of_forall₂ h.takes.flip f hf
    by_cases hname : p.name ∈ names
    · simp [htakes.present_eq, hname]
    · simp [htakes.hasDefault (homit p hp hname)]
  simp only [Shape.finish, hnone, h.complete_eq names homit]

/-- Fields that are left out at the end of an array keep the draft as it is. -/
theorem positional_omitted {fields : List (FieldShape δ)} (hdefault : ∀ f ∈ fields, f.hasDefault = true)
    {w : Bytes} (hw : Blank w) (old : δ) (rest : Bytes) : ∀ index,
    s.positional fields index old (w ++ 0x5D :: rest) = .ok (old, w ++ 0x5D :: rest) := by
  induction fields with
  | nil => exact fun _ => rfl
  | cons f fields ih =>
      intro index
      obtain ⟨hf, hfields⟩ := List.forall_mem_cons.mp hdefault
      simp only [Shape.positional, nextItem_closing hw, hf, if_true, ih hfields]

/-- **The items of an array are read as the fields in order**, up to the bracket that closes. -/
theorem positional {written omitted : List Part} {vs : List Bytes}
    (hvs : List.Forall₂ (·.text ·) written vs) (homitted : ∀ p ∈ omitted, p.mayOmit) :
    ∀ {fields : List (FieldShape δ)} (names : List String) (index : Nat),
    List.Forall₂ (fun f p => f.Takes p draft) fields (written ++ omitted) →
    ∀ {body : Bytes}, Items (decide (index = 0)) vs body → ∀ rest : Bytes, ∃ w, Blank w ∧
      s.positional fields index (draft names) (body ++ 0x5D :: rest) =
        .ok (draft ((written.map (·.name)).reverse ++ names), w ++ 0x5D :: rest) := by
  induction hvs with
  | nil =>
      rintro fields names index htakes body ⟨hw⟩ rest
      refine ⟨body, hw, positional_omitted (fun f hf => ?_) hw _ rest index⟩
      obtain ⟨p, hp, hfp⟩ := exists_mem_of_forall₂ htakes.flip f hf
      exact hfp.hasDefault (homitted p hp)
  | @cons p v written vs hv _ ih =>
      rintro _ names index (_ | @⟨f, _, fields, _, hf, htakes⟩) _
        (_ | @⟨_, lead, _, body, _, hlead, hrest⟩) rest
      obtain ⟨w, hw, hpositional⟩ :=
        ih (p.name :: names) (index + 1) htakes hrest rest
      have hread := (hf.reads names).eq_ok hv blank_nil
        (hrest.delimited (delimited_bracket rest))
      refine ⟨w, hw, ?_⟩
      rw [List.append_assoc, List.append_assoc, Shape.positional,
        nextItem_lead hlead ((hf.reads names).opens hv)]
      rw [List.nil_append] at hread
      simp only [hread, hpositional, List.map_cons, List.reverse_cons, List.append_assoc,
        List.cons_append, List.nil_append]

/-- **A record is read from its texts.** -/
theorem reads (h : s.Fills parts draft a) : Reads s.read (RecordText parts) a where
  opens := by
    rintro _ (_ | _)
    · exact ⟨_, _, rfl, by simp [BlankByte], by decide⟩
    · exact ⟨_, _, rfl, by simp [BlankByte], by decide⟩
  eq_ok := by
    rintro _ w rest htext hw -
    cases htext with
    | @object ms body hms hbody =>
        have hfuel : ms.length < (body ++ 0x7D :: rest).length + 1 := by
          have hle := hbody.length_le
          simp only [List.length_append, List.length_cons, Bool.toNat_true] at hle ⊢
          omega
        obtain ⟨names, w', hw', homit, hmembers⟩ :=
          h.members hms (.start h.nodup) hbody rest hfuel
        rw [← h.empty_eq] at hmembers
        rw [List.cons_append, List.append_assoc, Shape.read, skipBlanks_to hw (by simp [BlankByte])]
        simp only [List.cons_append, List.nil_append, hmembers, h.finish homit,
          closeObject_closing hw']
        rfl
    | @array written omitted vs body hparts homitted hvs hbody =>
        subst hparts
        obtain ⟨w', hw', hpositional⟩ :=
          positional (s := s) hvs homitted [] 0 h.takes hbody rest
        rw [← h.empty_eq] at hpositional
        have hcomplete := h.complete_eq ((written.map (·.name)).reverse ++ []) <| by
          intro p hp hnot
          rcases List.mem_append.mp hp with hp | hp
          · exact absurd (by simpa using ⟨p, hp, rfl⟩) hnot
          · exact homitted p hp
        rw [List.cons_append, List.append_assoc, Shape.read, skipBlanks_to hw (by simp [BlankByte])]
        simp only [List.cons_append, List.nil_append, hpositional, closeArray_closing hw', if_true,
          Except.map, hcomplete]

end Shape.Fills

end StorageNode.Json
