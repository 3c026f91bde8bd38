import StorageNode.Proofs.Block.Text
import StorageNode.Proofs.Json.Compact

/-!
# Block records in and out

What a record is written as is one of its texts (`Record.text_toBytes`), and a record is read from each of
its texts (`Record.ofBytes_of_text`). From these follow that writing and reading give the record back, so
that different records are written differently (`Record.toBytes_faithful`), and that whatever a text may
vary in does not matter to the reader (`Record.ofBytes_tolerant`).
-/

namespace StorageNode.Block

open Json

/-! ## Records as they are written -/

theorem ofWord_text (n : UInt64) : wordText n (ofWord n).bytes := number_bytes n.toNat

theorem Id.toValue_text (i : Id) : RecordText i.parts i.toValue.bytes :=
  recordText_compact (.part (ofWord_text _) (.part (ofWord_text _) .nil))

theorem Checksum.toValue_text (c : Checksum) : Checksum.form c c.toValue.bytes :=
  recordText_compact (.part (string_spelled _) (.part (number_bytes _)
    (.part (listText_compact string_spelled _) .nil)))

theorem Chunk.toValue_text (c : Chunk) : Chunk.form c c.toValue.bytes := by
  have hchecksum : Written [⟨"checksum", optionText Checksum.form c.checksum, c.checksum = none⟩]
      (c.checksum.map fun k => ("checksum", k.toValue)).toList := by
    cases c.checksum with
    | none => exact .omitted rfl .nil
    | some k => exact .part (Checksum.toValue_text k) .nil
  exact recordText_compact (.part (string_spelled _) (.part (ofWord_text _)
    (.part (ofWord_text _) hchecksum)))

theorem entryToValue_text (e : String × String) : entryForm e (entryToValue e).bytes :=
  recordText_compact (.part (string_spelled _) (.part (string_spelled _) .nil))

theorem Frame.toValue_text (f : Frame) : RecordText f.parts f.toValue.bytes := by
  have hsize : Written [⟨"size", optionText wordText f.size, f.size = none⟩]
      (f.size.map fun n => ("size", ofWord n)).toList := by
    cases f.size with
    | none => exact .omitted rfl .nil
    | some n => exact .part (ofWord_text n) .nil
  exact recordText_compact (.part f.id.toValue_text (.part (listText_compact Chunk.toValue_text _)
    (.part (listText_compact entryToValue_text _) hsize)))

/-- What a record is written as is one of its texts. -/
theorem Record.text_toBytes (r : Record) : Record.Text r r.toBytes := by
  refine ⟨r.metadata.entries, [], r.toFrame.toValue.bytes, [], .refl _, blank_nil, blank_nil,
    r.toFrame.toValue_text, ?_⟩
  rw [Record.toBytes, Record.toText, Frame.toText, encode_compact, List.nil_append, List.append_nil]

/-! ## Writing is faithful -/

/-- Two records are the same: they agree in all that is kept of a block, the metadata being what is found
under each key. -/
structure Record.Same (r s : Record) : Prop where
  id_eq : r.id = s.id
  chunks_eq : r.chunks = s.chunks
  recordedSize_eq : r.recordedSize = s.recordedSize
  value?_eq : ∀ key, r.value? key = s.value? key

/-- Nothing else tells two records apart: metadata is kept in the order of its keys, whatever the order
in which it was added. -/
theorem Record.same_iff_eq {r s : Record} : r.Same s ↔ r = s := by
  refine ⟨fun h => ?_, fun h => h ▸ ⟨rfl, rfl, rfl, fun _ => rfl⟩⟩
  have hmetadata : r.metadata = s.metadata := SortedMap.ext_get? h.value?_eq
  cases r
  cases s
  simp only [Record.mk.injEq]
  exact ⟨h.id_eq, hmetadata, h.chunks_eq, h.recordedSize_eq⟩

/-- **Writing is faithful and canonical**: the bytes of a record are read as the record, and two records
are the same just if they are written as the same bytes. -/
theorem Record.toBytes_faithful (r : Record) :
    (∃ r', Record.ofBytes r.toBytes = .ok r' ∧ r'.Same r ∧ r'.hasSize = r.hasSize) ∧
      ∀ s : Record, r.Same s ↔ r.toBytes = s.toBytes := by
  have hread : ∀ s : Record, Record.ofBytes s.toBytes = .ok s := fun s =>
    Record.ofBytes_of_text s.text_toBytes
  refine ⟨⟨r, hread r, Record.same_iff_eq.mpr rfl, rfl⟩, fun s => ?_⟩
  rw [Record.same_iff_eq]
  refine ⟨congrArg Record.toBytes, fun hbytes => ?_⟩
  have hok : Except.ok r = Except.ok s :=
    calc Except.ok r = Record.ofBytes r.toBytes := (hread r).symm
      _ = Record.ofBytes s.toBytes := by rw [hbytes]
      _ = .ok s := hread s
  exact Except.ok.inj hok

/-! ## Reading is tolerant -/

/-- **Reading is tolerant**: what a record is written as is one of its texts, and from each of them the
record is read. -/
theorem Record.ofBytes_tolerant (r : Record) :
    Record.Text r r.toBytes ∧ ∀ bs, Record.Text r bs → Record.ofBytes bs = .ok r :=
  ⟨r.text_toBytes, fun _ => Record.ofBytes_of_text⟩

/-- A stored form with a chunk and two metadata entries, these in descending order. -/
def Frame.varied : Frame := ⟨⟨7, 9⟩, [⟨"c", 0, 5, none⟩], [("b", "é"), ("a", "1")], none⟩

/-- The record that it stands for. -/
def Record.varied : Record :=
  ⟨⟨7, 9⟩, (SortedMap.empty.insert "a" "1").insert "b" "é", [⟨"c", 0, 5, none⟩], none⟩

/-- A text of it, as an array that leaves the size out. The identity has its fields the other way round,
and a member of another name between them. The chunk has its fields in another order, and none for its
checksum. One metadata entry is an array, the other an object. Two strings are spelled by numbers. -/
def Record.variedText : String :=
  " [ \x7b\"local_id\": 9, \"x\":[null, \"\\ud800\"],\"container_id\" :7\x7d,\n" ++
  "[\x7b\"checksum\":null,\"len\":5,\"chunk_name\":\"\\u0063\",\"offset\":0\x7d],\n" ++
  "[[\"b\",\"\\u00e9\"],\x7b\"value\":\"1\",\"key\":\"a\"\x7d] ]\n"

theorem Record.varied_text : Record.Text .varied (Utf8.encode Record.variedText) := by
  have hspace : Blank [0x20] := by simp [Blank, BlankByte]
  have hfeed : Blank [0x0A] := by simp [Blank, BlankByte]
  have hcomma : ∀ {w : Bytes}, Blank w → Lead false (0x2C :: w) := .later blank_nil
  have hfirst : Lead true [] := .first blank_nil
  have hzero : HexDigit 0x30 0 := HexDigit.decimal (n := 0) (by decide)
  -- the strings that are spelled by numbers, and half of a surrogate pair, which spells nothing
  have hc : Spelled "c" (quoted [0x5C, 0x75, 0x30, 0x30, 0x36, 0x33]) :=
    ⟨_, .cons (.digits (c := 'c') (.mk hzero hzero (.decimal (n := 6) (by decide))
      (.decimal (n := 3) (by decide)))) .nil, rfl⟩
  have hacute : Spelled "é" (quoted [0x5C, 0x75, 0x30, 0x30, 0x65, 0x39]) :=
    ⟨_, .cons (.digits (c := 'é') (.mk hzero hzero (.lower (n := 4) (by decide))
      (.decimal (n := 9) (by decide)))) .nil, rfl⟩
  have hnull : ValueText nullText := .literal (by decide)
  have hhalf : ValueText (quoted [0x5C, 0x75, 0x64, 0x38, 0x30, 0x30]) :=
    .string (.digits (.mk (.lower (n := 3) (by decide)) (.decimal (n := 8) (by decide)) hzero hzero)
      .nil)
  have hvalue : ValueText _ := .array
    (List.forall_mem_cons.mpr ⟨hnull, List.forall_mem_singleton.mpr hhalf⟩)
    (.item hfirst (.item (hcomma hspace) (.done blank_nil)))
  have hid : RecordText Frame.varied.id.parts _ := .object
    (.part (.swap _ _ _) (quote_spelled _) rfl (.mk blank_nil hspace)
      (.unknown (n := "x") (by decide) (quote_spelled _) hvalue (.mk blank_nil blank_nil)
        (.part (.refl _) (quote_spelled _) rfl (.mk hspace blank_nil) (.done (by simp)))))
    (.item hfirst (.item (hcomma hspace) (.item (hcomma blank_nil) (.done blank_nil))))
  have hchunk : Chunk.form ⟨"c", 0, 5, none⟩ _ := .object
    (.part (.trans (.cons _ (.cons _ (.swap _ _ _))) (.trans (.cons _ (.swap _ _ _)) (.swap _ _ _)))
      (quote_spelled _) rfl (.mk blank_nil blank_nil)
      (.part (.trans (.cons _ (.swap _ _ _)) (.swap _ _ _)) (quote_spelled _) rfl
        (.mk blank_nil blank_nil)
        (.part (.refl _) (quote_spelled _) hc (.mk blank_nil blank_nil)
          (.part (.refl _) (quote_spelled _) rfl (.mk blank_nil blank_nil) (.done (by simp))))))
    (.item hfirst (.item (hcomma blank_nil) (.item (hcomma blank_nil)
      (.item (hcomma blank_nil) (.done blank_nil)))))
  have hpair : entryForm ("b", "é") _ :=
    .array (List.append_nil _).symm (by simp) (.cons (quote_spelled _) (.cons hacute .nil))
      (.item hfirst (.item (hcomma blank_nil) (.done blank_nil)))
  have hentry : entryForm ("a", "1") _ := .object
    (.part (.swap _ _ _) (quote_spelled _) (quote_spelled _) (.mk blank_nil blank_nil)
      (.part (.refl _) (quote_spelled _) (quote_spelled _) (.mk blank_nil blank_nil)
        (.done (by simp))))
    (.item hfirst (.item (hcomma blank_nil) (.done blank_nil)))
  have hchunks : listText Chunk.form Frame.varied.chunks _ :=
    ⟨_, _, .cons hchunk .nil, .item hfirst (.done blank_nil), rfl⟩
  have hmetadata : listText entryForm Frame.varied.metadata _ :=
    ⟨_, _, .cons hpair (.cons hentry .nil),
      .item hfirst (.item (hcomma blank_nil) (.done blank_nil)), rfl⟩
  have hframe : RecordText Frame.varied.parts _ :=
    .array (List.take_append_drop 3 Frame.varied.parts).symm (by simp [Frame.parts, Frame.varied])
      (.cons hid (.cons hchunks (.cons hmetadata .nil)))
      (.item (.first hspace) (.item (hcomma hfeed) (.item (hcomma hfeed) (.done hspace))))
  exact ⟨_, [0x20], _, [0x0A], .swap _ _ _, hspace, hfeed, hframe, by decide +kernel⟩

theorem Record.ofBytes_tolerant_varied : Record.Text .varied (Utf8.encode Record.variedText) ∧
    Record.ofBytes (Utf8.encode Record.variedText) = .ok .varied :=
  ⟨Record.varied_text, (Record.ofBytes_tolerant .varied).2 _ Record.varied_text⟩

end StorageNode.Block
