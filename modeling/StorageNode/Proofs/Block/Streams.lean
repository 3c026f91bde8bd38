import StorageNode.Block.Operation
import StorageNode.Proofs.Block.RoundTrip

/-!
# Independent operations on block records

An operation concerns one part of a record (`Operation.stream`): what is stored under one key of the
metadata, or the chunks together with the size. What it answers and what it leaves in this part depend on
nothing else (`Operation.apply_agrees`), and it touches no other part (`Operation.apply_keeps`).

So the operations on one part do not notice those on the others. In any history they answer, and leave
their part, as they would on their own (`Record.transcript_filter`), and two histories that differ only in
how the operations on different parts are interleaved come to the same (`Record.interleaving_irrelevant`).
-/

namespace StorageNode.Block

/-- The parts of a record that operations concern. -/
inductive Stream where
  /-- What is stored under a key of the metadata. -/
  | key (k : String)
  /-- The chunks and the size. -/
  | chunks
deriving DecidableEq

/-- The part of a record that an operation concerns. -/
def Operation.stream : Operation → Stream
  | .addMetadata key _ => .key key
  | .value key => .key key
  | .deleteKey key => .key key
  | .addChunk _ => .chunks
  | .removeChunk _ => .chunks
  | .setChunks _ => .chunks
  | .size => .chunks
  | .setSize _ => .chunks
  | .computeSize => .chunks

/-- Two records hold the same in a part. -/
def Stream.Holds (r s : Record) : Stream → Prop
  | .key k => r.value? k = s.value? k
  | .chunks => r.chunks = s.chunks ∧ r.recordedSize = s.recordedSize

/-- Two records of one block hold the same in a part. -/
structure Record.AgreeOn (part : Stream) (r s : Record) : Prop where
  id_eq : r.id = s.id
  part_eq : part.Holds r s

section

variable {part : Stream} {r s t : Record}

theorem Record.AgreeOn.refl (part : Stream) (r : Record) : r.AgreeOn part r := by
  cases part with
  | key key => exact ⟨rfl, rfl⟩
  | chunks => exact ⟨rfl, rfl, rfl⟩

theorem Record.AgreeOn.trans (h : r.AgreeOn part s) (h' : s.AgreeOn part t) : r.AgreeOn part t := by
  refine ⟨h.id_eq.trans h'.id_eq, ?_⟩
  cases part with
  | key key => exact Eq.trans h.part_eq h'.part_eq
  | chunks => exact ⟨h.part_eq.1.trans h'.part_eq.1, h.part_eq.2.trans h'.part_eq.2⟩

theorem Record.AgreeOn.symm (h : r.AgreeOn part s) : s.AgreeOn part r := by
  refine ⟨h.id_eq.symm, ?_⟩
  cases part with
  | key key => exact Eq.symm h.part_eq
  | chunks => exact ⟨h.part_eq.1.symm, h.part_eq.2.symm⟩

/-- Records that hold the same in every part are equal. -/
theorem Record.eq_of_agreeOn (h : ∀ part, r.AgreeOn part s) : r = s := by
  have hchunks := (h .chunks).part_eq
  exact Record.same_iff_eq.mp ⟨(h .chunks).id_eq, hchunks.1, hchunks.2, fun key => (h (.key key)).part_eq⟩

end

/-! ## One operation -/

section

variable {r s : Record}

/-- What an operation on a key answers, and what it leaves under the key. -/
theorem Operation.apply_addMetadata (key v : String) :
    (Operation.addMetadata key v).apply r =
      match r.value? key with
      | some _ => (.refused (.duplicateKey key), r)
      | none => (.done, { r with metadata := r.metadata.insert key v }) := by
  cases hold : r.value? key with
  | some old => rw [apply, Record.addMetadata_of_some hold]
  | none => rw [apply, Record.addMetadata_of_none hold]

/-- **An operation depends on its own part only**: on records that hold the same there it answers the
same, and leaves the same there. -/
theorem Operation.apply_agrees (op : Operation) (h : r.AgreeOn op.stream s) :
    (op.apply r).1 = (op.apply s).1 ∧ (op.apply r).2.AgreeOn op.stream (op.apply s).2 := by
  obtain ⟨hid, hpart⟩ := h
  cases op with
  | addMetadata key v =>
      have hvalue : r.value? key = s.value? key := hpart
      rw [apply_addMetadata, apply_addMetadata, hvalue]
      cases s.value? key with
      | some old => exact ⟨rfl, hid, hvalue⟩
      | none => exact ⟨rfl, hid, by simp [Stream.Holds, stream, Record.value?]⟩
  | value key => exact ⟨congrArg Answer.value hpart, hid, hpart⟩
  | deleteKey key =>
      exact ⟨rfl, hid, by simp [Stream.Holds, stream, apply, Record.deleteKey, Record.value?]⟩
  | addChunk c => exact ⟨rfl, hid, congrArg (· ++ [c]) hpart.1, hpart.2⟩
  | removeChunk c =>
      exact ⟨congrArg (fun cs : List Chunk => Answer.removed (cs.contains c)) hpart.1, hid,
        congrArg (·.erase c) hpart.1, hpart.2⟩
  | setChunks cs => exact ⟨rfl, hid, rfl, hpart.2⟩
  | size => exact ⟨congrArg (fun n : Option UInt64 => Answer.size (n.getD 0)) hpart.2, hid, hpart⟩
  | setSize n => exact ⟨rfl, hid, hpart.1, rfl⟩
  | computeSize =>
      simp only [apply, Record.computeSize, hpart.1]
      cases Record.sumLengths? 0 s.chunks with
      | some n => exact ⟨rfl, hid, hpart.1, rfl⟩
      | none => exact ⟨congrArg (fun i => Answer.refused (.sizeOverflow i)) hid, hid, hpart⟩

/-- **An operation touches its own part only.** -/
theorem Operation.apply_keeps (op : Operation) (r : Record) {part : Stream} (h : op.stream ≠ part) :
    (op.apply r).2.AgreeOn part r := by
  cases op with
  | addMetadata key v =>
      rw [apply_addMetadata]
      cases r.value? key with
      | some old => exact .refl part r
      | none =>
          cases part with
          | chunks => exact ⟨rfl, rfl, rfl⟩
          | key other =>
              have hne : other ≠ key := fun heq => h (congrArg Stream.key heq.symm)
              exact ⟨rfl, by simp [Stream.Holds, Record.value?, hne]⟩
  | deleteKey key =>
      cases part with
      | chunks => exact ⟨rfl, rfl, rfl⟩
      | key other =>
          have hne : other ≠ key := fun heq => h (congrArg Stream.key heq.symm)
          exact ⟨rfl, by simp [Stream.Holds, apply, Record.deleteKey, Record.value?, hne]⟩
  | value | size => exact .refl part r
  | addChunk | removeChunk | setChunks | setSize =>
      cases part with
      | chunks => exact absurd rfl h
      | key key => exact ⟨rfl, rfl⟩
  | computeSize =>
      cases part with
      | chunks => exact absurd rfl h
      | key key =>
          simp only [apply, Record.computeSize]
          cases Record.sumLengths? 0 r.chunks with
          | some n => exact ⟨rfl, rfl⟩
          | none => exact .refl _ r

end

/-! ## Histories -/

/-- The operations of a history that concern a part, with their answers. -/
def Record.heard (r : Record) (part : Stream) (ops : List Operation) : List (Operation × Answer) :=
  (r.transcript ops).filter (·.1.stream = part)

/-- **The operations on a part do not notice the others**: they answer, and leave their part, as they do
on their own, from any record that holds the same there. -/
theorem Record.transcript_filter {part : Stream} {r s : Record} (h : r.AgreeOn part s)
    (ops : List Operation) :
    r.heard part ops = s.transcript (ops.filter (·.stream = part)) ∧
      (r.after ops).AgreeOn part (s.after (ops.filter (·.stream = part))) := by
  induction ops generalizing r s with
  | nil => exact ⟨rfl, h⟩
  | cons op ops ih =>
      by_cases hpart : op.stream = part
      · subst hpart
        obtain ⟨hanswer, hleft⟩ := op.apply_agrees h
        obtain ⟨hheard, hafter⟩ := ih hleft
        refine ⟨?_, ?_⟩
        · simp only [heard] at hheard
          simp [heard, transcript, hanswer, hheard]
        · simpa [after] using hafter
      · obtain ⟨hheard, hafter⟩ := ih ((op.apply_keeps r hpart).trans h)
        refine ⟨?_, ?_⟩
        · simp only [heard] at hheard
          simp [heard, transcript, hpart, hheard]
        · simpa [after, hpart] using hafter

/-- **How independent operations are interleaved does not matter.** If two histories of a record have the
same operations on every part, in the same order, then on every part these have the same answers and
errors, one by one, and in the end the records are equal and are written as the same bytes. -/
theorem Record.interleaving_irrelevant (r : Record) {xs ys : List Operation}
    (h : ∀ part, xs.filter (·.stream = part) = ys.filter (·.stream = part)) :
    (∀ part, r.heard part xs = r.heard part ys) ∧ r.after xs = r.after ys ∧
      (r.after xs).toBytes = (r.after ys).toBytes := by
  have hafter : r.after xs = r.after ys := by
    refine eq_of_agreeOn fun part => ?_
    have hx := (transcript_filter (.refl part r) xs).2
    have hy := (transcript_filter (.refl part r) ys).2
    rw [h part] at hx
    exact hx.trans hy.symm
  refine ⟨fun part => ?_, hafter, congrArg toBytes hafter⟩
  rw [(transcript_filter (.refl part r) xs).1, (transcript_filter (.refl part r) ys).1, h part]

/-- Two histories of a new record. A key is added twice, with a chunk between or not; the size is computed
before or behind the other key. -/
theorem Record.interleaving_irrelevant_sample :
    let c : Chunk := ⟨"c", 0, 5, none⟩
    let xs : List Operation :=
      [.addMetadata "a" "1", .addChunk c, .addMetadata "a" "2", .computeSize, .addMetadata "b" "é"]
    let ys : List Operation :=
      [.addMetadata "b" "é", .addChunk c, .computeSize, .addMetadata "a" "1", .addMetadata "a" "2"]
    (∀ part, xs.filter (·.stream = part) = ys.filter (·.stream = part)) ∧
      ((Record.new ⟨7, 9⟩).heard (.key "a") ys).map (·.2) = [.done, .refused (.duplicateKey "a")] ∧
      (Record.new ⟨7, 9⟩).heard (.key "a") xs = (Record.new ⟨7, 9⟩).heard (.key "a") ys ∧
      (Record.new ⟨7, 9⟩).after xs = (Record.new ⟨7, 9⟩).after ys := by
  intro c xs ys
  have hsame : ∀ part, xs.filter (·.stream = part) = ys.filter (·.stream = part) := by
    rintro (k | _)
    · by_cases ha : "a" = k
      · subst ha
        rfl
      · by_cases hb : "b" = k
        · subst hb
          rfl
        · simp [xs, ys, Operation.stream, ha, hb]
    · rfl
  obtain ⟨hheard, hafter, -⟩ := interleaving_irrelevant (.new ⟨7, 9⟩) hsame
  exact ⟨hsame, by decide +kernel, hheard _, hafter⟩

end StorageNode.Block
