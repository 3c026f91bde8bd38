import StorageNode.Block.Operation

/-!
# The size of a block record

The size is advisory: it is what was last given or computed, and nothing else changes it
(`Record.recordedSize_after`). Computing it is exact (`Record.computes_iff`). The lengths are added up from
the front, and a partial sum beyond 64 bits ends the addition, but lengths only add to a sum: no partial sum
is greater than the whole, so none exceeds 64 bits if the whole does not (`Record.sumLengths?_eq_some_iff`).
`Record.size_exact` says both, of every record and of every history of a new one.
-/

namespace StorageNode.Block

/-! ## The sum of the lengths -/

/-- The sum of the lengths of chunks. -/
def lengths (cs : List Chunk) : Nat := (cs.map (·.length.toNat)).foldr (· + ·) 0

@[simp]
theorem lengths_nil : lengths [] = 0 := rfl

@[simp]
theorem lengths_cons (c : Chunk) (cs : List Chunk) :
    lengths (c :: cs) = c.length.toNat + lengths cs := rfl

/-- The order of the chunks does not matter. -/
theorem lengths_perm {cs ds : List Chunk} (h : cs.Perm ds) : lengths cs = lengths ds :=
  (h.map _).foldr_eq' (fun m _ n _ k => Nat.add_left_comm n m k) 0

/-- The sum of the chunk lengths of a record. -/
def Record.total (r : Record) : Nat := lengths r.chunks

/-- **What computing the size comes to**, by the sum of the chunk lengths: the answer, and the record
behind it. -/
inductive Record.Computes (r : Record) : Answer → Record → Prop
  | fits {n : UInt64} (h : r.total = n.toNat) : Computes r (.size n) (r.setSize n)
  | overflows (h : UInt64.size ≤ r.total) : Computes r (.refused (.sizeOverflow r.id)) r

/-- **Adding up from the front is exact.** -/
theorem Record.sumLengths?_eq_some_iff {start n : UInt64} {cs : List Chunk} :
    sumLengths? start cs = some n ↔ start.toNat + lengths cs = n.toNat := by
  induction cs generalizing start with
  | nil => simp [sumLengths?, UInt64.toNat_inj]
  | cons c cs ih =>
      rw [sumLengths?, lengths_cons, ← Nat.add_assoc]
      split
      · next hfits =>
          have hadd : (start + c.length).toNat = start.toNat + c.length.toNat := by
            rw [UInt64.toNat_add]
            exact Nat.mod_eq_of_lt hfits
          rw [ih, hadd]
      · next hover =>
          -- the sum has exceeded 64 bits, and what follows cannot take it back
          have hn : n.toNat < UInt64.size := n.toNat_lt_size
          refine iff_of_false (by simp) ?_
          omega

/-- The sum is refused just if it does not fit. -/
theorem Record.sumLengths?_eq_none_iff {start : UInt64} {cs : List Chunk} :
    sumLengths? start cs = none ↔ UInt64.size ≤ start.toNat + lengths cs := by
  rw [Option.eq_none_iff_forall_ne_some, ← Nat.not_lt]
  simp only [ne_eq, sumLengths?_eq_some_iff]
  constructor
  · intro h hlt
    exact h (UInt64.ofNat _) (by rw [UInt64.toNat_ofNat_of_lt' hlt])
  · intro h n heq
    exact h (heq ▸ n.toNat_lt_size)

/-- **Computing the size is exact**: it answers the sum of the chunk lengths and records it, or the sum
does not fit, and the record stays as it was. -/
theorem Record.computes_iff {r r' : Record} {a : Answer} :
    Operation.computeSize.apply r = (a, r') ↔ r.Computes a r' := by
  have hzero : (0 : UInt64).toNat + lengths r.chunks = r.total := Nat.zero_add _
  rw [Operation.apply, computeSize]
  cases hsum : sumLengths? 0 r.chunks with
  | some n =>
      have htotal : r.total = n.toNat := hzero.symm.trans (sumLengths?_eq_some_iff.mp hsum)
      constructor
      · intro h
        obtain ⟨rfl, rfl⟩ := Prod.mk.inj h
        exact .fits htotal
      · intro h
        cases h with
        | fits h => rw [UInt64.toNat_inj.mp (htotal.symm.trans h)]
        | overflows h => exact absurd (htotal ▸ h) (Nat.not_le.mpr n.toNat_lt_size)
  | none =>
      have htotal : UInt64.size ≤ r.total := hzero ▸ sumLengths?_eq_none_iff.mp hsum
      constructor
      · intro h
        obtain ⟨rfl, rfl⟩ := Prod.mk.inj h
        exact .overflows htotal
      · intro h
        cases h with
        | @fits n h => exact absurd (h ▸ htotal) (Nat.not_le.mpr n.toNat_lt_size)
        | overflows h => rfl

/-- The answer depends on the block and on the sum only. -/
theorem Record.Computes.answer_eq {r s r' s' : Record} {a b : Answer} (hr : r.Computes a r')
    (hid : r.id = s.id) (htotal : r.total = s.total) (hs : s.Computes b s') : a = b := by
  cases hr with
  | @fits n h =>
      rw [htotal] at h
      cases hs with
      | fits h' => rw [UInt64.toNat_inj.mp (h.symm.trans h')]
      | overflows h' => exact absurd (h ▸ h') (Nat.not_le.mpr n.toNat_lt_size)
  | overflows h =>
      rw [htotal] at h
      cases hs with
      | @fits n h' => exact absurd (h' ▸ h) (Nat.not_le.mpr n.toNat_lt_size)
      | overflows h' => rw [hid]

/-! ## Histories -/

/-- The size that an operation records: the one that is given, or the one that it answers to have
computed. -/
def Operation.recorded? : Operation × Answer → Option UInt64
  | (.setSize n, _) => some n
  | (.computeSize, .size n) => some n
  | _ => none

/-- **An operation changes the recorded size only if it records one.** -/
theorem Operation.recordedSize_apply (op : Operation) (r : Record) :
    (op.apply r).2.recordedSize = (recorded? (op, (op.apply r).1)).or r.recordedSize := by
  cases op with
  | setSize n => rfl
  | computeSize =>
      obtain ⟨a, r', happly⟩ : ∃ a r', Operation.computeSize.apply r = (a, r') := ⟨_, _, rfl⟩
      rw [happly]
      cases Record.computes_iff.mp happly with
      | fits h => rfl
      | overflows h => rfl
  | addMetadata key v =>
      cases hold : r.value? key with
      | some old => simp [apply, Record.addMetadata_of_some hold, recorded?]
      | none => simp [apply, Record.addMetadata_of_none hold, recorded?]
  | value | deleteKey | addChunk | removeChunk | setChunks | size => rfl

/-- **Along a history, the recorded size is the one that was recorded last**, and the one at the
beginning as long as there is none. -/
theorem Record.recordedSize_after (r : Record) (ops : List Operation) :
    (r.after ops).recordedSize =
      ((r.transcript ops).filterMap Operation.recorded?).getLast?.or r.recordedSize := by
  induction ops generalizing r with
  | nil => rfl
  | cons op ops ih =>
      have hlater : (r.after (op :: ops)).recordedSize =
          ((op.apply r).2.after ops).recordedSize := rfl
      rw [hlater, ih, Operation.recordedSize_apply, transcript, List.filterMap_cons]
      cases Operation.recorded? (op, (op.apply r).1) with
      | none => rfl
      | some n =>
          rw [List.getLast?_cons]
          cases (((op.apply r).2.transcript ops).filterMap Operation.recorded?).getLast? <;> rfl

/-! ## The theorem -/

/-- **The size is exact, and changes only when that is asked for.** Computing it answers the sum of the
chunk lengths if that is a 64-bit number, and is refused for the block otherwise, with the record as it
was; the order of the chunks does not matter. In a history of a new record, the size is unset until one is
given or computed, and is the latest of these whatever happens between them. -/
theorem Record.size_exact :
    (∀ (r r' : Record) (a : Answer), Operation.computeSize.apply r = (a, r') ↔ r.Computes a r') ∧
    (∀ (r : Record) (n : UInt64),
      (Operation.computeSize.apply r).1 = .size n ↔ r.total = n.toNat) ∧
    (∀ (r : Record) (cs : List Chunk), cs.Perm r.chunks →
      (Operation.computeSize.apply (r.setChunks cs)).1 = (Operation.computeSize.apply r).1) ∧
    ∀ (id : Id) (ops : List Operation), ((Record.new id).after ops).recordedSize =
      (((Record.new id).transcript ops).filterMap Operation.recorded?).getLast? := by
  have hcomputes : ∀ r : Record, ∃ a r', Operation.computeSize.apply r = (a, r') ∧ r.Computes a r' :=
    fun r => ⟨_, _, rfl, computes_iff.mp rfl⟩
  refine ⟨fun r r' a => computes_iff, fun r n => ?_, fun r cs hperm => ?_, fun id ops => ?_⟩
  · obtain ⟨a, r', happly, hr⟩ := hcomputes r
    rw [happly]
    constructor
    · rintro rfl
      cases hr with
      | fits h => exact h
    · exact fun h => hr.answer_eq rfl rfl (.fits h)
  · obtain ⟨a, r', happly, hr⟩ := hcomputes r
    obtain ⟨b, s, happly', hs⟩ := hcomputes (r.setChunks cs)
    have hid : (r.setChunks cs).id = r.id := rfl
    have htotal : (r.setChunks cs).total = r.total := lengths_perm hperm
    rw [happly, happly']
    exact hs.answer_eq hid htotal hr
  · rw [recordedSize_after]
    exact Option.or_none

/-- A record of a given size, with two chunks whose lengths add up to 64 bits and one more. -/
def Record.brimming : Record :=
  ⟨⟨7, 9⟩, .empty, [⟨"a", 0, 18446744073709551615, none⟩, ⟨"b", 0, 1, none⟩], some 3⟩

/-- Its size is refused, in either order of the chunks. Without the second one it is the greatest there
is. The size of a new record that is given and then computed is the one that is computed. -/
theorem Record.size_exact_brimming :
    let reversed : List Chunk := [⟨"b", 0, 1, none⟩, ⟨"a", 0, 18446744073709551615, none⟩]
    let ops : List Operation := [.setSize 3, .addChunk ⟨"c", 0, 5, none⟩, .computeSize, .setChunks []]
    reversed.Perm brimming.chunks ∧
      Operation.computeSize.apply brimming = (.refused (.sizeOverflow ⟨7, 9⟩), brimming) ∧
      (Operation.computeSize.apply (brimming.setChunks reversed)).1 =
        .refused (.sizeOverflow ⟨7, 9⟩) ∧
      (Operation.computeSize.apply
        (brimming.setChunks [⟨"a", 0, 18446744073709551615, none⟩])).1 = .size 18446744073709551615 ∧
      ((Record.new ⟨7, 9⟩).after ops).recordedSize = some 5 := by
  intro reversed ops
  obtain ⟨hcomputes, hsize, hperm, hhistory⟩ := size_exact
  have hover : Operation.computeSize.apply brimming = (.refused (.sizeOverflow ⟨7, 9⟩), brimming) :=
    (hcomputes brimming brimming _).mpr (.overflows (by decide))
  have hreversed : reversed.Perm brimming.chunks := .swap _ _ _
  refine ⟨hreversed, hover, ?_, (hsize _ _).mpr rfl, ?_⟩
  · rw [hperm brimming reversed hreversed, hover]
  · rw [hhistory]
    rfl

end StorageNode.Block
