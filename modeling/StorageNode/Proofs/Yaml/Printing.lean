import StorageNode.Yaml.Printer

/-!
# Values that can be written

Writing a value takes two steps, and both may refuse. The events of a value are those of its parts
between a start and an end (`Value.events`), but the start of a mapping of one entry is held back until
its key is begun, and is lost if the key holds back its own start. So there are values that no text is
written for. All others without tags are `Value.Writable`: their events are what they should be
(`Writable.emit_eq`), and the printer, which takes the events of such a value wherever it waits for a
node (`Writable.accepted`), refuses no document of them (`exists_print`).
-/

namespace StorageNode.Yaml

/-! ## The events of a value -/

mutual

/-- The events of a value; tags are left out. -/
def Value.events : Value → List Event
  | .null => [.scalar none .plain "null"]
  | .bool b => [.scalar none .plain (if b then "true" else "false")]
  | .integer n => [.scalar none .plain (toString n.value)]
  | .float x => [.scalar none .plain (floatFormat.render x)]
  | .string s => [.scalar none (wishFor s) s]
  | .sequence vs => .sequenceStart none :: (eventsOfValues vs ++ [.sequenceEnd])
  | .mapping es => .mappingStart none :: (eventsOfPairs es ++ [.mappingEnd])
  | .tagged _ v => v.events

/-- Those of items, one after another. -/
def eventsOfValues : List Value → List Event
  | [] => []
  | v :: vs => v.events ++ eventsOfValues vs

/-- Those of entries, key and value in turn. -/
def eventsOfPairs : List (Value × Value) → List Event
  | [] => []
  | (k, v) :: es => k.events ++ (v.events ++ eventsOfPairs es)

end

/-- A mapping of one entry. -/
def Value.isLone : Value → Bool
  | .mapping [_] => true
  | _ => false

/-- **A value that can be written**: without tags, and without a mapping of one entry whose key is
another one. -/
inductive Value.Writable : Value → Prop
  | null : Writable .null
  | bool (b : Bool) : Writable (.bool b)
  | integer (n : Integer) : Writable (.integer n)
  | float (x : Binary64) : Writable (.float x)
  | string (s : String) : Writable (.string s)
  | sequence {vs : List Value} (h : ∀ v ∈ vs, Writable v) : Writable (.sequence vs)
  | mapping {es : List (Value × Value)} (hk : ∀ e ∈ es, Writable e.1) (hv : ∀ e ∈ es, Writable e.2)
      (hlone : ∀ e, es = [e] → e.1.isLone = false) : Writable (.mapping es)

/-! ## Emission -/

namespace Emission

/-- Inside a document, with nothing held back. -/
structure Ready (e : Emission) : Prop where
  opened : e.depth ≠ 0
  nothing : e.pending = .nothing
  sound : e.nestedTag = false

/-- The emission with events more. -/
def write (e : Emission) (es : List Event) : Emission := { e with events := es.reverse ++ e.events }

/-- The emission inside one collection more. -/
def within (e : Emission) : Emission := { e with depth := e.depth + 1 }

section

variable {e : Emission} {as bs : List Event}

@[simp] theorem write_nil : e.write [] = e := rfl

@[simp] theorem write_write : (e.write as).write bs = e.write (as ++ bs) := by
  simp [write]

@[simp] theorem within_write : e.within.write as = (e.write as).within := rfl

theorem Ready.write (h : e.Ready) (es : List Event) : (e.write es).Ready :=
  ⟨h.opened, h.nothing, h.sound⟩

theorem Ready.within (h : e.Ready) : e.within.Ready :=
  ⟨Nat.succ_ne_zero _, h.nothing, h.sound⟩

/-! ### Single steps -/

variable (h : e.Ready)
include h

theorem scalar_of_ready (w : Wish) (s : String) : e.scalar w s = e.write [.scalar none w s] := by
  simp [scalar, release, takeTag, enter, leave, push, h.opened, h.nothing, write]

theorem startSequence_of_ready : e.startSequence = (e.write [.sequenceStart none]).within := by
  simp [startSequence, release, takeTag, enter, push, h.opened, h.nothing, write, within]

theorem endSequence_within : e.within.endSequence = e.write [.sequenceEnd] := by
  simp [endSequence, leave, push, h.opened, write, within]

theorem startMapping_of_ready : e.startMapping = (e.write [.mappingStart none]).within := by
  simp [startMapping, release, takeTag, enter, push, h.opened, h.nothing, write, within]

theorem closeMapping_within : e.within.closeMapping = e.write [.mappingEnd] := by
  simp [closeMapping, leave, push, h.opened, h.nothing, write, within]

/-- A start that was held back is written now. -/
theorem release_held : ({ e with pending := .mapping } : Emission).release =
    (e.write [.mappingStart none]).within := by
  simp [release, enter, push, h.opened, write, within, h.nothing]

omit h in
theorem enter_pending : e.enter.pending = e.pending := by
  unfold enter
  split <;> rfl

omit h in
/-- Once released, no start is held back. -/
theorem release_release : e.release.release = e.release := by
  cases hpending : e.pending with
  | mapping =>
      have hnothing : e.release.pending = .nothing := by
        simp only [release, hpending]
        exact enter_pending
      rw [release, hnothing]
  | _ => simp [release, hpending]

end

end Emission

open Emission

section

variable {e : Emission}

/-- What does not hold back a start of its own releases the one that is held back. -/
theorem Value.Writable.emit_release {v : Value} (h : v.Writable) (hlone : v.isLone = false)
    (e : Emission) : v.emit e = v.emit e.release := by
  have hscalar : ∀ w s, e.scalar w s = e.release.scalar w s := fun w s => by
    rw [scalar, scalar, release_release]
  cases h with
  | null | bool | integer | float | string =>
      simp only [Value.emit, Emission.string]
      exact hscalar _ _
  | sequence => simp only [Value.emit, startSequence, release_release]
  | @mapping es =>
      have hone : es.length ≠ 1 := fun hlength => by
        obtain ⟨d, rfl⟩ := List.length_eq_one_iff.mp hlength
        simp [Value.isLone] at hlone
      simp only [Value.emit, openMapping, hone, if_false, startMapping, release_release]

/-- Items are written one after another. -/
theorem emitItems_eq {vs : List Value}
    (hvs : ∀ v ∈ vs, ∀ e : Emission, e.Ready → v.emit e = e.write v.events) (h : e.Ready) :
    emitItems vs e = e.write (eventsOfValues vs) := by
  induction vs generalizing e with
  | nil => rfl
  | cons v vs ih =>
      obtain ⟨hv, hvs⟩ := List.forall_mem_cons.mp hvs
      have hwritten := h.write v.events
      rw [emitItems, hv e h]
      simp only [hwritten.sound, Bool.false_eq_true, if_false]
      rw [ih hvs hwritten, write_write, eventsOfValues]

/-- Entries are written one after another. -/
theorem emitEntries_eq {es : List (Value × Value)}
    (hk : ∀ d ∈ es, ∀ e : Emission, e.Ready → d.1.emit e = e.write d.1.events)
    (hv : ∀ d ∈ es, ∀ e : Emission, e.Ready → d.2.emit e = e.write d.2.events) (h : e.Ready) :
    emitEntries es e = e.write (eventsOfPairs es) := by
  induction es generalizing e with
  | nil => rfl
  | cons d es ih =>
      obtain ⟨k, v⟩ := d
      obtain ⟨hk, hks⟩ := List.forall_mem_cons.mp hk
      obtain ⟨hv, hvs⟩ := List.forall_mem_cons.mp hv
      have hkey := h.write k.events
      have hboth := h.write (k.events ++ v.events)
      rw [emitEntries, hk e h]
      simp only [hkey.sound, Bool.false_eq_true, if_false, tagTaken, hkey.nothing, hv _ hkey,
        write_write, hboth.sound]
      rw [ih hks hvs hboth, write_write, eventsOfPairs, List.append_assoc]

/-- An entry whose mapping has been held back is written behind the start of that. -/
theorem emitEntries_held {k v : Value} (hlone : k.emit { e with pending := .mapping } =
      k.emit ({ e with pending := .mapping } : Emission).release)
    (hk : ∀ e : Emission, e.Ready → k.emit e = e.write k.events)
    (hv : ∀ e : Emission, e.Ready → v.emit e = e.write v.events) (h : e.Ready) :
    emitEntries [(k, v)] { e with pending := .mapping } =
      ((e.write [.mappingStart none]).within).write (eventsOfPairs [(k, v)]) := by
  have hstart := (h.write [.mappingStart none]).within
  rw [← emitEntries_eq (by simpa using hk) (by simpa using hv) hstart, emitEntries, emitEntries,
    hlone, release_held h]

/-- **The events of a value that can be written** are those of its parts. -/
theorem Value.Writable.emit_eq {v : Value} (h : v.Writable) :
    ∀ e : Emission, e.Ready → v.emit e = e.write v.events := by
  induction h with
  | null | bool | integer | float | string =>
      intro e he
      exact scalar_of_ready he _ _
  | @sequence vs _ ih =>
      intro e he
      have hstart := he.write [.sequenceStart none]
      rw [Value.emit, startSequence_of_ready he, emitItems_eq ih hstart.within, within_write,
        endSequence_within (hstart.write _), write_write, write_write, Value.events]
      rfl
  | @mapping es hk _ hlone ihk ihv =>
      intro e he
      have hstart := he.write [.mappingStart none]
      -- The start is written at once, or when the one key is begun.
      have hentries : emitEntries es (e.openMapping es.length) =
          ((e.write [.mappingStart none]).within).write (eventsOfPairs es) := by
        by_cases hone : es.length = 1
        · obtain ⟨d, rfl⟩ := List.length_eq_one_iff.mp hone
          obtain ⟨hk, -⟩ := List.forall_mem_cons.mp hk
          obtain ⟨ihk, -⟩ := List.forall_mem_cons.mp ihk
          obtain ⟨ihv, -⟩ := List.forall_mem_cons.mp ihv
          simp only [openMapping, hone, if_true, he.nothing]
          exact emitEntries_held (hk.emit_release (hlone d rfl) _) ihk ihv he
        · rw [openMapping, if_neg hone, startMapping_of_ready he]
          exact emitEntries_eq ihk ihv hstart.within
      rw [Value.emit, hentries, within_write, closeMapping_within (hstart.write _), write_write,
        write_write, Value.events]
      rfl

end

/-! ## Printing -/

/-- The event begins a node. -/
def Event.beginsNode : Event → Bool
  | .scalar .. => true
  | .sequenceStart _ => true
  | .mappingStart _ => true
  | _ => false

/-- The events of a value begin with one that begins a node. -/
theorem Value.exists_events_eq_cons :
    ∀ v : Value, ∃ e es, v.events = e :: es ∧ e.beginsNode = true
  | .null | .bool _ | .integer _ | .float _ | .string _ | .sequence _ | .mapping _ =>
      ⟨_, _, by rw [Value.events], rfl⟩
  | .tagged _ v => by
      rw [Value.events]
      exact exists_events_eq_cons v

namespace Printer

/-- **What is expected behind a node**, given what was expected before it. -/
inductive Follows : Expected → Expected → Prop
  | root : Follows .root .endOfDocument
  | items (first : Bool) : Follows (.items first) (.items false)
  | keys (first simple : Bool) : Follows (.keys first) (.value simple)
  | value (simple : Bool) : Follows (.value simple) (.keys false)

/-- The printer waits for a node. -/
def AwaitsNode (p : Printer) : Prop := ∃ x, Follows p.expected x

/-- The second printer is where the first one is behind a node. -/
structure Behind (p q : Printer) : Prop where
  expected : Follows p.expected q.expected
  stack : q.stack = p.stack

/-- The second printer is where the first one is behind the collection that it is in. -/
structure Outside (p q : Printer) : Prop where
  expected : q.expected = p.stack.headD .endOfDocument
  stack : q.stack = p.stack.tail

section

variable {p q : Printer} {first simple : Bool}

theorem awaitsNode_of_items (h : p.expected = .items first) : p.AwaitsNode :=
  ⟨_, h ▸ Follows.items first⟩

theorem awaitsNode_of_keys (h : p.expected = .keys first) : p.AwaitsNode :=
  ⟨_, h ▸ Follows.keys first true⟩

theorem awaitsNode_of_value (h : p.expected = .value simple) : p.AwaitsNode :=
  ⟨_, h ▸ Follows.value simple⟩

theorem Behind.expected_of_items (h : p.Behind q) (hp : p.expected = .items first) :
    q.expected = .items false := by
  have hfollows := h.expected
  rw [hp] at hfollows
  generalize q.expected = x at hfollows
  cases hfollows
  rfl

theorem Behind.expected_of_keys (h : p.Behind q) (hp : p.expected = .keys first) :
    ∃ simple, q.expected = .value simple := by
  have hfollows := h.expected
  rw [hp] at hfollows
  generalize q.expected = x at hfollows
  cases hfollows
  exact ⟨_, rfl⟩

theorem Behind.expected_of_value (h : p.Behind q) (hp : p.expected = .value simple) :
    q.expected = .keys false := by
  have hfollows := h.expected
  rw [hp] at hfollows
  generalize q.expected = x at hfollows
  cases hfollows
  rfl

end

/-- The printer refuses none of the events. -/
def Accepts (p : Printer) (es : List Event) : Prop := ∃ q, p.run false es = .ok q

section

variable {p q : Printer} {e : Event} {es rest : List Event}

theorem accepts_nil : p.Accepts [] := ⟨p, rfl⟩

/-- An event that is not refused leads on. -/
theorem accepts_cons (h : p.step e es = .ok (q, false)) (hq : q.Accepts es) :
    p.Accepts (e :: es) := by
  unfold Accepts
  rw [run]
  split
  · rw [h]
    exact hq
  · exact ⟨p, rfl⟩

/-- An event that takes the next one along leads on behind that. -/
theorem accepts_cons_cons {e' : Event} (h : p.step e (e' :: es) = .ok (q, true))
    (hq : q.Accepts es) : p.Accepts (e :: e' :: es) := by
  unfold Accepts
  rw [run]
  split
  · rw [h]
    exact hq
  · exact ⟨p, rfl⟩

/-! ### One node -/

/-- Where a node is waited for, one is written, and what follows it is put on the stack. -/
theorem step_eq_node (hp : p.AwaitsNode) (he : e.beginsNode = true) (rest : List Event) :
    ∃ x q key, Follows p.expected x ∧ q.stack = x :: p.stack ∧
      p.step e rest = node q e rest key := by
  obtain ⟨x, hx⟩ := hp
  generalize hexpected : p.expected = y at hx
  unfold step
  simp only [hexpected]
  cases hx with
  | root => exact ⟨_, _, _, .root, rfl, rfl⟩
  | value simple => cases simple <;> exact ⟨_, _, _, .value _, rfl, rfl⟩
  | items first =>
      cases e with
      | scalar | sequenceStart | mappingStart =>
          cases first <;> exact ⟨_, _, false, .items _, rfl, rfl⟩
      | _ => cases he
  | keys first =>
      cases hsimple : isSimpleKey e rest with
      | true =>
          cases e with
          | scalar | sequenceStart | mappingStart =>
              cases first <;> exact ⟨_, _, true, .keys _ true, rfl, rfl⟩
          | _ => cases he
      | false =>
          cases e with
          | scalar | sequenceStart | mappingStart =>
              cases first <;> exact ⟨_, _, false, .keys _ false, rfl, rfl⟩
          | _ => cases he

/-- A scalar is written at once. -/
theorem outside_scalar (p : Printer) (t : Option String) (w : Wish) (s : String) (key : Bool) :
    p.Outside (p.scalar t w s key) := by
  unfold scalar
  dsimp only
  split <;> exact ⟨rfl, rfl⟩

/-- Outside of what has been put on the stack for a node is behind the node. -/
theorem Outside.behind {x : Expected} {r : Printer} (hx : Follows p.expected x)
    (hq : q.stack = x :: p.stack) (hr : q.Outside r) : p.Behind r := by
  refine ⟨?_, ?_⟩
  · rw [hr.expected, hq]
    exact hx
  · rw [hr.stack, hq]
    rfl

/-- Behind a scalar it goes on. -/
theorem accepts_scalar {t : Option String} {w : Wish} {s : String} (hp : p.AwaitsNode)
    (h : ∀ q, p.Behind q → q.Accepts rest) : p.Accepts (.scalar t w s :: rest) := by
  obtain ⟨x, q, key, hx, hq, hstep⟩ := step_eq_node (e := .scalar t w s) hp rfl rest
  exact accepts_cons hstep (h _ ((outside_scalar q t w s key).behind hx hq))

/-- An empty sequence is written at once, and the items of another one are waited for. -/
theorem accepts_sequence {t : Option String} (hp : p.AwaitsNode)
    (hitems : es.head? ≠ some .sequenceEnd →
      ∀ q : Printer, q.expected = .items true → (∀ r, q.Outside r → p.Behind r) → q.Accepts es)
    (hempty : ∀ es', es = .sequenceEnd :: es' → ∀ q, p.Behind q → q.Accepts es') :
    p.Accepts (.sequenceStart t :: es) := by
  obtain ⟨x, q, key, hx, hq, hstep⟩ := step_eq_node (e := .sequenceStart t) hp rfl es
  by_cases hhead : es.head? = some .sequenceEnd
  · obtain ⟨es', rfl⟩ : ∃ es', es = .sequenceEnd :: es' := by
      cases es with
      | nil => cases hhead
      | cons e' es' => exact ⟨es', by rw [Option.some.inj hhead]⟩
    have hnode : node q (.sequenceStart t) (.sequenceEnd :: es') key =
        .ok ((((q.write (·.tag t)).deepen true false).emptyCollection '[' ']').back, true) := by
      simp [node]
    refine accepts_cons_cons (hstep.trans hnode) (hempty es' rfl _ ?_)
    exact Outside.behind hx hq ⟨rfl, rfl⟩
  · exact accepts_cons (hstep.trans (if_neg hhead))
      (hitems hhead _ rfl fun r hr => Outside.behind hx hq ⟨hr.expected, hr.stack⟩)

/-- Likewise a mapping. -/
theorem accepts_mapping {t : Option String} (hp : p.AwaitsNode)
    (hentries : es.head? ≠ some .mappingEnd →
      ∀ q : Printer, q.expected = .keys true → (∀ r, q.Outside r → p.Behind r) → q.Accepts es)
    (hempty : ∀ es', es = .mappingEnd :: es' → ∀ q, p.Behind q → q.Accepts es') :
    p.Accepts (.mappingStart t :: es) := by
  obtain ⟨x, q, key, hx, hq, hstep⟩ := step_eq_node (e := .mappingStart t) hp rfl es
  by_cases hhead : es.head? = some .mappingEnd
  · obtain ⟨es', rfl⟩ : ∃ es', es = .mappingEnd :: es' := by
      cases es with
      | nil => cases hhead
      | cons e' es' => exact ⟨es', by rw [Option.some.inj hhead]⟩
    have hnode : node q (.mappingStart t) (.mappingEnd :: es') key =
        .ok ((((q.write (·.tag t)).deepen true false).emptyCollection '\x7b' '\x7d').back, true) := by
      simp [node]
    refine accepts_cons_cons (hstep.trans hnode) (hempty es' rfl _ ?_)
    exact Outside.behind hx hq ⟨rfl, rfl⟩
  · exact accepts_cons (hstep.trans (if_neg hhead))
      (hentries hhead _ rfl fun r hr => Outside.behind hx hq ⟨hr.expected, hr.stack⟩)

/-! ### Whole values -/

/-- The events of the value are taken wherever a node is waited for. -/
def Takes (v : Value) : Prop := ∀ {p : Printer} {rest : List Event}, p.AwaitsNode →
  (∀ q, p.Behind q → q.Accepts rest) → p.Accepts (v.events ++ rest)

/-- The head of the events of something is no end. -/
theorem head?_events_append (v : Value) (rest : List Event) :
    ∃ e, (v.events ++ rest).head? = some e ∧ e.beginsNode = true := by
  obtain ⟨e, es, hes, he⟩ := v.exists_events_eq_cons
  exact ⟨e, by rw [hes]; rfl, he⟩

/-- Items are taken up to the end of their sequence. -/
theorem accepts_items {vs : List Value} (hvs : ∀ v ∈ vs, Takes v) {first : Bool}
    (hp : p.expected = .items first) (h : ∀ q, p.Outside q → q.Accepts rest) :
    p.Accepts (eventsOfValues vs ++ .sequenceEnd :: rest) := by
  induction vs generalizing p first with
  | nil =>
      refine accepts_cons (e := .sequenceEnd) (by simp only [step, hp]; rfl) (h _ ?_)
      cases first <;> exact ⟨rfl, rfl⟩
  | cons v vs ih =>
      obtain ⟨hv, hvs⟩ := List.forall_mem_cons.mp hvs
      rw [eventsOfValues, List.append_assoc]
      refine hv (awaitsNode_of_items hp) fun q hq => ?_
      exact ih hvs (hq.expected_of_items hp) fun r hr =>
        h r ⟨hq.stack ▸ hr.expected, hq.stack ▸ hr.stack⟩

/-- Entries are taken up to the end of their mapping. -/
theorem accepts_entries {ds : List (Value × Value)} (hk : ∀ d ∈ ds, Takes d.1)
    (hv : ∀ d ∈ ds, Takes d.2) {first : Bool} (hp : p.expected = .keys first)
    (h : ∀ q, p.Outside q → q.Accepts rest) :
    p.Accepts (eventsOfPairs ds ++ .mappingEnd :: rest) := by
  induction ds generalizing p first with
  | nil =>
      refine accepts_cons (e := .mappingEnd) (by simp only [step, hp]; rfl) (h _ ?_)
      cases first <;> exact ⟨rfl, rfl⟩
  | cons d ds ih =>
      obtain ⟨k, v⟩ := d
      obtain ⟨hk, hks⟩ := List.forall_mem_cons.mp hk
      obtain ⟨hv, hvs⟩ := List.forall_mem_cons.mp hv
      rw [eventsOfPairs, List.append_assoc, List.append_assoc]
      refine hk (awaitsNode_of_keys hp) fun q hq => ?_
      obtain ⟨simple, hvalue⟩ := hq.expected_of_keys hp
      refine hv (awaitsNode_of_value hvalue) fun r hr => ?_
      have hstack : r.stack = p.stack := hr.stack.trans hq.stack
      exact ih hks hvs (hr.expected_of_value hvalue) fun t ht =>
        h t ⟨hstack ▸ ht.expected, hstack ▸ ht.stack⟩

theorem takes_sequence {vs : List Value} (hvs : ∀ v ∈ vs, Takes v) : Takes (.sequence vs) := by
  intro p rest hp h
  rw [Value.events, List.cons_append, List.append_assoc]
  refine accepts_sequence hp (fun _ q hq hbehind => ?_) fun es' hes => ?_
  · exact accepts_items hvs hq fun r hr => h r (hbehind r hr)
  · cases vs with
    | nil =>
        obtain rfl : rest = es' := List.tail_eq_of_cons_eq hes
        exact h
    | cons v vs =>
        rw [eventsOfValues, List.append_assoc] at hes
        obtain ⟨e, hhead, he⟩ := head?_events_append v (eventsOfValues vs ++ ([.sequenceEnd] ++ rest))
        rw [hes] at hhead
        cases Option.some.inj hhead
        cases he

theorem takes_mapping {ds : List (Value × Value)} (hk : ∀ d ∈ ds, Takes d.1)
    (hv : ∀ d ∈ ds, Takes d.2) : Takes (.mapping ds) := by
  intro p rest hp h
  rw [Value.events, List.cons_append, List.append_assoc]
  refine accepts_mapping hp (fun _ q hq hbehind => ?_) fun es' hes => ?_
  · exact accepts_entries hk hv hq fun r hr => h r (hbehind r hr)
  · cases ds with
    | nil =>
        obtain rfl : rest = es' := List.tail_eq_of_cons_eq hes
        exact h
    | cons d ds =>
        rw [eventsOfPairs, List.append_assoc, List.append_assoc] at hes
        obtain ⟨e, hhead, he⟩ := head?_events_append d.1
          (d.2.events ++ (eventsOfPairs ds ++ ([.mappingEnd] ++ rest)))
        rw [hes] at hhead
        cases Option.some.inj hhead
        cases he

/-- **The printer takes the events of a value** that can be written. -/
theorem takes_of_writable {v : Value} (h : v.Writable) : Takes v := by
  induction h with
  | null | bool | integer | float | string => exact accepts_scalar
  | sequence _ ih => exact takes_sequence ih
  | mapping _ _ _ ihk ihv => exact takes_mapping ihk ihv

end

end Printer

/-- **A text is written for entries that can be written**, however many there are. -/
theorem exists_print {es : List (Value × Value)} (hk : ∀ e ∈ es, e.1.Writable)
    (hv : ∀ e ∈ es, e.2.Writable) :
    ∃ text, (emitEntries es ({} : Emission).startMapping).closeMapping.print = .ok text := by
  have hready : ({} : Emission).startMapping.Ready := ⟨Nat.succ_ne_zero 0, rfl, rfl⟩
  have hemit : (emitEntries es ({} : Emission).startMapping).closeMapping =
      { events := .documentEnd :: .mappingEnd ::
          ((eventsOfPairs es).reverse ++ [.mappingStart none, .documentStart]) } := by
    rw [emitEntries_eq (fun d hd => (hk d hd).emit_eq) (fun d hd => (hv d hd).emit_eq) hready]
    rfl
  have haccepts : ({} : Printer).Accepts (.documentStart :: ((Value.mapping es).events ++
      [.documentEnd])) := by
    refine Printer.accepts_cons (q := { expected := .root }) rfl ?_
    refine Printer.takes_mapping (fun d hd => Printer.takes_of_writable (hk d hd))
      (fun d hd => Printer.takes_of_writable (hv d hd)) ⟨_, .root⟩ fun q hq => ?_
    have hend : q.expected = .endOfDocument := by
      have hfollows := hq.expected
      generalize q.expected = x at hfollows
      cases hfollows
      rfl
    exact Printer.accepts_cons (by simp only [Printer.step, hend]; rfl) Printer.accepts_nil
  obtain ⟨p, hp⟩ := haccepts
  have hevents : (emitEntries es ({} : Emission).startMapping).closeMapping.events.reverse =
      .documentStart :: ((Value.mapping es).events ++ [.documentEnd]) := by
    rw [hemit]
    simp [Value.events]
  refine ⟨String.ofList p.page.reversed.reverse, ?_⟩
  rw [Emission.print, hevents, hp, hemit]
  rfl

end StorageNode.Yaml
