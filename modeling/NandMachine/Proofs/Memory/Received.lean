import NandMachine.Proofs.Memory.Chronicle

/-!
# What mappings receive

Every write to a space goes to the mapping that answers for its address, and to no other one. So the
chronicle of a history tells what has reached a mapping: of the writes since its registration those
to addresses that no earlier mapping covers. With what the mapping was registered as they tell what
its device holds, whatever its kind.

## Key results

- `received_note`: a write is received by the earliest mapping that covers its address
- `Holds.register`, `Holds.write`: what holds between the devices and the chronicle is kept
- `getElem?_mappings_space`: a device is what it was registered as, after the writes it received
-/

namespace NandMachine

namespace Space

/-! ## The writes that a mapping receives -/

/-- The place of the earliest entry whose mapping covers an address. -/
def place? (es : List Entry) (a : Address) : Option Nat :=
  es.findIdx? fun e => e.mapping.Covers a.toNat

/-- The writes since the registration of the mapping at a place that no earlier mapping has taken,
the latest one first. -/
def received (es : List Entry) (i : Nat) : List (Address × Nibble) :=
  match es[i]? with
  | some e => e.writes.filter fun w => place? es w.1 = some i
  | none => []

/-- The mapping of an entry with the writes that it has received. -/
def current (es : List Entry) (i : Nat) (e : Entry) : Mapping :=
  { e.mapping with
    device := (received es i).foldr
      (fun w d => d.write (w.1.toNat - e.mapping.base.toNat) w.2) e.mapping.device }

/-- The place of an address is that of the earliest entry that covers it. -/
theorem place?_eq_some_iff {es : List Entry} {a : Address} {i : Nat} :
    place? es a = some i ↔ ∃ e, Earliest es a i e := by
  rw [place?, List.findIdx?_eq_some_iff_getElem]
  -- Both say that the mapping covers the address and that none in front of it does.
  constructor
  · rintro ⟨hi, hcov, hbefore⟩
    refine ⟨es[i], List.getElem?_eq_getElem hi, by simpa using hcov, ?_⟩
    intro j hj f hf
    obtain ⟨hlt, rfl⟩ := List.getElem?_eq_some_iff.mp hf
    simpa using hbefore j hj
  · rintro ⟨e, hat, hcov, hbefore⟩
    obtain ⟨hi, rfl⟩ := List.getElem?_eq_some_iff.mp hat
    refine ⟨hi, by simpa using hcov, ?_⟩
    intro j hj
    simpa using hbefore j hj _ (List.getElem?_eq_getElem (Nat.lt_trans hj hi))

/-- A place that is found is one of the chronicle. -/
theorem lt_length_of_place? {es : List Entry} {a : Address} {i : Nat}
    (h : place? es a = some i) : i < es.length := by
  obtain ⟨e, he⟩ := place?_eq_some_iff.mp h
  exact (List.getElem?_eq_some_iff.mp he.at_place).1

/-- A write changes no place. -/
@[simp] theorem place?_map_note (es : List Entry) (a b : Address) (n : Nibble) :
    place? (es.map fun e => e.note b n) a = place? es a :=
  List.findIdx?_map

/-- A new entry answers only for what no other one does. -/
theorem place?_concat_eq_some_iff {es : List Entry} {f : Entry} {a : Address} {i : Nat}
    (hi : i < es.length) : place? (es ++ [f]) a = some i ↔ place? es a = some i := by
  rw [place?, List.findIdx?_append, Option.or_eq_some_iff]
  refine or_iff_left ?_
  -- A place that the new entry gives lies behind all others.
  rintro ⟨-, hlast⟩
  obtain ⟨k, -, hk⟩ := Option.map_eq_some_iff.mp hlast
  omega

/-- A new entry takes no writes from those in front of it. -/
theorem received_concat (es : List Entry) (f : Entry) {i : Nat} (hi : i < es.length) :
    received (es ++ [f]) i = received es i := by
  simp only [received, List.getElem?_append_left hi, place?_concat_eq_some_iff hi]

/-- A new entry has received nothing yet. -/
theorem received_concat_length (es : List Entry) (m : Mapping) :
    received (es ++ [Entry.ofMapping m]) es.length = [] := by
  simp only [received, List.getElem?_concat_length, Entry.ofMapping, List.filter_nil]

/-- A write is received by the earliest entry that covers its address, and by no other one. -/
theorem received_note (es : List Entry) (b : Address) (n : Nibble) (i : Nat) :
    received (es.map fun e => e.note b n) i =
      if place? es b = some i then (b, n) :: received es i else received es i := by
  simp only [received, List.getElem?_map, place?_map_note]
  cases he : es[i]? with
  | none =>
    have hne : place? es b ≠ some i := fun h =>
      Nat.not_le_of_lt (lt_length_of_place? h) (List.getElem?_eq_none_iff.mp he)
    rw [if_neg hne]
    rfl
  | some e => simp only [Option.map_some, Entry.note, List.filter_cons, decide_eq_true_eq]

/-! ## What the mappings of a space hold -/

variable {s : Space} {es : List Entry}

/-- The mapping at a place is that of the entry, but for what was written. -/
theorem Lists.getElem?_blank (h : s.Lists es) (i : Nat) :
    s.mappings[i]?.map Mapping.blank = es[i]?.map Entry.mapping := by
  rw [← getElem?_mappings_blank, h, List.getElem?_toArray, List.getElem?_map]

/-- There are as many mappings as entries. -/
theorem Lists.size_eq (h : s.Lists es) : s.mappings.size = es.length := by
  have hsize := congrArg (fun t : Space => t.mappings.size) h
  simpa [blank] using hsize

/-- The earliest entry that covers an address has the place to which the address is resolved. -/
theorem Lists.place_eq (h : s.Lists es) (a : Address) :
    (s.resolve a).map Prod.fst = place? es a := by
  cases hp : place? es a with
  | none =>
    have hnone : ∀ e ∈ es, ¬ e.mapping.Covers a.toNat := by
      simpa [place?, List.findIdx?_eq_none_iff] using hp
    rw [resolve_eq_none_iff_covers.mpr ((h.none_covers_iff a).mpr hnone), Option.map_none]
  | some i =>
    obtain ⟨e, he⟩ := place?_eq_some_iff.mp hp
    rw [← resolve_blank, resolve_of_first (h.first he), Option.map_some]

/-- A new entry does not change what the earlier ones hold. -/
theorem current_concat (es : List Entry) (f : Entry) {i : Nat} (hi : i < es.length) (e : Entry) :
    current (es ++ [f]) i e = current es i e := by
  rw [current, current, received_concat es f hi]

/-- A new entry holds what it was registered with. -/
theorem current_concat_length (es : List Entry) (m : Mapping) :
    current (es ++ [Entry.ofMapping m]) es.length (Entry.ofMapping m) = m := by
  rw [current, received_concat_length]
  rfl

/-- A write reaches what the earliest entry holds that covers the address, and no other one. -/
theorem current_note (es : List Entry) (b : Address) (n : Nibble) (i : Nat) (e : Entry) :
    current (es.map fun e => e.note b n) i (e.note b n) =
      if place? es b = some i then (current es i e).write (b.toNat - e.mapping.base.toNat) n
      else current es i e := by
  rw [current, received_note]
  split <;> rfl

/-- Every mapping of the space is as it was registered, after the writes that it has received. -/
def Holds (s : Space) (es : List Entry) : Prop := ∀ i, s.mappings[i]? = es[i]?.map (current es i)

/-- A registration keeps what holds between the devices and the chronicle. -/
theorem Holds.register (h : s.Holds es) (lists : s.Lists es) (m : Mapping) :
    (s.register m).Holds (es ++ [Entry.ofMapping m]) := by
  intro i
  have hsize := lists.size_eq
  rw [Space.register]
  -- The place is that of an earlier mapping, that of the new one, or one behind it.
  rcases Nat.lt_trichotomy i es.length with hlt | rfl | hgt
  · have hsame : current (es ++ [Entry.ofMapping m]) i = current es i :=
      funext (current_concat es _ hlt)
    rw [Array.getElem?_push_lt (by omega), ← Array.getElem?_eq_getElem, h i,
      List.getElem?_append_left hlt, hsame]
  · rw [← hsize, Array.getElem?_push_size, hsize, List.getElem?_concat_length, Option.map_some,
      current_concat_length]
  · rw [Array.getElem?_eq_none (by rw [Array.size_push]; omega),
      List.getElem?_eq_none (by rw [List.length_append, List.length_singleton]; omega)]
    rfl

/-- A write keeps what holds between the devices and the chronicle. -/
theorem Holds.write (h : s.Holds es) (lists : s.Lists es) (b : Address) (n : Nibble) :
    (s.write b n).Holds (es.map fun e => e.note b n) := by
  intro i
  rw [getElem?_mappings_write, h i, lists.place_eq, List.getElem?_map, Option.map_map,
    Option.map_map]
  -- The place that is written to is that of the entry that receives the write.
  congr 1
  funext e
  exact (current_note es b n i e).symm

/-- The mappings of a space, from its chronicle: every one is as it was registered, after the writes
that it has received. -/
theorem getElem?_mappings_space (h : History Device.Fresh) (i : Nat) :
    h.space.mappings[i]? = h.chronicle[i]?.map (current h.chronicle i) := by
  -- By induction on the history, from its latest operation back to the empty space.
  induction h generalizing i with
  | nil => rfl
  | cons op earlier ih =>
    have hlists := (follows_chronicle earlier).lists
    cases op with
    | register m fresh => exact Holds.register ih hlists m i
    | tryRegister m fresh =>
      rw [History.space, hlists.perform_tryRegister fresh, History.chronicle]
      split
      · exact Holds.register ih hlists m i
      · exact ih i
    | write a n => exact Holds.write ih hlists a n i

/-- All mappings of a space, from its chronicle. -/
theorem toList_mappings_space (h : History Device.Fresh) :
    h.space.mappings.toList = h.chronicle.mapIdx (current h.chronicle) := by
  refine (List.mapIdx_eq_iff.mpr fun i => ?_).symm
  rw [Array.getElem?_toList, getElem?_mappings_space]

/-- The writes that a mapping has received leave the kind of its device. -/
theorem kind_current (es : List Entry) (i : Nat) (e : Entry) :
    (current es i e).device.kind = e.mapping.device.kind := by
  rw [current]
  induction received es i with
  | nil => rfl
  | cons w ws ih => rw [List.foldr_cons, Device.kind_write, ih]

end Space

end NandMachine
