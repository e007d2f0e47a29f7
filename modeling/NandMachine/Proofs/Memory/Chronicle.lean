import NandMachine.Proofs.Memory.Access

/-!
# The chronicle of a space

A space that is built from nothing has a history: mappings were registered and nibbles written, in
some order. The chronicle of a history lists the mappings as they were registered, each with the
writes made to the space since. It holds no device contents. The main theorem says that the
chronicle alone tells which mapping answers for an address and what a read finds there.

## Key results

- `Lists.perform_tryRegister`: the chronicle tells which checked registrations go through
- `Follows.register`, `Follows.write`: what holds between space and chronicle is kept
- `space_follows_chronicle`: resolution and reads of a space, from its chronicle
-/

namespace NandMachine

/-- A device that nothing has been written to. -/
inductive Device.Fresh : Device → Prop
  | rom (image : Rom) : Fresh (.rom image)
  | zeros (length : Nat) : Fresh (.zeros length)
  | display : Fresh .freshDisplay

/-- Nothing has to be forgotten of a device that nothing has been written to. -/
theorem Device.Fresh.blank_eq {d : Device} (h : d.Fresh) : d.blank = d := by
  cases h <;> simp [Device.blank, Device.zeros, Device.freshDisplay]

namespace Space

/-! ## Histories -/

/-- What can be done to a space, with devices of some sort. -/
inductive Operation (Allowed : Device → Prop)
  | register (m : Mapping) (allowed : Allowed m.device)
  /-- Registers the mapping if it fits, and does nothing otherwise. -/
  | tryRegister (m : Mapping) (allowed : Allowed m.device)
  | write (a : Address) (n : Nibble)

/-- No mapping gets into the space without a check. -/
def Operation.Checked {Allowed : Device → Prop} : Operation Allowed → Prop
  | .register _ _ => False
  | .tryRegister _ _ | .write _ _ => True

/-- The space after an operation. -/
def perform {Allowed : Device → Prop} (s : Space) : Operation Allowed → Space
  | .register m _ => s.register m
  | .tryRegister m _ =>
    match (tryRegisterInPlace m).run s with
    | .ok _ t | .error _ t => t
  | .write a n => s.write a n

/-- Operations on a space that had no mappings, the latest one first. -/
abbrev History (Allowed : Device → Prop) := List (Operation Allowed)

/-- A mapping as it was registered, and what was written to the space since. -/
structure Entry where
  mapping : Mapping
  /-- The latest write comes first. -/
  writes : List (Address × Nibble)

namespace Entry

/-- A mapping that was registered just now. -/
def ofMapping (m : Mapping) : Entry := ⟨m, []⟩

/-- Adds a write. -/
def note (e : Entry) (a : Address) (n : Nibble) : Entry := { e with writes := (a, n) :: e.writes }

/-- The nibble that was written to an address last since the mapping was registered. -/
def lastWrite? (e : Entry) (a : Address) : Option Nibble :=
  (e.writes.find? fun w => w.1 = a).map Prod.snd

/-- What a read finds at an address that the mapping answers for: a nibble of the image in the
order high half, low half; the nibble that was written last to a cell; zero at a display and
wherever the device has ended. -/
def shown (e : Entry) (a : Address) : Nibble :=
  let offset := a.toNat - e.mapping.base.toNat
  match e.mapping.device with
  | .rom image => image.nibbles[offset]?.getD 0
  | .ram cells => if offset < cells.size then (e.lastWrite? a).getD 0 else 0
  | .display _ _ => 0

@[simp] theorem mapping_ofMapping (m : Mapping) : (ofMapping m).mapping = m := rfl

@[simp] theorem mapping_note (e : Entry) (a : Address) (n : Nibble) :
    (e.note a n).mapping = e.mapping := rfl

/-- The write that was added last is found at its own address. -/
theorem lastWrite?_note (e : Entry) (a b : Address) (n : Nibble) :
    (e.note b n).lastWrite? a = if a = b then some n else e.lastWrite? a := by
  simp only [lastWrite?, note, List.find?_cons]
  by_cases h : b = a
  · simp [h]
  · simp [h, Ne.symm h]

/-- A write shows at its own address, if the mapping has a cell there, and nowhere else. -/
theorem shown_note (e : Entry) (a b : Address) (n : Nibble) :
    (e.note b n).shown a =
      if a = b ∧ e.mapping.device.keeps (a.toNat - e.mapping.base.toNat) then n
      else e.shown a := by
  simp only [shown, mapping_note]
  -- Only cells show what is written to them.
  cases h : e.mapping.device with
  | rom image => simp [Device.keeps]
  | display value writes => simp [Device.keeps]
  | ram cells =>
    simp only [Device.keeps, decide_eq_true_eq, lastWrite?_note]
    by_cases hlt : a.toNat - e.mapping.base.toNat < cells.size
    · by_cases hab : a = b
      · simp only [if_pos hab, if_pos hlt, if_pos (And.intro hab hlt), Option.getD_some]
      · simp only [if_neg hab, if_pos hlt, if_neg (fun h : a = b ∧ _ => hab h.1)]
    · simp only [if_neg hlt, if_neg (fun h : a = b ∧ _ => hlt h.2)]

/-- A read of a new mapping finds what its device was made with. -/
theorem shown_of_fresh {m : Mapping} (fresh : m.device.Fresh) (a : Address) :
    (ofMapping m).shown a = m.device.read (a.toNat - m.base.toNat) := by
  obtain ⟨base, length, device⟩ := m
  cases fresh with
  | rom image => exact (Rom.get_eq image _).symm
  | display => rfl
  | zeros size =>
    -- All cells are zero, and so is what is found behind them.
    show (if _ < (Array.replicate size (0 : Nibble)).size then _ else _) =
      (Array.replicate size 0)[_]?.getD 0
    rw [Array.getElem?_replicate]
    split <;> split <;> rfl

end Entry

/-- The entry at a place is the earliest one whose mapping covers an address. -/
structure Earliest (es : List Entry) (a : Address) (i : Nat) (e : Entry) : Prop where
  at_place : es[i]? = some e
  covers : e.mapping.Covers a.toNat
  before : ∀ j < i, ∀ f, es[j]? = some f → ¬ f.mapping.Covers a.toNat

/-- A mapping fits behind the entries: its range holds addresses, all of them in the space, and
overlaps with no range of an entry. -/
def Fits (es : List Entry) (m : Mapping) : Prop :=
  0 < m.length ∧ m.stop ≤ addressCount ∧ ∀ e ∈ es, ¬ e.mapping.Overlaps m

instance (es : List Entry) (m : Mapping) : Decidable (Fits es m) :=
  inferInstanceAs (Decidable (_ ∧ _ ∧ _))

/-- The earliest entry that covers an address was so before, or it is the new one and no other
covers the address. -/
theorem Earliest.of_snoc {es : List Entry} {a : Address} {i : Nat} {e f : Entry}
    (h : Earliest (es ++ [f]) a i e) :
    Earliest es a i e ∨ e = f ∧ ∀ g ∈ es, ¬ g.mapping.Covers a.toNat := by
  obtain ⟨hat, hcov, hbefore⟩ := h
  have shorter : ∀ j < es.length, (es ++ [f])[j]? = es[j]? :=
    fun j hj => List.getElem?_append_left hj
  by_cases hi : i < es.length
  · -- The entry stands in the shorter chronicle, and so do all in front of it.
    refine .inl ⟨by rw [← shorter i hi, hat], hcov, ?_⟩
    intro j hj g hg
    exact hbefore j hj g (by rw [shorter j (by omega), hg])
  · have hlen : i < (es ++ [f]).length := (List.getElem?_eq_some_iff.mp hat).1
    have hic : i = es.length := by
      rw [List.length_append, List.length_singleton] at hlen
      omega
    subst hic
    rw [List.getElem?_concat_length, Option.some.injEq] at hat
    refine .inr ⟨hat.symm, ?_⟩
    intro g hg
    obtain ⟨j, hj, rfl⟩ := List.mem_iff_getElem.mp hg
    exact hbefore j hj _ (by rw [shorter j hj, List.getElem?_eq_getElem hj])

/-- A write changes nothing about which entry is the earliest. -/
theorem Earliest.of_note {es : List Entry} {a b : Address} {n : Nibble} {i : Nat} {e : Entry}
    (h : Earliest (es.map fun e => e.note b n) a i e) :
    ∃ f, Earliest es a i f ∧ e = f.note b n := by
  obtain ⟨hat, hcov, hbefore⟩ := h
  rw [List.getElem?_map] at hat
  obtain ⟨f, hf, rfl⟩ := Option.map_eq_some_iff.mp hat
  refine ⟨f, ⟨hf, hcov, ?_⟩, rfl⟩
  intro j hj g hg
  exact hbefore j hj (g.note b n) (by rw [List.getElem?_map, hg]; rfl)

/-! ## The space and the chronicle of a history -/

namespace History

/-- The space at the end of a history. -/
def space {Allowed : Device → Prop} : History Allowed → Space
  | [] => .empty
  | op :: earlier => (space earlier).perform op

/-- The mappings that were registered in a history, in this order, with the writes since. It is made
from the operations alone, without the space. -/
def chronicle : History Device.Fresh → List Entry
  | [] => []
  | .register m _ :: earlier => chronicle earlier ++ [Entry.ofMapping m]
  | .tryRegister m _ :: earlier =>
    if Fits (chronicle earlier) m then chronicle earlier ++ [Entry.ofMapping m]
    else chronicle earlier
  | .write a n :: earlier => (chronicle earlier).map fun e => e.note a n

end History

/-! ## Registration -/

/-- A checked registration that succeeds is a registration. -/
theorem tryRegister_eq_ok {s t : Space} {m : Mapping} (h : s.tryRegister m = .ok t) :
    t = s.register m := by
  simp only [tryRegister] at h
  split at h
  · exact nomatch h
  · exact (Except.ok.inj h).symm

/-- A checked registration finds nothing wrong exactly if there is nothing. -/
theorem conflict?_eq_none_iff {s : Space} {m : Mapping} :
    s.conflict? m = none ↔
      0 < m.length ∧ m.stop ≤ addressCount ∧ ∀ e ∈ s.mappings, ¬ e.Overlaps m := by
  simp only [conflict?]
  -- The checks come in this order: length, end, overlap.
  by_cases hempty : m.length = 0
  · simp [hempty]
  by_cases hout : addressCount < m.stop
  · simp only [if_neg hempty, if_pos hout]
    refine ⟨fun h => (nomatch h), ?_⟩
    rintro ⟨-, hle, -⟩
    omega
  have hpos : 0 < m.length := by omega
  have hle : m.stop ≤ addressCount := by omega
  rw [if_neg hempty, if_neg hout]
  cases hfind : s.mappings.find? fun e => e.Overlaps m with
  | none => simpa [hpos, hle] using hfind
  | some e =>
    have hmem : e ∈ s.mappings := Array.mem_of_find?_eq_some hfind
    have hover : e.Overlaps m := by simpa using Array.find?_some hfind
    refine ⟨fun h => (nomatch h), ?_⟩
    rintro ⟨-, -, hnone⟩
    exact absurd hover (hnone e hmem)

/-- Where a mapping answers already, a new one makes no difference. -/
theorem read_register_of_covers {s : Space} {a : Address} (m : Mapping)
    (h : ∃ e ∈ s.mappings, e.Covers a.toNat) : (s.register m).read a = s.read a := by
  obtain ⟨e, he, hcov⟩ := h
  cases ho : s.owner? a with
  | none => exact absurd hcov (owner?_eq_none_iff.mp ho e he)
  | some f => simp only [read, owner?_register, ho, Option.some_or]

/-- Where no mapping answers yet, a read finds what is behind the new one. -/
theorem read_register_of_not_covers {s : Space} {a : Address} {m : Mapping}
    (h : ∀ e ∈ s.mappings, ¬ e.Covers a.toNat) (hm : m.Covers a.toNat) :
    (s.register m).read a = m.device.read (a.toNat - m.base.toNat) := by
  simp only [read, owner?_register, owner?_eq_none_iff.mpr h, if_pos hm, Option.none_or]

/-- What was written is forgotten in front of a new mapping and in it. -/
theorem blank_register (s : Space) (m : Mapping) :
    (s.register m).blank = s.blank.register m.blank := by
  simp [blank, register]

/-! ## What holds between a space and its chronicle

`Lists` ties a space to a chronicle by its mappings, and settles which one answers; `Follows` adds
what a read finds. Every operation keeps both.
-/

/-- The mappings of the space, without what was written, are those of the chronicle. -/
def Lists (s : Space) (es : List Entry) : Prop := s.blank = ⟨(es.map Entry.mapping).toArray⟩

namespace Lists

variable {s : Space} {es : List Entry}

/-- The mappings, without what was written, are those of the entries. -/
theorem mem_iff (h : s.Lists es) {m : Mapping} :
    m ∈ s.blank.mappings ↔ ∃ e ∈ es, e.mapping = m := by
  rw [h, List.mem_toArray, List.mem_map]

/-- What only depends on ranges holds of all mappings exactly if it holds of all entries. -/
theorem forall_iff (h : s.Lists es) {p : Mapping → Prop} (hp : ∀ m, p m.blank ↔ p m) :
    (∀ m ∈ s.mappings, p m) ↔ ∀ e ∈ es, p e.mapping := by
  constructor
  · intro hall e he
    obtain ⟨m, hm, heq⟩ := Array.mem_map.mp (h.mem_iff.mpr ⟨e, he, rfl⟩)
    rw [← heq, hp]
    exact hall m hm
  · intro hall m hm
    obtain ⟨e, he, heq⟩ := h.mem_iff.mp (Array.mem_map_of_mem hm)
    rw [← hp, ← heq]
    exact hall e he

/-- No mapping covers an address exactly if no entry does. -/
theorem none_covers_iff (h : s.Lists es) (a : Address) :
    (∀ m ∈ s.mappings, ¬ m.Covers a.toNat) ↔ ∀ e ∈ es, ¬ e.mapping.Covers a.toNat :=
  h.forall_iff fun _ => Iff.rfl

/-- Some mapping covers an address exactly if some entry does. -/
theorem exists_covers_iff (h : s.Lists es) (a : Address) :
    (∃ m ∈ s.mappings, m.Covers a.toNat) ↔ ∃ e ∈ es, e.mapping.Covers a.toNat := by
  simpa using not_congr (h.none_covers_iff a)

/-- The earliest entry that covers an address stands where the mapping does that answers for it. -/
theorem first (h : s.Lists es) {a : Address} {i : Nat} {e : Entry} (he : Earliest es a i e) :
    s.blank.First a i e.mapping := by
  -- Mappings and entries stand at the same places.
  have place : ∀ j : Nat, s.blank.mappings[j]? = es[j]?.map Entry.mapping := by
    intro j
    rw [h, List.getElem?_toArray, List.getElem?_map]
  refine ⟨by rw [place, he.at_place]; rfl, he.covers, ?_⟩
  intro j hj m hm
  rw [place] at hm
  obtain ⟨f, hf, rfl⟩ := Option.map_eq_some_iff.mp hm
  exact he.before j hj f hf

/-- A write can be read back if the earliest entry that covers the address has a cell for it. -/
theorem keeps_eq (h : s.Lists es) {a : Address} {i : Nat} {e : Entry} (he : Earliest es a i e) :
    s.keeps a = e.mapping.device.keeps (a.toNat - e.mapping.base.toNat) := by
  rw [← keeps_blank, keeps_of_first (h.first he)]

/-- A registration adds to both sides. -/
theorem register (h : s.Lists es) {m : Mapping} (fresh : m.device.Fresh) :
    (s.register m).Lists (es ++ [Entry.ofMapping m]) := by
  have hm : m.blank = m := by rw [Mapping.blank, fresh.blank_eq]
  rw [Lists, blank_register, h, hm]
  simp [Space.register]

/-- A write changes no mapping but for what it holds. -/
theorem write (h : s.Lists es) (a : Address) (n : Nibble) :
    (s.write a n).Lists (es.map fun e => e.note a n) := by
  rw [Lists, blank_write, h, List.map_map]
  rfl

/-- A checked registration goes through exactly if the mapping fits behind the entries. -/
theorem perform_tryRegister (h : s.Lists es) {m : Mapping} (fresh : m.device.Fresh) :
    s.perform (.tryRegister m fresh) = if Fits es m then s.register m else s := by
  -- Overlaps go by ranges, and those are in the chronicle.
  have hover : (∀ e ∈ s.mappings, ¬ e.Overlaps m) ↔ ∀ e ∈ es, ¬ e.mapping.Overlaps m :=
    h.forall_iff fun _ => Iff.rfl
  have hfits : s.conflict? m = none ↔ Fits es m := by
    rw [conflict?_eq_none_iff, hover, Fits]
  simp only [perform, run_tryRegisterInPlace, tryRegister]
  cases hc : s.conflict? m with
  | none => rw [if_pos (hfits.mp hc)]
  | some e =>
    have hnot : ¬ Fits es m := by
      intro hf
      rw [hfits.mpr hf] at hc
      exact nomatch hc
    rw [if_neg hnot]

end Lists

/-- The space has the mappings of the chronicle, and reads as the chronicle tells. -/
structure Follows (s : Space) (es : List Entry) : Prop where
  lists : s.Lists es
  tells : ∀ a i e, Earliest es a i e → s.read a = e.shown a

namespace Follows

variable {s : Space} {es : List Entry}

/-- Nothing has happened to an empty space. -/
theorem empty : Space.empty.Follows [] where
  lists := by simp [Lists, Space.empty, blank]
  tells := fun _ _ _ he => nomatch he.at_place

/-- A registration keeps what holds between space and chronicle. -/
theorem register (h : s.Follows es) {m : Mapping} (fresh : m.device.Fresh) :
    (s.register m).Follows (es ++ [Entry.ofMapping m]) where
  lists := h.lists.register fresh
  tells := by
    intro a i e he
    rcases he.of_snoc with hold | ⟨rfl, hnone⟩
    · -- An earlier mapping answers, and the new one has no influence.
      have hcov : ∃ e ∈ s.mappings, e.Covers a.toNat :=
        (h.lists.exists_covers_iff a).mpr ⟨e, List.mem_of_getElem? hold.at_place, hold.covers⟩
      rw [read_register_of_covers m hcov]
      exact h.tells a i e hold
    · -- The new mapping answers, with what its device was made with.
      have hnot : ∀ e ∈ s.mappings, ¬ e.Covers a.toNat := (h.lists.none_covers_iff a).mpr hnone
      rw [Entry.shown_of_fresh fresh]
      exact read_register_of_not_covers hnot he.covers

/-- A write keeps what holds between space and chronicle. -/
theorem write (h : s.Follows es) (b : Address) (n : Nibble) :
    (s.write b n).Follows (es.map fun e => e.note b n) where
  lists := h.lists.write b n
  tells := by
    intro a i e he
    obtain ⟨f, hf, rfl⟩ := he.of_note
    rw [read_write, Entry.shown_note, h.tells a i f hf, ← h.lists.keeps_eq hf]
    -- At the address itself the write shows if there is a cell; elsewhere nothing changes on either
    -- side.
    by_cases hab : a = b
    · rw [hab]
    · have hleft : ¬ (a = b ∧ s.keeps b) := fun hw => hab hw.1
      have hright : ¬ (a = b ∧ s.keeps a) := fun hw => hab hw.1
      rw [if_neg hleft, if_neg hright]

end Follows

/-- The space of a history follows its chronicle. -/
theorem follows_chronicle (h : History Device.Fresh) : h.space.Follows h.chronicle := by
  -- By induction on the history, from its latest operation back to the empty space.
  induction h with
  | nil => exact .empty
  | cons op earlier ih =>
    cases op with
    | register m fresh => exact ih.register fresh
    | tryRegister m fresh =>
      rw [History.space, ih.lists.perform_tryRegister fresh, History.chronicle]
      split
      · exact ih.register fresh
      · exact ih
    | write a n => exact ih.write a n

/-- The chronicle of a history tells all about the space at its end: the earliest mapping that
covers an address answers for it, at the offset from its base, and a read finds what was written
last to this very address since that mapping was registered, or what the mapping was registered
with. Writes elsewhere and later mappings change nothing. -/
theorem space_follows_chronicle (h : History Device.Fresh) (a : Address) :
    (∀ i e, Earliest h.chronicle a i e →
      h.space.resolve a = some (i, a.toNat - e.mapping.base.toNat) ∧
      h.space.read a = e.shown a) ∧
    ((∀ e ∈ h.chronicle, ¬ e.mapping.Covers a.toNat) →
      h.space.resolve a = none ∧ h.space.read a = 0) ∧
    (∀ b n, b ≠ a → (h.space.write b n).read a = h.space.read a) ∧
    (∀ m, (∃ e ∈ h.chronicle, e.mapping.Covers a.toNat) →
      (h.space.register m).read a = h.space.read a ∧
      ∀ t, h.space.tryRegister m = .ok t → t.read a = h.space.read a) := by
  have hfollows := follows_chronicle h
  refine ⟨?_, ?_, ?_, ?_⟩
  · intro i e he
    refine ⟨?_, hfollows.tells a i e he⟩
    rw [← resolve_blank, resolve_of_first (hfollows.lists.first he)]
  · -- An address that no entry covers is covered by no mapping.
    intro hnone
    have hres : h.space.resolve a = none := by
      rw [resolve_eq_none_iff_covers]
      exact (hfollows.lists.none_covers_iff a).mpr hnone
    exact ⟨hres, read_of_resolve_eq_none hres⟩
  · intro b n hne
    exact read_write_of_ne h.space hne n
  · -- Some mapping answers already, so a new one behind it is not asked.
    intro m hcov
    have same := read_register_of_covers m ((hfollows.lists.exists_covers_iff a).mpr hcov)
    refine ⟨same, ?_⟩
    intro t ht
    rw [tryRegister_eq_ok ht, same]

end Space

end NandMachine
