import NandMachine.Json.Read
import NandMachine.Proofs.Json.Text

/-!
# Writing and reading

A reader takes apart what a writer has put together. For records this goes by the list of their
fields: a record whose members are the fields, in the order of the list, is what the values fill in
one after another. So for a type there is only to say what is filled in.

## Key results

- `Schema.read_record`: a record with all fields in their order
- `readChoice_text`, `readChoice_record`: alternatives without and with fields
- `Codec.Faithful.roundTrips`: a type whose values are read as they are written has texts that are
  read as they are written
-/

namespace NandMachine.Json

variable {α σ : Type}

/-! ## Texts of their own -/

@[simp] theorem plain_nat (n : Nat) : (Value.nat n).Plain := ⟨n, rfl⟩

@[simp] theorem plain_text (s : String) : (Value.text s).Plain := rfl

@[simp] theorem plain_bool (b : Bool) : (Value.bool b).Plain := trivial

/-- A list has a text of its own if all values in it have one. -/
@[simp] theorem plain_list {vs : List Value} : (Value.list vs).Plain ↔ ∀ v ∈ vs, v.Plain := by
  show (Items.ofList vs).Plain ↔ _
  induction vs with
  | nil => simp [Items.ofList, Items.Plain]
  | cons v vs ih => simp [Items.ofList, Items.Plain, ih]

/-- A record has a text of its own if the values of all its parts have one. -/
@[simp] theorem plain_record {ms : List (String × Value)} :
    (Value.record ms).Plain ↔ ∀ m ∈ ms, m.2.Plain := by
  show (Members.ofList ms).Plain ↔ _
  induction ms with
  | nil => simp [Members.ofList, Members.Plain]
  | cons m ms ih => simp [Members.ofList, Members.Plain, ih]

/-! ## Numbers and lists -/

/-- A number below the limit of a reader is read as it is written. -/
theorem readNat_nat {limit n : Nat} (width : String) (h : n < limit) (hsize : n < UInt64.size) :
    readNat limit width (.nat n) = .ok n := by
  unfold readNat Value.nat
  simp only [Number.kind_ofNat hsize]
  rw [if_pos (by omega), Int.toNat_natCast]

/-- A byte is read as it is written. -/
theorem readByte_nat (b : UInt8) : readByte (.nat b.toNat) = .ok b := by
  have hlt := b.toNat_lt
  rw [readByte, readNat_nat "u8" hlt (by simp only [UInt64.size]; omega), Except.map,
    UInt8.ofNat_toNat]

/-- A word is read as it is written. -/
theorem readWord_nat (w : UInt16) : readWord (.nat w.toNat) = .ok w := by
  have hlt := w.toNat_lt
  rw [readWord, readNat_nat "u16" hlt (by simp only [UInt64.size]; omega), Except.map,
    UInt16.ofNat_toNat]

/-- A size is read as it is written. -/
theorem readSize_nat (n : UInt64) : readSize (.nat n.toNat) = .ok n := by
  rw [readSize, readNat_nat "usize" n.toNat_lt n.toNat_lt, Except.map, UInt64.ofNat_toNat]

/-- Items are read as they are written, if each of them is. -/
theorem readItems_map {read : Reader α} {write : α → Value} (h : ∀ a, read (write a) = .ok a)
    (as : List α) : readItems read (.ofList (as.map write)) = .ok as := by
  induction as with
  | nil => rfl
  | cons a as ih => simp [Items.ofList, readItems, h, ih, bind, Except.bind, pure, Except.pure]

/-- An array of three is read item by item. -/
theorem readThree_list {read : Reader α} {u v w : Value} {a b c : α} (hu : read u = .ok a)
    (hv : read v = .ok b) (hw : read w = .ok c) :
    readThree read (.list [u, v, w]) = .ok (a, b, c) := by
  simp [Value.list, Items.ofList, readThree, readItem, readEnd, hu, hv, hw, bind, Except.bind, pure,
    Except.pure]

/-! ## Records -/

namespace Schema

/-- Values that fill in fields one after another, none of which has been filled in before. -/
inductive Fills : σ → List (Field σ) → List Value → σ → Prop
  | nil (s : σ) : Fills s [] [] s
  | cons {s t u : σ} {f : Field σ} {fs : List (Field σ)} {v : Value} {vs : List Value}
    (unset : f.isSet s = false) (set : f.set s v = .ok t) (rest : Fills t fs vs u) :
    Fills s (f :: fs) (v :: vs) u

variable {schema : Schema σ} {s t : σ}

/-- A part that is not there yet is filled in with what is read. -/
theorem Fills.part {get : σ → Option α} {put : σ → α → σ} {read : Reader α} {name : String}
    {fs : List (Field σ)} {v : Value} {vs : List Value} {a : α} (unset : get s = none)
    (hread : read v = .ok a) (rest : Fills (put s a) fs vs t) :
    Fills s (.part name get put read :: fs) (v :: vs) t :=
  .cons (by simp [Field.part, unset]) (by simp [Field.part, hread, Except.map]) rest

/-- A field is found by its name, since there is only one of that name. -/
theorem find?_name {front fs : List (Field σ)} {f : Field σ}
    (distinct : ((front ++ f :: fs).map Field.name).Nodup) :
    (front ++ f :: fs).find? (fun g => g.name == f.name) = some f := by
  rw [List.find?_eq_some_iff_append]
  refine ⟨by simp, front, fs, rfl, fun g hg => ?_⟩
  rw [List.map_append, List.nodup_append] at distinct
  have hne := distinct.2.2 g.name (List.mem_map_of_mem hg) f.name (by simp)
  simp [hne]

/-- Members in the order of the fields fill them in. -/
theorem readMembers_of_fills {front fs : List (Field σ)} {ms : List (String × Value)}
    (distinct : (schema.fields.map Field.name).Nodup) (hfields : schema.fields = front ++ fs)
    (names : ms.map Prod.fst = fs.map Field.name) (fills : Fills s fs (ms.map Prod.snd) t) :
    schema.readMembers s (.ofList ms) = schema.readMembers t .closed := by
  -- The fields that have been filled in are in front; those still to come are found behind them.
  induction ms generalizing s front fs with
  | nil =>
    cases fills with
    | nil => rfl
  | cons m ms ih =>
    obtain ⟨key, value⟩ := m
    generalize hvs : ((key, value) :: ms).map Prod.snd = vs at fills
    cases fills with
    | nil => simp at hvs
    | @cons _ s' _ f fs v vs unset set rest =>
      simp only [List.map_cons, List.cons.injEq] at hvs names
      obtain ⟨rfl, rfl⟩ := hvs
      obtain ⟨rfl, names⟩ := names
      -- No field in front has the same name, so the key finds the next field.
      have hfind := find?_name (hfields ▸ distinct)
      rw [← hfields] at hfind
      have hfields' : schema.fields = (front ++ [f]) ++ fs := by
        rw [hfields, List.append_assoc, List.singleton_append]
      have hrest := ih hfields' names rest
      simp [Members.ofList, readMembers, hfind, unset, set, bind, Except.bind, hrest]

/-- A record with all fields in their order is what these values fill in. -/
theorem read_record {ms : List (String × Value)} (distinct : (schema.fields.map Field.name).Nodup)
    (names : ms.map Prod.fst = schema.fields.map Field.name)
    (fills : Fills s schema.fields (ms.map Prod.snd) t)
    (complete : ∀ f ∈ schema.fields, f.isSet t) :
    schema.read s (.record ms) = .ok t := by
  -- All fields are there at the end, so none is reported missing.
  have hnone : schema.fields.find? (fun f => !schema.optional && !f.isSet t) = none := by
    rw [List.find?_eq_none]
    intro f hf
    simp [complete f hf]
  have hall : schema.fields = [] ++ schema.fields := rfl
  rw [Value.record, read, readMembers_of_fills distinct hall names fills, readMembers, hnone]

end Schema

/-! ## Choices -/

/-- An alternative without fields is read from its name. -/
theorem readChoice_text {alternatives : List (String × Content α)} {name : String} {a : α}
    (h : alternatives.lookup name = some (.plain a)) :
    readChoice alternatives (.text name) = .ok a := by
  rw [Value.text, readChoice, h]

/-- An alternative with fields is read from what stands behind its name. -/
theorem readChoice_record {alternatives : List (String × Content α)} {name : String} {a : α}
    {read : Reader α} {v : Value} (h : alternatives.lookup name = some (.fields read))
    (hread : read v = .ok a) : readChoice alternatives (.record [(name, v)]) = .ok a := by
  simp [Value.record, Members.ofList, readChoice, h, Content.read, hread, bind, Except.bind, pure,
    Except.pure]

/-- Alternatives without fields are told apart by their names. -/
theorem readChoice_name {name : α → String} {as : List α} {a : α} (ha : a ∈ as)
    (unique : ∀ b ∈ as, name b = name a → b = a) :
    readChoice (as.map fun b => (name b, .plain b)) (.text (name a)) = .ok a := by
  refine readChoice_text ?_
  -- Names that differ are passed over; the first one that is equal belongs to the value itself.
  induction as with
  | nil => cases ha
  | cons b bs ih =>
    rw [List.map_cons, List.lookup_cons]
    by_cases hb : name b = name a
    · rw [unique b List.mem_cons_self hb]
      simp
    · have hmem : a ∈ bs := (List.mem_cons.mp ha).resolve_left fun h => hb (by rw [h])
      rw [beq_false_of_ne (Ne.symm hb)]
      exact ih hmem fun c hc => unique c (List.mem_cons_of_mem b hc)

/-! ## Codecs -/

namespace Codec

/-- What is written has a text, and reading undoes writing. -/
structure Faithful (c : Codec α) : Prop where
  plain (a : α) : (c.write a).Plain
  read_write (a : α) : c.read (c.write a) = .ok a

/-- Both forms of the text of a value are read as that value. In particular what a text holds is the
same once it is written and read again. -/
structure RoundTrips (c : Codec α) : Prop where
  compact (a : α) : c.parse (c.compact a) = .ok a
  pretty (a : α) : c.parse (c.pretty a) = .ok a
  again {text : String} {a : α} (accepted : c.parse text = .ok a) :
    c.parse (c.compact a) = c.parse text ∧ c.parse (c.pretty a) = c.parse text

variable {c : Codec α}

/-- Lists are read as they are written, if what is in them is. -/
theorem Faithful.list (h : c.Faithful) : c.list.Faithful where
  plain as := by
    show (Value.list (as.map c.write)).Plain
    simp [h.plain]
  read_write as := readItems_map h.read_write as

/-- A text that spells a value is parsed as that value is read. -/
theorem parse_of_spelled {v : Value} {text : String} (h : v.Spelled text) :
    c.parse text = c.read v := by
  rw [parse, h.ofText_eq]
  cases c.read v <;> rfl

/-- Both forms of the text of a value are read as that value. -/
theorem Faithful.parse_chars (h : c.Faithful) (a : α) (depth : Option Nat) :
    c.parse (String.ofList ((c.write a).chars depth)) = .ok a := by
  rw [parse_of_spelled ((h.plain a).spelled_chars depth), h.read_write]

/-- What is read as it is written comes back from its texts. -/
theorem Faithful.roundTrips (h : c.Faithful) : c.RoundTrips where
  compact a := h.parse_chars a none
  pretty a := h.parse_chars a (some 0)
  again {text a} accepted := by
    rw [accepted]
    exact ⟨h.parse_chars a none, h.parse_chars a (some 0)⟩

end Codec

end NandMachine.Json
