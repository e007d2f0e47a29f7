import Mathlib.Data.List.Nodup
import NandMachine.Proofs.Json.Codec

/-!
# Records in all their shapes

A record may be written as an object with its keys in any order, with keys of its own or without,
or as an array of its fields. `Schema.Reads` says what it takes to read an object: every key names a
field that has not been set, or is passed over, and at the end no field is missing. What follows for
the keys of an object that is read holds for all fields that do no more than note that they are set,
`Schema.Lawful`.

## Key results

- `readMembers_eq_ok_iff`: an object is read as `Reads` says
- `Reads.nodup_keys`, `Reads.mem_names`: where other keys are refused, an object that is read has
  each key once, and only names of fields
- `Reads.mem_keys`: no field is missing that has to be there
- `readMembers_of_padded`: where other keys are passed over, they make no difference
- `readMembers_of_alike`: values that are read in the same way make no difference
- `readFields_eq_readMembers`: an array of the first fields is read as the object with them
-/

namespace NandMachine.Json

/-- The items in front of the end, or of the place where the text goes wrong. -/
def Items.toList : Items → List Value
  | .closed | .cut => []
  | .cons item rest => item :: rest.toList

/-- The members in front of the end, or of the place where the text goes wrong. -/
def Members.toList : Members → List (Str × Value)
  | .closed | .cut => []
  | .cons key value rest => (key, value) :: rest.toList

/-- The keys of the members in their order. -/
def Members.keys (members : Members) : List Str := members.toList.map Prod.fst

/-- Items that go together one by one. -/
inductive Items.Alike (related : Value → Value → Prop) : Items → Items → Prop
  | closed : Alike related .closed .closed
  | cons {item item' : Value} {rest rest' : Items} (head : related item item')
    (tail : Alike related rest rest') : Alike related (.cons item rest) (.cons item' rest')

/-- Members with the same keys whose values go together one by one. -/
inductive Members.Alike (related : Str → Value → Value → Prop) : Members → Members → Prop
  | closed : Alike related .closed .closed
  | cons {key : Str} {value value' : Value} {rest rest' : Members} (head : related key value value')
    (tail : Alike related rest rest') :
    Alike related (.cons key value rest) (.cons key value' rest')

/-- The members are the same but for others in between, with values of any kind, and with keys that
are not among the names. -/
inductive Members.Padded (names : List String) : Members → Members → Prop
  | closed : Padded names .closed .closed
  | keep (key : Str) (value : Value) {rest rest' : Members} (h : Padded names rest rest') :
    Padded names (.cons key value rest) (.cons key value rest')
  | extra {key : String} {value : Value} {rest rest' : Members} (stray : key ∉ names)
    (whole : value.whole = true) (h : Padded names rest rest') :
    Padded names rest (.cons (some key) value rest')

/-! ## Items -/

variable {α : Type} {read : Reader α}

/-- Every item of an array that is read has been read. -/
theorem exists_read_of_readItems {items : Items} {as : List α}
    (h : readItems read items = .ok as) {item : Value} (hitem : item ∈ items.toList) :
    ∃ a, read item = .ok a := by
  -- Along the items: the first one has been read, or the item is among the others.
  match items with
  | .closed | .cut => cases hitem
  | .cons first rest =>
    rw [readItems] at h
    cases hfirst : read first with
    | error e => simp [hfirst, bind, Except.bind] at h
    | ok a =>
      cases hrest : readItems read rest with
      | error e => simp [hfirst, hrest, bind, Except.bind] at h
      | ok bs =>
        rcases List.mem_cons.mp hitem with rfl | hitem
        · exact ⟨a, hfirst⟩
        · exact exists_read_of_readItems hrest hitem

/-- Items that are read one by one are read as an array. -/
theorem readItems_of_forall₂ {related : α → Value → Prop}
    (h : ∀ a v, related a v → read v = .ok a) {as : List α} {vs : List Value}
    (all : List.Forall₂ related as vs) : readItems read (.ofList vs) = .ok as := by
  induction all with
  | nil => rfl
  | cons head tail ih =>
    simp [Items.ofList, readItems, h _ _ head, ih, bind, Except.bind, pure, Except.pure]

/-- Items that are read in the same way make no difference. -/
theorem readItems_of_alike {related : Value → Value → Prop}
    (h : ∀ v v', related v v' → read v' = read v) {items items' : Items}
    (alike : items.Alike related items') : readItems read items' = readItems read items := by
  induction alike with
  | closed => rfl
  | cons head tail ih => rw [readItems, readItems, h _ _ head, ih]

namespace Schema

variable {σ : Type} {schema : Schema σ} {s t : σ} {members : Members}

/-- The fields have names of their own, and what is set stays set: a field that is filled in is set,
and no other one becomes so. -/
structure Lawful (schema : Schema σ) : Prop where
  distinct : (schema.fields.map Field.name).Nodup
  isSet_set {f g : Field σ} {s t : σ} {v : Value} (hf : f ∈ schema.fields) (hg : g ∈ schema.fields)
    (set : f.set s v = .ok t) : g.isSet t = true ↔ g.isSet s = true ∨ g.name = f.name

/-- What it takes to read the members of an object. -/
inductive Reads (schema : Schema σ) : σ → Members → σ → Prop
  | closed {s : σ} (complete : schema.optional = true ∨ ∀ f ∈ schema.fields, f.isSet s = true) :
    Reads schema s .closed s
  | known {s t u : σ} {f : Field σ} {value : Value} {rest : Members} (field : f ∈ schema.fields)
    (unset : f.isSet s = false) (set : f.set s value = .ok t) (others : Reads schema t rest u) :
    Reads schema s (.cons (some f.name) value rest) u
  | unknown {s t : σ} {key : String} {value : Value} {rest : Members}
    (stray : key ∉ schema.fields.map Field.name) (opened : schema.closedKeys = false)
    (whole : value.whole = true) (others : Reads schema s rest t) :
    Reads schema s (.cons (some key) value rest) t

/-- A part is set by a value exactly if the value is read, and then to what is read. -/
theorem part_set_eq_ok_iff {α : Type} {name : String} {get : σ → Option α} {put : σ → α → σ}
    {read : Reader α} {v : Value} :
    (Field.part name get put read).set s v = .ok t ↔ ∃ a, read v = .ok a ∧ put s a = t := by
  show (read v).map (put s) = .ok t ↔ _
  cases read v <;> simp [Except.map]

/-- A part is set in the same way by values that are read in the same way. -/
theorem part_set_congr {α : Type} {name : String} {get : σ → Option α} {put : σ → α → σ}
    {read : Reader α} {v v' : Value} (h : read v' = read v) :
    (Field.part name get put read).set s v' = (Field.part name get put read).set s v :=
  congrArg (Except.map (put s)) h

/-! ## What is read -/

/-- Fields are known by their names. -/
theorem Lawful.eq_of_name (lawful : schema.Lawful) {f g : Field σ} (hf : f ∈ schema.fields)
    (hg : g ∈ schema.fields) (h : f.name = g.name) : f = g :=
  List.inj_on_of_nodup_map lawful.distinct hf hg h

/-- The name of a field finds that field. -/
theorem Lawful.find?_eq (lawful : schema.Lawful) {f : Field σ} (hf : f ∈ schema.fields) :
    schema.fields.find? (fun g => g.name == f.name) = some f := by
  obtain ⟨front, behind, hsplit⟩ := List.append_of_mem hf
  have hdistinct := lawful.distinct
  rw [hsplit] at hdistinct ⊢
  exact find?_name hdistinct

/-- No field is found exactly if the key is none of the names. -/
theorem find?_eq_none_iff {key : String} :
    schema.fields.find? (fun g => g.name == key) = none ↔ key ∉ schema.fields.map Field.name := by
  simp [List.find?_eq_none]

/-- A key that is none of the names is not the name of a field. -/
theorem ne_of_stray {key : String} (stray : key ∉ schema.fields.map Field.name) {g : Field σ}
    (hg : g ∈ schema.fields) : some g.name ≠ some key :=
  fun h => stray (Option.some.inj h ▸ List.mem_map_of_mem hg)

/-- The end of an object is accepted exactly if no field is missing that has to be there. -/
theorem readMembers_closed_eq_ok_iff : schema.readMembers s .closed = .ok t ↔
    (schema.optional = true ∨ ∀ f ∈ schema.fields, f.isSet s = true) ∧ s = t := by
  have hmissing : schema.fields.find? (fun f => !schema.optional && !f.isSet s) = none ↔
      schema.optional = true ∨ ∀ f ∈ schema.fields, f.isSet s = true := by
    cases schema.optional <;> simp [List.find?_eq_none]
  rw [← hmissing, readMembers]
  split
  · next hf => simp [hf]
  · next hnone => simp [hnone]

/-- What is read of an object, field by field. -/
theorem reads_of_readMembers {members : Members} {s : σ}
    (h : schema.readMembers s members = .ok t) : schema.Reads s members t := by
  -- Along the members, as they are read. Each case that fails contradicts the hypothesis.
  match members with
  | .closed =>
    obtain ⟨complete, rfl⟩ := readMembers_closed_eq_ok_iff.mp h
    exact .closed complete
  | .cut => exact nomatch h
  | .cons none _ _ => exact nomatch h
  | .cons (some key) value rest =>
    rw [readMembers] at h
    cases hfind : schema.fields.find? fun f => f.name == key with
    | some f =>
      simp only [hfind] at h
      obtain rfl : f.name = key := by simpa using List.find?_some hfind
      cases hunset : f.isSet s with
      | true => simp [hunset] at h
      | false =>
        cases hset : f.set s value with
        | error e => simp [hunset, hset, bind, Except.bind] at h
        | ok u =>
          simp only [hunset, hset, bind, Except.bind] at h
          exact .known (List.mem_of_find?_eq_some hfind) hunset hset (reads_of_readMembers h)
    | none =>
      simp only [hfind] at h
      -- The key is none of the names, so it has to be one that may be passed over.
      cases hclosed : schema.closedKeys with
      | true => simp [hclosed] at h
      | false =>
        cases hwhole : value.whole with
        | false => simp [hclosed, readWhole, hwhole, bind, Except.bind] at h
        | true =>
          simp only [hclosed, readWhole, hwhole, bind, Except.bind] at h
          exact .unknown (find?_eq_none_iff.mp hfind) hclosed hwhole (reads_of_readMembers h)

/-- An object is read exactly if each of its keys names a field that has not been set, or is passed
over, and no field is missing at the end. -/
theorem readMembers_eq_ok_iff (lawful : schema.Lawful) :
    schema.readMembers s members = .ok t ↔ schema.Reads s members t := by
  refine ⟨reads_of_readMembers, fun h => ?_⟩
  -- The other direction goes by what it takes to read the members.
  induction h with
  | closed complete => exact readMembers_closed_eq_ok_iff.mpr ⟨complete, rfl⟩
  | known field unset set others ih =>
    simp [readMembers, lawful.find?_eq field, unset, set, bind, Except.bind, ih]
  | unknown stray opened whole others ih =>
    simp [readMembers, find?_eq_none_iff.mpr stray, opened, readWhole, whole, bind, Except.bind,
      ih]

/-! ## The keys of an object that is read -/

/-- Where other keys are refused there are only names of fields. -/
theorem Reads.mem_names (h : schema.Reads s members t) (closed : schema.closedKeys = true)
    {key : Str} (hkey : key ∈ members.keys) : key ∈ schema.fields.map fun f => some f.name := by
  induction h with
  | closed => cases hkey
  | known field unset set others ih =>
    rcases List.mem_cons.mp hkey with rfl | hkey
    · exact List.mem_map_of_mem field
    · exact ih hkey
  | unknown stray opened => exact absurd (closed.symm.trans opened) (by decide)

/-- A field is set at the end if it was before or if its name is among the keys. -/
theorem Reads.isSet_iff (h : schema.Reads s members t) (lawful : schema.Lawful) {g : Field σ}
    (hg : g ∈ schema.fields) :
    g.isSet t = true ↔ g.isSet s = true ∨ some g.name ∈ members.keys := by
  -- One key sets one field, and a key that is passed over sets none.
  induction h with
  | closed => simp [Members.keys, Members.toList]
  | known field unset set others ih =>
    rw [ih, lawful.isSet_set field hg set]
    simp [Members.keys, Members.toList, or_assoc]
  | unknown stray opened whole others ih =>
    have hne := ne_of_stray stray hg
    rw [ih]
    simp only [Members.keys, Members.toList, List.map_cons, List.mem_cons, hne, false_or]

/-- The name of a field that is set is not among the keys. -/
theorem Reads.not_mem_keys (h : schema.Reads s members t) (lawful : schema.Lawful) {g : Field σ}
    (hg : g ∈ schema.fields) (set : g.isSet s = true) : some g.name ∉ members.keys := by
  induction h with
  | closed => exact List.not_mem_nil
  | @known s t u f value rest field unset hset others ih =>
    -- The next key names a field that has not been set, so it is another one.
    have hne : some g.name ≠ some f.name := by
      intro heq
      rw [lawful.eq_of_name hg field (Option.some.inj heq), unset] at set
      cases set
    -- What is set stays set, so the name does not come later either.
    have hrest := ih ((lawful.isSet_set field hg hset).mpr (.inl set))
    exact List.not_mem_cons_of_ne_of_not_mem hne hrest
  | unknown stray opened whole others ih =>
    exact List.not_mem_cons_of_ne_of_not_mem (ne_of_stray stray hg) (ih set)

/-- Where other keys are refused no key is repeated. -/
theorem Reads.nodup_keys (h : schema.Reads s members t) (lawful : schema.Lawful)
    (closed : schema.closedKeys = true) : members.keys.Nodup := by
  induction h with
  | closed => exact List.nodup_nil
  | known field unset set others ih =>
    -- The field has been set by now, so its name does not come again.
    have hset := (lawful.isSet_set field field set).mpr (.inr rfl)
    exact List.nodup_cons.mpr ⟨others.not_mem_keys lawful field hset, ih⟩
  | unknown stray opened => exact absurd (closed.symm.trans opened) (by decide)

/-- A field that has to be there is among the keys. -/
theorem Reads.mem_keys (h : schema.Reads s members t) (lawful : schema.Lawful)
    (required : schema.optional = false) {g : Field σ} (hg : g ∈ schema.fields)
    (unset : g.isSet s = false) : some g.name ∈ members.keys := by
  -- Nothing is missing at the end, so the field has been set by then.
  have hset : g.isSet t = true := by
    -- The induction changes what is set, and only the end matters here.
    clear unset
    induction h with
    | closed complete =>
      rcases complete with hoptional | hall
      · exact absurd (required.symm.trans hoptional) (by decide)
      · exact hall g hg
    | known field unset set others ih => exact ih
    | unknown stray opened whole others ih => exact ih
  rcases (h.isSet_iff lawful hg).mp hset with hs | hmem
  · exact absurd (unset.symm.trans hs) (by decide)
  · exact hmem

/-- The value at the name of a field has been read by that field. -/
theorem Reads.exists_set (h : schema.Reads s members t) (lawful : schema.Lawful) {g : Field σ}
    (hg : g ∈ schema.fields) {value : Value} (hmem : (some g.name, value) ∈ members.toList) :
    ∃ s' t', g.set s' value = .ok t' := by
  induction h with
  | closed => cases hmem
  | known field unset set others ih =>
    rcases List.mem_cons.mp hmem with heq | hmem
    · obtain ⟨hname, rfl⟩ := Prod.mk.inj heq
      obtain rfl := lawful.eq_of_name hg field (Option.some.inj hname)
      exact ⟨_, _, set⟩
    · exact ih hmem
  | unknown stray opened whole others ih =>
    rcases List.mem_cons.mp hmem with heq | hmem
    · exact absurd (Prod.mk.inj heq).1 (ne_of_stray stray hg)
    · exact ih hmem

/-! ## Other keys -/

/-- Where other keys are passed over they make no difference, not even to what is wrong with an
object. -/
theorem readMembers_of_padded (opened : schema.closedKeys = false) {members' : Members}
    (h : Members.Padded (schema.fields.map Field.name) members members') :
    schema.readMembers s members' = schema.readMembers s members := by
  -- Both objects are read side by side; an extra member leaves the record as it is.
  induction h generalizing s with
  | closed => rfl
  | keep key value h ih =>
    cases key with
    | none => rfl
    | some key =>
      rw [readMembers, readMembers]
      cases schema.fields.find? fun f => f.name == key with
      | some f => simp only [ih]
      | none => simp only [ih]
  | extra stray whole h ih =>
    rw [readMembers, find?_eq_none_iff.mpr stray]
    simp [opened, readWhole, whole, bind, Except.bind, ih]

/-- Where other keys are refused, values that the fields read in the same way make no difference. -/
theorem readMembers_of_alike (closed : schema.closedKeys = true)
    {related : Str → Value → Value → Prop}
    (h : ∀ f ∈ schema.fields, ∀ v v', related (some f.name) v v' → ∀ s, f.set s v' = f.set s v)
    {members' : Members} (alike : members.Alike related members') :
    schema.readMembers s members' = schema.readMembers s members := by
  -- Both objects are read side by side, with the same keys.
  induction alike generalizing s with
  | closed => rfl
  | @cons key value value' rest rest' head tail ih =>
    cases key with
    | none => rfl
    | some key =>
      rw [readMembers, readMembers]
      cases hfind : schema.fields.find? fun f => f.name == key with
      | some f =>
        obtain rfl : f.name = key := by simpa using List.find?_some hfind
        simp only [h f (List.mem_of_find?_eq_some hfind) _ _ head, ih]
      | none => simp only [closed, if_true]

/-! ## Arrays -/

/-- Where no field may be left out, an array that is read has one item for each field. -/
theorem length_of_readFields (required : schema.optional = false) {fs : List (Field σ)}
    {items : Items} {count : Nat} (h : schema.readFields count s fs items = .ok t) :
    items.toList.length = fs.length := by
  -- Fields and items run out together; an array that ends early lacks a field.
  induction fs generalizing s items count with
  | nil =>
    cases items with
    | closed => rfl
    | cut | cons => exact nomatch h
  | cons f fs ih =>
    cases items with
    | closed =>
      rw [readFields, required] at h
      exact nomatch h
    | cut => exact nomatch h
    | cons item rest =>
      rw [readFields] at h
      cases hset : f.set s item with
      | error e => simp [hset, bind, Except.bind] at h
      | ok u =>
        simp only [hset, bind, Except.bind] at h
        rw [Items.toList, List.length_cons, List.length_cons, ih h]

/-- The item at the place of a field has been read by that field. -/
theorem exists_set_of_readFields {fs : List (Field σ)} {items : Items} {count k : Nat}
    (h : schema.readFields count s fs items = .ok t) {f : Field σ} {v : Value}
    (hf : fs[k]? = some f) (hv : items.toList[k]? = some v) : ∃ s' t', f.set s' v = .ok t' := by
  -- The place counts down along fields and items at the same time.
  induction fs generalizing s items count k with
  | nil => exact nomatch hf
  | cons g fs ih =>
    cases items with
    | closed | cut => exact nomatch hv
    | cons item rest =>
      rw [readFields] at h
      cases hset : g.set s item with
      | error e => simp [hset, bind, Except.bind] at h
      | ok u =>
        simp only [hset, bind, Except.bind] at h
        cases k with
        | zero =>
          obtain rfl := Option.some.inj hf
          obtain rfl := Option.some.inj hv
          exact ⟨s, u, hset⟩
        | succ k => exact ih h hf hv

/-- Arrays are read in the same way if their first items are, and the others behind them. -/
theorem readFields_cons_congr {f : Field σ} {fs : List (Field σ)} {item item' : Value}
    {rest rest' : Items} {count : Nat} (hitem : f.set s item' = f.set s item)
    (hrest : ∀ t, schema.readFields (count + 1) t fs rest' =
      schema.readFields (count + 1) t fs rest) :
    schema.readFields count s (f :: fs) (.cons item' rest') =
      schema.readFields count s (f :: fs) (.cons item rest) := by
  simp only [readFields, hitem, hrest]

/-- An array of the first fields is read as the object with them, should all fields be ones that may
be left out. -/
theorem readFields_eq_readMembers (lawful : schema.Lawful) (optional : schema.optional = true)
    {front fs : List (Field σ)} (hfields : schema.fields = front ++ fs)
    (unset : ∀ f ∈ fs, f.isSet s = false) {vs : List Value} (hlen : vs.length ≤ fs.length)
    (count : Nat) :
    schema.readFields count s fs (.ofList vs) =
      schema.readMembers s (.ofList ((fs.map Field.name).zip vs)) := by
  -- No field has to be there, so the end is accepted everywhere.
  have hend : ∀ s, schema.readMembers s .closed = .ok s := fun s =>
    readMembers_closed_eq_ok_iff.mpr ⟨.inl optional, rfl⟩
  -- The fields of the items in front are set, and those that follow are not.
  induction vs generalizing s front fs count with
  | nil =>
    cases fs with
    | nil => exact (hend s).symm
    | cons f fs =>
      rw [Items.ofList, readFields, if_pos optional]
      exact (hend s).symm
  | cons v vs ih =>
    cases fs with
    | nil => simp at hlen
    | cons f fs =>
      have hf : f ∈ schema.fields := by simp [hfields]
      obtain ⟨hunset, hothers⟩ := List.forall_mem_cons.mp unset
      rw [List.map_cons, List.zip_cons_cons, Items.ofList, Members.ofList, readFields, readMembers,
        lawful.find?_eq hf]
      simp only [hunset, Bool.false_eq_true, if_false]
      cases hset : f.set s v with
      | error e => rfl
      | ok t =>
        have hfields' : schema.fields = (front ++ [f]) ++ fs := by simp [hfields]
        refine ih hfields' (fun g hg => ?_) (Nat.le_of_succ_le_succ hlen) (count + 1)
        -- The field that has been set is none of those that follow.
        have hg' : g ∈ schema.fields := by simp [hfields, hg]
        have hne : ¬ g.name = f.name := by
          have hdistinct := lawful.distinct
          rw [hfields, List.map_append, List.map_cons, List.nodup_append, List.nodup_cons]
            at hdistinct
          exact fun heq => hdistinct.2.1.1 (heq ▸ List.mem_map_of_mem hg)
        rw [← Bool.not_eq_true, lawful.isSet_set hf hg' hset, hothers g hg]
        simp [hne]

end Schema

end NandMachine.Json
