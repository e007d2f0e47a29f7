import NandMachine.Files
import NandMachine.Proofs.Json.Record

/-!
# Shapes of layouts

A layout may be written in many shapes: as an object with its keys in any order and with any of them
left out, or as an array of its first fields. A region may be written as an object or as an array of
two numbers. All shapes of the same layout mean the same. The keys of a layout are checked strictly,
since a key that was passed over would leave a default in its place; those of a region are not, but
both of its fields have to be there.

## Key results

- `parse_of_settings`: a layout from any of its settings, in any order
- `parse_array_eq_parse_record`: an array of the first fields
- `malformed_of_stray`: no other key and no repeated key passes
- `parse_of_padded`, `malformed_of_misshapen`: other keys in regions pass, missing ones do not
- `layout_shapes_agree`: all of this together
-/

namespace NandMachine

open Json

/-! ## Settings -/

/-- One field of a layout with its value. -/
inductive Setting
  | romBase (base : UInt16)
  | displayBase (base : UInt16)
  | ram (regions : List Region)
  | strict (b : Bool)

/-- The key of a setting. -/
def Setting.name : Setting → String
  | romBase _ => "rom_base"
  | displayBase _ => "debug_port"
  | ram _ => "ram"
  | strict _ => "strict_layout"

/-- The keys of a region in their order. -/
def Region.keys : List String := ["base", "length"]

/-- A value stands for a region: it is an array of base and length, or an object with both in either
order, with or without other keys. -/
inductive Region.Stands (r : Region) : Value → Prop
  | array : Stands r (.list [.nat r.base.toNat, .nat r.length.toNat])
  | object {members : Members}
    (padded : Members.Padded Region.keys
      (.ofList [("base", .nat r.base.toNat), ("length", .nat r.length.toNat)]) members) :
    Stands r (.object members)
  | swapped {members : Members}
    (padded : Members.Padded Region.keys
      (.ofList [("length", .nat r.length.toNat), ("base", .nat r.base.toNat)]) members) :
    Stands r (.object members)

/-- A value stands for that of a setting. -/
inductive Setting.Stands : Setting → Value → Prop
  | romBase (base : UInt16) : Stands (.romBase base) (.nat base.toNat)
  | displayBase (base : UInt16) : Stands (.displayBase base) (.nat base.toNat)
  | ram {regions : List Region} {vs : List Value} (all : List.Forall₂ Region.Stands regions vs) :
    Stands (.ram regions) (.list vs)
  | strict (b : Bool) : Stands (.strict b) (.bool b)

/-! ## Regions -/

namespace Region

/-- The value is the same but for other keys, should it be an object. -/
inductive Padded : Value → Value → Prop
  | same (v : Value) : Padded v v
  | object {members members' : Members}
    (padded : Members.Padded keys members members') :
    Padded (.object members) (.object members')

/-- An object without one of the fields of a region, or an array of another length. -/
inductive Misshapen : Value → Prop
  | object {members : Members} {name : String} (field : name ∈ keys)
    (missing : some name ∉ members.keys) : Misshapen (.object members)
  | array {items : Items} (length : items.toList.length ≠ 2) : Misshapen (.array items)

/-- The two fields of a region have names of their own and set nothing but themselves. -/
theorem lawful_schema : schema.Lawful where
  distinct := by decide
  isSet_set hf hg set := by
    simp only [schema, List.mem_cons, List.not_mem_nil, or_false] at hf hg
    rcases hf with rfl | rfl <;> rcases hg with rfl | rfl <;>
      obtain ⟨a, -, rfl⟩ := Schema.part_set_eq_ok_iff.mp set <;> simp [Field.part]

/-- Other keys make no difference to the members of a region. -/
theorem readMembers_of_padded {members members' : Members}
    (h : Members.Padded keys members members') :
    schema.readMembers (none, none) members' = schema.readMembers (none, none) members := by
  -- The names that are not passed over are those of the fields.
  have hnames : Members.Padded (schema.fields.map Field.name) members members' := h
  exact Schema.readMembers_of_padded rfl hnames

/-- What stands for a region is read as that region. -/
theorem Stands.read_eq {r : Region} {v : Value} (h : r.Stands v) : codec.read v = .ok r := by
  cases h with
  | array =>
    simp [codec, schema, Schema.read, Schema.readFields, Value.list, Items.ofList, Field.part,
      readWord_nat, readSize_nat, readEnd, bind, Except.bind, Except.map, pure, Except.pure]
  -- Other keys are taken out first; then there are two members, in either order.
  | object padded | swapped padded =>
    show (schema.readMembers (none, none) _).map _ = _
    rw [readMembers_of_padded padded]
    simp [schema, Schema.readMembers, Members.ofList, Field.part, readWord_nat, readSize_nat, bind,
      Except.bind, Except.map]

/-- Other keys make no difference to a region. -/
theorem Padded.read_eq {v v' : Value} (h : Padded v v') : codec.read v' = codec.read v := by
  cases h with
  | same => rfl
  | object padded =>
    show (schema.readMembers (none, none) _).map _ = (schema.readMembers (none, none) _).map _
    rw [readMembers_of_padded padded]

/-- A region without one of its fields, or of another length, is not read. -/
theorem Misshapen.not_read {v : Value} (h : Misshapen v) (r : Region) : codec.read v ≠ .ok r := by
  intro hread
  have hcodec : codec.read v = (schema.read (none, none) v).map _ := rfl
  cases hschema : schema.read (none, none) v with
  | error e =>
    rw [hcodec, hschema] at hread
    exact nomatch hread
  | ok s =>
    cases h with
    | @object members name field missing =>
      have hreads := Schema.reads_of_readMembers hschema
      -- Whichever field is missing, it has to be there and is not set at first.
      have hmem : ∃ g ∈ schema.fields, g.name = name ∧ g.isSet (none, none) = false := by
        simp only [keys, List.mem_cons, List.not_mem_nil, or_false] at field
        rcases field with rfl | rfl
        · exact ⟨_, List.mem_cons_self, rfl, rfl⟩
        · exact ⟨_, List.mem_cons_of_mem _ List.mem_cons_self, rfl, rfl⟩
      obtain ⟨g, hg, rfl, unset⟩ := hmem
      exact missing (hreads.mem_keys lawful_schema rfl hg unset)
    | array length => exact length (Schema.length_of_readFields rfl hschema)

end Region

namespace Layout

/-- The keys of a layout in their order. -/
def keys : List String := ["rom_base", "debug_port", "ram", "strict_layout"]

/-- The layout with another value for one of its fields. -/
def set (l : Layout) : Setting → Layout
  | .romBase base => { l with romBase := base }
  | .displayBase base => { l with displayBase := base }
  | .ram regions => { l with ram := regions }
  | .strict b => { l with strict := b }

/-- The default layout but for the fields that are given. -/
def ofSettings (es : List Setting) : Layout := es.foldl set {}

/-- The value at a key is the same but for other keys in regions. -/
inductive PaddedAt : Str → Value → Value → Prop
  | same (key : Str) (v : Value) : PaddedAt key v v
  | ram {items items' : Items} (alike : items.Alike Region.Padded items') :
    PaddedAt (some "ram") (.array items) (.array items')

/-- The value is the same but for other keys in regions. -/
inductive Padded : Value → Value → Prop
  | object {members members' : Members} (alike : members.Alike PaddedAt members') :
    Padded (.object members) (.object members')
  | array (romBase displayBase : Value) (rest : Items) {items items' : Items}
    (alike : items.Alike Region.Padded items') :
    Padded (.array (.cons romBase (.cons displayBase (.cons (.array items) rest))))
      (.array (.cons romBase (.cons displayBase (.cons (.array items') rest))))

/-- A value is among the regions of a layout. -/
inductive HasRegion (region : Value) : Value → Prop
  | object {members : Members} {items : Items} (ram : (some "ram", .array items) ∈ members.toList)
    (mem : region ∈ items.toList) : HasRegion region (.object members)
  | array {fields items : Items} (ram : fields.toList[2]? = some (.array items))
    (mem : region ∈ items.toList) : HasRegion region (.array fields)

/-! ## Drafts -/

/-- The draft with one more setting. -/
def Draft.set (s : Draft) : Setting → Draft
  | .romBase base => { s with romBase := some base }
  | .displayBase base => { s with displayBase := some base }
  | .ram regions => { s with ram := some regions }
  | .strict b => { s with strict := some b }

/-- A setting of the draft is one of the layout. -/
theorem ofDraft_set (s : Draft) (e : Setting) : ofDraft (s.set e) = (ofDraft s).set e := by
  cases e <;> rfl

/-- Settings of the draft are settings of the layout, one after the other. -/
theorem ofDraft_foldl_set (s : Draft) (es : List Setting) :
    ofDraft (es.foldl Draft.set s) = es.foldl Layout.set (ofDraft s) := by
  induction es generalizing s with
  | nil => rfl
  | cons e es ih => rw [List.foldl_cons, ih, ofDraft_set, List.foldl_cons]

/-- The four fields of a layout have names of their own and set nothing but themselves. -/
theorem lawful_schema : schema.Lawful where
  distinct := by decide
  isSet_set hf hg set := by
    simp only [schema, List.mem_cons, List.not_mem_nil, or_false] at hf hg
    rcases hf with rfl | rfl | rfl | rfl <;> rcases hg with rfl | rfl | rfl | rfl <;>
      obtain ⟨a, -, rfl⟩ := Schema.part_set_eq_ok_iff.mp set <;> simp [Field.part]

/-- The field of the regions. -/
def ramField : Json.Field Draft :=
  .part "ram" Draft.ram (fun s ram => { s with ram := some ram }) Region.codec.list.read

/-- The field of the regions is one of those of a layout. -/
theorem ramField_mem : ramField ∈ schema.fields :=
  List.mem_cons_of_mem _ (List.mem_cons_of_mem _ List.mem_cons_self)

/-- A setting is read by the field of its name. -/
theorem exists_field (e : Setting) : ∃ f ∈ schema.fields, f.name = e.name ∧
    ∀ s v, e.Stands v → f.set s v = .ok (s.set e) := by
  -- Setting by setting, with the field that stands at the same place in the schema.
  cases e with
  | romBase base =>
    refine ⟨_, List.mem_cons_self, rfl, ?_⟩
    rintro s _ ⟨⟩
    exact Schema.part_set_eq_ok_iff.mpr ⟨base, readWord_nat base, rfl⟩
  | displayBase base =>
    refine ⟨_, List.mem_cons_of_mem _ List.mem_cons_self, rfl, ?_⟩
    rintro s _ ⟨⟩
    exact Schema.part_set_eq_ok_iff.mpr ⟨base, readWord_nat base, rfl⟩
  | ram regions =>
    refine ⟨ramField, ramField_mem, rfl, ?_⟩
    intro s v hv
    cases hv with
    | ram all =>
      -- The regions are read one by one, each from a value that stands for it.
      have hread := readItems_of_forall₂ (fun r v (hv : Region.Stands r v) => hv.read_eq) all
      exact Schema.part_set_eq_ok_iff.mpr ⟨regions, hread, rfl⟩
  | strict b =>
    refine ⟨_, List.mem_cons_of_mem _ (List.mem_cons_of_mem _ (List.mem_cons_of_mem _
      List.mem_cons_self)), rfl, ?_⟩
    rintro s _ ⟨⟩
    exact Schema.part_set_eq_ok_iff.mpr ⟨b, rfl, rfl⟩

/-! ## Texts -/

/-- A text that spells a value is parsed as the layout that is read of it. -/
theorem parse_of_spelled {v : Value} {text : String} (h : v.Spelled text) :
    parse text = ((schema.read {} v).map ofDraft).mapError .malformed := by
  rw [parse, Codec.parse_of_spelled h]
  rfl

/-- A text is refused if what it spells is not read. -/
theorem malformed_of_not_read {v : Value} {text : String} (h : v.Spelled text)
    (no : ∀ d, schema.read {} v ≠ .ok d) : ∃ e, parse text = .error (.malformed e) := by
  rw [parse_of_spelled h]
  cases hread : schema.read {} v with
  | ok d => exact absurd hread (no d)
  | error e => exact ⟨e, rfl⟩

/-- Settings with different names are read in any order. -/
theorem reads_settings {es : List Setting} {vs : List Value} (names : (es.map Setting.name).Nodup)
    (all : List.Forall₂ Setting.Stands es vs) {s : Draft}
    (unset : ∀ f ∈ schema.fields, f.name ∈ es.map Setting.name → f.isSet s = false) :
    schema.Reads s (.ofList ((es.map Setting.name).zip vs)) (es.foldl Draft.set s) := by
  -- Setting by setting; those to come have names that are still free.
  induction all generalizing s with
  | nil => exact .closed (.inl rfl)
  | @cons e v es vs head tail ih =>
    obtain ⟨f, hf, hname, hset⟩ := exists_field e
    obtain ⟨hfresh, hnames⟩ := List.nodup_cons.mp names
    rw [List.map_cons, ← hname, List.zip_cons_cons, Members.ofList]
    refine .known hf (unset f hf (hname ▸ List.mem_cons_self)) (hset s v head) (ih hnames ?_)
    intro g hg hmem
    -- The name of the setting in front does not come again.
    have hne : ¬ g.name = f.name := fun heq => hfresh (hname ▸ heq ▸ hmem)
    have hold := unset g hg (List.mem_cons_of_mem _ hmem)
    rw [← Bool.not_eq_true, lawful_schema.isSet_set hf hg (hset s v head), hold]
    simp [hne]

/-- Any of the settings in any order give the layout with these settings. -/
theorem parse_of_settings {es : List Setting} {vs : List Value} {text : String}
    (names : (es.map Setting.name).Nodup) (all : List.Forall₂ Setting.Stands es vs)
    (h : (Value.record ((es.map Setting.name).zip vs)).Spelled text) :
    parse text = .ok (ofSettings es) := by
  have unset : ∀ f ∈ schema.fields, f.isSet ({} : Draft) = false := by decide
  -- What it takes to read the object is there, so it is read.
  have hreads := reads_settings names all fun f hf _ => unset f hf
  have hread := (Schema.readMembers_eq_ok_iff lawful_schema).mpr hreads
  rw [parse_of_spelled h, Value.record, Schema.read, hread]
  exact congrArg Except.ok (ofDraft_foldl_set {} es)

/-- An array of the first fields is read as the object with them. -/
theorem parse_array_eq_parse_record {vs : List Value} {text text' : String} (few : vs.length ≤ 4)
    (h : (Value.list vs).Spelled text) (h' : (Value.record (keys.zip vs)).Spelled text') :
    parse text = parse text' := by
  have unset : ∀ f ∈ schema.fields, f.isSet ({} : Draft) = false := by decide
  -- Every field may be left out, so an array may end anywhere.
  have hsame := Schema.readFields_eq_readMembers lawful_schema rfl (List.nil_append _).symm unset
    few 0
  rw [parse_of_spelled h, parse_of_spelled h', Value.list, Schema.read, hsame]
  rfl

/-- No other key and no repeated key passes. -/
theorem malformed_of_stray {members : Members} {text : String}
    (h : (Value.object members).Spelled text)
    (stray : (∃ key ∈ members.keys, key ∉ keys.map some) ∨ ¬ members.keys.Nodup) :
    ∃ e, parse text = .error (.malformed e) := by
  refine malformed_of_not_read h fun d hread => ?_
  -- Had it been read, its keys would be names of fields, and each would come once.
  have hreads := Schema.reads_of_readMembers hread
  rcases stray with ⟨key, hkey, hstray⟩ | hrepeated
  · exact hstray (hreads.mem_names rfl hkey)
  · exact hrepeated (hreads.nodup_keys lawful_schema rfl)

/-- Other keys in regions make no difference to the field of the regions. -/
theorem ramField_set_of_alike {items items' : Items} (alike : items.Alike Region.Padded items')
    (s : Draft) : ramField.set s (.array items') = ramField.set s (.array items) :=
  Schema.part_set_congr (readItems_of_alike (fun _ _ h => h.read_eq) alike)

/-- Other keys in regions make no difference. -/
theorem parse_of_padded {v v' : Value} {text text' : String} (padded : Padded v v')
    (h : v.Spelled text) (h' : v'.Spelled text') : parse text' = parse text := by
  have hread : schema.read {} v' = schema.read {} v := by
    -- As an object, only the value at the key of the regions can differ; as an array, only the
    -- third item.
    cases padded with
    | object alike =>
      refine Schema.readMembers_of_alike rfl (fun f hf v v' hv s => ?_) alike
      generalize hkey : some f.name = key at hv
      cases hv with
      | same => rfl
      | ram alike =>
        obtain rfl : f = ramField :=
          lawful_schema.eq_of_name hf ramField_mem (Option.some.inj hkey)
        exact ramField_set_of_alike alike s
    | array romBase displayBase rest alike =>
      refine Schema.readFields_cons_congr rfl fun s => ?_
      refine Schema.readFields_cons_congr rfl fun s => ?_
      exact Schema.readFields_cons_congr (ramField_set_of_alike alike s) fun s => rfl
  rw [parse_of_spelled h, parse_of_spelled h', hread]

/-- No region passes that is without one of its fields, or an array of another length. -/
theorem malformed_of_misshapen {v region : Value} {text : String} (h : v.Spelled text)
    (has : HasRegion region v) (misshapen : Region.Misshapen region) :
    ∃ e, parse text = .error (.malformed e) := by
  refine malformed_of_not_read h fun d hread => ?_
  -- Had the layout been read, so would the array of its regions.
  have hram : ∃ items s t, region ∈ items.toList ∧ ramField.set s (.array items) = .ok t := by
    cases has with
    | object ram mem =>
      have hreads := Schema.reads_of_readMembers hread
      obtain ⟨s, t, hset⟩ := hreads.exists_set lawful_schema ramField_mem ram
      exact ⟨_, s, t, mem, hset⟩
    | array ram mem =>
      obtain ⟨s, t, hset⟩ := Schema.exists_set_of_readFields hread rfl ram
      exact ⟨_, s, t, mem, hset⟩
  obtain ⟨items, s, t, mem, hset⟩ := hram
  obtain ⟨regions, hitems, -⟩ := Schema.part_set_eq_ok_iff.mp hset
  obtain ⟨r, hr⟩ := exists_read_of_readItems hitems mem
  exact misshapen.not_read r hr

/-- A layout means the same in every shape, and what is misspelled in it never passes. Any of the
settings, as an object in any order, give the layout with these settings and with the defaults for
the others; an array of no more than four values is the object with these values for the first keys.
An object with another key, or with a repeated one, is refused. Within regions other keys make no
difference, wherever they are and whatever their values; a region without its base or its length is
refused, and so is one that is an array of any length but two. -/
theorem layout_shapes_agree :
    (∀ es vs text, (es.map Setting.name).Nodup → List.Forall₂ Setting.Stands es vs →
      (Value.record ((es.map Setting.name).zip vs)).Spelled text →
        parse text = .ok (ofSettings es)) ∧
    (∀ vs text text', vs.length ≤ 4 → (Value.list vs).Spelled text →
      (Value.record (keys.zip vs)).Spelled text' → parse text = parse text') ∧
    (∀ members text, (Value.object members).Spelled text →
      ((∃ key ∈ members.keys, key ∉ keys.map some) ∨ ¬ members.keys.Nodup) →
        ∃ e, parse text = .error (.malformed e)) ∧
    (∀ v v' text text', Padded v v' → v.Spelled text → v'.Spelled text' →
      parse text' = parse text) ∧
    ∀ v text region, v.Spelled text → HasRegion region v → Region.Misshapen region →
      ∃ e, parse text = .error (.malformed e) :=
  ⟨fun _ _ _ => parse_of_settings, fun _ _ _ => parse_array_eq_parse_record,
    fun _ _ => malformed_of_stray, fun _ _ _ _ => parse_of_padded,
    fun _ _ _ => malformed_of_misshapen⟩

/-- Three settings in another order than that of the fields, the first two fields as an array, a
misspelled key, and regions with one key too many and one too few. -/
theorem layout_shapes_agree_of_compact :
    let region := Value.record [("length", .nat 4), ("base", .nat 0x200)]
    let noted := Value.record [("length", .nat 4), ("note", .list [.null, .record []]),
      ("base", .nat 0x200)]
    let layout (region : Value) :=
      Value.record [("strict_layout", .bool true), ("ram", .list [region]), ("rom_base", .nat 16)]
    parse (layout region).compact = .ok { romBase := 16, ram := [⟨0x200, 4⟩], strict := true } ∧
    parse (layout noted).compact = parse (layout region).compact ∧
    (∃ e, parse (layout (.record [("base", .nat 0x200)])).compact = .error (.malformed e)) ∧
    parse (Value.list [.nat 16, .nat 32]).compact = .ok { romBase := 16, displayBase := 32 } ∧
    ∃ e, parse (Value.record [("rom_bass", .nat 16)]).compact = .error (.malformed e) := by
  intro region noted layout
  obtain ⟨hsettings, harray, hstray, hpadded, hmisshapen⟩ := layout_shapes_agree
  have hplain : ∀ region : Value, region.Plain → (layout region).Plain := by
    intro region h
    simp [layout, h]
  have hregion : region.Plain := by simp [region]
  have hnoted : noted.Plain := by simp [noted, Value.Plain]
  have hlacking : (Value.record [("base", .nat 0x200)]).Plain := by simp
  refine ⟨?_, ?_, ?_, ?_, ?_⟩
  · -- The members come in another order than the fields, and so do those of the region.
    have hall : List.Forall₂ Setting.Stands [.strict true, .ram [⟨0x200, 4⟩], .romBase 16]
        [.bool true, .list [region], .nat 16] := by
      refine .cons (.strict true) (.cons (.ram (.cons ?_ .nil)) (.cons (.romBase 16) .nil))
      exact .swapped (.keep _ _ (.keep _ _ .closed))
    exact hsettings _ _ _ (by decide) hall ((hplain region hregion).spelled_chars none)
  · refine hpadded _ _ _ _ (.object ?_) ((hplain region hregion).spelled_chars none)
      ((hplain noted hnoted).spelled_chars none)
    -- The note is a key more, which a region passes over.
    have hpad : Region.Padded region noted :=
      .object (.keep _ _ (.extra (by decide) rfl (.keep _ _ .closed)))
    exact .cons (.same _ _) (.cons (.ram (.cons hpad .closed)) (.cons (.same _ _) .closed))
  · -- The region has no length.
    refine hmisshapen _ _ _ ((hplain _ hlacking).spelled_chars none)
      (.object (List.mem_cons_of_mem _ List.mem_cons_self) List.mem_cons_self) ?_
    exact .object (List.mem_cons_of_mem _ List.mem_cons_self) (by decide)
  · -- An array may stop behind the bases; the rest is set by default.
    have hbases : List.Forall₂ Setting.Stands [.romBase 16, .displayBase 32] [.nat 16, .nat 32] :=
      .cons (.romBase 16) (.cons (.displayBase 32) .nil)
    have hlist : (Value.list [.nat 16, .nat 32]).Plain := by simp
    have hrecord : (Value.record (keys.zip [.nat 16, .nat 32])).Plain := by simp [keys]
    have hsame := harray _ _ _ (by decide) (hlist.spelled_chars none) (hrecord.spelled_chars none)
    exact hsame.trans (hsettings _ _ _ (by decide) hbases (hrecord.spelled_chars none))
  · -- A layout has no field of this name.
    have hmisspelled : (Value.record [("rom_bass", .nat 16)]).Plain := by simp
    exact hstray _ _ (hmisspelled.spelled_chars none)
      (.inl ⟨_, List.mem_cons_self, by decide⟩)

end Layout

end NandMachine
