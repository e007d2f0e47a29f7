import Mathlib.Data.List.Forall2
import NandMachine.Json.Read

/-!
# Readers that mirror each other

A type can have two readers that fill in different things from the same texts, and one of them may
be a function of the other. That goes by the parts: if every field of a record fills in what goes
with the field of the same name in another record, then the records go together, in all their shapes
and with all that can be wrong with them. The same holds for the alternatives of a choice.

## Key results

- `Schema.Mirrors.read`: a record is read like the one that it mirrors
- `readChoice_of_mirrors`: so is a choice
-/

namespace NandMachine.Json

variable {α β σ τ : Type} {f : σ → τ} {g : α → β}

/-! ## Arrays of three -/

/-- The next item is read like the one that it mirrors. -/
theorem readItem_map {read : Reader α} {read' : Reader β} (h : ∀ v, read' v = (read v).map g)
    (missing : ReadError) (items : Items) :
    readItem missing read' items =
      (readItem missing read items).map fun (a, rest) => (g a, rest) := by
  cases items with
  | closed | cut => rfl
  | cons item rest =>
    rw [readItem, readItem, h]
    cases read item <;> rfl

/-- An array of three is read like another one whose items it mirrors. -/
theorem readThree_map {read : Reader α} {read' : Reader β} (h : ∀ v, read' v = (read v).map g)
    (v : Value) :
    readThree read' v = (readThree read v).map fun (a, b, c) => (g a, g b, g c) := by
  cases v with
  | array items =>
    simp only [readThree, readItem_map h]
    -- The items are read one after the other, and the first error decides.
    rcases readItem (.invalidLength 0 (.array 3)) read items with e | ⟨a, items⟩
    · rfl
    simp only [Except.map, bind, Except.bind]
    rcases readItem (.invalidLength 1 (.array 3)) read items with e | ⟨b, items⟩
    · rfl
    simp only
    rcases readItem (.invalidLength 2 (.array 3)) read items with e | ⟨c, items⟩
    · rfl
    simp only
    cases readEnd items <;> rfl
  | broken | null | bool | number | string | object => rfl

/-! ## Records -/

/-- A field fills in what goes with what another field of the same name fills in. -/
structure Field.Mirrors (f : σ → τ) (F : Field σ) (G : Field τ) : Prop where
  name : G.name = F.name
  isSet : ∀ s, G.isSet (f s) = F.isSet s
  set : ∀ s v, G.set (f s) v = (F.set s v).map f

/-- Parts go together if what they get, put and read does. -/
theorem Field.Mirrors.part {name : String} {get : σ → Option α} {put : σ → α → σ}
    {read : Reader α} {get' : τ → Option β} {put' : τ → β → τ} {read' : Reader β}
    (hget : ∀ s, (get' (f s)).isSome = (get s).isSome)
    (hput : ∀ s a, put' (f s) (g a) = f (put s a)) (hread : ∀ v, read' v = (read v).map g) :
    (Field.part name get put read).Mirrors f (Field.part name get' put' read') where
  name := rfl
  isSet := hget
  set s v := by
    simp only [Field.part, hread]
    cases read v with
    | error e => rfl
    | ok a => exact congrArg Except.ok (hput s a)

namespace Schema

/-- A record that is described like another one, with fields that mirror those of the other one. -/
structure Mirrors (f : σ → τ) (S : Schema σ) (T : Schema τ) : Prop where
  expected : T.expected = S.expected
  closedKeys : T.closedKeys = S.closedKeys
  optional : T.optional = S.optional
  fields : List.Forall₂ (Field.Mirrors f) S.fields T.fields

variable {S : Schema σ} {T : Schema τ}

/-- What is looked for among fields is found at the same place among those that mirror them. -/
theorem find?_of_mirrors {Fs : List (Field σ)} {Gs : List (Field τ)}
    (h : List.Forall₂ (Field.Mirrors f) Fs Gs) {p : Field σ → Bool} {q : Field τ → Bool}
    (same : ∀ (F : Field σ) (G : Field τ), F.Mirrors f G → q G = p F) :
    Fs.find? p = none ∧ Gs.find? q = none ∨
      ∃ F G, Fs.find? p = some F ∧ Gs.find? q = some G ∧ F.Mirrors f G := by
  -- The search goes along both lists at once.
  induction h with
  | nil => exact .inl ⟨rfl, rfl⟩
  | @cons F G Fs Gs head tail ih =>
    rw [List.find?_cons, List.find?_cons, same F G head]
    cases p F with
    | true => exact .inr ⟨F, G, rfl, rfl, head⟩
    | false => exact ih

/-- Records that go together have fields of the same names. -/
theorem Mirrors.map_name (h : S.Mirrors f T) :
    T.fields.map Field.name = S.fields.map Field.name := by
  generalize S.fields = Fs, T.fields = Gs, h.fields = fields
  induction fields with
  | nil => rfl
  | cons head tail ih => rw [List.map_cons, List.map_cons, head.name, ih]

/-- The members of an object are read like those that they mirror. -/
theorem Mirrors.readMembers (h : S.Mirrors f T) (s : σ) (members : Members) :
    T.readMembers (f s) members = (S.readMembers s members).map f := by
  -- Along the members. Each test of the reader comes out the same on both sides.
  match members with
  | .closed =>
    rw [Schema.readMembers, Schema.readMembers]
    have same : ∀ (F : Field σ) (G : Field τ), F.Mirrors f G →
        (!T.optional && !G.isSet (f s)) = (!S.optional && !F.isSet s) := by
      intro F G hFG
      rw [h.optional, hFG.isSet]
    rcases find?_of_mirrors h.fields same with ⟨hF, hG⟩ | ⟨F, G, hF, hG, hFG⟩
    · rw [hF, hG]
      rfl
    · rw [hF, hG]
      exact congrArg (fun name => Except.error (ReadError.missingField name)) hFG.name
  | .cut => rfl
  | .cons none _ _ => rfl
  | .cons (some key) value rest =>
    rw [Schema.readMembers, Schema.readMembers]
    have same : ∀ (F : Field σ) (G : Field τ), F.Mirrors f G →
        (G.name == key) = (F.name == key) := by
      intro F G hFG
      rw [hFG.name]
    rcases find?_of_mirrors h.fields same with ⟨hF, hG⟩ | ⟨F, G, hF, hG, hFG⟩
    · -- The key is that of no field.
      simp only [hF, hG, h.closedKeys, h.map_name]
      split
      · rfl
      · cases readWhole value with
        | error e => rfl
        | ok u => exact Mirrors.readMembers h s rest
    · simp only [hF, hG, hFG.isSet, hFG.name, hFG.set]
      split
      · rfl
      · cases F.set s value with
        | error e => rfl
        | ok t => exact Mirrors.readMembers h t rest

/-- The items of an array are read like those that they mirror. -/
theorem Mirrors.readFields (h : S.Mirrors f T) {Fs : List (Field σ)} {Gs : List (Field τ)}
    (fields : List.Forall₂ (Field.Mirrors f) Fs Gs) (count : Nat) (s : σ) (items : Items) :
    T.readFields count (f s) Gs items = (S.readFields count s Fs items).map f := by
  induction fields generalizing count s items with
  | nil =>
    rw [Schema.readFields, Schema.readFields]
    cases readEnd items <;> rfl
  | @cons F G Fs Gs head tail ih =>
    cases items with
    -- The message counts the fields, of which there are as many on both sides.
    | closed =>
      have hlength : T.fields.length = S.fields.length := h.fields.length_eq.symm
      rw [Schema.readFields, Schema.readFields, h.optional, h.expected, hlength]
      cases S.optional <;> rfl
    | cut => rfl
    | cons item rest =>
      rw [Schema.readFields, Schema.readFields, head.set]
      cases F.set s item with
      | error e => rfl
      | ok t => exact ih (count + 1) t rest

/-- A record is read like the one that it mirrors. -/
theorem Mirrors.read (h : S.Mirrors f T) (s : σ) (v : Value) :
    T.read (f s) v = (S.read s v).map f := by
  cases v with
  | object members => exact h.readMembers s members
  | array items => exact h.readFields h.fields 0 s items
  | broken | null | bool | number | string =>
    simp only [Schema.read, h.expected]
    rfl

end Schema

/-! ## Choices -/

/-- The contents of an alternative that go with those of another one. -/
inductive Content.Mirrors (g : α → β) : Content α → Content β → Prop
  | plain (a : α) : Mirrors g (.plain a) (.plain (g a))
  | fields {read : Reader α} {read' : Reader β} (h : ∀ v, read' v = (read v).map g) :
    Mirrors g (.fields read) (.fields read')

/-- What stands behind a name is read like what it mirrors. -/
theorem Content.Mirrors.read {c : Content α} {c' : Content β} (h : c.Mirrors g c') (v : Value) :
    c'.read v = (c.read v).map g := by
  cases h with
  | plain a => cases v <;> rfl
  | fields h => exact h v

/-- Alternatives with the same names, and with contents that go together. -/
def Alternatives.Mirrors (g : α → β) (alts : List (String × Content α))
    (alts' : List (String × Content β)) : Prop :=
  List.Forall₂ (fun a a' => a'.1 = a.1 ∧ a.2.Mirrors g a'.2) alts alts'

variable {alts : List (String × Content α)} {alts' : List (String × Content β)}

/-- A name is found on both sides or on none, with contents that go together. -/
theorem lookup_of_mirrors (h : Alternatives.Mirrors g alts alts') (name : String) :
    alts.lookup name = none ∧ alts'.lookup name = none ∨
      ∃ c c', alts.lookup name = some c ∧ alts'.lookup name = some c' ∧ c.Mirrors g c' := by
  induction h with
  | nil => exact .inl ⟨rfl, rfl⟩
  | @cons a a' _ _ head tail ih =>
    rw [List.lookup_cons, List.lookup_cons, head.1]
    cases name == a.1 with
    | true => exact .inr ⟨a.2, a'.2, rfl, rfl, head.2⟩
    | false => exact ih

/-- The names are the same on both sides. -/
theorem map_fst_of_mirrors (h : Alternatives.Mirrors g alts alts') :
    alts'.map Prod.fst = alts.map Prod.fst := by
  induction h with
  | nil => rfl
  | cons head tail ih => rw [List.map_cons, List.map_cons, head.1, ih]

/-- A choice is read like the one that it mirrors. -/
theorem readChoice_of_mirrors (h : Alternatives.Mirrors g alts alts') (v : Value) :
    readChoice alts' v = (readChoice alts v).map g := by
  cases v with
  -- A name alone is a choice without contents.
  | string s =>
    cases s with
    | none => rfl
    | some name =>
      rw [readChoice, readChoice]
      rcases lookup_of_mirrors h name with ⟨hc, hc'⟩ | ⟨c, c', hc, hc', hcc⟩
      · rw [hc, hc', map_fst_of_mirrors h]
        rfl
      · rw [hc, hc']
        cases hcc <;> rfl
  -- An object is a choice with contents only if its first key is a string.
  | object members =>
    match members with
    | .closed | .cut | .cons none _ _ => rfl
    | .cons (some name) value rest =>
      rw [readChoice, readChoice]
      rcases lookup_of_mirrors h name with ⟨hc, hc'⟩ | ⟨c, c', hc, hc', hcc⟩
      · rw [hc, hc', map_fst_of_mirrors h]
        rfl
      · simp only [hc, hc', hcc.read]
        cases c.read value with
        | error e => rfl
        | ok a => cases rest <;> rfl
  | broken | null | bool | number | array => rfl

end NandMachine.Json
