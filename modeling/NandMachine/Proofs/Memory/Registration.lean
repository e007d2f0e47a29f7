import NandMachine.Proofs.Memory.Chronicle

/-!
# Checked registration

A checked registration refuses a range that holds no address, one that reaches beyond the space, and
one that an earlier mapping is in the way of. The last is decided by the ends of the two ranges.
For ranges that hold addresses the ends tell whether there is an address in both. An empty range
covers nothing, and yet by its ends it is in the way of a range that lies on both sides of it.

## Key results

- `overlaps_iff`: what the ends of two ranges tell about their addresses
- `conflict?_eq_some_iff`: the reason for a refusal
- `tryRegister_decides`: when a checked registration is refused, for which reason, and what is left
-/

namespace NandMachine

namespace Mapping

/-- Some address is in both ranges. -/
def Shares (m n : Mapping) : Prop := ∃ a : Address, m.Covers a.toNat ∧ n.Covers a.toNat

/-- The range is empty, and the other one lies on both sides of it. -/
def Splits (m n : Mapping) : Prop :=
  m.length = 0 ∧ n.base.toNat < m.base.toNat ∧ m.base.toNat < n.stop

/-- An empty range stops where it starts. -/
theorem stop_of_empty {m : Mapping} (h : m.length = 0) : m.stop = m.base.toNat := by
  rw [stop, h, Nat.add_zero]

/-- Ranges with an address in both overlap. -/
theorem overlaps_of_shares {m n : Mapping} (h : m.Shares n) : m.Overlaps n := by
  obtain ⟨a, hm, hn⟩ := h
  rw [covers_iff] at hm hn
  exact ⟨by omega, by omega⟩

/-- Two ranges that hold addresses, one of them within the space, share the higher one of their
bases if they overlap. -/
theorem shares_of_overlaps {m n : Mapping} (hm : 0 < m.length) (hn : 0 < n.length)
    (fits : n.stop ≤ addressCount) (h : m.Overlaps n) : m.Shares n := by
  obtain ⟨hmn, hnm⟩ := h
  have hcount : addressCount = 4096 := rfl
  have hmstop : m.stop = m.base.toNat + m.length := rfl
  have hnstop : n.stop = n.base.toNat + n.length := rfl
  -- The higher base is an address of the space, since the second range lies in it.
  have ha : (Address.ofNat (max m.base.toNat n.base.toNat)).toNat =
      max m.base.toNat n.base.toNat := by
    rw [Address.toNat_ofNat]
    exact Nat.mod_eq_of_lt (by omega)
  refine ⟨.ofNat (max m.base.toNat n.base.toNat), ?_, ?_⟩
  · rw [ha, covers_iff]
    omega
  · rw [ha, covers_iff]
    omega

/-- What the ends of a range tell, next to those of a range that holds addresses of the space. -/
theorem overlaps_iff {m n : Mapping} (hn : 0 < n.length) (fits : n.stop ≤ addressCount) :
    m.Overlaps n ↔ m.Shares n ∨ m.Splits n := by
  constructor
  · intro h
    -- Only an empty first range can overlap without an address in both.
    rcases Nat.eq_zero_or_pos m.length with hm | hm
    · exact .inr ⟨hm, stop_of_empty hm ▸ h.2, h.1⟩
    · exact .inl (shares_of_overlaps hm hn fits h)
  · rintro (h | ⟨hm, hbase, hstop⟩)
    · exact overlaps_of_shares h
    · -- An empty range stops where it starts.
      exact ⟨hstop, (stop_of_empty hm).symm ▸ hbase⟩

/-- A range that holds addresses has no empty place. -/
theorem not_splits_of_pos {m : Mapping} (hm : 0 < m.length) (n : Mapping) : ¬ m.Splits n :=
  fun h => Nat.ne_of_gt hm h.1

end Mapping

namespace Space

/-! ## Reasons for a refusal -/

/-- Behind earlier mappings a mapping is refused, for the reason given: its range is empty, or
reaches beyond the space, or one of the earlier mappings clashes with it, of which the first is
named. A reason counts only if those before it do not. -/
inductive Refused (Clash : Mapping → Mapping → Prop) (earlier : List Mapping) (m : Mapping) :
    MappingError → Prop
  | emptyMapping (empty : m.length = 0) : Refused Clash earlier m (.emptyMapping m.base.toNat)
  | outOfBounds (holds : 0 < m.length) (beyond : addressCount < m.stop) :
      Refused Clash earlier m (.outOfBounds m.base.toNat m.length)
  | overlap (holds : 0 < m.length) (fits : m.stop ≤ addressCount) {before after : List Mapping}
      {e : Mapping} (place : earlier = before ++ e :: after) (clash : Clash e m)
      (first : ∀ f ∈ before, ¬ Clash f m) :
      Refused Clash earlier m (.overlap m.base.toNat m.length e.base.toNat e.length)

section
variable {Clash Clash' : Mapping → Mapping → Prop} {earlier : List Mapping} {m : Mapping}

/-- Only what clashes with a range that holds addresses of the space makes a difference. -/
theorem Refused.congr {err : MappingError} (h : Refused Clash earlier m err)
    (same : 0 < m.length → m.stop ≤ addressCount → ∀ e ∈ earlier, (Clash e m ↔ Clash' e m)) :
    Refused Clash' earlier m err := by
  -- Only a refusal because of an overlap depends on what a clash is.
  cases h with
  | emptyMapping empty => exact .emptyMapping empty
  | outOfBounds holds beyond => exact .outOfBounds holds beyond
  | @overlap holds fits before after e place clash first =>
    have hsame := same holds fits
    rw [place] at hsame
    refine .overlap holds fits place ((hsame e (by simp)).mp clash) ?_
    intro f hf hclash
    exact first f hf ((hsame f (List.mem_append_left _ hf)).mpr hclash)

/-- Two ways to clash give the same refusals if they agree on ranges that hold addresses of the
space. -/
theorem refused_congr {err : MappingError}
    (same : 0 < m.length → m.stop ≤ addressCount → ∀ e ∈ earlier, (Clash e m ↔ Clash' e m)) :
    Refused Clash earlier m err ↔ Refused Clash' earlier m err :=
  ⟨fun h => h.congr same, fun h => h.congr fun hm hs e he => (same hm hs e he).symm⟩

/-- There is no reason to refuse exactly the mappings that hold addresses, all of them in the
space, and clash with no earlier mapping. -/
theorem not_refused_iff :
    (∀ err, ¬ Refused Clash earlier m err) ↔
      0 < m.length ∧ m.stop ≤ addressCount ∧ ∀ e ∈ earlier, ¬ Clash e m := by
  constructor
  · intro h
    -- Each part is what is left when one of the reasons is none.
    have holds : 0 < m.length := Nat.pos_of_ne_zero fun empty => h _ (.emptyMapping empty)
    have fits : m.stop ≤ addressCount :=
      Nat.le_of_not_lt fun beyond => h _ (.outOfBounds holds beyond)
    refine ⟨holds, fits, ?_⟩
    classical
    -- Had one of them clashed, so would a first one.
    cases hfind : earlier.find? fun e => Clash e m with
    | none => simpa using hfind
    | some e =>
      obtain ⟨hclash, before, after, place, first⟩ := List.find?_eq_some_iff_append.mp hfind
      have refused : Refused Clash earlier m _ :=
        .overlap holds fits place (by simpa using hclash) (by simpa using first)
      exact absurd refused (h _)
  · rintro ⟨holds, fits, free⟩ err h
    cases h with
    | emptyMapping empty => exact Nat.ne_of_gt holds empty
    | outOfBounds _ beyond => exact Nat.not_le_of_lt beyond fits
    | @overlap _ _ before after e place clash first => exact free e (by rw [place]; simp) clash

end

/-- The check of a registration goes by the ends of the ranges. -/
theorem conflict?_eq_some_iff {s : Space} {m : Mapping} {err : MappingError} :
    s.conflict? m = some err ↔ Refused Mapping.Overlaps s.mappings.toList m err := by
  simp only [conflict?, ← Array.find?_toList]
  constructor
  · intro h
    -- The three checks come in the order of the reasons, and each rules out the one before.
    split at h
    · next empty => exact Option.some.inj h ▸ .emptyMapping empty
    next nonempty =>
    have holds := Nat.pos_of_ne_zero nonempty
    split at h
    · next beyond => exact Option.some.inj h ▸ .outOfBounds holds beyond
    next fits =>
    split at h
    · next e hfind =>
      obtain ⟨hclash, before, after, place, first⟩ := List.find?_eq_some_iff_append.mp hfind
      exact Option.some.inj h ▸ .overlap holds (Nat.le_of_not_lt fits) place (by simpa using hclash)
        (by simpa using first)
    · contradiction
  · intro h
    cases h with
    | emptyMapping empty => rw [if_pos empty]
    | outOfBounds holds beyond => rw [if_neg (Nat.ne_of_gt holds), if_pos beyond]
    | @overlap holds fits before after e place clash first =>
      have hfind : (s.mappings.toList.find? fun e => e.Overlaps m) = some e := by
        rw [List.find?_eq_some_iff_append]
        exact ⟨by simpa using clash, before, after, place, by simpa using first⟩
      rw [if_neg (Nat.ne_of_gt holds), if_neg (Nat.not_lt_of_le fits), hfind]

/-- Behind mappings none of which is empty inside the range, what counts are the addresses. -/
theorem conflict?_eq_some_iff_shares {s : Space} {m : Mapping} {err : MappingError}
    (whole : ∀ e ∈ s.mappings, ¬ e.Splits m) :
    s.conflict? m = some err ↔ Refused Mapping.Shares s.mappings.toList m err := by
  rw [conflict?_eq_some_iff]
  refine refused_congr fun holds fits e he => ?_
  rw [Mapping.overlaps_iff holds fits, or_iff_left (whole e (Array.mem_toList_iff.mp he))]

/-! ## Checked registrations -/

/-- A checked registration fails for the reason that the check gives. -/
theorem tryRegister_eq_error_iff {s : Space} {m : Mapping} {err : MappingError} :
    s.tryRegister m = .error err ↔ s.conflict? m = some err := by
  rw [tryRegister]
  cases s.conflict? m with
  | none => simp
  | some e => simp

/-- A checked registration succeeds exactly if the check gives no reason against it. -/
theorem tryRegister_eq_ok_iff {s t : Space} {m : Mapping} :
    s.tryRegister m = .ok t ↔ s.conflict? m = none ∧ s.register m = t := by
  rw [tryRegister]
  cases s.conflict? m with
  | none => simp
  | some e => simp

/-- A registration puts the mapping behind all others. -/
theorem register_eq_iff {s t : Space} {m : Mapping} :
    s.register m = t ↔ t.mappings.toList = s.mappings.toList ++ [m] := by
  obtain ⟨mappings⟩ := t
  rw [register, mk.injEq, ← Array.toList_inj, Array.toList_push]
  exact eq_comm

/-- A checked registration refuses a mapping for exactly the reasons that there are: its range is
empty, or reaches beyond the space, or an earlier mapping shares an address with it or is empty
inside its range, and then the first such mapping is named. Where no mapping is empty inside the
range, this is the first one that shares an address. A mapping that is not refused goes behind the
others. Where the space is changed in place, check by check, it comes to the same, and a check that
fails leaves the space as it was. -/
theorem tryRegister_decides (s : Space) (m : Mapping) :
    (∀ err, s.tryRegister m = .error err ↔
      Refused (fun e m => e.Shares m ∨ e.Splits m) s.mappings.toList m err) ∧
    ((∀ e ∈ s.mappings, ¬ e.Splits m) → ∀ err, s.tryRegister m = .error err ↔
      Refused Mapping.Shares s.mappings.toList m err) ∧
    (∀ t, s.tryRegister m = .ok t ↔
      t.mappings.toList = s.mappings.toList ++ [m] ∧ 0 < m.length ∧ m.stop ≤ addressCount ∧
        ∀ e ∈ s.mappings, ¬ e.Shares m ∧ ¬ e.Splits m) ∧
    (∀ t, (tryRegisterInPlace m).run s = .ok () t ↔ s.tryRegister m = .ok t) ∧
    (∀ err t, (tryRegisterInPlace m).run s = .error err t ↔ s.tryRegister m = .error err ∧ t = s) ∧
    ∀ fresh : m.device.Fresh, ∀ err, s.tryRegister m = .error err →
      s.perform (.tryRegister m fresh) = s := by
  refine ⟨?_, ?_, ?_, ?_, ?_, ?_⟩
  · intro err
    rw [tryRegister_eq_error_iff, conflict?_eq_some_iff]
    exact refused_congr fun holds fits e _ => Mapping.overlaps_iff holds fits
  · intro whole err
    rw [tryRegister_eq_error_iff, conflict?_eq_some_iff_shares whole]
  · intro t
    -- Where there is no reason against it, no mapping is in the way, by its addresses or as an
    -- empty one.
    rw [tryRegister_eq_ok_iff, register_eq_iff, conflict?_eq_none_iff, and_comm]
    refine and_congr_right fun _ => and_congr_right fun holds => and_congr_right fun fits => ?_
    refine forall_congr' fun e => forall_congr' fun _ => ?_
    rw [Mapping.overlaps_iff holds fits, not_or]
  · intro t
    rw [run_tryRegisterInPlace]
    cases s.tryRegister m <;> simp
  · intro err t
    rw [run_tryRegisterInPlace]
    cases s.tryRegister m <;> simp [eq_comm]
  · intro fresh err h
    simp only [perform, run_tryRegisterInPlace, h]

/-- A range is refused for an empty one inside it, with no address in both. -/
theorem tryRegister_refuses_around_empty :
    let s := Space.empty.register (.ofDevice 0x11 (.zeros 0))
    let m : Mapping := .ofDevice 0x10 (.zeros 2)
    0 < m.length ∧ m.stop ≤ addressCount ∧ (∀ e ∈ s.mappings, ¬ e.Shares m) ∧
      s.tryRegister m = .error (.overlap 0x10 2 0x11 0) := by
  intro s m
  refine ⟨by decide, by decide, ?_, rfl⟩
  -- The only mapping is empty, so it shares no address.
  intro e he hshares
  obtain ⟨a, hcov, -⟩ := hshares
  obtain rfl : e = .ofDevice 0x11 (.zeros 0) := by simpa [s, register, empty] using he
  exact Nat.not_lt_zero _ hcov.2

end Space

end NandMachine
