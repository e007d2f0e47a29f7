import NandMachine.Proofs.Layout.Build
import NandMachine.Proofs.Memory.Registration

/-!
# Strict layouts

A strict layout and a lenient one are built from the same mappings, in the same order, and both
start with the same check of the layout. They differ in the check of each registration, which only
the strict one makes. So the strict construction can fail at a mapping where the lenient one goes
on, and is otherwise the same. The check of a registration goes by the ends of ranges; since a
strict construction never has an empty mapping behind it, this comes to the same as asking for an
address in two mappings.

## Key results

- `registerAll_lenient`: without checks everything is registered
- `registerAll_strict_eq_ok_iff`, `registerAll_strict_error`: with checks, up to the first misfit
- `strict_agrees_with_lenient`: the two constructions of a layout
-/

namespace NandMachine

namespace Space

/-- Every range of the list holds addresses, all of them in the space, and no address is in two. -/
structure Laid (ms : List Mapping) : Prop where
  holds : ∀ m ∈ ms, 0 < m.length
  fits : ∀ m ∈ ms, m.stop ≤ addressCount
  apart : ms.Pairwise fun m n => ¬ m.Shares n

theorem Laid.nil : Laid [] := ⟨by simp, by simp, .nil⟩

/-- A list stays laid out with one more mapping exactly if there is no reason to refuse it. -/
theorem laid_concat_iff {ms : List Mapping} {m : Mapping} :
    Laid (ms ++ [m]) ↔ Laid ms ∧ ∀ err, ¬ Refused Mapping.Shares ms m err := by
  rw [not_refused_iff]
  constructor
  · rintro ⟨holds, fits, apart⟩
    -- The last mapping is apart from the others if it shares an address with none of them.
    rw [List.pairwise_append] at apart
    obtain ⟨happart, -, hlast⟩ := apart
    refine ⟨⟨fun e he => holds e ?_, fun e he => fits e ?_, happart⟩, holds m ?_, fits m ?_, ?_⟩
    · exact List.mem_append_left _ he
    · exact List.mem_append_left _ he
    · simp
    · simp
    · exact fun e he => hlast e he m (List.mem_singleton.mpr rfl)
  · rintro ⟨⟨holds, fits, apart⟩, hholds, hfits, hfree⟩
    refine ⟨?_, ?_, List.pairwise_append.mpr ⟨apart, List.pairwise_singleton .., ?_⟩⟩
    · simpa [or_imp, forall_and] using ⟨holds, hholds⟩
    · simpa [or_imp, forall_and] using ⟨fits, hfits⟩
    · intro e he n hn
      rw [List.mem_singleton.mp hn]
      exact hfree e he

/-- A list that is laid out was so before more was put behind it. -/
theorem Laid.of_append {ms ns : List Mapping} (h : Laid (ms ++ ns)) : Laid ms where
  holds := fun m hm => h.holds m (List.mem_append_left _ hm)
  fits := fun m hm => h.fits m (List.mem_append_left _ hm)
  apart := (List.pairwise_append.mp h.apart).1

/-- In a space that is laid out the check of a registration comes down to addresses. -/
theorem conflict?_eq_some_iff_of_laid {s : Space} {m : Mapping} {err : MappingError}
    (h : Laid s.mappings.toList) :
    s.conflict? m = some err ↔ Refused Mapping.Shares s.mappings.toList m err :=
  conflict?_eq_some_iff_shares fun e he =>
    Mapping.not_splits_of_pos (h.holds e (Array.mem_toList_iff.mpr he)) m

/-- A space stays laid out with one more mapping exactly if the check finds nothing against it. -/
theorem laid_register_iff {s : Space} {m : Mapping} (h : Laid s.mappings.toList) :
    Laid (s.register m).mappings.toList ↔ s.conflict? m = none := by
  rw [register, Array.toList_push, laid_concat_iff, and_iff_right h,
    Option.eq_none_iff_forall_ne_some]
  exact forall_congr' fun err => not_congr (conflict?_eq_some_iff_of_laid h).symm

/-- What is registered goes in front of what is still to be. -/
theorem toList_register_append (s : Space) (m : Mapping) (ms : List Mapping) :
    (s.register m).mappings.toList ++ ms = s.mappings.toList ++ m :: ms := by
  rw [register, Array.toList_push, List.append_assoc, List.singleton_append]

end Space

namespace Layout

open Space (Laid Refused)

/-! ## Registration in a row -/

/-- Without checks everything is registered. -/
theorem registerAll_lenient (s : Space) (ms : List Mapping) :
    (registerAll false s ms).1 = .ok ⟨s.mappings ++ ms.toArray⟩ := by
  induction ms generalizing s with
  | nil => simp [registerAll]
  | cons m ms ih =>
    simp only [registerAll, Bool.false_eq_true, if_false]
    rw [ih, Space.register, List.push_append_toArray]

/-- With checks everything is registered exactly if it is laid out behind the space. -/
theorem registerAll_strict_eq_ok_iff {s t : Space} {ms : List Mapping}
    (h : Laid s.mappings.toList) :
    (registerAll true s ms).1 = .ok t ↔
      t = ⟨s.mappings ++ ms.toArray⟩ ∧ Laid (s.mappings.toList ++ ms) := by
  -- The space grows with every registration, and stays laid out for as long as the checks succeed.
  induction ms generalizing s with
  | nil =>
    simp only [registerAll, Except.ok.injEq, List.append_nil, h, and_true]
    simp [eq_comm]
  | cons m ms ih =>
    simp only [registerAll, if_true]
    cases hc : s.conflict? m with
    | some e =>
      -- What the check refuses cannot be laid out, whatever follows.
      have hnot : ¬ Laid (s.mappings.toList ++ m :: ms) := by
        rw [← Space.toList_register_append]
        intro hlaid
        have hnone := (Space.laid_register_iff h).mp hlaid.of_append
        rw [hc] at hnone
        exact Option.some_ne_none e hnone
      simp [hnot]
    | none =>
      rw [← Space.toList_register_append, ih ((Space.laid_register_iff h).mpr hc), Space.register,
        List.push_append_toArray]

/-- With checks the construction ends at the first mapping that there is a reason to refuse. -/
theorem registerAll_strict_error {s : Space} {ms : List Mapping} {err : MappingError}
    (h : Laid s.mappings.toList) (herr : (registerAll true s ms).1 = .error err) :
    ∃ before m after, ms = before ++ m :: after ∧ Laid (s.mappings.toList ++ before) ∧
      Refused Mapping.Shares (s.mappings.toList ++ before) m err := by
  induction ms generalizing s with
  | nil => exact nomatch herr
  | cons m ms ih =>
    simp only [registerAll, if_true] at herr
    cases hc : s.conflict? m with
    | some e =>
      simp only [hc, Except.error.injEq] at herr
      -- This is the first misfit, with nothing new in front of it.
      refine ⟨[], m, ms, rfl, ?_, ?_⟩
      · rw [List.append_nil]
        exact h
      · rw [List.append_nil, ← herr]
        exact (Space.conflict?_eq_some_iff_of_laid h).mp hc
    | none =>
      simp only [hc] at herr
      obtain ⟨before, m', after, place, hlaid, hrefused⟩ :=
        ih ((Space.laid_register_iff h).mpr hc) herr
      -- The mapping that has been registered is one of those in front of the misfit.
      rw [Space.toList_register_append] at hlaid hrefused
      exact ⟨m :: before, m', after, by rw [place, List.cons_append], hlaid, hrefused⟩

/-! ## The check of the layout itself -/

/-- A layout that fails its check fails for that reason, strict or not. -/
theorem space_of_problem {l : Layout} {err : MappingError} (h : l.problem? = some err)
    (strict : Bool) (image : Rom) : { l with strict }.space image = .error err := by
  have h' : { l with strict }.problem? = some err := h
  rw [space, build, h']

/-- A layout that passes its check is built mapping by mapping, strict or not. -/
theorem space_of_no_problem {l : Layout} (h : l.problem? = none) (strict : Bool) (image : Rom) :
    { l with strict }.space image = (registerAll strict .empty (l.mappings image)).1 := by
  have h' : { l with strict }.problem? = none := h
  rw [space, build, h']
  rfl

/-- Nothing is wrong with a region that holds addresses, all of them in the space. -/
theorem problem?_region_eq_none_iff {r : Region} :
    r.problem? = none ↔ 0 < r.length.toNat ∧ r.base.toNat + r.length.toNat ≤ addressCount := by
  have hzero : r.length = 0 ↔ r.length.toNat = 0 := UInt64.toNat_inj.symm
  simp only [Region.problem?, hzero]
  split
  · next h => simp [h]
  · split
    · next h => simp [Nat.not_le_of_lt h]
    · next hpos hle => simp [Nat.pos_of_ne_zero hpos, Nat.le_of_not_lt hle]

/-- Nothing is wrong with a base that is an address of the space. -/
theorem baseProblem?_eq_none_iff {base : UInt16} :
    baseProblem? base = none ↔ base.toNat < addressCount := by
  simp [baseProblem?]

/-- A layout is found to be sound if the bases and all of the cells are in the space, and no row of
cells is empty. -/
theorem problem?_eq_none_iff {l : Layout} :
    l.problem? = none ↔
      l.romBase.toNat < addressCount ∧ l.displayBase.toNat < addressCount ∧
        ∀ r ∈ l.ram, 0 < r.length.toNat ∧ r.base.toNat + r.length.toNat ≤ addressCount := by
  simp only [problem?, Option.or_eq_none_iff, baseProblem?_eq_none_iff, List.findSome?_eq_none_iff,
    problem?_region_eq_none_iff]

/-- Of the mappings of a sound layout only the image can be empty or reach beyond the space. -/
theorem laid_mappings_iff {l : Layout} (h : l.problem? = none) (image : Rom) :
    Laid (l.mappings image) ↔
      image.isEmpty = false ∧ l.romBase.toNat + image.size ≤ addressCount ∧
        (l.mappings image).Pairwise fun m n => ¬ m.Shares n := by
  obtain ⟨-, hdisplay, hram⟩ := problem?_eq_none_iff.mp h
  have hempty : image.isEmpty = false ↔ 0 < image.size := by
    rw [Rom.isEmpty, Rom.size, Array.isEmpty_eq_false_iff, ← Array.size_pos_iff]
    omega
  -- A region is mapped with its own length.
  have hlength : ∀ r : Region, r.mapping.length = r.length.toNat := fun r => by
    simp [Region.mapping, Mapping.ofDevice, Device.zeros, Device.size]
  have hstop : ∀ r : Region, r.mapping.stop = r.base.toNat + r.length.toNat := fun r =>
    congrArg (r.base.toNat + ·) (hlength r)
  rw [hempty]
  constructor
  · rintro ⟨holds, fits, apart⟩
    exact ⟨holds _ List.mem_cons_self, fits _ List.mem_cons_self, apart⟩
  · rintro ⟨hpos, hfits, apart⟩
    refine ⟨?_, ?_, apart⟩
    · intro m hm
      simp only [mappings, List.mem_cons, List.mem_map] at hm
      -- What is left is what the check of the layout has found out about display and cells.
      rcases hm with rfl | rfl | ⟨r, hr, rfl⟩
      · exact hpos
      · exact Nat.one_pos
      · exact hlength r ▸ (hram r hr).1
    · intro m hm
      simp only [mappings, List.mem_cons, List.mem_map] at hm
      rcases hm with rfl | rfl | ⟨r, hr, rfl⟩
      · exact hfits
      · exact hdisplay
      · exact hstop r ▸ (hram r hr).2

/-! ## The two constructions -/

/-- A layout that cannot be built leniently cannot be built strictly either, for the same reason.
What is built strictly is built leniently too, with the same mappings. And what is built leniently
is built strictly exactly if the image has contents and ends within the space and no address is in
two mappings; otherwise the reason is about the first mapping, in the order image, display, cells,
that is empty, reaches beyond the space or shares an address with an earlier one. -/
theorem strict_agrees_with_lenient (l : Layout) (image : Rom) :
    let strict := { l with strict := true }.space image
    let lenient := { l with strict := false }.space image
    (∀ err, lenient = .error err → strict = .error err) ∧
    (∀ s, strict = .ok s → lenient = .ok s) ∧
    ∀ s, lenient = .ok s →
      s.mappings.toList = l.mappings image ∧
      ((∃ t, strict = .ok t) ↔
        image.isEmpty = false ∧ l.romBase.toNat + image.size ≤ addressCount ∧
          s.mappings.toList.Pairwise fun m n => ¬ m.Shares n) ∧
      ∀ err, strict = .error err →
        ∃ before m after, s.mappings.toList = before ++ m :: after ∧ Laid before ∧
          Refused Mapping.Shares before m err := by
  intro strict lenient
  have hempty : Laid Space.empty.mappings.toList := .nil
  cases h : l.problem? with
  | some err =>
    -- The check of the layout itself does not ask whether it is strict.
    have hstrict : strict = .error err := space_of_problem h true image
    have hlenient : lenient = .error err := space_of_problem h false image
    rw [hstrict, hlenient]
    exact ⟨fun _ => id, fun _ => id, fun _ => nofun⟩
  | none =>
    have hstrict : strict = (registerAll true .empty (l.mappings image)).1 :=
      space_of_no_problem h true image
    have hlenient : lenient = .ok ⟨#[] ++ (l.mappings image).toArray⟩ :=
      (space_of_no_problem h false image).trans (registerAll_lenient ..)
    -- With checks and without, a construction that succeeds gives the same space.
    have hok : ∀ t, (registerAll true .empty (l.mappings image)).1 = .ok t ↔
        t = ⟨#[] ++ (l.mappings image).toArray⟩ ∧ Laid ([] ++ l.mappings image) :=
      fun _ => registerAll_strict_eq_ok_iff hempty
    rw [hlenient, hstrict]
    refine ⟨fun _ => nofun, ?_, ?_⟩
    · intro s hs
      rw [((hok s).mp hs).1]
    · intro s hs
      have hmappings : s.mappings.toList = l.mappings image := by
        rw [← Except.ok.inj hs]
        simp
      rw [hmappings]
      refine ⟨rfl, ?_, ?_⟩
      · rw [← laid_mappings_iff h]
        exact ⟨fun ⟨t, ht⟩ => ((hok t).mp ht).2, fun hlaid => ⟨_, (hok _).mpr ⟨rfl, hlaid⟩⟩⟩
      · intro err herr
        exact registerAll_strict_error hempty herr

end Layout

end NandMachine
