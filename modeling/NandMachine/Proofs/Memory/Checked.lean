import NandMachine.Proofs.Layout.Strict

/-!
# Spaces with checked mappings

A space that only takes mappings that fit is laid out at any time: no range is empty or reaches
beyond the space, and no address is in two of them. Writes do not move ranges. In such a space it
makes no difference which mapping is asked first, because at most one can answer. So the order of
registration is of no importance, neither for the success of the registrations nor for what is read
and written afterwards.

## Key results

- `laid_space`: a space stays laid out, whatever is tried
- `foldlM_tryRegister_eq_ok_iff`: which lists of mappings can be registered
- `place_eq_iff_of_laid`: whichever mapping covers an address answers for it
- `toList_write_of_laid`: a write goes to every mapping that covers the address
- `Reordered.writes`: writes keep two spaces equal up to order
- `checked_registration_order_free`: the two together
-/

namespace NandMachine

/-- The mapping after a write to an address of the space, which reaches it if it covers the
address. -/
def Mapping.receive (m : Mapping) (a : Address) (n : Nibble) : Mapping :=
  if m.Covers a.toNat then m.write (a.toNat - m.base.toNat) n else m

/-- Two ranges share an address whichever of them is named first. -/
theorem Mapping.Shares.symm {m n : Mapping} (h : m.Shares n) : n.Shares m :=
  h.imp fun _ => And.symm

namespace Space

/-! ## Laid out at any time -/

/-- Whether a space is laid out depends on its ranges alone. -/
theorem laid_blank_iff {s : Space} :
    Laid s.blank.mappings.toList ↔ Laid s.mappings.toList := by
  rw [blank, Array.toList_map]
  -- Ranges are the same on both sides, so each condition is the same.
  constructor
  · rintro ⟨holds, fits, apart⟩
    exact ⟨fun m hm => holds m.blank (List.mem_map_of_mem hm),
      fun m hm => fits m.blank (List.mem_map_of_mem hm), List.pairwise_map.mp apart⟩
  · rintro ⟨holds, fits, apart⟩
    refine ⟨?_, ?_, List.pairwise_map.mpr apart⟩
    · intro m hm
      obtain ⟨e, he, rfl⟩ := List.mem_map.mp hm
      exact holds e he
    · intro m hm
      obtain ⟨e, he, rfl⟩ := List.mem_map.mp hm
      exact fits e he

/-- A write leaves a space laid out. -/
theorem laid_write {s : Space} (h : Laid s.mappings.toList) (a : Address) (n : Nibble) :
    Laid (s.write a n).mappings.toList := by
  rw [← laid_blank_iff, blank_write, laid_blank_iff]
  exact h

/-- No operation with checks spoils a space that is laid out, whether its checks fail or not. -/
theorem laid_perform {s : Space} (h : Laid s.mappings.toList) {Allowed : Device → Prop}
    {op : Operation Allowed} (checked : op.Checked) : Laid (s.perform op).mappings.toList := by
  cases op with
  | register m allowed => exact checked.elim
  | write a n => exact laid_write h a n
  -- A check that fails changes nothing; one that succeeds has made sure of it.
  | tryRegister m allowed =>
    rw [perform, run_tryRegisterInPlace]
    cases hres : s.tryRegister m with
    | error e => exact h
    | ok t =>
      obtain ⟨hnone, rfl⟩ := tryRegister_eq_ok_iff.mp hres
      exact (laid_register_iff h).mpr hnone

/-- A space stays laid out for as long as all that is registered is checked. -/
theorem laid_space {Allowed : Device → Prop} {h : History Allowed}
    (checked : ∀ op ∈ h, op.Checked) : Laid h.space.mappings.toList := by
  induction h with
  | nil => exact .nil
  | cons op earlier ih =>
    obtain ⟨hop, hearlier⟩ := List.forall_mem_cons.mp checked
    exact laid_perform (ih hearlier) hop

/-- At most one mapping of a list in which no two share an address covers an address. -/
theorem countP_covers_le_one {ms : List Mapping} (h : ms.Pairwise fun m n => ¬ m.Shares n)
    (a : Address) : ms.countP (fun m => m.Covers a.toNat) ≤ 1 := by
  induction h with
  | nil => exact Nat.zero_le 1
  | @cons m ms hm _ ih =>
    -- If the first mapping covers the address, none of the others does.
    by_cases hcov : m.Covers a.toNat
    · have hnone : ms.countP (fun e => e.Covers a.toNat) = 0 := by
        rw [List.countP_eq_zero]
        intro e he hcov'
        exact hm e he ⟨a, hcov, by simpa using hcov'⟩
      have hone : (m :: ms).countP (fun e => e.Covers a.toNat) = 1 := by
        rw [List.countP_cons_of_pos (by simpa using hcov), hnone]
      exact Nat.le_of_eq hone
    · rw [List.countP_cons_of_neg (by simpa using hcov)]
      exact ih

/-! ## Registrations in a row -/

/-- Checked registrations in a row are what a strict layout makes. -/
theorem foldlM_tryRegister (s : Space) (ms : List Mapping) :
    ms.foldlM tryRegister s = (Layout.registerAll true s ms).1 := by
  induction ms generalizing s with
  | nil => rfl
  | cons m ms ih =>
    rw [List.foldlM_cons, tryRegister, Layout.registerAll, if_pos rfl]
    cases s.conflict? m with
    | some e => rfl
    | none => exact ih (s.register m)

/-- Mappings can be registered one after the other exactly if all of them together are laid out. -/
theorem foldlM_tryRegister_eq_ok_iff {s t : Space} {ms : List Mapping}
    (h : Laid s.mappings.toList) :
    ms.foldlM tryRegister s = .ok t ↔
      t.mappings.toList = s.mappings.toList ++ ms ∧ Laid (s.mappings.toList ++ ms) := by
  rw [foldlM_tryRegister, Layout.registerAll_strict_eq_ok_iff h]
  refine and_congr_left fun _ => ?_
  obtain ⟨mappings⟩ := t
  rw [mk.injEq, ← Array.toList_inj, Array.toList_append]

/-- Mappings can be registered exactly if all of them together are laid out. -/
theorem exists_foldlM_tryRegister_iff {s : Space} {ms : List Mapping}
    (h : Laid s.mappings.toList) :
    (∃ t, ms.foldlM tryRegister s = .ok t) ↔ Laid (s.mappings.toList ++ ms) := by
  simp only [foldlM_tryRegister_eq_ok_iff h]
  exact ⟨fun ⟨_, _, hlaid⟩ => hlaid, fun hlaid => ⟨⟨s.mappings ++ ms.toArray⟩, by simp, hlaid⟩⟩

/-- Whether mappings are laid out does not depend on their order. -/
theorem Laid.perm {ms ns : List Mapping} (h : Laid ms) (same : ms.Perm ns) : Laid ns where
  holds := fun m hm => h.holds m (same.mem_iff.mpr hm)
  fits := fun m hm => h.fits m (same.mem_iff.mpr hm)
  apart := (same.pairwise_iff (mt Mapping.Shares.symm)).mp h.apart

/-! ## Spaces that are equal up to order -/

/-- The mapping that resolution selects for an address. -/
def selected? (s : Space) (a : Address) : Option Mapping :=
  (s.resolve a).bind fun place => s.mappings[place.1]?

/-- Resolution selects the mapping that answers. -/
theorem selected?_eq_owner? (s : Space) (a : Address) : s.selected? a = s.owner? a := by
  rcases resolve_cases s a with h | ⟨i, m, h⟩
  · rw [selected?, h, resolve_eq_none_iff.mp h, Option.bind_none]
  · rw [selected?, resolve_of_first h, owner?_of_first h]
    exact h.at_place

/-- No mapping shares an address with one behind it. -/
theorem not_shares_of_lt {s : Space} (h : Laid s.mappings.toList) {i j : Nat} {m e : Mapping}
    (hlt : i < j) (hm : s.mappings[i]? = some m) (he : s.mappings[j]? = some e) :
    ¬ m.Shares e := by
  obtain ⟨hi, rfl⟩ := Array.getElem?_eq_some_iff.mp hm
  obtain ⟨hj, rfl⟩ := Array.getElem?_eq_some_iff.mp he
  exact List.pairwise_iff_getElem.mp h.apart i j hi hj hlt

/-- Where no two mappings share an address, whichever covers an address is at the place to which the
address is resolved. -/
theorem place_eq_iff_of_laid {s : Space} (h : Laid s.mappings.toList) {a : Address} {j : Nat}
    {m : Mapping} (hm : s.mappings[j]? = some m) :
    (s.resolve a).map Prod.fst = some j ↔ m.Covers a.toNat := by
  rcases resolve_cases s a with hnone | ⟨i, e, hfirst⟩
  · have hnot := resolve_eq_none_iff_covers.mp hnone m (Array.mem_of_getElem? hm)
    simp [hnone, hnot]
  · rw [resolve_of_first hfirst, Option.map_some, Option.some.injEq]
    constructor
    · rintro rfl
      obtain rfl := Option.some.inj (hm.symm.trans hfirst.at_place)
      exact hfirst.covers
    · intro hcov
      -- A mapping in front does not cover the address, and one behind would share it.
      rcases Nat.lt_trichotomy i j with hlt | heq | hgt
      · exact absurd ⟨a, hfirst.covers, hcov⟩ (not_shares_of_lt h hlt hfirst.at_place hm)
      · exact heq
      · exact absurd hcov (hfirst.before j hgt m hm)

/-- Where no two mappings share an address, whichever covers an address answers for it. -/
theorem owner?_eq_some_iff_of_laid {s : Space} (h : Laid s.mappings.toList) {a : Address}
    {m : Mapping} : s.owner? a = some m ↔ m ∈ s.mappings ∧ m.Covers a.toNat := by
  constructor
  · intro ho
    exact ⟨Array.mem_of_find?_eq_some ho, covers_of_owner? ho⟩
  · -- The mapping stands somewhere, and that is the place to which the address is resolved.
    rintro ⟨hm, hcov⟩
    obtain ⟨j, hj⟩ := Array.mem_iff_getElem?.mp hm
    obtain ⟨⟨i, offset⟩, hres, rfl⟩ :=
      Option.map_eq_some_iff.mp ((place_eq_iff_of_laid h hj).mpr hcov)
    obtain ⟨e, he, howner, -⟩ := owner?_of_resolve hres
    rw [howner, ← he, hj]

/-- Where no two mappings share an address, a write goes to every mapping that covers the address:
there is only the one that answers for it. -/
theorem toList_write_of_laid {s : Space} (h : Laid s.mappings.toList) (a : Address) (n : Nibble) :
    (s.write a n).mappings.toList = s.mappings.toList.map fun m => m.receive a n := by
  -- Place by place: a mapping is written to exactly if it covers the address.
  apply List.ext_getElem?
  intro j
  rw [Array.getElem?_toList, getElem?_mappings_write, List.getElem?_map, Array.getElem?_toList]
  cases hm : s.mappings[j]? with
  | none => rfl
  | some m =>
    simp only [Option.map_some, place_eq_iff_of_laid h hm]
    rfl

/-- Two spaces have the same mappings, with the same contents, in whatever order, and no two of the
mappings share an address. -/
structure Reordered (s t : Space) : Prop where
  laid : Laid s.mappings.toList
  same : s.mappings.toList.Perm t.mappings.toList

namespace Reordered

variable {s t : Space}

/-- A write to both spaces keeps them equal up to order. -/
theorem write (h : s.Reordered t) (a : Address) (n : Nibble) :
    (s.write a n).Reordered (t.write a n) where
  laid := laid_write h.laid a n
  same := by
    rw [toList_write_of_laid h.laid, toList_write_of_laid (h.laid.perm h.same)]
    exact h.same.map _

/-- Writes in a row to both spaces keep them equal up to order. -/
theorem writes (h : s.Reordered t) (ws : List (Address × Nibble)) :
    (s.writes ws).Reordered (t.writes ws) := by
  induction ws generalizing s t with
  | nil => exact h
  | cons w ws ih => exact ih (h.write w.1 w.2)

/-- The same mapping answers in both spaces. -/
theorem owner?_eq (h : s.Reordered t) (a : Address) : s.owner? a = t.owner? a := by
  apply Option.ext
  intro m
  rw [owner?_eq_some_iff_of_laid h.laid, owner?_eq_some_iff_of_laid (h.laid.perm h.same),
    ← Array.mem_toList_iff, h.same.mem_iff, Array.mem_toList_iff]

/-- Both spaces are read alike. -/
theorem read_eq (h : s.Reordered t) (a : Address) : s.read a = t.read a := by
  rw [read, read, h.owner?_eq a]

/-- Resolution selects the same mapping in both spaces. -/
theorem selected?_eq (h : s.Reordered t) (a : Address) : s.selected? a = t.selected? a := by
  rw [selected?_eq_owner?, selected?_eq_owner?, h.owner?_eq a]

end Reordered

/-! ## Order of registration -/

/-- The mappings of a space that only takes what fits hold addresses, all of them in the space, and
no two of them share an address, so that at most one covers any address; this is so after any
registrations with devices of any sort, successful or not, and any writes between them. From there
on the order in which mappings are registered is of no importance. They can all be registered in one
order exactly if they can in another, and whatever is written then, to both spaces alike, the two
read the same at every address and select mappings with the same range and contents. -/
theorem checked_registration_order_free (h : History fun _ => True)
    (checked : ∀ op ∈ h, op.Checked) (ms ns : List Mapping) (same : ms.Perm ns) :
    let s := h.space
    (∀ m ∈ s.mappings, 0 < m.length ∧ m.stop ≤ addressCount) ∧
    s.mappings.toList.Pairwise (fun m n => ¬ m.Shares n) ∧
    (∀ a : Address, s.mappings.toList.countP (fun m => m.Covers a.toNat) ≤ 1) ∧
    ((∃ t, ms.foldlM tryRegister s = .ok t) ↔ ∃ u, ns.foldlM tryRegister s = .ok u) ∧
    ∀ t u, ms.foldlM tryRegister s = .ok t → ns.foldlM tryRegister s = .ok u →
      ∀ ws a, (t.writes ws).read a = (u.writes ws).read a ∧
        (t.writes ws).selected? a = (u.writes ws).selected? a := by
  intro s
  have hlaid : Laid s.mappings.toList := laid_space checked
  -- The mappings that were there before stay in front in both orders.
  have hperm : (s.mappings.toList ++ ms).Perm (s.mappings.toList ++ ns) := same.append_left _
  refine ⟨?_, hlaid.apart, countP_covers_le_one hlaid.apart, ?_, ?_⟩
  · intro m hm
    have hm' := Array.mem_toList_iff.mpr hm
    exact ⟨hlaid.holds m hm', hlaid.fits m hm'⟩
  · rw [exists_foldlM_tryRegister_iff hlaid, exists_foldlM_tryRegister_iff hlaid]
    exact ⟨fun h => h.perm hperm, fun h => h.perm hperm.symm⟩
  · intro t u ht hu ws a
    -- Both spaces hold what they held and the new mappings, in some order.
    obtain ⟨htlist, htlaid⟩ := (foldlM_tryRegister_eq_ok_iff hlaid).mp ht
    obtain ⟨hulist, -⟩ := (foldlM_tryRegister_eq_ok_iff hlaid).mp hu
    have hreordered : t.Reordered u := ⟨htlist ▸ htlaid, by rw [htlist, hulist]; exact hperm⟩
    exact ⟨(hreordered.writes ws).read_eq a, (hreordered.writes ws).selected?_eq a⟩

/-- Cells and a display, in either order, behind an image and a mapping that was refused. -/
theorem checked_registration_order_free_of_two :
    let cells : Mapping := .ofDevice 0x10 (.ram #[3, 4])
    let display : Mapping := .ofDevice 0x12 .freshDisplay
    let h : History fun _ => True := [.write 1 7,
      .tryRegister (.ofDevice 1 (.zeros 4)) trivial,
      .tryRegister (.ofDevice 0 (.rom ⟨#[0x12]⟩)) trivial]
    let s := h.space
    (∀ op ∈ h, op.Checked) ∧ s.mappings.size = 1 ∧ [cells, display].Perm [display, cells] ∧
      ∃ t u, [cells, display].foldlM tryRegister s = .ok t ∧
        [display, cells].foldlM tryRegister s = .ok u ∧ t ≠ u ∧
        ∀ ws a, (t.writes ws).read a = (u.writes ws).read a := by
  intro cells display h s
  have checked : ∀ op ∈ h, op.Checked := by simp [h, Operation.Checked]
  have same : [cells, display].Perm [display, cells] := .swap ..
  -- The checked registration of four cells was in conflict with the image, so it is not there.
  have hs : s = Space.empty.register (.ofDevice 0 (.rom ⟨#[0x12]⟩)) := by decide +kernel
  have ht : [cells, display].foldlM tryRegister s = .ok ((s.register cells).register display) := by
    rw [hs]
    rfl
  have hu : [display, cells].foldlM tryRegister s = .ok ((s.register display).register cells) := by
    rw [hs]
    rfl
  obtain ⟨-, -, -, -, hread⟩ := checked_registration_order_free h checked [cells, display] _ same
  exact ⟨checked, congrArg (·.mappings.size) hs, same, _, _, ht, hu, by rw [hs]; decide,
    fun ws a => (hread _ _ ht hu ws a).1⟩

end Space

end NandMachine
