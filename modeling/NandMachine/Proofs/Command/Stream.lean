import NandMachine.Proofs.Command.Session

/-!
# Sessions as they are written

A session that is written stretch by stretch comes to the same outcome as a session that is reported
as a whole. Where the stretches end has no influence: only the number of steps that all of them
take together counts, and the events of all stretches in a row are those of the whole run.

## Key results

- `Progress.exists_finish_iff`: what a run in stretches comes to, in terms of its steps
- `exists_runMachine_iff`: the same for a run as a whole
- `exists_streamed_iff`: a session has the same outcome either way
-/

namespace NandMachine

namespace Machine

/-! ## Steps in a row -/

/-- A number of steps adds the same events to every journal, also where it ends with a fault. -/
theorem exists_runFor (k : Nat) (m : Machine) :
    ∃ f m' es, ∀ j, runFor k m j = (f, m', j.add es) := by
  induction k generalizing m with
  | zero => exact ⟨none, m, [], fun _ => rfl⟩
  | succ k ih =>
    cases hres : m.step.result with
    | error f => exact ⟨some f, m.step.machine, m.step.events, fun j => by simp only [runFor, hres]⟩
    | ok i =>
      obtain ⟨f, m', es, hrun⟩ := ih m.step.machine
      refine ⟨f, m', m.step.events ++ es, fun j => ?_⟩
      simp only [runFor, hres, hrun, Journal.add_append]

/-- Behind a fault there are no further steps. -/
theorem runFor_add_of_fault {k : Nat} {m m' : Machine} {j j' : Journal} {f : Fault}
    (h : runFor k m j = (some f, m', j')) (more : Nat) :
    runFor (k + more) m j = (some f, m', j') := by
  rw [runFor_add, h]

/-- A run under a host that never raises the flag takes as many steps as it has fuel for, and comes
to an end only by a fault. -/
theorem runWhile_never (fuel : Nat) (m : Machine) (j : Journal) :
    runWhile .never fuel () m j =
      match runFor fuel m j with
      | (some f, m', j') => some (some f, m', j')
      | (none, _, _) => none := by
  -- Without a flag each check is one step.
  induction fuel generalizing m j with
  | zero => rfl
  | succ fuel ih =>
    have hraised : Host.never.raised () = false := rfl
    simp only [runWhile, runFor, hraised, Bool.false_eq_true, if_false]
    cases m.step.result with
    | error f => rfl
    | ok i => exact ih m.step.machine (j.add m.step.events)

end Machine

namespace Command

/-! ## Stretches -/

namespace Progress

/-- The run comes to an end after a number of steps: as many as it has left, or, without a limit, as
lead to a fault. The events are those that the steps add to any journal. -/
structure EndsAfter (p : Progress) (k : Nat) (fault : Option Fault) (m : Machine)
    (events : List Event) : Prop where
  enough : p.left = some k ∨ p.left = none ∧ fault ≠ none
  taken : ∀ j, p.now.runFor k j = (fault, m, j.add events)

/-- The lines of the events that a log keeps. -/
def lines (least : Option Level) (events : List Event) : List String :=
  journalLines ((Journal.empty least).add events)

/-- The lines of events in a row are lines in a row. -/
theorem lines_append (least : Option Level) (es fs : List Event) :
    lines least (es ++ fs) = lines least es ++ lines least fs := by
  have hkeeps : ∀ l, ((Journal.empty least).add es).keeps l = (Journal.empty least).keeps l := by
    intro l
    rw [Journal.keeps, Journal.threshold_add, Journal.keeps]
  have hempty : journalLines (Journal.empty least) = [] := rfl
  simp only [lines, Journal.add_append, journalLines_add, hkeeps, hempty, List.nil_append]

variable {p : Progress} {least : Option Level} {k k' : Nat} {f f' : Option Fault}
  {m m' : Machine} {es es' : List Event}

/-- The next stretch takes no more steps than there are left. -/
theorem steps_le (h : p.left = some k) : p.steps ≤ k := by
  rw [steps, h]
  exact Nat.min_le_left k stride

/-- A stretch without steps is the last one. -/
theorem steps_pos (h : p.left ≠ some p.steps) : 0 < p.steps := by
  unfold steps at h ⊢
  cases hleft : p.left with
  | none => decide
  | some k =>
    simp only [hleft, Option.elim_some, ne_eq, Option.some.injEq, stride] at h ⊢
    omega

/-- A run comes to one end only. -/
theorem EndsAfter.unique (h : p.EndsAfter k f m es) (h' : p.EndsAfter k' f' m' es') :
    f = f' ∧ m = m' ∧ ∀ j : Journal, j.add es = j.add es' := by
  -- Both numbers of steps come to the same.
  have same : ∀ j, p.now.runFor k j = p.now.runFor k' j := by
    intro j
    rcases h.enough with hk | ⟨hnone, hf⟩
    · rcases h'.enough with hk' | ⟨hnone', -⟩
      · rw [Option.some.inj (hk.symm.trans hk')]
      · exact absurd (hk.symm.trans hnone') (by simp)
    · rcases h'.enough with hk' | ⟨-, hf'⟩
      · exact absurd (hk'.symm.trans hnone) (by simp)
      · -- Both numbers of steps lead to a fault, and it stops whichever takes more of them.
        obtain ⟨g, rfl⟩ := Option.ne_none_iff_exists'.mp hf
        obtain ⟨g', rfl⟩ := Option.ne_none_iff_exists'.mp hf'
        rcases Nat.le_total k k' with hle | hle
        · obtain ⟨d, rfl⟩ := Nat.exists_eq_add_of_le hle
          rw [Machine.runFor_add_of_fault (h.taken j), h.taken j]
        · obtain ⟨d, rfl⟩ := Nat.exists_eq_add_of_le hle
          rw [Machine.runFor_add_of_fault (h'.taken j), h'.taken j]
  have heq : ∀ j : Journal, f = f' ∧ m = m' ∧ j.add es = j.add es' := by
    intro j
    have hj := same j
    rw [h.taken, h'.taken] at hj
    simpa only [Prod.mk.injEq] using hj
  exact ⟨(heq (.empty none)).1, (heq (.empty none)).2.1, fun j => (heq j).2.2⟩

/-- A run ends with a stretch that faults, or that takes all steps that are left. -/
theorem exists_endsAfter (taken : ∀ j, p.now.runFor p.steps j = (f, m, j.add es))
    (last : f ≠ none ∨ p.left = some p.steps) : ∃ k, p.EndsAfter k f m es := by
  cases hleft : p.left with
  | none =>
    have hf : f ≠ none := last.resolve_right (by rw [hleft]; simp)
    exact ⟨p.steps, .inr ⟨hleft, hf⟩, taken⟩
  | some k =>
    refine ⟨k, .inl hleft, fun j => ?_⟩
    rcases last with hf | hk
    · -- The steps that the stretch leaves over come behind the fault.
      obtain ⟨g, rfl⟩ := Option.ne_none_iff_exists'.mp hf
      obtain ⟨d, rfl⟩ := Nat.exists_eq_add_of_le (steps_le hleft)
      exact Machine.runFor_add_of_fault (taken j) d
    · rw [Option.some.inj (hleft.symm.trans hk)]
      exact taken j

/-- The steps of a stretch come in front of those that are taken behind it. -/
theorem EndsAfter.of_behind (h : (p.behind m).EndsAfter k f m' es')
    (taken : ∀ j, p.now.runFor p.steps j = (none, m, j.add es)) :
    p.EndsAfter (p.steps + k) f m' (es ++ es') where
  enough := by
    rcases h.enough with hk | ⟨hnone, hf⟩
    · -- What is left behind the stretch is the limit less its steps.
      obtain ⟨n, hn, hsub⟩ := Option.map_eq_some_iff.mp hk
      have hle := steps_le hn
      refine .inl (hn.trans (congrArg some ?_))
      omega
    · exact .inr ⟨Option.map_eq_none_iff.mp hnone, hf⟩
  taken j := by
    rw [Machine.runFor_add, taken]
    exact (h.taken (j.add es)).trans (by rw [Journal.add_append])

/-- What is left of a run behind its first stretch, if that is not the last one. -/
theorem EndsAfter.behind (h : p.EndsAfter k f m es)
    (taken : ∀ j, p.now.runFor p.steps j = (none, m', j.add es')) :
    p.steps ≤ k ∧ ∃ fs, (p.behind m').EndsAfter (k - p.steps) f m fs := by
  have hle : p.steps ≤ k := by
    rcases h.enough with hk | ⟨-, hf⟩
    · exact steps_le hk
    · -- Otherwise the stretch would have met the fault.
      obtain ⟨g, rfl⟩ := Option.ne_none_iff_exists'.mp hf
      apply Nat.le_of_not_lt
      intro hlt
      obtain ⟨d, hd⟩ := Nat.exists_eq_add_of_le (Nat.le_of_lt hlt)
      have hfault := Machine.runFor_add_of_fault (h.taken (.empty none)) d
      rw [← hd, taken] at hfault
      simp at hfault
  obtain ⟨g, n, fs, hrest⟩ := Machine.exists_runFor (k - p.steps) m'
  have hall := h.taken (.empty none)
  rw [← Nat.add_sub_of_le hle, Machine.runFor_add, taken] at hall
  obtain ⟨rfl, rfl, -⟩ : g = f ∧ n = m ∧ _ := by
    simpa only [hrest, Prod.mk.injEq] using hall
  refine ⟨hle, fs, ?_, hrest⟩
  rcases h.enough with hk | ⟨hnone, hf⟩
  · exact .inl (congrArg (Option.map (· - p.steps)) hk)
  · exact .inr ⟨congrArg (Option.map (· - p.steps)) hnone, hf⟩

/-- A stretch, by what its steps come to. -/
theorem advance_eq (taken : ∀ j, p.now.runFor p.steps j = (f, m, j.add es)) :
    p.advance least = (lines least es,
      if f.isSome || p.left = some p.steps then .inl (p.ended least f m)
      else .inr (p.behind m)) := by
  rw [advance, taken]
  rfl

/-- A run ends with its last stretch, which may be the first one. -/
theorem finish_of_last (taken : ∀ j, p.now.runFor p.steps j = (f, m, j.add es))
    (last : f ≠ none ∨ p.left = some p.steps) (n : Nat) :
    p.finish least (n + 1) = some (lines least es, p.ended least f m) := by
  have hdone : (f.isSome || decide (p.left = some p.steps)) = true := by
    simpa [Option.isSome_iff_ne_none] using last
  rw [finish, advance_eq taken, if_pos hdone]

/-- A run goes on behind any other stretch, with the lines of the stretch in front. -/
theorem finish_of_not_last (taken : ∀ j, p.now.runFor p.steps j = (none, m, j.add es))
    (more : p.left ≠ some p.steps) (n : Nat) :
    p.finish least (n + 1) =
      ((p.behind m).finish least n).map fun rest => (lines least es ++ rest.1, rest.2) := by
  have hgoes : ¬ ((none : Option Fault).isSome || decide (p.left = some p.steps)) = true := by
    simpa using more
  rw [finish, advance_eq taken, if_neg hgoes]

/-- Whatever a run in stretches comes to, its steps come to it. -/
theorem exists_endsAfter_of_finish {n : Nat} {out : List String} {r : Run}
    (h : p.finish least n = some (out, r)) :
    ∃ k f m es, p.EndsAfter k f m es ∧ out = lines least es ∧ r = p.ended least f m := by
  -- By induction on the stretches; what is left behind the first one is a run of its own.
  induction n generalizing p out r with
  | zero => exact nomatch h
  | succ n ih =>
    obtain ⟨f, m, es, taken⟩ := Machine.exists_runFor p.steps p.now
    by_cases hlast : f ≠ none ∨ p.left = some p.steps
    · obtain ⟨k, hk⟩ := exists_endsAfter taken hlast
      rw [finish_of_last taken hlast, Option.some.injEq, Prod.mk.injEq] at h
      exact ⟨k, f, m, es, hk, h.1.symm, h.2.symm⟩
    · obtain ⟨hf, hleft⟩ := not_or.mp hlast
      obtain rfl : f = none := Classical.not_not.mp hf
      rw [finish_of_not_last taken hleft] at h
      obtain ⟨⟨more, r'⟩, hmore, heq⟩ := Option.map_eq_some_iff.mp h
      obtain ⟨k, f, m', fs, hk, rfl, rfl⟩ := ih hmore
      simp only [Prod.mk.injEq] at heq
      exact ⟨_, f, m', es ++ fs, hk.of_behind taken, by rw [lines_append, heq.1], heq.2.symm⟩

/-- Whatever the steps of a run come to, there are stretches enough to get there. -/
theorem exists_finish_of_endsAfter (h : p.EndsAfter k f m es) :
    ∃ n, p.finish least n = some (lines least es, p.ended least f m) := by
  -- By induction on the steps, of which every stretch but the last one takes some.
  induction k using Nat.strongRecOn generalizing p es with
  | ind k ih =>
    obtain ⟨g, m', fs, taken⟩ := Machine.exists_runFor p.steps p.now
    by_cases hlast : g ≠ none ∨ p.left = some p.steps
    · -- The first stretch is the last one, and comes to the only end that there is.
      obtain ⟨k', hk'⟩ := exists_endsAfter taken hlast
      obtain ⟨rfl, rfl, hlog⟩ := h.unique hk'
      exact ⟨1, by rw [finish_of_last taken hlast, lines, lines, hlog]⟩
    · obtain ⟨hg, hleft⟩ := not_or.mp hlast
      obtain rfl : g = none := Classical.not_not.mp hg
      obtain ⟨hle, gs, hbehind⟩ := h.behind taken
      have hpos := steps_pos hleft
      obtain ⟨n, hn⟩ := ih (k - p.steps) (by omega) hbehind
      -- Both stretches together come to the same end, so they report the same.
      obtain ⟨-, -, hlog⟩ := h.unique (hbehind.of_behind taken)
      have hlines : lines least es = lines least fs ++ lines least gs := by
        rw [← lines_append, lines, lines, hlog]
      refine ⟨n + 1, ?_⟩
      rw [finish_of_not_last taken hleft, hn, hlines]
      rfl

/-- What a run in stretches comes to, in terms of its steps. -/
theorem exists_finish_iff {out : List String} {r : Run} :
    (∃ n, p.finish least n = some (out, r)) ↔
      ∃ k f m es, p.EndsAfter k f m es ∧ out = lines least es ∧ r = p.ended least f m := by
  constructor
  · rintro ⟨n, h⟩
    exact exists_endsAfter_of_finish h
  · rintro ⟨k, f, m, es, h, hout, hr⟩
    rw [hout, hr]
    exact exists_finish_of_endsAfter h

end Progress

/-! ## Runs as a whole -/

/-- What a run comes to as a whole, in terms of its steps. -/
theorem exists_runMachine_iff {o : Options} {m : Machine} {j : Journal} {r : Run} :
    (∃ fuel, runMachine o fuel m j = some r) ↔
      ∃ k f m' es, (Progress.start o m).EndsAfter k f m' es ∧
        r = { (Progress.start o m).ended none f m' with journal := j.add es } := by
  have hleft : (Progress.start o m).left = o.maxCycles.map m.budget := rfl
  -- With a limit the number of steps is given, and without one it is that of the fault.
  cases hlimit : o.maxCycles with
  | some limit =>
    rw [hlimit] at hleft
    obtain ⟨f, m', es, hrun⟩ := Machine.exists_runFor (m.budget limit) m
    have hends : (Progress.start o m).EndsAfter (m.budget limit) f m' es := ⟨.inl hleft, hrun⟩
    have hr : m.runLimited limit j =
        { (Progress.start o m).ended none f m' with journal := j.add es } := by
      rw [Machine.runLimited, hrun]
      cases f <;> rfl
    simp only [runMachine, hlimit, exists_const, Option.some.injEq, hr]
    constructor
    · intro h
      exact ⟨m.budget limit, f, m', es, hends, h.symm⟩
    · rintro ⟨k, g, n, fs, h, hout⟩
      obtain ⟨rfl, rfl, hlog⟩ := hends.unique h
      rw [hout, hlog]
  | none =>
    rw [hlimit] at hleft
    simp only [runMachine, hlimit, Machine.run, Machine.runWhile_never]
    constructor
    · rintro ⟨fuel, h⟩
      obtain ⟨f, m', es, hrun⟩ := Machine.exists_runFor fuel m
      rw [hrun] at h
      cases f with
      | none => cases h
      | some f =>
        exact ⟨fuel, some f, m', es, ⟨.inr ⟨hleft, by simp⟩, hrun⟩, (Option.some.inj h).symm⟩
    · rintro ⟨k, f, m', es, h, hout⟩
      rcases h.enough with hk | ⟨-, hf⟩
      · exact absurd (hleft.symm.trans hk) (by simp)
      · -- The fault is met with as much fuel as there are steps.
        obtain ⟨g, rfl⟩ := Option.ne_none_iff_exists'.mp hf
        have htaken : m.runFor k j = (some g, m', j.add es) := h.taken j
        refine ⟨k, ?_⟩
        rw [htaken, hout]
        rfl

/-! ## Sessions -/

/-- The lines of a run in stretches stand behind those in front of the run, and before its end, as
they do in the log of a whole session. -/
theorem conclude_ended (o : Options) (p : Progress) (least : Option Level) (f : Option Fault)
    (m : Machine) (opening es : List Event) :
    let outcome := conclude o (p.ended least f m)
    ({ outcome with
        stderr := Progress.lines least opening ++ Progress.lines least es ++ outcome.stderr } =
      conclude o { p.ended none f m with
        journal := ((Journal.empty least).add opening).add es }) := by
  intro outcome
  have hlog : journalLines (((Journal.empty least).add opening).add es) =
      Progress.lines least opening ++ Progress.lines least es := by
    rw [← Journal.add_append]
    exact Progress.lines_append least opening es
  -- A fault has been reported within the run, and success is reported behind it.
  cases f with
  | some f =>
    show Outcome.mk 1 (finalOutput o m) _ = Outcome.mk 1 (finalOutput o m) (_ ++ _)
    rw [hlog]
    rfl
  | none =>
    -- The last event of the session is reported behind the run.
    let last := ending o (m.cycles - p.first.cycles)
    have hlast : journalLines ((((Journal.empty least).add opening).add es).add [last]) =
        Progress.lines least opening ++ Progress.lines least es ++
          Progress.lines least [last] := by
      rw [← Journal.add_append, ← Journal.add_append, ← Progress.lines_append,
        ← Progress.lines_append, List.append_assoc]
      rfl
    show Outcome.mk 0 (finalOutput o m) _ = Outcome.mk 0 (finalOutput o m) _
    rw [hlast]
    rfl

/-- A session that is written stretch by stretch has the same outcome as a session that is reported
as a whole: exit status, output, and all reports in their order. -/
theorem exists_streamed_iff (files : FileReader) (least : Option Level) (o : Options)
    (out : Outcome) :
    (∃ n, streamed files least n o = some out) ↔ ∃ fuel, session files least fuel o = some out := by
  unfold streamed session opening
  rcases boot files o with ⟨e | m, events⟩
  · rfl
  · simp only [Option.map_eq_some_iff, Prod.exists]
    constructor
    · -- The steps that the stretches take together are those of one run.
      rintro ⟨n, more, r, hfinish, hout⟩
      obtain ⟨k, f, m', es, hends, rfl, rfl⟩ := Progress.exists_finish_iff.mp ⟨n, hfinish⟩
      obtain ⟨fuel, hrun⟩ := exists_runMachine_iff.mpr ⟨k, f, m', es, hends, rfl⟩
      exact ⟨fuel, _, hrun, (conclude_ended ..).symm.trans hout⟩
    · -- And the steps of one run can be divided into stretches.
      rintro ⟨fuel, r, hrun, hout⟩
      obtain ⟨k, f, m', es, hends, rfl⟩ := exists_runMachine_iff.mp ⟨fuel, hrun⟩
      obtain ⟨n, hfinish⟩ := Progress.exists_finish_iff.mpr ⟨k, f, m', es, hends, rfl, rfl⟩
      exact ⟨n, _, _, hfinish, (conclude_ended ..).trans hout⟩

end Command

end NandMachine
