import NandMachine.Proofs.Memory.Received

/-!
# Displays

What a machine shows goes through displays: each keeps the nibble that was written to it last and
counts its writes, and every write that reaches one is reported. So there are three records of the
same writes, and they agree: what the displays keep and count is what they have received, and the
report has a message for each write that one of them received.

## Key results

- `display_of_history`: what a display keeps and counts
- `output_of_history`: the output of a space
- `info_events_of_history`: the report names the writes that went to displays
- `counted_of_history`: the counts add up to the number of these writes
- `displays_are_faithful`: all of this together
-/

namespace NandMachine

/-- The number of writes that a display has counted. -/
def Device.count : Device → Nat
  | rom _ | ram _ => 0
  | display _ writes => writes.toNat

/-- A device that nothing has been written to has counted nothing. -/
theorem Device.count_of_fresh {d : Device} (fresh : d.Fresh) : d.count = 0 := by
  cases fresh <;> rfl

/-- A display counts a write, if its count has room for one more. -/
theorem Device.count_write {d : Device} (room : d.count + 1 < UInt64.size) (offset : Nat)
    (n : Nibble) : (d.write offset n).count = d.count + if d.kind = .display then 1 else 0 := by
  cases d with
  | rom image => rfl
  | ram cells => rfl
  | display value writes =>
    have hone : (1 : UInt64).toNat = 1 := rfl
    -- The count goes around at its end, which the hypothesis keeps it from.
    show (writes + 1).toNat = writes.toNat + 1
    rw [UInt64.toNat_add, hone]
    exact Nat.mod_eq_of_lt room

/-- A display shows something, and no other device does. -/
theorem Device.output_eq_none_iff {d : Device} : d.output = none ↔ d.kind ≠ .display := by
  cases d <;> simp [output, kind]

namespace Space

/-! ## Displays -/

/-- The nibble that was written last, and zero if there is none. -/
def lastNibble (ws : List (Address × Nibble)) : Nibble := (ws.head?.map Prod.snd).getD 0

/-- A new display keeps the last one of the writes that it gets, and counts them. -/
theorem foldr_write_freshDisplay (offset : Address → Nat) (ws : List (Address × Nibble)) :
    ws.foldr (fun w d => d.write (offset w.1) w.2) Device.freshDisplay =
      .display (lastNibble ws) (.ofNat ws.length) := by
  -- The latest write comes first in the list, and it is the one that is kept.
  induction ws with
  | nil => rfl
  | cons w ws ih =>
    rw [List.foldr_cons, ih, Device.write, List.length_cons, UInt64.ofNat_add]
    rfl

/-- A display without what was written to it is a new one. -/
theorem freshDisplay_of_blank {d e : Device} (h : d.blank = e) (hkind : e.kind = .display) :
    e = .freshDisplay := by
  subst h
  cases d with
  | rom image => exact nomatch hkind
  | ram cells => exact nomatch hkind
  | display value writes => rfl

/-- A display of the chronicle holds the write that it received last, and counts all of them. -/
theorem device_of_display (h : History Device.Fresh) {i : Nat} {e : Entry}
    (he : h.chronicle[i]? = some e) (hkind : e.mapping.device.kind = .display) :
    (current h.chronicle i e).device =
      .display (lastNibble (received h.chronicle i)) (.ofNat (received h.chronicle i).length) := by
  have hblank := (follows_chronicle h).lists.getElem?_blank i
  rw [he, Option.map_some] at hblank
  obtain ⟨m, -, hm⟩ := Option.map_eq_some_iff.mp hblank
  -- It was registered as a new display, so all that it holds was written to it.
  have hfresh := freshDisplay_of_blank (congrArg Mapping.device hm) hkind
  rw [current, hfresh]
  exact foldr_write_freshDisplay (fun a => a.toNat - e.mapping.base.toNat) _

/-- What a display of the space keeps is the nibble that it received last, and what it counts are
the writes that it received. -/
theorem display_of_history (h : History Device.Fresh) {i : Nat} {m : Mapping} {value : Nibble}
    {writes : UInt64} (hm : h.space.mappings[i]? = some m) (hd : m.device = .display value writes) :
    value = lastNibble (received h.chronicle i) ∧
      writes = .ofNat (received h.chronicle i).length := by
  rw [getElem?_mappings_space] at hm
  obtain ⟨e, he, rfl⟩ := Option.map_eq_some_iff.mp hm
  have hkind : e.mapping.device.kind = .display := by rw [← kind_current h.chronicle i, hd]; rfl
  rw [device_of_display h he hkind, Device.display.injEq] at hd
  exact ⟨hd.1.symm, hd.2.symm⟩

/-- A display shows the nibble that it received last, and no other device shows anything. -/
theorem output_current (h : History Device.Fresh) {i : Nat} {e : Entry}
    (he : h.chronicle[i]? = some e) :
    (current h.chronicle i e).device.output =
      if e.mapping.device.kind = .display then some (lastNibble (received h.chronicle i))
      else none := by
  by_cases hkind : e.mapping.device.kind = .display
  · rw [if_pos hkind, device_of_display h he hkind]
    rfl
  · rw [if_neg hkind, Device.output_eq_none_iff, kind_current]
    exact hkind

/-- The output of a space is what the display that was registered first has received last. -/
theorem output_of_history (h : History Device.Fresh) :
    h.space.output = (h.chronicle.findIdx? fun e => e.mapping.device.kind = .display).map
      fun i => lastNibble (received h.chronicle i) := by
  rw [output, ← Array.findSome?_toList, toList_mappings_space]
  -- The first display of the space stands where that of the chronicle does.
  cases hfind : h.chronicle.findIdx? fun e => e.mapping.device.kind = .display with
  | none =>
    rw [List.findIdx?_eq_none_iff] at hfind
    rw [Option.map_none, List.findSome?_eq_none_iff]
    intro m hm
    obtain ⟨i, hi, rfl⟩ := List.mem_mapIdx.mp hm
    have hkind := hfind _ (List.getElem_mem hi)
    rw [output_current h (List.getElem?_eq_getElem hi), if_neg (by simpa using hkind)]
  | some i =>
    obtain ⟨hi, hkind, hbefore⟩ := List.findIdx?_eq_some_iff_getElem.mp hfind
    have hlen : i < (h.chronicle.mapIdx (current h.chronicle)).length := by
      rw [List.length_mapIdx]
      exact hi
    rw [Option.map_some, List.findSome?_eq_some_iff]
    refine ⟨_, _, _, (List.take_append_drop i _).symm.trans
      (congrArg _ (List.drop_eq_getElem_cons hlen)), ?_, ?_⟩
    · rw [List.getElem_mapIdx, output_current h (List.getElem?_eq_getElem hi),
        if_pos (by simpa using hkind)]
    · -- None of the mappings in front is a display.
      intro m hm
      obtain ⟨j, hj, rfl⟩ := List.mem_take_iff_getElem.mp hm
      have hji : j < i := by omega
      rw [List.getElem_mapIdx,
        output_current h (List.getElem?_eq_getElem (Nat.lt_trans hji hi)),
        if_neg (by simpa using hbefore j hji)]

/-! ## The report -/

/-- What an operation on a space reports. -/
def report {Allowed : Device → Prop} (s : Space) : Operation Allowed → List Event
  | .register m _ => [m.event]
  | .tryRegister m _ =>
    match s.tryRegister m with
    | .ok _ => [m.event]
    | .error _ => []
  | .write a n => s.writeEvents a n

/-- The earliest entry that covers an address is a display. -/
def showsAt (es : List Entry) (a : Address) : Bool :=
  (es.find? fun e => e.mapping.Covers a.toNat).any fun e => e.mapping.device.kind = .display

namespace History

/-- All that was reported in a history, the earliest report first. -/
def events : History Device.Fresh → List Event
  | [] => []
  | op :: earlier => events earlier ++ (space earlier).report op

/-- The nibbles of the writes that a display answered for, the earliest one first. -/
def displayed : History Device.Fresh → List Nibble
  | [] => []
  | .register _ _ :: earlier => displayed earlier
  | .tryRegister _ _ :: earlier => displayed earlier
  | .write a n :: earlier =>
    displayed earlier ++ if showsAt (chronicle earlier) a then [n] else []

/-- The number of writes in a history, to whatever addresses. -/
def writeCount : History Device.Fresh → Nat
  | [] => 0
  | .register _ _ :: earlier => writeCount earlier
  | .tryRegister _ _ :: earlier => writeCount earlier
  | .write _ _ :: earlier => writeCount earlier + 1

/-- No more nibbles are displayed than are written. -/
theorem length_displayed_le (h : History Device.Fresh) : h.displayed.length ≤ h.writeCount := by
  induction h with
  | nil => exact Nat.le_refl 0
  | cons op earlier ih =>
    cases op with
    | register m fresh => exact ih
    | tryRegister m fresh => exact ih
    | write a n =>
      rw [displayed, writeCount, List.length_append]
      split
      · exact Nat.add_le_add_right ih 1
      · exact Nat.le_add_right_of_le ih

end History

/-- The same mapping answers when what was written is forgotten. -/
theorem owner?_blank (s : Space) (a : Address) :
    s.blank.owner? a = (s.owner? a).map Mapping.blank := by
  rw [owner?, blank, Array.find?_map]
  rfl

/-- A display answers for an address of the space exactly if one does in the chronicle. -/
theorem Lists.showsAt_eq {s : Space} {es : List Entry} (h : s.Lists es) (a : Address) :
    ((s.owner? a).any fun m => m.device.kind = .display) = showsAt es a := by
  have howner : (s.owner? a).map Mapping.blank =
      (es.find? fun e => e.mapping.Covers a.toNat).map Entry.mapping := by
    rw [← owner?_blank, h, owner?, List.find?_toArray, List.find?_map]
    rfl
  -- To forget what was written to a display leaves a display.
  have hkind : ∀ o : Option Mapping, (o.map Mapping.blank).any (fun m => m.device.kind = .display) =
      o.any fun m => m.device.kind = .display := by
    intro o
    simp only [Option.any_map, Mapping.blank, Device.kind_blank]
  rw [← hkind, howner, Option.any_map]
  rfl

/-- Of all that a write can report, only a write to a display has the level `info`. -/
theorem info_writeEvents (s : Space) (a : Address) (n : Nibble) :
    (s.writeEvents a n).filter (fun e => e.level = .info) =
      if (s.owner? a).any fun m => m.device.kind = .display then [.displayWrite n] else [] := by
  cases ho : s.owner? a with
  | none => simp [writeEvents, ho, Event.level]
  | some m =>
    -- A write to an image warns; one past the end of cells, or to no mapping, is reported below
    -- `info`.
    cases hd : m.device with
    | rom image => simp [writeEvents, ho, hd, Device.outcome, Device.kind, Event.level]
    | display value writes => simp [writeEvents, ho, hd, Device.outcome, Device.kind, Event.level]
    | ram cells =>
      simp only [writeEvents, ho, hd, Device.outcome, Device.kind]
      split <;> simp_all [Event.level]

/-- What was reported at the level `info` are the nibbles that went to displays, in order. -/
theorem info_events_of_history (h : History Device.Fresh) :
    h.events.filter (fun e => e.level = .info) = h.displayed.map .displayWrite := by
  -- A registration reports below `info`, and a write as the lemma above says.
  induction h with
  | nil => rfl
  | cons op earlier ih =>
    rw [History.events, List.filter_append, ih]
    cases op with
    | register m fresh => exact List.append_nil _
    | tryRegister m fresh =>
      rw [report]
      split <;> exact List.append_nil _
    | write a n =>
      rw [report, info_writeEvents, (follows_chronicle earlier).lists.showsAt_eq,
        History.displayed, List.map_append]
      split <;> rfl

/-! ## The counts -/

/-- All that the displays of a list of mappings have counted together. -/
def countAll (ms : List Mapping) : Nat := ms.foldr (fun m n => m.device.count + n) 0

/-- All that the displays of a space have counted together. -/
def counted (s : Space) : Nat := countAll s.mappings.toList

theorem countAll_cons (m : Mapping) (ms : List Mapping) :
    countAll (m :: ms) = m.device.count + countAll ms := rfl

/-- The counts of two lists add up. -/
theorem countAll_append (ms ns : List Mapping) :
    countAll (ms ++ ns) = countAll ms + countAll ns := by
  induction ms with
  | nil => exact (Nat.zero_add _).symm
  | cons m ms ih => rw [List.cons_append, countAll_cons, countAll_cons, ih, Nat.add_assoc]

/-- No entry notes more writes than there were. -/
theorem length_writes_le (h : History Device.Fresh) :
    ∀ e ∈ h.chronicle, e.writes.length ≤ h.writeCount := by
  induction h with
  | nil => exact fun e he => nomatch he
  | cons op earlier ih =>
    -- A new entry has no writes, and the earlier ones are as they were.
    have hmore : ∀ m, ∀ e ∈ History.chronicle earlier ++ [Entry.ofMapping m],
        e.writes.length ≤ History.writeCount earlier := by
      intro m e he
      rcases List.mem_append.mp he with hold | hnew
      · exact ih e hold
      · rw [List.mem_singleton.mp hnew]
        exact Nat.zero_le _
    cases op with
    | register m fresh => exact hmore m
    | tryRegister m fresh =>
      rw [History.chronicle]
      split
      · exact hmore m
      · exact ih
    | write a n =>
      intro e he
      obtain ⟨f, hf, rfl⟩ := List.mem_map.mp he
      exact Nat.succ_le_succ (ih f hf)

/-- No mapping receives more writes than there were. -/
theorem length_received_le (h : History Device.Fresh) (i : Nat) :
    (received h.chronicle i).length ≤ h.writeCount := by
  rw [received]
  split
  · next e he =>
    exact Nat.le_trans (List.length_filter_le ..) (length_writes_le h e (List.mem_of_getElem? he))
  · exact Nat.zero_le _

/-- A new mapping has counted nothing yet. -/
theorem counted_register {m : Mapping} (s : Space) (fresh : m.device.Fresh) :
    (s.register m).counted = s.counted := by
  rw [counted, register, Array.toList_push, countAll_append, countAll_cons,
    Device.count_of_fresh fresh]
  rfl

/-- A write is counted once if a display answers for it, and otherwise not at all. -/
theorem counted_write {s : Space} (room : s.counted + 1 < UInt64.size) (b : Address) (n : Nibble) :
    (s.write b n).counted =
      s.counted + if (s.owner? b).any fun m => m.device.kind = .display then 1 else 0 := by
  rcases resolve_cases s b with hnone | ⟨j, m, hfirst⟩
  · rw [write_of_resolve_eq_none hnone, resolve_eq_none_iff.mp hnone]
    rfl
  · -- The mapping that answers is one of the list; those in front and behind count what they did.
    obtain ⟨before, after, hsplit, hwrite⟩ := hfirst.exists_split n
    have hcount : s.counted = countAll before + (m.device.count + countAll after) := by
      rw [counted, hsplit, countAll_append, countAll_cons]
    rw [counted, hwrite, countAll_append, countAll_cons, Mapping.write,
      Device.count_write (by omega), owner?_of_first hfirst, Option.any_some, hcount]
    simp only [decide_eq_true_eq]
    omega

/-- As long as no count starts again at zero, the displays have counted what they have shown. -/
theorem counted_of_history (h : History Device.Fresh) (room : h.writeCount < UInt64.size) :
    h.space.counted = h.displayed.length := by
  induction h with
  | nil => rfl
  | cons op earlier ih =>
    cases op with
    | register m fresh => exact (counted_register _ fresh).trans (ih room)
    | tryRegister m fresh =>
      rw [History.space, (follows_chronicle earlier).lists.perform_tryRegister fresh]
      split
      · exact (counted_register _ fresh).trans (ih room)
      · exact ih room
    | write a n =>
      have hle := History.length_displayed_le earlier
      have hcounted := ih (Nat.lt_of_succ_lt room)
      -- No more has been displayed than was written, so the counts have room.
      have hroom : (History.space earlier).counted + 1 < UInt64.size := by
        rw [hcounted]
        exact Nat.lt_of_le_of_lt (Nat.add_le_add_right hle 1) room
      rw [History.space, perform, counted_write hroom, hcounted,
        (follows_chronicle earlier).lists.showsAt_eq, History.displayed, List.length_append]
      split <;> rfl

/-! ## Displays and their history -/

/-- Displays tell what was written to them. After fewer writes than a count can hold, each display
has counted exactly the writes since its registration to addresses that no earlier mapping covers,
and keeps the last of them. The output of the space is what the first display keeps. At the level
`info` the report has one message for each write that a display answered for, with its nibble, in
order, and there are as many of them as all displays together have counted. -/
theorem displays_are_faithful (h : History Device.Fresh) (room : h.writeCount < UInt64.size) :
    (∀ i m value writes, h.space.mappings[i]? = some m → m.device = .display value writes →
      writes.toNat = (received h.chronicle i).length ∧
      value = lastNibble (received h.chronicle i)) ∧
    h.space.output = ((h.chronicle.findIdx? fun e => e.mapping.device.kind = .display).map
      fun i => lastNibble (received h.chronicle i)) ∧
    h.events.filter (fun e => e.level = .info) = h.displayed.map .displayWrite ∧
    (h.events.filter fun e => e.level = .info).map Event.message =
      h.displayed.map (fun n => "wrote " ++ n.digit ++ " to DBGOUT") ∧
    h.displayed.length = h.space.counted := by
  refine ⟨?_, output_of_history h, info_events_of_history h, ?_, ?_⟩
  · intro i m value writes hm hd
    obtain ⟨hvalue, hwrites⟩ := display_of_history h hm hd
    -- The number of writes fits into a count, so it is not reduced.
    have hle := length_received_le h i
    refine ⟨?_, hvalue⟩
    rw [hwrites, UInt64.toNat_ofNat']
    exact Nat.mod_eq_of_lt (Nat.lt_of_le_of_lt hle room)
  · rw [info_events_of_history, List.map_map]
    rfl
  · exact (counted_of_history h room).symm

/-- A display over four addresses, of which the second display gets none, and a third that is
refused. -/
theorem displays_are_faithful_of_wide :
    let h : History Device.Fresh := [.write 0x11 9, .write 0x20 3,
      .tryRegister (.ofDevice 0x12 .freshDisplay) .display, .write 0x10 5,
      .register (.ofDevice 0x10 .freshDisplay) .display, .write 0x12 7,
      .register ⟨0x10, 4, .freshDisplay⟩ .display]
    h.writeCount < UInt64.size ∧ h.space.output = some 9 ∧ h.space.counted = 3 ∧
      h.events.filter (fun e => e.level = .info) =
        [.displayWrite 7, .displayWrite 5, .displayWrite 9] := by
  intro h
  have room : h.writeCount < UInt64.size := by decide
  obtain ⟨-, houtput, hinfo, -, hcounted⟩ := displays_are_faithful h room
  exact ⟨room, houtput.trans (by decide), hcounted.symm.trans (by decide),
    hinfo.trans (by decide)⟩

end Space

end NandMachine
