import NandMachine.Command.Session
import NandMachine.Proofs.Machine.Report

/-!
# Sessions

A session can fail in front of its run, while the layout is read, or the image, or while the space
is built, in this order. Nothing of a machine is to be seen then: it has reported what it has read
and mapped, and the reason for the failure, which is the first one that there is. Otherwise it ends
with its run, and what it has reported in front of the run makes no difference to it.

## Key results

- `boot_of_unstarted`, `boot_of_started`: what comes of the start of a session
- `eventLine_illegalInstruction`: the line of a log about an illegal instruction
- `session_ends_in_order`: exit status, output and reports of a session
-/

namespace NandMachine

/-- A file that holds a text is read as the layout that the text spells. -/
theorem Layout.load_of_text {files : FileReader} {path text : String} {bytes : ByteArray}
    (read : files path = .ok bytes) (unicode : String.fromUTF8? bytes = some text) :
    load files path = parse text := by
  simp [load, textOfBytes, read, unicode, bind, Except.bind]

/-! ## Lines of a log -/

namespace Text

/-- A text without characters that steer is written to a log as it is. -/
theorem forTerminal_eq_self {s : String} (h : ∀ c ∈ s.toList, isSteering c = false) :
    forTerminal s = s := by
  -- Each character is written as it is, so the induction is on the characters.
  have hplain : ∀ cs : List Char, (∀ c ∈ cs, isSteering c = false) →
      cs.flatMap terminalChar = cs := by
    intro cs hcs
    induction cs with
    | nil => rfl
    | cons c cs ih =>
      obtain ⟨hc, hrest⟩ := List.forall_mem_cons.mp hcs
      rw [List.flatMap_cons, ih hrest, terminalChar, hc]
      rfl
  rw [forTerminal, hplain s.toList h, String.ofList_toList]

end Text

namespace HexStyle

open Text (isSteering)

/-- The characters of a number are digits of its base. -/
theorem exists_digitChar_of_mem_toDigits {b n : Nat} {c : Char} (hb : 1 < b)
    (h : c ∈ Nat.toDigits b n) : ∃ k < b, k.digitChar = c := by
  -- The last digit is a remainder, and those in front belong to a smaller number.
  induction n using Nat.strongRecOn with
  | ind n ih =>
    rw [Nat.toDigits_eq_if hb] at h
    split at h
    · next hlt => exact ⟨n, hlt, (List.mem_singleton.mp h).symm⟩
    · next hge =>
      rcases List.mem_append.mp h with h | h
      · exact ih (n / b) (Nat.div_lt_self (by omega) hb) h
      · exact ⟨n % b, Nat.mod_lt n (by omega), (List.mem_singleton.mp h).symm⟩

/-- No digit steers a terminal, in either case of letters. -/
theorem isSteering_digitChar : ∀ k : Fin 16,
    isSteering k.val.digitChar = false ∧ isSteering k.val.digitChar.toUpper = false := by
  decide

/-- No character of a number in base 16 steers a terminal. -/
theorem isSteering_of_mem_write {style : HexStyle} {n : Nat} {c : Char}
    (h : c ∈ (style.write n).toList) : isSteering c = false := by
  have hfill : ∀ {k : Nat} {d : Char}, isSteering d = false → c ∈ List.replicate k d →
      isSteering c = false := fun hd hc => List.eq_of_mem_replicate hc ▸ hd
  have hmark : c ∈ style.mark → isSteering c = false := by
    intro hc
    unfold mark at hc
    split at hc
    · simp only [List.mem_cons, List.not_mem_nil, or_false] at hc
      rcases hc with rfl | rfl <;> decide
    · exact nomatch hc
  have hdigits : c ∈ style.digits n → isSteering c = false := by
    intro hc
    unfold digits at hc
    split at hc
    · obtain ⟨d, hd, rfl⟩ := List.mem_map.mp hc
      obtain ⟨k, hk, rfl⟩ := exists_digitChar_of_mem_toDigits (by decide) hd
      exact (isSteering_digitChar ⟨k, hk⟩).2
    · obtain ⟨k, hk, rfl⟩ := exists_digitChar_of_mem_toDigits (by decide) hc
      exact (isSteering_digitChar ⟨k, hk⟩).1
  rw [write, String.toList_ofList, chars] at h
  -- Filling, mark and digits stand in one of two orders.
  split at h
  · rcases List.mem_append.mp h with h | h
    · rcases List.mem_append.mp h with h | h
      · exact hmark h
      · exact hfill rfl h
    · exact hdigits h
  · rcases List.mem_append.mp h with h | h
    · rcases List.mem_append.mp h with h | h
      · exact hfill rfl h
      · exact hmark h
    · exact hdigits h

end HexStyle

namespace Command

/-- No character of the text of a fault steers a terminal. -/
theorem isSteering_of_mem_fault {n : Nibble} {a : Address} {c : Char}
    (h : c ∈ (Fault.illegalInstruction n a).message.toList) : Text.isSteering c = false := by
  have hwords : ∀ c ∈ "illegal instruction ".toList, Text.isSteering c = false := by
    simp [Text.isSteering]
  have hat : ∀ c ∈ " at ".toList, Text.isSteering c = false := by
    simp [Text.isSteering]
  unfold Fault.message at h
  simp only [String.toList_append, List.mem_append] at h
  rcases h with ((h | h) | h) | h
  · exact hwords c h
  · exact HexStyle.isSteering_of_mem_write h
  · exact hat c h
  · exact HexStyle.isSteering_of_mem_write h

/-- The line of a log about an illegal instruction has the text of the fault. -/
theorem eventLine_illegalInstruction (n : Nibble) (a : Address) :
    eventLine (.illegalInstruction n a) = "ERROR " ++ (Fault.illegalInstruction n a).message := by
  have htext : (Event.illegalInstruction n a).text = (Fault.illegalInstruction n a).message :=
    String.append_empty
  have hlevel : (Event.illegalInstruction n a).level.name = "ERROR" := rfl
  -- The name of the level has five letters and needs no filling.
  have hfill : String.ofList (List.replicate (5 - "ERROR".length) ' ') ++ "ERROR" ++ " " =
      "ERROR " := by
    decide +kernel
  unfold eventLine
  rw [htext, hlevel, Text.forTerminal_eq_self fun _ => isSteering_of_mem_fault]
  dsimp only
  rw [hfill]

/-- The lines about what is added to a log come behind those that are there. -/
theorem journalLines_add (j : Journal) (es : List Event) :
    journalLines (j.add es) =
      journalLines j ++ (es.filter fun e => j.keeps e.level).map eventLine := by
  unfold journalLines
  rw [Journal.toList_events_add, List.map_append]

/-- A log has errors in it if it has anything in it. -/
theorem keeps_error (least : Option Level) (es : List Event) :
    ((Journal.empty least).add es).keeps .error = decide (least ≠ none) := by
  unfold Journal.keeps
  rw [Journal.threshold_add]
  cases least with
  | none => rfl
  | some l => simp [Journal.empty, Level.rank]

/-! ## In front of a run -/

section

variable (files : FileReader) (o : Options)

/-- The layout that a session goes on with. -/
inductive Configured : Layout → Prop
  | default (unnamed : o.config = none) : Configured {}
  | file {path text : String} {bytes : ByteArray} {l : Layout} (named : o.config = some path)
    (read : files path = .ok bytes) (unicode : String.fromUTF8? bytes = some text)
    (parsed : Layout.codec.parse text = .ok l) : Configured l

/-- What there is to say about a session in which nothing is run. Everything in front of the
failure has gone well. -/
inductive Unstarted : String → Prop
  | unreadable {path : String} {cause : FileError} (named : o.config = some path)
    (failed : files path = .error cause) :
    Unstarted ("cannot read config " ++ path ++ ": " ++ cause.message)
  | notUnicode {path : String} {bytes : ByteArray} (named : o.config = some path)
    (read : files path = .ok bytes) (failed : String.fromUTF8? bytes = none) :
    Unstarted ("cannot read config " ++ path ++ ": " ++ "stream did not contain valid UTF-8")
  | malformed {path text : String} {bytes : ByteArray} {cause : Json.ReadError}
    (named : o.config = some path) (read : files path = .ok bytes)
    (unicode : String.fromUTF8? bytes = some text)
    (failed : Layout.codec.parse text = .error cause) :
    Unstarted ("invalid config: " ++ cause.message)
  | noImage {l : Layout} {cause : FileError} (configured : Configured files o l)
    (failed : files o.rom = .error cause) :
    Unstarted ("cannot read ROM image " ++ o.rom ++ ": " ++ cause.message)
  | misfit {l : Layout} {bytes : ByteArray} {cause : MappingError}
    (configured : Configured files o l) (image : files o.rom = .ok bytes)
    (failed : l.space ⟨bytes.data⟩ = .error cause) :
    Unstarted ("invalid layout: " ++ cause.message)

/-- The space that the machine of a session runs over. -/
inductive Started : Space → Prop
  | intro {l : Layout} {bytes : ByteArray} {s : Space} (configured : Configured files o l)
    (image : files o.rom = .ok bytes) (built : l.space ⟨bytes.data⟩ = .ok s) : Started s

end

/-- The event is about an image or a mapping, and not about a machine that runs. -/
inductive Preparatory : Event → Prop
  | loaded (bytes : Nat) (path : String) : Preparatory (.imageLoaded bytes path)
  | size (path : String) (nibbles : Nat) : Preparatory (.imageSize path nibbles)
  | mapped (kind : DeviceKind) (base stop : Nat) : Preparatory (.mapped kind base stop)

/-- What is reported in front of a run is no error. -/
theorem level_of_preparatory {e : Event} (h : Preparatory e) : e.level ≠ .error := by
  cases h <;> simp [Event.level]

/-- Registration reports nothing but mappings. -/
theorem preparatory_of_mem_registerAll {strict : Bool} {s : Space} {ms : List Mapping} {e : Event}
    (h : e ∈ (Layout.registerAll strict s ms).2) : Preparatory e := by
  induction ms generalizing s with
  | nil => exact nomatch h
  | cons m ms ih =>
    unfold Layout.registerAll at h
    split at h
    · exact nomatch h
    · rcases List.mem_cons.mp h with rfl | h
      · exact .mapped ..
      · exact ih h

/-- The construction of a space reports nothing but mappings. -/
theorem preparatory_of_mem_build {l : Layout} {image : Rom} {e : Event}
    (h : e ∈ (l.build image).2) : Preparatory e := by
  unfold Layout.build at h
  split at h
  · exact nomatch h
  · exact preparatory_of_mem_registerAll h

variable {files : FileReader} {o : Options} {l : Layout} {s : Space} {message : String}

/-- The layout that the options name, or why there is none. -/
def namedLayout (files : FileReader) (o : Options) : Except LayoutError Layout :=
  o.config.elim (.ok {}) (Layout.load files)

/-- A session reads the layout in the first place. -/
theorem boot_of_layout_error {e : LayoutError} (h : namedLayout files o = .error e) :
    boot files o = (.error (.layout e), []) := by
  unfold boot
  unfold namedLayout at h
  cases hc : o.config with
  | none =>
    rw [hc] at h
    cases h
  | some path =>
    rw [hc, Option.elim] at h
    simp only [h]

/-- Behind the layout, a session reads the image. -/
theorem boot_of_no_image {e : FileError} (h : namedLayout files o = .ok l)
    (failed : files o.rom = .error e) : boot files o = (.error (.rom ⟨o.rom, e⟩), []) := by
  have hrom : Rom.load files o.rom = (.error ⟨o.rom, e⟩, []) := by
    rw [Rom.load, failed]
  unfold boot
  unfold namedLayout at h
  cases hc : o.config with
  | none => simp only [hrom]
  | some path =>
    rw [hc, Option.elim] at h
    simp only [h, hrom]

/-- Behind the image, a session builds the space. -/
theorem boot_of_image {bytes : ByteArray} (h : namedLayout files o = .ok l)
    (read : files o.rom = .ok bytes) :
    boot files o = (((l.space ⟨bytes.data⟩).map .start).mapError fun e => .layout (.misfit e),
      .imageLoaded bytes.size o.rom :: .imageSize o.rom (Rom.size ⟨bytes.data⟩) ::
        (l.build ⟨bytes.data⟩).2) := by
  have hrom : Rom.load files o.rom = (.ok ⟨bytes.data⟩, [.imageLoaded bytes.size o.rom]) := by
    rw [Rom.load, read]
  unfold boot Layout.space
  unfold namedLayout at h
  rcases hbuild : l.build ⟨bytes.data⟩ with ⟨result, building⟩
  cases hc : o.config with
  | none =>
    rw [hc, Option.elim, Except.ok.injEq] at h
    simp only [hrom, h, hbuild]
    -- What is reported about the mappings is the same whether or not all of them fit.
    cases result <;> rfl
  | some path =>
    rw [hc, Option.elim] at h
    simp only [h, hrom, hbuild]
    cases result <;> rfl

/-- The layout that a session goes on with is the one that the options name. -/
theorem namedLayout_of_configured (h : Configured files o l) : namedLayout files o = .ok l := by
  unfold namedLayout
  cases h with
  | default unnamed => rw [unnamed, Option.elim]
  | file named read unicode parsed =>
    rw [named, Option.elim, Layout.load_of_text read unicode, Layout.parse, parsed]
    rfl

/-- Either the layout is known, or there is something to say about it. -/
theorem configured_or_unstarted (files : FileReader) (o : Options) :
    (∃ l, Configured files o l) ∨ ∃ message, Unstarted files o message := by
  -- The cases are in the order in which a session looks at things.
  cases hc : o.config with
  | none => exact .inl ⟨_, .default hc⟩
  | some path =>
    cases hread : files path with
    | error e => exact .inr ⟨_, .unreadable hc hread⟩
    | ok bytes =>
      cases htext : String.fromUTF8? bytes with
      | none => exact .inr ⟨_, .notUnicode hc hread htext⟩
      | some text =>
        cases hparse : Layout.codec.parse text with
        | error e => exact .inr ⟨_, .malformed hc hread htext hparse⟩
        | ok l => exact .inl ⟨l, .file hc hread htext hparse⟩

/-- A session is started, or else there is something to say about it. -/
theorem started_or_unstarted (files : FileReader) (o : Options) :
    (∃ s, Started files o s) ∨ ∃ message, Unstarted files o message := by
  rcases configured_or_unstarted files o with ⟨l, hl⟩ | hmessage
  · cases hread : files o.rom with
    | error e => exact .inr ⟨_, .noImage hl hread⟩
    | ok bytes =>
      cases hspace : l.space ⟨bytes.data⟩ with
      | error e => exact .inr ⟨_, .misfit hl hread hspace⟩
      | ok s => exact .inl ⟨s, .intro hl hread hspace⟩
  · exact .inr hmessage

/-- What is reported in front of a run is about the image and its mappings. -/
theorem preparatory_of_mem_boot {e : Event} (h : e ∈ (boot files o).2) : Preparatory e := by
  -- Without a layout or an image there are no events at all.
  cases hlayout : namedLayout files o with
  | error cause =>
    rw [boot_of_layout_error hlayout] at h
    exact nomatch h
  | ok l =>
    cases hread : files o.rom with
    | error cause =>
      rw [boot_of_no_image hlayout hread] at h
      exact nomatch h
    | ok bytes =>
      rw [boot_of_image hlayout hread] at h
      rcases List.mem_cons.mp h with rfl | h
      · exact .loaded ..
      · rcases List.mem_cons.mp h with rfl | h
        · exact .size ..
        · exact preparatory_of_mem_build h

/-- What there is to say about a session without a run is its first failure. -/
theorem boot_of_unstarted (h : Unstarted files o message) :
    ∃ cause : StartError, (boot files o).1 = .error cause ∧ cause.message = message := by
  -- There is one case for each way to fail, in the order in which a session meets them.
  cases h with
  | @unreadable path cause named failed =>
    refine ⟨.layout (.unreadable path cause), ?_, rfl⟩
    rw [boot_of_layout_error]
    rw [namedLayout, named, Option.elim]
    simp [Layout.load, failed, bind, Except.bind]
  | @notUnicode path bytes named read failed =>
    refine ⟨.layout (.unreadable path .notUnicode), ?_, rfl⟩
    rw [boot_of_layout_error]
    rw [namedLayout, named, Option.elim]
    simp [Layout.load, textOfBytes, read, failed, bind, Except.bind]
  | @malformed path text bytes cause named read unicode failed =>
    refine ⟨.layout (.malformed cause), ?_, rfl⟩
    rw [boot_of_layout_error]
    rw [namedLayout, named, Option.elim, Layout.load_of_text read unicode, Layout.parse, failed]
    rfl
  | @noImage l cause configured failed =>
    refine ⟨.rom ⟨o.rom, cause⟩, ?_, rfl⟩
    rw [boot_of_no_image (namedLayout_of_configured configured) failed]
  | @misfit l bytes cause configured image failed =>
    refine ⟨.layout (.misfit cause), ?_, rfl⟩
    rw [boot_of_image (namedLayout_of_configured configured) image, failed]
    rfl

/-- If nothing fails, a machine is started over the space. -/
theorem boot_of_started (h : Started files o s) : (boot files o).1 = .ok (.start s) := by
  obtain ⟨configured, image, built⟩ := h
  rw [boot_of_image (namedLayout_of_configured configured) image, built]
  rfl

/-! ## Faults -/

/-- The reports of a session that a fault has ended: the fault is told about at the end, and in
front of that by the only error in the log, if there is a log. -/
def Aborted (least : Option Level) (f : Fault) (stderr : List String) : Prop :=
  ∃ others : List Event, (∀ e ∈ others, e.level ≠ .error) ∧
    stderr = journalLines ((Journal.empty least).add others)
      ++ (if least = none then [] else ["ERROR " ++ f.message])
      ++ ["emulation aborted: " ++ f.message]

/-- What a session reports about a run that has ended with a fault. -/
theorem aborted_of_reports {least : Option Level} {f : Fault} {es fs : List Event}
    (hes : ∀ e ∈ es, Preparatory e) (hfs : Reports (some f) fs) :
    Aborted least f (journalLines (((Journal.empty least).add es).add fs)
      ++ ["emulation aborted: " ++ f.message]) := by
  have hreports := hfs.append fun e he => level_of_preparatory (hes e he)
  rw [← Journal.add_append]
  generalize es ++ fs = all at hreports
  cases hreports with
  | @illegal others n a hothers =>
    refine ⟨others, hothers, ?_⟩
    rw [Journal.add_append, journalLines_add]
    congr 2
    -- The fault is the last event, and the only one whose level is at stake.
    cases least <;> simp [Event.level, keeps_error, eventLine_illegalInstruction]

/-! ## Sessions -/

/-- A session that fails in front of its run ends with the reason. -/
theorem session_of_unstarted (h : Unstarted files o message) (least : Option Level) (fuel : Nat) :
    session files least fuel o =
      some ⟨1, "", journalLines ((Journal.empty least).add (boot files o).2) ++ [message]⟩ := by
  obtain ⟨cause, hboot, rfl⟩ := boot_of_unstarted h
  unfold session
  split
  · next e events heq =>
    rw [heq, Except.error.injEq] at hboot
    rw [heq, hboot]
  · next m events heq =>
    rw [heq] at hboot
    cases hboot

/-- A session that is started ends as its run does. -/
theorem session_of_started (h : Started files o s) (least : Option Level) (fuel : Nat) :
    session files least fuel o =
      (runMachine o fuel (.start s) ((Journal.empty least).add (boot files o).2)).map
        (conclude o) := by
  have hboot := boot_of_started h
  unfold session
  split
  · next e events heq =>
    rw [heq] at hboot
    cases hboot
  · next m events heq =>
    rw [heq, Except.ok.injEq] at hboot
    rw [heq, hboot]

/-- A session with a limit ends as the bounded run of its machine does. -/
theorem session_of_limit {limit : UInt64} (h : Started files o s)
    (hlimit : o.maxCycles = some limit) (least : Option Level) (fuel : Nat) :
    ∃ out, session files least fuel o = some out ∧ ∀ j,
      (out.exit = 0 ↔ ∃ n, ((Machine.start s).runLimited limit j).result = .ok n) ∧
      ∀ f, ((Machine.start s).runLimited limit j).result = .error f →
        out.exit = 1 ∧ Aborted least f out.stderr := by
  obtain ⟨result, m', es, hrun, hreports⟩ :=
    Machine.exists_events_runLimited limit (m := .start s) rfl
  refine ⟨_, by rw [session_of_started h, runMachine, hlimit]; rfl, fun j => ?_⟩
  -- Whatever the journal, the run comes to the same result.
  rw [hrun, hrun]
  cases result with
  | ok n => simp [conclude]
  | error f =>
    refine ⟨by simp [conclude], fun f' hf' => ?_⟩
    cases hf'
    exact ⟨rfl, aborted_of_reports (fun _ => preparatory_of_mem_boot) hreports⟩

/-- A session without a limit ends with the first fault of its machine. -/
theorem session_of_fault {last : Machine} {is : List Instruction} {f : Fault}
    (h : Started files o s) (hlimit : o.maxCycles = none)
    (hsteps : Machine.Steps (.start s) is last) (hf : last.step.result = .error f)
    (least : Option Level) {fuel : Nat} (hlt : is.length < fuel) :
    ∃ out, session files least fuel o = some out ∧ out.exit = 1 ∧ Aborted least f out.stderr := by
  obtain ⟨es, hrun, hreports⟩ := Machine.exists_events_run_of_fault rfl hsteps hf hlt
  refine ⟨_, by rw [session_of_started h, runMachine, hlimit, hrun]; rfl, rfl, ?_⟩
  exact aborted_of_reports (fun _ => preparatory_of_mem_boot) hreports

/-- A session without a limit ends only if its machine comes to a fault. -/
theorem exists_fault_of_session {out : Outcome} {least : Option Level} {fuel : Nat}
    (h : Started files o s) (hlimit : o.maxCycles = none)
    (hout : session files least fuel o = some out) :
    ∃ is last f, is.length < fuel ∧ Machine.Steps (.start s) is last ∧
      last.step.result = .error f := by
  rcases Machine.exists_fault_or_run_never fuel (.start s) with hnone | hfault
  · rw [session_of_started h, runMachine, hlimit, hnone] at hout
    cases hout
  · exact hfault

/-- What a run reports is all that its journal has to do with. -/
theorem runMachine_cases (o : Options) (fuel : Nat) {m : Machine} (hr : m.status = .running) :
    (∀ j, runMachine o fuel m j = none) ∨
      ∃ result m' es, ∀ j, runMachine o fuel m j = some ⟨result, m', j.add es⟩ := by
  unfold runMachine
  cases o.maxCycles with
  -- A bounded run always ends; the other one does if it finds a fault.
  | some limit =>
    obtain ⟨result, m', es, hrun, -⟩ := Machine.exists_events_runLimited limit hr
    exact .inr ⟨result, m', es, fun j => congrArg some (hrun j)⟩
  | none =>
    rcases Machine.exists_fault_or_run_never fuel m with hnone | ⟨is, last, f, hlt, hsteps, hf⟩
    · exact .inl hnone
    · obtain ⟨es, hrun, -⟩ := Machine.exists_events_run_of_fault hr hsteps hf hlt
      exact .inr ⟨_, _, es, hrun⟩

/-- What is reported makes no difference to exit status and output. -/
theorem session_congr (files : FileReader) (o : Options) (least least' : Option Level)
    (verbosity fuel : Nat) :
    (session files least fuel o).map (fun out => (out.exit, out.stdout)) =
      (session files least' fuel { o with verbosity }).map fun out => (out.exit, out.stdout) := by
  -- The options have the verbosity in them, but nothing in front of the run or in it looks at it.
  have hboot : boot files { o with verbosity } = boot files o := rfl
  unfold session
  rw [hboot]
  cases h : boot files o with
  | mk start events =>
    cases start with
    | error cause => rfl
    | ok m =>
      -- A machine that a session has started is running.
      have hr : m.status = .running := by
        rcases started_or_unstarted files o with ⟨s, hs⟩ | ⟨message, hmessage⟩
        · have hm := boot_of_started hs
          rw [h] at hm
          cases hm
          rfl
        · obtain ⟨cause, hcause, -⟩ := boot_of_unstarted hmessage
          rw [h] at hcause
          cases hcause
      have hrun : runMachine { o with verbosity } = runMachine o := rfl
      dsimp only
      rw [hrun]
      rcases runMachine_cases o fuel hr with hnone | ⟨result, m', es, hsome⟩
      · rw [hnone, hnone]
        rfl
      · rw [hsome, hsome]
        cases result <;> rfl

/-- Without being asked for the state, a session writes nothing to its output. -/
theorem stdout_of_session {out : Outcome} {least : Option Level} {fuel : Nat}
    (hout : session files least fuel o = some out) (hdump : o.dumpState = false) :
    out.stdout = "" := by
  have hfinal : ∀ m, finalOutput o m = "" := fun m => by
    rw [finalOutput, hdump, if_neg Bool.false_ne_true]
  unfold session at hout
  -- Both outcomes in front of a run and behind it go through the same output.
  split at hout
  · rw [Option.some.injEq] at hout
    rw [← hout]
  · obtain ⟨r, -, rfl⟩ := Option.map_eq_some_iff.mp hout
    unfold conclude
    split <;> exact hfinal _

/-- A session that cannot be started ends with exit status 1 and the first reason that there is,
whatever else would be wrong, and nothing of a machine shows. All others end as their machine
does: with status 0 exactly if a bounded run is without a fault, and otherwise with status 1 and
the fault behind the only error in the log. A state is only written if it is asked for. What is
reported makes no difference to exit status and output. -/
theorem session_ends_in_order (files : FileReader) (o : Options) :
    ((∃ message, Unstarted files o message) ↔ ¬ ∃ s, Started files o s) ∧
    (∀ message, Unstarted files o message → ∃ events, (∀ e ∈ events, Preparatory e) ∧
      ∀ least fuel, session files least fuel o =
        some ⟨1, "", journalLines ((Journal.empty least).add events) ++ [message]⟩) ∧
    (∀ s, Started files o s → ∀ least fuel,
      (∀ limit, o.maxCycles = some limit → ∃ out, session files least fuel o = some out ∧ ∀ j,
        (out.exit = 0 ↔ ∃ n, ((Machine.start s).runLimited limit j).result = .ok n) ∧
        ∀ f, ((Machine.start s).runLimited limit j).result = .error f →
          out.exit = 1 ∧ Aborted least f out.stderr) ∧
      (o.maxCycles = none → ∀ is last f, Machine.Steps (.start s) is last →
        last.step.result = .error f → is.length < fuel →
        ∃ out, session files least fuel o = some out ∧ out.exit = 1 ∧
          Aborted least f out.stderr) ∧
      (o.maxCycles = none → ∀ out, session files least fuel o = some out → out.exit = 1 ∧
        ∃ is last f, is.length < fuel ∧ Machine.Steps (.start s) is last ∧
          last.step.result = .error f ∧ Aborted least f out.stderr)) ∧
    (∀ least fuel out, session files least fuel o = some out → o.dumpState = false →
      out.stdout = "") ∧
    ∀ least least' verbosity fuel,
      (session files least fuel o).map (fun out => (out.exit, out.stdout)) =
        (session files least' fuel { o with verbosity }).map
          fun out => (out.exit, out.stdout) := by
  refine ⟨⟨?_, fun hnone => (started_or_unstarted files o).resolve_left hnone⟩, ?_, ?_,
    fun _ _ _ => stdout_of_session, session_congr files o⟩
  · -- A session has one beginning only, so it is not both.
    rintro ⟨message, hmessage⟩ ⟨s, hs⟩
    obtain ⟨cause, hboot, -⟩ := boot_of_unstarted hmessage
    rw [boot_of_started hs] at hboot
    cases hboot
  · intro message hmessage
    exact ⟨(boot files o).2, fun _ => preparatory_of_mem_boot, session_of_unstarted hmessage⟩
  · -- With a limit a session always ends, without one only by a fault.
    intro s hs least fuel
    refine ⟨fun limit hlimit => session_of_limit hs hlimit least fuel,
      fun hlimit is last f hsteps hf hlt => session_of_fault hs hlimit hsteps hf least hlt,
      fun hlimit out hout => ?_⟩
    obtain ⟨is, last, f, hlt, hsteps, hf⟩ := exists_fault_of_session hs hlimit hout
    obtain ⟨out', hout', hexit, haborted⟩ := session_of_fault hs hlimit hsteps hf least hlt
    rw [hout, Option.some.injEq] at hout'
    subst hout'
    exact ⟨hexit, is, last, f, hlt, hsteps, hf, haborted⟩

/-- Where neither the layout nor the image can be read, the session is about the layout; and an
image that starts with an illegal instruction is aborted at once. -/
theorem session_ends_in_order_of_one_file :
    let files : FileReader := fun path =>
      if path = "p.bin" then .ok ⟨#[0x70]⟩ else .error .notFound
    let o : Options := { rom := "p.bin" }
    session files none 0 { o with rom := "q.bin", config := some "l.json" } =
      some ⟨1, "", ["cannot read config " ++ "l.json" ++ ": " ++ FileError.notFound.message]⟩ ∧
    ∃ out, session files (some .error) 1 o = some out ∧ out.exit = 1 ∧ out.stdout = "" ∧
      Aborted (some .error) (.illegalInstruction 7 0) out.stderr := by
  intro files o
  constructor
  · obtain ⟨-, hunstarted, -⟩ :=
      session_ends_in_order files { o with rom := "q.bin", config := some "l.json" }
    obtain ⟨events, -, hsession⟩ := hunstarted _ (.unreadable rfl rfl)
    -- A log that keeps no level has no lines.
    have hlog : journalLines ((Journal.empty none).add events) = [] := by
      unfold journalLines
      rw [Journal.toList_events_add]
      simp [Journal.keeps, Journal.empty]
    rw [hsession, hlog, List.nil_append]
  · obtain ⟨-, -, hstarted, hstdout, -⟩ := session_ends_in_order files o
    have hs : Started files o ⟨(Layout.mappings {} ⟨#[0x70]⟩).toArray⟩ :=
      .intro (.default rfl) rfl rfl
    have hfault : (Machine.start ⟨(Layout.mappings {} ⟨#[0x70]⟩).toArray⟩).step.result =
        .error (.illegalInstruction 7 0) := rfl
    obtain ⟨-, hends, -⟩ := hstarted _ hs (some .error) 1
    obtain ⟨out, hout, hexit, haborted⟩ := hends rfl [] _ _ (.nil _) hfault Nat.zero_lt_one
    exact ⟨out, hout, hexit, hstdout _ _ out hout rfl, haborted⟩

end Command

end NandMachine
