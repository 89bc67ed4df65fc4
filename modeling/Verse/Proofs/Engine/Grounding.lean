import Verse.Proofs.Engine.Reason
import Verse.Proofs.Machine.Grounded
import Verse.Proofs.Token.Joined

/-!
# Programs from texts

A program that is loaded from the tokens of a text has only rungs that can be executed, whatever
the dictionary says.  It may give words no element, but no number is ever without one, and no run
of the program has to remark on a rung or on two elements that it can do nothing with.

* `Rung.isGrounded_ofToken`      the rungs of a text
* `every_number_has_an_element`  the runs of a text
-/

namespace Verse

/-! ## Rungs -/

/-- A command has its code. -/
theorem Command.ofCode?_code (command : Command) :
    Command.ofCode? (Float.ofNat command.code) = some command := by
  cases command <;> decide +kernel

/-- A token of a text that is a reserved word has the code of a command. -/
theorem exists_command_of_reserved {chain : Chain} {token : Token}
    (h : chain.token = .ok token) {code : Float} (hkind : token.kind = .reserved code) :
    ∃ command : Command, code = Float.ofNat command.code := by
  have hmakes := Chain.makes_of_token h
  by_cases hlinks : chain.links = []
  · rw [hmakes.single hlinks] at hkind
    cases hword : chain.first.word with
    | command command =>
      rw [hword] at hkind
      exact ⟨command, (Token.Kind.reserved.inj hkind).symm⟩
    | number _ | «variable» _ | mark =>
      rw [hword] at hkind
      cases hkind
  · -- Several words are a number or a variable.
    by_cases hnumber : ∀ part ∈ chain.parts, part.isNumber = true
    · obtain ⟨number, -, hkind'⟩ := hmakes.number hlinks hnumber
      rw [hkind'] at hkind
      cases hkind
    · obtain ⟨element, hkind', -⟩ := hmakes.name hlinks (by simpa using hnumber)
      rw [hkind'] at hkind
      cases hkind

/-- The rung of a token of a text is grounded. -/
theorem Rung.isGrounded_ofToken {lexicon : Lexicon} {text : String} {tokens : List Token}
    (h : Token.ofText lexicon text = .ok tokens) {token : Token} (hmem : token ∈ tokens) :
    (Rung.ofToken lexicon token).IsGrounded := by
  obtain ⟨cs, -, hcs⟩ := ofText_eq_ok_iff.mp h
  obtain ⟨chain, hchain⟩ := exists_forall₂_iff.mp ⟨cs, hcs.flip⟩ token hmem
  obtain ⟨place, spelling, kind⟩ := token
  cases kind with
  | reserved code =>
    obtain ⟨command, rfl⟩ := exists_command_of_reserved hchain rfl
    have hcell : Cell.ofToken lexicon ⟨place, spelling, .reserved (Float.ofNat command.code)⟩ =
        .command command := by
      simp only [Cell.ofToken, Command.ofCode?_code]
    exact ⟨by simp [Rung.ofToken, hcell], fun _ => Element.earth_mem_cycle⟩
  | «variable» element =>
    exact ⟨by simp [Rung.ofToken, Cell.ofToken], by simp [Rung.ofToken, Cell.ofToken, variableName?]⟩
  | number _ | punctuation =>
    exact ⟨by simp [Rung.ofToken, Cell.ofToken], fun _ => Element.earth_mem_cycle⟩

/-! ## Runs -/

/-- Whatever has a number has one of the five elements, and no rung is one that cannot be
    executed. -/
structure Machine.HasElements (m : Machine) : Prop where
  tape : ∀ i, (m.readAt i).1.isSome = true → m.elementAt i ∈ Element.cycle
  vars : ∀ name v, m.vars.get? name = some v → v.value?.isSome = true → v.element ∈ Element.cycle
  rungs : m.AllRungs Rung.IsGrounded

/-- The elements of what is grounded are among the five. -/
theorem Machine.Grounded.hasElements {m : Machine} (h : m.Grounded) : m.HasElements where
  tape _ hread := h.elementAt hread
  vars name v hv hvalue := by
    obtain ⟨value, hvalue⟩ := Option.isSome_iff_exists.mp hvalue
    have hmem := h.vars name value (by rw [Variables.value?, hv, Option.bind_some, hvalue])
    rw [Variables.elementOf, hv] at hmem
    exact hmem
  rungs := h.rungs

namespace Engine

/-- Remarks that the machine has not made are not in the log. -/
theorem notice_not_mem_log {m : Machine} {log : List LogEntry}
    (hlog : log.filter (fun entry => !entry.isComplaint) = m.entries)
    (hjournal : ∀ event ∈ m.journal, event.isBaffled = false) {notice : Notice}
    (hnotice : notice.isBaffled = true) : .notice notice ∉ log := by
  intro hmem
  have hentry : .notice notice ∈ m.entries := by
    rw [← hlog]
    -- A notice in the log is not a complaint about a sink, so the machine has made it.
    exact List.mem_filter.mpr ⟨hmem, rfl⟩
  obtain ⟨event, hevent, heq⟩ := List.mem_filterMap.mp hentry
  have hcalm := hjournal event (List.mem_reverse.mp hevent)
  cases event with
  | noticed other =>
    obtain rfl := LogEntry.notice.inj (Option.some.inj heq)
    rw [Event.isBaffled, hnotice] at hcalm
    cases hcalm
  | executed _ _ _ _ | printed _ | heard _ | failed _ => cases heq

/-- A text that can be read at all, with any dictionary, gives a program that has the tokens from
    the last one to the first, none of them as a command that does not exist.  At every point of
    every run of the program, all rungs that have a number, and all variables that do, have one
    of the five elements, even if the dictionary gives some words none.  So no run ever says that
    a command cannot be executed, or that no relation leads from one element to another.  If the
    run ends, its end is one of these points. -/
theorem every_number_has_an_element {lexicon : Lexicon} {text : String} {tokens : List Token}
    (h : Token.ofText lexicon text = .ok tokens) :
    ∃ program : List Rung,
      (∀ e : Engine, (e.load lexicon tokens).program = some program ∧
        (e.load lexicon tokens).machine.tape = program) ∧
      program.length = tokens.length ∧
      (∀ i < tokens.length,
        program[i]? = (tokens[tokens.length - 1 - i]?).map (Rung.ofToken lexicon)) ∧
      (∀ rung ∈ program, ∀ code, rung.cell ≠ .invalid code) ∧
      ∀ e : Engine, e.program = some program →
        (∀ n, (e.machine.pointAt program n).machine.HasElements ∧
          (∀ name code, .notice (.invalidCommand name code) ∉ (e.recorderAt program n).log) ∧
          ∀ earlier later, .notice (.unrelated earlier later) ∉ (e.recorderAt program n).log) ∧
        ∀ fuel report engine, e.run fuel = .finished report engine →
          (∃ n m, e.machine.pointAt program n = .ended report.outcome.reason m ∧
            engine.machine = { m with journal := [] }) ∧
          engine.machine.HasElements ∧
          (∀ name code, .notice (.invalidCommand name code) ∉ report.log) ∧
          ∀ earlier later, .notice (.unrelated earlier later) ∉ report.log := by
  have hrungs : ∀ rung ∈ (tokens.map (Rung.ofToken lexicon)).reverse, rung.IsGrounded := by
    intro rung hrung
    obtain ⟨token, htoken, rfl⟩ := List.mem_map.mp (List.mem_reverse.mp hrung)
    exact Rung.isGrounded_ofToken h htoken
  refine ⟨(tokens.map (Rung.ofToken lexicon)).reverse, fun e => ⟨rfl, rfl⟩, by simp, ?_,
    fun rung hrung => (hrungs rung hrung).valid, fun e hprogram => ⟨fun n => ?_, ?_⟩⟩
  · -- The first token is the last rung.
    intro i hi
    rw [List.getElem?_reverse (by simpa using hi), List.length_map, List.getElem?_map]
  · -- At a point of the run the log has what the machine has had to say, and that is never
    -- baffled.
    obtain ⟨hgrounded, hjournal⟩ := Machine.unbaffled_pointAt hrungs e.machine n
    have hlog := (e.recorderAt_hasSeen (tokens.map (Rung.ofToken lexicon)).reverse n).entries
    rw [Recorder.entries, ← List.filter_reverse] at hlog
    refine ⟨hgrounded.hasElements, fun name code hmem => ?_, fun earlier later hmem => ?_⟩
    · exact notice_not_mem_log hlog hjournal rfl (List.mem_reverse.mpr hmem)
    · exact notice_not_mem_log hlog hjournal rfl (List.mem_reverse.mpr hmem)
  · -- The end of a run is a point of it.
    intro fuel report engine hrun
    obtain ⟨program, reason, m, hprogram', hend, hshows⟩ := shows_of_run hrun
    obtain rfl := Option.some.inj (hprogram.symm.trans hprogram')
    obtain ⟨n, hn⟩ := Machine.exists_pointAt_of_run hend
    obtain ⟨hgrounded, hjournal⟩ := Machine.unbaffled_pointAt hrungs e.machine n
    rw [hn] at hgrounded hjournal
    refine ⟨⟨n, m, ?_, hshows.machine⟩, ?_, fun name code => ?_, fun earlier later => ?_⟩
    · rw [hn, hshows.outcome]
    · have hleft : engine.machine.Grounded :=
        hgrounded.of_eq (congrArg (·.tape) hshows.machine) (congrArg (·.vars) hshows.machine)
      exact hleft.hasElements
    · exact notice_not_mem_log hshows.entries hjournal rfl
    · exact notice_not_mem_log hshows.entries hjournal rfl

/-- A dictionary that gives a word no element. -/
def moonless : Lexicon :=
  Lexicon.empty.put "moon" { base := .missing, element := some .void, syllables := [] }

/-- The variable without an element takes a number, which is then combined with another one. -/
theorem every_number_has_an_element_moonless :
    ∃ tokens report engine, Token.ofText moonless "operate like moon five" = .ok tokens ∧
      tokens.map (·.kind.element) = [.earth, .earth, .void, .earth] ∧
      ((ofSeed 0).load moonless tokens).run 9 = .finished report engine ∧
      engine.machine.HasElements ∧
      ∀ earlier later, .notice (.unrelated earlier later) ∉ report.log := by
  have hmoonless : (Token.ofText moonless "operate like moon five").toOption.map (fun tokens =>
      (tokens.map (·.kind.element), ((ofSeed 0).machine.run 9
        (tokens.map (Rung.ofToken moonless)).reverse).map Prod.fst)) =
      some ([.earth, .earth, .void, .earth], some .ranOffEnd) := by
    decide +kernel
  obtain ⟨tokens, htokens, hresult⟩ := exists_of_toOption_map hmoonless
  obtain ⟨helements, hend⟩ := Prod.mk.inj hresult
  obtain ⟨report, engine, hrun, -⟩ :=
    exists_report_of_reason (e := (ofSeed 0).load moonless tokens) rfl hend
  obtain ⟨program, hload, -, -, -, hruns⟩ := every_number_has_an_element htokens
  obtain ⟨-, hhas, -, hunrelated⟩ := (hruns _ (hload (ofSeed 0)).1).2 9 report engine hrun
  exact ⟨tokens, report, engine, htokens, helements, hrun, hhas, hunrelated⟩

end Engine

end Verse
