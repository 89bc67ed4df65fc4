import Verse.Proofs.CommandLine.Stages
import Verse.Proofs.Machine.Hearing

/-!
# Where the input of a run comes from

A run reads its input off one line, and it makes no difference to it whether that line is known
beforehand or fetched from a stream.  On the command line, values given to a program are the same
as a standard input that holds them.

* `Engine.exists_input_pointAt`  runs of an engine with the one input and with the other
* `Engine.leaves_setInput_iff`   what they leave if they end
* `perform_run_iff`              the completions of a run
* `exists_unheard_iff`           these do not tell more of the input than whether it was looked at
* `input_comes_from_anywhere`    streams, texts, runs and command lines
-/

namespace Verse

/-! ## Runs -/

namespace Engine

/-- A run of the engine ends with a report and leaves an output. -/
def Leaves (e : Engine) (report : RunReport) (output : Sink) : Prop :=
  ∃ fuel engine, e.run fuel = .finished report engine ∧ engine.output = output

/-- At every point the machines of two runs differ in nothing but their inputs, if these have had
    the same line. -/
theorem exists_input_pointAt (e : Engine) {input input' : Input} (hline : input.SameLine input')
    (program : List Rung) (n : Nat) :
    ∃ left, ((e.setInput input').machine.pointAt program n).machine =
      { ((e.setInput input).machine.pointAt program n).machine with input := left } := by
  have hstart : Machine.Hears ((e.setInput input).machine.start program)
      ((e.setInput input').machine.start program) := ⟨input', rfl, hline⟩
  obtain ⟨left, heq, -⟩ := (Machine.lockstep_hears.pointAt hstart n).machine
  exact ⟨left, heq⟩

/-- If a run ends with the one input, it ends with every other that has the same line. -/
theorem exists_run_setInput {e : Engine} {input : Input} (hline : e.machine.input.SameLine input)
    {fuel : Nat} {report : RunReport} {engine : Engine} (h : e.run fuel = .finished report engine) :
    ∃ fuel' input', (e.setInput input).run fuel' = .finished report (engine.setInput input') := by
  obtain ⟨program, -, -, hprogram, -, -⟩ := shows_of_run h
  have hprogram' : (e.setInput input).program = some program := hprogram
  obtain ⟨reason, m, hrun, hconclude⟩ := (run_eq_finished_iff hprogram).mp h
  -- Hearing off another line's copy is a lockstep of the machines, so the run ends at the same
  -- point.
  have hstart : Machine.Hears (e.machine.start program)
      ((e.setInput input).machine.start program) := ⟨input, rfl, hline⟩
  obtain ⟨m', ⟨input', rfl, -⟩, ⟨fuel', hrun'⟩, -⟩ := Machine.lockstep_hears.run hstart hrun
  -- The report does not look at the input, so both conclude alike.
  have hconclude' : (e.setInput input).conclude reason (m.supplied id fun _ => input') =
      (report, engine.setInput input') := by
    rw [← (Prod.mk.inj hconclude).1, ← (Prod.mk.inj hconclude).2]
    rfl
  exact ⟨fuel', input', (run_eq_finished_iff hprogram').mpr ⟨reason, _, hrun', hconclude'⟩⟩

/-- Runs with inputs of the same line leave the same. -/
theorem leaves_setInput_iff (e : Engine) {input input' : Input} (hline : input.SameLine input')
    (report : RunReport) (output : Sink) :
    (e.setInput input').Leaves report output ↔ (e.setInput input).Leaves report output := by
  constructor
  · rintro ⟨fuel, engine, hrun, houtput⟩
    obtain ⟨fuel', final, hrun'⟩ := exists_run_setInput (e := e.setInput input') hline.symm hrun
    exact ⟨fuel', _, hrun', houtput⟩
  · rintro ⟨fuel, engine, hrun, houtput⟩
    obtain ⟨fuel', final, hrun'⟩ := exists_run_setInput (e := e.setInput input) hline hrun
    exact ⟨fuel', _, hrun', houtput⟩

end Engine

/-! ## Command lines -/

open Job

/-- A command without its looking at the standard input. -/
def Completion.unheard (completion : Completion) : Completion :=
  { completion with deeds := completion.deeds.filter (· ≠ .listened) }

/-- Nothing is left out of deeds that do not look at the standard input. -/
theorem filter_of_listened_not_mem {deeds : List Deed} (h : .listened ∉ deeds) :
    deeds.filter (· ≠ .listened) = deeds := by
  refine List.filter_eq_self.mpr fun deed hdeed => decide_eq_true ?_
  rintro rfl
  exact h hdeed

/-- A command that has not looked at the standard input is left as it is. -/
theorem unheard_of_listened_not_mem {completion : Completion} (h : .listened ∉ completion.deeds) :
    completion.unheard = completion := by
  rw [Completion.unheard, filter_of_listened_not_mem h]

/-- The standard input is not looked at before the run. -/
theorem listened_not_mem_opening {options : RunOptions} {world : World} {lexicon : Lexicon} :
    .listened ∉ options.opening world lexicon := by
  simp [RunOptions.opening]

/-- What a run reports does not look at the standard input. -/
theorem listened_not_mem_deeds {report : RunReport} {output : Sink} :
    .listened ∉ report.deeds output := by
  simp [RunReport.deeds]

variable {world : World} {arguments arguments' : List String} {dictionary : Option String}
  {options : RunOptions} {lexicon : Lexicon} {tokens : List Token}

/-- The command line of a run. -/
def AsksFor (world : World) (arguments : List String) (dictionary : Option String)
    (options : RunOptions) : Prop :=
  Invocation.ofArguments world.environment arguments = .ok { dictionary, action := .run options }

/-- The same run without values. -/
def RunOptions.withoutValues (options : RunOptions) : RunOptions :=
  { options with values := [] }

/-- The completions of a run whose files are all right. -/
theorem perform_run_iff (h : AsksFor world arguments dictionary options)
    (hlexicon : world.lexicon dictionary = .ok lexicon)
    (htokens : world.tokens lexicon options.program = .ok tokens)
    (hfault : world.traceFault? options = none) {fuel : Nat} {completion : Completion} :
    perform fuel world arguments = some completion ↔ ∃ report engine,
      (options.engine world lexicon tokens).run fuel = .finished report engine ∧
      completion = { ending := .done
                     deeds := .looked (dictionary.getD World.defaultDictionary) ::
                       (options.opening world lexicon ++ options.deeds report engine) } := by
  rw [perform_of_ok h, run_carryOut_of_lexicon hlexicon, run_carryOut_run htokens hfault]
  simp only [Engine.run_eq_finished_iff (program_engine options world lexicon tokens)]
  -- The run is ended by its fuel on both sides, or on neither.
  cases (options.engine world lexicon tokens).machine.run fuel (tapeOf lexicon tokens) with
  | none => simp
  | some result =>
    obtain ⟨reason, m⟩ := result
    constructor
    · intro hsome
      obtain rfl := Option.some.inj hsome
      exact ⟨_, _, ⟨reason, m, rfl, rfl⟩, rfl⟩
    · rintro ⟨report, engine, ⟨reason', m', hsome, hconclude⟩, rfl⟩
      obtain ⟨rfl, rfl⟩ := Prod.mk.inj (Option.some.inj hsome)
      simp only [Option.map_some, hconclude]
      rfl

/-- A command line whose files are not all right fails alike whether it gives values or not. -/
theorem exists_failure (h : AsksFor world arguments dictionary options)
    (h' : AsksFor world arguments' dictionary options.withoutValues)
    (hfault : ¬ ∃ lexicon tokens, world.lexicon dictionary = .ok lexicon ∧
      world.tokens lexicon options.program = .ok tokens ∧ world.traceFault? options = none) :
    ∃ completion, (∀ fuel, perform fuel world arguments = some completion) ∧
      (∀ fuel, perform fuel world arguments' = some completion) ∧ completion.exitCode = 1 := by
  -- The stages are the same for both, since they do not look at the values: the first that
  -- fails fails for both.
  cases hlexicon : world.lexicon dictionary with
  | error failure =>
    refine ⟨_, fun _ => perform_of_lexicon_error h hlexicon, fun fuel => ?_, rfl⟩
    have hperform : perform fuel world arguments' = some _ := perform_of_lexicon_error h' hlexicon
    exact hperform
  | ok lexicon =>
    cases htokens : world.tokens lexicon options.program with
    | error failure =>
      refine ⟨_, fun _ => perform_of_tokens_error h hlexicon rfl htokens, fun fuel => ?_, rfl⟩
      have hperform : perform fuel world arguments' = some _ :=
        perform_of_tokens_error h' hlexicon rfl htokens
      exact hperform
    | ok tokens =>
      cases htrace : world.traceFault? options with
      | some fault =>
        refine ⟨_, fun _ => perform_of_traceFault h hlexicon rfl htokens htrace,
          fun fuel => ?_, rfl⟩
        have hperform : perform fuel world arguments' = some _ :=
          perform_of_traceFault h' hlexicon rfl htokens htrace
        exact hperform
      | none => exact absurd ⟨lexicon, tokens, hlexicon, htokens, htrace⟩ hfault

/-- The input of an engine is the one that its options ask for. -/
theorem engine_eq_setInput (options : RunOptions) (world : World) (lexicon : Lexicon)
    (tokens : List Token) :
    options.engine world lexicon tokens =
      (options.engine world lexicon tokens).setInput (options.input world) := by
  unfold RunOptions.engine
  dsimp only
  split <;> rfl

/-- Without values the engine reads the standard input. -/
theorem engine_withoutValues (options : RunOptions) (world : World) (lexicon : Lexicon)
    (tokens : List Token) :
    options.withoutValues.engine world lexicon tokens =
      (options.engine world lexicon tokens).setInput (.unread world.stdin) := by
  unfold RunOptions.engine
  by_cases htrace : options.trace.isOn = true
  · simp only [RunOptions.withoutValues, htrace, if_true]
    rfl
  · simp only [RunOptions.withoutValues, htrace]
    rfl

/-- What a run does, less its looking at the standard input. -/
theorem unheard_of_run {before : List Deed} (hbefore : .listened ∉ before) (report : RunReport)
    (engine : Engine) (ending : Ending) :
    Completion.unheard { ending, deeds := before ++ options.deeds report engine } =
      { ending, deeds := before ++ report.deeds engine.output } := by
  -- Looking at the standard input is one deed at most, after the opening and before the
  -- report.
  have hlistened : ∀ listened : Bool,
      (if listened then [Deed.listened] else []).filter (· ≠ .listened) = [] := by decide
  rw [Completion.unheard, RunOptions.deeds]
  simp only [List.filter_append, filter_of_listened_not_mem hbefore,
    filter_of_listened_not_mem listened_not_mem_deeds, hlistened, List.nil_append]

/-- The completions of a run, as far as they do not tell where the input came from. -/
theorem exists_unheard_iff (h : AsksFor world arguments dictionary options)
    (hlexicon : world.lexicon dictionary = .ok lexicon)
    (htokens : world.tokens lexicon options.program = .ok tokens)
    (hfault : world.traceFault? options = none) (completion : Completion) :
    (∃ fuel completion', perform fuel world arguments = some completion' ∧
        completion'.unheard = completion) ↔
      ∃ report output, (options.engine world lexicon tokens).Leaves report output ∧
        completion = { ending := .done
                       deeds := .looked (dictionary.getD World.defaultDictionary) ::
                         options.opening world lexicon ++ report.deeds output } := by
  -- Only the run itself may have looked at the standard input.
  have hbefore : .listened ∉ Deed.looked (dictionary.getD World.defaultDictionary) ::
      options.opening world lexicon := by
    simp [listened_not_mem_opening]
  simp only [perform_run_iff h hlexicon htokens hfault, ← List.cons_append]
  constructor
  · rintro ⟨fuel, _, ⟨report, engine, hrun, rfl⟩, rfl⟩
    exact ⟨report, engine.output, ⟨fuel, engine, hrun, rfl⟩, unheard_of_run hbefore ..⟩
  · rintro ⟨report, _, ⟨fuel, engine, hrun, rfl⟩, rfl⟩
    exact ⟨fuel, _, ⟨report, engine, hrun, rfl⟩, unheard_of_run hbefore ..⟩

/-- A run that is given values does not look at the standard input. -/
theorem unheard_of_values (h : AsksFor world arguments dictionary options)
    (hvalues : options.values ≠ []) (hlexicon : world.lexicon dictionary = .ok lexicon)
    (htokens : world.tokens lexicon options.program = .ok tokens)
    (hfault : world.traceFault? options = none) {fuel : Nat} {completion : Completion}
    (hperform : perform fuel world arguments = some completion) :
    completion.unheard = completion := by
  obtain ⟨report, engine, -, rfl⟩ := (perform_run_iff h hlexicon htokens hfault).mp hperform
  refine unheard_of_listened_not_mem ?_
  -- With values the options add no such deed, and there is none in the opening or the report.
  have hempty : options.values.isEmpty = false := List.isEmpty_eq_false_iff.mpr hvalues
  simp [RunOptions.deeds, hempty, listened_not_mem_opening, listened_not_mem_deeds]

/-- Values do what a standard input that holds them does. -/
theorem perform_values_iff (h : AsksFor world arguments dictionary options)
    (hvalues : options.values ≠ []) (h' : AsksFor world arguments' dictionary options.withoutValues)
    (hline : (Input.ofText (" ".intercalate options.values)).SameLine (.unread world.stdin))
    (completion : Completion) :
    (∃ fuel, perform fuel world arguments = some completion) ↔
      ∃ fuel completion', perform fuel world arguments' = some completion' ∧
        completion'.unheard = completion := by
  by_cases hfiles : ∃ lexicon tokens, world.lexicon dictionary = .ok lexicon ∧
      world.tokens lexicon options.program = .ok tokens ∧ world.traceFault? options = none
  · -- The files are all right: both command lines run the same engine, each on its own input.
    obtain ⟨lexicon, tokens, hlexicon, htokens, hfault⟩ := hfiles
    have hgiven : options.engine world lexicon tokens =
        (options.engine world lexicon tokens).setInput
          (.ofText (" ".intercalate options.values)) := by
      conv_lhs => rw [engine_eq_setInput, RunOptions.input, if_neg (by simpa using hvalues)]
    -- The command line with values never looks at the standard input, so its completions may
    -- be read as unheard ones.
    have hunheard : (∃ fuel, perform fuel world arguments = some completion) ↔
        ∃ fuel completion', perform fuel world arguments = some completion' ∧
          completion'.unheard = completion := by
      constructor
      · rintro ⟨fuel, hperform⟩
        exact ⟨fuel, completion, hperform,
          unheard_of_values h hvalues hlexicon htokens hfault hperform⟩
      · rintro ⟨fuel, completion', hperform, rfl⟩
        exact ⟨fuel, by
          rwa [unheard_of_values h hvalues hlexicon htokens hfault hperform]⟩
    rw [hunheard, exists_unheard_iff h hlexicon htokens hfault,
      exists_unheard_iff h' hlexicon htokens hfault, engine_withoutValues, hgiven]
    simp only [Engine.leaves_setInput_iff _ hline]
    rfl
  · -- Some file is not: both command lines fail alike, before the standard input is looked at.
    obtain ⟨failed, hgiven, hstdin, hcode⟩ := exists_failure h h' hfiles
    have hunheard : failed.unheard = failed := by
      refine unheard_of_listened_not_mem fun hmem => ?_
      cases allDiscreet_of_exitCode (hgiven 0) hcode _ hmem
    simp only [hgiven, hstdin, Option.some.injEq, exists_const, exists_eq_left', hunheard]

/-- A stream answers every sequence of calls as a text does that is the first line of the stream,
    or begins with it and its line feed.  At every point of a run the machine is the same with the
    one as with the other, apart from what is left of the input, and so are what the run reports
    and its output if it ends.

    If the first line of a stream is no text, the stream is exhausted from the start and stays so.

    A command that is given values completes just as it does without them if the standard input
    holds the values joined by spaces, alone or on its first line, except that then it looks at the
    standard input. -/
theorem input_comes_from_anywhere (bytes : List UInt8) :
    (∀ line, String.fromUTF8? (ByteArray.mk (Input.throughFeed bytes).toArray) = some line →
      ∀ text, Input.Continues bytes line text →
        (∀ calls, (Input.unread bytes).answers calls = (Input.ofText text).answers calls) ∧
        ∀ e : Engine,
          (∀ program n, ∃ left, ((e.setInput (.unread bytes)).machine.pointAt program n).machine =
            { ((e.setInput (.ofText text)).machine.pointAt program n).machine with
              input := left }) ∧
          ∀ report output, (e.setInput (.unread bytes)).Leaves report output ↔
            (e.setInput (.ofText text)).Leaves report output) ∧
    (String.fromUTF8? (ByteArray.mk (Input.throughFeed bytes).toArray) = none →
      ∀ calls, ((Input.unread bytes).after calls).isExhausted = true ∧
        ((Input.unread bytes).after calls).read.1 = none) ∧
    ∀ world arguments arguments' dictionary options,
      AsksFor world arguments dictionary options → options.values ≠ [] →
      AsksFor world arguments' dictionary options.withoutValues → world.stdin = bytes →
      (let text := utf8Bytes (" ".intercalate options.values).toList
       bytes = text ∨ ∃ more, bytes = text ++ 10 :: more) →
      ∀ completion, (∃ fuel, perform fuel world arguments = some completion) ↔
        ∃ fuel completion', perform fuel world arguments' = some completion' ∧
          completion'.unheard = completion := by
  refine ⟨fun line hline text htext => ?_, fun hgarbled calls => ?_, ?_⟩
  · -- The first line of the stream is known.
    have hsame := Input.sameLine_of_continues hline htext
    exact ⟨hsame.answers, fun e => ⟨e.exists_input_pointAt hsame, e.leaves_setInput_iff hsame⟩⟩
  · -- The first line is no text: the stream is exhausted at once, and calls keep it so.
    have hexhausted := Input.isExhausted_after
      (Input.isExhausted_of_garbled (Input.decodeLine?_eq_none hgarbled)) calls
    exact ⟨hexhausted, (Input.isExhausted_iff _).mp hexhausted⟩
  · rintro world arguments arguments' dictionary options h hvalues h' rfl hstdin
    exact perform_values_iff h hvalues h' (Input.sameLine_of_holds hstdin)

/-- A file `poem` that says `count fall listen`, and a standard input that begins with a `7` on a
    line of its own. -/
def hearingPoem : World where
  read file :=
    if file = "poem" then
      .ok [99, 111, 117, 110, 116, 32, 102, 97, 108, 108, 32, 108, 105, 115, 116, 101, 110]
    else .error .missing
  barred _ := none
  stdin := [55, 10, 56]

/-- A stream whose first line is known although its second is no text, one whose first line is no
    text, and a command line that gives the value that another hears. -/
theorem input_comes_from_anywhere_hearing :
    ((∀ calls, (Input.unread [49, 50, 32, 120, 10, 255]).answers calls =
        (Input.ofText "12 x\n7").answers calls) ∧
      ∀ (e : Engine) report output,
        (e.setInput (.unread [49, 50, 32, 120, 10, 255])).Leaves report output ↔
          (e.setInput (.ofText "12 x\n7")).Leaves report output) ∧
    (∀ calls, ((Input.unread [255]).after calls).isExhausted = true ∧
      ((Input.unread [255]).after calls).read.1 = none) ∧
    ∃ completion, completion.stdout = "7" ∧
      (∃ fuel, perform fuel hearingPoem ["run", "poem", "7"] = some completion) ∧
      ∃ fuel completion', perform fuel hearingPoem ["run", "poem"] = some completion' ∧
        completion'.unheard = completion := by
  refine ⟨?_, ?_, ?_⟩
  · obtain ⟨hanswers, hruns⟩ := (input_comes_from_anywhere [49, 50, 32, 120, 10, 255]).1 "12 x\n"
      (by decide +kernel) "12 x\n7" (.more (by decide) "7")
    exact ⟨hanswers, fun e => (hruns e).2⟩
  · exact (input_comes_from_anywhere [255]).2.1 (by decide +kernel)
  · let options : RunOptions := ⟨"poem", ["7"], .off, "haifu_execution_log.txt", none⟩
    have hvalues := (input_comes_from_anywhere [55, 10, 56]).2.2 hearingPoem ["run", "poem", "7"]
      ["run", "poem"] none options (by unfold AsksFor; decide +kernel) (by decide)
      (by unfold AsksFor; decide +kernel) rfl (.inr ⟨[56], by decide +kernel⟩)
    have hstdout : (perform 9 hearingPoem ["run", "poem", "7"]).map Completion.stdout =
        some "7" := by decide +kernel
    obtain ⟨completion, hperform, hseven⟩ := Option.map_eq_some_iff.mp hstdout
    exact ⟨completion, hseven, ⟨9, hperform⟩, (hvalues completion).mp ⟨9, hperform⟩⟩

end Verse
