import Verse.CommandLine.Perform
import Verse.Proofs.Engine.Demand
import Verse.Proofs.Except

/-!
# The stages of a command

A command reads its dictionary, then its program, creates its trace file, and only then does what
shows outside the log.  Each stage is a job whose result and deeds are known, and what comes last
cannot fail.

* `run_consult`, `run_readProgram`, `run_createTrace`   the stages that can fail
* `sure_runEngine`                                      a run does not fail
* `Discreet.clean_bind`, `Clean.bind_sure`              jobs that fail without a trace
* `command_line_fails_cleanly`                          which command lines fail, and what is left
-/

namespace Verse

/-- Whether a deed leaves nothing behind but a line of the log. -/
def Deed.isDiscreet : Deed → Bool
  | .looked _ | .logged _ => true
  | .created _ | .wrote _ | .printed _ | .listened => false

namespace Job

variable {α β : Type}

/-! ## Jobs one after the other -/

/-- A job goes on with what its first part gives, and not at all if that failed. -/
theorem run_bind (job : Job α) (next : α → Job β) (deeds : List Deed) :
    (job >>= next).run.run deeds = (job.run.run deeds).bind fun result =>
      match result with
      | (.ok a, deeds) => (next a).run.run deeds
      | (.error failure, deeds) => some (.error failure, deeds) := by
  show (job deeds).bind _ = (job deeds).bind _
  congr 1
  funext ⟨result, deeds⟩
  cases result <;> rfl

/-- Noting deeds cannot fail. -/
theorem run_note (more deeds : List Deed) :
    (note more).run.run deeds = some (.ok (), deeds ++ more) := rfl

/-- All that has been done is discreet. -/
def AllDiscreet (deeds : List Deed) : Prop :=
  ∀ deed ∈ deeds, deed.isDiscreet = true

/-- A job that does nothing but what is discreet. -/
def Discreet (job : Job α) : Prop :=
  ∀ deeds result deeds', AllDiscreet deeds → job.run.run deeds = some (result, deeds') →
    AllDiscreet deeds'

/-- A job that has done nothing but what is discreet when it fails. -/
def Clean (job : Job α) : Prop :=
  ∀ deeds failure deeds', AllDiscreet deeds → job.run.run deeds = some (.error failure, deeds') →
    AllDiscreet deeds'

/-- A job that does not fail. -/
def Sure (job : Job α) : Prop :=
  ∀ deeds failure deeds', job.run.run deeds ≠ some (.error failure, deeds')

/-- What never fails has nothing to have left behind. -/
theorem Sure.clean {job : Job α} (h : job.Sure) : job.Clean :=
  fun deeds failure deeds' _ hrun => absurd hrun (h deeds failure deeds')

/-- A job that fails has failed in its first part or in the rest. -/
theorem bind_eq_error {job : Job α} {next : α → Job β} {deeds deeds' : List Deed}
    {failure : Failure} (h : (job >>= next).run.run deeds = some (.error failure, deeds')) :
    job.run.run deeds = some (.error failure, deeds') ∨
      ∃ a deeds₁, job.run.run deeds = some (.ok a, deeds₁) ∧
        (next a).run.run deeds₁ = some (.error failure, deeds') := by
  rw [run_bind] at h
  obtain ⟨⟨result, deeds₁⟩, hjob, hnext⟩ := Option.bind_eq_some_iff.mp h
  cases result with
  | error failure₁ =>
    -- The rest has not been started, so the failure is that of the first part.
    obtain ⟨hfailure, rfl⟩ := Prod.mk.inj (Option.some.inj hnext)
    obtain rfl := Except.error.inj hfailure
    exact .inl hjob
  | ok a => exact .inr ⟨a, deeds₁, hjob, hnext⟩

/-- A discreet job may be followed by one that is clean. -/
theorem Discreet.clean_bind {job : Job α} {next : α → Job β} (h : job.Discreet)
    (hnext : ∀ a, (next a).Clean) : (job >>= next).Clean := by
  intro deeds failure deeds' hdeeds hrun
  obtain hjob | ⟨a, deeds₁, hjob, hrest⟩ := bind_eq_error hrun
  · exact h deeds _ deeds' hdeeds hjob
  · exact hnext a deeds₁ failure deeds' (h deeds _ deeds₁ hdeeds hjob) hrest

/-- A clean job may be followed by one that does not fail, whatever that does. -/
theorem Clean.bind_sure {job : Job α} {next : α → Job β} (h : job.Clean)
    (hnext : ∀ a, (next a).Sure) : (job >>= next).Clean := by
  intro deeds failure deeds' hdeeds hrun
  obtain hjob | ⟨a, deeds₁, -, hrest⟩ := bind_eq_error hrun
  · exact h deeds failure deeds' hdeeds hjob
  · exact absurd hrest (hnext a deeds₁ failure deeds')

/-- Sure jobs one after the other are sure. -/
theorem Sure.bind {job : Job α} {next : α → Job β} (h : job.Sure) (hnext : ∀ a, (next a).Sure) :
    (job >>= next).Sure := by
  intro deeds failure deeds' hrun
  obtain hjob | ⟨a, deeds₁, -, hrest⟩ := bind_eq_error hrun
  · exact h deeds failure deeds' hjob
  · exact hnext a deeds₁ failure deeds' hrest

/-- Giving back a value is no failure. -/
theorem sure_pure (a : α) : (pure a : Job α).Sure := by
  intro deeds failure deeds' hrun
  cases hrun

/-- A job is discreet if from everywhere it does the same, and that is discreet. -/
theorem discreet_of_run {job : Job α} {more : List Deed} {result : Except Failure α}
    (hrun : ∀ deeds, job.run.run deeds = some (result, deeds ++ more)) (hmore : AllDiscreet more) :
    job.Discreet := by
  intro deeds result' deeds' hdeeds h
  obtain ⟨-, rfl⟩ := Prod.mk.inj (Option.some.inj ((hrun deeds).symm.trans h))
  intro deed hdeed
  exact (List.mem_append.mp hdeed).elim (hdeeds deed) (hmore deed)

end Job

/-! ## The stages -/

namespace World

/-- The tokens of a program file. -/
def tokens (world : World) (lexicon : Lexicon) (program : String) : Except Failure (List Token) :=
  match world.readText program with
  | .error fault => .error (.unreadProgram program fault)
  | .ok text =>
    match Token.ofText lexicon text with
    | .error fault => .error (.badProgram program fault)
    | .ok tokens => .ok tokens

/-- What the log keeps of reading a program file. -/
def programLog (world : World) (lexicon : Lexicon) (program : String) : List LogEntry :=
  match world.readText program with
  | .error _ => []
  | .ok text => readingLog text (Token.ofText lexicon text)

/-- Why the trace file of a run cannot be created, if so. -/
def traceFault? (world : World) (options : RunOptions) : Option FileFault :=
  if options.trace.isOn then world.barred options.traceFile else none

end World

open Job

variable {fuel : Nat} {world : World} {lexicon : Lexicon} {options : RunOptions}

/-- Consulting the dictionary looks at one file, and gives its lexicon or the failure. -/
theorem run_consult (world : World) (dictionary : Option String) (deeds : List Deed) :
    (consult world dictionary).run.run deeds = some (world.lexicon dictionary,
      deeds ++ [.looked (dictionary.getD World.defaultDictionary)]) := by
  rw [consult, run_bind, run_note]
  cases h : world.lexicon dictionary <;> rfl

/-- Reading a program looks at its file and logs what became of it. -/
theorem run_readProgram (world : World) (lexicon : Lexicon) (program : String)
    (deeds : List Deed) :
    (readProgram world lexicon program).run.run deeds = some (world.tokens lexicon program,
      deeds ++ (.looked program :: (world.programLog lexicon program).map .logged)) := by
  rw [readProgram, run_bind, run_note, World.tokens, World.programLog]
  cases world.readText program with
  | error fault => rfl
  | ok text =>
    -- The log is written before the verdict on the text, so it is there in both cases.
    dsimp only [Option.bind_some]
    rw [run_bind, run_note, List.append_assoc]
    cases Token.ofText lexicon text <;> rfl

/-- Only a trace that is on needs its file, and creating that is all that is done. -/
theorem run_createTrace (world : World) (options : RunOptions) (deeds : List Deed) :
    (createTrace world options).run.run deeds =
      match world.traceFault? options with
      | some fault => some (.error (.noTrace options.traceFile fault), deeds)
      | none => some (.ok (),
          deeds ++ if options.trace.isOn then [.created options.traceFile] else []) := by
  rw [createTrace, World.traceFault?]
  cases options.trace.isOn with
  | true => cases world.barred options.traceFile <;> rfl
  | false =>
    rw [if_neg (by decide), if_neg (by decide), if_neg (by decide), List.append_nil]
    rfl

/-- An engine with a program has nothing to fail for. -/
theorem run_runEngine {engine : Engine} {program : List Rung}
    (hprogram : engine.program = some program) (fuel : Nat) (options : RunOptions)
    (deeds : List Deed) :
    (runEngine fuel options engine).run.run deeds =
      (engine.machine.run fuel program).map fun (reason, m) =>
        let (report, engine) := engine.conclude reason m
        (.ok (), deeds ++ options.deeds report engine) := by
  rw [runEngine, Engine.run, hprogram]
  dsimp only
  rw [Engine.runProgram_eq]
  cases engine.machine.run fuel program <;> rfl

/-- The lines of some texts. -/
def linesOf (texts : List String) : List String :=
  texts.map (· ++ "\n")

/-- The lines are printed that the output takes, and it is a fault of the output if it does not
    take them all. -/
theorem run_printLines (output : Sink) (texts : List String) (deeds : List Deed) :
    (printLines output texts).run.run deeds =
      some (.ok (if output.takes (linesOf texts) = linesOf texts then none else some .full),
        deeds ++ (output.takes (linesOf texts)).map .printed) := by
  induction texts generalizing output deeds with
  | nil =>
    -- No line is left, and every output takes none.
    have htakes : output.takes (linesOf []) = [] := output.takes_nil
    rw [htakes, List.map_nil, List.append_nil]
    rfl
  | cons text rest ih =>
    have hsplit : output.takes (linesOf (text :: rest)) =
        output.takes [text ++ "\n"] ++ (output.after [text ++ "\n"]).takes (linesOf rest) :=
      output.takes_append [text ++ "\n"] (linesOf rest)
    rw [printLines, hsplit]
    -- The output takes the first line, or it is full and takes no other.
    cases hwrite : output.write (text ++ "\n") with
    | ok output' =>
      -- The line is taken, and the rest is printed on what room there is left.
      have htaken : output.takes [text ++ "\n"] = [text ++ "\n"] :=
        Sink.takes_of_write_eq_ok hwrite (by simp)
      have hcons : [text ++ "\n"] ++ output'.takes (linesOf rest) = linesOf (text :: rest) ↔
          output'.takes (linesOf rest) = linesOf rest := by
        simp [linesOf]
      dsimp only
      rw [run_bind, run_note]
      dsimp only [Option.bind_some]
      rw [ih, htaken, ← Sink.write_eq_ok hwrite, List.map_append, List.append_assoc]
      simp only [hcons]
      rfl
    | error fault =>
      -- A full output takes nothing of the rest either, so nothing is printed from here on.
      have hroom := Sink.room_of_write_eq_error hwrite
      obtain rfl := Sink.eq_full_of_write_eq_error hwrite
      rw [Sink.after_of_room_eq_zero hroom, Sink.takes_of_room_eq_zero hroom,
        Sink.takes_of_room_eq_zero hroom, List.append_nil, if_neg (by simp [linesOf]),
        List.map_nil, List.append_nil]
      rfl

/-- A fault of the output is no failure of the job: it is what the job gives back. -/
theorem sure_printLines (output : Sink) (texts : List String) : (printLines output texts).Sure := by
  intro deeds failure deeds' hrun
  rw [run_printLines] at hrun
  cases hrun

/-- The tape that a run starts from, the last token first. -/
def tapeOf (lexicon : Lexicon) (tokens : List Token) : List Rung :=
  (tokens.map (Rung.ofToken lexicon)).reverse

/-- The engine of a run has the program of its tokens. -/
theorem program_engine (options : RunOptions) (world : World) (lexicon : Lexicon)
    (tokens : List Token) :
    (options.engine world lexicon tokens).program = some (tapeOf lexicon tokens) := by
  unfold RunOptions.engine
  dsimp only
  split <;> rfl

/-- The dictionary is only looked at. -/
theorem discreet_consult (dictionary : Option String) : (consult world dictionary).Discreet := by
  refine discreet_of_run (run_consult world dictionary) fun deed hdeed => ?_
  obtain rfl := List.mem_singleton.mp hdeed
  rfl

/-- A program is only looked at and logged. -/
theorem discreet_readProgram (program : String) : (readProgram world lexicon program).Discreet := by
  refine discreet_of_run (run_readProgram world lexicon program) fun deed hdeed => ?_
  obtain rfl | hlogged := List.mem_cons.mp hdeed
  · rfl
  · obtain ⟨entry, -, rfl⟩ := List.mem_map.mp hlogged
    rfl

/-- A trace file that cannot be created has not been created. -/
theorem clean_createTrace : (createTrace world options).Clean := by
  intro deeds failure deeds' hdeeds hrun
  rw [run_createTrace] at hrun
  cases hfault : world.traceFault? options with
  | some fault =>
    rw [hfault] at hrun
    obtain ⟨-, rfl⟩ := Prod.mk.inj (Option.some.inj hrun)
    exact hdeeds
  | none =>
    rw [hfault] at hrun
    cases hrun

/-- A run does not fail if there is a program. -/
theorem sure_runEngine {engine : Engine} {program : List Rung}
    (hprogram : engine.program = some program) : (runEngine fuel options engine).Sure := by
  intro deeds failure deeds' hrun
  rw [run_runEngine hprogram] at hrun
  obtain ⟨result, -, hresult⟩ := Option.map_eq_some_iff.mp hrun
  cases hresult

/-! ## Actions -/

/-- The program that an action is about. -/
def Action.program? : Action → Option String
  | .run options => some options.program
  | .tokens program => some program
  | .lookup _ => none

/-- An action that fails has done so before anything but the log could show it. -/
theorem clean_carryOut (action : Action) : (action.carryOut fuel world lexicon).Clean := by
  cases action with
  | run options =>
    -- Once the program has been read only the trace file can fail, and the run is sure.
    refine (discreet_readProgram options.program).clean_bind fun tokens => ?_
    exact clean_createTrace.bind_sure fun _ =>
      (sure_runEngine (program_engine ..)).bind fun _ => sure_pure none
  | tokens program =>
    exact (discreet_readProgram program).clean_bind fun tokens => (sure_printLines _ _).clean
  | lookup words => exact (sure_printLines _ _).clean

/-- A program that cannot be used is the failure of each action that reads one. -/
theorem run_carryOut_of_error {action : Action} {program : String} {failure : Failure}
    (hprogram : action.program? = some program)
    (h : world.tokens lexicon program = .error failure) (deeds : List Deed) :
    (action.carryOut fuel world lexicon).run.run deeds = some (.error failure,
      deeds ++ (.looked program :: (world.programLog lexicon program).map .logged)) := by
  cases action with
  | run options | tokens _ =>
    obtain rfl := Option.some.inj hprogram
    rw [Action.carryOut, run_bind, run_readProgram, h]
    rfl
  | lookup words => cases hprogram

/-- A trace file that cannot be created is the failure of a run whose program is all right. -/
theorem run_carryOut_of_fault {fault : FileFault} {tokens : List Token}
    (h : world.tokens lexicon options.program = .ok tokens)
    (hfault : world.traceFault? options = some fault) (deeds : List Deed) :
    (Action.carryOut fuel world lexicon (.run options)).run.run deeds =
      some (.error (.noTrace options.traceFile fault), deeds ++
        (.looked options.program :: (world.programLog lexicon options.program).map .logged)) := by
  rw [Action.carryOut, run_bind, run_readProgram, h]
  dsimp only [Option.bind_some]
  rw [run_bind, run_createTrace, hfault]
  rfl

/-- What has been done when the program of a run is started. -/
def RunOptions.opening (options : RunOptions) (world : World) (lexicon : Lexicon) : List Deed :=
  (.looked options.program :: (world.programLog lexicon options.program).map .logged) ++
    if options.trace.isOn then [.created options.traceFile] else []

/-- A run whose files are all right does not fail: it completes when its engine does. -/
theorem run_carryOut_run {tokens : List Token}
    (h : world.tokens lexicon options.program = .ok tokens)
    (hfault : world.traceFault? options = none) (deeds : List Deed) :
    (Action.carryOut fuel world lexicon (.run options)).run.run deeds =
      let engine := options.engine world lexicon tokens
      (engine.machine.run fuel (tapeOf lexicon tokens)).map fun (reason, m) =>
        let (report, engine) := engine.conclude reason m
        (.ok none, deeds ++ options.opening world lexicon ++ options.deeds report engine) := by
  -- The three stages one after the other, each from the deeds of those before.
  rw [Action.carryOut, run_bind, run_readProgram, h]
  dsimp only [Option.bind_some]
  rw [run_bind, run_createTrace, hfault]
  dsimp only [Option.bind_some]
  rw [run_bind, run_runEngine (program_engine ..), RunOptions.opening, List.append_assoc deeds]
  cases (options.engine world lexicon tokens).machine.run fuel (tapeOf lexicon tokens) <;> rfl

/-! ## Command lines -/

variable {arguments : List String} {invocation : Invocation}

/-- Arguments that are no command line are reported, and nothing else is done. -/
theorem perform_of_error {usage : Usage}
    (h : Invocation.ofArguments world.environment arguments = .error usage) :
    perform fuel world arguments = some
      { ending := .misused usage, deeds := usage.deeds world.output } := by
  rw [perform, h]

/-- A command line is carried out from no deeds at all. -/
theorem perform_of_ok (h : Invocation.ofArguments world.environment arguments = .ok invocation) :
    perform fuel world arguments =
      ((invocation.carryOut fuel world).run.run []).map fun (result, deeds) =>
        { ending := .ofResult result, deeds } := by
  rw [perform, h]

/-- The dictionary is read, and the action carried out with it. -/
theorem run_carryOut_of_lexicon (h : world.lexicon invocation.dictionary = .ok lexicon)
    (deeds : List Deed) : (invocation.carryOut fuel world).run.run deeds =
      (invocation.action.carryOut fuel world lexicon).run.run
        (deeds ++ [.looked (invocation.dictionary.getD World.defaultDictionary)]) := by
  rw [Invocation.carryOut, run_bind, run_consult, h]
  rfl

/-- The dictionary cannot be used. -/
theorem perform_of_lexicon_error {failure : Failure}
    (hinvocation : Invocation.ofArguments world.environment arguments = .ok invocation)
    (h : world.lexicon invocation.dictionary = .error failure) :
    perform fuel world arguments = some
      { ending := .failed failure
        deeds := [.looked (invocation.dictionary.getD World.defaultDictionary)] } := by
  rw [perform_of_ok hinvocation, Invocation.carryOut, run_bind, run_consult, h]
  rfl

/-- The program cannot be read. -/
theorem perform_of_tokens_error {program : String} {failure : Failure}
    (hinvocation : Invocation.ofArguments world.environment arguments = .ok invocation)
    (hlexicon : world.lexicon invocation.dictionary = .ok lexicon)
    (hprogram : invocation.action.program? = some program)
    (h : world.tokens lexicon program = .error failure) :
    perform fuel world arguments = some
      { ending := .failed failure
        deeds := .looked (invocation.dictionary.getD World.defaultDictionary) ::
          .looked program :: (world.programLog lexicon program).map .logged } := by
  rw [perform_of_ok hinvocation, run_carryOut_of_lexicon hlexicon,
    run_carryOut_of_error hprogram h]
  rfl

/-- The trace file cannot be created. -/
theorem perform_of_traceFault {fault : FileFault} {tokens : List Token}
    (hinvocation : Invocation.ofArguments world.environment arguments = .ok invocation)
    (hlexicon : world.lexicon invocation.dictionary = .ok lexicon)
    (haction : invocation.action = .run options)
    (htokens : world.tokens lexicon options.program = .ok tokens)
    (h : world.traceFault? options = some fault) :
    perform fuel world arguments = some
      { ending := .failed (.noTrace options.traceFile fault)
        deeds := .looked (invocation.dictionary.getD World.defaultDictionary) ::
          .looked options.program ::
            (world.programLog lexicon options.program).map .logged } := by
  rw [perform_of_ok hinvocation, run_carryOut_of_lexicon hlexicon, haction,
    run_carryOut_of_fault htokens h]
  rfl

/-- The exit code 1 stands for a failure, and commands are clean: only what is discreet has been
    done. -/
theorem allDiscreet_of_exitCode {completion : Completion}
    (h : perform fuel world arguments = some completion) (hcode : completion.exitCode = 1) :
    AllDiscreet completion.deeds := by
  cases hinvocation : Invocation.ofArguments world.environment arguments with
  | error usage =>
    -- No command line: the code is 0 if help was asked for and 2 otherwise.
    rw [perform_of_error hinvocation] at h
    obtain rfl := Option.some.inj h
    cases usage <;> cases hcode
  | ok invocation =>
    rw [perform_of_ok hinvocation] at h
    obtain ⟨⟨result, deeds⟩, hrun, rfl⟩ := Option.map_eq_some_iff.mp h
    cases result with
    -- No failure: the code is 0, or 101 if the output was full.
    | ok fault => cases fault <;> cases hcode
    | error failure =>
      -- The dictionary is looked at first, and every action is clean.
      have hclean : (invocation.carryOut fuel world).Clean :=
        (discreet_consult invocation.dictionary).clean_bind fun _ => clean_carryOut _
      exact hclean [] failure deeds nofun hrun

namespace Completion

variable {completion : Completion}

/-- What is discreet prints nothing. -/
theorem printed_of_allDiscreet {deeds : List Deed} (h : AllDiscreet deeds) :
    deeds.filterMap Deed.printed? = [] := by
  rw [List.filterMap_eq_nil_iff]
  intro deed hdeed
  cases deed with
  | printed text => cases h _ hdeed
  | _ => rfl

/-- Nothing has been printed if all deeds are discreet. -/
theorem stdout_of_allDiscreet (h : AllDiscreet completion.deeds) : completion.stdout = "" := by
  rw [stdout, printed_of_allDiscreet h]
  rfl

/-- No file has been created if all deeds are discreet. -/
theorem created_of_allDiscreet (h : AllDiscreet completion.deeds) : completion.created = [] := by
  rw [created, List.filterMap_eq_nil_iff]
  intro deed hdeed
  cases deed with
  | created file => cases h _ hdeed
  | _ => rfl

end Completion

/-- A command has printed the lines that its output takes.  It exits with code 0 if these are all,
    and has broken off otherwise. -/
structure HasPrinted (world : World) (lines : List String) (completion : Completion) : Prop where
  stdout : completion.stdout = String.join (world.output.takes lines)
  exitCode : completion.exitCode = if world.output.takes lines = lines then 0 else 101

/-- What comes before the lines is not printed. -/
theorem hasPrinted_of_deeds {before : List Deed} (hbefore : AllDiscreet before)
    (texts : List String) {completion : Completion}
    (hending : completion.ending = .ofResult (.ok
      (if world.output.takes (linesOf texts) = linesOf texts then none else some .full)))
    (hdeeds : completion.deeds = before ++ (world.output.takes (linesOf texts)).map .printed) :
    HasPrinted world (linesOf texts) completion := by
  constructor
  · rw [Completion.stdout, hdeeds, List.filterMap_append, Completion.printed_of_allDiscreet hbefore,
      List.nil_append, List.filterMap_map]
    exact congrArg String.join List.filterMap_some
  · rw [Completion.exitCode, hending]
    by_cases htakes : world.output.takes (linesOf texts) = linesOf texts
    · rw [if_pos htakes, if_pos htakes]
      rfl
    · rw [if_neg htakes, if_neg htakes]
      rfl

/-- A program that can be read is listed, one token on a line. -/
theorem exists_hasPrinted_tokens {program : String} {tokens : List Token}
    (hinvocation : Invocation.ofArguments world.environment arguments = .ok invocation)
    (hlexicon : world.lexicon invocation.dictionary = .ok lexicon)
    (haction : invocation.action = .tokens program)
    (htokens : world.tokens lexicon program = .ok tokens) :
    ∃ completion, perform fuel world arguments = some completion ∧
      HasPrinted world (linesOf (tokens.map Token.display)) completion := by
  have hlog : ∀ log : List LogEntry,
      AllDiscreet (.looked (invocation.dictionary.getD World.defaultDictionary) ::
        .looked program :: log.map .logged) := by
    intro log deed hdeed
    simp only [List.mem_cons, List.mem_map] at hdeed
    obtain rfl | rfl | ⟨entry, -, rfl⟩ := hdeed <;> rfl
  rw [perform_of_ok hinvocation, run_carryOut_of_lexicon hlexicon, haction, Action.carryOut,
    run_bind, run_readProgram, htokens]
  dsimp only [Option.bind_some]
  rw [run_printLines]
  exact ⟨_, rfl, hasPrinted_of_deeds (hlog (world.programLog lexicon program)) _ rfl rfl⟩

/-- The words that are looked up are answered, one on a line. -/
theorem exists_hasPrinted_lookup {words : List String}
    (hinvocation : Invocation.ofArguments world.environment arguments = .ok invocation)
    (hlexicon : world.lexicon invocation.dictionary = .ok lexicon)
    (haction : invocation.action = .lookup words) :
    ∃ completion, perform fuel world arguments = some completion ∧
      HasPrinted world (linesOf (words.map (lookUp lexicon))) completion := by
  have hlooked : AllDiscreet [.looked (invocation.dictionary.getD World.defaultDictionary)] := by
    intro deed hdeed
    obtain rfl := List.mem_singleton.mp hdeed
    rfl
  rw [perform_of_ok hinvocation, run_carryOut_of_lexicon hlexicon, haction, Action.carryOut,
    run_printLines]
  exact ⟨_, rfl, hasPrinted_of_deeds hlooked _ rfl rfl⟩

/-- A command that exits with code 1 has printed nothing and created no file: all it has done is
    to look at files and to log.

    A dictionary that cannot be used is reported before the program is looked at, and a program
    that cannot be read, or a trace file that cannot be created, before anything else is done.
    Once the dictionary and the program have been read and the trace file can be created, the
    command completes if and only if the run ends, and then it exits with code 0, whatever the
    run ended for and whatever became of its output and its trace.

    The other commands print lines, and break off with a code of its own if the output refuses
    one of them. -/
theorem command_line_fails_cleanly (fuel : Nat) (world : World) (arguments : List String) :
    (∀ completion, perform fuel world arguments = some completion → completion.exitCode = 1 →
      completion.stdout = "" ∧ completion.created = [] ∧ AllDiscreet completion.deeds) ∧
    ∀ invocation, Invocation.ofArguments world.environment arguments = .ok invocation →
      let dictionary := invocation.dictionary.getD World.defaultDictionary
      (∀ failure, world.lexicon invocation.dictionary = .error failure →
        perform fuel world arguments =
          some { ending := .failed failure, deeds := [.looked dictionary] }) ∧
      ∀ lexicon, world.lexicon invocation.dictionary = .ok lexicon →
        (∀ program failure, invocation.action.program? = some program →
          world.tokens lexicon program = .error failure →
          ∃ log : List LogEntry, perform fuel world arguments = some
            { ending := .failed failure
              deeds := .looked dictionary :: .looked program :: log.map .logged }) ∧
        (∀ options tokens, invocation.action = .run options →
          world.tokens lexicon options.program = .ok tokens →
          (∀ fault, world.traceFault? options = some fault →
            ∃ log : List LogEntry, perform fuel world arguments = some
              { ending := .failed (.noTrace options.traceFile fault)
                deeds := .looked dictionary :: .looked options.program :: log.map .logged }) ∧
          (world.traceFault? options = none →
            (perform fuel world arguments).map Completion.exitCode =
              ((options.engine world lexicon tokens).machine.run fuel
                (tapeOf lexicon tokens)).map fun _ => 0)) ∧
        (∀ program tokens, invocation.action = .tokens program →
          world.tokens lexicon program = .ok tokens →
          ∃ completion, perform fuel world arguments = some completion ∧
            HasPrinted world (linesOf (tokens.map Token.display)) completion) ∧
        ∀ words, invocation.action = .lookup words →
          ∃ completion, perform fuel world arguments = some completion ∧
            HasPrinted world (linesOf (words.map (lookUp lexicon))) completion := by
  refine ⟨fun completion h hcode => ?_, fun invocation hinvocation =>
    ⟨fun failure => perform_of_lexicon_error hinvocation, fun lexicon hlexicon =>
      ⟨fun program failure hprogram h =>
          ⟨_, perform_of_tokens_error hinvocation hlexicon hprogram h⟩,
        fun options tokens haction htokens =>
          ⟨fun fault h => ⟨_, perform_of_traceFault hinvocation hlexicon haction htokens h⟩,
            fun hfault => ?_⟩,
        fun program tokens haction htokens =>
          exists_hasPrinted_tokens hinvocation hlexicon haction htokens,
        fun words haction => exists_hasPrinted_lookup hinvocation hlexicon haction⟩⟩⟩
  · -- The exit code is 1: all deeds are discreet, and so nothing shows.
    have hdeeds := allDiscreet_of_exitCode h hcode
    exact ⟨Completion.stdout_of_allDiscreet hdeeds, Completion.created_of_allDiscreet hdeeds,
      hdeeds⟩
  · -- The files are all right: the completions are those of the run, and each has the code 0.
    rw [perform_of_ok hinvocation, run_carryOut_of_lexicon hlexicon, haction,
      run_carryOut_run htokens hfault, Option.map_map, Option.map_map]
    rfl

/-- A file `poem` that says `count five`, a trace file that cannot be created, and an output that
    takes nothing. -/
def countingPoem : World where
  read file :=
    if file = "poem" then .ok [99, 111, 117, 110, 116, 32, 102, 105, 118, 101] else .error .missing
  barred file := if file = "sealed" then some .missing else none
  output := { room := some 0 }

/-- A program that is not there, a trace file that cannot be created, and a run that ends although
    its output is lost. -/
theorem command_line_fails_cleanly_poem :
    (∃ completion, perform 9 countingPoem ["run", "lost"] = some completion ∧
      completion.exitCode = 1 ∧ completion.stdout = "" ∧ completion.created = []) ∧
    (∃ log : List LogEntry,
      perform 9 countingPoem ["run", "--trace=top", "--trace-file=sealed", "poem"] = some
        { ending := .failed (.noTrace "sealed" .missing)
          deeds := .looked "haifu_words.txt" :: .looked "poem" :: log.map .logged }) ∧
    (perform 9 countingPoem ["run", "--trace=top", "poem"]).map Completion.exitCode = some 0 := by
  -- The run of the third command line ends.
  let options : RunOptions := ⟨"poem", [], .topLevel, "haifu_execution_log.txt", none⟩
  have hread : (countingPoem.tokens .empty "poem").toOption.map (fun tokens =>
      ((options.engine countingPoem .empty tokens).machine.run 9 (tapeOf .empty tokens)).isSome) =
        some true := by decide +kernel
  obtain ⟨tokens, htokens, hends⟩ := exists_of_toOption_map hread
  refine ⟨?_, ?_, ?_⟩
  · obtain ⟨hfails, hok⟩ := command_line_fails_cleanly 9 countingPoem ["run", "lost"]
    obtain ⟨log, hperform⟩ := ((hok
      { dictionary := none
        action := .run ⟨"lost", [], .off, "haifu_execution_log.txt", none⟩ } (by decide +kernel)).2
      .empty rfl).1 "lost" (.unreadProgram "lost" .missing) rfl rfl
    obtain ⟨hstdout, hcreated, -⟩ := hfails _ hperform rfl
    exact ⟨_, hperform, rfl, hstdout, hcreated⟩
  · obtain ⟨-, hok⟩ := command_line_fails_cleanly 9 countingPoem
      ["run", "--trace=top", "--trace-file=sealed", "poem"]
    exact (((hok
      { dictionary := none
        action := .run ⟨"poem", [], .topLevel, "sealed", none⟩ } (by decide +kernel)).2
      .empty rfl).2.1 _ tokens rfl htokens).1 .missing rfl
  · obtain ⟨-, hok⟩ := command_line_fails_cleanly 9 countingPoem ["run", "--trace=top", "poem"]
    have hexit := (((hok { dictionary := none, action := .run options } (by decide +kernel)).2
      .empty rfl).2.1 _ tokens rfl htokens).2 rfl
    obtain ⟨result, hrun⟩ := Option.isSome_iff_exists.mp hends
    rw [hexit, hrun]
    rfl

end Verse
