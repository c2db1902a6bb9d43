import Provision.Proofs.Deployment.Pipeline

/-!
The order of a run, for any tools.

What each stage does is said on its own: loading and validating accept or reject (`Accepts`,
`Rejects`), formatting gives the texts that are written or fails (`Prints`, `Misprints`). A
run ends by completing or by failing in one stage (`Completes`, `Fails`), whose premises are that
every stage before succeeded. A run does exactly one of the two (`completes_or_fails`), and its
end is read off from which one (`run_of_completes`, `run_of_fails`).

* `run_sequenced` — a tool is used exactly when it is due (`Due`), a run succeeds exactly if it
  completes, and otherwise its error is that of the stage in which it fails; the state in which
  it ends says which.
* `check_agrees` — a check rejects exactly what a run rejects before it uses any tool, with the
  same error, and what it accepts is what a run works on.
-/

namespace Provision

abbrev Request.flavour (request : Request) : Flavour := Flavour.ofClassic request.options.classic

/-! ### Formatting -/

/-- The texts that are handed on to be written: the formatted ones, or those that were
generated. -/
inductive Prints (tools : Tools) (generated : Generated) : Bool → String × String → Prop
  | plain : Prints tools generated false (generated.template, generated.parameters)
  | pretty {template parameters : String}
      (first : tools.formatTemplate generated.template = .ok template)
      (second : tools.formatParameters generated.parameters = .ok parameters) :
      Prints tools generated true (template, parameters)

/-- What formatting asks of the tools if it does not fail. -/
def Generated.printing (generated : Generated) (prettyPrint : Bool) : List Call :=
  if prettyPrint then
    [.formatTemplate generated.template, .formatParameters generated.parameters]
  else []

/-- The text that cannot be formatted: the error, and what was asked until then. -/
inductive Misprints (tools : Tools) (generated : Generated) : Error → List Call → Prop
  | template {cause : Error} (fails : tools.formatTemplate generated.template = .error cause) :
      Misprints tools generated cause [.formatTemplate generated.template]
  | parameters {cause : Error} {template : String}
      (first : tools.formatTemplate generated.template = .ok template)
      (fails : tools.formatParameters generated.parameters = .error cause) :
      Misprints tools generated cause (generated.printing true)

section Formatting

variable {tools : Tools} {generated : Generated} {prettyPrint : Bool}

theorem postProcess_of_prints {texts : String × String}
    (prints : Prints tools generated prettyPrint texts) :
    postProcess tools prettyPrint generated = (.ok texts, generated.printing prettyPrint) := by
  unfold postProcess
  cases prints with
  | plain => rfl
  | pretty first second =>
      simp only [if_true, first, second]
      rfl

theorem postProcess_of_misprints {cause : Error} {formatted : List Call}
    (misprints : Misprints tools generated cause formatted) :
    postProcess tools true generated = (.error cause, formatted) := by
  unfold postProcess
  cases misprints with
  | template fails => simp only [if_true, fails]
  | parameters first fails =>
      simp only [if_true, first, fails]
      rfl

/-- The template is asked for first. -/
theorem formatTemplate_prefix (tools : Tools) (generated : Generated) :
    [.formatTemplate generated.template] <+: (postProcess tools true generated).2 := by
  unfold postProcess
  simp only [if_true]
  split
  · exact List.prefix_rfl
  · split <;> exact List.prefix_append [_] _

/-- Then come the parameters, unless the template could not be formatted. -/
theorem printing_of_first {template : String}
    (first : tools.formatTemplate generated.template = .ok template) :
    (postProcess tools true generated).2 = generated.printing true := by
  unfold postProcess
  simp only [if_true, first]
  split <;> rfl

theorem prints_or_misprints (tools : Tools) (generated : Generated) (prettyPrint : Bool) :
    (∃ texts, Prints tools generated prettyPrint texts) ∨
      prettyPrint = true ∧ ∃ cause formatted, Misprints tools generated cause formatted := by
  cases prettyPrint with
  | false => exact .inl ⟨_, .plain⟩
  | true =>
      cases first : tools.formatTemplate generated.template with
      | error cause => exact .inr ⟨rfl, cause, _, .template first⟩
      | ok template =>
          cases second : tools.formatParameters generated.parameters with
          | error cause => exact .inr ⟨rfl, cause, _, .parameters first second⟩
          | ok parameters => exact .inl ⟨_, .pretty first second⟩

theorem prints_of_postProcess {texts : String × String} {formatted : List Call}
    (h : postProcess tools prettyPrint generated = (.ok texts, formatted)) :
    Prints tools generated prettyPrint texts := by
  rcases prints_or_misprints tools generated prettyPrint with
    ⟨other, prints⟩ | ⟨rfl, cause, calls, misprints⟩
  · rw [postProcess_of_prints prints] at h
    obtain ⟨same, -⟩ := Prod.mk.inj h
    exact Except.ok.inj same ▸ prints
  · rw [postProcess_of_misprints misprints] at h
    cases h

/-- Formatting writes nothing. -/
theorem write_notMem_printing (artifacts : Artifacts) :
    .write artifacts ∉ generated.printing prettyPrint := by
  unfold Generated.printing
  split
  · simp
  · exact List.not_mem_nil

/-- A successful run writes once. -/
theorem Stages.eq_of_write_mem {request : Request} {world : World}
    (stages : Stages tools request world) {artifacts : Artifacts}
    (wrote : .write artifacts ∈ (run tools request world).calls) :
    artifacts = stages.artifacts := by
  have formatted : stages.formatted = stages.generated.printing request.options.prettyPrint :=
    (Prod.mk.inj (stages.formats.symm.trans
      (postProcess_of_prints (prints_of_postProcess stages.formats)))).2
  rw [run_eq_of_stages stages, formatted] at wrote
  rcases List.mem_append.mp wrote with before | last
  · rcases List.mem_cons.mp before with generate | format
    · cases generate
    · exact absurd format (write_notMem_printing artifacts)
  · exact Call.write.inj (List.mem_singleton.mp last)

end Formatting

/-! ### How a run ends -/

variable {tools : Tools} {request : Request} {world : World} {validated : Validated}
  {generated : Generated} {between : World} {texts : String × String}

/-- Everything up to generating succeeds. -/
structure Generates (tools : Tools) (request : Request) (world : World) (validated : Validated)
    (generated : Generated) (between : World) : Prop where
  accepted : Accepts request world.files validated
  done : tools.generate validated request.flavour world = (.ok generated, between)

/-- The calls of a run that comes to write. -/
def allCalls (request : Request) (validated : Validated) (generated : Generated)
    (texts : String × String) : List Call :=
  .generate validated request.flavour :: generated.printing request.options.prettyPrint
    ++ [.write (validated.artifacts request.options generated texts)]

/-- Every stage succeeds: the report, the calls, and the world in the end. -/
inductive Completes (tools : Tools) (request : Request) (world : World) :
    Report → List Call → World → Prop
  | intro {validated : Validated} {generated : Generated} {between later : World}
      {texts : String × String}
      (generates : Generates tools request world validated generated between)
      (prints : Prints tools generated request.options.prettyPrint texts)
      (writes : tools.write (validated.artifacts request.options generated texts) between
        = (.ok (), later)) :
      Completes tools request world
        { outputDirectory := validated.outputDirectory
          version := validated.definition.version
          certsGenerated := generated.certsGenerated
          finalState := .done }
        (allCalls request validated generated texts) later

/-- The first stage that fails: its error, the calls until then, and the world in the end. -/
inductive Fails (tools : Tools) (request : Request) (world : World) :
    Stage → Error → List Call → World → Prop
  | rejected {stage : Stage} {cause : Error} (rejects : Rejects request world.files stage cause) :
      Fails tools request world stage cause [] world
  | generate {validated : Validated} {cause : Error} {later : World}
      (accepted : Accepts request world.files validated)
      (fails : tools.generate validated request.flavour world = (.error cause, later)) :
      Fails tools request world .generate cause [.generate validated request.flavour] later
  | postProcess {validated : Validated} {generated : Generated} {between : World} {cause : Error}
      {formatted : List Call}
      (generates : Generates tools request world validated generated between)
      (pretty : request.options.prettyPrint = true)
      (misprints : Misprints tools generated cause formatted) :
      Fails tools request world .postProcess cause
        (.generate validated request.flavour :: formatted) between
  | persist {validated : Validated} {generated : Generated} {between later : World}
      {texts : String × String} {cause : Error}
      (generates : Generates tools request world validated generated between)
      (prints : Prints tools generated request.options.prettyPrint texts)
      (fails : tools.write (validated.artifacts request.options generated texts) between
        = (.error cause, later)) :
      Fails tools request world .persist cause (allCalls request validated generated texts) later

theorem run_of_accepts (accepted : Accepts request world.files validated) :
    run tools request world = deploy tools request validated request.validatedRun world :=
  run_of_check_ok (check_eq_ok_iff.mpr accepted) tools

/-- A run that has generated goes on to format and to write. -/
theorem run_of_generates (generates : Generates tools request world validated generated between) :
    ∃ rest, (run tools request world).calls = .generate validated request.flavour
      :: (postProcess tools request.options.prettyPrint generated).2 ++ rest := by
  rw [run_of_accepts generates.accepted]
  unfold deploy
  rcases printed : postProcess tools request.options.prettyPrint generated
    with ⟨_ | texts, formatted⟩
  · simp only [generates.done, printed, Run.step_ok, Run.step_error]
    exact ⟨[], (List.append_nil _).symm⟩
  · refine ⟨[.write (validated.artifacts request.options generated texts)], ?_⟩
    rcases written : tools.write (validated.artifacts request.options generated texts) between
      with ⟨_ | _, later⟩
    · simp only [generates.done, printed, written, Run.step_ok, Run.step_error]
      rfl
    · simp only [generates.done, printed, written, Run.step_ok]
      rfl

theorem run_of_completes {report : Report} {calls : List Call} {later : World}
    (completes : Completes tools request world report calls later) :
    run tools request world = ⟨.ok report, .done, calls, later⟩ := by
  obtain ⟨generates, prints, writes⟩ := completes
  rw [run_of_accepts generates.accepted]
  unfold deploy
  simp only [generates.done, postProcess_of_prints prints, writes, Run.step_ok]
  rfl

theorem run_of_fails {stage : Stage} {cause : Error} {calls : List Call} {later : World}
    (fails : Fails tools request world stage cause calls later) :
    run tools request world
      = ⟨.error (.stage stage request.options.definitionPath cause), .failed stage, calls,
          later⟩ := by
  cases fails with
  | rejected rejects => exact run_of_rejects rejects
  | generate accepted fails =>
      rw [run_of_accepts accepted]
      unfold deploy
      simp only [fails, Run.step_error]
      rfl
  | postProcess generates pretty misprints =>
      rw [run_of_accepts generates.accepted]
      unfold deploy
      simp only [generates.done, pretty, postProcess_of_misprints misprints, Run.step_ok,
        Run.step_error]
      rfl
  | persist generates prints fails =>
      rw [run_of_accepts generates.accepted]
      unfold deploy
      simp only [generates.done, postProcess_of_prints prints, fails, Run.step_ok, Run.step_error]
      rfl

theorem completes_or_fails (tools : Tools) (request : Request) (world : World) :
    (∃ report calls later, Completes tools request world report calls later) ∨
      ∃ stage cause calls later, Fails tools request world stage cause calls later := by
  rcases accepts_or_rejects request world.files with ⟨validated, accepted⟩ | ⟨_, _, rejects⟩
  · cases done : tools.generate validated request.flavour world with
    | mk result between =>
        cases result with
        | error cause => exact .inr ⟨_, _, _, _, .generate accepted done⟩
        | ok generated =>
            have generates : Generates tools request world validated generated between :=
              ⟨accepted, done⟩
            rcases prints_or_misprints tools generated request.options.prettyPrint with
              ⟨texts, prints⟩ | ⟨pretty, cause, formatted, misprints⟩
            · cases written : tools.write (validated.artifacts request.options generated texts)
                between with
              | mk result later =>
                  cases result with
                  | error cause => exact .inr ⟨_, _, _, _, .persist generates prints written⟩
                  | ok _ => exact .inl ⟨_, _, _, .intro generates prints written⟩
            · exact .inr ⟨_, _, _, _, .postProcess generates pretty misprints⟩
  · exact .inr ⟨_, _, _, _, .rejected rejects⟩

/-! ### When a tool is used -/

/-- `Due tools request world before call`: after `before`, the next use of a tool is `call`. -/
inductive Due (tools : Tools) (request : Request) (world : World) : List Call → Call → Prop
  | generate {validated : Validated} (accepted : Accepts request world.files validated) :
      Due tools request world [] (.generate validated request.flavour)
  | formatTemplate {validated : Validated} {generated : Generated} {between : World}
      (generates : Generates tools request world validated generated between)
      (pretty : request.options.prettyPrint = true) :
      Due tools request world [.generate validated request.flavour]
        (.formatTemplate generated.template)
  | formatParameters {validated : Validated} {generated : Generated} {between : World}
      {template : String} (generates : Generates tools request world validated generated between)
      (pretty : request.options.prettyPrint = true)
      (first : tools.formatTemplate generated.template = .ok template) :
      Due tools request world
        [.generate validated request.flavour, .formatTemplate generated.template]
        (.formatParameters generated.parameters)
  | write {validated : Validated} {generated : Generated} {between : World}
      {texts : String × String}
      (generates : Generates tools request world validated generated between)
      (prints : Prints tools generated request.options.prettyPrint texts) :
      Due tools request world
        (.generate validated request.flavour :: generated.printing request.options.prettyPrint)
        (.write (validated.artifacts request.options generated texts))

/-- Calls each of which is due after those before it. -/
def Orderly (tools : Tools) (request : Request) (world : World) (calls : List Call) : Prop :=
  ∀ before call, before ++ [call] <+: calls → Due tools request world before call

theorem Orderly.nil : Orderly tools request world [] := by
  intro before call first
  cases List.append_eq_nil_iff.mp (List.prefix_nil.mp first) with
  | intro _ empty => cases empty

/-- One more call that is due. -/
theorem Orderly.concat {calls : List Call} {last : Call}
    (orderly : Orderly tools request world calls) (due : Due tools request world calls last) :
    Orderly tools request world (calls ++ [last]) := by
  intro before call first
  rcases List.prefix_concat_iff.mp first with same | earlier
  · obtain ⟨rfl, rfl⟩ := List.append_singleton_inj.mp same
    exact due
  · exact orderly before call earlier

theorem orderly_generate (accepted : Accepts request world.files validated) :
    Orderly tools request world [.generate validated request.flavour] :=
  Orderly.nil.concat (.generate accepted)

theorem orderly_formatTemplate
    (generates : Generates tools request world validated generated between)
    (pretty : request.options.prettyPrint = true) :
    Orderly tools request world
      [.generate validated request.flavour, .formatTemplate generated.template] :=
  (orderly_generate generates.accepted).concat (.formatTemplate generates pretty)

theorem orderly_formatParameters {template : String}
    (generates : Generates tools request world validated generated between)
    (pretty : request.options.prettyPrint = true)
    (first : tools.formatTemplate generated.template = .ok template) :
    Orderly tools request world (.generate validated request.flavour :: generated.printing true) :=
  (orderly_formatTemplate generates pretty).concat (.formatParameters generates pretty first)

theorem orderly_allCalls (generates : Generates tools request world validated generated between)
    (prints : Prints tools generated request.options.prettyPrint texts) :
    Orderly tools request world (allCalls request validated generated texts) := by
  refine Orderly.concat ?_ (.write generates prints)
  cases printed : request.options.prettyPrint with
  | false => exact orderly_generate generates.accepted
  | true =>
      rw [printed] at prints
      cases prints with
      | pretty first second => exact orderly_formatParameters generates printed first

/-- The calls of a run are orderly. -/
theorem orderly_calls (tools : Tools) (request : Request) (world : World) :
    Orderly tools request world (run tools request world).calls := by
  rcases completes_or_fails tools request world with
    ⟨report, calls, later, completes⟩ | ⟨stage, cause, calls, later, fails⟩
  · rw [run_of_completes completes]
    obtain ⟨generates, prints, -⟩ := completes
    exact orderly_allCalls generates prints
  · rw [run_of_fails fails]
    cases fails with
    | rejected => exact Orderly.nil
    | generate accepted => exact orderly_generate accepted
    | postProcess generates pretty misprints =>
        cases misprints with
        | template => exact orderly_formatTemplate generates pretty
        | parameters first => exact orderly_formatParameters generates pretty first
    | persist generates prints => exact orderly_allCalls generates prints

/-- A run makes every call that is due. -/
theorem prefix_of_due {before : List Call} {call : Call}
    (due : Due tools request world before call) :
    before ++ [call] <+: (run tools request world).calls := by
  cases due with
  | @generate validated accepted =>
      rw [run_of_accepts accepted]
      unfold deploy
      simp only
      split
      · exact List.prefix_rfl
      · split
        · exact List.prefix_append _ _
        · split <;> exact List.prefix_append _ _
  | @formatTemplate _ generated _ generates pretty =>
      obtain ⟨rest, same⟩ := run_of_generates generates
      obtain ⟨more, formatted⟩ := formatTemplate_prefix tools generated
      rw [same, pretty, ← formatted]
      exact List.prefix_append [_, _] _
  | formatParameters generates pretty first =>
      obtain ⟨rest, same⟩ := run_of_generates generates
      rw [same, pretty, printing_of_first first]
      exact List.prefix_append [_, _, _] rest
  | @write validated generated between texts generates prints =>
      cases written : tools.write (validated.artifacts request.options generated texts) between with
      | mk result later =>
          cases result with
          | error cause =>
              rw [run_of_fails (.persist generates prints written)]
              exact List.prefix_rfl
          | ok _ =>
              rw [run_of_completes (.intro generates prints written)]
              exact List.prefix_rfl

/-! ### The order of stages -/

def Call.stage : Call → Stage
  | generate .. => .generate
  | formatTemplate _ | formatParameters _ => .postProcess
  | write _ => .persist

def Stage.place : Stage → Nat
  | localize => 0
  | load => 1
  | merge => 2
  | validate => 3
  | generate => 4
  | postProcess => 5
  | persist => 6

theorem Stage.place_le (stage : Stage) : stage.place ≤ Stage.persist.place := by
  cases stage <;> decide

/-- The stages of the calls of a run that accepts its document. -/
def callStages : List (List Stage) :=
  [ [.generate],
    [.generate, .postProcess],
    [.generate, .postProcess, .postProcess],
    [.generate, .persist],
    [.generate, .postProcess, .postProcess, .persist] ]

theorem stages_allCalls :
    (allCalls request validated generated texts).map Call.stage ∈ callStages := by
  unfold allCalls Generated.printing
  cases request.options.prettyPrint with
  | false => exact List.mem_of_getElem? (i := 3) rfl
  | true => exact List.mem_of_getElem? (i := 4) rfl

/-- A run makes no call if its document is rejected; otherwise its calls begin with the one to
generate. -/
theorem stages_calls (tools : Tools) (request : Request) (world : World) :
    (∃ stage cause, Rejects request world.files stage cause) ∧
        (run tools request world).calls = [] ∨
      (∃ validated, Accepts request world.files validated) ∧
        (run tools request world).calls.map Call.stage ∈ callStages := by
  rcases completes_or_fails tools request world with
    ⟨report, calls, later, completes⟩ | ⟨stage, cause, calls, later, fails⟩
  · rw [run_of_completes completes]
    obtain ⟨generates, -, -⟩ := completes
    exact .inr ⟨⟨_, generates.accepted⟩, stages_allCalls⟩
  · rw [run_of_fails fails]
    cases fails with
    | rejected rejects => exact .inl ⟨⟨_, _, rejects⟩, rfl⟩
    | generate accepted => exact .inr ⟨⟨_, accepted⟩, List.mem_of_getElem? (i := 0) rfl⟩
    | postProcess generates pretty misprints =>
        refine .inr ⟨⟨_, generates.accepted⟩, ?_⟩
        cases misprints with
        | template => exact List.mem_of_getElem? (i := 1) rfl
        | parameters => exact List.mem_of_getElem? (i := 2) rfl
    | persist generates => exact .inr ⟨⟨_, generates.accepted⟩, stages_allCalls⟩

/-- No call comes after the stage that fails. -/
theorem Fails.place_le {stage : Stage} {cause : Error} {calls : List Call} {later : World}
    (fails : Fails tools request world stage cause calls later) :
    ∀ call ∈ calls, call.stage.place ≤ stage.place := by
  cases fails with
  | rejected => exact List.forall_mem_nil _
  | generate => exact List.forall_mem_singleton.mpr (Nat.le_refl _)
  | postProcess generates pretty misprints =>
      have later : Stage.generate.place ≤ Stage.postProcess.place := by decide
      refine List.forall_mem_cons.mpr ⟨later, ?_⟩
      cases misprints with
      | template => exact List.forall_mem_singleton.mpr (Nat.le_refl _)
      | parameters =>
          exact List.forall_mem_cons.mpr
            ⟨Nat.le_refl _, List.forall_mem_singleton.mpr (Nat.le_refl _)⟩
  | persist => exact fun call _ => call.stage.place_le

/-- A run that fails in loading or validating has rejected its document. -/
theorem Fails.rejects {stage : Stage} {cause : Error} {calls : List Call} {later : World}
    (fails : Fails tools request world stage cause calls later)
    (early : stage = .load ∨ stage = .validate) : Rejects request world.files stage cause := by
  cases fails with
  | rejected rejects => exact rejects
  | _ => cases early <;> contradiction

/-- The report is about what was accepted. -/
theorem Completes.report_eq {report : Report} {calls : List Call} {later : World}
    (completes : Completes tools request world report calls later)
    (accepted : Accepts request world.files validated) :
    report.outputDirectory = validated.outputDirectory ∧
      report.version = validated.definition.version := by
  obtain ⟨generates, -, -⟩ := completes
  obtain rfl := accepted.unique generates.accepted
  exact ⟨rfl, rfl⟩

/-- The report is about a run that is done. -/
theorem Completes.finalState_eq {report : Report} {calls : List Call} {later : World}
    (completes : Completes tools request world report calls later) : report.finalState = .done := by
  cases completes
  rfl

/-- The stage that fails is one that can. -/
theorem Fails.stage_ne {stage : Stage} {cause : Error} {calls : List Call} {later : World}
    (fails : Fails tools request world stage cause calls later) :
    stage ≠ .localize ∧ stage ≠ .merge := by
  cases fails with
  | rejected rejects => cases rejects <;> decide
  | _ => decide

/-- A run succeeds exactly if it completes. -/
theorem result_eq_ok_iff {report : Report} :
    (run tools request world).result = .ok report ↔
      Completes tools request world report (run tools request world).calls
        (run tools request world).world := by
  constructor
  · intro succeeded
    rcases completes_or_fails tools request world with
      ⟨other, calls, later, completes⟩ | ⟨stage, cause, calls, later, fails⟩
    · rw [run_of_completes completes] at succeeded ⊢
      cases succeeded
      exact completes
    · rw [run_of_fails fails] at succeeded
      cases succeeded
  · intro completes
    exact congrArg Outcome.result (run_of_completes completes)

/-- A run fails exactly in the stage that fails. -/
theorem result_eq_error_iff {error : Error} :
    (run tools request world).result = .error error ↔ ∃ stage cause,
      Fails tools request world stage cause (run tools request world).calls
          (run tools request world).world ∧
        error = .stage stage request.options.definitionPath cause := by
  constructor
  · intro failed
    rcases completes_or_fails tools request world with
      ⟨report, calls, later, completes⟩ | ⟨stage, cause, calls, later, fails⟩
    · rw [run_of_completes completes] at failed
      cases failed
    · rw [run_of_fails fails] at failed ⊢
      cases failed
      exact ⟨stage, cause, fails, rfl⟩
  · rintro ⟨stage, cause, fails, rfl⟩
    exact congrArg Outcome.result (run_of_fails fails)

/-- A run is done exactly if it has succeeded. -/
theorem progress_eq_done_iff :
    (run tools request world).progress = .done ↔
      ∃ report, (run tools request world).result = .ok report := by
  rcases completes_or_fails tools request world with
    ⟨report, calls, later, completes⟩ | ⟨stage, cause, calls, later, fails⟩
  · simp [run_of_completes completes]
  · simp [run_of_fails fails]

/-- A run ends in the state of a failed stage exactly if this is the stage that fails. -/
theorem progress_eq_failed_iff {stage : Stage} :
    (run tools request world).progress = .failed stage ↔
      ∃ cause, Fails tools request world stage cause (run tools request world).calls
        (run tools request world).world := by
  constructor
  · intro failed
    rcases completes_or_fails tools request world with
      ⟨report, calls, later, completes⟩ | ⟨other, cause, calls, later, fails⟩
    · rw [run_of_completes completes] at failed
      cases failed
    · rw [run_of_fails fails] at failed ⊢
      cases failed
      exact ⟨cause, fails⟩
  · rintro ⟨cause, fails⟩
    exact congrArg Outcome.progress (run_of_fails fails)

/-! ### Main results -/

/-- **A run takes its stages in order.** For any tools:

* a tool is used after some calls exactly if it is due there: generating first, once the document
  is loaded and validated; then, only when asked to format, the template and, if that succeeds,
  the parameters; then, with the texts that come out of this, writing;
* generating and writing are asked for once at most, and generating is asked for exactly if the
  document is accepted;
* a run succeeds exactly if every stage does; then it ends in the state in which it is done, and
  reports this state;
* otherwise its error is that of the stage in which it fails, wrapped into this stage and the path
  of the document, and it ends in the state of this failed stage; no call belongs to a later stage,
  and the stage is never that of localizing or of merging. -/
theorem run_sequenced (tools : Tools) (request : Request) (world : World) :
    let outcome := run tools request world
    let stages := outcome.calls.map Call.stage
    (∀ before call, before ++ [call] <+: outcome.calls ↔ Due tools request world before call) ∧
      (stages.count .generate ≤ 1 ∧ stages.count .persist ≤ 1 ∧
        (stages.count .generate = 1 ↔ ∃ validated, Accepts request world.files validated)) ∧
      (outcome.progress = .done ↔ ∃ report, outcome.result = .ok report) ∧
      (∀ report, outcome.result = .ok report ↔
        Completes tools request world report outcome.calls outcome.world) ∧
      (∀ report, outcome.result = .ok report → report.finalState = .done) ∧
      (∀ error, outcome.result = .error error ↔ ∃ stage cause,
        Fails tools request world stage cause outcome.calls outcome.world ∧
          error = .stage stage request.options.definitionPath cause) ∧
      (∀ stage, outcome.progress = .failed stage ↔
        ∃ cause, Fails tools request world stage cause outcome.calls outcome.world) ∧
      ∀ stage cause, Fails tools request world stage cause outcome.calls outcome.world →
        stage ≠ .localize ∧ stage ≠ .merge ∧
          ∀ call ∈ outcome.calls, call.stage.place ≤ stage.place := by
  intro outcome stages
  have calls : ∀ before call,
      before ++ [call] <+: outcome.calls ↔ Due tools request world before call :=
    fun before call => ⟨orderly_calls tools request world before call, prefix_of_due⟩
  have counts : stages.count .generate ≤ 1 ∧ stages.count .persist ≤ 1 ∧
      (stages.count .generate = 1 ↔ ∃ validated, Accepts request world.files validated) := by
    have each : ∀ stages ∈ callStages,
        stages.count .generate = 1 ∧ stages.count .persist ≤ 1 := by decide
    rcases stages_calls tools request world with ⟨⟨stage, cause, rejects⟩, none⟩ | ⟨accepted, mem⟩
    · have empty : stages = [] := List.map_eq_nil_iff.mpr none
      rw [empty]
      refine ⟨Nat.zero_le _, Nat.zero_le _, nofun, ?_⟩
      rintro ⟨validated, accepted⟩
      exact absurd rejects accepted.not_rejects
    · obtain ⟨once, atMost⟩ := each stages mem
      exact ⟨Nat.le_of_eq once, atMost, fun _ => accepted, fun _ => once⟩
  refine ⟨calls, counts, progress_eq_done_iff, fun _ => result_eq_ok_iff,
    fun _ succeeded => (result_eq_ok_iff.mp succeeded).finalState_eq,
    fun _ => result_eq_error_iff, fun _ => progress_eq_failed_iff, ?_⟩
  intro stage cause fails
  exact ⟨fails.stage_ne.1, fails.stage_ne.2, fails.place_le⟩

/-- **A check and a run agree.** For any tools, a check fails exactly with the errors with which a
run fails in loading or validating, and then the run uses no tool and leaves the world as it is.
What a check accepts is what a run generates from: this is its first call and the only one to
generate, and if the run succeeds, its report has the output directory and the version of this
definition. -/
theorem check_agrees (tools : Tools) (request : Request) (world : World) :
    let outcome := run tools request world
    (∀ error, check request world.files = .error error ↔ outcome.result = .error error ∧
        (error.stage? = some .load ∨ error.stage? = some .validate)) ∧
      (∀ error, check request world.files = .error error →
        outcome.calls = [] ∧ outcome.world = world) ∧
      ∀ validated, check request world.files = .ok validated →
        (∃ rest, outcome.calls = .generate validated request.flavour :: rest ∧
          ∀ call ∈ rest, call.stage ≠ .generate) ∧
        ∀ report, outcome.result = .ok report →
          report.outputDirectory = validated.outputDirectory ∧
            report.version = validated.definition.version := by
  intro outcome
  refine ⟨?_, ?_, ?_⟩
  · intro error
    constructor
    · intro refused
      obtain ⟨_, outcome_eq⟩ := run_of_check_error refused tools
      have ended : outcome.result = .error error := congrArg Outcome.result outcome_eq
      obtain ⟨stage, cause, rejects, rfl⟩ := check_eq_error_iff.mp refused
      refine ⟨ended, ?_⟩
      cases rejects with
      | load => exact .inl rfl
      | validate => exact .inr rfl
    · rintro ⟨failed, early⟩
      obtain ⟨stage, cause, fails, rfl⟩ := result_eq_error_iff.mp failed
      refine check_of_rejects (fails.rejects ?_)
      simpa only [Error.stage?, Option.some.injEq] using early
  · intro error refused
    obtain ⟨stage, ended⟩ := run_of_check_error refused tools
    exact ⟨congrArg Outcome.calls ended, congrArg Outcome.world ended⟩
  · intro validated checked
    have accepted : Accepts request world.files validated := check_eq_ok_iff.mp checked
    obtain ⟨rest, calls⟩ := prefix_of_due (.generate accepted : Due tools request world _ _)
    have others : ∀ stages ∈ callStages, ∀ stage ∈ stages.tail, stage ≠ .generate := by decide
    refine ⟨⟨rest, calls.symm, ?_⟩, ?_⟩
    · rcases stages_calls tools request world with ⟨⟨stage, cause, rejects⟩, -⟩ | ⟨-, mem⟩
      · exact absurd rejects accepted.not_rejects
      · rw [← calls] at mem
        intro call among
        exact others _ mem _ (List.mem_map_of_mem among)
    · intro report succeeded
      exact (result_eq_ok_iff.mp succeeded).report_eq accepted

end Provision
