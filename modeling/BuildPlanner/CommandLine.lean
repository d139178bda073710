import BuildPlanner.CommandLine.Options
import BuildPlanner.Session

/-!
# The command line

The commands: `build` generates, builds and deploys, or prints the build graph; `linkplan` lists
what an executable links; `toolchain` describes the selected toolchain. A command answers with a
code, what it prints, and what it reports.
-/

namespace BuildPlanner.CommandLine

/-- The name of the program. -/
def programName : String := "shipwright"

/-- The version of the program. -/
def programVersion : String := "0.1.0"

/-! ## Commands -/

/-- What commands that need a workspace are called with. -/
structure WorkspaceArguments where
  /-- The manifest, if it is named. -/
  manifest : Option Path
  /-- The platform, if it is named. -/
  platform : Option Platform
  /-- The configuration, if it is named. -/
  configuration : Option Configuration
deriving DecidableEq, Repr, Inhabited

/-- What `build` is called with. -/
structure BuildArguments where
  /-- The workspace. -/
  workspace : WorkspaceArguments
  /-- Whether nothing is built. -/
  noBuild : Bool
  /-- Whether nothing is deployed. -/
  noDeploy : Bool
  /-- Whether a compilation database is written. -/
  emitCompileCommands : Bool
  /-- Whether the build graph is printed and nothing done. -/
  plan : Bool
  /-- The number of parallel jobs. -/
  jobs : Option Nat
deriving DecidableEq, Repr, Inhabited

/-- What is to be done. -/
inductive Request where
  /-- Generate, build and deploy. -/
  | build (arguments : BuildArguments)
  /-- List what an executable links. -/
  | linkplan (project : String) (workspace : WorkspaceArguments)
  /-- Describe the toolchain. -/
  | toolchain (platform : Option Platform)
  /-- Print completions for a shell, which is not done here. -/
  | completions (shell : String)
deriving DecidableEq, Repr

/-- A command line that can be run. -/
structure Invocation where
  /-- Whether details are reported. -/
  isVerbose : Bool
  /-- What is to be done. -/
  request : Request
deriving DecidableEq, Repr

/-- An option without a value. -/
def flagRule (long : String) (short : Option Char) : OptionRule := ⟨long, short, none⟩

/-- An option with a value. -/
def valueRule (long : String) (short : Option Char) (accepts : String → Bool) : OptionRule :=
  ⟨long, short, some accepts⟩

/-- The name of the option that asks for details. -/
def verboseName : String := "verbose"

/-- The options of every command. -/
def commonRules : List OptionRule := [flagRule verboseName (some 'v'), flagRule helpName (some 'h')]

/-- The option that names the platform. -/
def platformRule : OptionRule :=
  valueRule "toolchain" none fun value => (Platform.parse value).toOption.isSome

/-- The options that name the workspace and how it is built. -/
def workspaceRules : List OptionRule :=
  [valueRule "manifest" none (· != ""), platformRule,
    valueRule "build-type" none fun value => (Configuration.parse? value).isSome]

/-- The number of jobs that a text names. -/
def jobs? (text : String) : Option Nat :=
  let digits := match text.toList with
    | '+' :: rest => rest
    | cs => cs
  let value := digits.foldl (fun value d => 10 * value + (d.toNat - '0'.toNat)) 0
  if digits != [] && digits.all Char.isDigit && value ≤ Settings.jobsBound then some value else none

/-- The options of `build`. -/
def buildRules : List OptionRule :=
  commonRules ++ workspaceRules ++
    [flagRule "no-build" none, flagRule "no-deploy" none, flagRule "emit-compile-commands" none,
      flagRule "plan" none, valueRule "jobs" (some 'j') fun value => (jobs? value).isSome]

/-- The shells for which there are completions. -/
def shells : List String := ["bash", "elvish", "fish", "powershell", "zsh"]

/-- The platform that is named. -/
def platform? (w : Words) : Option Platform :=
  (w.value? "toolchain").bind fun value => (Platform.parse value).toOption

/-- What the words say about the workspace. -/
def workspaceArguments (w : Words) : WorkspaceArguments where
  manifest := (w.value? "manifest").map Path.mk
  platform := platform? w
  configuration := (w.value? "build-type").bind Configuration.parse?

/-- What the words say about a build. -/
def buildArguments (w : Words) : BuildArguments where
  workspace := workspaceArguments w
  noBuild := w.has "no-build"
  noDeploy := w.has "no-deploy"
  emitCompileCommands := w.has "emit-compile-commands"
  plan := w.has "plan"
  jobs := (w.value? "jobs").bind jobs?

/-- The names of the commands. -/
def commandNames : List String := ["build", "linkplan", "toolchain", "completions", "help"]

/-- What the words after the name of a command ask for. -/
def invocation (w : Words) (request : Request) : Invocation := ⟨w.has verboseName, request⟩

/-- Reads a command after its name. -/
def parseCommand (name : String) (words : List String) : Except Halt Invocation := do
  match name with
  | "build" =>
    let (w, _) ← scan buildRules (some 0) default words
    return invocation w (.build (buildArguments w))
  | "linkplan" =>
    let (w, _) ← scan (commonRules ++ workspaceRules) (some 1) default words
    match w.operands with
    | [project] => return invocation w (.linkplan project (workspaceArguments w))
    | _ => throw .usage
  | "toolchain" =>
    let (w, _) ← scan (commonRules ++ [platformRule]) (some 0) default words
    return invocation w (.toolchain (platform? w))
  | "completions" =>
    let (w, _) ← scan commonRules (some 1) default words
    match w.operands with
    | [shell] =>
      if shells.contains shell then return invocation w (.completions shell) else throw .usage
    | _ => throw .usage
  | "help" =>
    match words with
    | [] => throw .help
    | [topic] => if commandNames.contains topic then throw .help else throw .usage
    | _ => throw .usage
  | _ => throw .usage

/-- Reads a command line. -/
def parse (words : List String) : Except Halt Invocation := do
  let (w, rest) ← scan (commonRules ++ [flagRule versionName (some 'V')]) none default words
  match w.operands with
  | [name] =>
    let parsed ← parseCommand name rest
    return { parsed with isVerbose := parsed.isVerbose || w.has verboseName }
  | _ => throw .usage

/-! ## Answers -/

/-- What a command line answers. -/
structure Outcome where
  /-- The code of the program. -/
  code : Nat
  /-- What is printed. -/
  output : String
  /-- What is reported. -/
  errors : String
deriving DecidableEq, Repr, Inhabited

/-- The code of a command that failed. -/
def failureCode : Nat := 1

/-- The code of a command line that cannot be understood. -/
def usageCode : Nat := 2

/-- Texts as lines. -/
def lines (texts : List String) : String :=
  .join (texts.map (· ++ "\n"))

/-- The answer of a command that failed. -/
def failed (message : String) : Outcome := ⟨failureCode, "", lines ["error: " ++ message]⟩

/-- What is reported about a run. -/
def reportLines (configuration : Configuration) (report : PipelineReport) : List String :=
  [s!"   Generated {report.ninjaFile} ({report.statements} statements)"] ++
    (if report.built then [s!"    Finished {configuration} build"] else []) ++
    report.deployed.map fun project => s!"    Deployed {project} data"

/-- Plans a build. -/
def plan (session : Session) (configuration : Configuration) : Activity Failure Outcome := do
  let generated ← session.workspace.generate session.toolchain
    { configuration, emitCompileCommands := false, planOnly := true }
  return ⟨0, Json.document generated.graph.toJson ++ "\n", ""⟩

/-- Generates, builds and deploys. -/
def runBuild (arguments : BuildArguments) (session : Session) (configuration : Configuration)
    (h : Host) : Outcome × Host :=
  let options : PipelineOptions :=
    { configuration
      noBuild := arguments.noBuild
      noDeploy := arguments.noDeploy
      emitCompileCommands :=
        arguments.emitCompileCommands || session.settings.emitCompileCommands
      jobs := arguments.jobs.or session.settings.jobs }
  let (finished, after) := session.workspace.run session.toolchain options
    (Ninja.executor session.settings.ninja) nativeHook h
  match finished.result with
  | .ok report => (⟨0, "", lines (reportLines configuration report)⟩, after)
  | .error fault => (failed fault.message, after)

/-- The answer of an activity. -/
def answer (act : Activity Failure Outcome) (h : Host) : Outcome × Host :=
  match act h with
  | (.ok outcome, after) => (outcome, after)
  | (.error failure, after) => (failed failure.message, after)

/-- Starts a session with a configuration. -/
def startSession (arguments : WorkspaceArguments) :
    Activity Failure (Session × Configuration) := do
  let session ← Session.start arguments.manifest arguments.platform
  let configuration ← .ofView fun _ => session.configuration arguments.configuration
  return (session, configuration)

/-- The command `build`. -/
def build (arguments : BuildArguments) (h : Host) : Outcome × Host :=
  match startSession arguments.workspace h with
  | (.error failure, after) => (failed failure.message, after)
  | (.ok (session, configuration), after) =>
    if arguments.plan then answer (plan session configuration) after
    else runBuild arguments session configuration after

/-! ## Link plans -/

/-- What is linked, and where it is from. -/
structure LinkInput where
  /-- What is linked. -/
  name : String
  /-- Where it is from. -/
  origin : String
deriving DecidableEq, Repr

/-- What an executable links, in order. Libraries of headers leave nothing to link. -/
def linkInputs (toolchain : Toolchain) (projects : List Project) (spec : ExecutableSpec) :
    List LinkInput :=
  let libraries := spec.libraries.filterMap fun name =>
    ((projects.find? (·.name == name)).filter (!·.isHeaderOnly)).map fun library =>
      ⟨(toolchain.libraryPath library.deployDir library.name).text,
        "Built from: " ++ library.name⟩
  libraries ++ spec.standardLibraries.map fun name => ⟨name, "From: system"⟩

/-- The lines that list what is linked, numbered from `index` on. -/
def linkLines (index : Nat) : List LinkInput → List String
  | [] => []
  | input :: rest =>
    [s!"  {index}. {input.name}", "     " ++ input.origin, ""] ++ linkLines (index + 1) rest

/-- The lines of a link plan. -/
def linkPlan (toolchain : Toolchain) (configuration : Configuration) (projects : List Project)
    (p : Project) (spec : ExecutableSpec) : List String :=
  let inputs := linkInputs toolchain projects spec
  [s!"Link order for '{p.name}' ({toolchain.platform}, {configuration}):", ""] ++
    if inputs.isEmpty then ["  (nothing to link beyond the project's own objects)"]
    else linkLines 1 inputs

/-- The command `linkplan`. -/
def linkplan (name : String) (arguments : WorkspaceArguments) : Activity Failure Outcome := do
  let (session, configuration) ← startSession arguments
  let platform := session.toolchain.platform
  let projects ← session.workspace.resolveReporting platform configuration
  match projects.find? (·.name == name) with
  | none => throw (.of (.note s!"project `{name}` not found for {platform}"))
  | some p =>
    match p.kind with
    | .executable spec =>
      return ⟨0, lines (linkPlan session.toolchain configuration projects p spec), ""⟩
    | kind => throw (.of (.note s!"project `{p.name}` is a {kind.name}, not an executable"))

/-! ## Toolchains -/

/-- The width of the labels of programs. -/
def labelWidth : Nat := 6

/-- The lines about a program of a toolchain. -/
def programLines (label program : String) : StateM Host (List String) := do
  let head := "  " ++ .ofList ((label ++ ":").toList.rightpad labelWidth ' ')
  match (← get).find? program with
  | some p =>
    let version ← toolVersion p
    return [head ++ p.text] ++ (version.map fun version => "        " ++ version).toList
  | none => return [head ++ program ++ " (not found)"]

/-- The lines about the names that a toolchain gives. -/
def namingLines (toolchain : Toolchain) : List String :=
  ["Artifacts:",
    "  Static library: " ++ toolchain.artifactName .staticLibrary "<name>",
    "  Executable:     " ++ toolchain.artifactName .executable "<name>",
    "  Object:         <source>." ++ toolchain.objectExtension,
    "  Resources:      " ++
      (if toolchain.resourceExtension?.isSome then "supported" else "not supported")]

/-- The root of the workspace where the run was started, if there is one. -/
def currentRoot? (h : Host) : Option Path := do
  let manifest ← (findManifest h h.workingPath none).toOption
  manifest.parent?

/-- The platform of the settings that count where the run was started; outside a workspace none
count. -/
def configuredPlatform : Activity Failure (Option Platform) := do
  match currentRoot? (← get) with
  | some root => return (← Settings.loadForRoot root).platform
  | none => return none

/-- The command `toolchain`. -/
def describeToolchain (platform : Option Platform) : Activity Failure Outcome := do
  let configured ← configuredPlatform
  let toolchain ← chooseToolchainReporting (platform.or configured)
  let programs := (Toolchain.ofPlatform toolchain.platform).programs
  let about ← programs.mapM fun (label, program) => programLines label program
  return ⟨0, lines ([s!"Toolchain: {toolchain.platform}", ""] ++ about.flatten ++ [""] ++
    namingLines toolchain), ""⟩

/-! ## The program -/

/-- Does what a request asks for. -/
def perform (request : Request) (h : Host) : Outcome × Host :=
  match request with
  | .build arguments => build arguments h
  | .linkplan project arguments => answer (linkplan project arguments) h
  | .toolchain platform => answer (describeToolchain platform) h
  | .completions _ => (⟨0, "", ""⟩, h)

/-- Runs the program with the words of a command line. What other programs have written, and what
was reported on the way, comes before what is printed. -/
def run (words : List String) (h : Host) : Outcome × Host :=
  match parse words with
  | .ok invocation =>
    let (outcome, after) :=
      perform invocation.request { h with isVerbose := invocation.isVerbose }
    let output := after.output ++ outcome.output
    ({ outcome with output, errors := after.errors ++ outcome.errors }, after)
  | .error .usage => (⟨usageCode, "", ""⟩, h)
  | .error .help => (⟨0, "", ""⟩, h)
  | .error .version => (⟨0, lines [programName ++ " " ++ programVersion], ""⟩, h)

end BuildPlanner.CommandLine
