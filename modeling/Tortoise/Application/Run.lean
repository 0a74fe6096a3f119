import Tortoise.Application.Journey
import Tortoise.Program.Store
import Tortoise.Settings.Help

/-!
# The application

The application reads its command line, loads a program, shows and saves it if asked to, lets the
turtle run it and reports what came out.
-/

namespace Tortoise.Application

inductive Error where
  | settings (error : SettingsError)
  | load (error : LoadError)
  | save (error : SaveError)
  | run (error : RunError)

def Error.message : Error → Text
  | settings error => "failed to parse args: " ++ error.message
  | load error => error.message
  | save error => error.message
  | run error => "execution failed: " ++ error.message

structure Report where
  invocation : Option Invocation := none
  program : Program := #[]
  turtle : Option Turtle := none
  machine : Option Machine := none
  result : Except Error Unit

section

variable {m : Type → Type} [Monad m] [World m]

def log (s : Settings) (level : Log.Level) (message : Text) (attrs : List Log.Attr) : m Unit :=
  let r : Log.Record := { level, message, attrs }
  if s.logger.admits r then World.log s.format r else return ()

def preview (p : Program) : Text :=
  let shown := (p.toList.take 10).map Instruction.render
  let more : List Text := if p.size ≤ 10 then [] else [s!"... ({p.size - 10} more)"]
  "[" ++ (", " : Text).intercalate (shown ++ more) ++ "]"

/-- Logs how the compilation of a source went; other programs are not compiled. -/
def logCompilation (s : Settings) : Except LoadError Program → m Unit
  | .ok p =>
    if Path.isCompiled s.program then return ()
    else log s .debug "Program compiled" [("instructions", .int p.size)]
  | .error (.compile _ e) => log s .debug "Compilation failed" [("error", .text e.failure.message)]
  | .error _ => return ()

def loadProgram (s : Settings) : m (Except LoadError Program) := do
  let options : SourceOptions := ⟨Expr.boundOf s.maxExprLen.toInt, s.encoding⟩
  let loaded ← Program.load options s.program
  logCompilation s loaded
  return loaded

def emit (s : Settings) (p : Program) : m (Except SaveError Unit) := do
  if s.emit.isEmpty then return .ok ()
  match ← Program.save s.emit p with
  | .error e => return .error e
  | .ok () =>
    log s .info "Program written" [("path", .text s.emit)]
    return .ok ()

def logOutcome (s : Settings) (machine : Machine) (elapsed : Nat) : Except RunError Unit → m Unit
  | .ok () =>
    log s .info "VM halted" [("steps", .int machine.steps),
      ("diagnostics", .int machine.diagnosticCount), ("elapsed", .duration ⟨.ofNat elapsed⟩)]
  | .error e =>
    match e.stopKind? with
    | some kind =>
      log s .info "VM execution stopped" [("reason", .text kind.name), ("pc", .int machine.pc),
        ("steps", .int machine.steps)]
    | none =>
      log s .error "VM execution failed" [("pc", .int machine.pc), ("steps", .int machine.steps),
        ("error", .text e.message)]

def execute (slices : Nat) (s : Settings) (p : Program) :
    m (Journey × Machine × Except RunError Unit) := do
  log s .info "VM started" [("instructions", .int p.size), ("max_steps", .int s.maxSteps.toInt),
    ("timeout", .duration s.timeout)]
  let start ← World.now
  let (journey, machine, outcome) ←
    Journey.travel s start slices {} (Machine.new p s.maxSteps.toInt s.timeout)
  logOutcome s machine ((← World.now) - start) outcome
  return (journey, machine, outcome)

def summarize (s : Settings) (t : Turtle) (machine : Machine) : m Unit := do
  log s .info "Turtle final state" [("position", .text t.position.render),
    ("heading", .int t.heading.toInt), ("segments", .int t.segments.size),
    ("distance", .int t.roundedDistance), ("bounds_min", .text t.bounds.least.render),
    ("bounds_max", .text t.bounds.greatest.render), ("color", .int t.pen.color.toInt),
    ("thickness", .int t.pen.thickness.toInt), ("pen_down", .bool t.pen.isDown)]
  log s .info "Execution summary" [("steps", .int machine.steps),
    ("diagnostics", .int machine.diagnosticCount), ("variables", .table machine.env.visible)]

def traceText (history : List Operation) : Text :=
  history.zipIdx.flatMap fun (op, i) =>
    ((Text.padLeft 4 (Text.ofNat i) ++ "  " : String) : Text) ++ op.render ++ "\n"

def runProgram (slices : Nat) (s : Settings) (p : Program) : m Report := do
  let report : Report := { invocation := some (.run s), program := p, result := .ok () }
  log s .info "Program loaded" [("instructions", .int p.size)]
  log s .debug "Instructions generated" [("preview", .text (preview p))]
  if s.dump then World.print p.listing
  match ← emit s p with
  | .error e => return { report with result := .error (.save e) }
  | .ok () =>
    let (journey, machine, outcome) ← execute slices s p
    summarize s journey.turtle machine
    if s.trace then World.print (traceText journey.history.reverse)
    let report := { report with turtle := some journey.turtle, machine := some machine }
    match outcome with
    | .error e => return { report with result := .error (.run e) }
    | .ok () =>
      log s .info "Application terminated normally" []
      return report

/-- The application. A run takes at most `slices` slices. -/
def run (slices : Nat) (env : Environment) (args : List String) : m Report := do
  match ← Invocation.ofArguments env args with
  | .error e => return { result := .error (.settings e) }
  | .ok (.help flags) =>
    World.print helpText
    return { invocation := some (.help flags), result := .ok () }
  | .ok (.run s) =>
    log s .info "Application started" [("program", .text s.program)]
    if !s.config.isEmpty then log s .info "Config file loaded" [("path", .text s.config)]
    match ← loadProgram s with
    | .error e => return { invocation := some (.run s), result := .error (.load e) }
    | .ok p => runProgram slices s p

end

end Tortoise.Application
