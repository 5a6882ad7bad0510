import ScopedConf.Directive.Slot
import ScopedConf.Module.Basic

/-! The settings of the whole process, which stand at the top level. -/

namespace ScopedConf.Server

structure Global where
  workerProcesses : Setting Int := .unset
  daemon : Setting Bool := .unset
  errorLog : Setting String := .unset
  pid : Setting String := .unset
  env : Setting (List String) := .unset
  deriving DecidableEq

namespace Global

def workerProcessesField : Field Global Int :=
  .ofProjection workerProcesses (fun p s => { p with workerProcesses := s }) (fun _ _ => rfl)
    (fun _ => rfl) fun _ _ _ => rfl

def daemonField : Field Global Bool :=
  .ofProjection daemon (fun p s => { p with daemon := s }) (fun _ _ => rfl) (fun _ => rfl)
    fun _ _ _ => rfl

def errorLogField : Field Global String :=
  .ofProjection errorLog (fun p s => { p with errorLog := s }) (fun _ _ => rfl) (fun _ => rfl)
    fun _ _ _ => rfl

def pidField : Field Global String :=
  .ofProjection pid (fun p s => { p with pid := s }) (fun _ _ => rfl) (fun _ => rfl)
    fun _ _ _ => rfl

def envField : Field Global (List String) :=
  .ofProjection env (fun p s => { p with env := s }) (fun _ _ => rfl) (fun _ => rfl)
    fun _ _ _ => rfl

instance : Record Global where
  merge p parent :=
    { workerProcesses := p.workerProcesses.merge (parent.map workerProcesses) 1
      daemon := p.daemon.merge (parent.map daemon) true
      errorLog := p.errorLog.merge (parent.map errorLog) "logs/error.log"
      pid := p.pid.merge (parent.map pid) "logs/nginx.pid"
      env := p.env.merge (parent.map env) [] }
  toJson p :=
    .ok (Json.object
      [("worker_processes", p.workerProcesses.toJson .int), ("daemon", p.daemon.toJson .bool),
        ("error_log", p.errorLog.toJson .str), ("pid", p.pid.toJson .str),
        ("env", p.env.toJson Json.strings)])

variable {ρ : Type}

def directives (k : Kind ρ Global) : List (Directive ρ) :=
  [(Directive.setting "worker_processes" (.exactly 1 ||| .once) .main
      (Slot.int (workerProcessesField.within k))).checked (Check.numbers 1 (some 1024)),
    .setting "daemon" .flag .main (Slot.flag (daemonField.within k)),
    .setting "error_log" (.exactly 1) .main (Slot.text (errorLogField.within k)),
    .setting "pid" (.exactly 1 ||| .once) .main (Slot.text (pidField.within k)),
    .setting "env" .oneOrMore .main (Slot.list (envField.within k))]

/-- The top level must hold the settings of the process. -/
def initContext (k : Kind ρ Global) (root : Context ρ) : Hook :=
  match root.record? k with
  | none => ([], .error "main context has no core configuration")
  | some p =>
    ([⟨.debug, .server, "Core context initialized",
        [("worker_processes", .number (p.workerProcesses.valueOr 1)),
          ("daemon", .switch (p.daemon.valueOr true))]⟩],
      .ok ())

def module (k : Kind ρ Global) : Module ρ where
  name := "core"
  tag := .core
  directives := directives k
  create context := if context = .main then some (k.wrap {}) else none
  init := Hook.pass
  initContext := initContext k

end Global

end ScopedConf.Server
