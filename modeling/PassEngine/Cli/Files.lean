import PassEngine.Native.Snapshot
import PassEngine.Server.Config

namespace PassEngine.Cli

abbrev Files := String → Except String String

inductive LoadError where
  | moduleUnreadable (reason : String)
  | moduleMalformed
  | configUnreadable (reason : String)
  | configMalformed
  deriving DecidableEq, Repr

def LoadError.message : LoadError → String
  | moduleUnreadable reason => s!"I/O error: {reason}"
  | moduleMalformed => "invalid module JSON: not a module"
  | configUnreadable reason => s!"cannot read config: {reason}"
  | configMalformed => "invalid config: not a server configuration"

def notFound : String := "No such file or directory (os error 2)"

namespace Files

def loadModule (files : Files) (path : String) : Except LoadError Native.Module :=
  match files path with
  | .error reason => .error (.moduleUnreadable reason)
  | .ok text => (Native.Module.load text).elim (.error .moduleMalformed) .ok

/-- Without a path the configuration is the default one. -/
def loadConfig (files : Files) : Option String → Except LoadError ServerConfig
  | none => .ok {}
  | some path =>
    match files path with
    | .error reason => .error (.configUnreadable reason)
    | .ok text => (ServerConfig.parse text).elim (.error .configMalformed) .ok

end Files

end PassEngine.Cli
