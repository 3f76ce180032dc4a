import PassEngine.Cli.Arguments
import PassEngine.Point

namespace PassEngine.Cli

open Argument (scan operands value? values isOn)

structure RunOptions where
  input : String
  /-- The program to start as the server. Without one the built-in passes run in this process. -/
  server : Option String := none
  config : Option String := none
  /-- The points to reach, all of them if none are given. -/
  points : List Point := []
  output : Option String := none
  printsModule : Bool := false
  isFatal : Bool := false
  /-- The time for each batch, in milliseconds, if it is not the configuration's. -/
  budget : Option Nat := none
  deriving DecidableEq, Repr

inductive HostCommand where
  | run (o : RunOptions)
  | lower (input : String)
  deriving DecidableEq, Repr

inductive ServerAction where
  | serve
  | listPasses
  deriving DecidableEq, Repr

structure ServerCommand where
  config : Option String := none
  action : ServerAction
  deriving DecidableEq, Repr

/-- A path is not empty. -/
def path? (text : String) : Option String :=
  if text.isEmpty then none else some text

def optional {α : Type} (read : String → Option α) : Option String → Option (Option α)
  | none => some none
  | some text => (read text).map some

/-- A number below 2 ^ 64, in decimal digits, perhaps behind a plus sign. -/
def number? (text : String) : Option Nat :=
  let digits := match text.toList with
    | '+' :: digits | digits => digits
  if digits.isEmpty || !digits.all Char.isDigit then none
  else
    let n := digits.foldl (fun n c => 10 * n + (c.toNat - '0'.toNat)) 0
    if n < UInt64.size then some n else none

/-- The parts of a text between commas. There is always one more than there are commas. -/
def commaParts (text : String) : List String :=
  (go text.toList).map String.ofList
where
  go : List Char → List (List Char)
    | [] => [[]]
    | c :: rest =>
      if c = ',' then [] :: go rest
      else match go rest with
        | part :: parts => (c :: part) :: parts
        | [] => [[c]]

def points? (text : String) : Option (List Point) :=
  (commaParts text).mapM fun name => (Point.parse name).toOption

namespace RunOptions

def specs : List OptionSpec :=
  [⟨"server", none, true⟩, ⟨"server-config", none, true⟩, ⟨"points", none, true⟩,
    ⟨"output", some 'o', true⟩, ⟨"print-ir", none, false⟩, ⟨"fatal-errors", none, false⟩,
    ⟨"budget-ms", none, true⟩]

/-- Reads the words after `run`. Points may be given in several places. -/
def parse (words : List String) : Option RunOptions := do
  let args ← scan specs words
  let [input] := operands args | none
  return {
    input := ← path? input
    server := ← optional path? (← value? "server" args)
    config := ← optional path? (← value? "server-config" args)
    points := (← (values "points" args).mapM points?).flatten
    output := ← optional path? (← value? "output" args)
    printsModule := ← isOn "print-ir" args
    isFatal := ← isOn "fatal-errors" args
    budget := ← optional number? (← value? "budget-ms" args) }

end RunOptions

namespace HostCommand

def parse : List String → Option HostCommand
  | "run" :: words => (RunOptions.parse words).map run
  | "translate" :: words => do
    let [input] := operands (← scan [] words) | none
    return lower (← path? input)
  | _ => none

def files : HostCommand → List String
  | run o => o.input :: o.config.toList
  | lower input => [input]

end HostCommand

namespace ServerCommand

/-- The configuration may be named before or after the action. -/
def parse (words : List String) : Option ServerCommand := do
  let args ← scan [⟨"config", some 'c', true⟩] words
  let [action] := operands args | none
  let config ← optional path? (← value? "config" args)
  match action with
  | "serve" => return { config, action := .serve }
  | "list-passes" => return { config, action := .listPasses }
  | _ => none

def files (c : ServerCommand) : List String :=
  c.config.toList

end ServerCommand

end PassEngine.Cli
