namespace PassEngine.Cli

/-- An option of a command: `--name`, and `-letter` if it has one. -/
structure OptionSpec where
  name : String
  letter : Option Char := none
  takesValue : Bool := true
  deriving DecidableEq, Repr

inductive Word where
  | separator
  | long (name : String) (value : Option String)
  | short (letter : Char) (value : Option String)
  | plain
  deriving DecidableEq, Repr

namespace Word

/-- The value in `--name=value`, which may be empty. -/
def assigned : List Char → Option String
  | '=' :: value => some (.ofList value)
  | _ => none

/-- The value in `-xvalue` or `-x=value`. -/
def attached : List Char → Option String
  | [] => none
  | '=' :: value => some (.ofList value)
  | value => some (.ofList value)

def classify (word : String) : Word :=
  match word.toList with
  | ['-', '-'] => separator
  | '-' :: '-' :: rest =>
    let (name, value) := rest.span (· ≠ '=')
    long (.ofList name) (assigned value)
  | '-' :: letter :: rest => short letter (attached rest)
  | _ => plain

end Word

inductive Argument where
  | operand (text : String)
  | switch (name : String)
  | setting (name value : String)
  deriving DecidableEq, Repr

namespace Argument

def option? (specs : List OptionSpec) : Word → Option (OptionSpec × Option String)
  | .long name value => (specs.find? (·.name == name)).map (·, value)
  | .short letter value => (specs.find? (·.letter == some letter)).map (·, value)
  | _ => none

/-- Recognises the words of a command line; `none` if one of them is out of place. Everything after
`--` is an operand. -/
def scan (specs : List OptionSpec) : List String → Option (List Argument)
  | [] => some []
  | word :: rest =>
    match Word.classify word with
    | .separator => some (rest.map operand)
    | .plain => (scan specs rest).map (operand word :: ·)
    | w =>
      match option? specs w, rest with
      | some (⟨name, _, false⟩, none), rest => (scan specs rest).map (switch name :: ·)
      | some (⟨name, _, true⟩, some value), rest => (scan specs rest).map (setting name value :: ·)
      | some (⟨name, _, true⟩, none), value :: rest =>
        if Word.classify value = .plain then (scan specs rest).map (setting name value :: ·)
        else none
      | _, _ => none

def operands (args : List Argument) : List String :=
  args.filterMap fun
    | operand text => some text
    | _ => none

def values (name : String) (args : List Argument) : List String :=
  args.filterMap fun
    | setting n value => if n = name then some value else none
    | _ => none

/-- The value of an option that may be given once. -/
def value? (name : String) (args : List Argument) : Option (Option String) :=
  match values name args with
  | [] => some none
  | [value] => some (some value)
  | _ => none

def isOn (name : String) (args : List Argument) : Option Bool :=
  match args.count (switch name) with
  | 0 => some false
  | 1 => some true
  | _ => none

end Argument

end PassEngine.Cli
