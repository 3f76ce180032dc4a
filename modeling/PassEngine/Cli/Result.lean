import PassEngine.Wire.Frame

namespace PassEngine.Cli

/-- What a command leaves behind: its exit code, what it says on its two outputs, and a file that it
writes. -/
structure Result where
  exit : UInt8 := 0
  stdout : Wire.Bytes := []
  stderr : String := ""
  written : Option (String × String) := none
  deriving DecidableEq

namespace Result

def complaint (program reason : String) : String :=
  s!"{program}: {reason}\n"

def failure (program reason : String) : Result where
  exit := 1
  stderr := complaint program reason

def print (text : String) : Result where
  stdout := Wire.textBytes text

end Result

end PassEngine.Cli
