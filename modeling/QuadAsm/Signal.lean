/-!
# Signals

An instruction carries one signal beside its two slots. The last three say how the instruction is
to be read: with a small immediate, as a load of an immediate, or as a branch.
-/

namespace QuadAsm

inductive Signal
  | breakpoint
  | quiet
  | threadSwitch
  | programEnd
  | waitScoreboard
  | unlockScoreboard
  | lastThreadSwitch
  | coverageLoad
  | colourLoad
  | colourLoadEnd
  | loadTmu0
  | loadTmu1
  | alphaLoad
  | smallImmediate
  | loadImmediate
  | branch
  deriving DecidableEq

namespace Signal

def code : Signal → UInt32
  | .breakpoint => 0
  | .quiet => 1
  | .threadSwitch => 2
  | .programEnd => 3
  | .waitScoreboard => 4
  | .unlockScoreboard => 5
  | .lastThreadSwitch => 6
  | .coverageLoad => 7
  | .colourLoad => 8
  | .colourLoadEnd => 9
  | .loadTmu0 => 10
  | .loadTmu1 => 11
  | .alphaLoad => 12
  | .smallImmediate => 13
  | .loadImmediate => 14
  | .branch => 15

def name : Signal → String
  | .breakpoint => "Breakpoint"
  | .quiet => "None"
  | .threadSwitch => "ThreadSwitch"
  | .programEnd => "ProgramEnd"
  | .waitScoreboard => "WaitScoreboard"
  | .unlockScoreboard => "UnlockScoreboard"
  | .lastThreadSwitch => "LastThreadSwitch"
  | .coverageLoad => "CoverageLoad"
  | .colourLoad => "ColourLoad"
  | .colourLoadEnd => "ColourLoadEnd"
  | .loadTmu0 => "LoadTmu0"
  | .loadTmu1 => "LoadTmu1"
  | .alphaLoad => "AlphaLoad"
  | .smallImmediate => "SmallImm"
  | .loadImmediate => "LoadImm"
  | .branch => "Branch"

end Signal

end QuadAsm
