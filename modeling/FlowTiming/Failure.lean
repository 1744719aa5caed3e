import FlowTiming.Binary64.Basic
import FlowTiming.Network.Endpoint

/-!
Everything that can be wrong with a network, from its file to the policy of a link, each
cause with what is needed to name it.
-/

namespace FlowTiming

/-- A fault of a network file that can be told without computing anything. -/
inductive FileFault where
  | noTasks
  | badSeconds (what : String) (value : Binary64)
  | periodicWithoutPeriod (task : String)
  | zeroPeriod (task : String)
  | strayPeriod (task : String)
  | slaveWithoutMaster (task : String)
  | ownMaster (task : String)
  | unknownMaster (task master : String)
  | strayMaster (task : String)
  | zeroOutputSize (output : Endpoint)
  | unknownTriggerInput (output : Endpoint) (input : String)
  | inputAndOutput (task port : String)
  | strayDevices (task : String)
  | zeroDeviceSize (device : String)
  | deviceOnUnknownInput (device : String) (port : Endpoint)
  | deviceOnUnknownOutput (device : String) (port : Endpoint)
  | zeroHintSize (hint task : String)
  | hintOnUnknownPort (hint : String) (port : Endpoint)
  | badEndpoint (text : String)
  | unknownSourceTask (text task : String)
  | sourceNotOutput (text : String)
  | unknownSinkTask (text task : String)
  | sinkNotInput (text : String)
  | zeroBuffer (source sink : String)
deriving DecidableEq

def FileFault.message : FileFault → String
  | noTasks => "network must contain at least one [task.<name>] section"
  | badSeconds what value =>
    what ++ " must be a finite, non-negative number of seconds (got " ++ value.plainText ++ ")"
  | periodicWithoutPeriod task => "periodic task '" ++ task ++ "' has no `period`"
  | zeroPeriod task => "periodic task '" ++ task ++ "' must have a positive `period`"
  | strayPeriod task => "task '" ++ task ++ "' has a `period` but is not periodic"
  | slaveWithoutMaster task => "slave task '" ++ task ++ "' has no `master`"
  | ownMaster task => "task '" ++ task ++ "' cannot be its own master"
  | unknownMaster task master => "task '" ++ task ++ "' has unknown master '" ++ master ++ "'"
  | strayMaster task => "task '" ++ task ++ "' has a `master` but its activity is not \"slave\""
  | zeroOutputSize output => "output '" ++ output.text ++ "': sample_size must be >= 1 (got 0)"
  | unknownTriggerInput output input =>
    "output '" ++ output.text ++ "' is triggered by unknown input '" ++ input ++ "'"
  | inputAndOutput task port =>
    "task '" ++ task ++ "' declares '" ++ port ++ "' both as input and output"
  | strayDevices task => "task '" ++ task ++ "' lists devices but is neither a driver nor a combus"
  | zeroDeviceSize device => "device '" ++ device ++ "': sample_size must be >= 1 (got 0)"
  | deviceOnUnknownInput device port =>
    "device '" ++ device ++ "' is attached to unknown input '" ++ port.text ++ "'"
  | deviceOnUnknownOutput device port =>
    "device '" ++ device ++ "' is attached to unknown output '" ++ port.text ++ "'"
  | zeroHintSize hint task =>
    "hint '" ++ hint ++ "' on task '" ++ task ++ "': sample_size must be >= 1 (got 0)"
  | hintOnUnknownPort hint port =>
    "hint '" ++ hint ++ "' refers to unknown port '" ++ port.text ++ "'"
  | badEndpoint text => "invalid connection endpoint '" ++ text ++ "' (expected \"task.port\")"
  | unknownSourceTask text task =>
    "connection '" ++ text ++ "' starts at unknown task '" ++ task ++ "'"
  | sourceNotOutput text => "connection source '" ++ text ++ "' is not an output port"
  | unknownSinkTask text task => "connection '" ++ text ++ "' ends at unknown task '" ++ task ++ "'"
  | sinkNotInput text => "connection sink '" ++ text ++ "' is not an input port"
  | zeroBuffer source sink =>
    "connection '" ++ source ++ "' -> '" ++ sink ++ "': buffer size must be >= 1"

inductive ModelFault where
  | undeployedTask (task : String)
  | notAnOutput (port : Endpoint)
  | notAnInput (port : Endpoint)
deriving DecidableEq

def ModelFault.message : ModelFault → String
  | undeployedTask task => task ++ " is not a deployed task"
  | notAnOutput port => port.port ++ " is not an output port of " ++ port.task
  | notAnInput port => port.port ++ " is not an input port of " ++ port.task

/-- Why a file could not be read. -/
inductive ReadFault where
  | missing
  | isDirectory
  | notText
  | other (text : String)
deriving DecidableEq

def ReadFault.message : ReadFault → String
  | missing => "No such file or directory (os error 2)"
  | isDirectory => "Is a directory (os error 21)"
  | notText => "stream did not contain valid UTF-8"
  | other text => text

/-- Why no answer was computed. -/
inductive Failure where
  | unreadable (fault : ReadFault)
  | notToml
  | badFile (fault : FileFault)
  | masterLoop (task : String)
  | badMargin (value : Binary64)
  | badModel (fault : ModelFault)
  | dependencyCycle (output : Endpoint) (cycle : List (Node String String))
  | unresolved (output sink : Endpoint)
  | noSinkPeriod (sink : Endpoint)
  | latencyOverflow
deriving DecidableEq

def Failure.message : Failure → String
  | unreadable fault => "IO error: " ++ fault.message
  | notToml => "TOML parsing error"
  | badFile fault => "Configuration error: " ++ fault.message
  | masterLoop task =>
    "Timing dependency cycle: cycle detected in master/slave relations involving task '" ++ task ++
      "'"
  | badMargin value =>
    "buffer_size_margin must be a finite, non-negative ratio (got " ++ value.plainText ++ ")"
  | badModel fault => "Internal error: " ++ fault.message
  | dependencyCycle output cycle =>
    "Timing dependency cycle: " ++ output.text ++
      " cannot be resolved because it depends on itself through " ++ chainText cycle
  | unresolved output sink =>
    "the period information for output port " ++ output.text ++
      " cannot be computed; it is needed to compute the policy to connect to " ++ sink.text
  | noSinkPeriod sink =>
    sink.task ++ " has no minimal period, needed to compute the reading latency on " ++ sink.text
  | latencyOverflow => "overflow when adding durations"

end FlowTiming
