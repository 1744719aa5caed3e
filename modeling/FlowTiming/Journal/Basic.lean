import FlowTiming.Text.Control
import FlowTiming.Text.Quoted

/-!
What a computation reports about itself: entries with a level, the part of the program that
speaks, a message and named values. Journals are data; printing them is somebody else's work.
-/

namespace FlowTiming

inductive Level where
  | error
  | warn
  | info
  | debug
  | trace
deriving DecidableEq, Inhabited

namespace Level

def rank : Level → Nat
  | error => 1
  | warn => 2
  | info => 3
  | debug => 4
  | trace => 5

def column : Level → String
  | error => "ERROR"
  | warn => " WARN"
  | info => " INFO"
  | debug => "DEBUG"
  | trace => "TRACE"

end Level

inductive Speaker where
  | program
  | dynamics
  | board
  | engine
  | flow
  | resolver
  | policy
deriving DecidableEq, Inhabited

def Speaker.path : Speaker → String
  | program => "dataflow_dynamics"
  | dynamics => "dataflow_dynamics::dynamics::port_dynamics"
  | board => "dataflow_dynamics::propagation::state"
  | engine => "dataflow_dynamics::propagation::engine"
  | flow => "dataflow_dynamics::flow"
  | resolver => "dataflow_dynamics::flow::resolver"
  | policy => "dataflow_dynamics::flow::policy"

structure Entry where
  level : Level
  speaker : Speaker
  message : String
  fields : List (String × String) := []
deriving DecidableEq, Inhabited

namespace Entry

/-- The names under which directives find what an entry tells; the message is among them. -/
def fieldNames (e : Entry) : List String := "message" :: e.fields.map Prod.fst

def line (e : Entry) : String :=
  e.level.column ++ " " ++ e.speaker.path ++ ": " ++ Text.tamed e.message ++
    String.join (e.fields.map fun f => " " ++ f.1 ++ "=" ++ f.2)

end Entry

abbrev Journal := Array Entry

end FlowTiming
