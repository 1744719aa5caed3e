import FlowTiming.Report

/-!
What the program prints: the network of a dry run, and the report of an analysis.
-/

namespace FlowTiming.CommandLine

def unlines (lines : List String) : String := String.join (lines.map (· ++ "\n"))

def namesLine (what : String) (names : List String) : List String :=
  if names.isEmpty then [] else ["      " ++ what ++ ": " ++ Text.bracketed (names.map Text.quoted)]

def activityLine : Activity → String
  | .periodic period => "      periodic: " ++ period.secondsText ++ "s"
  | .triggered => "      triggered"
  | .slave master => "      slave of: " ++ master

def kindLines : TaskKind → List String
  | .component => []
  | .driver devices => ["      driver of " ++ toString devices.length ++ " device(s)"]
  | .bus devices => ["      bus for " ++ toString devices.length ++ " device(s)"]

def taskLines (name : String) (t : Task) : List String :=
  ["  - " ++ name, activityLine t.activity] ++ kindLines t.kind ++
    namesLine "inputs" t.inputs.keys ++ namesLine "outputs" t.outputs.keys

def arrow (l : Link) : String := l.source.text ++ " -> " ++ l.sink.text

def noteOf (what : String) : Option Policy → String
  | some p => " [" ++ what ++ ": " ++ p.text ++ "]"
  | none => ""

def linkLine (l : Link) (p : LinkPolicy) : String :=
  "  - " ++ arrow l ++ noteOf "policy" p.preset ++ noteOf "fallback" p.fallback

def networkText (n : Network) (m : Margin) : String :=
  unlines <|
    ["dataflow-dynamics dry-run",
      "  config.buffer_size_margin = " ++ m.ratio.plainText,
      "",
      "tasks (" ++ toString n.tasks.size ++ "):"] ++
    n.tasks.toList.flatMap (fun t => taskLines t.1 t.2) ++
    ["", "connections (" ++ toString n.links.size ++ "):"] ++
    n.links.toList.map fun e => linkLine e.1 e.2

def dynamicsLines (m : Std.ExtTreeMap FlowNode PortDynamics) : List String :=
  m.toList.map fun e => "  " ++ e.2.text

def headed (heading : String) (lines : List String) : List String :=
  if lines.isEmpty then [] else "" :: heading :: lines

def reportText (r : Report) : String :=
  unlines <|
    ["dynamics (" ++ toString r.passes ++ " passes):"] ++
    dynamicsLines r.dynamics ++
    headed "partial dynamics:" (dynamicsLines r.partialDynamics) ++
    headed "unresolved:" (r.unresolved.toList.map fun n => "  " ++ n.text) ++
    r.cycles.map (fun c => "  cycle: " ++ chainText c) ++
    ["", "policies:"] ++
    r.policies.toList.map (fun e => "  " ++ arrow e.1 ++ ": " ++ e.2.text) ++
    headed "warnings:" (r.warnings.map fun w => "  " ++ w.text)

end FlowTiming.CommandLine
