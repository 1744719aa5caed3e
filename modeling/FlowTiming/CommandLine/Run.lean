import FlowTiming.CommandLine.Options
import FlowTiming.CommandLine.Output
import FlowTiming.Journal.Filter
import FlowTiming.NetworkFile.Assembly

/-!
A run of the program on the text of its network file: what it prints, what it reports, and why
it failed if it did.
-/

namespace FlowTiming.CommandLine

structure Trouble where
  context : Option String := none
  failure : Failure
deriving DecidableEq

namespace Trouble

/-- The cause of a failure to read a file is told by itself once more. -/
def causes : Failure → List String
  | .unreadable fault => [(Failure.unreadable fault).message, fault.message]
  | f => [f.message]

def chain (t : Trouble) : List String := t.context.toList ++ causes t.failure

end Trouble

structure Transcript where
  output : String := ""
  journal : Journal := #[]
  trouble : Option Trouble := none

def programNote (level : Level) (message : String) (fields : List (String × String)) : Entry :=
  { level, speaker := .program, message, fields }

def marginOf (o : Options) (f : NetworkFile) : Except Failure Margin :=
  match o.margin with
  | some ratio => Margin.ofBinary64 ratio
  | none => f.margin

/-- Loads a file from its text, which may have turned out unreadable. -/
def loadContents (contents : Except ReadFault String) : Except Failure ValidFile :=
  match contents with
  | .ok text => NetworkFile.load text
  | .error fault => .error (.unreadable fault)

def startNote (n : Network) (m : Margin) : Entry :=
  programNote .info "computing dataflow dynamics"
    [("tasks", toString n.tasks.size), ("links", toString n.links.size),
      ("margin", m.ratio.markedText)]

def dryRun (n : Network) (m : Margin) (journal : Journal) : Transcript :=
  { output := networkText n m,
    journal := journal.push (programNote .debug "dry-run complete (nothing computed)" []) }

def analyze (n : Network) (m : Margin) (journal : Journal) : Transcript :=
  let a := n.analyze m .fresh
  let journal := journal.push (startNote n m) ++ a.journal
  match a.result with
  | .ok r => { output := reportText r, journal }
  | .error failure => { journal, trouble := some { failure } }

def run (o : Options) (contents : Except ReadFault String) : Transcript :=
  match loadContents contents with
  | .error failure => { trouble := some ⟨"loading " ++ o.network, failure⟩ }
  | .ok v =>
    match marginOf o v.file with
    | .error failure => { trouble := some { failure } }
    | .ok m =>
      let journal : Journal := v.file.buildNotes.toArray
      match v.file.build with
      | .error failure => { journal, trouble := some { failure } }
      | .ok n => if o.dryRun then dryRun n m journal else analyze n m journal

/-! ### The program as a whole -/

def setIn (indent text : String) : String :=
  String.join (text.toList.map fun c => if c = '\n' then "\n" ++ indent else String.singleton c)

def numbered (n : Nat) (text : String) : String :=
  let number := toString n
  String.ofList (List.replicate (5 - number.length) ' ') ++ number ++ ": " ++ setIn "       " text

/-- Texts of an error from the outermost inward: the first one, then its causes. -/
def errorText : List String → String
  | [] => ""
  | [text] => text
  | [text, cause] => text ++ "\n\nCaused by:\n    " ++ setIn "    " cause
  | text :: causes =>
    text ++ "\n\nCaused by:\n" ++ "\n".intercalate (causes.mapIdx numbered)

def errorLine (chain : List String) : String := "dataflow-dynamics error: " ++ errorText chain ++ "\n"

/-- The filter asked for by a level on the command line, or else by directives, or else the usual
one. -/
def filterOf (o : Options) (directives : Option String) : Option Filter :=
  match o.level, directives with
  | some level, _ => some (.upTo level)
  | none, some text => Filter.read? text
  | none, none => some (.upTo .info)

def badDirectives (text : String) : List String :=
  ["invalid DATAFLOW_DYNAMICS_LOG value '" ++ text ++ "'", "invalid filter directive"]

structure Exit where
  code : Nat
  output : String := ""
  errors : String := ""
deriving DecidableEq, Inhabited

def finish (f : Filter) (t : Transcript) : Exit :=
  let shown := unlines (f.lines t.journal)
  match t.trouble with
  | none => { code := 0, output := t.output, errors := shown }
  | some ⟨_, .latencyOverflow⟩ =>
    { code := 101, output := t.output, errors := shown ++ Failure.latencyOverflow.message ++ "\n" }
  | some trouble =>
    { code := 1, output := t.output, errors := shown ++ errorLine trouble.chain }

/-- The program from its options on, given the contents of the network file. -/
def execute (o : Options) (directives : Option String) (contents : Except ReadFault String) : Exit :=
  match filterOf o directives with
  | some f => finish f (run o contents)
  | none => { code := 1, errors := errorLine (badDirectives (directives.getD "")) }

def refuse (r : Refusal) : Exit :=
  { code := r.exitCode, output := r.output,
    errors := if r.complaint.isEmpty then "" else r.complaint ++ "\n" }

end FlowTiming.CommandLine
