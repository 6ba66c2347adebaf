import RowFilter.Command.Options
import RowFilter.Command.Scan
import RowFilter.Plan.Saved

/-!
# Command.Run — a run of the command line

A run takes its filter from clauses or from a saved plan, checks it against the schema, saves it
where that is asked for, and then either explains it or scans the input with it.  `run` is a function
of the options, the files and the standard input; its `Report` is all that can be seen of it.
-/

namespace RowFilter.Command

set_option autoImplicit false

inductive Level where
  | info
  | debug
  deriving DecidableEq, Repr

/-- What is written to the error stream. -/
inductive Message where
  | log (level : Level) (text : String)
  | problem (p : Problem)
  deriving DecidableEq

structure Report where
  exit : Nat
  output : String
  messages : List Message
  files : Files

namespace Report

/-- The first lines of the log messages. -/
def log (r : Report) : List (Level × String) :=
  r.messages.filterMap fun
    | .log level text => some (level, (Problem.linesOf text).headD "")
    | .problem _ => none

/-- All other lines of the error stream. -/
def errors (r : Report) : List String :=
  r.messages.flatMap fun
    | .log _ text => Problem.indented (Problem.linesOf text).tail
    | .problem p => p.render

/-- The report of a run that ends with a problem. -/
def failed (files : Files) (output : String) (messages : List Message) (p : Problem) : Report :=
  ⟨1, output, messages ++ [.problem p], files⟩

end Report

/-! ## Steps -/

/-- Messages that are only written where debugging is on. -/
def debugging (o : Options) (text : String) : List Message :=
  if o.debug then [.log .debug text] else []

/-- The filter tree that is asked for, from a plan or from clauses. -/
def givenTree (o : Options) (files : Files) (schema : Schema) : Except Problem Expr :=
  match o.plan with
  | some path => (Plan.load files path).mapError (.load path)
  | none =>
    match readClauses schema o.clauses with
    | .error fault => .error (.clause fault)
    | .ok es =>
      match Expr.conjunction? es with
      | some e => .ok e
      | none => .error .noFilter

/-- What is written once the tree is there. -/
def loadMessages (o : Options) (e : Expr) : List Message :=
  match o.plan with
  | some path => debugging o ("Loaded plan " ++ e.text ++ " from " ++ path)
  | none => []

/-- The files after the plan is saved, if it is to be. -/
def savedFiles (o : Options) (files : Files) (e : Expr) : Except Problem Files :=
  match o.savePlan with
  | some path => (Plan.save files path e).mapError (.save path)
  | none => .ok files

def saveMessages (o : Options) (e : Expr) : List Message :=
  match o.savePlan with
  | some path =>
    debugging o ("Wrote " ++ toString (Plan.encode e).length ++ " byte plan to " ++ path)
  | none => []

/-- What is printed to explain a filter. -/
def explanation (e : Expr) : String :=
  "Filter: " ++ e.text ++ "\nRoot:   " ++ e.kind.tag ++ "\nReads:  [" ++
    ", ".intercalate (e.columns.map (fun i => toString i.toNat)) ++ "]\n"

/-- The bytes to scan. -/
def inputBytes (o : Options) (files : Files) (stdin : Bytes) : Except Problem Bytes :=
  match o.input with
  | none => .ok stdin
  | some path =>
    match files.check path with
    | .error fault => .error (.openInput path fault)
    | .ok () => (files.read path).mapError .readInput

/-- The lines kept, each with a newline behind it. -/
def printed (lines : List (List Char)) : String :=
  String.ofList (lines.flatMap (· ++ ['\n']))

/-- What is written after a scan without a problem. -/
def countMessage (scan : Scan) : Message :=
  .log .info ("Kept " ++ toString scan.kept.length ++ " of " ++ toString scan.considered ++ " rows")

/-! ## Runs -/

/-- Scans the input with a filter. -/
def runScan (o : Options) (files : Files) (stdin : Bytes) (schema : Schema) (filter : Filter)
    (messages : List Message) : Report :=
  match inputBytes o files stdin with
  | .error p => .failed files "" messages p
  | .ok input =>
    let scan := Scanner.scan ⟨schema, filter, o.delimiter, o.skipHeader⟩ input
    match scan.problem with
    | some p => .failed files (printed scan.kept) messages p
    | none => ⟨0, printed scan.kept, messages ++ [countMessage scan], files⟩

/-- Saves a filter where that is asked for, and explains or applies it. -/
def runFilter (o : Options) (files : Files) (stdin : Bytes) (schema : Schema) (filter : Filter)
    (messages : List Message) : Report :=
  match savedFiles o files filter.expr with
  | .error p => .failed files "" messages p
  | .ok files =>
    let messages := messages ++ saveMessages o filter.expr
    if o.explain then ⟨0, explanation filter.expr, messages, files⟩
    else runScan o files stdin schema filter messages

/-- A run of the given options. -/
def run (o : Options) (files : Files) (stdin : Bytes) : Report :=
  match readSchema o.schema with
  | .error name => .failed files "" [] (.unknownType name)
  | .ok schema =>
    match givenTree o files schema with
    | .error p => .failed files "" [] p
    | .ok e =>
      match Filter.ofSchema schema e with
      | .error fault => .failed files "" (loadMessages o e) (.schema fault)
      | .ok filter => runFilter o files stdin schema filter (loadMessages o e)

/-- A run of a command line.  Where its arguments are refused it does nothing and ends with 2. -/
def runArguments (arguments : List String) (files : Files) (stdin : Bytes) : Report :=
  match Options.read arguments with
  | .error _ => ⟨2, "", [], files⟩
  | .ok o => run o files stdin

end RowFilter.Command
