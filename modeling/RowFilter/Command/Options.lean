/-!
# Command.Options — what a command line asks for

An argument that starts with two hyphens gives one option by its long name; its value follows a `=`
or is the next argument.  One that starts with a single hyphen gives options by their letters: any
number of switches, and an option with a value in last place, whose value follows at once, after a
`=`, or in the next argument.  Every option but `where` is given at most once.

Options that ask for nothing but help or the version are not among them: what they print is a text of
its own, and here they are unknown options.
-/

namespace RowFilter.Command

set_option autoImplicit false

/-- An option that is on or off. -/
inductive Switch where
  | skipHeader
  | explain
  | debug
  deriving DecidableEq, Repr

/-- An option that takes a value. -/
inductive Slot where
  | schema
  | clause
  | plan
  | savePlan
  | input
  | delimiter
  deriving DecidableEq, Repr

inductive Name where
  | switch (s : Switch)
  | slot (s : Slot)
  deriving DecidableEq, Repr

def Name.ofLong? : String → Option Name
  | "schema" => some (.slot .schema)
  | "where" => some (.slot .clause)
  | "plan" => some (.slot .plan)
  | "save-plan" => some (.slot .savePlan)
  | "input" => some (.slot .input)
  | "delimiter" => some (.slot .delimiter)
  | "skip-header" => some (.switch .skipHeader)
  | "explain" => some (.switch .explain)
  | "debug" => some (.switch .debug)
  | _ => none

def Name.ofLetter? : Char → Option Name
  | 's' => some (.slot .schema)
  | 'w' => some (.slot .clause)
  | 'p' => some (.slot .plan)
  | 'i' => some (.slot .input)
  | 'D' => some (.slot .delimiter)
  | 'd' => some (.switch .debug)
  | _ => none

/-- One option as given. -/
inductive Setting where
  | on (s : Switch)
  | value (s : Slot) (text : String)
  deriving DecidableEq, Repr

/-- Why a command line is refused. -/
inductive Refusal where
  | unknownOption
  | strayArgument
  | missingValue (s : Slot)
  | unwantedValue (s : Switch)
  | repeatedSwitch (s : Switch)
  | repeatedSlot (s : Slot)
  | missingSchema
  /-- A plan and clauses exclude each other. -/
  | planWithClauses
  | emptyPath (s : Slot)
  | delimiterNotOneCharacter
  deriving DecidableEq, Repr

namespace Slot

/-- The long name of the option. -/
def name : Slot → String
  | schema => "--schema"
  | clause => "--where"
  | plan => "--plan"
  | savePlan => "--save-plan"
  | input => "--input"
  | delimiter => "--delimiter"

end Slot

namespace Switch

/-- The long name of the option. -/
def name : Switch → String
  | skipHeader => "--skip-header"
  | explain => "--explain"
  | debug => "--debug"

end Switch

namespace Refusal

def message : Refusal → String
  | unknownOption => "there is no such option"
  | strayArgument => "an argument belongs to no option"
  | missingValue s => s.name ++ " needs a value"
  | unwantedValue s => s.name ++ " takes no value"
  | repeatedSwitch s => s.name ++ " is given twice"
  | repeatedSlot s => s.name ++ " is given twice"
  | missingSchema => "--schema is required"
  | planWithClauses => "--plan and --where exclude each other"
  | emptyPath s => s.name ++ " needs a path"
  | delimiterNotOneCharacter => "--delimiter needs one character"

end Refusal

structure Options where
  schema : String
  clauses : List String
  plan : Option String
  savePlan : Option String
  input : Option String
  delimiter : Char
  skipHeader : Bool
  explain : Bool
  debug : Bool
  deriving DecidableEq, Repr

/-! ## Arguments -/

/-- What one argument gives: settings, and an option whose value is in the next argument. -/
abbrev Given := List Setting × Option Slot

/-- The option after two hyphens. -/
def readLong (s : List Char) : Except Refusal Given :=
  let word := s.takeWhile (· != '=')
  match Name.ofLong? (String.ofList word), s.drop word.length with
  | none, _ => .error .unknownOption
  | some (.switch s), [] => .ok ([.on s], none)
  | some (.switch s), _ :: _ => .error (.unwantedValue s)
  | some (.slot s), [] => .ok ([], some s)
  | some (.slot s), _ :: text => .ok ([.value s (String.ofList text)], none)

/-- The options after one hyphen. -/
def readLetters : List Char → Except Refusal Given
  | [] => .ok ([], none)
  | c :: rest =>
    match Name.ofLetter? c, rest with
    | none, _ => .error .unknownOption
    | some (.switch s), rest => (readLetters rest).map (fun given => (.on s :: given.1, given.2))
    | some (.slot s), [] => .ok ([], some s)
    | some (.slot s), '=' :: text => .ok ([.value s (String.ofList text)], none)
    | some (.slot s), text => .ok ([.value s (String.ofList text)], none)

/-- One argument. -/
def readArgument (argument : String) : Except Refusal Given :=
  match argument.toList with
  | '-' :: '-' :: s => readLong s
  | '-' :: c :: s => readLetters (c :: s)
  | _ => .error .strayArgument

/-- Whether an argument looks like an option and so is no value. -/
def isOptionLike (argument : String) : Bool :=
  match argument.toList with
  | '-' :: _ :: _ => true
  | _ => false

/-- All settings in their order.  A lone `--` ends the options, and nothing may follow it. -/
def readSettings : List String → Except Refusal (List Setting)
  | [] => .ok []
  | argument :: rest =>
    if argument = "--" then if rest.isEmpty then .ok [] else .error .strayArgument
    else
      match readArgument argument with
      | .error refusal => .error refusal
      | .ok (settings, none) => (readSettings rest).map (settings ++ ·)
      | .ok (settings, some s) =>
        match rest with
        | [] => .error (.missingValue s)
        | text :: rest =>
          if isOptionLike text then .error (.missingValue s)
          else (readSettings rest).map (fun more => settings ++ .value s text :: more)

/-! ## Options -/

/-- The values given for an option. -/
def valuesOf (s : Slot) (settings : List Setting) : List String :=
  settings.filterMap fun
    | .value t text => if s = t then some text else none
    | .on _ => none

/-- The value of an option that is given at most once. -/
def valueOf (s : Slot) (settings : List Setting) : Except Refusal (Option String) :=
  match valuesOf s settings with
  | [] => .ok none
  | [text] => .ok (some text)
  | _ => .error (.repeatedSlot s)

/-- The path of an option; it has at least one character. -/
def pathOf (s : Slot) (settings : List Setting) : Except Refusal (Option String) := do
  let text ← valueOf s settings
  if text = some "" then .error (.emptyPath s) else .ok text

/-- Whether a switch is on. -/
def isOn (s : Switch) (settings : List Setting) : Except Refusal Bool :=
  match settings.count (.on s) with
  | 0 => .ok false
  | 1 => .ok true
  | _ => .error (.repeatedSwitch s)

/-- The one character that separates fields, a comma unless another is given. -/
def delimiterOf (settings : List Setting) : Except Refusal Char := do
  match ← valueOf .delimiter settings with
  | none => .ok ','
  | some text =>
    match text.toList with
    | [c] => .ok c
    | _ => .error .delimiterNotOneCharacter

namespace Options

/-- The options that settings add up to. -/
def ofSettings (settings : List Setting) : Except Refusal Options := do
  let schema ← valueOf .schema settings
  let plan ← pathOf .plan settings
  let savePlan ← pathOf .savePlan settings
  let input ← pathOf .input settings
  let delimiter ← delimiterOf settings
  let skipHeader ← isOn .skipHeader settings
  let explain ← isOn .explain settings
  let debug ← isOn .debug settings
  let clauses := valuesOf .clause settings
  match schema with
  | none => .error .missingSchema
  | some schema =>
    if plan.isSome && !clauses.isEmpty then .error .planWithClauses
    else .ok ⟨schema, clauses, plan, savePlan, input, delimiter, skipHeader, explain, debug⟩

/-- Reads the arguments of a command line. -/
def read (arguments : List String) : Except Refusal Options := do
  let settings ← readSettings arguments
  ofSettings settings

end Options

end RowFilter.Command
