/-!
# Arguments of the command line

A command is a word with options and operands after it.  Long options start
with two dashes and take their value after an equals sign or from the next
word; short ones are a letter after one dash, and letters without values can be
joined.  After two dashes alone all words are operands.
-/

namespace WebBaseline

/-- The forms of a report. -/
inductive ReportFormat where
  | terminal
  | json
  | markdown
deriving DecidableEq, Repr, Inhabited

/-- The names of the forms. -/
def ReportFormat.names : List (String × ReportFormat) :=
  [("terminal", terminal), ("json", json), ("markdown", markdown)]

/-- What a scan is told. -/
structure ScanRequest where
  directory : String
  config : Option String := none
  format : ReportFormat := .terminal
  /-- The directory in which the report is saved. -/
  output : Option String := none
  offline : Bool := false
deriving DecidableEq, Repr, Inhabited

/-- The commands. -/
inductive Command where
  | scan (request : ScanRequest)
  | catalog (config : Option String) (offline : Bool)
  | invalidate (config : Option String)
deriving DecidableEq, Repr

/-- Why arguments are no command. -/
inductive Usage where
  /-- They make no sense. -/
  | refused
  /-- They ask for help. -/
  | help
deriving DecidableEq, Repr

namespace Command

/-- An option. -/
structure Switch where
  long : String
  short : Option Char := none
  takesValue : Bool := false
deriving DecidableEq, Repr

/-- Whether to say more. -/
def verbose : Switch := { long := "verbose", short := some 'v' }

/-- The file of the settings. -/
def config : Switch := { long := "config", short := some 'c', takesValue := true }

/-- The form of the report. -/
def format : Switch := { long := "format", short := some 'f', takesValue := true }

/-- The directory of the report. -/
def output : Switch := { long := "output", short := some 'o', takesValue := true }

/-- Whether to do without the service. -/
def offline : Switch := { long := "offline" }

/-- The words of a command that have been read. -/
structure Given where
  /-- Options with their values; one without a value has an empty one. -/
  switches : List (String × String) := []
  operands : List String := []
deriving DecidableEq, Repr

namespace Given

/-- Add an option.  None is given twice. -/
def add (s : Switch) (value : String) (g : Given) : Except Usage Given :=
  if (g.switches.lookup s.long).isSome then .error .refused
  else .ok { g with switches := (s.long, value) :: g.switches }

/-- Whether an option without a value is given. -/
def has (s : Switch) (g : Given) : Bool := (g.switches.lookup s.long).isSome

/-- The path that an option gives; no path is empty. -/
def path? (s : Switch) (g : Given) : Except Usage (Option String) :=
  match g.switches.lookup s.long with
  | none => .ok none
  | some path => if path.isEmpty then .error .refused else .ok (some path)

end Given

/-- Whether a word starts options. -/
def isOption (word : String) : Bool := word.startsWith "-" && word != "-"

/-- Read joined short options.  The outcome says which option takes its value from the next
word. -/
def readShort (switches : List Switch) : List Char → Given → Except Usage (Given × Option Switch)
  | [], g => .ok (g, none)
  | c :: rest, g =>
    match switches.find? (·.short == some c) with
    | none => .error (if c = 'h' then .help else .refused)
    | some s =>
      if !s.takesValue then (g.add s "").bind (readShort switches rest)
      else match rest with
        | [] => .ok (g, some s)
        | '=' :: value => (g.add s (String.ofList value)).map (·, none)
        | value => (g.add s (String.ofList value)).map (·, none)

/-- Read a long option without its dashes.  The outcome says which option takes its value from
the next word. -/
def readLong (switches : List Switch) (cs : List Char) (g : Given) :
    Except Usage (Given × Option Switch) :=
  let name := cs.takeWhile (· ≠ '=')
  let value := (cs.drop name.length).drop 1
  let hasValue := name.length < cs.length
  match switches.find? (·.long == String.ofList name) with
  | none => .error (if cs == "help".toList then .help else .refused)
  | some s =>
    if hasValue then
      if s.takesValue then (g.add s (String.ofList value)).map (·, none) else .error .refused
    else if s.takesValue then .ok (g, some s)
    else (g.add s "").map (·, none)

/-- Read a word with options. -/
def readOption (switches : List Switch) (word : String) (g : Given) :
    Except Usage (Given × Option Switch) :=
  match word.toList with
  | '-' :: '-' :: cs => readLong switches cs g
  | _ :: cs => readShort switches cs g
  | [] => .error .refused

/-- Read the words after a command.  `waiting` is an option that takes the next word. -/
def readWords (switches : List Switch) : List String → Option Switch → Given → Except Usage Given
  | [], none, g => .ok g
  | [], some _, _ => .error .refused
  | word :: rest, waiting, g =>
    if word == "--" then
      if waiting.isSome then .error .refused else .ok { g with operands := g.operands ++ rest }
    else if isOption word then
      if waiting.isSome then .error .refused
      else match readOption switches word g with
        | .error e => .error e
        | .ok (g, waiting) => readWords switches rest waiting g
    else match waiting with
      | some s => (g.add s word).bind (readWords switches rest none)
      | none => readWords switches rest none { g with operands := g.operands ++ [word] }

/-- Read the words before a command: the word of the command and what comes after it. -/
def readBefore : List String → Given → Except Usage (String × List String)
  | [], _ => .error .refused
  | word :: rest, g =>
    if word == "--" then .error .refused
    else if isOption word then
      match readOption [verbose] word g with
      | .error e => .error e
      | .ok (g, _) => readBefore rest g
    else .ok (word, rest)

/-- The command of what a scan is given. -/
def scanOf (g : Given) : Except Usage Command := do
  match g.operands with
  | [directory] =>
    if directory.isEmpty then throw .refused
    match ReportFormat.names.lookup ((g.switches.lookup format.long).getD "terminal") with
    | none => throw .refused
    | some form =>
      return scan
        { directory, config := ← g.path? config, format := form, output := ← g.path? output
          offline := g.has offline }
  | _ => throw .refused

/-- Check that there are no operands. -/
def noOperands (g : Given) : Except Usage Unit :=
  if g.operands.isEmpty then .ok () else .error .refused

/-- Read a command. -/
def parse (words : List String) : Except Usage Command := do
  let (name, rest) ← readBefore words {}
  match name with
  | "scan" => scanOf (← readWords [verbose, config, format, output, offline] rest none {})
  | "catalog" =>
    let g ← readWords [verbose, config, offline] rest none {}
    noOperands g
    return catalog (← g.path? config) (g.has offline)
  | "invalidate" =>
    let g ← readWords [verbose, config] rest none {}
    noOperands g
    return invalidate (← g.path? config)
  | "help" => throw .help
  | _ => throw .refused

end Command

end WebBaseline
