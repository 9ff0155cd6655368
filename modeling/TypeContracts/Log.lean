import TypeContracts.Text.Blank

/-!
Leveled logging. A `Logger` is a filter and a colour switch; it prints a record exactly when the
record is at least as severe as the filter. Setting names are read without regard to surrounding
blanks or letter case. A process keeps its logger as a `LogState`, with a count of levels for the filter.
-/

namespace TypeContracts

/-- Severity of a record, most severe first. -/
inductive Level where
  | error
  | warn
  | info
  | debug
  | trace
  deriving DecidableEq

/-- A text that names no level. -/
structure LevelError where
  input : String
  deriving DecidableEq

def LevelError.message (e : LevelError) : String :=
  "invalid log level '" ++ e.input ++ "' (expected error, warn, info, debug, trace or off)"

namespace Level

/-- Every level, most severe first. -/
def all : List Level := [.error, .warn, .info, .debug, .trace]

/-- The place of a level among all, counted from the most severe. -/
def rank : Level → Nat
  | .error => 0
  | .warn => 1
  | .info => 2
  | .debug => 3
  | .trace => 4

def name : Level → String
  | .error => "ERROR"
  | .warn => "WARN"
  | .info => "INFO"
  | .debug => "DEBUG"
  | .trace => "TRACE"

/-- The terminal code of a level's colour. -/
def colorCode : Level → String
  | .error => "\x1b[31m"
  | .warn => "\x1b[33m"
  | .info => "\x1b[32m"
  | .debug => "\x1b[36m"
  | .trace => "\x1b[35m"

/-- The level of a setting name, which has neither blanks around it nor capital letters. -/
def ofSetting? : String → Option Level
  | "error" => some .error
  | "warn" => some .warn
  | "warning" => some .warn
  | "info" => some .info
  | "debug" => some .debug
  | "trace" => some .trace
  | _ => none

/-- The level that a text names. -/
def parse (s : String) : Except LevelError Level :=
  match ofSetting? (settingName s) with
  | some level => .ok level
  | none => .error ⟨s⟩

/-- The filter that a text names: a level, or `off` for none. -/
def parseFilter (s : String) : Except LevelError (Option Level) :=
  if settingName s = "off" then .ok none else (parse s).map some

/-- The level used when nothing else is asked for. -/
def standard : Level := .warn

end Level

/-- The state of logging: the least severe level still printed, if any, and whether in colour. -/
structure Logger where
  filter : Option Level
  color : Bool
  deriving DecidableEq

namespace Logger

/-- Whether a record of the level is printed. -/
def enabled (l : Logger) (level : Level) : Bool :=
  match l.filter with
  | none => false
  | some least => level.rank ≤ least.rank

def setLevel (l : Logger) (level : Level) : Logger := { l with filter := some level }

def disable (l : Logger) : Logger := { l with filter := none }

def setColor (l : Logger) (color : Bool) : Logger := { l with color := color }

/-- Sets the filter that a text names; a text that names none changes nothing. -/
def setFilter (l : Logger) (s : String) : Except LevelError Logger :=
  match Level.parseFilter s with
  | .ok (some level) => .ok (l.setLevel level)
  | .ok none => .ok l.disable
  | .error e => .error e

/-- The printed form of a record. -/
def line (l : Logger) (level : Level) (target message : String) : String :=
  let tag := "[" ++ level.name ++ "]"
  (if l.color then level.colorCode ++ tag ++ "\x1b[0m" else tag) ++ " " ++ target ++ ": " ++ message

/-- The logger of a new process, from the variables that set its level and switch colours off, with
the complaint it prints about a level it cannot read. -/
def ofEnvironment (level noColor : Option String) : Logger × List String :=
  let color := noColor.isNone
  match level with
  | none => (⟨some .standard, color⟩, [])
  | some s =>
      match Level.parseFilter s with
      | .ok filter => (⟨filter, color⟩, [])
      | .error e =>
          (⟨some .standard, color⟩,
            ["[WARN] conform_log: " ++ e.message ++ "; using " ++ Level.standard.name])

end Logger

/-- The logger as a process keeps it: how many levels are printed, the most severe ones first, and whether
in colour. -/
structure LogState where
  enabledCount : UInt8
  color : Bool
  deriving DecidableEq

namespace LogState

/-- How many levels a filter lets through. -/
def encode : Option Level → UInt8
  | none => 0
  | some level => level.rank.toUInt8 + 1

/-- The filter: the last of the levels that are let through. -/
def level? (s : LogState) : Option Level :=
  match s.enabledCount.toNat with
  | 0 => none
  | n + 1 => Level.all[n]?

/-- Whether a record of the level is printed. -/
def enabled (s : LogState) (level : Level) : Bool := level.rank.toUInt8 < s.enabledCount

def setLevel (s : LogState) (level : Level) : LogState := { s with enabledCount := encode (some level) }

def disable (s : LogState) : LogState := { s with enabledCount := 0 }

def setColor (s : LogState) (color : Bool) : LogState := { s with color := color }

/-- Sets the filter that a text names; a text that names none changes nothing. -/
def setFilter (s : LogState) (text : String) : Except LevelError LogState :=
  match Level.parseFilter text with
  | .ok (some level) => .ok (s.setLevel level)
  | .ok none => .ok s.disable
  | .error e => .error e

/-- The logger that runs are given. -/
def logger (s : LogState) : Logger := ⟨s.level?, s.color⟩

end LogState

/-- The state of a process that starts with a logger. -/
def Logger.keep (l : Logger) : LogState := ⟨LogState.encode l.filter, l.color⟩

end TypeContracts
