import LeasedListener.Text.Blank

/-!
# Log formats

The two forms in which events can be printed, and the names that select them.
-/

namespace LeasedListener

inductive LogFormat
  | json
  | text
deriving DecidableEq

/-- A text that names no log format. -/
structure UnknownLogFormat where
  given : String

def UnknownLogFormat.message (e : UnknownLogFormat) : String :=
  s!"unknown log format '{e.given}' (expected 'json' or 'text')"

namespace LogFormat

def parse (given : String) : Except UnknownLogFormat LogFormat :=
  match String.ofList ((trimBlanks given.toList).map Char.toLower) with
  | "json" => .ok .json
  | "text" | "pretty" | "compact" => .ok .text
  | _ => .error ⟨given⟩

/-- The format that a setting selects; the default where it is unset or
unknown. -/
def ofSetting (setting : Option String) : LogFormat :=
  match setting.map parse with
  | some (.ok format) => format
  | _ => .json

end LogFormat

end LeasedListener
