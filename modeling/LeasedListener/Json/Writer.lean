import LeasedListener.Json.Value

/-!
# Writing JSON

The text of a value, without blanks between its parts.
-/

namespace LeasedListener.Json

def hexDigit (n : Nat) : Char := ("0123456789abcdef".toList)[n % 16]?.getD '0'

/-- The spelling of a character inside quotes. -/
def escape (c : Char) : List Char :=
  if c = '"' then ['\\', '"']
  else if c = '\\' then ['\\', '\\']
  else if c.toNat < 32 then
    ['\\', 'u', '0', '0', hexDigit (c.toNat / 16), hexDigit c.toNat]
  else [c]

def quoted (text : List Char) : List Char := '"' :: text.flatMap escape ++ ['"']

def separated : List (List Char) → List Char
  | [] => []
  | [part] => part
  | part :: rest => part ++ ',' :: separated rest

mutual

def render : Json → List Char
  | .null => "null".toList
  | .bool true => "true".toList
  | .bool false => "false".toList
  | .number spelling => spelling
  | .string text => quoted (text.getD "").toList
  | .array items => '[' :: separated (renderItems items) ++ [']']
  | .object members => '{' :: separated (renderMembers members) ++ ['}']

def renderItems : List Json → List (List Char)
  | [] => []
  | item :: rest => render item :: renderItems rest

def renderMembers : List (Option String × Json) → List (List Char)
  | [] => []
  | (name, value) :: rest =>
      (quoted (name.getD "").toList ++ ':' :: render value) :: renderMembers rest

end

def text (value : Json) : String := String.ofList value.render

end LeasedListener.Json
