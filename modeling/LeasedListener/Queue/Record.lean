import LeasedListener.Queue.Message
import LeasedListener.Timestamp.Text
import LeasedListener.Json.Reader
import LeasedListener.Json.Writer

/-!
# Message records

The wire form of a message: a JSON object of six members, or an array of the
six values in the same order.  Members of other names are ignored; a member
that is missing or repeated is an error.
-/

namespace LeasedListener

namespace MessageRecord

def memberNames : List String :=
  ["id", "pop_receipt", "dequeue_count", "body", "inserted_at", "next_visible_at"]

/-- The only member of that name. -/
def uniqueMember? (name : String) (members : List (Option String × Json)) : Option Json :=
  match members.filter fun member => member.1 = some name with
  | [member] => some member.2
  | _ => none

def readIdentifier? (value : Json) : Option Identifier := value.string?.bind Identifier.parse?

def readTimestamp? (value : Json) : Option Timestamp := value.string?.bind Timestamp.parse?

def readCount? (value : Json) : Option UInt32 :=
  (value.natural?.filter (· < UInt32.size)).map UInt32.ofNat

def readByte? (value : Json) : Option UInt8 :=
  (value.natural?.filter (· < UInt8.size)).map UInt8.ofNat

def readBody? : Json → Option (List UInt8)
  | .array items => items.mapM readByte?
  | _ => none

/-- The message of the six values in order. -/
def ofValues? : List Json → Option MessageRecord
  | [id, receipt, count, body, insertedAt, nextVisibleAt] => do
      return {
        id := ← readIdentifier? id
        receipt := ← readIdentifier? receipt
        dequeueCount := ← readCount? count
        body := ← readBody? body
        insertedAt := ← readTimestamp? insertedAt
        nextVisibleAt := ← readTimestamp? nextVisibleAt }
  | _ => none

def ofJson? : Json → Option MessageRecord
  | .object members =>
      if members.all fun member => member.1.isSome
      then (memberNames.mapM fun name => uniqueMember? name members).bind ofValues?
      else none
  | .array values => ofValues? values
  | _ => none

def values (m : MessageRecord) : List Json :=
  [.ofString m.id.text, .ofString m.receipt.text, .ofNat m.dequeueCount.toNat,
    .array (m.body.map fun byte => .ofNat byte.toNat), .ofString m.insertedAt.text,
    .ofString m.nextVisibleAt.text]

def toJson (m : MessageRecord) : Json := .object ((memberNames.map some).zip m.values)

def parse? (text : String) : Option MessageRecord := (Json.parse? text).bind ofJson?

def text (m : MessageRecord) : String := m.toJson.text

end MessageRecord

end LeasedListener
