import LeasedListener.Text.Decimal

/-!
# Addresses of lease servers

Which texts name a server: `redis://`, a host with an optional user and
service number, and an optional database number; or `unix:` or `redis+unix:`
and the path of a socket.
-/

namespace LeasedListener

namespace ServerAddress

/-- The part of a text before the first character of a kind, and the part
from it on. -/
def cut (stop : Char → Bool) (text : List Char) : List Char × List Char :=
  (text.takeWhile fun c => !stop c, text.dropWhile fun c => !stop c)

/-- The text without control characters and spaces at its ends, and without
tabs and line ends anywhere. -/
def clean (text : List Char) : List Char :=
  let blank (c : Char) : Bool := c.toNat ≤ 0x20
  let text := ((text.dropWhile blank).reverse.dropWhile blank).reverse
  text.filter fun c => c ∉ ['\t', '\n', '\r']

def isHostChar (c : Char) : Bool :=
  c.toNat ≠ 0 && c ∉ [' ', '#', '/', ':', '<', '>', '?', '@', '[', '\\', ']', '^', '|']

/-- A host, between square brackets if it holds colons, and maybe a
service number in 16 bits. -/
def isHostAddress (text : List Char) : Bool :=
  let (host, service) := match text with
    | '[' :: rest =>
        let (inner, tail) := cut (· == ']') rest
        (inner.filter (· ≠ ':'), tail.drop 1)
    | _ => cut (· == ':') text
  !host.isEmpty && host.all isHostChar &&
    match service with
    | [] | [':'] => true
    | ':' :: digits => ((digitsValue? 0 digits).filter (· < 65536)).isSome
    | _ => false

/-- A whole number in 64 bits, maybe with a sign. -/
def isDatabaseNumber (text : List Char) : Bool :=
  match text with
  | '-' :: digits =>
      !digits.isEmpty && ((digitsValue? 0 digits).filter (· ≤ 9223372036854775808)).isSome
  | _ => (readUnsigned? 9223372036854775808 text).isSome

/-- The text behind the last `@`, or all of it. -/
def withoutUser (text : List Char) : List Char :=
  (cut (· == '@') text.reverse).1.reverse

def withoutSlashes (text : List Char) : List Char :=
  ((text.dropWhile (· == '/')).reverse.dropWhile (· == '/')).reverse

def isNetworkAddress (text : List Char) : Bool :=
  match text with
  | '/' :: '/' :: rest =>
      let (authority, tail) := cut (fun c => c == '/' || c == '?' || c == '#') rest
      let database := withoutSlashes (cut (fun c => c == '?' || c == '#') tail).1
      isHostAddress (withoutUser authority) && (database.isEmpty || isDatabaseNumber database)
  | _ => false

def isSocketAddress (text : List Char) : Bool :=
  match (cut (fun c => c == '?' || c == '#') text).1 with
  | '/' :: '/' :: '/' :: _ => true
  | '/' :: '/' :: _ => false
  | '/' :: _ => true
  | _ => false

def isValid (text : String) : Bool :=
  let (scheme, rest) := cut (· == ':') (clean text.toList)
  match String.ofList (scheme.map Char.toLower), rest with
  | "redis", ':' :: rest => isNetworkAddress rest
  | "unix", ':' :: rest | "redis+unix", ':' :: rest => isSocketAddress rest
  | _, _ => false

end ServerAddress

end LeasedListener
