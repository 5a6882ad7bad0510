import ScopedConf.Json
import ScopedConf.Text.Decimal
import ScopedConf.Value.Basic

/-! Listeners: an address and a port on which a server answers. -/

namespace ScopedConf.Server

structure Listener where
  address : String
  port : Nat
  isDefault : Bool
  deriving DecidableEq

namespace Listener

def usual : Listener := ⟨"*", 80, false⟩

def toJson (l : Listener) : Json :=
  Json.object
    [("addr", .str l.address), ("port", .ofNat l.port), ("default_server", .bool l.isDefault)]

def endpoint (l : Listener) : String :=
  l.address ++ ":" ++ toString l.port

/-- The texts before and after the last colon, if there is one. -/
def splitLastColon? (cs : List Char) : Option (List Char × List Char) :=
  match cs.reverse.dropWhile (· ≠ ':') with
  | [] => none
  | _ :: before => some (before.reverse, (cs.reverse.takeWhile (· ≠ ':')).reverse)

def readPort? (cs : List Char) : Option Nat :=
  (Text.unsigned? UInt16.size cs).filter (· ≠ 0)

/-- Reads `address:port`, or a port alone for every address. -/
def readEndpoint (word : String) : Except Refusal (String × Nat) :=
  match splitLastColon? word.toList with
  | some ([], _) => .error (.invalid word "missing address")
  | some (address, port) => read (String.ofList address) port
  | none => read "*" word.toList
where
  read (address : String) (port : List Char) : Except Refusal (String × Nat) :=
    match readPort? port with
    | some n => .ok (address, n)
    | none => .error (.invalid word "invalid port")

def readMark : Option String → Except Refusal Bool
  | none => .ok false
  | some word =>
    if word = "default_server" then .ok true
    else .error (.invalid word "unknown listen parameter")

end Listener

end ScopedConf.Server
