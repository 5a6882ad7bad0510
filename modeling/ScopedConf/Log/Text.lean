import ScopedConf.Event
import ScopedConf.Json
import ScopedConf.Options.Basic

/-! Events as they are written to the log, as text or as JSON. -/

namespace ScopedConf

namespace Detail

def text : Detail → String
  | plain s => s
  | quoted s => Text.quote s
  | number n => toString n
  | switch on => if on then "true" else "false"

def toJson : Detail → Json
  | plain s => .str s
  | quoted s => .str s
  | number n => .int n
  | switch on => .bool on

end Detail

namespace Event

/-- Controls that a terminal could act on are written out, so that a message cannot change what is
on the screen. -/
def escapeChar (c : Char) : List Char :=
  if c = '\x1b' ∨ c = '\x07' ∨ c = '\x08' ∨ c = '\x0c' ∨ c = '\x7f' then
    ['\\', 'x'] ++ Json.hexPair c.toNat
  else if 0x80 ≤ c.toNat ∧ c.toNat ≤ 0x9F then Text.codePoint c
  else [c]

/-- A level takes five columns. -/
def paddedLevel (l : Level) : String :=
  "".pushn ' ' (5 - l.text.length) ++ l.text

def text (e : Event) : String :=
  let message := String.ofList (e.message.toList.flatMap escapeChar)
  let details := e.details.map fun (name, detail) => " " ++ name ++ "=" ++ detail.text
  paddedLevel e.level ++ " " ++ e.topic.target ++ ": " ++ message ++ String.join details

def toJson (e : Event) : Json :=
  Json.object
    [("level", .str e.level.text), ("target", .str e.topic.target),
      ("fields",
        Json.object (("message", .str e.message) ::
          e.details.map fun (name, detail) => (name, detail.toJson)))]

/-- The event as one entry of the log. -/
def render (format : LogFormat) (e : Event) : String :=
  match format with
  | .pretty => e.text
  | .json => e.toJson.compact

end Event

end ScopedConf
