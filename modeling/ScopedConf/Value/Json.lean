import ScopedConf.Json
import ScopedConf.Value.Basic

/-! The JSON of durations and buffers. -/

namespace ScopedConf

def Duration.toJson (d : Duration) : Json :=
  Json.object [("secs", .ofNat d.seconds), ("nanos", .ofNat d.subsecond)]

def Buffers.toJson (b : Buffers) : Json :=
  Json.object [("num", .ofNat b.count), ("size", .ofNat b.size)]

end ScopedConf
