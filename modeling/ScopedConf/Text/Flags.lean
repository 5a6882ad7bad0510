import ScopedConf.Text.Quoted

/-! The text of a set of named bits. A name is written when all its bits are in the set and one of
them is not written yet; bits without a name follow in hexadecimal. -/

namespace ScopedConf.Text

/-- The names written for `bits` while `left` is not covered yet, and what stays uncovered. -/
def coveringNames (bits : UInt32) : UInt32 → List (String × UInt32) → List String × UInt32
  | left, [] => ([], left)
  | left, (name, flag) :: flags =>
    if bits &&& flag == flag && left &&& flag != 0 then
      let (names, left) := coveringNames bits (left &&& ~~~flag) flags
      (name :: names, left)
    else coveringNames bits left flags

def flagsText (flags : List (String × UInt32)) (bits : UInt32) : String :=
  let (names, left) := coveringNames bits bits flags
  let unnamed := "0x" ++ String.ofList (hex left.toNat)
  " | ".intercalate (if left == 0 && !names.isEmpty then names else names ++ [unnamed])

end ScopedConf.Text
