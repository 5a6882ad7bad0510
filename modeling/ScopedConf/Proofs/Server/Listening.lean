import ScopedConf.Proofs.Server.Endpoints
import ScopedConf.Proofs.Setters

/-! The directive that adds a listener. It is obeyed exactly if its arguments say where to listen,
and then the record has this one listener more, behind those that it had. The endpoint is reported
in a form that can be written as an argument again. -/

namespace ScopedConf

namespace Text

theorem isDigit_of_mem_toDigits {n : Nat} {c : Char} (h : c ∈ Nat.toDigits 10 n) :
    isDigit c = true := by
  have hdigit : c.isDigit = true := Nat.isDigit_of_mem_toDigits (by decide) (by decide) h
  simpa [isDigit, Char.isDigit, Char.le_def] using hdigit

theorem decimal_toDigits (n : Nat) : Decimal (Nat.toDigits 10 n) n where
  nonempty := Nat.toDigits_ne_nil
  digits _ := isDigit_of_mem_toDigits
  value := by
    have hvalue : decimalValue (Nat.toDigits 10 n) = Nat.ofDigitChars 10 (Nat.toDigits 10 n) 0 := by
      simp only [decimalValue, digitValue, Nat.ofDigitChars_eq_foldl, Nat.mul_comm]
    rw [← decimalValue_eq, hvalue, Nat.ofDigitChars_ten_toDigits]

end Text

namespace Server

theorem saysEndpoint_printed (address : String) (port : Nat) :
    SaysEndpoint (address ++ ":" ++ toString port).toList (address, port) := by
  have hdigits : (toString port).toList = Nat.toDigits 10 port := by
    rw [Nat.toString_eq_repr, Nat.toList_repr]
  have hlast : ':' ∉ Nat.toDigits 10 port := fun h =>
    absurd (Text.isDigit_of_mem_toDigits h) (by decide)
  have hnumber : Text.Unsigned (Nat.toDigits 10 port) port :=
    ⟨_, .inl rfl, Text.decimal_toDigits port⟩
  rw [String.toList_append, String.toList_append, hdigits, List.append_assoc]
  exact .located hlast hnumber

def markOf (isDefault : Bool) : Option String :=
  if isDefault then some "default_server" else none

/-- The listener that an endpoint and a mark behind it ask for. -/
structure SaysListener (word : String) (mark? : Option String) (l : Listener) : Prop where
  endpoint : SaysEndpoint word.toList (l.address, l.port)
  address : l.address ≠ ""
  port : 1 ≤ l.port ∧ l.port ≤ 65535
  mark : mark? = markOf l.isDefault

theorem SaysListener.printed {word : String} {mark? : Option String} {l : Listener}
    (h : SaysListener word mark? l) (isDefault : Bool) :
    SaysListener l.endpoint (markOf isDefault) { l with isDefault := isDefault } where
  endpoint := saysEndpoint_printed l.address l.port
  address := h.address
  port := h.port
  mark := rfl

theorem Listener.readMark_eq_ok_iff {mark? : Option String} {isDefault : Bool} :
    readMark mark? = .ok isDefault ↔ mark? = markOf isDefault := by
  cases mark? with
  | none => cases isDefault <;> simp [readMark, markOf]
  | some word =>
    rw [readMark]
    split
    · next hword => cases isDefault <;> simp [markOf, hword]
    · next hword => cases isDefault <;> simp [markOf, hword]

theorem saysListener_iff {word : String} {mark? : Option String} {l : Listener} :
    SaysListener word mark? l ↔ Listener.readEndpoint word = .ok (l.address, l.port) ∧
      Listener.readMark mark? = .ok l.isDefault := by
  rw [Listener.readEndpoint_eq_ok_iff, Listener.readMark_eq_ok_iff]
  constructor
  · intro h
    have hlow := h.port.1
    have hhigh := h.port.2
    exact ⟨⟨h.endpoint, h.address, Nat.lt_succ_of_le hhigh, Nat.ne_of_gt hlow⟩, h.mark⟩
  · rintro ⟨⟨hsaid, haddress, hbound, hpositive⟩, hmark⟩
    exact ⟨hsaid, haddress, ⟨Nat.pos_of_ne_zero hpositive, Nat.le_of_lt_succ hbound⟩, hmark⟩

namespace Http

variable {ρ : Type}

def adding (h : Http) (l : Listener) : Http :=
  { h with listen := .of (h.listen.valueOr [] ++ [l]) }

/-- Reads the arguments before anything is written. Then the list is made if it is unset, and the
listener is added to it. -/
def listenInPlace (k : Kind ρ Http) (args : Args) : InPlace ρ Value := do
  let _ ← .access (listenField.within k)
  let word ← .lift (args.require 0)
  let (address, port) ← .lift (Listener.readEndpoint word)
  let isDefault ← .lift (Listener.readMark args.words[1]?)
  let listener : Listener := ⟨address, port, isDefault⟩
  let old ← .access (listenField.within k)
  .write (listenField.within k) (old.valueOr [])
  let made ← .access (listenField.within k)
  .write (listenField.within k) (made.valueOr [] ++ [listener])
  return .text listener.endpoint

theorem performs_listen (k : Kind ρ Http) (args : Args) (h : Http) :
    Slot.Performs (listenInPlace k args) (setListen k args (k.wrap h)) (k.wrap h) := by
  have haccess (g : Http) :
      (InPlace.access (listenField.within k)).on (k.wrap g) = (.ok g.listen, k.wrap g) := by
    rw [InPlace.on_access, Field.get?_within_wrap]
    rfl
  unfold Slot.Performs
  rw [listenInPlace, InPlace.on_bind, haccess]
  simp only [setListen, k.view?_wrap]
  refine Slot.Performs.reading rfl fun word => .reading rfl fun (address, port) =>
    .reading rfl fun isDefault => ?_
  unfold Slot.Performs
  have hwrite (g : Http) (ls : List Listener) :
      (InPlace.write (listenField.within k) ls).on (k.wrap g) =
        (.ok (), k.wrap { g with listen := .of ls }) := by
    rw [InPlace.on_write, Field.put_within_wrap]
    rfl
  simp only [InPlace.on_bind, haccess, hwrite, InPlace.on_pure, Setting.valueOr_of]
  rfl

variable {k : Kind ρ Http} {h : Http} {args : Args} {word : String} {mark? : Option String}

theorem setListen_wrap (hwords : args.words = word :: mark?.toList) :
    setListen k args (k.wrap h) = (do
      let (address, port) ← Listener.readEndpoint word
      let isDefault ← Listener.readMark mark?
      let l : Listener := ⟨address, port, isDefault⟩
      return (.text l.endpoint, k.wrap (h.adding l))) := by
  have hfirst : args.require 0 = .ok word := Args.require_eq_ok.mpr (by rw [hwords]; rfl)
  have hsecond : args.words[1]? = mark? := by
    rw [hwords]
    cases mark? <;> rfl
  simp only [setListen, k.view?_wrap, hfirst, hsecond]
  rfl

theorem setListen_eq_ok_iff (hwords : args.words = word :: mark?.toList) {v : Value} {r : ρ} :
    setListen k args (k.wrap h) = .ok (v, r) ↔
      ∃ l, SaysListener word mark? l ∧ v = .text l.endpoint ∧ r = k.wrap (h.adding l) := by
  rw [setListen_wrap hwords]
  constructor
  · intro hset
    obtain ⟨⟨address, port⟩, hendpoint, hset⟩ := bind_eq_ok.mp hset
    obtain ⟨isDefault, hmark, hset⟩ := bind_eq_ok.mp hset
    obtain ⟨hv, hr⟩ := Prod.mk.inj (Except.ok.inj hset)
    exact ⟨⟨address, port, isDefault⟩, saysListener_iff.mpr ⟨hendpoint, hmark⟩, hv.symm, hr.symm⟩
  · rintro ⟨l, hsaid, rfl, rfl⟩
    obtain ⟨hendpoint, hmark⟩ := saysListener_iff.mp hsaid
    exact bind_eq_ok.mpr ⟨_, hendpoint, bind_eq_ok.mpr ⟨_, hmark, rfl⟩⟩

/-- Of one or two arguments, the first has to say an address and a port, or a port alone, and the
second may only mark a default server. They are obeyed exactly if they do; then the record has the
listener that they say behind its others, and is as it was apart from that. The endpoint that is
reported, written as the argument of another call, says the same address and port. A call that is
refused leaves the record as it was, whatever it did on the way. -/
theorem listen_adds_said_listener (k : Kind ρ Http) (h : Http) (args : Args) (word : String)
    (mark? : Option String) (hwords : args.words = word :: mark?.toList) :
    ((∃ v r, setListen k args (k.wrap h) = .ok (v, r)) ↔ ∃ l, SaysListener word mark? l) ∧
    (∀ v r, setListen k args (k.wrap h) = .ok (v, r) →
      (listenInPlace k args).on (k.wrap h) = (.ok v, r) ∧
      ∃ l, SaysListener word mark? l ∧
        r = k.wrap { h with listen := .of (h.listen.valueOr [] ++ [l]) } ∧
        v = .text (l.address ++ ":" ++ toString l.port) ∧
        ∀ (g : Http) (again : Args) (isDefault : Bool),
          again.words = (l.address ++ ":" ++ toString l.port) :: (markOf isDefault).toList →
            setListen k again (k.wrap g) =
              .ok (v, k.wrap (g.adding ⟨l.address, l.port, isDefault⟩))) ∧
    (∀ refusal, setListen k args (k.wrap h) = .error refusal →
      (listenInPlace k args).on (k.wrap h) = (.error refusal, k.wrap h)) := by
  have hperforms := performs_listen k args h
  unfold Slot.Performs at hperforms
  refine ⟨⟨?_, ?_⟩, fun v r hset => ⟨by rw [hperforms, hset], ?_⟩, fun refusal hset => ?_⟩
  · rintro ⟨v, r, hset⟩
    obtain ⟨l, hsaid, -⟩ := (setListen_eq_ok_iff hwords).mp hset
    exact ⟨l, hsaid⟩
  · rintro ⟨l, hsaid⟩
    exact ⟨_, _, (setListen_eq_ok_iff hwords).mpr ⟨l, hsaid, rfl, rfl⟩⟩
  · obtain ⟨l, hsaid, rfl, rfl⟩ := (setListen_eq_ok_iff hwords).mp hset
    refine ⟨l, hsaid, rfl, rfl, fun g again isDefault hagain => ?_⟩
    exact (setListen_eq_ok_iff hagain).mpr ⟨_, hsaid.printed isDefault, rfl, rfl⟩
  · rw [hperforms, hset]

def listenArgs (words : List String) : Args :=
  ⟨"listen", words.map fun word => ⟨word, 1, false⟩, ⟨"server.conf", 1⟩, 0⟩

/-- A sign and zeros in front of the port are not reported. The address has colons of its own. -/
theorem listen_adds_said_listener_signed :
    let h : Http := { listen := .of [.usual] }
    let said : Listener := ⟨"[::1]", 443, true⟩
    setListen .self (listenArgs ["[::1]:+0443", "default_server"]) h =
        .ok (.text "[::1]:443", { h with listen := .of [.usual, said] }) ∧
      setListen .self (listenArgs ["[::1]:443"]) {} =
        .ok (.text "[::1]:443", { listen := .of [{ said with isDefault := false }] }) ∧
      (listenInPlace .self (listenArgs ["80", "reuseport"])).on ({} : Http) =
        (.error (.invalid "reuseport" "unknown listen parameter"), {}) := by
  intro h said
  have hset : setListen .self (listenArgs ["[::1]:+0443", "default_server"]) h =
      .ok (.text "[::1]:443", { h with listen := .of [.usual, said] }) := by decide +kernel
  obtain ⟨-, hsets, -⟩ := listen_adds_said_listener .self h
    (listenArgs ["[::1]:+0443", "default_server"]) "[::1]:+0443" (some "default_server") rfl
  obtain ⟨-, -, hrefuses⟩ := listen_adds_said_listener .self {} (listenArgs ["80", "reuseport"])
    "80" (some "reuseport") rfl
  obtain ⟨-, l, -, hr, hv, hagain⟩ := hsets _ _ hset
  have hl : l = said := by
    have hlisten : [Listener.usual, said] = [Listener.usual] ++ [l] :=
      Option.some.inj (congrArg (fun r : Http => r.listen.value?) hr)
    simpa using hlisten.symm
  subst hl
  exact ⟨hset, hagain {} (listenArgs ["[::1]:443"]) false (by decide +kernel),
    hrefuses _ (by decide +kernel)⟩

end Http

end Server

end ScopedConf
