import ScopedConf.Proofs.Slots
import ScopedConf.Server.Basic

/-! Setters as work on a record in place: arguments are read, the record is asked for its field, the
field is written, perhaps in several steps. A setter that refuses has written nothing. One that
succeeds has changed its own field and nothing else, to the value that it reports. -/

namespace ScopedConf

/-- Work on a record in place. What was written before a refusal stays written. -/
abbrev InPlace (ρ α : Type) := ExceptT Refusal (StateM ρ) α

namespace InPlace

variable {ρ α β : Type}

def on (work : InPlace ρ α) (r : ρ) : Except Refusal α × ρ :=
  work.run r

def lift (result : Except Refusal α) : InPlace ρ α :=
  ExceptT.mk (pure result)

def access (f : Field ρ α) : InPlace ρ (Setting α) := do
  match f.get? (← get) with
  | some s => return s
  | none => throw .wrongRecord

def write (f : Field ρ α) (a : α) : InPlace ρ Unit :=
  modify fun r => f.put r (.of a)

theorem on_bind (work : InPlace ρ α) (next : α → InPlace ρ β) (r : ρ) :
    (work >>= next).on r =
      match work.on r with
      | (.ok a, r') => (next a).on r'
      | (.error refusal, r') => (.error refusal, r') := by
  change (ExceptT.bindCont next (work.on r).1).run (work.on r).2 = _
  obtain ⟨result, r'⟩ := work.on r
  cases result <;> rfl

@[simp] theorem on_pure (a : α) (r : ρ) : (pure a : InPlace ρ α).on r = (.ok a, r) := rfl

@[simp] theorem on_lift (result : Except Refusal α) (r : ρ) :
    (lift result).on r = (result, r) := rfl

@[simp] theorem on_write (f : Field ρ α) (a : α) (r : ρ) :
    (write f a).on r = (.ok (), f.put r (.of a)) := rfl

@[simp] theorem on_access (f : Field ρ α) (r : ρ) :
    (access f).on r =
      (match f.get? r with
        | some s => .ok s
        | none => .error .wrongRecord, r) := by
  change (match f.get? r with
    | some s => pure s
    | none => throw .wrongRecord : InPlace ρ (Setting α)).on r = _
  cases f.get? r <;> rfl

end InPlace

@[simp] theorem Setting.valueOr_of {α : Type} (a fallback : α) :
    (Setting.of a).valueOr fallback = a := rfl

namespace Slot

variable {ρ α : Type}

/-- The generic setters, each bound to a field. -/
inductive Generic (ρ : Type) : Type → Type
  | flag (f : Field ρ Bool) : Generic ρ Bool
  | text (f : Field ρ String) : Generic ρ String
  | int (f : Field ρ Int) : Generic ρ Int
  | duration (bare : Value.TimeUnit) (f : Field ρ Duration) : Generic ρ Duration
  | size (f : Field ρ Nat) : Generic ρ Nat
  | choice (names : Names) (f : Field ρ UInt32) : Generic ρ UInt32
  | mask (names : Names) (f : Field ρ UInt32) : Generic ρ UInt32
  | list (f : Field ρ (List String)) : Generic ρ (List String)
  | buffers (f : Field ρ Buffers) : Generic ρ Buffers

/-- What a setter does to a record in place: its outcome, and the record behind it. -/
def Performs (work : InPlace ρ Value) (outcome : Except Refusal (Value × ρ)) (r : ρ) : Prop :=
  work.on r =
    match outcome with
    | .ok (v, r') => (.ok v, r')
    | .error refusal => (.error refusal, r)

/-- Work that only reads comes first: what it refuses is refused, and the record is as it was. -/
theorem Performs.reading {work : InPlace ρ α} {next : α → InPlace ρ Value} {x : Except Refusal α}
    {outcome : α → Except Refusal (Value × ρ)} {r : ρ} (hwork : work.on r = (x, r))
    (hnext : ∀ a, Performs (next a) (outcome a) r) :
    Performs (work >>= next) (x >>= outcome) r := by
  unfold Performs
  rw [InPlace.on_bind, hwork]
  cases x with
  | error refusal => rfl
  | ok a => exact hnext a

theorem performs_store (f : Field ρ α) (r : ρ) (a : α) (reported : Value) :
    Performs (do
      let _ ← InPlace.access f
      InPlace.write f a
      return reported) (store f r a reported) r := by
  unfold Performs
  rw [InPlace.on_bind, InPlace.on_access, store]
  cases f.get? r <;> rfl

def singleInPlace (read : String → Except Refusal α) (report : α → Value) (f : Field ρ α)
    (args : Args) : InPlace ρ Value := do
  let word ← .lift (args.require 0)
  let a ← .lift (read word)
  let _ ← .access f
  .write f a
  return report a

theorem performs_single (read : String → Except Refusal α) (report : α → Value) (f : Field ρ α)
    (args : Args) (r : ρ) :
    Performs (singleInPlace read report f args) (single read report f args r) r :=
  .reading rfl fun _ => .reading rfl fun a => performs_store f r a (report a)

def gather (names : Names) (bits : UInt32) (words : List String) : InPlace ρ UInt32 :=
  words.foldlM (fun bits word => do return bits ||| (← .lift (lookUp names word))) bits

theorem on_gather (names : Names) (bits : UInt32) (words : List String) (r : ρ) :
    (gather names bits words).on r =
      ((words.mapM (lookUp names)).map fun found => found.foldl (· ||| ·) bits, r) := by
  induction words generalizing bits with
  | nil => rfl
  | cons word words ih =>
    rw [gather, List.foldlM_cons, List.mapM_cons, InPlace.on_bind, InPlace.on_bind, InPlace.on_lift]
    cases lookUp names word with
    | error refusal => rfl
    | ok n =>
      change (gather names (bits ||| n) words).on r = _
      rw [ih]
      change _ = (Except.map _ (words.mapM (lookUp names) >>= fun found => .ok (n :: found)), r)
      cases words.mapM (lookUp names) <;> rfl

/-- Looks up every word, then makes the field if it is unset, then adds the bits to it. -/
def maskInPlace (names : Names) (f : Field ρ UInt32) (args : Args) : InPlace ρ Value := do
  let bits ← gather names 0 args.words
  let old ← .access f
  .write f (old.valueOr 0)
  let made ← .access f
  .write f (made.valueOr 0 ||| bits)
  return .mask (made.valueOr 0 ||| bits)

theorem performs_mask (names : Names) (f : Field ρ UInt32) (args : Args) (r : ρ) :
    Performs (maskInPlace names f args) (mask names f args r) r := by
  refine .reading (on_gather names 0 args.words r) fun bits => ?_
  unfold Performs
  rw [InPlace.on_bind, InPlace.on_access]
  cases hold : f.get? r with
  | none => rfl
  | some old =>
    have hmade : f.get? (f.put r (.of (old.valueOr 0))) = some (.of (old.valueOr 0)) := by
      rw [f.get?_put, hold, Option.map_some]
    simp only [InPlace.on_bind, InPlace.on_write, InPlace.on_access, InPlace.on_pure, hmade,
      f.put_put, Setting.valueOr_of]

def push (f : Field ρ (List String)) (word : String) : InPlace ρ Unit := do
  let items ← .access f
  .write f (items.valueOr [] ++ [word])

theorem on_push {f : Field ρ (List String)} {items words : List String} {r : ρ}
    (hitems : f.get? r = some (.of items)) :
    (forM words (push f)).on r = (.ok (), f.put r (.of (items ++ words))) := by
  induction words generalizing items r with
  | nil =>
    rw [List.append_nil, f.put_get? r _ hitems]
    rfl
  | cons word words ih =>
    have hnext : f.get? (f.put r (.of (items ++ [word]))) = some (.of (items ++ [word])) := by
      rw [f.get?_put, hitems, Option.map_some]
    rw [List.forM_cons, push, InPlace.on_bind, InPlace.on_bind, InPlace.on_access, hitems]
    simp only [InPlace.on_write, Setting.valueOr_of, ih hnext, f.put_put, List.append_assoc,
      List.singleton_append]

def listInPlace (f : Field ρ (List String)) (args : Args) : InPlace ρ Value := do
  let old ← .access f
  .write f (old.valueOr [])
  forM args.words (push f)
  let items ← .access f
  return .list (items.valueOr [])

theorem performs_list (f : Field ρ (List String)) (args : Args) (r : ρ) :
    Performs (listInPlace f args) (list f args r) r := by
  unfold Performs
  rw [listInPlace, InPlace.on_bind, InPlace.on_access, list]
  cases hold : f.get? r with
  | none => rfl
  | some old =>
    have hget (s : Setting (List String)) : f.get? (f.put r s) = some s := by
      rw [f.get?_put, hold, Option.map_some]
    simp only [InPlace.on_bind, InPlace.on_write, on_push (hget _), f.put_put, InPlace.on_access,
      hget, InPlace.on_pure, Setting.valueOr_of]

def buffersInPlace (f : Field ρ Buffers) (args : Args) : InPlace ρ Value := do
  let word ← .lift (args.require 0)
  let count ← .lift (readCount word)
  let second ← .lift (args.require 1)
  let size ← .lift (Value.blame Value.readSize second)
  if count = 0 ∨ size = 0 then
    .lift (.error (.invalid word "buffer count and size must be positive"))
  else
    let _ ← .access f
    .write f ⟨count, size⟩
    return .buffers ⟨count, size⟩

theorem performs_buffers (f : Field ρ Buffers) (args : Args) (r : ρ) :
    Performs (buffersInPlace f args) (buffers f args r) r := by
  refine .reading rfl fun word => .reading rfl fun count => .reading rfl fun second =>
    .reading rfl fun size => ?_
  split
  · rfl
  · exact performs_store f r ⟨count, size⟩ (.buffers ⟨count, size⟩)

namespace Generic

def setter : Generic ρ α → Setter ρ
  | flag f => Slot.flag f
  | text f => Slot.text f
  | int f => Slot.int f
  | duration bare f => Slot.duration bare f
  | size f => Slot.size f
  | choice names f => Slot.choice names f
  | mask names f => Slot.mask names f
  | list f => Slot.list f
  | buffers f => Slot.buffers f

def field : Generic ρ α → Field ρ α
  | flag f | text f | int f | duration _ f | size f => f
  | choice _ f | mask _ f | list f | buffers f => f

/-- How a value of the field is reported. -/
def report : Generic ρ α → α → Value
  | flag _ => .flag
  | text _ => .text
  | int _ => .int
  | duration .. => .duration
  | size _ => .size
  | choice .. => .choice
  | mask .. => .mask
  | list _ => .list
  | buffers _ => .buffers

def inPlace : Generic ρ α → Args → InPlace ρ Value
  | flag f => singleInPlace (Value.blame Value.readFlag) .flag f
  | text f => singleInPlace .ok .text f
  | int f => singleInPlace (Value.blame Value.readInt) .int f
  | duration bare f =>
    singleInPlace (fun word => (Value.blame (Value.readTime bare) word).map Duration.ofMillis)
      .duration f
  | size f => singleInPlace (Value.blame Value.readSize) .size f
  | choice names f => singleInPlace (lookUp names) .choice f
  | mask names f => maskInPlace names f
  | list f => listInPlace f
  | buffers f => buffersInPlace f

/-- The value that the arguments stand for, given what the field holds: for masks and lists that
counts, for the others it does not. -/
def Means : Generic ρ α → Args → Setting α → α → Prop
  | flag _, args, _, on => ∃ word ∈ args.words[0]?, Value.readFlag word = .ok on
  | text _, args, _, s => args.words[0]? = some s
  | int _, args, _, n => ∃ word ∈ args.words[0]?, Value.readInt word = .ok n
  | duration bare _, args, _, d =>
    ∃ word ∈ args.words[0]?, ∃ millis, Value.readTime bare word = .ok millis ∧ d = .ofMillis millis
  | size _, args, _, n => ∃ word ∈ args.words[0]?, Value.readSize word = .ok n
  | choice names _, args, _, n => ∃ word ∈ args.words[0]?, names.lookup word = some n
  | mask names _, args, old, bits => (∀ word ∈ args.words, (names.lookup word).isSome = true) ∧
    bits = args.words.foldl (fun bits word => bits ||| bitsOf names word) (old.valueOr 0)
  | list _, args, old, items => items = old.valueOr [] ++ args.words
  | buffers _, args, _, b => ∃ first ∈ args.words[0]?, ∃ second ∈ args.words[1]?,
    readCount first = .ok b.count ∧ Value.readSize second = .ok b.size ∧ 0 < b.count ∧ 0 < b.size

variable {args : Args} {r r' : ρ} {v : Value}

theorem performs (g : Generic ρ α) (args : Args) (r : ρ) :
    Performs (g.inPlace args) (g.setter args r) r := by
  cases g with
  | flag f | text f | int f | duration bare f | size f | choice names f =>
    exact performs_single _ _ f args r
  | mask names f => exact performs_mask names f args r
  | list f => exact performs_list f args r
  | buffers f => exact performs_buffers f args r

theorem single_means {read : String → Except Refusal α} {report : α → Value} {f : Field ρ α}
    {P : α → Prop} (hP : ∀ a, P a ↔ ∃ word ∈ args.words[0]?, read word = .ok a) :
    single read report f args r = .ok (v, r') ↔
      ∃ old a, f.get? r = some old ∧ P a ∧ v = report a ∧ r' = f.put r (.of a) := by
  simp only [single_eq_ok, hP]
  constructor
  · rintro ⟨old, word, a, hold, hword, hread, hv, hr⟩
    exact ⟨old, a, hold, ⟨word, hword, hread⟩, hv, hr⟩
  · rintro ⟨old, a, hold, ⟨word, hword, hread⟩, hv, hr⟩
    exact ⟨old, word, a, hold, hword, hread, hv, hr⟩

theorem setter_eq_ok {g : Generic ρ α} : g.setter args r = .ok (v, r') ↔
    ∃ old a, g.field.get? r = some old ∧ g.Means args old a ∧ v = g.report a ∧
      r' = g.field.put r (.of a) := by
  cases g with
  | flag f | int f | size f => exact single_means fun a => by simp only [Value.blame_eq_ok]
  | text f => exact single_means fun a => by simp
  | duration bare f =>
    exact single_means fun a => by simp only [map_eq_ok, Value.blame_eq_ok, eq_comm (a := a)]
  | choice names f => exact single_means fun a => by simp only [lookUp_eq_ok]
  | mask names f =>
    refine mask_eq_ok.trans ⟨?_, ?_⟩
    · rintro ⟨old, hold, hknown, hv, hr⟩
      exact ⟨old, _, hold, ⟨hknown, rfl⟩, hv, hr⟩
    · rintro ⟨old, _, hold, ⟨hknown, rfl⟩, hv, hr⟩
      exact ⟨old, hold, hknown, hv, hr⟩
  | list f =>
    refine list_eq_ok.trans ⟨?_, ?_⟩
    · rintro ⟨old, hold, hv, hr⟩
      exact ⟨old, _, hold, rfl, hv, hr⟩
    · rintro ⟨old, _, hold, rfl, hv, hr⟩
      exact ⟨old, hold, hv, hr⟩
  | buffers f =>
    refine buffers_eq_ok.trans ⟨?_, ?_⟩
    · rintro ⟨old, first, second, count, size, hold, hfirst, hsecond, hcount, hsize, hzero, hempty,
        hv, hr⟩
      exact ⟨old, ⟨count, size⟩, hold,
        ⟨first, hfirst, second, hsecond, hcount, hsize, hzero, hempty⟩, hv, hr⟩
    · rintro ⟨old, b, hold, ⟨first, hfirst, second, hsecond, hcount, hsize, hzero, hempty⟩, hv, hr⟩
      exact ⟨old, first, second, b.count, b.size, hold, hfirst, hsecond, hcount, hsize, hzero,
        hempty, hv, hr⟩

/-- Whether the setter adds to what the field holds. -/
def accumulates : Generic ρ α → Bool
  | mask .. | list _ => true
  | _ => false

theorem means_append {g : Generic ρ α} (hg : g.accumulates = true) {more both : Args}
    (hboth : both.words = args.words ++ more.words) {old : Setting α} {a : α} :
    g.Means both old a ↔ ∃ b, g.Means args old b ∧ g.Means more (.of b) a := by
  cases g with
  | mask names f =>
    simp only [Means, hboth, List.forall_mem_append, List.foldl_append, Setting.valueOr_of]
    constructor
    · rintro ⟨⟨hargs, hmore⟩, ha⟩
      exact ⟨_, ⟨hargs, rfl⟩, hmore, ha⟩
    · rintro ⟨_, ⟨hargs, rfl⟩, hmore, ha⟩
      exact ⟨⟨hargs, hmore⟩, ha⟩
  | list f => simp [Means, hboth]
  | _ => simp [accumulates] at hg

end Generic

end Slot

/-- The field keeps its value when the other is written. -/
def Field.Apart {ρ α β : Type} (f : Field ρ α) (other : Field ρ β) : Prop :=
  ∀ r s, f.get? (other.put r s) = f.get? r

namespace Slot

variable {ρ α : Type}

theorem Generic.two_calls {g : Generic ρ α} (hg : g.accumulates = true) {args more both : Args}
    (hboth : both.words = args.words ++ more.words) {r r' : ρ} {v : Value} :
    g.setter both r = .ok (v, r') ↔
      ∃ v₁ r₁, g.setter args r = .ok (v₁, r₁) ∧ g.setter more r₁ = .ok (v, r') := by
  simp only [setter_eq_ok, means_append hg hboth]
  constructor
  · rintro ⟨old, a, hold, ⟨b, hargs, hmore⟩, hv, hr⟩
    have hget : g.field.get? (g.field.put r (.of b)) = some (.of b) := by
      rw [g.field.get?_put, hold, Option.map_some]
    exact ⟨_, _, ⟨old, b, hold, hargs, rfl, rfl⟩, .of b, a, hget, hmore, hv,
      by rw [g.field.put_put, hr]⟩
  · rintro ⟨v₁, r₁, ⟨old, b, hold, hargs, -, rfl⟩, made, a, hmade, hmore, hv, hr⟩
    rw [g.field.get?_put, hold, Option.map_some] at hmade
    obtain rfl := Option.some.inj hmade
    exact ⟨old, a, hold, ⟨b, hargs, hmore⟩, hv, by rw [hr, g.field.put_put]⟩

/-- A generic setter that refuses leaves the record as it was, whatever it did on the way. One that
succeeds changes its own field and nothing else, to the value that its arguments mean there, and
reports that value. Two calls of one that adds to its field come to one call with all arguments. -/
theorem setters_atomic (g : Generic ρ α) (args : Args) (r : ρ) :
    (∀ refusal, g.setter args r = .error refusal → (g.inPlace args).on r = (.error refusal, r)) ∧
    (∀ v r', g.setter args r = .ok (v, r') → (g.inPlace args).on r = (.ok v, r') ∧
      ∃ old a, g.field.get? r = some old ∧ g.Means args old a ∧
        g.field.get? r' = some (.of a) ∧ v = g.report a ∧ g.field.put r' old = r ∧
        ∀ (β : Type) (other : Field ρ β), other.Apart g.field → other.get? r' = other.get? r) ∧
    (g.accumulates = true → ∀ more both : Args, both.words = args.words ++ more.words →
      ∀ v r', g.setter both r = .ok (v, r') ↔
        ∃ v₁ r₁, g.setter args r = .ok (v₁, r₁) ∧ g.setter more r₁ = .ok (v, r')) := by
  have hperforms := g.performs args r
  unfold Performs at hperforms
  refine ⟨fun refusal h => ?_, fun v r' h => ?_, fun hg more both hboth v r' => ?_⟩
  · rw [hperforms, h]
  · obtain ⟨old, a, hold, hmeans, hv, rfl⟩ := Generic.setter_eq_ok.mp h
    refine ⟨by rw [hperforms, h], old, a, hold, hmeans, ?_, hv, ?_, fun β other hapart => ?_⟩
    · rw [g.field.get?_put, hold, Option.map_some]
    · rw [g.field.put_put, g.field.put_get? r old hold]
    · exact hapart r _
  · exact Generic.two_calls hg hboth

def protocolArgs (words : List String) : Args :=
  ⟨"ssl_protocols", words.map fun word => ⟨word, 1, false⟩, ⟨"server.conf", 1⟩, 0⟩

theorem setters_atomic_protocols :
    let g : Generic Server.Settings UInt32 := .mask Server.Http.protocolNames
      (Server.Http.sslProtocolsField.within Server.Settings.httpKind)
    let root := Server.Http.rootField.within Server.Settings.httpKind
    let r : Server.Settings := .http { root := .of "/srv" }
    (g.inPlace (protocolArgs ["TLSv1.2", "SSLv3"])).on r =
        (.error (.invalid "SSLv3" "unknown value"), r) ∧
      ∃ v r', g.setter (protocolArgs ["TLSv1.2", "TLSv1.3"]) r = .ok (v, r') ∧
        v = .mask 24 ∧ root.get? r' = some (.of "/srv") ∧
        ∃ v₁ r₁, g.setter (protocolArgs ["TLSv1.2"]) r = .ok (v₁, r₁) ∧
          g.setter (protocolArgs ["TLSv1.3"]) r₁ = .ok (v, r') := by
  intro g root r
  obtain ⟨hrefuses, -⟩ := setters_atomic g (protocolArgs ["TLSv1.2", "SSLv3"]) r
  obtain ⟨-, hsets, -⟩ := setters_atomic g (protocolArgs ["TLSv1.2", "TLSv1.3"]) r
  obtain ⟨-, -, htwice⟩ := setters_atomic g (protocolArgs ["TLSv1.2"]) r
  have hset : g.setter (protocolArgs ["TLSv1.2", "TLSv1.3"]) r =
      .ok (.mask 24, .http { root := .of "/srv", sslProtocols := .of 24 }) := rfl
  have hapart : root.Apart g.field := fun r s => by cases r <;> rfl
  obtain ⟨-, -, -, -, -, -, -, -, hothers⟩ := hsets _ _ hset
  exact ⟨hrefuses _ rfl, _, _, hset, rfl, hothers _ root hapart,
    (htwice rfl (protocolArgs ["TLSv1.3"]) _ rfl _ _).mp hset⟩

end Slot

end ScopedConf
