import ScopedConf.Proofs.Blame
import ScopedConf.Proofs.Setters

/-! The word that a refusal names. A setter that refuses its arguments as invalid names one of them,
and the failure of the parse names the same. It is the first one that is not acceptable by itself,
unless buffers are given a count and a size of which one is zero: then the other one may be
named. -/

namespace ScopedConf

variable {ρ α β : Type}

theorem exists_first_of_mapM {ε : Type} {read : α → Except ε β} {as : List α} {e : ε}
    (h : as.mapM read = .error e) :
    ∃ before a after, as = before ++ a :: after ∧ (∀ b ∈ before, ∃ c, read b = .ok c) ∧
      read a = .error e := by
  induction as with
  | nil => simp [pure, Except.pure] at h
  | cons a as ih =>
    rw [List.mapM_cons] at h
    rcases bind_eq_error.mp h with hfirst | ⟨c, hfirst, h⟩
    · exact ⟨[], a, as, rfl, by simp, hfirst⟩
    · rcases bind_eq_error.mp h with hlater | ⟨cs, -, h⟩
      · obtain ⟨before, b, after, rfl, hbefore, hb⟩ := ih hlater
        exact ⟨a :: before, b, after, rfl, List.forall_mem_cons.mpr ⟨⟨c, hfirst⟩, hbefore⟩, hb⟩
      · simp [pure, Except.pure] at h

namespace Slot

variable {args : Args} {r : ρ} {word token reason : String}

theorem unread_of_blame {read : String → Except Value.Fault α}
    (h : Value.blame read word = .error (.invalid token reason)) :
    token = word ∧ ¬∃ a, read word = .ok a := by
  unfold Value.blame at h
  cases hread : read word with
  | ok a =>
    rw [hread] at h
    cases h
  | error fault =>
    rw [hread] at h
    obtain ⟨rfl, -⟩ := Refusal.invalid.inj (Except.error.inj h)
    exact ⟨rfl, by simp⟩

theorem unknown_of_lookUp {names : Names} (h : lookUp names word = .error (.invalid token reason)) :
    token = word ∧ word ∉ names.map Prod.fst := by
  unfold lookUp at h
  split at h
  · cases h
  · next hunknown =>
    obtain ⟨rfl, -⟩ := Refusal.invalid.inj (Except.error.inj h)
    refine ⟨rfl, fun hmem => ?_⟩
    obtain ⟨entry, hentry, rfl⟩ := List.mem_map.mp hmem
    simpa using List.lookup_eq_none_iff.mp hunknown entry hentry

theorem unread_of_readCount (h : readCount word = .error (.invalid token reason)) :
    token = word ∧ ¬∃ n, readCount word = .ok n := by
  have hunread : ¬∃ n, readCount word = .ok n := by simp [h]
  unfold readCount at h
  split at h
  · cases h
  · exact ⟨(Refusal.invalid.inj (Except.error.inj h)).1.symm, hunread⟩

theorem store_ne_invalid (f : Field ρ α) (r : ρ) (a : α) (reported : Value) :
    store f r a reported ≠ .error (.invalid token reason) := by
  unfold store
  split <;> simp

theorem read_of_single {read : String → Except Refusal α} {report : α → Value} {f : Field ρ α}
    (hwords : args.words = [word])
    (h : single read report f args r = .error (.invalid token reason)) :
    read word = .error (.invalid token reason) := by
  have hfirst : args.require 0 = .ok word := Args.require_eq_ok.mpr (by rw [hwords]; rfl)
  rw [single, hfirst] at h
  rcases bind_eq_error.mp h with h | ⟨_, hword, h⟩
  · cases h
  · obtain rfl := Except.ok.inj hword
    rcases bind_eq_error.mp h with h | ⟨a, -, h⟩
    · exact h
    · exact absurd h (store_ne_invalid f r a (report a))

theorem list_ne_invalid (f : Field ρ (List String)) (r : ρ) :
    list f args r ≠ .error (.invalid token reason) := by
  unfold list
  split <;> simp

theorem exists_first_of_mask {names : Names} {f : Field ρ UInt32}
    (h : mask names f args r = .error (.invalid token reason)) :
    ∃ before after, args.words = before ++ token :: after ∧
      (∀ word ∈ before, word ∈ names.map Prod.fst) ∧ token ∉ names.map Prod.fst := by
  rcases bind_eq_error.mp h with h | ⟨bits, -, h⟩
  · rcases bind_eq_error.mp h with h | ⟨found, -, h⟩
    · obtain ⟨before, word, after, hwords, hbefore, hword⟩ := exists_first_of_mapM h
      obtain ⟨rfl, hunknown⟩ := unknown_of_lookUp hword
      refine ⟨before, after, hwords, fun other hother => ?_, hunknown⟩
      obtain ⟨n, hn⟩ := hbefore other hother
      obtain ⟨front, behind, hnames, -⟩ := List.lookup_eq_some_iff.mp (lookUp_eq_ok.mp hn)
      simp [hnames]
    · cases h
  · split at h <;> cases h

theorem buffers_cases {f : Field ρ Buffers} {first second : String}
    (hwords : args.words = [first, second])
    (h : buffers f args r = .error (.invalid token reason)) :
    (¬∃ n, readCount first = .ok n) ∧ token = first ∨
      ∃ n, readCount first = .ok n ∧
        ((¬∃ m, Value.readSize second = .ok m) ∧ token = second ∨
          ∃ m, Value.readSize second = .ok m ∧ (n = 0 ∨ m = 0) ∧ token = first) := by
  have hfirst : args.require 0 = .ok first := Args.require_eq_ok.mpr (by rw [hwords]; rfl)
  have hsecond : args.require 1 = .ok second := Args.require_eq_ok.mpr (by rw [hwords]; rfl)
  rw [buffers, hfirst, hsecond] at h
  rcases bind_eq_error.mp h with h | ⟨_, hword, h⟩
  · cases h
  obtain rfl := Except.ok.inj hword
  rcases bind_eq_error.mp h with h | ⟨n, hcount, h⟩
  · obtain ⟨rfl, hunread⟩ := unread_of_readCount h
    exact .inl ⟨hunread, rfl⟩
  refine .inr ⟨n, hcount, ?_⟩
  rcases bind_eq_error.mp h with h | ⟨_, hword, h⟩
  · cases h
  obtain rfl := Except.ok.inj hword
  rcases bind_eq_error.mp h with h | ⟨m, hsize, h⟩
  · obtain ⟨rfl, hunread⟩ := unread_of_blame h
    exact .inl ⟨hunread, rfl⟩
  split at h
  · next hzero =>
    obtain ⟨rfl, -⟩ := Refusal.invalid.inj (Except.error.inj h)
    exact .inr ⟨m, Value.blame_eq_ok.mp hsize, hzero, rfl⟩
  · exact absurd h (store_ne_invalid f r _ _)

namespace Generic

/-- The numbers of arguments that the setter is made for. -/
def Takes : Generic ρ α → Nat → Prop
  | mask .., n | list _, n => 1 ≤ n
  | buffers _, n => n = 2
  | _, n => n = 1

/-- Whether a word is acceptable by itself as the argument with this number, counted from 0. -/
def Accepts : Generic ρ α → Nat → String → Prop
  | flag _, _, word => ∃ on, Value.readFlag word = .ok on
  | text _, _, _ | list _, _, _ => True
  | int _, _, word => ∃ n, Value.readInt word = .ok n
  | duration bare _, _, word => ∃ millis, Value.readTime bare word = .ok millis
  | size _, _, word => ∃ n, Value.readSize word = .ok n
  | choice names _, _, word | mask names _, _, word => word ∈ names.map Prod.fst
  | buffers _, 0, word => ∃ n, readCount word = .ok n ∧ 0 < n
  | buffers _, _ + 1, word => ∃ n, Value.readSize word = .ok n ∧ 0 < n

/-- The first of the words that is not acceptable where it stands. -/
def FirstUnacceptable (g : Generic ρ α) (words : List String) (word : String) : Prop :=
  ∃ before after, words = before ++ word :: after ∧ ¬g.Accepts before.length word ∧
    ∀ i other, before[i]? = some other → g.Accepts i other

/-- Of a count and a size the wrong one is named: the size if it cannot be read, though the count is
zero, and the count if the size is zero, though the count is positive. -/
def Misnames : Generic ρ α → List String → Prop
  | buffers _, [first, second] => first ≠ second ∧
    (readCount first = .ok 0 ∧ (¬∃ n, Value.readSize second = .ok n) ∨
      (∃ n, readCount first = .ok n ∧ 0 < n) ∧ Value.readSize second = .ok 0)
  | _, _ => False

variable {g : Generic ρ α} {words : List String}

theorem FirstUnacceptable.mem (h : g.FirstUnacceptable words word) : word ∈ words := by
  obtain ⟨before, after, rfl, -⟩ := h
  simp

theorem firstUnacceptable_head (after : List String) (h : ¬g.Accepts 0 word) :
    g.FirstUnacceptable (word :: after) word :=
  ⟨[], after, rfl, h, by simp⟩

theorem firstUnacceptable_pair_iff {first second : String} :
    g.FirstUnacceptable [first, second] word ↔
      word = first ∧ ¬g.Accepts 0 first ∨
        word = second ∧ g.Accepts 0 first ∧ ¬g.Accepts 1 second := by
  constructor
  · rintro ⟨before, after, hwords, hword, hbefore⟩
    match before with
    | [] =>
      obtain ⟨rfl, -⟩ := List.cons.inj hwords
      exact .inl ⟨rfl, hword⟩
    | [other] =>
      obtain ⟨rfl, hlater⟩ := List.cons.inj hwords
      obtain ⟨rfl, -⟩ := List.cons.inj hlater
      exact .inr ⟨rfl, hbefore 0 _ rfl, hword⟩
    | _ :: _ :: before => simp at hwords
  · rintro (⟨rfl, hword⟩ | ⟨rfl, hfirst, hword⟩)
    · exact firstUnacceptable_head [second] hword
    · refine ⟨[first], [], rfl, hword, fun i other hother => ?_⟩
      obtain ⟨rfl, rfl⟩ : i = 0 ∧ first = other := by
        cases i <;> simp_all
      exact hfirst

theorem names_only_word (hwords : args.words = [word]) (hright : ¬g.Misnames [word])
    (h : token = word ∧ ¬g.Accepts 0 word) :
    g.FirstUnacceptable args.words token ∧ ¬g.Misnames args.words := by
  obtain ⟨rfl, hword⟩ := h
  rw [hwords]
  exact ⟨firstUnacceptable_head [] hword, hright⟩

theorem names_of_buffers {f : Field ρ Buffers} (hcount : args.words.length = 2)
    (h : Slot.buffers f args r = .error (.invalid token reason)) :
    (buffers f).FirstUnacceptable args.words token ∧ ¬(buffers f).Misnames args.words ∨
      token ∈ args.words ∧ ¬(buffers f).FirstUnacceptable args.words token ∧
        (buffers f).Misnames args.words := by
  obtain ⟨first, second, hwords⟩ := List.length_eq_two.mp hcount
  rw [hwords]
  simp only [firstUnacceptable_pair_iff, Accepts, Misnames]
  rcases buffers_cases hwords h with ⟨hunread, rfl⟩ | ⟨n, hn, ⟨hunread, rfl⟩ | ⟨m, hm, hzero, rfl⟩⟩
  · left
    have hcounts (n : Nat) : readCount token ≠ .ok n := fun hn => hunread ⟨n, hn⟩
    simp [hcounts]
  · have hsizes (m : Nat) : Value.readSize token ≠ .ok m := fun hm => hunread ⟨m, hm⟩
    rcases Nat.eq_zero_or_pos n with rfl | hpositive
    · rcases eq_or_ne first token with rfl | hne
      · simp [hn, hsizes]
      · simp [hn, hsizes, hne, hne.symm]
    · left
      simp [hn, hsizes, hpositive, Nat.ne_of_gt hpositive]
  · rcases Nat.eq_zero_or_pos n with rfl | hpositive
    · left
      simp [hn, hm]
    · obtain rfl := hzero.resolve_left (Nat.ne_of_gt hpositive)
      rcases eq_or_ne token second with rfl | hne
      · simp [hn, hm, hpositive]
      · simp [hn, hm, hpositive, hne]

/-- What a setter refuses as invalid is one of its arguments. It is the first unacceptable one but
for a count and a size of which one is zero. -/
theorem firstUnacceptable_iff (hcount : g.Takes args.words.length)
    (h : g.setter args r = .error (.invalid token reason)) :
    token ∈ args.words ∧
      (g.FirstUnacceptable args.words token ↔ ¬g.Misnames args.words) := by
  -- All but one of the setters name the first unacceptable word without exception.
  suffices hall : g.FirstUnacceptable args.words token ∧ ¬g.Misnames args.words ∨
      token ∈ args.words ∧ ¬g.FirstUnacceptable args.words token ∧ g.Misnames args.words by
    rcases hall with ⟨hfirst, hright⟩ | ⟨hmem, hnot, hwrong⟩
    · exact ⟨hfirst.mem, iff_of_true hfirst hright⟩
    · exact ⟨hmem, iff_of_false hnot (not_not.mpr hwrong)⟩
  cases g with
  | flag f | int f | size f =>
    obtain ⟨word, hwords⟩ := List.length_eq_one_iff.mp hcount
    exact .inl (names_only_word hwords id (unread_of_blame (read_of_single hwords h)))
  | duration bare f =>
    obtain ⟨word, hwords⟩ := List.length_eq_one_iff.mp hcount
    have hread := map_eq_error.mp (read_of_single hwords h)
    exact .inl (names_only_word hwords id (unread_of_blame hread))
  | choice names f =>
    obtain ⟨word, hwords⟩ := List.length_eq_one_iff.mp hcount
    exact .inl (names_only_word hwords id (unknown_of_lookUp (read_of_single hwords h)))
  | text f =>
    obtain ⟨word, hwords⟩ := List.length_eq_one_iff.mp hcount
    cases read_of_single hwords h
  | mask names f =>
    obtain ⟨before, after, hwords, hbefore, hunknown⟩ := exists_first_of_mask h
    refine .inl ⟨⟨before, after, hwords, hunknown, fun i other hother => ?_⟩, id⟩
    exact hbefore other (List.mem_of_getElem? hother)
  | list f => exact absurd h (list_ne_invalid f r)
  | buffers f => exact names_of_buffers hcount h

end Generic

end Slot

namespace Held

variable {held : List (Held ρ)} {index : Nat}

theorem change_eq_error {kept : Held ρ} {change : ρ → Except Refusal (α × ρ)} {refusal : Refusal}
    (hfind : held.find? (·.module.index == index) = some kept)
    (hchange : change kept.record = .error refusal) :
    Held.change index change held = .error refusal := by
  induction held with
  | nil => simp at hfind
  | cons first held ih =>
    rw [Held.change]
    by_cases hfirst : first.module.index = index
    · rw [List.find?_cons_of_pos (by simpa using hfirst)] at hfind
      obtain rfl := Option.some.inj hfind
      rw [if_pos hfirst, hchange]
      rfl
    · rw [List.find?_cons_of_neg (by simpa using hfirst)] at hfind
      rw [if_neg hfirst, ih hfind]
      rfl

end Held

namespace Engine

variable {e : Engine ρ} {state : State ρ} {s : Statement} {set : Setter ρ} {args : Args} {r : ρ}

/-- The next statement is `s`, a use of a directive with this setter, which is handed the arguments
and the record that the module of the directive keeps here. -/
structure Hands (e : Engine ρ) (state : State ρ) (s : Statement) (set : Setter ρ) (args : Args)
    (r : ρ) : Prop where
  reads : ∃ source rest after, state.sources = source :: rest ∧
    source.cursor.next = (.ok (some s), after)
  not_closing : s.terminator ≠ .closeBrace
  dispatch : state.stack.top.dispatch = .directives
  uses : ∃ m d f kept, e.accept state.stack.top s = .ok (m, d, f) ∧ d.handler = .slot set ∧
    args = ⟨s.name, s.values, s.location, d.tag⟩ ∧
    state.stack.top.records.find? (·.module.index == m.id.index) = some kept ∧ kept.record = r

theorem Hands.step_eq {refusal : Refusal} (h : e.Hands state s set args r)
    (hset : set args r = .error refusal) :
    ∃ log, e.step state = (log, .failed (.located (refusal.cause s.name) s.location)) := by
  obtain ⟨⟨top, below⟩, sources⟩ := state
  obtain ⟨⟨source, rest, after, rfl, hnext⟩, hs, hd, huses⟩ := h
  obtain ⟨m, d, f, kept, haccept, hslot, rfl, hfind, rfl⟩ := huses
  have hchange : Held.change m.id.index (set ⟨s.name, s.values, s.location, d.tag⟩) f.records =
      .error refusal := by
    rw [(records_of_accept haccept).1]
    exact Held.change_eq_error hfind hset
  have hobey : f.obey m.id.index d s = .error (refusal.cause s.name) := by
    simp only [Frame.obey, hslot, Frame.store, Frame.change, hchange]
    rfl
  have hd : top.dispatch = .directives := hd
  have hhandle : e.handle source ⟨top, below⟩ s =
      ([Event.dispatching s.name m.module.name s.location.line],
        .error (.of (refusal.cause s.name))) := by
    have hh : d.handler ≠ .includeFiles := by simp [hslot]
    simp only [handle, if_neg hs, hd, dispatch_of_accept_ok haccept, execute_eq_obey hh, hobey]
  exact ⟨_, by rw [e.step_of_statement _ rest hnext, hhandle]; rfl⟩

/-- Whenever a generic setter with as many arguments as it is made for refuses them as invalid, the
parse ends with a failure that names the directive and one of the arguments, and blames the line of
the statement. The argument is the first one that is not acceptable by itself: one that the setter
cannot read, that is not in its table of names, or, of buffers, a count or a size that is not
positive. There is one exception. With a count of zero in front of a size that cannot be read, the
size is named; with a size of zero behind a positive count, the count is. -/
theorem refusal_names_first_unacceptable [Record ρ] (e : Engine ρ) (first : Source)
    {state : State ρ} (hstate : state ∈ e.trail (e.opening first)) {g : Slot.Generic ρ α}
    {s : Statement} {args : Args} {r : ρ} (hhands : e.Hands state s g.setter args r)
    (hcount : g.Takes args.words.length) {token reason : String}
    (hrefused : g.setter args r = .error (.invalid token reason)) :
    (e.parseSource first).2 =
        .error (.located (.invalidValue s.name token reason) s.location) ∧
      token ∈ args.words ∧
      (g.FirstUnacceptable args.words token ↔ ¬g.Misnames args.words) := by
  refine ⟨?_, Slot.Generic.firstUnacceptable_iff hcount hrefused⟩
  obtain ⟨log, hstep⟩ := hhands.step_eq hrefused
  obtain ⟨earlier, later, htrail⟩ := List.append_of_mem hstate
  rw [parseSource_eq_error, (trail_from htrail).2, drain_of_failed hstep]
  rfl

def httpOpening : Statement :=
  ⟨[⟨"http", 1, false⟩], .openBrace, ⟨"server.conf", 1⟩⟩

def aroundHttp : Frame Server.Settings :=
  { Frame.root Server.reference with used := ["http"] }

def insideHttp : Frame Server.Settings :=
  .ofBlock Server.reference 2 ⟨Server.Level.http, Server.httpTag, none⟩ httpOpening

theorem handle_httpOpening (files : List (String × String)) (source : Source) :
    (Server.engineOver files).handle source ⟨Frame.root Server.reference, []⟩ httpOpening =
      ([Event.dispatching "http" "http" 1, Event.opened insideHttp.title 1 1],
        .ok (⟨insideHttp, [aroundHttp]⟩, [])) := by
  have haccept : (Server.engineOver files).accept (Frame.root Server.reference) httpOpening =
      .ok (⟨⟨2, 1, .core⟩, Server.Http.blockModule⟩,
        (Directive.plain "http" (.noArguments ||| .once) .main).opening
          ⟨Server.Level.http, Server.httpTag, none⟩, aroundHttp) :=
    accept_eq_ok.mpr ⟨rfl, rfl⟩
  have hd : (Frame.root Server.reference).dispatch = .directives := rfl
  rw [handle, if_neg (by decide)]
  simp only [hd, dispatch_of_accept_ok haccept]
  rfl

def protocols : Slot.Generic Server.Settings UInt32 :=
  .mask Server.Http.protocolNames
    (Server.Http.sslProtocolsField.within Server.Settings.httpKind)

def protocolsUse (words : List String) : Statement :=
  ⟨("ssl_protocols" :: words).map fun word => ⟨word, 1, false⟩, .semicolon, ⟨"server.conf", 1⟩⟩

theorem hands_protocols (files : List (String × String)) {source : Source} {after : Cursor}
    {words : List String} (hwords : words ≠ [])
    (hnext : source.cursor.next = (.ok (some (protocolsUse words)), after)) :
    (Server.engineOver files).Hands ⟨⟨insideHttp, [aroundHttp]⟩, [source]⟩ (protocolsUse words)
      protocols.setter
      ⟨"ssl_protocols", words.map fun word => ⟨word, 1, false⟩, ⟨"server.conf", 1⟩, 0⟩
      (.http {}) where
  reads := ⟨source, [], _, rfl, hnext⟩
  not_closing := Terminator.noConfusion
  dispatch := rfl
  uses := by
    let kept : Held Server.Settings := ⟨⟨3, 0, Server.httpTag⟩, "http_core", .http {}⟩
    have haccept : (Server.engineOver files).accept insideHttp (protocolsUse words) =
        .ok (⟨⟨3, 0, Server.httpTag⟩, Server.Http.module Server.Settings.httpKind⟩,
          .setting "ssl_protocols" .oneOrMore Server.Level.all protocols.setter, insideHttp) := by
      refine accept_eq_ok.mpr ⟨rfl, ?_⟩
      obtain ⟨word, more, rfl⟩ := List.exists_cons_of_ne_nil hwords
      rfl
    exact ⟨_, _, _, kept, haccept, rfl, rfl, rfl, rfl⟩

/-- Of two unknown names the first one is named. -/
theorem refusal_names_first_unacceptable_protocols :
    let words := ["TLSv1.2", "SSLv3", "TLSv1.3", "SSLv2"]
    let first : Source := .outermost
      (Server.cursorOf "http \x7b ssl_protocols TLSv1.2 SSLv3 TLSv1.3 SSLv2; \x7d") none
    ((Server.engineOver []).parseSource first).2 =
        .error (.located (.invalidValue "ssl_protocols" "SSLv3" "unknown value")
          ⟨"server.conf", 1⟩) ∧
      protocols.FirstUnacceptable words "SSLv3" := by
  intro words first
  let source := first.advance first.cursor.next.2
  let state : State Server.Settings := ⟨⟨insideHttp, [aroundHttp]⟩, [source]⟩
  have hopening : first.cursor.next = (.ok (some httpOpening), first.cursor.next.2) :=
    Prod.ext (by decide +kernel) rfl
  have hstate : state ∈ (Server.engineOver []).trail ((Server.engineOver []).opening first) := by
    have hstep := step_of_statement (Server.engineOver []) ⟨Frame.root Server.reference, []⟩ []
      hopening
    rw [handle_httpOpening] at hstep
    obtain ⟨later, htrail⟩ := (Server.engineOver []).exists_trail state
    exact trail_of_next hstep ▸ List.mem_cons_of_mem _ (htrail ▸ List.mem_cons_self)
  have hnext : source.cursor.next = (.ok (some (protocolsUse words)), source.cursor.next.2) :=
    Prod.ext (by decide +kernel) rfl
  have hhands := hands_protocols [] (by decide : words ≠ []) hnext
  have hcount : 1 ≤ words.length := by decide
  obtain ⟨hfails, -, hnames⟩ := refusal_names_first_unacceptable (Server.engineOver []) first hstate
    hhands hcount rfl
  exact ⟨hfails, hnames.mpr id⟩

/-- A count that is acceptable is named in place of the size behind it, which is zero. -/
theorem zero_size_names_count :
    let g : Slot.Generic Server.Settings Buffers :=
      .buffers (Server.Http.clientBodyBuffersField.within Server.Settings.httpKind)
    let args : Args := ⟨"client_body_buffers", [⟨"4", 1, false⟩, ⟨"0", 1, false⟩],
      ⟨"server.conf", 1⟩, 0⟩
    let reason := "buffer count and size must be positive"
    ((Server.engineOver []).parseText "server.conf" "http \x7b client_body_buffers 4 0; \x7d").2 =
        .error (.located (.invalidValue "client_body_buffers" "4" reason) ⟨"server.conf", 1⟩) ∧
      g.Takes args.words.length ∧
      g.setter args (.http {}) = .error (.invalid "4" reason) ∧
      g.FirstUnacceptable args.words "0" ∧ ¬g.FirstUnacceptable args.words "4" := by
  intro g args reason
  have hcount : Slot.readCount "4" = .ok 4 := by decide +kernel
  have hsize : Value.readSize "0" = .ok 0 := by decide +kernel
  have hfails : (Server.engineOver []).failsWithin 5
      ((Server.engineOver []).opening (.ofText "server.conf"
        (Utf8.encode "http \x7b client_body_buffers 4 0; \x7d".toList)))
      (.located (.invalidValue "client_body_buffers" "4" reason) ⟨"server.conf", 1⟩) = true := by
    decide +kernel
  refine ⟨parseSource_eq_error.mpr (drain_of_failsWithin hfails), rfl, by decide +kernel, ?_, ?_⟩
  · exact Slot.Generic.firstUnacceptable_pair_iff.mpr
      (.inr ⟨rfl, ⟨4, hcount, by decide⟩, by simp [g, Slot.Generic.Accepts, hsize]⟩)
  · intro hfirst
    rcases Slot.Generic.firstUnacceptable_pair_iff.mp hfirst with ⟨-, hfour⟩ | ⟨heq, -⟩
    · exact hfour ⟨4, hcount, by decide⟩
    · exact absurd heq (by decide)

end Engine

end ScopedConf
