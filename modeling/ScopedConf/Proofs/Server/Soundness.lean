import ScopedConf.Proofs.Server.Configuration

/-! The values that the records of the web server may hold. No directive, no block of media types
and no completion leaves a value in a record that its field must not have. -/

namespace ScopedConf

def Setting.Meets {α : Type} (P : α → Prop) (s : Setting α) : Prop :=
  ∀ a, s.value? = some a → P a

namespace Setting.Meets

variable {α : Type} {P : α → Prop} {s : Setting α} {a : α}

theorem unset : (Setting.unset : Setting α).Meets P := by
  intro a ha
  simp [Setting.unset] at ha

theorem imp {Q : α → Prop} (h : s.Meets P) (himp : ∀ a, P a → Q a) : s.Meets Q :=
  fun a ha => himp a (h a ha)

theorem of (h : P a) : (Setting.of a).Meets P := by
  intro b hb
  rwa [← Option.some.inj hb]

theorem valueOr (h : s.Meets P) (ha : P a) : P (s.valueOr a) := by
  cases hs : s.value? with
  | none => simpa [Setting.valueOr, hs] using ha
  | some b => simpa [Setting.valueOr, hs] using h b hs

theorem merge {parent : Option (Setting α)} (h : s.Meets P) (hparent : ∀ p ∈ parent, p.Meets P)
    (ha : P a) : (s.merge parent a).Meets P := by
  have hinherit : (s.inherit parent).Meets P := by
    intro b hb
    rw [Setting.value?_inherit] at hb
    cases hown : s.value? with
    | some c =>
      rw [hown] at hb
      obtain rfl := Option.some.inj hb
      exact h c hown
    | none =>
      rw [hown] at hb
      obtain ⟨p, hp, hpb⟩ := Option.bind_eq_some_iff.mp hb
      exact hparent p hp b hpb
  exact .of (hinherit.valueOr ha)

end Setting.Meets

theorem Check.le_of_durations {low high a : Duration}
    (h : Check.durations low high (.duration a) = .ok ()) : a ≤ high := by
  simp only [Check.durations] at h
  split at h
  · simp at h
  · next hbounds => exact Nat.le_of_not_lt (not_or.mp hbounds).2

theorem Check.mem_of_numbers {low high n : Int}
    (h : Check.numbers low (some high) (.int n) = .ok ()) : low ≤ n ∧ n ≤ high := by
  simp only [Check.numbers, Check.inBounds] at h
  split at h
  · simp at h
  · split at h
    · simp at h
    · omega

namespace Server

def Global.Sound (g : Global) : Prop :=
  g.workerProcesses.Meets fun n => 1 ≤ n ∧ n ≤ 1024

def Global.isFilled (g : Global) : Bool :=
  g.workerProcesses.isSet && g.daemon.isSet && g.errorLog.isSet && g.pid.isSet && g.env.isSet

structure Global.Complete (g : Global) : Prop where
  sound : g.Sound
  filled : g.isFilled = true

def Http.everyProtocol : UInt32 :=
  tls1_0 ||| tls1_1 ||| tls1_2 ||| tls1_3

def Http.Protocols (bits : UInt32) : Prop :=
  bits ≠ 0 ∧ bits ||| everyProtocol = everyProtocol

instance (bits : UInt32) : Decidable (Http.Protocols bits) :=
  inferInstanceAs (Decidable (_ ∧ _))

structure Http.Sound (h : Http) : Prop where
  listen : h.listen.Meets fun ls => ls ≠ [] ∧ ∀ l ∈ ls, l.address ≠ "" ∧ l.port ≠ 0
  keepaliveTimeout : h.keepaliveTimeout.Meets (· ≤ .ofSeconds 3600)
  clientBodyBuffers : h.clientBodyBuffers.Meets fun b => 0 < b.count ∧ 0 < b.size
  sslProtocols : h.sslProtocols.Meets Http.Protocols
  serverTokens : h.serverTokens.Meets (· ∈ [0, 1, 2])

def Http.isFilled (h : Http) : Bool :=
  h.listen.isSet && h.serverName.isSet && h.root.isSet && h.sendfile.isSet &&
    h.keepaliveTimeout.isSet && h.clientBodyTimeout.isSet && h.clientMaxBodySize.isSet &&
    h.clientBodyBuffers.isSet && h.gzipTypes.isSet && h.sslProtocols.isSet &&
    h.serverTokens.isSet && h.defaultType.isSet && h.types.isSet

structure Http.Complete (h : Http) : Prop where
  sound : h.Sound
  filled : h.isFilled = true

theorem Listener.eq_of_read {word address address' : String} {port : Nat} {cs : List Char}
    (h : readEndpoint.read word address cs = .ok (address', port)) :
    address' = address ∧ port ≠ 0 := by
  unfold readEndpoint.read at h
  split at h
  · next n hn =>
    obtain ⟨rfl, rfl⟩ := Prod.mk.inj (Except.ok.inj h)
    obtain ⟨-, hpositive⟩ := Option.filter_eq_some_iff.mp hn
    exact ⟨rfl, by simpa using hpositive⟩
  · simp at h

theorem Listener.sound_of_readEndpoint {word address : String} {port : Nat}
    (h : readEndpoint word = .ok (address, port)) : address ≠ "" ∧ port ≠ 0 := by
  unfold readEndpoint at h
  split at h
  · simp at h
  · next before behind hnonempty _ =>
    obtain ⟨rfl, hport⟩ := eq_of_read h
    refine ⟨?_, hport⟩
    intro hempty
    have hbefore : before = [] := by simpa using hempty
    simp_all
  · obtain ⟨rfl, hport⟩ := eq_of_read h
    exact ⟨by decide, hport⟩

theorem Http.protocols_of_lookup {word : String} {n : UInt32}
    (h : protocolNames.lookup word = some n) : Protocols n := by
  have hmem := Slot.mem_of_lookup h
  revert hmem
  simp only [protocolNames, List.map_cons, List.map_nil, List.mem_cons, List.not_mem_nil, or_false]
  rintro (rfl | rfl | rfl | rfl) <;> decide

theorem Http.Protocols.or {a b : UInt32} (ha : a ||| everyProtocol = everyProtocol)
    (hb : Protocols b) : Protocols (a ||| b) := by
  refine ⟨?_, by rw [UInt32.or_assoc, hb.2, ha]⟩
  intro hzero
  exact hb.1 (UInt32.or_eq_zero_iff.mp hzero).2

theorem Http.protocols_of_known {words : List String} {bits : UInt32} (hwords : words ≠ [])
    (hknown : ∀ word ∈ words, (protocolNames.lookup word).isSome = true)
    (hbits : bits ||| everyProtocol = everyProtocol) :
    Protocols (words.foldl (· ||| Slot.bitsOf protocolNames ·) bits) := by
  induction words generalizing bits with
  | nil => exact absurd rfl hwords
  | cons word words ih =>
    obtain ⟨hword, hlater⟩ := List.forall_mem_cons.mp hknown
    obtain ⟨n, hn⟩ := Option.isSome_iff_exists.mp hword
    have hnext : Protocols (bits ||| Slot.bitsOf protocolNames word) := by
      rw [Slot.bitsOf, hn]
      exact .or hbits (protocols_of_lookup hn)
    rw [List.foldl_cons]
    by_cases hnil : words = []
    · rwa [hnil]
    · exact ih hnil hlater hnext.2

section setters

variable {args : Args} {d : Directive Settings} {set : Setter Settings} {v : Value} {r : Settings}
  {h : Http} {g : Global}

theorem Http.sound_of_single {α : Type} {read : String → Except Refusal α} {report : α → Value}
    {field : Field Http α} (hput : ∀ a, (field.put h (.of a)).Sound)
    (hset : Slot.single read report (field.within Settings.httpKind) args (.http h) = .ok (v, r)) :
    ∃ h', r = .http h' ∧ h'.Sound := by
  obtain ⟨-, word, a, -, -, -, -, rfl⟩ := Slot.single_eq_ok.mp hset
  exact ⟨_, rfl, hput a⟩

theorem Http.sound_of_list {field : Field Http (List String)}
    (hput : ∀ a, (field.put h (.of a)).Sound)
    (hset : Slot.list (field.within Settings.httpKind) args (.http h) = .ok (v, r)) :
    ∃ h', r = .http h' ∧ h'.Sound := by
  obtain ⟨old, -, -, rfl⟩ := Slot.list_eq_ok.mp hset
  exact ⟨_, rfl, hput _⟩

theorem Http.sound_of_listen (hsound : h.Sound)
    (hset : setListen Settings.httpKind args (.http h) = .ok (v, r)) :
    ∃ h', r = .http h' ∧ h'.Sound := by
  obtain ⟨first, address, port, isDefault, -, hendpoint, -, rfl⟩ := setListen_eq_ok hset
  have hnew := Listener.sound_of_readEndpoint hendpoint
  have hold : ∀ l ∈ h.listen.valueOr [], l.address ≠ "" ∧ l.port ≠ 0 :=
    (hsound.listen.imp fun _ hls => hls.2).valueOr (by simp)
  refine ⟨_, rfl, .of ⟨by simp, ?_⟩, hsound.2, hsound.3, hsound.4, hsound.5⟩
  intro l hl
  rcases List.mem_append.mp hl with hearlier | hlast
  · exact hold l hearlier
  · rwa [List.mem_singleton.mp hlast]

theorem Http.sound_of_protocols (hsound : h.Sound) (hargs : args.words ≠ [])
    (hset : Slot.mask protocolNames (sslProtocolsField.within Settings.httpKind) args (.http h) =
      .ok (v, r)) :
    ∃ h', r = .http h' ∧ h'.Sound := by
  obtain ⟨old, hget, hknown, -, rfl⟩ := Slot.mask_eq_ok.mp hset
  obtain rfl := Option.some.inj hget
  have hold : h.sslProtocols.valueOr 0 ||| everyProtocol = everyProtocol :=
    (hsound.sslProtocols.imp fun _ hbits => hbits.2).valueOr (by decide)
  have htotal := protocols_of_known hargs hknown hold
  exact ⟨_, rfl, hsound.1, hsound.2, hsound.3, .of htotal, hsound.5⟩

theorem Http.sound_of_setter (hd : d ∈ directives Settings.httpKind)
    (hhandler : d.handler = .slot set) (haccepts : d.shape.accepts args.values.length = true)
    (hset : set args (.http h) = .ok (v, r))
    (hcheck : ∀ check, d.check = some check → check v = .ok ()) (hsound : h.Sound) :
    ∃ h', r = .http h' ∧ h'.Sound := by
  have hkept := hsound
  obtain ⟨hlisten, hkeepalive, hbuffers, hprotocols, htokens⟩ := hkept
  simp only [directives, List.mem_cons, List.not_mem_nil, or_false] at hd
  rcases hd with rfl | rfl | rfl | rfl | rfl | rfl | rfl | rfl | rfl | rfl | rfl | rfl | rfl | rfl |
    rfl
  iterate 3
    simp [Directive.blockOnly, Directive.opening, Directive.plain] at hhandler
  all_goals obtain rfl := Handler.slot.inj hhandler
  · exact sound_of_listen hsound hset
  · exact sound_of_list (fun _ => ⟨hlisten, hkeepalive, hbuffers, hprotocols, htokens⟩) hset
  · exact sound_of_single (fun _ => ⟨hlisten, hkeepalive, hbuffers, hprotocols, htokens⟩) hset
  · exact sound_of_single (fun _ => ⟨hlisten, hkeepalive, hbuffers, hprotocols, htokens⟩) hset
  · obtain ⟨_, _, a, -, -, -, rfl, rfl⟩ := Slot.single_eq_ok.mp hset
    have hbound : a ≤ .ofSeconds 3600 := Check.le_of_durations (hcheck _ rfl)
    exact ⟨_, rfl, hlisten, .of hbound, hbuffers, hprotocols, htokens⟩
  · exact sound_of_single (fun _ => ⟨hlisten, hkeepalive, hbuffers, hprotocols, htokens⟩) hset
  · exact sound_of_single (fun _ => ⟨hlisten, hkeepalive, hbuffers, hprotocols, htokens⟩) hset
  · obtain ⟨_, _, _, count, size, -, -, -, -, -, hcount, hsize, -, rfl⟩ :=
      Slot.buffers_eq_ok.mp hset
    exact ⟨_, rfl, hlisten, hkeepalive, .of ⟨hcount, hsize⟩, hprotocols, htokens⟩
  · exact sound_of_list (fun _ => ⟨hlisten, hkeepalive, hbuffers, hprotocols, htokens⟩) hset
  · have hargs : args.words ≠ [] := by
      intro hnil
      have hvalues : args.values = [] := List.map_eq_nil_iff.mp hnil
      rw [hvalues] at haccepts
      revert haccepts
      decide
    exact sound_of_protocols hsound hargs hset
  · obtain ⟨_, _, n, -, -, hn, -, rfl⟩ := Slot.single_eq_ok.mp hset
    have hmem : n ∈ [0, 1, 2] := Slot.mem_of_lookup (Slot.lookUp_eq_ok.mp hn)
    exact ⟨_, rfl, hlisten, hkeepalive, hbuffers, hprotocols, .of hmem⟩
  · exact sound_of_single (fun _ => ⟨hlisten, hkeepalive, hbuffers, hprotocols, htokens⟩) hset

theorem Http.sound_of_types {s : Statement} (hsound : h.Sound)
    (hread : readTypes Settings.httpKind s (.http h) = .ok r) :
    ∃ h', r = .http h' ∧ h'.Sound := by
  rw [readTypes_eq_ok hread]
  exact ⟨_, rfl, hsound.1, hsound.2, hsound.3, hsound.4, hsound.5⟩

theorem Global.sound_of_setter (hd : d ∈ directives Settings.globalKind)
    (hhandler : d.handler = .slot set) (hset : set args (.global g) = .ok (v, r))
    (hcheck : ∀ check, d.check = some check → check v = .ok ()) (hsound : g.Sound) :
    ∃ g', r = .global g' ∧ g'.Sound := by
  simp only [directives, List.mem_cons, List.not_mem_nil, or_false] at hd
  rcases hd with rfl | rfl | rfl | rfl | rfl <;> obtain rfl := Handler.slot.inj hhandler
  · obtain ⟨_, _, n, -, -, -, rfl, rfl⟩ := Slot.single_eq_ok.mp hset
    exact ⟨_, rfl, .of (Check.mem_of_numbers (hcheck _ rfl))⟩
  · obtain ⟨_, _, _, -, -, -, -, rfl⟩ := Slot.single_eq_ok.mp hset
    exact ⟨_, rfl, hsound⟩
  · obtain ⟨_, _, _, -, -, -, -, rfl⟩ := Slot.single_eq_ok.mp hset
    exact ⟨_, rfl, hsound⟩
  · obtain ⟨_, _, _, -, -, -, -, rfl⟩ := Slot.single_eq_ok.mp hset
    exact ⟨_, rfl, hsound⟩
  · obtain ⟨_, -, -, rfl⟩ := Slot.list_eq_ok.mp hset
    exact ⟨_, rfl, hsound⟩

end setters

theorem Global.complete_merge {g : Global} (hsound : g.Sound) :
    (Record.merge g none).Complete :=
  ⟨hsound.merge (by simp) (by decide), rfl⟩

/-- Every default suits its field, so completion turns sound records into complete ones. -/
theorem Http.complete_merge {h : Http} {parent : Option Http} (hsound : h.Sound)
    (hparent : ∀ p ∈ parent, p.Sound) : (Record.merge h parent).Complete := by
  have hfields {α : Type} {P : α → Prop} {field : Http → Setting α}
      (hfield : ∀ p : Http, p.Sound → (field p).Meets P) :
      ∀ s ∈ parent.map field, s.Meets P := by
    intro s hs
    obtain ⟨p, hp, rfl⟩ := Option.map_eq_some_iff.mp hs
    exact hfield p (hparent p hp)
  refine ⟨⟨?_, ?_, ?_, ?_, ?_⟩, rfl⟩
  · exact hsound.listen.merge (hfields fun _ hp => hp.listen) (by decide)
  · exact hsound.keepaliveTimeout.merge (hfields fun _ hp => hp.keepaliveTimeout) (by decide)
  · exact hsound.clientBodyBuffers.merge (hfields fun _ hp => hp.clientBodyBuffers) (by decide)
  · exact hsound.sslProtocols.merge (hfields fun _ hp => hp.sslProtocols) (by decide)
  · exact hsound.serverTokens.merge (hfields fun _ hp => hp.serverTokens) (by decide)

theorem Http.sound_unset : ({} : Http).Sound :=
  ⟨.unset, .unset, .unset, .unset, .unset⟩

end Server

end ScopedConf
