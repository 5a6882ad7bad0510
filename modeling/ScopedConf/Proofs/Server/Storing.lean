import ScopedConf.Proofs.Server.Meaning

/-! What the directives of web servers store. After every directive, the record of its context holds
what the directives that were executed in the context say. -/

namespace ScopedConf.Server

variable {f g : Frame Settings} {body : List Item} {s : Statement} {tag : Nat} {v : Value}
  {r : Settings}

theorem argument_of_words {first : String}
    (h : (⟨s.name, s.values, s.location, tag⟩ : Args).words[0]? = some first) :
    s.argument = first := by
  simp only [Args.words, List.getElem?_map] at h
  rw [Statement.argument, List.head?_eq_getElem?, h, Option.getD_some]

theorem second?_of_words {second : String}
    (h : (⟨s.name, s.values, s.location, tag⟩ : Args).words[1]? = some second) :
    second? s = some second := by
  simpa [Args.words, second?] using h

theorem eq_of_single {α : Type} {hs : s.terminator = .semicolon}
    {read : String → Except Refusal α} {report : α → Value} {field : Field Http α}
    (hset : Slot.single read report (field.within Settings.httpKind)
      ⟨s.name, s.values, s.location, tag⟩ (.http (ownSettings body)) = .ok (v, r))
    (hput : ∀ a, read s.argument = .ok a →
      field.put (ownSettings body) (.of a) = ownSettings (body ++ [.directive s hs])) :
    r = .http (ownSettings (body ++ [.directive s hs])) := by
  obtain ⟨-, first, a, -, hfirst, hread, -, rfl⟩ := Slot.single_eq_ok.mp hset
  rw [← hput a (argument_of_words hfirst ▸ hread)]
  rfl

theorem eq_of_list {hs : s.terminator = .semicolon} {field : Field Http (List String)}
    {name : String}
    (hset : Slot.list (field.within Settings.httpKind) ⟨s.name, s.values, s.location, tag⟩
      (.http (ownSettings body)) = .ok (v, r))
    (hget : field.get? (ownSettings body) = some ⟨together words (directivesNamed name body)⟩)
    (hput : field.put (ownSettings body) (.of (words (directivesNamed name body ++ [s]))) =
      ownSettings (body ++ [.directive s hs])) :
    r = .http (ownSettings (body ++ [.directive s hs])) := by
  obtain ⟨old, hold, -, rfl⟩ := Slot.list_eq_ok.mp hset
  obtain rfl := Option.some.inj (hget.symm.trans hold)
  have htotal : Setting.valueOr ⟨together words (directivesNamed name body)⟩ [] =
      words (directivesNamed name body) := getD_together rfl
  rw [htotal, Args.words, ← words_concat, ← hput]
  rfl

theorem duration_eq_some {bare : Value.TimeUnit} {a : Duration}
    (h : (Value.blame (Value.readTime bare) s.argument).map Duration.ofMillis = .ok a) :
    duration bare s = some a := by
  obtain ⟨millis, hread, rfl⟩ := map_eq_ok.mp h
  simp [duration, word, Value.blame_eq_ok.mp hread, Except.toOption]

theorem eq_of_buffers {hs : s.terminator = .semicolon} (hname : s.name = "client_body_buffers")
    (hset : Slot.buffers (Http.clientBodyBuffersField.within Settings.httpKind)
      ⟨s.name, s.values, s.location, tag⟩ (.http (ownSettings body)) = .ok (v, r)) :
    r = .http (ownSettings (body ++ [.directive s hs])) := by
  obtain ⟨-, first, second, count, size, -, hfirst, hsecond, hcount, hsize, -, -, -, rfl⟩ :=
    Slot.buffers_eq_ok.mp hset
  have hread : buffers s = some ⟨count, size⟩ := by
    simp [buffers, word, argument_of_words hfirst, hcount, second?_of_words hsecond, hsize,
      Except.toOption]
  simp [ownSettings, directivesNamed_directive, typeLines_directive, hname, hread]
  rfl

theorem eq_of_protocols {hs : s.terminator = .semicolon} (hname : s.name = "ssl_protocols")
    (hset : Slot.mask Http.protocolNames (Http.sslProtocolsField.within Settings.httpKind)
      ⟨s.name, s.values, s.location, tag⟩ (.http (ownSettings body)) = .ok (v, r)) :
    r = .http (ownSettings (body ++ [.directive s hs])) := by
  obtain ⟨old, hold, -, -, rfl⟩ := Slot.mask_eq_ok.mp hset
  obtain rfl := Option.some.inj hold
  have htotal : (ownSettings body).sslProtocols.valueOr 0 =
      protocols (directivesNamed "ssl_protocols" body) := getD_together rfl
  rw [htotal, Args.words, ← protocols_concat]
  simp [ownSettings, directivesNamed_directive, typeLines_directive, hname]
  rfl

theorem setListen_eq_ok {args : Args} {h : Http}
    (hset : Http.setListen Settings.httpKind args (.http h) = .ok (v, r)) :
    ∃ first address port isDefault, args.words[0]? = some first ∧
      Listener.readEndpoint first = .ok (address, port) ∧
      Listener.readMark args.words[1]? = .ok isDefault ∧
      r = .http { h with listen := .of (h.listen.valueOr [] ++ [⟨address, port, isDefault⟩]) } := by
  simp only [Http.setListen, Settings.httpKind] at hset
  obtain ⟨first, hfirst, hset⟩ := bind_eq_ok.mp hset
  obtain ⟨⟨address, port⟩, hendpoint, hset⟩ := bind_eq_ok.mp hset
  obtain ⟨isDefault, hmark, hset⟩ := bind_eq_ok.mp hset
  obtain ⟨-, rfl⟩ := Prod.mk.inj (Except.ok.inj hset)
  exact ⟨first, address, port, isDefault, Args.require_eq_ok.mp hfirst, hendpoint, hmark, rfl⟩

theorem listener_of_setListen {h : Http}
    (hset : Http.setListen Settings.httpKind ⟨s.name, s.values, s.location, tag⟩ (.http h) =
      .ok (v, r)) :
    ∃ l, listener s = some l ∧
      r = .http { h with listen := .of (h.listen.valueOr [] ++ [l]) } := by
  obtain ⟨first, address, port, isDefault, hfirst, hendpoint, hmark, rfl⟩ := setListen_eq_ok hset
  have hmark : Listener.readMark (second? s) = .ok isDefault := by
    simpa [Args.words, second?] using hmark
  refine ⟨_, ?_, rfl⟩
  simp [listener, word, argument_of_words hfirst, hendpoint, hmark, Except.toOption]

theorem eq_of_listen {hs : s.terminator = .semicolon} (hname : s.name = "listen")
    (hset : Http.setListen Settings.httpKind ⟨s.name, s.values, s.location, tag⟩
      (.http (ownSettings body)) = .ok (v, r)) :
    r = .http (ownSettings (body ++ [.directive s hs])) := by
  obtain ⟨l, hread, rfl⟩ := listener_of_setListen hset
  have htotal : (ownSettings body).listen.valueOr [] =
      (directivesNamed "listen" body).filterMap listener := getD_together rfl
  rw [htotal]
  simp [ownSettings, directivesNamed_directive, typeLines_directive, hname, hread]
  rfl

theorem eq_of_setter {d : Directive Settings} {set : Setter Settings}
    (hs : s.terminator = .semicolon) (hd : d ∈ Http.directives Settings.httpKind)
    (hname : s.name = d.name) (hhandler : d.handler = .slot set)
    (hset : set ⟨s.name, s.values, s.location, d.tag⟩ (.http (ownSettings body)) = .ok (v, r)) :
    r = .http (ownSettings (body ++ [.directive s hs])) := by
  simp only [Http.directives, List.mem_cons, List.not_mem_nil, or_false] at hd
  rcases hd with rfl | rfl | rfl | rfl | rfl | rfl | rfl | rfl | rfl | rfl | rfl | rfl | rfl | rfl |
    rfl
  iterate 3
    simp [Directive.blockOnly, Directive.opening, Directive.plain] at hhandler
  all_goals
    obtain rfl := Handler.slot.inj hhandler
    simp only [Directive.setting, Directive.checked, Directive.plain] at hname
  · exact eq_of_listen hname hset
  · refine eq_of_list hset rfl ?_
    simp [ownSettings, directivesNamed_directive, typeLines_directive, hname]
    rfl
  · refine eq_of_single hset fun a ha => ?_
    have hread : text s = some a := by rw [text, Except.ok.inj ha]
    simp [ownSettings, directivesNamed_directive, typeLines_directive, hname, hread]
    rfl
  · refine eq_of_single hset fun a ha => ?_
    have hread : word Value.readFlag s = some a := by rw [word, Value.blame_eq_ok.mp ha]; rfl
    simp [ownSettings, directivesNamed_directive, typeLines_directive, hname, hread]
    rfl
  · refine eq_of_single hset fun a ha => ?_
    have hread : duration .second s = some a := duration_eq_some ha
    simp [ownSettings, directivesNamed_directive, typeLines_directive, hname, hread]
    rfl
  · refine eq_of_single hset fun a ha => ?_
    have hread : duration .milli s = some a := duration_eq_some ha
    simp [ownSettings, directivesNamed_directive, typeLines_directive, hname, hread]
    rfl
  · refine eq_of_single hset fun a ha => ?_
    have hread : word Value.readSize s = some a := by rw [word, Value.blame_eq_ok.mp ha]; rfl
    simp [ownSettings, directivesNamed_directive, typeLines_directive, hname, hread]
    rfl
  · exact eq_of_buffers hname hset
  · refine eq_of_list hset rfl ?_
    simp [ownSettings, directivesNamed_directive, typeLines_directive, hname]
    rfl
  · exact eq_of_protocols hname hset
  · refine eq_of_single hset fun a ha => ?_
    have hread : Http.tokenNames.lookup s.argument = some a := Slot.lookUp_eq_ok.mp ha
    simp [ownSettings, directivesNamed_directive, typeLines_directive, hname, hread]
    rfl
  · refine eq_of_single hset fun a ha => ?_
    have hread : text s = some a := by rw [text, Except.ok.inj ha]
    simp [ownSettings, directivesNamed_directive, typeLines_directive, hname, hread]
    rfl

theorem slot_or_block {d : Directive Settings} (hd : d ∈ Http.directives Settings.httpKind) :
    (d.block = none ∧ ∃ set, d.handler = .slot set) ∨
      d.handler = .none ∧ ∃ spec, d.block = some spec ∧
        (d.name ≠ "types" ∧ spec = ⟨levelOf d.name, httpTag, none⟩ ∨
          d.name = "types" ∧ spec.strategy = some (Http.readTypes Settings.httpKind)) := by
  simp only [Http.directives, List.mem_cons, List.not_mem_nil, or_false] at hd
  rcases hd with rfl | rfl | rfl | hd
  · exact .inr ⟨rfl, _, rfl, .inl ⟨by decide, rfl⟩⟩
  · exact .inr ⟨rfl, _, rfl, .inl ⟨by decide, rfl⟩⟩
  · exact .inr ⟨rfl, _, rfl, .inr ⟨rfl, rfl⟩⟩
  · left
    rcases hd with rfl | rfl | rfl | rfl | rfl | rfl | rfl | rfl | rfl | rfl | rfl | rfl <;>
      exact ⟨rfl, _, rfl⟩

theorem readTypes_eq_ok {h : Http} (hread : Http.readTypes Settings.httpKind s (.http h) = .ok r) :
    r = .http { h with types := .of (s.values.foldl
      (fun table t => table.insert (Text.toLower t.value) s.name) (h.types.valueOr [])) } := by
  simp only [Http.readTypes, Settings.httpKind] at hread
  split at hread
  · simp at hread
  · rw [← Except.ok.inj hread]

theorem eq_of_lends {lines : List Item} {h : Http} {ss : List Statement}
    (hlends : Engine.Lends (Http.readTypes Settings.httpKind) 3 f lines g)
    (hf : f.records = records { h with types := ⟨together typeTable ss⟩ }) :
    g = { f with
      records := records
        { h with types := ⟨together typeTable (ss ++ Item.flattenAll lines)⟩ } } := by
  induction hlends generalizing ss with
  | nil f => rw [Item.flattenAll, List.append_nil, ← hf]
  | @cons f k g s hs lines hlend _ ih =>
    obtain ⟨r, hread, rfl⟩ := Frame.eq_of_lend hf hlend
    have htable : Setting.valueOr ⟨together typeTable ss⟩ [] = typeTable ss := getD_together rfl
    have hr := readTypes_eq_ok hread
    simp only [htable, ← typeTable_concat] at hr
    have hrecords : records { h with types := ⟨together typeTable (ss ++ [s])⟩ } =
        [⟨⟨3, 0, httpTag⟩, "http_core", r⟩] := by
      rw [hr, together_concat]
      rfl
    have hk := ih hrecords.symm
    rw [hk, Item.flattenAll_cons, ← List.append_assoc]
    rfl

end ScopedConf.Server
