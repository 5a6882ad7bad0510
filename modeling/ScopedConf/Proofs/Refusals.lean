import ScopedConf.Proofs.Forms
import ScopedConf.Proofs.Handling

/-! Everything that a step can fail for. A source may not be readable as statements; a statement
that was read is refused for one of the reasons of `Engine.Refuses`, which later proofs go through
by its cases. -/

namespace ScopedConf

variable {ρ : Type}

def Cause.isOfReading : Cause → Bool
  | .unexpectedByte _ | .byteAfterQuoted _ | .invalidUtf8 | .unexpectedEnd => true
  | _ => false

namespace Cursor

variable {c d : Cursor} {f : Failure} {t : Token} {written bs : List UInt8} {quote : UInt8}
  {args : List Token}

theorem isOfReading_of_token {quoted : Bool} (h : c.token written quoted = .error f) :
    f.cause.isOfReading = true := by
  unfold token at h
  split at h
  · simp at h
  · obtain rfl := Except.error.inj h
    rfl

theorem isOfReading_of_readQuoted (h : c.readQuoted quote bs = (.error f, d)) :
    f.cause.isOfReading = true := by
  unfold readQuoted at h
  split at h
  · obtain ⟨hf, -⟩ := Prod.mk.inj h
    obtain rfl := Except.error.inj hf
    rfl
  · split at h
    · next g htoken =>
      obtain ⟨hf, -⟩ := Prod.mk.inj h
      obtain rfl := Except.error.inj hf
      exact isOfReading_of_token htoken
    · split at h
      · next cause hcloses =>
        obtain ⟨hf, -⟩ := Prod.mk.inj h
        obtain rfl := Except.error.inj hf
        unfold closesQuoted at hcloses
        split at hcloses
        · simp at hcloses
        · split at hcloses
          · simp at hcloses
          · obtain rfl := Except.error.inj hcloses
            rfl
      · simp at h

theorem isOfReading_of_readWord (h : c.readWord = (.error f, d)) : f.cause.isOfReading = true :=
  isOfReading_of_token (congrArg Prod.fst h)

theorem isOfReading_of_readToken (h : Grammar.readToken c = (.error f, d)) :
    f.cause.isOfReading = true := by
  unfold Grammar.readToken at h
  split at h
  · split at h
    · exact isOfReading_of_readQuoted h
    · exact isOfReading_of_readWord h
  · exact isOfReading_of_readWord h

theorem isOfReading_of_readFrom (h : c.readFrom args = (.error f, d)) :
    f.cause.isOfReading = true := by
  induction hlength : c.rest.length using Nat.strongRecOn generalizing c args with
  | ind length ih =>
    rcases Grammar.readFrom_eq_error h with rfl | ⟨b, rfl⟩ | ⟨b, bs, -, -, hfirst | hlater⟩
    · rfl
    · rfl
    · exact isOfReading_of_readToken hfirst
    · obtain ⟨t, next, hlt, -, hlater⟩ := hlater
      exact ih _ (hlength ▸ hlt) hlater rfl

end Cursor

namespace Engine

/-- The files answer the include `s` of `source` with a failure: to the pattern, or to one of the
paths that it stands for. -/
def Withholds (e : Engine ρ) (source : Source) (s : Statement) (f : Failure) : Prop :=
  e.files.expand (source.resolve s.argument) = .error f ∨
    ∃ paths, e.files.expand (source.resolve s.argument) = .ok paths ∧
      ∃ p ∈ paths, e.files.read p = .error f

/-- The reasons to refuse a statement that was read from `source`, each with its failure. -/
inductive Refuses (e : Engine ρ) (source : Source) (stack : Stack ρ) (s : Statement) :
    Failure → Prop
  | unbalanced (hs : s.terminator = .closeBrace) : Refuses e source stack s (.of .unbalancedBlock)
  | handedOver {handle : Strategy ρ} {owner : Nat} {cause : Cause}
    (hs : s.terminator ≠ .closeBrace) (hd : stack.top.dispatch = .strategy handle owner)
    (hover : handOver handle owner stack s = .error cause) : Refuses e source stack s (.of cause)
  | unresolved {cause : Cause} (hs : s.terminator ≠ .closeBrace)
    (hd : stack.top.dispatch = .directives) (hlookUp : e.lookUp stack.top s.name = .error cause) :
    Refuses e source stack s (.of cause)
  | misused {m : Registry.Entry ρ} {d : Directive ρ} {cause : Cause}
    (hs : s.terminator ≠ .closeBrace) (hd : stack.top.dispatch = .directives)
    (hlookUp : e.lookUp stack.top s.name = .ok (m, d))
    (huse : stack.top.admitUse d s = .error cause) : Refuses e source stack s (.of cause)
  | nested (hincludes : e.includesAt stack s = true)
    (hlimit : e.options.maxIncludeDepth ≤ source.includeDepth) :
    Refuses e source stack s (.of (.includeDepth e.options.maxIncludeDepth))
  | unread {f : Failure} (hincludes : e.includesAt stack s = true)
    (hfiles : e.Withholds source s f) : Refuses e source stack s f
  | disobeyed {m : Registry.Entry ρ} {d : Directive ρ} {f : Frame ρ} {cause : Cause}
    (hs : s.terminator ≠ .closeBrace) (hd : stack.top.dispatch = .directives)
    (haccept : e.accept stack.top s = .ok (m, d, f))
    (hobey : f.obey m.id.index d s = .error cause) : Refuses e source stack s (.of cause)
  | tooDeep {m : Registry.Entry ρ} {d : Directive ρ} {f : Frame ρ} {spec : BlockSpec ρ}
    (hs : s.terminator ≠ .closeBrace) (hd : stack.top.dispatch = .directives)
    (haccept : e.accept stack.top s = .ok (m, d, f)) (hblock : d.block = some spec)
    (hlimit : e.options.maxBlockDepth ≤ stack.depth) :
    Refuses e source stack s (.of (.blockDepth e.options.maxBlockDepth))

variable {e : Engine ρ} {source : Source} {stack : Stack ρ} {state : State ρ} {s : Statement}
  {log : Log} {f : Failure} {cause : Cause}

theorem eq_unbalanced_of_closeBlock (h : (closeBlock source stack s).2 = .error f) :
    f = .of .unbalancedBlock := by
  unfold closeBlock at h
  split at h
  · exact (Except.error.inj h).symm
  · split at h
    · exact (Except.error.inj h).symm
    · simp at h

theorem refuses_of_accept_error (hs : s.terminator ≠ .closeBrace)
    (hd : stack.top.dispatch = .directives) (h : e.accept stack.top s = .error cause) :
    e.Refuses source stack s (.of cause) := by
  unfold accept at h
  split at h
  · next hlookUp =>
    obtain rfl := Except.error.inj h
    exact .unresolved hs hd hlookUp
  · next m d hlookUp =>
    cases huse : stack.top.admitUse d s with
    | error found =>
      simp only [huse, Except.map] at h
      obtain rfl := Except.error.inj h
      exact .misused hs hd hlookUp huse
    | ok g => simp [huse, Except.map] at h

theorem refuses_of_enter (hs : s.terminator ≠ .closeBrace) (hd : stack.top.dispatch = .directives)
    (h : (e.enter stack.depth stack.top s).2 = .error f) : e.Refuses source stack s f := by
  unfold enter at h
  cases haccept : e.accept stack.top s with
  | error cause =>
    simp only [haccept] at h
    obtain rfl := Except.error.inj h
    exact refuses_of_accept_error hs hd haccept
  | ok accepted =>
    obtain ⟨m, d, g⟩ := accepted
    simp only [haccept] at h
    cases hobey : g.obey m.id.index d s with
    | error cause =>
      simp only [hobey] at h
      obtain rfl := Except.error.inj h
      exact .disobeyed hs hd haccept hobey
    | ok changed =>
      simp only [hobey, openIn] at h
      split at h
      · simp at h
      · next spec hblock =>
        split at h
        · next hlimit =>
          obtain rfl := Except.error.inj h
          exact .tooDeep hs hd haccept hblock hlimit
        · simp at h

theorem exists_read_of_openFiles {line baseDepth includeDepth : Nat} {paths : List Path}
    (h : (e.openFiles line baseDepth includeDepth paths).2 = .error f) :
    ∃ p ∈ paths, e.files.read p = .error f := by
  induction paths with
  | nil => simp [openFiles] at h
  | cons p paths ih =>
    unfold openFiles at h
    split at h
    · next g hlater =>
      obtain rfl := Except.error.inj h
      obtain ⟨p', hp', hread⟩ := ih (congrArg Prod.snd hlater)
      exact ⟨p', List.mem_cons_of_mem p hp', hread⟩
    · split at h
      · next g hread =>
        obtain rfl := Except.error.inj h
        exact ⟨p, List.mem_cons_self, hread⟩
      · simp at h

theorem refuses_of_includeFiles (hincludes : e.includesAt stack s = true)
    (h : (e.includeFiles source stack.depth s).2 = .error f) : e.Refuses source stack s f := by
  unfold includeFiles at h
  split at h
  · next hlimit =>
    obtain rfl := Except.error.inj h
    exact .nested hincludes hlimit
  · split at h
    · next g hexpand =>
      obtain rfl := Except.error.inj h
      exact .unread hincludes (.inl hexpand)
    · simp at h
    · next paths _ hexpand =>
      exact .unread hincludes (.inr ⟨paths, hexpand, exists_read_of_openFiles h⟩)

theorem refuses_of_handle (h : (e.handle source stack s).2 = .error f) :
    e.Refuses source stack s f := by
  obtain ⟨top, below⟩ := stack
  unfold handle at h
  by_cases hs : s.terminator = .closeBrace
  · rw [if_pos hs] at h
    obtain rfl := eq_unbalanced_of_closeBlock (Reported.snd_map_eq_error h)
    exact .unbalanced hs
  · rw [if_neg hs] at h
    cases htop : top.dispatch with
    | strategy handle owner =>
      simp only [htop] at h
      have hquiet := Reported.snd_map_eq_error h
      cases hover : handOver handle owner ⟨top, below⟩ s with
      | ok next =>
        rw [hover] at hquiet
        change Except.ok next = .error f at hquiet
        simp at hquiet
      | error cause =>
        rw [hover] at hquiet
        obtain rfl := Except.error.inj hquiet
        exact .handedOver hs htop hover
    | directives =>
      simp only [htop] at h
      by_cases hincludes : e.includesIn top s = true
      · obtain ⟨m, d, g, haccept, hd⟩ := includesIn_iff.mp hincludes
        simp only [dispatch_of_accept_ok haccept, execute, hd] at h
        have hat : e.includesAt ⟨top, below⟩ s = true := includesAt_iff.mpr ⟨hs, htop, hincludes⟩
        exact refuses_of_includeFiles hat (Reported.snd_map_eq_error h)
      · rw [dispatch_eq_enter source below (Bool.eq_false_iff.mpr hincludes)] at h
        exact refuses_of_enter hs htop (Reported.snd_map_eq_error h)

theorem refuses_of_step (h : e.step state = (log, .failed f)) :
    ∃ source rest, state.sources = source :: rest ∧ (f.cause.isOfReading = true ∨
      ∃ s after g, source.cursor.next = (.ok (some s), after) ∧
        e.Refuses (source.advance after) state.stack s g ∧ f = g.orAt s.location) := by
  obtain ⟨stack, sources⟩ := state
  cases sources with
  | nil => simp [step] at h
  | cons source rest =>
    refine ⟨source, rest, rfl, ?_⟩
    rcases hnext : source.cursor.next with ⟨g | (_ | s), after⟩
    · simp only [step, hnext, Prod.mk.injEq, Step.failed.injEq] at h
      obtain ⟨-, rfl⟩ := h
      exact .inl (Cursor.isOfReading_of_readFrom hnext)
    · simp only [step, hnext, endSource] at h
      split at h
      · next hend =>
        split at hend
        · obtain ⟨-, hf⟩ := Prod.mk.inj hend
          obtain rfl := Except.error.inj hf
          obtain ⟨-, hf⟩ := Prod.mk.inj h
          obtain rfl := Step.failed.inj hf
          exact .inl rfl
        · simp at hend
      · simp at h
    · simp only [step, hnext] at h
      split at h
      · next g hhandle =>
        obtain ⟨-, hf⟩ := Prod.mk.inj h
        obtain rfl := Step.failed.inj hf
        exact .inr ⟨s, after, g, rfl, refuses_of_handle (congrArg Prod.snd hhandle), rfl⟩
      · simp at h

end Engine

end ScopedConf
