import ScopedConf.Engine.Parse
import ScopedConf.Proofs.Faults
import ScopedConf.Proofs.Refusals
import ScopedConf.Proofs.Server.Reference
import ScopedConf.Proofs.Splicing
import ScopedConf.Proofs.Trails

/-! Where the failure of a parse points: into the source that was being read. A statement that
cannot be handled is blamed on the line of its first token. -/

namespace ScopedConf

open Scan Grammar

variable {ρ : Type}

namespace Engine

variable {e : Engine ρ} {source : Source} {stack next : Stack ρ} {state last : State ρ}
  {s : Statement} {log : Log} {f : Failure} {opened sources : List Source}

theorem Withholds.unlocated (h : e.Withholds source s f) (hfiles : e.files.Unlocated) :
    f.location = none := by
  rcases h with hexpand | ⟨paths, -, p, -, hread⟩
  · exact hfiles.expand _ f hexpand
  · exact hfiles.read p f hread

theorem unlocated_of_handle (hfiles : e.files.Unlocated)
    (h : e.handle source stack s = (log, .error f)) : f.location = none := by
  cases refuses_of_handle (congrArg Prod.snd h) with
  | unread _ hwithholds => exact hwithholds.unlocated hfiles
  | _ => rfl

/-- The include of one of the states stands for `file`, among others, and `bytes` were read
there. -/
def IncludedBy (e : Engine ρ) (states : List (State ρ)) (file : String) (bytes : List UInt8) :
    Prop :=
  ∃ state ∈ states, ∃ s paths, e.including? state = some (s, paths) ∧
    ∃ p ∈ paths, p.text = file ∧ e.files.read p = .ok bytes

/-- What an open source holds is what the parse began with, or was included on the way. -/
def Holds (e : Engine ρ) (first : Source) (earlier : List (State ρ)) (source : Source)
    (bytes : List UInt8) : Prop :=
  (Cursor.ofBytes source.cursor.file bytes).MovesTo source.cursor ∧
    (source.cursor.file = first.cursor.file ∧ bytes = first.cursor.rest ∨
      e.IncludedBy earlier source.cursor.file bytes)

theorem IncludedBy.mono {states more : List (State ρ)} {file : String} {bytes : List UInt8}
    (h : e.IncludedBy states file bytes) : e.IncludedBy (states ++ more) file bytes := by
  obtain ⟨state, hmem, hstate⟩ := h
  exact ⟨state, List.mem_append_left _ hmem, hstate⟩

theorem Holds.mono {first : Source} {earlier more : List (State ρ)} {bytes : List UInt8}
    (h : e.Holds first earlier source bytes) : e.Holds first (earlier ++ more) source bytes :=
  ⟨h.1, h.2.imp_right IncludedBy.mono⟩

theorem expansion_of_handle (h : e.handle source stack s = (log, .ok (next, opened))) :
    opened = [] ∨ ∃ paths, e.expansion? source stack s = some paths ∧ e.Opens paths opened := by
  cases handles_of_handle h with
  | @included top g below s later opened m d hs htop haccept hd hfiles =>
    have hinclude : e.includesIn top s = true := includesIn_iff.mpr ⟨m, d, g, haccept, hd⟩
    have hat : e.includesAt ⟨top, below⟩ s = true := includesAt_iff.mpr ⟨hs, htop, hinclude⟩
    have hdepth : source.includeDepth < e.options.maxIncludeDepth := by
      by_contra hlimit
      simp [includeFiles, Nat.le_of_not_lt hlimit] at hfiles
    obtain ⟨paths, later, hpaths, hopen⟩ := includeFiles_eq_ok hfiles
    refine .inr ⟨paths, ?_, opens_of_openFiles hopen⟩
    rw [expansion?, if_pos ⟨hat, hdepth⟩, hpaths]
    rfl
  | _ => exact .inl rfl

theorem Opens.exists_read {paths : List Path} (h : e.Opens paths opened) {n : Source}
    (hn : n ∈ opened) :
    ∃ p ∈ paths, ∃ bytes, e.files.read p = .ok bytes ∧ n.cursor = .ofBytes p.text bytes := by
  induction h with
  | nil => simp at hn
  | @cons p paths bytes sources baseDepth includeDepth hread _ ih =>
    rcases List.mem_cons.mp hn with rfl | hn
    · exact ⟨p, List.mem_cons_self, bytes, hread, rfl⟩
    · obtain ⟨p', hp', hread'⟩ := ih hn
      exact ⟨p', List.mem_cons_of_mem p hp', hread'⟩

theorem including_of_step {rest : List Source} {cursor : Cursor} {paths : List Path}
    (hsources : state.sources = source :: rest)
    (hnext : source.cursor.next = (.ok (some s), cursor))
    (h : e.expansion? source state.stack s = some paths) :
    e.including? state = some (s, paths) := by
  simp only [including?, hsources, hnext, h, Option.map_some]

def Known (e : Engine ρ) (first : Source) (earlier : List (State ρ)) (state : State ρ) : Prop :=
  ∀ source ∈ state.sources, ∃ bytes, e.Holds first earlier source bytes

theorem known_start (e : Engine ρ) {first : Source} {file : String} {bytes : List UInt8}
    (hfirst : first.cursor = .ofBytes file bytes) : e.Known first [] (e.opening first) := by
  intro source hsource
  obtain rfl : source = first := List.mem_singleton.mp hsource
  exact ⟨bytes, hfirst ▸ .refl _, .inl ⟨rfl, by rw [hfirst]; rfl⟩⟩

theorem known_step {first : Source} {earlier : List (State ρ)} {after : State ρ}
    {s? : Option Statement} (h : e.Known first earlier state)
    (hstep : e.step state = (log, .next s? after)) : e.Known first (earlier ++ [state]) after := by
  cases s? with
  | none =>
    obtain ⟨source, rest, cursor, hsources, -, -, rfl⟩ := eq_of_step_ended hstep
    intro n hn
    obtain ⟨bytes, hbytes⟩ := h n (hsources ▸ List.mem_cons_of_mem source hn)
    exact ⟨bytes, hbytes.mono⟩
  | some s =>
    obtain ⟨source, rest, cursor, opened, hsources, hnext, hhandle, hafter⟩ :=
      eq_of_step_statement hstep
    intro n hn
    rw [hafter] at hn
    rcases List.mem_append.mp hn with hn | hn
    · rcases expansion_of_handle hhandle with rfl | ⟨paths, hpaths, hopens⟩
      · simp at hn
      · obtain ⟨p, hp, bytes, hread, hcursor⟩ := hopens.exists_read hn
        have hincluding := including_of_step hsources hnext hpaths
        refine ⟨bytes, hcursor ▸ .refl _, .inr ?_⟩
        exact ⟨state, by simp, s, paths, hincluding, p, hp, by rw [hcursor]; rfl, hread⟩
    · rcases List.mem_cons.mp hn with rfl | hn
      · obtain ⟨bytes, hmoves, horigin⟩ := h source (hsources ▸ List.mem_cons_self)
        have hfile : (source.advance cursor).cursor.file = source.cursor.file :=
          (Cursor.movesTo_of_next hnext).file
        refine ⟨bytes, ?_, ?_⟩
        · rw [hfile]
          exact hmoves.trans (Cursor.movesTo_of_next hnext)
        · rw [hfile]
          exact horigin.imp_right IncludedBy.mono
      · obtain ⟨bytes, hbytes⟩ := h n (hsources ▸ List.mem_cons_of_mem source hn)
        exact ⟨bytes, hbytes.mono⟩

/-- A step that fails blames a line of the source that it reads; if a statement was read, the line
of the statement. -/
theorem blame_of_step (hfiles : e.files.Unlocated) (h : e.step state = (log, .failed f)) :
    ∃ source rest, state.sources = source :: rest ∧ source.cursor.Within f ∧
      ∀ s d, source.cursor.next = (.ok (some s), d) → f.location = some s.location := by
  obtain ⟨stack, sources⟩ := state
  cases sources with
  | nil => simp [step] at h
  | cons source rest =>
    refine ⟨source, rest, rfl, ?_⟩
    rcases hnext : source.cursor.next with ⟨g | (_ | s), cursor⟩
    · simp only [step, hnext, Prod.mk.injEq, Step.failed.injEq] at h
      rw [← h.2]
      exact ⟨Cursor.within_of_readFrom hnext, by simp⟩
    · have hmoves := Cursor.movesTo_of_next hnext
      rw [e.step_of_end stack rest hnext] at h
      split at h
      · simp at h
      · obtain ⟨-, hf⟩ := Prod.mk.inj h
        obtain rfl := Step.failed.inj hf
        exact ⟨hmoves.within (Cursor.within_located _ _), by simp⟩
    · have hlocation : f.location = some s.location := by
        rw [e.step_of_statement stack rest hnext] at h
        split at h
        · next g hhandle =>
          obtain ⟨-, hf⟩ := Prod.mk.inj h
          obtain rfl := Step.failed.inj hf
          simp [Failure.orAt, unlocated_of_handle hfiles hhandle]
        · simp at h
      refine ⟨?_, ?_⟩
      · obtain ⟨written, hform, hrest, -⟩ := form_of_next hnext
        obtain ⟨gap, body, rfl, -, -, -, hs⟩ := exists_gap_of_form hform
        refine ⟨_, hlocation.trans (congrArg some hs), Nat.le_add_right _ _, ?_⟩
        rw [hrest, lineFeeds_append, lineFeeds_append]
        omega
      · intro t d ht
        obtain ⟨hread, -⟩ := Prod.mk.inj ht
        obtain rfl := Option.some.inj (Except.ok.inj hread)
        exact hlocation

/-- The failure happened while `source` was read, which holds `bytes`, and points into it. -/
structure Blames (e : Engine ρ) (first : Source) (f : Failure) (source : Source)
    (bytes : List UInt8) : Prop where
  reading : ∃ earlier last log rest, e.trail (e.opening first) = earlier ++ [last] ∧
    e.step last = (log, .failed f) ∧ last.sources = source :: rest ∧
    e.Holds first earlier source bytes
  within : ∃ line, f.location = some ⟨source.cursor.file, line⟩ ∧
    1 ≤ line ∧ line ≤ 1 + lineFeeds bytes
  statement : ∀ s d, source.cursor.next = (.ok (some s), d) →
    ∃ passed gap body, bytes = passed ++ gap ++ body ++ d.rest ∧
      Form source.cursor.file (1 + lineFeeds passed) (gap ++ body) s ∧
      Gap false gap ∧ Stands body ∧ body ≠ [] ∧
      f.location = some ⟨source.cursor.file, 1 + lineFeeds (passed ++ gap)⟩
  unclosed : ∀ front quote inside, source.cursor.rest = front ++ quote :: inside →
    Begun front → quote ∈ quotes → Unclosed quote inside →
    ∃ passed, bytes = passed ++ front ++ quote :: inside ∧
      f = .located .unexpectedEnd ⟨source.cursor.file, 1 + lineFeeds (passed ++ front)⟩

theorem blames_of_drain (hfiles : e.files.Unlocated) {first : Source} {file : String}
    {bytes : List UInt8} (hfirst : first.cursor = .ofBytes file bytes)
    (h : (e.drain (e.opening first)).2 = .error f) :
    ∃ source bytes, e.Blames first f source bytes := by
  obtain ⟨earlier, last, log, htrail, hfailed⟩ := exists_failed h
  obtain ⟨source, rest, hsources, hwithin, hstatement⟩ := blame_of_step hfiles hfailed
  have hknown : e.Known first earlier last :=
    trail_induction (e.known_start hfirst) (fun _ _ _ _ _ => known_step) htrail
  obtain ⟨bytes, hholds⟩ := hknown source (hsources ▸ List.mem_cons_self)
  obtain ⟨passed, hbytes, hcursor⟩ := hholds.1
  have hbytes : bytes = passed ++ source.cursor.rest := hbytes
  have hline : source.cursor.line = 1 + lineFeeds passed := by rw [hcursor]; rfl
  refine ⟨source, bytes, ⟨earlier, last, log, rest, htrail, hfailed, hsources, hholds⟩, ?_, ?_, ?_⟩
  · obtain ⟨line, hlocation, hlow, hhigh⟩ := hwithin
    refine ⟨line, hlocation, by omega, ?_⟩
    rw [hbytes, lineFeeds_append]
    omega
  · intro s d hnext
    obtain ⟨written, hform, hrest, -⟩ := form_of_next hnext
    obtain ⟨gap, body, rfl, hgap, hstands, hne, hs⟩ := exists_gap_of_form hform
    rw [hline] at hform hs
    refine ⟨passed, gap, body, ?_, hform, hgap, hstands, hne, ?_⟩
    · rw [hbytes, hrest]
      simp only [List.append_assoc]
    · rw [hstatement s d hnext, hs, lineFeeds_append, Nat.add_assoc]
  · intro front quote inside hrest hfront hquote hinside
    have hnext := next_unclosed hfront hquote hinside hrest
    refine ⟨passed, by rw [hbytes, hrest, List.append_assoc], ?_⟩
    obtain ⟨stack, sources⟩ := last
    subst hsources
    cases hread : source.cursor.next with
    | mk read d =>
      rw [hread] at hnext
      obtain rfl : read = _ := hnext
      simp only [step, hread, Prod.mk.injEq, Step.failed.injEq] at hfailed
      rw [← hfailed.2, hline, lineFeeds_append, Nat.add_assoc]

theorem parseSource_eq_error [Record ρ] {first : Source} :
    (e.parseSource first).2 = .error f ↔ (e.drain (e.opening first)).2 = .error f := by
  have hresult : (e.parseSource first).2 =
      (e.drain (e.opening first)).2.map fun stack => stack.bottom.close.complete :=
    e.snd_parseSource first
  rw [hresult]
  cases (e.drain (e.opening first)).2 <;> simp [Except.map]

/-- Every failure of a parse carries a location, once the main file was read: a line of the source
that was being read, be it the main file or an included one. -/
theorem failures_point_into_source (e : Engine ρ) [Record ρ] (hfiles : e.files.Unlocated) :
    (∀ name text f, (e.parseText name text).2 = .error f →
      ∃ source bytes, e.Blames (.ofText name (Utf8.encode text.toList)) f source bytes) ∧
    ∀ p content f, e.files.read p = .ok content → (e.parseFile p).2 = .error f →
      ∃ source bytes, e.Blames (.ofFile p content 0 0) f source bytes := by
  refine ⟨fun name text f h => ?_, fun p content f hread h => ?_⟩
  · exact blames_of_drain hfiles rfl (parseSource_eq_error.mp h)
  · simp only [parseFile, hread] at h
    exact blames_of_drain hfiles rfl (parseSource_eq_error.mp h)

theorem failures_point_into_source_included :
    let e := Server.engineOver [("main.conf", "http {
  include a.conf;
}"),
      ("a.conf", "# c
root 'never
closed;")]
    let content := Utf8.encode "http {
  include a.conf;
}".toList
    e.files.Unlocated ∧ e.files.read ⟨"main.conf"⟩ = .ok content ∧
      (e.parseFile ⟨"main.conf"⟩).2 = .error (.located .unexpectedEnd ⟨"a.conf", 2⟩) ∧
      ∃ source bytes, e.Blames (.ofFile ⟨"main.conf"⟩ content 0 0)
        (.located .unexpectedEnd ⟨"a.conf", 2⟩) source bytes := by
  intro e content
  have hfiles : e.files.Unlocated := Files.unlocated_ofCauses _ _
  have hread : e.files.read ⟨"main.conf"⟩ = .ok content := by decide +kernel
  have hfails : e.failsWithin 20 (e.opening (.ofFile ⟨"main.conf"⟩ content 0 0))
      (.located .unexpectedEnd ⟨"a.conf", 2⟩) = true := by decide +kernel
  have hparse : (e.parseFile ⟨"main.conf"⟩).2 =
      .error (.located .unexpectedEnd ⟨"a.conf", 2⟩) := by
    simp only [parseFile, hread]
    exact parseSource_eq_error.mpr (drain_of_failsWithin hfails)
  obtain ⟨-, hpoints⟩ := failures_point_into_source e hfiles
  exact ⟨hfiles, hread, hparse, hpoints _ content _ hread hparse⟩

end Engine

end ScopedConf
