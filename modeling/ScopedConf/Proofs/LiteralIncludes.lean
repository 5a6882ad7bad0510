import ScopedConf.Files.Archive
import ScopedConf.Proofs.Blame
import ScopedConf.Proofs.Reports

/-! Includes whose argument has no wildcard, over files in memory. What decides is the whole path,
so the folder of the including file has a say too. -/

namespace ScopedConf

variable {ρ : Type}

namespace Wildcard

theorem isWild_append (s t : String) : isWild (s ++ t) = (isWild s || isWild t) := by
  simp [isWild, String.toList_append]

theorem isWild_slash : isWild "/" = false := by decide

end Wildcard

theorem Path.isWild_join (p q : Path) :
    Wildcard.isWild (p.join q).text =
      (Wildcard.isWild q.text || !q.isAbsolute && Wildcard.isWild p.text) := by
  unfold Path.join
  by_cases hq : q.isAbsolute = true
  · simp [hq]
  · have hrelative : q.isAbsolute = false := by simpa using hq
    rw [if_neg hq]
    split <;> simp [Wildcard.isWild_append, Wildcard.isWild_slash, hrelative, Bool.or_comm]

namespace Source

def inWildFolder (source : Source) : Bool :=
  source.directory.any fun directory => Wildcard.isWild directory.text

/-- Whether an include of `target` is seen from the folder of the source, and that has a wildcard
in its path. -/
def lendsWildcard (source : Source) (target : String) : Bool :=
  !Path.isAbsolute ⟨target⟩ && source.inWildFolder

theorem isWild_resolve (source : Source) (target : String) :
    Wildcard.isWild (source.resolve target).text =
      (Wildcard.isWild target || source.lendsWildcard target) := by
  unfold resolve lendsWildcard inWildFolder
  cases source.directory with
  | none => simp
  | some directory => exact Path.isWild_join directory ⟨target⟩

end Source

namespace Archive

theorem read_eq_error {archive : Archive} {p : Path} {cause : Cause}
    (h : archive.read p = .error cause) : cause = .notFound p.text := by
  unfold read at h
  split at h
  · simp at h
  · exact (Except.error.inj h).symm

theorem expand_of_tame (archive : Archive) {p : Path} (h : Wildcard.isWild p.text = false) :
    archive.files.expand p = .ok [p] := by
  change (Files.expandBy archive.matching p).mapError Failure.of = .ok [p]
  rw [Files.expandBy, h]
  rfl

theorem expand_nil_of_wild {p : Path} (h : Wildcard.isWild p.text = true) :
    (Archive.mk []).files.expand p ≠ .ok [p] := by
  change (Files.expandBy (Archive.mk []).matching p).mapError Failure.of ≠ .ok [p]
  rw [Files.expandBy, h, if_pos rfl, matching]
  cases Wildcard.ofText p.text with
  | error fault => simp [Except.map, Except.mapError]
  | ok w => simp [Except.map, Except.mapError]

/-- A target without wildcards stands for itself whatever files there are, exactly when the folder
of the including source lends it none. -/
theorem expand_resolve_iff (source : Source) {target : String}
    (h : Wildcard.isWild target = false) :
    (∀ archive : Archive, archive.files.expand (source.resolve target) =
      .ok [source.resolve target]) ↔ source.lendsWildcard target = false := by
  have hwild := source.isWild_resolve target
  rw [h, Bool.false_or] at hwild
  constructor
  · intro hall
    by_contra hlends
    rw [Bool.not_eq_false] at hlends
    exact expand_nil_of_wild (hwild.trans hlends) (hall ⟨[]⟩)
  · intro hlends archive
    exact archive.expand_of_tame (hwild.trans hlends)

end Archive

namespace Engine

variable {e : Engine ρ} {source : Source} {stack : Stack ρ} {s : Statement}

theorem handle_of_includesAt (hr : e.registry.Finalized) (source : Source)
    (h : e.includesAt stack s = true) :
    ∃ note, e.handle source stack s =
      (note :: (e.includeFiles source stack.depth s).1,
        (e.includeFiles source stack.depth s).2.map fun opened => (stack, opened)) := by
  obtain ⟨top, below⟩ := stack
  obtain ⟨hs, htop, hin⟩ := includesAt_iff.mp h
  obtain ⟨m, d, f, haccept, hd⟩ := includesIn_iff.mp hin
  obtain ⟨-, rfl⟩ := include_of_accept hr haccept hd
  refine ⟨Event.dispatching s.name m.module.name s.location.line, ?_⟩
  simp only at htop
  simp only [handle, if_neg hs, htop, dispatch_of_accept_ok haccept, execute, hd]
  rfl

theorem includeFiles_of_expand {depth : Nat} {p : Path}
    (hlimit : source.includeDepth < e.options.maxIncludeDepth)
    (hexpand : e.files.expand (source.resolve s.argument) = .ok [p]) :
    e.includeFiles source depth s =
      match e.files.read p with
      | .error f => ([], .error f)
      | .ok bytes => ([Event.including p s.location.line],
          .ok [Source.ofFile p bytes depth (source.includeDepth + 1)]) := by
  rw [includeFiles, if_neg (Nat.not_le.mpr hlimit), hexpand]
  simp only [openFiles]
  cases e.files.read p <;> rfl

theorem step_of_include (rest : List Source) {cursor : Cursor} {p : Path}
    (hr : e.registry.Finalized) (hnext : source.cursor.next = (.ok (some s), cursor))
    (hincludes : e.includesAt stack s = true)
    (hlimit : source.includeDepth < e.options.maxIncludeDepth)
    (hexpand : e.files.expand (source.resolve s.argument) = .ok [p]) :
    ∃ log, e.step ⟨stack, source :: rest⟩ =
      match e.files.read p with
      | .error f => (log, .failed (f.orAt s.location))
      | .ok bytes => (log, .next (some s)
          ⟨stack, Source.ofFile p bytes stack.depth (source.includeDepth + 1) ::
            source.advance cursor :: rest⟩) := by
  obtain ⟨note, hhandle⟩ := handle_of_includesAt hr source hincludes
  rw [e.step_of_statement stack rest hnext, hhandle, includeFiles_of_expand hlimit hexpand]
  cases e.files.read p with
  | error f => exact ⟨_, rfl⟩
  | ok bytes => exact ⟨_, rfl⟩

/-- In every run over files in memory, an include of a target without wildcards goes on in the one
file that stands at the target, seen from the folder of the including file, without a warning; if
there is none, the parse fails there. The folder may have wildcards in its path only if the target
does not depend on it. -/
theorem literal_include (e : Engine ρ) [Record ρ] (hr : e.registry.Finalized) (archive : Archive)
    (hfiles : e.files = archive.files) (first source : Source) (rest : List Source)
    (earlier later : List (State ρ)) (stack : Stack ρ) (s : Statement) (cursor : Cursor)
    (htrail : e.trail (e.opening first) = earlier ++ ⟨stack, source :: rest⟩ :: later)
    (hnext : source.cursor.next = (.ok (some s), cursor))
    (hincludes : e.includesAt stack s = true)
    (hlimit : source.includeDepth < e.options.maxIncludeDepth)
    (hliteral : Wildcard.isWild s.argument = false)
    (hlends : source.lendsWildcard s.argument = false) :
    (∀ bytes, archive.read (source.resolve s.argument) = .ok bytes →
      e.warning? ⟨stack, source :: rest⟩ = none ∧
        ∃ more, later = ⟨stack, Source.ofFile (source.resolve s.argument) bytes stack.depth
          (source.includeDepth + 1) :: source.advance cursor :: rest⟩ :: more) ∧
    ∀ cause, archive.read (source.resolve s.argument) = .error cause →
      later = [] ∧ (e.parseSource first).2 =
        .error (.located (.notFound (source.resolve s.argument).text) s.location) := by
  have hexpand : e.files.expand (source.resolve s.argument) = .ok [source.resolve s.argument] := by
    rw [hfiles]
    exact (Archive.expand_resolve_iff source hliteral).mpr hlends archive
  have hread : e.files.read (source.resolve s.argument) =
      (archive.read (source.resolve s.argument)).mapError .of := by
    rw [hfiles]
    rfl
  obtain ⟨hhere, hdrain⟩ := trail_from htrail
  obtain ⟨log, hstep⟩ := step_of_include rest hr hnext hincludes hlimit hexpand
  rw [hread] at hstep
  refine ⟨fun bytes hcontent => ?_, fun cause hcontent => ?_⟩
  · simp only [hcontent, Except.mapError] at hstep
    refine ⟨?_, ?_⟩
    · have hexpansion : e.expansion? source stack s = some [source.resolve s.argument] := by
        rw [expansion?, if_pos ⟨hincludes, hlimit⟩, hexpand]
        rfl
      rw [warning?, emptyInclude?, including_of_step rfl hnext hexpansion]
      rfl
    · obtain ⟨more, hmore⟩ := e.exists_trail ⟨stack, Source.ofFile (source.resolve s.argument) bytes
        stack.depth (source.includeDepth + 1) :: source.advance cursor :: rest⟩
      refine ⟨more, ?_⟩
      rw [trail_of_next hstep, hmore] at hhere
      exact (List.cons.inj hhere).2.symm
  · simp only [hcontent, Except.mapError, Archive.read_eq_error hcontent, Failure.orAt_of] at hstep
    refine ⟨?_, ?_⟩
    · rw [trail_of_failed hstep] at hhere
      exact (List.cons.inj hhere).2.symm
    · rw [parseSource_eq_error, hdrain, drain_of_failed hstep]

theorem literal_include_missing :
    let e := Server.engineOver [("conf/a.conf", "daemon off;")]
    let first := Source.ofFile ⟨"conf/main.conf"⟩ (Utf8.encode "\ninclude b.conf;".toList) 0 0
    (∃ s cursor later, e.trail (e.opening first) = [] ++ e.opening first :: later ∧
      first.cursor.next = (.ok (some s), cursor) ∧
      e.includesAt (e.opening first).stack s = true ∧
      Wildcard.isWild s.argument = false ∧ first.lendsWildcard s.argument = false ∧ later = []) ∧
      (e.parseSource first).2 =
        .error (.located (.notFound "conf/b.conf") ⟨"conf/main.conf", 2⟩) := by
  intro e first
  let archive := Archive.ofList [(⟨"conf/a.conf"⟩, Utf8.encode "daemon off;".toList)]
  let s : Statement :=
    ⟨[⟨"include", 2, false⟩, ⟨"b.conf", 2, false⟩], .semicolon, ⟨"conf/main.conf", 2⟩⟩
  have hread : first.cursor.next.1 = .ok (some s) := by decide +kernel
  have hnext : first.cursor.next = (.ok (some s), first.cursor.next.2) := Prod.ext hread rfl
  have hincludes : e.includesAt (e.opening first).stack s = true := by decide +kernel
  have hliteral : Wildcard.isWild s.argument = false := by decide +kernel
  have hlends : first.lendsWildcard s.argument = false := by decide +kernel
  have hresolve : first.resolve s.argument = ⟨"conf/b.conf"⟩ := by decide +kernel
  have hmissing : archive.read (first.resolve s.argument) = .error (.notFound "conf/b.conf") := by
    decide +kernel
  have hfiles : e.files = archive.files := rfl
  have hlimit : first.includeDepth < e.options.maxIncludeDepth := by decide +kernel
  obtain ⟨later, htrail⟩ := e.exists_trail (e.opening first)
  obtain ⟨-, hfail⟩ := literal_include e Server.finalized_reference archive hfiles first first
    [] [] later (e.opening first).stack s _ htrail hnext hincludes hlimit hliteral hlends
  obtain ⟨hlater, hfails⟩ := hfail _ hmissing
  rw [hresolve] at hfails
  exact ⟨⟨s, _, later, htrail, hnext, hincludes, hliteral, hlends, hlater⟩, hfails⟩

/-- A bracket in the name of a folder turns everything that is included there into patterns. -/
theorem literal_include_skipped :
    let e := Server.engineOver [("conf[1]/a.conf", "daemon off;")]
    let first := Source.ofFile ⟨"conf[1]/main.conf"⟩ (Utf8.encode "include a.conf;".toList) 0 0
    ∃ s log root, e.including? (e.opening first) = some (s, []) ∧
      Wildcard.isWild s.argument = false ∧
      e.files.read (first.resolve s.argument) = .ok (Utf8.encode "daemon off;".toList) ∧
      e.warning? (e.opening first) = some ⟨.warn, some ⟨"conf[1]/main.conf", 1⟩,
        "include pattern \"a.conf\" matched no files"⟩ ∧
      e.run (e.opening first) = (log, .ok root) := by
  intro e first
  let s : Statement :=
    ⟨[⟨"include", 1, false⟩, ⟨"a.conf", 1, false⟩], .semicolon, ⟨"conf[1]/main.conf", 1⟩⟩
  have hincluding : e.including? (e.opening first) = some (s, []) := by decide +kernel
  have hliteral : Wildcard.isWild s.argument = false := by decide +kernel
  have hread : e.files.read (first.resolve s.argument) =
      .ok (Utf8.encode "daemon off;".toList) := by decide +kernel
  have hwarning : e.warning? (e.opening first) = some ⟨.warn, some ⟨"conf[1]/main.conf", 1⟩,
      "include pattern \"a.conf\" matched no files"⟩ := by decide +kernel
  have hsucceeds : e.succeedsWithin 4 (e.opening first) = true := by decide +kernel
  obtain ⟨log, root, hrun⟩ := exists_run_of_succeedsWithin hsucceeds
  exact ⟨s, log, root, hincluding, hliteral, hread, hwarning, hrun⟩

end Engine

end ScopedConf
