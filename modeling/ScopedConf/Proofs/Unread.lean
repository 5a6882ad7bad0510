import ScopedConf.Engine.Parse
import ScopedConf.Proofs.Ending
import ScopedConf.Proofs.Forms
import ScopedConf.Proofs.Server.Reference

/-! Text that is not read yet. Every statement is handled before the next one is read, so a parse
that fails at a statement fails in the same way whatever stands behind it. -/

namespace ScopedConf

open Grammar

variable {ρ : Type}

theorem Cursor.exists_front_of_next {c d : Cursor} {s : Statement}
    (h : c.next = (.ok (some s), d)) :
    ∃ front, c.rest = front ++ d.rest ∧ ∀ rest : List UInt8,
      Cursor.next { c with rest := front ++ rest } = (.ok (some s), { d with rest := rest }) := by
  obtain ⟨written, hform, hrest, hd⟩ := form_of_next h
  refine ⟨written, hrest, fun rest => ?_⟩
  have hnext := next_of_form (c := { c with rest := written ++ rest }) hform rfl
  rw [hnext, hd]
  rfl

def Source.before (source : Source) (rest : List UInt8) : Source :=
  source.advance { source.cursor with rest := rest }

/-- The bytes behind the statement of the outermost source that the next step handles or, if this
step reads another source, behind the one that led there. -/
def State.unread? (state : State ρ) : Option (List UInt8) :=
  match state.sources with
  | [source] =>
    match source.cursor.next with
    | (.ok (some _), cursor) => some cursor.rest
    | _ => none
  | sources => sources.getLast?.map fun source => source.cursor.rest

theorem State.exists_of_unread? {stack : Stack ρ} {source : Source} {unread : List UInt8}
    (h : State.unread? ⟨stack, [source]⟩ = some unread) :
    ∃ s cursor, source.cursor.next = (.ok (some s), cursor) ∧ cursor.rest = unread := by
  simp only [unread?] at h
  split at h
  · next s cursor hnext => exact ⟨s, cursor, hnext, Option.some.inj h⟩
  · simp at h

theorem State.unread?_append {stack : Stack ρ} {inner : List Source} (h : inner ≠ [])
    (outer : Source) : State.unread? ⟨stack, inner ++ [outer]⟩ = some outer.cursor.rest := by
  obtain ⟨source, inner, rfl⟩ := List.exists_cons_of_ne_nil h
  cases inner with
  | nil => rfl
  | cons next inner =>
    change ((source :: next :: inner ++ [outer]).getLast?.map fun source => source.cursor.rest) = _
    rw [List.getLast?_concat, Option.map_some]

namespace Engine

variable {e : Engine ρ} {state next last : State ρ} {stack : Stack ρ} {inner : List Source}
  {outer : Source} {log : Log} {f : Failure} {s : Statement} {s? : Option Statement}
  {cursor : Cursor} {unread rest later : List UInt8}

theorem step_before (e : Engine ρ) (stack : Stack ρ)
    (h : Cursor.next { outer.cursor with rest := rest } =
      (.ok (some s), { cursor with rest := later })) :
    e.step ⟨stack, [outer.before rest]⟩ =
      match e.handle outer stack s with
      | (log, .error f) => (log, .failed (f.orAt s.location))
      | (log, .ok (stack, opened)) =>
        (log, .next (some s) ⟨stack, opened ++ [(outer.advance cursor).before later]⟩) := by
  rw [e.step_of_statement stack [] (show (outer.before rest).cursor.next = _ from h)]
  rfl

theorem exists_front_of_failed (hfailed : e.step ⟨stack, inner ++ [outer]⟩ = (log, .failed f))
    (hunread : State.unread? (⟨stack, inner ++ [outer]⟩ : State ρ) = some unread) :
    ∃ front, outer.cursor.rest = front ++ unread ∧ ∀ rest,
      e.step ⟨stack, inner ++ [outer.before (front ++ rest)]⟩ = (log, .failed f) := by
  by_cases hinner : inner = []
  · subst hinner
    rw [List.nil_append] at hfailed hunread
    obtain ⟨s, cursor, hnext, rfl⟩ := State.exists_of_unread? hunread
    obtain ⟨front, hfront, hother⟩ := Cursor.exists_front_of_next hnext
    refine ⟨front, hfront, fun rest => ?_⟩
    rw [e.step_of_statement stack [] hnext] at hfailed
    rw [List.nil_append, e.step_before stack (hother rest)]
    cases hhandle : e.handle outer stack s with
    | mk log' result =>
      rw [hhandle] at hfailed
      cases result with
      | error g => exact hfailed
      | ok handled => simp at hfailed
  · rw [State.unread?_append hinner] at hunread
    have hstep : ∀ source, e.step ⟨stack, inner ++ [source]⟩ = _ :=
      fun source => e.step_append ⟨stack, inner⟩ [source] hinner
    refine ⟨[], Option.some.inj hunread, fun rest => ?_⟩
    rw [hstep] at hfailed ⊢
    cases hresult : (e.step ⟨stack, inner⟩).2 with
    | failed g =>
      rw [hresult] at hfailed
      exact hfailed
    | done => simp [hresult, Step.behind] at hfailed
    | next s? next => simp [hresult, Step.behind] at hfailed

theorem exists_front_of_next (hstep : e.step ⟨stack, inner ++ [outer]⟩ = (log, .next s? next)) :
    next.sources = [] ∨ ∃ inner' outer', next.sources = inner' ++ [outer'] ∧
      ∃ front, outer.cursor.rest = front ++ outer'.cursor.rest ∧ ∀ rest,
        e.step ⟨stack, inner ++ [outer.before (front ++ rest)]⟩ =
          (log, .next s? ⟨next.stack, inner' ++ [outer'.before rest]⟩) := by
  by_cases hinner : inner = []
  · subst hinner
    rw [List.nil_append] at hstep
    cases s? with
    | none =>
      obtain ⟨source, sources, cursor, hsources, -, -, rfl⟩ := eq_of_step_ended hstep
      obtain ⟨-, rfl⟩ := List.cons.inj hsources
      exact .inl rfl
    | some s =>
      obtain ⟨source, sources, cursor, opened, hsources, hnext, hhandle, hopened⟩ :=
        eq_of_step_statement hstep
      obtain ⟨rfl, rfl⟩ := List.cons.inj hsources
      obtain ⟨front, hfront, hother⟩ := Cursor.exists_front_of_next hnext
      refine .inr ⟨opened, _, hopened, front, hfront, fun rest => ?_⟩
      rw [handle_advance] at hhandle
      rw [List.nil_append, e.step_before stack (hother rest), hhandle]
  · have happend : ∀ source, e.step ⟨stack, inner ++ [source]⟩ = _ :=
      fun source => e.step_append ⟨stack, inner⟩ [source] hinner
    rw [happend] at hstep
    cases hresult : (e.step ⟨stack, inner⟩).2 with
    | done => simp [hresult, Step.behind] at hstep
    | failed g => simp [hresult, Step.behind] at hstep
    | next t? inside =>
      simp only [hresult, Step.behind, Prod.mk.injEq, Step.next.injEq] at hstep
      obtain ⟨rfl, rfl, rfl⟩ := hstep
      refine .inr ⟨inside.sources, outer, rfl, [], rfl, fun rest => ?_⟩
      rw [happend, hresult]
      rfl

theorem sources_of_after {n : Nat} (h : e.after n state = some last)
    (hsources : state.sources = []) : last.sources = [] := by
  cases n with
  | zero => rwa [← Option.some.inj h]
  | succ n => simp [after, step, hsources] at h

/-- A run that fails at a statement of the outermost source, or in what it includes, does so with
other bytes behind the statement, and reports the same. -/
theorem exists_front_of_after (inner : List Source) {n : Nat}
    (hlast : e.after n ⟨stack, inner ++ [outer]⟩ = some last)
    (hfailed : e.step last = (log, .failed f)) (hunread : last.unread? = some unread) :
    ∃ front, outer.cursor.rest = front ++ unread ∧ ∃ reports, ∀ rest,
      e.drain ⟨stack, inner ++ [outer.before (front ++ rest)]⟩ = (reports, .error f) := by
  induction n generalizing stack inner outer with
  | zero =>
    obtain rfl := Option.some.inj hlast
    obtain ⟨front, hfront, hsame⟩ := exists_front_of_failed hfailed hunread
    exact ⟨front, hfront, log, fun rest => drain_of_failed (hsame rest)⟩
  | succ n ih =>
    rw [after] at hlast
    split at hlast
    · next log' s? next hstep =>
      rcases exists_front_of_next hstep with hsources | ⟨inner', outer', hsources, hpassed⟩
      · have hnone := sources_of_after hlast hsources
        simp [step, hnone] at hfailed
      · obtain ⟨passed, houter, hsame⟩ := hpassed
        obtain ⟨nextStack, sources⟩ := next
        simp only at hsources hsame
        subst hsources
        obtain ⟨front, hfront, reports, hdrain⟩ := ih _ hlast
        refine ⟨passed ++ front, by rw [houter, hfront, List.append_assoc], log' ++ reports,
          fun rest => ?_⟩
        rw [List.append_assoc, drain_of_next (hsame (front ++ rest)), Outcome.bind, hdrain rest]
    · simp at hlast

/-- A parse that fails at a statement of its own text, or in a file that this statement includes,
fails in the same way with any other text behind the statement, and with the same reports. -/
theorem failure_ignores_unread (e : Engine ρ) [Record ρ] (name front back : String) (n : Nat)
    (last : State ρ) (log : Log) (f : Failure)
    (hlast : e.after n (e.opening (.ofText name (Utf8.encode (front ++ back).toList))) = some last)
    (hfailed : e.step last = (log, .failed f))
    (hunread : last.unread? = some (Utf8.encode back.toList)) (other : String) :
    (e.parseText name (front ++ other)).2 = .error f ∧
      e.parseText name (front ++ other) = e.parseText name (front ++ back) := by
  obtain ⟨bytes, hbytes, reports, hdrain⟩ := exists_front_of_after [] hlast hfailed hunread
  have hencode : ∀ text, Utf8.encode (front ++ text).toList =
      Utf8.encode front.toList ++ Utf8.encode text.toList := by
    intro text
    rw [Utf8.encode, String.toList_append, List.flatMap_append]
    rfl
  have hfront : bytes = Utf8.encode front.toList := by
    have hrest : Utf8.encode (front ++ back).toList = bytes ++ Utf8.encode back.toList := hbytes
    rw [hencode] at hrest
    exact (List.append_cancel_right hrest).symm
  have hparse : ∀ text, e.parseText name (front ++ text) = concluded name (reports, .error f) := by
    intro text
    have hsame := hdrain (Utf8.encode text.toList)
    rw [hfront, ← hencode] at hsame
    have hrun : e.drain (e.opening (.ofText name (Utf8.encode (front ++ text).toList))) =
        (reports, .error f) := hsame
    change concluded name
      (e.run (e.opening (.ofText name (Utf8.encode (front ++ text).toList)))) = _
    rw [run, hrun]
    rfl
  rw [hparse other, hparse back]
  exact ⟨rfl, rfl⟩

theorem failure_ignores_unread_included :
    let e := Server.engineOver [("a.conf", "sendfile on;\nbogus;")]
    let front := "http \x7b include a.conf;"
    let f : Failure := .located (.unknownDirective "bogus") ⟨"a.conf", 2⟩
    ∃ last log,
      e.after 3 (e.opening (.ofText "server.conf" (Utf8.encode (front ++ " \x7d").toList))) =
        some last ∧ e.step last = (log, .failed f) ∧
      last.unread? = some (Utf8.encode " \x7d".toList) ∧
      (e.parseText "server.conf" (front ++ "; 'never closed")).2 = .error f ∧
      e.parseText "server.conf" (front ++ "; 'never closed") =
        e.parseText "server.conf" (front ++ " \x7d") := by
  intro e front f
  have hafter : (e.after 3 (e.opening (.ofText "server.conf"
      (Utf8.encode (front ++ " \x7d").toList)))).any (fun last =>
        last.unread? = some (Utf8.encode " \x7d".toList) &&
          match (e.step last).2 with
          | .failed g => g = f
          | _ => false) = true := by decide +kernel
  obtain ⟨last, hlast, hstep⟩ := (Option.any_eq_true _ _).mp hafter
  rw [Bool.and_eq_true, decide_eq_true_iff] at hstep
  obtain ⟨hunread, hfails⟩ := hstep
  split at hfails
  · next g hg =>
    obtain rfl := of_decide_eq_true hfails
    have hfailed : e.step last = ((e.step last).1, .failed f) := Prod.ext rfl hg
    have hsame := failure_ignores_unread e "server.conf" front " \x7d" 3 last _ f hlast hfailed
      hunread "; 'never closed"
    exact ⟨last, _, hlast, hfailed, hunread, hsame⟩
  · simp at hfails

end Engine

end ScopedConf
