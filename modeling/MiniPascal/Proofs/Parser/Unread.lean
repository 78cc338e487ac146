import MiniPascal.Proofs.Parser.Simulation

/-!
# What the parser has not read

Two streams that begin alike are checked alike as far as they do: what comes after the
scans that a run has pulled has no part in it (`run_check_of_unread`). The two beginnings
need to agree only in what the parser sees of a scan, which is its result and the line
after it.
-/

namespace MiniPascal

open Parsing

/-- What a parser sees of a scan. -/
def Scan.seen (scan : Scan) : Except ScanFailure (Option Token) × Nat :=
  (scan.result, scan.lexer.line)

/-- Two parsers are the same but for what comes after streams that begin alike. -/
structure Parser.SameBefore (rest rest' : List Scan) (s s' : Parser) : Prop where
  pending : ∃ before before', s.pending = before ++ rest ∧ s'.pending = before' ++ rest' ∧
    before.map Scan.seen = before'.map Scan.seen
  look : s.look = s'.look
  line : s.line = s'.line
  symbols : s.symbols = s'.symbols
  log : s.log = s'.log

namespace Parsing

variable {α : Type} {rest rest' : List Scan}

/-- Being the same before what comes after. A run is lost once it has read of that. -/
def beforeLikeness (rest rest' : List Scan) : Likeness where
  states := Parser.SameBefore rest rest'
  names := Eq
  stops e s e' s' := e = e' ∧ s.SameBefore rest rest' s'
  lost s := s.pending.length < rest.length

theorem pending_move (s : Parser) : (finalState (move.run s)).pending = s.pending.tail := by
  match h : s.pending with
  | [] => rw [run_move_nil h]; rfl
  | ⟨.ok next, lexer⟩ :: pending => rw [run_move_ok h]; rfl
  | ⟨.error failure, lexer⟩ :: pending =>
    rw [run_move_error h]
    cases failure <;> rfl

theorem respects_move (hne : rest ≠ []) : (beforeLikeness rest rest').Respects move move where
  alike {s s'} hs := by
    obtain ⟨before, before', hpending, hpending', hseen⟩ := hs.pending
    match before, before', hseen with
    | [], [], _ =>
      left
      rw [List.nil_append] at hpending
      change (finalState (move.run s)).pending.length < rest.length
      have := List.length_pos_iff.2 hne
      rw [pending_move, hpending, List.length_tail]
      omega
    | ⟨result, lexer⟩ :: before, ⟨result', lexer'⟩ :: before', hseen =>
      obtain ⟨hscan, htail⟩ := List.cons.inj hseen
      obtain ⟨rfl, hline⟩ := Prod.mk.inj hscan
      right
      match result with
      | .ok next =>
        rw [run_move_ok hpending, run_move_ok hpending', ← hline]
        refine ⟨rfl, ⟨before, before', rfl, rfl, htail⟩, rfl, rfl, hs.symbols, ?_⟩
        rw [atNext, atNext, hs.log]
      | .error failure =>
        rw [run_move_error hpending, run_move_error hpending', ← hline]
        cases failure <;>
          exact ⟨rfl, ⟨before, before', rfl, rfl, htail⟩, hs.look, rfl, hs.symbols, hs.log⟩
  lost {s} hs := by
    change (finalState (move.run s)).pending.length < rest.length
    have hs : s.pending.length < rest.length := hs
    rw [pending_move, List.length_tail]
    omega

theorem respects_onSymbols (operation : SymbolTable → SymbolTable.Response α) :
    (beforeLikeness rest rest').Respects (onSymbols operation) (onSymbols operation) where
  alike {s s'} hs := by
    have hsame : (answered s (operation s.symbols)).SameBefore rest rest'
        (answered s' (operation s'.symbols)) :=
      ⟨hs.pending, hs.look, hs.line, by rw [answered, answered, hs.symbols],
        by rw [answered, answered, hs.log, hs.symbols]⟩
    right
    cases hr : (operation s.symbols).result with
    | ok a =>
      rw [run_onSymbols_ok hr, run_onSymbols_ok (hs.symbols ▸ hr)]
      exact ⟨rfl, hsame⟩
    | error refusal =>
      rw [run_onSymbols_error hr, run_onSymbols_error (hs.symbols ▸ hr)]
      cases refusal <;> exact ⟨rfl, hsame⟩
  lost {s} hs := by
    cases hr : (operation s.symbols).result with
    | ok a =>
      rw [run_onSymbols_ok hr]
      exact hs
    | error refusal =>
      rw [run_onSymbols_error hr]
      cases refusal <;> exact hs

theorem respects_declare (name : String) (ty : Ty) :
    (beforeLikeness rest rest').Respects (declare name ty) (declare name ty) where
  alike {s s'} hs := by
    rw [run_declare, run_declare, hs.line, ← run_bind, ← run_bind]
    exact ((respects_onSymbols _).bind fun _ => .pure ()).alike hs
  lost {s} hs := by
    rw [run_declare, ← run_bind]
    exact ((respects_onSymbols _).bind fun _ => .pure ()).lost hs

/-- What comes after the scans that a run has pulled has no part in it. -/
def beforeSimulation (rest' : List Scan) (hne : rest ≠ []) : Simulation where
  toLikeness := beforeLikeness rest rest'
  kind hs := congrArg _ hs.look
  name hs hlook hlook' _ := by
    rw [hs.look, hlook'] at hlook
    exact congrArg Token.text (Option.some.inj hlook).symm
  total n := ⟨n, rfl⟩
  moves := respects_move hne
  failsSyntax _ hs := ⟨by rw [hs.look, hs.line], hs⟩
  failsSemantic hs hcause := ⟨by rw [hs.line, hcause.eq], hs⟩
  failsTooDeep hs := ⟨rfl, hs⟩
  enters hint := (respects_onSymbols _).bind fun _ => .pure ()
  leaves := respects_onSymbols _
  declares ty hname := by
    subst hname
    exact respects_declare _ ty
  looksUp hname := by
    subst hname
    refine (respects_onSymbols _).bind fun entry => ?_
    cases entry with
    | none => exact ⟨fun hs => .inr ⟨by rw [hs.line], hs⟩, id⟩
    | some entry => exact .pure _

/-- A check that pulls none of what comes after the beginning of its stream is the check of
    any stream that begins alike. -/
theorem run_check_of_unread (rest' : List Scan) {before before' : List Scan} (hne : rest ≠ [])
    (hseen : before.map Scan.seen = before'.map Scan.seen)
    (hunread : rest.length ≤ (finalState (check.run (.ofScans (before ++ rest)))).pending.length) :
    (beforeLikeness rest rest').Results (check.run (.ofScans (before ++ rest)))
      (check.run (.ofScans (before' ++ rest'))) := by
  have hstart : (Parser.ofScans (before ++ rest)).SameBefore rest rest'
      (.ofScans (before' ++ rest')) :=
    ⟨⟨before, before', rfl, rfl, hseen⟩, rfl, rfl, rfl, rfl⟩
  rcases (beforeSimulation rest' hne).respects_check.alike hstart with hlost | halike
  · exact absurd hlost (Nat.not_lt.2 hunread)
  · exact halike

end Parsing

end MiniPascal
