import MiniPascal.Compile
import MiniPascal.Proofs.Parser.Judgement

/-!
# The check of a stream

What the check of a stream of scans comes to, in terms of the tokens of the stream: the
contracts of the parser's procedures from the first token on.

* `derivable_of_check`, `viable_of_check`: what is accepted is a program, and a fault of
  syntax is found with the beginning of one behind the parser;
* `judges_check`: a program is judged by the rules of scopes and types.
-/

namespace MiniPascal

open Parsing

/-! ### Outcomes -/

/-- Whether a fault is that of nesting too deep. -/
def Fault.isTooDeep : Fault → Bool
  | ⟨.syntactic .lessNesting _, _⟩ => true
  | _ => false

namespace Compilation

/-- A check accepts its text. -/
def Accepts (c : Compilation) : Prop :=
  ∃ table, c.outcome = .ok (.accepted table)

/-- The fault that a check rejects its text with, if it does. -/
def fault? (c : Compilation) : Option Fault :=
  match c.outcome with
  | .ok verdict => verdict.fault?
  | .error _ => none

/-- A check gives its text up for nesting too deep. -/
def TooDeep (c : Compilation) : Prop :=
  c.fault?.any Fault.isTooDeep

instance (c : Compilation) : Decidable c.TooDeep :=
  inferInstanceAs (Decidable (c.fault?.any Fault.isTooDeep = true))

instance (c : Compilation) : Decidable c.Accepts :=
  match h : c.outcome with
  | .ok (.accepted table) => isTrue ⟨table, h⟩
  | .ok (.rejected _) => isFalse fun ⟨_, h'⟩ => by rw [h] at h'; cases h'
  | .error _ => isFalse fun ⟨_, h'⟩ => by rw [h] at h'; cases h'

end Compilation

/-- A check of a stream accepts if its run ends. -/
theorem accepts_compileScans_iff {scans : List Scan} :
    (compileScans scans).Accepts ↔ ∃ s, check.run (.ofScans scans) = .ok () s := by
  rw [compileScans]
  cases hr : check.run (.ofScans scans) with
  | ok _ s => exact ⟨fun _ => ⟨s, rfl⟩, fun _ => ⟨s.symbols, rfl⟩⟩
  | error e s =>
    refine ⟨?_, fun ⟨_, h⟩ => (by cases h)⟩
    rintro ⟨table, h⟩
    cases e <;> cases h

/-- A check of a stream finds a fault where its run is interrupted by it, or by nesting. -/
theorem fault?_compileScans_iff {scans : List Scan} {fault : Fault} :
    (compileScans scans).fault? = some fault ↔
      (∃ s, check.run (.ofScans scans) = .error (.fault fault) s) ∨
        ∃ s, check.run (.ofScans scans) = .error .tooDeep s ∧
          fault = ⟨.syntactic .lessNesting s.look, some s.line⟩ := by
  rw [compileScans]
  match check.run (.ofScans scans) with
  | .ok _ s => exact ⟨fun h => (by cases h), by rintro (⟨_, h⟩ | ⟨_, h, -⟩) <;> cases h⟩
  | .error (.fault fault') s =>
    refine ⟨fun h => ?_, by rintro (⟨_, h⟩ | ⟨_, h, -⟩) <;> cases h; rfl⟩
    cases h
    exact .inl ⟨s, rfl⟩
  | .error (.abort abort) s =>
    exact ⟨fun h => (by cases h), by rintro (⟨_, h⟩ | ⟨_, h, -⟩) <;> cases h⟩
  | .error .tooDeep s =>
    refine ⟨fun h => ?_, ?_⟩
    · cases h
      exact .inr ⟨s, rfl, rfl⟩
    · rintro (⟨_, h⟩ | ⟨_, h, rfl⟩) <;> cases h
      rfl

/-! ### Contracts -/

/-- A parser that looks at the first token of a stream, in the global scope. -/
structure Parser.Started (scans : List Scan) (s : Parser) : Prop where
  ahead : s.ahead = Scan.tokens scans
  failure : s.failure? = Scan.failure? scans
  scanned : s.scanned = s.look.toList
  pulled : scans.length ≤ s.pending.length + 1
  env : s.symbols.env = [[]]

namespace Parsing

theorem run_start (scans : List Scan) :
    (∃ s : Parser, start.run (.ofScans scans) = .ok () s ∧ s.Started scans) ∨
      ∃ failure line s, Scan.failure? scans = some failure ∧
        start.run (.ofScans scans) = (failScan line failure).run s := by
  match scans with
  | [] => exact .inl ⟨_, rfl, rfl, rfl, rfl, by simp, rfl⟩
  | ⟨.ok none, lexer⟩ :: scans => exact .inl ⟨_, rfl, rfl, rfl, rfl, by simp, rfl⟩
  | ⟨.ok (some token), lexer⟩ :: scans => exact .inl ⟨_, rfl, rfl, rfl, rfl, by simp, rfl⟩
  | ⟨.error failure, lexer⟩ :: scans =>
    refine .inr ⟨failure, lexer.line, { Parser.ofScans scans with line := lexer.line }, rfl, ?_⟩
    rw [start, run_bind, run_move_error rfl]
    cases failure <;> rfl

/-- A check starts with the first token of its stream, unless the first scan fails. -/
theorem run_check (scans : List Scan) :
    (∃ s : Parser, s.Started scans ∧
      check.run (.ofScans scans) = (parse nestedParts).run s) ∨
      ∃ failure line s, Scan.failure? scans = some failure ∧
        check.run (.ofScans scans) = (failScan line failure).run s := by
  rw [check, run_bind]
  rcases run_start scans with ⟨s, hrun, hs⟩ | ⟨failure, line, s, hfailure, hrun⟩
  · exact .inl ⟨s, hs, by rw [hrun, bind_ok]⟩
  · refine .inr ⟨failure, line, s, hfailure, ?_⟩
    rw [hrun]
    cases failure <;> rfl

/-- A parser that has passed `u` since its start has scanned `u` and the token it looks at. -/
theorem scanned_of_passes {scans : List Scan} {s s' : Parser} {u : List Token}
    (hs : s.Started scans) (h : s.Passes u s') : s'.scanned = u ++ s'.look.toList := by
  obtain ⟨new, hnew, hu⟩ := h.scanned
  rw [hnew, hs.scanned, hu]

/-- What is accepted is a program. -/
theorem derivable_of_check {scans : List Scan} {s : Parser}
    (h : check.run (.ofScans scans) = .ok () s) :
    Derivable (Scan.tokens scans) ∧ Scan.failure? scans = none := by
  rcases run_check scans with ⟨s₀, hs₀, hrun⟩ | ⟨failure, line, s₀, -, hrun⟩
  · rw [hrun] at h
    obtain ⟨u, hu, p, hp⟩ : ReadsFrom programLanguage s₀ (.ok () s) :=
      h ▸ (reads_parse (nestedReads nestingBudget)).run s₀
    have hlook := look_of_run_parse h
    have hahead : s.ahead = [] := by rw [Parser.ahead, hlook]
    have htokens : Scan.tokens scans = u := by
      rw [← hs₀.ahead, hu.ahead, hahead, List.append_nil]
    refine ⟨⟨p, ?_⟩, ?_⟩
    · rw [Program.Derives, htokens, hp]
    · rw [← hs₀.failure, hu.failure, Parser.failure?, hlook]
  · rw [hrun] at h
    cases failure <;> cases h

/-- Where a fault of syntax is found: the tokens before the one found begin a program, and
    no scan is pulled after it. -/
theorem viable_of_check {scans : List Scan} {expectation : Expectation} {found : Option Token}
    {line : Option Int} {s : Parser}
    (h : check.run (.ofScans scans) = .error (.fault ⟨.syntactic expectation found, line⟩) s) :
    ∃ before, Viable before ∧ Scan.tokens scans = before ++ s.ahead ∧
      Scan.failure? scans = s.failure? ∧ s.look = found ∧
      s.scanned = before ++ found.toList ∧
      scans.length ≤ s.pending.length + (before.length + 1) := by
  rcases run_check scans with ⟨s₀, hs₀, hrun⟩ | ⟨failure, line', s₀, -, hrun⟩
  · rw [hrun] at h
    obtain ⟨rfl, u, w, hu, p, hp⟩ : ReadsFrom programLanguage s₀ (.error _ s) :=
      h ▸ (reads_parse (nestedReads nestingBudget)).run s₀
    -- The tokens passed are the beginning of a program's word, and tokens spell the rest.
    refine ⟨u, viable_of_yield hp.symm, ?_, ?_, rfl, scanned_of_passes hs₀ hu, ?_⟩
    · rw [← hs₀.ahead, hu.ahead]
    · rw [← hs₀.failure, hu.failure]
    · have hpulled := hs₀.pulled
      have hpulled' := hu.pulled
      omega
  · rw [hrun] at h
    cases failure <;> cases h

/-- A program is judged by the rules. -/
theorem judges_check {p : Program} {scans : List Scan} (h : p.Derives (Scan.tokens scans))
    (hfailure : Scan.failure? scans = none) :
    Judged [] [] (allowed p.WellTyped) (check.run (.ofScans scans)) := by
  rcases run_check scans with ⟨s, hs, hrun⟩ | ⟨failure, line, s, hsome, -⟩
  · have hat : s.At [[]] (Scan.tokens scans) := ⟨hs.ahead, hs.failure.trans hfailure, hs.env⟩
    have hend : Judges [declBindings p.decls] [] (do
        if (← get).look.isSome then failSyntax .endOfText
        leaveScope) (some ()) [] [] := by
      intro s hs
      rw [run_bind, EStateM.run_get, bind_ok, hs.look]
      exact judges_leaveScope _ s hs
    rw [hrun]
    exact (judges_program p nestingBudget h).keep (fun _ => hend) s hat
  · rw [hfailure] at hsome
    cases hsome

end Parsing

end MiniPascal
