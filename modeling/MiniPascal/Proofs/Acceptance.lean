import MiniPascal.Proofs.Parser.Check

/-!
# What is accepted

A text whose tokens can all be scanned is accepted exactly if they are derived by a
program that obeys the rules of scopes and types, unless it nests too deep for the
parser (`accepts_iff`). The grammar and the rules know nothing of how programs are
read: see `MiniPascal.Proofs.Grammar` and `MiniPascal.Proofs.Typing`.
-/

namespace MiniPascal

open Parsing

/-- A stream that holds the tokens of a program is accepted exactly if the program obeys the
    rules of scopes and types. -/
theorem accepts_compileScans_of_derives {p : Program} {scans : List Scan}
    (h : p.Derives (Scan.tokens scans)) (hfailure : Scan.failure? scans = none)
    (hdeep : ¬ (compileScans scans).TooDeep) : (compileScans scans).Accepts ↔ p.WellTyped := by
  have hjudged := judges_check h hfailure
  rw [accepts_compileScans_iff]
  rw [compileScans] at hdeep
  generalize check.run (.ofScans scans) = r at hjudged hdeep ⊢
  cases r with
  | ok _ s =>
    obtain ⟨-, hanswer⟩ := hjudged
    exact ⟨fun _ => allowed_eq_some_iff.1 hanswer, fun _ => ⟨s, rfl⟩⟩
  | error e s =>
    cases e with
    | fault fault =>
      obtain ⟨cause, line⟩ := fault
      cases cause with
      | semantic =>
        constructor
        · rintro ⟨_, h⟩
          cases h
        · intro hp
          exact absurd hp (allowed_eq_none_iff.1 hjudged)
      | lexical | syntactic => exact hjudged.elim
    | abort => exact hjudged.elim
    | tooDeep => exact absurd rfl hdeep

/-- A text is accepted exactly if its tokens are derived by a program that obeys the rules
    of scopes and types. -/
theorem accepts_iff {text : String} (hscan : (tokenize text).failure = none)
    (hdeep : ¬ (compile text).TooDeep) :
    (compile text).Accepts ↔
      ∃ p : Program, p.Derives ((tokenize text).rows.map Prod.snd) ∧ p.WellTyped := by
  have htokens : (tokenize text).rows.map Prod.snd = Scan.tokens (Lexer.ofText text).scans :=
    Tokenization.rows_ofScans ..
  have hfailure : Scan.failure? (Lexer.ofText text).scans = none :=
    (Tokenization.failure_ofScans ..).symm.trans hscan
  rw [htokens]
  constructor
  · intro h
    obtain ⟨s, hs⟩ := accepts_compileScans_iff.1 h
    obtain ⟨p, hp⟩ := (derivable_of_check hs).1
    exact ⟨p, hp, (accepts_compileScans_of_derives hp hfailure hdeep).1 h⟩
  · rintro ⟨p, hp, hwell⟩
    exact (accepts_compileScans_of_derives hp hfailure hdeep).2 hwell

/-- A text that declares a name and assigns to it is that of a program. -/
theorem accepts_assignment :
    (tokenize "program int: a; begin a = a end").failure = none ∧
      ¬ (compile "program int: a; begin a = a end").TooDeep ∧
        ∃ p : Program,
          p.Derives ((tokenize "program int: a; begin a = a end").rows.map Prod.snd) ∧
            p.WellTyped := by
  have hscan : (tokenize "program int: a; begin a = a end").failure = none := by decide +kernel
  have hdeep : ¬ (compile "program int: a; begin a = a end").TooDeep := by decide +kernel
  exact ⟨hscan, hdeep, (accepts_iff hscan hdeep).1 (by decide +kernel)⟩

end MiniPascal
