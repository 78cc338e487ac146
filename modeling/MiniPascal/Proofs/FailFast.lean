import MiniPascal.Proofs.Lexer.Stream
import MiniPascal.Proofs.Lexer.Unread
import MiniPascal.Proofs.Parser.Check
import MiniPascal.Proofs.Parser.Unread

/-!
# The first fault counts

A check ends with the first fault it finds, before it has read what comes after. So what
comes after cannot displace the fault: it is found in every text that begins with the
characters handed out by then (`fault?_append`).

The lexer reads no further than its current character (`Lexer.unreading_scan`), and the
parser pulls no scan beyond the token it looks at, so the checks of two texts that begin
alike go side by side (`run_check_of_unread`).
-/

namespace MiniPascal

open Parsing

/-- The scans that the check of a stream pulls. -/
def pulledScans (scans : List Scan) : List Scan :=
  scans.take (scans.length - (finalState (check.run (.ofScans scans))).pending.length)

/-- How many characters a text has handed out when its check ends, where its end counts as
    one more. A lexer holds its current character, the last one handed out, and those to
    come. -/
def handedOut (text : String) : Nat :=
  match (pulledScans (Lexer.ofText text).scans).getLast? with
  | none => 0
  | some scan => text.length + 1 - scan.lexer.text.length

namespace Lexer

/-- The scans of a text are those of any text that begins alike, as far as they stop within
    that beginning. -/
theorem scans_of_unread {x t : List Char} (t' : List Char) {line : Nat} {words : Words}
    {before rest : List Scan} {last : Scan}
    (h : scans ⟨x ++ t, line, words⟩ = before ++ last :: rest)
    (hlast : t.length < last.lexer.text.length) :
    ∃ before' rest', scans ⟨x ++ t', line, words⟩ = before' ++ rest' ∧
      (before ++ [last]).map Scan.seen = before'.map Scan.seen := by
  induction before generalizing x line words with
  | nil =>
    obtain ⟨rest₀, hrest₀⟩ := exists_scans_eq ⟨x ++ t, line, words⟩
    rw [hrest₀] at h
    obtain ⟨rfl, -⟩ := List.cons.inj h
    obtain ⟨result, y, line', words', hsame⟩ := unreading_scan x line words hlast
    obtain ⟨rest', hrest'⟩ := exists_scans_eq ⟨x ++ t', line, words⟩
    refine ⟨[_], rest', hrest', ?_⟩
    simp [Scan.seen, hsame t, hsame t']
  | cons first before ih =>
    by_cases hend : (scan ⟨x ++ t, line, words⟩).1 = .ok none
    · rw [scans_of_end hend] at h
      exact absurd (List.cons.inj h).2 (by simp)
    rw [scans_of_ne hend] at h
    obtain ⟨rfl, hrest⟩ := List.cons.inj h
    have hmem : last ∈ (scan ⟨x ++ t, line, words⟩).2.scans := by
      rw [hrest]
      exact List.mem_append_right _ List.mem_cons_self
    obtain ⟨result, y, line', words', hsame⟩ :=
      unreading_scan x line words (Nat.lt_of_lt_of_le hlast (length_of_mem_scans hmem))
    rw [hsame t] at hend hrest
    obtain ⟨before', rest', hscans, hseen⟩ := ih hrest
    refine ⟨⟨result, ⟨y ++ t', line', words'⟩⟩ :: before', rest', ?_, ?_⟩
    · rw [scans_of_ne (by rw [hsame t']; exact hend), hsame t', hscans]
      rfl
    · rw [List.cons_append, List.map_cons, List.map_cons, hseen, hsame t]
      rfl

end Lexer

/-- A stream is the scans that its check pulls and those that it leaves. -/
theorem exists_pulledScans (scans : List Scan) : ∃ rest, scans = pulledScans scans ++ rest ∧
    rest.length ≤ (finalState (check.run (.ofScans scans))).pending.length := by
  refine ⟨_, (List.take_append_drop _ scans).symm, ?_⟩
  rw [List.length_drop]
  omega

/-- A fault is found in every stream that is like the one it was found in as far as that was
    pulled. -/
theorem fault?_compileScans_append {before before' rest rest' : List Scan} {fault : Fault}
    (h : (compileScans (before ++ rest)).fault? = some fault) (hne : rest ≠ [])
    (hunread : rest.length ≤ (finalState (check.run (.ofScans (before ++ rest)))).pending.length)
    (hseen : before.map Scan.seen = before'.map Scan.seen) :
    (compileScans (before' ++ rest')).fault? = some fault := by
  have halike := run_check_of_unread rest' hne hseen hunread
  rw [fault?_compileScans_iff] at h ⊢
  rcases h with ⟨s, hrun⟩ | ⟨s, hrun, rfl⟩
  · rw [hrun] at halike
    cases hrun' : check.run (.ofScans (before' ++ rest')) with
    | ok _ s' =>
      rw [hrun'] at halike
      exact halike.elim
    | error e s' =>
      rw [hrun'] at halike
      obtain ⟨rfl, -⟩ := halike
      exact .inl ⟨s', rfl⟩
  · rw [hrun] at halike
    cases hrun' : check.run (.ofScans (before' ++ rest')) with
    | ok _ s' =>
      rw [hrun'] at halike
      exact halike.elim
    | error e s' =>
      rw [hrun'] at halike
      obtain ⟨rfl, hsame⟩ := halike
      exact .inr ⟨s', rfl, by rw [hsame.look, hsame.line]⟩

/-- What the check of a text rejects it with stands whatever comes after the characters that
    the text has handed out. -/
theorem fault?_append {p t : String} {fault : Fault}
    (h : (compile (p ++ t)).fault? = some fault) (hunread : handedOut (p ++ t) ≤ p.length)
    (t' : String) : (compile (p ++ t')).fault? = some fault := by
  have htext (t : String) : Lexer.ofText (p ++ t) =
      ⟨(' ' :: p.toList) ++ t.toList, 1, .reserved⟩ := by
    rw [Lexer.ofText, Lexer.ofChars, String.toList_append]
    rfl
  obtain ⟨ends, after, hends, hafter⟩ := Lexer.scans_ends (Lexer.ofText (p ++ t))
  rw [handedOut] at hunread
  rw [compile] at h ⊢
  generalize hscans : (Lexer.ofText (p ++ t)).scans = scans at h hunread hends
  obtain ⟨rest, hsplit, hrest⟩ := exists_pulledScans scans
  rw [hsplit] at h hrest
  -- A check that has pulled no scan has looked at nothing. Otherwise the last one pulled has
  -- left all of `t`, so the other text has the same scans up to it.
  rcases List.eq_nil_or_concat (pulledScans scans) with hnil | ⟨before, last, hlast⟩
  · have hne : rest ≠ [] := by
      rintro rfl
      rw [hnil, hends] at hsplit
      exact absurd hsplit (by simp)
    have hseen : (pulledScans scans).map Scan.seen = ([] : List Scan).map Scan.seen := by rw [hnil]
    exact fault?_compileScans_append h hne hrest hseen
  · have hleft : t.length < last.lexer.text.length := by
      rw [hlast, List.concat_eq_append, List.getLast?_concat] at hunread
      simp only [String.length_append] at hunread
      omega
    have hne : rest ≠ [] := by
      rintro rfl
      have hconcat := hends.symm.trans hsplit
      rw [hlast, List.append_nil, List.concat_eq_append] at hconcat
      obtain ⟨-, hlast'⟩ := List.append_inj' hconcat rfl
      rw [← List.singleton_inj.1 hlast', hafter] at hleft
      exact absurd hleft (Nat.not_lt_zero _)
    rw [hsplit, hlast, htext, List.concat_eq_append, List.append_assoc,
      List.singleton_append] at hscans
    obtain ⟨before', rest', hscans', hseen⟩ :=
      Lexer.scans_of_unread t'.toList hscans (String.length_toList ▸ hleft)
    rw [htext, hscans']
    exact fault?_compileScans_append h hne hrest (by rw [hlast, List.concat_eq_append, hseen])

/-- A comment that is never closed does not displace the fault of the tokens before it. -/
theorem fault?_before_comment :
    handedOut ("program end " ++ "x") ≤ "program end ".length ∧
      (compile ("program end " ++ "\x7b")).fault? =
        some ⟨.syntactic (.token .kwBegin) (some (.spelled .kwEnd)), some 1⟩ := by
  have hunread : handedOut ("program end " ++ "x") ≤ "program end ".length := by decide +kernel
  exact ⟨hunread, fault?_append (by decide +kernel) hunread "\x7b"⟩

end MiniPascal
