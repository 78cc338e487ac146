import MiniPascal.Lexer.Stream
import MiniPascal.Proofs.Lexer.Unread

/-!
# The course of a stream

The scans of a lexer one after another: the lexer after each of them is closer to the end
of the text (`length_of_mem_scans`), which the last one meets (`scans_ends`).
-/

namespace MiniPascal

namespace Lexer

/-- A lexer at the end of its text has one scan left. -/
theorem scans_of_end {lexer : Lexer} (h : lexer.scan.1 = .ok none) :
    lexer.scans = [⟨lexer.scan.1, lexer.scan.2⟩] := by
  rw [scans]
  split <;> next hscan => simp_all

theorem scans_of_ne {lexer : Lexer} (h : lexer.scan.1 ≠ .ok none) :
    lexer.scans = ⟨lexer.scan.1, lexer.scan.2⟩ :: lexer.scan.2.scans := by
  rw [scans]
  split <;> next hscan => simp_all

theorem exists_scans_eq (lexer : Lexer) :
    ∃ rest, lexer.scans = ⟨lexer.scan.1, lexer.scan.2⟩ :: rest := by
  by_cases h : lexer.scan.1 = .ok none
  · exact ⟨[], scans_of_end h⟩
  · exact ⟨_, scans_of_ne h⟩

theorem length_scan_le_length (lexer : Lexer) : lexer.scan.2.text.length ≤ lexer.text.length :=
  Nat.le_trans (length_scan_le lexer) (length_skipTrivia_le lexer)

/-- The lexer after a scan of a stream is no farther from the end of the text. -/
theorem length_of_mem_scans {lexer : Lexer} {scan : Scan} (h : scan ∈ lexer.scans) :
    scan.lexer.text.length ≤ lexer.text.length := by
  fun_induction scans lexer with
  | case1 lexer after hscan =>
    obtain rfl := List.mem_singleton.1 h
    have hle := length_scan_le_length lexer
    rwa [hscan] at hle
  | case2 lexer token after hscan ih | case3 lexer failure after hscan ih =>
    have hle := length_scan_le_length lexer
    rw [hscan] at hle
    rcases List.mem_cons.1 h with rfl | h
    · exact hle
    · exact Nat.le_trans (ih h) hle

theorem text_of_scan_none {lexer after : Lexer} (h : lexer.scan = (.ok none, after)) :
    after.text = [] := by
  rw [scan] at h
  split at h
  · cases h
  · next before _ =>
    split at h
    · next hnil =>
      cases h
      exact hnil
    · next c rest _ =>
      cases hresult : (before.scanLexeme c rest).1 <;> simp [hresult, Except.map] at h

/-- The stream of a lexer ends with the scan that meets the end of the text. -/
theorem scans_ends (lexer : Lexer) :
    ∃ before after, lexer.scans = before ++ [⟨.ok none, after⟩] ∧ after.text = [] := by
  fun_induction scans lexer with
  | case1 lexer after h => exact ⟨[], after, rfl, text_of_scan_none h⟩
  | case2 lexer token after h ih | case3 lexer failure after h ih =>
    obtain ⟨before, last, hscans, htext⟩ := ih
    exact ⟨_ :: before, last, by rw [hscans]; rfl, htext⟩

end Lexer

end MiniPascal
