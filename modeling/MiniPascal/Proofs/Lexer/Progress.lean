import MiniPascal.Proofs.Lexer.Line

/-!
# Progress and the end of the text

Whoever scans on and on, over tokens and failures alike, comes to the end of the text. A scan
that does not meet the end leaves a proper suffix of what was before it (`Lexer.suffix_scan`),
so that not more scans can go before the end than there are characters
(`Lexer.exists_meetsEnd`). And the end stays the end: the lexer that the first scan to meet it
leaves behind is one that a scan leaves as it is (`Lexer.scan_of_end`), in its text, its line
and its words.
-/

namespace MiniPascal

namespace Lexer

/-- The next scan of a lexer meets the end of its text. -/
def MeetsEnd (lexer : Lexer) : Prop :=
  lexer.scan.1 = .ok none

/-! ### Progress -/

/-- What is before a lexer after a scan is the end of what was before it. -/
theorem suffix_scan (lexer : Lexer) : lexer.scan.2.text <:+ lexer.text := by
  obtain ⟨passed, htext, -⟩ := passes_scan lexer
  exact ⟨passed, htext.symm⟩

/-- A lexer meets the end of its text after no more scans than there are characters before
    it. -/
theorem exists_meetsEnd (lexer : Lexer) :
    ∃ n ≤ lexer.text.length, (lexer.afterScans n).MeetsEnd := by
  -- What a scan leaves is shorter, so the induction is on the length of the text.
  induction hlength : lexer.text.length using Nat.strong_induction_on generalizing lexer with
  | _ length ih =>
    subst hlength
    by_cases hend : lexer.MeetsEnd
    · exact ⟨0, Nat.zero_le _, hend⟩
    · have hlt := length_scan_lt hend
      obtain ⟨n, hn, hmeets⟩ := ih _ hlt lexer.scan.2 rfl
      exact ⟨n + 1, Nat.lt_of_le_of_lt hn hlt, hmeets⟩

/-- The space before a text is passed over by the first scan, which finds what it would find
    without it. -/
theorem scan_ofText (text : String) :
    (ofText text).scan = scan ⟨text.toList, 1, .reserved⟩ := by
  have hblank : (ofText text).skipTrivia = skipTrivia ⟨text.toList, 1, .reserved⟩ :=
    skipTrivia_cons ' ' text.toList 1 .reserved
  rw [scan, scan, hblank]

theorem afterScans_ofText (text : String) (n : Nat) :
    (ofText text).afterScans (n + 1) = afterScans (n + 1) ⟨text.toList, 1, .reserved⟩ :=
  congrArg (afterScans n) (congrArg Prod.snd (scan_ofText text))

/-! ### The end -/

theorem scan_of_nil {lexer : Lexer} (h : lexer.text = []) : lexer.scan = (.ok none, lexer) := by
  obtain ⟨text, line, words⟩ := lexer
  subst h
  rw [scan, skipTrivia]

/-- Once the end is met, a scan meets it again and changes nothing. -/
theorem scan_of_end {lexer : Lexer} (h : lexer.MeetsEnd) :
    lexer.scan.2.scan = (.ok none, lexer.scan.2) :=
  scan_of_nil (text_of_scan_none (Prod.ext h rfl))

/-- The lexer that has met the end stays as it is, however many scans follow. -/
theorem afterScans_of_end {lexer : Lexer} {n m : Nat} (h : (lexer.afterScans n).MeetsEnd)
    (hm : n < m) : lexer.afterScans m = lexer.afterScans (n + 1) := by
  have hstays := scan_of_end h
  rw [← afterScans_succ] at hstays
  induction m, hm using Nat.le_induction with
  | base => rfl
  | succ m _ ih => rw [afterScans_succ, ih, hstays]

theorem meetsEnd_of_end {lexer : Lexer} {n m : Nat} (h : (lexer.afterScans n).MeetsEnd)
    (hm : n < m) : (lexer.afterScans m).MeetsEnd := by
  rw [MeetsEnd, afterScans_of_end h hm, afterScans_succ, scan_of_end h]

/-! ### From the beginning of a text -/

/-- A lexer that scans on from the beginning of a text, whatever comes of each scan, leaves
    less before it with every scan that yields a token or fails. After at most as many scans
    as the text has characters the next one meets the end, and every one after that meets it
    too and leaves the lexer as it is. -/
theorem scanning_progresses (text : String) :
    let after n := (ofText text).afterScans n
    (∀ n, (after n).scan.1 ≠ .ok none →
      (after (n + 1)).text <:+ (after n).text ∧
        (after (n + 1)).text.length < (after n).text.length) ∧
    (∃ n ≤ text.length, (after n).scan.1 = .ok none) ∧
    (∀ n, (after n).scan.1 = .ok none →
      ∀ m > n, (after m).scan.1 = .ok none ∧ after m = after (n + 1)) := by
  intro after
  refine ⟨fun n hn => ?_, ?_, fun n hn m hm => ⟨meetsEnd_of_end hn hm, afterScans_of_end hn hm⟩⟩
  · rw [show after (n + 1) = (after n).scan.2 from afterScans_succ n (ofText text)]
    exact ⟨suffix_scan _, length_scan_lt hn⟩
  · obtain ⟨n, hn, hmeets⟩ := exists_meetsEnd ⟨text.toList, 1, .reserved⟩
    rw [String.length_toList] at hn
    refine ⟨n, hn, ?_⟩
    cases n with
    | zero => exact (congrArg Prod.fst (scan_ofText text)).trans hmeets
    | succ n =>
      rw [show after (n + 1) = _ from afterScans_ofText text n]
      exact hmeets

/-- A name, a quote and a comment that are not closed: the second scan fails and makes
    progress, the fourth meets the end, and so does the eighth. -/
theorem scanning_progresses_over_failures :
    let after n := (ofText "a 'b \x7b c").afterScans n
    (after 1).scan.1 = .error (.lexical .malformedChar) ∧
      (after 2).text.length < (after 1).text.length ∧
      (after 3).scan.1 = .ok none ∧ (after 7).scan.1 = .ok none ∧ after 7 = after 4 := by
  intro after
  have hfails : (after 1).scan.1 = .error (.lexical .malformedChar) := by decide +kernel
  have hend : (after 3).scan.1 = .ok none := by decide +kernel
  obtain ⟨hprogress, -, hstays⟩ := scanning_progresses "a 'b \x7b c"
  obtain ⟨hmeets, hsame⟩ := hstays 3 hend 7 (by decide)
  exact ⟨hfails, (hprogress 1 (by rw [hfails]; simp)).2, hend, hmeets, hsame⟩

end Lexer

end MiniPascal
