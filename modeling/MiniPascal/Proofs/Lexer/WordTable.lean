import MiniPascal.Proofs.Lexer.Line

/-!
# What a lexer has learned

A lexer starts out with the reserved words and learns names from the text. What it knows after
any number of scans, failed ones among them, is told by the names that they have yielded: the
reserved words and then each of those names once, in the order in which they first appeared
(`Lexer.words_afterScans`). A name is looked up under itself and found as itself, and a reserved
word is never replaced, so a word yields the same token early and late (`Lexer.word_table`).

Only a word makes a lexer look into its table or change it. What a single scan may do there is
listed once (`Lexer.WordStep`), and the course of many scans follows by induction.
-/

namespace MiniPascal

open Text

/-! ### Reserved words and names after them -/

/-- The table of the reserved words with names stored after them. -/
def Words.withNames (names : List Payload) : Words :=
  ⟨Words.reserved.entries ++ names.map fun name => (name, ⟨.ident, name⟩)⟩

namespace Words

theorem added_withNames (names : List Payload) : (withNames names).added = names := by
  have hlength : Words.reserved.entries.length = Kind.reservedWords.length := List.length_map _
  rw [added, withNames, List.drop_left' hlength, List.map_map]
  exact List.map_id' names

/-- A name is known if it was stored, or reserved. -/
theorem get?_withNames (names : List Payload) (key : Payload) :
    (withNames names).get? key =
      (Words.reserved.get? key).or (if key ∈ names then some ⟨.ident, key⟩ else none) := by
  rw [get?, withNames, List.lookup_append, ← get?]
  congr 1
  induction names with
  | nil => rfl
  | cons name names ih =>
    rw [List.map_cons, Association.lookup_cons_eq_ite, ih]
    by_cases h : key = name
    · simp [h]
    · simp [h]

/-- The words that a lexer knows to begin with are the reserved ones. -/
theorem get?_reserved_eq_some {key : Payload} {token : Token}
    (h : Words.reserved.get? key = some token) :
    ∃ kind ∈ Kind.reservedWords, key = .text kind.text ∧ token = .spelled kind := by
  obtain ⟨before, after, hentries, -⟩ := List.lookup_eq_some_iff.1 h
  have hmem : (key, token) ∈ Words.reserved.entries := by
    rw [hentries]
    exact List.mem_append_right _ List.mem_cons_self
  obtain ⟨kind, hkind, hentry⟩ := List.mem_map.1 hmem
  obtain ⟨hkey, htoken⟩ := Prod.mk.inj hentry
  exact ⟨kind, hkind, hkey.symm, htoken.symm⟩

/-- A name that was not known is stored after the others. -/
theorem insert_withNames {names : List Payload} {name : String}
    (h : (withNames names).get? (.text name) = none) :
    (withNames names).insert (.ident name) = withNames (names ++ [.text name]) := by
  have hset : Association.set (Payload.text name) (Token.ident name) (withNames names).entries =
      (withNames names).entries ++ [(Payload.text name, Token.ident name)] :=
    Association.set_of_lookup_eq_none _ h
  rw [insert, show (Token.ident name).payload = .text name from rfl, hset, withNames, withNames,
    List.map_append, List.append_assoc]
  rfl

end Words

/-- In a list without repetitions, an element more comes last, unless it is there already. -/
theorem eraseDups_concat {α : Type} [BEq α] [LawfulBEq α] (l : List α) (a : α) :
    (l ++ [a]).eraseDups = if a ∈ l then l.eraseDups else l.eraseDups ++ [a] := by
  rw [List.eraseDups_append]
  by_cases h : a ∈ l
  · simp [h, List.removeAll]
  · simp [h, List.removeAll, List.eraseDups_cons]

namespace Lexer

/-! ### What a scan does to the words -/

/-- The name that a scan yields, if it yields one. -/
def nameOf? : Except ScanFailure (Option Token) → Option Payload
  | .ok (some token) => if token.kind = .ident then some token.payload else none
  | _ => none

/-- What a scan may yield, given the words that are known before it, and what it makes of them.
    A word that is known is left as it is, and one that is not is stored as a name. -/
inductive WordStep (words : Words) : Except ScanFailure (Option Token) → Words → Prop
  | other {result : Except ScanFailure (Option Token)} : nameOf? result = none →
    WordStep words result words
  | known {lexeme : String} {token : Token} : words.get? (.text lexeme) = some token →
    WordStep words (.ok (some token)) words
  | learned {lexeme : String} : words.get? (.text lexeme) = none →
    WordStep words (.ok (some (.ident lexeme))) (words.insert (.ident lexeme))

theorem words_skipBlockComment (lexer : Lexer) :
    lexer.skipBlockComment.2.words = lexer.words := by
  simp only [skipBlockComment]
  split <;> rfl

theorem words_skipLineComment (lexer : Lexer) : lexer.skipLineComment.words = lexer.words := by
  simp only [skipLineComment]
  split <;> rfl

theorem words_skipTrivia (lexer : Lexer) : lexer.skipTrivia.2.words = lexer.words := by
  fun_induction skipTrivia lexer with
  | case1 | case6 => rfl
  | case2 lexer c rest _ _ ih => exact ih
  | case3 lexer rest after hskip _ _ ih =>
    have hcomment := words_skipBlockComment lexer
    rw [hskip] at hcomment
    exact ih.trans hcomment
  | case4 lexer rest failure after hskip _ _ =>
    have hcomment := words_skipBlockComment lexer
    rwa [hskip] at hcomment
  | case5 lexer rest _ _ _ ih => exact ih.trans (words_skipLineComment lexer)

theorem wordStep_scanCharConst (lexer : Lexer) : WordStep lexer.words
    (lexer.scanCharConst.1.map some) lexer.scanCharConst.2.words := by
  simp only [scanCharConst]
  split
  · exact .other rfl
  · split <;> exact .other rfl

theorem wordStep_scanLiteral (lexer : Lexer) : WordStep lexer.words
    (lexer.scanLiteral.1.map some) lexer.scanLiteral.2.words := by
  simp only [scanLiteral]
  split <;> exact .other rfl

theorem wordStep_scanNumber (lexer : Lexer) : WordStep lexer.words
    (lexer.scanNumber.1.map some) lexer.scanNumber.2.words := by
  simp only [scanNumber]
  split
  · split
    · exact .other rfl
    · split <;> exact .other rfl
  · split <;> exact .other rfl

theorem wordStep_scanWord (lexer : Lexer) : WordStep lexer.words
    (lexer.scanWord.1.map some) lexer.scanWord.2.words := by
  simp only [scanWord]
  split
  · next token hknown => exact .known hknown
  · next hnew => exact .learned hnew

theorem wordStep_scanLexeme (lexer : Lexer) (c : Char) (rest : List Char) : WordStep lexer.words
    ((lexer.scanLexeme c rest).1.map some) (lexer.scanLexeme c rest).2.words := by
  unfold scanLexeme
  split
  · next pairing hpairing =>
    have hkinds : pairing.pair.kind ≠ .ident ∧ pairing.single.kind ≠ .ident := by
      unfold pairing? at hpairing
      split at hpairing <;> cases hpairing <;> decide
    split
    · exact .other (if_neg hkinds.1)
    · exact .other (if_neg hkinds.2)
  · split
    · next kind hkind =>
      have hne : kind ≠ .ident := by
        rintro rfl
        unfold singleKind? at hkind
        split at hkind <;> cases hkind
      exact .other (if_neg hne)
    · split
      · exact wordStep_scanCharConst lexer
      · split
        · exact wordStep_scanLiteral lexer
        · split
          · exact wordStep_scanNumber lexer
          · split
            · exact wordStep_scanWord lexer
            · exact .other rfl

/-- A scan does nothing else to the words. -/
theorem wordStep_scan (lexer : Lexer) :
    WordStep lexer.words lexer.scan.1 lexer.scan.2.words := by
  have htrivia := words_skipTrivia lexer
  unfold scan
  split
  · next failure after hskip =>
    rw [hskip] at htrivia
    rw [← htrivia]
    exact .other rfl
  · next after hskip =>
    rw [hskip] at htrivia
    rw [← htrivia]
    split
    · exact .other rfl
    · exact wordStep_scanLexeme after _ _

/-! ### Scan after scan -/

/-- The names that so many scans of a lexer yield, one after another. -/
def namesScanned (n : Nat) (lexer : Lexer) : List Payload :=
  (List.range n).filterMap fun i => nameOf? (lexer.afterScans i).scan.1

theorem namesScanned_succ (n : Nat) (lexer : Lexer) : namesScanned (n + 1) lexer =
    namesScanned n lexer ++ (nameOf? (lexer.afterScans n).scan.1).toList := by
  rw [namesScanned, List.range_succ, List.filterMap_append]
  rfl

/-- A step takes the words that follow from the names before it to those that follow from the
    names with its own. -/
theorem WordStep.withNames {names : List Payload} {result : Except ScanFailure (Option Token)}
    {words : Words} (h : WordStep (.withNames names.eraseDups) result words) :
    words = .withNames (names ++ (nameOf? result).toList).eraseDups := by
  cases h with
  | other hname => rw [hname, Option.toList_none, List.append_nil]
  | @known lexeme token hknown =>
    rw [Words.get?_withNames] at hknown
    cases hreserved : Words.reserved.get? (.text lexeme) with
    | some found =>
      rw [hreserved, Option.some_or] at hknown
      obtain rfl := Option.some.inj hknown
      obtain ⟨kind, hkind, -, rfl⟩ := Words.get?_reserved_eq_some hreserved
      have hne : kind ≠ .ident := by
        rintro rfl
        exact absurd hkind (by decide)
      rw [show nameOf? (.ok (some (.spelled kind))) = none from if_neg hne, Option.toList_none,
        List.append_nil]
    | none =>
      rw [hreserved, Option.none_or] at hknown
      split at hknown
      · next hmem =>
        obtain rfl := Option.some.inj hknown
        rw [show nameOf? (.ok (some ⟨.ident, .text lexeme⟩)) = some (.text lexeme) from rfl,
          Option.toList_some, eraseDups_concat, if_pos (List.mem_eraseDups.1 hmem)]
      · cases hknown
  | @learned lexeme hnew =>
    have hnot : Payload.text lexeme ∉ names := by
      intro hmem
      rw [Words.get?_withNames, if_pos (List.mem_eraseDups.2 hmem), Option.or_eq_none_iff] at hnew
      cases hnew.2
    rw [Words.insert_withNames hnew,
      show nameOf? (.ok (some (.ident lexeme))) = some (.text lexeme) from rfl,
      Option.toList_some, eraseDups_concat, if_neg hnot]

/-- After any number of scans, whatever came of each, a lexer knows the reserved words and the
    names that it has yielded, each where it first appeared. -/
theorem words_afterScans {lexer : Lexer} (h : lexer.words = .reserved) (n : Nat) :
    (lexer.afterScans n).words = .withNames (lexer.namesScanned n).eraseDups := by
  induction n with
  | zero =>
    rw [show lexer.afterScans 0 = lexer from rfl, h]
    exact congrArg Words.mk (List.append_nil _).symm
  | succ n ih =>
    have hstep := wordStep_scan (lexer.afterScans n)
    rw [ih] at hstep
    rw [afterScans_succ, namesScanned_succ]
    exact hstep.withNames

/-- No scan makes a lexer forget a reserved word or take anything but a name for a word. -/
theorem WordStep.sound {words words' : Words} {result : Except ScanFailure (Option Token)}
    (h : WordStep words result words') (hwords : Sound words) : Sound words' := by
  cases h with
  | other | known => exact hwords
  | learned hnew => exact hwords.insert hnew

theorem sound_afterScans {lexer : Lexer} (h : lexer.words = .reserved) (n : Nat) :
    Sound (lexer.afterScans n).words := by
  induction n with
  | zero =>
    rw [show lexer.afterScans 0 = lexer from rfl, h]
    exact sound_reserved
  | succ n ih =>
    rw [afterScans_succ]
    exact (wordStep_scan _).sound ih

/-! ### Words of the text -/

/-- The token of a word: the reserved one, or else a name. -/
def wordToken (w : List Char) : Token :=
  match Kind.reservedWords.find? (·.text = wordLexeme w) with
  | some kind => .spelled kind
  | none => .ident (wordLexeme w)

/-- Every word has its own token, whatever names are known. -/
theorem get?_eq_wordToken {words : Words} (hwords : Sound words) (w : List Char) :
    (words.get? (.text (wordLexeme w))).getD (.ident (wordLexeme w)) = wordToken w := by
  rw [wordToken]
  cases hfind : Kind.reservedWords.find? (·.text = wordLexeme w) with
  | some kind =>
    have htext : kind.text = wordLexeme w := by simpa using List.find?_some hfind
    rw [← htext, hwords.reserved kind (List.mem_of_find?_eq_some hfind)]
    rfl
  | none =>
    have hother : ∀ kind ∈ Kind.reservedWords, wordLexeme w ≠ kind.text := by
      intro kind hkind heq
      simpa [heq] using List.find?_eq_none.1 hfind kind hkind
    cases hget : words.get? (.text (wordLexeme w)) with
    | none => rfl
    | some token => exact hwords.name _ hother token hget

theorem scan_eq_wordToken {t w rest : List Char} {words : Words} (hwords : Sound words)
    (ht : Trivia t) (hw : IsWord w) (hrest : NotNext isWordChar rest) (line : Nat) :
    (scan ⟨t ++ (w ++ rest), line, words⟩).1 = .ok (some (wordToken w)) ∧
      (scan ⟨t ++ (w ++ rest), line, words⟩).2.text = rest := by
  rw [scan_trivia ht, scan_word hw hrest, ← get?_eq_wordToken hwords w]
  cases words.get? (.text (wordLexeme w)) <;> exact ⟨rfl, rfl⟩

/-- A token stands in the text as a lexeme after blanks and comments. -/
theorem exists_lexeme_of_scan {text : List Char} {line : Nat} {words : Words} {token : Token}
    (hwords : Sound words) (h : (scan ⟨text, line, words⟩).1 = .ok (some token)) :
    ∃ t w rest, text = t ++ (w ++ rest) ∧ Trivia t ∧ Lexeme w token rest := by
  obtain ⟨t, text, rfl, ht, hrest⟩ := exists_trivia text
  rw [scan_trivia ht] at h
  -- A numeral that is too large is neither: it begins a lexeme and still yields no token.
  have hsize : ¬ Oversized text := by
    intro hsize
    rcases scan_oversized hsize (line + t.count '\n') words with herror | herror <;>
      rw [herror] at h <;> cases h
  have hnot : ¬ Breaks text := by
    rintro (⟨cause, lines, hmalformed⟩ | hover)
    · obtain ⟨after, hscan, -⟩ := scan_malformed hmalformed hsize (line + t.count '\n') words
      rw [hscan] at h
      cases h
    · exact hsize hover
  obtain hending | hbreaks | ⟨c, after, rfl, hc⟩ := hrest
  · rw [scan_ending hending] at h
    cases h
  · exact absurd hbreaks hnot
  · obtain ⟨w, found, rest, heq, hlexeme⟩ := (begins_or_breaks hc after).resolve_right hnot
    rw [heq] at h hsize ⊢
    obtain ⟨known, -, hscan⟩ := scan_lexeme hlexeme (fun n => lt_of_not_oversized hlexeme hsize)
      hwords (line + t.count '\n')
    rw [hscan] at h
    cases h
    exact ⟨t, w, rest, rfl, ht, hlexeme⟩

/-- The kinds of the tokens that words yield. -/
def wordKinds : List Kind :=
  .ident :: Kind.reservedWords

/-- No other lexeme yields a token of such a kind. -/
theorem not_mem_wordKinds : ∀ kind ∈ Kind.pairs ++ (Kind.singles ++ (Kind.halves ++
    [.num, .real, .charConst, .literal, .symbol])), kind ∉ wordKinds := by
  decide

theorem isWord_of_lexeme {w rest : List Char} {token : Token} (h : Lexeme w token rest)
    (hkind : token.kind ∈ wordKinds) : IsWord w ∧ NotNext isWordChar rest := by
  cases h with
  | reserved hw hrest | name hw hrest => exact ⟨hw, hrest⟩
  | pair _ hmem =>
    exact absurd hkind (not_mem_wordKinds _ (List.mem_append_left _ hmem))
  | single _ hmem =>
    exact absurd hkind (not_mem_wordKinds _
      (List.mem_append_right _ (List.mem_append_left _ hmem)))
  | half hmem =>
    exact absurd hkind (not_mem_wordKinds _
      (List.mem_append_right _ (List.mem_append_right _ (List.mem_append_left _ hmem))))
  | _ => exact absurd hkind (not_mem_wordKinds _ (by simp [Token.num, Token.real,
      Token.charConst, Token.literal, Token.symbol]))

/-- A token of a word comes from a word of the text, and is the token of that word. -/
theorem exists_word_of_scan {text : List Char} {line : Nat} {words : Words} {token : Token}
    (hwords : Sound words) (h : (scan ⟨text, line, words⟩).1 = .ok (some token))
    (hkind : token.kind ∈ wordKinds) : ∃ t w rest, text = t ++ (w ++ rest) ∧ Trivia t ∧
      IsWord w ∧ NotNext isWordChar rest ∧ token = wordToken w := by
  obtain ⟨t, w, rest, rfl, ht, hlexeme⟩ := exists_lexeme_of_scan hwords h
  obtain ⟨hw, hrest⟩ := isWord_of_lexeme hlexeme hkind
  obtain ⟨hscan, -⟩ := scan_eq_wordToken hwords ht hw hrest line
  rw [h] at hscan
  exact ⟨t, w, rest, rfl, ht, hw, hrest, Option.some.inj (Except.ok.inj hscan)⟩

/-- After any number of scans of a text, whatever came of each: every reserved word has its
    reserved token, any other word that is known has the name that it is, and the words added
    are the names yielded so far in the order in which each first appeared. And every word that
    comes next in the text yields the token that it has by itself, whatever came before; there
    is no other way to come by a name or a reserved word. -/
theorem word_table (text : String) (n : Nat) :
    let lexer := (ofText text).afterScans n
    let names := ((ofText text).namesScanned n).eraseDups
    (∀ kind ∈ Kind.reservedWords, lexer.words.get? (.text kind.text) = some (.spelled kind)) ∧
    (∀ key token, lexer.words.get? key = some token →
      (∃ kind ∈ Kind.reservedWords, key = .text kind.text) ∨ token = ⟨.ident, key⟩) ∧
    lexer.words = .withNames names ∧ lexer.words.added = names ∧
    (∀ t w rest, lexer.text = t ++ (w ++ rest) → Trivia t → IsWord w → NotNext isWordChar rest →
      lexer.scan.1 = .ok (some (wordToken w)) ∧ lexer.scan.2.text = rest) ∧
    ∀ token, lexer.scan.1 = .ok (some token) → token.kind ∈ wordKinds →
      ∃ t w rest, lexer.text = t ++ (w ++ rest) ∧ Trivia t ∧ IsWord w ∧
        NotNext isWordChar rest ∧ token = wordToken w := by
  intro lexer names
  have hwords : lexer.words = .withNames names := words_afterScans rfl n
  have hsound : Sound lexer.words := sound_afterScans rfl n
  refine ⟨hsound.reserved, fun key token hget => ?_, hwords, ?_, ?_,
    fun token hscan hkind => exists_word_of_scan hsound hscan hkind⟩
  · rw [hwords, Words.get?_withNames, Option.or_eq_some_iff] at hget
    rcases hget with hreserved | ⟨-, hname⟩
    · obtain ⟨kind, hkind, hkey, -⟩ := Words.get?_reserved_eq_some hreserved
      exact .inl ⟨kind, hkind, hkey⟩
    · split at hname
      · exact .inr (Option.some.inj hname).symm
      · cases hname
  · rw [hwords, Words.added_withNames]
  · intro t w rest htext ht hw hrest
    have hscan := scan_eq_wordToken hsound ht hw hrest lexer.line
    rwa [← htext] at hscan

/-- The names of a text with a quote that is not closed: `b` comes up again and is stored once,
    and yields the name it is. -/
theorem word_table_repeated_name :
    let lexer := (ofText "B 'xy if b a").afterScans 4
    lexer.words.added = [.text "b", .text "y"] ∧
      lexer.scan.1 = .ok (some (.ident "b")) ∧
      ((ofText "B 'xy if b a").afterScans 6).words.added = [.text "b", .text "y", .text "a"] := by
  intro lexer
  obtain ⟨-, -, -, hadded, hword, -⟩ := word_table "B 'xy if b a" 4
  obtain ⟨-, -, -, hadded', -, -⟩ := word_table "B 'xy if b a" 6
  have hb : IsWord ['b'] := ⟨⟨'b', rfl, by decide⟩, List.forall_mem_singleton.2 (by decide)⟩
  have hscan := hword [' '] ['b'] [' ', 'a'] (by decide +kernel) (.blank (by decide) .nil) hb
    (notNext_cons ' ' ['a'] (by decide))
  exact ⟨hadded.trans (by decide +kernel), hscan.1.trans (by decide +kernel),
    hadded'.trans (by decide +kernel)⟩

end Lexer

end MiniPascal
