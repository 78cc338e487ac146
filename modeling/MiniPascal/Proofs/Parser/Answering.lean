import MiniPascal.Proofs.Parser.Effect
import MiniPascal.Proofs.Parser.Reached

/-!
# What a procedure answers

Expressions leave the symbol table alone, so what may be answered for one is a matter of the
table alone: `Parsing.Answers t P m` says that with the table `t` the procedure `m` answers only
what satisfies `P`. Such contracts are put together by `Answers.bind`, and a loop has the one
that its turns keep (`answers_whileLooking`).
-/

namespace MiniPascal

namespace Parsing

variable {α β : Type} {t : SymbolTable} {P : α → Prop} {Q : β → Prop}

/-- With the symbol table `t`, a procedure answers only what satisfies `P`, and leaves the table
    alone. -/
def Answers (t : SymbolTable) (P : α → Prop) (m : Parsing α) : Prop :=
  ∀ s a s', s.symbols = t → m.run s = .ok a s' → P a ∧ s'.symbols = t

theorem Answers.bind {m : Parsing α} {f : α → Parsing β} (h : Answers t P m)
    (hf : ∀ a, P a → Answers t Q (f a)) : Answers t Q (m >>= f) := by
  intro s b s' hs hrun
  obtain ⟨a, s₁, hm, hfa⟩ := exists_of_run_bind hrun
  obtain ⟨ha, hs₁⟩ := h s a s₁ hs hm
  exact hf a ha s₁ b s' hs₁ hfa

theorem answers_pure {a : α} (h : P a) : Answers t P (pure a) := by
  rintro s _ _ hs ⟨⟩
  exact ⟨h, hs⟩

theorem answers_failSyntax (expectation : Expectation) :
    Answers t P (failSyntax expectation) := by
  rintro s _ _ - ⟨⟩

theorem answers_failSemantic (cause : SemanticCause) : Answers t P (failSemantic cause) := by
  rintro s _ _ - ⟨⟩

theorem answers_of_spares {m : Parsing α} (h : Spares m) : Answers t (fun _ => True) m :=
  fun _ _ _ hs hrun => ⟨trivial, (symbols_of_spares h hrun).trans hs⟩

theorem answers_move : Answers t (fun _ => True) move := by
  intro s _ s' hs hrun
  have hsymbols := symbols_move s
  rw [hrun] at hsymbols
  exact ⟨trivial, hsymbols.trans hs⟩

theorem answers_expect (kind : Kind) : Answers t (fun _ => True) (expect kind) :=
  answers_of_spares fun _ => Invariant.keeps_expect kind

theorem answers_lookKind?_bind {f : Option Kind → Parsing β}
    (h : ∀ kind, Answers t Q (f kind)) : Answers t Q (lookKind? >>= f) := by
  intro s b s' hs hrun
  rw [run_bind, run_lookKind?, bind_ok] at hrun
  exact h _ s b s' hs hrun

theorem answers_looking_bind {p : Kind → Bool} {f : Bool → Parsing β}
    (h : ∀ b, Answers t Q (f b)) : Answers t Q (looking p >>= f) := by
  intro s b s' hs hrun
  rw [run_bind, run_looking, bind_ok] at hrun
  exact h _ s b s' hs hrun

/-- A loop answers what every turn answers, if it begins with that. -/
theorem answers_whileLooking {p : Kind → Bool} {step : Kind → α → Parsing α}
    (h : ∀ kind a, P a → Answers t P (step kind a)) {a : α} (ha : P a) :
    Answers t P (whileLooking p a step) := by
  have hrepeat (fuel : Nat) {a : α} (ha : P a) : Answers t P (repeatWhile p step fuel a) := by
    induction fuel generalizing a with
    | zero => exact answers_pure ha
    | succ fuel ih =>
      refine answers_lookKind?_bind fun kind => ?_
      split
      · exact answers_pure ha
      · split
        · exact (h _ a ha).bind fun b hb => ih hb
        · exact answers_pure ha
  exact fun s => hrepeat _ ha s

end Parsing

end MiniPascal
