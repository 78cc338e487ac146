import Mathlib.Data.List.Basic
import Mathlib.Data.List.Induction
import MiniPascal.Proofs.Editor.Turns

/-!
# The course of a session

A session takes one event after another from the window that it opens with, until one aborts it
(`Session.last_run`). What holds of the first window and is kept by every turn holds of each
window that a session comes to (`Reachable.invariant`). So a window always has a tab that is
current (`Reachable.current_lt`).
-/

namespace MiniPascal.Editor

/-- The effect of one more event, unless the session is aborted by then. -/
def Window.Effect.andThen (effect : Window.Effect) (action : Action) : Window.Effect :=
  match effect.abort? with
  | some _ => effect
  | none => effect.window.handle effect.files action

namespace Session

/-- After an abort nothing happens. -/
theorem foldl_andThen_of_abort {effect : Window.Effect} {abort : Abort}
    (h : effect.abort? = some abort) (actions : List Action) :
    actions.foldl Window.Effect.andThen effect = effect := by
  induction actions with
  | nil => rfl
  | cons action actions ih =>
    rw [List.foldl_cons, Window.Effect.andThen, h]
    exact ih

theorem getLastD_play {effect : Window.Effect} (h : effect.abort? = none) (actions : List Action) :
    (effect.window.play effect.files actions).getLastD effect =
      actions.foldl Window.Effect.andThen effect := by
  induction actions generalizing effect with
  | nil => rfl
  | cons action actions ih =>
    have hthen : effect.andThen action = effect.window.handle effect.files action := by
      rw [Window.Effect.andThen, h]
    rw [Window.play, List.foldl_cons, hthen]
    cases habort : (effect.window.handle effect.files action).abort? with
    | some abort =>
      simp only
      rw [foldl_andThen_of_abort habort]
      rfl
    | none =>
      simp only
      rw [List.getLastD_cons, ih habort]

/-- A session ends with the effects of its events one after another. -/
theorem last_run (files : FileSystem) (options : CommandLine.Options) (actions : List Action) :
    (run files options actions).last =
      actions.foldl Window.Effect.andThen (Window.opening files options.file) := by
  simp only [run]
  split
  · next abort habort =>
    rw [foldl_andThen_of_abort habort]
    rfl
  · next habort => exact getLastD_play habort actions

/-- The window that a session comes to, unless it is aborted. -/
def window? (session : Session) : Option Window :=
  if session.last.abort? = none then some session.last.window else none

theorem mem_window?_iff {session : Session} {window : Window} : window ∈ session.window? ↔
    session.last.abort? = none ∧ session.last.window = window := by
  simp [window?]

variable {files : FileSystem} {options : CommandLine.Options} {actions : List Action}
  {window : Window}

theorem mem_window?_run_nil : window ∈ (run files options []).window? ↔
    (Window.opening files options.file).abort? = none ∧
      (Window.opening files options.file).window = window := by
  rw [mem_window?_iff, last_run, List.foldl_nil]

/-- One more event changes the window that the session has come to. -/
theorem mem_window?_run_concat {action : Action} :
    window ∈ (run files options (actions ++ [action])).window? ↔
      ∃ before ∈ (run files options actions).window?,
        (before.handle (run files options actions).last.files action).abort? = none ∧
        (before.handle (run files options actions).last.files action).window = window := by
  have hlast : (run files options (actions ++ [action])).last =
      (run files options actions).last.andThen action := by
    rw [last_run, last_run, List.foldl_concat]
  rw [mem_window?_iff, hlast]
  simp only [mem_window?_iff, Window.Effect.andThen]
  cases habort : (run files options actions).last.abort? with
  | some abort => simp [habort]
  | none => simp

end Session

/-- A window that a session comes to. -/
def Reachable (window : Window) : Prop :=
  ∃ files options actions, window ∈ (Session.run files options actions).window?

namespace Reachable

variable {window : Window}

/-- Opening a session on a file is the turn of opening that file in the first window. -/
theorem turn_opening (files : FileSystem) (file : Option String) :
    (Window.opening files file).window = .initial ∨
      ∃ action, Turn .initial action (Window.opening files file).window := by
  rw [Window.opening.eq_def]
  split
  · exact .inl rfl
  · exact .inl rfl
  · next path hpath => exact .inr ⟨.menu "File" "Open" path, .of_openPath hpath⟩

/-- What holds of the first window and is kept by every turn holds of every window that a
    session comes to. -/
theorem invariant {P : Window → Prop} (hinitial : P .initial)
    (hturn : ∀ {window action after}, P window → Turn window action after → P after)
    (h : Reachable window) : P window := by
  obtain ⟨files, options, actions, hwindow⟩ := h
  induction actions using List.reverseRecOn generalizing window with
  | nil =>
    obtain ⟨-, rfl⟩ := Session.mem_window?_run_nil.1 hwindow
    rcases turn_opening files options.file with heq | ⟨action, hturns⟩
    · rwa [heq]
    · exact hturn hinitial hturns
  | append_singleton actions action ih =>
    obtain ⟨before, hbefore, habort, rfl⟩ := Session.mem_window?_run_concat.1 hwindow
    exact hturn (ih hbefore) (turn_of_handle habort)

end Reachable

theorem Turn.current_lt {window after : Window} {action : Action} (h : Turn window action after)
    (hcurrent : window.current < window.tabs.length) : after.current < after.tabs.length := by
  cases h with
  | keeps hsame => rwa [hsame.current, hsame.tabs]
  | types | saves | names | empties => simpa [Window.type] using hcurrent
  | adds | opens => simp
  | selects hindex => exact hindex
  | removes _ hindex hmore =>
    simp only [Window.tabs_refreshTitle, Window.current_refreshTitle, Window.currentAfterRemoval,
      List.length_eraseIdx_of_lt hindex]
    split
    · omega
    · split <;> omega

/-- There is always a current tab. -/
theorem Reachable.current_lt {window : Window} (h : Reachable window) :
    window.current < window.tabs.length :=
  h.invariant (P := fun window => window.current < window.tabs.length) Nat.zero_lt_one
    fun hcurrent hturn => hturn.current_lt hcurrent

end MiniPascal.Editor
