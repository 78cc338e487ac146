import MiniPascal.Proofs.Editor.Sessions

/-!
# The title of the window

The title of a window names its current tab, throughout every session (`current_tab_shown`). Most
events bring the title up to date themselves, in the end; typing and saving do not, as they leave
the title of the tab alone.

This holds of the windows that an aborted event leaves, too. Such an event stops in the middle, but
what it has done by then is at most to give the current tab a file
(`Window.handle_of_abort`).
-/

namespace MiniPascal.Editor

/-- A window has a current tab. It is the one that the commands work on, and the one that the title
    of the window names. -/
structure Window.ShowsCurrent (window : Window) : Prop where
  current_lt : window.current < window.tabs.length
  tab? : window.tab? = some window.tabs[window.current]
  title : window.title = "Compiler - " ++ window.tabs[window.current].title

/-! ### Windows -/

namespace Window

variable {window : Window} {files : FileSystem}

theorem tab?_of_lt (h : window.current < window.tabs.length) :
    window.tab? = some window.tabs[window.current] :=
  List.getElem?_eq_getElem h

theorem tab?_modifyTab (window : Window) (change : Tab → Tab) :
    (window.modifyTab change).tab? = window.tab?.map change :=
  List.getElem?_modify_eq change window.current window.tabs

theorem tab?_refreshTitle (window : Window) : window.refreshTitle.tab? = window.tab? := rfl

theorem title_refreshTitle {tab : Tab} (h : window.tab? = some tab) :
    window.refreshTitle.title = "Compiler - " ++ tab.title := by
  rw [refreshTitle, h]
  rfl

theorem showsCurrent_iff : window.ShowsCurrent ↔
    ∃ tab, window.tab? = some tab ∧ window.title = "Compiler - " ++ tab.title := by
  constructor
  · exact fun h => ⟨_, h.tab?, h.title⟩
  · rintro ⟨tab, htab, htitle⟩
    obtain ⟨hlt, rfl⟩ := List.getElem?_eq_some_iff.1 htab
    exact ⟨hlt, htab, htitle⟩

/-- A title that is brought up to date names the current tab. -/
theorem showsCurrent_refreshTitle (h : window.current < window.tabs.length) :
    window.refreshTitle.ShowsCurrent :=
  showsCurrent_iff.2 ⟨_, tab?_of_lt h, title_refreshTitle (tab?_of_lt h)⟩

namespace ShowsCurrent

/-- There is nothing to bring up to date. -/
theorem refreshTitle_eq (h : window.ShowsCurrent) : window.refreshTitle = window := by
  have htitle := (title_refreshTitle h.tab?).trans h.title.symm
  exact congrArg (fun title => { window with title }) htitle

/-- What leaves the title of the current tab alone need not touch that of the window. -/
theorem modifyTab (h : window.ShowsCurrent) {change : Tab → Tab}
    (hchange : ∀ tab, (change tab).title = tab.title) : (window.modifyTab change).ShowsCurrent := by
  obtain ⟨tab, htab, htitle⟩ := showsCurrent_iff.1 h
  exact showsCurrent_iff.2 ⟨change tab, by rw [tab?_modifyTab, htab]; rfl,
    htitle.trans (by rw [hchange])⟩

theorem of_untouched (h : window.ShowsCurrent) {after : Window} (hsame : Untouched window after) :
    after.ShowsCurrent := by
  obtain ⟨tab, htab, htitle⟩ := showsCurrent_iff.1 h
  refine showsCurrent_iff.2 ⟨tab, ?_, hsame.title.trans htitle⟩
  rw [Window.tab?, hsame.tabs, hsame.current]
  exact htab

end ShowsCurrent

/-! ### Aborted events -/

theorem window_writeTo_of_abort {path : String} {abort : Abort}
    (h : (window.writeTo files path).abort? = some abort) :
    (window.writeTo files path).window = window := by
  rw [writeTo] at h ⊢
  split
  · rfl
  · next tab htab =>
    simp only [htab] at h
    split
    · exact window_failed _ _ _ _ _
    · next hwrite =>
      rw [hwrite] at h
      cases h

/-- A tab that was to be named after a file keeps its title if that is aborted. -/
theorem window_saveAs_of_abort {answer : String} {abort : Abort}
    (h : (window.saveAs files answer).abort? = some abort) : (window.saveAs files answer).window =
      window.modifyTab fun tab => { tab with path := some answer } := by
  by_cases hanswer : answer = ""
  · subst hanswer
    rw [saveAs_cancelled] at h
    cases h
  · rw [saveAs, if_neg hanswer] at h ⊢
    simp only at h ⊢
    split at h
    · next habort => exact window_writeTo_of_abort habort
    · next hnone =>
      rw [hnone] at h
      cases h

/-- An aborted event leaves the window as it was, or has given the current tab a file. -/
theorem handle_of_abort {action : Action} {abort : Abort}
    (h : (window.handle files action).abort? = some abort) :
    (window.handle files action).window = window ∨ ∃ path, (window.handle files action).window =
      window.modifyTab fun tab => { tab with path := some path } := by
  cases hcommand : action.command? with
  | none =>
    -- Without a command there is nothing to abort.
    cases action with
    | menu title label answer =>
      simp only [handle, Option.map_eq_none_iff.1 hcommand] at h
      cases h
    | key shortcut =>
      simp only [handle, Option.map_eq_none_iff.1 hcommand] at h
      cases h
    | type | select | close | store | remove => cases h
  | some given =>
    obtain ⟨command, answer⟩ := given
    rw [handle_of_command hcommand] at h ⊢
    cases command with
    | new | close => cases h
    | openFile =>
      simp only [perform] at h ⊢
      split at h
      · cases h
      · next hanswer =>
        rw [if_neg hanswer]
        cases hread : files.readText answer "utf-8" with
        | error failure => exact .inl (window_openPath_of_error hread)
        | ok text =>
          rw [openPath_of_ok hread] at h
          cases h
    | save =>
      simp only [perform, save] at h ⊢
      split at h
      · exact .inl (window_writeTo_of_abort h)
      · exact .inr ⟨answer, window_saveAs_of_abort h⟩
    | saveAs => exact .inr ⟨answer, window_saveAs_of_abort h⟩
    | lexicalAnalysis =>
      simp only [perform, analyse] at h ⊢
      split at h
      · exact .inl rfl
      · cases h
    | compile =>
      simp only [perform, check] at h ⊢
      split at h
      · exact .inl rfl
      · cases h

end Window

/-! ### Events -/

/-- After a turn the title names the current tab if it did so before. -/
theorem Turn.showsCurrent {window after : Window} {action : Action}
    (h : Turn window action after) (hshows : window.ShowsCurrent) : after.ShowsCurrent := by
  have hcurrent := h.current_lt hshows.current_lt
  cases h with
  | keeps hsame => exact hshows.of_untouched hsame
  | types text => exact hshows.modifyTab fun _ => rfl
  | saves => exact hshows.modifyTab fun _ => rfl
  | names | adds | opens | selects | removes | empties =>
    exact Window.showsCurrent_refreshTitle hcurrent

theorem Window.ShowsCurrent.handle {window : Window} (h : window.ShowsCurrent)
    (files : FileSystem) (action : Action) : (window.handle files action).window.ShowsCurrent := by
  cases habort : (window.handle files action).abort? with
  | none => exact (turn_of_handle habort).showsCurrent h
  | some abort =>
    rcases Window.handle_of_abort habort with hsame | ⟨path, hpath⟩
    · rwa [hsame]
    · rw [hpath]
      exact h.modifyTab fun _ => rfl

theorem Window.ShowsCurrent.play {window : Window} (h : window.ShowsCurrent)
    (files : FileSystem) (actions : List Action) :
    ∀ effect ∈ window.play files actions, effect.window.ShowsCurrent := by
  induction actions generalizing window files with
  | nil => exact List.forall_mem_nil _
  | cons action actions ih =>
    have hhandle := h.handle files action
    simp only [Window.play]
    split
    · exact List.forall_mem_singleton.2 hhandle
    · exact List.forall_mem_cons.2 ⟨hhandle, ih hhandle _⟩

theorem showsCurrent_initial : Window.initial.ShowsCurrent :=
  Window.showsCurrent_refreshTitle Nat.zero_lt_one

theorem Reachable.showsCurrent {window : Window} (h : Reachable window) : window.ShowsCurrent :=
  h.invariant showsCurrent_initial fun hshows hturn => hturn.showsCurrent hshows

theorem showsCurrent_opening (files : FileSystem) (file : Option String) :
    (Window.opening files file).window.ShowsCurrent := by
  rcases Reachable.turn_opening files file with heq | ⟨action, hturn⟩
  · rw [heq]
    exact showsCurrent_initial
  · exact hturn.showsCurrent showsCurrent_initial

/-- From the opening of a session on, and after each of its events, also one that fails or aborts
    it, the window has a current tab, which the commands work on and which its title names. -/
theorem current_tab_shown (files : FileSystem) (options : CommandLine.Options)
    (actions : List Action) :
    ∀ effect ∈ (Session.run files options actions).opening ::
      (Session.run files options actions).effects, effect.window.ShowsCurrent := by
  have hopening := showsCurrent_opening files options.file
  refine List.forall_mem_cons.2 ?_
  simp only [Session.run]
  split
  · exact ⟨hopening, List.forall_mem_nil _⟩
  · exact ⟨hopening, hopening.play _ actions⟩

/-- The first of three tabs is closed while the second is current, and then a file is asked for
    whose name holds a NUL. -/
theorem current_tab_shown_aborted :
    let session := Session.run ⟨[(["a.txt"], .file "x".toUTF8)]⟩
      { CommandLine.Options.default with ide := true, file := some "a.txt" }
      [.menu "File" "New" "", .select 1, .close 0, .menu "File" "Save as..." "b\x00"]
    let window : Window := ⟨[⟨"a.txt", "x", some "b\x00", false⟩, ⟨"New file", "", none, false⟩],
      0, "Compiler - a.txt", "", "", "", "Ready"⟩
    session.last ∈ session.opening :: session.effects ∧
      session.last.abort? = some .nameWithNul ∧ session.last.window = window ∧
      window.ShowsCurrent := by
  intro session window
  have hmem : session.last ∈ session.opening :: session.effects :=
    List.getLastD_mem_cons
  have hwindow : session.last.window = window := by decide +kernel
  exact ⟨hmem, by decide +kernel, hwindow,
    hwindow ▸ current_tab_shown _ _ _ session.last hmem⟩

end MiniPascal.Editor
