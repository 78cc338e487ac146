import MiniPascal.Editor.Session

/-!
# What an event does to a window

All that an event may do to a window, unless it aborts the session, is said once
(`turn_of_handle`): it changes nothing but the panes, works on the current tab, names it after a
file, adds a tab, makes another one current, removes one, or empties the only one. What holds of
the first window and is kept by each of these holds of every window that a session comes to
(`Reachable.invariant`).
-/

namespace MiniPascal.Editor

/-! ### Tabs -/

namespace Tab

/-- The tab whose text was written to its file. -/
def saved (tab : Tab) : Tab :=
  { tab with modified := false }

/-- The tab named after a file that its text was to be written to. -/
def named (path : String) (written : Bool) (tab : Tab) : Tab :=
  { tab with title := baseName path, path := some path, modified := tab.modified && !written }

/-- The tab of a text read from a file. -/
def ofFile (path text : String) : Tab :=
  { Tab.ofText text (baseName path) with path }

/-- The tab that is left when the only one is closed. -/
def emptied (tab : Tab) : Tab :=
  { tab.type "" with path := none }

end Tab

/-! ### Windows -/

/-- All tabs are as before, and so are the title of the window and which tab is current. -/
structure Untouched (window after : Window) : Prop where
  tabs : after.tabs = window.tabs
  current : after.current = window.current
  title : after.title = window.title

namespace Window

variable {window : Window} {files : FileSystem} {path answer : String}

@[simp]
theorem tabs_refreshTitle (window : Window) : window.refreshTitle.tabs = window.tabs := rfl

@[simp]
theorem current_refreshTitle (window : Window) : window.refreshTitle.current = window.current := rfl

@[simp]
theorem tabs_modifyTab (window : Window) (change : Tab → Tab) :
    (window.modifyTab change).tabs = window.tabs.modify window.current change := rfl

@[simp]
theorem current_modifyTab (window : Window) (change : Tab → Tab) :
    (window.modifyTab change).current = window.current := rfl

@[simp]
theorem tabs_addTab (window : Window) (tab : Tab) :
    (window.addTab tab).tabs = window.tabs ++ [tab] := rfl

@[simp]
theorem current_addTab (window : Window) (tab : Tab) :
    (window.addTab tab).current = window.tabs.length := rfl

theorem modifyTab_modifyTab (window : Window) (change change' : Tab → Tab) :
    (window.modifyTab change).modifyTab change' = window.modifyTab (change' ∘ change) := by
  simp [modifyTab, List.modify_modify_eq]

/-! ### Commands -/

@[simp]
theorem window_failed (window : Window) (files : FileSystem) (purpose path : String)
    (failure : FileFailure) : (failed window files purpose path failure).window = window := by
  cases failure <;> rfl

theorem openPath_of_ok {text : String} (h : files.readText path "utf-8" = .ok text) :
    window.openPath files path = .ofWindow (window.addTab (.ofFile path text)) files := by
  rw [openPath, h]
  rfl

theorem window_openPath_of_error {failure : FileFailure}
    (h : files.readText path "utf-8" = .error failure) :
    (window.openPath files path).window = window := by
  rw [openPath, h, window_failed]

/-- Writing the current text works on its tab, or does nothing to the window. -/
theorem window_writeTo (window : Window) (files : FileSystem) (path : String) :
    (window.writeTo files path).window = window ∨
      (window.writeTo files path).window = window.modifyTab Tab.saved := by
  rw [writeTo]
  split
  · exact .inl rfl
  · split
    · exact .inl (window_failed _ _ _ _ _)
    · exact .inr rfl

theorem saveAs_cancelled (window : Window) (files : FileSystem) :
    window.saveAs files "" = (Effect.ofWindow window files).afterAsking .saveFile := by
  rw [saveAs, if_pos rfl]

/-- A tab takes the name of the file asked for, whether its text can be written there or not. -/
theorem window_saveAs (hanswer : answer ≠ "") (h : (window.saveAs files answer).abort? = none) :
    ∃ written, (window.saveAs files answer).window =
      (window.modifyTab (Tab.named answer written)).refreshTitle := by
  rw [saveAs, if_neg hanswer] at h ⊢
  simp only at h ⊢
  split at h
  · next habort =>
    rw [habort] at h
    cases h
  simp only [Effect.afterAsking]
  rcases window_writeTo (window.modifyTab fun tab => { tab with path := some answer }) files answer
    with hwindow | hwindow
  · refine ⟨false, ?_⟩
    have hnamed : Tab.named answer false =
        (fun tab : Tab => { tab with title := baseName answer }) ∘
          fun tab => { tab with path := some answer } := by
      funext tab
      simp [Tab.named]
    rw [hwindow, modifyTab_modifyTab, hnamed]
  · refine ⟨true, ?_⟩
    have hnamed : Tab.named answer true =
        ((fun tab : Tab => { tab with title := baseName answer }) ∘ Tab.saved) ∘
          fun tab => { tab with path := some answer } := by
      funext tab
      simp [Tab.named, Tab.saved]
    rw [hwindow, modifyTab_modifyTab, modifyTab_modifyTab, hnamed]

/-- The results of an analysis or a check are shown beside the tabs. -/
theorem untouched_analyse (window : Window) (files : FileSystem) :
    Untouched window (window.analyse files).window := by
  simp only [analyse]
  split <;> exact ⟨rfl, rfl, rfl⟩

theorem untouched_check (window : Window) (files : FileSystem) :
    Untouched window (window.check files).window := by
  simp only [check]
  split <;> exact ⟨rfl, rfl, rfl⟩

/-! ### Tabs closed -/

theorem close_of_lt {index : Nat} (hmore : 1 < window.tabs.length)
    (hindex : index < window.tabs.length) : window.close index = refreshTitle { window with
      tabs := window.tabs.eraseIdx index
      current := currentAfterRemoval window.current index window.tabs.length } := by
  rw [close, if_pos hindex, if_pos hmore]

theorem close_of_only {index : Nat} (honly : window.tabs.length = 1) (hindex : index = 0) :
    window.close index = (window.modifyTab Tab.emptied).refreshTitle := by
  rw [close, if_pos (by omega), if_neg (by omega)]
  rfl

/-- The only tab is the current one. -/
theorem tabs_close_only {tab : Tab} (htabs : window.tabs = [tab])
    (hcurrent : window.current < window.tabs.length) : (window.close 0).tabs = [tab.emptied] := by
  have hzero : window.current = 0 := by
    rw [htabs, List.length_singleton] at hcurrent
    omega
  rw [close_of_only (by rw [htabs]; rfl) rfl, tabs_refreshTitle, tabs_modifyTab, htabs, hzero]
  rfl

theorem close_of_ge {index : Nat} (hindex : window.tabs.length ≤ index) :
    window.close index = window := by
  rw [close, if_neg (Nat.not_lt.2 hindex)]

end Window

/-! ### Events -/

/-- The command that an event gives, and the answer to the dialog that it may show. -/
def Action.command? : Action → Option (Window.Command × String)
  | .menu title label answer => (Window.command? title label).map (·, answer)
  | .key shortcut => (Window.commandOfKey? shortcut).map (·, "")
  | _ => none

/-- An event closes the tab of an index. -/
def Window.Closes (window : Window) (action : Action) (index : Nat) : Prop :=
  action = .close index ∨ (∃ answer, action.command? = some (.close, answer)) ∧
    index = window.current

/-- What an event that is not aborted does to a window. -/
inductive Turn (window : Window) (action : Action) : Window → Prop
  /-- It changes the panes at most. -/
  | keeps {after : Window} : Untouched window after → Turn window action after
  | types (text : String) : Turn window action (window.type text)
  | saves : Turn window action (window.modifyTab Tab.saved)
  | names {path : String} (written : Bool) : path ≠ "" →
      Turn window action (window.modifyTab (Tab.named path written)).refreshTitle
  | adds : Turn window action (window.addTab (.ofText "" Tab.freshTitle))
  | opens {path : String} (text : String) : path ≠ "" →
      Turn window action (window.addTab (.ofFile path text))
  | selects {index : Nat} : index < window.tabs.length →
      Turn window action { window with current := index }.refreshTitle
  | removes {index : Nat} : window.Closes action index → index < window.tabs.length →
      1 < window.tabs.length → Turn window action (Window.refreshTitle { window with
        tabs := window.tabs.eraseIdx index
        current := Window.currentAfterRemoval window.current index window.tabs.length })
  | empties : window.Closes action 0 → window.tabs.length = 1 →
      Turn window action (window.modifyTab Tab.emptied).refreshTitle

namespace Turn

variable {window : Window} {files : FileSystem} {action : Action}

theorem refl : Turn window action window :=
  .keeps ⟨rfl, rfl, rfl⟩

theorem of_close {index : Nat} (h : window.Closes action index) :
    Turn window action (window.close index) := by
  by_cases hindex : index < window.tabs.length
  · by_cases hmore : 1 < window.tabs.length
    · rw [Window.close_of_lt hmore hindex]
      exact .removes h hindex hmore
    · obtain rfl : index = 0 := by omega
      have honly : window.tabs.length = 1 := by omega
      rw [Window.close_of_only honly rfl]
      exact .empties h honly
  · rw [Window.close_of_ge (Nat.not_lt.1 hindex)]
    exact .refl

theorem of_writeTo (path : String) : Turn window action (window.writeTo files path).window := by
  rcases Window.window_writeTo window files path with h | h <;> rw [h]
  · exact .refl
  · exact .saves

theorem of_saveAs {answer : String} (h : (window.saveAs files answer).abort? = none) :
    Turn window action (window.saveAs files answer).window := by
  by_cases hanswer : answer = ""
  · subst hanswer
    rw [Window.saveAs_cancelled]
    exact .refl
  · obtain ⟨written, hwindow⟩ := Window.window_saveAs hanswer h
    rw [hwindow]
    exact .names written hanswer

theorem of_openPath {path : String} (hpath : path ≠ "") :
    Turn window action (window.openPath files path).window := by
  cases h : files.readText path "utf-8" with
  | error failure =>
    rw [Window.window_openPath_of_error h]
    exact .refl
  | ok text =>
    rw [Window.openPath_of_ok h]
    exact .opens text hpath

theorem of_perform {answer : String} {command : Window.Command}
    (hcommand : action.command? = some (command, answer))
    (h : (window.perform files answer command).abort? = none) :
    Turn window action (window.perform files answer command).window := by
  cases command with
  | new => exact .adds
  | openFile =>
    by_cases hanswer : answer = ""
    · simp only [Window.perform, if_pos hanswer]
      exact .refl
    · simp only [Window.perform, if_neg hanswer]
      exact .of_openPath hanswer
  | close => exact .of_close (.inr ⟨⟨answer, hcommand⟩, rfl⟩)
  | save =>
    simp only [Window.perform, Window.save] at h ⊢
    split at h
    · exact .of_writeTo _
    · exact .of_saveAs h
  | saveAs => exact .of_saveAs h
  | lexicalAnalysis => exact .keeps (window.untouched_analyse files)
  | compile => exact .keeps (window.untouched_check files)

end Turn

/-- An event that gives a command has the effect of that command. -/
theorem Window.handle_of_command {window : Window} {files : FileSystem} {action : Action}
    {command : Window.Command} {answer : String} (h : action.command? = some (command, answer)) :
    window.handle files action = window.perform files answer command := by
  cases action with
  | menu title label given =>
    obtain ⟨command, hcommand, heq⟩ := Option.map_eq_some_iff.1 h
    cases heq
    simp only [Window.handle, hcommand]
  | key shortcut =>
    obtain ⟨command, hcommand, heq⟩ := Option.map_eq_some_iff.1 h
    cases heq
    simp only [Window.handle, hcommand]
  | type | select | close | store | remove => cases h

/-- An event that closes a tab does nothing else. -/
theorem Window.handle_of_closes {window : Window} {files : FileSystem} {action : Action}
    {index : Nat} (h : window.Closes action index) :
    window.handle files action = .ofWindow (window.close index) files := by
  rcases h with rfl | ⟨⟨answer, hcommand⟩, rfl⟩
  · rfl
  · rw [Window.handle_of_command hcommand]
    rfl

/-- An event that is not aborted takes its turn. -/
theorem turn_of_handle {window : Window} {files : FileSystem} {action : Action}
    (h : (window.handle files action).abort? = none) :
    Turn window action (window.handle files action).window := by
  cases hcommand : action.command? with
  | some given =>
    rw [Window.handle_of_command hcommand] at h ⊢
    exact .of_perform hcommand h
  | none =>
    cases action with
    | menu title label answer =>
      simp only [Window.handle, Option.map_eq_none_iff.1 hcommand]
      exact .refl
    | key shortcut =>
      simp only [Window.handle, Option.map_eq_none_iff.1 hcommand]
      exact .refl
    | type text => exact .types text
    | select index =>
      simp only [Window.handle, Window.select]
      split
      · next hindex => exact .selects hindex.1
      · exact .refl
    | close index => exact .of_close (.inl rfl)
    | store path node => exact .refl
    | remove path => exact .refl

end MiniPascal.Editor
