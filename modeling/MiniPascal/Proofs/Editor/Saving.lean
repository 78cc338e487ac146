import MiniPascal.Proofs.Editor.Titles
import MiniPascal.Proofs.Editor.WindowTitle

/-!
# Saving

A command that saves writes the text of the current tab to one path (`Window.target?`), and tells
whether that could be done (`Window.writeText_of_succeeds`). If the operating system refuses it, the
files are as before, but the tab takes the name of the file all the same (`failed_save`): the
window is as before only if that is the file of the tab already.
-/

namespace MiniPascal.Editor

namespace Window

/-- The path chosen in a dialog, unless that is cancelled. -/
def chosen? (answer : String) : Option String :=
  if answer = "" then none else some answer

/-- The path that a command writes the current text to: the one of the tab's file, where a tab
    with a file is saved, or else the one asked for. -/
def target? (window : Window) (answer : String) : Command → Option String
  | .save => window.tab?.bind Tab.path <|> chosen? answer
  | .saveAs => chosen? answer
  | _ => none

variable {window : Window} {files files' : FileSystem} {tab : Tab} {path answer : String}

/-- The text is written to the file that the tab has, or to one that it is given. -/
theorem perform_of_target {command : Command} (h : window.target? answer command = some path) :
    window.tab?.bind Tab.path = some path ∧
        window.perform files answer command = window.writeTo files path ∨
      path ≠ "" ∧ window.perform files answer command = window.saveAs files path := by
  have hchosen (h : chosen? answer = some path) : path ≠ "" ∧ answer = path := by
    rw [chosen?] at h
    split at h
    · cases h
    · next hanswer =>
      cases h
      exact ⟨hanswer, rfl⟩
  cases command with
  | save =>
    rw [target?] at h
    cases howned : window.tab?.bind Tab.path with
    | some owned =>
      rw [howned] at h
      cases h
      exact .inl ⟨rfl, by rw [perform, save, howned]⟩
    | none =>
      rw [howned] at h
      obtain ⟨hpath, rfl⟩ := hchosen h
      exact .inr ⟨hpath, by rw [perform, save, howned]⟩
  | saveAs =>
    obtain ⟨hpath, rfl⟩ := hchosen h
    exact .inr ⟨hpath, rfl⟩
  | new | openFile | close | lexicalAnalysis | compile => cases h

/-! ### Writing the current text -/

/-- The tab named after a file that its text could not be written to. -/
theorem named_false (path : String) (tab : Tab) :
    tab.named path false = { tab with title := baseName path, path := some path } := by
  simp [Tab.named]

theorem writeTo_of_ok (htab : window.tab? = some tab)
    (h : files.writeText path tab.text = .ok files') :
    window.writeTo files path = .ofWindow (window.modifyTab Tab.saved) files' := by
  simp only [writeTo, htab, h]
  rfl

theorem writeTo_of_error {failure : FileFailure} (htab : window.tab? = some tab)
    (h : files.writeText path tab.text = .error failure) :
    window.writeTo files path = failed window files "save" path failure := by
  simp only [writeTo, htab, h]

theorem tab?_givePath (path : String) (htab : window.tab? = some tab) :
    (window.modifyTab fun tab => { tab with path := some path }).tab? =
      some { tab with path := some path } := by
  rw [tab?_modifyTab, htab]
  rfl

/-- Saving a tab as a file does to the files what writing its text there does. -/
theorem saveAs_agrees_writeTo (hpath : path ≠ "") (htab : window.tab? = some tab) :
    (window.saveAs files path).files = (window.writeTo files path).files ∧
      (window.saveAs files path).errors = (window.writeTo files path).errors ∧
      (window.saveAs files path).abort? = (window.writeTo files path).abort? := by
  have hgiven := tab?_givePath path htab
  simp only [saveAs, if_neg hpath]
  cases hwrite : files.writeText path tab.text with
  | ok files' =>
    rw [writeTo_of_ok hgiven hwrite, writeTo_of_ok htab hwrite]
    exact ⟨rfl, rfl, rfl⟩
  | error failure =>
    rw [writeTo_of_error hgiven hwrite, writeTo_of_error htab hwrite]
    cases failure <;> exact ⟨rfl, rfl, rfl⟩

/-- The tab is named after the file though its text cannot be written there. -/
theorem window_saveAs_of_access {failure : AccessFailure} (hpath : path ≠ "")
    (htab : window.tab? = some tab)
    (h : files.writeText path tab.text = .error (.access failure)) :
    (window.saveAs files path).window =
      (window.modifyTab fun tab =>
        { tab with title := baseName path, path := some path }).refreshTitle := by
  simp only [saveAs, if_neg hpath]
  rw [writeTo_of_error (tab?_givePath path htab) h]
  exact congrArg refreshTitle (modifyTab_modifyTab window _ _)

/-- What a command does to the files, and whether it can, is what writing the text to its target
    does. -/
theorem perform_agrees_writeTo {command : Command} (files : FileSystem)
    (htab : window.tab? = some tab) (htarget : window.target? answer command = some path) :
    (window.perform files answer command).files = (window.writeTo files path).files ∧
      (window.perform files answer command).errors = (window.writeTo files path).errors ∧
      (window.perform files answer command).abort? = (window.writeTo files path).abort? := by
  rcases perform_of_target htarget with ⟨-, hperform⟩ | ⟨hpath, hperform⟩
  · rw [hperform]
    exact ⟨rfl, rfl, rfl⟩
  · rw [hperform]
    exact saveAs_agrees_writeTo hpath htab

/-- Nothing kept an effect from being what was asked for. -/
structure Effect.Succeeds (effect : Effect) : Prop where
  errors : effect.errors = []
  abort? : effect.abort? = none

theorem modifyTab_eq_self {change : Tab → Tab} (htab : window.tab? = some tab)
    (h : change tab = tab) : window.modifyTab change = window := by
  have htabs : window.tabs.modify window.current change = window.tabs := by
    refine List.ext_getElem? fun index => ?_
    rw [List.getElem?_modify]
    split
    · next heq =>
      subst heq
      rw [tab?] at htab
      rw [htab]
      exact congrArg some h
    · exact Option.map_id'
  rw [modifyTab, htabs]

end Window

/-- A tab with a file is named after it. -/
theorem Reachable.named_eq_self {window : Window} {tab : Tab} {path : String}
    (h : Reachable window) (htab : window.tab? = some tab) (hpath : tab.path = some path) :
    { tab with title := baseName path, path := some path } = tab := by
  have hfollows : tab.Follows :=
    (h.all_followsButFirst _ tab htab).resolve_right fun hnone => by cases hpath.symm.trans hnone.2
  rw [Tab.Follows, hpath] at hfollows
  rw [baseName_of_isLastName hfollows, ← hpath]

/-- Where the operating system refuses to write the text of the current tab, the files are as
    before and the reason is told. The tab takes the name of the file, and nothing else is
    changed. So all is as before if and only if the file was that of the tab. -/
theorem failed_save {window : Window} {files : FileSystem} {tab : Tab} {path answer : String}
    {command : Window.Command} {failure : AccessFailure} (h : Reachable window)
    (htab : window.tab? = some tab) (htarget : window.target? answer command = some path)
    (hwrite : files.writeText path tab.text = .error (.access failure)) :
    (window.perform files answer command).files = files ∧
      (window.perform files answer command).errors =
        [s!"Could not save the file: {failure.report path}"] ∧
      (window.perform files answer command).abort? = none ∧
      (window.perform files answer command).window =
        (window.modifyTab fun tab =>
          { tab with title := baseName path, path := some path }).refreshTitle ∧
      ((window.perform files answer command).window = window ↔ tab.path = some path) := by
  obtain ⟨hfiles, herrors, habort⟩ := Window.perform_agrees_writeTo files htab htarget
  rw [Window.writeTo_of_error htab hwrite] at hfiles herrors habort
  have hkept (hpath : tab.path = some path) : (window.modifyTab fun tab =>
      { tab with title := baseName path, path := some path }).refreshTitle = window := by
    rw [Window.modifyTab_eq_self htab (h.named_eq_self htab hpath), h.showsCurrent.refreshTitle_eq]
  have hwindow : (window.perform files answer command).window =
      (window.modifyTab fun tab =>
        { tab with title := baseName path, path := some path }).refreshTitle := by
    rcases Window.perform_of_target htarget with ⟨howned, hperform⟩ | ⟨hpath, hperform⟩
    · rw [htab] at howned
      rw [hperform, Window.writeTo_of_error htab hwrite, Window.window_failed, hkept howned]
    · rw [hperform, Window.window_saveAs_of_access hpath htab hwrite]
  refine ⟨hfiles, herrors, habort, hwindow, fun hsame => ?_, fun hpath => ?_⟩
  · have hnamed := congrArg Window.tab? (hwindow.symm.trans hsame)
    rw [Window.tab?_refreshTitle, Window.tab?_modifyTab, htab] at hnamed
    exact (congrArg Tab.path (Option.some.inj hnamed)).symm
  · rw [hwindow, hkept hpath]

/-- The file of the tab has become a directory. -/
theorem failed_save_directory :
    let window : Window := ⟨[⟨"New file", "", none, false⟩, ⟨"a.txt", "x", some "a.txt", true⟩],
      1, "Compiler - a.txt", "", "", "", "Ready"⟩
    let files : FileSystem := ⟨[(["a.txt"], .directory)]⟩
    Reachable window ∧ window.target? "" .save = some "a.txt" ∧
      (window.perform files "" .save).errors =
        ["Could not save the file: [Errno 21] Is a directory: 'a.txt'"] ∧
      (window.perform files "" .save).window = window := by
  intro window files
  have hreachable : Reachable window := by
    refine ⟨⟨[(["a.txt"], .file ⟨#[]⟩)]⟩, { CommandLine.Options.default with file := some "a.txt" },
      [.type "x"], ?_⟩
    decide +kernel
  have htarget : window.target? "" .save = some "a.txt" := rfl
  have hwrite : files.writeText "a.txt" "x" = .error (.access .isDirectory) := rfl
  obtain ⟨-, herrors, -, -, hwindow⟩ := failed_save hreachable rfl htarget hwrite
  exact ⟨hreachable, htarget, herrors, hwindow.2 rfl⟩

/-- A tab that belongs to no file is saved in a directory that is not there, and is said to belong
    to that file from then on. -/
theorem failed_save_renames :
    let effect := Window.initial.perform .empty "missing/a.txt" .saveAs
    Reachable .initial ∧ Window.initial.target? "missing/a.txt" .saveAs = some "missing/a.txt" ∧
      effect.errors = ["Could not save the file: " ++
        "[Errno 2] No such file or directory: 'missing/a.txt'"] ∧
      Window.initial.tab?.bind Tab.path = none ∧
      effect.window.tab?.bind Tab.path = some "missing/a.txt" ∧
      Window.initial.title = "Compiler - New file" ∧
      effect.window.title = "Compiler - a.txt" := by
  refine ⟨⟨.empty, .default, [], ?_⟩, rfl, ?_⟩
  · decide +kernel
  · decide +kernel

end MiniPascal.Editor
