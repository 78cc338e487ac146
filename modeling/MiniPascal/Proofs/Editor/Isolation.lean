import MiniPascal.Proofs.Editor.Sessions

/-!
# Tabs keep to themselves

An operation on a tab leaves the others alone, in whatever window it is performed and whatever
the files are (`tabs_isolated`). Most operations are on the current tab (`KeepsOthers`). New tabs
come after the others (`Appends`), a closed one goes from among them, and an operation that is
cancelled or fails to read a file changes nothing at all.

None of this needs the operation to succeed: also where a save is aborted, only the current tab
has been changed.
-/

namespace MiniPascal.Editor

/-- All tabs but the current one are as before and where they were, and the same tab is current. -/
structure KeepsOthers (window after : Window) : Prop where
  length : after.tabs.length = window.tabs.length
  current : after.current = window.current
  others : ∀ index ≠ window.current, after.tabs[index]? = window.tabs[index]?

/-- A tab that nobody has changed comes after all tabs, which are as before, and is current. -/
structure Appends (tab : Tab) (window after : Window) : Prop where
  tabs : after.tabs = window.tabs ++ [tab]
  current : after.current = window.tabs.length
  unmodified : tab.modified = false

/-- What operations may do to the tabs of a window. -/
structure Isolated (window : Window) (files : FileSystem) : Prop where
  types : ∀ text, KeepsOthers window (window.type text)
  saves : ∀ answer, KeepsOthers window (window.perform files answer .save).window
  savesAs : ∀ answer, KeepsOthers window (window.perform files answer .saveAs).window
  analyses : ∀ answer, Untouched window (window.perform files answer .lexicalAnalysis).window
  checks : ∀ answer, Untouched window (window.perform files answer .compile).window
  adds : ∀ answer, Appends (.ofText "" Tab.freshTitle) window
    (window.perform files answer .new).window
  opens : ∀ path text, path ≠ "" → files.readText path "utf-8" = .ok text →
    Appends (.ofFile path text) window (window.perform files path .openFile).window
  failsToOpen : ∀ path failure, path ≠ "" → files.readText path "utf-8" = .error failure →
    (window.perform files path .openFile).window = window
  closesCurrent : ∀ answer, (window.perform files answer .close).window =
    window.close window.current
  removes : ∀ index, index < window.tabs.length → 1 < window.tabs.length →
    (window.close index).tabs = window.tabs.eraseIdx index
  empties : ∀ tab, window.tabs = [tab] →
    (window.close 0).tabs = [{ tab with text := "", path := none, modified := true }]
  cancels : ∀ command, (window.perform files "" command).asked ≠ [] →
    (window.perform files "" command).window = window

namespace KeepsOthers

variable {window after after' : Window}

theorem refl : KeepsOthers window window :=
  ⟨rfl, rfl, fun _ _ => rfl⟩

theorem trans (h : KeepsOthers window after) (h' : KeepsOthers after after') :
    KeepsOthers window after' where
  length := h'.length.trans h.length
  current := h'.current.trans h.current
  others index hindex := (h'.others index (h.current.symm ▸ hindex)).trans (h.others index hindex)

theorem modifyTab (window : Window) (change : Tab → Tab) :
    KeepsOthers window (window.modifyTab change) where
  length := List.length_modify ..
  current := rfl
  others _ hindex := List.getElem?_modify_ne change window.tabs hindex.symm

theorem refreshTitle (window : Window) : KeepsOthers window window.refreshTitle :=
  ⟨rfl, rfl, fun _ _ => rfl⟩

variable {files : FileSystem}

theorem writeTo (window : Window) (files : FileSystem) (path : String) :
    KeepsOthers window (window.writeTo files path).window := by
  rcases Window.window_writeTo window files path with h | h <;> rw [h]
  · exact .refl
  · exact .modifyTab window _

theorem saveAs (window : Window) (files : FileSystem) (answer : String) :
    KeepsOthers window (window.saveAs files answer).window := by
  rw [Window.saveAs]
  split
  · exact .refl
  -- The tab is given its path first and its title last, unless the writing is aborted.
  · have hnamed := KeepsOthers.modifyTab window fun tab => { tab with path := some answer }
    have hwritten := hnamed.trans (.writeTo _ files answer)
    simp only
    split
    · exact hwritten
    · exact (hwritten.trans (.modifyTab _ _)).trans (.refreshTitle _)

theorem save (window : Window) (files : FileSystem) (answer : String) :
    KeepsOthers window (window.save files answer).window := by
  rw [Window.save]
  split
  · exact .writeTo window files _
  · exact .saveAs window files answer

end KeepsOthers

namespace Window

variable {window : Window} {files : FileSystem}

theorem asked_failed (window : Window) (files : FileSystem) (purpose path : String)
    (failure : FileFailure) : (failed window files purpose path failure).asked = [] := by
  cases failure <;> rfl

theorem asked_writeTo (window : Window) (files : FileSystem) (path : String) :
    (window.writeTo files path).asked = [] := by
  rw [writeTo]
  split
  · rfl
  · split
    · exact asked_failed _ _ _ _ _
    · rfl

/-- A command whose dialog is cancelled does nothing to the window. -/
theorem window_perform_cancelled {command : Command}
    (h : (window.perform files "" command).asked ≠ []) :
    (window.perform files "" command).window = window := by
  cases command with
  | new | close => exact absurd rfl h
  | openFile => rfl
  | save =>
    simp only [perform, save] at h ⊢
    split at h
    · exact absurd (asked_writeTo _ _ _) h
    · rw [saveAs_cancelled]
      rfl
  | saveAs =>
    rw [perform, saveAs_cancelled]
    rfl
  | lexicalAnalysis =>
    simp only [perform, analyse] at h
    split at h <;> exact absurd rfl h
  | compile =>
    simp only [perform, check] at h
    split at h <;> exact absurd rfl h

/-- The tab of a file that is read comes after all others. -/
theorem perform_openFile {path : String} (h : path ≠ "") :
    window.perform files path .openFile =
      (window.openPath files path).afterAsking .openFile := by
  rw [perform, if_neg h]

end Window

/-- In every window that a session comes to, operations on a tab leave the others alone: an
    edit, a save, an analysis or a check keeps all tabs but the current one; new tabs come after
    the others, unmodified and current; closing a tab removes it, or empties it if it is the only
    one; and what is cancelled, or fails to read a file, keeps the whole window. -/
theorem tabs_isolated {window : Window} (h : Reachable window) (files : FileSystem) :
    Isolated window files where
  types text := .modifyTab window (·.type text)
  saves answer := .save window files answer
  savesAs answer := .saveAs window files answer
  analyses _ := window.untouched_analyse files
  checks _ := window.untouched_check files
  adds _ := ⟨rfl, rfl, rfl⟩
  opens path text hpath htext := by
    rw [Window.perform_openFile hpath, Window.openPath_of_ok htext]
    exact ⟨rfl, rfl, rfl⟩
  failsToOpen path failure hpath hfailure := by
    rw [Window.perform_openFile hpath]
    exact Window.window_openPath_of_error hfailure
  closesCurrent _ := rfl
  removes index hindex hmore := by
    rw [Window.close_of_lt hmore hindex]
    rfl
  empties tab htab := Window.tabs_close_only htab h.current_lt
  cancels _ := Window.window_perform_cancelled

/-- With two tabs, typing into the second keeps the first, closing the first keeps the second,
    and opening a file that is not there keeps both. -/
theorem tabs_isolated_two_tabs :
    let window : Window := ⟨[⟨"New file", "x", none, true⟩, ⟨"New file", "", none, false⟩], 1,
      "Compiler - New file", "", "", "", "Ready"⟩
    Reachable window ∧ KeepsOthers window (window.type "y") ∧
      (window.close 0).tabs = [⟨"New file", "", none, false⟩] ∧
      (window.perform .empty "a.txt" .openFile).window = window := by
  intro window
  have h : Reachable window :=
    ⟨.empty, .default, [.type "x", .menu "File" "New" ""], by decide +kernel⟩
  have hisolated := tabs_isolated h .empty
  have hmissing : FileSystem.empty.readText "a.txt" "utf-8" = .error (.access .missing) := by
    decide +kernel
  exact ⟨h, hisolated.types "y", hisolated.removes 0 (by decide) (by decide),
    hisolated.failsToOpen "a.txt" _ (by decide) hmissing⟩

end MiniPascal.Editor
