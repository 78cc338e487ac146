import MiniPascal.Proofs.Editor.Sessions

/-!
# Titles and files

The title of a tab should follow the file that its text belongs to (`Tab.Follows`). It does in all
tabs but the first, and in the first as long as that belongs to a file. The exception comes from
closing the only tab: that takes the file from it and leaves it the title. So all titles follow
their files throughout a session if and only if that is never done to a tab with the title of a
file (`titles_follow_iff`).
-/

namespace MiniPascal.Editor

/-! ### Last names -/

/-- A name is what stands behind the last slash of a path, or all of a path without one. -/
def IsLastName (name path : String) : Prop :=
  '/' ∉ name.toList ∧ (path = name ∨ ∃ directory, path = directory ++ "/" ++ name)

/-- A list is free of a value, or it has a last place where it stands. -/
theorem exists_last {α : Type} [DecidableEq α] (a : α) (l : List α) :
    a ∉ l ∨ ∃ before after, l = before ++ a :: after ∧ a ∉ after := by
  by_cases h : a ∈ l
  · obtain ⟨after, before, hreverse, hafter⟩ :=
      List.eq_append_cons_of_mem (List.mem_reverse.2 h)
    refine .inr ⟨before.reverse, after.reverse, ?_, by rwa [List.mem_reverse]⟩
    rw [← List.reverse_reverse l, hreverse, List.reverse_append, List.reverse_cons,
      List.append_assoc, List.singleton_append]
  · exact .inl h

theorem baseName_of_isLastName {name path : String} (h : IsLastName name path) :
    baseName path = name := by
  obtain ⟨hname, rfl | ⟨directory, rfl⟩⟩ := h
  · rw [baseName, List.splitOn_eq_singleton hname]
    simp
  · have hslash : "/".toList = ['/'] := rfl
    rw [baseName, String.toList_append, String.toList_append, hslash, List.append_assoc,
      List.singleton_append, List.splitOn_append_cons_self, List.splitOn_eq_singleton hname]
    simp

theorem isLastName_baseName (path : String) : IsLastName (baseName path) path := by
  have hexists : ∃ name, IsLastName name path := by
    rcases exists_last '/' path.toList with h | ⟨before, after, heq, hafter⟩
    · exact ⟨path, h, .inl rfl⟩
    · refine ⟨.ofList after, by rwa [String.toList_ofList], .inr ⟨.ofList before, ?_⟩⟩
      rw [← String.toList_inj]
      simpa using heq
  obtain ⟨name, hname⟩ := hexists
  rwa [baseName_of_isLastName hname]

/-! ### Tabs -/

/-- The title of a tab is the last name of its file, or that of a text which belongs to none. -/
def Tab.Follows (tab : Tab) : Prop :=
  match tab.path with
  | some path => IsLastName tab.title path
  | none => tab.title = Tab.freshTitle

/-- A property of tabs, by their place, that new tabs have and that what is done with tabs keeps,
    except to close the only one. -/
structure Persistent (P : Nat → Tab → Prop) : Prop where
  types {index : Nat} {tab : Tab} (text : String) : P index tab → P index (tab.type text)
  saves {index : Nat} {tab : Tab} : P index tab → P index tab.saved
  names {index : Nat} {tab : Tab} (path : String) (written : Bool) : P index tab →
    P index (tab.named path written)
  adds (index : Nat) : P index (.ofText "" Tab.freshTitle)
  opens (index : Nat) (path text : String) : P index (.ofFile path text)
  shifts {index : Nat} {tab : Tab} : P (index + 1) tab → P index tab

/-- All tabs of a window have a property that depends on their place. -/
def Window.All (window : Window) (P : Nat → Tab → Prop) : Prop :=
  ∀ index tab, window.tabs[index]? = some tab → P index tab

namespace Window.All

variable {window : Window} {P : Nat → Tab → Prop}

theorem modifyTab {change : Tab → Tab} (h : window.All P)
    (hchange : ∀ tab, window.tabs[window.current]? = some tab → P window.current (change tab)) :
    (window.modifyTab change).All P := by
  intro index tab htab
  rw [Window.tabs_modifyTab, List.getElem?_modify] at htab
  obtain ⟨before, hbefore, rfl⟩ := Option.map_eq_some_iff.1 htab
  split
  · next heq => exact heq ▸ hchange before (heq ▸ hbefore)
  · exact h index before hbefore

theorem addTab {tab : Tab} (h : window.All P) (hadded : P window.tabs.length tab) :
    (window.addTab tab).All P := by
  intro index other hother
  rw [Window.tabs_addTab, List.getElem?_append] at hother
  split at hother
  · exact h index other hother
  · next hlt =>
    rw [List.getElem?_singleton] at hother
    split at hother
    · next hzero =>
      obtain rfl : index = window.tabs.length := by omega
      cases hother
      exact hadded
    · cases hother

/-- The tabs behind the one that is removed take one place less. -/
theorem eraseIdx {tabs : List Tab} (hshift : ∀ {index tab}, P (index + 1) tab → P index tab)
    (h : ∀ index tab, tabs[index]? = some tab → P index tab) (removed : Nat) :
    ∀ index tab, (tabs.eraseIdx removed)[index]? = some tab → P index tab := by
  intro index tab htab
  rw [List.getElem?_eraseIdx] at htab
  split at htab
  · exact h index tab htab
  · exact hshift (h (index + 1) tab htab)

end Window.All

/-- A turn keeps a property of tabs if it does so in closing the only one. -/
theorem Turn.all {window after : Window} {action : Action} {P : Nat → Tab → Prop}
    (hturn : Turn window action after) (hpersists : Persistent P) (h : window.All P)
    (hcurrent : window.current < window.tabs.length)
    (hempties : window.Closes action 0 → ∀ tab, window.tabs = [tab] → P 0 tab.emptied) :
    after.All P := by
  cases hturn with
  | keeps hsame =>
    intro index tab htab
    exact h index tab (hsame.tabs ▸ htab)
  | types text => exact h.modifyTab fun tab htab => hpersists.types text (h _ tab htab)
  | saves => exact h.modifyTab fun tab htab => hpersists.saves (h _ tab htab)
  | @names path written =>
    exact h.modifyTab fun tab htab => hpersists.names path written (h _ tab htab)
  | adds => exact h.addTab (hpersists.adds _)
  | @opens path text => exact h.addTab (hpersists.opens _ path text)
  | selects => exact h
  | @removes index => exact Window.All.eraseIdx hpersists.shifts h index
  | empties hcloses honly =>
    -- The only tab is the first and the current one.
    obtain ⟨only, htabs⟩ := List.length_eq_one_iff.1 honly
    have hzero : window.current = 0 := by omega
    refine h.modifyTab fun tab htab => ?_
    rw [htabs, hzero] at htab
    cases htab
    rw [hzero]
    exact hempties hcloses only htabs

/-! ### Titles -/

/-- A tab follows its file, or is the first and has none. -/
def FollowsButFirst (index : Nat) (tab : Tab) : Prop :=
  tab.Follows ∨ index = 0 ∧ tab.path = none

theorem persistent_follows : Persistent fun _ tab => tab.Follows where
  types _ h := h
  saves h := h
  names path _ _ := isLastName_baseName path
  adds _ := rfl
  opens _ path _ := isLastName_baseName path
  shifts h := h

theorem persistent_followsButFirst : Persistent FollowsButFirst where
  types _ h := h
  saves h := h
  names path _ _ := .inl (isLastName_baseName path)
  adds _ := .inl rfl
  opens _ path _ := .inl (isLastName_baseName path)
  shifts h := .inl (h.resolve_right fun hfirst => Nat.succ_ne_zero _ hfirst.1)

theorem Persistent.initial {P : Nat → Tab → Prop} (h : Persistent P) : Window.initial.All P :=
  Window.All.addTab (fun _ _ hnone => by cases hnone) (h.adds 0)

/-- In every window all tabs but the first follow their files, and so does the first one if it
    has a file. -/
theorem Reachable.all_followsButFirst {window : Window} (h : Reachable window) :
    window.All FollowsButFirst := by
  refine (h.invariant (P := fun window => window.current < window.tabs.length ∧
    window.All FollowsButFirst) ⟨Nat.zero_lt_one, persistent_followsButFirst.initial⟩ ?_).2
  rintro window action after ⟨hcurrent, hall⟩ hturn
  refine ⟨hturn.current_lt hcurrent, hturn.all persistent_followsButFirst hall hcurrent ?_⟩
  exact fun _ _ _ => .inr ⟨rfl, rfl⟩

/-- All tabs of a window follow their files. -/
def Window.TitlesFollow (window : Window) : Prop :=
  ∀ tab ∈ window.tabs, tab.Follows

theorem Window.titlesFollow_iff_all {window : Window} :
    window.TitlesFollow ↔ window.All fun _ tab => tab.Follows := by
  constructor
  · intro h index tab htab
    exact h tab (List.mem_of_getElem? htab)
  · intro h tab hmem
    obtain ⟨index, htab⟩ := List.mem_iff_getElem?.1 hmem
    exact h index tab htab

theorem titlesFollow_opening (files : FileSystem) (file : Option String) :
    (Window.opening files file).window.TitlesFollow := by
  rw [Window.titlesFollow_iff_all]
  rcases Reachable.turn_opening files file with heq | ⟨action, hturn⟩
  · rw [heq]
    exact persistent_follows.initial
  · refine hturn.all persistent_follows persistent_follows.initial Nat.zero_lt_one ?_
    rintro - tab htabs
    -- The first tab has the title of a new file.
    cases htabs
    rfl

/-- An event closes the only tab, and the title of that is a file's. -/
def Window.EmptiesTitled (window : Window) (action : Action) : Prop :=
  window.Closes action 0 ∧ ∃ tab, window.tabs = [tab] ∧ tab.title ≠ Tab.freshTitle

/-- Where all tabs follow their files, they do so after an event unless it empties a tab with the
    title of a file. -/
theorem titlesFollow_handle_iff {window : Window} {files : FileSystem} {action : Action}
    (hcurrent : window.current < window.tabs.length) (h : window.TitlesFollow)
    (habort : (window.handle files action).abort? = none) :
    (window.handle files action).window.TitlesFollow ↔ ¬ window.EmptiesTitled action := by
  constructor
  · rintro hafter ⟨hcloses, tab, htabs, htitle⟩
    rw [Window.handle_of_closes hcloses, Window.Effect.ofWindow] at hafter
    have hemptied : tab.emptied ∈ (window.close 0).tabs := by
      rw [Window.tabs_close_only htabs hcurrent]
      exact List.mem_cons_self
    exact htitle (hafter _ hemptied)
  · intro hkeeps
    rw [Window.titlesFollow_iff_all] at h ⊢
    refine (turn_of_handle habort).all persistent_follows h hcurrent fun hcloses tab htabs => ?_
    by_contra htitle
    exact hkeeps ⟨hcloses, tab, htabs, htitle⟩

/-- However a session goes, every tab with a file has the last name of its path for a title, and
    every tab without one has the title of a new file, unless it is the first. All tabs follow
    their files throughout, if and only if no event ever closes the only tab while that has the
    title of a file. -/
theorem titles_follow_iff (files : FileSystem) (options : CommandLine.Options)
    (actions : List Action) :
    (∀ window ∈ (Session.run files options actions).window?, window.All FollowsButFirst) ∧
    ((∀ before, before <+: actions →
        ∀ window ∈ (Session.run files options before).window?, window.TitlesFollow) ↔
      ∀ before action, before ++ [action] <+: actions →
        ∀ window ∈ (Session.run files options before).window?, ¬ window.EmptiesTitled action) := by
  refine ⟨fun window hwindow => Reachable.all_followsButFirst ⟨_, _, _, hwindow⟩, ?_, ?_⟩
  · intro hfollow before action hprefix window hwindow hempties
    have hreachable : Reachable window := ⟨_, _, _, hwindow⟩
    have hbefore := hfollow before ((List.prefix_append _ _).trans hprefix) window hwindow
    -- Closing a tab aborts nothing, so the session goes on with what is left of it.
    have habort : (window.handle (Session.run files options before).last.files action).abort? =
        none := by
      rw [Window.handle_of_closes hempties.1]
      rfl
    have hafter := hfollow (before ++ [action]) hprefix _
      (Session.mem_window?_run_concat.2 ⟨window, hwindow, habort, rfl⟩)
    exact (titlesFollow_handle_iff hreachable.current_lt hbefore habort).1 hafter hempties
  · intro hkeeps before hprefix
    induction before using List.reverseRecOn with
    | nil =>
      intro window hwindow
      obtain ⟨-, rfl⟩ := Session.mem_window?_run_nil.1 hwindow
      exact titlesFollow_opening files options.file
    | append_singleton before action ih =>
      intro window hwindow
      obtain ⟨window, hbefore, habort, rfl⟩ := Session.mem_window?_run_concat.1 hwindow
      have hreachable : Reachable window := ⟨_, _, _, hbefore⟩
      have hfollows := ih ((List.prefix_append _ _).trans hprefix) window hbefore
      exact (titlesFollow_handle_iff hreachable.current_lt hfollows habort).2
        (hkeeps before action hprefix window hbefore)

/-- The only tab keeps the name of its file when it is closed. -/
theorem title_kept_by_close :
    ∃ window ∈ (Session.run .empty { CommandLine.Options.default with ide := true }
        [.menu "File" "Save as..." "a.txt", .close 0]).window?,
      ∃ tab ∈ window.tabs, tab.path = none ∧ tab.title = "a.txt" ∧ ¬ tab.Follows := by
  refine ⟨⟨[⟨"a.txt", "", none, true⟩], 0, "Compiler - a.txt", "", "", "", "Ready"⟩,
    by decide +kernel, _, List.mem_cons_self, rfl, rfl, ?_⟩
  change "a.txt" ≠ Tab.freshTitle
  decide

end MiniPascal.Editor
